import Stellar8004.Web.Script

/-!
# Full-text search

`ftsMatch` of `apps/web/src/lib/server/search.ts`.
-/

namespace Stellar8004.Web

def STOPWORDS : List String :=
  ["i", "me", "my", "myself", "we", "our", "ours", "ourselves", "you",
    "your", "yours", "yourself", "yourselves", "he", "him", "his", "himself",
    "she", "her", "hers", "herself", "it", "its", "itself", "they", "them",
    "their", "theirs", "themselves", "what", "which", "who", "whom", "this",
    "that", "these", "those", "am", "is", "are", "was", "were", "be", "been",
    "being", "have", "has", "had", "having", "do", "does", "did", "doing",
    "a", "an", "the", "and", "but", "if", "or", "because", "as", "until",
    "while", "of", "at", "by", "for", "with", "about", "against", "between",
    "into", "through", "during", "before", "after", "above", "below", "to",
    "from", "up", "down", "in", "out", "on", "off", "over", "under", "again",
    "further", "then", "once", "here", "there", "when", "where", "why", "how",
    "all", "any", "both", "each", "few", "more", "most", "other", "some",
    "such", "no", "nor", "not", "only", "own", "same", "so", "than", "too",
    "very", "s", "t", "can", "will", "just", "don", "should", "now"]

def MAX_TERMS : Nat := 16

/-- `text.slice(0, count)`.  Half of a surrogate pair is no letter and ends
the last word as the end of the text does. -/
def sliceUnits : Nat → List Char → List Char
  | _, [] => []
  | count, first :: rest =>
      let units := if first.toNat < 0x10000 then 1 else 2
      if units ≤ count then first :: sliceUnits (count - units) rest else []

def ftsMatch (platform : Platform) (query : String) : Option String :=
  let words := (platform.normalize (sliceUnits 500 query.toList)).splitOnP
    fun char => !platform.isWordChar char
  let searched := (words.map String.ofList).filter fun term =>
    term ≠ "" && !STOPWORDS.contains (platform.toLowerCase term)
  -- A set keeps the order in which its members were added.
  let terms := searched.eraseDups.take MAX_TERMS
  if terms = [] then none
  else some (String.intercalate " AND "
    (terms.map fun term => "\"" ++ term ++ "\""))

end Stellar8004.Web
