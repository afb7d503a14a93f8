import Stellar8004.Library.Base64
import Stellar8004.Web.SearchParams

/-!
# The cursor of a page

`encodeCursor` and `decodeCursor` of `apps/web/src/lib/server/api/discovery.ts`:
the query and the key of the last row, as JSON in URL-safe base64 without
padding.
-/

namespace Stellar8004.Web

open Stellar8004.Indexer

/-- The names of `SORTS`. -/
inductive SortName where
  | score
  | newest
  | id
  deriving DecidableEq

/-- A value JavaScript and SQLite exchange: a number or a text. -/
inductive KeyValue where
  | number (value : ℚ)
  | text (value : String)
  deriving DecidableEq

structure Key where
  value : KeyValue
  id : Int
  deriving DecidableEq

/-- `text.replace(/char/g, other)`. -/
def replaceAll (char other : Char) (text : String) : String :=
  String.ofList (text.toList.map fun here => if here = char then other else here)

def KeyValue.json (platform : Platform) : KeyValue → Json
  | number value => .number (platform.numberText value)
  | text value => .text value

/-- `{ q: query, k: key }`. -/
def cursorJson (platform : Platform) (query : String) (key : Key) : Json :=
  .object [("q", .text query),
    ("k", .array [key.value.json platform, .number (toString key.id)])]

/-- Nothing where `btoa` throws. -/
def encodeCursor (platform : Platform) (query : String) (key : Key) :
    Option String :=
  (Base64.btoa (cursorJson platform query key).stringify).map fun text =>
    String.ofList ((replaceAll '/' '_' (replaceAll '+' '-' text)).toList.rdropWhile
      (fun char => char = '='))

/-- `typeof value === keyType`. -/
def readKeyValue (platform : Platform) (sort : SortName) :
    Json → Option KeyValue
  | .text value => if sort = .newest then some (.text value) else none
  | .number text =>
      if sort = .newest then none
      else some (.number (platform.numberValue text))
  | _ => none

/-- The integer of a text that `JSON.stringify` writes for a number. -/
def integerText : List Char → Option Int
  | '-' :: digits => (wholeDigits digits).map fun value : Nat => -(value : Int)
  | digits => (wholeDigits digits).map fun value : Nat => (value : Int)

/-- `Number.isSafeInteger(value)`. -/
def readSafeInteger : Json → Option Int
  | .number text => (integerText text.toList).filter isSafeInteger
  | _ => none

/-- The checks on a parsed cursor. -/
def readCursor (platform : Platform) (query : String) (sort : SortName)
    (json : Json) : Option Key :=
  match json.get "q", json.get "k" with
  | some (.text q), some (.array [value, id]) =>
      if q = query then do
        return { value := ← readKeyValue platform sort value
                 id := ← readSafeInteger id }
      else none
  | _, _ => none

def decodeCursor (platform : Platform) (cursor query : String)
    (sort : SortName) : Option Key := do
  let text ← Base64.atob (replaceAll '_' '/' (replaceAll '-' '+' cursor))
  readCursor platform query sort (← platform.parse text)

/-! ## Characters of one byte -/

/-- `btoa` takes the text. -/
def Latin (text : String) : Prop :=
  ∀ char ∈ text.toList, char.toNat < 256

instance (text : String) : Decidable (Latin text) :=
  decidable_of_iff
    (text.toList.all (fun char => char.toNat < 256) = true)
    (by simp [Latin])

@[simp] theorem latin_append (left right : String) :
    Latin (left ++ right) ↔ Latin left ∧ Latin right := by
  unfold Latin
  rw [String.toList_append, List.forall_mem_append]

theorem Latin.bytes {text : String} (latin : Latin text) :
    ∀ byte ∈ text.toList.map Char.toNat, byte < 256 := by
  intro byte member
  obtain ⟨char, inside, rfl⟩ := List.mem_map.mp member
  exact latin char inside

theorem latin_join (texts : List String) :
    Latin (String.join texts) ↔ ∀ text ∈ texts, Latin text := by
  unfold Latin
  rw [String.toList_join]
  constructor
  · intro all text member char inText
    exact all char (List.mem_flatMap.mpr ⟨text, member, inText⟩)
  · intro each char member
    obtain ⟨text, isText, inText⟩ := List.mem_flatMap.mp member
    exact each text isText char inText

theorem hexDigit_latin : ∀ value < 16, (hexDigit value).toNat < 256 := by
  decide

/-- An escape has ASCII characters and stands for one. -/
theorem latin_quoteChar (char : Char) :
    Latin (quoteChar char) ↔ char.toNat < 256 := by
  unfold quoteChar
  split_ifs with isQuote isSlash isBack isTab isLine isFeed isReturn isControl
  · subst isQuote
    decide
  · subst isSlash
    decide
  · subst isBack
    decide
  · subst isTab
    decide
  · subst isLine
    decide
  · subst isFeed
    decide
  · subst isReturn
    decide
  · have small : char.toNat < 256 := by omega
    have high := hexDigit_latin (char.toNat / 16) (by omega)
    have low := hexDigit_latin (char.toNat % 16) (by omega)
    have start : Latin "\\u00" := by decide
    rw [latin_append]
    exact ⟨fun _ => small, fun _ => ⟨start, by simp [Latin, high, low]⟩⟩
  · simp [Latin, String.toList_singleton]

theorem latin_quote (text : String) : Latin (quote text) ↔ Latin text := by
  have mark : Latin "\"" := by decide
  unfold quote
  rw [latin_append, latin_append, latin_join]
  constructor
  · rintro ⟨⟨-, each⟩, -⟩ char member
    exact (latin_quoteChar char).mp (each _ (List.mem_map_of_mem member))
  · intro latin
    refine ⟨⟨mark, fun part member => ?_⟩, mark⟩
    obtain ⟨char, inText, rfl⟩ := List.mem_map.mp member
    exact (latin_quoteChar char).mpr (latin char inText)

/-! ## Integers -/

theorem wholeDigits_toDigits (value : Nat) :
    wholeDigits (Nat.toDigits 10 value) = some value := by
  have isDigits : (Nat.toDigits 10 value).all Char.isDigit = true := by
    rw [List.all_eq_true]
    intro char member
    exact Nat.isDigit_of_mem_toDigits (by omega) (by omega) member
  have same : digitsValue (Nat.toDigits 10 value) = value :=
    Nat.ofDigitChars_ten_toDigits
  unfold wholeDigits
  rw [if_pos ⟨Nat.toDigits_ne_nil, isDigits⟩, same]

theorem toList_toString_ofNat (value : Nat) :
    (toString (Int.ofNat value)).toList = Nat.toDigits 10 value :=
  Nat.toList_repr

theorem toList_toString_negSucc (value : Nat) :
    (toString (Int.negSucc value)).toList =
      '-' :: Nat.toDigits 10 (value + 1) := by
  change ("-" ++ Nat.repr (value + 1)).toList = _
  rw [String.toList_append, Nat.toList_repr]
  rfl

theorem integer_chars (value : Int) :
    ∀ char ∈ (toString value).toList, char = '-' ∨ char.isDigit = true := by
  intro char member
  cases value with
  | ofNat value =>
      rw [toList_toString_ofNat] at member
      exact .inr (Nat.isDigit_of_mem_toDigits (by omega) (by omega) member)
  | negSucc value =>
      rw [toList_toString_negSucc] at member
      rcases List.mem_cons.mp member with isDash | inDigits
      · exact .inl isDash
      · exact .inr
          (Nat.isDigit_of_mem_toDigits (by omega) (by omega) inDigits)

theorem integerText_toString (value : Int) :
    integerText (toString value).toList = some value := by
  cases value with
  | ofNat value =>
      have plain : ∀ rest, Nat.toDigits 10 value ≠ '-' :: rest := by
        intro rest isDash
        have digit := Nat.isDigit_of_mem_toDigits (b := 10) (n := value)
          (c := '-') (by omega) (by omega) (by rw [isDash]; simp)
        exact absurd digit (by decide)
      rw [toList_toString_ofNat]
      unfold integerText
      split
      · rename_i rest isDash
        exact absurd isDash (plain rest)
      · rw [wholeDigits_toDigits]
        rfl
  | negSucc value =>
      rw [toList_toString_negSucc, integerText, wholeDigits_toDigits]
      rfl

theorem integer_ascii (value : Int) :
    ∀ char ∈ (toString value).toList, char.toNat < 0x80 := by
  intro char member
  rcases integer_chars value char member with isDash | isDigit
  · subst isDash
    decide
  · exact (unreserved_plain (digit_unreserved isDigit)).1

theorem latin_integer (value : Int) : Latin (toString value) := by
  intro char member
  exact Nat.lt_of_lt_of_le (integer_ascii value char member) (by omega)

/-! ## Round trips -/

/-- What a row and `Number.isSafeInteger` promise of a key. -/
def Key.Exact (key : Key) : Prop :=
  (∀ value, key.value = .number value → IsDouble value) ∧
    isSafeInteger key.id = true

/-- The key has the type that the sort asks for. -/
def Key.Fits (key : Key) (sort : SortName) : Prop :=
  match key.value with
  | .number _ => sort ≠ .newest
  | .text _ => sort = .newest

/-- What the cursor rests on: a number is written in ASCII and read back, and
`JSON.parse` inverts `JSON.stringify` on the cursors. -/
structure Platform.Standard (platform : Platform) : Prop where
  ascii : ∀ value, IsDouble value →
    ∀ char ∈ (platform.numberText value).toList, char.toNat < 0x80
  exact : ∀ value, IsDouble value →
    platform.numberValue (platform.numberText value) = value
  parse : ∀ query key, Key.Exact key →
    platform.parse (cursorJson platform query key).stringify =
      some (cursorJson platform query key)

/-- The text of a key is of one byte a character. -/
def Key.Latin (key : Key) : Prop :=
  ∀ text, key.value = .text text → Web.Latin text

section

variable {platform : Platform} {query : String} {key : Key}

theorem stringify_cursorJson (platform : Platform) (query : String)
    (key : Key) :
    (cursorJson platform query key).stringify =
      "\x7b" ++ (quote "q" ++ ":" ++ quote query ++ "," ++
        (quote "k" ++ ":" ++ ("[" ++ ((key.value.json platform).stringify ++
          "," ++ toString key.id) ++ "]"))) ++ "\x7d" := by
  simp [cursorJson, Json.stringify, stringifyFields, stringifyAll,
    String.append_assoc]

theorem latin_cursorJson (standard : platform.Standard) (exact : key.Exact) :
    Latin (cursorJson platform query key).stringify ↔
      Latin query ∧ key.Latin := by
  have isValue : Latin (key.value.json platform).stringify ↔ key.Latin := by
    cases isKey : key.value with
    | number value =>
        have written : Latin (platform.numberText value) := by
          intro char member
          have small := standard.ascii value (exact.1 value isKey) char member
          omega
        simp [KeyValue.json, Json.stringify, Key.Latin, isKey, written]
    | text value =>
        simp [KeyValue.json, Json.stringify, Key.Latin, isKey, latin_quote]
  have marks : Latin "\x7b" ∧ Latin "\x7d" ∧ Latin ":" ∧ Latin "," ∧
      Latin "[" ∧ Latin "]" ∧ Latin (quote "q") ∧ Latin (quote "k") := by
    refine ⟨?_, ?_, ?_, ?_, ?_, ?_, (latin_quote _).mpr ?_,
      (latin_quote _).mpr ?_⟩
    all_goals decide
  rw [stringify_cursorJson]
  simp only [latin_append, marks, latin_quote query, isValue,
    latin_integer key.id, true_and, and_true]

/-- The two replacements of the URL-safe alphabet. -/
def safeDigit (char : Char) : Char :=
  let dashed := if char = '+' then '-' else char
  if dashed = '/' then '_' else dashed

/-- The two replacements that undo them. -/
def plainDigit (char : Char) : Char :=
  let plus := if char = '-' then '+' else char
  if plus = '_' then '/' else plus

theorem safeDigit_eq_equals (char : Char) :
    (safeDigit char = '=') = (char = '=') := by
  unfold safeDigit
  apply propext
  by_cases isPlus : char = '+'
  · subst isPlus
    decide
  · by_cases isSlash : char = '/'
    · subst isSlash
      decide
    · simp [isPlus, isSlash]

/-- A cursor is the digits of its JSON in the URL-safe alphabet. -/
theorem encodeCursor_eq
    (latin : Latin (cursorJson platform query key).stringify) :
    encodeCursor platform query key = some (String.ofList ((Base64.digits
      ((cursorJson platform query key).stringify.toList.map
        Char.toNat)).map safeDigit)) := by
  have small := latin.bytes
  have all : (cursorJson platform query key).stringify.toList.all
      (fun char => char.toNat < 256) = true := by
    rw [List.all_eq_true]
    exact fun char inside => decide_eq_true (latin char inside)
  have padded := Base64.rdropWhile_encode small
  unfold encodeCursor Base64.btoa
  rw [if_pos all, Option.map_some]
  generalize (cursorJson platform query key).stringify.toList.map Char.toNat =
    bytes at padded ⊢
  have safe : (replaceAll '/' '_' (replaceAll '+' '-'
      (String.ofList (Base64.encode bytes)))).toList =
        (Base64.encode bytes).map safeDigit := by
    simp only [replaceAll, String.toList_ofList, List.map_map]
    rfl
  rw [safe, ← padded]
  unfold List.rdropWhile
  rw [← List.map_reverse, List.dropWhile_map, List.map_reverse]
  simp only [Function.comp_def, safeDigit_eq_equals]

theorem encodeCursor_isSome_iff : (encodeCursor platform query key).isSome ↔
    Latin (cursorJson platform query key).stringify := by
  constructor
  · intro issued
    by_contra wide
    have refused : (cursorJson platform query key).stringify.toList.all
        (fun char => char.toNat < 256) = false := by
      rw [← Bool.not_eq_true, List.all_eq_true]
      exact fun all => wide fun char inside => of_decide_eq_true
        (all char inside)
    simp [encodeCursor, Base64.btoa, refused] at issued
  · intro latin
    rw [encodeCursor_eq latin]
    rfl

theorem plainDigit_safeDigit {char : Char} (notDash : char ≠ '-')
    (notUnder : char ≠ '_') : plainDigit (safeDigit char) = char := by
  unfold plainDigit safeDigit
  by_cases isPlus : char = '+'
  · subst isPlus
    decide
  · by_cases isSlash : char = '/'
    · subst isSlash
      decide
    · simp [isPlus, isSlash, notDash, notUnder]

section

variable {cursor : String}
  (issued : encodeCursor platform query key = some cursor)

include issued

theorem encodeCursor_unreserved :
    ∀ char ∈ cursor.toList, isUnreserved char = true := by
  have latin := encodeCursor_isSome_iff.mp
    (Option.isSome_of_eq_some issued)
  rw [encodeCursor_eq latin] at issued
  rw [← Option.some.inj issued, String.toList_ofList]
  intro char member
  obtain ⟨digit, inside, rfl⟩ := List.mem_map.mp member
  obtain ⟨-, -, -, -, plus | slash | alphanum⟩ := Base64.digits_plain
    latin.bytes digit inside
  · subst plus
    decide
  · subst slash
    decide
  · have notPlus : digit ≠ '+' := by
      rintro rfl
      exact absurd alphanum (by decide)
    have notSlash : digit ≠ '/' := by
      rintro rfl
      exact absurd alphanum (by decide)
    simp [safeDigit, isUnreserved, notPlus, notSlash, alphanum]

theorem atob_encodeCursor :
    Base64.atob (replaceAll '_' '/' (replaceAll '-' '+' cursor)) =
      some (cursorJson platform query key).stringify := by
  have latin := encodeCursor_isSome_iff.mp
    (Option.isSome_of_eq_some issued)
  rw [encodeCursor_eq latin] at issued
  rw [← Option.some.inj issued]
  have small := latin.bytes
  have restored : (replaceAll '_' '/' (replaceAll '-' '+' (String.ofList
      ((Base64.digits ((cursorJson platform query key).stringify.toList.map
        Char.toNat)).map safeDigit)))).toList =
      Base64.digits ((cursorJson platform query key).stringify.toList.map
        Char.toNat) := by
    simp only [replaceAll, String.toList_ofList, List.map_map]
    rw [List.map_congr_left (g := id), List.map_id]
    intro char member
    have plain := Base64.digits_plain small char member
    exact plainDigit_safeDigit plain.2.2.1 plain.2.2.2.1
  unfold Base64.atob
  rw [restored, Base64.decode_digits small, Option.map_some, List.map_map]
  rw [List.map_congr_left (g := id), List.map_id, String.ofList_toList]
  intro char _
  exact Char.ofNat_toNat char

end

theorem readKeyValue_json_iff (standard : platform.Standard)
    (exact : key.Exact) (sort : SortName) {read : KeyValue} :
    readKeyValue platform sort (key.value.json platform) = some read ↔
      key.Fits sort ∧ read = key.value := by
  unfold Key.Fits
  cases isKey : key.value with
  | number value =>
      have written := standard.exact value (exact.1 value isKey)
      by_cases newest : sort = .newest
      · simp [KeyValue.json, readKeyValue, newest]
      · simp [KeyValue.json, readKeyValue, newest, written, eq_comm]
  | text value =>
      by_cases newest : sort = .newest
      · simp [KeyValue.json, readKeyValue, newest, eq_comm]
      · simp [KeyValue.json, readKeyValue, newest]

theorem readSafeInteger_toString (exact : key.Exact) :
    readSafeInteger (.number (toString key.id)) = some key.id := by
  rw [readSafeInteger, integerText_toString, Option.filter_some, exact.2]
  rfl

theorem readCursor_cursorJson_iff (standard : platform.Standard)
    (exact : key.Exact) (other : String) (sort : SortName) {read : Key} :
    readCursor platform other sort (cursorJson platform query key) =
        some read ↔
      query = other ∧ key.Fits sort ∧ read = key := by
  have isQuery : (cursorJson platform query key).get "q" =
      some (.text query) := rfl
  have isKey : (cursorJson platform query key).get "k" =
      some (.array [key.value.json platform, .number (toString key.id)]) :=
    rfl
  unfold readCursor
  simp only [isQuery, isKey, readSafeInteger_toString exact]
  by_cases same : query = other
  · rw [if_pos same]
    have value : readKeyValue platform sort (key.value.json platform) =
        some read.value ↔ key.Fits sort ∧ read.value = key.value :=
      readKeyValue_json_iff standard exact sort
    cases found : readKeyValue platform sort (key.value.json platform) with
    | none =>
        rw [found] at value
        refine iff_of_false (by simp) ?_
        rintro ⟨-, fits, rfl⟩
        exact absurd (value.mpr ⟨fits, rfl⟩) (by simp)
    | some first =>
        obtain ⟨fits, rfl⟩ := (readKeyValue_json_iff standard exact sort).mp
          found
        simp only [same, fits, true_and]
        exact ⟨fun isKey => (Option.some.inj isKey).symm,
          fun isKey => congrArg some isKey.symm⟩
  · simp [same]

/-- An issued cursor is read with its own query and a sort of its type, and
then gives its key. -/
theorem decodeCursor_issued_iff (standard : platform.Standard)
    (exact : key.Exact) {cursor : String}
    (issued : encodeCursor platform query key = some cursor) (other : String)
    (sort : SortName) {read : Key} :
    decodeCursor platform cursor other sort = some read ↔
      query = other ∧ key.Fits sort ∧ read = key := by
  unfold decodeCursor
  rw [atob_encodeCursor issued, Option.bind_eq_bind, Option.bind_some,
    standard.parse query key exact, Option.bind_eq_bind, Option.bind_some,
    readCursor_cursorJson_iff standard exact]

end

end Stellar8004.Web
