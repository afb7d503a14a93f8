import Stellar8004.Web.Cursor

/-!
# A reader of cursors

A platform that does what the cursor rests on: it writes an integer as
JavaScript does and reads every text `JSON.stringify` writes for a cursor.
-/

namespace Stellar8004.Web

open Stellar8004.Indexer

/-! ## Quoted texts -/

/-- The character of an escape of two characters. -/
def escaped : Char → Option Char
  | '"' => some '"'
  | '\\' => some '\\'
  | 'b' => some (Char.ofNat 8)
  | 't' => some '\t'
  | 'n' => some '\n'
  | 'f' => some (Char.ofNat 12)
  | 'r' => some '\r'
  | _ => none

/-- The text up to the closing quote, and what follows it. -/
def readQuoted : List Char → Option (List Char × List Char)
  | '"' :: rest => some ([], rest)
  | '\\' :: 'u' :: '0' :: '0' :: high :: low :: rest => do
      let left ← radixDigit 16 high
      let right ← radixDigit 16 low
      let (text, after) ← readQuoted rest
      return (Char.ofNat (16 * left + right) :: text, after)
  | '\\' :: mark :: rest => do
      let char ← escaped mark
      let (text, after) ← readQuoted rest
      return (char :: text, after)
  | char :: rest => do
      let (text, after) ← readQuoted rest
      return (char :: text, after)
  | [] => none

theorem radixDigit_hexDigit : ∀ value < 16,
    radixDigit 16 (hexDigit value) = some value := by
  decide

/-- A character is read back. -/
theorem readQuoted_quoteChar (char : Char) {rest text after : List Char}
    (others : readQuoted rest = some (text, after)) :
    readQuoted ((quoteChar char).toList ++ rest) =
      some (char :: text, after) := by
  unfold quoteChar
  split_ifs with isQuote isSlash isBack isTab isLine isFeed isReturn isControl
  · subst isQuote
    simp [readQuoted, escaped, others]
  · subst isSlash
    simp [readQuoted, escaped, others]
  · subst isBack
    simp [readQuoted, escaped, others]
  · subst isTab
    simp [readQuoted, escaped, others]
  · subst isLine
    simp [readQuoted, escaped, others]
  · subst isFeed
    simp [readQuoted, escaped, others]
  · subst isReturn
    simp [readQuoted, escaped, others]
  · have high := radixDigit_hexDigit (char.toNat / 16) (by omega)
    have low := radixDigit_hexDigit (char.toNat % 16) (by omega)
    have whole : 16 * (char.toNat / 16) + char.toNat % 16 = char.toNat := by
      omega
    simp [readQuoted, high, low, others, whole]
  · simp [readQuoted, isSlash, others]

theorem readQuoted_quote (text : String) (rest : List Char) :
    readQuoted ((text.toList.map quoteChar).flatMap String.toList ++
      '"' :: rest) = some (text.toList, rest) := by
  induction text.toList with
  | nil => rfl
  | cons char others induction =>
      rw [List.map_cons, List.flatMap_cons, List.append_assoc]
      exact readQuoted_quoteChar char induction

/-! ## Numbers -/

/-- A number that is no integer is written as a fraction. -/
def fractionText (value : ℚ) : String :=
  toString value.num ++
    (if value.den = 1 then "" else "/" ++ toString (value.den : Int))

def readFraction (text : List Char) : Option ℚ := do
  let top ← integerText (text.takeWhile (· ≠ '/'))
  match text.dropWhile (· ≠ '/') with
  | [] => return top
  | _ :: bottom => return top / (← integerText bottom)

theorem fractionText_chars (value : ℚ) : ∀ char ∈ (fractionText value).toList,
    char = '-' ∨ char.isDigit = true ∨ char = '/' := by
  intro char member
  unfold fractionText at member
  rw [String.toList_append, List.mem_append] at member
  rcases member with inTop | inBottom
  · exact (integer_chars _ char inTop).imp_right .inl
  · split_ifs at inBottom
    · cases inBottom
    · rw [String.toList_append, List.mem_append] at inBottom
      rcases inBottom with isSlash | inBottom
      · exact .inr (.inr (List.mem_singleton.mp isSlash))
      · exact (integer_chars _ char inBottom).imp_right .inl

theorem readFraction_fractionText (value : ℚ) :
    readFraction (fractionText value).toList = some value := by
  have plain : ∀ char ∈ (toString value.num).toList,
      decide (char ≠ '/') = true := by
    intro char member
    rw [decide_eq_true_eq]
    rintro rfl
    have isPart := integer_chars value.num '/' member
    revert isPart
    decide
  unfold readFraction fractionText
  by_cases whole : value.den = 1
  · rw [if_pos whole, String.append_empty, List.takeWhile_eq_self_iff.mpr plain,
      List.dropWhile_eq_nil_iff.mpr plain, integerText_toString]
    exact congrArg some (Rat.coe_int_num_of_den_eq_one whole)
  · have bottom : ("/" ++ toString (value.den : Int)).toList =
        '/' :: (toString (value.den : Int)).toList := by
      rw [String.toList_append]
      rfl
    rw [if_neg whole, String.toList_append, bottom,
      List.takeWhile_append_of_pos plain, List.dropWhile_append_of_pos plain,
      List.takeWhile_cons_of_neg (by simp), List.append_nil,
      List.dropWhile_cons_of_neg (by simp), integerText_toString]
    simp only [integerText_toString, Option.bind_eq_bind, Option.bind_some]
    exact congrArg some (Rat.num_div_den value)

/-! ## Cursors -/

/-- What follows a fixed beginning. -/
def skip : List Char → List Char → Option (List Char)
  | [], text => some text
  | first :: expected, char :: text =>
      if first = char then skip expected text else none
  | _ :: _, [] => none

theorem skip_append (expected text : List Char) :
    skip expected (expected ++ text) = some text := by
  induction expected with
  | nil => rfl
  | cons first expected induction =>
      rw [List.cons_append, skip, if_pos rfl]
      exact induction

/-- The first entry of a key. -/
def readValue : List Char → Option (Json × List Char)
  | '"' :: rest => do
      let (text, after) ← readQuoted rest
      return (.text (String.ofList text), after)
  | rest => some (.number (String.ofList (rest.takeWhile (· ≠ ','))),
      rest.dropWhile (· ≠ ','))

def readCursorText (text : String) : Option Json := do
  let afterName ← skip "\x7b\"q\":\"".toList text.toList
  let (query, afterQuery) ← readQuoted afterName
  let (value, afterValue) ← readValue
    (← skip ",\"k\":[".toList afterQuery)
  let id ← skip ",".toList afterValue
  return .object [("q", .text (String.ofList query)),
    ("k", .array [value, .number (String.ofList
      (id.takeWhile (· ≠ ']')))])]

def readerPlatform : Platform :=
  { normalize := id
    isWordChar := fun char => char.isAlphanum || 0x80 ≤ char.toNat
    toLowerCase := String.toLower
    numberText := fractionText
    numberValue := fun text => (readFraction text.toList).getD 0
    parse := readCursorText
    jsonEach := fun _ => [] }

theorem toList_quote (text : String) :
    (quote text).toList =
      '"' :: ((text.toList.map quoteChar).flatMap String.toList ++ ['"']) := by
  unfold quote
  rw [String.toList_append, String.toList_append, String.toList_join]
  rfl

/-- The text of a cursor, cut as it is read. -/
theorem toList_cursorJson (query : String) (key : Key) :
    (cursorJson readerPlatform query key).stringify.toList =
      "\x7b\"q\":\"".toList ++
        ((query.toList.map quoteChar).flatMap String.toList ++ '"' ::
          (",\"k\":[".toList ++
            ((key.value.json readerPlatform).stringify.toList ++
              (",".toList ++ ((toString key.id).toList ++ [']', '\x7d']))))) := by
  have first : (quote "q").toList = ['"', 'q', '"'] := by
    rw [toList_quote]
    rfl
  have second : (quote "k").toList = ['"', 'k', '"'] := by
    rw [toList_quote]
    rfl
  rw [stringify_cursorJson]
  simp only [String.toList_append, toList_quote query, first, second,
    List.append_assoc, List.cons_append]
  rfl

theorem readValue_json (value : KeyValue) (rest : List Char) :
    readValue ((value.json readerPlatform).stringify.toList ++ ',' :: rest) =
      some (value.json readerPlatform, ',' :: rest) := by
  cases value with
  | text value =>
      change readValue ((quote value).toList ++ ',' :: rest) = _
      rw [toList_quote, List.cons_append, List.append_assoc]
      change (do
        let (text, after) ← readQuoted _
        return (Json.text (String.ofList text), after)) = _
      rw [List.singleton_append, readQuoted_quote]
      simp [KeyValue.json]
  | number value =>
      have chars := fractionText_chars value
      have noComma : ∀ char ∈ (fractionText value).toList,
          decide (char ≠ ',') = true := by
        intro char member
        rw [decide_eq_true_eq]
        rintro rfl
        have isPart := chars ',' member
        revert isPart
        decide
      have number : ∀ text : List Char, text.head? ≠ some '"' →
          readValue text = some (.number (String.ofList
            (text.takeWhile (· ≠ ','))), text.dropWhile (· ≠ ',')) := by
        intro text plain
        unfold readValue
        split
        · exact absurd rfl plain
        · rfl
      change readValue ((fractionText value).toList ++ ',' :: rest) = _
      rw [number, List.takeWhile_append_of_pos noComma,
        List.dropWhile_append_of_pos noComma,
        List.takeWhile_cons_of_neg (by simp), List.append_nil,
        List.dropWhile_cons_of_neg (by simp), String.ofList_toList]
      · rfl
      · cases isText : (fractionText value).toList with
        | nil => simp
        | cons first others =>
            rintro isQuote
            rw [isText] at chars
            have isPart := chars first List.mem_cons_self
            rw [Option.some.inj isQuote] at isPart
            revert isPart
            decide

theorem readCursorText_cursorJson (query : String) (key : Key) :
    readCursorText (cursorJson readerPlatform query key).stringify =
      some (cursorJson readerPlatform query key) := by
  have noBracket : ∀ char ∈ (toString key.id).toList,
      decide (char ≠ ']') = true := by
    intro char member
    rw [decide_eq_true_eq]
    rintro rfl
    have isPart := integer_chars key.id ']' member
    revert isPart
    decide
  unfold readCursorText
  rw [toList_cursorJson]
  simp only [skip_append, readQuoted_quote, Option.bind_eq_bind,
    Option.bind_some]
  have value : readValue ((key.value.json readerPlatform).stringify.toList ++
      (",".toList ++ ((toString key.id).toList ++ [']', '\x7d']))) =
        some (key.value.json readerPlatform,
          ",".toList ++ ((toString key.id).toList ++ [']', '\x7d'])) :=
    readValue_json key.value _
  rw [value]
  simp only [Option.bind_some, skip_append]
  rw [List.takeWhile_append_of_pos noBracket,
    List.takeWhile_cons_of_neg (by simp), List.append_nil,
    String.ofList_toList, String.ofList_toList]
  rfl

/-- What the cursor rests on can be had. -/
theorem readerPlatform_standard : readerPlatform.Standard := by
  refine ⟨fun value _ char member => ?_, fun value _ => ?_,
    fun query key _ => readCursorText_cursorJson query key⟩
  · rcases fractionText_chars value char member with
      isDash | isDigit | isSlash
    · subst isDash
      decide
    · exact (unreserved_plain (digit_unreserved isDigit)).1
    · subst isSlash
      decide
  · change (readFraction (fractionText value).toList).getD 0 = value
    rw [readFraction_fractionText]
    rfl

end Stellar8004.Web
