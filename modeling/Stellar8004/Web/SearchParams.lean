import Stellar8004.Indexer.Decoding
import Stellar8004.Web.Script

/-!
# The parameters of an address

`url.searchParams`: the query of an address, read as
`application/x-www-form-urlencoded`.
-/

namespace Stellar8004.Web

open Stellar8004.Indexer

/-- The byte three bytes stand for, where they are an escape. -/
def percentByte (first high low : UInt8) : Option UInt8 :=
  if first = 0x25 then do
    let left ← radixDigit 16 (Char.ofNat high.toNat)
    let right ← radixDigit 16 (Char.ofNat low.toNat)
    return UInt8.ofNat (16 * left + right)
  else none

def percentDecode : List UInt8 → List UInt8
  | first :: high :: low :: rest =>
      match percentByte first high low with
      | some byte => byte :: percentDecode rest
      | none => first :: percentDecode (high :: low :: rest)
  | short => short

/-- A name or a value. -/
def formText (text : List Char) : String :=
  let spaced := text.map fun char => if char = '+' then ' ' else char
  String.ofList (DecoderState.fresh.run
    (percentDecode (spaced.flatMap String.utf8EncodeChar)))

def searchParams (query : String) : List (String × String) :=
  ((query.toList.splitOn '&').filter (· ≠ [])).map fun part =>
    (formText (part.takeWhile (· ≠ '=')),
      formText ((part.dropWhile (· ≠ '=')).drop 1))

/-- A character that stands for itself in a name or a value. -/
def isUnreserved (char : Char) : Bool :=
  char.isAlphanum || char = '-' || char = '_'

theorem unreserved_plain {char : Char} (plain : isUnreserved char = true) :
    char.toNat < 0x80 ∧ char ≠ '+' ∧ char ≠ '%' ∧ char ≠ '&' ∧
      char ≠ '=' := by
  have ascii : char.toNat < 0x80 := by
    simp only [isUnreserved, Char.isAlphanum, Char.isAlpha, Char.isUpper,
      Char.isLower, Char.isDigit, Bool.or_eq_true, Bool.and_eq_true,
      decide_eq_true_eq] at plain
    rcases plain with ((((upper | lower) | digit) | dash) | under)
    · have bound := UInt32.le_iff_toNat_le.mp upper.2
      exact Nat.lt_of_le_of_lt bound (by decide)
    · have bound := UInt32.le_iff_toNat_le.mp lower.2
      exact Nat.lt_of_le_of_lt bound (by decide)
    · have bound := UInt32.le_iff_toNat_le.mp digit.2
      exact Nat.lt_of_le_of_lt bound (by decide)
    · rw [dash]
      decide
    · rw [under]
      decide
  refine ⟨ascii, ?_, ?_, ?_, ?_⟩
  all_goals
    rintro rfl
    revert plain
    decide

theorem digit_unreserved {char : Char} (isDigit : char.isDigit = true) :
    isUnreserved char = true := by
  simp [isUnreserved, Char.isAlphanum, isDigit]

section

variable {text : List Char}

theorem utf8_plain (ascii : ∀ char ∈ text, char.toNat < 0x80) :
    text.flatMap String.utf8EncodeChar =
      text.map fun char => UInt8.ofNat char.toNat := by
  rw [List.map_eq_flatMap]
  apply List.flatMap_congr
  intro char member
  have small : char.val.toNat ≤ 0x7f := Nat.le_of_lt_succ (ascii char member)
  unfold String.utf8EncodeChar
  rw [if_pos small]
  rfl

theorem percentDecode_plain {bytes : List UInt8}
    (plain : ∀ byte ∈ bytes, byte ≠ 0x25) : percentDecode bytes = bytes := by
  fun_induction percentDecode bytes with
  | case1 first high low rest byte escape induction =>
      unfold percentByte at escape
      rw [if_neg (plain first List.mem_cons_self)] at escape
      cases escape
  | case2 first high low rest _ induction =>
      rw [induction fun byte member =>
        plain byte (List.mem_cons_of_mem first member)]
  | case3 => rfl

theorem fresh_run_ascii (ascii : ∀ char ∈ text, char.toNat < 0x80) :
    DecoderState.fresh.run (text.map fun char => UInt8.ofNat char.toNat) =
      text := by
  induction text with
  | nil => rfl
  | cons first rest induction =>
      have small := ascii first List.mem_cons_self
      have isByte : (UInt8.ofNat first.toNat).toNat = first.toNat :=
        UInt8.toNat_ofNat_of_lt' (by
          change first.toNat < 256
          omega)
      have led : DecoderState.fresh.feed (UInt8.ofNat first.toNat).toNat =
          ([first], DecoderState.fresh) := by
        rw [isByte]
        change DecoderState.lead first.toNat = _
        unfold DecoderState.lead
        rw [if_pos (by omega), Char.ofNat_toNat]
      rw [List.map_cons, DecoderState.run, led, induction fun char member =>
        ascii char (List.mem_cons_of_mem first member)]
      rfl

/-- Unreserved characters are not changed on their way. -/
theorem formText_unreserved (plain : ∀ char ∈ text, isUnreserved char = true) :
    formText text = String.ofList text := by
  have spaced : (text.map fun char => if char = '+' then ' ' else char) =
      text := by
    rw [List.map_congr_left (g := id), List.map_id]
    intro char member
    exact if_neg (unreserved_plain (plain char member)).2.1
  have ascii : ∀ char ∈ text, char.toNat < 0x80 := fun char member =>
    (unreserved_plain (plain char member)).1
  have noPercent : ∀ byte ∈ text.map (fun char => UInt8.ofNat char.toNat),
      byte ≠ 0x25 := by
    intro byte member isPercent
    obtain ⟨char, inside, rfl⟩ := List.mem_map.mp member
    have code := congrArg UInt8.toNat isPercent
    rw [UInt8.toNat_ofNat_of_lt' (by
      change char.toNat < 256
      have small := ascii char inside
      omega)] at code
    apply (unreserved_plain (plain char inside)).2.2.1
    rw [← Char.ofNat_toNat char, code]
    rfl
  unfold formText
  simp only [spaced, utf8_plain ascii, percentDecode_plain noPercent,
    fresh_run_ascii ascii]

end

/-- A parameter of unreserved characters at the end of a query is read as it
was written. -/
theorem searchParams_append (others : String) {name value : List Char}
    (isName : ∀ char ∈ name, isUnreserved char = true)
    (isValue : ∀ char ∈ value, isUnreserved char = true) :
    searchParams (others ++ String.ofList ('&' :: name ++ '=' :: value)) =
      searchParams others ++ [(String.ofList name, String.ofList value)] := by
  have noSeparator : '&' ∉ name ++ '=' :: value := by
    intro member
    rcases List.mem_append.mp member with inName | inValue
    · exact (unreserved_plain (isName _ inName)).2.2.2.1 rfl
    · rcases List.mem_cons.mp inValue with isEquals | inValue
      · cases isEquals
      · exact (unreserved_plain (isValue _ inValue)).2.2.2.1 rfl
  have noEquals : ∀ char ∈ name, decide (char ≠ '=') = true := by
    intro char member
    exact decide_eq_true (unreserved_plain (isName char member)).2.2.2.2
  have front : (name ++ '=' :: value).takeWhile (· ≠ '=') = name := by
    rw [List.takeWhile_append_of_pos noEquals, List.takeWhile_cons_of_neg
      (by simp), List.append_nil]
  have back : (name ++ '=' :: value).dropWhile (· ≠ '=') = '=' :: value := by
    rw [List.dropWhile_append_of_pos noEquals, List.dropWhile_cons_of_neg
      (by simp)]
  have some : [name ++ '=' :: value].filter (· ≠ []) =
      [name ++ '=' :: value] := by
    simp
  unfold searchParams
  rw [String.toList_append, String.toList_ofList, List.cons_append,
    List.splitOn_append_cons_self, List.splitOn_eq_singleton noSeparator,
    List.filter_append, List.map_append, some, List.map_singleton, front,
    back, List.drop_one, List.tail_cons, formText_unreserved isName,
    formText_unreserved isValue]

end Stellar8004.Web
