import Stellar8004.Indexer.Documents
import Stellar8004.Web.Leaderboard

/-!
# JavaScript texts and numbers

What the request handlers take from the language.  A number is the rational
value of a finite double.
-/

namespace Stellar8004.Web

open Stellar8004.Indexer

/-- What is taken as given: tables of Unicode, the texts of numbers, and the
JSON readers of JavaScript and SQLite. -/
structure Platform where
  /-- `text.normalize('NFC')`. -/
  normalize : List Char → List Char
  /-- The classes `L`, `N` and `M`. -/
  isWordChar : Char → Bool
  toLowerCase : String → String
  /-- The text of a number, and the number a text stands for. -/
  numberText : ℚ → String
  numberValue : String → ℚ
  /-- `JSON.parse`, nothing where it throws. -/
  parse : String → Option Json
  /-- The values of `json_each` over the text of an array. -/
  jsonEach : String → List Json

/-! ## Texts -/

/-- White space and line terminators, as `trim` takes them. -/
def isWhiteSpace (char : Char) : Bool :=
  (0x09 ≤ char.toNat && char.toNat ≤ 0x0d) || char.toNat = 0x20 ||
    char.toNat = 0xa0 || char.toNat = 0x1680 ||
    (0x2000 ≤ char.toNat && char.toNat ≤ 0x200a) || char.toNat = 0x2028 ||
    char.toNat = 0x2029 || char.toNat = 0x202f || char.toNat = 0x205f ||
    char.toNat = 0x3000 || char.toNat = 0xfeff

/-- `text.trim()`. -/
def trim (text : List Char) : List Char :=
  (text.dropWhile isWhiteSpace).rdropWhile isWhiteSpace

/-- `text.trim() === ''`. -/
def isBlank (text : String) : Bool :=
  trim text.toList = []

/-- `text.split(separator)` for one character. -/
def splitAt (separator : Char) (text : String) : List String :=
  (text.toList.splitOn separator).map String.ofList

/-! ## Numbers -/

def roundHalfEven (value : ℚ) : ℤ :=
  let low := ⌊value⌋
  let rest := value - low
  if rest < 1 / 2 then low
  else if 1 / 2 < rest then low + 1
  else if low % 2 = 0 then low
  else low + 1

/-- The double next to a value.  Overflow is left to the range checks. -/
def roundDouble (value : ℚ) : ℚ :=
  if value = 0 then 0
  else
    let unit : ℚ := 2 ^ (max (Int.log 2 |value|) (-1022) - 52)
    roundHalfEven (value / unit) * unit

/-- The value is one of a double. -/
def IsDouble (value : ℚ) : Prop :=
  roundDouble value = value

instance (value : ℚ) : Decidable (IsDouble value) :=
  inferInstanceAs (Decidable (roundDouble value = value))

theorem roundHalfEven_intCast (value : ℤ) :
    roundHalfEven (value : ℚ) = value := by
  unfold roundHalfEven
  simp

/-- Integers of up to 53 bits are doubles. -/
theorem isDouble_intCast {value : Int} (small : value.natAbs < 2 ^ 53) :
    IsDouble (value : ℚ) := by
  unfold IsDouble roundDouble
  by_cases zero : (value : ℚ) = 0
  · rw [if_pos zero, zero]
  rw [if_neg zero]
  have some : value.natAbs ≠ 0 := by
    rw [Int.natAbs_ne_zero]
    exact_mod_cast zero
  have few : Nat.log 2 value.natAbs ≤ 52 :=
    Nat.lt_succ_iff.mp ((Nat.log_lt_iff_lt_pow Nat.one_lt_two some).mpr small)
  have size : |(value : ℚ)| = (value.natAbs : ℚ) := by
    rw [Nat.cast_natAbs]
    push_cast
    rfl
  have isLog : max (Int.log 2 |(value : ℚ)|) (-1022) =
      (Nat.log 2 value.natAbs : ℤ) := by
    rw [size, Int.log_natCast]
    exact max_eq_left (by omega)
  have isUnit : (2 : ℚ) ^ ((Nat.log 2 value.natAbs : ℤ) - 52) =
      (2 ^ (52 - Nat.log 2 value.natAbs))⁻¹ := by
    rw [← zpow_natCast, ← zpow_neg]
    congr 1
    omega
  have scaled : (value : ℚ) / (2 ^ (52 - Nat.log 2 value.natAbs))⁻¹ =
      ((value * 2 ^ (52 - Nat.log 2 value.natAbs) : ℤ) : ℚ) := by
    rw [div_inv_eq_mul]
    push_cast
    rfl
  simp only [isLog, isUnit, scaled, roundHalfEven_intCast]
  push_cast
  rw [mul_inv_cancel_right₀ (pow_ne_zero _ two_ne_zero)]

theorem isDouble_natCast {value : Nat} (small : value < 2 ^ 53) :
    IsDouble (value : ℚ) :=
  @isDouble_intCast value small

def radixDigit (radix : Nat) (char : Char) : Option Nat :=
  let digit :=
    if char.isDigit then some (char.toNat - '0'.toNat)
    else if 'a' ≤ char ∧ char ≤ 'f' then some (char.toNat - 'a'.toNat + 10)
    else if 'A' ≤ char ∧ char ≤ 'F' then some (char.toNat - 'A'.toNat + 10)
    else none
  digit.filter (· < radix)

/-- The digits after `0x`, `0o` or `0b`. -/
def radixNumber (radix : Nat) (text : List Char) : Option ℚ :=
  if text = [] then none
  else (text.mapM (radixDigit radix)).map fun digits =>
    ((digits.foldl (fun value digit => radix * value + digit) 0 : Nat) : ℚ)

/-- Digits and nothing else. -/
def wholeDigits (text : List Char) : Option Nat :=
  if text ≠ [] ∧ text.all Char.isDigit then some (digitsValue text) else none

def signedDigits : List Char → Option Int
  | '-' :: digits => (wholeDigits digits).map fun value : Nat => -(value : Int)
  | '+' :: digits => (wholeDigits digits).map fun value : Nat => (value : Int)
  | digits => (wholeDigits digits).map fun value : Nat => (value : Int)

def exponentPart : List Char → Option Int
  | [] => some 0
  | mark :: rest =>
      if mark = 'e' ∨ mark = 'E' then signedDigits rest else none

/-- A decimal literal without its sign. -/
def unsignedDecimal (text : List Char) : Option ℚ :=
  let whole := text.takeWhile Char.isDigit
  match text.dropWhile Char.isDigit with
  | '.' :: rest =>
      let fraction := rest.takeWhile Char.isDigit
      if whole = [] ∧ fraction = [] then none
      else (exponentPart (rest.dropWhile Char.isDigit)).map fun exponent =>
        (digitsValue (whole ++ fraction) : ℚ) *
          10 ^ (exponent - (fraction.length : Int))
  | rest =>
      if whole = [] then none
      else (exponentPart rest).map fun exponent =>
        (digitsValue whole : ℚ) * 10 ^ exponent

def signedDecimal : List Char → Option ℚ
  | '-' :: rest => (unsignedDecimal rest).map fun value => -value
  | '+' :: rest => unsignedDecimal rest
  | rest => unsignedDecimal rest

/-- `Number(text)`; nothing stands for what is not a finite number. -/
def number (text : String) : Option ℚ :=
  let value :=
    match trim text.toList with
    | [] => some 0
    | '0' :: mark :: rest =>
        if mark = 'x' ∨ mark = 'X' then radixNumber 16 rest
        else if mark = 'o' ∨ mark = 'O' then radixNumber 8 rest
        else if mark = 'b' ∨ mark = 'B' then radixNumber 2 rest
        else signedDecimal ('0' :: mark :: rest)
    | rest => signedDecimal rest
  value.map roundDouble

/-! ## Marks that are in no number -/

theorem mem_dropWhile {α : Type} (test : α → Bool) {item : α}
    {items : List α} (member : item ∈ items) (fails : test item = false) :
    item ∈ items.dropWhile test := by
  rw [← List.takeWhile_append_dropWhile (p := test) (l := items),
    List.mem_append] at member
  rcases member with before | behind
  · rw [List.mem_takeWhile_imp before] at fails
    cases fails
  · exact behind

theorem mem_trim {char : Char} {text : List Char} (member : char ∈ text)
    (fails : isWhiteSpace char = false) : char ∈ trim text := by
  unfold trim List.rdropWhile
  rw [List.mem_reverse]
  exact mem_dropWhile _ (List.mem_reverse.mpr (mem_dropWhile _ member fails)) fails

theorem isBlank_iff {text : String} : isBlank text = true ↔
    ∀ char ∈ text.toList, isWhiteSpace char = true := by
  unfold isBlank
  rw [decide_eq_true_eq]
  constructor
  · intro empty char member
    by_contra fails
    rw [Bool.not_eq_true] at fails
    have inside := mem_trim member fails
    rw [empty] at inside
    cases inside
  · intro all
    rw [trim, List.dropWhile_eq_nil_iff.mpr all, List.rdropWhile_nil]

section

variable {text : List Char} (member : '&' ∈ text)

include member

theorem wholeDigits_ampersand : wholeDigits text = none := by
  unfold wholeDigits
  rw [if_neg]
  rintro ⟨-, digits⟩
  have digit := List.all_eq_true.mp digits '&' member
  revert digit
  decide

theorem radixNumber_ampersand (radix : Nat) : radixNumber radix text = none := by
  have unread : text.mapM (radixDigit radix) = none := by
    induction text with
    | nil => cases member
    | cons first rest induction =>
        rw [List.mapM_cons]
        rcases List.mem_cons.mp member with isFirst | inRest
        · rw [← isFirst]
          rfl
        · rw [induction inRest]
          cases radixDigit radix first <;> rfl
  unfold radixNumber
  rw [unread]
  split <;> rfl

theorem signedDigits_ampersand : signedDigits text = none := by
  unfold signedDigits
  split
  · rw [wholeDigits_ampersand (List.mem_of_ne_of_mem (by decide) member)]
    rfl
  · rw [wholeDigits_ampersand (List.mem_of_ne_of_mem (by decide) member)]
    rfl
  · rw [wholeDigits_ampersand member]
    rfl

theorem exponentPart_ampersand : exponentPart text = none := by
  cases text with
  | nil => cases member
  | cons mark rest =>
      rw [exponentPart]
      split_ifs with isMark
      · have notAmpersand : '&' ≠ mark := by
          rcases isMark with rfl | rfl <;> decide
        exact signedDigits_ampersand
          (List.mem_of_ne_of_mem notAmpersand member)
      · rfl

theorem unsignedDecimal_ampersand : unsignedDecimal text = none := by
  have behind := mem_dropWhile Char.isDigit member (by decide)
  unfold unsignedDecimal
  dsimp only
  split
  · rename_i rest isRest
    rw [isRest] at behind
    have inRest := List.mem_of_ne_of_mem (by decide) behind
    rw [exponentPart_ampersand
      (mem_dropWhile Char.isDigit inRest (by decide))]
    split <;> rfl
  · rw [exponentPart_ampersand behind]
    split <;> rfl

theorem signedDecimal_ampersand : signedDecimal text = none := by
  unfold signedDecimal
  split
  · rw [unsignedDecimal_ampersand (List.mem_of_ne_of_mem (by decide) member)]
    rfl
  · exact unsignedDecimal_ampersand
      (List.mem_of_ne_of_mem (by decide) member)
  · exact unsignedDecimal_ampersand member

end

/-- No text of a number has an ampersand. -/
theorem number_ampersand {text : String} (member : '&' ∈ text.toList) :
    number text = none := by
  have inside : '&' ∈ trim text.toList := mem_trim member (by decide)
  unfold number
  split
  · rename_i empty
    rw [empty] at inside
    cases inside
  · rename_i mark rest isText
    rw [isText] at inside
    have inRest : mark ≠ '&' → '&' ∈ rest := by
      intro notMark
      exact List.mem_of_ne_of_mem (Ne.symm notMark)
        (List.mem_of_ne_of_mem (by decide) inside)
    split_ifs with hex octal binary
    · rw [radixNumber_ampersand (inRest (by rcases hex with rfl | rfl <;> decide))]
      rfl
    · rw [radixNumber_ampersand (inRest (by rcases octal with rfl | rfl <;> decide))]
      rfl
    · rw [radixNumber_ampersand (inRest (by rcases binary with rfl | rfl <;> decide))]
      rfl
    · rw [signedDecimal_ampersand inside]
      rfl
  · rw [signedDecimal_ampersand inside]
    rfl

end Stellar8004.Web
