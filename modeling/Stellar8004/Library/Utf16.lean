import Mathlib

/-!
# UTF-16

Texts as sequences of code units.  They need not be well formed: half of a
surrogate pair may stand alone.
-/

namespace Utf16

abbrev Text := List UInt16

def isHigh (unit : UInt16) : Bool :=
  0xd800 ≤ unit.toNat ∧ unit.toNat < 0xdc00

def isLow (unit : UInt16) : Bool :=
  0xdc00 ≤ unit.toNat ∧ unit.toNat < 0xe000

/-- The units of a character. -/
def ofChar (char : Char) : Text :=
  if char.toNat < 0x10000 then [UInt16.ofNat char.toNat]
  else
    [UInt16.ofNat (0xd800 + (char.toNat - 0x10000) / 0x400),
      UInt16.ofNat (0xdc00 + (char.toNat - 0x10000) % 0x400)]

def ofString (text : String) : Text :=
  text.toList.flatMap ofChar

/-- A character, or half of a surrogate pair that stands alone. -/
inductive CodePoint where
  | scalar (char : Char)
  | surrogate (unit : UInt16)
  deriving DecidableEq

def pairChar (high low : UInt16) : Char :=
  Char.ofNat (0x10000 + (high.toNat - 0xd800) * 0x400 + (low.toNat - 0xdc00))

def single (unit : UInt16) : CodePoint :=
  if isHigh unit ∨ isLow unit then .surrogate unit
  else .scalar (Char.ofNat unit.toNat)

/-- The code points of a text, from its start. -/
def codePoints : Text → List CodePoint
  | [] => []
  | [unit] => [single unit]
  | first :: second :: rest =>
      if isHigh first ∧ isLow second then
        .scalar (pairChar first second) :: codePoints rest
      else single first :: codePoints (second :: rest)

/-- A character, with the replacement character for what is none. -/
def CodePoint.toChar : CodePoint → Char
  | scalar char => char
  | surrogate _ => Char.ofNat 0xfffd

/-- The characters of a text as an encoder sees them. -/
def toWellFormed (text : Text) : String :=
  String.ofList ((codePoints text).map CodePoint.toChar)

/-! ## Characters -/

theorem ofChar_ne_nil (char : Char) : ofChar char ≠ [] := by
  unfold ofChar
  split_ifs
  · exact List.cons_ne_nil _ _
  · exact List.cons_ne_nil _ _

theorem ofString_eq_nil {text : String} : ofString text = [] ↔ text = "" := by
  constructor
  · intro none
    have isNil : text.toList = [] := by
      cases isList : text.toList with
      | nil => rfl
      | cons first rest =>
          rw [ofString, isList, List.flatMap_cons] at none
          exact absurd (List.append_eq_nil_iff.mp none).1 (ofChar_ne_nil first)
    exact String.toList_eq_nil_iff.mp isNil
  · rintro rfl
    rfl

@[simp] theorem ofString_append (first second : String) :
    ofString (first ++ second) = ofString first ++ ofString second := by
  simp only [ofString, String.toList_append, List.flatMap_append]

theorem length_le_ofString (text : String) :
    text.toList.length ≤ (ofString text).length := by
  unfold ofString
  induction text.toList with
  | nil => exact Nat.le_refl _
  | cons first rest induction =>
      have some := List.length_pos_of_ne_nil (ofChar_ne_nil first)
      rw [List.length_cons, List.flatMap_cons, List.length_append]
      omega

/-- A character is no surrogate. -/
theorem char_valid (char : Char) : char.toNat < 0xd800 ∨
    (0xe000 ≤ char.toNat ∧ char.toNat < 0x110000) := by
  rcases char.valid with low | ⟨low, high⟩
  · exact .inl low
  · exact .inr ⟨by have := low; simp only [Char.toNat]; omega, high⟩

theorem codePoints_single {unit : UInt16} (notHigh : isHigh unit = false)
    (rest : Text) : codePoints (unit :: rest) = single unit :: codePoints rest := by
  cases rest with
  | nil => rfl
  | cons second rest =>
      rw [codePoints, if_neg]
      intro both
      rw [both.1] at notHigh
      cases notHigh

theorem codePoints_ofChar (char : Char) (rest : Text) :
    codePoints (ofChar char ++ rest) = .scalar char :: codePoints rest := by
  have valid := char_valid char
  unfold ofChar
  split_ifs with small
  · have isNat : (UInt16.ofNat char.toNat).toNat = char.toNat := by
      rw [UInt16.toNat_ofNat']
      omega
    have notHigh : isHigh (UInt16.ofNat char.toNat) = false := by
      rw [isHigh, isNat, decide_eq_false_iff_not]
      omega
    have notLow : isLow (UInt16.ofNat char.toNat) = false := by
      rw [isLow, isNat, decide_eq_false_iff_not]
      omega
    rw [List.singleton_append, codePoints_single notHigh, single, if_neg, isNat,
      Char.ofNat_toNat]
    simp only [notHigh, notLow, Bool.false_eq_true, or_self, not_false_eq_true]
  · generalize isRest : char.toNat - 0x10000 = offset
    have isHighNat : (UInt16.ofNat (0xd800 + offset / 0x400)).toNat =
        0xd800 + offset / 0x400 := by
      rw [UInt16.toNat_ofNat']
      omega
    have isLowNat : (UInt16.ofNat (0xdc00 + offset % 0x400)).toNat =
        0xdc00 + offset % 0x400 := by
      rw [UInt16.toNat_ofNat']
      omega
    have high : isHigh (UInt16.ofNat (0xd800 + offset / 0x400)) = true := by
      rw [isHigh, isHighNat, decide_eq_true_eq]
      omega
    have low : isLow (UInt16.ofNat (0xdc00 + offset % 0x400)) = true := by
      rw [isLow, isLowNat, decide_eq_true_eq]
      omega
    have isChar : pairChar (UInt16.ofNat (0xd800 + offset / 0x400))
        (UInt16.ofNat (0xdc00 + offset % 0x400)) = char := by
      rw [pairChar, isHighNat, isLowNat]
      have isNat : 0x10000 + (0xd800 + offset / 0x400 - 0xd800) * 0x400 +
          (0xdc00 + offset % 0x400 - 0xdc00) = char.toNat := by
        omega
      rw [isNat, Char.ofNat_toNat]
    rw [List.cons_append, List.singleton_append, codePoints,
      if_pos ⟨high, low⟩, isChar]

/-- What is well formed is read back. -/
theorem codePoints_ofString (text : String) :
    codePoints (ofString text) = text.toList.map CodePoint.scalar := by
  unfold ofString
  induction text.toList with
  | nil => rfl
  | cons first rest induction =>
      rw [List.flatMap_cons, codePoints_ofChar, induction, List.map_cons]

theorem toWellFormed_ofString (text : String) :
    toWellFormed (ofString text) = text := by
  rw [toWellFormed, codePoints_ofString, List.map_map]
  exact (congrArg String.ofList (List.map_id _)).trans String.ofList_toList

/-! ## Well-formed texts -/

/-- Every surrogate is half of a pair. -/
def WellFormed (text : Text) : Prop :=
  ∃ chars : String, text = ofString chars

namespace WellFormed

theorem ofString (text : String) : WellFormed (Utf16.ofString text) :=
  ⟨text, rfl⟩

theorem append {first second : Text} (isFirst : WellFormed first)
    (isSecond : WellFormed second) : WellFormed (first ++ second) := by
  obtain ⟨before, rfl⟩ := isFirst
  obtain ⟨after, rfl⟩ := isSecond
  exact ⟨before ++ after, (ofString_append before after).symm⟩

theorem flatten : ∀ {texts : List Text}, (∀ text ∈ texts, WellFormed text) →
    WellFormed texts.flatten
  | [], _ => ofString ""
  | text :: _, all =>
      (all text List.mem_cons_self).append
        (flatten fun other member => all other (List.mem_cons_of_mem text member))

theorem intercalate {separator : Text} (isSeparator : WellFormed separator) :
    ∀ {texts : List Text}, (∀ text ∈ texts, WellFormed text) →
      WellFormed (separator.intercalate texts) := by
  intro texts
  fun_induction List.intersperse separator texts with
  | case1 => exact fun _ => ofString ""
  | case2 text =>
      intro all
      rw [List.intercalate_singleton]
      exact all text List.mem_cons_self
  | case3 text rest some induction =>
      intro all
      rw [List.intercalate_cons_of_ne_nil some]
      have isText := all text List.mem_cons_self
      have isRest := induction fun other member =>
        all other (List.mem_cons_of_mem text member)
      exact (isText.append isSeparator).append isRest

end WellFormed

end Utf16
