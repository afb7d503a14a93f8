import Mathlib

/-!
# Base64

The texts of `btoa` and the forgiving decoder of `atob`.  A text without its
padding decodes to the same bytes.
-/

namespace Base64

def alphabet : List Char :=
  "ABCDEFGHIJKLMNOPQRSTUVWXYZabcdefghijklmnopqrstuvwxyz0123456789+/".toList

def digit (sextet : Nat) : Char :=
  alphabet.getD sextet 'A'

def value (char : Char) : Option Nat :=
  alphabet.idxOf? char

/-- The bytes in groups of six bits; the last group is filled with zeros. -/
def sextets : List Nat → List Nat
  | first :: second :: third :: rest =>
      first / 4 :: (first % 4 * 16 + second / 16) ::
        (second % 16 * 4 + third / 64) :: third % 64 :: sextets rest
  | [first, second] =>
      [first / 4, first % 4 * 16 + second / 16, second % 16 * 4]
  | [first] => [first / 4, first % 4 * 16]
  | [] => []

/-- The bytes of groups of six bits.  What does not fill a byte is lost. -/
def octets : List Nat → List Nat
  | first :: second :: third :: fourth :: rest =>
      (first * 4 + second / 16) :: (second % 16 * 16 + third / 4) ::
        (third % 4 * 64 + fourth) :: octets rest
  | [first, second, third] =>
      [first * 4 + second / 16, second % 16 * 16 + third / 4]
  | [first, second] => [first * 4 + second / 16]
  | _ => []

def digits (bytes : List Nat) : List Char :=
  (sextets bytes).map digit

/-- The digits, padded to groups of four. -/
def encode (bytes : List Nat) : List Char :=
  digits bytes ++ List.replicate ((3 - bytes.length % 3) % 3) '='

def isSpace (char : Char) : Bool :=
  char = ' ' || char = '\t' || char = '\n' || char = Char.ofNat 12 ||
    char = '\r'

/-- One or two equals signs at the end of whole groups are dropped. -/
def dropPadding (text : List Char) : List Char :=
  if text.length % 4 = 0 then
    match text.reverse with
    | '=' :: '=' :: rest => rest.reverse
    | '=' :: rest => rest.reverse
    | _ => text
  else text

/-- The forgiving decoder. -/
def decode (text : List Char) : Option (List Nat) :=
  let data := dropPadding (text.filter fun char => !isSpace char)
  if data.length % 4 = 1 then none
  else (data.mapM value).map octets

/-- `btoa`, which throws on a character beyond one byte. -/
def btoa (text : String) : Option String :=
  if text.toList.all (fun char => char.toNat < 256) then
    some (String.ofList (encode (text.toList.map Char.toNat)))
  else none

/-- `atob`, which throws on what is not base64. -/
def atob (text : String) : Option String :=
  (decode text.toList).map fun bytes =>
    String.ofList (bytes.map Char.ofNat)

/-! ## Bits -/

theorem sextets_lt : ∀ (bytes : List Nat), (∀ byte ∈ bytes, byte < 256) →
    ∀ sextet ∈ sextets bytes, sextet < 64 := by
  intro bytes
  fun_induction sextets bytes with
  | case1 first second third rest induction =>
      intro small sextet member
      have isFirst := small first (by simp)
      have isSecond := small second (by simp)
      have isThird := small third (by simp)
      have others := induction fun byte inRest => small byte (by simp [inRest])
      simp only [List.mem_cons] at member
      rcases member with rfl | rfl | rfl | rfl | later
      · omega
      · omega
      · omega
      · omega
      · exact others sextet later
  | case2 first second =>
      intro small sextet member
      have isFirst := small first (by simp)
      have isSecond := small second (by simp)
      simp only [List.mem_cons, List.not_mem_nil, or_false] at member
      omega
  | case3 first =>
      intro small sextet member
      have isFirst := small first (by simp)
      simp only [List.mem_cons, List.not_mem_nil, or_false] at member
      omega
  | case4 =>
      intro _ _ member
      cases member

theorem octets_sextets : ∀ (bytes : List Nat), (∀ byte ∈ bytes, byte < 256) →
    octets (sextets bytes) = bytes := by
  intro bytes
  fun_induction sextets bytes with
  | case1 first second third rest induction =>
      intro small
      have isFirst := small first (by simp)
      have isSecond := small second (by simp)
      have isThird := small third (by simp)
      have others := induction fun byte inRest => small byte (by simp [inRest])
      rw [octets, others]
      congr 1
      · omega
      congr 1
      · omega
      congr 1
      omega
  | case2 first second =>
      intro small
      have isFirst := small first (by simp)
      have isSecond := small second (by simp)
      simp only [octets, List.cons.injEq, and_true]
      omega
  | case3 first =>
      intro small
      have isFirst := small first (by simp)
      simp only [octets, List.cons.injEq, and_true]
      omega
  | case4 => intro _; rfl

theorem length_sextets : ∀ (bytes : List Nat),
    (sextets bytes).length % 4 ≠ 1 := by
  intro bytes
  fun_induction sextets bytes with
  | case1 first second third rest induction =>
      simp only [List.length_cons]
      omega
  | case2 first second => simp
  | case3 first => simp
  | case4 => simp

/-- Three bytes are four groups. -/
theorem length_sextets_eq (bytes : List Nat) :
    (sextets bytes).length = (4 * bytes.length + 2) / 3 := by
  fun_induction sextets bytes with
  | case1 first second third rest induction =>
      simp only [List.length_cons, induction]
      omega
  | case2 first second => simp
  | case3 first => simp
  | case4 => rfl

/-- A byte takes a digit at least. -/
theorem length_le_encode (bytes : List Nat) :
    bytes.length ≤ (encode bytes).length := by
  have groups := length_sextets_eq bytes
  rw [encode, List.length_append, digits, List.length_map, groups]
  omega

theorem length_encode (bytes : List Nat) : (encode bytes).length % 4 = 0 := by
  have groups := length_sextets_eq bytes
  have rest : bytes.length % 3 = 0 ∨ bytes.length % 3 = 1 ∨
      bytes.length % 3 = 2 := by
    omega
  rw [encode, List.length_append, digits, List.length_map, groups,
    List.length_replicate]
  rcases rest with none | one | two
  · rw [none]
    omega
  · rw [one]
    omega
  · rw [two]
    omega

/-! ## Digits -/

theorem value_digit : ∀ sextet < 64, value (digit sextet) = some sextet := by
  decide

/-- A digit is a letter, a decimal digit, a plus or a slash. -/
theorem digit_plain : ∀ sextet < 64, isSpace (digit sextet) = false ∧
    digit sextet ≠ '=' ∧ digit sextet ≠ '-' ∧ digit sextet ≠ '_' ∧
    (digit sextet = '+' ∨ digit sextet = '/' ∨
      (digit sextet).isAlphanum = true) := by
  decide +kernel

section

variable {bytes : List Nat} (small : ∀ byte ∈ bytes, byte < 256)

include small

theorem digits_plain : ∀ char ∈ digits bytes, isSpace char = false ∧
    char ≠ '=' ∧ char ≠ '-' ∧ char ≠ '_' ∧
    (char = '+' ∨ char = '/' ∨ char.isAlphanum = true) := by
  intro char member
  obtain ⟨sextet, inside, rfl⟩ := List.mem_map.mp member
  exact digit_plain sextet (sextets_lt bytes small sextet inside)

theorem mapM_value_digits : (digits bytes).mapM value =
    some (sextets bytes) := by
  have bounded := sextets_lt bytes small
  unfold digits
  generalize sextets bytes = groups at bounded
  induction groups with
  | nil => rfl
  | cons sextet groups induction =>
      have rest := induction fun other inside =>
        bounded other (List.mem_cons_of_mem sextet inside)
      rw [List.map_cons, List.mapM_cons,
        value_digit sextet (bounded sextet List.mem_cons_self), rest]
      rfl

/-- Text that does not end in an equals sign has no padding. -/
theorem dropPadding_digits : dropPadding (digits bytes) = digits bytes := by
  unfold dropPadding
  split
  · have plain : ∀ char ∈ (digits bytes).reverse, char ≠ '=' := by
      intro char member
      exact (digits_plain small char (List.mem_reverse.mp member)).2.1
    split
    · rename_i rest isReverse
      rw [isReverse] at plain
      exact absurd rfl (plain '=' List.mem_cons_self)
    · rename_i rest _ isReverse
      rw [isReverse] at plain
      exact absurd rfl (plain '=' List.mem_cons_self)
    · rfl
  · rfl

theorem decode_digits : decode (digits bytes) = some bytes := by
  have kept : (digits bytes).filter (fun char => !isSpace char) =
      digits bytes := by
    rw [List.filter_eq_self]
    intro char member
    rw [(digits_plain small char member).1]
    rfl
  have grouped : (digits bytes).length % 4 ≠ 1 := by
    rw [digits, List.length_map]
    exact length_sextets bytes
  unfold decode
  simp only [kept, dropPadding_digits small, if_neg grouped,
    mapM_value_digits small, Option.map_some, octets_sextets bytes small]

theorem dropPadding_encode : dropPadding (encode bytes) = digits bytes := by
  have grouped := length_encode bytes
  have padding : (3 - bytes.length % 3) % 3 = 0 ∨
      (3 - bytes.length % 3) % 3 = 1 ∨ (3 - bytes.length % 3) % 3 = 2 := by
    omega
  unfold encode at grouped ⊢
  rcases padding with none | one | two
  · rw [none, List.replicate_zero, List.append_nil]
    exact dropPadding_digits small
  · rw [one] at grouped ⊢
    rw [dropPadding, if_pos grouped, List.reverse_append]
    -- a digit stands before the equals sign
    cases isReverse : (digits bytes).reverse with
    | nil =>
        rw [List.reverse_eq_nil_iff] at isReverse
        rw [isReverse]
        rfl
    | cons last rest =>
        have member : last ∈ digits bytes := by
          rw [← List.mem_reverse, isReverse]
          exact List.mem_cons_self
        have notEquals := (digits_plain small last member).2.1
        have isDigits : (last :: rest).reverse = digits bytes := by
          rw [← isReverse, List.reverse_reverse]
        rw [List.replicate_one, List.reverse_singleton, List.singleton_append]
        split
        · rename_i tail same
          exact absurd (List.cons.inj (List.cons.inj same).2).1 notEquals
        · rename_i tail _ same
          rw [← (List.cons.inj same).2, isDigits]
        · rename_i other
          exact absurd rfl (other (last :: rest))
  · rw [two] at grouped ⊢
    rw [dropPadding, if_pos grouped, List.reverse_append]
    exact List.reverse_reverse (digits bytes)

theorem isSpace_encode {char : Char} (member : char ∈ encode bytes) :
    isSpace char = false := by
  rcases List.mem_append.mp member with inside | padding
  · exact (digits_plain small char inside).1
  · rw [(List.mem_replicate.mp padding).2]
    rfl

theorem decode_encode : decode (encode bytes) = some bytes := by
  have kept : (encode bytes).filter (fun char => !isSpace char) =
      encode bytes := by
    rw [List.filter_eq_self]
    intro char member
    rw [isSpace_encode small member]
    rfl
  have grouped : (digits bytes).length % 4 ≠ 1 := by
    rw [digits, List.length_map]
    exact length_sextets bytes
  unfold decode
  simp only [kept, dropPadding_encode small, if_neg grouped,
    mapM_value_digits small, Option.map_some, octets_sextets bytes small]

/-- The padding of an encoded text is what it ends in. -/
theorem rdropWhile_encode :
    (encode bytes).rdropWhile (fun char => char = '=') = digits bytes := by
  unfold encode
  generalize (3 - bytes.length % 3) % 3 = count
  induction count with
  | zero =>
      rw [List.replicate_zero, List.append_nil, List.rdropWhile_eq_self_iff]
      intro some isEquals
      exact (digits_plain small _ (List.getLast_mem some)).2.1
        (of_decide_eq_true isEquals)
  | succ count induction =>
      rw [List.replicate_succ', ← List.append_assoc,
        List.rdropWhile_concat_pos _ _ _ (by simp)]
      exact induction

end

end Base64
