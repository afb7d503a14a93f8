import Stellar8004.Indexer.Addresses

/-!
# The grammar of addresses

`isValidStellarAddress` accepts the StrKey texts and nothing else: eight
characters of the alphabet are the text of five bytes, so what decodes is the
text of what it decodes to.  The 32 bits of the accumulator are enough, since
only its last bits are looked at again.
-/

namespace Stellar8004.Indexer

/-! ## The accumulator -/

/-- The loop with an accumulator that keeps every bit. -/
def wideLoop : List Char → (bits value : Nat) → List UInt8 →
    Option (List UInt8 × Nat × Nat)
  | [], bits, value, bytes => some (bytes, bits, value)
  | char :: rest, bits, value, bytes =>
      match STELLAR_BASE32_ALPHABET.idxOf? char with
      | none => none
      | some index =>
          let value := (value <<< 5) ||| index
          let bits := bits + 5
          if 8 ≤ bits then
            wideLoop rest (bits - 8) value
              (bytes ++ [UInt8.ofNat ((value >>> (bits - 8)) &&& 0xff)])
          else
            wideLoop rest bits value bytes

def wideDecode (input : List Char) : Option (List UInt8) :=
  match wideLoop input 0 0 [] with
  | none => none
  | some (bytes, bits, value) =>
      if 0 < bits ∧ value &&& ((1 <<< bits) - 1) ≠ 0 then none
      else some bytes

theorem mod_shiftRight_and {value shift : Nat} (small : shift < 8) :
    ((value % 2 ^ 32) >>> shift) &&& 0xff = (value >>> shift) &&& 0xff := by
  apply Nat.eq_of_testBit_eq
  intro position
  simp only [Nat.testBit_and, Nat.testBit_shiftRight, Nat.testBit_mod_two_pow]
  by_cases low : position < 8
  · have inside : shift + position < 32 := by omega
    simp [inside]
  · have none : Nat.testBit 0xff position = false := by
      apply Nat.testBit_lt_two_pow
      exact Nat.lt_of_lt_of_le (by decide : 0xff < 2 ^ 8)
        (Nat.pow_le_pow_right (by decide) (Nat.not_lt.mp low))
    simp [none]

theorem mod_and_mask {value bits : Nat} (few : bits < 8) :
    (value % 2 ^ 32) &&& ((1 <<< bits) - 1) =
      value &&& ((1 <<< bits) - 1) := by
  rw [Nat.one_shiftLeft, Nat.and_two_pow_sub_one_eq_mod,
    Nat.and_two_pow_sub_one_eq_mod]
  apply Nat.mod_mod_of_dvd
  exact Nat.pow_dvd_pow 2 (by omega)

theorem shiftLeft_or_mod (value index : Nat) (small : index < 32) :
    (((value % 2 ^ 32) <<< 5) ||| index) % 2 ^ 32 =
      ((value <<< 5) ||| index) % 2 ^ 32 := by
  rw [← Nat.shiftLeft_add_eq_or_of_lt (by simpa using small),
    ← Nat.shiftLeft_add_eq_or_of_lt (by simpa using small),
    Nat.shiftLeft_eq, Nat.shiftLeft_eq]
  omega

theorem index_lt {char : Char} {index : Nat}
    (found : STELLAR_BASE32_ALPHABET.idxOf? char = some index) :
    index < 32 ∧ char = StrKey.symbol index := by
  obtain ⟨inside, same, -⟩ := List.idxOf?_eq_some_iff.mp found
  have isSymbol : StrKey.symbol index =
      STELLAR_BASE32_ALPHABET[index] := by
    unfold StrKey.symbol
    exact List.getD_eq_getElem _ _ inside
  rw [isSymbol]
  exact ⟨inside, same.symm⟩

/-- The accumulators agree in their last 32 bits, and so in every byte. -/
theorem base32Loop_eq (input : List Char) {bits : Nat} (few : bits < 8)
    (value : Nat) (bytes : List UInt8) :
    base32Loop input bits (value % 2 ^ 32) bytes =
      (wideLoop input bits value bytes).map fun result =>
        (result.1, result.2.1, result.2.2 % 2 ^ 32) := by
  induction input generalizing bits value bytes with
  | nil => rfl
  | cons char rest induction =>
      simp only [base32Loop, wideLoop]
      cases found : STELLAR_BASE32_ALPHABET.idxOf? char with
      | none => rfl
      | some index =>
          have small := (index_lt found).1
          dsimp only
          rw [shiftLeft_or_mod value index small]
          split
          · rw [mod_shiftRight_and (by omega)]
            exact induction (by omega) _ _
          · exact induction (by omega) _ _

theorem wideLoop_bits {input : List Char} {bits value : Nat}
    {bytes : List UInt8} (few : bits < 8) {result : List UInt8 × Nat × Nat}
    (looped : wideLoop input bits value bytes = some result) :
    result.2.1 < 8 := by
  induction input generalizing bits value bytes with
  | nil =>
      cases looped
      exact few
  | cons char rest induction =>
      simp only [wideLoop] at looped
      split at looped
      · cases looped
      · split at looped
        · exact induction (by omega) looped
        · exact induction (by omega) looped

/-- The 32-bit accumulator loses nothing that is needed. -/
theorem base32Decode_eq_wideDecode (input : List Char) :
    base32Decode input = wideDecode input := by
  have agree := base32Loop_eq input (show 0 < 8 by decide) 0 []
  unfold base32Decode wideDecode
  rw [Nat.zero_mod] at agree
  rw [agree]
  cases looped : wideLoop input 0 0 [] with
  | none => rfl
  | some result =>
      have few := wideLoop_bits (by decide) looped
      obtain ⟨bytes, bits, value⟩ := result
      simp only [Option.map_some]
      rw [mod_and_mask few]

/-! ## Texts of bytes -/

/-- What decodes consists of characters of the alphabet. -/
theorem symbols_of_base32Loop {input : List Char} {bits value : Nat}
    {bytes : List UInt8} {result : List UInt8 × Nat × Nat}
    (looped : base32Loop input bits value bytes = some result) :
    ∀ char ∈ input, ∃ group < 32, char = StrKey.symbol group := by
  induction input generalizing bits value bytes with
  | nil => exact fun _ member => (nomatch member)
  | cons first rest induction =>
      simp only [base32Loop] at looped
      cases found : STELLAR_BASE32_ALPHABET.idxOf? first with
      | none =>
          simp only [found] at looped
          cases looped
      | some index =>
          simp only [found] at looped
          intro char member
          rcases List.mem_cons.mp member with rfl | later
          · exact ⟨index, index_lt found⟩
          · split at looped
            · exact induction looped char later
            · exact induction looped char later

/-- Eight groups of five bits are those of five bytes. -/
theorem exists_bytes_of_groups {g₀ g₁ g₂ g₃ g₄ g₅ g₆ g₇ : Nat}
    (s₀ : g₀ < 32) (s₁ : g₁ < 32) (s₂ : g₂ < 32) (s₃ : g₃ < 32)
    (s₄ : g₄ < 32) (s₅ : g₅ < 32) (s₆ : g₆ < 32) (s₇ : g₇ < 32) :
    ∃ b₀ b₁ b₂ b₃ b₄ : UInt8, ∀ rest, StrKey.base32Encode
        (b₀ :: b₁ :: b₂ :: b₃ :: b₄ :: rest) =
      StrKey.symbol g₀ :: StrKey.symbol g₁ :: StrKey.symbol g₂ ::
        StrKey.symbol g₃ :: StrKey.symbol g₄ :: StrKey.symbol g₅ ::
        StrKey.symbol g₆ :: StrKey.symbol g₇ :: StrKey.base32Encode rest := by
  have byte : ∀ number < 256, (UInt8.ofNat number).toNat = number :=
    fun number small => UInt8.toNat_ofNat_of_lt' small
  refine ⟨.ofNat (g₀ * 8 + g₁ / 4),
    .ofNat (g₁ % 4 * 64 + g₂ * 2 + g₃ / 16),
    .ofNat (g₃ % 16 * 16 + g₄ / 2),
    .ofNat (g₄ % 2 * 128 + g₅ * 4 + g₆ / 8),
    .ofNat (g₆ % 8 * 32 + g₇), fun rest => ?_⟩
  rw [StrKey.base32Encode, byte _ (by omega), byte _ (by omega),
    byte _ (by omega), byte _ (by omega), byte _ (by omega)]
  congr 2
  · omega
  congr 2
  · omega
  congr 2
  · omega
  congr 2
  · omega
  congr 2
  · omega
  congr 2
  · omega
  congr 2
  · omega
  congr 2
  omega

theorem exists_eight_cons {α : Type} {items : List α} {groups : Nat}
    (aligned : items.length = 8 * (groups + 1)) :
    ∃ i₀ i₁ i₂ i₃ i₄ i₅ i₆ i₇ rest,
      items = i₀ :: i₁ :: i₂ :: i₃ :: i₄ :: i₅ :: i₆ :: i₇ :: rest ∧
        rest.length = 8 * groups :=
  match items, aligned with
  | i₀ :: i₁ :: i₂ :: i₃ :: i₄ :: i₅ :: i₆ :: i₇ :: rest, aligned =>
      ⟨i₀, i₁, i₂, i₃, i₄, i₅, i₆, i₇, rest, rfl, by
        simp only [List.length_cons] at aligned
        omega⟩

theorem exists_bytes_of_symbols (groups : Nat) {text : List Char}
    (aligned : text.length = 8 * groups)
    (symbols : ∀ char ∈ text, ∃ group < 32, char = StrKey.symbol group) :
    ∃ input : List UInt8, input.length = 5 * groups ∧
      StrKey.base32Encode input = text := by
  induction groups generalizing text with
  | zero =>
      have empty : text = [] := List.length_eq_zero_iff.mp aligned
      exact ⟨[], rfl, by simp [empty, StrKey.base32Encode]⟩
  | succ groups induction =>
      obtain ⟨c₀, c₁, c₂, c₃, c₄, c₅, c₆, c₇, rest, rfl, shorter⟩ :=
        exists_eight_cons aligned
      simp only [List.mem_cons, forall_eq_or_imp] at symbols
      obtain ⟨⟨g₀, s₀, rfl⟩, ⟨g₁, s₁, rfl⟩, ⟨g₂, s₂, rfl⟩, ⟨g₃, s₃, rfl⟩,
        ⟨g₄, s₄, rfl⟩, ⟨g₅, s₅, rfl⟩, ⟨g₆, s₆, rfl⟩, ⟨g₇, s₇, rfl⟩,
        others⟩ := symbols
      obtain ⟨input, length, encoded⟩ := induction shorter others
      obtain ⟨b₀, b₁, b₂, b₃, b₄, grouped⟩ :=
        exists_bytes_of_groups s₀ s₁ s₂ s₃ s₄ s₅ s₆ s₇
      refine ⟨b₀ :: b₁ :: b₂ :: b₃ :: b₄ :: input, ?_, ?_⟩
      · simp only [List.length_cons]
        omega
      · rw [grouped, encoded]

theorem base32Encode_of_decode {text : List Char} {decoded : List UInt8}
    (groups : Nat) (aligned : text.length = 8 * groups)
    (isDecoded : base32Decode text = some decoded) :
    decoded.length = 5 * groups ∧ StrKey.base32Encode decoded = text := by
  unfold base32Decode at isDecoded
  cases looped : base32Loop text 0 0 [] with
  | none =>
      simp only [looped] at isDecoded
      cases isDecoded
  | some result =>
      obtain ⟨input, length, encoded⟩ := exists_bytes_of_symbols groups aligned
        (symbols_of_base32Loop looped)
      obtain ⟨later, restored⟩ := base32Loop_encode groups input length 0 []
      rw [encoded] at restored
      simp only [restored, List.nil_append, Nat.lt_irrefl, false_and, if_false,
        Option.some.injEq] at isDecoded
      subst isDecoded
      exact ⟨length, encoded⟩

/-- Characters of the alphabet are one code unit each. -/
theorem jsLength_of_symbols {text : String}
    (symbols : ∀ char ∈ text.toList, ∃ group < 32,
      char = StrKey.symbol group) :
    jsLength text = text.toList.length := by
  have units : text.toList.map
      (fun char => if char.toNat < 0x10000 then 1 else 2) =
        text.toList.map fun _ => 1 := by
    apply List.map_congr_left
    intro char member
    obtain ⟨group, small, rfl⟩ := symbols char member
    exact if_pos (symbol_toNat_lt group small)
  unfold jsLength
  rw [units]
  simp

/-! ## The grammar -/

def firstLetter : AddressKind → Char
  | .account => 'G'
  | .contract => 'C'

/-- Bytes with a version and its checksum are those of an address. -/
theorem exists_address {decoded : List UInt8} (kind : AddressKind)
    (length : decoded.length = 35)
    (version : decoded.getD 0 0 = StrKey.versionByte kind)
    (low : ((decoded.drop 33).getD 0 0).toNat =
      crc16Xmodem (decoded.take 33) &&& 0xff)
    (high : ((decoded.drop 33).getD 1 0).toNat =
      (crc16Xmodem (decoded.take 33) >>> 8) &&& 0xff) :
    ∃ address : Address, address.kind = kind ∧
      StrKey.bytes address = decoded := by
  match decoded, length with
  | first :: rest, length =>
      have long : (rest.take 32).length = 32 := by
        rw [List.length_take]
        simp only [List.length_cons] at length
        omega
      let address : Address :=
        { kind, payload := ⟨(rest.take 32).toArray, by simpa using long⟩ }
      have isFirst : first = StrKey.versionByte kind := version
      have isBody : StrKey.body address = (first :: rest).take 33 := by
        rw [isFirst]
        simp [StrKey.body, address, Vector.toList]
      refine ⟨address, rfl, ?_⟩
      have checksum : (rest.drop 32).length = 2 := by
        rw [List.length_drop]
        simp only [List.length_cons] at length
        omega
      obtain ⟨one, two, isChecksum⟩ := List.length_eq_two.mp checksum
      rw [List.drop_succ_cons, isChecksum] at low high
      have isOne : UInt8.ofNat (StrKey.crc16 (StrKey.body address) &&& 0xff) =
          one := by
        rw [isBody, ← crc16Xmodem_eq_crc16, ← low]
        exact UInt8.ofNat_toNat
      have isTwo : UInt8.ofNat
          ((StrKey.crc16 (StrKey.body address) >>> 8) &&& 0xff) = two := by
        rw [isBody, ← crc16Xmodem_eq_crc16, ← high]
        exact UInt8.ofNat_toNat
      rw [StrKey.bytes, isOne, isTwo, isBody, List.take_succ_cons,
        List.cons_append, ← isChecksum, List.take_append_drop]

/-- An accepted text is the StrKey text of an address. -/
theorem exists_encode_of_valid {text : String}
    (valid : isValidStellarAddress text = true) :
    ∃ address, StrKey.encode address = text := by
  unfold isValidStellarAddress at valid
  split at valid
  · cases valid
  rename_i length
  simp only at valid
  split at valid
  · cases valid
  rename_i letter
  split at valid
  · cases valid
  rename_i decoded isDecoded
  split at valid
  · cases valid
  have version : (decoded.getD 0 0).toNat =
      if text.toList.headD ' ' = 'G' then STELLAR_PUBLIC_KEY_VERSION_BYTE
      else STELLAR_CONTRACT_VERSION_BYTE := by
    by_contra other
    rw [if_pos other] at valid
    cases valid
  rw [if_neg (not_not.mpr version)] at valid
  rw [not_not] at length
  rw [Bool.and_eq_true, decide_eq_true_eq, decide_eq_true_eq] at valid
  have symbols : ∀ char ∈ text.toList, ∃ group < 32,
      char = StrKey.symbol group := by
    cases looped : base32Loop text.toList 0 0 [] with
    | none =>
        simp only [base32Decode, looped] at isDecoded
        cases isDecoded
    | some result => exact symbols_of_base32Loop looped
  rw [jsLength_of_symbols symbols] at length
  obtain ⟨whole, encoded⟩ := base32Encode_of_decode 7 length isDecoded
  obtain ⟨kind, isVersion⟩ : ∃ kind, decoded.getD 0 0 =
      StrKey.versionByte kind := by
    by_cases isG : text.toList.headD ' ' = 'G'
    · rw [if_pos isG] at version
      exact ⟨.account, UInt8.toNat_inj.mp version⟩
    · rw [if_neg isG] at version
      exact ⟨.contract, UInt8.toNat_inj.mp version⟩
  obtain ⟨address, -, isBytes⟩ := exists_address kind whole isVersion
    valid.1 valid.2
  refine ⟨address, ?_⟩
  rw [StrKey.encode, isBytes, encoded, String.ofList_toList]

/-- Accepted are the StrKey texts, each of one address whose kind its first
letter tells; the 32 bits of the accumulator are enough for every text. -/
theorem isValidStellarAddress_exact (text : String) :
    (isValidStellarAddress text = true ↔
      ∃! address : Address, StrKey.encode address = text ∧
        text.toList.headD ' ' = firstLetter address.kind) ∧
    (∀ address, isValidStellarAddress (StrKey.encode address) = true) ∧
    base32Decode text.toList = wideDecode text.toList := by
  refine ⟨⟨?_, ?_⟩, isValidStellarAddress_encode,
    base32Decode_eq_wideDecode _⟩
  · intro valid
    obtain ⟨address, rfl⟩ := exists_encode_of_valid valid
    refine ⟨address, ⟨rfl, ?_⟩, ?_⟩
    · rw [head_encode]
      cases address.kind <;> rfl
    · intro other same
      exact encode_injective same.1
  · intro ⟨address, ⟨encoded, _⟩, _⟩
    rw [← encoded]
    exact isValidStellarAddress_encode address

end Stellar8004.Indexer
