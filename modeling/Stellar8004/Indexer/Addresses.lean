import Stellar8004.Indexer.Helpers

/-!
# Every StrKey address is accepted

The indexer decodes base32 with a 32-bit accumulator and its own CRC loop.
This file runs that decoder on the StrKey text of an arbitrary address: eight
characters restore five bytes, so the text decodes to the bytes it was made
of, and `isValidStellarAddress` accepts it.
-/

namespace Stellar8004.Indexer

private theorem idxOf?_symbol :
    ∀ group < 32,
      STELLAR_BASE32_ALPHABET.idxOf? (StrKey.symbol group) = some group := by
  decide

/-- One character of the loop, with the bit operations as arithmetic. -/
private theorem base32Loop_symbol {group : Nat} (small : group < 32)
    (rest : List Char) (bits value : Nat) (bytes : List UInt8) :
    base32Loop (StrKey.symbol group :: rest) bits value bytes =
      if 8 ≤ bits + 5 then
        base32Loop rest (bits + 5 - 8) ((value * 32 + group) % 2 ^ 32)
          (bytes ++ [UInt8.ofNat
            ((value * 32 + group) % 2 ^ 32 / 2 ^ (bits + 5 - 8) % 256)])
      else
        base32Loop rest (bits + 5) ((value * 32 + group) % 2 ^ 32) bytes := by
  have joined : (value <<< 5) ||| group = value * 32 + group := by
    rw [← Nat.shiftLeft_add_eq_or_of_lt (by simpa using small),
      Nat.shiftLeft_eq]
  have lowByte : ∀ number : Nat, number &&& 0xff = number % 256 :=
    fun number => Nat.and_two_pow_sub_one_eq_mod number 8
  simp only [base32Loop, idxOf?_symbol group small, joined, lowByte,
    Nat.shiftRight_eq_div_pow]

private theorem ofNat_eq {number : Nat} {byte : UInt8}
    (equal : number = byte.toNat) : UInt8.ofNat number = byte := by
  rw [equal, UInt8.ofNat_toNat]

/-- Eight characters restore the five bytes they encode and leave no bits
behind. -/
private theorem base32Loop_group (b₀ b₁ b₂ b₃ b₄ : UInt8)
    (rest : List Char) (value : Nat) (bytes : List UInt8) :
    ∃ later,
      base32Loop
          (StrKey.symbol (b₀.toNat / 8) ::
            StrKey.symbol (b₀.toNat % 8 * 4 + b₁.toNat / 64) ::
            StrKey.symbol (b₁.toNat / 2 % 32) ::
            StrKey.symbol (b₁.toNat % 2 * 16 + b₂.toNat / 16) ::
            StrKey.symbol (b₂.toNat % 16 * 2 + b₃.toNat / 128) ::
            StrKey.symbol (b₃.toNat / 4 % 32) ::
            StrKey.symbol (b₃.toNat % 4 * 8 + b₄.toNat / 32) ::
            StrKey.symbol (b₄.toNat % 32) :: rest) 0 value bytes =
        base32Loop rest 0 later (bytes ++ [b₀, b₁, b₂, b₃, b₄]) := by
  have bound₀ := b₀.toNat_lt
  have bound₁ := b₁.toNat_lt
  have bound₂ := b₂.toNat_lt
  have bound₃ := b₃.toNat_lt
  have bound₄ := b₄.toNat_lt
  rw [base32Loop_symbol (by omega), if_neg (by omega),
    base32Loop_symbol (by omega), if_pos (by omega),
    base32Loop_symbol (by omega), if_neg (by omega),
    base32Loop_symbol (by omega), if_pos (by omega),
    base32Loop_symbol (by omega), if_pos (by omega),
    base32Loop_symbol (by omega), if_neg (by omega),
    base32Loop_symbol (by omega), if_pos (by omega),
    base32Loop_symbol (by omega), if_pos (by omega)]
  refine ⟨_, congrArg (base32Loop rest 0 _) ?_⟩
  simp only [List.append_assoc, List.cons_append, List.nil_append,
    Nat.reduceAdd, Nat.reduceSub, Nat.reducePow, List.append_cancel_left_eq,
    List.cons.injEq, and_true]
  refine ⟨ofNat_eq ?_, ofNat_eq ?_, ofNat_eq ?_, ofNat_eq ?_, ofNat_eq ?_⟩
  all_goals omega

theorem exists_five_cons {α : Type} {items : List α} {groups : Nat}
    (aligned : items.length = 5 * (groups + 1)) :
    ∃ i₀ i₁ i₂ i₃ i₄ rest, items = i₀ :: i₁ :: i₂ :: i₃ :: i₄ :: rest ∧
      rest.length = 5 * groups :=
  match items, aligned with
  | i₀ :: i₁ :: i₂ :: i₃ :: i₄ :: rest, aligned =>
      ⟨i₀, i₁, i₂, i₃, i₄, rest, rfl, by
        simp only [List.length_cons] at aligned
        omega⟩

theorem base32Loop_encode (groups : Nat) (input : List UInt8)
    (aligned : input.length = 5 * groups) (value : Nat)
    (bytes : List UInt8) :
    ∃ later,
      base32Loop (StrKey.base32Encode input) 0 value bytes =
        some (bytes ++ input, 0, later) := by
  induction groups generalizing input value bytes with
  | zero =>
      have empty : input = [] := List.length_eq_zero_iff.mp aligned
      exact ⟨value, by simp [empty, StrKey.base32Encode, base32Loop]⟩
  | succ groups induction =>
      obtain ⟨b₀, b₁, b₂, b₃, b₄, rest, rfl, shorter⟩ :=
        exists_five_cons aligned
      obtain ⟨middle, group⟩ := base32Loop_group b₀ b₁ b₂ b₃ b₄
        (StrKey.base32Encode rest) value bytes
      obtain ⟨later, decoded⟩ :=
        induction rest shorter middle (bytes ++ [b₀, b₁, b₂, b₃, b₄])
      refine ⟨later, ?_⟩
      rw [StrKey.base32Encode, group, decoded]
      simp

theorem base32Decode_encode (address : Address) :
    base32Decode (StrKey.encode address).toList =
      some (StrKey.bytes address) := by
  obtain ⟨later, decoded⟩ :=
    base32Loop_encode 7 (StrKey.bytes address) (StrKey.length_bytes address)
      0 []
  simp [base32Decode, StrKey.encode, decoded]

/-- Different addresses have different texts. -/
theorem encode_injective : Function.Injective StrKey.encode := by
  intro left right same
  have decoded := base32Decode_encode left
  rw [same, base32Decode_encode right] at decoded
  have bytes := Option.some.inj decoded
  have bodies : StrKey.body right = StrKey.body left :=
    (List.append_inj bytes (by simp)).1
  obtain ⟨leftKind, leftPayload⟩ := left
  obtain ⟨rightKind, rightPayload⟩ := right
  simp only [StrKey.body, List.cons.injEq] at bodies
  have kinds : leftKind = rightKind := by
    revert bodies
    cases leftKind <;> cases rightKind <;> simp [StrKey.versionByte]
  rw [kinds, Vector.toList_inj.mp bodies.2]

theorem crc16Xmodem_eq_crc16 (data : List UInt8) :
    crc16Xmodem data = StrKey.crc16 data := rfl

theorem symbol_toNat_lt :
    ∀ group < 32, (StrKey.symbol group).toNat < 0x10000 := by
  decide

private theorem symbol_bounded (group : Nat) :
    (StrKey.symbol group).toNat < 0x10000 := by
  by_cases small : group < 32
  · exact symbol_toNat_lt group small
  · have beyond : StrKey.alphabet.length ≤ group := by
      have size : StrKey.alphabet.length = 32 := by decide
      omega
    unfold StrKey.symbol
    rw [List.getD_eq_default _ _ beyond]
    decide

theorem base32Encode_bounded (input : List UInt8) :
    ∀ char ∈ StrKey.base32Encode input, char.toNat < 0x10000 := by
  induction input using StrKey.base32Encode.induct with
  | case1 b₀ b₁ b₂ b₃ b₄ rest induction =>
      intro char member
      simp only [StrKey.base32Encode, List.mem_cons] at member
      rcases member with rfl | rfl | rfl | rfl | rfl | rfl | rfl | rfl | tail
      case inr.inr.inr.inr.inr.inr.inr.inr => exact induction char tail
      all_goals exact symbol_bounded _
  | case2 | case3 | case4 | case5 =>
      intro char member
      simp only [StrKey.base32Encode, List.mem_cons, List.not_mem_nil,
        or_false] at member
      rcases member with rfl | rfl | rfl | rfl | rfl | rfl | rfl <;>
        exact symbol_bounded _
  | case6 =>
      intro char member
      simp [StrKey.base32Encode] at member

private theorem jsLength_encode (address : Address) :
    jsLength (StrKey.encode address) = 56 := by
  have units : (StrKey.encode address).toList.map
      (fun char => if char.toNat < 0x10000 then 1 else 2) =
        List.replicate 56 1 := by
    rw [← StrKey.length_encode address, ← List.map_const']
    apply List.map_congr_left
    intro char member
    have bounded : char.toNat < 0x10000 :=
      base32Encode_bounded _ char (by simpa [StrKey.encode] using member)
    simp [bounded]
  simp [jsLength, units]

theorem head_encode (address : Address) :
    (StrKey.encode address).toList.headD ' ' =
      match address.kind with
      | .account => 'G'
      | .contract => 'C' := by
  obtain ⟨kind, payload⟩ := address
  have long : 4 ≤ payload.toList.length := by simp
  match shape : payload.toList, long with
  | b₁ :: b₂ :: b₃ :: b₄ :: rest, _ =>
      cases kind <;>
        simp [StrKey.encode, StrKey.bytes, StrKey.body, shape,
          StrKey.base32Encode, StrKey.versionByte] <;> decide

/-- The indexer accepts the StrKey text of every account and contract. -/
theorem isValidStellarAddress_encode (address : Address) :
    isValidStellarAddress (StrKey.encode address) = true := by
  have payload : (StrKey.bytes address).take 33 = StrKey.body address := by
    rw [StrKey.bytes, ← StrKey.length_body address, List.take_left]
  have checksum : (StrKey.bytes address).drop 33 =
      [UInt8.ofNat (StrKey.crc16 (StrKey.body address) &&& 0xff),
        UInt8.ofNat ((StrKey.crc16 (StrKey.body address) >>> 8) &&& 0xff)] := by
    rw [StrKey.bytes, ← StrKey.length_body address, List.drop_left]
  have lowByte : ∀ number : Nat,
      (UInt8.ofNat (number &&& 0xff)).toNat = number &&& 0xff := by
    intro number
    have small : number &&& 0xff < 256 :=
      Nat.lt_of_le_of_lt Nat.and_le_right (by decide)
    exact UInt8.toNat_ofNat_of_lt' small
  have version : (StrKey.bytes address).getD 0 0 =
      StrKey.versionByte address.kind := by
    simp [StrKey.bytes, StrKey.body]
  have length : (StrKey.bytes address).length =
      STELLAR_ADDRESS_DECODED_LENGTH := StrKey.length_bytes address
  have first : ∀ low high : UInt8, [low, high].getD 0 0 = low :=
    fun _ _ => rfl
  have second : ∀ low high : UInt8, [low, high].getD 1 0 = high :=
    fun _ _ => rfl
  unfold isValidStellarAddress
  rw [jsLength_encode, head_encode, base32Decode_encode]
  cases kind : address.kind <;>
    simp only [kind, payload, checksum, version, length, first, second,
      lowByte, crc16Xmodem_eq_crc16] <;>
    decide

end Stellar8004.Indexer
