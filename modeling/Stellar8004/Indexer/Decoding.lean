import Stellar8004.Indexer.Helpers

/-!
# What the replacing decoder cannot make

Bytes that are no UTF-8 are decoded with replacement characters.  Whatever
they are, the text they become is not ASCII, so no key of a contract is
mistaken for an ASCII key it is not.
-/

namespace Stellar8004.Indexer

namespace DecoderState

/-- A state inside a sequence.  The bounds are those under which the sequence
ends in a code point past ASCII that is no surrogate. -/
def Open (state : DecoderState) : Prop :=
  (state.needed = 1 ∧ 0x80 ≤ state.lower ∧ state.upper ≤ 0xbf ∧
    2 ≤ state.codePoint ∧ state.codePoint < 0x4400 ∧
    (state.codePoint < 0x360 ∨ 0x380 ≤ state.codePoint)) ∨
  (state.needed = 2 ∧ 0x80 ≤ state.lower ∧ state.upper ≤ 0xbf ∧
    state.codePoint < 0x110 ∧
    (state.codePoint = 0 → 0xa0 ≤ state.lower) ∧
    (state.codePoint = 0xd → state.upper ≤ 0x9f)) ∨
  (state.needed = 3 ∧ 0x80 ≤ state.lower ∧ state.upper ≤ 0xbf ∧
    state.codePoint ≤ 4 ∧
    (state.codePoint = 0 → 0x90 ≤ state.lower) ∧
    (state.codePoint = 4 → state.upper ≤ 0x8f))

/-- A continuation byte brings six bits. -/
theorem continued_eq (codePoint byte : Nat) :
    (codePoint <<< 6) ||| (byte &&& 0x3f) = codePoint * 64 + byte % 64 := by
  have low : byte &&& 0x3f = byte % 64 := Nat.and_two_pow_sub_one_eq_mod byte 6
  have small : byte % 64 < 2 ^ 6 := Nat.mod_lt _ (by decide)
  rw [low, ← Nat.shiftLeft_add_eq_or_of_lt small, Nat.shiftLeft_eq]

theorem toNat_ofNat {codePoint : Nat} (valid : codePoint.isValidChar) :
    (Char.ofNat codePoint).toNat = codePoint := by
  simp [Char.ofNat, valid, Char.toNat, Char.ofNatAux]

theorem replacement_not_ascii : 0x80 ≤ replacement.toNat := by
  decide

/-- A first byte past ASCII is replaced or opens a sequence. -/
theorem lead_open {byte : Nat} (isByte : byte < 256) (past : 0x80 ≤ byte) :
    lead byte = ([replacement], fresh) ∨
      ((lead byte).1 = [] ∧ (lead byte).2.Open) := by
  have five : byte &&& 0x1f = byte % 32 := Nat.and_two_pow_sub_one_eq_mod byte 5
  have four : byte &&& 0xf = byte % 16 := Nat.and_two_pow_sub_one_eq_mod byte 4
  have three : byte &&& 0x7 = byte % 8 := Nat.and_two_pow_sub_one_eq_mod byte 3
  have later : ¬ byte ≤ 0x7f := by omega
  unfold lead
  rw [if_neg later, five, four, three]
  split
  · right
    refine ⟨rfl, .inl ?_⟩
    dsimp only [fresh]
    omega
  split
  · right
    refine ⟨rfl, .inr (.inl ?_)⟩
    dsimp only
    split <;> split <;> omega
  split
  · right
    refine ⟨rfl, .inr (.inr ?_)⟩
    dsimp only
    split <;> split <;> omega
  · exact .inl rfl

/-- An open sequence goes on, or a character past ASCII comes out. -/
theorem Open.feed {state : DecoderState} (isOpen : state.Open) (byte : Nat) :
    (∃ char ∈ (state.feed byte).1, 0x80 ≤ char.toNat) ∨
      ((state.feed byte).1 = [] ∧ (state.feed byte).2.Open) := by
  have unfinished : state.needed ≠ 0 := by
    rcases isOpen with ⟨needed, _⟩ | ⟨needed, _⟩ | ⟨needed, _⟩ <;> omega
  unfold DecoderState.feed
  rw [if_neg unfinished]
  split
  · rename_i within
    simp only [continued_eq]
    rcases isOpen with ⟨needed, bounds⟩ | ⟨needed, bounds⟩ | ⟨needed, bounds⟩
    · left
      have valid : (state.codePoint * 64 + byte % 64).isValidChar := by
        unfold Nat.isValidChar
        omega
      rw [if_pos needed]
      refine ⟨_, List.mem_singleton_self _, ?_⟩
      rw [toNat_ofNat valid]
      omega
    · right
      rw [if_neg (by omega)]
      refine ⟨rfl, .inl ?_⟩
      simp only [fresh]
      omega
    · right
      rw [if_neg (by omega)]
      refine ⟨rfl, .inr (.inl ?_)⟩
      simp only [fresh]
      omega
  · left
    exact ⟨replacement, List.mem_cons_self, replacement_not_ascii⟩

/-- An open sequence does not come out as ASCII, whatever follows. -/
theorem Open.run {state : DecoderState} (isOpen : state.Open)
    (bytes : List UInt8) :
    ∃ char ∈ state.run bytes, 0x80 ≤ char.toNat := by
  induction bytes generalizing state with
  | nil =>
      have unfinished : state.needed ≠ 0 := by
        rcases isOpen with ⟨needed, _⟩ | ⟨needed, _⟩ | ⟨needed, _⟩ <;> omega
      unfold DecoderState.run
      rw [if_neg unfinished]
      exact ⟨replacement, List.mem_singleton_self _, replacement_not_ascii⟩
  | cons byte bytes induction =>
      unfold DecoderState.run
      rcases isOpen.feed byte.toNat with ⟨char, out, past⟩ | ⟨_, isOpen⟩
      · exact ⟨char, List.mem_append_left _ out, past⟩
      · obtain ⟨char, out, past⟩ := induction isOpen
        exact ⟨char, List.mem_append_right _ out, past⟩

/-- A byte past ASCII does not come out as ASCII. -/
theorem fresh_run {bytes : List UInt8}
    (past : ∃ byte ∈ bytes, 0x80 ≤ byte.toNat) :
    ∃ char ∈ fresh.run bytes, 0x80 ≤ char.toNat := by
  induction bytes with
  | nil =>
      obtain ⟨byte, member, _⟩ := past
      cases member
  | cons first rest induction =>
      unfold DecoderState.run
      have led : fresh.feed first.toNat = lead first.toNat := rfl
      rw [led]
      by_cases ascii : first.toNat ≤ 0x7f
      · have passed : (lead first.toNat).2 = fresh := by
          unfold lead
          rw [if_pos ascii]
        obtain ⟨byte, member, isPast⟩ := past
        rcases List.mem_cons.mp member with rfl | later
        · omega
        · obtain ⟨char, out, isChar⟩ := induction ⟨byte, later, isPast⟩
          rw [passed]
          exact ⟨char, List.mem_append_right _ out, isChar⟩
      · rcases lead_open first.toNat_lt (by omega) with same | ⟨_, isOpen⟩
        · rw [same]
          exact ⟨replacement, List.mem_cons_self, replacement_not_ascii⟩
        · obtain ⟨char, out, isChar⟩ := isOpen.run rest
          exact ⟨char, List.mem_append_right _ out, isChar⟩

end DecoderState

/-! ## ASCII bytes -/

theorem toList_loop (bytes : ByteArray) (start : Nat) (taken : List UInt8) :
    ByteArray.toList.loop bytes start taken =
      taken.reverse ++ bytes.data.toList.drop start := by
  fun_induction ByteArray.toList.loop bytes start taken with
  | case1 start taken inside induction =>
      have length : start < bytes.data.toList.length := inside
      have isByte : bytes.get! start = bytes.data.toList[start] :=
        getElem!_pos bytes.data start inside
      rw [induction, List.drop_eq_getElem_cons length]
      simp [isByte]
  | case2 start taken outside =>
      rw [List.drop_eq_nil_of_le (Nat.not_lt.mp outside), List.append_nil]

theorem toList_eq (bytes : ByteArray) : bytes.toList = bytes.data.toList :=
  toList_loop bytes 0 []

/-- ASCII bytes are the encoding of their characters. -/
theorem encode_ascii {bytes : List UInt8}
    (ascii : ∀ byte ∈ bytes, byte.toNat < 0x80) :
    (bytes.map fun byte => Char.ofNat byte.toNat).flatMap
      String.utf8EncodeChar = bytes := by
  induction bytes with
  | nil => rfl
  | cons byte bytes induction =>
      have small : byte.toNat < 0x80 := ascii byte (by simp)
      have valid : byte.toNat.isValidChar := .inl (by omega)
      have value : (Char.ofNat byte.toNat).val.toNat = byte.toNat :=
        DecoderState.toNat_ofNat valid
      have single : String.utf8EncodeChar (Char.ofNat byte.toNat) =
          [byte] := by
        unfold String.utf8EncodeChar
        rw [value, if_pos (by omega), UInt8.ofNat_toNat]
      rw [List.map_cons, List.flatMap_cons, single,
        induction fun other member => ascii other (by simp [member])]
      rfl

/-- Bytes that encode characters are UTF-8. -/
theorem fromUTF8?_encoded {bytes : Bytes} (chars : List Char)
    (encoded : chars.flatMap String.utf8EncodeChar = bytes.data.toList) :
    String.fromUTF8? bytes ≠ none := by
  have same : bytes = utf8 (String.ofList chars) := by
    apply ByteArray.ext
    apply Array.ext'
    unfold utf8
    rw [String.toUTF8_eq_toByteArray, String.toByteArray_ofList,
      List.utf8Encode, List.toList_data_toByteArray, encoded]
  rw [same, fromUTF8?_utf8]
  exact Option.some_ne_none _

/-- Bytes that are not UTF-8 are not decoded to ASCII. -/
theorem replaced_not_ascii {bytes : Bytes}
    (invalid : String.fromUTF8? bytes = none) :
    ∃ char ∈ (utf8Decoder bytes).toList, 0x80 ≤ char.toNat := by
  unfold utf8Decoder
  simp only [invalid]
  rw [toList_eq]
  split
  · rename_i rest whole
    rw [String.toList_ofList]
    apply DecoderState.fresh_run
    by_contra none
    have ascii : ∀ byte ∈ rest, byte.toNat < 0x80 := by
      simpa using none
    refine fromUTF8?_encoded (byteOrderMark ::
      rest.map fun byte => Char.ofNat byte.toNat) ?_ invalid
    rw [List.flatMap_cons, encode_ascii ascii, whole]
    rfl
  · rw [String.toList_ofList]
    apply DecoderState.fresh_run
    by_contra none
    have ascii : ∀ byte ∈ bytes.data.toList, byte.toNat < 0x80 := by
      simpa using none
    exact fromUTF8?_encoded _ (encode_ascii ascii) invalid

/-! ## The byte-order mark -/

/-- The bytes of the byte-order mark. -/
def byteOrderMarkBytes : List UInt8 := [0xef, 0xbb, 0xbf]

theorem utf8_cons (first : Char) (rest : List Char) :
    utf8 (String.ofList (first :: rest)) =
      (String.utf8EncodeChar first).toByteArray ++
        utf8 (String.ofList rest) := by
  unfold utf8
  rw [String.toUTF8_eq_toByteArray, String.toUTF8_eq_toByteArray,
    String.toByteArray_ofList, String.toByteArray_ofList, List.utf8Encode_cons,
    List.utf8Encode_singleton]

/-- A text begins with the mark where its bytes begin with those of the
mark. -/
theorem head_byteOrderMark_iff (text : String) :
    text.toList.head? = some byteOrderMark ↔
      byteOrderMarkBytes <+: (utf8 text).data.toList := by
  have mark : String.utf8EncodeChar byteOrderMark = byteOrderMarkBytes := by
    decide
  have whole : text = String.ofList text.toList := by
    rw [String.ofList_toList]
  generalize text.toList = chars at whole
  subst whole
  cases chars with
  | nil =>
      constructor
      · intro isMark
        cases isMark
      · intro isPrefix
        have short := isPrefix.length_le
        exact absurd short (by decide)
  | cons first rest =>
      rw [List.head?_cons, Option.some.injEq, utf8_cons]
      constructor
      · rintro rfl
        rw [mark]
        simp
      · rintro ⟨others, isBytes⟩
        have decoded := @ByteArray.utf8DecodeChar?_utf8EncodeChar_append
          (utf8 (String.ofList rest)) first
        have same : (String.utf8EncodeChar first).toByteArray ++
            utf8 (String.ofList rest) =
              (String.utf8EncodeChar byteOrderMark).toByteArray ++
                others.toByteArray := by
          apply ByteArray.ext
          apply Array.ext'
          rw [← isBytes, mark]
          simp
        rw [same, ByteArray.utf8DecodeChar?_utf8EncodeChar_append] at decoded
        exact (Option.some.inj decoded).symm

theorem dropByteOrderMark_eq_iff (text : String) :
    dropByteOrderMark text = text ↔
      ¬ byteOrderMarkBytes <+: (utf8 text).data.toList := by
  rw [← head_byteOrderMark_iff]
  unfold dropByteOrderMark
  cases chars : text.toList with
  | nil => simp
  | cons first rest =>
      dsimp only
      rw [List.head?_cons, Option.some.injEq]
      by_cases isMark : first = byteOrderMark
      · rw [if_pos isMark]
        constructor
        · intro same
          have longer := congrArg String.toList same
          rw [String.toList_ofList, chars] at longer
          exact absurd (congrArg List.length longer) (by simp)
        · exact fun other => absurd isMark other
      · rw [if_neg isMark]
        simp [isMark]

end Stellar8004.Indexer
