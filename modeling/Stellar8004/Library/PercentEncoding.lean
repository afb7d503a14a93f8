import Mathlib

/-!
# Percent-encoding of URI components

`encodeURIComponent` writes every character outside a small set as the bytes
of its UTF-8, each behind a percent sign; `decodeURIComponent` reads them back
and refuses bytes that are not UTF-8.  Encoding is undone by decoding, and a
text without percent signs is the only one that decoding leaves alone.
-/

namespace Percent

/-! ## Characters -/

def upperHex (value : Nat) : Char :=
  "0123456789ABCDEF".toList.getD value '0'

def hexValue (char : Char) : Option Nat :=
  if '0' ≤ char ∧ char ≤ '9' then some (char.toNat - '0'.toNat)
  else if 'a' ≤ char ∧ char ≤ 'f' then some (char.toNat - 'a'.toNat + 10)
  else if 'A' ≤ char ∧ char ≤ 'F' then some (char.toNat - 'A'.toNat + 10)
  else none

/-- The characters `encodeURIComponent` leaves as they are. -/
def isUnescaped (char : Char) : Bool :=
  char.isAlphanum ||
    ['-', '_', '.', '!', '~', '*', '\'', '(', ')'].contains char

/-- The three characters that stand for a byte. -/
def escape (byte : UInt8) : List Char :=
  ['%', upperHex (byte.toNat / 16), upperHex (byte.toNat % 16)]

def encodeChar (char : Char) : List Char :=
  if isUnescaped char then [char]
  else (String.utf8EncodeChar char).flatMap escape

/-- `encodeURIComponent`. -/
def encode (text : List Char) : List Char :=
  text.flatMap encodeChar

/-- The bytes of the escapes a text begins with, `limit` at most. -/
def escapes : (limit : Nat) → List Char → List UInt8
  | limit + 1, '%' :: high :: low :: rest =>
      match hexValue high, hexValue low with
      | some left, some right =>
          UInt8.ofNat (16 * left + right) :: escapes limit rest
      | _, _ => []
  | _, _ => []

/-- The text read in at most `rounds` characters.  An escape begins a
character of up to four bytes. -/
def decodeWithin : (rounds : Nat) → List Char → Option (List Char)
  | _, [] => some []
  | 0, _ => none
  | rounds + 1, first :: rest =>
      if first = '%' then
        match (escapes 4 (first :: rest)).toByteArray.utf8DecodeChar? 0 with
        | none => none
        | some char =>
            (decodeWithin rounds
              ((first :: rest).drop (3 * char.utf8Size))).map (char :: ·)
      else (decodeWithin rounds rest).map (first :: ·)

/-- `decodeURIComponent`, nothing where it throws. -/
def decode (text : List Char) : Option (List Char) :=
  decodeWithin text.length text

/-! ## Reading one character -/

theorem decodeWithin_eq {rounds : Nat} {text : List Char}
    (enough : text.length ≤ rounds) :
    decodeWithin rounds text = decode text := by
  have stable : ∀ bound (text : List Char), text.length ≤ bound →
      ∀ first second, text.length ≤ first → text.length ≤ second →
        decodeWithin first text = decodeWithin second text := by
    intro bound
    induction bound with
    | zero =>
        intro text empty first second _ _
        obtain rfl := List.length_eq_zero_iff.mp (Nat.le_zero.mp empty)
        cases first <;> cases second <;> rfl
    | succ bound induction =>
        intro text short first second isFirst isSecond
        cases text with
        | nil => cases first <;> cases second <;> rfl
        | cons head rest =>
            simp only [List.length_cons] at short isFirst isSecond
            obtain ⟨first, rfl⟩ := Nat.exists_eq_succ_of_ne_zero
              (Nat.ne_of_gt (Nat.lt_of_lt_of_le (Nat.succ_pos _) isFirst))
            obtain ⟨second, rfl⟩ := Nat.exists_eq_succ_of_ne_zero
              (Nat.ne_of_gt (Nat.lt_of_lt_of_le (Nat.succ_pos _) isSecond))
            unfold decodeWithin
            split
            · cases (escapes 4 (head :: rest)).toByteArray.utf8DecodeChar? 0
                with
              | none => rfl
              | some char =>
                  have positive := char.utf8Size_pos
                  have shorter : ((head :: rest).drop
                      (3 * char.utf8Size)).length ≤ rest.length := by
                    rw [List.length_drop, List.length_cons]
                    omega
                  simp only
                  rw [induction _ (by omega) first second (by omega)
                    (by omega)]
            · rw [induction rest (by omega) first second (by omega)
                (by omega)]
  exact stable text.length text (Nat.le_refl _) _ _ enough (Nat.le_refl _)

@[simp] theorem decode_nil : decode [] = some [] := rfl

theorem decode_cons_plain {first : Char} (plain : first ≠ '%')
    (rest : List Char) :
    decode (first :: rest) = (decode rest).map (first :: ·) := by
  unfold decode
  rw [List.length_cons, decodeWithin, if_neg plain]

theorem decode_cons_escape (rest : List Char) :
    decode ('%' :: rest) =
      match (escapes 4 ('%' :: rest)).toByteArray.utf8DecodeChar? 0 with
      | none => none
      | some char => (decode (('%' :: rest).drop
          (3 * char.utf8Size))).map (char :: ·) := by
  rw [decode, List.length_cons, decodeWithin, if_pos rfl]
  cases (escapes 4 ('%' :: rest)).toByteArray.utf8DecodeChar? 0 with
  | none => rfl
  | some char =>
      have positive := char.utf8Size_pos
      simp only
      rw [decodeWithin_eq]
      rw [List.length_drop, List.length_cons]
      omega

/-! ## Encoding is undone -/

theorem hexValue_upperHex : ∀ value < 16,
    hexValue (upperHex value) = some value := by
  decide

theorem escapes_append (bytes : List UInt8) (rest : List Char)
    (limit : Nat) :
    escapes (bytes.length + limit) (bytes.flatMap escape ++ rest) =
      bytes ++ escapes limit rest := by
  induction bytes with
  | nil => rw [List.length_nil, Nat.zero_add]; rfl
  | cons byte bytes induction =>
      have small : byte.toNat < 256 := byte.toNat_lt
      have high := hexValue_upperHex (byte.toNat / 16) (by omega)
      have low := hexValue_upperHex (byte.toNat % 16) (by omega)
      have whole : UInt8.ofNat (16 * (byte.toNat / 16) + byte.toNat % 16) =
          byte := by
        rw [Nat.div_add_mod, UInt8.ofNat_toNat]
      have next : (byte :: bytes).length + limit =
          (bytes.length + limit) + 1 := by
        rw [List.length_cons]
        omega
      rw [next, List.flatMap_cons, escape, List.append_assoc]
      simp only [List.cons_append, List.nil_append, escapes, high, low, whole,
        induction]

theorem length_flatMap_escape (bytes : List UInt8) :
    (bytes.flatMap escape).length = 3 * bytes.length := by
  induction bytes with
  | nil => rfl
  | cons byte bytes induction =>
      rw [List.flatMap_cons, List.length_append, induction, List.length_cons]
      change 3 + _ = _
      omega

theorem toByteArray_append (first second : List UInt8) :
    (first ++ second).toByteArray =
      first.toByteArray ++ second.toByteArray := by
  simp

theorem isUnescaped_percent : isUnescaped '%' = false := by decide

theorem decode_encodeChar_append (char : Char) (rest : List Char) :
    decode (encodeChar char ++ rest) = (decode rest).map (char :: ·) := by
  unfold encodeChar
  split
  · rename_i unescaped
    apply decode_cons_plain
    rintro rfl
    rw [isUnescaped_percent] at unescaped
    cases unescaped
  · obtain ⟨byte, bytes, isBytes⟩ :=
      List.exists_cons_of_ne_nil (String.utf8EncodeChar_ne_nil (c := char))
    have size : (byte :: bytes).length = char.utf8Size := by
      rw [← isBytes, String.length_utf8EncodeChar]
    have four : char.utf8Size ≤ 4 := char.utf8Size_le_four
    have read := escapes_append (byte :: bytes) rest (4 - char.utf8Size)
    rw [size, Nat.add_sub_cancel' four] at read
    have known : ((byte :: bytes) ++ escapes (4 - char.utf8Size)
        rest).toByteArray.utf8DecodeChar? 0 = some char := by
      rw [toByteArray_append, ← isBytes]
      exact ByteArray.utf8DecodeChar?_utf8EncodeChar_append
    have dropped : ((byte :: bytes).flatMap escape ++ rest).drop
        (3 * char.utf8Size) = rest := by
      rw [← size, ← length_flatMap_escape, List.drop_left]
    rw [isBytes]
    have begins : (byte :: bytes).flatMap escape ++ rest =
        '%' :: ((byte :: bytes).flatMap escape ++ rest).tail := rfl
    rw [begins, decode_cons_escape, ← begins, read, known]
    simp only [dropped]

theorem decode_encode_append (text rest : List Char) :
    decode (encode text ++ rest) = (decode rest).map (text ++ ·) := by
  induction text with
  | nil => simp [encode]
  | cons char text induction =>
      rw [encode, List.flatMap_cons, List.append_assoc,
        decode_encodeChar_append]
      rw [encode] at induction
      rw [induction, Option.map_map]
      rfl

/-- Decoding undoes encoding. -/
theorem decode_encode (text : List Char) :
    decode (encode text) = some text := by
  have whole := decode_encode_append text []
  simpa using whole

/-! ## Texts without percent signs -/

theorem decode_plain {text : List Char} (plain : '%' ∉ text) :
    decode text = some text := by
  induction text with
  | nil => rfl
  | cons first rest induction =>
      rw [List.mem_cons, not_or] at plain
      rw [decode_cons_plain (Ne.symm plain.1), induction plain.2]
      rfl

/-- The escapes of a character take three characters at least. -/
theorem length_of_escapes {limit : Nat} {text : List Char}
    (some : escapes limit text ≠ []) : 3 ≤ text.length := by
  unfold escapes at some
  split at some
  · simp
  · exact absurd rfl some

theorem length_of_known {limit : Nat} {text : List Char} {char : Char}
    (known : (escapes limit text).toByteArray.utf8DecodeChar? 0 = some char) :
    3 ≤ text.length := by
  apply length_of_escapes
  intro none
  rw [none] at known
  obtain ⟨more, isMore⟩ := ByteArray.exists_of_utf8DecodeChar?_eq_some known
  have size := congrArg ByteArray.size isMore
  rw [ByteArray.size_append, List.size_toByteArray, List.size_toByteArray,
    String.length_utf8EncodeChar, List.length_nil] at size
  have positive := char.utf8Size_pos
  omega

theorem decode_length {text read : List Char}
    (decoded : decode text = some read) :
    read.length ≤ text.length ∧ ('%' ∈ text → read.length < text.length) := by
  have bounded : ∀ bound (text : List Char), text.length ≤ bound →
      ∀ read, decode text = some read → read.length ≤ text.length ∧
        ('%' ∈ text → read.length < text.length) := by
    intro bound
    induction bound with
    | zero =>
        intro text empty read decoded
        obtain rfl := List.length_eq_zero_iff.mp (Nat.le_zero.mp empty)
        cases decoded
        exact ⟨Nat.le_refl _, fun never => nomatch never⟩
    | succ bound induction =>
        intro text short read decoded
        cases text with
        | nil =>
            cases decoded
            exact ⟨Nat.le_refl _, fun never => nomatch never⟩
        | cons first rest =>
            rw [List.length_cons] at short
            by_cases plain : first = '%'
            · subst plain
              rw [decode_cons_escape] at decoded
              cases known : (escapes 4
                  ('%' :: rest)).toByteArray.utf8DecodeChar? 0 with
              | none =>
                  rw [known] at decoded
                  cases decoded
              | some char =>
                  rw [known] at decoded
                  obtain ⟨later, isLater, rfl⟩ :=
                    Option.map_eq_some_iff.mp decoded
                  have positive := char.utf8Size_pos
                  have three := length_of_known known
                  have shorter := List.length_drop (i := 3 * char.utf8Size)
                    (l := '%' :: rest)
                  have onward := (induction _ (by
                    rw [shorter, List.length_cons]
                    omega) later isLater).1
                  rw [shorter] at onward
                  rw [List.length_cons] at three onward ⊢
                  rw [List.length_cons]
                  constructor
                  · omega
                  · intro _
                    omega
            · rw [decode_cons_plain plain] at decoded
              obtain ⟨later, isLater, rfl⟩ :=
                Option.map_eq_some_iff.mp decoded
              obtain ⟨onward, strictly⟩ :=
                induction rest (by omega) later isLater
              rw [List.length_cons, List.length_cons]
              refine ⟨by omega, fun member => ?_⟩
              have inside := (List.mem_cons.mp member).resolve_left
                (Ne.symm plain)
              have less := strictly inside
              omega
  exact bounded text.length text (Nat.le_refl _) read decoded

/-- Decoding leaves a text alone when it has no percent sign, and only
then. -/
theorem decode_eq_self_iff {text : List Char} :
    decode text = some text ↔ '%' ∉ text := by
  constructor
  · intro same member
    exact absurd ((decode_length same).2 member) (Nat.lt_irrefl _)
  · exact decode_plain

/-! ## Again and again -/

/-- The text decoded a number of times. -/
def decodeTimes : Nat → List Char → Option (List Char)
  | 0, text => some text
  | times + 1, text => (decode text).bind (decodeTimes times)

/-- The text encoded a number of times. -/
def encodeTimes : Nat → List Char → List Char
  | 0, text => text
  | times + 1, text => encode (encodeTimes times text)

theorem decodeTimes_plain {text : List Char} (plain : '%' ∉ text)
    (times : Nat) : decodeTimes times text = some text := by
  induction times with
  | zero => rfl
  | succ times induction =>
      rw [decodeTimes, decode_plain plain, Option.bind_some, induction]

theorem decodeTimes_encodeTimes (times more : Nat) (text : List Char) :
    decodeTimes times (encodeTimes (times + more) text) =
      some (encodeTimes more text) := by
  induction times with
  | zero => rw [Nat.zero_add]; rfl
  | succ times induction =>
      rw [Nat.succ_add, encodeTimes, decodeTimes, decode_encode,
        Option.bind_some, induction]

theorem percent_mem_encode_iff {text : List Char} :
    '%' ∈ encode text ↔ ∃ char ∈ text, isUnescaped char = false := by
  unfold encode
  rw [List.mem_flatMap]
  constructor
  · rintro ⟨char, member, inside⟩
    refine ⟨char, member, ?_⟩
    unfold encodeChar at inside
    split at inside
    · rename_i unescaped
      rw [← List.mem_singleton.mp inside, isUnescaped_percent] at unescaped
      cases unescaped
    · rename_i escaped
      exact Bool.eq_false_iff.mpr escaped
  · rintro ⟨char, member, escaped⟩
    refine ⟨char, member, ?_⟩
    obtain ⟨byte, bytes, isBytes⟩ :=
      List.exists_cons_of_ne_nil (String.utf8EncodeChar_ne_nil (c := char))
    rw [encodeChar, escaped, isBytes]
    exact List.mem_cons_self

/-- What has to be escaped once has to be escaped again. -/
theorem percent_mem_encodeTimes {text : List Char} {char : Char}
    (member : char ∈ text) (escaped : isUnescaped char = false)
    (times : Nat) : '%' ∈ encodeTimes (times + 1) text := by
  induction times with
  | zero => exact percent_mem_encode_iff.mpr ⟨char, member, escaped⟩
  | succ times induction =>
      exact percent_mem_encode_iff.mpr ⟨'%', induction, isUnescaped_percent⟩

/-- A text of unescaped characters is its own encoding. -/
theorem encodeTimes_unescaped {text : List Char}
    (all : ∀ char ∈ text, isUnescaped char = true) (times : Nat) :
    encodeTimes times text = text := by
  have once : encode text = text := by
    unfold encode
    induction text with
    | nil => rfl
    | cons char text induction =>
        rw [List.flatMap_cons, induction fun other member =>
          all other (List.mem_cons_of_mem _ member), encodeChar,
          if_pos (all char List.mem_cons_self)]
        rfl
  induction times with
  | zero => rfl
  | succ times induction =>
      rw [encodeTimes, induction, once]

end Percent
