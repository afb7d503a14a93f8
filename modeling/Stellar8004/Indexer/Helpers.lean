import Stellar8004.Soroban.Value

/-!
# Parser helpers

`apps/indexer/src/chain/helpers.ts`: conversions from the SDK's JavaScript
values to the texts and integers the parsers keep, and the check that a text
is a Stellar address.  A missing object field is `none`, JavaScript's
`undefined`; a thrown `TypeError` is an `Except` error with its message.
-/

namespace Stellar8004.Indexer

/-- `typeof value`. -/
def typeOf : Option Native → String
  | none => "undefined"
  | some .null => "object"
  | some (.bool _) => "boolean"
  | some (.number _) => "number"
  | some (.bigint _) => "bigint"
  | some (.text _) => "string"
  | some (.bytes _) => "object"
  | some (.array _) => "object"
  | some (.object _) => "object"

/-! ## Text -/

/-- What the decoder still expects of a multi-byte sequence. -/
structure DecoderState where
  needed : Nat
  lower : Nat
  upper : Nat
  codePoint : Nat

namespace DecoderState

def fresh : DecoderState :=
  { needed := 0, lower := 0x80, upper := 0xbf, codePoint := 0 }

def replacement : Char := Char.ofNat 0xfffd

/-- The first byte of a sequence. -/
def lead (byte : Nat) : List Char × DecoderState :=
  if byte ≤ 0x7f then ([Char.ofNat byte], fresh)
  else if 0xc2 ≤ byte ∧ byte ≤ 0xdf then
    ([], { fresh with needed := 1, codePoint := byte &&& 0x1f })
  else if 0xe0 ≤ byte ∧ byte ≤ 0xef then
    ([], { needed := 2, codePoint := byte &&& 0xf
           lower := if byte = 0xe0 then 0xa0 else 0x80
           upper := if byte = 0xed then 0x9f else 0xbf })
  else if 0xf0 ≤ byte ∧ byte ≤ 0xf4 then
    ([], { needed := 3, codePoint := byte &&& 0x7
           lower := if byte = 0xf0 then 0x90 else 0x80
           upper := if byte = 0xf4 then 0x8f else 0xbf })
  else ([replacement], fresh)

/-- One byte.  A byte that cannot continue the open sequence ends it with a
replacement character and starts again. -/
def feed (state : DecoderState) (byte : Nat) : List Char × DecoderState :=
  if state.needed = 0 then lead byte
  else if state.lower ≤ byte ∧ byte ≤ state.upper then
    let codePoint := (state.codePoint <<< 6) ||| (byte &&& 0x3f)
    if state.needed = 1 then ([Char.ofNat codePoint], fresh)
    else ([], { fresh with needed := state.needed - 1, codePoint })
  else (replacement :: (lead byte).1, (lead byte).2)

def run (state : DecoderState) : List UInt8 → List Char
  | [] => if state.needed = 0 then [] else [replacement]
  | byte :: rest =>
      (state.feed byte.toNat).1 ++ (state.feed byte.toNat).2.run rest

end DecoderState

def byteOrderMark : Char := Char.ofNat 0xfeff

def dropByteOrderMark (text : String) : String :=
  match text.toList with
  | [] => text
  | first :: rest =>
      if first = byteOrderMark then String.ofList rest else text

/-- `new TextDecoder('utf-8', { fatal: false }).decode`: the text without a
leading byte-order mark, with each invalid sequence replaced. -/
def utf8Decoder (bytes : Bytes) : String :=
  match String.fromUTF8? bytes with
  | some text => dropByteOrderMark text
  | none =>
      match bytes.toList with
      | 0xef :: 0xbb :: 0xbf :: rest =>
          String.ofList (DecoderState.fresh.run rest)
      | all => String.ofList (DecoderState.fresh.run all)

def hexDigit (value : Nat) : Char :=
  "0123456789abcdef".toList.getD value '0'

/-- `byte.toString(16).padStart(2, '0')`. -/
def hexByte (byte : UInt8) : List Char :=
  [hexDigit (byte.toNat / 16), hexDigit (byte.toNat % 16)]

def isHexDigit (char : Char) : Bool :=
  ('0' ≤ char ∧ char ≤ '9') || ('a' ≤ char ∧ char ≤ 'f') ||
    ('A' ≤ char ∧ char ≤ 'F')

def toHex : Option Native → String
  | some (.bytes value) =>
      String.ofList (value.data.toList.flatMap hexByte)
  | some (.text value) =>
      if value.toList.all isHexDigit then
        String.ofList (value.toList.map Char.toLower)
      else ""
  | _ => ""

def bytesToUtf8 : Option Native → Except String String
  | some (.bytes value) => .ok (utf8Decoder value)
  | some (.text value) => .ok value
  | value => .error
      s!"bytesToUtf8: expected Uint8Array or string, got {typeOf value}"

def toText : Option Native → Except String String
  | none => .ok ""
  | some .null => .ok ""
  | some (.text value) => .ok value
  | some (.bytes value) => .ok (utf8Decoder value)
  | value => .error
      s!"toText: expected string or Uint8Array, got {typeOf value}"

/-! ## Objects and integers -/

/-- The own properties of an event payload; everything that is not a plain
object has none the parsers read. -/
def parseEventData : Native → List (String × Native)
  | .object fields => fields
  | _ => []

/-- `data.name`; of two entries with one name the later one counts. -/
def field (data : List (String × Native)) (name : String) : Option Native :=
  (data.reverse.find? (fun entry => entry.1 == name)).map Prod.snd

/-- `Number.isSafeInteger` on an integer. -/
def isSafeInteger (value : Int) : Bool :=
  -(2 ^ 53 - 1) ≤ value ∧ value ≤ 2 ^ 53 - 1

def toBigInt (value : Option Native) (fieldName : String) :
    Except String Int :=
  match value with
  | some (.bigint integer) => .ok integer
  | some (.number integer) =>
      if isSafeInteger integer then .ok integer
      else .error
        s!"toBigInt: expected an integer for {fieldName} within the safe numeric range, got {integer}"
  | other => .error
      s!"toBigInt: expected bigint/number for {fieldName}, got {typeOf other}"

def toSafeInteger (value : Option Native) (fieldName : String) :
    Except String Int := do
  let integer ← toBigInt value fieldName
  if isSafeInteger integer then .ok integer
  else .error s!"Expected a safe integer for {fieldName}"

/-! ## Stellar addresses -/

def STELLAR_BASE32_ALPHABET : List Char :=
  "ABCDEFGHIJKLMNOPQRSTUVWXYZ234567".toList

def STELLAR_PUBLIC_KEY_VERSION_BYTE : Nat := 6 <<< 3
def STELLAR_CONTRACT_VERSION_BYTE : Nat := 2 <<< 3
def STELLAR_ADDRESS_DECODED_LENGTH : Nat := 35

/-- The loop of `base32Decode`.  `value` is JavaScript's 32-bit accumulator,
read as unsigned. -/
def base32Loop : List Char → (bits value : Nat) → List UInt8 →
    Option (List UInt8 × Nat × Nat)
  | [], bits, value, bytes => some (bytes, bits, value)
  | char :: rest, bits, value, bytes =>
      match STELLAR_BASE32_ALPHABET.idxOf? char with
      | none => none
      | some index =>
          let value := ((value <<< 5) ||| index) % 2 ^ 32
          let bits := bits + 5
          if 8 ≤ bits then
            base32Loop rest (bits - 8) value
              (bytes ++ [UInt8.ofNat ((value >>> (bits - 8)) &&& 0xff)])
          else
            base32Loop rest bits value bytes

/-- `none` where the source throws. -/
def base32Decode (input : List Char) : Option (List UInt8) :=
  match base32Loop input 0 0 [] with
  | none => none
  | some (bytes, bits, value) =>
      if 0 < bits ∧ value &&& ((1 <<< bits) - 1) ≠ 0 then none
      else some bytes

def crc16Bit (crc : Nat) : Nat :=
  if crc &&& 0x8000 ≠ 0 then ((crc <<< 1) ^^^ 0x1021) &&& 0xffff
  else (crc <<< 1) &&& 0xffff

def crc16Xmodem (data : List UInt8) : Nat :=
  data.foldl (fun crc byte =>
    crc16Bit (crc16Bit (crc16Bit (crc16Bit (crc16Bit (crc16Bit (crc16Bit
      (crc16Bit (crc ^^^ (byte.toNat <<< 8)))))))))) 0

/-- The length of a text in UTF-16 code units. -/
def jsLength (text : String) : Nat :=
  (text.toList.map fun char => if char.toNat < 0x10000 then 1 else 2).sum

def isValidStellarAddress (address : String) : Bool :=
  if jsLength address ≠ 56 then false
  else
    let first := address.toList.headD ' '
    if first ≠ 'G' ∧ first ≠ 'C' then false
    else
      match base32Decode address.toList with
      | none => false
      | some decoded =>
          if decoded.length ≠ STELLAR_ADDRESS_DECODED_LENGTH then false
          else
            let expectedVersionByte :=
              if first = 'G' then STELLAR_PUBLIC_KEY_VERSION_BYTE
              else STELLAR_CONTRACT_VERSION_BYTE
            if (decoded.getD 0 0).toNat ≠ expectedVersionByte then false
            else
              let payload := decoded.take 33
              let checksum := decoded.drop 33
              let expectedChecksum := crc16Xmodem payload
              ((checksum.getD 0 0).toNat = (expectedChecksum &&& 0xff)) &&
                ((checksum.getD 1 0).toNat =
                  ((expectedChecksum >>> 8) &&& 0xff))

end Stellar8004.Indexer
