import Stellar8004.Indexer.Decoding
import Stellar8004.Indexer.Documents
import Stellar8004.Library.Base64
import Stellar8004.Library.Utf16
import Stellar8004.Web.Script

/-!
# Inline documents

`toDataUri` and `validateAgentUri` of the SDK's `core/metadata.ts`, and the
two readers of an inline document: `parseDataUri` of the indexer's `uri.ts`
and `dataUriBytes` of the web app's `data-uri.ts`.

A URI has no lone surrogates: it is a text the SDK builds or a column of the
database.  A text inside a document may have them.
-/

namespace Stellar8004.Web.DataUri

open Stellar8004.Indexer
open Utf16 (Text CodePoint WellFormed)

/-! ## `JSON.stringify` -/

/-- A value as `JSON.stringify` takes it.  A number is the text it has; what
`JSON.stringify` leaves out is not there. -/
inductive Value where
  | null
  | bool (value : Bool)
  | number (text : String)
  | text (value : Text)
  | array (items : List Value)
  | object (fields : List (Text × Value))

def hexUnit (unit : UInt16) : String :=
  String.ofList
    [hexDigit (unit.toNat / 0x1000), hexDigit (unit.toNat / 0x100 % 16),
      hexDigit (unit.toNat / 0x10 % 16), hexDigit (unit.toNat % 16)]

/-- A lone surrogate is written as an escape. -/
def quotePoint : CodePoint → Text
  | .scalar char => Utf16.ofString (quoteChar char)
  | .surrogate unit => Utf16.ofString ("\\u" ++ hexUnit unit)

def quoteText (text : Text) : Text :=
  Utf16.ofString "\"" ++ ((Utf16.codePoints text).map quotePoint).flatten ++
    Utf16.ofString "\""

mutual

def Value.stringify : Value → Text
  | .null => Utf16.ofString "null"
  | .bool value => Utf16.ofString (if value then "true" else "false")
  | .number text => Utf16.ofString text
  | .text value => quoteText value
  | .array items =>
      Utf16.ofString "[" ++
        (Utf16.ofString ",").intercalate (stringifyAll items) ++
        Utf16.ofString "]"
  | .object fields =>
      Utf16.ofString "\x7b" ++
        (Utf16.ofString ",").intercalate (stringifyFields fields) ++
        Utf16.ofString "\x7d"

def stringifyAll : List Value → List Text
  | [] => []
  | item :: items => item.stringify :: stringifyAll items

def stringifyFields : List (Text × Value) → List Text
  | [] => []
  | (name, value) :: fields =>
      (quoteText name ++ Utf16.ofString ":" ++ value.stringify) ::
        stringifyFields fields

end

/-! ## Texts and bytes -/

/-- `text.length`. -/
def jsLength (text : String) : Nat :=
  (Utf16.ofString text).length

def startsWith (text scheme : String) : Bool :=
  scheme.toList.isPrefixOf text.toList

/-- `new TextEncoder().encode`. -/
def textEncode (text : Text) : Bytes :=
  utf8 (Utf16.toWellFormed text)

/-- The text with a character for each byte. -/
def binaryText (bytes : Bytes) : String :=
  String.ofList (bytes.data.toList.map fun byte => Char.ofNat byte.toNat)

/-- `Uint8Array.from(binary, (c) => c.charCodeAt(0))`. -/
def binaryBytes (binary : String) : Bytes :=
  ⟨(binary.toList.map fun char => UInt8.ofNat char.toNat).toArray⟩

/-- The bytes of a text in which `%XX` is a byte; nothing where an escape is
cut short. -/
def percentOctets : List Char → Option (List UInt8)
  | [] => some []
  | '%' :: high :: low :: rest => do
      let left ← radixDigit 16 high
      let right ← radixDigit 16 low
      let octets ← percentOctets rest
      return UInt8.ofNat (16 * left + right) :: octets
  | '%' :: _ => none
  | char :: rest => do
      let octets ← percentOctets rest
      return String.utf8EncodeChar char ++ octets

/-- Nothing where it throws. -/
def decodeURIComponent (text : List Char) : Option String :=
  (percentOctets text).bind fun octets =>
    String.fromUTF8? ⟨octets.toArray⟩

/-! ## The SDK -/

def MAX_URI_LENGTH : Nat := 8192

def SAFE_URI_SCHEMES : List String :=
  ["https://", "http://", "ipfs://", "data:application/json"]

def validateAgentUri (uri : String) : Except String Unit :=
  if MAX_URI_LENGTH < jsLength uri then
    .error s!"Agent URI too large (max {MAX_URI_LENGTH / 1024}KB)"
  else if SAFE_URI_SCHEMES.any (startsWith uri) then .ok ()
  else
    .error "Agent URI must use https://, http://, ipfs://, or data: scheme"

def bytesToBase64 (bytes : Bytes) : Option String :=
  Base64.btoa (binaryText bytes)

def toDataUri (json : Value) : Except String String :=
  match bytesToBase64 (textEncode json.stringify) with
  | none => .error "InvalidCharacterError"
  | some base64 =>
      let uri := "data:application/json;base64," ++ base64
      if 8192 < jsLength uri then
        .error (s!"Metadata URI too large ({jsLength uri} bytes). " ++
          "Maximum is 8KB. Reduce description length or number of services.")
      else .ok uri

/-! ## The indexer -/

def MAX_RESPONSE_BYTES : Nat := 1048576

section

variable {α : Type} (parse : Text → Option α)

/-- Called on what starts with `data:`.  No other letter becomes one of
`json` or `base64` in lower case than their own. -/
def parseDataUri (uri : String) : Option α :=
  if MAX_RESPONSE_BYTES < jsLength uri then none
  else if ',' ∉ uri.toList then none
  else
    let header := ((uri.toList.takeWhile (· ≠ ',')).drop 5).map Char.toLower
    let payload := (uri.toList.dropWhile (· ≠ ',')).drop 1
    if ¬"json".toList <:+: header then none
    else if "base64".toList <:+: header then do
      let binaryStr ← Base64.atob (String.ofList payload)
      let bytes := binaryBytes binaryStr
      if MAX_RESPONSE_BYTES < bytes.size then none
      else parse (Utf16.ofString (utf8Decoder bytes))
    else do
      let decoded ← decodeURIComponent payload
      if MAX_RESPONSE_BYTES < jsLength decoded then none
      else parse (Utf16.ofString decoded)

end

/-! ## The web app -/

def MAX_BYTES : Nat := 1048576

/-- The two groups of `/^data:([^,]*),(.*)$/s`. -/
def dataUriMatch (uri : String) : Option (List Char × List Char) :=
  let behind := uri.toList.drop 5
  if startsWith uri "data:" ∧ ',' ∈ behind then
    some (behind.takeWhile (· ≠ ','), (behind.dropWhile (· ≠ ',')).drop 1)
  else none

def dataUriBytes (uri : String) : Option Bytes := do
  let (header, payload) ← dataUriMatch uri
  let bytes ←
    if ";base64".toList <:+ header.map Char.toLower then
      (Base64.atob (String.ofList
        (payload.filter fun char => !isWhiteSpace char))).map binaryBytes
    else (decodeURIComponent payload).map utf8
  if MAX_BYTES < bytes.size then none else return bytes

/-! ## What is written is well formed -/

theorem quoteText_wellFormed (text : Text) : WellFormed (quoteText text) := by
  have points : WellFormed ((Utf16.codePoints text).map quotePoint).flatten := by
    apply WellFormed.flatten
    intro written member
    obtain ⟨point, -, rfl⟩ := List.mem_map.mp member
    cases point with
    | scalar char => exact .ofString _
    | surrogate unit => exact .ofString _
  exact ((WellFormed.ofString _).append points).append (.ofString _)

mutual

theorem stringify_wellFormed : ∀ value : Value, WellFormed value.stringify
  | .null => .ofString _
  | .bool _ => .ofString _
  | .number _ => .ofString _
  | .text value => quoteText_wellFormed value
  | .array items =>
      ((WellFormed.ofString _).append
        (WellFormed.intercalate (.ofString _)
          (stringifyAll_wellFormed items))).append (.ofString _)
  | .object fields =>
      ((WellFormed.ofString _).append
        (WellFormed.intercalate (.ofString _)
          (stringifyFields_wellFormed fields))).append (.ofString _)

theorem stringifyAll_wellFormed : ∀ items : List Value,
    ∀ text ∈ stringifyAll items, WellFormed text
  | [], _, member => nomatch member
  | item :: items, text, member => by
      rcases List.mem_cons.mp member with rfl | later
      · exact stringify_wellFormed item
      · exact stringifyAll_wellFormed items text later

theorem stringifyFields_wellFormed : ∀ fields : List (Text × Value),
    ∀ text ∈ stringifyFields fields, WellFormed text
  | [], _, member => nomatch member
  | (name, value) :: fields, text, member => by
      rcases List.mem_cons.mp member with rfl | later
      · exact ((quoteText_wellFormed name).append (.ofString _)).append
          (stringify_wellFormed value)
      · exact stringifyFields_wellFormed fields text later

end

/-- An object is written in braces. -/
theorem stringify_object (fields : List (Text × Value)) :
    ∃ inside, (Value.object fields).stringify =
      Utf16.ofString ("\x7b" ++ inside) := by
  obtain ⟨written, isWritten⟩ := WellFormed.intercalate
    (.ofString ",") (stringifyFields_wellFormed fields)
  refine ⟨written ++ "\x7d", ?_⟩
  rw [Value.stringify, isWritten, Utf16.ofString_append,
    Utf16.ofString_append, List.append_assoc]

/-! ## Bytes through a text -/

theorem toNat_ofNat_byte (byte : UInt8) :
    (Char.ofNat byte.toNat).toNat = byte.toNat := by
  have small : byte.toNat < 256 := byte.toNat_lt
  exact DecoderState.toNat_ofNat (.inl (by omega))

theorem binaryText_toNat (bytes : Bytes) :
    (binaryText bytes).toList.map Char.toNat =
      bytes.data.toList.map UInt8.toNat := by
  rw [binaryText, String.toList_ofList, List.map_map]
  exact List.map_congr_left fun byte _ => toNat_ofNat_byte byte

theorem codes_small (bytes : Bytes) :
    ∀ code ∈ bytes.data.toList.map UInt8.toNat, code < 256 := by
  intro code member
  obtain ⟨byte, -, rfl⟩ := List.mem_map.mp member
  exact byte.toNat_lt

/-- The digits the SDK writes for some bytes. -/
def base64Digits (bytes : Bytes) : List Char :=
  Base64.encode (bytes.data.toList.map UInt8.toNat)

theorem bytesToBase64_eq (bytes : Bytes) :
    bytesToBase64 bytes = some (String.ofList (base64Digits bytes)) := by
  rw [bytesToBase64, Base64.btoa, if_pos, binaryText_toNat]
  · rfl
  · rw [List.all_eq_true]
    intro char member
    have code : char.toNat ∈ bytes.data.toList.map UInt8.toNat := by
      rw [← binaryText_toNat]
      exact List.mem_map_of_mem member
    exact decide_eq_true (codes_small bytes _ code)

theorem atob_base64Digits (bytes : Bytes) :
    Base64.atob (String.ofList (base64Digits bytes)) =
      some (binaryText bytes) := by
  rw [Base64.atob, String.toList_ofList, base64Digits,
    Base64.decode_encode (codes_small bytes), Option.map_some, List.map_map]
  rfl

theorem binaryBytes_binaryText (bytes : Bytes) :
    binaryBytes (binaryText bytes) = bytes := by
  have same : (binaryText bytes).toList.map
      (fun char => UInt8.ofNat char.toNat) = bytes.data.toList := by
    rw [binaryText, String.toList_ofList, List.map_map]
    calc bytes.data.toList.map _ = bytes.data.toList.map id :=
          List.map_congr_left fun byte _ => by
            rw [Function.comp_apply, toNat_ofNat_byte, UInt8.ofNat_toNat]; rfl
      _ = bytes.data.toList := List.map_id _
  rw [binaryBytes, same]

theorem isWhiteSpace_base64Digits {bytes : Bytes} {char : Char}
    (member : char ∈ base64Digits bytes) : isWhiteSpace char = false := by
  have digits : ∀ sextet < 64, isWhiteSpace (Base64.digit sextet) = false := by
    decide +kernel
  rcases List.mem_append.mp member with inside | padding
  · obtain ⟨sextet, isSextet, rfl⟩ := List.mem_map.mp inside
    exact digits sextet
      (Base64.sextets_lt _ (codes_small bytes) sextet isSextet)
  · rw [(List.mem_replicate.mp padding).2]
    rfl

theorem size_le_base64Digits (bytes : Bytes) :
    bytes.size ≤ (base64Digits bytes).length := by
  have length := Base64.length_le_encode (bytes.data.toList.map UInt8.toNat)
  rwa [List.length_map, Array.length_toList] at length

/-- A text that starts with a brace has no byte-order mark to lose. -/
theorem utf8Decoder_utf8_brace (inside : String) :
    utf8Decoder (utf8 ("\x7b" ++ inside)) = "\x7b" ++ inside := by
  have isList : ("\x7b" ++ inside).toList = '{' :: inside.toList := by
    rw [String.toList_append]
    exact congrArg (· ++ inside.toList) (by decide : "\x7b".toList = ['{'])
  have notMark : '{' ≠ byteOrderMark := by decide
  simp only [utf8Decoder, fromUTF8?_utf8, dropByteOrderMark, isList,
    if_neg notMark]

/-! ## From the SDK to the readers -/

/-- What is before the comma. -/
def inlineHeader : String :=
  "data:application/json;base64"

theorem toDataUri_ok {json : Value} {uri : String}
    (made : toDataUri json = .ok uri) :
    uri.toList = inlineHeader.toList ++
        ',' :: base64Digits (textEncode json.stringify) ∧
      jsLength uri ≤ 8192 := by
  unfold toDataUri at made
  rw [bytesToBase64_eq] at made
  dsimp only at made
  split_ifs at made with long
  cases made
  constructor
  · have isHeader : "data:application/json;base64,".toList =
        inlineHeader.toList ++ [','] := by
      decide
    rw [String.toList_append, isHeader, String.toList_ofList,
      List.append_assoc, List.singleton_append]
  · exact Nat.le_of_not_lt long

theorem inlineHeader_noComma :
    ∀ char ∈ inlineHeader.toList, decide (char ≠ ',') = true :=
  List.all_eq_true.mp (by decide)

theorem inlineType_noComma :
    ∀ char ∈ "application/json;base64".toList, decide (char ≠ ',') = true :=
  List.all_eq_true.mp (by decide)

section

variable {uri : String} {digits : List Char}
  (isUri : uri.toList = inlineHeader.toList ++ ',' :: digits)

include isUri

theorem comma_inline : ',' ∈ uri.toList := by
  rw [isUri]
  exact List.mem_append_right _ List.mem_cons_self

theorem takeWhile_inline :
    uri.toList.takeWhile (· ≠ ',') = inlineHeader.toList := by
  rw [isUri, List.takeWhile_append_of_pos inlineHeader_noComma,
    List.takeWhile_cons_of_neg (by decide), List.append_nil]

theorem dropWhile_inline : uri.toList.dropWhile (· ≠ ',') = ',' :: digits := by
  rw [isUri, List.dropWhile_append_of_pos inlineHeader_noComma,
    List.dropWhile_cons_of_neg (by decide)]

theorem startsWith_inline : startsWith uri "data:application/json" = true := by
  rw [startsWith, isUri, List.isPrefixOf_iff_prefix]
  exact (by decide : "data:application/json".toList <+:
    inlineHeader.toList).trans (List.prefix_append _ _)

theorem dataUriMatch_inline : dataUriMatch uri =
    some ("application/json;base64".toList, digits) := by
  have behind : uri.toList.drop 5 =
      "application/json;base64".toList ++ ',' :: digits := by
    rw [isUri, List.drop_append_of_le_length (by decide)]
    exact congrArg (· ++ ',' :: digits) (by decide)
  have begins : startsWith uri "data:" = true := by
    rw [startsWith, isUri, List.isPrefixOf_iff_prefix]
    exact (by decide : "data:".toList <+: inlineHeader.toList).trans
      (List.prefix_append _ _)
  have comma : ',' ∈ uri.toList.drop 5 := by
    rw [behind]
    exact List.mem_append_right _ List.mem_cons_self
  rw [dataUriMatch, if_pos ⟨begins, comma⟩, behind,
    List.takeWhile_append_of_pos inlineType_noComma,
    List.takeWhile_cons_of_neg (by decide), List.append_nil,
    List.dropWhile_append_of_pos inlineType_noComma,
    List.dropWhile_cons_of_neg (by decide), List.drop_one, List.tail_cons]

end

theorem jsLength_digits {uri : String} {digits : List Char}
    (isUri : uri.toList = inlineHeader.toList ++ ',' :: digits) :
    digits.length ≤ jsLength uri := by
  have length := Utf16.length_le_ofString uri
  rw [isUri, List.length_append, List.length_cons] at length
  unfold jsLength
  omega

section

variable {json : Value} {uri : String} (made : toDataUri json = .ok uri)

include made

theorem size_inline : (textEncode json.stringify).size ≤ 8192 := by
  obtain ⟨isUri, short⟩ := toDataUri_ok made
  calc (textEncode json.stringify).size
      ≤ (base64Digits (textEncode json.stringify)).length :=
        size_le_base64Digits _
    _ ≤ jsLength uri := jsLength_digits isUri
    _ ≤ 8192 := short

theorem validateAgentUri_inline : validateAgentUri uri = .ok () := by
  obtain ⟨isUri, short⟩ := toDataUri_ok made
  have short : ¬MAX_URI_LENGTH < jsLength uri := Nat.not_lt.mpr short
  have safe : SAFE_URI_SCHEMES.any (startsWith uri) = true := by
    rw [List.any_eq_true]
    exact ⟨"data:application/json", by decide, startsWith_inline isUri⟩
  rw [validateAgentUri, if_neg short, if_pos safe]

theorem dataUriBytes_inline :
    dataUriBytes uri = some (textEncode json.stringify) := by
  obtain ⟨isUri, -⟩ := toDataUri_ok made
  have size := size_inline made
  have kept : (base64Digits (textEncode json.stringify)).filter
      (fun char => !isWhiteSpace char) =
        base64Digits (textEncode json.stringify) := by
    rw [List.filter_eq_self]
    intro char member
    rw [isWhiteSpace_base64Digits member]
    rfl
  have fits : ¬MAX_BYTES < (textEncode json.stringify).size := by
    unfold MAX_BYTES
    omega
  have base64 : ";base64".toList <:+
      "application/json;base64".toList.map Char.toLower := by
    decide
  rw [dataUriBytes, dataUriMatch_inline isUri, Option.bind_eq_bind,
    Option.bind_some]
  dsimp only
  rw [if_pos base64, kept, atob_base64Digits, Option.map_some,
    binaryBytes_binaryText, Option.bind_eq_bind, Option.bind_some, if_neg fits,
    Option.pure_def]

theorem parseDataUri_inline {α : Type} (parse : Text → Option α)
    {inside : String}
    (written : json.stringify = Utf16.ofString ("\x7b" ++ inside)) :
    parseDataUri parse uri = parse json.stringify := by
  obtain ⟨isUri, short⟩ := toDataUri_ok made
  have size := size_inline made
  have few : ¬MAX_RESPONSE_BYTES < jsLength uri := by
    unfold MAX_RESPONSE_BYTES
    omega
  have fits : ¬MAX_RESPONSE_BYTES < (textEncode json.stringify).size := by
    unfold MAX_RESPONSE_BYTES
    omega
  have comma : ¬ ',' ∉ uri.toList := not_not.mpr (comma_inline isUri)
  have isJson : ¬¬"json".toList <:+:
      (inlineHeader.toList.drop 5).map Char.toLower := by
    decide
  have isBase64 : "base64".toList <:+:
      (inlineHeader.toList.drop 5).map Char.toLower := by
    decide
  have decoded : Utf16.ofString (utf8Decoder (textEncode json.stringify)) =
      json.stringify := by
    rw [textEncode, written, Utf16.toWellFormed_ofString,
      utf8Decoder_utf8_brace]
  simp only [parseDataUri, if_neg few, if_neg comma, takeWhile_inline isUri,
    dropWhile_inline isUri, if_neg isJson, if_pos isBase64, List.drop_one,
    List.tail_cons, atob_base64Digits, Option.bind_eq_bind, Option.bind_some,
    binaryBytes_binaryText, if_neg fits, decoded]

end

/-- What the SDK inlines is accepted, and both readers see the document. -/
theorem toDataUri_survives {α : Type} (parse : Text → Option α)
    (fields : List (Text × Value)) (uri : String)
    (made : toDataUri (.object fields) = .ok uri) :
    validateAgentUri uri = .ok () ∧
      parseDataUri parse uri = parse (Value.object fields).stringify ∧
      ∃ text : String, (Value.object fields).stringify = Utf16.ofString text ∧
        dataUriBytes uri = some (utf8 text) := by
  obtain ⟨inside, written⟩ := stringify_object fields
  refine ⟨validateAgentUri_inline made, parseDataUri_inline made parse written,
    _, written, ?_⟩
  rw [dataUriBytes_inline made, textEncode, written,
    Utf16.toWellFormed_ofString]

/-- Half of a surrogate pair before a letter that is not ASCII. -/
def halfName : List (Text × Value) :=
  [(Utf16.ofString "name", .text (0xd83d :: Utf16.ofString "é"))]

def halfUri : String :=
  "data:application/json;base64,eyJuYW1lIjoiXHVkODNkw6kifQ=="

theorem toDataUri_survives_half :
    toDataUri (.object halfName) = .ok halfUri ∧
      validateAgentUri halfUri = .ok () ∧
      parseDataUri some halfUri = some (Value.object halfName).stringify ∧
      ∃ text : String,
        (Value.object halfName).stringify = Utf16.ofString text ∧
          dataUriBytes halfUri = some (utf8 text) := by
  have made : toDataUri (.object halfName) = .ok halfUri := by decide +kernel
  exact ⟨made, toDataUri_survives some halfName halfUri made⟩

end Stellar8004.Web.DataUri
