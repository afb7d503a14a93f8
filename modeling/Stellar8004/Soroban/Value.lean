import Stellar8004.Soroban.StrKey

/-!
# Contract values and their JavaScript form

`ScVal` is the value type of contract events.  `scValToNative` of the Stellar
SDK turns it into a JavaScript value, here `Native`: 32-bit integers become
numbers and wider ones bigints, a `String` becomes text when its bytes are
UTF-8 and a byte array otherwise, an address becomes its StrKey text and a map
becomes an object keyed by the text of its keys.
-/

namespace Stellar8004

/-- Bytes as contracts store them; a Soroban `String` holds any bytes. -/
abbrev Bytes := ByteArray

/-- The bytes of a text. -/
def utf8 (text : String) : Bytes := text.toUTF8

@[simp] theorem fromUTF8?_utf8 (text : String) :
    String.fromUTF8? (utf8 text) = some text := by
  have valid : (utf8 text).IsValidUTF8 := text.isValidUTF8
  unfold String.fromUTF8?
  rw [dif_pos valid]
  rfl

theorem utf8_injective : Function.Injective utf8 := by
  intro left right equality
  have decoded := congrArg String.fromUTF8? equality
  simpa using decoded

inductive IntKind where
  | u32 | i32 | u64 | i64 | u128 | i128 | u256 | i256 | timepoint | duration
  deriving DecidableEq, Repr

inductive ScVal where
  | void
  | bool (value : Bool)
  | int (kind : IntKind) (value : Int)
  | bytes (value : Bytes)
  | string (value : Bytes)
  | symbol (value : String)
  | address (value : Address)
  | vec (items : List ScVal)
  | map (entries : List (ScVal × ScVal))

inductive Native where
  | null
  | bool (value : Bool)
  | number (value : Int)
  | bigint (value : Int)
  | text (value : String)
  | bytes (value : Bytes)
  | array (items : List Native)
  | object (fields : List (String × Native))

namespace Native

/-- The decimal digits of bytes, joined by commas: `String(uint8array)`. -/
def joinBytes (value : Bytes) : String :=
  String.intercalate "," (value.toList.map (fun byte => toString byte.toNat))

mutual

/-- `String(value)`. -/
def toJsString : Native → String
  | .null => "null"
  | .bool value => if value then "true" else "false"
  | .number value => toString value
  | .bigint value => toString value
  | .text value => value
  | .bytes value => joinBytes value
  | .array items => String.intercalate "," (itemsToJsStrings items)
  | .object _ => "[object Object]"

/-- The members of an array as `Array.prototype.join` writes them. -/
def itemsToJsStrings : List Native → List String
  | [] => []
  | .null :: items => "" :: itemsToJsStrings items
  | item :: items => toJsString item :: itemsToJsStrings items

end

end Native

def IntKind.toNative : IntKind → Int → Native
  | .u32, value => .number value
  | .i32, value => .number value
  | _, value => .bigint value

mutual

/-- `scValToNative` of the Stellar SDK, as it is documented. -/
def scValToNative : ScVal → Native
  | .void => .null
  | .bool value => .bool value
  | .int kind value => kind.toNative value
  | .bytes value => .bytes value
  | .string value =>
      match String.fromUTF8? value with
      | some text => .text text
      | none => .bytes value
  | .symbol value => .text value
  | .address value => .text (StrKey.encode value)
  | .vec items => .array (scValsToNative items)
  | .map entries => .object (scEntriesToNative entries)

def scValsToNative : List ScVal → List Native
  | [] => []
  | item :: items => scValToNative item :: scValsToNative items

/-- `Object.fromEntries` over the entries of a contract map. -/
def scEntriesToNative : List (ScVal × ScVal) → List (String × Native)
  | [] => []
  | (key, value) :: entries =>
      ((scValToNative key).toJsString, scValToNative value) ::
        scEntriesToNative entries

end

@[simp] theorem scValToNative_string (text : String) :
    scValToNative (.string (utf8 text)) = .text text := by
  simp [scValToNative]

@[simp] theorem scValToNative_address (address : Address) :
    scValToNative (.address address) = .text (StrKey.encode address) := by
  simp [scValToNative]

@[simp] theorem scValToNative_symbol (name : String) :
    scValToNative (.symbol name) = .text name := by
  simp [scValToNative]

end Stellar8004
