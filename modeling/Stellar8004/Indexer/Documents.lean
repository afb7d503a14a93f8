import Stellar8004.Indexer.Helpers

/-!
# Agent documents

What `JSON.parse` makes of a document, the text `JSON.stringify` makes of it
again, and the parts `apps/indexer/src/uri.ts` reads from it.
-/

namespace Stellar8004.Indexer

/-- A value of `JSON.parse`.  A number is kept as the text `JSON.stringify`
writes for it; the fields of an object have distinct names and stand in the
order in which JavaScript enumerates them. -/
inductive Json where
  | null
  | bool (value : Bool)
  | number (text : String)
  | text (value : String)
  | array (items : List Json)
  | object (fields : List (String × Json))

/-! ## `JSON.stringify` -/

/-- A character inside quotes. -/
def quoteChar (char : Char) : String :=
  if char = '"' then "\\\""
  else if char = '\\' then "\\\\"
  else if char = Char.ofNat 8 then "\\b"
  else if char = '\t' then "\\t"
  else if char = '\n' then "\\n"
  else if char = Char.ofNat 12 then "\\f"
  else if char = '\r' then "\\r"
  else if char.toNat < 0x20 then
    "\\u00" ++ String.ofList
      [hexDigit (char.toNat / 16), hexDigit (char.toNat % 16)]
  else String.singleton char

def quote (text : String) : String :=
  "\"" ++ String.join (text.toList.map quoteChar) ++ "\""

mutual

def Json.stringify : Json → String
  | .null => "null"
  | .bool value => if value then "true" else "false"
  | .number text => text
  | .text value => quote value
  | .array items => "[" ++ String.intercalate "," (stringifyAll items) ++ "]"
  | .object fields =>
      "\x7b" ++ String.intercalate "," (stringifyFields fields) ++ "\x7d"

def stringifyAll : List Json → List String
  | [] => []
  | item :: items => item.stringify :: stringifyAll items

def stringifyFields : List (String × Json) → List String
  | [] => []
  | (name, value) :: fields =>
      (quote name ++ ":" ++ value.stringify) :: stringifyFields fields

end

/-! ## Fields -/

namespace Json

/-- A property of an object.  Nothing else has a property of the names that
are read, arrays included. -/
def get (json : Json) (name : String) : Option Json :=
  match json with
  | .object fields =>
      (fields.find? fun field => field.1 == name).map Prod.snd
  | _ => none

@[simp] theorem get_nil (name : String) :
    (Json.object []).get name = none := rfl

theorem get_cons (field : String × Json) (fields : List (String × Json))
    (name : String) : (Json.object (field :: fields)).get name =
      if field.1 = name then some field.2
      else (Json.object fields).get name := by
  by_cases same : field.1 = name
  · simp [get, same]
  · simp [get, same]

theorem get_append (fields others : List (String × Json)) (name : String) :
    (Json.object (fields ++ others)).get name =
      ((Json.object fields).get name).or ((Json.object others).get name) := by
  induction fields with
  | nil => rfl
  | cons field fields induction =>
      rw [List.cons_append, get_cons, get_cons, induction]
      split_ifs
      · rfl
      · rfl

theorem get_filter (fields : List (String × Json)) (test : String → Bool)
    (name : String) :
    (Json.object (fields.filter fun field => test field.1)).get name =
      if test name then (Json.object fields).get name else none := by
  induction fields with
  | nil => exact (ite_self none).symm
  | cons field fields induction =>
      rw [List.filter_cons, get_cons]
      by_cases same : field.1 = name
      · rw [if_pos same, same]
        split_ifs with kept
        · rw [get_cons, if_pos same]
        · rw [induction, if_neg kept]
      · rw [if_neg same]
        split_ifs with first kept kept
        · rw [get_cons, if_neg same, induction, if_pos kept]
        · rw [get_cons, if_neg same, induction, if_neg kept]
        · rw [induction, if_pos kept]
        · rw [induction, if_neg kept]

/-- `value ?? otherwise`: neither missing nor null. -/
def nullish : Option Json → Option Json
  | none => none
  | some .null => none
  | present => present

/-- `value && typeof value === 'object'`. -/
def isObject : Json → Bool
  | .array _ => true
  | .object _ => true
  | _ => false

end Json

/-! ## `uri.ts` -/

def extractX402 (uriData : Json) : Bool :=
  match uriData.get "x402" with
  | some (.bool value) => value
  | _ => false

def extractMpp (uriData : Json) : Bool :=
  match uriData.get "mpp" with
  | some (.bool value) => value
  | _ => false

def extractSupportedTrust (uriData : Json) : List String :=
  match uriData.get "supportedTrust" with
  | some (.array trust) => trust.filterMap fun item =>
      match item with
      | .text value => if value = "" then none else some value
      | _ => none
  | _ => []

/-- The old `endpoints` entry as a service; absent fields are left out. -/
def endpointService (entry : Json) : List (String × Json) :=
  let name := ((Json.nullish (entry.get "type")).or
    (Json.nullish (entry.get "name"))).getD (.text "unknown")
  let endpoint := ((Json.nullish (entry.get "url")).or
    (Json.nullish (entry.get "endpoint"))).getD (.text "")
  let version := Json.nullish (entry.get "version")
  let description := onlyText (entry.get "description")
  let inputExample := onlyText (entry.get "inputExample")
  [("name", name), ("endpoint", endpoint)] ++
    (version.map (Prod.mk "version")).toList ++
    (description.map (Prod.mk "description")).toList ++
    (inputExample.map (Prod.mk "inputExample")).toList
where
  onlyText : Option Json → Option Json
    | some (.text value) => some (.text value)
    | _ => none

def extractServices (uriData : Json) : List Json :=
  match uriData.get "services" with
  | some (.array services) =>
      services.filter fun service =>
        service.isObject && (service.get "endpoint").isSome
  | _ =>
      match uriData.get "endpoints" with
      | some (.array endpoints) =>
          ((endpoints.filter Json.isObject).map fun entry =>
            Json.object (endpointService entry)).filter fun service =>
              match service.get "endpoint" with
              | some (.text endpoint) => endpoint ≠ ""
              | _ => false
      | _ => []

end Stellar8004.Indexer
