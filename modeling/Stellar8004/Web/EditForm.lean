import Stellar8004.Web.Services

/-!
# The edit form

An agent's document goes through the edit page: `load` and
`initialFormData` of `routes/agents/[id]/edit`, and
`buildMetadataJsonForEdit` of the SDK's `core/metadata.ts`.  A document is
the object it stands for; a field that is `undefined` is not in it.
-/

namespace Stellar8004.Web.EditForm

open Stellar8004.Indexer
open Stellar8004.Web.Response (DecodedAgent HasEndpoint isObject_of_get
  shown_ne_nil stored_hasEndpoint)

/-! ## The page -/

def readUriField (source : Json) (field : String) : Option String :=
  match source.get field with
  | some (.text value) => if 0 < value.length then some value else none
  | _ => none

structure ServiceEntry where
  name : String
  endpoint : String
  version : Option String
  description : Option String
  inputExample : Option String
  deriving DecidableEq

/-- A field where it is a text. -/
def textField (json : Json) (field : String) : Option String :=
  match json.get field with
  | some (.text value) => some value
  | _ => none

def serviceEntry (service : Json) : ServiceEntry :=
  { name := (textField service "name").getD "unknown"
    endpoint := (textField service "endpoint").getD ""
    version := textField service "version"
    description := textField service "description"
    inputExample := textField service "inputExample" }

def normalizeServices (raw : Json) : List ServiceEntry :=
  match raw with
  | .array items =>
      ((items.filter Json.isObject).map serviceEntry).filter fun service =>
        0 < service.endpoint.length
  | _ => []

/-- What `load` gives the page. -/
structure EditedAgent where
  name : String
  description : Option String
  image : Option String
  services : Json
  supportedTrust : Json
  x402Enabled : Bool
  mppEnabled : Bool
  rawUriData : List (String × Json)

def load (agent : DecodedAgent) : EditedAgent :=
  let uriData := agent.agentUriData.getD .null
  { name := (readUriField uriData "name").getD s!"Agent #{agent.id}"
    description := readUriField uriData "description"
    image := readUriField uriData "image"
    services := (Json.nullish (some agent.services)).getD (.array [])
    supportedTrust :=
      (Json.nullish (some agent.supportedTrust)).getD (.array [])
    x402Enabled := agent.x402Enabled
    mppEnabled := agent.mppEnabled
    rawUriData :=
      match uriData with
      | .object fields => fields
      | _ => [] }

structure AgentFormData where
  name : String
  description : String
  imageUrl : String
  services : List ServiceEntry
  supportedTrust : List Json
  x402Enabled : Bool
  mppEnabled : Bool

def initialFormData (agent : EditedAgent) : AgentFormData :=
  { name := agent.name
    description := agent.description.getD ""
    imageUrl := agent.image.getD ""
    services := normalizeServices agent.services
    supportedTrust :=
      match agent.supportedTrust with
      | .array items => items
      | _ => []
    x402Enabled := agent.x402Enabled
    mppEnabled := agent.mppEnabled }

/-! ## `metadata.ts` -/

def KNOWN_FIELDS : List String :=
  ["type", "name", "description", "image", "services", "supportedTrust",
    "x402", "mpp", "endpoints"]

def optionalText (field : String) (value : Option String) :
    List (String × Json) :=
  (value.map fun text => (field, Json.text text)).toList

def ServiceEntry.toJson (entry : ServiceEntry) : Json :=
  .object ([("name", .text entry.name), ("endpoint", .text entry.endpoint)] ++
    optionalText "version" entry.version ++
    optionalText "description" entry.description ++
    optionalText "inputExample" entry.inputExample)

/-- One turn of the loop over the old entries. -/
def legacyService (entry : Json) : Option ServiceEntry :=
  let endpoint := ((textField entry "url").or
    (textField entry "endpoint")).getD ""
  if entry.isObject = false ∨ endpoint = "" then none
  else
    some
      { name := ((textField entry "type").or
          (textField entry "name")).getD "unknown"
        endpoint
        version := (textField entry "version").filter (· ≠ "")
        description := none
        inputExample := none }

def endpointsToServices (endpoints : Option Json) :
    Option (List ServiceEntry) :=
  match endpoints with
  | some (.array entries) =>
      let out := entries.filterMap legacyService
      if 0 < out.length then some out else none
  | _ => none

def metadataServices (form : AgentFormData)
    (existing : List (String × Json)) : List (String × Json) :=
  if 0 < form.services.length then
    [("services", .array (form.services.map ServiceEntry.toJson))]
  else
    match endpointsToServices ((Json.object existing).get "endpoints") with
    | some fromLegacy =>
        [("services", .array (fromLegacy.map ServiceEntry.toJson))]
    | none => []

/-- A field that is set where a condition holds. -/
def fieldWhen (condition : Bool) (field : String) (value : Json) :
    List (String × Json) :=
  if condition then [(field, value)] else []

def metadataForEdit (form : AgentFormData)
    (existing : List (String × Json)) : List (String × Json) :=
  [("type", (Json.nullish ((Json.object existing).get "type")).getD
      (.text "https://eips.ethereum.org/EIPS/eip-8004#registration-v1")),
    ("name", .text form.name)] ++
  fieldWhen (form.description ≠ "") "description" (.text form.description) ++
  fieldWhen (form.imageUrl ≠ "") "image" (.text form.imageUrl) ++
  metadataServices form existing ++
  fieldWhen (0 < form.supportedTrust.length) "supportedTrust"
    (.array form.supportedTrust) ++
  fieldWhen form.x402Enabled "x402" (.bool true) ++
  fieldWhen form.mppEnabled "mpp" (.bool true)

/-- The fields that are kept and the fields of the form have no name in
common. -/
def buildMetadataJsonForEdit (form : AgentFormData)
    (existing : List (String × Json)) : List (String × Json) :=
  (existing.filter fun field => field.1 ∉ KNOWN_FIELDS) ++
    metadataForEdit form existing

/-! ## Fields of the new document -/

/-- A field of the form stands for a known field. -/
theorem get_known (form : AgentFormData) (existing : List (String × Json))
    {name : String} (known : name ∈ KNOWN_FIELDS) :
    (Json.object (buildMetadataJsonForEdit form existing)).get name =
      (Json.object (metadataForEdit form existing)).get name := by
  rw [buildMetadataJsonForEdit, Json.get_append,
    Json.get_filter existing fun name => name ∉ KNOWN_FIELDS,
    if_neg (by simpa using known), Option.none_or]

theorem get_fieldWhen (condition : Bool) (field : String) (value : Json)
    (name : String) : (Json.object (fieldWhen condition field value)).get name =
      if condition ∧ field = name then some value else none := by
  cases condition with
  | false => simp [fieldWhen, Json.get]
  | true =>
      rw [fieldWhen, if_pos rfl, Json.get_cons]
      simp [Json.get]

theorem get_metadataServices (form : AgentFormData)
    (existing : List (String × Json)) {name : String}
    (other : name ≠ "services") :
    (Json.object (metadataServices form existing)).get name = none := by
  have missed : ("services" : String) ≠ name := Ne.symm other
  unfold metadataServices
  split
  · rw [Json.get_cons, if_neg missed]
    rfl
  · split
    · rw [Json.get_cons, if_neg missed]
      rfl
    · rfl

/-- What lies outside the known fields is kept. -/
theorem get_unknown (form : AgentFormData) (existing : List (String × Json))
    {name : String} (unknown : name ∉ KNOWN_FIELDS) :
    (Json.object (buildMetadataJsonForEdit form existing)).get name =
      (Json.object existing).get name := by
  have others : ∀ known ∈ KNOWN_FIELDS, known ≠ name := by
    rintro known member rfl
    exact unknown member
  have none : (Json.object (metadataForEdit form existing)).get name =
      none := by
    have services := get_metadataServices form existing
      (others "services" (by decide)).symm
    simp only [metadataForEdit, Json.get_append, Json.get_cons, get_fieldWhen, services,
      others "type" (by decide), others "name" (by decide),
      others "description" (by decide), others "image" (by decide),
      others "supportedTrust" (by decide), others "x402" (by decide),
      others "mpp" (by decide), if_false, and_false, Option.or_none]
    rfl
  rw [buildMetadataJsonForEdit, Json.get_append,
    Json.get_filter existing fun name => name ∉ KNOWN_FIELDS,
    if_pos (by simpa using unknown), none, Option.or_none]

/-! ## What is read again -/

theorem length_pos {text : String} : 0 < text.length ↔ text ≠ "" := by
  rw [Nat.pos_iff_ne_zero, Ne, String.length_eq_zero_iff]

section

variable (form : AgentFormData) (existing : List (String × Json))

/-- The document that is saved. -/
def savedDocument : Json :=
  .object (buildMetadataJsonForEdit form existing)

/-- A known field but the services. -/
theorem saved_get {name : String} (known : name ∈ KNOWN_FIELDS)
    (other : name ≠ "services") :
    (savedDocument form existing).get name =
      if "type" = name then
        some ((Json.nullish ((Json.object existing).get "type")).getD (.text
          "https://eips.ethereum.org/EIPS/eip-8004#registration-v1"))
      else if "name" = name then some (.text form.name)
      else if form.description ≠ "" ∧ "description" = name then
        some (.text form.description)
      else if form.imageUrl ≠ "" ∧ "image" = name then
        some (.text form.imageUrl)
      else if 0 < form.supportedTrust.length ∧ "supportedTrust" = name then
        some (.array form.supportedTrust)
      else if form.x402Enabled ∧ "x402" = name then some (.bool true)
      else if form.mppEnabled ∧ "mpp" = name then some (.bool true)
      else none := by
  have services := get_metadataServices form existing other
  rw [savedDocument, get_known form existing known]
  simp only [metadataForEdit, Json.get_append, Json.get_cons, Json.get_nil,
    get_fieldWhen, services, decide_eq_true_eq]
  split_ifs <;> rfl

theorem saved_name : (savedDocument form existing).get "name" =
    some (.text form.name) := by
  rw [saved_get form existing (by decide) (by decide)]
  simp

theorem saved_description : (savedDocument form existing).get "description" =
    if form.description ≠ "" then some (.text form.description)
    else none := by
  rw [saved_get form existing (by decide) (by decide)]
  simp

theorem saved_image : (savedDocument form existing).get "image" =
    if form.imageUrl ≠ "" then some (.text form.imageUrl) else none := by
  rw [saved_get form existing (by decide) (by decide)]
  simp

theorem saved_supportedTrust :
    (savedDocument form existing).get "supportedTrust" =
      if 0 < form.supportedTrust.length then
        some (.array form.supportedTrust)
      else none := by
  rw [saved_get form existing (by decide) (by decide)]
  simp

theorem saved_x402 : (savedDocument form existing).get "x402" =
    if form.x402Enabled then some (.bool true) else none := by
  rw [saved_get form existing (by decide) (by decide)]
  simp

theorem saved_mpp : (savedDocument form existing).get "mpp" =
    if form.mppEnabled then some (.bool true) else none := by
  rw [saved_get form existing (by decide) (by decide)]
  simp

theorem saved_endpoints :
    (savedDocument form existing).get "endpoints" = none := by
  rw [saved_get form existing (by decide) (by decide)]
  simp

/-- The services of the form, or the old entries translated. -/
def savedEntries : List ServiceEntry :=
  if 0 < form.services.length then form.services
  else (endpointsToServices ((Json.object existing).get "endpoints")).getD []

theorem endpointsToServices_ne_nil {endpoints : Option Json}
    {out : List ServiceEntry} (isOut : endpointsToServices endpoints = some out) :
    out ≠ [] := by
  unfold endpointsToServices at isOut
  split at isOut
  · dsimp only at isOut
    split_ifs at isOut with found
    cases isOut
    exact List.length_pos_iff.mp found
  · cases isOut

theorem saved_services : (savedDocument form existing).get "services" =
    if savedEntries form existing = [] then none
    else some (.array ((savedEntries form existing).map
      ServiceEntry.toJson)) := by
  have isServices : (savedDocument form existing).get "services" =
      (Json.object (metadataServices form existing)).get "services" := by
    rw [savedDocument, get_known form existing (by decide)]
    simp [metadataForEdit, Json.get_append, Json.get_cons, get_fieldWhen]
  rw [isServices]
  unfold metadataServices savedEntries
  split
  · rename_i some
    rw [Json.get_cons, if_pos rfl, if_neg (List.length_pos_iff.mp some)]
  · cases isOut : endpointsToServices
        ((Json.object existing).get "endpoints") with
    | none => rfl
    | some out =>
        dsimp only [Option.getD_some]
        rw [Json.get_cons, if_pos rfl,
          if_neg (endpointsToServices_ne_nil isOut)]

end

/-! ## Services -/

theorem get_optionalText (field : String) (value : Option String)
    (name : String) : (Json.object (optionalText field value)).get name =
      if field = name then value.map Json.text else none := by
  cases value with
  | none => exact (ite_self none).symm
  | some text =>
      change (Json.object [(field, .text text)]).get name = _
      rw [Json.get_cons, Json.get_nil]
      rfl

/-- An entry is read as it was written. -/
theorem serviceEntry_toJson (entry : ServiceEntry) :
    serviceEntry entry.toJson = entry := by
  obtain ⟨name, endpoint, version, description, inputExample⟩ := entry
  have isText : ∀ value : Option String,
      (match value.map Json.text with
        | some (.text text) => some text
        | _ => none) = value := by
    intro value
    cases value with
    | none => rfl
    | some text => rfl
  simp [serviceEntry, ServiceEntry.toJson, textField, Json.get_append,
    Json.get_cons, get_optionalText, isText]

theorem endpoint_toJson (entry : ServiceEntry) :
    entry.toJson.get "endpoint" = some (.text entry.endpoint) := by
  simp [ServiceEntry.toJson, Json.get_cons]

section

variable {entries : List ServiceEntry}

theorem normalizeServices_toJson
    (full : ∀ entry ∈ entries, entry.endpoint ≠ "") :
    normalizeServices (.array (entries.map ServiceEntry.toJson)) =
      entries := by
  have objects : (entries.map ServiceEntry.toJson).filter Json.isObject =
      entries.map ServiceEntry.toJson := by
    rw [List.filter_eq_self]
    intro service member
    obtain ⟨entry, -, rfl⟩ := List.mem_map.mp member
    rfl
  have same : (entries.map ServiceEntry.toJson).map serviceEntry =
      entries := by
    rw [List.map_map]
    exact (List.map_congr_left fun entry _ =>
      serviceEntry_toJson entry).trans (List.map_id _)
  rw [normalizeServices, objects, same, List.filter_eq_self]
  intro entry member
  rw [decide_eq_true_eq, length_pos]
  exact full entry member

theorem extractServices_toJson {document : Json}
    (isServices : document.get "services" =
      some (.array (entries.map ServiceEntry.toJson))) :
    extractServices document = entries.map ServiceEntry.toJson := by
  unfold extractServices
  rw [isServices]
  dsimp only
  rw [List.filter_eq_self]
  intro service member
  obtain ⟨entry, -, rfl⟩ := List.mem_map.mp member
  rw [endpoint_toJson]
  rfl

end

theorem extractServices_none {document : Json}
    (noServices : document.get "services" = none)
    (noEndpoints : document.get "endpoints" = none) :
    extractServices document = [] := by
  unfold extractServices
  rw [noServices, noEndpoints]

theorem normalizeServices_full (raw : Json) :
    ∀ entry ∈ normalizeServices raw, entry.endpoint ≠ "" := by
  intro entry member
  unfold normalizeServices at member
  split at member
  · have shown := of_decide_eq_true (List.mem_filter.mp member).2
    exact length_pos.mp shown
  · cases member

theorem legacyService_full {json : Json} {entry : ServiceEntry}
    (isEntry : legacyService json = some entry) : entry.endpoint ≠ "" := by
  unfold legacyService at isEntry
  dsimp only at isEntry
  split_ifs at isEntry with dropped
  cases isEntry
  intro empty
  exact dropped (.inr empty)

theorem endpointsToServices_full {endpoints : Option Json}
    {out : List ServiceEntry} (isOut : endpointsToServices endpoints = some out) :
    ∀ entry ∈ out, entry.endpoint ≠ "" := by
  unfold endpointsToServices at isOut
  split at isOut
  · dsimp only at isOut
    split_ifs at isOut
    cases isOut
    intro entry member
    obtain ⟨json, -, isEntry⟩ := List.mem_filterMap.mp member
    exact legacyService_full isEntry
  · cases isOut

/-- What is read of the saved services are the entries that were saved. -/
theorem read_saved_services (form : AgentFormData)
    (existing : List (String × Json))
    (full : ∀ entry ∈ form.services, entry.endpoint ≠ "") :
    normalizeServices
        (.array (extractServices (savedDocument form existing))) =
      savedEntries form existing := by
  have isServices := saved_services form existing
  have allFull : ∀ entry ∈ savedEntries form existing,
      entry.endpoint ≠ "" := by
    unfold savedEntries
    split
    · exact full
    · cases isOut : endpointsToServices
          ((Json.object existing).get "endpoints") with
      | none => exact fun _ member => nomatch member
      | some out => exact endpointsToServices_full isOut
  split_ifs at isServices with empty
  · rw [extractServices_none isServices (saved_endpoints form existing), empty]
    rfl
  · rw [extractServices_toJson isServices, normalizeServices_toJson allFull]

/-! ## Documents with old entries -/

/-- The SDK finds an endpoint in an old entry: its `url` where that is a
text, else its `endpoint`. -/
def TranslatedEntry (entry : Json) : Prop :=
  ∃ text, text ≠ "" ∧
    (entry.get "url" = some (.text text) ∨
      (∀ url, entry.get "url" ≠ some (.text url)) ∧
        entry.get "endpoint" = some (.text text))

/-- The indexer finds one: its `url` where that is not null, else its
`endpoint`. -/
def IndexedEntry (entry : Json) : Prop :=
  ∃ text, text ≠ "" ∧
    (Json.nullish (entry.get "url")).or
      (Json.nullish (entry.get "endpoint")) = some (.text text)

def Translated (document : Json) : Prop :=
  ∃ endpoints, document.get "endpoints" = some (.array endpoints) ∧
    ∃ entry ∈ endpoints, TranslatedEntry entry

/-- The document has a service the form shows. -/
def Shown (document : Json) : Prop :=
  (∃ services, document.get "services" = some (.array services) ∧
    ∃ service ∈ services, HasEndpoint service) ∨
  (∀ services, document.get "services" ≠ some (.array services)) ∧
    ∃ endpoints, document.get "endpoints" = some (.array endpoints) ∧
      ∃ entry ∈ endpoints, IndexedEntry entry

theorem textField_eq_some {json : Json} {field value : String} :
    textField json field = some value ↔
      json.get field = some (.text value) := by
  unfold textField
  split
  · rename_i text isText
    rw [isText, Option.some.injEq, Option.some.injEq, Json.text.injEq]
  · rename_i notText
    constructor
    · intro absent
      cases absent
    · intro isText
      exact absurd isText (notText value)

theorem textField_eq_none {json : Json} {field : String} :
    textField json field = none ↔
      ∀ value, json.get field ≠ some (.text value) := by
  constructor
  · intro absent value isText
    rw [textField_eq_some.mpr isText] at absent
    cases absent
  · intro notText
    cases isField : textField json field with
    | none => rfl
    | some value => exact absurd (textField_eq_some.mp isField) (notText value)

theorem legacyService_isSome {entry : Json} :
    (legacyService entry).isSome = true ↔ TranslatedEntry entry := by
  have isEndpoint : ∀ text, (textField entry "url").or
      (textField entry "endpoint") = some text ↔
        (entry.get "url" = some (.text text) ∨
          (∀ url, entry.get "url" ≠ some (.text url)) ∧
            entry.get "endpoint" = some (.text text)) := by
    intro text
    rw [Option.or_eq_some_iff, textField_eq_some, textField_eq_none,
      textField_eq_some]
  unfold legacyService TranslatedEntry
  dsimp only
  constructor
  · intro found
    split_ifs at found with dropped
    · cases found
    · rw [not_or] at dropped
      cases isText : (textField entry "url").or
          (textField entry "endpoint") with
      | none =>
          rw [isText] at dropped
          exact absurd rfl dropped.2
      | some text =>
          rw [isText] at dropped
          exact ⟨text, dropped.2, (isEndpoint text).mp isText⟩
  · rintro ⟨text, full, found⟩
    have object : entry.isObject = true := by
      rcases found with isUrl | ⟨-, isText⟩
      · exact isObject_of_get isUrl
      · exact isObject_of_get isText
    rw [(isEndpoint text).mpr found, if_neg]
    · rfl
    · rintro (notObject | empty)
      · rw [object] at notObject
        cases notObject
      · exact full empty

theorem translated_iff {document : Json} :
    endpointsToServices (document.get "endpoints") ≠ none ↔
      Translated document := by
  unfold endpointsToServices Translated
  cases isEndpoints : document.get "endpoints" with
  | none => simp
  | some value =>
      cases value with
      | array entries =>
          have found : 0 < (entries.filterMap legacyService).length ↔
              ∃ entry ∈ entries, TranslatedEntry entry := by
            rw [List.length_pos_iff_exists_mem]
            simp only [List.mem_filterMap, ← legacyService_isSome,
              Option.isSome_iff_exists]
            constructor
            · rintro ⟨service, entry, member, isService⟩
              exact ⟨entry, member, service, isService⟩
            · rintro ⟨entry, member, service, isService⟩
              exact ⟨service, entry, member, isService⟩
          simp only [Option.some.injEq, Json.array.injEq, exists_eq_left', ← found]
          split_ifs with some
          · simpa using some
          · simpa using some
      | null => simp
      | bool value => simp
      | number text => simp
      | text value => simp
      | object fields => simp

theorem endpoint_entry {service : Json} :
    (serviceEntry service).endpoint ≠ "" ↔ HasEndpoint service := by
  unfold serviceEntry HasEndpoint
  cases isEndpoint : textField service "endpoint" with
  | none =>
      have notText := textField_eq_none.mp isEndpoint
      constructor
      · intro full
        exact absurd rfl full
      · rintro ⟨endpoint, isText, -⟩
        exact absurd isText (notText endpoint)
  | some endpoint =>
      have isText := textField_eq_some.mp isEndpoint
      constructor
      · intro full
        exact ⟨endpoint, isText, full⟩
      · rintro ⟨other, isOther, full⟩
        cases isText.symm.trans isOther
        exact full

theorem normalizeServices_ne_nil {services : List Json} :
    normalizeServices (.array services) ≠ [] ↔
      ∃ service ∈ services, HasEndpoint service := by
  apply shown_ne_nil
  intro service
  rw [decide_eq_true_eq, length_pos]
  exact endpoint_entry

/-- The translated entry has the endpoint the indexer finds. -/
theorem endpointService_hasEndpoint {entry : Json} :
    HasEndpoint (.object (endpointService entry)) ↔ IndexedEntry entry := by
  have isEndpoint : (Json.object (endpointService entry)).get "endpoint" =
      some (((Json.nullish (entry.get "url")).or
        (Json.nullish (entry.get "endpoint"))).getD (.text "")) := by
    simp [endpointService, Json.get_cons]
  unfold HasEndpoint IndexedEntry
  rw [isEndpoint]
  cases (Json.nullish (entry.get "url")).or
      (Json.nullish (entry.get "endpoint")) with
  | none => simp
  | some value => simp [and_comm]

theorem IndexedEntry.isObject {entry : Json} (indexed : IndexedEntry entry) :
    entry.isObject = true := by
  obtain ⟨text, -, found⟩ := indexed
  rw [Option.or_eq_some_iff] at found
  cases entry with
  | object fields => rfl
  | array items => rfl
  | null => simp [Json.get, Json.nullish] at found
  | bool value => simp [Json.get, Json.nullish] at found
  | number text => simp [Json.get, Json.nullish] at found
  | text value => simp [Json.get, Json.nullish] at found

/-- The old entries that are stored are those the indexer finds an endpoint
in. -/
theorem stored_indexed {document : Json}
    (noServices : ∀ services,
      document.get "services" ≠ some (.array services)) :
    (∃ service ∈ extractServices document, HasEndpoint service) ↔
      ∃ endpoints, document.get "endpoints" = some (.array endpoints) ∧
        ∃ entry ∈ endpoints, IndexedEntry entry := by
  have isStored : extractServices document =
      match document.get "endpoints" with
      | some (.array endpoints) =>
          ((endpoints.filter Json.isObject).map fun entry =>
            Json.object (endpointService entry)).filter fun service =>
              match service.get "endpoint" with
              | some (.text endpoint) => endpoint ≠ ""
              | _ => false
      | _ => [] := by
    unfold extractServices
    split
    · rename_i services isServices
      exact absurd isServices (noServices services)
    · rfl
  constructor
  · rintro ⟨service, member, shown⟩
    rw [isStored] at member
    split at member
    · rename_i endpoints isEndpoints
      obtain ⟨entry, inside, rfl⟩ :=
        List.mem_map.mp (List.mem_filter.mp member).1
      exact ⟨endpoints, isEndpoints, entry, (List.mem_filter.mp inside).1,
        endpointService_hasEndpoint.mp shown⟩
    · cases member
  · rintro ⟨endpoints, isEndpoints, entry, member, indexed⟩
    have shown := endpointService_hasEndpoint.mpr indexed
    refine ⟨.object (endpointService entry), ?_, shown⟩
    obtain ⟨text, isText, full⟩ := shown
    rw [isStored, isEndpoints]
    dsimp only
    rw [List.mem_filter, isText]
    exact ⟨List.mem_map_of_mem (List.mem_filter.mpr ⟨member, indexed.isObject⟩),
      decide_eq_true full⟩

theorem shown_iff {document : Json} :
    normalizeServices (.array (extractServices document)) ≠ [] ↔
      Shown document := by
  rw [normalizeServices_ne_nil]
  unfold Shown
  by_cases hasServices : ∃ services,
      document.get "services" = some (.array services)
  · obtain ⟨services, isServices⟩ := hasServices
    rw [stored_hasEndpoint isServices]
    constructor
    · exact fun shown => .inl ⟨services, isServices, shown⟩
    · rintro (⟨others, isOthers, shown⟩ | ⟨noServices, -⟩)
      · cases isServices.symm.trans isOthers
        exact shown
      · exact absurd isServices (noServices services)
  · have noServices : ∀ services,
        document.get "services" ≠ some (.array services) := by
      intro services isServices
      exact hasServices ⟨services, isServices⟩
    rw [stored_indexed noServices]
    constructor
    · exact fun indexed => .inr ⟨noServices, indexed⟩
    · rintro (⟨services, isServices, -⟩ | ⟨-, indexed⟩)
      · exact absurd isServices (noServices services)
      · exact indexed

/-! ## The round trip -/

theorem readUriField_eq_some {source : Json} {field value : String} :
    readUriField source field = some value ↔
      source.get field = some (.text value) ∧ value ≠ "" := by
  unfold readUriField
  split
  · rename_i text isText
    rw [isText]
    split_ifs with full
    · rw [Option.some.injEq, Option.some.injEq, Json.text.injEq]
      constructor
      · rintro rfl
        exact ⟨rfl, length_pos.mp full⟩
      · exact And.left
    · constructor
      · intro absent
        cases absent
      · rintro ⟨isValue, some⟩
        cases isValue
        exact absurd (length_pos.mpr some) full
  · rename_i notText
    constructor
    · intro absent
      cases absent
    · rintro ⟨isText, -⟩
      exact absurd isText (notText value)

/-- A field that was read, written where it is not empty, is read again. -/
theorem readUriField_again {source saved : Json} {field : String}
    (isSaved : saved.get field =
      if (readUriField source field).getD "" ≠ "" then
        some (.text ((readUriField source field).getD ""))
      else none) : readUriField saved field = readUriField source field := by
  cases isRead : readUriField source field with
  | none =>
      rw [isRead, Option.getD_none, if_neg (fun full => full rfl)] at isSaved
      unfold readUriField
      rw [isSaved]
  | some value =>
      have full := (readUriField_eq_some.mp isRead).2
      rw [isRead, Option.getD_some, if_pos full] at isSaved
      exact readUriField_eq_some.mpr ⟨isSaved, full⟩

theorem extractSupportedTrust_again {document saved : Json}
    (isSaved : saved.get "supportedTrust" =
      if 0 < ((extractSupportedTrust document).map Json.text).length then
        some (.array ((extractSupportedTrust document).map Json.text))
      else none) :
    extractSupportedTrust saved = extractSupportedTrust document := by
  have full : ∀ value ∈ extractSupportedTrust document, value ≠ "" := by
    unfold extractSupportedTrust
    split
    · intro value member
      obtain ⟨item, -, isValue⟩ := List.mem_filterMap.mp member
      split at isValue
      · split_ifs at isValue with empty
        cases isValue
        exact empty
      · cases isValue
    · exact fun _ member => nomatch member
  generalize extractSupportedTrust document = trust at isSaved full
  unfold extractSupportedTrust
  rw [isSaved]
  cases trust with
  | nil => rfl
  | cons first rest =>
      rw [if_pos (by simp)]
      dsimp only
      rw [List.filterMap_map]
      have kept : ∀ value ∈ first :: rest,
          (if value = "" then none else some value) = some value :=
        fun value member => if_neg (full value member)
      exact (List.filterMap_congr kept).trans List.filterMap_some

/-- A flag that is saved as it was read. -/
theorem flag_again {extract : Json → Bool} {field : String}
    (reads : ∀ json, extract json =
      match json.get field with
      | some (.bool value) => value
      | _ => false)
    {document saved : Json}
    (isSaved : saved.get field =
      if extract document then some (.bool true) else none) :
    extract saved = extract document := by
  generalize extract document = flag at isSaved
  rw [reads, isSaved]
  cases flag with
  | false => rfl
  | true => rfl

/-- The indexer and the page read the same of both documents, and what they
do not know is the same. -/
structure Alike (document saved : Json) : Prop where
  services : normalizeServices (.array (extractServices saved)) =
    normalizeServices (.array (extractServices document))
  supportedTrust : extractSupportedTrust saved =
    extractSupportedTrust document
  x402 : extractX402 saved = extractX402 document
  mpp : extractMpp saved = extractMpp document
  texts : ∀ field ∈ ["name", "description", "image"],
    readUriField saved field = readUriField document field
  unknown : ∀ field, field ∉ KNOWN_FIELDS →
    saved.get field = document.get field

/-- The document that an unedited form saves. -/
def unedited (row : DecodedAgent) : Json :=
  savedDocument (initialFormData (load row)) (load row).rawUriData

section

variable (row : DecodedAgent) (fields : List (String × Json))

/-- The form of the row a document was stored in. -/
def formOf : AgentFormData :=
  initialFormData (load (row.resolved (.object fields)))

theorem formOf_services : (formOf row fields).services =
    normalizeServices (.array (extractServices (.object fields))) := rfl

theorem unedited_eq : unedited (row.resolved (.object fields)) =
    savedDocument (formOf row fields) fields := rfl

theorem unedited_services :
    normalizeServices (.array (extractServices
        (unedited (row.resolved (.object fields))))) =
      normalizeServices (.array (extractServices (.object fields))) ↔
      (Translated (.object fields) → Shown (.object fields)) := by
  have full : ∀ entry ∈ (formOf row fields).services,
      entry.endpoint ≠ "" := by
    rw [formOf_services]
    exact normalizeServices_full _
  have shown : (formOf row fields).services ≠ [] ↔ Shown (.object fields) := by
    rw [formOf_services]
    exact shown_iff
  have translated : endpointsToServices
      ((Json.object fields).get "endpoints") ≠ none ↔
        Translated (.object fields) := translated_iff
  rw [unedited_eq, read_saved_services _ _ full, ← formOf_services row,
    ← shown, ← translated, savedEntries]
  by_cases some : 0 < (formOf row fields).services.length
  · rw [if_pos some]
    exact iff_of_true rfl fun _ => List.length_pos_iff.mp some
  · have none : (formOf row fields).services = [] := by
      rwa [List.length_pos_iff, not_not] at some
    rw [if_neg some, none]
    cases isOut : endpointsToServices
        ((Json.object fields).get "endpoints") with
    | none => simp
    | some out =>
        have filled := endpointsToServices_ne_nil isOut
        simp [filled]

/-- Everything but the services goes through unchanged. -/
theorem unedited_alike {name : String} (full : name ≠ "")
    (named : (Json.object fields).get "name" = some (.text name))
    (services : normalizeServices (.array (extractServices
        (unedited (row.resolved (.object fields))))) =
      normalizeServices (.array (extractServices (.object fields)))) :
    Alike (.object fields) (unedited (row.resolved (.object fields))) := by
  have isName : readUriField (.object fields) "name" = some name :=
    readUriField_eq_some.mpr ⟨named, full⟩
  have formName : (formOf row fields).name = name := by
    change (readUriField (.object fields) "name").getD _ = name
    rw [isName, Option.getD_some]
  refine ⟨services, ?_, ?_, ?_, ?_, ?_⟩
  · exact extractSupportedTrust_again
      (saved_supportedTrust (formOf row fields) fields)
  · exact @flag_again extractX402 _ (fun _ => rfl) _ _
      (saved_x402 (formOf row fields) fields)
  · exact @flag_again extractMpp _ (fun _ => rfl) _ _
      (saved_mpp (formOf row fields) fields)
  · intro field member
    simp only [List.mem_cons, List.not_mem_nil, or_false] at member
    rcases member with rfl | rfl | rfl
    · rw [isName]
      apply readUriField_eq_some.mpr
      refine ⟨?_, full⟩
      rw [unedited_eq, saved_name, formName]
    · exact readUriField_again (saved_description (formOf row fields) fields)
    · exact readUriField_again (saved_image (formOf row fields) fields)
  · intro field unknown
    exact get_unknown (formOf row fields) fields unknown

theorem edit_roundTrip_iff {name : String} (full : name ≠ "")
    (named : (Json.object fields).get "name" = some (.text name)) :
    Alike (.object fields) (unedited (row.resolved (.object fields))) ↔
      (Translated (.object fields) → Shown (.object fields)) := by
  rw [← unedited_services row fields]
  constructor
  · exact Alike.services
  · exact unedited_alike row fields full named

end

/-! ## An agent with no services and an old entry -/

/-- `{"name":"A","services":[],"endpoints":[{"url":"https://a"}]}` -/
def retiredFields : List (String × Json) :=
  [("name", .text "A"), ("services", .array []),
    ("endpoints", .array [.object [("url", .text "https://a")]])]

def retiredRow : DecodedAgent :=
  { id := 1, owner := "G", wallet := none, agentUri := some "https://a"
    agentUriData := none, supportedTrust := .array [], services := .array []
    x402Enabled := false, mppEnabled := false, createdAt := ""
    createdLedger := 1, txHash := "" }

theorem edit_roundTrip_fails :
    ¬ ∀ (row : DecodedAgent) (fields : List (String × Json)) (name : String),
      name ≠ "" → (Json.object fields).get "name" = some (.text name) →
        Alike (.object fields) (unedited (row.resolved (.object fields))) := by
  intro alike
  have same := (alike retiredRow retiredFields "A" (by decide) rfl).services
  have none : normalizeServices
      (.array (extractServices (.object retiredFields))) = [] := rfl
  have filled : normalizeServices (.array (extractServices
      (unedited (retiredRow.resolved (.object retiredFields))))) ≠ [] := by
    decide
  exact filled (same.trans none)

theorem edit_roundTrip_iff_retired :
    Alike (.object retiredFields)
        (unedited (retiredRow.resolved (.object retiredFields))) ↔
      (Translated (.object retiredFields) → Shown (.object retiredFields)) :=
  edit_roundTrip_iff retiredRow retiredFields (by decide : "A" ≠ "") rfl

end Stellar8004.Web.EditForm
