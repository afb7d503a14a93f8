import Stellar8004.Indexer.Documents
import Stellar8004.Library.Utf16
import Stellar8004.Web.Discovery

/-!
# The services of an agent

`apps/web/src/lib/server/api/response.ts`: how the list answers and the
detail answer present a row.  A JSON column is taken as the value its text
stands for.
-/

namespace Stellar8004.Web.Response

open Stellar8004.Indexer
open Utf16 (Text)

/-! ## Rows -/

/-- A row of `AGENTS` after `decodeRow`, without its scores. -/
structure DecodedAgent where
  id : Nat
  owner : String
  wallet : Option String
  agentUri : Option String
  agentUriData : Option Json
  supportedTrust : Json
  services : Json
  x402Enabled : Bool
  mppEnabled : Bool
  createdAt : String
  createdLedger : Nat
  txHash : String

/-- The columns of `leaderboard_scores`; a left join can leave them null. -/
structure ScoreColumns where
  totalScore : Option ℚ
  avgScore : Option ℚ
  feedbackCount : Option Nat
  uniqueClients : Option Nat

/-- What `store` of `resolve.ts` leaves in a row. -/
def DecodedAgent.resolved (row : DecodedAgent) (document : Json) :
    DecodedAgent :=
  { row with
    agentUriData := some document
    supportedTrust :=
      .array ((extractSupportedTrust document).map Json.text)
    services := .array (extractServices document)
    x402Enabled := extractX402 document
    mppEnabled := extractMpp document }

/-- `json_array_length`, which is 0 for what is no array. -/
def jsonArrayLength : Json → Nat
  | .array items => items.length
  | _ => 0

/-! ## `response.ts` -/

/-- A unit of `val.replace(/[<>"]/g, …)`. -/
def escapeUnit (unit : UInt16) : Text :=
  if unit.toNat = '<'.toNat then Utf16.ofString "&lt;"
  else if unit.toNat = '>'.toNat then Utf16.ofString "&gt;"
  else if unit.toNat = '"'.toNat then Utf16.ofString "&quot;"
  else [unit]

def sanitizeString (val : Option Json) (maxLen : Nat) : Option Text :=
  match val with
  | some (.text text) =>
      some (((Utf16.ofString text).take maxLen).flatMap escapeUnit)
  | _ => none

structure ServiceView where
  name : Text
  endpoint : Text
  version : Option Text
  description : Option Text
  inputExample : Option Text

def serviceView (service : Json) : ServiceView :=
  { name := (sanitizeString (service.get "name") 256).getD
      (Utf16.ofString "unknown")
    endpoint := (sanitizeString (service.get "endpoint") 2048).getD []
    version := sanitizeString (service.get "version") 64
    description := sanitizeString (service.get "description") 2048
    inputExample := sanitizeString (service.get "inputExample") 4096 }

def normalizeServices (raw : Json) : List ServiceView :=
  match raw with
  | .array items =>
      ((items.filter Json.isObject).map serviceView).filter fun service =>
        0 < service.endpoint.length
  | _ => []

/-- A field of the document; an array has none. -/
def readUriData (row : DecodedAgent) (field : String) : Option Json :=
  row.agentUriData.bind fun data => data.get field

/-- The numbers `formatAgent` adds where it is given scores. -/
structure ScoreFields where
  total : ℚ
  average : ℚ
  feedbackCount : Nat
  uniqueClients : Nat

def ScoreColumns.fields (scores : ScoreColumns) : ScoreFields :=
  { total := scores.totalScore.getD 0
    average := scores.avgScore.getD 0
    feedbackCount := scores.feedbackCount.getD 0
    uniqueClients := scores.uniqueClients.getD 0 }

structure AgentSummary where
  id : Nat
  owner : String
  name : Text
  description : Option Text
  image : Option Text
  supportedTrust : Json
  x402Enabled : Bool
  mppEnabled : Bool
  hasServices : Bool
  createdAt : String
  scores : Option ScoreFields

def formatAgent (row : DecodedAgent) (scores : Option ScoreColumns) :
    AgentSummary :=
  { id := row.id
    owner := row.owner
    name := (sanitizeString (readUriData row "name") 2048).getD
      (Utf16.ofString s!"Agent #{row.id}")
    description := sanitizeString (readUriData row "description") 2048
    image := sanitizeString (readUriData row "image") 4096
    supportedTrust :=
      (Json.nullish (some row.supportedTrust)).getD (.array [])
    x402Enabled := row.x402Enabled
    mppEnabled := row.mppEnabled
    hasServices :=
      match row.services with
      | .array services => 0 < services.length
      | _ => false
    createdAt := row.createdAt
    scores := scores.map ScoreColumns.fields }

/-- `data ? … : …` -/
def truthy : Option Json → Bool
  | none => false
  | some .null => false
  | some (.bool value) => value
  | some (.number text) => text ≠ "0"
  | some (.text value) => value ≠ ""
  | some (.array _) => true
  | some (.object _) => true

structure AgentDetail extends AgentSummary where
  wallet : Option String
  agentUri : Option String
  services : List ServiceView
  metadata : List (String × String)
  resolveStatus : String
  createdLedger : Nat
  txHash : String

/-- A metadata row has a key of its own.  What `scores` holds again under
other names is in the summary. -/
def formatAgentDetail (row : DecodedAgent) (scores : Option ScoreColumns)
    (metadataRows : List (String × Option String)) : AgentDetail :=
  { formatAgent row scores with
    wallet := row.wallet
    agentUri := row.agentUri
    services := normalizeServices row.services
    metadata := metadataRows.map fun entry => (entry.1, entry.2.getD "")
    resolveStatus :=
      if truthy row.agentUriData then "ready"
      else if row.agentUri.getD "" ≠ "" then "resolving"
      else "no-uri"
    createdLedger := row.createdLedger
    txHash := row.txHash }

/-! ## What is shown of a service -/

theorem escapeUnit_ne_nil (unit : UInt16) : escapeUnit unit ≠ [] := by
  unfold escapeUnit
  split_ifs
  · decide
  · decide
  · decide
  · exact List.cons_ne_nil _ _

/-- Escaping and cutting leave something of every text. -/
theorem sanitizeString_ne_nil {text : String} (some : text ≠ "")
    {maxLen : Nat} (room : 0 < maxLen) :
    (sanitizeString (.some (.text text)) maxLen).getD [] ≠ [] := by
  have units : Utf16.ofString text ≠ [] := by
    intro none
    exact some (Utf16.ofString_eq_nil.mp none)
  cases isUnits : Utf16.ofString text with
  | nil => exact absurd isUnits units
  | cons unit rest =>
      cases maxLen with
      | zero => cases room
      | succ count =>
          simp only [sanitizeString, isUnits, List.take_succ_cons,
            List.flatMap_cons, Option.getD_some]
          intro none
          exact escapeUnit_ne_nil unit (List.append_eq_nil_iff.mp none).1

/-- An entry with an endpoint that is a text with something in it. -/
def HasEndpoint (service : Json) : Prop :=
  ∃ endpoint, service.get "endpoint" = some (.text endpoint) ∧ endpoint ≠ ""

theorem isObject_of_get {json value : Json} {name : String}
    (present : json.get name = some value) : json.isObject = true := by
  cases json with
  | object fields => rfl
  | null => cases present
  | bool value => cases present
  | number text => cases present
  | text value => cases present
  | array items => cases present

theorem endpoint_shown {service : Json} :
    0 < (serviceView service).endpoint.length ↔ HasEndpoint service := by
  unfold serviceView HasEndpoint
  rw [List.length_pos_iff]
  constructor
  · intro shown
    cases isEndpoint : service.get "endpoint" with
    | none =>
        rw [isEndpoint] at shown
        exact absurd rfl shown
    | some value =>
        rw [isEndpoint] at shown
        cases value with
        | text endpoint =>
            refine ⟨endpoint, rfl, ?_⟩
            rintro rfl
            exact absurd rfl shown
        | null => exact absurd rfl shown
        | bool value => exact absurd rfl shown
        | number text => exact absurd rfl shown
        | array items => exact absurd rfl shown
        | object fields => exact absurd rfl shown
  · rintro ⟨endpoint, isEndpoint, some⟩
    rw [isEndpoint]
    exact sanitizeString_ne_nil some (by decide)

/-- What is left of a list where only services with an endpoint are shown. -/
theorem shown_ne_nil {View : Type} {view : Json → View} {shown : View → Bool}
    (isShown : ∀ service, shown (view service) = true ↔ HasEndpoint service)
    {services : List Json} :
    ((services.filter Json.isObject).map view).filter shown ≠ [] ↔
      ∃ service ∈ services, HasEndpoint service := by
  rw [← List.length_pos_iff, List.length_pos_iff_exists_mem]
  simp only [List.mem_filter, List.mem_map]
  constructor
  · rintro ⟨_, ⟨service, ⟨member, -⟩, rfl⟩, full⟩
    exact ⟨service, member, (isShown service).mp full⟩
  · rintro ⟨service, member, hasEndpoint⟩
    obtain ⟨endpoint, isEndpoint, -⟩ := id hasEndpoint
    exact ⟨view service,
      ⟨service, ⟨member, isObject_of_get isEndpoint⟩, rfl⟩,
      (isShown service).mpr hasEndpoint⟩

theorem normalizeServices_ne_nil {services : List Json} :
    normalizeServices (.array services) ≠ [] ↔
      ∃ service ∈ services, HasEndpoint service := by
  apply shown_ne_nil
  intro service
  rw [decide_eq_true_eq]
  exact endpoint_shown

/-! ## What is stored of a document -/

/-- Of the entries with an `endpoint` field one has a text in it.  Where the
document has no `services` array nothing is asked of it. -/
def Readable (document : Json) : Prop :=
  ∀ services, document.get "services" = some (.array services) →
    (∃ service ∈ services, (service.get "endpoint").isSome) →
      ∃ service ∈ services, HasEndpoint service

/-- The old entries are stored only where their endpoint is shown. -/
theorem stored_endpoints {document service : Json}
    (noServices : ∀ services,
      document.get "services" ≠ some (.array services))
    (member : service ∈ extractServices document) : HasEndpoint service := by
  unfold extractServices at member
  split at member
  · rename_i services isServices
    exact absurd isServices (noServices services)
  · split at member
    · have shown := (List.mem_filter.mp member).2
      unfold HasEndpoint
      cases isEndpoint : service.get "endpoint" with
      | none => simp [isEndpoint] at shown
      | some value =>
          cases value with
          | text endpoint => exact ⟨endpoint, rfl, by simpa [isEndpoint] using shown⟩
          | null => simp [isEndpoint] at shown
          | bool value => simp [isEndpoint] at shown
          | number text => simp [isEndpoint] at shown
          | array items => simp [isEndpoint] at shown
          | object fields => simp [isEndpoint] at shown
    · cases member

section

variable {document : Json} {services : List Json}
  (isServices : document.get "services" = some (.array services))

include isServices

theorem mem_extractServices {service : Json} :
    service ∈ extractServices document ↔
      service ∈ services ∧ (service.get "endpoint").isSome = true := by
  unfold extractServices
  rw [isServices]
  simp only [List.mem_filter, Bool.and_eq_true]
  constructor
  · rintro ⟨member, -, present⟩
    exact ⟨member, present⟩
  · rintro ⟨member, present⟩
    obtain ⟨value, isValue⟩ := Option.isSome_iff_exists.mp present
    exact ⟨member, isObject_of_get isValue, present⟩

/-- No entry that can be shown is lost. -/
theorem stored_hasEndpoint :
    (∃ service ∈ extractServices document, HasEndpoint service) ↔
      ∃ service ∈ services, HasEndpoint service := by
  constructor
  · rintro ⟨service, member, shown⟩
    exact ⟨service, ((mem_extractServices isServices).mp member).1, shown⟩
  · rintro ⟨service, member, shown⟩
    obtain ⟨endpoint, isEndpoint, -⟩ := id shown
    have present : (service.get "endpoint").isSome = true := by
      rw [isEndpoint]
      rfl
    exact ⟨service, (mem_extractServices isServices).mpr ⟨member, present⟩,
      shown⟩

end

/-- What is stored can be shown exactly where the document is readable. -/
theorem stored_shown_iff {document : Json} :
    (extractServices document ≠ [] ↔
      normalizeServices (.array (extractServices document)) ≠ []) ↔
      Readable document := by
  rw [normalizeServices_ne_nil, ← List.length_pos_iff,
    List.length_pos_iff_exists_mem]
  by_cases hasServices : ∃ services,
      document.get "services" = some (.array services)
  · obtain ⟨services, isServices⟩ := hasServices
    rw [stored_hasEndpoint isServices]
    constructor
    · rintro agree others isOthers ⟨service, member, present⟩
      cases isServices.symm.trans isOthers
      exact agree.mp
        ⟨service, (mem_extractServices isServices).mpr ⟨member, present⟩⟩
    · intro readable
      constructor
      · rintro ⟨service, member⟩
        exact readable services isServices
          ⟨service, (mem_extractServices isServices).mp member⟩
      · intro shown
        obtain ⟨service, member, -⟩ :=
          (stored_hasEndpoint isServices).mpr shown
        exact ⟨service, member⟩
  · have noServices : ∀ services,
        document.get "services" ≠ some (.array services) := by
      intro services isServices
      exact hasServices ⟨services, isServices⟩
    apply iff_of_true
    · constructor
      · rintro ⟨service, member⟩
        exact ⟨service, member, stored_endpoints noServices member⟩
      · rintro ⟨service, member, -⟩
        exact ⟨service, member⟩
    · intro services isServices
      exact absurd isServices (noServices services)

/-! ## List and detail -/

theorem formatAgent_hasServices {row : DecodedAgent}
    {scores : Option ScoreColumns} {services : List Json}
    (isServices : row.services = .array services) :
    (formatAgent row scores).hasServices = true ↔ services ≠ [] := by
  simp only [formatAgent, isServices, decide_eq_true_eq, List.length_pos_iff]

/-- Both the flag and the filter say what the detail answer shows. -/
def ServicesAgree (row : DecodedAgent) (scores : Option ScoreColumns)
    (metadataRows : List (String × Option String)) : Prop :=
  ((formatAgent row scores).hasServices = true ↔
      (formatAgentDetail row scores metadataRows).services ≠ []) ∧
    (0 < jsonArrayLength row.services ↔
      (formatAgentDetail row scores metadataRows).services ≠ [])

theorem servicesAgree_iff (row : DecodedAgent) (scores : Option ScoreColumns)
    (metadataRows : List (String × Option String)) (document : Json) :
    ServicesAgree (row.resolved document) scores metadataRows ↔
      Readable document := by
  have isServices : (row.resolved document).services =
      .array (extractServices document) := rfl
  have isDetail : (formatAgentDetail (row.resolved document) scores
      metadataRows).services =
        normalizeServices (.array (extractServices document)) := rfl
  unfold ServicesAgree
  rw [formatAgent_hasServices isServices, isDetail, isServices,
    jsonArrayLength, List.length_pos_iff, and_self, stored_shown_iff]

/-- `{"services":[{"endpoint":""}]}` -/
def emptyEndpoint : Json :=
  .object [("services", .array [.object [("endpoint", .text "")]])]

theorem servicesAgree_emptyEndpoint :
    ¬ ∀ (row : DecodedAgent) (scores : Option ScoreColumns)
      (metadataRows : List (String × Option String)) (document : Json),
      ServicesAgree (row.resolved document) scores metadataRows := by
  intro agree
  let row : DecodedAgent :=
    { id := 1, owner := "G", wallet := none, agentUri := some "https://a"
      agentUriData := none, supportedTrust := .array [], services := .array []
      x402Enabled := false, mppEnabled := false, createdAt := ""
      createdLedger := 1, txHash := "" }
  have flag := (agree row none [] emptyEndpoint).1
  have isFlag : (formatAgent (row.resolved emptyEndpoint) none).hasServices =
      true := by decide
  have isDetail : (formatAgentDetail (row.resolved emptyEndpoint) none
      []).services = [] := rfl
  exact flag.mp isFlag isDetail

end Stellar8004.Web.Response
