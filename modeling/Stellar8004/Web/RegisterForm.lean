import Stellar8004.Indexer.Fetching
import Stellar8004.Web.EditForm

/-!
# Forms that are saved

The register page saves a form as a URI with the document inside, the indexer
reads the document, and the edit page shows it as a form again and saves over
it: `buildMetadataJson`, `validateMetadataJson` and `getMetadataSize` of the
SDK's `core/metadata.ts`, `submit` of `routes/register` and `validationError`
and `saveMetadata` of `routes/agents/[id]/edit`, in the mode in which the page
makes the URI itself.
-/

namespace Stellar8004.Web.RegisterForm

open Stellar8004.Indexer
open Stellar8004.Web.Response (DecodedAgent)
open Stellar8004.Web.EditForm
open DataUri (Value toDataUri validateAgentUri textEncode)
open Utf16 (Text)

/-! ## `metadata.ts` -/

mutual

/-- A document as `JSON.stringify` takes it. -/
def valueOf : Json → Value
  | .null => .null
  | .bool value => .bool value
  | .number text => .number text
  | .text value => .text (Utf16.ofString value)
  | .array items => .array (valuesOf items)
  | .object fields => .object (fieldsOf fields)

def valuesOf : List Json → List Value
  | [] => []
  | item :: items => valueOf item :: valuesOf items

def fieldsOf : List (String × Json) → List (Text × Value)
  | [] => []
  | (name, value) :: fields =>
      (Utf16.ofString name, valueOf value) :: fieldsOf fields

end

/-- The text of a document. -/
def documentText (fields : List (String × Json)) : Text :=
  (Value.object (fieldsOf fields)).stringify

def isArray : Json → Bool
  | .array _ => true
  | _ => false

/-- A field that is there and is no text. -/
def holdsOther (json : Json) (field : String) : Bool :=
  (json.get field).isSome && (textField json field).isNone

def validateMetadataJson (fields : List (String × Json)) :
    Except String Unit :=
  let json := Json.object fields
  if (textField json "type").getD "" = "" then
    .error "Metadata must have a non-empty \"type\" string field"
  else if (textField json "name").getD "" = "" then
    .error "Metadata must have a non-empty \"name\" string field"
  else if holdsOther json "description" then
    .error "Metadata \"description\" must be a string"
  else if holdsOther json "image" then
    .error "Metadata \"image\" must be a string"
  else if (json.get "services").any fun services => !isArray services then
    .error "Metadata \"services\" must be an array"
  else .ok ()

/-- What `buildMetadataJson` checks and gives. -/
def metadataOf (form : AgentFormData) : List (String × Json) :=
  [("type", .text "https://eips.ethereum.org/EIPS/eip-8004#registration-v1"),
    ("name", .text form.name)] ++
  fieldWhen (form.description ≠ "") "description" (.text form.description) ++
  fieldWhen (form.imageUrl ≠ "") "image" (.text form.imageUrl) ++
  fieldWhen (0 < form.services.length) "services"
    (.array (form.services.map ServiceEntry.toJson)) ++
  fieldWhen (0 < form.supportedTrust.length) "supportedTrust"
    (.array form.supportedTrust) ++
  fieldWhen form.x402Enabled "x402" (.bool true) ++
  fieldWhen form.mppEnabled "mpp" (.bool true)

def buildMetadataJson (form : AgentFormData) :
    Except String (List (String × Json)) := do
  validateMetadataJson (metadataOf form)
  return metadataOf form

def getMetadataSize (fields : List (String × Json)) : Nat :=
  (textEncode (documentText fields)).size

/-! ## The pages -/

/-- The URI both pages make of a document. -/
def inlineUri (fields : List (String × Json)) : Except String String := do
  let uri ← toDataUri (.object (fieldsOf fields))
  validateAgentUri uri
  return uri

/-- What `submit` registers an agent with. -/
def registerUri (form : AgentFormData) : Except String String := do
  inlineUri (← buildMetadataJson form)

/-- The text is empty where the form is fit to be saved. -/
def validationError (form : AgentFormData) (existing : List (String × Json)) :
    String :=
  let name := trim form.name.toList
  let size := getMetadataSize (buildMetadataJsonForEdit form existing)
  let estimatedUriSize := 29 + (4 * size + 2) / 3
  if name = [] then "Agent name is required"
  else if 256 < DataUri.jsLength (String.ofList name) then
    "Agent name must be 256 characters or fewer"
  else if 8192 < estimatedUriSize then
    s!"Metadata too large (~{estimatedUriSize} bytes, max 8KB). " ++
      "Reduce description or services."
  else ""

/-- What `saveMetadata` gives the agent over a document. -/
def editUri (form : AgentFormData) (existing : List (String × Json)) :
    Except String String :=
  let problem := validationError form existing
  if problem ≠ "" then .error problem
  else inlineUri (buildMetadataJsonForEdit form existing)

/-! ## Histories -/

/-- What is saved for an agent: each form with its URI, the newest first. -/
abbrev History := List (AgentFormData × String)

/-- The row the edit page was opened on: the indexer had not resolved its URI
yet, or had read the document of one of the saves, not always of the last. -/
def Opened (urls : Urls) (parse : Text → Option Json) (history : History)
    (row : DecodedAgent) : Prop :=
  row.agentUriData = none ∨
    ∃ save ∈ history, ∃ trace document,
      Program.Yields (Fetching.resolveUri urls parse save.2) trace
        (some (.returned (some document))) ∧
      row.agentUriData = some document

inductive Saves (urls : Urls) (parse : Text → Option Json) :
    History → Prop where
  | register {form : AgentFormData} {uri : String}
      (saved : registerUri form = .ok uri) : Saves urls parse [(form, uri)]
  | edit {history : History} {row : DecodedAgent} {form : AgentFormData}
      {uri : String} (earlier : Saves urls parse history)
      (opened : Opened urls parse history row)
      (saved : editUri form (load row).rawUriData = .ok uri) :
      Saves urls parse ((form, uri) :: history)

/-- Nothing in the form is dropped on the way: a service has an endpoint, a
kind of trust a name. -/
def Complete (form : AgentFormData) : Prop :=
  (∀ entry ∈ form.services, entry.endpoint ≠ "") ∧
    ∀ value ∈ form.supportedTrust, ∃ text, value = .text text ∧ text ≠ ""

/-! ## The document of a form -/

section

variable (form : AgentFormData)

theorem build_over_nothing :
    buildMetadataJsonForEdit form [] = metadataOf form := by
  have services : metadataServices form [] =
      fieldWhen (0 < form.services.length) "services"
        (.array (form.services.map ServiceEntry.toJson)) := by
    unfold metadataServices fieldWhen
    simp only [decide_eq_true_eq]
    rfl
  rw [buildMetadataJsonForEdit, metadataForEdit, services]
  rfl

theorem savedDocument_nil :
    savedDocument form [] = .object (metadataOf form) :=
  congrArg Json.object (build_over_nothing form)

theorem metadataOf_type : (Json.object (metadataOf form)).get "type" =
    some (.text
      "https://eips.ethereum.org/EIPS/eip-8004#registration-v1") := by
  rw [← savedDocument_nil, saved_get form [] (by decide) (by decide)]
  rfl

theorem metadataOf_endpoints :
    (Json.object (metadataOf form)).get "endpoints" = none := by
  rw [← savedDocument_nil]
  exact saved_endpoints form []

theorem metadataOf_known :
    ∀ field ∈ metadataOf form, field.1 ∈ KNOWN_FIELDS := by
  have fields : ∀ (condition : Bool) {name : String} (value : Json),
      name ∈ KNOWN_FIELDS → ∀ field ∈ fieldWhen condition name value,
        field.1 ∈ KNOWN_FIELDS := by
    intro condition name value known field member
    cases condition with
    | false => cases member
    | true =>
        rw [List.mem_singleton.mp member]
        exact known
  intro field member
  simp only [metadataOf, List.mem_append, List.mem_cons, List.not_mem_nil,
    or_false] at member
  rcases member with ((((((rfl | rfl) | description) | image) | services) |
    trust) | x402) | mpp
  · decide
  · change "name" ∈ KNOWN_FIELDS
    decide
  · exact fields _ _ (by decide) field description
  · exact fields _ _ (by decide) field image
  · exact fields _ _ (by decide) field services
  · exact fields _ _ (by decide) field trust
  · exact fields _ _ (by decide) field x402
  · exact fields _ _ (by decide) field mpp

/-- Nothing of an older form is left in what is saved over its document. -/
theorem build_over_form (earlier : AgentFormData) :
    buildMetadataJsonForEdit form (metadataOf earlier) = metadataOf form := by
  have unknown : ((metadataOf earlier).filter fun field =>
      field.1 ∉ KNOWN_FIELDS) = [] := by
    rw [List.filter_eq_nil_iff]
    intro field member
    simpa using metadataOf_known earlier field member
  have services : metadataServices form (metadataOf earlier) =
      metadataServices form [] := by
    unfold metadataServices
    rw [metadataOf_endpoints]
    rfl
  rw [← build_over_nothing form, buildMetadataJsonForEdit, unknown,
    metadataForEdit, metadataOf_type, services]
  rfl

theorem buildMetadataJson_ok (named : form.name ≠ "") :
    buildMetadataJson form = .ok (metadataOf form) := by
  have name : (Json.object (metadataOf form)).get "name" =
      some (.text form.name) := by
    rw [← savedDocument_nil]
    exact saved_name form []
  have isText : ∀ field (text : String), (Json.object (metadataOf form)).get
      field = (if text ≠ "" then some (.text text) else none) →
        holdsOther (.object (metadataOf form)) field = false := by
    intro field text isField
    unfold holdsOther textField
    rw [isField]
    split_ifs
    · rfl
    · rfl
  have description : holdsOther (.object (metadataOf form)) "description" =
      false := by
    apply isText "description" form.description
    rw [← savedDocument_nil]
    exact saved_description form []
  have image : holdsOther (.object (metadataOf form)) "image" = false := by
    apply isText "image" form.imageUrl
    rw [← savedDocument_nil]
    exact saved_image form []
  have services : (((Json.object (metadataOf form)).get "services").any
      fun services => !isArray services) = false := by
    rw [← savedDocument_nil, saved_services form []]
    split_ifs
    · rfl
    · rfl
  have checked : validateMetadataJson (metadataOf form) = .ok () := by
    unfold validateMetadataJson
    dsimp only
    rw [textField_eq_some.mpr (metadataOf_type form),
      textField_eq_some.mpr name, description, image, services,
      Option.getD_some, Option.getD_some, if_neg (by decide), if_neg named]
    rfl
  rw [buildMetadataJson, checked]
  rfl

end

/-! ## What the indexer reads -/

section

variable {fields : List (String × Json)} {uri : String}
  (made : toDataUri (.object (fieldsOf fields)) = .ok uri)

include made

/-- The indexer fetches nothing: the document is in the URI. -/
theorem resolveUri_inline (urls : Urls) (parse : Text → Option Json) :
    Fetching.resolveUri urls parse uri =
      .returns (parse (documentText fields)) := by
  obtain ⟨isUri, -⟩ := DataUri.toDataUri_ok made
  obtain ⟨inside, written⟩ := DataUri.stringify_object (fieldsOf fields)
  have inline : DataUri.startsWith uri "data:" = true := by
    rw [DataUri.startsWith, isUri, List.isPrefixOf_iff_prefix]
    exact (by decide : "data:".toList <+: DataUri.inlineHeader.toList).trans
      (List.prefix_append _ _)
  have some : uri ≠ "" := by
    rintro rfl
    exact absurd inline (by decide)
  rw [Fetching.resolveUri, if_neg some, if_pos inline,
    DataUri.parseDataUri_inline made parse written]
  rfl

theorem resolved_inline {urls : Urls} {parse : Text → Option Json}
    {trace : List (Exchange fetchHost)}
    {final : Option (Final fetchHost (Option Json))}
    (resolved : Program.Yields (Fetching.resolveUri urls parse uri) trace
      final) :
    trace = [] ∧ (final = none ∨
      final = some (.returned (parse (documentText fields)))) := by
  rw [resolveUri_inline made] at resolved
  cases resolved with
  | killed => exact ⟨rfl, .inl rfl⟩
  | returned => exact ⟨rfl, .inr rfl⟩

end

/-- What `toDataUri` makes is fit for an agent. -/
theorem inlineUri_eq (fields : List (String × Json)) :
    inlineUri fields = toDataUri (.object (fieldsOf fields)) := by
  unfold inlineUri
  cases made : toDataUri (.object (fieldsOf fields)) with
  | error message => rfl
  | ok uri =>
      dsimp only [bind, Except.bind]
      rw [DataUri.validateAgentUri_inline made]
      rfl

theorem registerUri_eq {form : AgentFormData} (named : form.name ≠ "") :
    registerUri form = inlineUri (metadataOf form) := by
  rw [registerUri, buildMetadataJson_ok form named]
  dsimp only [bind, Except.bind]

theorem registerUri_named {form : AgentFormData} {uri : String}
    (saved : registerUri form = .ok uri) : form.name ≠ "" := by
  intro empty
  have name : textField (.object (metadataOf form)) "name" = some "" := by
    rw [textField_eq_some, ← savedDocument_nil, saved_name, empty]
  have refused : validateMetadataJson (metadataOf form) =
      .error "Metadata must have a non-empty \"name\" string field" := by
    unfold validateMetadataJson
    dsimp only
    rw [textField_eq_some.mpr (metadataOf_type form), name,
      Option.getD_some, Option.getD_some, if_neg (by decide), if_pos rfl]
  unfold registerUri buildMetadataJson at saved
  rw [refused] at saved
  cases saved

theorem editUri_saved {form : AgentFormData} {existing : List (String × Json)}
    {uri : String} (saved : editUri form existing = .ok uri) :
    form.name ≠ "" ∧
      inlineUri (buildMetadataJsonForEdit form existing) = .ok uri := by
  unfold editUri at saved
  dsimp only at saved
  split_ifs at saved with fit
  rw [not_not] at fit
  refine ⟨?_, saved⟩
  intro empty
  have blank : trim form.name.toList = [] := by
    rw [empty]
    rfl
  unfold validationError at fit
  dsimp only at fit
  rw [if_pos blank] at fit
  exact absurd fit (by decide)

/-! ## What the page shows -/

/-- The form the edit page shows of a saved one, once the indexer has read its
document. -/
def shownForm (row : DecodedAgent) (form : AgentFormData) : AgentFormData :=
  initialFormData (load (row.resolved (.object (metadataOf form))))

theorem form_ext {first second : AgentFormData}
    (name : first.name = second.name)
    (description : first.description = second.description)
    (imageUrl : first.imageUrl = second.imageUrl)
    (services : first.services = second.services)
    (supportedTrust : first.supportedTrust = second.supportedTrust)
    (x402 : first.x402Enabled = second.x402Enabled)
    (mpp : first.mppEnabled = second.mppEnabled) : first = second := by
  cases first
  cases second
  simp_all

section

variable (row : DecodedAgent) (form : AgentFormData)

theorem shown_name (named : form.name ≠ "") :
    (shownForm row form).name = form.name := by
  have isName : readUriField (.object (metadataOf form)) "name" =
      some form.name := by
    apply readUriField_eq_some.mpr
    refine ⟨?_, named⟩
    rw [← savedDocument_nil]
    exact saved_name form []
  change (readUriField (.object (metadataOf form)) "name").getD _ = _
  rw [isName, Option.getD_some]

/-- A text that is left out where it is empty reads as an empty one. -/
theorem readUriField_written {json : Json} {field text : String}
    (written : json.get field =
      if text ≠ "" then some (.text text) else none) :
    (readUriField json field).getD "" = text := by
  split_ifs at written with full
  · rw [readUriField_eq_some.mpr ⟨written, full⟩, Option.getD_some]
  · unfold readUriField
    rw [written]
    exact (not_not.mp full).symm

theorem shown_description :
    (shownForm row form).description = form.description := by
  apply @readUriField_written (.object (metadataOf form))
  rw [← savedDocument_nil]
  exact saved_description form []

theorem shown_image : (shownForm row form).imageUrl = form.imageUrl := by
  apply @readUriField_written (.object (metadataOf form))
  rw [← savedDocument_nil]
  exact saved_image form []

theorem shown_services : (shownForm row form).services = form.services ↔
    ∀ entry ∈ form.services, entry.endpoint ≠ "" := by
  have isShown : (shownForm row form).services =
      normalizeServices (.array (extractServices (savedDocument form []))) := by
    rw [savedDocument_nil]
    rfl
  rw [isShown]
  constructor
  · intro same
    rw [← same]
    exact normalizeServices_full _
  · intro full
    rw [read_saved_services form [] full, savedEntries]
    split_ifs with some
    · rfl
    · rw [List.length_pos_iff, not_not] at some
      exact some.symm

/-- The kinds of trust the indexer stores are those with a name. -/
theorem trust_kept {items : List Json} :
    (items.filterMap fun item =>
        match item with
        | .text value => if value = "" then none else some value
        | _ => none).map Json.text = items ↔
      ∀ item ∈ items, ∃ text, item = .text text ∧ text ≠ "" := by
  constructor
  · intro same item member
    rw [← same] at member
    obtain ⟨text, kept, rfl⟩ := List.mem_map.mp member
    obtain ⟨source, -, isText⟩ := List.mem_filterMap.mp kept
    refine ⟨text, rfl, ?_⟩
    split at isText
    · split_ifs at isText with empty
      cases isText
      exact empty
    · cases isText
  · intro named
    induction items with
    | nil => rfl
    | cons item items induction =>
        obtain ⟨text, rfl, full⟩ := named item List.mem_cons_self
        have rest := induction fun other member =>
          named other (List.mem_cons_of_mem _ member)
        rw [List.filterMap_cons]
        dsimp only
        rw [if_neg full]
        dsimp only
        rw [List.map_cons, rest]

theorem shown_trust : (shownForm row form).supportedTrust =
    form.supportedTrust ↔
      ∀ value ∈ form.supportedTrust, ∃ text,
        value = .text text ∧ text ≠ "" := by
  have isShown : (shownForm row form).supportedTrust =
      (extractSupportedTrust (savedDocument form [])).map Json.text := by
    rw [savedDocument_nil]
    rfl
  have isSaved := saved_supportedTrust form []
  rw [isShown, ← trust_kept]
  unfold extractSupportedTrust
  rw [isSaved]
  split_ifs with some
  · rfl
  · rw [List.length_pos_iff, not_not] at some
    rw [some]
    rfl

theorem shown_x402 : (shownForm row form).x402Enabled = form.x402Enabled := by
  change extractX402 (.object (metadataOf form)) = _
  rw [← savedDocument_nil, extractX402, saved_x402]
  cases form.x402Enabled with
  | false => rfl
  | true => rfl

theorem shown_mpp : (shownForm row form).mppEnabled = form.mppEnabled := by
  change extractMpp (.object (metadataOf form)) = _
  rw [← savedDocument_nil, extractMpp, saved_mpp]
  cases form.mppEnabled with
  | false => rfl
  | true => rfl

theorem shownForm_eq_iff (named : form.name ≠ "") :
    shownForm row form = form ↔ Complete form := by
  constructor
  · intro same
    exact ⟨(shown_services row form).mp (congrArg AgentFormData.services same),
      (shown_trust row form).mp
        (congrArg AgentFormData.supportedTrust same)⟩
  · rintro ⟨services, trust⟩
    exact form_ext (shown_name row form named) (shown_description row form)
      (shown_image row form) ((shown_services row form).mpr services)
      ((shown_trust row form).mpr trust) (shown_x402 row form)
      (shown_mpp row form)

end

/-! ## Every save of a history -/

section

variable {urls : Urls} {parse : Text → Option Json} {history : History}

/-- The page saves over the document of a form, or over none. -/
theorem Opened.existing {row : DecodedAgent}
    (opened : Opened urls parse history row)
    (made : ∀ save ∈ history,
      toDataUri (.object (fieldsOf (metadataOf save.1))) = .ok save.2)
    (reads : ∀ save ∈ history, parse (documentText (metadataOf save.1)) =
      some (.object (metadataOf save.1))) :
    (load row).rawUriData = [] ∨
      ∃ form, (load row).rawUriData = metadataOf form := by
  rcases opened with unresolved |
    ⟨save, member, trace, document, resolved, isDocument⟩
  · left
    rw [load, unresolved]
    rfl
  · right
    obtain ⟨-, killed | returned⟩ :=
      resolved_inline (made save member) resolved
    · cases killed
    · rw [reads save member] at returned
      cases returned
      refine ⟨save.1, ?_⟩
      rw [load, isDocument]
      rfl

/-- Every save gives the URI of its form's own document. -/
theorem Saves.made (saves : Saves urls parse history)
    (reads : ∀ save ∈ history, parse (documentText (metadataOf save.1)) =
      some (.object (metadataOf save.1))) :
    ∀ save ∈ history, save.1.name ≠ "" ∧
      toDataUri (.object (fieldsOf (metadataOf save.1))) = .ok save.2 := by
  induction saves with
  | register saved =>
      intro save member
      rw [List.mem_singleton.mp member]
      have named := registerUri_named saved
      rw [registerUri_eq named, inlineUri_eq] at saved
      exact ⟨named, saved⟩
  | @edit history row form uri _ opened saved induction =>
      have readsOld : ∀ save ∈ history,
          parse (documentText (metadataOf save.1)) =
            some (.object (metadataOf save.1)) :=
        fun save old => reads save (List.mem_cons_of_mem _ old)
      have earlier := induction readsOld
      have existing := opened.existing (fun save old => (earlier save old).2)
        readsOld
      have isSaved := editUri_saved saved
      rw [inlineUri_eq] at isSaved
      have isFresh : buildMetadataJsonForEdit form (load row).rawUriData =
          metadataOf form := by
        rcases existing with none | ⟨other, isOther⟩
        · rw [none, build_over_nothing]
        · rw [isOther, build_over_form]
      rw [isFresh] at isSaved
      intro save member
      rcases List.mem_cons.mp member with isSave | old
      · rw [isSave]
        exact isSaved
      · exact earlier save old

end

/-- However often an agent is edited, over whichever of its documents the page
was opened, an edit leaves no trace: what is saved is what a new agent would
be registered with.  The indexer reads it without a fetch, and the page shows
the form again exactly where nothing in it is dropped. -/
theorem edits_leave_no_trace {urls : Urls} {parse : Text → Option Json}
    {history : History} (saves : Saves urls parse history)
    (reads : ∀ save ∈ history, parse (documentText (metadataOf save.1)) =
      some (.object (metadataOf save.1))) :
    ∀ save ∈ history, registerUri save.1 = .ok save.2 ∧
      (∀ trace final, Program.Yields
        (Fetching.resolveUri urls parse save.2) trace (some final) →
          trace = [] ∧
            final = .returned (some (.object (metadataOf save.1)))) ∧
      ∀ row, shownForm row save.1 = save.1 ↔ Complete save.1 := by
  intro save member
  obtain ⟨named, made⟩ := saves.made reads save member
  refine ⟨?_, ?_, ?_⟩
  · rw [registerUri_eq named, inlineUri_eq]
    exact made
  · intro trace final resolved
    obtain ⟨quiet, killed | returned⟩ := resolved_inline made resolved
    · cases killed
    · refine ⟨quiet, ?_⟩
      rw [Option.some.inj returned, reads save member]
  · exact fun row => shownForm_eq_iff row save.1 named

def namedForm (name : String) : AgentFormData :=
  { name, description := "", imageUrl := "", services := []
    supportedTrust := [], x402Enabled := false, mppEnabled := false }

def firstUri : String :=
  "data:application/json;base64,eyJ0eXBlIjoiaHR0cHM6Ly9laXBzLmV0aGVyZXVtLm9y" ++
    "Zy9FSVBTL2VpcC04MDA0I3JlZ2lzdHJhdGlvbi12MSIsIm5hbWUiOiJBIn0="

def secondUri : String :=
  "data:application/json;base64,eyJ0eXBlIjoiaHR0cHM6Ly9laXBzLmV0aGVyZXVtLm9y" ++
    "Zy9FSVBTL2VpcC04MDA0I3JlZ2lzdHJhdGlvbi12MSIsIm5hbWUiOiJCIn0="

/-- An agent that is registered under one name and renamed. -/
def renamedHistory : History :=
  [(namedForm "B", secondUri), (namedForm "A", firstUri)]

/-- `JSON.parse` of the two documents. -/
def readNamed (text : Text) : Option Json :=
  (["A", "B"].find? fun name =>
    text = documentText (metadataOf (namedForm name))).map fun name =>
      .object (metadataOf (namedForm name))

def noUrls : Urls :=
  { parse := fun _ => none, parseAt := fun _ _ => none }

/-- The row on which the page is opened to rename the agent. -/
def namedRow : DecodedAgent :=
  { id := 1, owner := "G", wallet := none, agentUri := none
    agentUriData := some (.object (metadataOf (namedForm "A")))
    supportedTrust := .array [], services := .array [], x402Enabled := false
    mppEnabled := false, createdAt := "", createdLedger := 1, txHash := "" }

theorem readNamed_first :
    readNamed (documentText (metadataOf (namedForm "A"))) =
      some (.object (metadataOf (namedForm "A"))) := by
  simp [readNamed]

theorem readNamed_reads : ∀ save ∈ renamedHistory,
    readNamed (documentText (metadataOf save.1)) =
      some (.object (metadataOf save.1)) := by
  have others : documentText (metadataOf (namedForm "B")) ≠
      documentText (metadataOf (namedForm "A")) := by
    decide +kernel
  intro save member
  simp only [renamedHistory, List.mem_cons, List.not_mem_nil, or_false]
    at member
  rcases member with rfl | rfl
  · simp [readNamed, others]
  · exact readNamed_first

theorem renamedHistory_saves : Saves noUrls readNamed renamedHistory := by
  have made : toDataUri (.object (fieldsOf (metadataOf (namedForm "A")))) =
      .ok firstUri := by
    decide +kernel
  apply @Saves.edit _ _ _ namedRow
  · apply Saves.register
    decide +kernel
  · right
    refine ⟨_, List.mem_singleton_self _, [], _, ?_, rfl⟩
    rw [resolveUri_inline made, readNamed_first]
    exact .returned _
  · decide +kernel

theorem edits_leave_no_trace_renamed :
    Saves noUrls readNamed renamedHistory ∧
      ∀ save ∈ renamedHistory, registerUri save.1 = .ok save.2 ∧
        (∀ trace final, Program.Yields
          (Fetching.resolveUri noUrls readNamed save.2) trace (some final) →
            trace = [] ∧
              final = .returned (some (.object (metadataOf save.1)))) ∧
        ∀ row, shownForm row save.1 = save.1 ↔ Complete save.1 :=
  ⟨renamedHistory_saves,
    edits_leave_no_trace renamedHistory_saves readNamed_reads⟩

end Stellar8004.Web.RegisterForm
