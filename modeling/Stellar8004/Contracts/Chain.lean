import Stellar8004.Contracts.Runs
import Stellar8004.Indexer.Histories
import Stellar8004.Indexer.ParsedEvents

/-!
# The three contracts together

A chain runs the three registries side by side; the reputation and validation
registries ask the identity registry as it stands.  The packets the indexer
makes of a chain's events are well formed: agents are registered no later than
they are named, feedback is given before it is revoked or answered, and
validation is requested before it is answered.
-/

namespace Stellar8004.Contracts

open Stellar8004.Indexer

inductive ContractEvent where
  | identity (event : IdentityEvent)
  | reputation (event : ReputationEvent)
  | validation (event : ValidationEvent)
  deriving DecidableEq

def ContractEvent.contract : ContractEvent → ContractName
  | identity _ => .identity
  | reputation _ => .reputation
  | validation _ => .validation

def ContractEvent.publish : ContractEvent → Emission
  | identity event => event.publish
  | reputation event => event.publish
  | validation event => event.publish

inductive ContractCall where
  | identity (request : IdentityCall)
  | reputation (request : ReputationCall)
  | validation (request : ValidationCall)
  deriving DecidableEq

structure Chain where
  identity : IdentityState
  reputation : ReputationState
  validation : ValidationState

namespace Chain

def initial : Chain :=
  { identity := .initial, reputation := .initial, validation := .initial }

/-- A call at a ledger; `none` when it fails. -/
def call (chain : Chain) (approvals : Approvals) (ledger : Nat) :
    ContractCall → Option (Chain × List ContractEvent)
  | .identity request =>
      match chain.identity.call approvals request with
      | .error _ => none
      | .ok (after, events) =>
          some ({ chain with identity := after }, events.map .identity)
  | .reputation request =>
      let answers : IdentityAnswers :=
        { agentExists := chain.identity.agentExists
          isAuthorizedOrOwner := chain.identity.isAuthorizedOrOwner
            approvals }
      match chain.reputation.call answers request with
      | .error _ => none
      | .ok (after, events) =>
          some ({ chain with reputation := after }, events.map .reputation)
  | .validation request =>
      let answers : OwnerAnswers :=
        { findOwner := chain.identity.findOwner
          getApproved := approvals.getApproved
          isApprovedForAll := approvals.isApprovedForAll }
      match chain.validation.call answers ledger request with
      | .error _ => none
      | .ok (after, events) =>
          some ({ chain with validation := after }, events.map .validation)

/-- One successful call, under any approvals. -/
def Step (chain : Chain) (ledger : Nat) (after : Chain)
    (events : List ContractEvent) : Prop :=
  ∃ approvals request, chain.call approvals ledger request =
    some (after, events)

/-- The packets the indexer makes of a chain's events. -/
def packets (log : List (ContractEvent × Stamp)) : List EventPacket :=
  packetsOf ContractEvent.contract ContractEvent.publish log

/-- What one step does, by the contract that takes it. -/
theorem Step.performs {chain after : Chain} {ledger : Nat}
    {events : List ContractEvent} (step : chain.Step ledger after events) :
    (∃ identity published,
      chain.identity.Performs identity published ∧
        after = { chain with identity } ∧
        events = published.map .identity) ∨
    (∃ reputation published,
      chain.reputation.Performs chain.identity.agentExists reputation
        published ∧
        after = { chain with reputation } ∧
        events = published.map .reputation) ∨
    ∃ validation published,
      chain.validation.Performs chain.identity.findOwner ledger validation
        published ∧
        after = { chain with validation } ∧
        events = published.map .validation := by
  obtain ⟨approvals, request, success⟩ := step
  cases request with
  | identity request =>
      simp only [call] at success
      split at success
      · cases success
      · rename_i state published result
        cases success
        exact .inl ⟨state, published, IdentityState.call_performs result, rfl,
          rfl⟩
  | reputation request =>
      simp only [call] at success
      split at success
      · cases success
      · rename_i state published result
        cases success
        exact .inr (.inl ⟨state, published,
          ReputationState.call_performs result, rfl, rfl⟩)
  | validation request =>
      simp only [call] at success
      split at success
      · cases success
      · rename_i state published result
        cases success
        exact .inr (.inr ⟨state, published,
          ValidationState.call_performs result, rfl, rfl⟩)

end Chain

/-! ## What is named -/

/-- The agent an identity event is about. -/
def IdentityEvent.agentId? : IdentityEvent → Option Nat
  | registered agentId _ _ => some agentId
  | uriUpdated agentId _ _ => some agentId
  | metadataSet agentId _ _ => some agentId
  | mint _ _ => none
  | transfer _ _ tokenId => some tokenId

namespace ContractEvent

/-- The agent whose registration an event relies on. -/
def agentId? : ContractEvent → Option Nat
  | identity event => event.agentId?
  | reputation (.newFeedback agentId _ _ _ _ _ _ _ _ _) => some agentId
  | validation (.validationRequest _ agentId _ _) => some agentId
  | _ => none

/-- The agent an identity event is about, of all contracts' events. -/
def identityAgent? : ContractEvent → Option Nat
  | identity event => event.agentId?
  | _ => none

/-- The agent an event registers. -/
def registers? : ContractEvent → Option Nat
  | identity (.registered agentId _ _) => some agentId
  | _ => none

/-- The feedback an event is about. -/
def feedback? : ContractEvent → Option (Nat × Address × Nat)
  | reputation (.newFeedback agentId client index _ _ _ _ _ _ _) =>
      some (agentId, client, index)
  | reputation (.feedbackRevoked agentId client index) =>
      some (agentId, client, index)
  | reputation (.responseAppended agentId client _ index _ _) =>
      some (agentId, client, index)
  | _ => none

def gives : ContractEvent → Bool
  | reputation (.newFeedback ..) => true
  | _ => false

/-- The validation request an event is about. -/
def request? : ContractEvent → Option (Vector UInt8 32)
  | validation (.validationRequest _ _ requestHash _) => some requestHash
  | validation (.validationResponse _ _ requestHash _ _ _ _) =>
      some requestHash
  | _ => none

def requests : ContractEvent → Bool
  | validation (.validationRequest ..) => true
  | _ => false

/-- The bounds of an event's fields. -/
def Bounded : ContractEvent → Prop
  | identity event => ∀ agent, event.agentId? = some agent → agent < 2 ^ 32
  | reputation (.newFeedback agentId _ index _ valueDecimals _ _ _ _ _) =>
      agentId < 2 ^ 32 ∧ 1 ≤ index ∧ valueDecimals ≤ 18
  | reputation (.feedbackRevoked agentId _ index) =>
      agentId < 2 ^ 32 ∧ 1 ≤ index
  | reputation (.responseAppended agentId _ _ index _ _) =>
      agentId < 2 ^ 32 ∧ 1 ≤ index
  | validation (.validationRequest _ agentId _ _) => agentId < 2 ^ 32
  | validation (.validationResponse _ agentId _ response _ _ _) =>
      agentId < 2 ^ 32 ∧ response ≤ 100

end ContractEvent

theorem ContractEvent.identityAgent?_of_registers {event : ContractEvent}
    {agent : Nat} (registers : event.registers? = some agent) :
    event.identityAgent? = some agent := by
  match event, registers with
  | .identity (.registered _ _ _), registers => exact registers

theorem ContractEvent.agentId?_of_identityAgent {event : ContractEvent}
    {agent : Nat} (about : event.identityAgent? = some agent) :
    event.agentId? = some agent := by
  cases event with
  | identity event => exact about
  | _ => cases about

/-! ## Identity calls -/

namespace IdentityState

theorem setMetadata_keeps (state : IdentityState) (agentId : Nat)
    (key value : Bytes) :
    (state.setMetadata agentId key value).owner = state.owner ∧
      (state.setMetadata agentId key value).nextTokenId =
        state.nextTokenId := by
  simp only [setMetadata, recordMetadataKey]
  split <;> exact ⟨rfl, rfl⟩

theorem setEntries_keeps (state : IdentityState) (agentId : Nat)
    (entries : List MetadataEntry) :
    (state.setEntries agentId entries).owner = state.owner ∧
      (state.setEntries agentId entries).nextTokenId =
        state.nextTokenId := by
  unfold setEntries
  induction entries generalizing state with
  | nil => exact ⟨rfl, rfl⟩
  | cons entry entries induction =>
      have first := state.setMetadata_keeps agentId entry.key entry.value
      have rest := induction
        (state.setMetadata agentId entry.key entry.value)
      exact ⟨rest.1.trans first.1, rest.2.trans first.2⟩

theorem registered_keeps (state : IdentityState) (caller : Address)
    (agentUri : Option Bytes) (entries : List MetadataEntry) :
    (state.registered caller agentUri entries).owner =
        Function.update state.owner state.nextTokenId (some caller) ∧
      (state.registered caller agentUri entries).nextTokenId =
        state.nextTokenId + 1 := by
  unfold registered
  refine ⟨(setEntries_keeps _ _ _).1.trans ?_,
    (setEntries_keeps _ _ _).2.trans ?_⟩ <;>
  · cases agentUri <;> rfl

/-- A call is about one agent: the one it registers, or one that is there. -/
theorem Performs.about {state after : IdentityState}
    {events : List IdentityEvent} (performs : state.Performs after events) :
    ∃ agent, agent < 2 ^ 32 ∧
      (∀ event ∈ events, ∀ other, event.agentId? = some other →
        other = agent) ∧
      ((agent = state.nextTokenId ∧ after.nextTokenId = agent + 1 ∧
          (∃ event ∈ events,
            (ContractEvent.identity event).registers? = some agent) ∧
          ∀ other, (after.owner other).isSome = true →
            other = agent ∨ (state.owner other).isSome = true) ∨
        ((state.owner agent).isSome = true ∧
          after.nextTokenId = state.nextTokenId ∧
          (∀ event ∈ events,
            (ContractEvent.identity event).registers? = none) ∧
          ∀ other, (after.owner other).isSome = true →
            (state.owner other).isSome = true)) := by
  cases performs with
  | register caller agentUri entries room ordinary =>
      have keeps := state.registered_keeps caller agentUri entries
      refine ⟨state.nextTokenId, by omega, ?_, .inl ⟨rfl, keeps.2, ?_, ?_⟩⟩
      · intro event member other about
        simp only [List.mem_append, List.mem_cons, List.mem_map,
          List.not_mem_nil, or_false] at member
        rcases member with ((rfl | rfl) | ⟨entry, _, rfl⟩) | rfl
        · cases about
        all_goals exact (Option.some.inj about).symm
      · exact ⟨_, List.mem_append_right _ List.mem_cons_self, rfl⟩
      · intro other present
        by_cases same : other = state.nextTokenId
        · exact .inl same
        · rw [keeps.1, Function.update_of_ne same] at present
          exact .inr present
  | setAgentUri agentId caller newUri living =>
      refine ⟨agentId.toNat, agentId.toNat_lt, ?_, .inr ⟨living, rfl, ?_,
        fun _ present => present⟩⟩
      · simp [IdentityEvent.agentId?]
      · simp [ContractEvent.registers?]
  | setMetadata agentId key value living ordinary =>
      have keeps := state.setMetadata_keeps agentId.toNat key value
      refine ⟨agentId.toNat, agentId.toNat_lt, ?_, .inr ⟨living, keeps.2, ?_,
        ?_⟩⟩
      · simp [IdentityEvent.agentId?]
      · simp [ContractEvent.registers?]
      · rw [keeps.1]
        exact fun _ present => present
  | setAgentWallet agentId newWallet living =>
      refine ⟨agentId.toNat, agentId.toNat_lt, ?_, .inr ⟨living, rfl, ?_,
        fun _ present => present⟩⟩
      · simp [IdentityEvent.agentId?]
      · simp [ContractEvent.registers?]
  | unsetAgentWallet agentId living =>
      refine ⟨agentId.toNat, agentId.toNat_lt, ?_, .inr ⟨living, rfl, ?_,
        fun _ present => present⟩⟩
      · simp [IdentityEvent.agentId?]
      · simp [ContractEvent.registers?]
  | transfer «from» «to» tokenId living =>
      refine ⟨tokenId.toNat, tokenId.toNat_lt, ?_, .inr ⟨living, rfl, ?_, ?_⟩⟩
      · simp [IdentityEvent.agentId?]
      · simp [ContractEvent.registers?]
      · intro other present
        by_cases same : other = tokenId.toNat
        · rw [same]
          exact living
        · simpa [transferred, clearAllMetadata, removeAgentWallet,
            Function.update_of_ne same] using present

end IdentityState

/-! ## What a log records -/

/-- The entries one call adds to a log. -/
structure Appended (log : List (ContractEvent × Stamp)) (ledger : Nat)
    (events : List ContractEvent) (added : List (ContractEvent × Stamp)) :
    Prop where
  published : ∀ entry ∈ added, entry.1 ∈ events ∧ entry.2.ledger = ledger
  whole : ∀ event ∈ events, ∃ entry ∈ added, entry.1 = event
  later : ∀ entry ∈ log, entry.2.ledger ≤ ledger

theorem Appended.of_stamped {log : List (ContractEvent × Stamp)}
    {ledger : Nat} {events : List ContractEvent} {stamps : List Stamp}
    (length : stamps.length = events.length)
    (stamped : Stamped (log.map Prod.snd) ledger stamps) :
    Appended log ledger events (events.zip stamps) where
  published entry member :=
    ⟨(List.of_mem_zip member).1,
      stamped.ledgers entry.2 (List.of_mem_zip member).2⟩
  whole event member := by
    have zipped : (events.zip stamps).map Prod.fst = events :=
      List.map_fst_zip (by omega)
    rw [← zipped] at member
    exact List.mem_map.mp member
  later entry member := stamped.later entry.2 (List.mem_map_of_mem member)

/-- Every agent that is owned or named has been registered. -/
structure Registered (state : IdentityState)
    (log : List (ContractEvent × Stamp)) : Prop where
  owned : ∀ agent, (state.owner agent).isSome = true →
    agent < state.nextTokenId ∧
      ∃ creator ∈ log, creator.1.registers? = some agent
  minted : ∀ entry ∈ log, ∀ agent, entry.1.identityAgent? = some agent →
    agent < state.nextTokenId
  named : ∀ entry ∈ log, ∀ agent, entry.1.agentId? = some agent →
    ∃ creator ∈ log, creator.1.registers? = some agent ∧
      creator.2.ledger ≤ entry.2.ledger
  earliest : ∀ creator ∈ log, ∀ entry ∈ log, ∀ agent,
    creator.1.registers? = some agent →
    entry.1.identityAgent? = some agent →
    creator.2.ledger ≤ entry.2.ledger

/-- Feedback in storage has been given, and feedback is given before it is
revoked or answered. -/
structure Given (state : ReputationState)
    (log : List (ContractEvent × Stamp)) : Prop where
  stored : ∀ agentId client index,
    (state.feedback agentId client index).isSome = true → 1 ≤ index ∧
      ∃ giver ∈ log, giver.1.gives = true ∧
        giver.1.feedback? = some (agentId, client, index)
  given : ∀ before entry after, log = before ++ entry :: after →
    ∀ key, entry.1.feedback? = some key →
    entry.1.gives = true ∨ ∃ giver ∈ before, giver.1.gives = true ∧
      giver.1.feedback? = some key

/-- Validation in storage has been requested, and it is requested before it
is answered. -/
structure Requested (state : ValidationState)
    (log : List (ContractEvent × Stamp)) : Prop where
  stored : ∀ requestHash status,
    state.validation requestHash = some status → status.agentId < 2 ^ 32 ∧
      ∃ requester ∈ log, requester.1.requests = true ∧
        requester.1.request? = some requestHash
  requested : ∀ before entry after, log = before ++ entry :: after →
    ∀ requestHash, entry.1.request? = some requestHash →
    entry.1.requests = true ∨ ∃ requester ∈ before,
      requester.1.requests = true ∧
        requester.1.request? = some requestHash

structure Recorded (chain : Chain) (log : List (ContractEvent × Stamp)) :
    Prop where
  bounded : ∀ entry ∈ log, entry.1.Bounded
  registered : Registered chain.identity log
  given : Given chain.reputation log
  requested : Requested chain.validation log

section

variable {log added : List (ContractEvent × Stamp)} {ledger : Nat}

theorem Registered.identity {state after : IdentityState}
    {events : List IdentityEvent} (registered : Registered state log)
    (performs : state.Performs after events)
    (appended : Appended log ledger (events.map .identity) added) :
    Registered after (log ++ added) := by
  obtain ⟨agent, _, about, effect⟩ := performs.about
  have fresh : ∀ entry ∈ added, ∃ event ∈ events,
      entry.1 = .identity event ∧ entry.2.ledger = ledger := by
    intro entry member
    obtain ⟨inside, here⟩ := appended.published entry member
    obtain ⟨event, isEvent, same⟩ := List.mem_map.mp inside
    exact ⟨event, isEvent, same.symm, here⟩
  have mine : ∀ entry ∈ added, ∀ other, entry.1.identityAgent? = some other →
      other = agent := by
    intro entry member other touches
    obtain ⟨event, isEvent, same, _⟩ := fresh entry member
    rw [same] at touches
    exact about event isEvent other touches
  have here : ∀ entry ∈ added, entry.2.ledger = ledger := by
    intro entry member
    exact (appended.published entry member).2
  -- A registration in the call makes its agent new to the log.
  have unseen : ∀ creator ∈ added, ∀ other,
      creator.1.registers? = some other →
      other = state.nextTokenId := by
    intro creator member other registers
    have isMine := mine creator member other
      (ContractEvent.identityAgent?_of_registers registers)
    rcases effect with ⟨isNext, _⟩ | ⟨_, _, silent, _⟩
    · exact isMine.trans isNext
    · obtain ⟨event, isEvent, same, _⟩ := fresh creator member
      rw [same, silent event isEvent] at registers
      cases registers
  have creator : ∃ creator ∈ log ++ added,
      creator.1.registers? = some agent ∧ creator.2.ledger ≤ ledger := by
    rcases effect with ⟨_, _, ⟨event, isEvent, registers⟩, _⟩ |
        ⟨living, _⟩
    · obtain ⟨entry, member, same⟩ := appended.whole (.identity event)
        (List.mem_map_of_mem isEvent)
      refine ⟨entry, List.mem_append_right _ member, ?_,
        Nat.le_of_eq (here entry member)⟩
      rw [same]
      exact registers
    · obtain ⟨_, creator, member, registers⟩ := registered.owned agent living
      exact ⟨creator, List.mem_append_left _ member, registers,
        appended.later creator member⟩
  have grows : state.nextTokenId ≤ after.nextTokenId ∧
      agent < after.nextTokenId := by
    rcases effect with ⟨isNext, next, _⟩ | ⟨living, next, _⟩
    · omega
    · have below := (registered.owned agent living).1
      omega
  refine ⟨?_, ?_, ?_, ?_⟩
  · intro other present
    have known : other = agent ∨ (state.owner other).isSome = true := by
      rcases effect with ⟨_, _, _, owners⟩ | ⟨_, _, _, owners⟩
      · exact owners other present
      · exact .inr (owners other present)
    rcases known with rfl | old
    · obtain ⟨creator, member, registers, _⟩ := creator
      exact ⟨grows.2, creator, member, registers⟩
    · obtain ⟨below, creator, member, registers⟩ := registered.owned other old
      exact ⟨by omega, creator, List.mem_append_left _ member, registers⟩
  · intro entry member other touches
    rcases List.mem_append.mp member with old | new
    · have below := registered.minted entry old other touches
      omega
    · rw [mine entry new other touches]
      exact grows.2
  · intro entry member other touches
    rcases List.mem_append.mp member with old | new
    · obtain ⟨creator, isCreator, registers, earlier⟩ :=
        registered.named entry old other touches
      exact ⟨creator, List.mem_append_left _ isCreator, registers, earlier⟩
    · obtain ⟨event, isEvent, same, ledger⟩ := fresh entry new
      rw [same] at touches
      rw [about event isEvent other touches, ledger]
      exact creator
  · intro creator first entry second other registers touches
    rcases List.mem_append.mp first with oldCreator | newCreator
    · rcases List.mem_append.mp second with old | new
      · exact registered.earliest creator oldCreator entry old other registers
          touches
      · rw [here entry new]
        exact appended.later creator oldCreator
    · rcases List.mem_append.mp second with old | new
      · have below := registered.minted entry old other touches
        have isNext := unseen creator newCreator other registers
        omega
      · rw [here entry new, here creator newCreator]

/-- Calls of the other contracts name owned agents only. -/
theorem Registered.dependent {state : IdentityState}
    {events : List ContractEvent} (registered : Registered state log)
    (appended : Appended log ledger events added)
    (dependent : ∀ event ∈ events, event.identityAgent? = none ∧
      event.registers? = none ∧
      ∀ agent, event.agentId? = some agent →
        (state.owner agent).isSome = true) :
    Registered state (log ++ added) := by
  have quiet : ∀ entry ∈ added, entry.1.identityAgent? = none ∧
      entry.1.registers? = none := by
    intro entry member
    obtain ⟨noAgent, silent, _⟩ :=
      dependent entry.1 (appended.published entry member).1
    exact ⟨noAgent, silent⟩
  refine ⟨?_, ?_, ?_, ?_⟩
  · intro agent present
    obtain ⟨below, creator, member, registers⟩ :=
      registered.owned agent present
    exact ⟨below, creator, List.mem_append_left _ member, registers⟩
  · intro entry member agent touches
    rcases List.mem_append.mp member with old | new
    · exact registered.minted entry old agent touches
    · rw [(quiet entry new).1] at touches
      cases touches
  · intro entry member agent touches
    rcases List.mem_append.mp member with old | new
    · obtain ⟨creator, isCreator, registers, earlier⟩ :=
        registered.named entry old agent touches
      exact ⟨creator, List.mem_append_left _ isCreator, registers, earlier⟩
    · obtain ⟨inside, here⟩ := appended.published entry new
      have living := (dependent entry.1 inside).2.2 agent touches
      obtain ⟨_, creator, isCreator, registers⟩ :=
        registered.owned agent living
      rw [here]
      exact ⟨creator, List.mem_append_left _ isCreator, registers,
        appended.later creator isCreator⟩
  · intro creator first entry second agent registers touches
    rcases List.mem_append.mp first with oldCreator | newCreator
    · rcases List.mem_append.mp second with old | new
      · exact registered.earliest creator oldCreator entry old agent registers
          touches
      · rw [(quiet entry new).1] at touches
        cases touches
    · rw [(quiet creator newCreator).2] at registers
      cases registers

/-- A fact about each entry and what stands before it, one call further. -/
private theorem splits_append {holds : List (ContractEvent × Stamp) →
      ContractEvent × Stamp → Prop}
    (old : ∀ before entry after, log = before ++ entry :: after →
      holds before entry)
    (new : ∀ before, ∀ entry ∈ added, holds (log ++ before) entry) :
    ∀ before entry after, log ++ added = before ++ entry :: after →
      holds before entry := by
  intro before entry after split
  rcases List.append_eq_append_iff.mp split with
    ⟨front, rfl, isAdded⟩ | ⟨back, rfl, isAfter⟩
  · refine new front entry ?_
    rw [isAdded]
    exact List.mem_append_right _ List.mem_cons_self
  · cases back with
    | nil =>
        have member : entry ∈ added := by
          rw [← List.nil_append added, ← isAfter]
          exact List.mem_cons_self
        simpa using new [] entry member
    | cons first back =>
        cases isAfter
        exact old before entry back rfl

theorem Given.silent {state : ReputationState} {events : List ContractEvent}
    (given : Given state log) (appended : Appended log ledger events added)
    (silent : ∀ event ∈ events, event.feedback? = none) :
    Given state (log ++ added) := by
  refine ⟨?_, splits_append given.given ?_⟩
  · intro agentId client index present
    obtain ⟨positive, giver, member, gives⟩ :=
      given.stored agentId client index present
    exact ⟨positive, giver, List.mem_append_left _ member, gives⟩
  · intro before entry member key about
    rw [silent entry.1 (appended.published entry member).1] at about
    cases about

/-- A call about one feedback entry, given by it or in storage before. -/
private theorem Given.touched {state after : ReputationState}
    {event : ContractEvent} {agentId : Nat} {client : Address} {index : Nat}
    (given : Given state log) (appended : Appended log ledger [event] added)
    (about : event.feedback? = some (agentId, client, index))
    (known : event.gives = true ∧ 1 ≤ index ∨
      (state.feedback agentId client index).isSome = true)
    (stored : ∀ otherAgent otherClient otherIndex,
      (after.feedback otherAgent otherClient otherIndex).isSome = true →
      (otherAgent, otherClient, otherIndex) = (agentId, client, index) ∨
        (state.feedback otherAgent otherClient otherIndex).isSome = true) :
    Given after (log ++ added) := by
  have fresh : ∀ entry ∈ added, entry.1 = event := by
    intro entry member
    exact List.mem_singleton.mp (appended.published entry member).1
  have giver : event.gives = true ∨ ∃ giver ∈ log, giver.1.gives = true ∧
      giver.1.feedback? = some (agentId, client, index) := by
    rcases known with ⟨gives, _⟩ | present
    · exact .inl gives
    · exact .inr (given.stored agentId client index present).2
  refine ⟨?_, splits_append given.given ?_⟩
  · intro otherAgent otherClient otherIndex present
    have old : ∀ {agentId client index},
        (state.feedback agentId client index).isSome = true → 1 ≤ index ∧
          ∃ giver ∈ log ++ added, giver.1.gives = true ∧
            giver.1.feedback? = some (agentId, client, index) := by
      intro agentId client index present
      obtain ⟨positive, giver, member, gives⟩ :=
        given.stored agentId client index present
      exact ⟨positive, giver, List.mem_append_left _ member, gives⟩
    rcases stored otherAgent otherClient otherIndex present with
      same | before
    · cases same
      rcases known with ⟨gives, positive⟩ | present
      · obtain ⟨entry, member, same⟩ :=
          appended.whole event List.mem_cons_self
        refine ⟨positive, entry, List.mem_append_right _ member, ?_⟩
        rw [same]
        exact ⟨gives, about⟩
      · exact old present
    · exact old before
  · intro before entry member key touches
    rw [fresh entry member] at touches ⊢
    rw [about] at touches
    cases touches
    rcases giver with gives | ⟨giver, isGiver, gives⟩
    · exact .inl gives
    · exact .inr ⟨giver, List.mem_append_left _ isGiver, gives⟩

private theorem setFeedback_isSome {state : ReputationState} {agentId : Nat}
    {client : Address} {index : Nat} {data : FeedbackData}
    {otherAgent : Nat} {otherClient : Address} {otherIndex : Nat}
    (present : ((state.setFeedback agentId client index data).feedback
      otherAgent otherClient otherIndex).isSome = true) :
    (otherAgent, otherClient, otherIndex) = (agentId, client, index) ∨
      (state.feedback otherAgent otherClient otherIndex).isSome = true := by
  by_cases sameAgent : otherAgent = agentId
  · subst sameAgent
    by_cases sameClient : otherClient = client
    · subst sameClient
      by_cases sameIndex : otherIndex = index
      · exact .inl (by rw [sameIndex])
      · right
        simpa [ReputationState.setFeedback, Function.update_of_ne sameIndex]
          using present
    · right
      simpa [ReputationState.setFeedback, Function.update_of_ne sameClient]
        using present
  · right
    simpa [ReputationState.setFeedback, Function.update_of_ne sameAgent]
      using present

theorem Given.reputation {state after : ReputationState}
    {agentExists : Nat → Bool} {events : List ReputationEvent}
    (given : Given state log)
    (performs : state.Performs agentExists after events)
    (appended : Appended log ledger (events.map .reputation) added) :
    Given after (log ++ added) := by
  cases performs with
  | giveFeedback counted caller agentId value valueDecimals tag1 tag2 endpoint
      feedbackUri feedbackHash scale living sameFeedback sameIndex
      sameResponses =>
      refine given.touched appended rfl (.inl ⟨rfl, by omega⟩) ?_
      intro otherAgent otherClient otherIndex present
      have written := setFeedback_isSome present
      rw [ReputationState.setLastIndex, sameFeedback] at written
      exact written
  | revokeFeedback caller agentId feedbackIndex data found standing =>
      refine given.touched appended rfl (.inr (by rw [found]; rfl)) ?_
      intro otherAgent otherClient otherIndex present
      exact setFeedback_isSome present
  | appendResponse caller agentId clientAddress feedbackIndex responseUri
      responseHash data found =>
      refine given.touched appended rfl (.inr (by rw [found]; rfl)) ?_
      intro otherAgent otherClient otherIndex present
      exact .inr present

theorem Requested.silent {state : ValidationState}
    {events : List ContractEvent} (requested : Requested state log)
    (appended : Appended log ledger events added)
    (silent : ∀ event ∈ events, event.request? = none) :
    Requested state (log ++ added) := by
  refine ⟨?_, splits_append requested.requested ?_⟩
  · intro requestHash status found
    obtain ⟨small, requester, member, requests⟩ :=
      requested.stored requestHash status found
    exact ⟨small, requester, List.mem_append_left _ member, requests⟩
  · intro before entry member requestHash about
    rw [silent entry.1 (appended.published entry member).1] at about
    cases about

theorem Requested.validation {state after : ValidationState}
    {findOwner : Nat → Option Address} {sequence : Nat}
    {events : List ValidationEvent} (requested : Requested state log)
    (performs : state.Performs findOwner sequence after events)
    (appended : Appended log ledger (events.map .validation) added) :
    Requested after (log ++ added) := by
  have old : ∀ {requestHash status},
      state.validation requestHash = some status → status.agentId < 2 ^ 32 ∧
        ∃ requester ∈ log ++ added, requester.1.requests = true ∧
          requester.1.request? = some requestHash := by
    intro requestHash status found
    obtain ⟨small, requester, member, requests⟩ :=
      requested.stored requestHash status found
    exact ⟨small, requester, List.mem_append_left _ member, requests⟩
  cases performs with
  | validationRequest after validatorAddress agentId requestUri requestHash
      living fresh stored =>
      obtain ⟨entry, member, isRequest⟩ := appended.whole _ List.mem_cons_self
      refine ⟨?_, splits_append requested.requested ?_⟩
      · intro other status found
        by_cases same : other = requestHash
        · subst same
          rw [stored, Function.update_self] at found
          cases found
          refine ⟨agentId.toNat_lt, entry, List.mem_append_right _ member, ?_⟩
          rw [isRequest]
          exact ⟨rfl, rfl⟩
        · rw [stored, Function.update_of_ne same] at found
          exact old found
      · intro before entry member other about
        rw [List.mem_singleton.mp (appended.published entry member).1]
        exact .inl rfl
  | validationResponse status requestHash response responseUri responseHash
      tag small found =>
      refine ⟨?_, splits_append requested.requested ?_⟩
      · intro other otherStatus otherFound
        by_cases same : other = requestHash
        · subst same
          simp only [ValidationState.setValidation, Function.update_self]
            at otherFound
          cases otherFound
          have known := old found
          exact ⟨known.1, known.2⟩
        · simp only [ValidationState.setValidation,
            Function.update_of_ne same] at otherFound
          exact old otherFound
      · intro before entry member other about
        rw [List.mem_singleton.mp (appended.published entry member).1]
          at about
        cases about
        obtain ⟨requester, isRequester, requests⟩ :=
          (requested.stored requestHash status found).2
        exact .inr ⟨requester, List.mem_append_left _ isRequester, requests⟩

end

/-! ## Every run is recorded -/

theorem bounded_reputation {state after : ReputationState}
    {agentExists : Nat → Bool} {events : List ReputationEvent}
    {log : List (ContractEvent × Stamp)} (given : Given state log)
    (performs : state.Performs agentExists after events) :
    ∀ event ∈ events, (ContractEvent.reputation event).Bounded := by
  intro event member
  cases performs with
  | giveFeedback counted caller agentId value valueDecimals tag1 tag2 endpoint
      feedbackUri feedbackHash scale living sameFeedback sameIndex
      sameResponses =>
      rw [List.mem_singleton.mp member]
      exact ⟨agentId.toNat_lt, by omega, scale⟩
  | revokeFeedback caller agentId feedbackIndex data found standing =>
      rw [List.mem_singleton.mp member]
      exact ⟨agentId.toNat_lt,
        (given.stored _ _ _ (by rw [found]; rfl)).1⟩
  | appendResponse caller agentId clientAddress feedbackIndex responseUri
      responseHash data found =>
      rw [List.mem_singleton.mp member]
      exact ⟨agentId.toNat_lt,
        (given.stored _ _ _ (by rw [found]; rfl)).1⟩

theorem bounded_validation {state after : ValidationState}
    {findOwner : Nat → Option Address} {sequence : Nat}
    {events : List ValidationEvent} {log : List (ContractEvent × Stamp)}
    (requested : Requested state log)
    (performs : state.Performs findOwner sequence after events) :
    ∀ event ∈ events, (ContractEvent.validation event).Bounded := by
  intro event member
  cases performs with
  | validationRequest after validatorAddress agentId requestUri requestHash
      living fresh stored =>
      rw [List.mem_singleton.mp member]
      exact agentId.toNat_lt
  | validationResponse status requestHash response responseUri responseHash
      tag small found =>
      rw [List.mem_singleton.mp member]
      exact ⟨(requested.stored requestHash status found).1, small⟩

theorem Recorded.initial : Recorded Chain.initial [] := by
  refine ⟨by simp, ⟨?_, by simp, by simp, by simp⟩, ⟨?_, by simp⟩,
    ⟨?_, by simp⟩⟩
  · intro agent present
    cases present
  · intro agentId client index present
    cases present
  · intro requestHash status found
    cases found

theorem Recorded.step {chain after : Chain}
    {log added : List (ContractEvent × Stamp)} {ledger : Nat}
    {events : List ContractEvent} (recorded : Recorded chain log)
    (step : chain.Step ledger after events)
    (appended : Appended log ledger events added) :
    Recorded after (log ++ added) := by
  have bounded : (∀ event ∈ events, event.Bounded) →
      ∀ entry ∈ log ++ added, entry.1.Bounded := by
    intro fresh entry member
    rcases List.mem_append.mp member with old | new
    · exact recorded.bounded entry old
    · exact fresh entry.1 (appended.published entry new).1
  rcases step.performs with ⟨identity, published, performs, rfl, rfl⟩ |
    ⟨reputation, published, performs, rfl, rfl⟩ |
    ⟨validation, published, performs, rfl, rfl⟩
  · refine ⟨bounded ?_, recorded.registered.identity performs appended,
      recorded.given.silent appended ?_,
      recorded.requested.silent appended ?_⟩
    · rintro _ member
      obtain ⟨event, isEvent, rfl⟩ := List.mem_map.mp member
      intro agent touches
      obtain ⟨named, small, about, _⟩ := performs.about
      rw [about event isEvent agent touches]
      exact small
    · rintro _ member
      obtain ⟨event, _, rfl⟩ := List.mem_map.mp member
      rfl
    · rintro _ member
      obtain ⟨event, _, rfl⟩ := List.mem_map.mp member
      rfl
  · refine ⟨bounded ?_, recorded.registered.dependent appended ?_,
      recorded.given.reputation performs appended,
      recorded.requested.silent appended ?_⟩
    · rintro _ member
      obtain ⟨event, isEvent, rfl⟩ := List.mem_map.mp member
      exact bounded_reputation recorded.given performs event isEvent
    · rintro _ member
      obtain ⟨event, isEvent, rfl⟩ := List.mem_map.mp member
      refine ⟨rfl, rfl, ?_⟩
      intro agent about
      cases performs with
      | giveFeedback counted caller agentId value valueDecimals tag1 tag2
          endpoint feedbackUri feedbackHash scale living sameFeedback
          sameIndex sameResponses =>
          rw [List.mem_singleton.mp isEvent] at about
          cases about
          exact living
      | revokeFeedback caller agentId feedbackIndex data found standing =>
          rw [List.mem_singleton.mp isEvent] at about
          cases about
      | appendResponse caller agentId clientAddress feedbackIndex responseUri
          responseHash data found =>
          rw [List.mem_singleton.mp isEvent] at about
          cases about
    · rintro _ member
      obtain ⟨event, _, rfl⟩ := List.mem_map.mp member
      rfl
  · refine ⟨bounded ?_, recorded.registered.dependent appended ?_,
      recorded.given.silent appended ?_,
      recorded.requested.validation performs appended⟩
    · rintro _ member
      obtain ⟨event, isEvent, rfl⟩ := List.mem_map.mp member
      exact bounded_validation recorded.requested performs event isEvent
    · rintro _ member
      obtain ⟨event, isEvent, rfl⟩ := List.mem_map.mp member
      refine ⟨rfl, rfl, ?_⟩
      intro agent about
      cases performs with
      | validationRequest after validatorAddress agentId requestUri
          requestHash living fresh stored =>
          rw [List.mem_singleton.mp isEvent] at about
          cases about
          exact living
      | validationResponse status requestHash response responseUri
          responseHash tag small found =>
          rw [List.mem_singleton.mp isEvent] at about
          cases about
    · rintro _ member
      obtain ⟨event, _, rfl⟩ := List.mem_map.mp member
      rfl

/-- What every run of the three contracts has recorded. -/
theorem Run.recorded {chain : Chain} {log : List (ContractEvent × Stamp)}
    (run : Run Chain.Step Chain.initial chain log) : Recorded chain log := by
  induction run with
  | start => exact Recorded.initial
  | call prior ledger events stamps step length stamped induction =>
      exact induction.step step (Appended.of_stamped length stamped)

end Stellar8004.Contracts
