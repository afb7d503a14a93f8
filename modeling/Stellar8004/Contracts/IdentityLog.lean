import Stellar8004.Contracts.Chain

/-!
# The identity registry from its events

Storage and events of the identity registry tell the same story: what an
agent's slots hold is what the last event about each of them left there, and
its owner and URI are those of the last transfer and the last URI update, or
of its one registration.
-/

namespace Stellar8004.Contracts

/-- What of an agent a `metadata_set` event may be about. -/
inductive AgentSlot where
  | wallet
  | metadata (key : Bytes)
  deriving DecidableEq

def AgentSlot.ofKey (key : Bytes) : AgentSlot :=
  if key = agentWalletKey then .wallet else .metadata key

namespace IdentityEvent

/-- What an event leaves in a slot of an agent. -/
def effect (agent : Nat) (slot : AgentSlot) :
    IdentityEvent → Option (Option Bytes)
  | metadataSet agentId key value =>
      if agentId = agent ∧ AgentSlot.ofKey key = slot then
        some (if key = agentWalletKey ∧ value = ByteArray.empty then none
          else some value)
      else none
  | transfer _ _ tokenId => if tokenId = agent then some none else none
  | _ => none

def transferTo (agent : Nat) : IdentityEvent → Option Address
  | transfer _ «to» tokenId => if tokenId = agent then some «to» else none
  | _ => none

def uriUpdate (agent : Nat) : IdentityEvent → Option Bytes
  | uriUpdated agentId _ newUri =>
      if agentId = agent then some newUri else none
  | _ => none

/-- Owner and URI an event registers an agent with. -/
def registration (agent : Nat) : IdentityEvent → Option (Address × Bytes)
  | registered agentId owner agentUri =>
      if agentId = agent then some (owner, agentUri) else none
  | _ => none

end IdentityEvent

/-- The last of the values a selection picks from events. -/
def lastOf {α : Type} (select : IdentityEvent → Option α)
    (events : List IdentityEvent) : Option α :=
  (events.filterMap select).getLast?

section

variable {α : Type} (select : IdentityEvent → Option α)

theorem lastOf_append (first second : List IdentityEvent) :
    lastOf select (first ++ second) =
      (lastOf select second).or (lastOf select first) := by
  unfold lastOf
  rw [List.filterMap_append, List.getLast?_append]

@[simp] theorem lastOf_nil : lastOf select [] = none := rfl

@[simp] theorem lastOf_singleton (event : IdentityEvent) :
    lastOf select [event] = select event := by
  unfold lastOf
  cases selected : select event <;> simp [selected]

theorem lastOf_cons (event : IdentityEvent) (events : List IdentityEvent) :
    lastOf select (event :: events) =
      (lastOf select events).or (select event) := by
  rw [← List.singleton_append, lastOf_append, lastOf_singleton]

theorem lastOf_of_silent {events : List IdentityEvent}
    (silent : ∀ event ∈ events, select event = none) :
    lastOf select events = none := by
  unfold lastOf
  rw [List.filterMap_eq_nil_iff.mpr silent]
  rfl

end

namespace IdentityState

/-- What storage holds in a slot of an agent. -/
def slot (state : IdentityState) (agent : Nat) : AgentSlot → Option Bytes
  | .wallet => (state.agentWallet agent).map addressToStrkeyBytes
  | .metadata key => state.metadata agent key

/-- Every stored value is under a recorded key. -/
def Keyed (state : IdentityState) : Prop :=
  ∀ agent key, state.metadata agent key ≠ none →
    (state.metadataKeys agent).any (· = key) = true

theorem setMetadata_slot (state : IdentityState) (agentId : Nat)
    (key value : Bytes) (agent : Nat) (slot : AgentSlot) :
    (state.setMetadata agentId key value).slot agent slot =
      if agentId = agent ∧ .metadata key = slot then some value
      else state.slot agent slot := by
  have same : ∀ state : IdentityState,
      (state.recordMetadataKey agentId key).metadata = state.metadata ∧
        (state.recordMetadataKey agentId key).agentWallet =
          state.agentWallet := by
    intro state
    unfold recordMetadataKey
    split <;> exact ⟨rfl, rfl⟩
  cases slot with
  | wallet => simp [IdentityState.slot, setMetadata, (same state).2]
  | metadata other =>
      simp only [IdentityState.slot, setMetadata, (same state).1]
      by_cases sameAgent : agentId = agent
      · subst sameAgent
        by_cases sameKey : key = other
        · subst sameKey
          simp
        · simp [sameKey, Function.update_of_ne (Ne.symm sameKey)]
      · simp [sameAgent, Function.update_of_ne (Ne.symm sameAgent)]

/-- The events `register_full` publishes for its entries. -/
def entryEvents (agentId : Nat) (entries : List MetadataEntry) :
    List IdentityEvent :=
  entries.map fun entry => .metadataSet agentId entry.key entry.value

theorem setEntries_slot (state : IdentityState) (agentId : Nat)
    (entries : List MetadataEntry)
    (ordinary : ∀ entry ∈ entries, entry.key ≠ agentWalletKey) (agent : Nat)
    (slot : AgentSlot) :
    (state.setEntries agentId entries).slot agent slot =
      (lastOf (IdentityEvent.effect agent slot)
        (entryEvents agentId entries)).getD (state.slot agent slot) := by
  unfold setEntries
  induction entries generalizing state with
  | nil => rfl
  | cons entry entries induction =>
      have key : entry.key ≠ agentWalletKey := ordinary entry List.mem_cons_self
      rw [List.foldl_cons, induction _ fun other member =>
          ordinary other (List.mem_cons_of_mem _ member),
        setMetadata_slot]
      unfold entryEvents
      rw [List.map_cons, lastOf_cons]
      cases lastOf (IdentityEvent.effect agent slot)
        (entries.map fun entry =>
          .metadataSet agentId entry.key entry.value) with
      | some later => rfl
      | none =>
          simp only [Option.getD_none, Option.none_or, IdentityEvent.effect,
            AgentSlot.ofKey, key, if_false, false_and]
          split <;> rfl

theorem setAgentWallet_slot (state : IdentityState) (agentId : Nat)
    (wallet : Address) (agent : Nat) (slot : AgentSlot) :
    (state.setAgentWallet agentId wallet).slot agent slot =
      if agentId = agent ∧ .wallet = slot then
        some (addressToStrkeyBytes wallet)
      else state.slot agent slot := by
  cases slot with
  | wallet =>
      by_cases same : agentId = agent
      · subst same
        simp [IdentityState.slot, setAgentWallet]
      · simp [IdentityState.slot, setAgentWallet, same,
          Function.update_of_ne (Ne.symm same)]
  | metadata key => simp [IdentityState.slot, setAgentWallet]

theorem removeAgentWallet_slot (state : IdentityState) (agentId agent : Nat)
    (slot : AgentSlot) :
    (state.removeAgentWallet agentId).slot agent slot =
      if agentId = agent ∧ .wallet = slot then none
      else state.slot agent slot := by
  cases slot with
  | wallet =>
      by_cases same : agentId = agent
      · subst same
        simp [IdentityState.slot, removeAgentWallet]
      · simp [IdentityState.slot, removeAgentWallet, same,
          Function.update_of_ne (Ne.symm same)]
  | metadata key => simp [IdentityState.slot, removeAgentWallet]

/-- A transfer empties every slot of its agent. -/
theorem transferred_slot (state : IdentityState) (keyed : state.Keyed)
    («to» : Address) (tokenId agent : Nat) (slot : AgentSlot) :
    (state.transferred «to» tokenId).slot agent slot =
      if tokenId = agent then none else state.slot agent slot := by
  by_cases same : tokenId = agent
  · subst same
    cases slot with
    | wallet =>
        simp [IdentityState.slot, transferred, clearAllMetadata,
          removeAgentWallet]
    | metadata key =>
        simp only [IdentityState.slot, transferred, clearAllMetadata,
          removeAgentWallet, Function.update_self, if_true]
        by_cases recorded :
            (state.metadataKeys tokenId).any (· = key) = true
        · exact if_pos recorded
        · refine (if_neg recorded).trans ?_
          by_contra stored
          exact recorded (keyed tokenId key stored)
  · cases slot <;>
      simp [IdentityState.slot, transferred, clearAllMetadata,
        removeAgentWallet, same, Function.update_of_ne (Ne.symm same)]

theorem addressToStrkeyBytes_ne_empty (address : Address) :
    addressToStrkeyBytes address ≠ ByteArray.empty := by
  intro empty
  exact encode_ne_empty address (utf8_injective empty)

theorem effect_walletSet (agentId agent : Nat) (slot : AgentSlot)
    (wallet : Address) :
    (IdentityEvent.metadataSet agentId agentWalletKey
        (addressToStrkeyBytes wallet)).effect agent slot =
      if agentId = agent ∧ .wallet = slot then
        some (some (addressToStrkeyBytes wallet))
      else none := by
  simp [IdentityEvent.effect, AgentSlot.ofKey,
    addressToStrkeyBytes_ne_empty wallet]

/-- What one call does to a slot. -/
theorem Performs.slot {state after : IdentityState}
    {events : List IdentityEvent} (performs : state.Performs after events)
    (keyed : state.Keyed) (agent : Nat) (slot : AgentSlot) :
    after.slot agent slot =
      (lastOf (IdentityEvent.effect agent slot) events).getD
        (state.slot agent slot) := by
  cases performs with
  | register caller agentUri entries room ordinary =>
      have base : ∀ other : IdentityState,
          other.agentWallet = state.agentWallet →
          other.metadata = state.metadata →
          other.slot agent slot = state.slot agent slot := by
        intro other wallets metadata
        cases slot with
        | wallet => simp [IdentityState.slot, wallets]
        | metadata key => simp [IdentityState.slot, metadata]
      have last : lastOf (IdentityEvent.effect agent slot)
          ([.mint caller state.nextTokenId,
              .metadataSet state.nextTokenId agentWalletKey
                (addressToStrkeyBytes caller)] ++
            entryEvents state.nextTokenId entries ++
            [.registered state.nextTokenId caller
              (agentUri.getD ByteArray.empty)]) =
          (lastOf (IdentityEvent.effect agent slot)
            (entryEvents state.nextTokenId entries)).or
            (if state.nextTokenId = agent ∧ .wallet = slot then
              some (some (addressToStrkeyBytes caller)) else none) := by
        rw [lastOf_append, lastOf_append, lastOf_singleton, lastOf_cons,
          lastOf_singleton, effect_walletSet]
        simp [IdentityEvent.effect]
      change _ = (lastOf (IdentityEvent.effect agent slot)
        (_ ++ entryEvents state.nextTokenId entries ++ _)).getD _
      rw [last]
      unfold registered
      rw [setEntries_slot _ _ _ ordinary, setAgentWallet_slot,
        base _ (by cases agentUri <;> rfl) (by cases agentUri <;> rfl)]
      cases lastOf (IdentityEvent.effect agent slot)
        (entryEvents state.nextTokenId entries) with
      | some later => rfl
      | none =>
          simp only [Option.none_or, Option.getD_none]
          split <;> rfl
  | setAgentUri agentId caller newUri living =>
      rw [lastOf_of_silent _ (by simp [IdentityEvent.effect])]
      cases slot <;> rfl
  | setMetadata agentId key value living ordinary =>
      rw [setMetadata_slot, lastOf_cons]
      simp only [lastOf_nil, Option.none_or, IdentityEvent.effect,
        AgentSlot.ofKey, ordinary, if_false, false_and]
      split <;> rfl
  | setAgentWallet agentId newWallet living =>
      rw [setAgentWallet_slot, lastOf_cons, effect_walletSet]
      simp only [lastOf_nil, Option.none_or]
      split <;> rfl
  | unsetAgentWallet agentId living =>
      rw [removeAgentWallet_slot, lastOf_cons]
      simp only [lastOf_nil, Option.none_or, IdentityEvent.effect,
        AgentSlot.ofKey, if_true, and_self]
      split <;> rfl
  | transfer «from» «to» tokenId living =>
      rw [transferred_slot _ keyed, lastOf_cons, lastOf_cons]
      simp only [lastOf_nil, Option.none_or, IdentityEvent.effect,
        AgentSlot.ofKey, if_true, and_self]
      by_cases same : tokenId.toNat = agent
      · simp [same]
      · simp [same]

/-! ## Recorded keys -/

theorem setMetadata_keyed {state : IdentityState} (keyed : state.Keyed)
    (agentId : Nat) (key value : Bytes) :
    (state.setMetadata agentId key value).Keyed := by
  intro agent other stored
  have recorded : (agentId = agent ∧ key = other) ∨
      (state.metadataKeys agent).any (· = other) = true := by
    have slot := setMetadata_slot state agentId key value agent
      (.metadata other)
    by_cases here : agentId = agent ∧ key = other
    · exact .inl here
    · rw [if_neg (by simpa using here)] at slot
      exact .inr (keyed agent other (by
        intro none
        exact stored (slot.trans none)))
  have keys : ((state.setMetadata agentId key value).metadataKeys agent) =
      (state.recordMetadataKey agentId key).metadataKeys agent := rfl
  rw [keys]
  unfold recordMetadataKey
  by_cases known : (state.metadataKeys agentId).any (· = key) = true
  · rw [if_pos known]
    rcases recorded with ⟨rfl, rfl⟩ | old
    · exact known
    · exact old
  · rw [if_neg known]
    rcases recorded with ⟨rfl, rfl⟩ | old
    · simp
    · by_cases same : agent = agentId
      · subst same
        simp only [Function.update_self, List.any_append, old, Bool.true_or]
      · simp only [Function.update_of_ne same]
        exact old

theorem setEntries_keyed {state : IdentityState} (keyed : state.Keyed)
    (agentId : Nat) (entries : List MetadataEntry) :
    (state.setEntries agentId entries).Keyed := by
  unfold setEntries
  induction entries generalizing state with
  | nil => exact keyed
  | cons entry entries induction =>
      exact induction (setMetadata_keyed keyed agentId entry.key entry.value)

theorem Performs.keyed {state after : IdentityState}
    {events : List IdentityEvent} (performs : state.Performs after events)
    (keyed : state.Keyed) : after.Keyed := by
  cases performs with
  | register caller agentUri entries room ordinary =>
      refine setEntries_keyed ?_ _ entries
      cases agentUri <;> exact keyed
  | setAgentUri agentId caller newUri living => exact keyed
  | setMetadata agentId key value living ordinary =>
      exact setMetadata_keyed keyed agentId.toNat key value
  | setAgentWallet agentId newWallet living => exact keyed
  | unsetAgentWallet agentId living => exact keyed
  | transfer «from» «to» tokenId living =>
      intro agent key stored
      have slot := transferred_slot state keyed «to» tokenId.toNat agent
        (.metadata key)
      by_cases same : tokenId.toNat = agent
      · rw [if_pos same] at slot
        exact absurd slot stored
      · rw [if_neg same] at slot
        have old := keyed agent key (fun none => stored (slot.trans none))
        simp only [transferred, clearAllMetadata, removeAgentWallet,
          Function.update_of_ne (Ne.symm same)]
        exact old

/-! ## Owners and URIs -/

/-- What one call does to the owner and the URI of an agent it is about. -/
structure Tells (state after : IdentityState) (events : List IdentityEvent)
    (agent : Nat) : Prop where
  living : (state.owner agent).isSome = true
  owner : after.owner agent =
    (lastOf (IdentityEvent.transferTo agent) events).or (state.owner agent)
  agentUri : after.agentUri agent =
    (lastOf (IdentityEvent.uriUpdate agent) events).or
      (state.agentUri agent)
  registrations : events.filterMap (IdentityEvent.registration agent) = []

/-- What one call does to the agent it registers. -/
structure Registers (state after : IdentityState)
    (events : List IdentityEvent) : Prop where
  next : after.nextTokenId = state.nextTokenId + 1
  registered : ∃ caller uri,
    after.owner state.nextTokenId = some caller ∧
      (after.agentUri state.nextTokenId = some uri ∨
        after.agentUri state.nextTokenId =
            state.agentUri state.nextTokenId ∧ uri = ByteArray.empty) ∧
      events.filterMap (IdentityEvent.registration state.nextTokenId) =
        [(caller, uri)]
  untransferred :
    lastOf (IdentityEvent.transferTo state.nextTokenId) events = none
  unnamed : lastOf (IdentityEvent.uriUpdate state.nextTokenId) events = none

theorem setEntries_agentUri (state : IdentityState) (agentId : Nat)
    (entries : List MetadataEntry) :
    (state.setEntries agentId entries).agentUri = state.agentUri := by
  unfold setEntries
  induction entries generalizing state with
  | nil => rfl
  | cons entry entries induction =>
      rw [List.foldl_cons, induction]
      simp only [setMetadata, recordMetadataKey]
      split <;> rfl

theorem registered_agentUri (state : IdentityState) (caller : Address)
    (agentUri : Option Bytes) (entries : List MetadataEntry) :
    (state.registered caller agentUri entries).agentUri =
      match agentUri with
      | some uri =>
          Function.update state.agentUri state.nextTokenId (some uri)
      | none => state.agentUri := by
  unfold registered
  rw [setEntries_agentUri]
  cases agentUri <;> rfl

section

variable (state : IdentityState) (caller : Address) (agentUri : Option Bytes)
  (entries : List MetadataEntry)

/-- What passes over the mint and the metadata reads the last event alone. -/
theorem filterMap_registrationEvents {α : Type}
    {select : IdentityEvent → Option α}
    (mint : select (.mint caller state.nextTokenId) = none)
    (metadata : ∀ key value,
      select (.metadataSet state.nextTokenId key value) = none) :
    (state.registrationEvents caller agentUri entries).filterMap select =
      (select (.registered state.nextTokenId caller
        (agentUri.getD ByteArray.empty))).toList := by
  have silent : (entries.map fun entry => IdentityEvent.metadataSet
      state.nextTokenId entry.key entry.value).filterMap select = [] := by
    apply List.filterMap_eq_nil_iff.mpr
    intro event member
    obtain ⟨entry, _, rfl⟩ := List.mem_map.mp member
    exact metadata entry.key entry.value
  unfold registrationEvents
  rw [List.filterMap_append, List.filterMap_append, silent,
    List.filterMap_cons_none mint, List.filterMap_cons_none (metadata _ _)]
  cases found : select (.registered state.nextTokenId caller
    (agentUri.getD ByteArray.empty)) <;> simp [found]

theorem registered_registers :
    state.Registers (state.registered caller agentUri entries)
      (state.registrationEvents caller agentUri entries) := by
  have keeps := state.registered_keeps caller agentUri entries
  have uris := state.registered_agentUri caller agentUri entries
  refine ⟨keeps.2, ⟨caller, agentUri.getD ByteArray.empty, ?_, ?_, ?_⟩, ?_, ?_⟩
  · rw [keeps.1, Function.update_self]
  · cases agentUri with
    | none => exact .inr ⟨congrFun uris _, rfl⟩
    | some uri =>
        left
        rw [uris]
        exact Function.update_self ..
  · rw [state.filterMap_registrationEvents caller agentUri entries rfl
      fun _ _ => rfl]
    simp [IdentityEvent.registration]
  · unfold lastOf
    rw [state.filterMap_registrationEvents caller agentUri entries rfl
      fun _ _ => rfl]
    rfl
  · unfold lastOf
    rw [state.filterMap_registrationEvents caller agentUri entries rfl
      fun _ _ => rfl]
    rfl

/-- A registration leaves every other agent. -/
theorem registered_untold {agent : Nat} (other : agent ≠ state.nextTokenId) :
    (state.registered caller agentUri entries).owner agent =
        state.owner agent ∧
      (state.registered caller agentUri entries).agentUri agent =
        state.agentUri agent ∧
      ∀ event ∈ state.registrationEvents caller agentUri entries,
        event.agentId? ≠ some agent := by
  refine ⟨?_, ?_, ?_⟩
  · rw [(state.registered_keeps caller agentUri entries).1,
      Function.update_of_ne other]
  · rw [state.registered_agentUri caller agentUri entries]
    cases agentUri with
    | none => rfl
    | some uri => exact Function.update_of_ne other ..
  · intro event member about
    simp only [registrationEvents, List.mem_append, List.mem_cons,
      List.mem_map, List.not_mem_nil, or_false] at member
    rcases member with ((rfl | rfl) | ⟨entry, _, rfl⟩) | rfl
    · cases about
    all_goals exact other (Option.some.inj about).symm

end

/-- One call, seen from any agent: registered by it, touched by it, or
neither. -/
theorem Performs.tells {state after : IdentityState}
    {events : List IdentityEvent} (performs : state.Performs after events)
    (agent : Nat) :
    (agent = state.nextTokenId ∧ state.Registers after events) ∨
      ((state.Tells after events agent ∨
        (after.owner agent = state.owner agent ∧
          after.agentUri agent = state.agentUri agent ∧
          ∀ event ∈ events, event.agentId? ≠ some agent)) ∧
        state.nextTokenId ≤ after.nextTokenId) := by
  cases performs with
  | register caller agentUri entries room ordinary =>
      by_cases same : agent = state.nextTokenId
      · exact .inl ⟨same, state.registered_registers caller agentUri entries⟩
      · right
        constructor
        · exact .inr (state.registered_untold caller agentUri entries same)
        · rw [(state.registered_keeps caller agentUri entries).2]
          exact Nat.le_succ _
  | setAgentUri agentId caller newUri living =>
      refine .inr ⟨?_, Nat.le_refl _⟩
      by_cases same : agentId.toNat = agent
      · subst same
        left
        refine ⟨living, ?_, ?_, ?_⟩ <;>
          simp [IdentityEvent.transferTo, IdentityEvent.uriUpdate,
            IdentityEvent.registration, IdentityState.setAgentUri]
      · right
        refine ⟨rfl, ?_, ?_⟩
        · simp [IdentityState.setAgentUri, Function.update_of_ne (Ne.symm same)]
        · simpa [IdentityEvent.agentId?] using same
  | setMetadata agentId key value living ordinary =>
      have keeps := state.setMetadata_keeps agentId.toNat key value
      have uris : (state.setMetadata agentId.toNat key value).agentUri =
          state.agentUri := by
        simp only [IdentityState.setMetadata, recordMetadataKey]
        split <;> rfl
      refine .inr ⟨?_, Nat.le_of_eq keeps.2.symm⟩
      by_cases same : agentId.toNat = agent
      · subst same
        left
        refine ⟨living, ?_, ?_, ?_⟩ <;>
          simp [IdentityEvent.transferTo, IdentityEvent.uriUpdate,
            IdentityEvent.registration, keeps.1, uris]
      · right
        refine ⟨congrFun keeps.1 agent, congrFun uris agent, ?_⟩
        simpa [IdentityEvent.agentId?] using same
  | setAgentWallet agentId newWallet living =>
      refine .inr ⟨?_, Nat.le_refl _⟩
      by_cases same : agentId.toNat = agent
      · subst same
        left
        refine ⟨living, ?_, ?_, ?_⟩ <;>
          simp [IdentityEvent.transferTo, IdentityEvent.uriUpdate,
            IdentityEvent.registration, IdentityState.setAgentWallet]
      · right
        exact ⟨rfl, rfl, by simpa [IdentityEvent.agentId?] using same⟩
  | unsetAgentWallet agentId living =>
      refine .inr ⟨?_, Nat.le_refl _⟩
      by_cases same : agentId.toNat = agent
      · subst same
        left
        refine ⟨living, ?_, ?_, ?_⟩ <;>
          simp [IdentityEvent.transferTo, IdentityEvent.uriUpdate,
            IdentityEvent.registration, removeAgentWallet]
      · right
        exact ⟨rfl, rfl, by simpa [IdentityEvent.agentId?] using same⟩
  | transfer «from» «to» tokenId living =>
      refine .inr ⟨?_, Nat.le_refl _⟩
      by_cases same : tokenId.toNat = agent
      · subst same
        left
        refine ⟨living, ?_, ?_, ?_⟩ <;>
          simp [lastOf_cons, IdentityEvent.transferTo,
            IdentityEvent.uriUpdate, IdentityEvent.registration, transferred,
            clearAllMetadata, removeAgentWallet]
      · right
        refine ⟨?_, rfl, by simpa [IdentityEvent.agentId?] using same⟩
        simp [transferred, clearAllMetadata, removeAgentWallet,
          Function.update_of_ne (Ne.symm same)]

end IdentityState

/-! ## What a run's events say about its state -/

/-- The events published so far explain the state. -/
structure Explains (state : IdentityState) (events : List IdentityEvent) :
    Prop where
  keyed : state.Keyed
  slots : ∀ agent slot, state.slot agent slot =
    (lastOf (IdentityEvent.effect agent slot) events).getD none
  minted : ∀ agent, (state.owner agent).isSome = true →
    agent < state.nextTokenId
  absent : ∀ agent, state.owner agent = none → state.agentUri agent = none ∧
    ∀ event ∈ events, event.agentId? ≠ some agent
  present : ∀ agent owner, state.owner agent = some owner →
    ∃ first uri,
      events.filterMap (IdentityEvent.registration agent) = [(first, uri)] ∧
      owner = (lastOf (IdentityEvent.transferTo agent) events).getD first ∧
      (state.agentUri agent).getD ByteArray.empty =
        (lastOf (IdentityEvent.uriUpdate agent) events).getD uri

theorem Explains.initial : Explains .initial [] where
  keyed agent key stored := absurd rfl stored
  slots agent slot := by cases slot <;> rfl
  minted agent present := by cases present
  absent agent _ := ⟨rfl, by simp⟩
  present agent owner found := by cases found

/-- Events about other agents select nothing for an agent. -/
theorem IdentityEvent.silent_of_other {event : IdentityEvent} {agent : Nat}
    (other : event.agentId? ≠ some agent) :
    event.transferTo agent = none ∧ event.uriUpdate agent = none ∧
      event.registration agent = none := by
  cases event <;>
    simp_all [agentId?, transferTo, uriUpdate, registration]

theorem IdentityEvent.effect_of_other {event : IdentityEvent} {agent : Nat}
    (other : event.agentId? ≠ some agent) (slot : AgentSlot) :
    event.effect agent slot = none := by
  cases event <;> simp_all [agentId?, effect]

/-- An agent that was never registered holds nothing. -/
theorem Explains.slot_of_unowned {state : IdentityState}
    {events : List IdentityEvent} (explains : Explains state events)
    {agent : Nat} (unowned : state.owner agent = none) (slot : AgentSlot) :
    state.slot agent slot = none := by
  rw [explains.slots, lastOf_of_silent _ fun event member =>
    IdentityEvent.effect_of_other
      ((explains.absent agent unowned).2 event member) slot]
  rfl

theorem Explains.step {state after : IdentityState}
    {published events : List IdentityEvent} (explains : Explains state published)
    (performs : state.Performs after events) :
    Explains after (published ++ events) := by
  have silent : ∀ {agent} {some : List IdentityEvent},
      (∀ event ∈ some, event.agentId? ≠ .some agent) →
      lastOf (IdentityEvent.transferTo agent) some = none ∧
        lastOf (IdentityEvent.uriUpdate agent) some = none ∧
        some.filterMap (IdentityEvent.registration agent) = [] := by
    intro agent some other
    refine ⟨lastOf_of_silent _ fun event member => ?_,
      lastOf_of_silent _ fun event member => ?_,
      List.filterMap_eq_nil_iff.mpr fun event member => ?_⟩
    · exact (IdentityEvent.silent_of_other (other event member)).1
    · exact (IdentityEvent.silent_of_other (other event member)).2.1
    · exact (IdentityEvent.silent_of_other (other event member)).2.2
  have fresh : state.owner state.nextTokenId = none := by
    by_contra owned
    have below := explains.minted state.nextTokenId
      (Option.isSome_iff_ne_none.mpr owned)
    omega
  refine ⟨performs.keyed explains.keyed, ?_, ?_, ?_, ?_⟩
  · intro agent slot
    rw [performs.slot explains.keyed, explains.slots, lastOf_append]
    cases lastOf (IdentityEvent.effect agent slot) events <;> rfl
  · intro agent owned
    rcases performs.tells agent with ⟨rfl, registers⟩ | ⟨tells, grows⟩
    · rw [registers.next]
      exact Nat.lt_succ_self _
    · have before : (state.owner agent).isSome = true := by
        rcases tells with tells | ⟨sameOwner, _⟩
        · exact tells.living
        · rw [← sameOwner]
          exact owned
      exact Nat.lt_of_lt_of_le (explains.minted agent before) grows
  · intro agent unowned
    rcases performs.tells agent with ⟨rfl, registers⟩ |
        ⟨tells | ⟨sameOwner, sameUri, other⟩, _⟩
    · obtain ⟨caller, uri, owner, _⟩ := registers.registered
      rw [owner] at unowned
      cases unowned
    · obtain ⟨owner, found⟩ := Option.isSome_iff_exists.mp tells.living
      rw [tells.owner, found] at unowned
      cases last : lastOf (IdentityEvent.transferTo agent) events <;>
        simp [last] at unowned
    · obtain ⟨noUri, old⟩ := explains.absent agent (sameOwner ▸ unowned)
      refine ⟨sameUri.trans noUri, ?_⟩
      intro event member
      rcases List.mem_append.mp member with early | late
      · exact old event early
      · exact other event late
  · intro agent owner found
    rw [List.filterMap_append, lastOf_append, lastOf_append]
    rcases performs.tells agent with ⟨rfl, registers⟩ |
        ⟨tells | ⟨sameOwner, sameUri, other⟩, _⟩
    · obtain ⟨noUri, old⟩ := explains.absent _ fresh
      obtain ⟨noTransfer, noUpdate, noRegistration⟩ := silent old
      obtain ⟨caller, uri, isOwner, isUri, registration⟩ :=
        registers.registered
      refine ⟨caller, uri, ?_, ?_, ?_⟩
      · rw [noRegistration, registration]
        rfl
      · rw [isOwner] at found
        cases found
        rw [registers.untransferred, noTransfer]
        rfl
      · rw [registers.unnamed, noUpdate]
        rcases isUri with stored | ⟨kept, rfl⟩
        · rw [stored]
          rfl
        · rw [kept, noUri]
          rfl
    · obtain ⟨before, wasOwned⟩ := Option.isSome_iff_exists.mp tells.living
      obtain ⟨first, uri, registration, isOwner, isUri⟩ :=
        explains.present agent before wasOwned
      refine ⟨first, uri, ?_, ?_, ?_⟩
      · rw [registration, tells.registrations]
        rfl
      · rw [tells.owner, wasOwned] at found
        cases last : lastOf (IdentityEvent.transferTo agent) events with
        | none =>
            rw [last] at found
            cases found
            exact isOwner
        | some newOwner =>
            rw [last] at found
            cases found
            rfl
      · rw [tells.agentUri]
        cases lastOf (IdentityEvent.uriUpdate agent) events with
        | none => exact isUri
        | some newUri => rfl
    · obtain ⟨noTransfer, noUpdate, noRegistration⟩ := silent other
      rw [noTransfer, noUpdate, noRegistration, List.append_nil,
        Option.none_or, Option.none_or, sameUri]
      exact explains.present agent owner (sameOwner ▸ found)

end Stellar8004.Contracts
