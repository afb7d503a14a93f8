import Stellar8004.Contracts.IdentityLog
import Stellar8004.Library.Accepted

/-!
# What the identity registry stores

The record of an agent's metadata keys is exact after every run, so clearing
by the record clears everything: nothing readable for an agent was written
before its last transfer.
-/

namespace Stellar8004.Contracts

/-- A call and the approvals that stand during it. -/
abbrev IdentityAction := Approvals × IdentityCall

namespace IdentityCall

/-- A transfer of an agent. -/
def transfers (agent : Nat) : IdentityCall → Bool
  | transfer _ _ tokenId => tokenId.toNat = agent
  | transferFrom _ _ _ tokenId => tokenId.toNat = agent
  | _ => false

/-- The agent a call is about; `fresh` is the next one to be registered. -/
def subject (fresh : Nat) : IdentityCall → Nat
  | register _ => fresh
  | registerWithUri _ _ => fresh
  | registerFull _ _ _ => fresh
  | setAgentUri _ agentId _ => agentId.toNat
  | setMetadata _ agentId _ _ => agentId.toNat
  | setAgentWallet _ agentId _ => agentId.toNat
  | unsetAgentWallet _ agentId => agentId.toNat
  | transfer _ _ tokenId => tokenId.toNat
  | transferFrom _ _ _ tokenId => tokenId.toNat

/-- The entries a call stores for its agent, the later ones over the
earlier. -/
def entries : IdentityCall → List MetadataEntry
  | registerFull _ _ metadata => metadata
  | setMetadata _ _ key value => [{ key, value }]
  | _ => []

/-- The wallet a call stores for its agent. -/
def wallet : IdentityCall → Option Address
  | register caller => some caller
  | registerWithUri caller _ => some caller
  | registerFull caller _ _ => some caller
  | setAgentWallet _ _ newWallet => some newWallet
  | _ => none

end IdentityCall

/-- The value of a key in a list of entries. -/
def lastValue (entries : List MetadataEntry) (key : Bytes) : Option Bytes :=
  (entries.reverse.find? fun entry => entry.key = key).map MetadataEntry.value

/-- What a call makes readable under a key of its agent. -/
def IdentityCall.writes (request : IdentityCall) (key : Bytes) :
    Option Bytes :=
  if key = agentWalletKey then request.wallet.map addressToStrkeyBytes
  else lastValue request.entries key

namespace IdentityState

def step (state : IdentityState) (action : IdentityAction) :
    Option IdentityState :=
  match state.call action.1 action.2 with
  | .ok (after, _) => some after
  | .error _ => none

/-! ## What each call does -/

theorem step_takes {state after : IdentityState} {action : IdentityAction}
    (taken : state.step action = some after) :
    state.Takes action.1 action.2 after := by
  unfold step at taken
  split at taken
  · rename_i success
    cases taken
    exact (call_ok success).1
  · cases taken

/-! ## Storage by key -/

theorem setMetadata_metadata (state : IdentityState) (agentId : Nat)
    (key value : Bytes) (agent : Nat) (other : Bytes) :
    (state.setMetadata agentId key value).metadata agent other =
      if agent = agentId ∧ other = key then some value
      else state.metadata agent other := by
  have same : (state.recordMetadataKey agentId key).metadata =
      state.metadata := by
    unfold recordMetadataKey
    split <;> rfl
  simp only [setMetadata, same, Function.update_apply]
  by_cases sameAgent : agent = agentId
  · subst sameAgent
    simp [Function.update_apply]
  · simp [sameAgent]

/-- A key is recorded once. -/
theorem setMetadata_metadataKeys (state : IdentityState) (agentId : Nat)
    (key value : Bytes) :
    (key ∈ state.metadataKeys agentId ∧
      (state.setMetadata agentId key value).metadataKeys =
        state.metadataKeys) ∨
    (key ∉ state.metadataKeys agentId ∧
      (state.setMetadata agentId key value).metadataKeys =
        Function.update state.metadataKeys agentId
          (state.metadataKeys agentId ++ [key])) := by
  simp only [setMetadata, recordMetadataKey, List.any_eq_true,
    decide_eq_true_eq, exists_eq_right]
  by_cases listed : key ∈ state.metadataKeys agentId
  · left
    simp [listed]
  · right
    simp [listed]

theorem setMetadata_agentWallet (state : IdentityState) (agentId : Nat)
    (key value : Bytes) :
    (state.setMetadata agentId key value).agentWallet =
      state.agentWallet := by
  simp only [setMetadata, recordMetadataKey]
  split <;> rfl

/-! ## The record of keys -/

/-- The record of an agent's keys lists what is stored, once each. -/
structure Recorded (state : IdentityState) (agent : Nat) : Prop where
  distinct : (state.metadataKeys agent).Nodup
  listed : ∀ key, key ∈ state.metadataKeys agent ↔
    (state.metadata agent key).isSome = true
  storable : ∀ key value, state.metadata agent key = some value →
    Storable key value

theorem Recorded.congr {state after : IdentityState} {agent : Nat}
    (recorded : state.Recorded agent)
    (sameKeys : after.metadataKeys agent = state.metadataKeys agent)
    (sameValues : after.metadata agent = state.metadata agent) :
    after.Recorded agent := by
  constructor
  · rw [sameKeys]
    exact recorded.distinct
  · rw [sameKeys, sameValues]
    exact recorded.listed
  · rw [sameValues]
    exact recorded.storable

theorem Recorded.setMetadata {state : IdentityState} {agentId : Nat}
    {key value : Bytes} {agent : Nat} (recorded : state.Recorded agent)
    (storable : Storable key value) :
    (state.setMetadata agentId key value).Recorded agent := by
  have keys := state.setMetadata_metadataKeys agentId key value
  by_cases sameAgent : agent = agentId
  · subst sameAgent
    constructor
    · rcases keys with ⟨_, isSame⟩ | ⟨fresh, isLonger⟩
      · rw [isSame]
        exact recorded.distinct
      · rw [isLonger, Function.update_self, List.nodup_append]
        refine ⟨recorded.distinct, List.nodup_singleton _, ?_⟩
        rintro old isOld new isNew rfl
        rw [List.mem_singleton] at isNew
        exact fresh (isNew ▸ isOld)
    · intro other
      have inside : other ∈
          (state.setMetadata agent key value).metadataKeys agent ↔
            other = key ∨ other ∈ state.metadataKeys agent := by
        rcases keys with ⟨listed, isSame⟩ | ⟨_, isLonger⟩
        · rw [isSame]
          refine ⟨.inr, ?_⟩
          rintro (rfl | member)
          · exact listed
          · exact member
        · rw [isLonger, Function.update_self, List.mem_append,
            List.mem_singleton, or_comm]
      rw [inside, recorded.listed, setMetadata_metadata]
      by_cases sameKey : other = key
      · simp [sameKey]
      · simp [sameKey]
    · intro other stored found
      rw [setMetadata_metadata] at found
      split at found
      · rename_i same
        cases found
        rw [same.2]
        exact storable
      · exact recorded.storable other stored found
  · apply recorded.congr
    · rcases keys with ⟨_, isSame⟩ | ⟨_, isLonger⟩
      · rw [isSame]
      · rw [isLonger, Function.update_of_ne sameAgent]
    · funext other
      rw [setMetadata_metadata, if_neg fun same => sameAgent same.1]

/-! ## Entries -/

theorem lastValue_cons (entry : MetadataEntry)
    (entries : List MetadataEntry) (key : Bytes) :
    lastValue (entry :: entries) key =
      (lastValue entries key).or
        (if entry.key = key then some entry.value else none) := by
  unfold lastValue
  rw [List.reverse_cons, List.find?_append]
  cases entries.reverse.find? fun entry => entry.key = key with
  | some found => rfl
  | none =>
      by_cases same : entry.key = key
      · simp [same]
      · simp [same]

theorem setEntries_metadata (state : IdentityState) (agentId : Nat)
    (entries : List MetadataEntry) (agent : Nat) (key : Bytes) :
    (state.setEntries agentId entries).metadata agent key =
      if agent = agentId then
        (lastValue entries key).or (state.metadata agent key)
      else state.metadata agent key := by
  unfold setEntries
  induction entries generalizing state with
  | nil => simp [lastValue]
  | cons entry entries induction =>
      rw [List.foldl_cons, induction, lastValue_cons, setMetadata_metadata]
      by_cases sameAgent : agent = agentId
      · rw [if_pos sameAgent, if_pos sameAgent, Option.or_assoc]
        by_cases sameKey : key = entry.key
        · rw [if_pos ⟨sameAgent, sameKey⟩, if_pos sameKey.symm]
          rfl
        · rw [if_neg fun same => sameKey same.2, if_neg fun same =>
            sameKey same.symm]
          rfl
      · rw [if_neg sameAgent, if_neg sameAgent,
          if_neg fun same => sameAgent same.1]

theorem setEntries_agentWallet (state : IdentityState) (agentId : Nat)
    (entries : List MetadataEntry) :
    (state.setEntries agentId entries).agentWallet = state.agentWallet := by
  unfold setEntries
  induction entries generalizing state with
  | nil => rfl
  | cons entry entries induction =>
      rw [List.foldl_cons, induction, setMetadata_agentWallet]

/-- Each entry records at most one key, and only of its agent. -/
theorem setEntries_metadataKeys (state : IdentityState) (agentId : Nat)
    (entries : List MetadataEntry) :
    ((state.setEntries agentId entries).metadataKeys agentId).length ≤
        (state.metadataKeys agentId).length + entries.length ∧
      ∀ agent, agent ≠ agentId →
        (state.setEntries agentId entries).metadataKeys agent =
          state.metadataKeys agent := by
  unfold setEntries
  induction entries generalizing state with
  | nil => exact ⟨Nat.le_refl _, fun _ _ => rfl⟩
  | cons entry entries induction =>
      obtain ⟨longer, others⟩ := induction
        (state.setMetadata agentId entry.key entry.value)
      rw [List.foldl_cons, List.length_cons]
      rcases state.setMetadata_metadataKeys agentId entry.key entry.value with
        ⟨_, isSame⟩ | ⟨_, isLonger⟩
      · rw [isSame] at longer others
        exact ⟨by omega, others⟩
      · rw [isLonger, Function.update_self, List.length_append,
          List.length_singleton] at longer
        refine ⟨by omega, fun agent other => ?_⟩
        rw [others agent other, isLonger, Function.update_of_ne other]

theorem Recorded.setEntries {state : IdentityState} {agentId : Nat}
    {entries : List MetadataEntry} {agent : Nat}
    (recorded : state.Recorded agent)
    (storable : ∀ entry ∈ entries, Storable entry.key entry.value) :
    (state.setEntries agentId entries).Recorded agent := by
  unfold IdentityState.setEntries
  induction entries generalizing state with
  | nil => exact recorded
  | cons entry entries induction =>
      apply induction
      · exact recorded.setMetadata (storable entry List.mem_cons_self)
      · exact fun other member =>
          storable other (List.mem_cons_of_mem _ member)

/-! ## Registration and transfer -/

section

variable (state : IdentityState) (caller : Address)
  (agentUri : Option Bytes) (entries : List MetadataEntry)

theorem registered_metadata (agent : Nat) (key : Bytes) :
    (state.registered caller agentUri entries).metadata agent key =
      if agent = state.nextTokenId then
        (lastValue entries key).or (state.metadata agent key)
      else state.metadata agent key := by
  unfold registered
  rw [setEntries_metadata]
  cases agentUri <;> rfl

theorem registered_agentWallet :
    (state.registered caller agentUri entries).agentWallet =
      Function.update state.agentWallet state.nextTokenId (some caller) := by
  unfold registered
  rw [setEntries_agentWallet]
  cases agentUri <;> rfl

theorem registered_metadataKeys :
    ((state.registered caller agentUri entries).metadataKeys
        state.nextTokenId).length ≤
        (state.metadataKeys state.nextTokenId).length + entries.length ∧
      ∀ agent, agent ≠ state.nextTokenId →
        (state.registered caller agentUri entries).metadataKeys agent =
          state.metadataKeys agent := by
  unfold registered
  cases agentUri with
  | none => exact setEntries_metadataKeys _ _ _
  | some uri => exact setEntries_metadataKeys _ _ _

theorem Recorded.registered {state : IdentityState} {agent : Nat}
    (recorded : state.Recorded agent)
    (storable : ∀ entry ∈ entries, Storable entry.key entry.value) :
    (state.registered caller agentUri entries).Recorded agent := by
  unfold IdentityState.registered
  apply Recorded.setEntries _ storable
  cases agentUri with
  | none => exact recorded.congr rfl rfl
  | some uri => exact recorded.congr rfl rfl

/-- An exact record clears everything. -/
theorem Recorded.transferred {state : IdentityState} {tokenId : Nat}
    (recorded : state.Recorded tokenId) («to» : Address) :
    (state.transferred «to» tokenId).metadata tokenId = fun _ => none := by
  funext key
  simp only [IdentityState.transferred, clearAllMetadata,
    Function.update_self]
  split
  · rfl
  · rename_i unlisted
    have absent : key ∉ (state.removeAgentWallet tokenId).metadataKeys
        tokenId := by
      simpa using unlisted
    change key ∉ state.metadataKeys tokenId at absent
    rw [recorded.listed, Option.not_isSome_iff_eq_none] at absent
    exact absent

theorem transferred_others («to» : Address) {tokenId agent : Nat}
    (other : agent ≠ tokenId) :
    (state.transferred «to» tokenId).metadata agent = state.metadata agent ∧
      (state.transferred «to» tokenId).metadataKeys agent =
        state.metadataKeys agent ∧
      (state.transferred «to» tokenId).agentWallet agent =
        state.agentWallet agent ∧
      (state.transferred «to» tokenId).owner agent = state.owner agent := by
  refine ⟨?_, ?_, ?_, ?_⟩ <;> exact Function.update_of_ne other _ _

end

/-! ## The invariant -/

/-- The keys of metadata, its record, the wallets and the owners agree. -/
structure Consistent (state : IdentityState) : Prop where
  recorded : ∀ agent, state.Recorded agent
  few : ∀ agent, (state.metadataKeys agent).length ≤ MAX_METADATA_KEYS
  livingMetadata : ∀ agent key,
    (state.metadata agent key).isSome = true →
      (state.owner agent).isSome = true
  livingWallet : ∀ agent, (state.agentWallet agent).isSome = true →
    (state.owner agent).isSome = true
  minted : ∀ agent, (state.owner agent).isSome = true ↔
    agent < state.nextTokenId

namespace Consistent

variable {state : IdentityState}

theorem initial : IdentityState.initial.Consistent where
  recorded agent := by
    constructor
    · exact .nil
    · simp [IdentityState.initial]
    · simp [IdentityState.initial]
  few _ := Nat.zero_le _
  livingMetadata _ _ nothing := nomatch nothing
  livingWallet _ nothing := nomatch nothing
  minted agent := by simp [IdentityState.initial]

/-- An agent yet to be registered has no keys. -/
theorem fresh_metadataKeys (consistent : state.Consistent) :
    state.metadataKeys state.nextTokenId = [] := by
  apply List.eq_nil_iff_forall_not_mem.mpr
  intro key listed
  have stored := ((consistent.recorded _).listed key).mp listed
  have owned := consistent.livingMetadata _ key stored
  exact Nat.lt_irrefl _ ((consistent.minted _).mp owned)

theorem registered (consistent : state.Consistent) (caller : Address)
    (agentUri : Option Bytes) {entries : List MetadataEntry}
    (few : entries.length ≤ MAX_METADATA_KEYS)
    (storable : ∀ entry ∈ entries, Storable entry.key entry.value) :
    (state.registered caller agentUri entries).Consistent := by
  obtain ⟨isOwner, isNext⟩ := state.registered_keeps caller agentUri entries
  obtain ⟨short, others⟩ :=
    state.registered_metadataKeys caller agentUri entries
  have owned : ∀ agent, agent = state.nextTokenId ∨
      (state.owner agent).isSome = true →
      ((state.registered caller agentUri entries).owner agent).isSome =
        true := by
    intro agent reason
    rw [isOwner]
    by_cases new : agent = state.nextTokenId
    · rw [new, Function.update_self]
      rfl
    · rw [Function.update_of_ne new]
      exact reason.resolve_left new
  constructor
  · exact fun agent => (consistent.recorded agent).registered caller agentUri
      entries storable
  · intro agent
    by_cases new : agent = state.nextTokenId
    · rw [consistent.fresh_metadataKeys, List.length_nil] at short
      rw [new]
      omega
    · rw [others agent new]
      exact consistent.few agent
  · intro agent key stored
    apply owned
    by_cases new : agent = state.nextTokenId
    · exact .inl new
    · rw [registered_metadata, if_neg new] at stored
      exact .inr (consistent.livingMetadata agent key stored)
  · intro agent stored
    apply owned
    by_cases new : agent = state.nextTokenId
    · exact .inl new
    · rw [registered_agentWallet, Function.update_of_ne new] at stored
      exact .inr (consistent.livingWallet agent stored)
  · intro agent
    rw [isOwner, isNext]
    by_cases new : agent = state.nextTokenId
    · simp [new]
    · rw [Function.update_of_ne new, consistent.minted]
      omega

theorem setMetadata (consistent : state.Consistent) {agentId : Nat}
    {key value : Bytes} (storable : Storable key value)
    (living : (state.owner agentId).isSome = true)
    (room : (state.metadata agentId key).isSome = true ∨
      (state.metadataKeys agentId).length < MAX_METADATA_KEYS) :
    (state.setMetadata agentId key value).Consistent := by
  obtain ⟨sameOwner, sameNext⟩ := state.setMetadata_keeps agentId key value
  have sameWallet := state.setMetadata_agentWallet agentId key value
  constructor
  · exact fun agent => (consistent.recorded agent).setMetadata storable
  · intro agent
    rcases state.setMetadata_metadataKeys agentId key value with
      ⟨_, isSame⟩ | ⟨fresh, isLonger⟩
    · rw [isSame]
      exact consistent.few agent
    · rw [isLonger]
      by_cases mine : agent = agentId
      · rw [mine, Function.update_self, List.length_append,
          List.length_singleton]
        rw [← (consistent.recorded agentId).listed] at room
        exact room.resolve_left fresh
      · rw [Function.update_of_ne mine]
        exact consistent.few agent
  · intro agent other stored
    rw [sameOwner]
    rw [setMetadata_metadata] at stored
    split at stored
    · rename_i mine
      rw [mine.1]
      exact living
    · exact consistent.livingMetadata agent other stored
  · rw [sameWallet, sameOwner]
    exact consistent.livingWallet
  · rw [sameOwner, sameNext]
    exact consistent.minted

/-- Wallets and URIs stand by themselves. -/
theorem setWallet (consistent : state.Consistent) {agentId : Nat}
    (wallet : Option Address)
    (living : (state.owner agentId).isSome = true) :
    Consistent { state with
      agentWallet := Function.update state.agentWallet agentId wallet } where
  recorded agent := (consistent.recorded agent).congr rfl rfl
  few := consistent.few
  livingMetadata := consistent.livingMetadata
  livingWallet agent stored := by
    by_cases mine : agent = agentId
    · rw [mine]
      exact living
    · simp only [Function.update_of_ne mine] at stored
      exact consistent.livingWallet agent stored
  minted := consistent.minted

theorem setAgentUri (consistent : state.Consistent) (agentId : Nat)
    (uri : Bytes) : (state.setAgentUri agentId uri).Consistent where
  recorded agent := (consistent.recorded agent).congr rfl rfl
  few := consistent.few
  livingMetadata := consistent.livingMetadata
  livingWallet := consistent.livingWallet
  minted := consistent.minted

theorem transferred (consistent : state.Consistent) («to» : Address)
    {tokenId : Nat} (living : (state.owner tokenId).isSome = true) :
    (state.transferred «to» tokenId).Consistent := by
  have cleared := (consistent.recorded tokenId).transferred «to»
  have noKeys : (state.transferred «to» tokenId).metadataKeys tokenId = [] :=
    Function.update_self _ _ _
  have noWallet : (state.transferred «to» tokenId).agentWallet tokenId =
      none := Function.update_self _ _ _
  have owned : (state.transferred «to» tokenId).owner tokenId = some «to» :=
    Function.update_self _ _ _
  constructor
  · intro agent
    by_cases mine : agent = tokenId
    · rw [mine]
      constructor
      · rw [noKeys]
        exact .nil
      · simp [noKeys, cleared]
      · simp [cleared]
    · obtain ⟨values, keys, _, _⟩ := state.transferred_others «to» mine
      exact (consistent.recorded agent).congr keys values
  · intro agent
    by_cases mine : agent = tokenId
    · rw [mine, noKeys]
      exact Nat.zero_le _
    · rw [(state.transferred_others «to» mine).2.1]
      exact consistent.few agent
  · intro agent key stored
    by_cases mine : agent = tokenId
    · rw [mine, owned]
      rfl
    · obtain ⟨values, _, _, owner⟩ := state.transferred_others «to» mine
      rw [values] at stored
      rw [owner]
      exact consistent.livingMetadata agent key stored
  · intro agent stored
    by_cases mine : agent = tokenId
    · rw [mine, owned]
      rfl
    · obtain ⟨_, _, wallet, owner⟩ := state.transferred_others «to» mine
      rw [wallet] at stored
      rw [owner]
      exact consistent.livingWallet agent stored
  · intro agent
    by_cases mine : agent = tokenId
    · rw [mine, owned]
      exact iff_of_true rfl ((consistent.minted tokenId).mp living)
    · rw [(state.transferred_others «to» mine).2.2.2]
      exact consistent.minted agent

theorem takes (consistent : state.Consistent) {approvals : Approvals}
    {request : IdentityCall} {after : IdentityState}
    (takes : state.Takes approvals request after) : after.Consistent := by
  cases takes with
  | register caller room =>
      exact consistent.registered caller none (Nat.zero_le _) (by simp)
  | registerWithUri caller agentUri room =>
      exact consistent.registered caller _ (Nat.zero_le _) (by simp)
  | registerFull caller agentUri metadata few storable room =>
      exact consistent.registered caller _ few storable
  | setAgentUri caller agentId newUri required =>
      exact consistent.setAgentUri agentId.toNat newUri
  | setMetadata caller agentId key value storable required room =>
      exact consistent.setMetadata storable (living_of_required required) room
  | setAgentWallet caller agentId newWallet required =>
      exact consistent.setWallet _ (living_of_required required)
  | unsetAgentWallet caller agentId required =>
      exact consistent.setWallet _ (living_of_required required)
  | transfer «from» «to» tokenId owned =>
      exact consistent.transferred «to» (Option.isSome_of_eq_some owned)
  | transferFrom spender «from» «to» tokenId owned approved =>
      exact consistent.transferred «to» (Option.isSome_of_eq_some owned)

theorem run {history : List IdentityAction}
    (run : Accepted step .initial history state) : state.Consistent :=
  run.invariant (fun _ state => state.Consistent) initial
    fun _ consistent taken => consistent.takes (step_takes taken)

end Consistent

/-! ## One call -/

/-- Everything stored for an agent. -/
def entriesOf (state : IdentityState) (agent : Nat) :
    (Bytes → Option Bytes) × List Bytes × Option Address × Option Bytes ×
      Option Address :=
  (state.metadata agent, state.metadataKeys agent, state.agentWallet agent,
    state.agentUri agent, state.owner agent)

private theorem registered_others (state : IdentityState) (caller : Address)
    (agentUri : Option Bytes) (entries : List MetadataEntry) {agent : Nat}
    (other : agent ≠ state.nextTokenId) :
    (state.registered caller agentUri entries).entriesOf agent =
      state.entriesOf agent := by
  have values : (state.registered caller agentUri entries).metadata agent =
      state.metadata agent := by
    funext key
    rw [registered_metadata, if_neg other]
  have uris : (state.registered caller agentUri entries).agentUri agent =
      state.agentUri agent := by
    rw [registered_agentUri]
    cases agentUri with
    | none => rfl
    | some uri => exact Function.update_of_ne other _ _
  unfold entriesOf
  rw [values, (state.registered_metadataKeys caller agentUri entries).2 agent
    other, registered_agentWallet, Function.update_of_ne other, uris,
    (state.registered_keeps caller agentUri entries).1,
    Function.update_of_ne other]

/-- A call changes nothing that is stored for another agent. -/
theorem Takes.others {state after : IdentityState} {approvals : Approvals}
    {request : IdentityCall} (takes : state.Takes approvals request after)
    {agent : Nat} (other : agent ≠ request.subject state.nextTokenId) :
    after.entriesOf agent = state.entriesOf agent := by
  cases takes with
  | register caller room => exact registered_others _ _ _ _ other
  | registerWithUri caller agentUri room =>
      exact registered_others _ _ _ _ other
  | registerFull caller agentUri metadata few storable room =>
      exact registered_others _ _ _ _ other
  | setAgentUri caller agentId newUri required =>
      simp only [IdentityCall.subject] at other
      simp [entriesOf, IdentityState.setAgentUri, other]
  | setMetadata caller agentId key value storable required room =>
      simp only [IdentityCall.subject] at other
      have values : (state.setMetadata agentId.toNat key value).metadata
          agent = state.metadata agent := by
        funext key
        rw [setMetadata_metadata, if_neg fun same => other same.1]
      have keys : (state.setMetadata agentId.toNat key value).metadataKeys
          agent = state.metadataKeys agent := by
        rcases state.setMetadata_metadataKeys agentId.toNat key value with
          ⟨_, isSame⟩ | ⟨_, isLonger⟩
        · rw [isSame]
        · rw [isLonger, Function.update_of_ne other]
      have uris := state.setEntries_agentUri agentId.toNat [⟨key, value⟩]
      unfold entriesOf
      rw [values, keys, setMetadata_agentWallet,
        (state.setMetadata_keeps agentId.toNat key value).1]
      simp only [setEntries, List.foldl_cons, List.foldl_nil] at uris
      rw [uris]
  | setAgentWallet caller agentId newWallet required =>
      simp only [IdentityCall.subject] at other
      simp [entriesOf, IdentityState.setAgentWallet, other]
  | unsetAgentWallet caller agentId required =>
      simp only [IdentityCall.subject] at other
      simp [entriesOf, removeAgentWallet, other]
  | transfer «from» «to» tokenId owned =>
      simp only [IdentityCall.subject] at other
      obtain ⟨values, keys, wallet, owner⟩ :=
        state.transferred_others «to» other
      unfold entriesOf
      rw [values, keys, wallet, owner]
      rfl
  | transferFrom spender «from» «to» tokenId owned approved =>
      simp only [IdentityCall.subject] at other
      obtain ⟨values, keys, wallet, owner⟩ :=
        state.transferred_others «to» other
      unfold entriesOf
      rw [values, keys, wallet, owner]
      rfl

/-- After a transfer nothing is readable. -/
theorem Takes.cleared {state after : IdentityState} {approvals : Approvals}
    {request : IdentityCall} (consistent : state.Consistent)
    (takes : state.Takes approvals request after) {agent : Nat}
    (transfers : request.transfers agent = true) :
    after.metadata agent = (fun _ => none) ∧
      after.agentWallet agent = none := by
  cases takes with
  | transfer «from» «to» tokenId owned =>
      obtain rfl : tokenId.toNat = agent := by
        simpa [IdentityCall.transfers] using transfers
      exact ⟨(consistent.recorded _).transferred «to»,
        Function.update_self _ _ _⟩
  | transferFrom spender «from» «to» tokenId owned approved =>
      obtain rfl : tokenId.toNat = agent := by
        simpa [IdentityCall.transfers] using transfers
      exact ⟨(consistent.recorded _).transferred «to»,
        Function.update_self _ _ _⟩
  | _ => cases transfers

/-- What a call other than a transfer leaves for its own agent. -/
theorem Takes.own {state after : IdentityState} {approvals : Approvals}
    {request : IdentityCall} (takes : state.Takes approvals request after)
    {agent : Nat} (mine : agent = request.subject state.nextTokenId)
    (keeps : request.transfers agent = false) :
    (∀ key, after.metadata agent key =
      (lastValue request.entries key).or (state.metadata agent key)) ∧
    ∀ wallet, after.agentWallet agent = some wallet →
      request.wallet = some wallet ∨
        state.agentWallet agent = some wallet := by
  subst mine
  have stored : ∀ caller agentUri entries key,
      (state.registered caller agentUri entries).metadata state.nextTokenId
        key = (lastValue entries key).or
          (state.metadata state.nextTokenId key) := by
    intro caller agentUri entries key
    rw [registered_metadata, if_pos rfl]
  have walleted : ∀ caller agentUri entries wallet,
      (state.registered caller agentUri entries).agentWallet
        state.nextTokenId = some wallet → some caller = some wallet := by
    intro caller agentUri entries wallet isWallet
    rwa [registered_agentWallet, Function.update_self] at isWallet
  cases takes with
  | register caller room =>
      exact ⟨stored caller none [],
        fun wallet isWallet => .inl (walleted _ _ _ _ isWallet)⟩
  | registerWithUri caller agentUri room =>
      exact ⟨stored caller (some agentUri) [],
        fun wallet isWallet => .inl (walleted _ _ _ _ isWallet)⟩
  | registerFull caller agentUri metadata few storable room =>
      exact ⟨stored caller (some agentUri) metadata,
        fun wallet isWallet => .inl (walleted _ _ _ _ isWallet)⟩
  | setAgentUri caller agentId newUri required =>
      exact ⟨fun key => rfl, fun wallet isWallet => .inr isWallet⟩
  | setMetadata caller agentId key value storable required room =>
      refine ⟨fun other => ?_, fun wallet isWallet => .inr ?_⟩
      · have written := state.setEntries_metadata agentId.toNat
          [⟨key, value⟩] agentId.toNat other
        rwa [if_pos rfl] at written
      · rwa [setMetadata_agentWallet] at isWallet
  | setAgentWallet caller agentId newWallet required =>
      have stored : (state.setAgentWallet agentId.toNat newWallet).agentWallet
          agentId.toNat = some newWallet := Function.update_self _ _ _
      exact ⟨fun key => rfl,
        fun wallet isWallet => .inl (stored.symm.trans isWallet)⟩
  | unsetAgentWallet caller agentId required =>
      have removed : (state.removeAgentWallet agentId.toNat).agentWallet
          agentId.toNat = none := Function.update_self _ _ _
      refine ⟨fun key => rfl, fun wallet isWallet => ?_⟩
      cases removed.symm.trans isWallet
  | transfer «from» «to» tokenId owned =>
      simp [IdentityCall.transfers, IdentityCall.subject] at keeps
  | transferFrom spender «from» «to» tokenId owned approved =>
      simp [IdentityCall.transfers, IdentityCall.subject] at keeps

/-! ## Since the last transfer -/

/-- A call of the history wrote something for an agent, and no later call
transferred the agent. -/
def WrittenSince (history : List IdentityAction) (agent : Nat)
    (Writes : IdentityCall → Prop) : Prop :=
  ∃ before action after middle, history = before ++ action :: after ∧
    Accepted step .initial before middle ∧
    action.2.subject middle.nextTokenId = agent ∧ Writes action.2 ∧
    ∀ later ∈ after, later.2.transfers agent = false

theorem WrittenSince.snoc {history : List IdentityAction} {agent : Nat}
    {Writes : IdentityCall → Prop}
    (written : WrittenSince history agent Writes) {action : IdentityAction}
    (keeps : action.2.transfers agent = false) :
    WrittenSince (history ++ [action]) agent Writes := by
  obtain ⟨before, writer, after, middle, rfl, run, about, writes, none⟩ :=
    written
  refine ⟨before, writer, after ++ [action], middle, by simp, run, about,
    writes, fun later member => ?_⟩
  rcases List.mem_append.mp member with old | new
  · exact none later old
  · rw [List.mem_singleton.mp new]
    exact keeps

theorem WrittenSince.mono {history : List IdentityAction} {agent : Nat}
    {Writes Weaker : IdentityCall → Prop}
    (written : WrittenSince history agent Writes)
    (implies : ∀ request, Writes request → Weaker request) :
    WrittenSince history agent Weaker := by
  obtain ⟨before, action, after, middle, isHistory, run, about, writes,
    none⟩ := written
  exact ⟨before, action, after, middle, isHistory, run, about,
    implies action.2 writes, none⟩

/-- What is readable in a state was written since the last transfer. -/
structure Traced (history : List IdentityAction) (state : IdentityState) :
    Prop where
  metadata : ∀ agent key value, state.metadata agent key = some value →
    WrittenSince history agent fun request =>
      lastValue request.entries key = some value
  agentWallet : ∀ agent wallet, state.agentWallet agent = some wallet →
    WrittenSince history agent fun request => request.wallet = some wallet

theorem Traced.step {history : List IdentityAction}
    {state after : IdentityState} {action : IdentityAction}
    (run : Accepted IdentityState.step .initial history state)
    (traced : Traced history state)
    (taken : state.step action = some after) :
    Traced (history ++ [action]) after := by
  have takes := step_takes taken
  have consistent := Consistent.run run
  have here : ∀ Writes : IdentityCall → Prop, Writes action.2 →
      WrittenSince (history ++ [action])
        (action.2.subject state.nextTokenId) Writes :=
    fun Writes writes => ⟨history, action, [], state, rfl, run, rfl, writes,
      fun later member => nomatch member⟩
  constructor
  · intro agent key value found
    cases keeps : action.2.transfers agent with
    | true =>
        rw [(takes.cleared consistent keeps).1] at found
        cases found
    | false =>
        by_cases mine : agent = action.2.subject state.nextTokenId
        · rw [(takes.own mine keeps).1, Option.or_eq_some_iff] at found
          rcases found with new | ⟨_, old⟩
          · rw [mine]
            exact here _ new
          · exact (traced.metadata agent key value old).snoc keeps
        · have same := congrArg Prod.fst (takes.others mine)
          apply (traced.metadata agent key value ?_).snoc keeps
          rw [← found]
          exact (congrFun same key).symm
  · intro agent wallet found
    cases keeps : action.2.transfers agent with
    | true =>
        rw [(takes.cleared consistent keeps).2] at found
        cases found
    | false =>
        by_cases mine : agent = action.2.subject state.nextTokenId
        · rcases (takes.own mine keeps).2 wallet found with new | old
          · rw [mine]
            exact here _ new
          · exact (traced.agentWallet agent wallet old).snoc keeps
        · have same := congrArg (·.2.2.1) (takes.others mine)
          apply (traced.agentWallet agent wallet ?_).snoc keeps
          rw [← found]
          exact same.symm

theorem Traced.run {history : List IdentityAction} {state : IdentityState}
    (run : Accepted IdentityState.step .initial history state) :
    Traced history state := by
  apply run.invariant Traced
  · exact ⟨fun _ _ _ found => (nomatch found),
      fun _ _ found => (nomatch found)⟩
  · exact fun run traced taken => traced.step run taken

/-- A key is readable only as it was written since the last transfer. -/
theorem Traced.getMetadata {history : List IdentityAction}
    {state : IdentityState} (traced : Traced history state) {agent : Nat}
    {key value : Bytes} (found : state.getMetadata agent key = some value) :
    WrittenSince history agent fun request =>
      request.writes key = some value := by
  unfold IdentityState.getMetadata at found
  split at found
  · rename_i reserved
    obtain ⟨wallet, isWallet, rfl⟩ := Option.map_eq_some_iff.mp found
    apply (traced.agentWallet agent wallet isWallet).mono
    intro request writes
    rw [IdentityCall.writes, if_pos reserved, writes]
    rfl
  · rename_i ordinary
    apply (traced.metadata agent key value found).mono
    intro request writes
    rw [IdentityCall.writes, if_neg ordinary, writes]

/-- After every run the record of keys is exact; a transfer leaves nothing
readable; whatever is readable was written since the last transfer; and a call
changes nothing of another agent. -/
theorem metadata_history {history : List IdentityAction}
    {state : IdentityState} (run : Accepted step .initial history state) :
    state.Consistent ∧
    (∀ action after, state.step action = some after →
      ∀ agent, action.2.transfers agent = true →
        (∀ key, after.getMetadata agent key = none) ∧
          after.getAgentWallet agent = none) ∧
    (∀ agent key value, state.getMetadata agent key = some value →
      WrittenSince history agent fun request =>
        request.writes key = some value) ∧
    (∀ agent wallet, state.getAgentWallet agent = some wallet →
      WrittenSince history agent fun request =>
        request.wallet = some wallet) ∧
    ∀ action after, state.step action = some after →
      ∀ agent, agent ≠ action.2.subject state.nextTokenId →
        after.entriesOf agent = state.entriesOf agent := by
  have consistent := Consistent.run run
  have traced := Traced.run run
  refine ⟨consistent, ?_, fun agent key value => traced.getMetadata,
    traced.agentWallet, ?_⟩
  · intro action after taken agent transfers
    obtain ⟨noMetadata, noWallet⟩ :=
      (step_takes taken).cleared consistent transfers
    refine ⟨fun key => ?_, noWallet⟩
    unfold IdentityState.getMetadata getAgentWallet
    rw [noMetadata, noWallet]
    split <;> rfl
  · exact fun action after taken agent other =>
      (step_takes taken).others other

/-- An agent registered with a key. -/
def namedHistory : List IdentityAction :=
  [(noApprovals, .registerFull firstOwner ⟨#[]⟩ [⟨utf8 "k", utf8 "v"⟩])]

def sale : IdentityAction :=
  (noApprovals, .transfer firstOwner secondOwner 0)

theorem metadata_history_sale :
    ∃ before after, Accepted step .initial namedHistory before ∧
      before.getMetadata 0 (utf8 "k") = some (utf8 "v") ∧
      before.step sale = some after ∧
      after.getMetadata 0 (utf8 "k") = none := by
  have named : Accepted step .initial namedHistory _ := .took .start rfl
  refine ⟨_, _, named, by decide, rfl, ?_⟩
  apply ((metadata_history named).2.1 sale _ ?_ 0 rfl).1
  rfl

end IdentityState

end Stellar8004.Contracts
