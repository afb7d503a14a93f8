import Stellar8004.Contracts.IdentityStorage
import Stellar8004.Contracts.ReputationStorage
import Stellar8004.Contracts.ValidationStorage
import Stellar8004.Library.Accepted

/-!
# Timelocked upgrades

The three registries carry the same upgrade procedure: the owner proposes a
code hash, and may execute the proposal once the timelock has passed, or cancel
it.  Whatever else is called in between, an executed hash is that of the last
proposal, which was made at least the timelock earlier.
-/

namespace Stellar8004.Contracts

open Stellar8004.Indexer

structure UpgradeProposal where
  wasmHash : Vector UInt8 32
  proposedAt : Nat
  deriving DecidableEq

/-- A contract's instance storage: its owner, the pending proposal and the
code it runs. -/
structure InstanceStorage where
  owner : Option Address
  pendingUpgrade : Option UpgradeProposal
  wasm : Vector UInt8 32

/-- What the upgrade procedures of the registries differ in: the timelock of
each and its error codes. -/
structure UpgradeTerms (ε : Type) where
  timelockLedgers : Nat
  noUpgradeProposed : ε
  timelockNotExpired : ε
  upgradeAlreadyProposed : ε
  panic : String → ε

section

variable {ε : Type} (terms : UpgradeTerms ε) (storage : InstanceStorage)
  (caller : Address) (sequence : UInt32)

/-- `#[only_owner]`. -/
def onlyOwner : Except ε Unit :=
  match storage.owner with
  | none => .error (terms.panic "OwnerNotSet")
  | some owner =>
      if caller = owner then .ok () else .error (terms.panic "Unauthorized")

def proposeUpgrade (newWasmHash : Vector UInt8 32) :
    Except ε InstanceStorage := do
  onlyOwner terms storage caller
  if storage.pendingUpgrade.isSome then .error terms.upgradeAlreadyProposed
  else
    return { storage with
      pendingUpgrade := some
        { wasmHash := newWasmHash, proposedAt := sequence.toNat } }

def cancelUpgrade : Except ε InstanceStorage := do
  onlyOwner terms storage caller
  if storage.pendingUpgrade.isNone then .error terms.noUpgradeProposed
  else return { storage with pendingUpgrade := none }

def executeUpgrade : Except ε InstanceStorage := do
  onlyOwner terms storage caller
  match storage.pendingUpgrade with
  | none => .error terms.noUpgradeProposed
  | some proposal =>
      -- Subtraction saturates, as `saturating_sub` does.
      let elapsed := sequence.toNat - proposal.proposedAt
      if elapsed < terms.timelockLedgers then
        .error terms.timelockNotExpired
      else
        return { storage with
          pendingUpgrade := none, wasm := proposal.wasmHash }

end

/-! ## The registries -/

/-- A registry's own calls, with what the host and the other contracts answer,
and its upgrade procedure. -/
structure Registry where
  State : Type
  Call : Type
  Error : Type
  initial : State
  call : State → UInt32 → Call → Except Error State
  proposeUpgrade : InstanceStorage → Address → UInt32 → Vector UInt8 32 →
    Except Error InstanceStorage
  cancelUpgrade : InstanceStorage → Address → Except Error InstanceStorage
  executeUpgrade : InstanceStorage → Address → UInt32 →
    Except Error InstanceStorage

namespace IdentityRegistry

def TIMELOCK_LEDGERS : Nat := 51840

def terms : UpgradeTerms IdentityError :=
  { timelockLedgers := TIMELOCK_LEDGERS
    noUpgradeProposed := .noUpgradeProposed
    timelockNotExpired := .timelockNotExpired
    upgradeAlreadyProposed := .upgradeAlreadyProposed, panic := .panic }

def proposeUpgrade := Contracts.proposeUpgrade terms
def cancelUpgrade := Contracts.cancelUpgrade terms
def executeUpgrade := Contracts.executeUpgrade terms

end IdentityRegistry

namespace ReputationRegistry

def TIMELOCK_LEDGERS : Nat := 51840

def terms : UpgradeTerms ReputationError :=
  { timelockLedgers := TIMELOCK_LEDGERS
    noUpgradeProposed := .noUpgradeProposed
    timelockNotExpired := .timelockNotExpired
    upgradeAlreadyProposed := .upgradeAlreadyProposed, panic := .panic }

def proposeUpgrade := Contracts.proposeUpgrade terms
def cancelUpgrade := Contracts.cancelUpgrade terms
def executeUpgrade := Contracts.executeUpgrade terms

end ReputationRegistry

namespace ValidationRegistry

def TIMELOCK_LEDGERS : Nat := 51840

def terms : UpgradeTerms ValidationError :=
  { timelockLedgers := TIMELOCK_LEDGERS
    noUpgradeProposed := .noUpgradeProposed
    timelockNotExpired := .timelockNotExpired
    upgradeAlreadyProposed := .upgradeAlreadyProposed, panic := .panic }

def proposeUpgrade := Contracts.proposeUpgrade terms
def cancelUpgrade := Contracts.cancelUpgrade terms
def executeUpgrade := Contracts.executeUpgrade terms

end ValidationRegistry

def registryOf : ContractName → Registry
  | .identity =>
      { State := IdentityState, Call := IdentityAction
        Error := IdentityError, initial := .initial
        call := fun state _ action =>
          Prod.fst <$> state.call action.1 action.2
        proposeUpgrade := IdentityRegistry.proposeUpgrade
        cancelUpgrade := IdentityRegistry.cancelUpgrade
        executeUpgrade := IdentityRegistry.executeUpgrade }
  | .reputation =>
      { State := ReputationState, Call := ReputationAction
        Error := ReputationError, initial := .initial
        call := fun state _ action =>
          Prod.fst <$> state.call action.1 action.2
        proposeUpgrade := ReputationRegistry.proposeUpgrade
        cancelUpgrade := ReputationRegistry.cancelUpgrade
        executeUpgrade := ReputationRegistry.executeUpgrade }
  | .validation =>
      { State := ValidationState, Call := OwnerAnswers × ValidationCall
        Error := ValidationError, initial := .initial
        call := fun state sequence action =>
          Prod.fst <$> state.call action.1 sequence.toNat action.2
        proposeUpgrade := ValidationRegistry.proposeUpgrade
        cancelUpgrade := ValidationRegistry.cancelUpgrade
        executeUpgrade := ValidationRegistry.executeUpgrade }

/-! ## Deployed contracts -/

structure Deployed (registry : Registry) where
  state : registry.State
  storage : InstanceStorage

/-- The calls of a deployed registry.  `ownership` stands for any call that
hands over or renounces the contract, by whom it leaves as owner. -/
inductive DeployedCall (registry : Registry) where
  | proposeUpgrade (caller : Address) (newWasmHash : Vector UInt8 32)
  | cancelUpgrade (caller : Address)
  | executeUpgrade (caller : Address)
  | ownership (owner : Option Address)
  | other (request : registry.Call)

/-- A call and the ledger it is made at. -/
structure DeployedAction (registry : Registry) where
  sequence : UInt32
  call : DeployedCall registry

namespace Deployed

variable {registry : Registry}

/-- As the constructor leaves it. -/
def deploy (registry : Registry) (owner : Address)
    (wasm : Vector UInt8 32) : Deployed registry :=
  { state := registry.initial
    storage := { owner := some owner, pendingUpgrade := none, wasm } }

def call (contract : Deployed registry) (sequence : UInt32) :
    DeployedCall registry → Except registry.Error (Deployed registry)
  | .proposeUpgrade caller newWasmHash => do
      let storage ← registry.proposeUpgrade contract.storage caller sequence
        newWasmHash
      return { contract with storage }
  | .cancelUpgrade caller => do
      let storage ← registry.cancelUpgrade contract.storage caller
      return { contract with storage }
  | .executeUpgrade caller => do
      let storage ← registry.executeUpgrade contract.storage caller sequence
      return { contract with storage }
  | .ownership owner =>
      .ok { contract with storage := { contract.storage with owner } }
  | .other request => do
      let state ← registry.call contract.state sequence request
      return { contract with state }

/-- A call that fails is discarded by the host. -/
def step (contract : Deployed registry) (action : DeployedAction registry) :
    Option (Deployed registry) :=
  (contract.call action.sequence action.call).toOption

/-- The contract after a call, whether it succeeds or fails. -/
def attempt (contract : Deployed registry)
    (action : DeployedAction registry) : Deployed registry :=
  (contract.step action).getD contract

end Deployed

/-! ## What each call does -/

section

variable {ε : Type} {terms : UpgradeTerms ε}
  {storage after : InstanceStorage} {caller : Address} {sequence : UInt32}

theorem owner_of_onlyOwner {result : Unit}
    (admitted : onlyOwner terms storage caller = .ok result) :
    storage.owner = some caller := by
  unfold onlyOwner at admitted
  split at admitted
  · cases admitted
  · rename_i owner found
    split at admitted
    · rename_i same
      rw [found, same]
    · cases admitted

theorem proposeUpgrade_ok {newWasmHash : Vector UInt8 32}
    (success : proposeUpgrade terms storage caller sequence newWasmHash =
      .ok after) :
    storage.owner = some caller ∧ storage.pendingUpgrade = none ∧
      after = { storage with
        pendingUpgrade := some
          { wasmHash := newWasmHash, proposedAt := sequence.toNat } } := by
  obtain ⟨_, admitted, rest⟩ := bind_ok_iff.mp success
  split at rest
  · cases rest
  · rename_i free
    cases rest
    exact ⟨owner_of_onlyOwner admitted, by simpa using free, rfl⟩

theorem cancelUpgrade_ok
    (success : cancelUpgrade terms storage caller = .ok after) :
    storage.owner = some caller ∧
      after = { storage with pendingUpgrade := none } := by
  obtain ⟨_, admitted, rest⟩ := bind_ok_iff.mp success
  split at rest
  · cases rest
  · cases rest
    exact ⟨owner_of_onlyOwner admitted, rfl⟩

theorem executeUpgrade_ok
    (success : executeUpgrade terms storage caller sequence = .ok after) :
    storage.owner = some caller ∧ ∃ proposal,
      storage.pendingUpgrade = some proposal ∧
      terms.timelockLedgers ≤ sequence.toNat - proposal.proposedAt ∧
      after = { storage with
        pendingUpgrade := none, wasm := proposal.wasmHash } := by
  obtain ⟨_, admitted, rest⟩ := bind_ok_iff.mp success
  split at rest
  · cases rest
  · rename_i proposal found
    dsimp only at rest
    split at rest
    · cases rest
    · rename_i expired
      cases rest
      exact ⟨owner_of_onlyOwner admitted, proposal, found,
        Nat.not_lt.mp expired, rfl⟩

end

namespace Deployed

/-- The calls that succeed, by what they do to instance storage. -/
inductive Takes {registry : Registry} (storage : InstanceStorage)
    (sequence : UInt32) :
    DeployedCall registry → InstanceStorage → Prop where
  | proposeUpgrade (caller : Address) (newWasmHash : Vector UInt8 32)
      (owned : storage.owner = some caller)
      (free : storage.pendingUpgrade = none) :
      Takes storage sequence (.proposeUpgrade caller newWasmHash)
        { storage with
          pendingUpgrade := some
            { wasmHash := newWasmHash, proposedAt := sequence.toNat } }
  | cancelUpgrade (caller : Address)
      (owned : storage.owner = some caller) :
      Takes storage sequence (.cancelUpgrade caller)
        { storage with pendingUpgrade := none }
  | executeUpgrade {proposal : UpgradeProposal} (caller : Address)
      (owned : storage.owner = some caller)
      (pending : storage.pendingUpgrade = some proposal)
      (expired : proposal.proposedAt + 51840 ≤ sequence.toNat) :
      Takes storage sequence (.executeUpgrade caller)
        { storage with pendingUpgrade := none, wasm := proposal.wasmHash }
  | ownership (owner : Option Address) :
      Takes storage sequence (.ownership owner) { storage with owner }
  | other (request : registry.Call) :
      Takes storage sequence (.other request) storage

theorem step_takes {name : ContractName}
    {contract after : Deployed (registryOf name)}
    {action : DeployedAction (registryOf name)}
    (taken : contract.step action = some after) :
    Takes contract.storage action.sequence action.call after.storage := by
  have success : contract.call action.sequence action.call = .ok after := by
    unfold step at taken
    cases called : contract.call action.sequence action.call with
    | error failure =>
        rw [called] at taken
        cases taken
    | ok reached =>
        rw [called] at taken
        cases taken
        rfl
  generalize action.call = request at success
  cases request with
  | proposeUpgrade caller newWasmHash =>
      obtain ⟨storage, proposed, rest⟩ := bind_ok_iff.mp success
      cases rest
      have spec : contract.storage.owner = some caller ∧
          contract.storage.pendingUpgrade = none ∧ storage =
            { contract.storage with
              pendingUpgrade := some
                { wasmHash := newWasmHash
                  proposedAt := action.sequence.toNat } } := by
        cases name <;> exact proposeUpgrade_ok proposed
      obtain ⟨owned, free, rfl⟩ := spec
      exact .proposeUpgrade caller newWasmHash owned free
  | cancelUpgrade caller =>
      obtain ⟨storage, cancelled, rest⟩ := bind_ok_iff.mp success
      cases rest
      have spec : contract.storage.owner = some caller ∧
          storage = { contract.storage with pendingUpgrade := none } := by
        cases name <;> exact cancelUpgrade_ok cancelled
      obtain ⟨owned, rfl⟩ := spec
      exact .cancelUpgrade caller owned
  | executeUpgrade caller =>
      obtain ⟨storage, executed, rest⟩ := bind_ok_iff.mp success
      cases rest
      have spec : contract.storage.owner = some caller ∧ ∃ proposal,
          contract.storage.pendingUpgrade = some proposal ∧
          51840 ≤ action.sequence.toNat - proposal.proposedAt ∧ storage =
            { contract.storage with
              pendingUpgrade := none, wasm := proposal.wasmHash } := by
        cases name <;> exact executeUpgrade_ok executed
      obtain ⟨owned, proposal, pending, expired, rfl⟩ := spec
      exact .executeUpgrade caller owned pending (by omega)
  | ownership owner =>
      cases success
      exact .ownership owner
  | other request =>
      obtain ⟨state, _, rest⟩ := bind_ok_iff.mp success
      cases rest
      exact .other request

/-! ## Histories -/

section

variable {registry : Registry}

/-- The three calls of the upgrade procedure. -/
def upgrades (action : DeployedAction registry) : Bool :=
  match action.call with
  | .proposeUpgrade _ _ => true
  | .cancelUpgrade _ => true
  | .executeUpgrade _ => true
  | .ownership _ => false
  | .other _ => false

def lastUpgrade (history : List (DeployedAction registry)) :
    Option (DeployedAction registry) :=
  history.reverse.find? upgrades

/-- What the last upgrade call leaves pending. -/
def pendingAfter : Option (DeployedAction registry) → Option UpgradeProposal
  | none => none
  | some action =>
      match action.call with
      | .proposeUpgrade _ newWasmHash =>
          some { wasmHash := newWasmHash
                 proposedAt := action.sequence.toNat }
      | _ => none

theorem lastUpgrade_append (front back : List (DeployedAction registry))
    (action : DeployedAction registry) :
    lastUpgrade (front ++ action :: back) =
      (lastUpgrade back).or
        (if upgrades action then some action else lastUpgrade front) := by
  unfold lastUpgrade
  rw [List.reverse_append, List.reverse_cons, List.append_assoc,
    List.find?_append, List.singleton_append, List.find?_cons]
  cases upgrades action <;> rfl

theorem exists_lastUpgrade {history : List (DeployedAction registry)}
    {action : DeployedAction registry}
    (last : lastUpgrade history = some action) :
    ∃ front back, history = front ++ action :: back ∧
      ∀ later ∈ back, upgrades later = false := by
  obtain ⟨_, back, front, isReverse, none⟩ :=
    List.find?_eq_some_iff_append.mp last
  refine ⟨front.reverse, back.reverse, ?_, fun later member => ?_⟩
  · have isHistory := congrArg List.reverse isReverse
    rw [List.reverse_reverse, List.reverse_append, List.reverse_cons,
      List.append_assoc, List.singleton_append] at isHistory
    exact isHistory
  · simpa using none later (List.mem_reverse.mp member)

theorem proposal_of_pendingAfter {last : Option (DeployedAction registry)}
    {proposal : UpgradeProposal}
    (pending : pendingAfter last = some proposal) :
    ∃ action proposer, last = some action ∧
      action.call = .proposeUpgrade proposer proposal.wasmHash ∧
      action.sequence.toNat = proposal.proposedAt := by
  cases last with
  | none => cases pending
  | some action =>
      simp only [pendingAfter] at pending
      split at pending
      · rename_i proposer newWasmHash isCall
        cases pending
        exact ⟨action, proposer, rfl, isCall, rfl⟩
      · cases pending

end

section

variable {name : ContractName} {owner : Address} {wasm : Vector UInt8 32}
  {history : List (DeployedAction (registryOf name))}
  {contract : Deployed (registryOf name)}

/-- The pending proposal is the last upgrade call, if that proposed. -/
theorem pendingUpgrade_eq
    (run : Accepted step (deploy (registryOf name) owner wasm) history
      contract) :
    contract.storage.pendingUpgrade = pendingAfter (lastUpgrade history) := by
  apply run.invariant fun history contract =>
    contract.storage.pendingUpgrade = pendingAfter (lastUpgrade history)
  · rfl
  · intro history contract action after earlier pending taken
    have takes := step_takes taken
    rw [lastUpgrade_append]
    generalize isStorage : after.storage = storage at takes
    generalize isCall : action.call = request at takes
    cases takes with
    | proposeUpgrade caller newWasmHash owned free =>
        simp [upgrades, isCall, lastUpgrade, pendingAfter]
    | cancelUpgrade caller owned =>
        simp [upgrades, isCall, lastUpgrade, pendingAfter]
    | executeUpgrade caller owned was expired =>
        simp [upgrades, isCall, lastUpgrade, pendingAfter]
    | ownership owner =>
        simpa [upgrades, isCall, lastUpgrade] using pending
    | other request =>
        simpa [upgrades, isCall, lastUpgrade] using pending

/-- An execution installs the hash of the last upgrade call before it, a
proposal at least the timelock old. -/
theorem execution_timelocked {before after : List (DeployedAction _)}
    {action : DeployedAction (registryOf name)} {caller : Address}
    (run : Accepted step (deploy (registryOf name) owner wasm)
      (before ++ action :: after) contract)
    (executes : action.call = .executeUpgrade caller) :
    ∃ proposing proposer hash next,
      lastUpgrade before = some proposing ∧
      proposing.call = .proposeUpgrade proposer hash ∧
      proposing.sequence.toNat + 51840 ≤ action.sequence.toNat ∧
      Accepted step (deploy (registryOf name) owner wasm)
        (before ++ [action]) next ∧
      next.storage.wasm = hash := by
  obtain ⟨middle, next, prior, taken, _⟩ := run.split
  have takes := step_takes taken
  rw [executes] at takes
  generalize isStorage : next.storage = storage at takes
  cases takes with
  | executeUpgrade caller owned pending expired =>
      rw [pendingUpgrade_eq prior] at pending
      obtain ⟨proposing, proposer, isLast, proposes, isTime⟩ :=
        proposal_of_pendingAfter pending
      refine ⟨proposing, proposer, _, next, isLast, proposes, by omega,
        .took prior taken, ?_⟩
      rw [isStorage]

theorem proposal_owned {before after : List (DeployedAction _)}
    {action : DeployedAction (registryOf name)} {caller : Address}
    {hash : Vector UInt8 32}
    (run : Accepted step (deploy (registryOf name) owner wasm)
      (before ++ action :: after) contract)
    (proposes : action.call = .proposeUpgrade caller hash) :
    ∃ middle, Accepted step (deploy (registryOf name) owner wasm) before
        middle ∧
      middle.storage.owner = some caller ∧
      pendingAfter (lastUpgrade before) = none := by
  obtain ⟨middle, next, prior, taken, _⟩ := run.split
  have takes := step_takes taken
  rw [proposes] at takes
  generalize next.storage = storage at takes
  cases takes with
  | proposeUpgrade caller newWasmHash owned free =>
      exact ⟨middle, prior, owned, pendingUpgrade_eq prior ▸ free⟩

/-- In every run of a registry: an execution installs exactly the hash proposed
by the owner of the time at least the timelock earlier, with no upgrade call in
between; a proposal follows another only after the first was cancelled or
executed; an execution follows another only after a proposal of its own; and a
failed call leaves the pending proposal. -/
theorem upgrades_timelocked
    (run : Accepted step (deploy (registryOf name) owner wasm) history
      contract) :
    (∀ before action after caller, history = before ++ action :: after →
      action.call = .executeUpgrade caller →
      ∃ front proposing back proposer hash middle next,
        before = front ++ proposing :: back ∧
        proposing.call = .proposeUpgrade proposer hash ∧
        proposing.sequence.toNat + 51840 ≤ action.sequence.toNat ∧
        (∀ between ∈ back, upgrades between = false) ∧
        Accepted step (deploy (registryOf name) owner wasm) front middle ∧
        middle.storage.owner = some proposer ∧
        Accepted step (deploy (registryOf name) owner wasm)
          (before ++ [action]) next ∧
        next.storage.wasm = hash) ∧
    (∀ front first between second after firstCaller firstHash secondCaller
      secondHash,
      history = (front ++ first :: between) ++ second :: after →
      first.call = .proposeUpgrade firstCaller firstHash →
      second.call = .proposeUpgrade secondCaller secondHash →
      ∃ ending ∈ between, (∃ caller, ending.call = .cancelUpgrade caller) ∨
        ∃ caller, ending.call = .executeUpgrade caller) ∧
    (∀ front first between second after firstCaller secondCaller,
      history = (front ++ first :: between) ++ second :: after →
      first.call = .executeUpgrade firstCaller →
      second.call = .executeUpgrade secondCaller →
      ∃ proposing ∈ between, ∃ proposer hash,
        proposing.call = .proposeUpgrade proposer hash) ∧
    ∀ action, contract.step action = none →
      (contract.attempt action).storage.pendingUpgrade =
        contract.storage.pendingUpgrade := by
  refine ⟨?_, ?_, ?_, ?_⟩
  · rintro before action after caller rfl executes
    obtain ⟨proposing, proposer, hash, next, isLast, proposes, expired,
      reached, installed⟩ := execution_timelocked run executes
    obtain ⟨front, back, rfl, none⟩ := exists_lastUpgrade isLast
    rw [List.append_assoc, List.cons_append] at run
    obtain ⟨middle, prior, owned, _⟩ := proposal_owned run proposes
    exact ⟨front, proposing, back, proposer, hash, middle, next, rfl,
      proposes, expired, none, prior, owned, reached, installed⟩
  · rintro front first between second after firstCaller firstHash
      secondCaller secondHash rfl isFirst isSecond
    obtain ⟨_, _, _, free⟩ := proposal_owned run isSecond
    rw [lastUpgrade_append] at free
    cases isLast : lastUpgrade between with
    | none => simp [isLast, upgrades, isFirst, pendingAfter] at free
    | some ending =>
        obtain ⟨early, late, isBetween, _⟩ := exists_lastUpgrade isLast
        have upgrading : upgrades ending = true :=
          List.find?_some isLast
        refine ⟨ending, by simp [isBetween], ?_⟩
        rw [isLast] at free
        simp only [Option.or, pendingAfter] at free
        cases isCall : ending.call with
        | proposeUpgrade caller hash => simp [isCall] at free
        | cancelUpgrade caller => exact .inl ⟨caller, rfl⟩
        | executeUpgrade caller => exact .inr ⟨caller, rfl⟩
        | ownership owner => simp [upgrades, isCall] at upgrading
        | other request => simp [upgrades, isCall] at upgrading
  · rintro front first between second after firstCaller secondCaller rfl
      isFirst isSecond
    obtain ⟨proposing, proposer, hash, _, isLast, proposes, _⟩ :=
      execution_timelocked run isSecond
    rw [lastUpgrade_append] at isLast
    cases isBetween : lastUpgrade between with
    | none =>
        simp only [isBetween, upgrades, isFirst, Option.none_or, if_true,
          Option.some.injEq] at isLast
        rw [← isLast, isFirst] at proposes
        cases proposes
    | some ending =>
        obtain ⟨early, late, same, _⟩ := exists_lastUpgrade isBetween
        rw [isBetween, Option.some_or, Option.some.injEq] at isLast
        refine ⟨proposing, by simp [same, isLast], proposer, hash, proposes⟩
  · intro action failed
    simp only [attempt, failed, Option.getD_none]

end

/-- A proposal and its execution once the timelock has passed. -/
def executedHistory : List (DeployedAction (registryOf .reputation)) :=
  [⟨100, .proposeUpgrade firstOwner (Vector.replicate 32 9)⟩,
    ⟨51940, .executeUpgrade firstOwner⟩]

theorem upgrades_timelocked_executed :
    ∃ contract, Accepted step
        (deploy (registryOf .reputation) firstOwner (Vector.replicate 32 0))
        executedHistory contract ∧
      ∃ front proposing back proposer hash middle next,
        [⟨100, .proposeUpgrade firstOwner (Vector.replicate 32 9)⟩] =
          front ++ proposing :: back ∧
        proposing.call = .proposeUpgrade proposer hash ∧
        proposing.sequence.toNat + 51840 ≤ 51940 ∧
        (∀ between ∈ back, upgrades between = false) ∧
        Accepted step (deploy (registryOf .reputation) firstOwner
          (Vector.replicate 32 0)) front middle ∧
        middle.storage.owner = some proposer ∧
        Accepted step (deploy (registryOf .reputation) firstOwner
          (Vector.replicate 32 0)) executedHistory next ∧
        next.storage.wasm = hash := by
  have run : Accepted step (deploy (registryOf .reputation) firstOwner
      (Vector.replicate 32 0)) executedHistory _ :=
    .took (.took .start rfl) rfl
  refine ⟨_, run, ?_⟩
  exact (upgrades_timelocked run).1 _ ⟨51940, .executeUpgrade firstOwner⟩ []
    firstOwner rfl rfl

end Deployed

end Stellar8004.Contracts
