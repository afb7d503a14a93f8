import Stellar8004.Contracts.IdentityStorage

/-!
# Lifetimes of entries

`extend_ttl` of the identity registry.  An entry of the persistent storage has
a remaining lifetime in ledgers; the call extends what is stored for an agent,
and finds the metadata entries through the record of their keys.
-/

namespace Stellar8004.Contracts

def TTL_THRESHOLD : Nat := 518400
def TTL_BUMP : Nat := 1036800

/-- The lifetimes of OpenZeppelin's entries. -/
structure TokenLifetimes where
  OWNER_TTL_THRESHOLD : Nat
  OWNER_EXTEND_AMOUNT : Nat
  BALANCE_TTL_THRESHOLD : Nat
  BALANCE_EXTEND_AMOUNT : Nat
  owner_le : OWNER_TTL_THRESHOLD ≤ OWNER_EXTEND_AMOUNT
  balance_le : BALANCE_TTL_THRESHOLD ≤ BALANCE_EXTEND_AMOUNT

/-- `DataKey` and `NFTStorageKey`, as far as they are persistent. -/
inductive StorageKey where
  | agentUri (agentId : Nat)
  | agentWallet (agentId : Nat)
  | metadataKeys (agentId : Nat)
  | metadata (agentId : Nat) (key : Bytes)
  | owner (tokenId : Nat)
  | balance (account : Address)
  deriving DecidableEq

/-- The registry, the balances of OpenZeppelin's tokens and the remaining
lifetimes. -/
structure Ledger where
  state : IdentityState
  balance : Address → Option Nat
  instanceTtl : Nat
  ttl : StorageKey → Nat

/-- What the host's `extend_ttl(threshold, bump)` makes of a lifetime. -/
def extended (threshold bump ttl : Nat) : Nat :=
  if ttl < threshold then bump else ttl

namespace Ledger

/-- A list of keys is stored as soon as it has one and removed as a whole. -/
def has (ledger : Ledger) : StorageKey → Bool
  | .agentUri agentId => (ledger.state.agentUri agentId).isSome
  | .agentWallet agentId => (ledger.state.agentWallet agentId).isSome
  | .metadataKeys agentId => !(ledger.state.metadataKeys agentId).isEmpty
  | .metadata agentId key => (ledger.state.metadata agentId key).isSome
  | .owner tokenId => (ledger.state.owner tokenId).isSome
  | .balance account => (ledger.balance account).isSome

def extendTtl (ledger : Ledger) (key : StorageKey) (threshold bump : Nat) :
    Ledger :=
  { ledger with
    ttl := Function.update ledger.ttl key
      (extended threshold bump (ledger.ttl key)) }

/-- `if has(&key) { extend_ttl(&key, …) }`. -/
def extendHeld (ledger : Ledger) (key : StorageKey) (threshold bump : Nat) :
    Ledger :=
  if ledger.has key then ledger.extendTtl key threshold bump else ledger

def extendInstanceTtl (ledger : Ledger) : Ledger :=
  { ledger with
    instanceTtl := extended TTL_THRESHOLD TTL_BUMP ledger.instanceTtl }

def extendMetadata (ledger : Ledger) (agentId : Nat) : Ledger :=
  match ledger.state.metadataKeys agentId with
  | [] => ledger
  | first :: rest =>
      (first :: rest).foldl (fun ledger key =>
          ledger.extendHeld (.metadata agentId key) TTL_THRESHOLD TTL_BUMP)
        (ledger.extendTtl (.metadataKeys agentId) TTL_THRESHOLD TTL_BUMP)

def extendToken (ledger : Ledger) (tokens : TokenLifetimes) (agentId : Nat) :
    Ledger :=
  match ledger.state.owner agentId with
  | none => ledger
  | some owner =>
      (ledger.extendTtl (.owner agentId) tokens.OWNER_TTL_THRESHOLD
        tokens.OWNER_EXTEND_AMOUNT).extendHeld (.balance owner)
          tokens.BALANCE_TTL_THRESHOLD tokens.BALANCE_EXTEND_AMOUNT

def extendAgentTtl (ledger : Ledger) (tokens : TokenLifetimes)
    (agentId : Nat) : Ledger :=
  let ledger := ledger.extendHeld (.agentUri agentId) TTL_THRESHOLD TTL_BUMP
  let ledger :=
    ledger.extendHeld (.agentWallet agentId) TTL_THRESHOLD TTL_BUMP
  let ledger := ledger.extendMetadata agentId
  ledger.extendToken tokens agentId

/-- The entry point `extend_ttl`. -/
def extendTtlOf (ledger : Ledger) (tokens : TokenLifetimes)
    (agentId : UInt32) : Ledger :=
  ledger.extendInstanceTtl.extendAgentTtl tokens agentId.toNat

/-! ## Reachable ledgers -/

/-- `Base::update` on the balances. -/
def moved (balance : Address → Option Nat) :
    IdentityEvent → Address → Option Nat
  | .mint «to» _ => increased balance «to»
  | .transfer «from» «to» _ =>
      increased (Function.update balance «from»
        (some ((balance «from»).getD 0 - 1))) «to»
  | _ => balance
where
  increased (balance : Address → Option Nat) («to» : Address) :
      Address → Option Nat :=
    Function.update balance «to» (some ((balance «to»).getD 0 + 1))

/-- After calls from the start, with any lifetimes: ledgers close between the
calls, and entries are extended as they are used. -/
inductive Reached : Ledger → Prop where
  | deployed (instanceTtl : Nat) (ttl : StorageKey → Nat) :
      Reached { state := .initial, balance := fun _ => none
                instanceTtl, ttl }
  | called {ledger : Ledger} {after : IdentityState}
      {events : List IdentityEvent} (before : Reached ledger)
      (approvals : Approvals) (request : IdentityCall)
      (success : ledger.state.call approvals request = .ok (after, events))
      (instanceTtl : Nat) (ttl : StorageKey → Nat) :
      Reached { state := after, balance := events.foldl moved ledger.balance
                instanceTtl, ttl }

end Ledger

/-- The entries of an agent: its own and the balance of its owner. -/
inductive Belongs (state : IdentityState) (agentId : Nat) :
    StorageKey → Prop where
  | agentUri : Belongs state agentId (.agentUri agentId)
  | agentWallet : Belongs state agentId (.agentWallet agentId)
  | metadataKeys : Belongs state agentId (.metadataKeys agentId)
  | metadata (key : Bytes) : Belongs state agentId (.metadata agentId key)
  | owner : Belongs state agentId (.owner agentId)
  | balance {account : Address} (owns : state.owner agentId = some account) :
      Belongs state agentId (.balance account)

def TokenLifetimes.threshold (tokens : TokenLifetimes) : StorageKey → Nat
  | .owner _ => tokens.OWNER_TTL_THRESHOLD
  | .balance _ => tokens.BALANCE_TTL_THRESHOLD
  | _ => TTL_THRESHOLD

namespace Ledger

/-! ## One extension -/

theorem le_extended {threshold bump : Nat} (fits : threshold ≤ bump)
    (ttl : Nat) : ttl ≤ extended threshold bump ttl := by
  unfold extended
  split <;> omega

theorem threshold_le_extended {threshold bump : Nat} (fits : threshold ≤ bump)
    (ttl : Nat) : threshold ≤ extended threshold bump ttl := by
  unfold extended
  split <;> omega

theorem threshold_le_bump : TTL_THRESHOLD ≤ TTL_BUMP := by decide

theorem extendTtl_ttl_self (ledger : Ledger) (key : StorageKey)
    (threshold bump : Nat) :
    (ledger.extendTtl key threshold bump).ttl key =
      extended threshold bump (ledger.ttl key) :=
  Function.update_self key _ ledger.ttl

theorem extendTtl_ttl_of_ne (ledger : Ledger) {key other : StorageKey}
    (threshold bump : Nat) (different : other ≠ key) :
    (ledger.extendTtl key threshold bump).ttl other = ledger.ttl other :=
  Function.update_of_ne different _ ledger.ttl

/-- Lifetimes have grown, for some keys at most, and nothing else. -/
structure Extends (keys : StorageKey → Prop) (before after : Ledger) :
    Prop where
  state : after.state = before.state
  balance : after.balance = before.balance
  instanceTtl : before.instanceTtl ≤ after.instanceTtl
  grows : ∀ key, before.ttl key ≤ after.ttl key
  others : ∀ key, ¬keys key → after.ttl key = before.ttl key

namespace Extends

variable {keys : StorageKey → Prop} {before middle after : Ledger}

theorem refl (ledger : Ledger) : Extends keys ledger ledger :=
  ⟨rfl, rfl, Nat.le_refl _, fun _ => Nat.le_refl _, fun _ _ => rfl⟩

theorem trans (first : Extends keys before middle)
    (second : Extends keys middle after) : Extends keys before after where
  state := second.state.trans first.state
  balance := second.balance.trans first.balance
  instanceTtl := first.instanceTtl.trans second.instanceTtl
  grows key := (first.grows key).trans (second.grows key)
  others key absent :=
    (second.others key absent).trans (first.others key absent)

theorem has (extension : Extends keys before after) (key : StorageKey) :
    after.has key = before.has key := by
  cases key <;> simp only [Ledger.has, extension.state, extension.balance]

theorem mono {others : StorageKey → Prop}
    (implies : ∀ key, keys key → others key)
    (extension : Extends keys before after) : Extends others before after :=
  { extension with
    others := fun key absent =>
      extension.others key fun inside => absent (implies key inside) }

end Extends

section

variable (ledger : Ledger) (key : StorageKey) {threshold bump : Nat}
  (fits : threshold ≤ bump)

include fits

theorem extends_extendTtl :
    Extends (· = key) ledger (ledger.extendTtl key threshold bump) where
  state := rfl
  balance := rfl
  instanceTtl := Nat.le_refl _
  grows other := by
    by_cases same : other = key
    · rw [same, extendTtl_ttl_self]
      exact le_extended fits _
    · rw [ledger.extendTtl_ttl_of_ne threshold bump same]
  others other different :=
    ledger.extendTtl_ttl_of_ne threshold bump different

theorem threshold_le_extendTtl :
    threshold ≤ (ledger.extendTtl key threshold bump).ttl key := by
  rw [extendTtl_ttl_self]
  exact threshold_le_extended fits _

theorem extends_extendHeld :
    Extends (· = key) ledger (ledger.extendHeld key threshold bump) := by
  unfold extendHeld
  split
  · exact ledger.extends_extendTtl key fits
  · exact Extends.refl ledger

theorem threshold_le_extendHeld (held : ledger.has key = true) :
    threshold ≤ (ledger.extendHeld key threshold bump).ttl key := by
  unfold extendHeld
  rw [if_pos held]
  exact ledger.threshold_le_extendTtl key fits

end

/-! ## The metadata -/

/-- The loop over the keys extends the entry of each. -/
theorem foldl_extendHeld (agentId : Nat) (keys : List Bytes)
    (ledger : Ledger) :
    Extends (fun key => ∃ name ∈ keys, key = .metadata agentId name) ledger
        (keys.foldl (fun ledger key => ledger.extendHeld
          (.metadata agentId key) TTL_THRESHOLD TTL_BUMP) ledger) ∧
      ∀ name ∈ keys, ledger.has (.metadata agentId name) = true →
        TTL_THRESHOLD ≤ (keys.foldl (fun ledger key => ledger.extendHeld
          (.metadata agentId key) TTL_THRESHOLD TTL_BUMP) ledger).ttl
            (.metadata agentId name) := by
  induction keys generalizing ledger with
  | nil =>
      refine ⟨Extends.refl ledger, fun _ member => (nomatch member)⟩
  | cons first rest induction =>
      have here := ledger.extends_extendHeld (.metadata agentId first)
        threshold_le_bump
      obtain ⟨later, covered⟩ := induction (ledger.extendHeld
        (.metadata agentId first) TTL_THRESHOLD TTL_BUMP)
      rw [List.foldl_cons]
      constructor
      · apply Extends.trans
        · apply here.mono
          intro key same
          exact ⟨first, List.mem_cons_self, same⟩
        · apply later.mono
          intro key ⟨name, member, same⟩
          exact ⟨name, List.mem_cons_of_mem first member, same⟩
      · intro name member held
        rcases List.mem_cons.mp member with rfl | inRest
        · exact (ledger.threshold_le_extendHeld _ threshold_le_bump
            held).trans (later.grows _)
        · apply covered name inRest
          rw [here.has]
          exact held

theorem extends_extendMetadata (ledger : Ledger) (agentId : Nat) :
    Extends (fun key => key = .metadataKeys agentId ∨
        ∃ name, key = .metadata agentId name) ledger
      (ledger.extendMetadata agentId) := by
  unfold extendMetadata
  split
  · exact Extends.refl ledger
  · rename_i first rest isKeys
    apply Extends.trans
    · apply (ledger.extends_extendTtl (.metadataKeys agentId)
        threshold_le_bump).mono
      exact fun _ same => .inl same
    · apply (foldl_extendHeld agentId (first :: rest) _).1.mono
      exact fun _ ⟨name, _, same⟩ => .inr ⟨name, same⟩

/-- The record of the keys leads to every metadata entry that is stored. -/
theorem threshold_le_extendMetadata {ledger : Ledger} {agentId : Nat}
    (recorded : ledger.state.Recorded agentId) :
    (ledger.has (.metadataKeys agentId) = true → TTL_THRESHOLD ≤
        (ledger.extendMetadata agentId).ttl (.metadataKeys agentId)) ∧
      ∀ name, ledger.has (.metadata agentId name) = true → TTL_THRESHOLD ≤
        (ledger.extendMetadata agentId).ttl (.metadata agentId name) := by
  have listed : ∀ name, ledger.has (.metadata agentId name) = true →
      name ∈ ledger.state.metadataKeys agentId :=
    fun name held => (recorded.listed name).mpr held
  unfold extendMetadata
  split
  · rename_i isKeys
    rw [isKeys] at listed
    constructor
    · intro held
      simp [has, isKeys] at held
    · intro name held
      exact (nomatch listed name held)
  · rename_i first rest isKeys
    rw [isKeys] at listed
    obtain ⟨later, covered⟩ := foldl_extendHeld agentId (first :: rest)
      (ledger.extendTtl (.metadataKeys agentId) TTL_THRESHOLD TTL_BUMP)
    constructor
    · intro _
      exact (ledger.threshold_le_extendTtl _ threshold_le_bump).trans
        (later.grows _)
    · intro name held
      apply covered name (listed name held)
      rw [(ledger.extends_extendTtl _ threshold_le_bump).has]
      exact held

/-! ## The token -/

section

variable (tokens : TokenLifetimes)

theorem extends_extendToken (ledger : Ledger) (agentId : Nat) :
    Extends (fun key => key = .owner agentId ∨ ∃ account,
        ledger.state.owner agentId = some account ∧ key = .balance account)
      ledger (ledger.extendToken tokens agentId) := by
  unfold extendToken
  split
  · exact Extends.refl ledger
  · rename_i owner isOwner
    apply Extends.trans
    · apply (ledger.extends_extendTtl (.owner agentId) tokens.owner_le).mono
      exact fun _ same => .inl same
    · apply (extends_extendHeld _ (.balance owner) tokens.balance_le).mono
      exact fun _ same => .inr ⟨owner, isOwner, same⟩

theorem threshold_le_extendToken {ledger : Ledger} {agentId : Nat}
    {owner : Address} (isOwner : ledger.state.owner agentId = some owner) :
    tokens.OWNER_TTL_THRESHOLD ≤
        (ledger.extendToken tokens agentId).ttl (.owner agentId) ∧
      (ledger.has (.balance owner) = true → tokens.BALANCE_TTL_THRESHOLD ≤
        (ledger.extendToken tokens agentId).ttl (.balance owner)) := by
  have first := ledger.extends_extendTtl (.owner agentId) tokens.owner_le
  simp only [extendToken, isOwner]
  constructor
  · exact (ledger.threshold_le_extendTtl _ tokens.owner_le).trans
      ((extends_extendHeld _ (.balance owner) tokens.balance_le).grows _)
  · intro held
    apply threshold_le_extendHeld _ _ tokens.balance_le
    rw [first.has]
    exact held

end

/-! ## Reached ledgers -/

theorem Reached.accepted {ledger : Ledger} (reached : Reached ledger) :
    ∃ history, Accepted IdentityState.step .initial history ledger.state := by
  induction reached with
  | deployed => exact ⟨[], .start⟩
  | called before approvals request success instanceTtl ttl induction =>
      obtain ⟨history, run⟩ := induction
      refine ⟨history ++ [(approvals, request)], run.took ?_⟩
      unfold IdentityState.step
      rw [success]

/-- An event leaves the balances that are stored in place. -/
theorem moved_isSome {balance : Address → Option Nat} {account : Address}
    (held : (balance account).isSome = true) (event : IdentityEvent) :
    (moved balance event account).isSome = true := by
  have increase : ∀ {balance : Address → Option Nat} («to» : Address),
      (balance account).isSome = true →
        (moved.increased balance «to» account).isSome = true := by
    intro balance «to» held
    unfold moved.increased
    rw [Function.update_apply]
    split
    · rfl
    · exact held
  cases event with
  | mint «to» _ => exact increase «to» held
  | transfer «from» «to» _ =>
      apply increase «to»
      rw [Function.update_apply]
      split
      · rfl
      · exact held
  | _ => exact held

theorem foldl_moved_isSome {events : List IdentityEvent}
    {balance : Address → Option Nat} {account : Address}
    (held : (balance account).isSome = true) :
    (events.foldl moved balance account).isSome = true := by
  induction events generalizing balance with
  | nil => exact held
  | cons event events induction =>
      exact induction (moved_isSome held event)

theorem moved_to (balance : Address → Option Nat) («to» : Address) :
    (moved.increased balance «to» «to»).isSome = true := by
  unfold moved.increased
  rw [Function.update_self]
  rfl

/-- After a call, every owner is an earlier one or has been given a token. -/
theorem owner_held {state after : IdentityState} {events : List IdentityEvent}
    (performs : state.Performs after events)
    {balance : Address → Option Nat}
    (held : ∀ agent owner, state.owner agent = some owner →
      (balance owner).isSome = true) {agent : Nat} {owner : Address}
    (isOwner : after.owner agent = some owner) :
    (events.foldl moved balance owner).isSome = true := by
  cases performs with
  | register caller agentUri entries room ordinary =>
      rw [(state.registered_keeps caller agentUri entries).1,
        Function.update_apply] at isOwner
      split at isOwner
      · cases isOwner
        simp only [List.cons_append, List.foldl_cons]
        exact foldl_moved_isSome (moved_to balance owner)
      · exact foldl_moved_isSome (held agent owner isOwner)
  | setMetadata agentId key value living ordinary =>
      rw [(state.setMetadata_keeps agentId.toNat key value).1] at isOwner
      exact foldl_moved_isSome (held agent owner isOwner)
  | transfer «from» «to» tokenId living =>
      simp only [IdentityState.transferred, Function.update_apply] at isOwner
      split at isOwner
      · cases isOwner
        exact moved_to _ owner
      · exact foldl_moved_isSome (held agent owner isOwner)
  | _ => exact foldl_moved_isSome (held agent owner isOwner)

theorem Reached.owner_held {ledger : Ledger} (reached : Reached ledger) :
    ∀ agent owner, ledger.state.owner agent = some owner →
      (ledger.balance owner).isSome = true := by
  induction reached with
  | deployed => exact fun _ _ impossible => (nomatch impossible)
  | called before approvals request success instanceTtl ttl induction =>
      intro agent owner isOwner
      exact Ledger.owner_held (IdentityState.call_performs success) induction
        isOwner

/-! ## `extend_ttl` -/

/-- The call extends the entries of the agent, each that is stored to its
threshold, and no others. -/
theorem extendTtlOf_spec (tokens : TokenLifetimes) {ledger : Ledger}
    {agentId : UInt32}
    (recorded : ledger.state.Recorded agentId.toNat) :
    Extends (Belongs ledger.state agentId.toNat) ledger
        (ledger.extendTtlOf tokens agentId) ∧
      ∀ key, Belongs ledger.state agentId.toNat key → ledger.has key = true →
        tokens.threshold key ≤
          (ledger.extendTtlOf tokens agentId).ttl key := by
  unfold extendTtlOf extendAgentTtl
  dsimp only
  generalize agentId.toNat = agent at recorded ⊢
  have started : Extends (Belongs ledger.state agent) ledger
      ledger.extendInstanceTtl :=
    ⟨rfl, rfl, le_extended threshold_le_bump _, fun _ => Nat.le_refl _,
      fun _ _ => rfl⟩
  generalize ledger.extendInstanceTtl = first at started ⊢
  have uri := first.extends_extendHeld (.agentUri agent) threshold_le_bump
  have uriHeld := first.threshold_le_extendHeld (.agentUri agent)
    threshold_le_bump
  generalize first.extendHeld (.agentUri agent) TTL_THRESHOLD TTL_BUMP =
    second at uri uriHeld ⊢
  have wallet := second.extends_extendHeld (.agentWallet agent)
    threshold_le_bump
  have walletHeld := second.threshold_le_extendHeld (.agentWallet agent)
    threshold_le_bump
  generalize second.extendHeld (.agentWallet agent) TTL_THRESHOLD TTL_BUMP =
    third at wallet walletHeld ⊢
  have metadata := third.extends_extendMetadata agent
  have isState : third.state = ledger.state :=
    wallet.state.trans (uri.state.trans started.state)
  rw [← isState] at recorded
  have metadataHeld := threshold_le_extendMetadata recorded
  generalize third.extendMetadata agent = fourth at metadata metadataHeld ⊢
  have token := fourth.extends_extendToken tokens agent
  have sameState : fourth.state = ledger.state :=
    metadata.state.trans isState
  have tokenHeld : ∀ {owner}, fourth.state.owner agent = some owner → _ :=
    fun isOwner => threshold_le_extendToken tokens isOwner
  generalize fourth.extendToken tokens agent = last at token tokenHeld ⊢
  have toFirst : ∀ key, first.has key = ledger.has key := started.has
  have toSecond : ∀ key, second.has key = ledger.has key := fun key =>
    (uri.has key).trans (toFirst key)
  have toThird : ∀ key, third.has key = ledger.has key := fun key =>
    (wallet.has key).trans (toSecond key)
  have toFourth : ∀ key, fourth.has key = ledger.has key := fun key =>
    (metadata.has key).trans (toThird key)
  rw [sameState] at token tokenHeld
  constructor
  · apply started.trans
    apply (uri.mono fun _ same => same ▸ Belongs.agentUri).trans
    apply (wallet.mono fun _ same => same ▸ Belongs.agentWallet).trans
    apply Extends.trans (metadata.mono _) (token.mono _)
    · rintro key (rfl | ⟨name, rfl⟩)
      · exact .metadataKeys
      · exact .metadata name
    · rintro key (rfl | ⟨account, owns, rfl⟩)
      · exact .owner
      · exact .balance owns
  · intro key belongs held
    have fromThird := fun key => (metadata.grows key).trans (token.grows key)
    cases belongs with
    | agentUri =>
        rw [← toFirst] at held
        exact (uriHeld held).trans ((wallet.grows _).trans (fromThird _))
    | agentWallet =>
        rw [← toSecond] at held
        exact (walletHeld held).trans (fromThird _)
    | metadataKeys =>
        rw [← toThird] at held
        exact (metadataHeld.1 held).trans (token.grows _)
    | metadata name =>
        rw [← toThird] at held
        exact (metadataHeld.2 name held).trans (token.grows _)
    | owner =>
        obtain ⟨owner, isOwner⟩ := Option.isSome_iff_exists.mp held
        exact (tokenHeld isOwner).1
    | balance owns =>
        rw [← toFourth] at held
        exact (tokenHeld owns).2 held

/-- In every reached ledger, whatever the lifetimes: after `extend_ttl` of a
registered agent each entry stored for it and the balance of its owner have at
least their threshold left, no lifetime has become shorter, nothing stored has
changed and no metadata of another agent is touched. -/
theorem extendTtl_forgets_nothing (tokens : TokenLifetimes) {ledger : Ledger}
    (reached : Reached ledger) {agentId : UInt32} {owner : Address}
    (registered : ledger.state.owner agentId.toNat = some owner) :
    (∀ key, Belongs ledger.state agentId.toNat key → ledger.has key = true →
      tokens.threshold key ≤ (ledger.extendTtlOf tokens agentId).ttl key) ∧
    ledger.has (.balance owner) = true ∧
    tokens.BALANCE_TTL_THRESHOLD ≤
      (ledger.extendTtlOf tokens agentId).ttl (.balance owner) ∧
    (∀ key, ledger.ttl key ≤ (ledger.extendTtlOf tokens agentId).ttl key) ∧
    ledger.instanceTtl ≤ (ledger.extendTtlOf tokens agentId).instanceTtl ∧
    (ledger.extendTtlOf tokens agentId).state = ledger.state ∧
    (ledger.extendTtlOf tokens agentId).balance = ledger.balance ∧
    ∀ other, other ≠ agentId.toNat → ∀ name,
      (ledger.extendTtlOf tokens agentId).ttl (.metadata other name) =
        ledger.ttl (.metadata other name) := by
  obtain ⟨history, run⟩ := reached.accepted
  have recorded := (IdentityState.Consistent.run run).recorded agentId.toNat
  obtain ⟨extension, covered⟩ := extendTtlOf_spec tokens recorded
  have held := reached.owner_held agentId.toNat owner registered
  refine ⟨covered, held, covered _ (.balance registered) held,
    extension.grows, extension.instanceTtl, extension.state,
    extension.balance, ?_⟩
  intro other different name
  apply extension.others
  intro belongs
  cases belongs
  exact different rfl

/-- The first agent with a URI and a metadata entry, its entries about to run
out. -/
theorem extendTtl_forgets_nothing_first : ∃ ledger : Ledger,
    Reached ledger ∧
      ∀ key ∈ [StorageKey.agentWallet 0, .agentUri 0, .metadataKeys 0,
        .metadata 0 ⟨#[107]⟩],
        ledger.has key = true ∧ ledger.ttl key = 1 ∧
          TTL_THRESHOLD ≤ (ledger.extendTtlOf
            { OWNER_TTL_THRESHOLD := 501120, OWNER_EXTEND_AMOUNT := 518400
              BALANCE_TTL_THRESHOLD := 501120, BALANCE_EXTEND_AMOUNT := 518400
              owner_le := by decide, balance_le := by decide } 0).ttl key := by
  have registered := Reached.called (.deployed 1 fun _ => 1) noApprovals
    (.registerWithUri firstOwner ⟨#[117]⟩) rfl 1 fun _ => 1
  have reached := Reached.called registered noApprovals
    (.setMetadata firstOwner 0 ⟨#[107]⟩ ⟨#[118]⟩) rfl 1 fun _ => 1
  refine ⟨_, reached, ?_⟩
  have extended := (@extendTtl_forgets_nothing
    { OWNER_TTL_THRESHOLD := 501120, OWNER_EXTEND_AMOUNT := 518400
      BALANCE_TTL_THRESHOLD := 501120, BALANCE_EXTEND_AMOUNT := 518400
      owner_le := by decide, balance_le := by decide }
    _ reached 0 firstOwner (by decide +kernel)).1
  intro key member
  simp only [List.mem_cons, List.not_mem_nil, or_false] at member
  rcases member with rfl | rfl | rfl | rfl
  · exact ⟨rfl, rfl, extended _ .agentWallet rfl⟩
  · exact ⟨rfl, rfl, extended _ .agentUri rfl⟩
  · exact ⟨rfl, rfl, extended _ .metadataKeys rfl⟩
  · exact ⟨rfl, rfl, extended _ (.metadata _) rfl⟩

end Ledger

end Stellar8004.Contracts
