import Stellar8004.Library.Failures
import Stellar8004.Soroban.Value

/-!
# The identity registry

`contracts/identity-registry`: registration, URIs, metadata, the agent wallet
and the transfer overrides that clear both.  Of OpenZeppelin's `Base` the
model holds the owners and the token counter; approvals are asked for call by
call.  A call that fails changes nothing and emits nothing.
-/

namespace Stellar8004.Contracts

/-- A published event: its topics, the name first, and its data. -/
structure Emission where
  topics : List ScVal
  data : ScVal

/-- `#[contractevent]`: the name and the topic fields, and a map of the other
fields in the order of their names. -/
def contractEvent (name : String) (topics : List ScVal)
    (fields : List (String × ScVal)) : Emission :=
  { topics := .symbol name :: topics
    data := .map (fields.map fun field => (.symbol field.1, field.2)) }

def u32 (number : Nat) : ScVal := .int .u32 number
def u64 (number : Nat) : ScVal := .int .u64 number

/-- The events of `identity-registry/src/events.rs`, and those of
OpenZeppelin's tokens. -/
inductive IdentityEvent where
  | registered (agentId : Nat) (owner : Address) (agentUri : Bytes)
  | uriUpdated (agentId : Nat) (updatedBy : Address) (newUri : Bytes)
  | metadataSet (agentId : Nat) (key value : Bytes)
  | mint («to» : Address) (tokenId : Nat)
  | transfer («from» «to» : Address) (tokenId : Nat)
  deriving DecidableEq

def IdentityEvent.publish : IdentityEvent → Emission
  | registered agentId owner agentUri =>
      contractEvent "registered" [u32 agentId, .address owner]
        [("agent_uri", .string agentUri)]
  | uriUpdated agentId updatedBy newUri =>
      contractEvent "uri_updated" [u32 agentId, .address updatedBy]
        [("new_uri", .string newUri)]
  | metadataSet agentId key value =>
      contractEvent "metadata_set" [u32 agentId, .string key]
        [("value", .bytes value)]
  | mint «to» tokenId =>
      contractEvent "mint" [.address «to»] [("token_id", u32 tokenId)]
  | transfer «from» «to» tokenId =>
      contractEvent "transfer" [.address «from», .address «to»]
        [("token_id", u32 tokenId)]

/-- The texts and values an event carries. -/
def IdentityEvent.texts : IdentityEvent → List Bytes
  | registered _ _ agentUri => [agentUri]
  | uriUpdated _ _ newUri => [newUri]
  | metadataSet _ key value => [key, value]
  | mint _ _ => []
  | transfer _ _ _ => []

inductive IdentityError where
  | agentNotFound
  | notOwnerOrApproved
  | emptyValue
  | metadataKeyTooLong
  | metadataValueTooLong
  | reservedMetadataKey
  | tooManyMetadataKeys
  | noUpgradeProposed
  | timelockNotExpired
  | upgradeAlreadyProposed
  | panic (message : String)
  deriving DecidableEq

structure MetadataEntry where
  key : Bytes
  value : Bytes
  deriving DecidableEq

structure IdentityState where
  nextTokenId : Nat
  owner : Nat → Option Address
  agentUri : Nat → Option Bytes
  metadata : Nat → Bytes → Option Bytes
  metadataKeys : Nat → List Bytes
  agentWallet : Nat → Option Address

/-- What OpenZeppelin's storage answers about approvals during a call. -/
structure Approvals where
  getApproved : Nat → Option Address
  isApprovedForAll : Address → Address → Bool

inductive IdentityCall where
  | register (caller : Address)
  | registerWithUri (caller : Address) (agentUri : Bytes)
  | registerFull (caller : Address) (agentUri : Bytes)
      (metadata : List MetadataEntry)
  | setAgentUri (caller : Address) (agentId : UInt32) (newUri : Bytes)
  | setMetadata (caller : Address) (agentId : UInt32) (key value : Bytes)
  | setAgentWallet (caller : Address) (agentId : UInt32) (newWallet : Address)
  | unsetAgentWallet (caller : Address) (agentId : UInt32)
  | transfer («from» «to» : Address) (tokenId : UInt32)
  | transferFrom (spender «from» «to» : Address) (tokenId : UInt32)
  deriving DecidableEq

/-- The texts and values a call is given. -/
def IdentityCall.texts : IdentityCall → List Bytes
  | registerWithUri _ agentUri => [agentUri]
  | registerFull _ agentUri metadata =>
      agentUri :: metadata.flatMap fun entry => [entry.key, entry.value]
  | setAgentUri _ _ newUri => [newUri]
  | setMetadata _ _ key value => [key, value]
  | _ => []

def MAX_METADATA_KEY_LEN : Nat := 64
def MAX_METADATA_VALUE_LEN : Nat := 4096
def MAX_METADATA_KEYS : Nat := 100

def agentWalletKey : Bytes := utf8 "agentWallet"

/-- The StrKey text of an address, as bytes. -/
def addressToStrkeyBytes (address : Address) : Bytes :=
  utf8 (StrKey.encode address)

namespace IdentityState

def initial : IdentityState :=
  { nextTokenId := 0, owner := fun _ => none, agentUri := fun _ => none
    metadata := fun _ _ => none, metadataKeys := fun _ => []
    agentWallet := fun _ => none }

/-! ## Storage -/

def setAgentUri (state : IdentityState) (agentId : Nat) (uri : Bytes) :
    IdentityState :=
  { state with
    agentUri := Function.update state.agentUri agentId (some uri) }

def setAgentWallet (state : IdentityState) (agentId : Nat)
    (wallet : Address) : IdentityState :=
  { state with
    agentWallet := Function.update state.agentWallet agentId (some wallet) }

def removeAgentWallet (state : IdentityState) (agentId : Nat) :
    IdentityState :=
  { state with
    agentWallet := Function.update state.agentWallet agentId none }

def recordMetadataKey (state : IdentityState) (agentId : Nat) (key : Bytes) :
    IdentityState :=
  if (state.metadataKeys agentId).any (· = key) then state
  else
    { state with
      metadataKeys := Function.update state.metadataKeys agentId
        (state.metadataKeys agentId ++ [key]) }

def setMetadata (state : IdentityState) (agentId : Nat) (key value : Bytes) :
    IdentityState :=
  let state := state.recordMetadataKey agentId key
  { state with
    metadata := Function.update state.metadata agentId
      (Function.update (state.metadata agentId) key (some value)) }

/-- Removes the value of every recorded key, then the record. -/
def clearAllMetadata (state : IdentityState) (agentId : Nat) :
    IdentityState :=
  { state with
    metadata := Function.update state.metadata agentId fun key =>
      if (state.metadataKeys agentId).any (· = key) then none
      else state.metadata agentId key
    metadataKeys := Function.update state.metadataKeys agentId [] }

def findOwner (state : IdentityState) (agentId : Nat) : Option Address :=
  state.owner agentId

def agentExists (state : IdentityState) (agentId : Nat) : Bool :=
  (state.findOwner agentId).isSome

def getAgentWallet (state : IdentityState) (agentId : Nat) : Option Address :=
  state.agentWallet agentId

/-- The `agentWallet` key is answered from the wallet's own slot. -/
def getMetadata (state : IdentityState) (agentId : Nat) (key : Bytes) :
    Option Bytes :=
  if key = agentWalletKey then
    (state.getAgentWallet agentId).map addressToStrkeyBytes
  else state.metadata agentId key

/-! ## OpenZeppelin -/

/-- `Base::sequential_mint` as the crate documents it: the next token to an
owner. -/
def sequentialMint (state : IdentityState) («to» : Address) :
    Except IdentityError (Nat × IdentityState) :=
  if state.nextTokenId + 1 < 2 ^ 32 then
    .ok (state.nextTokenId,
      { state with
        nextTokenId := state.nextTokenId + 1
        owner := Function.update state.owner state.nextTokenId (some «to») })
  else .error (.panic "TokenIDsAreDepleted")

/-- `Base::update` as the crate documents it, from one owner to another. -/
def updateOwner (state : IdentityState) («from» «to» : Address)
    (tokenId : Nat) : Except IdentityError IdentityState :=
  match state.owner tokenId with
  | none => .error (.panic "NonExistentToken")
  | some owner =>
      if owner = «from» then
        .ok { state with
          owner := Function.update state.owner tokenId (some «to») }
      else .error (.panic "IncorrectOwner")

def isAuthorizedOrOwner (state : IdentityState) (approvals : Approvals)
    (spender : Address) (agentId : Nat) : Bool :=
  match state.findOwner agentId with
  | none => false
  | some owner =>
      spender = owner || approvals.getApproved agentId = some spender ||
        approvals.isApprovedForAll owner spender

def requireOwnerOrApproved (state : IdentityState) (approvals : Approvals)
    (caller : Address) (agentId : Nat) : Except IdentityError Unit :=
  match state.findOwner agentId with
  | none => .error .agentNotFound
  | some owner =>
      if caller = owner then .ok ()
      else if approvals.getApproved agentId = some caller then .ok ()
      else if approvals.isApprovedForAll owner caller then .ok ()
      else .error .notOwnerOrApproved

/-! ## Calls -/

/-- Stores the caller as wallet and publishes it. -/
def initAgentWallet (state : IdentityState) (agentId : Nat)
    (owner : Address) : IdentityState × IdentityEvent :=
  (state.setAgentWallet agentId owner,
    .metadataSet agentId agentWalletKey (addressToStrkeyBytes owner))

/-- The asserts of `register_full` on one entry. -/
def entryAccepted (entry : MetadataEntry) : Except IdentityError Unit :=
  if MAX_METADATA_KEY_LEN < entry.key.size then
    .error (.panic "metadata key too long")
  else if MAX_METADATA_VALUE_LEN < entry.value.size then
    .error (.panic "metadata value too long")
  else if entry.key = agentWalletKey then
    .error (.panic
      "agentWallet is a reserved metadata key - use set_agent_wallet")
  else .ok ()

def entriesAccepted : List MetadataEntry → Except IdentityError Unit
  | [] => .ok ()
  | entry :: entries => do
      entryAccepted entry
      entriesAccepted entries

def setEntries (state : IdentityState) (agentId : Nat)
    (entries : List MetadataEntry) : IdentityState :=
  entries.foldl (fun state entry =>
    state.setMetadata agentId entry.key entry.value) state

/-- The overrides of `transfer` and `transfer_from` up to `Base`. -/
def clearForTransfer (state : IdentityState) (tokenId : Nat) :
    IdentityState × IdentityEvent :=
  ((state.removeAgentWallet tokenId).clearAllMetadata tokenId,
    .metadataSet tokenId agentWalletKey ByteArray.empty)

def call (state : IdentityState) (approvals : Approvals) :
    IdentityCall → Except IdentityError (IdentityState × List IdentityEvent)
  | .register caller => do
      let (agentId, state) ← state.sequentialMint caller
      let (state, walletSet) := state.initAgentWallet agentId caller
      return (state,
        [.mint caller agentId, walletSet,
          .registered agentId caller ByteArray.empty])
  | .registerWithUri caller agentUri => do
      let (agentId, state) ← state.sequentialMint caller
      let state := state.setAgentUri agentId agentUri
      let (state, walletSet) := state.initAgentWallet agentId caller
      return (state,
        [.mint caller agentId, walletSet,
          .registered agentId caller agentUri])
  | .registerFull caller agentUri metadata => do
      if MAX_METADATA_KEYS < metadata.length then
        .error (.panic "too many metadata entries")
      else
        entriesAccepted metadata
        let (agentId, state) ← state.sequentialMint caller
        let state := state.setAgentUri agentId agentUri
        let (state, walletSet) := state.initAgentWallet agentId caller
        return (state.setEntries agentId metadata,
          [.mint caller agentId, walletSet] ++
            metadata.map (fun entry =>
              .metadataSet agentId entry.key entry.value) ++
            [.registered agentId caller agentUri])
  | .setAgentUri caller agentId newUri => do
      if newUri.size = 0 then .error .emptyValue
      else
        let agentId := agentId.toNat
        state.requireOwnerOrApproved approvals caller agentId
        return (state.setAgentUri agentId newUri,
          [.uriUpdated agentId caller newUri])
  | .setMetadata caller agentId key value => do
      if key.size = 0 then .error .emptyValue
      else if MAX_METADATA_KEY_LEN < key.size then .error .metadataKeyTooLong
      else if MAX_METADATA_VALUE_LEN < value.size then
        .error .metadataValueTooLong
      else if key = agentWalletKey then .error .reservedMetadataKey
      else
        let agentId := agentId.toNat
        state.requireOwnerOrApproved approvals caller agentId
        if state.metadata agentId key = none ∧
            MAX_METADATA_KEYS ≤ (state.metadataKeys agentId).length then
          .error .tooManyMetadataKeys
        else
          return (state.setMetadata agentId key value,
            [.metadataSet agentId key value])
  | .setAgentWallet caller agentId newWallet => do
      let agentId := agentId.toNat
      state.requireOwnerOrApproved approvals caller agentId
      return (state.setAgentWallet agentId newWallet,
        [.metadataSet agentId agentWalletKey
          (addressToStrkeyBytes newWallet)])
  | .unsetAgentWallet caller agentId => do
      let agentId := agentId.toNat
      state.requireOwnerOrApproved approvals caller agentId
      return (state.removeAgentWallet agentId,
        [.metadataSet agentId agentWalletKey ByteArray.empty])
  | .transfer «from» «to» tokenId => do
      let tokenId := tokenId.toNat
      let (state, cleared) := state.clearForTransfer tokenId
      let state ← state.updateOwner «from» «to» tokenId
      return (state, [cleared, .transfer «from» «to» tokenId])
  | .transferFrom spender «from» «to» tokenId => do
      let tokenId := tokenId.toNat
      let (state, cleared) := state.clearForTransfer tokenId
      if spender = «from» ∨ approvals.getApproved tokenId = some spender ∨
          approvals.isApprovedForAll «from» spender then
        let state ← state.updateOwner «from» «to» tokenId
        return (state, [cleared, .transfer «from» «to» tokenId])
      else .error (.panic "InsufficientApproval")

/-! ## What a call can do -/

/-- The state after the storage writes of a registration. -/
def registered (state : IdentityState) (caller : Address)
    (agentUri : Option Bytes) (entries : List MetadataEntry) :
    IdentityState :=
  let agentId := state.nextTokenId
  let minted : IdentityState :=
    { state with
      nextTokenId := agentId + 1
      owner := Function.update state.owner agentId (some caller) }
  let named :=
    match agentUri with
    | some uri => minted.setAgentUri agentId uri
    | none => minted
  (named.setAgentWallet agentId caller).setEntries agentId entries

/-- The state after a transfer. -/
def transferred (state : IdentityState) («to» : Address) (tokenId : Nat) :
    IdentityState :=
  let cleared := (state.removeAgentWallet tokenId).clearAllMetadata tokenId
  { cleared with
    owner := Function.update cleared.owner tokenId (some «to») }

/-- The bounds of stored metadata. -/
def Storable (key value : Bytes) : Prop :=
  key.size ≤ MAX_METADATA_KEY_LEN ∧ value.size ≤ MAX_METADATA_VALUE_LEN ∧
    key ≠ agentWalletKey

/-- The calls that succeed, with everything they checked. -/
inductive Takes (state : IdentityState) (approvals : Approvals) :
    IdentityCall → IdentityState → Prop where
  | register (caller : Address) (room : state.nextTokenId + 1 < 2 ^ 32) :
      Takes state approvals (.register caller)
        (state.registered caller none [])
  | registerWithUri (caller : Address) (agentUri : Bytes)
      (room : state.nextTokenId + 1 < 2 ^ 32) :
      Takes state approvals (.registerWithUri caller agentUri)
        (state.registered caller (some agentUri) [])
  | registerFull (caller : Address) (agentUri : Bytes)
      (metadata : List MetadataEntry)
      (few : metadata.length ≤ MAX_METADATA_KEYS)
      (storable : ∀ entry ∈ metadata, Storable entry.key entry.value)
      (room : state.nextTokenId + 1 < 2 ^ 32) :
      Takes state approvals (.registerFull caller agentUri metadata)
        (state.registered caller (some agentUri) metadata)
  | setAgentUri (caller : Address) (agentId : UInt32) (newUri : Bytes)
      (required : state.requireOwnerOrApproved approvals caller
        agentId.toNat = .ok ()) :
      Takes state approvals (.setAgentUri caller agentId newUri)
        (state.setAgentUri agentId.toNat newUri)
  | setMetadata (caller : Address) (agentId : UInt32) (key value : Bytes)
      (storable : Storable key value)
      (required : state.requireOwnerOrApproved approvals caller
        agentId.toNat = .ok ())
      (room : (state.metadata agentId.toNat key).isSome = true ∨
        (state.metadataKeys agentId.toNat).length < MAX_METADATA_KEYS) :
      Takes state approvals (.setMetadata caller agentId key value)
        (state.setMetadata agentId.toNat key value)
  | setAgentWallet (caller : Address) (agentId : UInt32)
      (newWallet : Address)
      (required : state.requireOwnerOrApproved approvals caller
        agentId.toNat = .ok ()) :
      Takes state approvals (.setAgentWallet caller agentId newWallet)
        (state.setAgentWallet agentId.toNat newWallet)
  | unsetAgentWallet (caller : Address) (agentId : UInt32)
      (required : state.requireOwnerOrApproved approvals caller
        agentId.toNat = .ok ()) :
      Takes state approvals (.unsetAgentWallet caller agentId)
        (state.removeAgentWallet agentId.toNat)
  | transfer («from» «to» : Address) (tokenId : UInt32)
      (owned : state.owner tokenId.toNat = some «from») :
      Takes state approvals (.transfer «from» «to» tokenId)
        (state.transferred «to» tokenId.toNat)
  | transferFrom (spender «from» «to» : Address) (tokenId : UInt32)
      (owned : state.owner tokenId.toNat = some «from»)
      (approved : spender = «from» ∨
        approvals.getApproved tokenId.toNat = some spender ∨
        approvals.isApprovedForAll «from» spender = true) :
      Takes state approvals (.transferFrom spender «from» «to» tokenId)
        (state.transferred «to» tokenId.toNat)

/-- What a registration publishes. -/
def registrationEvents (state : IdentityState) (caller : Address)
    (agentUri : Option Bytes) (entries : List MetadataEntry) :
    List IdentityEvent :=
  [.mint caller state.nextTokenId,
      .metadataSet state.nextTokenId agentWalletKey
        (addressToStrkeyBytes caller)] ++
    entries.map (fun entry =>
      .metadataSet state.nextTokenId entry.key entry.value) ++
    [.registered state.nextTokenId caller (agentUri.getD ByteArray.empty)]

def transferEvents («from» «to» : Address) (tokenId : Nat) :
    List IdentityEvent :=
  [.metadataSet tokenId agentWalletKey ByteArray.empty,
    .transfer «from» «to» tokenId]

/-- The events of a call that succeeds. -/
def published (state : IdentityState) : IdentityCall → List IdentityEvent
  | .register caller => state.registrationEvents caller none []
  | .registerWithUri caller agentUri =>
      state.registrationEvents caller (some agentUri) []
  | .registerFull caller agentUri metadata =>
      state.registrationEvents caller (some agentUri) metadata
  | .setAgentUri caller agentId newUri =>
      [.uriUpdated agentId.toNat caller newUri]
  | .setMetadata _ agentId key value =>
      [.metadataSet agentId.toNat key value]
  | .setAgentWallet _ agentId newWallet =>
      [.metadataSet agentId.toNat agentWalletKey
        (addressToStrkeyBytes newWallet)]
  | .unsetAgentWallet _ agentId =>
      [.metadataSet agentId.toNat agentWalletKey ByteArray.empty]
  | .transfer «from» «to» tokenId => transferEvents «from» «to» tokenId.toNat
  | .transferFrom _ «from» «to» tokenId =>
      transferEvents «from» «to» tokenId.toNat

/-- The calls that succeed, by what they write and publish. -/
inductive Performs (state : IdentityState) :
    IdentityState → List IdentityEvent → Prop where
  | register (caller : Address) (agentUri : Option Bytes)
      (entries : List MetadataEntry)
      (room : state.nextTokenId + 1 < 2 ^ 32)
      (ordinary : ∀ entry ∈ entries, entry.key ≠ agentWalletKey) :
      Performs state (state.registered caller agentUri entries)
        ([.mint caller state.nextTokenId,
            .metadataSet state.nextTokenId agentWalletKey
              (addressToStrkeyBytes caller)] ++
          entries.map (fun entry =>
            .metadataSet state.nextTokenId entry.key entry.value) ++
          [.registered state.nextTokenId caller
            (agentUri.getD ByteArray.empty)])
  | setAgentUri (agentId : UInt32) (caller : Address) (newUri : Bytes)
      (living : (state.owner agentId.toNat).isSome = true) :
      Performs state (state.setAgentUri agentId.toNat newUri)
        [.uriUpdated agentId.toNat caller newUri]
  | setMetadata (agentId : UInt32) (key value : Bytes)
      (living : (state.owner agentId.toNat).isSome = true)
      (ordinary : key ≠ agentWalletKey) :
      Performs state (state.setMetadata agentId.toNat key value)
        [.metadataSet agentId.toNat key value]
  | setAgentWallet (agentId : UInt32) (newWallet : Address)
      (living : (state.owner agentId.toNat).isSome = true) :
      Performs state (state.setAgentWallet agentId.toNat newWallet)
        [.metadataSet agentId.toNat agentWalletKey
          (addressToStrkeyBytes newWallet)]
  | unsetAgentWallet (agentId : UInt32)
      (living : (state.owner agentId.toNat).isSome = true) :
      Performs state (state.removeAgentWallet agentId.toNat)
        [.metadataSet agentId.toNat agentWalletKey ByteArray.empty]
  | transfer («from» «to» : Address) (tokenId : UInt32)
      (living : (state.owner tokenId.toNat).isSome = true) :
      Performs state (state.transferred «to» tokenId.toNat)
        [.metadataSet tokenId.toNat agentWalletKey ByteArray.empty,
          .transfer «from» «to» tokenId.toNat]

theorem living_of_required {state : IdentityState} {approvals : Approvals}
    {caller : Address} {agentId : Nat} {result : Unit}
    (required : state.requireOwnerOrApproved approvals caller agentId =
      .ok result) : (state.owner agentId).isSome = true := by
  unfold requireOwnerOrApproved findOwner at required
  split at required
  · cases required
  · rename_i found
    rw [found]
    rfl

theorem storable_of_accepted {entries : List MetadataEntry}
    (accepted : entriesAccepted entries = .ok ()) :
    ∀ entry ∈ entries, Storable entry.key entry.value := by
  induction entries with
  | nil => simp
  | cons entry entries induction =>
      obtain ⟨_, first, rest⟩ := bind_ok_iff.mp accepted
      intro other member
      rcases List.mem_cons.mp member with rfl | later
      · unfold entryAccepted at first
        split at first
        · cases first
        rename_i shortKey
        split at first
        · cases first
        rename_i shortValue
        split at first
        · cases first
        · rename_i ordinary
          exact ⟨Nat.not_lt.mp shortKey, Nat.not_lt.mp shortValue, ordinary⟩
      · exact induction rest other later

theorem minted_of_sequentialMint {state minted : IdentityState}
    {«to» : Address} {agentId : Nat}
    (isMinted : state.sequentialMint «to» = .ok (agentId, minted)) :
    state.nextTokenId + 1 < 2 ^ 32 ∧ agentId = state.nextTokenId ∧
      minted = { state with
        nextTokenId := state.nextTokenId + 1
        owner := Function.update state.owner state.nextTokenId
          (some «to») } := by
  unfold sequentialMint at isMinted
  split at isMinted
  · rename_i room
    cases isMinted
    exact ⟨room, rfl, rfl⟩
  · cases isMinted

private theorem owned_of_updateOwner {state moved : IdentityState}
    {«from» «to» : Address} {tokenId : Nat}
    (isMoved : state.updateOwner «from» «to» tokenId = .ok moved) :
    state.owner tokenId = some «from» ∧
      moved = { state with
        owner := Function.update state.owner tokenId (some «to») } := by
  unfold updateOwner at isMoved
  split at isMoved
  · cases isMoved
  · rename_i owner found
    split at isMoved
    · rename_i same
      cases isMoved
      exact ⟨same ▸ found, rfl⟩
    · cases isMoved

/-- All there is to know of a call that succeeds. -/
theorem call_ok {state after : IdentityState} {approvals : Approvals}
    {request : IdentityCall} {events : List IdentityEvent}
    (success : state.call approvals request = .ok (after, events)) :
    state.Takes approvals request after ∧ events = state.published request := by
  cases request with
  | register caller =>
      obtain ⟨⟨agentId, minted⟩, isMinted, rest⟩ := bind_ok_iff.mp success
      obtain ⟨room, rfl, rfl⟩ := minted_of_sequentialMint isMinted
      cases rest
      exact ⟨.register caller room, rfl⟩
  | registerWithUri caller agentUri =>
      obtain ⟨⟨agentId, minted⟩, isMinted, rest⟩ := bind_ok_iff.mp success
      obtain ⟨room, rfl, rfl⟩ := minted_of_sequentialMint isMinted
      cases rest
      exact ⟨.registerWithUri caller agentUri room, rfl⟩
  | registerFull caller agentUri metadata =>
      simp only [call] at success
      split at success
      · cases success
      rename_i few
      obtain ⟨_, accepted, rest⟩ := bind_ok_iff.mp success
      obtain ⟨⟨agentId, minted⟩, isMinted, rest⟩ := bind_ok_iff.mp rest
      obtain ⟨room, rfl, rfl⟩ := minted_of_sequentialMint isMinted
      cases rest
      constructor
      · exact .registerFull caller agentUri metadata (Nat.not_lt.mp few)
          (storable_of_accepted accepted) room
      · rfl
  | setAgentUri caller agentId newUri =>
      simp only [call] at success
      split at success
      · cases success
      · obtain ⟨_, required, rest⟩ := bind_ok_iff.mp success
        cases rest
        exact ⟨.setAgentUri caller agentId newUri required, rfl⟩
  | setMetadata caller agentId key value =>
      simp only [call] at success
      split at success
      · cases success
      split at success
      · cases success
      rename_i shortKey
      split at success
      · cases success
      rename_i shortValue
      split at success
      · cases success
      rename_i ordinary
      obtain ⟨_, required, rest⟩ := bind_ok_iff.mp success
      split at rest
      · cases rest
      · rename_i room
        cases rest
        refine ⟨.setMetadata caller agentId key value
          ⟨Nat.not_lt.mp shortKey, Nat.not_lt.mp shortValue, ordinary⟩
          required ?_, rfl⟩
        rw [not_and_or, Nat.not_le] at room
        exact room.imp_left Option.isSome_iff_ne_none.mpr
  | setAgentWallet caller agentId newWallet =>
      obtain ⟨_, required, rest⟩ := bind_ok_iff.mp success
      cases rest
      exact ⟨.setAgentWallet caller agentId newWallet required, rfl⟩
  | unsetAgentWallet caller agentId =>
      obtain ⟨_, required, rest⟩ := bind_ok_iff.mp success
      cases rest
      exact ⟨.unsetAgentWallet caller agentId required, rfl⟩
  | transfer «from» «to» tokenId =>
      obtain ⟨moved, isMoved, rest⟩ := bind_ok_iff.mp success
      obtain ⟨owned, rfl⟩ := owned_of_updateOwner isMoved
      cases rest
      exact ⟨.transfer «from» «to» tokenId owned, rfl⟩
  | transferFrom spender «from» «to» tokenId =>
      simp only [call] at success
      split at success
      · rename_i approved
        obtain ⟨moved, isMoved, rest⟩ := bind_ok_iff.mp success
        obtain ⟨owned, rfl⟩ := owned_of_updateOwner isMoved
        cases rest
        exact ⟨.transferFrom spender «from» «to» tokenId owned approved, rfl⟩
      · cases success

theorem call_performs {state after : IdentityState} {approvals : Approvals}
    {request : IdentityCall} {events : List IdentityEvent}
    (success : state.call approvals request = .ok (after, events)) :
    state.Performs after events := by
  obtain ⟨takes, rfl⟩ := call_ok success
  have transferred {«from» «to» : Address} {tokenId : UInt32}
      (owned : state.owner tokenId.toNat = some «from») :
      state.Performs (state.transferred «to» tokenId.toNat)
        (transferEvents «from» «to» tokenId.toNat) :=
    .transfer «from» «to» tokenId (by rw [owned]; rfl)
  cases takes with
  | register caller room => exact .register caller none [] room (by simp)
  | registerWithUri caller agentUri room =>
      exact .register caller (some agentUri) [] room (by simp)
  | registerFull caller agentUri metadata few storable room =>
      exact .register caller (some agentUri) metadata room
        fun entry member => (storable entry member).2.2
  | setAgentUri caller agentId newUri required =>
      exact .setAgentUri agentId caller newUri (living_of_required required)
  | setMetadata caller agentId key value storable required room =>
      exact .setMetadata agentId key value (living_of_required required)
        storable.2.2
  | setAgentWallet caller agentId newWallet required =>
      exact .setAgentWallet agentId newWallet (living_of_required required)
  | unsetAgentWallet caller agentId required =>
      exact .unsetAgentWallet agentId (living_of_required required)
  | transfer «from» «to» tokenId owned => exact transferred owned
  | transferFrom spender «from» «to» tokenId owned approved =>
      exact transferred owned

/-! ## Texts -/

/-- Every text of a published event is one of the call's, or the registry's
own: the wallet key, a wallet or its absence. -/
theorem call_texts {state after : IdentityState} {approvals : Approvals}
    {request : IdentityCall} {events : List IdentityEvent}
    (success : state.call approvals request = .ok (after, events)) :
    ∀ event ∈ events, ∀ text ∈ event.texts, text ∈ request.texts ∨
      text = ByteArray.empty ∨ text = agentWalletKey ∨
      ∃ wallet, text = addressToStrkeyBytes wallet := by
  obtain ⟨-, rfl⟩ := call_ok success
  cases request with
  | registerFull caller agentUri metadata =>
      intro event member text inside
      simp only [published, registrationEvents, List.mem_append, List.mem_cons,
        List.mem_map, List.not_mem_nil, or_false] at member
      rcases member with ((rfl | rfl) | ⟨entry, isEntry, rfl⟩) | rfl
      · simp [IdentityEvent.texts] at inside
      · simp only [IdentityEvent.texts, List.mem_cons, List.not_mem_nil,
          or_false] at inside
        rcases inside with rfl | rfl
        · exact .inr (.inr (.inl rfl))
        · exact .inr (.inr (.inr ⟨caller, rfl⟩))
      · left
        simp only [IdentityEvent.texts, List.mem_cons, List.not_mem_nil,
          or_false] at inside
        refine List.mem_cons_of_mem _ (List.mem_flatMap.mpr
          ⟨entry, isEntry, ?_⟩)
        simpa using inside
      · left
        rw [List.mem_singleton.mp inside]
        exact List.mem_cons_self
  | _ =>
      simp [published, registrationEvents, transferEvents,
        IdentityEvent.texts, IdentityCall.texts]

end IdentityState

end Stellar8004.Contracts
