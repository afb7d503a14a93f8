import Stellar8004.Library.Requests

/-!
# The Freighter signer

`FreighterSigner` of `packages/sdk/src/signers/freighter.ts`, as far as it
signs, and the requests of the payment client that uses it.
-/

namespace Stellar8004.Web.Payment

open Program

/-- `Networks` of the Stellar SDK. -/
def TESTNET : String := "Test SDF Network ; September 2015"
def PUBLIC : String := "Public Global Stellar Network ; September 2015"

/-! ## What is signed -/

/-- The credentials of an authorization entry, with their nonce. -/
inductive Credentials where
  | sourceAccount
  | address (address : String) (nonce : Int)
  | addressV2 (address : String) (nonce : Int)
  deriving DecidableEq

/-- A `SorobanAuthorizationEntry`; the invocation is its XDR. -/
structure AuthEntry where
  credentials : Credentials
  rootInvocation : String
  deriving DecidableEq

/-- What a `HashIdPreimage` of an authorization binds together. -/
structure Preimage where
  entry : AuthEntry
  validUntilLedger : Int
  networkPassphrase : String
  deriving DecidableEq

inductive Timebounds where
  | expires (maxTime : Int)
  | timeout (seconds : Nat)
  deriving DecidableEq

/-- A transaction with one call of `transfer`.  `sequence` is that of the
source account. -/
structure TransferTransaction where
  source : String
  sequence : String
  networkPassphrase : String
  contract : String
  sender : String
  recipient : String
  amount : Int
  timebounds : Timebounds
  deriving DecidableEq

/-- An operation of a prepared transaction.  Absent entries are none. -/
structure PreparedOperation where
  isInvokeHostFunction : Bool
  source : Option String
  func : String
  auth : List AuthEntry
  deriving DecidableEq

/-- A transaction as `prepareTransaction` returns it. -/
structure Prepared where
  operations : List PreparedOperation
  xdr : String
  deriving DecidableEq

/-! ## Requests -/

structure WalletError where
  message : Option String
  deriving DecidableEq

structure NetworkReply where
  network : String
  networkPassphrase : String
  error : Option WalletError
  deriving DecidableEq

/-- A reply to a signing request.  Bytes stand as their base64 text. -/
structure SignReply where
  signed : Option String
  error : Option WalletError
  deriving DecidableEq

/-- The requests to the wallet, to the RPC server and to the clock. -/
inductive PayRequest where
  | loadApi
  | getNetwork
  | signTransaction (xdr : String) (networkPassphrase : Option String)
      (address : String)
  | signAuthEntry (preimage : Preimage) (networkPassphrase : Option String)
      (address : String)
  | now
  | getAccount (address : String)
  | prepareTransaction (transaction : TransferTransaction)
  | getHealth

/-- What rejects, rejects with a message. -/
@[reducible] def PayRequest.Answer : PayRequest → Type
  | loadApi => Except String Unit
  | getNetwork => Except String NetworkReply
  | signTransaction _ _ _ => Except String SignReply
  | signAuthEntry _ _ _ => Except String SignReply
  | now => Nat
  | getAccount _ => Except String String
  | prepareTransaction _ => Except String Prepared
  | getHealth => Except String Nat

@[reducible] def payHost : Interface :=
  { Request := PayRequest, Answer := PayRequest.Answer, Error := String }

abbrev PayTask := Program payHost

def call (request : PayRequest) : PayTask request.Answer :=
  Program.asks request Program.returns

@[simp] theorem call_bind {α : Type} (request : PayRequest)
    (next : request.Answer → PayTask α) :
    (call request).bind next = Program.asks request next := rfl

/-- The value of a promise, or what it throws. -/
def await {α : Type} : Except String α → PayTask α
  | .ok value => .returns value
  | .error message => .throws message

/-! ## `freighter.ts` -/

/-- `api` is whether the module of the wallet is loaded. -/
structure FreighterSigner where
  publicKey : String
  api : Bool
  deriving DecidableEq

namespace FreighterSigner

def getApi (signer : FreighterSigner) : PayTask FreighterSigner :=
  if signer.api then return signer
  else do
    match ← call .loadApi with
    | .ok _ => return { signer with api := true }
    | .error message =>
        .throws ("@stellar/freighter-api is required to use " ++
          "FreighterSigner: " ++ message)

def expectedNetworkLabel (networkPassphrase : String) : String :=
  if networkPassphrase = PUBLIC then "Public" else "Testnet"

def syncNetwork (signer : FreighterSigner)
    (networkPassphrase : Option String) : PayTask FreighterSigner :=
  match networkPassphrase with
  | none => return signer
  | some passphrase =>
      if passphrase = "" then return signer
      else do
        let signer ← signer.getApi
        let reply ← call .getNetwork
        let result ← await reply
        match result.error with
        | some error =>
            .throws (error.message.getD "Failed to read Freighter network")
        | none =>
            if result.networkPassphrase ≠ passphrase then
              .throws ("Freighter is on " ++
                (if result.network = "" then "unknown" else result.network) ++
                " but this app requires " ++
                expectedNetworkLabel passphrase ++
                ". Switch network in Freighter settings.")
            else return signer

def notConnected : String :=
  "FreighterSigner is not connected. Call connect() first."

def signTransaction (signer : FreighterSigner) (xdr : String)
    (networkPassphrase address : Option String) :
    PayTask (SignReply × FreighterSigner) := do
  let signer ← signer.getApi
  let address := address.getD signer.publicKey
  if address = "" then .throws notConnected
  else do
    let signer ← signer.syncNetwork networkPassphrase
    let reply ← call (.signTransaction xdr networkPassphrase address)
    let result ← await reply
    return (result, signer)

/-- An empty signature comes back as an error. -/
def signAuthEntry (signer : FreighterSigner) (preimage : Preimage)
    (networkPassphrase address : Option String) :
    PayTask (SignReply × FreighterSigner) := do
  let signer ← signer.getApi
  if signer.publicKey = "" then .throws notConnected
  else do
    let signer ← signer.syncNetwork networkPassphrase
    let reply ← call (.signAuthEntry preimage networkPassphrase
      (address.getD signer.publicKey))
    let result ← await reply
    match result.error with
    | some error => return ({ signed := some "", error := some error }, signer)
    | none =>
        if result.signed.getD "" = "" then
          return ({ signed := some ""
                    error := some
                      { message := some "No signed auth entry returned" } },
            signer)
        else return ({ signed := result.signed, error := none }, signer)

end FreighterSigner

/-! ## What the signer asks for -/

/-- The requests that commit to something. -/
def PayRequest.Binds : PayRequest → Prop
  | signTransaction _ _ _ => True
  | signAuthEntry _ _ _ => True
  | prepareTransaction _ => True
  | _ => False

/-- The wallet has just said that it is on the network. -/
def OnNetwork (networkPassphrase : String)
    (past : List (Exchange payHost)) : Prop :=
  ∃ before reply, past = before ++ [⟨.getNetwork, .ok reply⟩] ∧
    reply.error = none ∧ reply.networkPassphrase = networkPassphrase

/-- A part that binds nothing and returns with a result or throws. -/
def Quiet {α : Type} (past : List (Exchange payHost))
    (result : α → List (Exchange payHost) → Prop) (final : Final payHost α)
    (now : List (Exchange payHost)) : Prop :=
  (∃ later, now = past ++ later ∧
    ∀ exchange ∈ later, ¬ exchange.request.Binds) ∧
  match final with
  | .returned value => result value now
  | .threw _ => True
  | .unfinished => False

/-- A part that returns with a result or throws. -/
def Ends {α : Type} (result : α → List (Exchange payHost) → Prop)
    (final : Final payHost α) (now : List (Exchange payHost)) : Prop :=
  match final with
  | .returned value => result value now
  | .threw _ => True
  | .unfinished => False

section

variable {allows permits : List (Exchange payHost) → Exchange payHost → Prop}
  {past : List (Exchange payHost)} {α β : Type}

theorem quiet_nil {result : α → List (Exchange payHost) → Prop} {value : α}
    (holds : result value past) : Quiet past result (.returned value) past :=
  ⟨⟨[], by simp, fun _ member => nomatch member⟩, holds⟩

/-- One more request that binds nothing. -/
theorem quiet_snoc {later : List (Exchange payHost)}
    {exchange : Exchange payHost}
    (quiet : ∀ earlier ∈ later, ¬ earlier.request.Binds)
    (free : ¬ exchange.request.Binds) :
    ∀ each ∈ later ++ [exchange], ¬ each.request.Binds := by
  intro each member
  rcases List.mem_append.mp member with old | new
  · exact quiet each old
  · rw [List.mem_singleton.mp new]
    exact free

/-- The rule of sequencing for parts that return or throw. -/
theorem Ends.bind {program : PayTask α} {next : α → PayTask β}
    {first : α → List (Exchange payHost) → Prop}
    {result : β → List (Exchange payHost) → Prop}
    (ends : program.Ensures allows permits past (Ends first))
    (later : ∀ value after, first value (past ++ after) →
      (next value).Ensures allows permits (past ++ after) (Ends result)) :
    (program.bind next).Ensures allows permits past (Ends result) :=
  Program.Ensures.bind ends later (fun _ _ _ => trivial)
    fun _ never => never.elim

/-- The same, where the first part binds nothing. -/
theorem Quiet.bind {program : PayTask α} {next : α → PayTask β}
    {first : α → List (Exchange payHost) → Prop}
    {result : β → List (Exchange payHost) → Prop}
    (ends : program.Ensures allows permits past (Quiet past first))
    (later : ∀ value after, (∀ exchange ∈ after, ¬ exchange.request.Binds) →
      first value (past ++ after) →
      (next value).Ensures allows permits (past ++ after) (Ends result)) :
    (program.bind next).Ensures allows permits past (Ends result) := by
  apply Program.Ensures.bind ends
  · rintro value after ⟨⟨others, same, quiet⟩, holds⟩
    cases List.append_cancel_left same
    exact later value _ quiet holds
  · exact fun _ _ _ => trivial
  · exact fun _ never => never.2.elim

variable (free : ∀ past exchange, ¬ exchange.request.Binds →
  permits past exchange)

include free

theorem getApi_ensures (signer : FreighterSigner) :
    signer.getApi.Ensures allows permits past (Quiet past fun after _ =>
      after.publicKey = signer.publicKey) := by
  unfold FreighterSigner.getApi
  split
  · exact quiet_nil rfl
  · intro (reply : Except String Unit) _
    refine ⟨free _ _ id, ?_⟩
    have asked : ∃ later, past ++ [⟨.loadApi, reply⟩] = past ++ later ∧
        ∀ exchange ∈ later, ¬ exchange.request.Binds :=
      ⟨_, rfl, @quiet_snoc [] _ (List.forall_mem_nil _) id⟩
    cases reply with
    | error message => exact ⟨asked, trivial⟩
    | ok _ => exact ⟨asked, rfl⟩

theorem syncNetwork_ensures (signer : FreighterSigner) {passphrase : String}
    (named : passphrase ≠ "") :
    (signer.syncNetwork (some passphrase)).Ensures allows permits past
      (Quiet past fun after now => after.publicKey = signer.publicKey ∧
        OnNetwork passphrase now) := by
  unfold FreighterSigner.syncNetwork
  dsimp only
  rw [if_neg named]
  apply (getApi_ensures free signer).bind
  · rintro after api ⟨⟨others, isPast, quiet⟩, same⟩
    cases List.append_cancel_left isPast
    intro (reply : Except String NetworkReply) _
    refine ⟨free _ _ id, ?_⟩
    have asked : ∃ later, past ++ api ++ [⟨.getNetwork, reply⟩] =
        past ++ later ∧ ∀ exchange ∈ later, ¬ exchange.request.Binds :=
      ⟨_, List.append_assoc _ _ _, quiet_snoc quiet id⟩
    cases reply with
    | error message => exact ⟨asked, trivial⟩
    | ok result =>
        change Program.Ensures allows permits (match result.error with
          | some error => _
          | none => _) _ _
        split
        · exact ⟨asked, trivial⟩
        · rename_i noError
          split
          · exact ⟨asked, trivial⟩
          · rename_i isNetwork
            exact ⟨asked, same, _, result, rfl, noError,
              not_not.mp isNetwork⟩
  · rintro message later ⟨asked, _⟩
    exact ⟨asked, trivial⟩
  · exact fun later never => never.2.elim

/-- A signature is asked for just after the wallet has said that it is on the
network. -/
theorem signTransaction_ensures (signer : FreighterSigner) {xdr : String}
    {passphrase : String} (named : passphrase ≠ "") (address : Option String)
    (signed : ∀ later reply,
      (∀ exchange ∈ later, ¬ exchange.request.Binds) →
      OnNetwork passphrase (past ++ later) →
      permits (past ++ later) ⟨.signTransaction xdr (some passphrase)
        (address.getD signer.publicKey), reply⟩) :
    (signer.signTransaction xdr (some passphrase) address).Ensures allows
      permits past (Ends fun result now =>
        (⟨.signTransaction xdr (some passphrase)
          (address.getD signer.publicKey), .ok result.1⟩ :
            Exchange payHost) ∈ now) := by
  unfold FreighterSigner.signTransaction
  apply Quiet.bind (getApi_ensures free signer)
  intro loaded api quietApi sameKey
  dsimp only
  split
  · trivial
  · apply Quiet.bind (syncNetwork_ensures free loaded named)
    rintro synced network quietNetwork ⟨_, onNetwork⟩
    rw [List.append_assoc] at onNetwork ⊢
    intro (reply : Except String SignReply) _
    rw [sameKey]
    refine ⟨signed _ _ ?_ onNetwork, ?_⟩
    · intro exchange member
      rcases List.mem_append.mp member with early | late
      · exact quietApi exchange early
      · exact quietNetwork exchange late
    · cases reply with
      | error message => trivial
      | ok result => exact List.mem_append_right _ List.mem_cons_self

theorem signAuthEntry_ensures (signer : FreighterSigner)
    {preimage : Preimage} {passphrase : String} (named : passphrase ≠ "")
    (address : String)
    (signed : ∀ later reply, OnNetwork passphrase (past ++ later) →
      permits (past ++ later) ⟨.signAuthEntry preimage (some passphrase)
        address, reply⟩) :
    (signer.signAuthEntry preimage (some passphrase) (some address)).Ensures
      allows permits past (Ends fun _ _ => True) := by
  unfold FreighterSigner.signAuthEntry
  apply Quiet.bind (getApi_ensures free signer)
  intro loaded api _ _
  split
  · trivial
  · apply Quiet.bind (syncNetwork_ensures free loaded named)
    rintro synced network _ ⟨_, onNetwork⟩
    rw [List.append_assoc] at onNetwork ⊢
    intro (reply : Except String SignReply) _
    refine ⟨signed _ _ onNetwork, ?_⟩
    cases reply with
    | error message => trivial
    | ok result =>
        change Program.Ensures allows permits (match result.error with
          | some error => _
          | none => _) _ _
        split
        · trivial
        · split
          · trivial
          · trivial

end

end Stellar8004.Web.Payment
