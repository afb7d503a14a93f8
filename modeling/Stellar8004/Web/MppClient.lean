import Stellar8004.Web.Freighter

/-!
# The payment client

`createMppCredential` of `apps/web/src/lib/mpp-client.ts`.  Whatever a
challenge, the RPC server and the wallet answer, the wallet is asked to sign
nothing but the payment of the challenge, in a token it knows and on the
network of the app.
-/

namespace Stellar8004.Web.Payment

open Program

/-! ## `mpp-client.ts` -/

/-- The network the app is configured for. -/
inductive AppNetwork where
  | testnet
  | mainnet
  deriving DecidableEq

def AppNetwork.networkPassphrase : AppNetwork → String
  | testnet => TESTNET
  | mainnet => PUBLIC

/-- A challenge, its values as `String(…)` writes them. -/
structure Challenge where
  amount : String
  currency : String
  recipient : String
  network : Option String
  feePayer : Bool
  expires : Option String
  deriving DecidableEq

/-- An entry with the wallet's signature. -/
structure SignedEntry where
  preimage : Preimage
  signature : String
  deriving DecidableEq

/-- What the client takes from the language and from the SDKs.  `authorizeEntry`
is taken apart at the signer it calls: what it has signed, and what it makes of
the signature. -/
structure Sdk where
  bigInt : String → Option Int
  parseDate : String → Option Int
  isAddress : String → Bool
  verifies : Preimage → (signature publicKey : String) → Bool
  preimageOf : AuthEntry → (validUntilLedger : Int) →
    (networkPassphrase : String) → Preimage
  attach : Preimage → (signature publicKey : String) →
    Except String SignedEntry

/-- `authorizeEntry` binds the network and the expiry and verifies the
signature. -/
structure Sdk.AuthorizesEntries (sdk : Sdk) : Prop where
  binds : ∀ entry validUntilLedger networkPassphrase,
    sdk.preimageOf entry validUntilLedger networkPassphrase =
      { entry, validUntilLedger, networkPassphrase }
  verified : ∀ preimage signature publicKey signed,
    sdk.attach preimage signature publicKey = .ok signed →
      signed = { preimage, signature } ∧
        sdk.verifies preimage signature publicKey = true

inductive Payload where
  | sponsored (prepared : Prepared) (source : Option String) (func : String)
      (auth : List SignedEntry)
  | signed (xdr : String)
  deriving DecidableEq

structure Credential where
  challenge : Challenge
  payload : Payload
  source : String
  deriving DecidableEq

def ALL_ZEROS : String :=
  "GAAAAAAAAAAAAAAAAAAAAAAAAAAAAAAAAAAAAAAAAAAAAAAAAAAAAWHF"

def DEFAULT_LEDGER_CLOSE_TIME : Nat := 5
def DEFAULT_TIMEOUT : Nat := 180

def USDC_ALLOWLIST : List String :=
  ["CBIELTK6YBZJU5UP2WWQEUCYKLPU6AUNZ2BQ4WWFEIE3USCIHMXQDAMA",
    "CCW67TSZV3SSS2HXMBQ5JFGCKJNXKZM7UQUWUZPUTHXSTZLEO7SJMI75"]

def Challenge.networkName (challenge : Challenge) : String :=
  challenge.network.getD "stellar:testnet"

def Challenge.isMainnet (challenge : Challenge) : Bool :=
  challenge.networkName = "stellar:pubnet" ||
    challenge.networkName = "stellar:mainnet"

/-- The passphrase of the challenge's network. -/
def Challenge.networkPassphrase (challenge : Challenge) : String :=
  if challenge.isMainnet then PUBLIC else TESTNET

/-- `Math.ceil` of a quotient. -/
def ceilDiv (number : Int) (divisor : Nat) : Int :=
  -((-number) / divisor)

def credentialAddress : Credentials → Option String
  | .address address _ => some address
  | .addressV2 address _ => some address
  | .sourceAccount => none

def SignReply.failure (reply : SignReply) : Option String :=
  reply.error.map fun error => error.message.getD "[object Object]"

/-- The transaction of the payment. -/
def transfer (challenge : Challenge) (walletAddress : String) (amount : Int)
    (expires : Option Int) (source sequence : String) : TransferTransaction :=
  { source, sequence
    networkPassphrase := challenge.networkPassphrase
    contract := challenge.currency
    sender := walletAddress
    recipient := challenge.recipient
    amount
    timebounds :=
      match expires with
      | some maxTime => .expires maxTime
      | none => .timeout DEFAULT_TIMEOUT }

/-- `did:pkh` of the wallet; only the first `stellar:` is taken away. -/
def Challenge.did (challenge : Challenge) (walletAddress : String) : String :=
  "did:pkh:stellar:" ++
    String.ofList (challenge.networkName.toList.drop 8) ++ ":" ++
    walletAddress

/-- The entries of the operation, one after another. -/
def authorizeAll (sdk : Sdk) (networkPassphrase walletAddress : String)
    (validUntilLedger : Int) :
    FreighterSigner → List AuthEntry → PayTask (List SignedEntry)
  | _, [] => return []
  | signer, entry :: entries =>
      if credentialAddress entry.credentials ≠ some walletAddress then
        .throws "Unexpected payment authorization address."
      else do
        let preimage :=
          sdk.preimageOf entry validUntilLedger networkPassphrase
        let (result, signer) ← signer.signAuthEntry preimage
          (some networkPassphrase) (some walletAddress)
        match result.failure with
        | some message => .throws message
        | none =>
            let signature := result.signed.getD ""
            if signature = "" then
              .throws "Wallet returned no authorization signature."
            else
              match sdk.attach preimage signature walletAddress with
              | .error message => .throws message
              | .ok signed => do
                  let others ← authorizeAll sdk networkPassphrase
                    walletAddress validUntilLedger signer entries
                  return signed :: others

def validUntilLedger (latestLedger : Nat) : Option Int → PayTask Int
  | some expires => do
      let now ← call .now
      let secsUntilExpiry := max (expires - (now / 1000 : Nat)) 0
      return latestLedger + ceilDiv secsUntilExpiry DEFAULT_LEDGER_CLOSE_TIME
  | none =>
      return latestLedger +
        ceilDiv DEFAULT_TIMEOUT DEFAULT_LEDGER_CLOSE_TIME + 10

/-- The arguments of `transfer` as contract values. -/
def checkArguments (sdk : Sdk) (challenge : Challenge)
    (walletAddress : String) (amount : Int) : PayTask Unit :=
  if sdk.isAddress walletAddress = false ∨
      sdk.isAddress challenge.recipient = false then
    .throws "Unsupported address type"
  else if amount < -2 ^ 127 ∨ 2 ^ 127 ≤ amount then
    .throws "value out of range for type i128"
  else return ()

/-- The sponsored path: only the authorization entries are signed. -/
def paySponsored (sdk : Sdk) (signer : FreighterSigner)
    (challenge : Challenge) (walletAddress : String) (amount : Int)
    (expires : Option Int) : PayTask Credential := do
  checkArguments sdk challenge walletAddress amount
  let reply ← call (.prepareTransaction
    (transfer challenge walletAddress amount expires ALL_ZEROS "0"))
  let prepared ← await reply
  let health ← call .getHealth
  let latestLedger ← await health
  let validUntil ← validUntilLedger latestLedger expires
  match prepared.operations with
  | [operation] =>
      if operation.isInvokeHostFunction = false then
        .throws "Unexpected sponsored payment operation."
      else do
        let auth ← authorizeAll sdk challenge.networkPassphrase walletAddress
          validUntil signer operation.auth
        if auth = [] then
          .throws "Payment simulation returned no authorization entries."
        else
          return { challenge
                   payload := .sponsored prepared operation.source
                    operation.func auth
                   source := challenge.did walletAddress }
  | _ => .throws "Unexpected sponsored payment operation."

/-- The other path: the whole transaction is signed. -/
def payUnsponsored (sdk : Sdk) (signer : FreighterSigner)
    (challenge : Challenge) (walletAddress : String) (amount : Int)
    (expires : Option Int) : PayTask Credential := do
  let account ← call (.getAccount walletAddress)
  let sequence ← await account
  checkArguments sdk challenge walletAddress amount
  let reply ← call (.prepareTransaction
    (transfer challenge walletAddress amount expires walletAddress sequence))
  let prepared ← await reply
  let (result, _) ← signer.signTransaction prepared.xdr
    (some challenge.networkPassphrase) none
  match result.failure with
  | some message => .throws message
  | none =>
      let signed := result.signed.getD ""
      if signed = "" then .throws "Wallet returned no signed transaction."
      else
        return { challenge, payload := .signed signed
                 source := challenge.did walletAddress }

/-- The expiry of a challenge, none where it has none.  One that is over, or
no date, throws. -/
def readExpiry (sdk : Sdk) (challenge : Challenge) :
    PayTask (Option Int) :=
  match challenge.expires.filter (· ≠ "") with
  | none => return none
  | some text =>
      match sdk.parseDate text with
      | none =>
          .throws
            "Payment challenge has an invalid or expired expiration time."
      | some time => do
          let now ← call .now
          if time / 1000 ≤ (now / 1000 : Nat) then
            .throws
              "Payment challenge has an invalid or expired expiration time."
          else return some (time / 1000)

def createMppCredential (sdk : Sdk) (config : AppNetwork)
    (signer : FreighterSigner) (challenge : Challenge)
    (walletAddress : String) : PayTask Credential :=
  if challenge.currency ∉ USDC_ALLOWLIST then
    .throws ("Unsupported payment token: " ++ challenge.currency ++
      ". Only USDC is supported.")
  else if challenge.networkName ∉
      ["stellar:testnet", "stellar:pubnet", "stellar:mainnet"] then
    .throws ("Unsupported payment network: " ++ challenge.networkName)
  else if challenge.isMainnet = true ∧ config = .testnet then
    .throws ("Network mismatch: agent requires Mainnet but your wallet is " ++
      "on Testnet. Switch to Mainnet.")
  else if challenge.isMainnet = false ∧ config ≠ .testnet then
    .throws ("Network mismatch: agent requires Testnet but your wallet is " ++
      "on Mainnet. Switch to Testnet.")
  else
    match sdk.bigInt challenge.amount with
    | none => .throws ("Cannot convert " ++ challenge.amount ++ " to a BigInt")
    | some amount => do
        let expires ← readExpiry sdk challenge
        if challenge.feePayer then
          paySponsored sdk signer challenge walletAddress amount expires
        else payUnsponsored sdk signer challenge walletAddress amount expires

/-! ## What a payment may ask for -/

/-- A challenge in a known token, on the network of the app. -/
structure Payable (config : AppNetwork) (challenge : Challenge) : Prop where
  token : challenge.currency ∈ USDC_ALLOWLIST
  network : challenge.networkPassphrase = config.networkPassphrase

/-- The challenge has no expiry, or one that the clock was before. -/
def Unexpired (sdk : Sdk) (challenge : Challenge)
    (past : List (Exchange payHost)) : Prop :=
  ∀ text, challenge.expires.filter (· ≠ "") = some text →
    ∃ (time : Int) (now : Nat), sdk.parseDate text = some time ∧
      (⟨.now, now⟩ : Exchange payHost) ∈ past ∧
      ((now / 1000 : Nat) : Int) < time / 1000

/-- The transfer a challenge asks for, until its expiry. -/
structure IsPayment (sdk : Sdk) (challenge : Challenge)
    (walletAddress : String) (transaction : TransferTransaction) : Prop where
  contract : transaction.contract = challenge.currency
  sender : transaction.sender = walletAddress
  recipient : transaction.recipient = challenge.recipient
  amount : sdk.bigInt challenge.amount = some transaction.amount
  network : transaction.networkPassphrase = challenge.networkPassphrase
  ends : ∀ text, challenge.expires.filter (· ≠ "") = some text →
    ∃ time, sdk.parseDate text = some time ∧
      transaction.timebounds = .expires (time / 1000)

/-- The server has prepared a payment of the challenge. -/
def PreparedFor (sdk : Sdk) (challenge : Challenge) (walletAddress : String)
    (past : List (Exchange payHost)) (prepared : Prepared) : Prop :=
  ∃ transaction, IsPayment sdk challenge walletAddress transaction ∧
    (⟨.prepareTransaction transaction, .ok prepared⟩ : Exchange payHost) ∈ past

/-- What the client may ask for. -/
def Disciplined (sdk : Sdk) (config : AppNetwork) (signer : FreighterSigner)
    (challenge : Challenge) (walletAddress : String)
    (past : List (Exchange payHost)) (exchange : Exchange payHost) : Prop :=
  match exchange.request with
  | .prepareTransaction transaction =>
      Payable config challenge ∧ Unexpired sdk challenge past ∧
        IsPayment sdk challenge walletAddress transaction
  | .signAuthEntry preimage networkPassphrase address =>
      challenge.feePayer = true ∧ Payable config challenge ∧
        OnNetwork config.networkPassphrase past ∧
        networkPassphrase = some config.networkPassphrase ∧
        preimage.networkPassphrase = config.networkPassphrase ∧
        address = walletAddress ∧
        credentialAddress preimage.entry.credentials = some walletAddress ∧
        ∃ prepared operation,
          PreparedFor sdk challenge walletAddress past prepared ∧
          prepared.operations = [operation] ∧
          preimage.entry ∈ operation.auth
  | .signTransaction xdr networkPassphrase address =>
      challenge.feePayer = false ∧ Payable config challenge ∧
        OnNetwork config.networkPassphrase past ∧
        networkPassphrase = some config.networkPassphrase ∧
        address = signer.publicKey ∧
        (∃ prepared, PreparedFor sdk challenge walletAddress past prepared ∧
          xdr = prepared.xdr) ∧
        ∀ earlier ∈ past, ∀ xdr passphrase address,
          earlier.request ≠ .signTransaction xdr passphrase address
  | _ => True

/-- What a credential proves. -/
def Covers (sdk : Sdk) (challenge : Challenge) (walletAddress : String)
    (credential : Credential) (past : List (Exchange payHost)) : Prop :=
  credential.challenge = challenge ∧
  match credential.payload with
  | .sponsored prepared source func auth => ∃ operation,
      PreparedFor sdk challenge walletAddress past prepared ∧
        prepared.operations = [operation] ∧ source = operation.source ∧
        func = operation.func ∧
        auth.map (·.preimage.entry) = operation.auth ∧
        ∀ entry ∈ auth,
          sdk.verifies entry.preimage entry.signature walletAddress = true
  | .signed xdr => ∃ prepared networkPassphrase address reply,
      PreparedFor sdk challenge walletAddress past prepared ∧
        (⟨.signTransaction prepared.xdr networkPassphrase address,
          .ok reply⟩ : Exchange payHost) ∈ past ∧
        reply.signed = some xdr

section

variable {sdk : Sdk} {config : AppNetwork} {signer : FreighterSigner}
  {challenge : Challenge} {walletAddress : String}
  {past : List (Exchange payHost)}
  {allows : List (Exchange payHost) → Exchange payHost → Prop}

theorem disciplined_free (past : List (Exchange payHost))
    (exchange : Exchange payHost) (free : ¬ exchange.request.Binds) :
    Disciplined sdk config signer challenge walletAddress past exchange := by
  obtain ⟨request, answer⟩ := exchange
  cases request with
  | signTransaction xdr passphrase address => exact (free trivial).elim
  | signAuthEntry preimage passphrase address => exact (free trivial).elim
  | prepareTransaction transaction => exact (free trivial).elim
  | _ => trivial

theorem networkPassphrase_ne (config : AppNetwork) :
    config.networkPassphrase ≠ "" := by
  cases config with
  | testnet => decide
  | mainnet => decide

theorem PreparedFor.append {prepared : Prepared}
    (isPrepared : PreparedFor sdk challenge walletAddress past prepared)
    (later : List (Exchange payHost)) :
    PreparedFor sdk challenge walletAddress (past ++ later) prepared := by
  obtain ⟨transaction, isPayment, member⟩ := isPrepared
  exact ⟨transaction, isPayment, List.mem_append_left _ member⟩

/-! ## The parts of a payment -/

/-- What is known of the expiry a payment is made with. -/
def ReadsExpiry (sdk : Sdk) (challenge : Challenge)
    (expires : Option Int) : Prop :=
  ∀ text, challenge.expires.filter (· ≠ "") = some text →
    ∃ time, sdk.parseDate text = some time ∧ expires = some (time / 1000)

theorem readExpiry_ensures :
    (readExpiry sdk challenge).Ensures allows
      (Disciplined sdk config signer challenge walletAddress) past
      (Quiet past fun expires now => ReadsExpiry sdk challenge expires ∧
        Unexpired sdk challenge now) := by
  unfold readExpiry
  split
  · rename_i never
    apply quiet_nil
    constructor
    · intro text isText
      rw [never] at isText
      cases isText
    · intro text isText
      rw [never] at isText
      cases isText
  · rename_i text isText
    split
    · exact ⟨⟨[], by simp, fun _ member => nomatch member⟩, trivial⟩
    · rename_i time parses
      intro (now : Nat) _
      refine ⟨disciplined_free _ _ id, ?_⟩
      have asked : ∃ later, past ++ [⟨.now, now⟩] = past ++ later ∧
          ∀ exchange ∈ later, ¬ exchange.request.Binds := by
        refine ⟨_, rfl, ?_⟩
        intro exchange member
        rw [List.mem_singleton.mp member]
        exact id
      simp only [returns_bind]
      split
      · exact ⟨asked, trivial⟩
      · rename_i before
        refine ⟨asked, ?_, ?_⟩
        · intro other isOther
          rw [isText] at isOther
          cases isOther
          exact ⟨time, parses, rfl⟩
        · intro other isOther
          rw [isText] at isOther
          cases isOther
          exact ⟨time, now, parses, by simp, Int.lt_of_not_ge before⟩

theorem checkArguments_ensures (amount : Int) :
    (checkArguments sdk challenge walletAddress amount).Ensures allows
      (Disciplined sdk config signer challenge walletAddress) past
      (Quiet past fun _ _ => True) := by
  unfold checkArguments
  split
  · exact ⟨⟨[], by simp, fun _ member => nomatch member⟩, trivial⟩
  · split
    · exact ⟨⟨[], by simp, fun _ member => nomatch member⟩, trivial⟩
    · exact quiet_nil trivial

theorem validUntilLedger_ensures (latestLedger : Nat)
    (expires : Option Int) :
    (validUntilLedger latestLedger expires).Ensures allows
      (Disciplined sdk config signer challenge walletAddress) past
      (Ends fun _ _ => True) := by
  cases expires with
  | none => trivial
  | some expires => exact fun _ _ => ⟨disciplined_free _ _ id, trivial⟩

theorem transfer_isPayment {amount : Int} {expires : Option Int}
    (isAmount : sdk.bigInt challenge.amount = some amount)
    (reads : ReadsExpiry sdk challenge expires) (source sequence : String) :
    IsPayment sdk challenge walletAddress
      (transfer challenge walletAddress amount expires source sequence) where
  contract := rfl
  sender := rfl
  recipient := rfl
  amount := isAmount
  network := rfl
  ends text isText := by
    obtain ⟨time, parses, rfl⟩ := reads text isText
    exact ⟨time, parses, rfl⟩

/-- The wallet signs entries of the prepared operation, each for itself. -/
theorem authorizeAll_ensures (authorizes : sdk.AuthorizesEntries)
    {prepared : Prepared}
    {operation : PreparedOperation} (sponsored : challenge.feePayer = true)
    (payable : Payable config challenge)
    (isPrepared : PreparedFor sdk challenge walletAddress past prepared)
    (single : prepared.operations = [operation]) (validUntil : Int)
    (current : FreighterSigner) {entries : List AuthEntry}
    (inside : ∀ entry ∈ entries, entry ∈ operation.auth) :
    (authorizeAll sdk challenge.networkPassphrase walletAddress validUntil
      current entries).Ensures allows
      (Disciplined sdk config signer challenge walletAddress) past
      (Ends fun auth _ => auth.map (·.preimage.entry) = entries ∧
        ∀ entry ∈ auth, sdk.verifies entry.preimage entry.signature
          walletAddress = true) := by
  induction entries generalizing past current with
  | nil => exact ⟨rfl, fun _ member => nomatch member⟩
  | cons entry entries induction =>
      unfold authorizeAll
      simp only [authorizes.binds]
      split
      · trivial
      · rename_i own
        have named := networkPassphrase_ne config
        rw [← payable.network] at named
        apply Ends.bind (signAuthEntry_ensures disciplined_free current named
          walletAddress ?_)
        · rintro ⟨result, signer⟩ later _
          dsimp only
          split
          · trivial
          · split
            · trivial
            · split
              · trivial
              · rename_i signed attached
                obtain ⟨rfl, verified⟩ :=
                  authorizes.verified _ _ _ _ attached
                apply Ends.bind (induction (isPrepared.append later) signer
                  fun other member =>
                    inside other (List.mem_cons_of_mem _ member))
                rintro auth after ⟨same, all⟩
                refine ⟨congrArg (List.cons entry) same, ?_⟩
                intro other member
                rcases List.mem_cons.mp member with rfl | older
                · exact verified
                · exact all other older
        · intro later reply onNetwork
          rw [payable.network] at onNetwork
          exact ⟨sponsored, payable, onNetwork,
            congrArg some payable.network, payable.network, rfl,
            not_not.mp own, prepared, operation, isPrepared.append later,
            single, inside entry List.mem_cons_self⟩

/-- The server is asked to prepare the payment, and to nothing else. -/
theorem prepare_ensures {transaction : TransferTransaction}
    (payable : Payable config challenge)
    (unexpired : Unexpired sdk challenge past)
    (isPayment : IsPayment sdk challenge walletAddress transaction)
    {next : Prepared → PayTask Credential}
    (later : ∀ prepared, (next prepared).Ensures allows
      (Disciplined sdk config signer challenge walletAddress)
      (past ++ [⟨.prepareTransaction transaction, .ok prepared⟩])
      (Ends (Covers sdk challenge walletAddress))) :
    (Program.asks (.prepareTransaction transaction)
      fun reply : Except String Prepared => (await reply).bind next :
        PayTask Credential).Ensures allows
      (Disciplined sdk config signer challenge walletAddress) past
      (Ends (Covers sdk challenge walletAddress)) := by
  intro (reply : Except String Prepared) _
  refine ⟨⟨payable, unexpired, isPayment⟩, ?_⟩
  cases reply with
  | error message => trivial
  | ok prepared => exact later prepared

theorem Unexpired.append (unexpired : Unexpired sdk challenge past)
    (later : List (Exchange payHost)) :
    Unexpired sdk challenge (past ++ later) := by
  intro text isText
  obtain ⟨time, now, parses, member, before⟩ := unexpired text isText
  exact ⟨time, now, parses, List.mem_append_left _ member, before⟩

theorem paySponsored_ensures (authorizes : sdk.AuthorizesEntries)
    (sponsored : challenge.feePayer = true)
    (payable : Payable config challenge) {amount : Int}
    {expires : Option Int}
    (isAmount : sdk.bigInt challenge.amount = some amount)
    (reads : ReadsExpiry sdk challenge expires)
    (unexpired : Unexpired sdk challenge past) :
    (paySponsored sdk signer challenge walletAddress amount expires).Ensures
      allows (Disciplined sdk config signer challenge walletAddress) past
      (Ends (Covers sdk challenge walletAddress)) := by
  unfold paySponsored
  apply Quiet.bind (checkArguments_ensures amount)
  intro _ later _ _
  have isPayment : IsPayment sdk challenge walletAddress
      (transfer challenge walletAddress amount expires ALL_ZEROS "0") :=
    transfer_isPayment isAmount reads ALL_ZEROS "0"
  apply prepare_ensures payable (unexpired.append later) isPayment
  intro prepared
  have isPrepared : PreparedFor sdk challenge walletAddress
      (past ++ later ++ [⟨.prepareTransaction _, .ok prepared⟩]) prepared :=
    ⟨_, isPayment, List.mem_append_right _ List.mem_cons_self⟩
  intro (health : Except String Nat) _
  refine ⟨disciplined_free _ _ id, ?_⟩
  have known := isPrepared.append [⟨.getHealth, health⟩]
  cases health with
  | error message => trivial
  | ok latestLedger =>
      apply Ends.bind (validUntilLedger_ensures latestLedger expires)
      intro validUntil after _
      split
      · rename_i operation single
        split
        · trivial
        · apply Ends.bind (authorizeAll_ensures authorizes sponsored payable
            (known.append after) single validUntil signer
            fun _ member => member)
          rintro auth others ⟨same, verified⟩
          split
          · trivial
          · exact ⟨rfl, operation, (known.append after).append others,
              single, rfl, rfl, same, verified⟩
      · trivial

theorem payUnsponsored_ensures (own : challenge.feePayer = false)
    (payable : Payable config challenge) {amount : Int}
    {expires : Option Int}
    (isAmount : sdk.bigInt challenge.amount = some amount)
    (reads : ReadsExpiry sdk challenge expires)
    (unexpired : Unexpired sdk challenge past)
    (unbound : ∀ exchange ∈ past, ¬ exchange.request.Binds) :
    (payUnsponsored sdk signer challenge walletAddress amount expires).Ensures
      allows (Disciplined sdk config signer challenge walletAddress) past
      (Ends (Covers sdk challenge walletAddress)) := by
  unfold payUnsponsored
  intro (account : Except String String) _
  refine ⟨disciplined_free _ _ id, ?_⟩
  cases account with
  | error message => trivial
  | ok sequence =>
      apply Quiet.bind (checkArguments_ensures amount)
      intro _ later quiet _
      have isPayment : IsPayment sdk challenge walletAddress
          (transfer challenge walletAddress amount expires walletAddress
            sequence) :=
        transfer_isPayment isAmount reads walletAddress sequence
      apply prepare_ensures payable
        ((unexpired.append [_]).append later) isPayment
      intro prepared
      have isPrepared : PreparedFor sdk challenge walletAddress
          (past ++ [⟨.getAccount walletAddress, .ok sequence⟩] ++ later ++
            [⟨.prepareTransaction _, .ok prepared⟩]) prepared :=
        ⟨_, isPayment, List.mem_append_right _ List.mem_cons_self⟩
      have named := networkPassphrase_ne config
      rw [← payable.network] at named
      apply Ends.bind (signTransaction_ensures disciplined_free signer named
        none ?_)
      · rintro ⟨result, signer⟩ after signed
        dsimp only
        split
        · trivial
        · split
          · trivial
          · rename_i named
            refine ⟨rfl, prepared, _, _, result, isPrepared.append after,
              signed, ?_⟩
            cases isSigned : result.signed with
            | none => exact absurd (by rw [isSigned]; rfl) named
            | some xdr => rfl
      · intro after reply quietAfter onNetwork
        rw [payable.network] at onNetwork
        refine ⟨own, payable, onNetwork, congrArg some payable.network, rfl,
          ⟨prepared, isPrepared.append after, rfl⟩, ?_⟩
        intro exchange member xdr passphrase address isSign
        have binds : exchange.request.Binds := by
          rw [isSign]
          trivial
        simp only [List.mem_append, List.mem_singleton] at member
        rcases member with (((old | rfl) | checked) | rfl) | late
        · exact unbound exchange old binds
        · cases isSign
        · exact quiet exchange checked binds
        · cases isSign
        · exact quietAfter exchange late binds

theorem createMppCredential_ensures (authorizes : sdk.AuthorizesEntries) :
    (createMppCredential sdk config signer challenge walletAddress).Ensures
      allows (Disciplined sdk config signer challenge walletAddress) []
      (Ends fun credential now => Payable config challenge ∧
        Covers sdk challenge walletAddress credential now) := by
  unfold createMppCredential
  split
  · trivial
  rename_i token
  split
  · trivial
  split
  · trivial
  rename_i mainnet
  split
  · trivial
  rename_i testnet
  have payable : Payable config challenge := by
    refine ⟨not_not.mp token, ?_⟩
    unfold Challenge.networkPassphrase
    cases config with
    | testnet =>
        rw [if_neg fun isMainnet => mainnet ⟨isMainnet, rfl⟩]
        rfl
    | mainnet =>
        rw [if_pos]
        · rfl
        · by_contra other
          exact testnet ⟨Bool.eq_false_iff.mpr other, by decide⟩
  split
  · trivial
  rename_i amount isAmount
  apply Quiet.bind readExpiry_ensures
  rintro expires later quiet ⟨reads, unexpired⟩
  split
  · rename_i sponsored
    apply (paySponsored_ensures authorizes sponsored payable isAmount reads
      unexpired).mono
    rintro final others ends
    cases final with
    | returned credential => exact ⟨payable, ends⟩
    | threw message => trivial
    | unfinished => exact ends
  · rename_i own
    apply (payUnsponsored_ensures (Bool.eq_false_iff.mpr own) payable isAmount
      reads unexpired quiet).mono
    rintro final others ends
    cases final with
    | returned credential => exact ⟨payable, ends⟩
    | threw message => trivial
    | unfinished => exact ends

/-- Whatever the challenge, the RPC server, the wallet and the clock say, and
wherever the client is killed: it prepares nothing but the transfer the
challenge asks for, in a known token on the network of the app and before the
challenge expires; the wallet is asked for signatures only just after it has
said that it is on that network, of entries for its own address in what the
server prepared for the payment, or once of the prepared transaction.  A
sponsored credential holds the prepared operation with signatures that verify,
another one what the wallet returned for the prepared transaction. -/
theorem payment_disciplined (authorizes : sdk.AuthorizesEntries) {trace : List (Exchange payHost)}
    {final : Option (Final payHost Credential)}
    (yields : Yields (createMppCredential sdk config signer challenge
      walletAddress) trace final) :
    Along (Disciplined sdk config signer challenge walletAddress) [] trace ∧
    ∀ credential, final = some (.returned credential) →
      Payable config challenge ∧
        Covers sdk challenge walletAddress credential trace := by
  have ensures : (createMppCredential sdk config signer challenge
      walletAddress).Ensures (fun _ _ => True)
        (Disciplined sdk config signer challenge walletAddress) []
        (Ends fun credential now => Payable config challenge ∧
          Covers sdk challenge walletAddress credential now) :=
    createMppCredential_ensures authorizes
  have answered : Along (fun _ _ => True) [] trace :=
    along_of_forall (fun _ _ => trivial) [] trace
  refine ⟨ensures.along yields answered, ?_⟩
  rintro credential rfl
  exact ensures.final yields answered

end

/-! ## A sponsored payment -/

def sampleSdk : Sdk :=
  { bigInt := fun _ => some 10000, parseDate := fun _ => none
    isAddress := fun _ => true
    verifies := fun _ signature publicKey =>
      signature = "signature" ∧ publicKey = "wallet"
    preimageOf := fun entry validUntilLedger networkPassphrase =>
      { entry, validUntilLedger, networkPassphrase }
    attach := fun preimage signature publicKey =>
      if signature = "signature" ∧ publicKey = "wallet" then
        .ok { preimage, signature }
      else .error "signature doesn't match payload" }

theorem sampleSdk_authorizes : sampleSdk.AuthorizesEntries := by
  constructor
  · intro entry validUntilLedger networkPassphrase
    rfl
  · intro preimage signature publicKey signed attached
    simp only [sampleSdk] at attached ⊢
    split_ifs at attached with own
    cases attached
    exact ⟨rfl, decide_eq_true own⟩

def sampleChallenge : Challenge :=
  { amount := "10000"
    currency := "CBIELTK6YBZJU5UP2WWQEUCYKLPU6AUNZ2BQ4WWFEIE3USCIHMXQDAMA"
    recipient := "agent", network := none, feePayer := true, expires := none }

/-- A wallet that signs, and a server that asks for one signature. -/
def willingHost : (request : PayRequest) → request.Answer
  | .loadApi => .ok ()
  | .getNetwork => .ok
      { network := "TESTNET", networkPassphrase := TESTNET, error := none }
  | .signTransaction _ _ _ => .ok { signed := some "signed", error := none }
  | .signAuthEntry _ _ _ => .ok { signed := some "signature", error := none }
  | .now => (0 : Nat)
  | .getAccount _ => .ok "1"
  | .prepareTransaction _ => .ok
      { operations :=
          [{ isInvokeHostFunction := true, source := none, func := "transfer"
             auth := [{ credentials := .address "wallet" 1
                        rootInvocation := "transfer" }] }]
        xdr := "prepared" }
  | .getHealth => .ok 100

theorem payment_disciplined_sponsored :
    ∃ (trace : List (Exchange payHost)) (credential : Credential),
      trace.length = 5 ∧
      Along (Disciplined sampleSdk .testnet ⟨"wallet", false⟩ sampleChallenge
        "wallet") [] trace ∧
      Payable .testnet sampleChallenge ∧
      Covers sampleSdk sampleChallenge "wallet" credential trace := by
  have run := payment_disciplined sampleSdk_authorizes
    (yields_answeredBy willingHost (createMppCredential sampleSdk .testnet
      ⟨"wallet", false⟩ sampleChallenge "wallet"))
  exact ⟨_, _, rfl, run.1, run.2 _ rfl⟩

end Stellar8004.Web.Payment
