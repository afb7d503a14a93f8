import Mathlib

/-!
# Tables and statements

The tables of `0001_init.sql` the indexer writes, and the event statements of
`db.ts` (the `SQL` object) as bound statements.  Keyed tables are functions
from their key; `feedback_responses` keeps its rows in insertion order.
`exec` runs one statement: it fails on a constraint and changes nothing, or
gives the new tables and the number of rows changed.
-/

namespace Stellar8004.Indexer

structure AgentRow where
  owner : String
  agentUri : Option String
  agentUriData : Option String
  wallet : Option String
  createdAt : String
  updatedAt : String
  createdLedger : Nat
  txHash : String
  uriResolveAttempts : Nat
  resolveUriPending : Bool
  lastResolveAttemptAt : Option String
  supportedTrust : String
  services : String
  x402Enabled : Bool
  mppEnabled : Bool
  uriUpdatedLedger : Option Nat
  transferredLedger : Option Nat
  deriving DecidableEq

/-- The unique key of `feedback`. -/
structure FeedbackKey where
  agentId : Nat
  clientAddress : String
  feedbackIndex : Nat
  deriving DecidableEq

structure FeedbackRow where
  value : String
  valueDecimals : Nat
  tag1 : Option String
  tag2 : Option String
  endpoint : Option String
  feedbackUri : Option String
  feedbackHash : Option String
  isRevoked : Bool
  createdAt : String
  createdLedger : Nat
  txHash : String
  revokedLedger : Option Nat
  deriving DecidableEq

structure ResponseRow where
  key : FeedbackKey
  responseIndex : Nat
  responder : String
  responseUri : Option String
  responseHash : Option String
  createdAt : String
  txHash : String
  eventId : String
  deriving DecidableEq

structure ValidationRow where
  agentId : Nat
  validatorAddress : String
  requestUri : Option String
  response : Option Nat
  responseUri : Option String
  responseHash : Option String
  tag : Option String
  hasResponse : Bool
  createdAt : String
  respondedAt : Option String
  requestTxHash : String
  responseTxHash : Option String
  responseLedger : Option Nat
  deriving DecidableEq

@[ext] structure Tables where
  agents : Nat → Option AgentRow
  agentMetadata : Nat → String → Option String
  feedback : FeedbackKey → Option FeedbackRow
  feedbackResponses : List ResponseRow
  validations : String → Option ValidationRow

def Tables.empty : Tables :=
  { agents := fun _ => none
    agentMetadata := fun _ _ => none
    feedback := fun _ => none
    feedbackResponses := []
    validations := fun _ => none }

/-- The event statements with their bound parameters. -/
inductive Statement where
  | registered (id : Nat) (owner agentUri : String) (resolveUriPending : Bool)
      (createdAt : String) (createdLedger : Nat) (txHash : String)
  | uriUpdated (newUri : String) (ledger : Nat) (now : String) (id : Nat)
  | metadataSet (agentId : Nat) (key value : String)
  | walletSet (wallet : Option String) (now : String) (id : Nat)
  | transferred (owner : String) (ledger : Nat) (now : String) (id : Nat)
  | newFeedback (agentId : Nat) (clientAddress : String)
      (feedbackIndex : Nat) (value : String) (valueDecimals : Nat)
      (tag1 tag2 endpoint feedbackUri feedbackHash : Option String)
      (createdAt : String) (createdLedger : Nat) (txHash : String)
  | feedbackRevoked (ledger agentId : Nat) (clientAddress : String)
      (feedbackIndex : Nat)
  | responseAppended (agentId : Nat) (clientAddress : String)
      (feedbackIndex : Nat) (responder : String)
      (responseUri responseHash : Option String) (createdAt txHash : String)
      (eventId : String)
  | validationRequest (requestHash : String) (agentId : Nat)
      (validatorAddress : String) (requestUri : Option String)
      (createdAt requestTxHash : String)
  | validationResponse (response : Nat)
      (responseUri responseHash tag : Option String)
      (respondedAt responseTxHash : String) (ledger : Nat)
      (requestHash : String)
  deriving DecidableEq

/-- Why a statement fails on a constraint. -/
inductive Violation where
  | foreignKey
  | check (column : String)
  deriving DecidableEq, Repr

/-- SQLite's `length` of a text: its characters before a NUL. -/
def sqlLength (text : String) : Nat :=
  (text.toList.takeWhile (· ≠ Char.ofNat 0)).length

/-- The two CHECKs on `feedback.value`: an optional sign, then digits.  `GLOB`
reads a text up to a NUL, `ltrim` and `<>` all of it. -/
def isDecimalText (value : String) : Bool :=
  let unsigned := value.toList.dropWhile (· = '-')
  (match value.toList with
    | '-' :: second :: _ => second.isDigit
    | first :: _ => first.isDigit
    | [] => false) &&
    (unsigned.takeWhile (· ≠ Char.ofNat 0)).all Char.isDigit &&
    !unsigned.isEmpty

/-- A decimal text stored under INTEGER affinity: exact in 64 bits, and the
nearest double beyond. -/
def integerAffinity (number : Nat) : Nat :=
  if number < 2 ^ 63 then number
  else
    let unit := 2 ^ (Nat.log2 number - 52)
    let quotient := number / unit
    let rest := number % unit
    if 2 * rest < unit ∨ 2 * rest = unit ∧ quotient % 2 = 0 then
      quotient * unit
    else (quotient + 1) * unit

/-- `column IS NULL OR column <= bound`. -/
def notAfter (column : Option Nat) (bound : Nat) : Bool :=
  column.all (· ≤ bound)

/-- `COALESCE(MAX(response_index), 0)` over the responses to one feedback. -/
def maxResponseIndex (rows : List ResponseRow) (key : FeedbackKey) : Nat :=
  ((rows.filter fun row => row.key = key).map
    ResponseRow.responseIndex).foldl max 0

namespace Tables

/-- What `uriUpdated` leaves in a row. -/
def writeUri (row : AgentRow) (newUri : String) (ledger : Nat)
    (now : String) : AgentRow :=
  { row with
    agentUri := some newUri, agentUriData := none, supportedTrust := "[]"
    services := "[]", x402Enabled := false, mppEnabled := false
    uriResolveAttempts := 0, lastResolveAttemptAt := none
    resolveUriPending := newUri ≠ "", uriUpdatedLedger := some ledger
    updatedAt := now }

/-- The row `registered` inserts, with the schema's defaults. -/
def newAgent (owner agentUri : String) (resolveUriPending : Bool)
    (createdAt : String) (createdLedger : Nat) (txHash now : String) :
    AgentRow :=
  { owner, agentUri := some agentUri, agentUriData := none, wallet := none
    createdAt, updatedAt := now, createdLedger, txHash
    uriResolveAttempts := 0, resolveUriPending, lastResolveAttemptAt := none
    supportedTrust := "[]", services := "[]", x402Enabled := false
    mppEnabled := false, uriUpdatedLedger := none, transferredLedger := none }

def setAgent (tables : Tables) (id : Nat) (row : AgentRow) : Tables :=
  { tables with agents := Function.update tables.agents id (some row) }

/-- The `agents_transfer_clears_metadata` trigger. -/
def clearMetadata (tables : Tables) (id : Nat) : Tables :=
  { tables with
    agentMetadata := Function.update tables.agentMetadata id fun _ => none }

/-- One statement against the schema.  CHECKs come before uniqueness, foreign
keys after it, so a row that conflicts is not checked for its parent.
`defaultTime` is the schema's default for `updated_at`. -/
def exec (defaultTime : String) (tables : Tables) :
    Statement → Except Violation (Tables × Nat)
  | .registered id owner agentUri pending createdAt createdLedger txHash =>
      if 256 < sqlLength owner then .error (.check "owner")
      else
        match tables.agents id with
        | some _ => .ok (tables, 0)
        | none => .ok (tables.setAgent id
            (newAgent owner agentUri pending createdAt createdLedger txHash
              defaultTime), 1)
  | .uriUpdated newUri ledger now id =>
      match tables.agents id with
      | none => .ok (tables, 0)
      | some row =>
          if notAfter row.uriUpdatedLedger ledger ∧
              ¬(row.uriUpdatedLedger = some ledger ∧
                row.agentUri = some newUri) then
            .ok (tables.setAgent id (writeUri row newUri ledger now), 1)
          else .ok (tables, 0)
  | .metadataSet agentId key value =>
      match tables.agents agentId with
      | none => .error .foreignKey
      | some _ => .ok
          ({ tables with
              agentMetadata := Function.update tables.agentMetadata agentId
                (Function.update (tables.agentMetadata agentId) key
                  (some value)) }, 1)
  | .walletSet wallet now id =>
      match tables.agents id with
      | none => .ok (tables, 0)
      | some row =>
          if 256 < (wallet.map sqlLength).getD 0 then .error (.check "wallet")
          else .ok (tables.setAgent id
            { row with wallet := wallet, updatedAt := now }, 1)
  | .transferred owner ledger now id =>
      match tables.agents id with
      | none => .ok (tables, 0)
      | some row =>
          if notAfter row.transferredLedger ledger then
            if 256 < sqlLength owner then .error (.check "owner")
            else .ok ((tables.setAgent id
              { row with
                owner := owner, wallet := none
                transferredLedger := some ledger
                updatedAt := now }).clearMetadata id, 1)
          else .ok (tables, 0)
  | .newFeedback agentId clientAddress feedbackIndex value valueDecimals
      tag1 tag2 endpoint feedbackUri feedbackHash createdAt createdLedger
      txHash =>
      let key : FeedbackKey :=
        { agentId, clientAddress
          feedbackIndex := integerAffinity feedbackIndex }
      if 256 < sqlLength clientAddress then .error (.check "client_address")
      else if key.feedbackIndex < 1 then .error (.check "feedback_index")
      else if !isDecimalText value then .error (.check "value")
      else if 18 < valueDecimals then .error (.check "value_decimals")
      else
        match tables.feedback key with
        | some _ => .ok (tables, 0)
        | none =>
            match tables.agents agentId with
            | none => .error .foreignKey
            | some _ => .ok
                ({ tables with
                    feedback := Function.update tables.feedback key (some
                      { value, valueDecimals, tag1, tag2, endpoint
                        feedbackUri, feedbackHash, isRevoked := false
                        createdAt, createdLedger, txHash
                        revokedLedger := none }) }, 1)
  | .feedbackRevoked ledger agentId clientAddress feedbackIndex =>
      let key : FeedbackKey :=
        { agentId, clientAddress
          feedbackIndex := integerAffinity feedbackIndex }
      match tables.feedback key with
      | none => .ok (tables, 0)
      | some row =>
          if notAfter row.revokedLedger ledger then
            .ok ({ tables with
              feedback := Function.update tables.feedback key (some
                { row with
                  isRevoked := true, revokedLedger := some ledger }) }, 1)
          else .ok (tables, 0)
  | .responseAppended agentId clientAddress feedbackIndex responder
      responseUri responseHash createdAt txHash eventId =>
      let key : FeedbackKey :=
        { agentId, clientAddress
          feedbackIndex := integerAffinity feedbackIndex }
      if 256 < sqlLength clientAddress then .error (.check "client_address")
      else if 256 < sqlLength responder then .error (.check "responder")
      else if tables.feedbackResponses.any (·.eventId = eventId) then
        .ok (tables, 0)
      else
        match tables.feedback key with
        | none => .error .foreignKey
        | some _ => .ok
            ({ tables with
                feedbackResponses := tables.feedbackResponses ++
                  [{ key
                     responseIndex :=
                      maxResponseIndex tables.feedbackResponses key + 1
                     responder, responseUri, responseHash, createdAt, txHash
                     eventId }] }, 1)
  | .validationRequest requestHash agentId validatorAddress requestUri
      createdAt requestTxHash =>
      if 256 < sqlLength validatorAddress then
        .error (.check "validator_address")
      else
        match tables.validations requestHash with
        | some _ => .ok (tables, 0)
        | none =>
            match tables.agents agentId with
            | none => .error .foreignKey
            | some _ => .ok
                ({ tables with
                    validations := Function.update tables.validations
                      requestHash (some
                        { agentId, validatorAddress, requestUri
                          response := none, responseUri := none
                          responseHash := none, tag := none
                          hasResponse := false, createdAt
                          respondedAt := none, requestTxHash
                          responseTxHash := none
                          responseLedger := none }) }, 1)
  | .validationResponse response responseUri responseHash tag respondedAt
      responseTxHash ledger requestHash =>
      match tables.validations requestHash with
      | none => .ok (tables, 0)
      | some row =>
          if notAfter row.responseLedger ledger then
            if 100 < response then .error (.check "response")
            else .ok ({ tables with
              validations := Function.update tables.validations requestHash
                (some { row with
                  response := some response, responseUri, responseHash, tag
                  hasResponse := true, respondedAt := some respondedAt
                  responseTxHash := some responseTxHash
                  responseLedger := some ledger }) }, 1)
          else .ok (tables, 0)

end Tables

end Stellar8004.Indexer
