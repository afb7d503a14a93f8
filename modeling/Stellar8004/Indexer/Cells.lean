import Stellar8004.Indexer.Statements
import Stellar8004.Library.Guarded

/-!
# Cells of the database

Each event touches one thing: an agent with its metadata, a feedback entry
with its responses, or a validation request.  A cell holds all columns of one
such thing except `updated_at`; the step functions are the effect of one event
on the cell it touches.
Agents combine a guarded URI, whose columns are replaced together, with a
resettable map: the wallet and the metadata, reset by transfers.
-/

namespace Stellar8004.Indexer

/-- The columns `uriUpdated` writes. -/
structure UriColumns where
  agentUri : Option String
  agentUriData : Option String
  supportedTrust : String
  services : String
  x402Enabled : Bool
  mppEnabled : Bool
  uriResolveAttempts : Nat
  lastResolveAttemptAt : Option String
  resolveUriPending : Bool
  uriUpdatedLedger : Option Nat
  deriving DecidableEq

/-- What a transfer resets. -/
inductive HoldingCell where
  | wallet
  | metadata (key : String)
  deriving DecidableEq

/-- Owner, transfer ledger, wallet and metadata of an agent. -/
abbrev Holding := ResettableMap HoldingCell String String Nat

structure AgentCell where
  createdAt : String
  createdLedger : Nat
  txHash : String
  uri : UriColumns
  holding : Holding

/-- The columns of `uriUpdated`, freshly written. -/
def writtenUri (event : UriUpdatedEvent) : UriColumns :=
  { agentUri := some event.newUri, agentUriData := none
    supportedTrust := "[]", services := "[]", x402Enabled := false
    mppEnabled := false, uriResolveAttempts := 0, lastResolveAttemptAt := none
    resolveUriPending := event.newUri ≠ ""
    uriUpdatedLedger := some event.ledger }

/-- The guard of `uriUpdated`, with its exception for the update already
applied. -/
def uriStore : GuardedWrite UriUpdatedEvent UriColumns Nat where
  stamp event := event.ledger
  written := writtenUri
  holds columns := columns.uriUpdatedLedger
  skips event columns :=
    columns.uriUpdatedLedger = some event.ledger ∧
      columns.agentUri = some event.newUri
  holds_written _ := rfl
  skips_written event other same := by
    have parts := of_decide_eq_true same
    simp only [writtenUri, Option.some.injEq] at parts
    simp [writtenUri, parts.1, parts.2]

/-- The columns `feedbackRevoked` writes. -/
structure RevokedColumns where
  isRevoked : Bool
  revokedLedger : Option Nat
  deriving DecidableEq

def revokedStore : GuardedWrite FeedbackRevokedEvent RevokedColumns Nat where
  stamp event := event.ledger
  written event := { isRevoked := true, revokedLedger := some event.ledger }
  holds columns := columns.revokedLedger
  skips _ _ := false
  holds_written _ := rfl
  skips_written _ _ same := by simp at same

def FeedbackRow.revoked (row : FeedbackRow) : RevokedColumns :=
  { isRevoked := row.isRevoked, revokedLedger := row.revokedLedger }

def FeedbackRow.withRevoked (row : FeedbackRow) (columns : RevokedColumns) :
    FeedbackRow :=
  { row with
    isRevoked := columns.isRevoked, revokedLedger := columns.revokedLedger }

/-- A feedback entry and the responses to it, in the order they were
numbered. -/
structure FeedbackCell where
  row : Option FeedbackRow
  responses : List ResponseRow
  deriving DecidableEq

/-- The columns `validationResponse` writes. -/
structure ResponseColumns where
  response : Option Nat
  responseUri : Option String
  responseHash : Option String
  tag : Option String
  hasResponse : Bool
  respondedAt : Option String
  responseTxHash : Option String
  responseLedger : Option Nat
  deriving DecidableEq

def ValidationRow.answer (row : ValidationRow) : ResponseColumns :=
  { response := row.response, responseUri := row.responseUri
    responseHash := row.responseHash, tag := row.tag
    hasResponse := row.hasResponse, respondedAt := row.respondedAt
    responseTxHash := row.responseTxHash
    responseLedger := row.responseLedger }

def ValidationRow.withAnswer (row : ValidationRow)
    (columns : ResponseColumns) : ValidationRow :=
  { row with
    response := columns.response, responseUri := columns.responseUri
    responseHash := columns.responseHash, tag := columns.tag
    hasResponse := columns.hasResponse, respondedAt := columns.respondedAt
    responseTxHash := columns.responseTxHash
    responseLedger := columns.responseLedger }

section

variable (runtime : Runtime)

/-- The stored form of a ledger's closing time; empty where `pgTime`
throws and no statement is run. -/
def closeTime (iso : String) : String :=
  match pgTime runtime (.text iso) with
  | .ok time => time
  | .error _ => ""

def answerStore : GuardedWrite ValidationResponseEvent ResponseColumns Nat where
  stamp event := event.ledger
  written event :=
    { response := some event.response, responseUri := orNull event.responseUri
      responseHash := orNull event.responseHash, tag := orNull event.tag
      hasResponse := true
      respondedAt := some (closeTime runtime event.ledgerClosedAt)
      responseTxHash := some event.txHash
      responseLedger := some event.ledger }
  holds columns := columns.responseLedger
  skips _ _ := false
  holds_written _ := rfl
  skips_written _ _ same := by simp at same

/-- The feedback entry an index in an event names, as stored. -/
def feedbackKey (agentId : Nat) (clientAddress : String)
    (feedbackIndex : Nat) : FeedbackKey :=
  { agentId, clientAddress, feedbackIndex := integerAffinity feedbackIndex }

namespace ParsedEvent

/-- The agent an identity event is about. -/
def agent? : ParsedEvent → Option Nat
  | registered e => some e.agentId
  | uriUpdated e => some e.agentId
  | metadataSet e => some e.agentId
  | agentWalletSet e => some e.agentId
  | agentWalletUnset e => some e.agentId
  | agentTransferred e => some e.agentId
  | _ => none

/-- The feedback entry a reputation event is about. -/
def feedback? : ParsedEvent → Option FeedbackKey
  | newFeedback e =>
      some (feedbackKey e.agentId e.clientAddress e.feedbackIndex)
  | feedbackRevoked e =>
      some (feedbackKey e.agentId e.clientAddress e.feedbackIndex)
  | responseAppended e =>
      some (feedbackKey e.agentId e.clientAddress e.feedbackIndex)
  | _ => none

/-- The request a validation event is about. -/
def request? : ParsedEvent → Option String
  | validationRequest e => some e.requestHash
  | validationResponse e => some e.requestHash
  | _ => none

end ParsedEvent

/-- The cell of an agent right after `registered`. -/
def registeredCell (event : RegisteredEvent) : AgentCell :=
  { createdAt := closeTime runtime event.ledgerClosedAt
    createdLedger := event.ledger
    txHash := event.txHash
    uri :=
      { agentUri := some event.agentUri, agentUriData := none
        supportedTrust := "[]", services := "[]", x402Enabled := false
        mppEnabled := false, uriResolveAttempts := 0
        lastResolveAttemptAt := none
        resolveUriPending := event.agentUri ≠ ""
        uriUpdatedLedger := none }
    holding :=
      { stamp := none, label := event.owner, cells := fun _ => none } }

/-- The write to the holding an identity event makes, if any. -/
def ParsedEvent.holdingWrite :
    ParsedEvent → Option (ResettableMap.Write HoldingCell String String Nat)
  | .metadataSet e => some (.put (.metadata e.key) (some e.value))
  | .agentWalletSet e => some (.put .wallet (some e.newWallet))
  | .agentWalletUnset _ => some (.put .wallet none)
  | .agentTransferred e => some (.reset e.ledger e.to)
  | _ => none

/-- The URI update an identity event makes, if any. -/
def ParsedEvent.uriWrite : ParsedEvent → Option UriUpdatedEvent
  | .uriUpdated e => some e
  | _ => none

/-- An event on an agent that exists. -/
def AgentCell.step (cell : AgentCell) (event : ParsedEvent) : AgentCell :=
  { cell with
    uri := (event.uriWrite.elim cell.uri (uriStore.apply cell.uri))
    holding := (event.holdingWrite.elim cell.holding
      (ResettableMap.apply cell.holding)) }

def stepAgent (cell : Option AgentCell) (event : ParsedEvent) :
    Option AgentCell :=
  match cell, event with
  | none, .registered e => some (registeredCell runtime e)
  | none, _ => none
  | some existing, event => some (existing.step event)

/-- The row `newFeedback` inserts. -/
def insertedFeedback (event : NewFeedbackEvent) : FeedbackRow :=
  { value := toString event.value, valueDecimals := event.valueDecimals
    tag1 := orNull event.tag1, tag2 := orNull event.tag2
    endpoint := orNull event.endpoint
    feedbackUri := orNull event.feedbackUri
    feedbackHash := orNull event.feedbackHash, isRevoked := false
    createdAt := closeTime runtime event.ledgerClosedAt
    createdLedger := event.ledger, txHash := event.txHash
    revokedLedger := none }

/-- The row `responseAppended` inserts after the given responses to the same
feedback. -/
def appendedResponse (responses : List ResponseRow)
    (event : ResponseAppendedEvent) : ResponseRow :=
  let key := feedbackKey event.agentId event.clientAddress event.feedbackIndex
  { key, responseIndex := maxResponseIndex responses key + 1
    responder := event.responder
    responseUri := orNull event.responseUri
    responseHash := orNull event.responseHash
    createdAt := closeTime runtime event.ledgerClosedAt
    txHash := event.txHash, eventId := event.eventId }

def stepFeedback (cell : FeedbackCell) (event : ParsedEvent) :
    FeedbackCell :=
  match cell.row, event with
  | none, .newFeedback e =>
      { cell with row := some (insertedFeedback runtime e) }
  | some row, .feedbackRevoked e =>
      { cell with
        row := some (row.withRevoked (revokedStore.apply row.revoked e)) }
  | some _, .responseAppended e =>
      if cell.responses.any (·.eventId = e.eventId) then cell
      else
        { cell with
          responses := cell.responses ++
            [appendedResponse runtime cell.responses e] }
  | _, _ => cell

/-- The row `validationRequest` inserts. -/
def insertedRequest (event : ValidationRequestEvent) : ValidationRow :=
  { agentId := event.agentId, validatorAddress := event.validatorAddress
    requestUri := orNull event.requestUri, response := none
    responseUri := none, responseHash := none, tag := none
    hasResponse := false
    createdAt := closeTime runtime event.ledgerClosedAt
    respondedAt := none, requestTxHash := event.txHash
    responseTxHash := none, responseLedger := none }

def stepValidation (cell : Option ValidationRow) (event : ParsedEvent) :
    Option ValidationRow :=
  match cell, event with
  | none, .validationRequest e => some (insertedRequest runtime e)
  | some row, .validationResponse e =>
      some (row.withAnswer ((answerStore runtime).apply row.answer e))
  | cell, _ => cell

end

/-! ## Cells of the tables -/

def AgentRow.uriColumns (row : AgentRow) : UriColumns :=
  { agentUri := row.agentUri, agentUriData := row.agentUriData
    supportedTrust := row.supportedTrust, services := row.services
    x402Enabled := row.x402Enabled, mppEnabled := row.mppEnabled
    uriResolveAttempts := row.uriResolveAttempts
    lastResolveAttemptAt := row.lastResolveAttemptAt
    resolveUriPending := row.resolveUriPending
    uriUpdatedLedger := row.uriUpdatedLedger }

/-- A row of `agents` with its rows of `agent_metadata`. -/
def AgentRow.toCell (row : AgentRow) (metadata : String → Option String) :
    AgentCell :=
  { createdAt := row.createdAt, createdLedger := row.createdLedger
    txHash := row.txHash, uri := row.uriColumns
    holding :=
      { stamp := row.transferredLedger, label := row.owner
        cells := fun
          | .wallet => row.wallet
          | .metadata key => metadata key } }

def Tables.agentCell (tables : Tables) (id : Nat) : Option AgentCell :=
  (tables.agents id).map fun row => row.toCell (tables.agentMetadata id)

def Tables.feedbackCell (tables : Tables) (key : FeedbackKey) :
    FeedbackCell :=
  { row := tables.feedback key
    responses := tables.feedbackResponses.filter (·.key = key) }

/-- Metadata rows have their agent, as the foreign key demands. -/
def Tables.MetadataOwned (tables : Tables) : Prop :=
  ∀ id, tables.agents id = none → ∀ key, tables.agentMetadata id key = none

/-- The agents' rows without `updated_at`. -/
def AgentRow.settled (row : AgentRow) : AgentRow :=
  { row with updatedAt := "" }

end Stellar8004.Indexer
