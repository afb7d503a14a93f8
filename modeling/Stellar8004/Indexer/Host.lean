import Stellar8004.Indexer.Constraints
import Stellar8004.Indexer.Rpc
import Stellar8004.Library.Program

/-!
# What a run asks of the world

The clock, the RPC and the database as an interface, and the functions of
`db.ts` that a run calls.  A database call may be answered, may fail without
effect, or may take effect and lose its answer.
-/

namespace Stellar8004.Indexer

/-! ## Errors -/

/-- A thrown value. -/
inductive Thrown where
  | error (name message : String)
  | other (text : String)
  deriving DecidableEq

namespace Thrown

/-- `error instanceof Error ? error.message : String(error)`. -/
def message : Thrown → String
  | error _ message => message
  | other text => text

/-- `String(error)`. -/
def text : Thrown → String
  | error name message =>
      if name = "" then message
      else if message = "" then name
      else name ++ ": " ++ message
  | other text => text

end Thrown

def newError (message : String) : Thrown := .error "Error" message

/-- `text.includes(part)`. -/
def includes (text part : String) : Bool :=
  part.toList <:+: text.toList

inductive Failure where
  | parent
  | constraint
  deriving DecidableEq, Repr

def constraintFailure (error : Thrown) : Option Failure :=
  if includes error.message "FOREIGN KEY constraint failed" then some .parent
  else if includes error.message "constraint failed" then some .constraint
  else none

/-! ## Requests -/

def ContractName.text : ContractName → String
  | .identity => "identity"
  | .reputation => "reputation"
  | .validation => "validation"

structure Checkpoint where
  lastLedger : Nat
  deferAttempts : Nat
  deriving DecidableEq, Repr

inductive DeadLetterReason where
  | skipRetryable
  | skipNonretryable
  | retentionClamp
  | unparseable
  | missingParent
  deriving DecidableEq, Repr

structure DeadLetter where
  contract : ContractName
  reason : DeadLetterReason
  eventId : Option String
  ledger : Option Nat
  detail : Option String
  deriving DecidableEq

/-- One event's bound statement. -/
structure EventWrite where
  packet : EventPacket
  statement : Statement
  deriving DecidableEq

/-- The row an update needs. -/
inductive UpdatedRow where
  | agents (id : Nat)
  | feedback (key : FeedbackKey)
  | validations (requestHash : String)
  deriving DecidableEq

def UpdatedRow.table : UpdatedRow → String
  | agents _ => "agents"
  | feedback _ => "feedback"
  | validations _ => "validations"

/-- A dead letter inserted only if `row` does not exist. -/
structure MissingParent where
  contract : ContractName
  eventId : String
  ledger : Nat
  detail : String
  row : UpdatedRow
  deriving DecidableEq

/-- What `writeEvents` returns. -/
structure Written where
  processed : Nat
  skipped : Nat
  deferred : Bool
  deriving DecidableEq, Repr

/-- How a database call ends.  A call whose answer was lost has taken
effect. -/
inductive Reply (α : Type) where
  | answered (value : α)
  | failed (error : Thrown)
  | lost (error : Thrown)
  deriving DecidableEq

/-- What the caller sees. -/
def Reply.result : Reply α → Except Thrown α
  | answered value => .ok value
  | failed error => .error error
  | lost error => .error error

/-- The requests of a run.  `wrote` asks nothing: it marks in the trace that a
call of `writeEvents` has returned. -/
inductive Request where
  | now
  | getHealth
  | getEvents (contract : ContractName) (request : EventsRequest)
  | readCheckpoints
  | batch (writes : List EventWrite)
  | run (write : EventWrite)
  | recordMissing (rows : List MissingParent)
  | deadLetter (entry : DeadLetter)
  | saveCheckpoint (contract : ContractName) (checkpoint : Checkpoint)
      (owner now : String)
  | wrote (contract : ContractName) (events : List EventResponse)
      (skip : Bool) (result : Written)

/-- `batch`, `run` and `recordMissing` answer the rows each statement changed,
`saveCheckpoint` the lock and state rows changed. -/
@[reducible] def Request.Answer : Request → Type
  | now => Nat
  | getHealth => Except Thrown Health
  | getEvents _ _ => Except Thrown Page
  | readCheckpoints => Except Thrown (ContractName → Option Checkpoint)
  | batch _ => Reply (List Nat)
  | run _ => Reply Nat
  | recordMissing _ => Reply (List Nat)
  | deadLetter _ => Reply Unit
  | saveCheckpoint _ _ _ _ => Reply (Nat × Nat)
  | wrote _ _ _ _ => Unit

@[reducible] def indexerHost : Interface :=
  { Request, Answer := Request.Answer, Error := Thrown }

abbrev IndexerTask := Program indexerHost

def call (request : Request) : IndexerTask request.Answer :=
  Program.asks request Program.returns

@[simp] theorem call_bind (request : Request)
    (next : request.Answer → IndexerTask α) :
    (call request).bind next = Program.asks request next := rfl

/-! ## `db.ts` -/

/-- `pgTime(new Date())`. -/
def pgNow (runtime : Runtime) : IndexerTask String := do
  let time ← call .now
  match pgTime runtime (.date (some (Int.ofNat time))) with
  | .ok text => return text
  | .error message => .throws (newError message)

/-- All checkpoints in one read.  A missing row is fatal. -/
def readCheckpoints : IndexerTask (ContractName → Checkpoint) := do
  match ← call .readCheckpoints with
  | .error error => .throws error
  | .ok rows =>
      match rows .identity, rows .reputation, rows .validation with
      | some identity, some reputation, some validation =>
          return fun
            | .identity => identity
            | .reputation => reputation
            | .validation => validation
      | none, _, _ => .throws (missing .identity)
      | _, none, _ => .throws (missing .reputation)
      | _, _, none => .throws (missing .validation)
where
  missing (contract : ContractName) : Thrown :=
    newError ("indexer_state has no row for " ++ contract.text ++
      "; refusing to cold-start")

def saveCheckpoint (runtime : Runtime) (contract : ContractName)
    (checkpoint : Checkpoint) (owner : String) : IndexerTask Unit := do
  let now ← pgNow runtime
  let reply ← call (.saveCheckpoint contract checkpoint owner now)
  match reply.result with
  | .error error => .throws error
  | .ok (lock, state) =>
      if lock = 0 then
        .throws (newError
          "This run lost the indexer lock to another run; stopping")
      else if state = 0 then
        .throws (newError ("indexer_state for " ++ contract.text ++
          " moved past ledger " ++ toString checkpoint.lastLedger ++
          "; stopping"))
      else return ()

/-- Best effort: a failure is not thrown. -/
def deadLetter (entry : DeadLetter) : IndexerTask Unit := do
  let _ ← call (.deadLetter entry)
  return ()

def missingParentStatement (packet : EventPacket) : Option MissingParent :=
  match packet.data with
  | .uriUpdated e => some (statement "UriUpdated" (.agents e.agentId))
  | .agentWalletSet e => some (statement "AgentWalletSet" (.agents e.agentId))
  | .agentWalletUnset e =>
      some (statement "AgentWalletUnset" (.agents e.agentId))
  | .agentTransferred e =>
      some (statement "AgentTransferred" (.agents e.agentId))
  | .feedbackRevoked e =>
      some (statement "FeedbackRevoked"
        (.feedback (feedbackKey e.agentId e.clientAddress e.feedbackIndex)))
  | .validationResponse e =>
      some (statement "ValidationResponse" (.validations e.requestHash))
  | _ => none
where
  statement (type : String) (row : UpdatedRow) : MissingParent :=
    { contract := packet.contract, eventId := packet.id
      ledger := packet.ledger
      detail := type ++ " for a " ++ row.table ++
        " row that was never indexed"
      row }

end Stellar8004.Indexer
