import Stellar8004.Indexer.Events
import Stellar8004.Indexer.Tables
import Stellar8004.Indexer.Time
import Stellar8004.Library.Failures

/-!
# One statement per event

`eventStatement` of `db.ts`, and the writes of an ordered list of packets as a
run of their statements.  A packet whose timestamp cannot be rewritten makes
`eventStatement` throw, which is not the database's failure.
-/

namespace Stellar8004.Indexer

/-- `text || null`. -/
def orNull (text : String) : Option String :=
  if text = "" then none else some text

def eventStatement (runtime : Runtime) (packet : EventPacket)
    (now : String) : Except String Statement :=
  match packet.data with
  | .registered e => do
      let createdAt ← pgTime runtime (.text e.ledgerClosedAt)
      return .registered e.agentId e.owner e.agentUri
        (e.agentUri ≠ "") createdAt e.ledger e.txHash
  | .uriUpdated e => return .uriUpdated e.newUri e.ledger now e.agentId
  | .metadataSet e => return .metadataSet e.agentId e.key e.value
  | .agentWalletSet e => return .walletSet (some e.newWallet) now e.agentId
  | .agentWalletUnset e => return .walletSet none now e.agentId
  | .agentTransferred e => return .transferred e.to e.ledger now e.agentId
  | .newFeedback e => do
      let createdAt ← pgTime runtime (.text e.ledgerClosedAt)
      return .newFeedback e.agentId e.clientAddress e.feedbackIndex
        (toString e.value) e.valueDecimals (orNull e.tag1) (orNull e.tag2)
        (orNull e.endpoint) (orNull e.feedbackUri) (orNull e.feedbackHash)
        createdAt e.ledger e.txHash
  | .feedbackRevoked e =>
      return .feedbackRevoked e.ledger e.agentId e.clientAddress
        e.feedbackIndex
  | .responseAppended e => do
      let createdAt ← pgTime runtime (.text e.ledgerClosedAt)
      return .responseAppended e.agentId e.clientAddress e.feedbackIndex
        e.responder (orNull e.responseUri) (orNull e.responseHash) createdAt
        e.txHash e.eventId
  | .validationRequest e => do
      let createdAt ← pgTime runtime (.text e.ledgerClosedAt)
      return .validationRequest e.requestHash e.agentId e.validatorAddress
        (orNull e.requestUri) createdAt e.txHash
  | .validationResponse e => do
      let respondedAt ← pgTime runtime (.text e.ledgerClosedAt)
      return .validationResponse e.response (orNull e.responseUri)
        (orNull e.responseHash) (orNull e.tag) respondedAt e.txHash e.ledger
        e.requestHash

/-- Why one event's write does not happen. -/
inductive WriteError where
  | thrown (message : String)
  | violation (violation : Violation)
  deriving DecidableEq

/-- The statement of one packet, run by itself at time `now`. -/
def writePacket (runtime : Runtime) (now : String) (tables : Tables)
    (packet : EventPacket) : Except WriteError Tables :=
  match eventStatement runtime packet now with
  | .error message => .error (.thrown message)
  | .ok statement =>
      match tables.exec now statement with
      | .error violation => .error (.violation violation)
      | .ok (after, _) => .ok after

/-- The packets of one batch and the time its statements are bound with. -/
structure Batch where
  now : String
  packets : List EventPacket

/-- A list of packets, each with the time its statement is bound with, run in
order until one fails. -/
def writeAll (runtime : Runtime) :
    List (String × EventPacket) → Tables → Except WriteError Tables
  | [], tables => .ok tables
  | (now, packet) :: rest, tables =>
      match writePacket runtime now tables packet with
      | .error failure => .error failure
      | .ok after => writeAll runtime rest after

/-- The statements `writeEvents` runs for a batch, in its order. -/
def Batch.ordered (batch : Batch) : List (String × EventPacket) :=
  (parentsFirst batch.packets).map fun packet => (batch.now, packet)

/-- A packet that was written bound a statement, and the statement ran. -/
theorem writePacket_ok_iff {runtime : Runtime} {now : String}
    {tables after : Tables} {packet : EventPacket} :
    writePacket runtime now tables packet = .ok after ↔
      ∃ statement count,
        eventStatement runtime packet now = .ok statement ∧
          tables.exec now statement = .ok (after, count) := by
  unfold writePacket
  cases bound : eventStatement runtime packet now with
  | error message => simp
  | ok statement =>
      cases ran : tables.exec now statement with
      | error violation => simp [ran]
      | ok result =>
          obtain ⟨changed, count⟩ := result
          simp [ran]

theorem writeAll_append (runtime : Runtime)
    (first second : List (String × EventPacket)) (tables : Tables) :
    writeAll runtime (first ++ second) tables =
      match writeAll runtime first tables with
      | .error failure => .error failure
      | .ok middle => writeAll runtime second middle := by
  induction first generalizing tables with
  | nil => rfl
  | cons head rest induction =>
      obtain ⟨now, packet⟩ := head
      simp only [List.cons_append, writeAll]
      cases writePacket runtime now tables packet with
      | error failure => rfl
      | ok after => exact induction after

end Stellar8004.Indexer
