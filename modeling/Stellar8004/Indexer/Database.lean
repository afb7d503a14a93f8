import Stellar8004.Indexer.ContractScans
import Stellar8004.Library.Threads

/-!
# The database behind successive runs

The tables and the checkpoint rows as the requests of a run change them.  A
statement fails on a constraint only where the schema makes it fail; any other
failure may come at any time, before or after the effect.
-/

namespace Stellar8004.Indexer

/-! ## Batches -/

/-- The statements of a batch, one after another, or none of them. -/
def Tables.execAll (defaultTime : String) :
    Tables → List EventWrite → Except Violation (Tables × List Nat)
  | tables, [] => .ok (tables, [])
  | tables, write :: writes =>
      match tables.exec defaultTime write.statement with
      | .error violation => .error violation
      | .ok (next, count) =>
          match next.execAll defaultTime writes with
          | .error violation => .error violation
          | .ok (after, counts) => .ok (after, count :: counts)

section

variable {runtime : Runtime} {defaultTime : String} {tables after : Tables}

/-- The default of `updated_at` decides nothing but that column. -/
theorem Tables.exec_default {statement : Statement} {count : Nat}
    (ran : tables.exec defaultTime statement = .ok (after, count))
    (now : String) :
    ∃ other, tables.exec now statement = .ok (other, count) ∧
      ∀ parent, other.Has parent ↔ after.Has parent := by
  cases statement with
  | registered id owner uri pending createdAt createdLedger txHash =>
      simp only [Tables.exec] at ran ⊢
      split at ran
      · cases ran
      · rename_i short
        rw [if_neg short]
        split at ran
        · cases ran
          exact ⟨_, rfl, fun _ => Iff.rfl⟩
        · cases ran
          refine ⟨_, rfl, fun parent => ?_⟩
          cases parent with
          | agent other =>
              simp only [Has, Tables.setAgent, Function.update_apply]
              split <;> simp
          | feedback key => exact Iff.rfl
  | _ => exact ⟨after, ran, fun _ => Iff.rfl⟩

/-- Rows that others refer to are never removed, by any statement. -/
theorem Tables.Has.executed {statement : Statement} {count : Nat}
    {parent : Parent} (has : tables.Has parent)
    (ran : tables.exec defaultTime statement = .ok (after, count)) :
    after.Has parent := by
  cases statement with
  | registered id owner uri pending createdAt createdLedger txHash =>
      simp only [Tables.exec] at ran
      split at ran
      · cases ran
      · split at ran <;> cases ran
        · exact has
        · exact has.setAgent _ _
  | uriUpdated newUri ledger now id =>
      simp only [Tables.exec] at ran
      split at ran
      · cases ran
        exact has
      · split at ran <;> cases ran
        · exact has.setAgent _ _
        · exact has
  | metadataSet agentId key value =>
      simp only [Tables.exec] at ran
      split at ran <;> cases ran
      exact has.of_eq rfl rfl
  | walletSet wallet now id =>
      simp only [Tables.exec] at ran
      split at ran
      · cases ran
        exact has
      · split at ran <;> cases ran
        exact has.setAgent _ _
  | transferred owner ledger now id =>
      simp only [Tables.exec] at ran
      split at ran
      · cases ran
        exact has
      · split at ran
        · split at ran <;> cases ran
          exact (has.setAgent _ _).of_eq rfl rfl
        · cases ran
          exact has
  | newFeedback agentId client index value decimals tag1 tag2 endpoint uri
      hash createdAt createdLedger txHash =>
      simp only [Tables.exec] at ran
      split at ran
      · cases ran
      split at ran
      · cases ran
      split at ran
      · cases ran
      split at ran
      · cases ran
      split at ran
      · cases ran
        exact has
      · split at ran <;> cases ran
        exact has.setFeedback _ _
  | feedbackRevoked ledger agentId client index =>
      simp only [Tables.exec] at ran
      split at ran
      · cases ran
        exact has
      · split at ran <;> cases ran
        · exact has.setFeedback _ _
        · exact has
  | responseAppended agentId client index responder uri hash createdAt txHash
      eventId =>
      simp only [Tables.exec] at ran
      split at ran
      · cases ran
      split at ran
      · cases ran
      split at ran
      · cases ran
        exact has
      · split at ran <;> cases ran
        exact has.of_eq rfl rfl
  | validationRequest requestHash agentId validator uri createdAt txHash =>
      simp only [Tables.exec] at ran
      split at ran
      · cases ran
      split at ran
      · cases ran
        exact has
      · split at ran <;> cases ran
        exact has.of_eq rfl rfl
  | validationResponse response uri hash tag respondedAt txHash ledger
      requestHash =>
      simp only [Tables.exec] at ran
      split at ran
      · cases ran
        exact has
      · split at ran
        · split at ran <;> cases ran
          exact has.of_eq rfl rfl
        · cases ran
          exact has

theorem Tables.Has.inserted {write : EventWrite} {count : Nat}
    {parent : Parent} (bound : write.Bound runtime)
    (ran : tables.exec defaultTime write.statement = .ok (after, count))
    (creates : write.packet.data.creates? = some parent) :
    after.Has parent := by
  obtain ⟨now, isBound⟩ := bound
  obtain ⟨other, again, same⟩ := Tables.exec_default ran now
  apply (same parent).mp
  exact Tables.Has.created
    (writePacket_ok_iff.mpr ⟨_, count, isBound, again⟩) creates

theorem Tables.execAll_cons_ok {write : EventWrite}
    {writes : List EventWrite} {counts : List Nat}
    (ran : tables.execAll defaultTime (write :: writes) =
      .ok (after, counts)) :
    ∃ middle count rest,
      tables.exec defaultTime write.statement = .ok (middle, count) ∧
        middle.execAll defaultTime writes = .ok (after, rest) := by
  simp only [Tables.execAll] at ran
  split at ran
  · cases ran
  · rename_i middle count first
    split at ran
    · cases ran
    · rename_i final rest later
      cases ran
      exact ⟨middle, count, rest, first, later⟩

theorem Tables.Has.executedAll {writes : List EventWrite}
    {counts : List Nat} {parent : Parent} (has : tables.Has parent)
    (ran : tables.execAll defaultTime writes = .ok (after, counts)) :
    after.Has parent := by
  induction writes generalizing tables counts with
  | nil =>
      cases ran
      exact has
  | cons write writes induction =>
      obtain ⟨middle, count, rest, first, later⟩ := Tables.execAll_cons_ok ran
      exact induction (has.executed first) later

theorem Tables.Has.insertedAll {writes : List EventWrite}
    {counts : List Nat} {parent : Parent}
    (ran : tables.execAll defaultTime writes = .ok (after, counts))
    {write : EventWrite} (member : write ∈ writes)
    (bound : write.Bound runtime)
    (creates : write.packet.data.creates? = some parent) :
    after.Has parent := by
  induction writes generalizing tables counts with
  | nil => cases member
  | cons first writes induction =>
      obtain ⟨middle, count, rest, ranFirst, later⟩ :=
        Tables.execAll_cons_ok ran
      rcases List.mem_cons.mp member with rfl | inside
      · exact (Tables.Has.inserted bound ranFirst creates).executedAll later
      · exact induction later inside

/-- Checked statements all run when each parent comes first. -/
theorem Tables.execAll_ok {writes : List EventWrite}
    (bound : ∀ write ∈ writes, write.Bound runtime)
    (checked : ∀ write ∈ writes, write.packet.data.Checked)
    (supplied : Supplied tables.Has
      (writes.map fun write => write.packet.data)) (defaultTime : String) :
    ∃ result, tables.execAll defaultTime writes = .ok result := by
  induction writes generalizing tables with
  | nil => exact ⟨_, rfl⟩
  | cons write writes induction =>
      have isBound := bound write List.mem_cons_self
      have parents : ∀ parent, write.packet.data.parent? = some parent →
          tables.Has parent := by
        intro parent isParent
        rcases supplied [] write.packet.data _ rfl parent isParent with
          known | ⟨_, member, _⟩
        · exact known
        · cases member
      obtain ⟨now, isStatement⟩ := bound write List.mem_cons_self
      obtain ⟨⟨middle, count⟩, first⟩ := Tables.exec_ok isStatement
        (checked write List.mem_cons_self) parents defaultTime
      have rest : Supplied middle.Has
          (writes.map fun write => write.packet.data) := by
        apply supplied.tail.mono
        rintro parent (known | created)
        · exact known.executed first
        · exact Tables.Has.inserted isBound first created
      obtain ⟨⟨final, counts⟩, later⟩ := induction
        (fun other member => bound other (List.mem_cons_of_mem _ member))
        (fun other member => checked other (List.mem_cons_of_mem _ member))
        rest
      refine ⟨(final, count :: counts), ?_⟩
      simp only [Tables.execAll, first, later]

end

/-! ## Requests -/

/-- The tables and the `indexer_state` rows. -/
structure Store where
  tables : Tables
  rows : ContractName → Checkpoint

/-- The rows after an exchange. -/
def Store.afterSave (store : Store) (exchange : Exchange indexerHost) :
    Store :=
  { store with
    rows := fun contract =>
      (savedCheckpoint contract exchange).getD (store.rows contract) }

/-- One request of a run.  A node's health names its oldest ledger, which is
not beyond the one after its latest.  Of the dead letters nothing is kept
here, and whether the lock is still held is left open. -/
inductive Serves (streams : Streams) (store : Store) :
    Exchange indexerHost → Store → Prop where
  | now (time : Nat) : Serves streams store ⟨.now, time⟩ store
  | healthy (health : Health)
      (retains : health.oldestLedger ≤ health.latestLedger + 1) :
      Serves streams store ⟨.getHealth, .ok health⟩ store
  | unhealthy (error : Thrown) :
      Serves streams store ⟨.getHealth, .error error⟩ store
  | paged (contract : ContractName) {request : EventsRequest} {node : Node}
      {page : Page}
      (found : getEvents (streams contract) node request = some page) :
      Serves streams store ⟨.getEvents contract request, .ok page⟩ store
  | unpaged (contract : ContractName) (request : EventsRequest)
      (error : Thrown) :
      Serves streams store ⟨.getEvents contract request, .error error⟩ store
  | read :
      Serves streams store
        ⟨.readCheckpoints, .ok fun contract => some (store.rows contract)⟩
        store
  | unread (error : Thrown) :
      Serves streams store ⟨.readCheckpoints, .error error⟩ store
  | batched {writes : List EventWrite} {defaultTime : String}
      {tables : Tables} {counts : List Nat}
      (ran : store.tables.execAll defaultTime writes = .ok (tables, counts)) :
      Serves streams store ⟨.batch writes, .answered counts⟩
        { store with tables }
  | batchFailed (writes : List EventWrite) {error : Thrown}
      (violates : constraintFailure error ≠ none →
        ∃ defaultTime violation,
          store.tables.execAll defaultTime writes = .error violation) :
      Serves streams store ⟨.batch writes, .failed error⟩ store
  | batchLost {writes : List EventWrite} {defaultTime : String}
      {tables : Tables} {counts : List Nat} {error : Thrown}
      (ran : store.tables.execAll defaultTime writes = .ok (tables, counts))
      (other : constraintFailure error = none) :
      Serves streams store ⟨.batch writes, .lost error⟩ { store with tables }
  | ran {write : EventWrite} {defaultTime : String} {tables : Tables}
      {count : Nat}
      (ran : store.tables.exec defaultTime write.statement =
        .ok (tables, count)) :
      Serves streams store ⟨.run write, .answered count⟩ { store with tables }
  | runFailed (write : EventWrite) {error : Thrown}
      (violates : constraintFailure error ≠ none →
        ∃ defaultTime violation,
          store.tables.exec defaultTime write.statement =
            .error violation) :
      Serves streams store ⟨.run write, .failed error⟩ store
  | runLost {write : EventWrite} {defaultTime : String} {tables : Tables}
      {count : Nat} {error : Thrown}
      (ran : store.tables.exec defaultTime write.statement =
        .ok (tables, count))
      (other : constraintFailure error = none) :
      Serves streams store ⟨.run write, .lost error⟩ { store with tables }
  | recorded (rows : List MissingParent) (reply : Reply (List Nat)) :
      Serves streams store ⟨.recordMissing rows, reply⟩ store
  | lettered (entry : DeadLetter) (reply : Reply Unit) :
      Serves streams store ⟨.deadLetter entry, reply⟩ store
  | saved (contract : ContractName) (checkpoint : Checkpoint)
      (owner now : String) (reply : Reply (Nat × Nat)) :
      Serves streams store
        ⟨.saveCheckpoint contract checkpoint owner now, reply⟩
        (store.afterSave
          ⟨.saveCheckpoint contract checkpoint owner now, reply⟩)
  | wrote (contract : ContractName) (events : List EventResponse)
      (skip : Bool) (result : Written) :
      Serves streams store ⟨.wrote contract events skip result, ()⟩ store

theorem Serves.nodesAnswer {streams : Streams} {store after : Store}
    {exchange : Exchange indexerHost}
    (served : Serves streams store exchange after) :
    NodesAnswer streams exchange := by
  intro contract
  cases served with
  | paged asked found =>
      rintro rfl page ⟨⟩
      exact ⟨_, found⟩
  | unpaged asked request error =>
      rintro rfl page ⟨⟩
  | _ => trivial

end Stellar8004.Indexer
