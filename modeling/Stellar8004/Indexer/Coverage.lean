import Stellar8004.Indexer.Accounts
import Stellar8004.Indexer.Windows

/-!
# What a scan has covered

The checkpoint row of a contract is what the saves in a trace leave of it.
Whatever the RPC nodes, the clock and the database answer, a scan saves a
checkpoint only when every event up to it was handed to `writeEvents` or lies
in a range clamped away.
-/

namespace Stellar8004.Indexer

/-! ## The checkpoint row -/

/-- The checkpoint an exchange leaves in a contract's row, if it changes it. -/
def savedCheckpoint (contract : ContractName) :
    Exchange indexerHost → Option Checkpoint
  | ⟨.saveCheckpoint saved checkpoint _ _, reply⟩ =>
      if saved = contract then
        match reply with
        | .answered (_, state) => if state = 0 then none else some checkpoint
        | .failed _ => none
        | .lost _ => some checkpoint
      else none
  | _ => none

theorem saveCheckpoint_of_saved {contract : ContractName}
    {exchange : Exchange indexerHost} {checkpoint : Checkpoint}
    (saved : savedCheckpoint contract exchange = some checkpoint) :
    ∃ owner now reply,
      exchange = ⟨.saveCheckpoint contract checkpoint owner now, reply⟩ := by
  obtain ⟨request, reply⟩ := exchange
  cases request with
  | saveCheckpoint target asked owner now =>
      simp only [savedCheckpoint] at saved
      split at saved
      · rename_i same
        subst same
        refine ⟨owner, now, ?_⟩
        match reply, saved with
        | .answered (lock, state), isSaved =>
            dsimp only at isSaved
            split at isSaved <;> cases isSaved
            exact ⟨_, rfl⟩
        | .lost error, isSaved =>
            cases isSaved
            exact ⟨_, rfl⟩
      · cases saved
  | _ => cases saved

def rowAfter (contract : ContractName) (row : Checkpoint) (trace : Trace) :
    Checkpoint :=
  trace.foldl (fun row exchange =>
    (savedCheckpoint contract exchange).getD row) row

theorem rowAfter_append (contract : ContractName) (row : Checkpoint)
    (first second : Trace) :
    rowAfter contract row (first ++ second) =
      rowAfter contract (rowAfter contract row first) second :=
  List.foldl_append

theorem rowAfter_snoc (contract : ContractName) (row : Checkpoint)
    (trace : Trace) (exchange : Exchange indexerHost) :
    rowAfter contract row (trace ++ [exchange]) =
      (savedCheckpoint contract exchange).getD
        (rowAfter contract row trace) := by
  rw [rowAfter_append]
  rfl

/-! ## Calls -/

/-- A call of `writeEvents`, with what it exchanged. -/
structure WriteCall where
  events : List EventResponse
  skip : Bool
  result : Written
  inside : Trace

/-- The call returned in the trace.  Skipping was armed exactly when the row's
count was at the limit. -/
def WriteCall.In (runtime : Runtime) (contract : ContractName)
    (start : Checkpoint) (trace : Trace) (made : WriteCall) : Prop :=
  ∃ before after,
    trace = before ++ made.inside ++
      ⟨.wrote contract made.events made.skip made.result, ()⟩ :: after ∧
    Program.Yields
      (writeEvents runtime contract made.events made.skip) made.inside
      (some (.returned made.result)) ∧
    (made.skip = true ↔
      MAX_DEFER_ATTEMPTS ≤ (rowAfter contract start before).deferAttempts)

/-- All events of the event's ledger were handed over together and in chain
order, in a call that did not defer and that accounts for the event. -/
def Handed (runtime : Runtime) (contract : ContractName)
    (stream : List EventResponse) (start : Checkpoint) (trace : Trace)
    (event : EventResponse) : Prop :=
  ∃ made : WriteCall, made.In runtime contract start trace ∧
    made.result.deferred = false ∧ made.events <:+: stream ∧
    event ∈ made.events ∧
    made.events.filter (·.ledger = event.ledger) =
      stream.filter (·.ledger = event.ledger) ∧
    Accounted runtime contract made.skip made.inside event

/-- The event's ledger lies in a range that an allowed retention clamp skipped
and that was dead-lettered. -/
def ClampedAway (contract : ContractName) (trace : Trace)
    (event : EventResponse) : Prop :=
  ∃ («from» oldest : Nat) (reply : Reply Unit),
    (⟨.deadLetter (clampEntry contract «from» oldest), reply⟩ :
      Exchange indexerHost) ∈ trace ∧
    «from» ≤ event.ledger ∧ event.ledger < oldest

/-- Every event of the stream in `(start, ledger]` is handed over or clamped
away. -/
def Covered (runtime : Runtime) (contract : ContractName)
    (stream : List EventResponse) (start : Checkpoint) (trace : Trace)
    (ledger : Nat) : Prop :=
  ∀ event ∈ stream, start.lastLedger < event.ledger →
    event.ledger ≤ ledger →
    Handed runtime contract stream start trace event ∨
      ClampedAway contract trace event

/-- A call in the trace deferred at a packet. -/
def RunDeferredAt (runtime : Runtime) (contract : ContractName)
    (start : Checkpoint) (trace : Trace) (packet : EventPacket) : Prop :=
  ∃ made : WriteCall, made.In runtime contract start trace ∧
    made.result.deferred = true ∧ DeferredAt packet made.inside

/-- No call in the trace deferred. -/
def Undeferred (contract : ContractName) (trace : Trace) : Prop :=
  ∀ events skip result,
    (⟨.wrote contract events skip result, ()⟩ : Exchange indexerHost) ∈
      trace → result.deferred = false

section

variable {runtime : Runtime} {contract : ContractName}
  {stream : List EventResponse} {start : Checkpoint} {trace : Trace}

theorem WriteCall.In.append {made : WriteCall}
    (called : made.In runtime contract start trace) (later : Trace) :
    made.In runtime contract start (trace ++ later) := by
  obtain ⟨before, after, rfl, rest⟩ := called
  exact ⟨before, after ++ later, by simp, rest⟩

theorem Handed.append {event : EventResponse}
    (handed : Handed runtime contract stream start trace event)
    (later : Trace) :
    Handed runtime contract stream start (trace ++ later) event := by
  obtain ⟨made, called, rest⟩ := handed
  exact ⟨made, called.append later, rest⟩

theorem ClampedAway.append {event : EventResponse}
    (clamped : ClampedAway contract trace event) (later : Trace) :
    ClampedAway contract (trace ++ later) event := by
  obtain ⟨first, oldest, reply, member, bounds⟩ := clamped
  exact ⟨first, oldest, reply, List.mem_append_left _ member, bounds⟩

theorem Covered.append {ledger : Nat}
    (covered : Covered runtime contract stream start trace ledger)
    (later : Trace) :
    Covered runtime contract stream start (trace ++ later) ledger :=
  fun event member above below =>
    (covered event member above below).imp (·.append later) (·.append later)

theorem RunDeferredAt.append {packet : EventPacket}
    (deferred : RunDeferredAt runtime contract start trace packet)
    (later : Trace) :
    RunDeferredAt runtime contract start (trace ++ later) packet := by
  obtain ⟨made, called, rest⟩ := deferred
  exact ⟨made, called.append later, rest⟩

theorem Undeferred.snoc (undeferred : Undeferred contract trace)
    {exchange : Exchange indexerHost}
    (other : ∀ events skip result,
      exchange = ⟨.wrote contract events skip result, ()⟩ →
        result.deferred = false) :
    Undeferred contract (trace ++ [exchange]) := by
  intro events skip result member
  rcases List.mem_append.mp member with old | new
  · exact undeferred events skip result old
  · exact other events skip result (List.mem_singleton.mp new).symm

theorem RunDeferredAt.not_undeferred {packet : EventPacket}
    (deferred : RunDeferredAt runtime contract start trace packet)
    (undeferred : Undeferred contract trace) : False := by
  obtain ⟨made, ⟨before, after, isTrace, _⟩, isDeferred, _⟩ := deferred
  have finished := undeferred made.events made.skip made.result (by
    rw [isTrace]
    simp)
  rw [isDeferred] at finished
  cases finished

/-! ## What a run does to the row -/

/-- What a run leaves of the row before it defers: nothing changed, a clamp
moved it, or a page did and reset the count. -/
def Progress (start : Checkpoint) (oldest : Nat) (row : Checkpoint) : Prop :=
  row = start ∨
  start.lastLedger + 1 < oldest ∧
    row = { start with lastLedger := oldest - 1 } ∨
  start.lastLedger < row.lastLedger ∧ row.deferAttempts = 0

theorem Progress.le {oldest : Nat} {row : Checkpoint}
    (progress : Progress start oldest row) :
    start.lastLedger ≤ row.lastLedger := by
  rcases progress with rfl | ⟨aged, rfl⟩ | ⟨advanced, _⟩
  · exact Nat.le_refl _
  · simp only
    omega
  · omega

/-- What a run has done to the row at any point of its trace. -/
def RowSummary (runtime : Runtime) (contract : ContractName)
    (start : Checkpoint) (oldest : Nat) (trace : Trace) : Prop :=
  Progress start oldest (rowAfter contract start trace) ∨
  ∃ base packet, Progress start oldest base ∧
    RunDeferredAt runtime contract start trace packet ∧
    rowAfter contract start trace =
      { base with deferAttempts := base.deferAttempts + 1 }

end

end Stellar8004.Indexer
