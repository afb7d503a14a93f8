import Stellar8004.Indexer.ScanSafety

/-!
# Runs of one contract

Runs of `indexContract` that do not overlap: each reads the row the runs before
it left.  A run may be killed between any two exchanges, every RPC call may be
answered by a different node, and every database call may fail.
-/

namespace Stellar8004.Indexer

open Program

/-- One run: what it was called with, the checkpoint it read, what it exchanged
and how it ended, `none` if it was killed. -/
structure ScanRun where
  scan : Scan
  rounds : Nat
  start : Checkpoint
  trace : Trace
  final : Option (Final indexerHost ContractResult)

/-- A run of the contract whose events are `stream`. -/
structure ScanRun.Of (runtime : Runtime) (contract : ContractName)
    (stream : List EventResponse) (run : ScanRun) : Prop where
  isContract : run.scan.contract = contract
  yields : Yields (indexContract runtime run.rounds run.scan run.start)
    run.trace run.final
  answers : ∀ exchange ∈ run.trace, RpcAnswers contract stream exchange

/-- Runs one after another, and the row they leave. -/
inductive ScanRuns (runtime : Runtime) (contract : ContractName)
    (stream : List EventResponse) (initial : Checkpoint) :
    List ScanRun → Checkpoint → Prop where
  | nil : ScanRuns runtime contract stream initial [] initial
  | snoc {runs : List ScanRun} {row : Checkpoint}
      (earlier : ScanRuns runtime contract stream initial runs row)
      (run : ScanRun) (isRun : run.Of runtime contract stream)
      (reads : run.start = row) :
      ScanRuns runtime contract stream initial (runs ++ [run])
        (rowAfter contract row run.trace)

section

variable {runtime : Runtime} {contract : ContractName}
  {stream : List EventResponse} {initial row : Checkpoint}
  {runs : List ScanRun}

private theorem ScanRun.ensures (run : ScanRun)
    (ordered : ChainOrdered stream) :
    (indexContract runtime run.rounds run.scan run.start).Ensures
      (fun _ => RpcAnswers run.scan.contract stream)
      (ScanStep runtime run.scan stream run.start) []
      (ScanPost runtime run.scan stream run.start run.rounds) :=
  indexContract_ensures ordered (fun _ _ answered => answered) run.rounds

theorem ScanRun.Of.along {run : ScanRun}
    (isRun : run.Of runtime contract stream)
    (ordered : ChainOrdered stream) :
    Along (ScanStep runtime run.scan stream run.start) [] run.trace := by
  have answers := isRun.answers
  rw [← isRun.isContract] at answers
  exact (run.ensures ordered).along isRun.yields
    (along_of_forall_mem fun _ => answers)

theorem ScanRun.Of.post {run : ScanRun}
    (isRun : run.Of runtime contract stream)
    (ordered : ChainOrdered stream)
    {final : Final indexerHost ContractResult}
    (ended : run.final = some final) :
    ScanPost runtime run.scan stream run.start run.rounds final
      run.trace := by
  have answers := isRun.answers
  rw [← isRun.isContract] at answers
  have yields := isRun.yields
  rw [ended] at yields
  exact (run.ensures ordered).final yields
    (along_of_forall_mem fun _ => answers)

/-- A row is as it was, or holds what some save of the trace wrote. -/
theorem rowAfter_eq (contract : ContractName) (row : Checkpoint)
    (trace : Trace) :
    rowAfter contract row trace = row ∨
      ∃ before owner now reply after, trace = before ++
        ⟨.saveCheckpoint contract (rowAfter contract row trace) owner now,
          reply⟩ :: after := by
  induction trace using List.reverseRecOn with
  | nil => exact .inl rfl
  | append_singleton trace exchange induction =>
      cases saved : savedCheckpoint contract exchange with
      | none =>
          rw [rowAfter_quiet saved]
          rcases induction with same | ⟨before, owner, now, reply, after, split⟩
          · exact .inl same
          · refine .inr ⟨before, owner, now, reply, after ++ [exchange], ?_⟩
            conv_lhs => rw [split]
            simp
      | some checkpoint =>
          have isRow : rowAfter contract row (trace ++ [exchange]) =
              checkpoint := by
            rw [rowAfter_snoc, saved]
            rfl
          obtain ⟨owner, now, reply, isSave⟩ :=
            saveCheckpoint_of_saved saved
          exact .inr ⟨trace, owner, now, reply, [], by rw [isRow, isSave]⟩

/-- `run`, after the runs `earlier` and the exchanges `before`, asks for
`checkpoint` to be saved. -/
def Saves (contract : ContractName) (runs earlier : List ScanRun)
    (run : ScanRun) (before : Trace) (checkpoint : Checkpoint) : Prop :=
  ∃ later owner now reply after, runs = earlier ++ run :: later ∧
    run.trace = before ++
      ⟨.saveCheckpoint contract checkpoint owner now, reply⟩ :: after

/-- What was exchanged before a save, run by run, with the row each run
read. -/
def exchangedBefore (earlier : List ScanRun) (run : ScanRun)
    (before : Trace) : List (Checkpoint × Trace) :=
  earlier.map (fun other => (other.start, other.trace)) ++
    [(run.start, before)]

/-- An event is handed over or clamped away in one of the runs. -/
def Passed (runtime : Runtime) (contract : ContractName)
    (stream : List EventResponse) (exchanged : List (Checkpoint × Trace))
    (event : EventResponse) : Prop :=
  ∃ entry ∈ exchanged,
    Handed runtime contract stream entry.1 entry.2 event ∨
      ClampedAway contract entry.2 event

theorem Passed.mono {exchanged more : List (Checkpoint × Trace)}
    {event : EventResponse}
    (passed : Passed runtime contract stream exchanged event)
    (subset : ∀ entry ∈ exchanged, entry ∈ more) :
    Passed runtime contract stream more event := by
  obtain ⟨entry, member, how⟩ := passed
  exact ⟨entry, subset entry member, how⟩

/-- Everything up to the row was passed in some run. -/
theorem ScanRuns.passed (ordered : ChainOrdered stream)
    (history : ScanRuns runtime contract stream initial runs row)
    {event : EventResponse} (member : event ∈ stream)
    (above : initial.lastLedger < event.ledger)
    (below : event.ledger ≤ row.lastLedger) :
    Passed runtime contract stream
      (runs.map fun run => (run.start, run.trace)) event := by
  induction history with
  | nil => exact absurd above (Nat.not_lt.mpr below)
  | @snoc runs row earlier run isRun reads induction =>
      have subset : ∀ entry ∈ runs.map (fun run => (run.start, run.trace)),
          entry ∈ (runs ++ [run]).map fun run => (run.start, run.trace) := by
        intro entry inside
        rw [List.map_append]
        exact List.mem_append_left _ inside
      rcases Nat.lt_or_ge row.lastLedger event.ledger with fresh | old
      · rcases rowAfter_eq contract row run.trace with same |
          ⟨before, owner, now, reply, after, split⟩
        · rw [same] at below
          exact absurd fresh (Nat.not_lt.mpr below)
        · have along := isRun.along ordered
          rw [split] at along
          have step := (Along.at along).1
          rw [List.nil_append] at step
          obtain ⟨_, _, _, _, covered⟩ := step
          rw [isRun.isContract, reads] at covered
          refine ⟨(run.start, run.trace), by simp, ?_⟩
          rw [split, reads]
          exact (covered event member fresh below).imp (·.append _)
            (·.append _)
      · exact (induction old).mono subset

/-- A run of a history, with the history before it. -/
theorem ScanRuns.split
    (history : ScanRuns runtime contract stream initial runs row)
    {earlier later : List ScanRun} {run : ScanRun}
    (isRuns : runs = earlier ++ run :: later) :
    ∃ before, ScanRuns runtime contract stream initial earlier before ∧
      run.Of runtime contract stream ∧ run.start = before := by
  induction history generalizing later with
  | nil => simp at isRuns
  | @snoc runs row history last isRun reads induction =>
      cases later using List.reverseRecOn with
      | nil =>
          obtain ⟨rfl, same⟩ := List.append_inj' isRuns rfl
          cases same
          exact ⟨row, history, isRun, reads⟩
      | append_singleton later final =>
          have cut : runs ++ [last] = (earlier ++ run :: later) ++ [final] :=
            by simpa using isRuns
          obtain ⟨rfl, _⟩ := List.append_inj' cut rfl
          exact induction rfl

/-- Whenever a run asks for a checkpoint to be saved, every event after the
initial checkpoint and up to the saved one was handed to `writeEvents` in a
call that did not defer, together with all events of its ledger and in chain
order, and was ignored, written or dead-lettered there; or it lies in a range
that an allowed retention clamp skipped and dead-lettered. -/
theorem saved_events_passed (ordered : ChainOrdered stream)
    (history : ScanRuns runtime contract stream initial runs row)
    {earlier : List ScanRun} {run : ScanRun} {before : Trace}
    {checkpoint : Checkpoint}
    (saves : Saves contract runs earlier run before checkpoint) :
    ∀ event ∈ stream, initial.lastLedger < event.ledger →
      event.ledger ≤ checkpoint.lastLedger →
      Passed runtime contract stream (exchangedBefore earlier run before)
        event := by
  intro event member above below
  obtain ⟨later, owner, now, reply, after, isRuns, isTrace⟩ := saves
  obtain ⟨start, prior, isRun, reads⟩ := history.split isRuns
  rcases Nat.lt_or_ge start.lastLedger event.ledger with fresh | old
  · have along := isRun.along ordered
    rw [isTrace] at along
    have step := (Along.at along).1
    rw [List.nil_append] at step
    obtain ⟨_, _, _, _, covered⟩ := step
    rw [isRun.isContract] at covered
    exact ⟨(run.start, before), by simp [exchangedBefore],
      covered event member (reads ▸ fresh) below⟩
  · exact (prior.passed ordered member above old).mono fun entry inside =>
      List.mem_append_left _ inside

end

/-! ## A sample host -/

def sampleRuntime : Runtime := { parseDate := fun _ => none, callDepth := 0 }

def missingRow : Thrown :=
  newError "D1_ERROR: FOREIGN KEY constraint failed: SQLITE_CONSTRAINT"

/-- A host with one RPC node and a database in which the statements of some
packets fail on a foreign key. -/
def sampleHost (stream : List EventResponse) (node : Node)
    (fails : EventPacket → Bool) : (request : Request) → request.Answer
  | .now => 0
  | .getHealth =>
      .ok { latestLedger := node.latest, oldestLedger := node.oldest }
  | .getEvents _ request =>
      match getEvents stream node request with
      | some page => .ok page
      | none =>
          .error (newError "startLedger must be within the ledger range")
  | .readCheckpoints => .ok fun _ => none
  | .batch writes =>
      if writes.any fun write => fails write.packet then .failed missingRow
      else .answered (writes.map fun _ => 1)
  | .run write =>
      if fails write.packet then .failed missingRow else .answered 1
  | .recordMissing rows => .answered (rows.map fun _ => 0)
  | .deadLetter _ => .answered ()
  | .saveCheckpoint _ _ _ _ => .answered (1, 1)
  | .wrote _ _ _ _ => ()

/-- A run of the sample host's indexer. -/
def sampleRun (stream : List EventResponse) (node : Node)
    (fails : EventPacket → Bool) (contract : ContractName)
    (start : Checkpoint) : ScanRun :=
  let scan : Scan :=
    { contract, head := node.latest, oldest := node.oldest, deadlineMs := 1
      owner := "run" }
  let ran := (indexContract sampleRuntime 8 scan start).answeredBy
    (sampleHost stream node fails)
  { scan, rounds := 8, start, trace := ran.1, final := some ran.2 }

theorem sampleRun_of (stream : List EventResponse) (node : Node)
    (fails : EventPacket → Bool) (contract : ContractName)
    (start : Checkpoint) :
    (sampleRun stream node fails contract start).Of sampleRuntime contract
      stream where
  isContract := rfl
  yields := yields_answeredBy _ _
  answers := by
    intro exchange member
    have isAnswer := mem_answeredBy member
    obtain ⟨request, answer⟩ := exchange
    cases request with
    | getEvents asked request =>
        intro _ page isPage
        simp only [Exchange.mk.injEq, heq_eq_eq, true_and] at isAnswer
        rw [isAnswer] at isPage
        simp only [sampleHost] at isPage
        split at isPage
        · cases isPage
          exact ⟨node, by assumption⟩
        · cases isPage
    | _ => trivial

/-- An event of an unsuccessful call. -/
def quietEvent (ledger : Nat) : EventResponse :=
  { id := "quiet", ledger, ledgerClosedAt := "", txHash := ""
    inSuccessfulContractCall := false, topic := [], value := .void }

/-- The history of one sample run from a fresh row. -/
theorem sampleRuns_one (stream : List EventResponse) (node : Node)
    (fails : EventPacket → Bool) (contract : ContractName)
    (start : Checkpoint) :
    ScanRuns sampleRuntime contract stream start
      [sampleRun stream node fails contract start]
      (rowAfter contract start
        (sampleRun stream node fails contract start).trace) :=
  .snoc .nil _ (sampleRun_of stream node fails contract start) rfl

/-- An event whose statement deletes a metadata entry. -/
def emptiedEvent (ledger : Nat) (id : String) : EventResponse :=
  { id, ledger, ledgerClosedAt := "2026-01-01T00:00:00Z", txHash := ""
    inSuccessfulContractCall := true
    topic := [.symbol "metadata_set", .int .u32 7, .string ⟨#[]⟩]
    value := .map [(.symbol "value", .bytes ⟨#[]⟩)] }

/-- Two events that a run reads in pages of their own. -/
def emptiedEvents : List EventResponse :=
  [emptiedEvent 5 "first", emptiedEvent 15000 "second"]

/-- The run saves a checkpoint at the ledger. -/
def Request.savesAt (ledger : Nat) : Request → Bool
  | .saveCheckpoint contract checkpoint _ _ =>
      contract = .identity && checkpoint.lastLedger = ledger
  | _ => false

theorem saved_events_passed_pages :
    ∃ run before checkpoint,
      Saves .identity [run] [] run before checkpoint ∧
      checkpoint.lastLedger = 20000 ∧
      (before.countP fun exchange =>
        exchange.request matches .batch _) = 2 ∧
      ∀ event ∈ emptiedEvents,
        Passed sampleRuntime .identity emptiedEvents
          (exchangedBefore [] run before) event := by
  let run := sampleRun emptiedEvents ⟨20000, 1⟩ (fun _ => false) .identity
    ⟨0, 0⟩
  have one : (run.trace.drop 13).length = 1 := by decide +kernel
  have isSave : ((run.trace.drop 13).all fun exchange =>
      exchange.request.savesAt 20000) = true := by decide +kernel
  obtain ⟨⟨request, reply⟩, isLast⟩ := List.length_eq_one_iff.mp one
  rw [isLast] at isSave
  have whole := List.take_append_drop 13 run.trace
  rw [isLast] at whole
  cases request with
  | saveCheckpoint contract checkpoint owner now =>
      simp only [List.all_cons, List.all_nil, Request.savesAt, Bool.and_true,
        Bool.and_eq_true, decide_eq_true_eq] at isSave
      obtain ⟨rfl, reached⟩ := isSave
      have saves : Saves .identity [run] [] run (run.trace.take 13)
          checkpoint :=
        ⟨[], owner, now, reply, [], rfl, whole.symm⟩
      refine ⟨run, run.trace.take 13, checkpoint, saves, reached,
        by decide +kernel, ?_⟩
      intro event member
      have inside : 0 < event.ledger ∧ event.ledger ≤ 20000 := by
        rcases List.mem_pair.mp member with rfl | rfl <;> decide
      exact saved_events_passed
        (by simp [ChainOrdered, emptiedEvents, emptiedEvent])
        (sampleRuns_one emptiedEvents ⟨20000, 1⟩ (fun _ => false) .identity
          ⟨0, 0⟩)
        saves event member inside.1 (reached ▸ inside.2)
  | _ => cases isSave
/-- A retention clamp saves a checkpoint past an event that no call was
handed. -/
theorem clamped_event_not_handed :
    ∃ runs row earlier run before checkpoint,
      ChainOrdered [quietEvent 5] ∧
      ScanRuns sampleRuntime .identity [quietEvent 5] ⟨0, 0⟩ runs row ∧
      Saves .identity runs earlier run before checkpoint ∧
      0 < (quietEvent 5).ledger ∧
      (quietEvent 5).ledger ≤ checkpoint.lastLedger ∧
      ∀ entry ∈ exchangedBefore earlier run before,
        ¬ Handed sampleRuntime .identity [quietEvent 5] entry.1 entry.2
          (quietEvent 5) := by
  let run := sampleRun [quietEvent 5] ⟨20, 10⟩ (fun _ => false) .identity
    ⟨0, 0⟩
  refine ⟨[run], _, [], run, run.trace.take 2, ⟨9, 0⟩, by simp [ChainOrdered],
    sampleRuns_one _ _ _ _ _, ⟨[], "run", _, _, run.trace.drop 3, rfl, rfl⟩,
    by decide, by decide, ?_⟩
  rintro entry member ⟨made, ⟨before, after, isTrace, _⟩, _⟩
  simp only [exchangedBefore, List.map_nil, List.nil_append,
    List.mem_singleton] at member
  subst member
  have called : (⟨.wrote .identity made.events made.skip made.result, ()⟩ :
      Exchange indexerHost) ∈ run.trace.take 2 := by
    rw [show run.trace.take 2 = _ from isTrace]
    simp
  have isTwo : (run.trace.take 2).map Exchange.request =
      [.deadLetter (clampEntry .identity 1 10), .now] := rfl
  have inside := List.mem_map_of_mem (f := Exchange.request) called
  rw [isTwo] at inside
  simp at inside

end Stellar8004.Indexer
