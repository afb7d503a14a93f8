import Stellar8004.Indexer.LockFence
import Stellar8004.Indexer.TimeCalls
import Stellar8004.Web.Discovery

/-!
# Staleness of the index

`indexerStatus` of `handlers.ts` over the rows that overlapping runs of the
indexer save.  A contract is reported stale by the time of its last progress,
however often its row is saved meanwhile.
-/

namespace Stellar8004.Web

open Stellar8004.Indexer Stellar8004.Indexer.Run Program

/-! ## `handlers.ts` -/

def STALE_AFTER_MS : Nat := 5 * 60000

/-- `check` of `indexerStatus`.  A difference to an invalid date is not
greater than anything. -/
def checkContract (runtime : Runtime) (now : Nat) :
    Option StateRow → ContractStatus
  | none => { lastLedger := 0, updatedAt := none, stale := true }
  | some row =>
      { lastLedger := row.lastLedger
        updatedAt := some row.updatedAt
        stale :=
          match runtime.parseDate
            (row.lastAdvancedAt.getD row.updatedAt) with
          | none => false
          | some progressAt =>
              (STALE_AFTER_MS : Int) < (now : Int) - progressAt }

structure IndexerStatus where
  identity : ContractStatus
  reputation : ContractStatus
  validation : ContractStatus

def indexerStatus (runtime : Runtime) (state : LockState) : IndexerStatus :=
  { identity := checkContract runtime state.clock (state.rows .identity)
    reputation := checkContract runtime state.clock (state.rows .reputation)
    validation := checkContract runtime state.clock (state.rows .validation) }

/-- The `status` that `handleHealth` answers. -/
def healthStatus (status : IndexerStatus) : String :=
  let degraded := status.identity.stale || status.reputation.stale ||
    status.validation.stale
  if degraded then "degraded" else "healthy"

/-! ## Progress -/

/-- `Date.parse` of a stored time is the time it was stored for. -/
def ReadsStoredTimes (runtime : Runtime) : Prop :=
  ∀ time : Nat, Int.ofNat time < year9999 →
    runtime.parseDate (pgText (Int.ofNat time)) = some (Int.ofNat time)

section

variable {ι : Type*} [DecidableEq ι] {runtime : Runtime} {rounds : ι → Nat}
  {envs : ι → Env} {owners : ι → String} {streams : Streams}
  {start state after : LockState} {log : List (ι × Exchange runHost)}
  {contract : ContractName} {row : StateRow} {time : Nat}

/-- Where the time of a contract's last progress comes from. -/
inductive Progressed (runtime : Runtime) (rounds : ι → Nat) (envs : ι → Env)
    (owners : ι → String) (streams : Streams) (start : LockState)
    (log : List (ι × Exchange runHost)) (contract : ContractName)
    (row : StateRow) (time : Nat) : Prop where
  /-- A run has raised the ledger, after it had processed the events up to
  it, and had read the clock before. -/
  | raised {earlier later : List (ι × Exchange runHost)} {thread : ι}
      {before : LockState} {old : StateRow} {checkpoint : Checkpoint}
      {reply : Reply (Nat × Nat)}
      (isLog : log = earlier ++ (thread, ⟨.index (.saveCheckpoint contract
        checkpoint (owners thread) (pgText (Int.ofNat time))), reply⟩) ::
          later)
      (reached : Interleaved (runs runtime rounds envs owners)
        (Serves streams) Ticks start earlier before)
      (isOld : before.rows contract = some old)
      (higher : old.lastLedger < row.lastLedger)
      (isLedger : checkpoint.lastLedger = row.lastLedger)
      (read : (thread, (⟨.index .now, time⟩ : Exchange runHost)) ∈ earlier)
      (processed : ProcessedOrClamped runtime (envs thread) streams contract
        (ofThread thread earlier) row.lastLedger)
      (stamp : row.lastAdvancedAt = some (pgText (Int.ofNat time)))
  /-- No run has raised the ledger, and its row came with a time. -/
  | unmoved {first : StateRow} {text : String}
      (isFirst : start.rows contract = some first)
      (same : row.lastLedger = first.lastLedger)
      (stamp : first.lastAdvancedAt = some text)
      (kept : row.lastAdvancedAt = some text)
      (parses : runtime.parseDate text = some (Int.ofNat time))
  /-- No run has raised the ledger, its row came without a time, and what
  counts is that the row was written. -/
  | unset {first : StateRow}
      (isFirst : start.rows contract = some first)
      (same : row.lastLedger = first.lastLedger)
      (never : first.lastAdvancedAt = none)
      (kept : row.lastAdvancedAt = none)
      (parses : runtime.parseDate row.updatedAt = some (Int.ofNat time))

theorem Progressed.append
    (progressed : Progressed runtime rounds envs owners streams start log
      contract row time) (more : List (ι × Exchange runHost)) :
    Progressed runtime rounds envs owners streams start (log ++ more) contract
      row time := by
  cases progressed with
  | raised isLog reached isOld higher isLedger read processed stamp =>
      rw [isLog, List.append_assoc, List.cons_append]
      exact .raised rfl reached isOld higher isLedger read processed stamp
  | unmoved isFirst same stamp kept parses =>
      exact .unmoved isFirst same stamp kept parses
  | unset isFirst same never kept parses =>
      exact .unset isFirst same never kept parses

/-- The time a status is computed from. -/
theorem Progressed.parses
    (progressed : Progressed runtime rounds envs owners streams start log
      contract row time) (reads : ReadsStoredTimes runtime)
    (before : Int.ofNat time < year9999) :
    runtime.parseDate (row.lastAdvancedAt.getD row.updatedAt) =
      some (Int.ofNat time) := by
  cases progressed with
  | raised isLog reached isOld higher isLedger read processed stamp =>
      rw [stamp]
      exact reads time before
  | unmoved isFirst same stamp kept parses =>
      rw [kept]
      exact parses
  | unset isFirst same never kept parses =>
      rw [kept]
      exact parses

theorem checkContract_stale_iff
    (parses : runtime.parseDate (row.lastAdvancedAt.getD row.updatedAt) =
      some (Int.ofNat time)) (now : Nat) :
    (checkContract runtime now (some row)).stale = true ↔
      time + STALE_AFTER_MS < now := by
  simp only [checkContract, parses, decide_eq_true_eq, Int.ofNat_eq_natCast]
  omega

/-! ## Saves -/

/-- The row a save leaves. -/
def savedRow (row : StateRow) (checkpoint : Checkpoint) (now : String) :
    StateRow :=
  { lastLedger := checkpoint.lastLedger
    updatedAt := now
    expectedNextLedger := some (checkpoint.lastLedger + 1)
    deferAttempts := checkpoint.deferAttempts
    lastAdvancedAt :=
      if row.lastLedger < checkpoint.lastLedger then some now
      else row.lastAdvancedAt }

theorem save_rows_eq (state : LockState) (contract : ContractName)
    (checkpoint : Checkpoint) (owner now : String) :
    (state.save contract checkpoint owner now).1.rows = state.rows ∨
      ∃ row, state.rows contract = some row ∧
        row.lastLedger ≤ checkpoint.lastLedger ∧
        (state.save contract checkpoint owner now).1.rows =
          Function.update state.rows contract
            (some (savedRow row checkpoint now)) := by
  have refreshed : (state.refresh owner now).1.rows = state.rows := by
    unfold LockState.refresh
    split
    · rfl
    · rfl
  unfold LockState.save LockState.advance
  dsimp only
  rw [refreshed]
  split
  · exact .inl refreshed
  · rename_i row found
    split
    · rename_i guarded
      exact .inr ⟨row, found, guarded.1, rfl⟩
    · exact .inl refreshed

/-- A save moves the progress on or leaves it. -/
theorem Progressed.saved (reads : ReadsStoredTimes runtime)
    {thread : ι} {checkpoint : Checkpoint} {reply : Reply (Nat × Nat)}
    {now : Nat} (reached : Interleaved (runs runtime rounds envs owners)
      (Serves streams) Ticks start log state)
    (isRow : state.rows contract = some row)
    (progressed : Progressed runtime rounds envs owners streams start log
      contract row time)
    (grows : row.lastLedger ≤ checkpoint.lastLedger)
    (before : Int.ofNat now < year9999)
    (read : (thread, (⟨.index .now, now⟩ : Exchange runHost)) ∈ log)
    (processed : ProcessedOrClamped runtime (envs thread) streams contract
      (ofThread thread log) checkpoint.lastLedger) :
    ∃ other, (other = time ∨ other = now) ∧
      Progressed runtime rounds envs owners streams start
        (log ++ [(thread, ⟨.index (.saveCheckpoint contract checkpoint
          (owners thread) (pgText (Int.ofNat now))), reply⟩)]) contract
        (savedRow row checkpoint (pgText (Int.ofNat now))) other := by
  by_cases higher : row.lastLedger < checkpoint.lastLedger
  · have stamp : (savedRow row checkpoint (pgText (Int.ofNat now))
        ).lastAdvancedAt = some (pgText (Int.ofNat now)) := if_pos higher
    exact ⟨now, .inr rfl, .raised rfl reached isRow higher rfl read processed
      stamp⟩
  · have same : (savedRow row checkpoint (pgText (Int.ofNat now))
        ).lastLedger = row.lastLedger :=
      Nat.le_antisymm (Nat.le_of_not_lt higher) grows
    have kept : (savedRow row checkpoint (pgText (Int.ofNat now))
        ).lastAdvancedAt = row.lastAdvancedAt := if_neg higher
    have more := progressed.append [(thread, ⟨.index (.saveCheckpoint contract
      checkpoint (owners thread) (pgText (Int.ofNat now))), reply⟩)]
    cases more with
    | raised isLog reached isOld rises isLedger readBefore processed stamp =>
        refine ⟨time, .inl rfl, .raised isLog reached isOld ?_
          (isLedger.trans same.symm) readBefore ?_ (kept.trans stamp)⟩
        · rw [same]
          exact rises
        · rw [same]
          exact processed
    | unmoved isFirst ledger stamp before parses =>
        exact ⟨time, .inl rfl, .unmoved isFirst (same.trans ledger) stamp
          (kept.trans before) parses⟩
    | unset isFirst ledger never unset parses =>
        exact ⟨now, .inr rfl, .unset isFirst (same.trans ledger) never
          (kept.trans unset) (reads now before)⟩

/-! ## Runs -/

/-- The rows of the start were written before, at times that parse. -/
def StampedRows (runtime : Runtime) (start : LockState) : Prop :=
  ∀ contract row, start.rows contract = some row →
    ∃ time : Nat, time ≤ start.clock ∧
      runtime.parseDate (row.lastAdvancedAt.getD row.updatedAt) =
        some (Int.ofNat time)

/-- Every contract's progress has a time the clock has shown. -/
def Tracked (runtime : Runtime) (rounds : ι → Nat) (envs : ι → Env)
    (owners : ι → String) (streams : Streams) (start : LockState)
    (log : List (ι × Exchange runHost)) (state : LockState) : Prop :=
  ∀ contract row, state.rows contract = some row →
    ∃ time ≤ state.clock, Progressed runtime rounds envs owners streams start
      log contract row time

theorem StampedRows.tracked (stamped : StampedRows runtime start) :
    Tracked runtime rounds envs owners streams start [] start := by
  intro contract row isRow
  obtain ⟨time, early, parses⟩ := stamped contract row isRow
  refine ⟨time, early, ?_⟩
  cases stamp : row.lastAdvancedAt with
  | none =>
      rw [stamp] at parses
      exact .unset isRow rfl stamp stamp parses
  | some text =>
      rw [stamp] at parses
      exact .unmoved isRow rfl stamp stamp parses

theorem Tracked.same
    (tracked : Tracked runtime rounds envs owners streams start log state)
    (rows : after.rows = state.rows) (clock : state.clock ≤ after.clock)
    (more : List (ι × Exchange runHost)) :
    Tracked runtime rounds envs owners streams start (log ++ more) after := by
  intro contract row isRow
  rw [rows] at isRow
  obtain ⟨time, early, progressed⟩ := tracked contract row isRow
  exact ⟨time, early.trans clock, progressed.append more⟩

theorem Tracked.exchanged (reads : ReadsStoredTimes runtime)
    (reached : Interleaved (runs runtime rounds envs owners)
      (Serves streams) Ticks start log state)
    (tracked : Tracked runtime rounds envs owners streams start log state)
    (fenced : Fenced owners log state) {thread : ι}
    {exchange : Exchange runHost}
    (step : RunStep runtime (envs thread) (owners thread) streams
      (ofThread thread log) exchange)
    (served : Serves streams state exchange after) :
    Tracked runtime rounds envs owners streams start
      (log ++ [(thread, exchange)]) after := by
  have clock : state.clock ≤ after.clock :=
    Nat.le_of_eq served.effect.clock.symm
  obtain ⟨request, reply⟩ := exchange
  cases served.effect with
  | unchanged => exact tracked.same rfl clock _
  | granted acquiredAt owner staleBefore stale =>
      exact tracked.same rfl clock _
  | freed owner held => exact tracked.same rfl clock _
  | saved saved checkpoint owner text held =>
      obtain ⟨rfl, processed⟩ := step.processed
      obtain ⟨now, member, written⟩ := step.stamp
      have read := mem_of_mem_ofThread member
      have shown := fenced.readInside thread now read
      obtain rfl := fenced.text shown written
      have before : Int.ofNat now < year9999 :=
        (Int.ofNat_le.mpr shown).trans_lt fenced.before
      rcases save_rows_eq state saved checkpoint (owners thread)
          (pgText (Int.ofNat now)) with same | ⟨old, isOld, grows, moved⟩
      · exact tracked.same same clock _
      · intro contract row isRow
        rw [moved] at isRow
        by_cases own : contract = saved
        · subst own
          rw [Function.update_self] at isRow
          cases isRow
          obtain ⟨time, early, progressed⟩ := tracked contract old isOld
          obtain ⟨other, either, after⟩ := progressed.saved reads reached
            isOld grows before read processed
          refine ⟨other, ?_, after⟩
          rcases either with rfl | rfl
          · exact early.trans clock
          · exact shown.trans clock
        · rw [Function.update_of_ne own] at isRow
          obtain ⟨time, early, progressed⟩ := tracked contract row isRow
          exact ⟨time, early.trans clock, progressed.append _⟩

theorem tracked_run (reads : ReadsStoredTimes runtime)
    (distinct : Function.Injective owners)
    (ordered : ∀ contract, ChainOrdered (streams contract))
    (ready : Ready owners start) (stamped : StampedRows runtime start)
    (run : Interleaved (runs runtime rounds envs owners) (Serves streams)
      Ticks start log state) :
    Fenced owners log state ∧
      Tracked runtime rounds envs owners streams start log state := by
  have ensures : ∀ thread, (runs runtime rounds envs owners thread).Ensures
      (fun _ => NodesAnswerRun streams)
      (RunStep runtime (envs thread) (owners thread) streams) []
      fun _ _ => True := fun thread => runOnce_ensures ordered (rounds thread)
  induction run with
  | start => exact ⟨ready.fenced, stamped.tracked⟩
  | exchanged earlier thread exchange asked served induction =>
      obtain ⟨fenced, tracked⟩ := induction
      have step := earlier.permitted (ensures thread) Serves.nodesAnswer asked
        served
      exact ⟨fenced.exchanged distinct step served,
        tracked.exchanged reads earlier fenced step served⟩
  | @moved log state after earlier ticks induction =>
      obtain ⟨fenced, tracked⟩ := induction
      refine ⟨fenced.ticks ticks, ?_⟩
      obtain ⟨time, later, _, rfl⟩ := ticks
      have same : Tracked runtime rounds envs owners streams start
          (log ++ []) { state with clock := time } :=
        tracked.same (show ({ state with clock := time } : LockState).rows =
          state.rows from rfl) later []
      rwa [List.append_nil] at same

theorem healthy_iff (state : LockState) :
    healthStatus (indexerStatus runtime state) = "healthy" ↔
      ∀ contract, (checkContract runtime state.clock
        (state.rows contract)).stale = false := by
  have all : (∀ contract, (checkContract runtime state.clock
      (state.rows contract)).stale = false) ↔
      ((indexerStatus runtime state).identity.stale ||
        (indexerStatus runtime state).reputation.stale ||
        (indexerStatus runtime state).validation.stale) = false := by
    rw [Bool.or_eq_false_iff, Bool.or_eq_false_iff]
    constructor
    · exact fun every => ⟨⟨every .identity, every .reputation⟩,
        every .validation⟩
    · rintro ⟨⟨identity, reputation⟩, validation⟩ contract
      cases contract with
      | identity => exact identity
      | reputation => exact reputation
      | validation => exact validation
  rw [all]
  unfold healthStatus
  dsimp only
  split
  · rename_i degraded
    rw [degraded]
    decide
  · rename_i healthy
    exact iff_of_true rfl (Bool.eq_false_iff.mpr healthy)

/-- Over any interleaving of indexer runs, killed anywhere, a contract is
reported stale exactly when five minutes have passed since the clock was read
for its last progress: the save that raised its ledger, of events that had
all been processed, or the time its row came with.  Saves that raise nothing
do not count, unless the row came without a time. -/
theorem status_follows_progress (reads : ReadsStoredTimes runtime)
    (distinct : Function.Injective owners)
    (ordered : ∀ contract, ChainOrdered (streams contract))
    (ready : Ready owners start) (stamped : StampedRows runtime start)
    (run : Interleaved (runs runtime rounds envs owners) (Serves streams)
      Ticks start log state) :
    (∀ contract row, state.rows contract = some row →
      ∃ time ≤ state.clock,
        Progressed runtime rounds envs owners streams start log contract row
          time ∧
        ((checkContract runtime state.clock (some row)).stale = true ↔
          time + STALE_AFTER_MS < state.clock)) ∧
    (healthStatus (indexerStatus runtime state) = "healthy" ↔
      ∀ contract, ∃ row, state.rows contract = some row ∧
        ∃ time ≤ state.clock, state.clock ≤ time + STALE_AFTER_MS ∧
          Progressed runtime rounds envs owners streams start log contract
            row time) := by
  obtain ⟨fenced, tracked⟩ := tracked_run reads distinct ordered ready stamped
    run
  have stale : ∀ {contract row time}, time ≤ state.clock →
      Progressed runtime rounds envs owners streams start log contract row
        time →
      ((checkContract runtime state.clock (some row)).stale = true ↔
        time + STALE_AFTER_MS < state.clock) := by
    intro contract row time early progressed
    apply checkContract_stale_iff
    apply progressed.parses reads
    exact (Int.ofNat_le.mpr early).trans_lt fenced.before
  constructor
  · intro contract row isRow
    obtain ⟨time, early, progressed⟩ := tracked contract row isRow
    exact ⟨time, early, progressed, stale early progressed⟩
  · rw [healthy_iff]
    apply forall_congr'
    intro contract
    constructor
    · intro fresh
      cases isRow : state.rows contract with
      | none =>
          rw [isRow] at fresh
          cases fresh
      | some row =>
          obtain ⟨time, early, progressed⟩ := tracked contract row isRow
          refine ⟨row, rfl, time, early, ?_, progressed⟩
          apply Nat.le_of_not_lt
          rw [← stale early progressed, ← isRow, fresh]
          decide
    · rintro ⟨row, isRow, time, early, recent, progressed⟩
      rw [isRow, Bool.eq_false_iff]
      intro isStale
      exact absurd ((stale early progressed).mp isStale)
        (Nat.not_lt.mpr recent)

end

/-! ## An index that nobody moves -/

/-- Reads the times that are stored, and nothing else. -/
def readStoredTime (text : String) : Option Int :=
  readISOString (String.ofList
    (text.toList.take (text.toList.length - 6) ++ ['Z']))

def storedRuntime : Runtime := { parseDate := readStoredTime, callDepth := 0 }

theorem storedRuntime_reads : ReadsStoredTimes storedRuntime := by
  intro time before
  have range : TimeValue (Int.ofNat time) := by
    have positive := Int.natCast_nonneg time
    have most : year9999 ≤ 8640000000000000 := by decide
    constructor
    · exact (by decide : (-8640000000000000 : Int) ≤ 0).trans positive
    · exact before.le.trans most
  have last : 'Z' ∈ (toISOString (Int.ofNat time)).getLast? := by
    unfold toISOString
    simp [List.getLast?_append, List.getLast?_cons]
  have iso : (toISOString (Int.ofNat time)).dropLast ++ ['Z'] =
      toISOString (Int.ofNat time) := List.dropLast_append_getLast? _ last
  unfold storedRuntime readStoredTime pgText
  dsimp only
  rw [String.toList_ofList, List.length_append,
    show "+00:00".toList.length = 6 from rfl, Nat.add_sub_cancel,
    List.take_left, iso]
  exact readISOString_toISOString range

/-- The lock is free, and the rows were written when the clock began. -/
def stampedStart : LockState :=
  { clock := 0, lock := none, grants := []
    rows := fun _ => some
      { lastLedger := 0, updatedAt := pgText 0, expectedNextLedger := none
        deferAttempts := 0, lastAdvancedAt := none } }

theorem stampedStart_ready :
    Ready (fun _ : Unit => "run") stampedStart where
  before := by decide
  ungranted := rfl
  stamped := fun _ isRow => nomatch isRow
  other := fun _ _ isRow => nomatch isRow

/-- The same rows, untouched for longer than they may be. -/
def waitedState : LockState :=
  { stampedStart with clock := STALE_AFTER_MS + 1 }

theorem status_follows_progress_waited :
    ∃ row, waitedState.rows .identity = some row ∧
      ∃ time ≤ waitedState.clock,
        Progressed storedRuntime (fun _ : Unit => 1) (fun _ => clampingEnv)
          (fun _ => "run") clampStreams stampedStart [] .identity row time ∧
        ((checkContract storedRuntime waitedState.clock
          (some row)).stale = true ↔
            time + STALE_AFTER_MS < waitedState.clock) := by
  have distinct : Function.Injective fun _ : Unit => "run" := fun _ _ _ => rfl
  have ordered : ∀ contract, ChainOrdered (clampStreams contract) := by
    intro contract
    simp [ChainOrdered, clampStreams]
  have stamped : StampedRows storedRuntime stampedStart := by
    intro contract row isRow
    cases isRow
    exact ⟨0, Nat.le_refl 0, storedRuntime_reads 0 (by decide)⟩
  have waited : Ticks stampedStart waitedState :=
    ⟨STALE_AFTER_MS + 1, Nat.zero_le _, by decide, rfl⟩
  exact ⟨_, rfl, (status_follows_progress storedRuntime_reads distinct ordered
    stampedStart_ready stamped (.moved .start waited)).1 .identity _ rfl⟩

end Stellar8004.Web
