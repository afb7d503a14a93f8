import Stellar8004.Indexer.ScanRuns

/-!
# Deferrals and skips

A run that defers raises the count of its contract by one; a page that moves
the checkpoint resets it.  At the limit the count arms skipping.  The count is
kept for the contract, not for the event it deferred at, and a retention clamp
moves the checkpoint without resetting it.
-/

namespace Stellar8004.Indexer

open Program

section

variable {runtime : Runtime} {contract : ContractName}
  {stream : List EventResponse} {initial row : Checkpoint}
  {runs : List ScanRun} {run : ScanRun}

/-- A run that deferred at a packet. -/
def ScanRun.DeferredAt (runtime : Runtime) (contract : ContractName)
    (run : ScanRun) (packet : EventPacket) : Prop :=
  RunDeferredAt runtime contract run.start run.trace packet

/-- No retention clamp moves the checkpoint while the count is positive. -/
def ScanRun.ClampsClean (run : ScanRun) : Prop :=
  run.start.lastLedger < run.scan.head →
    run.start.lastLedger + 1 < run.scan.oldest → run.start.deferAttempts = 0

/-! ## One run -/

/-- What a run has done to the row at any point of its trace. -/
theorem ScanRun.Of.summary (isRun : run.Of runtime contract stream)
    (ordered : ChainOrdered stream) {before after : Trace}
    (isTrace : run.trace = before ++ after) :
    RowSummary runtime contract run.start run.scan.oldest before := by
  have along := isRun.along ordered
  rw [isTrace] at along
  cases before using List.reverseRecOn with
  | nil => exact .inl (.inl rfl)
  | append_singleton front exchange =>
      rw [List.append_assoc, List.singleton_append] at along
      have step := (Along.at along).2
      rwa [isRun.isContract] at step

/-- The row's ledger never goes back within a run. -/
theorem ScanRun.Of.lastLedger_le (isRun : run.Of runtime contract stream)
    (ordered : ChainOrdered stream) {before after : Trace} (later : Trace)
    (isTrace : run.trace = before ++ after ++ later) :
    (rowAfter contract run.start before).lastLedger ≤
      (rowAfter contract run.start (before ++ after)).lastLedger := by
  induction after using List.reverseRecOn generalizing later with
  | nil => simp
  | append_singleton after exchange induction =>
      have cut : run.trace = before ++ after ++ exchange :: later := by
        rw [isTrace]
        simp
      apply (induction (exchange :: later) cut).trans
      rw [← List.append_assoc, rowAfter_snoc]
      cases saved : savedCheckpoint contract exchange with
      | none => exact Nat.le_refl _
      | some checkpoint =>
          obtain ⟨owner, now, reply, isSave⟩ := saveCheckpoint_of_saved saved
          have along := isRun.along ordered
          rw [cut, isSave] at along
          have step := (Along.at along).1
          rw [List.nil_append] at step
          obtain ⟨_, _, grows, _⟩ := step
          rw [isRun.isContract] at grows
          exact grows

/-- A run called at or past its head exchanges nothing. -/
theorem ScanRun.Of.trace_of_past (isRun : run.Of runtime contract stream)
    (past : run.scan.head ≤ run.start.lastLedger) : run.trace = [] := by
  have yields := isRun.yields
  unfold indexContract at yields
  rw [if_pos past] at yields
  generalize run.trace = trace at yields ⊢
  generalize run.final = final at yields
  cases yields <;> rfl

/-- Without a clamp under a positive count, a run that has neither deferred nor
reset the count has not moved the row. -/
theorem ScanRun.Of.progress (isRun : run.Of runtime contract stream)
    (clean : run.ClampsClean) {before after : Trace}
    (isTrace : run.trace = before ++ after) {base : Checkpoint}
    (isBase : base = rowAfter contract run.start before ∨
      ∃ packet, RunDeferredAt runtime contract run.start before packet)
    (progress : Progress run.start run.scan.oldest base) :
    base = run.start ∨ base.deferAttempts = 0 := by
  rcases progress with same | ⟨aged, same⟩ | ⟨_, zero⟩
  · exact .inl same
  · rcases Nat.lt_or_ge run.start.lastLedger run.scan.head with
      inside | past
    · exact .inr (by rw [same]; exact clean inside aged)
    · have nothing := isRun.trace_of_past past
      rw [isTrace] at nothing
      obtain ⟨rfl, rfl⟩ := List.append_eq_nil_iff.mp nothing
      rcases isBase with isRow | ⟨packet, made, ⟨front, back, split, _⟩, _⟩
      · exact .inl isRow
      · simp at split
  · exact .inr zero

/-- No call deferred before a call returns. -/
theorem ScanRun.Of.undeferred_before
    (isRun : run.Of runtime contract stream) (ordered : ChainOrdered stream)
    {before after : Trace} {events : List EventResponse} {skip : Bool}
    {result : Written}
    (isTrace : run.trace = before ++
      ⟨.wrote contract events skip result, ()⟩ :: after) :
    Undeferred contract before := by
  have along := isRun.along ordered
  rw [isTrace] at along
  have step := (Along.at along).1
  rw [List.nil_append] at step
  rw [← isRun.isContract]
  exact step.2

private theorem ConstraintFailed.write_eq {first second : EventWrite}
    {error other : Thrown} {failure kind : Failure}
    {exchange : Exchange indexerHost}
    (atFirst : ConstraintFailed first error failure exchange)
    (atSecond : ConstraintFailed second other kind exchange) :
    first = second := by
  obtain ⟨request, answer⟩ := exchange
  cases request with
  | run write => exact atFirst.1.symm.trans atSecond.1
  | _ => exact absurd atFirst id

/-- Of two calls that deferred in one trace neither comes first. -/
private theorem deferrals_meet {before after before' after' : Trace}
    {events events' : List EventResponse} {skip skip' : Bool}
    {result result' : Written}
    (same : before ++ ⟨.wrote contract events skip result, ()⟩ :: after =
      before' ++ ⟨.wrote contract events' skip' result', ()⟩ :: after')
    (clear : Undeferred contract before)
    (clear' : Undeferred contract before')
    (deferred : result.deferred = true)
    (deferred' : result'.deferred = true) : before = before' := by
  rcases List.append_eq_append_iff.mp same with
    ⟨gap, isGap, rest⟩ | ⟨gap, isGap, rest⟩
  · cases gap with
    | nil => simpa using isGap.symm
    | cons head gap =>
        obtain ⟨rfl, _⟩ := List.cons.inj rest
        have finished := clear' events skip result (by simp [isGap])
        rw [deferred] at finished
        cases finished
  · cases gap with
    | nil => simpa using isGap
    | cons head gap =>
        obtain ⟨rfl, _⟩ := List.cons.inj rest
        have finished := clear events' skip' result' (by simp [isGap])
        rw [deferred'] at finished
        cases finished

/-- Two deferrals of one run are at the same packet: the first ends it. -/
theorem ScanRun.Of.deferredAt_unique
    (isRun : run.Of runtime contract stream) (ordered : ChainOrdered stream)
    {first second : EventPacket}
    (atFirst : run.DeferredAt runtime contract first)
    (atSecond : run.DeferredAt runtime contract second) :
    first = second := by
  obtain ⟨made, ⟨before, after, isTrace, _⟩, deferred, front, exchange, write,
    error, failure, isInside, rfl, failed⟩ := atFirst
  obtain ⟨other, ⟨before', after', isTrace', _⟩, deferred', front', exchange',
    write', error', failure', isInside', rfl, failed'⟩ := atSecond
  have clear := isRun.undeferred_before ordered isTrace
  have clear' := isRun.undeferred_before ordered isTrace'
  have meet := deferrals_meet (isTrace.symm.trans isTrace') clear clear'
    deferred deferred'
  rw [isInside, isInside', ← List.append_assoc, ← List.append_assoc] at meet
  obtain ⟨_, same⟩ := List.append_inj' meet rfl
  cases same
  rw [failed.write_eq failed']

/-- What a run does to the count.  It ends at zero, or at one after a deferral
that starts a new count, or the row does not move and the count stays or goes up
by a deferral. -/
theorem ScanRun.Of.effect (isRun : run.Of runtime contract stream)
    (ordered : ChainOrdered stream) (clean : run.ClampsClean)
    {next : Checkpoint}
    (isNext : rowAfter contract run.start run.trace = next) :
    next.deferAttempts = 0 ∨
    (next.deferAttempts = 1 ∧
      ∃ packet, run.DeferredAt runtime contract packet) ∨
    0 < run.start.deferAttempts ∧
      next.lastLedger = run.start.lastLedger ∧
      (next.deferAttempts = run.start.deferAttempts ∨
        next.deferAttempts = run.start.deferAttempts + 1 ∧
          ∃ packet, run.DeferredAt runtime contract packet) := by
  have whole : run.trace = run.trace ++ [] := (List.append_nil _).symm
  rcases isRun.summary ordered whole with
    progress | ⟨base, packet, progress, deferred, isRow⟩
  · rw [isNext] at progress
    rcases isRun.progress clean whole (.inl isNext.symm) progress with
      rfl | zero
    · rcases Nat.eq_zero_or_pos run.start.deferAttempts with none | counting
      · exact .inl none
      · exact .inr (.inr ⟨counting, rfl, .inl rfl⟩)
    · exact .inl zero
  · rw [isNext] at isRow
    rcases isRun.progress clean whole (.inr ⟨packet, deferred⟩) progress with
      rfl | zero
    · rcases Nat.eq_zero_or_pos run.start.deferAttempts with none | counting
      · refine .inr (.inl ⟨?_, packet, deferred⟩)
        rw [isRow, none]
      · refine .inr (.inr ⟨counting, ?_, .inr ⟨?_, packet, deferred⟩⟩)
        · rw [isRow]
        · rw [isRow]
    · refine .inr (.inl ⟨?_, packet, deferred⟩)
      rw [isRow, zero]

/-! ## Streaks -/

/-- The runs since the count was last zero, with those that deferred.  No
checkpoint moved between them. -/
structure Streak (runtime : Runtime) (contract : ContractName)
    (runs : List ScanRun) (row : Checkpoint)
    (streak deferrals : List ScanRun) : Prop where
  latest : streak <:+ runs
  among : deferrals.Sublist streak
  counted : row.deferAttempts ≤ deferrals.length
  deferred : ∀ run ∈ deferrals, ∃ packet,
    run.DeferredAt runtime contract packet
  still : ∀ run ∈ streak.tail, run.start.lastLedger = row.lastLedger
  counting : ∀ run ∈ streak.tail, 0 < run.start.deferAttempts

theorem Streak.empty (runs : List ScanRun) {row : Checkpoint}
    (zero : row.deferAttempts = 0) :
    Streak runtime contract runs row [] [] where
  latest := List.nil_suffix
  among := .slnil
  counted := by rw [zero]; exact Nat.le_refl 0
  deferred := fun run member => nomatch member
  still := fun run member => nomatch member
  counting := fun run member => nomatch member

/-- A run that deferred after the count was reset starts a streak. -/
theorem Streak.single {packet : EventPacket} (runs : List ScanRun)
    {row : Checkpoint} (one : row.deferAttempts = 1)
    (deferred : run.DeferredAt runtime contract packet) :
    Streak runtime contract (runs ++ [run]) row [run] [run] where
  latest := List.suffix_append runs [run]
  among := List.Sublist.refl _
  counted := by rw [one]; exact Nat.le_refl 1
  deferred := by
    intro other member
    rw [List.mem_singleton.mp member]
    exact ⟨packet, deferred⟩
  still := fun other member => nomatch member
  counting := fun other member => nomatch member

/-- A run that starts from the streak's row joins the streak. -/
theorem Streak.snoc {streak deferrals : List ScanRun} {next : Checkpoint}
    (earlier : Streak runtime contract runs row streak deferrals)
    (counting : 0 < row.deferAttempts) (reads : run.start = row)
    (stays : next.lastLedger = row.lastLedger)
    (more : List ScanRun) (joins : more.Sublist [run])
    (counted : next.deferAttempts ≤ row.deferAttempts + more.length)
    (deferred : ∀ other ∈ more, ∃ packet,
      other.DeferredAt runtime contract packet) :
    Streak runtime contract (runs ++ [run]) next (streak ++ [run])
      (deferrals ++ more) := by
  have nonempty : streak ≠ [] := by
    rintro rfl
    have none := earlier.among.length_le
    have bound := earlier.counted
    simp only [List.length_nil] at none
    omega
  have tail : (streak ++ [run]).tail = streak.tail ++ [run] :=
    List.tail_append_of_ne_nil nonempty
  refine ⟨?_, ?_, ?_, ?_, ?_, ?_⟩
  · obtain ⟨front, whole⟩ := earlier.latest
    exact ⟨front, by rw [← whole, List.append_assoc]⟩
  · exact earlier.among.append joins
  · have bound := earlier.counted
    rw [List.length_append]
    omega
  · intro other member
    rcases List.mem_append.mp member with old | new
    · exact earlier.deferred other old
    · exact deferred other new
  · intro other member
    rw [tail] at member
    rcases List.mem_append.mp member with old | new
    · rw [stays]
      exact earlier.still other old
    · rw [List.mem_singleton.mp new, reads, stays]
  · intro other member
    rw [tail] at member
    rcases List.mem_append.mp member with old | new
    · exact earlier.counting other old
    · rw [List.mem_singleton.mp new, reads]
      exact counting

/-- Under a positive count there is a streak of as many deferred runs. -/
theorem ScanRuns.exists_streak (ordered : ChainOrdered stream)
    (history : ScanRuns runtime contract stream initial runs row)
    (fresh : initial.deferAttempts = 0)
    (clean : ∀ run ∈ runs, run.ClampsClean) :
    ∃ streak deferrals,
      Streak runtime contract runs row streak deferrals := by
  induction history with
  | nil => exact ⟨[], [], .empty [] fresh⟩
  | @snoc runs row earlier run isRun reads induction =>
      subst reads
      obtain ⟨streak, deferrals, before⟩ := induction fun other member =>
        clean other (List.mem_append_left _ member)
      have cleanRun := clean run (List.mem_append_right _ List.mem_cons_self)
      rcases isRun.effect ordered cleanRun rfl with
        zero | ⟨one, packet, deferred⟩ |
        ⟨counting, stays, same | ⟨up, packet, deferred⟩⟩
      · exact ⟨[], [], .empty _ zero⟩
      · exact ⟨[run], [run], .single runs one deferred⟩
      · exact ⟨_, _, before.snoc counting rfl stays []
          (List.nil_sublist _) (Nat.le_of_eq same)
          fun other member => nomatch member⟩
      · refine ⟨_, _, before.snoc counting rfl stays [run]
          (List.Sublist.refl _) (Nat.le_of_eq up) ?_⟩
        intro other member
        rw [List.mem_singleton.mp member]
        exact ⟨packet, deferred⟩

/-! ## Skips -/

/-- The dead letter of a skipped event. -/
def DeadLetter.Skips (entry : DeadLetter) : Prop :=
  entry.reason = .skipRetryable ∨ entry.reason = .skipNonretryable

/-- Right before `entry`, the statement of its event failed on a constraint
while the row's count was at the limit. -/
def ArmedSkip (contract : ContractName) (start : Checkpoint)
    (before : Trace) (entry : DeadLetter) : Prop :=
  MAX_DEFER_ATTEMPTS ≤ (rowAfter contract start before).deferAttempts ∧
    ∃ front exchange write error failure, before = front ++ [exchange] ∧
      ConstraintFailed write error failure exchange ∧
      entry = skipEntry contract write.packet error failure

theorem ScanRun.Of.armedSkip (isRun : run.Of runtime contract stream)
    (ordered : ChainOrdered stream) {before after : Trace}
    {entry : DeadLetter} {reply : Reply Unit}
    (isTrace : run.trace = before ++ ⟨.deadLetter entry, reply⟩ :: after)
    (skips : entry.Skips) :
    Undeferred contract before ∧
      ArmedSkip contract run.start before entry := by
  have along := isRun.along ordered
  rw [isTrace] at along
  have step := (Along.at along).1
  rw [List.nil_append, ScanExchange, isRun.isContract] at step
  rcases step with ⟨_, rfl⟩ | ⟨event, reason, _, rfl⟩ |
    ⟨undeferred, armed, failed⟩
  · rcases skips with never | never <;> cases never
  · rcases skips with never | never <;> cases never
  · exact ⟨undeferred, armed, failed⟩

/-- A run that met no RPC failure, no deadline and no error but constraint
failures, and was neither killed nor cut short by the model's bound on its
rounds. -/
structure ScanRun.Unhindered (runtime : Runtime)
    (stream : List EventResponse) (run : ScanRun) : Prop where
  ended : run.final ≠ none
  rounds : stream.length + run.scan.head < run.rounds
  clock : ∀ time : Nat,
    (⟨.now, time⟩ : Exchange indexerHost) ∈ run.trace →
      time < run.scan.deadlineMs
  rpc : ∀ contract request error,
    (⟨.getEvents contract request, .error error⟩ : Exchange indexerHost) ∉
      run.trace
  faultless : ∀ exchange ∈ run.trace, ¬ Faulty runtime exchange
  bound : ∀ packet ∈ stream.filterMap (packetOf run.scan.contract),
    ¬ Unbound runtime packet

/-- With skipping armed, an unhindered run gets past the event it was stuck
at. -/
theorem ScanRun.Of.unblocks (isRun : run.Of runtime contract stream)
    (ordered : ChainOrdered stream)
    (armed : MAX_DEFER_ATTEMPTS ≤ run.start.deferAttempts)
    (behind : run.start.lastLedger < run.scan.head)
    (unhindered : run.Unhindered runtime stream) :
    ∃ result, run.final = some (.returned result) ∧
      run.start.lastLedger <
        (rowAfter contract run.start run.trace).lastLedger := by
  cases ended : run.final with
  | none => exact absurd ended unhindered.ended
  | some final =>
      have post := isRun.post ordered ended
      cases final with
      | threw error =>
          rcases post with ⟨exchange, member, fault⟩ |
            ⟨packet, member, unbound⟩
          · exact absurd fault (unhindered.faultless exchange member)
          · exact absurd unbound (unhindered.bound packet member)
      | unfinished =>
          have enough := unhindered.rounds
          exact absurd post (Nat.not_le.mpr enough)
      | returned result =>
          obtain ⟨isRow, ends⟩ := post
          obtain ⟨_, finished, deadline, rpcError, deferred⟩ := ends behind
          rw [isRun.isContract] at isRow
          refine ⟨result, rfl, ?_⟩
          rw [isRow]
          cases stopped : result.stopped with
          | none => exact finished stopped
          | some reason =>
              cases reason with
              | deferred =>
                  rcases deferred stopped with advanced | below
                  · exact advanced
                  · exact absurd armed (Nat.not_le.mpr below)
              | rpcError =>
                  obtain ⟨request, error, member⟩ := rpcError stopped
                  exact absurd member (unhindered.rpc _ request error)
              | deadline =>
                  obtain ⟨time, member, late⟩ := deadline stopped
                  have early := unhindered.clock time member
                  exact absurd late (Nat.not_le.mpr early)

/-- Where no retention clamp moves the checkpoint under a positive count:
whatever the row has moved past was written, ignored, dead-lettered as
unparseable, clamped away, or failed on a constraint while the count was at the
limit; a count is backed by that many deferred runs between which the
checkpoint did not move; only a deferral raises it and only a constraint failure
under an armed count is skipped; and an unhindered run with the count at the
limit moves the checkpoint. -/
theorem skipping_needs_deferrals (ordered : ChainOrdered stream)
    (history : ScanRuns runtime contract stream initial runs row)
    (clean : ∀ run ∈ runs, run.ClampsClean) :
    (∀ event ∈ stream, initial.lastLedger < event.ledger →
      event.ledger ≤ row.lastLedger →
      Passed runtime contract stream
        (runs.map fun run => (run.start, run.trace)) event) ∧
    (initial.deferAttempts = 0 → ∃ streak deferrals,
      Streak runtime contract runs row streak deferrals) ∧
    (∀ run ∈ runs,
      (∀ before entry reply after,
        run.trace = before ++ ⟨.deadLetter entry, reply⟩ :: after →
        entry.Skips → ArmedSkip contract run.start before entry) ∧
      (run.start.deferAttempts <
          (rowAfter contract run.start run.trace).deferAttempts →
        ∃ packet, run.DeferredAt runtime contract packet)) ∧
    ∀ run : ScanRun, run.Of runtime contract stream → run.start = row →
      MAX_DEFER_ATTEMPTS ≤ row.deferAttempts →
      row.lastLedger < run.scan.head → run.Unhindered runtime stream →
      ∃ result, run.final = some (.returned result) ∧
        row.lastLedger < (rowAfter contract row run.trace).lastLedger := by
  refine ⟨?_, ?_, ?_, ?_⟩
  · intro event member above below
    exact history.passed ordered member above below
  · intro fresh
    exact history.exists_streak ordered fresh clean
  · intro run member
    obtain ⟨earlier, later, isRuns⟩ := List.append_of_mem member
    obtain ⟨_, _, isRun, _⟩ := history.split isRuns
    constructor
    · intro before entry reply after isTrace skips
      exact (isRun.armedSkip ordered isTrace skips).2
    · intro raised
      rcases isRun.effect ordered (clean run member) rfl with
        zero | ⟨_, deferred⟩ | ⟨_, _, same | ⟨_, deferred⟩⟩
      · omega
      · exact deferred
      · omega
      · exact deferred
  · rintro run isRun rfl armed behind unhindered
    exact isRun.unblocks ordered armed behind unhindered

/-! ## One event at a time -/

/-- The last of the runs that deferred did so at `packet`. -/
def LastDeferral (runtime : Runtime) (contract : ContractName)
    (runs : List ScanRun) (packet : EventPacket) : Prop :=
  ∃ front last back, runs = front ++ last :: back ∧
    last.DeferredAt runtime contract packet ∧
    ∀ run ∈ back, ∀ other, ¬ run.DeferredAt runtime contract other

/-- While the count is positive, no statement fails on a constraint but that
of the event the last deferral was at. -/
def ScanRun.OnlyStuckFails (runtime : Runtime) (contract : ContractName)
    (earlier : List ScanRun) (run : ScanRun) : Prop :=
  ∀ before exchange after write error failure,
    run.trace = before ++ exchange :: after →
    ConstraintFailed write error failure exchange →
    0 < (rowAfter contract run.start before).deferAttempts →
    ∀ packet, LastDeferral runtime contract earlier packet →
      write.packet = packet

/-- Every deferral of the streak was at one packet. -/
def StuckAt (runtime : Runtime) (contract : ContractName)
    (streak : List ScanRun) (packet : EventPacket) : Prop :=
  ∀ run ∈ streak, ∀ other, run.DeferredAt runtime contract other →
    other = packet

/-- Some run of a list is the last that deferred. -/
theorem exists_lastDeferral {packet : EventPacket}
    (member : run ∈ runs)
    (deferred : run.DeferredAt runtime contract packet) :
    ∃ last, LastDeferral runtime contract runs last := by
  induction runs using List.reverseRecOn with
  | nil => cases member
  | append_singleton runs final induction =>
      by_cases defers : ∃ other, final.DeferredAt runtime contract other
      · obtain ⟨other, atOther⟩ := defers
        exact ⟨other, runs, final, [], rfl, atOther,
          fun later inside => nomatch inside⟩
      · rcases List.mem_append.mp member with early | late
        · obtain ⟨last, front, at_, back, rfl, atLast, none⟩ :=
            induction early
          refine ⟨last, front, at_, back ++ [final], by simp, atLast, ?_⟩
          intro later inside other atOther
          rcases List.mem_append.mp inside with before | here
          · exact none later before other atOther
          · rw [List.mem_singleton.mp here] at atOther
            exact defers ⟨other, atOther⟩
        · rw [List.mem_singleton.mp late] at deferred
          exact absurd ⟨packet, deferred⟩ defers

/-- The last deferral of a history lies in its streak. -/
theorem Streak.lastDeferral {streak deferrals : List ScanRun}
    (backed : Streak runtime contract runs row streak deferrals)
    (counting : 0 < row.deferAttempts) {packet : EventPacket}
    (stuck : StuckAt runtime contract streak packet) :
    LastDeferral runtime contract runs packet := by
  have some : deferrals ≠ [] := by
    rintro rfl
    have none := backed.counted
    simp only [List.length_nil] at none
    omega
  obtain ⟨run, member⟩ := List.exists_mem_of_ne_nil deferrals some
  obtain ⟨at_, deferred⟩ := backed.deferred run member
  obtain ⟨last, front, final, back, isStreak, atLast, none⟩ :=
    exists_lastDeferral (backed.among.subset member) deferred
  have isLast : last = packet := stuck final (by simp [isStreak]) last atLast
  obtain ⟨early, whole⟩ := backed.latest
  refine ⟨early ++ front, final, back, ?_, isLast ▸ atLast, none⟩
  rw [← whole, isStreak, List.append_assoc]

/-- While the row does not move, the count of a run stays positive. -/
theorem ScanRun.Of.counting (isRun : run.Of runtime contract stream)
    (ordered : ChainOrdered stream)
    (counting : 0 < run.start.deferAttempts)
    (stays : (rowAfter contract run.start run.trace).lastLedger =
      run.start.lastLedger) {before after : Trace}
    (isTrace : run.trace = before ++ after) :
    0 < (rowAfter contract run.start before).deferAttempts := by
  have upTo : (rowAfter contract run.start before).lastLedger ≤
      run.start.lastLedger := by
    have grows := isRun.lastLedger_le ordered []
      (isTrace.trans (List.append_nil _).symm)
    rwa [← isTrace, stays] at grows
  rcases isRun.summary ordered isTrace with
    progress | ⟨base, packet, progress, deferred, isRow⟩
  · rcases progress with same | ⟨aged, same⟩ | ⟨advanced, _⟩
    · rwa [same]
    · rwa [same]
    · omega
  · rw [isRow]
    exact Nat.succ_pos _

/-- A run whose row does not move defers, if at all, at the event the count
belongs to. -/
theorem ScanRun.Of.deferredAt_stuck (isRun : run.Of runtime contract stream)
    (ordered : ChainOrdered stream)
    (counting : 0 < run.start.deferAttempts)
    (stays : (rowAfter contract run.start run.trace).lastLedger =
      run.start.lastLedger)
    (only : run.OnlyStuckFails runtime contract runs)
    {packet other : EventPacket}
    (last : LastDeferral runtime contract runs packet)
    (deferred : run.DeferredAt runtime contract other) : other = packet := by
  obtain ⟨made, ⟨before, after, isTrace, _⟩, _, front, exchange, write, error,
    failure, isInside, rfl, failed⟩ := deferred
  have cut : run.trace = (before ++ front) ++ exchange ::
      (⟨.wrote contract made.events made.skip made.result, ()⟩ :: after) := by
    rw [isTrace, isInside]
    simp
  exact only _ _ _ write error failure cut failed
    (isRun.counting ordered counting stays cut) packet last

theorem ScanRuns.exists_stuck (ordered : ChainOrdered stream)
    (history : ScanRuns runtime contract stream initial runs row)
    (fresh : initial.deferAttempts = 0)
    (clean : ∀ run ∈ runs, run.ClampsClean)
    (only : ∀ earlier run later, runs = earlier ++ run :: later →
      run.OnlyStuckFails runtime contract earlier) :
    ∃ streak deferrals,
      Streak runtime contract runs row streak deferrals ∧
      (0 < row.deferAttempts →
        ∃ packet, StuckAt runtime contract streak packet) := by
  induction history with
  | nil =>
      refine ⟨[], [], .empty [] fresh, fun counting => ?_⟩
      rw [fresh] at counting
      exact absurd counting (Nat.lt_irrefl 0)
  | @snoc runs row earlier run isRun reads induction =>
      subst reads
      obtain ⟨streak, deferrals, before, stuckBefore⟩ := induction
        (fun other member => clean other (List.mem_append_left _ member))
        (by
          intro front other back isRuns
          exact only front other (back ++ [run]) (by simp [isRuns]))
      have cleanRun := clean run (List.mem_append_right _ List.mem_cons_self)
      have onlyRun := only runs run [] rfl
      have joins : 0 < run.start.deferAttempts →
          (rowAfter contract run.start run.trace).lastLedger =
            run.start.lastLedger →
          ∃ packet, StuckAt runtime contract (streak ++ [run]) packet := by
        intro counting stays
        obtain ⟨packet, stuck⟩ := stuckBefore counting
        refine ⟨packet, fun other member => ?_⟩
        rcases List.mem_append.mp member with old | new
        · exact stuck other old
        · rw [List.mem_singleton.mp new]
          intro at_ deferred
          exact isRun.deferredAt_stuck ordered counting stays onlyRun
            (before.lastDeferral counting stuck) deferred
      rcases isRun.effect ordered cleanRun rfl with
        zero | ⟨one, packet, deferred⟩ |
        ⟨counting, stays, same | ⟨up, packet, deferred⟩⟩
      · refine ⟨[], [], .empty _ zero, fun counting => ?_⟩
        rw [zero] at counting
        exact absurd counting (Nat.lt_irrefl 0)
      · refine ⟨[run], [run], .single runs one deferred, fun _ => ?_⟩
        refine ⟨packet, fun other member at_ atOther => ?_⟩
        rw [List.mem_singleton.mp member] at atOther
        exact isRun.deferredAt_unique ordered atOther deferred
      · exact ⟨_, _, before.snoc counting rfl stays []
          (List.nil_sublist _) (Nat.le_of_eq same)
          (fun other member => nomatch member), fun _ => joins counting stays⟩
      · refine ⟨_, _, before.snoc counting rfl stays [run]
          (List.Sublist.refl _) (Nat.le_of_eq up) ?_,
          fun _ => joins counting stays⟩
        intro other member
        rw [List.mem_singleton.mp member]
        exact ⟨packet, deferred⟩

/-- The runs right before a skip: at least as many as the limit deferred at
the skipped event, none deferred at another, and the checkpoint did not move
between them. -/
def OwnDeferrals (runtime : Runtime) (contract : ContractName)
    (earlier : List ScanRun) (run : ScanRun) (packet : EventPacket) : Prop :=
  ∃ streak deferrals : List ScanRun, streak <:+ earlier ∧
    deferrals.Sublist streak ∧
    MAX_DEFER_ATTEMPTS ≤ deferrals.length ∧
    (∀ other ∈ deferrals, other.DeferredAt runtime contract packet) ∧
    StuckAt runtime contract streak packet ∧
    ∀ other ∈ streak.tail, other.start.lastLedger = run.start.lastLedger

/-- Where only the event a contract is deferred at fails while its count is
positive, and no retention clamp moves the checkpoint then, every skipped event
had its own deferrals. -/
theorem skipped_events_deferred (ordered : ChainOrdered stream)
    (history : ScanRuns runtime contract stream initial runs row)
    (fresh : initial.deferAttempts = 0)
    (clean : ∀ run ∈ runs, run.ClampsClean)
    (only : ∀ earlier run later, runs = earlier ++ run :: later →
      run.OnlyStuckFails runtime contract earlier) :
    ∀ earlier run later, runs = earlier ++ run :: later →
      ∀ before entry reply after,
        run.trace = before ++ ⟨.deadLetter entry, reply⟩ :: after →
        entry.Skips → ∃ packet error failure,
          entry = skipEntry contract packet error failure ∧
          OwnDeferrals runtime contract earlier run packet := by
  intro earlier run later isRuns before entry reply after isTrace skips
  obtain ⟨start, prior, isRun, reads⟩ := history.split isRuns
  subst reads
  have cleanRun := clean run (by simp [isRuns])
  obtain ⟨undeferred, armed, front, exchange, write, error, failure, isBefore,
    failed, isEntry⟩ := isRun.armedSkip ordered isTrace skips
  have limit : 0 < MAX_DEFER_ATTEMPTS := by decide
  have same : rowAfter contract run.start before = run.start := by
    rcases isRun.summary ordered isTrace with
      progress | ⟨base, packet, _, deferred, _⟩
    · rcases isRun.progress cleanRun isTrace (.inl rfl) progress with
        same | zero
      · exact same
      · omega
    · exact absurd undeferred deferred.not_undeferred
  rw [same] at armed
  obtain ⟨streak, deferrals, backed, stuck⟩ := prior.exists_stuck ordered
    fresh (fun other member => clean other (by simp [isRuns, member]))
    (fun first other rest isEarlier => only first other (rest ++ run :: later)
      (by simp [isRuns, isEarlier]))
  have counting : 0 < run.start.deferAttempts := Nat.lt_of_lt_of_le limit armed
  obtain ⟨packet, stuckAt⟩ := stuck counting
  have cut : run.trace = front ++ exchange ::
      (⟨.deadLetter entry, reply⟩ :: after) := by
    rw [isTrace, isBefore]
    simp
  have unsaved : savedCheckpoint contract exchange = none := by
    obtain ⟨request, answer⟩ := exchange
    cases request with
    | run ran => rfl
    | _ => exact absurd failed id
  have quiet : rowAfter contract run.start front = run.start := by
    rwa [isBefore, rowAfter_quiet unsaved] at same
  have isPacket : write.packet = packet :=
    only earlier run later isRuns front exchange _ write error failure cut
      failed (by rwa [quiet]) packet (backed.lastDeferral counting stuckAt)
  refine ⟨packet, error, failure, isPacket ▸ isEntry, streak, deferrals,
    backed.latest, backed.among, armed.trans backed.counted, ?_, stuckAt,
    backed.still⟩
  intro other member
  obtain ⟨at_, deferred⟩ := backed.deferred other member
  rw [← stuckAt other (backed.among.subset member) at_ deferred]
  exact deferred

/-- A statement that failed was that of a packet of the stream. -/
theorem ScanRun.Of.failed_mem (isRun : run.Of runtime contract stream)
    (ordered : ChainOrdered stream) {before after : Trace}
    {exchange : Exchange indexerHost} {write : EventWrite} {error : Thrown}
    {failure : Failure}
    (isTrace : run.trace = before ++ exchange :: after)
    (failed : ConstraintFailed write error failure exchange) :
    write.packet ∈ stream.filterMap (packetOf contract) := by
  obtain ⟨request, answer⟩ := exchange
  cases request with
  | run ran =>
      have along := isRun.along ordered
      rw [isTrace] at along
      have inside := (Along.at along).1.2
      rw [isRun.isContract] at inside
      rw [← failed.1]
      exact inside
  | _ => exact absurd failed id

theorem ScanRun.Of.deferredAt_mem (isRun : run.Of runtime contract stream)
    (ordered : ChainOrdered stream) {packet : EventPacket}
    (deferred : run.DeferredAt runtime contract packet) :
    packet ∈ stream.filterMap (packetOf contract) := by
  obtain ⟨made, ⟨before, after, isTrace, _⟩, _, front, exchange, write, error,
    failure, isInside, rfl, failed⟩ := deferred
  have cut : run.trace = (before ++ front) ++ exchange ::
      (⟨.wrote contract made.events made.skip made.result, ()⟩ :: after) := by
    rw [isTrace, isInside]
    simp
  exact isRun.failed_mem ordered cut failed

/-- A stream of one packet leaves nothing else to fail. -/
theorem ScanRuns.onlyStuckFails_single (ordered : ChainOrdered stream)
    (history : ScanRuns runtime contract stream initial runs row)
    {packet : EventPacket}
    (single : stream.filterMap (packetOf contract) = [packet]) :
    ∀ earlier run later, runs = earlier ++ run :: later →
      run.OnlyStuckFails runtime contract earlier := by
  intro earlier run later isRuns before exchange after write error failure
    isTrace failed _ other last
  obtain ⟨front, final, back, isEarlier, deferred, _⟩ := last
  obtain ⟨_, _, isRun, _⟩ := history.split isRuns
  have wasRuns : runs = front ++ final :: (back ++ run :: later) := by
    simp [isRuns, isEarlier]
  obtain ⟨_, _, wasRun, _⟩ := history.split wasRuns
  have here := isRun.failed_mem ordered isTrace failed
  have there := wasRun.deferredAt_mem ordered deferred
  rw [single, List.mem_singleton] at here there
  rw [here, there]

end

/-! ## A clamp under a positive count, and two failures on one page -/

/-- Metadata of an agent that was never indexed. -/
def orphanEvent (ledger : Nat) (id : String) : EventResponse :=
  { id, ledger, ledgerClosedAt := "2026-01-01T00:00:00Z", txHash := ""
    inSuccessfulContractCall := true
    topic := [.symbol "metadata_set", .int .u32 7, .string ⟨#[]⟩]
    value := .map [(.symbol "value", .bytes ⟨#[]⟩)] }

def orphanEvents : List EventResponse :=
  [orphanEvent 5 "first", orphanEvent 15 "second"]

/-- A run from ledger zero in which every statement fails. -/
def failingRun (stream : List EventResponse) (oldest deferAttempts : Nat) :
    ScanRun :=
  sampleRun stream ⟨20, oldest⟩ (fun _ => true) .identity
    { lastLedger := 0, deferAttempts }

theorem orphanEvents_ordered : ChainOrdered orphanEvents := by
  simp [ChainOrdered, orphanEvents, orphanEvent]

theorem failingRuns_snoc {stream : List EventResponse}
    {runs : List ScanRun} {count : Nat} (oldest : Nat) (next : Checkpoint)
    (earlier : ScanRuns sampleRuntime .identity stream ⟨0, 0⟩ runs
      ⟨0, count⟩)
    (isNext : rowAfter .identity ⟨0, count⟩
      (failingRun stream oldest count).trace = next) :
    ScanRuns sampleRuntime .identity stream ⟨0, 0⟩
      (runs ++ [failingRun stream oldest count]) next := by
  subst isNext
  exact .snoc earlier _ (sampleRun_of _ _ _ _ _) rfl

theorem failingRuns_one :
    ScanRuns sampleRuntime .identity orphanEvents ⟨0, 0⟩
      [failingRun orphanEvents 1 0] ⟨0, 1⟩ :=
  failingRuns_snoc 1 ⟨0, 1⟩ .nil (by decide +kernel)

theorem skipping_needs_deferrals_orphanEvents :
    ∃ streak deferrals, Streak sampleRuntime .identity
      [failingRun orphanEvents 1 0] ⟨0, 1⟩ streak deferrals := by
  apply (skipping_needs_deferrals orphanEvents_ordered failingRuns_one
    ?_).2.1 rfl
  intro run member _ _
  rw [List.mem_singleton.mp member]
  rfl

/-- Four runs defer at ledger 5; a clamp moves the checkpoint to ledger 9 and
keeps the count; the next failure, at ledger 15, makes it five. -/
theorem clamp_keeps_count :
    ∃ runs, ChainOrdered orphanEvents ∧
      ScanRuns sampleRuntime .identity orphanEvents ⟨0, 0⟩ runs ⟨9, 5⟩ ∧
      ¬ ∃ streak deferrals,
        Streak sampleRuntime .identity runs ⟨9, 5⟩ streak deferrals := by
  refine ⟨[failingRun orphanEvents 1 0, failingRun orphanEvents 1 1,
    failingRun orphanEvents 1 2, failingRun orphanEvents 1 3,
    failingRun orphanEvents 10 4], orphanEvents_ordered, ?_, ?_⟩
  · have two := failingRuns_snoc 1 ⟨0, 2⟩ failingRuns_one (by decide +kernel)
    have three := failingRuns_snoc 1 ⟨0, 3⟩ two (by decide +kernel)
    have four := failingRuns_snoc 1 ⟨0, 4⟩ three (by decide +kernel)
    exact failingRuns_snoc 10 ⟨9, 5⟩ four (by decide +kernel)
  · rintro ⟨streak, deferrals, backed⟩
    have counted : 5 ≤ deferrals.length := backed.counted
    have among := backed.among.length_le
    have whole := backed.latest.eq_of_length_le (by
      simp only [List.length_cons, List.length_nil]
      omega)
    have still := backed.still (failingRun orphanEvents 1 1) (by simp [whole])
    cases still

/-- The identifiers of the statements a trace ran one by one. -/
def ranIds (trace : Trace) : List String :=
  trace.filterMap fun exchange =>
    match exchange.request with
    | .run write => some write.packet.id
    | _ => none

theorem ScanRun.DeferredAt.mem_ranIds {runtime : Runtime}
    {contract : ContractName} {run : ScanRun} {packet : EventPacket}
    (deferred : run.DeferredAt runtime contract packet) :
    packet.id ∈ ranIds run.trace := by
  obtain ⟨made, ⟨before, after, isTrace, _⟩, _, front, exchange, write, error,
    failure, isInside, rfl, failed⟩ := deferred
  apply List.mem_filterMap.mpr
  refine ⟨exchange, by simp [isTrace, isInside], ?_⟩
  obtain ⟨request, answer⟩ := exchange
  cases request with
  | run ran =>
      have isWrite : ran = write := failed.1
      simp [isWrite]
  | _ => exact absurd failed id

/-- Five runs of a stream whose statements all fail. -/
def fiveFailing (stream : List EventResponse) : List ScanRun :=
  [failingRun stream 1 0, failingRun stream 1 1, failingRun stream 1 2,
    failingRun stream 1 3, failingRun stream 1 4]

/-- Five runs defer at the first of two events on a page; the sixth skips
both, and no run ever deferred at the second. -/
theorem second_failure_skipped_with_first :
    ∃ run row before entry reply after,
      ChainOrdered orphanEvents ∧
      ScanRuns sampleRuntime .identity orphanEvents ⟨0, 0⟩
        (fiveFailing orphanEvents ++ [run]) row ∧
      run.trace = before ++ ⟨.deadLetter entry, reply⟩ :: after ∧
      entry.Skips ∧
      ∀ packet error failure,
        entry = skipEntry .identity packet error failure →
        ∀ other ∈ fiveFailing orphanEvents,
          ¬ other.DeferredAt sampleRuntime .identity packet := by
  let run := failingRun orphanEvents 1 5
  have two := failingRuns_snoc 1 ⟨0, 2⟩ failingRuns_one (by decide +kernel)
  have three := failingRuns_snoc 1 ⟨0, 3⟩ two (by decide +kernel)
  have four := failingRuns_snoc 1 ⟨0, 4⟩ three (by decide +kernel)
  have five := failingRuns_snoc 1 ⟨0, 5⟩ four (by decide +kernel)
  refine ⟨run, ⟨20, 0⟩, run.trace.take 7, _, _, run.trace.drop 8,
    orphanEvents_ordered, failingRuns_snoc 1 ⟨20, 0⟩ five (by decide +kernel),
    rfl, .inl rfl, ?_⟩
  intro packet error failure isEntry other member deferred
  have isSecond : some "second" = some packet.id :=
    congrArg DeadLetter.eventId isEntry
  have ran := deferred.mem_ranIds
  rw [← Option.some.inj isSecond] at ran
  have onlyFirst : ∀ other ∈ fiveFailing orphanEvents,
      ranIds other.trace = ["first"] := by decide +kernel
  rw [onlyFirst other member] at ran
  simp at ran

def loneOrphan : List EventResponse := [orphanEvent 5 "first"]

theorem loneOrphan_skipped :
    ∃ before entry reply after, (failingRun loneOrphan 1 5).trace =
      before ++ ⟨.deadLetter entry, reply⟩ :: after ∧ entry.Skips :=
  ⟨(failingRun loneOrphan 1 5).trace.take 5, _, _,
    (failingRun loneOrphan 1 5).trace.drop 6, rfl, .inl rfl⟩

theorem loneOrphan_runs :
    ScanRuns sampleRuntime .identity loneOrphan ⟨0, 0⟩
      (fiveFailing loneOrphan ++ [failingRun loneOrphan 1 5]) ⟨20, 0⟩ := by
  have one : ScanRuns sampleRuntime .identity loneOrphan ⟨0, 0⟩
      [failingRun loneOrphan 1 0] ⟨0, 1⟩ :=
    failingRuns_snoc 1 ⟨0, 1⟩ .nil (by decide +kernel)
  have two := failingRuns_snoc 1 ⟨0, 2⟩ one (by decide +kernel)
  have three := failingRuns_snoc 1 ⟨0, 3⟩ two (by decide +kernel)
  have four := failingRuns_snoc 1 ⟨0, 4⟩ three (by decide +kernel)
  have five := failingRuns_snoc 1 ⟨0, 5⟩ four (by decide +kernel)
  exact failingRuns_snoc 1 ⟨20, 0⟩ five (by decide +kernel)

/-- A single failing event is deferred five times and then skipped. -/
theorem skipped_events_deferred_loneOrphan :
    ∃ packet, OwnDeferrals sampleRuntime .identity (fiveFailing loneOrphan)
      (failingRun loneOrphan 1 5) packet := by
  have ordered : ChainOrdered loneOrphan := by
    simp [ChainOrdered, loneOrphan]
  obtain ⟨before, entry, reply, after, isTrace, skips⟩ := loneOrphan_skipped
  have recent : ∀ run ∈ fiveFailing loneOrphan ++ [failingRun loneOrphan 1 5],
      ¬ run.start.lastLedger + 1 < run.scan.oldest := by decide +kernel
  obtain ⟨packet, _, _, _, own⟩ := skipped_events_deferred ordered
    loneOrphan_runs rfl
    (fun run member _ aged => absurd aged (recent run member))
    (loneOrphan_runs.onlyStuckFails_single ordered rfl)
    (fiveFailing loneOrphan) (failingRun loneOrphan 1 5) [] rfl before entry
    reply after isTrace skips
  exact ⟨packet, own⟩

end Stellar8004.Indexer
