import Stellar8004.Indexer.RunSteps
import Stellar8004.Indexer.ScanRuns
import Stellar8004.Indexer.TimeOrder
import Stellar8004.Library.Threads

/-!
# The lock fences the checkpoints

Any number of runs share the lock row and the checkpoint rows.  Their
statements are served one at a time in any order, each run may be killed
anywhere, and a call may fail or lose its answer.  The clock never goes back
and stays before the year 9999.
-/

namespace Stellar8004.Indexer

open Program

namespace Run

/-! ## Statements -/

structure LockRow where
  acquiredAt : String
  owner : Option String
  deriving DecidableEq

/-- The row the first migration inserts. -/
def copyFence : LockRow :=
  { acquiredAt := "9999-12-31T00:00:00+00:00", owner := some "copy-fence" }

structure StateRow where
  lastLedger : Nat
  updatedAt : String
  expectedNextLedger : Option Nat
  deferAttempts : Nat
  lastAdvancedAt : Option String
  deriving DecidableEq

/-- The clock, the row of the lock, the `indexer_state` rows, and the owners
the lock was given to, the latest first. -/
structure LockState where
  clock : Nat
  lock : Option LockRow
  rows : ContractName → Option StateRow
  grants : List String

namespace LockState

def grant (acquiredAt owner : String) (state : LockState) : LockState :=
  { state with
    lock := some { acquiredAt, owner := some owner }
    grants := owner :: state.grants }

/-- The statement of `acquireLock`, and the owner of the row it returns. -/
def acquire (acquiredAt owner staleBefore : String) (state : LockState) :
    LockState × Option String :=
  match state.lock with
  | none => (state.grant acquiredAt owner, some owner)
  | some row =>
      if row.acquiredAt < staleBefore then
        (state.grant acquiredAt owner, some owner)
      else (state, none)

def HeldBy (owner : String) (state : LockState) : Prop :=
  ∃ row, state.lock = some row ∧ row.owner = some owner

instance (owner : String) (state : LockState) :
    Decidable (state.HeldBy owner) :=
  match found : state.lock with
  | none => isFalse fun ⟨_, isRow, _⟩ => by
      rw [found] at isRow
      cases isRow
  | some row =>
      if same : row.owner = some owner then isTrue ⟨row, found, same⟩
      else isFalse fun ⟨_, isRow, held⟩ => by
        rw [found] at isRow
        cases isRow
        exact same held

/-- The statement of `releaseLock`. -/
def release (owner : String) (state : LockState) : LockState :=
  if state.HeldBy owner then { state with lock := none } else state

/-- The first statement of `saveCheckpoint`, and the rows it changes. -/
def refresh (owner now : String) (state : LockState) : LockState × Nat :=
  if state.HeldBy owner then
    ({ state with
        lock := state.lock.map fun row => { row with acquiredAt := now } }, 1)
  else (state, 0)

/-- The second statement of `saveCheckpoint`. -/
def advance (contract : ContractName) (checkpoint : Checkpoint)
    (owner now : String) (state : LockState) : LockState × Nat :=
  match state.rows contract with
  | none => (state, 0)
  | some row =>
      if row.lastLedger ≤ checkpoint.lastLedger ∧ state.HeldBy owner then
        ({ state with
            rows := Function.update state.rows contract (some
              { lastLedger := checkpoint.lastLedger
                updatedAt := now
                expectedNextLedger := some (checkpoint.lastLedger + 1)
                deferAttempts := checkpoint.deferAttempts
                lastAdvancedAt :=
                  if row.lastLedger < checkpoint.lastLedger then some now
                  else row.lastAdvancedAt }) }, 1)
      else (state, 0)

/-- The batch of `saveCheckpoint`. -/
def save (contract : ContractName) (checkpoint : Checkpoint)
    (owner now : String) (state : LockState) : LockState × (Nat × Nat) :=
  let refreshed := state.refresh owner now
  let advanced := refreshed.1.advance contract checkpoint owner now
  (advanced.1, refreshed.2, advanced.2)

end LockState

/-- Requests that touch neither the lock nor the checkpoints. -/
def Untouched : RunRequest → Prop
  | .connect _ => True
  | .getNetwork => True
  | .resolve _ => True
  | .index .getHealth => True
  | .index (.getEvents _ _) => True
  | .index (.batch _) => True
  | .index (.run _) => True
  | .index (.recordMissing _) => True
  | .index (.deadLetter _) => True
  | .index (.wrote _ _ _ _) => True
  | _ => False

/-- One request of one run. -/
inductive Serves (streams : Streams) (state : LockState) :
    Exchange runHost → LockState → Prop where
  | now : Serves streams state ⟨.now, state.clock⟩ state
  | indexNow : Serves streams state ⟨.index .now, state.clock⟩ state
  | acquired (acquiredAt owner staleBefore : String) :
      Serves streams state
        ⟨.acquireLock acquiredAt owner staleBefore,
          .answered (state.acquire acquiredAt owner staleBefore).2⟩
        (state.acquire acquiredAt owner staleBefore).1
  | acquireFailed (acquiredAt owner staleBefore : String) (error : Thrown) :
      Serves streams state
        ⟨.acquireLock acquiredAt owner staleBefore, .failed error⟩ state
  | acquireLost (acquiredAt owner staleBefore : String) (error : Thrown) :
      Serves streams state
        ⟨.acquireLock acquiredAt owner staleBefore, .lost error⟩
        (state.acquire acquiredAt owner staleBefore).1
  | released (owner : String) :
      Serves streams state ⟨.releaseLock owner, .answered ()⟩
        (state.release owner)
  | releaseFailed (owner : String) (error : Thrown) :
      Serves streams state ⟨.releaseLock owner, .failed error⟩ state
  | releaseLost (owner : String) (error : Thrown) :
      Serves streams state ⟨.releaseLock owner, .lost error⟩
        (state.release owner)
  | read :
      Serves streams state
        ⟨.index .readCheckpoints, .ok fun contract =>
          (state.rows contract).map fun row =>
            { lastLedger := row.lastLedger
              deferAttempts := row.deferAttempts }⟩ state
  | unread (error : Thrown) :
      Serves streams state ⟨.index .readCheckpoints, .error error⟩ state
  | saved (contract : ContractName) (checkpoint : Checkpoint)
      (owner now : String) :
      Serves streams state
        ⟨.index (.saveCheckpoint contract checkpoint owner now),
          .answered (state.save contract checkpoint owner now).2⟩
        (state.save contract checkpoint owner now).1
  | saveFailed (contract : ContractName) (checkpoint : Checkpoint)
      (owner now : String) (error : Thrown) :
      Serves streams state
        ⟨.index (.saveCheckpoint contract checkpoint owner now),
          .failed error⟩ state
  | saveLost (contract : ContractName) (checkpoint : Checkpoint)
      (owner now : String) (error : Thrown) :
      Serves streams state
        ⟨.index (.saveCheckpoint contract checkpoint owner now),
          .lost error⟩ (state.save contract checkpoint owner now).1
  | other {request : RunRequest} {reply : request.Answer}
      (untouched : Untouched request)
      (answers : NodesAnswerRun streams ⟨request, reply⟩) :
      Serves streams state ⟨request, reply⟩ state

/-- Time passes. -/
def Ticks (state after : LockState) : Prop :=
  ∃ time, state.clock ≤ time ∧ Int.ofNat time < year9999 ∧
    after = { state with clock := time }

theorem Serves.nodesAnswer {streams : Streams} {state after : LockState}
    {exchange : Exchange runHost}
    (served : Serves streams state exchange after) :
    NodesAnswerRun streams exchange := by
  cases served with
  | other untouched answers => exact answers
  | _ =>
      rintro shown isShown
      cases isShown <;> exact fun _ => trivial

/-! ## What a request does -/

/-- A request leaves the state alone, takes the lock, frees it, or saves a
checkpoint under it. -/
inductive Effect (state : LockState) : RunRequest → LockState → Prop where
  | unchanged (request : RunRequest) : Effect state request state
  | granted (acquiredAt owner staleBefore : String)
      (stale : ∀ row, state.lock = some row →
        row.acquiredAt < staleBefore) :
      Effect state (.acquireLock acquiredAt owner staleBefore)
        (state.grant acquiredAt owner)
  | freed (owner : String) (held : state.HeldBy owner) :
      Effect state (.releaseLock owner) { state with lock := none }
  | saved (contract : ContractName) (checkpoint : Checkpoint)
      (owner now : String) (held : state.HeldBy owner) :
      Effect state (.index (.saveCheckpoint contract checkpoint owner now))
        (state.save contract checkpoint owner now).1

section

variable {streams : Streams} {state after : LockState}
  {exchange : Exchange runHost}

theorem acquire_effect (state : LockState)
    (acquiredAt owner staleBefore : String) :
    Effect state (.acquireLock acquiredAt owner staleBefore)
      (state.acquire acquiredAt owner staleBefore).1 := by
  unfold LockState.acquire
  split
  · rename_i free
    apply Effect.granted
    intro row isRow
    rw [free] at isRow
    cases isRow
  · rename_i row found
    split
    · rename_i stale
      apply Effect.granted
      intro other isRow
      rw [found] at isRow
      cases isRow
      exact stale
    · exact .unchanged _

theorem release_effect (state : LockState) (owner : String) :
    Effect state (.releaseLock owner) (state.release owner) := by
  unfold LockState.release
  split
  · rename_i held
    exact .freed owner held
  · exact .unchanged _

theorem save_unheld {contract : ContractName} {checkpoint : Checkpoint}
    {owner now : String} (unheld : ¬ state.HeldBy owner) :
    state.save contract checkpoint owner now = (state, 0, 0) := by
  unfold LockState.save LockState.refresh LockState.advance
  rw [if_neg unheld]
  dsimp only
  split
  · rfl
  · rw [if_neg fun both => unheld both.2]

theorem save_effect (state : LockState) (contract : ContractName)
    (checkpoint : Checkpoint) (owner now : String) :
    Effect state (.index (.saveCheckpoint contract checkpoint owner now))
      (state.save contract checkpoint owner now).1 := by
  by_cases held : state.HeldBy owner
  · exact .saved contract checkpoint owner now held
  · rw [save_unheld held]
    exact .unchanged _

theorem Serves.effect (served : Serves streams state exchange after) :
    Effect state exchange.request after := by
  cases served with
  | acquired acquiredAt owner staleBefore =>
      exact acquire_effect state acquiredAt owner staleBefore
  | acquireLost acquiredAt owner staleBefore error =>
      exact acquire_effect state acquiredAt owner staleBefore
  | released owner => exact release_effect state owner
  | releaseLost owner error => exact release_effect state owner
  | saved contract checkpoint owner now =>
      exact save_effect state contract checkpoint owner now
  | saveLost contract checkpoint owner now error =>
      exact save_effect state contract checkpoint owner now
  | _ => exact .unchanged _

theorem save_clock (contract : ContractName) (checkpoint : Checkpoint)
    (owner now : String) :
    (state.save contract checkpoint owner now).1.clock = state.clock := by
  unfold LockState.save LockState.refresh LockState.advance
  dsimp only
  split <;> split <;> try split
  all_goals rfl

theorem save_grants (contract : ContractName) (checkpoint : Checkpoint)
    (owner now : String) :
    (state.save contract checkpoint owner now).1.grants = state.grants := by
  unfold LockState.save LockState.refresh LockState.advance
  dsimp only
  split <;> split <;> try split
  all_goals rfl

/-- A save under the lock stamps the lock. -/
theorem save_lock {contract : ContractName} {checkpoint : Checkpoint}
    {owner now : String} (held : state.HeldBy owner) :
    (state.save contract checkpoint owner now).1.lock =
      some { acquiredAt := now, owner := some owner } := by
  obtain ⟨row, isRow, isOwner⟩ := held
  have heldBy : state.HeldBy owner := ⟨row, isRow, isOwner⟩
  unfold LockState.save LockState.refresh LockState.advance
  rw [if_pos heldBy]
  dsimp only
  split <;> try split
  all_goals simp [isRow, isOwner]

/-- A save changes its own contract's row, and never to a lower ledger. -/
theorem save_rows (contract : ContractName) (checkpoint : Checkpoint)
    (owner now : String) :
    (state.save contract checkpoint owner now).1.rows = state.rows ∨
      ∃ row next, state.rows contract = some row ∧
        row.lastLedger ≤ checkpoint.lastLedger ∧
        next.lastLedger = checkpoint.lastLedger ∧
        (state.save contract checkpoint owner now).1.rows =
          Function.update state.rows contract (some next) := by
  have refreshed : (state.refresh owner now).1.rows = state.rows := by
    unfold LockState.refresh
    split <;> rfl
  unfold LockState.save LockState.advance
  dsimp only
  rw [refreshed]
  split
  · exact .inl refreshed
  · rename_i row found
    split
    · rename_i guarded
      exact .inr ⟨row, _, found, guarded.1, rfl, rfl⟩
    · exact .inl refreshed

theorem Effect.clock {request : RunRequest}
    (effect : Effect state request after) : after.clock = state.clock := by
  cases effect with
  | saved contract checkpoint owner now held =>
      exact save_clock contract checkpoint owner now
  | _ => rfl

/-- No request moves a row's ledger back. -/
theorem Effect.grows {request : RunRequest}
    (effect : Effect state request after) {contract : ContractName}
    {row : StateRow} (isRow : state.rows contract = some row) :
    ∃ next, after.rows contract = some next ∧
      row.lastLedger ≤ next.lastLedger := by
  cases effect with
  | saved saved checkpoint owner now held =>
      rcases save_rows saved checkpoint owner now with
        same | ⟨old, next, isOld, grows, isNext, moved⟩
      · rw [same]
        exact ⟨row, isRow, Nat.le_refl _⟩
      · rw [moved]
        by_cases own : contract = saved
        · subst own
          rw [isOld] at isRow
          cases isRow
          rw [Function.update_self]
          exact ⟨next, rfl, isNext ▸ grows⟩
        · rw [Function.update_of_ne own]
          exact ⟨row, isRow, Nat.le_refl _⟩
  | _ => exact ⟨row, isRow, Nat.le_refl _⟩

/-- The clock answers with its time. -/
theorem Serves.now_eq {time : Nat}
    (served : Serves streams state ⟨.now, time⟩ after) :
    time = state.clock := by
  cases served with
  | now => rfl
  | other untouched answers => exact absurd untouched id

/-- Without the lock a save changes no lock. -/
theorem Serves.save_lost {contract : ContractName} {checkpoint : Checkpoint}
    {owner now : String} {lock rows : Nat}
    (served : Serves streams state
      ⟨.index (.saveCheckpoint contract checkpoint owner now),
        .answered (lock, rows)⟩ after)
    (unheld : ¬ state.HeldBy owner) : lock = 0 := by
  generalize isAnswer : (lock, rows) = answer at served
  cases served with
  | saved =>
      rw [save_unheld unheld] at isAnswer
      cases isAnswer
      rfl
  | other untouched answers => exact absurd untouched id

theorem Serves.indexNow_eq {time : Nat}
    (served : Serves streams state ⟨.index .now, time⟩ after) :
    time = state.clock := by
  cases served with
  | indexNow => rfl
  | other untouched answers => exact absurd untouched id

end

/-! ## What a run has processed -/

/-- The run has handed over every event between the checkpoint it read and the
ledger. -/
def Processed (runtime : Runtime) (streams : Streams)
    (contract : ContractName) (past : List (Exchange runHost))
    (ledger : Nat) : Prop :=
  ∃ (read : ContractName → Checkpoint) (before inside : Trace),
    indexTrace past = before ++ inside ∧
    (⟨.readCheckpoints, .ok fun contract => some (read contract)⟩ :
      Exchange indexerHost) ∈ before ∧
    ∀ event ∈ streams contract, (read contract).lastLedger < event.ledger →
      event.ledger ≤ ledger →
        Handed runtime contract (streams contract) (read contract) inside
          event

/-- The same, but for the ledgers that a retention clamp skipped and
dead-lettered because `ALLOW_RETENTION_CLAMP` allows it. -/
def ProcessedOrClamped (runtime : Runtime) (env : Env) (streams : Streams)
    (contract : ContractName) (past : List (Exchange runHost))
    (ledger : Nat) : Prop :=
  ∃ (read : ContractName → Checkpoint) (before inside : Trace),
    indexTrace past = before ++ inside ∧
    (⟨.readCheckpoints, .ok fun contract => some (read contract)⟩ :
      Exchange indexerHost) ∈ before ∧
    ∀ event ∈ streams contract, (read contract).lastLedger < event.ledger →
      event.ledger ≤ ledger →
        Handed runtime contract (streams contract) (read contract) inside
          event ∨
        env.ALLOW_RETENTION_CLAMP = some "true" ∧
          ClampedAway contract inside event

/-- Every row's ledger is the one at the start, or was saved by a run that
`processed` it before. -/
def Written {ι : Type*} [DecidableEq ι] (owners : ι → String)
    (processed : ι → ContractName → List (Exchange runHost) → Nat → Prop)
    (start : LockState) (log : List (ι × Exchange runHost))
    (state : LockState) : Prop :=
  ∀ contract row, state.rows contract = some row →
    (∃ first, start.rows contract = some first ∧
      first.lastLedger = row.lastLedger) ∨
    ∃ earlier thread checkpoint now reply later,
      log = earlier ++ (thread,
        ⟨.index (.saveCheckpoint contract checkpoint (owners thread) now),
          reply⟩) :: later ∧
      checkpoint.lastLedger = row.lastLedger ∧
      processed thread contract (ofThread thread earlier) row.lastLedger

section

variable {runtime : Runtime} {env : Env} {owner : String}
  {streams : Streams} {past : List (Exchange runHost)}

/-- What a run has processed when it saves a checkpoint. -/
theorem RunStep.processed {contract : ContractName}
    {checkpoint : Checkpoint} {asked now : String}
    {reply : Reply (Nat × Nat)}
    (step : RunStep runtime env owner streams past
      ⟨.index (.saveCheckpoint contract checkpoint asked now), reply⟩) :
    asked = owner ∧
      ProcessedOrClamped runtime env streams contract past
        checkpoint.lastLedger := by
  obtain ⟨_, _, deadlineMs, outside | ⟨scan, rows, health, before, inside,
    isAt⟩⟩ := step
  · exact absurd outside id
  · obtain ⟨rfl, isOwner, _, _, covered⟩ := isAt.step.1
    refine ⟨isOwner.trans isAt.owner, rows, before, inside, isAt.trace,
      isAt.read.checkpoints, ?_⟩
    intro event member above below
    rcases covered event member above below with handed | clamped
    · exact .inl handed
    · refine .inr ⟨?_, clamped⟩
      have allowed := isAt.clamp_allowed clamped
      simpa [indexOptions] using allowed

/-- The times a run has read are of the clock. -/
theorem RunStep.stamp {contract : ContractName} {checkpoint : Checkpoint}
    {asked now : String} {reply : Reply (Nat × Nat)}
    (step : RunStep runtime env owner streams past
      ⟨.index (.saveCheckpoint contract checkpoint asked now), reply⟩) :
    ∃ time : Nat, (⟨.index .now, time⟩ : Exchange runHost) ∈ past ∧
      pgTime runtime (.date (some (Int.ofNat time))) = .ok now := by
  obtain ⟨_, ⟨time, member, written⟩, _⟩ := step
  refine ⟨time, ?_, written⟩
  obtain ⟨⟨request, answer⟩, inside, isShown⟩ := List.mem_filterMap.mp member
  cases request with
  | index request =>
      cases Option.some.inj isShown
      exact inside
  | _ => cases isShown

end

/-! ## The invariant -/

/-- The clock at the start is before the year 9999, nothing was granted yet,
and the lock is free, fenced or held by a run that is not among these. -/
structure Ready {ι : Type*} (owners : ι → String) (start : LockState) :
    Prop where
  before : Int.ofNat start.clock < year9999
  ungranted : start.grants = []
  stamped : ∀ row, start.lock = some row →
    row.acquiredAt = copyFence.acquiredAt ∨
      ∃ time : Nat, time ≤ start.clock ∧
        row.acquiredAt = pgText (Int.ofNat time)
  other : ∀ row thread, start.lock = some row →
    row.owner ≠ some (owners thread)

/-- What holds of the clock, the lock and the grants at every moment. -/
structure Fenced {ι : Type*} (owners : ι → String)
    (log : List (ι × Exchange runHost)) (state : LockState) : Prop where
  before : Int.ofNat state.clock < year9999
  read : ∀ thread (time : Nat),
    (thread, (⟨.now, time⟩ : Exchange runHost)) ∈ log → time ≤ state.clock
  readInside : ∀ thread (time : Nat),
    (thread, (⟨.index .now, time⟩ : Exchange runHost)) ∈ log →
      time ≤ state.clock
  stamped : ∀ row, state.lock = some row →
    row.acquiredAt = copyFence.acquiredAt ∨
      ∃ time : Nat, time ≤ state.clock ∧
        row.acquiredAt = pgText (Int.ofNat time)
  holder : ∀ thread, state.HeldBy (owners thread) →
    state.grants.head? = some (owners thread)
  asked : ∀ owner ∈ state.grants, ∃ thread acquiredAt asked staleBefore reply,
    owners thread = owner ∧ (thread, (⟨.acquireLock acquiredAt asked
      staleBefore, reply⟩ : Exchange runHost)) ∈ log
  once : state.grants.Nodup

section

variable {ι : Type*} {runtime : Runtime} {envs : ι → Env}
  {owners : ι → String} {streams : Streams} {start state after : LockState}
  {log : List (ι × Exchange runHost)} {thread : ι}
  {exchange : Exchange runHost}

theorem Ready.fenced (ready : Ready owners start) : Fenced owners [] start where
  before := ready.before
  read := fun _ _ member => nomatch member
  readInside := fun _ _ member => nomatch member
  stamped := ready.stamped
  holder := by
    rintro thread ⟨row, isRow, isOwner⟩
    exact absurd isOwner (ready.other row thread isRow)
  asked := by
    intro owner member
    rw [ready.ungranted] at member
    cases member
  once := by
    rw [ready.ungranted]
    exact List.nodup_nil

theorem Fenced.ticks (fenced : Fenced owners log state)
    (ticks : Ticks state after) : Fenced owners log after := by
  obtain ⟨time, later, before, rfl⟩ := ticks
  refine ⟨before, ?_, ?_, ?_, fenced.holder, fenced.asked, fenced.once⟩
  · intro thread read member
    exact (fenced.read thread read member).trans later
  · intro thread read member
    exact (fenced.readInside thread read member).trans later
  · intro row isRow
    rcases fenced.stamped row isRow with fence | ⟨read, early, text⟩
    · exact .inl fence
    · exact .inr ⟨read, early.trans later, text⟩

/-- A time the clock has shown, and a lock's lifetime before it. -/
theorem Fenced.recent (fenced : Fenced owners log state) {time back : Nat}
    (early : time ≤ state.clock) (short : back ≤ LOCK_STALE_MS) :
    -msPerDay ≤ Int.ofNat time - Int.ofNat back ∧
      Int.ofNat time - Int.ofNat back < year9999 := by
  have before := fenced.before
  have clock : Int.ofNat time ≤ Int.ofNat state.clock :=
    Int.ofNat_le.mpr early
  have positive : 0 ≤ Int.ofNat time := Int.natCast_nonneg time
  have some : 0 ≤ Int.ofNat back := Int.natCast_nonneg back
  have most : Int.ofNat back ≤ Int.ofNat LOCK_STALE_MS :=
    Int.ofNat_le.mpr short
  have day : Int.ofNat LOCK_STALE_MS ≤ msPerDay := by decide
  omega

theorem Fenced.digits (fenced : Fenced owners log state) {time : Nat}
    (early : time ≤ state.clock) : FourDigits (Int.ofNat time) := by
  have recent := fenced.recent early (Nat.zero_le LOCK_STALE_MS)
  have same : Int.ofNat time - Int.ofNat 0 = Int.ofNat time := Int.sub_zero _
  rw [same] at recent
  exact fourDigits_of_recent recent.1 recent.2

/-- The text of a time the run has read. -/
theorem Fenced.text (fenced : Fenced owners log state) {time : Nat}
    (early : time ≤ state.clock) {text : String}
    (written : pgTime runtime (.date (some (Int.ofNat time))) = .ok text) :
    text = pgText (Int.ofNat time) := by
  rw [pgTime_date runtime (fenced.digits early)] at written
  exact (Except.ok.inj written).symm

/-- The lock a run takes over has gone stale. -/
theorem Fenced.stale (fenced : Fenced owners log state) {time : Nat}
    (early : time ≤ state.clock) {row : LockRow}
    (isRow : state.lock = some row)
    (older : row.acquiredAt <
      pgText (Int.ofNat time - Int.ofNat LOCK_STALE_MS)) :
    ∃ acquired : Nat, row.acquiredAt = pgText (Int.ofNat acquired) ∧
      acquired + LOCK_STALE_MS < state.clock := by
  obtain ⟨recent, before⟩ := fenced.recent early (Nat.le_refl LOCK_STALE_MS)
  rcases fenced.stamped row isRow with fence | ⟨acquired, past, text⟩
  · rw [fence] at older
    have newer := pgText_lt_fence recent before
    exact absurd older (String.lt_asymm newer)
  · refine ⟨acquired, text, ?_⟩
    rw [text] at older
    have less := lt_of_pgText_lt older (fenced.digits past)
      (fourDigits_of_recent recent before)
    simp only [Int.ofNat_eq_natCast] at less
    omega

/-- The text of a time the clock has shown is not the copy fence's. -/
theorem Fenced.not_fence (fenced : Fenced owners log state) {time : Nat}
    (early : time + LOCK_STALE_MS < state.clock)
    (same : copyFence.acquiredAt = pgText (Int.ofNat time)) : False := by
  have past : time ≤ state.clock := by omega
  obtain ⟨recent, before⟩ := fenced.recent past (Nat.zero_le LOCK_STALE_MS)
  have isTime : Int.ofNat time - Int.ofNat 0 = Int.ofNat time :=
    Int.sub_zero _
  rw [isTime] at recent before
  have less := pgText_lt_fence recent before
  rw [← same] at less
  exact String.lt_irrefl _ less

/-- The runs, each with its own settings and owner. -/
def runs (runtime : Runtime) (rounds : ι → Nat) (envs : ι → Env)
    (owners : ι → String) (thread : ι) : RunTask RunResult :=
  runOnce runtime (rounds thread) (envs thread) (owners thread)

variable [DecidableEq ι]

/-- What a run asks when it asks for the lock, which it does once. -/
theorem Fenced.acquire (fenced : Fenced owners log state)
    (distinct : Function.Injective owners)
    {acquiredAt asked staleBefore : String} {reply : Reply (Option String)}
    (step : RunStep runtime (envs thread) (owners thread) streams
      (ofThread thread log)
      ⟨.acquireLock acquiredAt asked staleBefore, reply⟩) :
    asked = owners thread ∧ owners thread ∉ state.grants ∧
      ∃ time : Nat, time ≤ state.clock ∧
        acquiredAt = pgText (Int.ofNat time) ∧
        staleBefore = pgText (Int.ofNat time - Int.ofNat LOCK_STALE_MS) := by
  obtain ⟨isOwner, started, time, past, acquired, stale⟩ := step
  have early : time ≤ state.clock := by
    apply fenced.read thread time
    apply mem_of_mem_ofThread
    rw [past]
    simp
  refine ⟨isOwner, ?_, time, early, fenced.text early acquired, ?_⟩
  · intro granted
    obtain ⟨other, otherAt, otherAsked, otherStale, otherReply, same,
      member⟩ := fenced.asked _ granted
    obtain rfl := distinct same
    have inside := mem_ofThread member
    rw [past] at inside
    simp at inside
  · obtain ⟨recent, before⟩ :=
      fenced.recent early (Nat.le_refl LOCK_STALE_MS)
    rw [pgTime_date runtime (fourDigits_of_recent recent before)] at stale
    exact (Except.ok.inj stale).symm

theorem Fenced.exchanged (fenced : Fenced owners log state)
    (distinct : Function.Injective owners)
    (step : RunStep runtime (envs thread) (owners thread) streams
      (ofThread thread log) exchange)
    (served : Serves streams state exchange after) :
    Fenced owners (log ++ [(thread, exchange)]) after := by
  have clock := served.effect.clock
  have read : ∀ other (time : Nat),
      (other, (⟨.now, time⟩ : Exchange runHost)) ∈
        log ++ [(thread, exchange)] → time ≤ after.clock := by
    intro other time member
    rw [clock]
    rcases List.mem_append.mp member with old | new
    · exact fenced.read other time old
    · cases List.mem_singleton.mp new
      exact Nat.le_of_eq served.now_eq
  have readInside : ∀ other (time : Nat),
      (other, (⟨.index .now, time⟩ : Exchange runHost)) ∈
        log ++ [(thread, exchange)] → time ≤ after.clock := by
    intro other time member
    rw [clock]
    rcases List.mem_append.mp member with old | new
    · exact fenced.readInside other time old
    · cases List.mem_singleton.mp new
      exact Nat.le_of_eq served.indexNow_eq
  have asked : ∀ owner ∈ state.grants,
      ∃ other acquiredAt asked staleBefore reply, owners other = owner ∧
        (other, (⟨.acquireLock acquiredAt asked staleBefore, reply⟩ :
          Exchange runHost)) ∈ log ++ [(thread, exchange)] := by
    intro owner member
    obtain ⟨other, acquiredAt, asked, staleBefore, reply, same, inside⟩ :=
      fenced.asked owner member
    exact ⟨other, acquiredAt, asked, staleBefore, reply, same,
      List.mem_append_left _ inside⟩
  have before : Int.ofNat after.clock < year9999 := by
    rw [clock]
    exact fenced.before
  obtain ⟨request, reply⟩ := exchange
  cases served.effect with
  | unchanged =>
      exact ⟨before, read, readInside, fenced.stamped, fenced.holder, asked,
        fenced.once⟩
  | granted acquiredAt owner staleBefore stale =>
      obtain ⟨rfl, fresh, time, early, text, _⟩ :=
        fenced.acquire distinct step
      refine ⟨before, read, readInside, ?_, ?_, ?_,
        List.nodup_cons.mpr ⟨fresh, fenced.once⟩⟩
      · rintro row ⟨⟩
        exact .inr ⟨time, early, text⟩
      · rintro other ⟨row, ⟨⟩, same⟩
        exact same
      · intro owner member
        rcases List.mem_cons.mp member with rfl | old
        · exact ⟨thread, acquiredAt, _, staleBefore, reply, rfl, by simp⟩
        · exact asked owner old
  | freed owner held =>
      refine ⟨before, read, readInside, ?_, ?_, asked, fenced.once⟩
      · rintro row ⟨⟩
      · rintro other ⟨row, ⟨⟩, _⟩
  | saved contract checkpoint owner now held =>
      obtain ⟨rfl, _⟩ := step.processed
      obtain ⟨time, member, written⟩ := step.stamp
      have early : time ≤ state.clock :=
        fenced.readInside thread time (mem_of_mem_ofThread member)
      have grants : (state.save contract checkpoint (owners thread)
          now).1.grants = state.grants :=
        save_grants contract checkpoint (owners thread) now
      refine ⟨before, read, readInside, ?_, ?_, ?_, ?_⟩
      · intro row isRow
        rw [save_lock held] at isRow
        cases isRow
        rw [clock]
        exact .inr ⟨time, early, fenced.text early written⟩
      · rintro other ⟨row, isRow, isOwner⟩
        rw [save_lock held] at isRow
        cases isRow
        rw [grants, ← isOwner]
        exact fenced.holder thread held
      · rw [grants]
        exact asked
      · rw [grants]
        exact fenced.once

theorem Written.append
    {processed : ι → ContractName → List (Exchange runHost) → Nat → Prop}
    (written : Written owners processed start log state)
    (same : after.rows = state.rows) (later : List (ι × Exchange runHost)) :
    Written owners processed start (log ++ later) after := by
  intro contract row isRow
  rw [same] at isRow
  rcases written contract row isRow with first | ⟨earlier, thread, checkpoint,
    now, reply, rest, isLog, ledger, isProcessed⟩
  · exact .inl first
  · exact .inr ⟨earlier, thread, checkpoint, now, reply, rest ++ later,
      by simp [isLog], ledger, isProcessed⟩

theorem Written.exchanged
    (written : Written owners
      (fun thread => ProcessedOrClamped runtime (envs thread) streams) start
      log state)
    (step : RunStep runtime (envs thread) (owners thread) streams
      (ofThread thread log) exchange)
    (served : Serves streams state exchange after) :
    Written owners
      (fun thread => ProcessedOrClamped runtime (envs thread) streams) start
      (log ++ [(thread, exchange)]) after := by
  obtain ⟨request, reply⟩ := exchange
  cases served.effect with
  | unchanged => exact written.append rfl _
  | granted acquiredAt owner staleBefore stale => exact written.append rfl _
  | freed owner held => exact written.append rfl _
  | saved saved checkpoint owner now held =>
      obtain ⟨rfl, isProcessed⟩ := step.processed
      rcases save_rows saved checkpoint (owners thread) now with
        same | ⟨old, next, _, _, isNext, moved⟩
      · exact written.append same _
      · intro contract row isRow
        rw [moved] at isRow
        by_cases own : contract = saved
        · subst own
          rw [Function.update_self] at isRow
          cases isRow
          exact .inr ⟨log, thread, checkpoint, now, reply, [], rfl,
            isNext.symm, isNext ▸ isProcessed⟩
        · rw [Function.update_of_ne own] at isRow
          exact written.append rfl _ contract row isRow

/-! ## What the lock guards -/

/-- What the lock allows the run of `owner` in one exchange. -/
structure Guarded (runtime : Runtime) (owner : String) (state : LockState)
    (exchange : Exchange runHost) (after : LockState) : Prop where
  /-- A checkpoint is saved by the latest holder only; the others throw. -/
  saves : ∀ contract checkpoint asked now reply (time : Nat) final,
    exchange = ⟨.index (.saveCheckpoint contract checkpoint asked now),
      reply⟩ →
    (saveCheckpoint runtime contract checkpoint asked).Yields
      [⟨.now, time⟩, ⟨.saveCheckpoint contract checkpoint asked now, reply⟩]
      (some final) →
    (final = .returned () → state.grants.head? = some owner) ∧
      (state.grants.head? ≠ some owner → ∃ error, final = .threw error)
  outrun : state.grants.head? ≠ some owner → after.rows = state.rows
  grows : ∀ contract row, state.rows contract = some row →
    ∃ next, after.rows contract = some next ∧
      row.lastLedger ≤ next.lastLedger
  /-- A lock that is held is taken over only when it is stale. -/
  takes : ∀ acquiredAt asked staleBefore row,
    exchange.request = .acquireLock acquiredAt asked staleBefore →
    state.lock = some row → after ≠ state →
      ∃ acquired : Nat, row.acquiredAt = pgText (Int.ofNat acquired) ∧
        acquired + LOCK_STALE_MS < state.clock
  releases : ∀ asked row, exchange.request = .releaseLock asked →
    state.lock = some row → row.owner ≠ some owner → after = state
  fence : ∀ acquiredAt asked staleBefore,
    exchange.request = .acquireLock acquiredAt asked staleBefore →
    state.lock = some copyFence → after = state

/-- `saveCheckpoint` returns or throws. -/
theorem saveCheckpoint_final {contract : ContractName}
    {checkpoint : Checkpoint} {owner now : String} {time : Nat}
    {reply : Reply (Nat × Nat)} {final : Final indexerHost Unit}
    (yields : (saveCheckpoint runtime contract checkpoint owner).Yields
      [⟨.now, time⟩, ⟨.saveCheckpoint contract checkpoint owner now, reply⟩]
      (some final)) :
    (final = .returned () ∧ ∃ lock rows, reply = .answered (lock, rows) ∧
      lock ≠ 0) ∨ ∃ error, final = .threw error := by
  rw [saveCheckpoint, bind_eq, pgNow, bind_eq, Indexer.call_bind] at yields
  cases yields with
  | asked _ _ later =>
      cases written : pgTime runtime (.date (some (Int.ofNat time))) with
      | error message =>
          simp only [written, throws_bind] at later
          cases later
      | ok text =>
          simp only [written, pure_eq, returns_bind, bind_eq] at later
          cases later with
          | asked _ _ ends =>
              cases reply with
              | answered changes =>
                  obtain ⟨lock, rows⟩ := changes
                  simp only [returns_bind, Reply.result] at ends
                  split at ends
                  · cases ends
                    exact .inr ⟨_, rfl⟩
                  · rename_i kept
                    split at ends
                    · cases ends
                      exact .inr ⟨_, rfl⟩
                    · cases ends
                      exact .inl ⟨rfl, lock, rows, rfl, kept⟩
              | failed error =>
                  cases ends
                  exact .inr ⟨_, rfl⟩
              | lost error =>
                  cases ends
                  exact .inr ⟨_, rfl⟩

theorem Fenced.guarded (fenced : Fenced owners log state)
    (distinct : Function.Injective owners)
    (step : RunStep runtime (envs thread) (owners thread) streams
      (ofThread thread log) exchange)
    (served : Serves streams state exchange after) :
    Guarded runtime (owners thread) state exchange after := by
  have unheld : state.grants.head? ≠ some (owners thread) →
      ¬ state.HeldBy (owners thread) :=
    fun other held => other (fenced.holder thread held)
  have stale : ∀ {acquiredAt asked staleBefore : String} (row : LockRow),
      state.lock = some row → ∀ reply,
      RunStep runtime (envs thread) (owners thread) streams
        (ofThread thread log)
        ⟨.acquireLock acquiredAt asked staleBefore, reply⟩ →
      Serves streams state
        ⟨.acquireLock acquiredAt asked staleBefore, reply⟩ after →
      after ≠ state →
        ∃ acquired : Nat, row.acquiredAt = pgText (Int.ofNat acquired) ∧
          acquired + LOCK_STALE_MS < state.clock := by
    intro acquiredAt asked staleBefore row isRow reply step served changed
    obtain ⟨_, _, time, early, _, rfl⟩ := fenced.acquire distinct step
    cases served.effect with
    | unchanged => exact absurd rfl changed
    | granted _ _ _ isStale =>
        exact fenced.stale early isRow (isStale row isRow)
  refine ⟨?_, ?_, ?_, ?_, ?_, ?_⟩
  · rintro contract checkpoint asked now reply time final rfl yields
    obtain ⟨rfl, _⟩ := step.processed
    rcases saveCheckpoint_final yields with
      ⟨rfl, lock, rows, rfl, kept⟩ | ⟨error, rfl⟩
    · have held : state.HeldBy (owners thread) := by
        by_contra lost
        exact kept (served.save_lost lost)
      have latest := fenced.holder thread held
      exact ⟨fun _ => latest, fun other => absurd latest other⟩
    · exact ⟨fun never => (nomatch never), fun _ => ⟨error, rfl⟩⟩
  · intro other
    obtain ⟨request, reply⟩ := exchange
    cases served.effect with
    | saved contract checkpoint owner now held =>
        obtain ⟨rfl, _⟩ := step.processed
        exact absurd held (unheld other)
    | _ => rfl
  · intro contract row isRow
    exact served.effect.grows isRow
  · intro acquiredAt asked staleBefore row isRequest isRow changed
    obtain ⟨request, reply⟩ := exchange
    subst isRequest
    exact stale row isRow reply step served changed
  · intro asked row isRequest isRow other
    obtain ⟨request, reply⟩ := exchange
    subst isRequest
    obtain rfl : asked = owners thread := step
    cases served.effect with
    | unchanged => rfl
    | freed owner held =>
        obtain ⟨holder, isHolder, isOwner⟩ := held
        rw [isRow] at isHolder
        cases isHolder
        exact absurd isOwner other
  · intro acquiredAt asked staleBefore isRequest isFence
    obtain ⟨request, reply⟩ := exchange
    subst isRequest
    by_contra changed
    obtain ⟨acquired, isFenced, early⟩ :=
      stale copyFence isFence reply step served changed
    exact fenced.not_fence early isFenced

/-- Runs with distinct owners, their statements in any order, killed anywhere:
at every moment each checkpoint was saved by a run that had processed all up
to it, nobody was given the lock twice, and the lock guards what comes
next. -/
theorem lock_fences_checkpoints
    (distinct : Function.Injective owners) (rounds : ι → Nat)
    (ordered : ∀ contract, ChainOrdered (streams contract))
    (ready : Ready owners start)
    (run : Interleaved (runs runtime rounds envs owners) (Serves streams)
      Ticks start log state) :
    Written owners
        (fun thread => ProcessedOrClamped runtime (envs thread) streams) start
        log state ∧
      state.grants.Nodup ∧
      (∀ thread, state.HeldBy (owners thread) →
        state.grants.head? = some (owners thread)) ∧
      (∀ after, Ticks state after → after.rows = state.rows ∧
        after.lock = state.lock ∧ after.grants = state.grants) ∧
      ∀ thread exchange after,
        (runs runtime rounds envs owners thread).Yields
          (ofThread thread log ++ [exchange]) none →
        Serves streams state exchange after →
          Guarded runtime (owners thread) state exchange after := by
  have ensures : ∀ thread, (runs runtime rounds envs owners thread).Ensures
      (fun _ => NodesAnswerRun streams)
      (RunStep runtime (envs thread) (owners thread) streams) []
      fun _ _ => True := fun thread => runOnce_ensures ordered (rounds thread)
  have holds : Fenced owners log state ∧ Written owners
      (fun thread => ProcessedOrClamped runtime (envs thread) streams) start
      log state := by
    apply Interleaved.invariant
      (fun thread => RunStep runtime (envs thread) (owners thread) streams)
      ensures Serves.nodesAnswer
      (fun log state => Fenced owners log state ∧ Written owners
        (fun thread => ProcessedOrClamped runtime (envs thread) streams) start
        log state)
      ⟨ready.fenced, fun _ row isRow => .inl ⟨row, isRow, rfl⟩⟩ ?_ ?_ run
    · rintro log state after thread exchange ⟨fenced, written⟩ step served
      exact ⟨fenced.exchanged distinct step served,
        written.exchanged step served⟩
    · rintro log state after ⟨fenced, written⟩ ticks
      refine ⟨fenced.ticks ticks, ?_⟩
      obtain ⟨time, _, _, rfl⟩ := ticks
      exact written
  obtain ⟨fenced, written⟩ := holds
  refine ⟨written, fenced.once, fenced.holder, ?_, ?_⟩
  · rintro after ⟨time, _, _, rfl⟩
    exact ⟨rfl, rfl, rfl⟩
  · intro thread exchange after asked served
    exact fenced.guarded distinct
      (run.permitted (ensures thread) Serves.nodesAnswer asked served) served

end

/-! ## A sample run -/

def clampingEnv : Env :=
  { STELLAR_NETWORK := some "mainnet"
    STELLAR_MAINNET_RPC_PRIMARY_URL := some "https://rpc"
    STELLAR_MAINNET_RPC_FALLBACK_URL := none
    ALLOW_RETENTION_CLAMP := some "true" }

/-- The lock is free and every checkpoint is at ledger 0. -/
def unlocked : LockState :=
  { clock := 0, lock := none, grants := []
    rows := fun _ => some
      { lastLedger := 0, updatedAt := "", expectedNextLedger := none
        deferAttempts := 0, lastAdvancedAt := none } }

/-- A host whose node keeps the ledgers 10 to 20. -/
def clampHost : (request : RunRequest) → request.Answer
  | .now => (0 : Nat)
  | .acquireLock _ owner _ => .answered (some owner)
  | .releaseLock _ => .answered ()
  | .connect _ => .ok ()
  | .getNetwork => .ok PUBLIC
  | .index .readCheckpoints =>
      .ok fun _ => some { lastLedger := 0, deferAttempts := 0 }
  | .index request =>
      sampleHost [quietEvent 5] ⟨20, 10⟩ (fun _ => false) request
  | .resolve .now => ""
  | .resolve .inTime => false
  | .resolve (.selectPending _) => .ok []
  | .resolve (.recordTries _ _) => .answered ()
  | .resolve (.resolve _) => .nothing
  | .resolve (.store _ _ _) => .answered 0

/-- A run that clamps identity's checkpoint to ledger 9. -/
def clampTrace : List (Exchange runHost) :=
  [⟨.now, (0 : Nat)⟩, ⟨.now, (0 : Nat)⟩,
    ⟨.acquireLock "1970-01-01T00:00:00.000+00:00" "run"
      "1969-12-31T23:57:00.000+00:00", .answered (some "run")⟩,
    ⟨.connect ["https://rpc"], .ok ()⟩,
    ⟨.getNetwork, .ok PUBLIC⟩,
    ⟨.index .readCheckpoints,
      .ok fun _ => some { lastLedger := 0, deferAttempts := 0 }⟩,
    ⟨.index .getHealth, .ok { latestLedger := 20, oldestLedger := 10 }⟩,
    ⟨.index .now, (0 : Nat)⟩,
    ⟨.index (.deadLetter (clampEntry .identity 1 10)), .answered ()⟩,
    ⟨.index .now, (0 : Nat)⟩,
    ⟨.index (.saveCheckpoint .identity
        { lastLedger := 9, deferAttempts := 0 } "run"
        "1970-01-01T00:00:00.000+00:00"), .answered (1, 1)⟩]

def clamped : LockState :=
  ((unlocked.grant "1970-01-01T00:00:00.000+00:00" "run").save .identity
    { lastLedger := 9, deferAttempts := 0 } "run"
    "1970-01-01T00:00:00.000+00:00").1

/-- One run, whose settings allow the clamp. -/
def clampRuns : Unit → RunTask RunResult :=
  runs sampleRuntime (fun _ => 1) (fun _ => clampingEnv) fun _ => "run"

def clampStreams : Streams := fun _ => [quietEvent 5]

theorem clampTrace_yields : (clampRuns ()).Yields clampTrace none := by
  have yields := yields_answeredBy clampHost (clampRuns ())
  have taken : ((clampRuns ()).answeredBy clampHost).1.take 11 =
    clampTrace := rfl
  rw [← List.take_append_drop 11 (answeredBy _ _).1, taken] at yields
  exact yields.of_append

theorem clampTrace_served :
    Served (Serves clampStreams) unlocked clampTrace clamped := by
  have outside : ∀ exchange : Exchange runHost,
      indexing.shows exchange = none →
        NodesAnswerRun clampStreams exchange := by
    intro exchange isNone shown isShown
    rw [isNone] at isShown
    cases isShown
  have inside : ∀ (request : Request) (reply : request.Answer),
      NodesAnswer clampStreams ⟨request, reply⟩ →
        NodesAnswerRun clampStreams ⟨.index request, reply⟩ := by
    rintro request reply answers shown ⟨⟩
    exact answers
  refine .cons .now (.cons .now (.cons (.acquired _ _ _) ?_))
  refine .cons (.other trivial (outside _ rfl)) ?_
  refine .cons (.other trivial (outside _ rfl)) ?_
  refine .cons .read ?_
  refine .cons (.other trivial (inside _ _ fun _ => trivial)) ?_
  refine .cons .indexNow ?_
  refine .cons (.other trivial (inside _ _ fun _ => trivial)) ?_
  refine .cons .indexNow ?_
  exact .cons (.saved _ _ _ _) (.nil _)

def clampLog : List (Unit × Exchange runHost) :=
  clampTrace.map fun exchange => ((), exchange)

theorem clampLog_interleaved :
    Interleaved clampRuns (Serves clampStreams) Ticks unlocked clampLog
      clamped :=
  Interleaved.start.extend () clampTrace_yields clampTrace_served

theorem unlocked_ready : Ready (fun _ : Unit => "run") unlocked where
  before := by decide
  ungranted := rfl
  stamped := fun _ isRow => nomatch isRow
  other := fun _ _ isRow => nomatch isRow

theorem lock_fences_checkpoints_clamped :
    Interleaved clampRuns (Serves clampStreams) Ticks unlocked clampLog
        clamped ∧
      clamped.HeldBy "run" ∧ clamped.grants.head? = some "run" ∧
      Written (fun _ : Unit => "run")
        (fun _ => ProcessedOrClamped sampleRuntime clampingEnv clampStreams)
        unlocked clampLog clamped := by
  have distinct : Function.Injective fun _ : Unit => "run" := fun _ _ _ => rfl
  have ordered : ∀ contract, ChainOrdered (clampStreams contract) := by
    intro contract
    simp [ChainOrdered, clampStreams]
  have held : clamped.HeldBy "run" := by decide
  have fences := lock_fences_checkpoints distinct (fun _ => 1) ordered
    unlocked_ready clampLog_interleaved
  exact ⟨clampLog_interleaved, held, fences.2.2.1 () held, fences.1⟩

/-- Past a retention clamp, a checkpoint is saved by a run that was handed
nothing. -/
theorem clamped_ledger_not_processed :
    Function.Injective (fun _ : Unit => "run") ∧
      (∀ contract, ChainOrdered (clampStreams contract)) ∧
      Ready (fun _ : Unit => "run") unlocked ∧
      Interleaved clampRuns (Serves clampStreams) Ticks unlocked clampLog
        clamped ∧
      ¬ Written (fun _ : Unit => "run")
        (fun _ => Processed sampleRuntime clampStreams) unlocked clampLog
        clamped := by
  refine ⟨fun _ _ _ => rfl, ?_, unlocked_ready, clampLog_interleaved, ?_⟩
  · intro contract
    simp [ChainOrdered, clampStreams]
  intro written
  obtain ⟨row, isRow, ledger⟩ : ∃ row, clamped.rows .identity = some row ∧
      row.lastLedger = 9 := ⟨_, rfl, rfl⟩
  rcases written .identity row isRow with ⟨first, isFirst, same⟩ | ⟨earlier,
    thread, checkpoint, now, reply, later, isLog, _, read, before, inside,
    isTrace, member, processed⟩
  · cases isFirst
    rw [ledger] at same
    cases same
  · have whole : indexTrace clampTrace = (clampTrace.drop 5).filterMap
        indexing.shows := rfl
    have own : ∀ exchange ∈ before ++ inside,
        exchange ∈ indexTrace clampTrace := by
      rw [← isTrace]
      intro exchange isInside
      obtain ⟨shown, isShown, same⟩ := List.mem_filterMap.mp isInside
      refine List.mem_filterMap.mpr ⟨shown, ?_, same⟩
      have inLog : (thread, shown) ∈ clampLog := by
        rw [isLog]
        exact List.mem_append_left _ (mem_of_mem_ofThread isShown)
      obtain ⟨listed, isListed, isPair⟩ := List.mem_map.mp inLog
      cases isPair
      exact isListed
    have isRead : (read .identity).lastLedger = 0 := by
      have listed := own _ (List.mem_append_left _ member)
      rw [whole] at listed
      simp only [clampTrace, List.drop, List.filterMap_cons, indexing,
        List.filterMap_nil, List.mem_cons, Exchange.mk.injEq, reduceCtorEq,
        false_and, or_false, heq_eq_eq, true_and, Except.ok.injEq,
        List.not_mem_nil] at listed
      have atIdentity := Option.some.inj (congrFun listed .identity)
      rw [atIdentity]
    obtain ⟨made, ⟨_, _, isInside, _⟩, _⟩ := processed (quietEvent 5)
      List.mem_cons_self (by rw [isRead]; decide) (by rw [ledger]; decide)
    have called := own ⟨.wrote .identity made.events made.skip made.result, ()⟩
      (by rw [isInside]; simp)
    rw [whole] at called
    simp [clampTrace, indexing] at called

end Run

end Stellar8004.Indexer
