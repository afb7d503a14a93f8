import Stellar8004.Indexer.AttemptRuns

/-!
# An undisturbed run reaches the head

A scan ends before its head for a reason that its trace shows: the deadline
passed, a node failed or was behind, a statement failed.  Where nothing of the
kind happens, and there are rounds enough for its pages, a run returns and
every checkpoint is at the head it was given.
-/

namespace Stellar8004.Indexer

open Program

/-! ## Why a scan ends -/

/-- An exchange that keeps a scan from its head. -/
def Hinders (scan : Scan) : Exchange indexerHost → Prop
  | ⟨.now, time⟩ => scan.deadlineMs ≤ time
  | ⟨.getEvents _ _, answer⟩ =>
      ∀ page, answer = .ok page → page.latestLedger < scan.head
  | exchange => FailedConstraint exchange

def Hindered (scan : Scan) (trace : Trace) : Prop :=
  ∃ exchange ∈ trace, Hinders scan exchange

/-- How a round ends: in a window of the scan, or hindered. -/
def RoundReaches (scan : Scan) : Final indexerHost Round → Trace → Prop
  | .returned (.next loop), _ => loop.to ≤ scan.head
  | .returned (.stop _ _), now => Hindered scan now
  | _, _ => True

/-- How the loop ends: at the head, or hindered. -/
def LoopReaches (scan : Scan) :
    Final indexerHost (ScanState × Option Stopped) → Trace → Prop
  | .returned (loop, _), now =>
      scan.head ≤ loop.state.lastLedger ∨ Hindered scan now
  | _, _ => True

/-- How the scan ends: at the head, or hindered. -/
def ScanReaches (scan : Scan) :
    Final indexerHost ContractResult → Trace → Prop
  | .returned result, now =>
      scan.head ≤ result.lastLedger ∨ Hindered scan now
  | _, _ => True

section

variable {runtime : Runtime} {scan : Scan} {past : Trace}
  {allows : Trace → Exchange indexerHost → Prop}

theorem Hindered.append {trace : Trace} (hindered : Hindered scan trace)
    (later : Trace) : Hindered scan (trace ++ later) := by
  obtain ⟨exchange, member, hinders⟩ := hindered
  exact ⟨exchange, List.mem_append_left _ member, hinders⟩

theorem Hindered.of_failing {trace : Trace} (failing : Failing trace) :
    Hindered scan trace := by
  obtain ⟨exchange, member, failed⟩ := failing
  refine ⟨exchange, member, ?_⟩
  obtain ⟨request, answer⟩ := exchange
  cases request with
  | now => exact absurd failed id
  | getEvents contract request => exact absurd failed id
  | _ => exact failed

/-- A call that defers has met a failure. -/
theorem DeferredAt.failing {packet : EventPacket} {trace : Trace}
    (deferred : DeferredAt packet trace) : Failing trace := by
  obtain ⟨before, exchange, write, error, failure, rfl, _, failed⟩ := deferred
  refine ⟨exchange, List.mem_append_right _ List.mem_cons_self, ?_⟩
  obtain ⟨request, answer⟩ := exchange
  cases request with
  | run ran =>
      obtain ⟨_, result, isFailure⟩ := failed
      refine ⟨error, result, ?_⟩
      rw [isFailure]
      exact Option.some_ne_none failure
  | _ => exact absurd failed id

theorem save_state {loop : ScanState} :
    (loop.save runtime scan).Ensures allows (fun _ _ => True) past
      fun final _ => ∀ after, final = .returned after →
        after = { loop with saved := loop.state } := by
  unfold ScanState.save
  by_cases same : loop.state = loop.saved
  · rw [if_pos same]
    rintro after ⟨⟩
    obtain ⟨state, saved⟩ := loop
    cases same
    rfl
  · rw [if_neg same, bind_eq]
    apply (ensures_of_forall (fun _ _ => trivial) _).bind
    · rintro ⟨⟩ later _ after ⟨⟩
      rfl
    · intro _ _ _ _ never
      cases never
    · intro _ _ _ never
      cases never

/-- A round whose window was read to its end goes on to the next, unless the
node was behind the window. -/
theorem following_reaches {loop : ScanState} {page : Page} {scanned : Bool}
    {contract : ContractName} {request : EventsRequest}
    (bounded : loop.to ≤ scan.head)
    (asked : (⟨.getEvents contract request, .ok page⟩ :
      Exchange indexerHost) ∈ past) :
    RoundReaches scan (.returned (loop.following scan page scanned)) past := by
  unfold ScanState.following
  split
  · exact bounded
  · split
    · rename_i behind
      refine ⟨_, asked, ?_⟩
      rintro other ⟨⟩
      exact Nat.lt_of_lt_of_le behind bounded
    · exact Nat.min_le_left _ _

theorem writePage_reaches {loop : ScanState} {page : Page}
    {contract : ContractName} {request : EventsRequest}
    (bounded : loop.to ≤ scan.head)
    (asked : (⟨.getEvents contract request, .ok page⟩ :
      Exchange indexerHost) ∈ past) :
    (writePage runtime scan loop page).Ensures allows (fun _ _ => True) past
      (RoundReaches scan) := by
  rw [writePage, bind_eq]
  generalize decide (MAX_DEFER_ATTEMPTS ≤ loop.state.deferAttempts) = skip
  have writes : (writeEvents runtime scan.contract (loop.read page).ready
      skip).Ensures allows (fun _ _ => True) past fun _ _ => True :=
    ensures_of_forall (fun _ _ => trivial) _
  refine writes.traced.bind ?_ (fun _ _ _ => trivial) (fun _ _ => trivial)
  rintro written later ⟨_, inside, same, yields, _⟩
  have isInside := List.append_cancel_left same
  subst isInside
  rw [bind_eq, call_bind]
  rintro ⟨⟩ _
  refine ⟨trivial, ?_⟩
  have stillAsked := List.mem_append_left [(⟨.wrote scan.contract
    (loop.read page).ready skip written, ()⟩ : Exchange indexerHost)]
    (List.mem_append_left later asked)
  dsimp only
  cases deferred : written.deferred with
  | true =>
      rw [if_pos rfl]
      obtain ⟨_, packet, _, stopped⟩ := (writerPost_of_yields yields).2 deferred
      apply Hindered.of_failing
      exact (stopped.failing.prepend past).append _
  | false =>
      rw [if_neg Bool.false_ne_true]
      split
      · rw [bind_eq]
        refine save_state.bind ?_ (fun _ _ _ => trivial) (fun _ _ => trivial)
        intro after saved isAfter
        rw [isAfter after rfl]
        exact following_reaches bounded (List.mem_append_left _ stillAsked)
      · exact following_reaches bounded stillAsked

theorem scanPage_reaches {loop : ScanState} (bounded : loop.to ≤ scan.head) :
    (scanPage runtime scan loop).Ensures allows (fun _ _ => True) past
      (RoundReaches scan) := by
  rw [scanPage, bind_eq, call_bind]
  intro (time : Nat) _
  refine ⟨trivial, ?_⟩
  dsimp only
  split
  · rename_i late
    exact ⟨⟨.now, time⟩, List.mem_append_right _ List.mem_cons_self, late⟩
  · rw [bind_eq, call_bind]
    intro (answer : Except Thrown Page) _
    refine ⟨trivial, ?_⟩
    cases answer with
    | error error =>
        refine ⟨⟨.getEvents scan.contract loop.request, .error error⟩,
          List.mem_append_right _ List.mem_cons_self, ?_⟩
        intro page never
        cases never
    | ok page =>
        exact writePage_reaches bounded
          (List.mem_append_right _ List.mem_cons_self)

theorem scanPages_reaches (rounds : Nat) {loop : ScanState}
    (bounded : loop.to ≤ scan.head) :
    (scanPages runtime scan rounds loop).Ensures allows (fun _ _ => True)
      past (LoopReaches scan) := by
  induction rounds generalizing loop past with
  | zero => trivial
  | succ rounds induction =>
      unfold scanPages
      split
      · rw [bind_eq]
        refine (scanPage_reaches bounded).bind ?_ (fun _ _ _ => trivial)
          (fun _ _ => trivial)
        intro round later reaches
        cases round with
        | stop final stopped => exact .inr reaches
        | next final => exact induction reaches
      · rename_i beyond
        exact .inl (Nat.le_of_not_lt beyond)

theorem openScan_bounded {start : Checkpoint} :
    (openScan runtime scan start).Ensures allows (fun _ _ => True) past
      fun final _ => ∀ loop, final = .returned loop →
        loop.to ≤ scan.head := by
  unfold openScan
  split
  · simp only [deadLetter, bind_eq]
    intro (reply : Reply Unit) _
    refine ⟨trivial, save_state.mono ?_⟩
    intro final later saved loop returned
    rw [saved loop returned]
    exact Nat.min_le_left _ _
  · rintro loop ⟨⟩
    exact Nat.min_le_left _ _

/-- A scan that returns is at its head, or its trace shows what hindered
it. -/
theorem indexContract_reaches {start : Checkpoint} (rounds : Nat) :
    (indexContract runtime rounds scan start).Ensures allows
      (fun _ _ => True) past (ScanReaches scan) := by
  unfold indexContract
  split
  · rename_i beyond
    exact .inl beyond
  · rw [bind_eq]
    refine openScan_bounded.bind ?_ (fun _ _ _ => trivial)
      (fun _ _ => trivial)
    intro loop opened bounded
    refine (scanPages_reaches rounds (bounded loop rfl)).bind ?_
      (fun _ _ _ => trivial) (fun _ _ => trivial)
    rintro ⟨ended, stopped⟩ scanned reaches
    refine save_state.bind ?_ (fun _ _ _ => trivial) (fun _ _ => trivial)
    intro after saved isAfter
    rw [isAfter after rfl]
    exact reaches.imp id fun hindered => hindered.append saved

end

/-! ## Undisturbed runs -/

/-- The clock is before the deadline, every call is answered, no node is
behind the health, no checkpoint has aged out of retention and the lock is
still held. -/
def Undisturbed (runtime : Runtime) (deadlineMs : Nat) (health : Health) :
    Exchange indexerHost → Prop
  | ⟨.now, time⟩ => time < deadlineMs ∧
      ∃ text, pgTime runtime (.date (some (Int.ofNat time))) = .ok text
  | ⟨.getHealth, answer⟩ => answer = .ok health
  | ⟨.getEvents _ _, answer⟩ =>
      ∃ page, answer = .ok page ∧ health.latestLedger ≤ page.latestLedger
  | ⟨.readCheckpoints, answer⟩ => ∃ rows : ContractName → Checkpoint,
      answer = .ok (fun contract => some (rows contract)) ∧
      ∀ contract, health.oldestLedger ≤ (rows contract).lastLedger + 1
  | exchange => ¬ Faulty runtime exchange

/-- Nothing disturbs a run, and no statement fails on a constraint. -/
def Smooth (runtime : Runtime) (streams : Streams) (deadlineMs : Nat)
    (health : Health) (_ : Trace) (exchange : Exchange indexerHost) : Prop :=
  NodesAnswer streams exchange ∧
    Undisturbed runtime deadlineMs health exchange ∧
    ¬ FailedConstraint exchange

/-- The statement of every event of the streams can be bound. -/
def Bindable (runtime : Runtime) (streams : Streams) : Prop :=
  ∀ contract, ∀ packet ∈ (streams contract).filterMap (packetOf contract),
    ¬ Unbound runtime packet

section

variable {runtime : Runtime} {streams : Streams} {scan : Scan}
  {deadlineMs : Nat} {health : Health} {past : Trace}
  {rows : ContractName → Checkpoint} {options : IndexOptions}

theorem Undisturbed.faultless {exchange : Exchange indexerHost}
    (undisturbed : Undisturbed runtime deadlineMs health exchange) :
    ¬ Faulty runtime exchange := by
  obtain ⟨request, answer⟩ := exchange
  cases request with
  | now =>
      rintro ⟨message, failed⟩
      obtain ⟨text, written⟩ := undisturbed.2
      rw [failed] at written
      cases written
  | getHealth => exact id
  | getEvents contract request => exact id
  | readCheckpoints => exact id
  | _ => exact undisturbed

theorem Undisturbed.not_hinders {exchange : Exchange indexerHost}
    (undisturbed : Undisturbed runtime deadlineMs health exchange)
    (unfailing : ¬ FailedConstraint exchange)
    (head : scan.head ≤ health.latestLedger)
    (deadline : scan.deadlineMs = deadlineMs) : ¬ Hinders scan exchange := by
  intro hinders
  obtain ⟨request, answer⟩ := exchange
  cases request with
  | now =>
      have late : scan.deadlineMs ≤ answer := hinders
      rw [deadline] at late
      exact absurd undisturbed.1 (Nat.not_lt.mpr late)
  | getEvents contract request =>
      obtain ⟨page, isPage, ahead⟩ := undisturbed
      have behind := hinders page isPage
      omega
  | _ => exact unfailing hinders

/-- A scan of an undisturbed run, after other exchanges of the run. -/
theorem indexContract_caughtUp
    (ordered : ∀ contract, ChainOrdered (streams contract))
    (bindable : Bindable runtime streams) {rounds : Nat}
    (enough : (streams scan.contract).length + scan.head < rounds)
    (head : scan.head ≤ health.latestLedger)
    (deadline : scan.deadlineMs = deadlineMs) :
    (indexContract runtime rounds scan (rows scan.contract)).Ensures
      (Smooth runtime streams deadlineMs health) (fun _ _ => True) past
      fun final now => ScanDone runtime streams scan rows past final now ∧
        ∃ result, final = .returned result ∧
          scan.head ≤ result.lastLedger := by
  have scans : (indexContract runtime rounds scan
      (rows scan.contract)).Ensures (Smooth runtime streams deadlineMs health)
      (ScanStep runtime scan (streams scan.contract) (rows scan.contract)) []
      (ScanPost runtime scan (streams scan.contract) (rows scan.contract)
        rounds) :=
    indexContract_ensures (ordered scan.contract)
      (fun _ _ smooth => smooth.1 scan.contract) rounds
  have both := (scans.and (indexContract_reaches rounds)).traced
  have placed : (indexContract runtime rounds scan
      (rows scan.contract)).Ensures (Smooth runtime streams deadlineMs health)
      (fun _ _ => True) (past ++ []) _ :=
    both.after past (fun _ _ smooth => smooth) (fun _ _ _ => trivial)
  rw [List.append_nil] at placed
  apply placed.mono
  rintro final later ⟨inside, same, ⟨post, reaches⟩, made, isInside, _, smooth,
    along⟩
  rw [List.nil_append] at isInside
  subst isInside
  have calm : ∀ exchange ∈ inside,
      Undisturbed runtime deadlineMs health exchange ∧
        ¬ FailedConstraint exchange := by
    intro exchange member
    obtain ⟨_, allowed⟩ := smooth.of_mem member
    exact allowed.2
  have unhindered : ¬ Hindered scan inside := by
    rintro ⟨exchange, member, hinders⟩
    obtain ⟨undisturbed, unfailing⟩ := calm exchange member
    exact Undisturbed.not_hinders undisturbed unfailing head deadline hinders
  cases final with
  | threw error =>
      rcases post with ⟨exchange, member, fault⟩ | ⟨packet, member, unbound⟩
      · exact absurd fault (Undisturbed.faultless (calm exchange member).1)
      · exact absurd unbound (bindable _ packet member)
  | unfinished => exact absurd post (Nat.not_le.mpr enough)
  | returned result =>
      constructor
      · refine ⟨inside, same, along.mono fun _ _ steps => steps.1, ?_⟩
        rintro other ⟨⟩
        exact ⟨post.1, fun behind => (post.2 behind).1⟩
      · exact ⟨result, rfl, reaches.resolve_right unhindered⟩

/-- What the scans of an undisturbed run leave: they return, every row of
theirs is at the head, and the other rows are as they were. -/
def CaughtUp (rows : ContractName → Checkpoint) (head : Nat)
    (contracts : List ContractName) (past : Trace)
    (final : Final indexerHost IndexResult) (now : Trace) : Prop :=
  (∃ result, final = .returned result) ∧
    (∀ contract ∈ contracts,
      head ≤ (rowAfter contract (rows contract) now).lastLedger) ∧
    ∀ other ∉ contracts,
      rowAfter other (rows other) now = rowAfter other (rows other) past

theorem indexEach_caughtUp
    (ordered : ∀ contract, ChainOrdered (streams contract))
    (bindable : Bindable runtime streams) {rounds : Nat}
    (enough : ∀ contract,
      (streams contract).length + health.latestLedger < rounds)
    {contracts : List ContractName} (distinct : contracts.Nodup)
    (untouched : ∀ contract ∈ contracts,
      rowAfter contract (rows contract) past = rows contract)
    (oldest : Nat) (result : IndexResult) :
    (indexEach runtime rounds options oldest rows contracts
      health.latestLedger result).Ensures
      (Smooth runtime streams options.deadlineMs health) (fun _ _ => True)
      past (CaughtUp rows health.latestLedger contracts past) := by
  induction contracts generalizing past result with
  | nil =>
      refine ⟨⟨result, rfl⟩, ?_, fun _ _ => rfl⟩
      intro contract member
      cases member
  | cons contract contracts induction =>
      obtain ⟨fresh, distinct⟩ := List.nodup_cons.mp distinct
      rw [indexEach, bind_eq, call_bind]
      intro (time : Nat) smooth
      refine ⟨trivial, ?_⟩
      have early : time < options.deadlineMs := smooth.2.1.1
      dsimp only
      rw [if_neg (Nat.not_le.mpr early), bind_eq]
      refine (indexContract_caughtUp ordered bindable ?_ ?_ ?_).bind
        ?_ ?_ ?_
      · exact enough contract
      · exact Nat.le_refl _
      · rfl
      · rintro outcome later ⟨done, reached, isReached, atHead⟩
        cases isReached
        have head : (if contract = .identity then
            min health.latestLedger outcome.lastLedger
          else health.latestLedger) = health.latestLedger := by
          split
          · exact Nat.min_eq_left atHead
          · rfl
        rw [head]
        have others : ∀ other, other ≠ contract → ∀ row,
            rowAfter other row (past ++ [⟨.now, time⟩] ++ later) =
              rowAfter other row past := by
          intro other different row
          exact (done.rowAfter_other different row).trans
            (rowAfter_now other row past time)
        have own : rowAfter contract (rows contract)
            (past ++ [⟨.now, time⟩] ++ later) =
              rowAfter contract (rows contract) later := by
          rw [rowAfter_append, rowAfter_now,
            untouched contract List.mem_cons_self]
        obtain ⟨inside, isInside, _, returned⟩ := done
        have isLater := List.append_cancel_left isInside
        subst isLater
        refine (induction distinct ?_ _).mono ?_
        · intro other member
          have different : other ≠ contract := by
            rintro rfl
            exact fresh member
          rw [others other different]
          exact untouched other (List.mem_cons_of_mem _ member)
        · rintro final after ⟨ended, caught, kept⟩
          refine ⟨ended, ?_, ?_⟩
          · intro other member
            rcases List.mem_cons.mp member with rfl | inside
            · rw [kept other fresh, own, (returned outcome rfl).1]
              exact atHead
            · exact caught other inside
          · intro other outside
            have different : other ≠ contract := by
              rintro rfl
              exact outside List.mem_cons_self
            rw [kept other fun inside =>
              outside (List.mem_cons_of_mem _ inside)]
            exact others other different _
      · rintro error later ⟨_, _, never, _⟩
        cases never
      · rintro later ⟨_, _, never, _⟩
        cases never

theorem readCheckpoints_smooth :
    readCheckpoints.Ensures (Smooth runtime streams deadlineMs health)
      (fun _ _ => True) past fun final now =>
        ∃ rows, final = .returned rows ∧ now = past ++
            [⟨.readCheckpoints, .ok fun contract => some (rows contract)⟩] ∧
          ∀ contract,
            health.oldestLedger ≤ (rows contract).lastLedger + 1 := by
  rw [readCheckpoints, bind_eq, call_bind]
  intro (answer : Except Thrown (ContractName → Option Checkpoint)) smooth
  refine ⟨trivial, ?_⟩
  obtain ⟨rows, rfl, retained⟩ := smooth.2.1
  refine ⟨rows, congrArg Final.returned ?_, rfl, retained⟩
  funext contract
  cases contract <;> rfl

/-- An undisturbed run returns with every checkpoint at the head. -/
theorem indexContracts_caughtUp
    (ordered : ∀ contract, ChainOrdered (streams contract))
    (bindable : Bindable runtime streams) {rounds : Nat}
    (enough : ∀ contract,
      (streams contract).length + health.latestLedger < rounds) :
    (indexContracts runtime rounds options).Ensures
      (Smooth runtime streams options.deadlineMs health) (fun _ _ => True) []
      fun final now => (∃ result, final = .returned result) ∧
        ∃ rows : ContractName → Checkpoint, (⟨.readCheckpoints, .ok fun contract =>
            some (rows contract)⟩ : Exchange indexerHost) ∈ now ∧
          ∀ contract, health.latestLedger ≤
            (rowAfter contract (rows contract) now).lastLedger := by
  rw [indexContracts, bind_eq]
  refine readCheckpoints_smooth.bind ?_ ?_ ?_
  · rintro rows later ⟨_, ⟨⟩, isRead, retained⟩
    rw [isRead, bind_eq, call_bind]
    intro (answer : Except Thrown Health) smooth
    refine ⟨trivial, ?_⟩
    obtain rfl := smooth.2.1
    have young : CONTRACTS.filter (fun contract =>
        (rows contract).lastLedger + 1 < health.oldestLedger) = [] := by
      apply List.filter_eq_nil_iff.mpr
      intro contract _
      simp only [decide_eq_true_eq]
      exact Nat.not_lt.mpr (retained contract)
    dsimp only
    rw [young, if_neg fun refused => refused.1 rfl]
    refine (indexEach_caughtUp ordered bindable enough (by decide)
      (fun _ _ => rfl) health.oldestLedger _).mono ?_
    rintro final after ⟨returned, caught, _⟩
    refine ⟨returned, rows, List.mem_append_left _ (by simp), ?_⟩
    intro contract
    apply caught
    cases contract <;> decide
  · rintro error later ⟨_, never, _⟩
    cases never
  · rintro later ⟨_, never, _⟩
    cases never

end

end Stellar8004.Indexer
