import Stellar8004.Indexer.BatchOrder

/-!
# The scans of one run

`indexContracts` scans the contracts one after another from the checkpoints it
has read.  The scans of reputation and validation end where the identity row
stands by then.
-/

namespace Stellar8004.Indexer

open Program

/-- The events of each contract. -/
abbrev Streams := ContractName → List EventResponse

/-- Every `getEvents` is answered by some node, or throws. -/
def NodesAnswer (streams : Streams) (exchange : Exchange indexerHost) :
    Prop :=
  ∀ contract, RpcAnswers contract (streams contract) exchange

/-- What a run has read before it scans: the checkpoints, and a health that
decides the head. -/
structure HasRead (options : IndexOptions)
    (rows : ContractName → Checkpoint) (health : Health) (past : Trace) :
    Prop where
  checkpoints : (⟨.readCheckpoints, .ok fun contract =>
    some (rows contract)⟩ : Exchange indexerHost) ∈ past
  healthy : (⟨.getHealth, .ok health⟩ : Exchange indexerHost) ∈ past
  allowed : ∀ contract, (rows contract).lastLedger + 1 < health.oldestLedger →
    options.allowRetentionClamp = true

/-- Where the identity row stands, a scan that follows may go: to the row, and
the ledgers that aged out of retention are behind it. -/
structure Follows (rows : ContractName → Checkpoint) (health : Health)
    (head : Nat) (past : Trace) : Prop where
  head : head ≤ (rowAfter .identity (rows .identity) past).lastLedger
  retained : health.oldestLedger ≤ health.latestLedger + 1 →
    health.oldestLedger ≤
      (rowAfter .identity (rows .identity) past).lastLedger + 1

/-- An exchange of a scan, after the exchanges `inside` of the same scan and
those `before` it. -/
structure ScanAt (runtime : Runtime) (options : IndexOptions)
    (streams : Streams) (past : Trace) (exchange : Exchange indexerHost)
    (scan : Scan) (rows : ContractName → Checkpoint) (health : Health)
    (before inside : Trace) : Prop where
  trace : past = before ++ inside
  read : HasRead options rows health before
  owner : scan.owner = options.owner
  oldest : scan.oldest = health.oldestLedger
  untouched : rowAfter scan.contract (rows scan.contract) before =
    rows scan.contract
  follows : scan.contract ≠ .identity → Follows rows health scan.head past
  along : Along (ScanStep runtime scan (streams scan.contract)
    (rows scan.contract)) [] inside
  step : ScanStep runtime scan (streams scan.contract)
    (rows scan.contract) inside exchange
  inOrder : scan.contract ≠ .identity →
    InOrder runtime scan (streams scan.contract) (rows scan.contract) inside
      exchange

/-- The exchanges of a run: what it reads, the clock, and its scans. -/
def IndexStep (runtime : Runtime) (options : IndexOptions)
    (streams : Streams) (past : Trace) (exchange : Exchange indexerHost) :
    Prop :=
  (match exchange.request with
    | .readCheckpoints => past = []
    | .getHealth => True
    | .now => True
    | _ => False) ∨
  ∃ scan rows health before inside,
    ScanAt runtime options streams past exchange scan rows health before
      inside

/-- What every scan keeps to, and what it leaves to the scans after it. -/
structure ScanRule (runtime : Runtime) (streams : Streams) where
  permits : Scan → Checkpoint → Trace → Exchange indexerHost → Prop
  leaves : Trace → Prop
  scans : ∀ (scan : Scan) (start : Checkpoint) (rounds : Nat),
    (indexContract runtime rounds scan start).Ensures
      (fun _ => RpcAnswers scan.contract (streams scan.contract))
      (permits scan start) [] fun final now =>
        ∀ result, final = .returned result → leaves now
  start : leaves []
  append : ∀ {first second}, leaves first → leaves second →
    leaves (first ++ second)
  outside : ∀ {exchange : Exchange indexerHost},
    (match exchange.request with
      | .readCheckpoints => True
      | .getHealth => True
      | .now => True
      | _ => False) → leaves [exchange]

/-- The rule that asks nothing. -/
def ScanRule.none (runtime : Runtime) (streams : Streams) :
    ScanRule runtime streams where
  permits _ _ _ _ := True
  leaves _ := True
  scans _ _ _ :=
    (ensures_of_forall (fun _ _ => trivial) _).mono
      fun _ _ _ _ _ => trivial
  start := trivial
  append _ _ := trivial
  outside _ := trivial

/-- The exchanges of a run whose scans keep to a rule. -/
def RuledStep {runtime : Runtime} {streams : Streams}
    (rule : ScanRule runtime streams) (options : IndexOptions)
    (past : Trace) (exchange : Exchange indexerHost) : Prop :=
  (match exchange.request with
    | .readCheckpoints => past = []
    | .getHealth => True
    | .now => True
    | _ => False) ∨
  ∃ scan rows health before inside,
    ScanAt runtime options streams past exchange scan rows health before
      inside ∧
    rule.permits scan (rows scan.contract) inside exchange ∧
    rule.leaves before

section

variable {runtime : Runtime} {options : IndexOptions} {streams : Streams}
  {allows : Trace → Exchange indexerHost → Prop} {scan : Scan}
  {stream : List EventResponse} {start : Checkpoint}
  {rows : ContractName → Checkpoint} {health : Health} {past : Trace}
  {rule : ScanRule runtime streams}

theorem HasRead.append (read : HasRead options rows health past)
    (later : Trace) : HasRead options rows health (past ++ later) where
  checkpoints := List.mem_append_left _ read.checkpoints
  healthy := List.mem_append_left _ read.healthy
  allowed := read.allowed

/-- A scan saves only its own checkpoint. -/
theorem savedCheckpoint_other {contract : ContractName}
    {exchange : Exchange indexerHost} (other : contract ≠ scan.contract)
    (step : ScanStep runtime scan stream start past exchange) :
    savedCheckpoint contract exchange = none := by
  cases saved : savedCheckpoint contract exchange with
  | none => rfl
  | some checkpoint =>
      obtain ⟨owner, now, reply, rfl⟩ := saveCheckpoint_of_saved saved
      exact absurd step.1.1 other

theorem rowAfter_other {contract : ContractName} (row : Checkpoint)
    {before inside : Trace} (other : contract ≠ scan.contract)
    (along : Along (ScanStep runtime scan stream start) past inside) :
    rowAfter contract row (before ++ inside) =
      rowAfter contract row before := by
  induction inside generalizing past before with
  | nil => rw [List.append_nil]
  | cons exchange inside induction =>
      obtain ⟨step, later⟩ := along
      have quiet := savedCheckpoint_other other step
      have split : before ++ exchange :: inside =
        (before ++ [exchange]) ++ inside := by simp
      rw [split, induction later, rowAfter_quiet quiet]

/-- A clamp needs the permission of the options. -/
theorem ScanAt.clamp_allowed {exchange : Exchange indexerHost}
    {before inside : Trace}
    (isAt : ScanAt runtime options streams past exchange scan rows health
      before inside) {event : EventResponse}
    (clamped : ClampedAway scan.contract inside event) :
    options.allowRetentionClamp = true := by
  obtain ⟨first, oldest, reply, member, _⟩ := clamped
  obtain ⟨_, step⟩ := isAt.along.of_mem member
  rcases step.1 with ⟨aged, _⟩ | ⟨_, _, _, other⟩ | ⟨_, _, _, _, write, _,
    failure, _, _, other⟩
  · apply isAt.read.allowed scan.contract
    rw [← isAt.oldest]
    exact aged
  · cases congrArg DeadLetter.reason other
  · have reason := congrArg DeadLetter.reason other
    cases failure <;> cases reason

/-- A scan does not move its row back. -/
theorem le_rowAfter {inside : Trace}
    (along : Along (ScanStep runtime scan stream start) [] inside) :
    start.lastLedger ≤
      (rowAfter scan.contract start inside).lastLedger := by
  cases inside using List.reverseRecOn with
  | nil => exact Nat.le_refl _
  | append_singleton init exchange =>
      have last := along.at
      rw [List.nil_append] at last
      rcases last.2 with progress | ⟨base, _, progress, _, row⟩
      · exact progress.le
      · rw [row]
        exact progress.le

theorem Follows.after {before inside : Trace} {head : Nat}
    (follows : Follows rows health head before)
    (other : ContractName.identity ≠ scan.contract)
    (along : Along (ScanStep runtime scan stream start) past inside) :
    Follows rows health head (before ++ inside) := by
  have same : rowAfter .identity (rows .identity) (before ++ inside) =
      rowAfter .identity (rows .identity) before :=
    rowAfter_other (rows .identity) other along
  exact ⟨same ▸ follows.head, same ▸ follows.retained⟩

/-- What a scan leaves in a run. -/
def ScanDone (runtime : Runtime) (streams : Streams) (scan : Scan)
    (rows : ContractName → Checkpoint) (before : Trace)
    (final : Final indexerHost ContractResult) (now : Trace) : Prop :=
  ∃ inside, now = before ++ inside ∧
    Along (ScanStep runtime scan (streams scan.contract)
      (rows scan.contract)) [] inside ∧
    ∀ result, final = .returned result →
      (rowAfter scan.contract (rows scan.contract) inside).lastLedger =
          result.lastLedger ∧
        ((rows scan.contract).lastLedger < scan.head →
          scan.oldest ≤ result.lastLedger + 1)

/-- One scan of a run. -/
theorem indexContract_at
    (ordered : ∀ contract, ChainOrdered (streams contract))
    (answers : ∀ past exchange, allows past exchange →
      NodesAnswer streams exchange)
    (read : HasRead options rows health past)
    (owner : scan.owner = options.owner)
    (oldest : scan.oldest = health.oldestLedger)
    (untouched : rowAfter scan.contract (rows scan.contract) past =
      rows scan.contract)
    (follows : scan.contract ≠ .identity →
      Follows rows health scan.head past) (left : rule.leaves past)
    (rounds : Nat) :
    (indexContract runtime rounds scan (rows scan.contract)).Ensures allows
      (RuledStep rule options) past fun final now =>
        ScanDone runtime streams scan rows past final now ∧
          ∀ result, final = .returned result → rule.leaves now := by
  have scans : (indexContract runtime rounds scan
      (rows scan.contract)).Ensures
      (fun _ => RpcAnswers scan.contract (streams scan.contract))
      (ScanStep runtime scan (streams scan.contract) (rows scan.contract)) []
      (ScanPost runtime scan (streams scan.contract) (rows scan.contract)
        rounds) :=
    indexContract_ensures (ordered scan.contract)
      (fun _ _ answered => answered) rounds
  have sends : (indexContract runtime rounds scan
      (rows scan.contract)).Ensures
      (fun _ => RpcAnswers scan.contract (streams scan.contract))
      (fun past exchange => scan.contract ≠ .identity →
        InOrder runtime scan (streams scan.contract) (rows scan.contract) past
          exchange) [] fun _ _ => True := by
    by_cases dependent : scan.contract = .identity
    · exact ensures_of_forall
        (fun _ _ different => absurd dependent different) _
    · apply (indexContract_inOrder dependent (ordered scan.contract)
        (fun _ _ answered => answered) rounds).weaken
      intro _ _ _ inOrder _
      exact inOrder
  have ruled := rule.scans scan (rows scan.contract) rounds
  have both := ((scans.traced.and sends).and ruled).located
  have placed : (indexContract runtime rounds scan
      (rows scan.contract)).Ensures allows (RuledStep rule options)
      (past ++ []) _ :=
    both.after past
      (fun later exchange allowed => answers _ _ allowed scan.contract) ?_
  · rw [List.append_nil] at placed
    apply placed.mono
    rintro final later ⟨inside, same,
      ⟨⟨post, _, isInside, _, _, along⟩, _⟩, leaves⟩
    rw [List.nil_append] at isInside
    subst isInside
    refine ⟨⟨inside, same, along, ?_⟩, ?_⟩
    · rintro result rfl
      exact ⟨post.1, fun behind => (post.2 behind).1⟩
    · intro result returned
      rw [same]
      exact rule.append left (leaves result returned)
  · rintro inside exchange ⟨⟨⟨step, inOrder⟩, permitted⟩, inside', same, both⟩
    rw [List.nil_append] at same
    subst same
    have along := both.mono fun _ _ steps => steps.1.1
    refine .inr ⟨scan, rows, health, past, inside, ⟨rfl, read, owner, oldest,
      untouched, ?_, along, step, inOrder⟩, permitted, left⟩
    intro dependent
    exact (follows dependent).after (Ne.symm dependent) along

/-- Other contracts' rows are as they were before a scan. -/
theorem ScanDone.rowAfter_other {final : Final indexerHost ContractResult}
    {now : Trace} (done : ScanDone runtime streams scan rows past final now)
    {contract : ContractName} (other : contract ≠ scan.contract)
    (row : Checkpoint) : rowAfter contract row now =
      rowAfter contract row past := by
  obtain ⟨inside, rfl, along, _⟩ := done
  exact Indexer.rowAfter_other row other along

/-- The clock of the loop. -/
theorem rowAfter_now (contract : ContractName) (row : Checkpoint)
    (past : Trace) (time : Nat) :
    rowAfter contract row (past ++ [⟨.now, time⟩]) =
      rowAfter contract row past :=
  rowAfter_quiet rfl

theorem Follows.congr {head : Nat} {now : Trace}
    (follows : Follows rows health head past)
    (same : rowAfter .identity (rows .identity) now =
      rowAfter .identity (rows .identity) past) :
    Follows rows health head now :=
  ⟨same ▸ follows.head, same ▸ follows.retained⟩

theorem ScanDone.read {final : Final indexerHost ContractResult}
    {now : Trace} (done : ScanDone runtime streams scan rows past final now)
    (read : HasRead options rows health past) :
    HasRead options rows health now := by
  obtain ⟨inside, rfl, _⟩ := done
  exact read.append inside

/-- The scans after identity's. -/
theorem indexEach_dependents
    (ordered : ∀ contract, ChainOrdered (streams contract))
    (answers : ∀ past exchange, allows past exchange →
      NodesAnswer streams exchange)
    {contracts : List ContractName} (distinct : contracts.Nodup)
    (dependent : ContractName.identity ∉ contracts)
    (read : HasRead options rows health past)
    (untouched : ∀ contract ∈ contracts,
      rowAfter contract (rows contract) past = rows contract)
    {head : Nat} (follows : Follows rows health head past)
    (left : rule.leaves past) (rounds : Nat) (result : IndexResult) :
    (indexEach runtime rounds options health.oldestLedger rows contracts head
      result).Ensures allows (RuledStep rule options) past
      fun _ _ => True := by
  induction contracts generalizing past result with
  | nil => trivial
  | cons contract contracts induction =>
      have different : ContractName.identity ≠ contract := by
        rintro rfl
        exact dependent List.mem_cons_self
      obtain ⟨fresh, distinct⟩ := List.nodup_cons.mp distinct
      rw [indexEach, bind_eq, call_bind]
      intro (time : Nat) _
      refine ⟨.inl trivial, ?_⟩
      dsimp only
      split
      · trivial
      · have followed : Follows rows health head (past ++ [⟨.now, time⟩]) :=
          follows.congr (rowAfter_now _ _ _ _)
        rw [bind_eq]
        have timed : rule.leaves (past ++ [⟨.now, time⟩]) :=
          rule.append left (rule.outside trivial)
        refine (indexContract_at ordered answers (read.append _) rfl rfl ?_
          (fun _ => followed) timed rounds).bind ?_ (fun _ _ _ => trivial)
          (fun _ _ => trivial)
        · rw [rowAfter_now]
          exact untouched contract List.mem_cons_self
        · rintro outcome later ⟨done, leaves⟩
          rw [if_neg (Ne.symm different)]
          apply induction distinct
          · exact fun member => dependent (List.mem_cons_of_mem _ member)
          · exact done.read (read.append _)
          · intro other member
            have isOther : other ≠ contract := by
              rintro rfl
              exact fresh member
            rw [done.rowAfter_other isOther, rowAfter_now]
            exact untouched other (List.mem_cons_of_mem _ member)
          · exact followed.congr (done.rowAfter_other different _)
          · exact leaves outcome rfl

/-- Where identity stopped, its dependents may follow. -/
theorem ScanDone.follows {result : ContractResult} {now : Trace}
    (done : ScanDone runtime streams scan rows past (.returned result) now)
    (isIdentity : scan.contract = .identity)
    (untouched : rowAfter .identity (rows .identity) past = rows .identity)
    (head : scan.head = health.latestLedger)
    (oldest : scan.oldest = health.oldestLedger) :
    Follows rows health (min scan.head result.lastLedger) now := by
  obtain ⟨inside, rfl, along, returned⟩ := done
  obtain ⟨row, retained⟩ := returned result rfl
  have grows := le_rowAfter along
  rw [isIdentity] at row retained grows
  constructor
  · rw [rowAfter_append, untouched, row]
    exact Nat.min_le_right _ _
  · intro sane
    rw [rowAfter_append, untouched, row]
    rcases Nat.lt_or_ge (rows .identity).lastLedger scan.head with
      behind | beyond
    · exact oldest ▸ retained behind
    · omega

theorem readCheckpoints_ensures
    {permits : Trace → Exchange indexerHost → Prop}
    (asks : ∀ answer : Except Thrown (ContractName → Option Checkpoint),
      permits past ⟨.readCheckpoints, answer⟩) :
    readCheckpoints.Ensures allows permits past fun final now =>
      ∀ rows, final = .returned rows → now = past ++
        [⟨.readCheckpoints, .ok fun contract => some (rows contract)⟩] := by
  rw [readCheckpoints, bind_eq, call_bind]
  intro (answer : Except Thrown (ContractName → Option Checkpoint)) _
  refine ⟨asks answer, ?_⟩
  cases answer with
  | error error =>
      intro _ never
      cases never
  | ok answer =>
      dsimp only
      split
      · rename_i identity reputation validation isIdentity isReputation
          isValidation
        intro rows isRows
        cases isRows
        refine congrArg (fun shown : ContractName → Option Checkpoint =>
          past ++ [⟨.readCheckpoints, .ok shown⟩]) ?_
        funext contract
        cases contract with
        | identity => exact isIdentity
        | reputation => exact isReputation
        | validation => exact isValidation
      all_goals
        intro _ never
        cases never

/-- Every exchange of a run, under a rule its scans keep to. -/
theorem indexContracts_ruled (rule : ScanRule runtime streams)
    (ordered : ∀ contract, ChainOrdered (streams contract))
    (answers : ∀ past exchange, allows past exchange →
      NodesAnswer streams exchange) (rounds : Nat) :
    (indexContracts runtime rounds options).Ensures allows
      (RuledStep rule options) [] fun _ _ => True := by
  rw [indexContracts, bind_eq]
  refine (readCheckpoints_ensures fun _ => .inl rfl).bind ?_
    (fun _ _ _ => trivial) (fun _ _ => trivial)
  intro rows first isFirst
  rw [isFirst rows rfl, bind_eq, call_bind]
  intro (answer : Except Thrown Health) _
  refine ⟨.inl trivial, ?_⟩
  cases answer with
  | error error => trivial
  | ok health =>
      dsimp only
      split
      · trivial
      · rename_i accepted
        have read : HasRead options rows health
            ([] ++ [⟨.readCheckpoints, .ok fun contract =>
              some (rows contract)⟩] ++ [⟨.getHealth, .ok health⟩]) := by
          refine ⟨by simp, by simp, fun contract aged => ?_⟩
          have listed : contract ∈ CONTRACTS := by
            cases contract <;> simp [CONTRACTS]
          by_contra refused
          refine accepted ⟨?_, by simpa using refused⟩
          exact List.ne_nil_of_mem
            (List.mem_filter.mpr ⟨listed, decide_eq_true aged⟩)
        have untouched : ∀ contract, rowAfter contract (rows contract)
            ([] ++ [⟨.readCheckpoints, .ok fun contract =>
              some (rows contract)⟩] ++ [⟨.getHealth, .ok health⟩]) =
            rows contract := fun _ => rfl
        rw [CONTRACTS, indexEach, bind_eq, call_bind]
        intro (time : Nat) _
        refine ⟨.inl trivial, ?_⟩
        dsimp only
        split
        · trivial
        · rw [bind_eq]
          have left : rule.leaves
              ([] ++ [⟨.readCheckpoints, .ok fun contract =>
                some (rows contract)⟩] ++ [⟨.getHealth, .ok health⟩] ++
                [⟨.now, time⟩]) :=
            rule.append (rule.append (rule.append rule.start
              (rule.outside trivial)) (rule.outside trivial))
              (rule.outside trivial)
          refine (indexContract_at ordered answers (read.append _) rfl rfl ?_
            (fun dependent => absurd rfl dependent) left rounds).bind ?_
            (fun _ _ _ => trivial) (fun _ _ => trivial)
          · rw [rowAfter_now]
            exact untouched .identity
          · rintro outcome later ⟨done, leaves⟩
            have followed := done.follows rfl
              ((rowAfter_now _ _ _ _).trans (untouched .identity)) rfl rfl
            rw [if_pos rfl]
            refine indexEach_dependents ordered answers (by decide)
              (by decide) (done.read (read.append _)) ?_ followed
              (leaves outcome rfl) rounds _
            intro contract member
            have other : contract ≠ .identity := by
              rintro rfl
              revert member
              decide
            rw [done.rowAfter_other other, rowAfter_now]
            exact untouched contract

/-- Every exchange of a run. -/
theorem indexContracts_ensures
    (ordered : ∀ contract, ChainOrdered (streams contract))
    (answers : ∀ past exchange, allows past exchange →
      NodesAnswer streams exchange) (rounds : Nat) :
    (indexContracts runtime rounds options).Ensures allows
      (IndexStep runtime options streams) [] fun _ _ => True := by
  apply (indexContracts_ruled (ScanRule.none runtime streams) ordered answers
    rounds).weaken
  rintro inside exchange _ (outside | ⟨scan, rows, health, before, made,
    isAt, _⟩)
  · exact .inl outside
  · exact .inr ⟨scan, rows, health, before, made, isAt⟩

end

end Stellar8004.Indexer
