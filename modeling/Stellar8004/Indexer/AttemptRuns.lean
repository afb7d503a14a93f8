import Stellar8004.Indexer.Attempts
import Stellar8004.Indexer.Convergence
import Stellar8004.Indexer.Dependents
import Stellar8004.Indexer.UpdateTimes

/-!
# Runs refine attempts

The tables behind any sequence of runs, each stopped anywhere, are those of an
attempt at a chain of packets: what is below the checkpoints has been written,
and what has run since is the beginning of one page.  So no statement fails,
nothing is dead-lettered or deferred, and runs that have passed the chain
agree.
-/

namespace Stellar8004.Indexer

open Program

/-! ## Between two checkpoints -/

/-- The tables are those of some attempts with these checkpoints, and of the
statements run since, which begin the page of one contract. -/
def Underway (runtime : Runtime) (chain : List EventPacket) (origin : Nat)
    (checkpoints : ContractName → Nat) (writes : List EventWrite)
    (tables : Tables) : Prop :=
  ∃ base final contract reached,
    Indexes runtime chain origin checkpoints base ∧
    (contract ≠ .identity → reached ≤ checkpoints .identity) ∧
    checkpoints contract ≤ reached ∧
    Begins runtime
      (parentsFirst (between chain contract (checkpoints contract) reached))
      writes ∧
    writeAll runtime (writes.map fun write => ("", write.packet)) base =
      .ok final ∧
    final.settled = tables.settled

section

variable {runtime : Runtime} {chain : List EventPacket} {origin : Nat}
  {checkpoints : ContractName → Nat} {tables after : Tables}
  {writes more : List EventWrite}

theorem writeAll_append_ok {first second : List (String × EventPacket)}
    (written : writeAll runtime (first ++ second) tables = .ok after) :
    ∃ middle, writeAll runtime first tables = .ok middle ∧
      writeAll runtime second middle = .ok after := by
  rw [writeAll_append] at written
  cases ran : writeAll runtime first tables with
  | error failure =>
      rw [ran] at written
      cases written
  | ok middle =>
      rw [ran] at written
      exact ⟨middle, rfl, written⟩

theorem Indexes.underway
    (indexed : Indexes runtime chain origin checkpoints after)
    (same : after.settled = tables.settled) :
    Underway runtime chain origin checkpoints [] tables := by
  refine ⟨after, after, .identity, checkpoints .identity, indexed, ?_,
    Nat.le_refl _, ⟨List.nil_prefix, ?_⟩, rfl, same⟩
  · exact fun different => absurd rfl different
  · exact fun write member => nomatch member

/-- A page of some attempts is written whole. -/
theorem Indexes.page_written
    (indexed : Indexes runtime chain origin checkpoints tables)
    (wellFormed : WellFormed runtime chain)
    (later : ∀ packet ∈ chain, origin < packet.ledger)
    {contract : ContractName} {reached : Nat}
    (identityFirst : contract ≠ .identity →
      reached ≤ checkpoints .identity) :
    ∃ after, writeAll runtime (Batch.ordered
      { now := ""
        packets := between chain contract (checkpoints contract) reached })
      tables = .ok after := by
  obtain ⟨after, written⟩ := indexed.written wellFormed later contract
    [{ now := ""
       packets := between chain contract (checkpoints contract) reached }]
    identityFirst (by simp) (by simp)
  rw [List.flatMap_cons, List.flatMap_nil, List.append_nil] at written
  exact ⟨after, written⟩

theorem Begins.ordered {page : List EventPacket}
    (begins : Begins runtime (parentsFirst page) writes) :
    writes.map (fun write => ("", write.packet)) <+:
      Batch.ordered { now := "", packets := page } := by
  have mapped := begins.packets.map fun packet => (("", packet) :
    String × EventPacket)
  rw [List.map_map] at mapped
  exact mapped

/-- What is written so far is a state of some attempts itself: the one that
stops here. -/
theorem Underway.settle
    (underway : Underway runtime chain origin checkpoints writes tables) :
    ∃ settled, Indexes runtime chain origin checkpoints settled ∧
      settled.settled = tables.settled := by
  obtain ⟨base, final, contract, reached, indexed, identityFirst, forward,
    begins, written, same⟩ := underway
  refine ⟨final, ?_, same⟩
  have cut := List.prefix_iff_eq_take.mp begins.ordered
  rw [cut] at written
  have stopped := indexed.attempt contract reached (checkpoints contract) _ []
    [] { now := ""
         packets := between chain contract (checkpoints contract) reached }
    identityFirst (by simp) (by simp) written (Nat.le_refl _) forward (by
      intro batch isNext packet inside
      obtain rfl := List.mem_singleton.mp isNext
      have chosen := (List.mem_filter.mp inside).2
      simp only [Bool.and_eq_true, decide_eq_true_eq] at chosen
      exact chosen.2.1)
  rwa [Function.update_eq_self] at stopped

/-- The next batch of a page runs. -/
theorem Underway.write
    (underway : Underway runtime chain origin checkpoints writes tables)
    (wellFormed : WellFormed runtime chain)
    (later : ∀ packet ∈ chain, origin < packet.ledger)
    {contract : ContractName} {reached : Nat}
    (identityFirst : contract ≠ .identity →
      reached ≤ checkpoints .identity)
    (forward : checkpoints contract ≤ reached)
    (begins : Begins runtime
      (parentsFirst (between chain contract (checkpoints contract) reached))
      (writes ++ more)) (defaultTime : String) :
    ∃ after counts,
      tables.execAll defaultTime more = .ok (after, counts) ∧
        Underway runtime chain origin checkpoints (writes ++ more) after := by
  obtain ⟨base, final, _, _, indexed, _, _, _, written, same⟩ := underway
  obtain ⟨whole, page⟩ := indexed.page_written wellFormed later identityFirst
  obtain ⟨rest, isWhole⟩ := begins.ordered
  rw [← isWhole] at page
  obtain ⟨ended, all, _⟩ := writeAll_append_ok page
  have split := all
  rw [List.map_append] at split
  obtain ⟨middle, first, second⟩ := writeAll_append_ok split
  rw [written] at first
  cases first
  obtain ⟨after, counts, ran, agree⟩ := Tables.execAll_of_written
    (fun write member => begins.bound write (List.mem_append_right _ member))
    second same defaultTime
  exact ⟨after, counts, ran, base, ended, contract, reached, indexed,
    identityFirst, forward, begins, all, agree⟩

/-- A page that has run may be saved. -/
theorem Underway.save
    (underway : Underway runtime chain origin checkpoints writes tables)
    {contract : ContractName} {reached : Nat}
    (identityFirst : contract ≠ .identity →
      reached ≤ checkpoints .identity)
    (forward : checkpoints contract ≤ reached)
    (complete : Completes runtime
      (parentsFirst (between chain contract (checkpoints contract) reached))
      writes) :
    Underway runtime chain origin
      (Function.update checkpoints contract reached) [] tables := by
  obtain ⟨base, final, _, _, indexed, _, _, _, written, same⟩ := underway
  have whole : writes.map (fun write => ("", write.packet)) =
      Batch.ordered
        { now := ""
          packets := between chain contract (checkpoints contract)
            reached } := by
    unfold Batch.ordered
    rw [← complete.packets, List.map_map]
    rfl
  rw [whole] at written
  have saved := indexed.attempt contract reached reached 0
    [{ now := ""
       packets := between chain contract (checkpoints contract) reached }] []
    { now := "", packets := [] } identityFirst (by simp) (by simp)
    (by simpa using written) forward (Nat.le_refl _) (by simp)
  exact saved.underway same

end

/-! ## Runs -/

/-- The streams the nodes serve are the chain's, and can be read. -/
structure Feeds (chain : List EventPacket) (streams : Streams) : Prop where
  ordered : ∀ contract, ChainOrdered (streams contract)
  readable : ∀ contract, Interpretable contract (streams contract)
  packets : ∀ contract, (streams contract).filterMap (packetOf contract) =
    chain.filter fun packet => packet.contract = contract

/-- A run that may not clamp. -/
abbrev UnclampedRun :=
  { run : RunSettings // run.options.allowRetentionClamp = false }

def UnclampedRun.program (runtime : Runtime) (run : UnclampedRun) :
    IndexerTask IndexResult :=
  run.1.program runtime

/-- An empty database whose checkpoints are at one ledger. -/
def genesis (origin : Nat) : Store :=
  { tables := Tables.empty
    rows := fun _ => { lastLedger := origin, deferAttempts := 0 } }

/-- What holds over any sequence of runs.  `rows` are the checkpoints the
latest run started from. -/
structure Attempting (runtime : Runtime) (chain : List EventPacket)
    (origin : Nat) (past current : Trace) (store : Store)
    (rows : ContractName → Checkpoint) : Prop where
  tracked : ∀ contract,
    store.rows contract = rowAfter contract (rows contract) current
  read : ∀ answer, (⟨.readCheckpoints, .ok answer⟩ :
    Exchange indexerHost) ∈ current → answer = fun contract =>
      some (rows contract)
  undeferred : ∀ contract, (store.rows contract).deferAttempts = 0
  unfailing : ¬ Failing (past ++ current)
  unlettered : Unlettered (past ++ current)
  underway : Underway runtime chain origin
    (fun contract => (store.rows contract).lastLedger) (unsaved current)
    store.tables

section

variable {runtime : Runtime} {chain : List EventPacket} {origin : Nat}
  {streams : Streams} {options : IndexOptions} {past current before inside :
  Trace} {store after : Store} {rows : ContractName → Checkpoint}
  {exchange : Exchange indexerHost} {scan : Scan} {health : Health}

theorem Feeds.page_eq (feeds : Feeds chain streams)
    (contract : ContractName) (low high : Nat) :
    pagePackets contract (streams contract) low high =
      between chain contract low high := by
  have commutes : pagePackets contract (streams contract) low high =
      ((streams contract).filterMap (packetOf contract)).filter fun packet =>
        low < packet.ledger && packet.ledger ≤ high := by
    unfold pagePackets
    rw [List.filterMap_filter, List.filter_filterMap]
    apply List.filterMap_congr
    intro event _
    cases parsed : packetOf contract event with
    | none => simp
    | some packet =>
        have ledger := ledger_of_packetOf parsed
        simp [Option.filter, ledger]
  rw [commutes, feeds.packets, List.filter_filter]
  apply List.filter_congr
  intro packet _
  rw [Bool.and_comm]

theorem Attempting.start (runtime : Runtime) (chain : List EventPacket)
    (origin : Nat) :
    Attempting runtime chain origin [] [] (genesis origin)
      (genesis origin).rows where
  tracked _ := rfl
  read _ member := nomatch member
  undeferred _ := rfl
  unfailing := fun ⟨_, member, _⟩ => nomatch member
  unlettered _ _ member := nomatch member
  underway := Indexes.start.underway rfl

/-- The next run starts from the rows the earlier ones left. -/
theorem Attempting.next
    (attempting : Attempting runtime chain origin past current store rows) :
    Attempting runtime chain origin (past ++ current) [] store store.rows := by
  obtain ⟨settled, indexed, same⟩ := attempting.underway.settle
  refine ⟨fun _ => rfl, fun _ member => (nomatch member),
    attempting.undeferred, ?_, ?_, indexed.underway same⟩
  · rw [List.append_nil]
    exact attempting.unfailing
  · rw [List.append_nil]
    exact attempting.unlettered

/-- One more exchange, by what it changes. -/
theorem Attempting.snoc
    (attempting : Attempting runtime chain origin past current store rows)
    (tracked : ∀ contract, after.rows contract =
      (savedCheckpoint contract exchange).getD (store.rows contract))
    (read : ∀ answer, exchange = ⟨.readCheckpoints, .ok answer⟩ →
      answer = fun contract => some (rows contract))
    (undeferred : ∀ contract, (after.rows contract).deferAttempts = 0)
    (unfailing : ¬ FailedConstraint exchange)
    (unlettered : ∀ entry reply, exchange ≠ ⟨.deadLetter entry, reply⟩)
    (underway : Underway runtime chain origin
      (fun contract => (after.rows contract).lastLedger)
      (unsaved (current ++ [exchange])) after.tables) :
    Attempting runtime chain origin past (current ++ [exchange]) after
      rows where
  tracked contract := by
    rw [rowAfter_snoc, ← attempting.tracked contract]
    exact tracked contract
  read answer member := by
    rcases List.mem_append.mp member with old | new
    · exact attempting.read answer old
    · exact read answer (List.mem_singleton.mp new).symm
  undeferred := undeferred
  unfailing := by
    rw [← List.append_assoc]
    rintro ⟨other, member, failed⟩
    rcases List.mem_append.mp member with old | new
    · exact attempting.unfailing ⟨other, old, failed⟩
    · cases List.mem_singleton.mp new
      exact unfailing failed
  unlettered := by
    rw [← List.append_assoc]
    intro entry reply member
    rcases List.mem_append.mp member with old | new
    · exact attempting.unlettered entry reply old
    · exact unlettered entry reply (List.mem_singleton.mp new).symm
  underway := underway

/-- An exchange that changes nothing. -/
theorem Attempting.quiet
    (attempting : Attempting runtime chain origin past current store rows)
    (saves : ∀ contract, savedCheckpoint contract exchange = none)
    (still : movesRow exchange = false) (idle : tookEffect exchange = [])
    (read : ∀ answer, exchange = ⟨.readCheckpoints, .ok answer⟩ →
      answer = fun contract => some (rows contract))
    (unfailing : ¬ FailedConstraint exchange)
    (unlettered : ∀ entry reply, exchange ≠ ⟨.deadLetter entry, reply⟩) :
    Attempting runtime chain origin past (current ++ [exchange]) store
      rows := by
  refine attempting.snoc ?_ read attempting.undeferred unfailing unlettered ?_
  · intro contract
    rw [saves contract]
    rfl
  · rw [unsaved_quiet still idle]
    exact attempting.underway

/-- The scan an exchange belongs to, with what the invariant says of it. -/
structure ScanNow (runtime : Runtime) (streams : Streams) (past : Trace)
    (store : Store) (exchange : Exchange indexerHost) (scan : Scan)
    (start : Checkpoint) (inside : Trace) : Prop where
  step : AttemptStep runtime (streams scan.contract) scan start inside exchange
  own : ScanStep runtime scan (streams scan.contract) start inside exchange
  unfailing : ¬ Failing inside
  young : ¬ start.lastLedger + 1 < scan.oldest
  row : store.rows scan.contract = rowAfter scan.contract start inside
  unsaved : unsaved past = unsaved inside
  head : scan.contract ≠ .identity →
    scan.head ≤ (store.rows .identity).lastLedger

theorem Attempting.scanNow
    (attempting : Attempting runtime chain origin past current store rows)
    {others : ContractName → Checkpoint}
    (unclamped : options.allowRetentionClamp = false)
    (isAt : ScanAt runtime options streams current exchange scan others health
      before inside)
    (step : AttemptStep runtime (streams scan.contract) scan
      (others scan.contract) inside exchange)
    (left : Failing before ∨ unsaved before = []) :
    ScanNow runtime streams current store exchange scan
      (others scan.contract) inside := by
  have sameRows : others = rows := by
    have member : (⟨.readCheckpoints, .ok fun contract =>
        some (others contract)⟩ : Exchange indexerHost) ∈ current := by
      rw [isAt.trace]
      exact List.mem_append_left _ isAt.read.checkpoints
    funext contract
    exact Option.some.inj (congrFun (attempting.read _ member) contract)
  subst sameRows
  have none : ∀ {part : Trace}, (∀ other ∈ part, other ∈ current) →
      ¬ Failing part := by
    rintro part within ⟨other, member, failed⟩
    exact attempting.unfailing
      ⟨other, List.mem_append_right _ (within other member), failed⟩
  have unfailing : ¬ Failing inside := none fun other member => by
    rw [isAt.trace]
    exact List.mem_append_right _ member
  have settled : unsaved before = [] := by
    refine left.resolve_left (none fun other member => ?_)
    rw [isAt.trace]
    exact List.mem_append_left _ member
  refine ⟨step, isAt.step, unfailing, ?_, ?_, ?_, ?_⟩
  · intro aged
    rw [isAt.oldest] at aged
    have allowed := isAt.read.allowed scan.contract aged
    rw [unclamped] at allowed
    cases allowed
  · rw [attempting.tracked, isAt.trace, rowAfter_append, isAt.untouched]
  · rw [isAt.trace]
    exact unsaved_append settled inside
  · intro dependent
    rw [attempting.tracked]
    exact (isAt.follows dependent).head

/-- What a batch does: it runs, and continues its page. -/
theorem Attempting.batch
    (attempting : Attempting runtime chain origin past current store rows)
    (feeds : Feeds chain streams) (wellFormed : WellFormed runtime chain)
    (later : ∀ packet ∈ chain, origin < packet.ledger)
    {writes : List EventWrite} {reply : Reply (List Nat)}
    {start : Checkpoint}
    (now : ScanNow runtime streams current store ⟨.batch writes, reply⟩ scan
      start inside) (defaultTime : String) :
    ∃ after counts,
      store.tables.execAll defaultTime writes = .ok (after, counts) ∧
        Underway runtime chain origin
          (fun contract => (store.rows contract).lastLedger)
          (unsaved current ++ writes) after := by
  obtain ⟨reached, forward, inHead, begins⟩ :=
    now.step.resolve_left now.unfailing
  rw [← now.row] at forward begins
  rw [feeds.page_eq, ← now.unsaved] at begins
  exact attempting.underway.write wellFormed later
    (fun dependent => inHead.trans (now.head dependent)) forward begins
    defaultTime

/-- What a checkpoint does: the page it follows has run. -/
theorem Attempting.save
    (attempting : Attempting runtime chain origin past current store rows)
    (feeds : Feeds chain streams) {contract : ContractName}
    {checkpoint : Checkpoint} {owner text : String}
    {reply : Reply (Nat × Nat)} {start : Checkpoint}
    (now : ScanNow runtime streams current store
      ⟨.saveCheckpoint contract checkpoint owner text, reply⟩ scan start
      inside) :
    Attempting runtime chain origin past
      (current ++ [⟨.saveCheckpoint contract checkpoint owner text, reply⟩])
      (store.afterSave
        ⟨.saveCheckpoint contract checkpoint owner text, reply⟩) rows := by
  obtain rfl : contract = scan.contract := now.own.1.1
  obtain ⟨forward, inHead, uncounted, complete⟩ :=
    (now.step.resolve_left now.unfailing).resolve_left now.young
  rw [← now.row] at forward complete
  rw [feeds.page_eq, ← now.unsaved] at complete
  generalize isExchange : (⟨.saveCheckpoint scan.contract checkpoint owner text,
    reply⟩ : Exchange indexerHost) = exchange
  have others : ∀ other, other ≠ scan.contract →
      savedCheckpoint other exchange = none := by
    intro other different
    rw [← isExchange]
    rcases savedCheckpoint_save other scan.contract checkpoint owner text
      reply with unsaved | ⟨same, _⟩
    · exact unsaved
    · exact absurd same different
  have moved : movesRow exchange =
      (savedCheckpoint scan.contract exchange).isSome := by
    rw [← isExchange]
    rfl
  have idle : tookEffect exchange = [] := by
    rw [← isExchange]
    rfl
  apply attempting.snoc (fun _ => rfl)
  · rintro answer rfl
    cases isExchange
  · intro other
    simp only [Store.afterSave]
    rcases savedCheckpoint_save other scan.contract checkpoint owner text
      reply with unsaved | ⟨_, saved⟩
    · rw [← isExchange, unsaved]
      exact attempting.undeferred other
    · rw [← isExchange, saved]
      exact uncounted
  · rw [← isExchange]
    exact id
  · rintro entry answer rfl
    cases isExchange
  · cases saved : savedCheckpoint scan.contract exchange with
    | none =>
        rw [saved] at moved
        rw [unsaved_quiet moved idle]
        have same : (store.afterSave exchange).rows = store.rows := by
          funext other
          simp only [Store.afterSave]
          by_cases isSaved : other = scan.contract
          · rw [isSaved, saved]
            rfl
          · rw [others other isSaved]
            rfl
        rw [same]
        exact attempting.underway
    | some kept =>
        have isKept : kept = checkpoint := by
          rcases savedCheckpoint_save scan.contract scan.contract checkpoint
            owner text reply with unsaved | ⟨_, stored⟩
          · rw [isExchange, saved] at unsaved
            cases unsaved
          · rw [isExchange, saved] at stored
            exact Option.some.inj stored
        rw [saved] at moved
        have settled : unsaved (current ++ [exchange]) = [] := by
          rw [unsaved_snoc, moved]
          rfl
        rw [settled]
        have advanced : (fun contract =>
            ((store.afterSave exchange).rows contract).lastLedger) =
            Function.update
              (fun contract => (store.rows contract).lastLedger)
              scan.contract checkpoint.lastLedger := by
          funext other
          simp only [Store.afterSave, Function.update_apply]
          split
          · rename_i isSaved
            rw [isSaved, saved, isKept]
            rfl
          · rename_i different
            rw [others other different]
            rfl
        rw [advanced]
        exact attempting.underway.save
          (fun dependent => inHead.trans (now.head dependent)) forward
          complete

/-- One exchange of a scan. -/
theorem Attempting.serve
    (attempting : Attempting runtime chain origin past current store rows)
    (feeds : Feeds chain streams) (wellFormed : WellFormed runtime chain)
    (later : ∀ packet ∈ chain, origin < packet.ledger) {start : Checkpoint}
    (now : ScanNow runtime streams current store exchange scan start inside)
    (served : Serves streams store exchange after) :
    Attempting runtime chain origin past (current ++ [exchange]) after
      rows := by
  cases served with
  | @batched writes defaultTime tables counts ran =>
      obtain ⟨result, _, again, underway⟩ :=
        attempting.batch feeds wellFormed later now defaultTime
      rw [ran] at again
      cases again
      refine attempting.snoc (fun _ => rfl) (fun _ never => nomatch never)
        attempting.undeferred ?_ (fun _ _ never => nomatch never) ?_
      · rintro ⟨error, never, _⟩
        cases never
      · rw [unsaved_snoc]
        exact underway
  | @batchLost writes defaultTime tables counts error ran other =>
      obtain ⟨result, _, again, underway⟩ :=
        attempting.batch feeds wellFormed later now defaultTime
      rw [ran] at again
      cases again
      refine attempting.snoc (fun _ => rfl) (fun _ never => nomatch never)
        attempting.undeferred ?_ (fun _ _ never => nomatch never) ?_
      · rintro ⟨_, ⟨⟩, isConstraint⟩
        exact isConstraint other
      · rw [unsaved_snoc]
        exact underway
  | @batchFailed writes error violates =>
      refine attempting.quiet (fun _ => rfl) rfl rfl
        (fun _ never => nomatch never) ?_ (fun _ _ never => nomatch never)
      rintro ⟨_, ⟨⟩, isConstraint⟩
      obtain ⟨defaultTime, violation, failed⟩ := violates isConstraint
      obtain ⟨result, _, ran, _⟩ :=
        attempting.batch feeds wellFormed later now defaultTime
      rw [ran] at failed
      cases failed
  | ran isRan => exact absurd now.step now.unfailing
  | runLost isRan other => exact absurd now.step now.unfailing
  | runFailed write violates => exact absurd now.step now.unfailing
  | lettered entry reply =>
      rcases now.step with failing | aged
      · exact absurd failing now.unfailing
      · exact absurd aged now.young
  | saved contract checkpoint owner text reply =>
      exact attempting.save feeds now
  | read => exact absurd now.own.1 id
  | _ =>
      exact attempting.quiet (fun _ => rfl) rfl rfl
        (fun _ never => nomatch never) id (fun _ _ never => nomatch never)

/-- One exchange outside the scans. -/
theorem Attempting.outside
    (attempting : Attempting runtime chain origin past current store rows)
    (outside : match exchange.request with
      | .readCheckpoints => current = []
      | .getHealth => True
      | .now => True
      | _ => False)
    (served : Serves streams store exchange after) :
    Attempting runtime chain origin past (current ++ [exchange]) after
      rows := by
  cases served with
  | read =>
      refine attempting.quiet (fun _ => rfl) rfl rfl ?_ id
        (fun _ _ never => nomatch never)
      -- nothing was saved before the rows are read
      obtain rfl : current = [] := outside
      have same : store.rows = rows := funext attempting.tracked
      rintro answer ⟨⟩
      rw [same]
  | now time =>
      exact attempting.quiet (fun _ => rfl) rfl rfl
        (fun _ never => nomatch never) id (fun _ _ never => nomatch never)
  | healthy health retains =>
      exact attempting.quiet (fun _ => rfl) rfl rfl
        (fun _ never => nomatch never) id (fun _ _ never => nomatch never)
  | unhealthy error =>
      exact attempting.quiet (fun _ => rfl) rfl rfl
        (fun _ never => nomatch never) id (fun _ _ never => nomatch never)
  | unread error =>
      exact attempting.quiet (fun _ => rfl) rfl rfl
        (fun _ never => nomatch never) id (fun _ _ never => nomatch never)
  | _ => exact absurd outside id

end

section

variable {runtime : Runtime} {chain : List EventPacket} {origin : Nat}
  {streams : Streams} {past current : Trace} {run : UnclampedRun}
  {store : Store}

theorem attempting_of_runs (feeds : Feeds chain streams)
    (wellFormed : WellFormed runtime chain)
    (later : ∀ packet ∈ chain, origin < packet.ledger)
    (runs : Successive (UnclampedRun.program runtime) (Serves streams)
      (genesis origin) past run current store) :
    ∃ rows,
      Attempting runtime chain origin past current store rows := by
  apply runs.invariant
    (fun run : UnclampedRun =>
      RuledStep (attemptRule runtime feeds.ordered feeds.readable)
        run.1.options)
    (fun run => indexContracts_ruled _ feeds.ordered
      (fun _ _ answered => answered) run.1.rounds) Serves.nodesAnswer
    (fun past current store => ∃ rows,
      Attempting runtime chain origin past current store rows)
  · exact ⟨_, .start runtime chain origin⟩
  · rintro past current store ⟨rows, attempting⟩
    exact ⟨store.rows, attempting.next⟩
  · rintro past current store after run exchange ⟨rows, attempting⟩ step
      served
    refine ⟨rows, ?_⟩
    rcases step with outside | ⟨scan, others, health, before, inside, isAt,
      attempt, left⟩
    · exact attempting.outside outside served
    · exact attempting.serve feeds wellFormed later
        (attempting.scanNow run.2 isAt attempt left) served

end

end Stellar8004.Indexer
