import Stellar8004.Indexer.ContractScans

/-!
# Every scan is an attempt at one page

Between two saved checkpoints a scan runs the statements of one page of
complete ledgers, in the order of `parentsFirst`, and it saves a checkpoint
only when all of them have run.  This holds of every contract, whatever the
database answers, until a statement fails on a constraint.
-/

namespace Stellar8004.Indexer

open Program

/-! ## What has run since the last checkpoint -/

/-- The statements an exchange has run, whether it was answered or not. -/
def tookEffect : Exchange indexerHost → List EventWrite
  | ⟨.batch writes, .answered _⟩ => writes
  | ⟨.batch writes, .lost _⟩ => writes
  | ⟨.run write, .answered _⟩ => [write]
  | ⟨.run write, .lost _⟩ => [write]
  | _ => []

/-- The exchange changed a row of `indexer_state`. -/
def movesRow : Exchange indexerHost → Bool
  | ⟨.saveCheckpoint contract checkpoint owner now, reply⟩ =>
      (savedCheckpoint contract
        ⟨.saveCheckpoint contract checkpoint owner now, reply⟩).isSome
  | _ => false

/-- The statements run since a checkpoint was last saved. -/
def unsaved (trace : Trace) : List EventWrite :=
  trace.foldl (fun writes exchange =>
    if movesRow exchange then [] else writes ++ tookEffect exchange) []

@[simp] theorem unsaved_nil : unsaved [] = [] := rfl

theorem unsaved_snoc (trace : Trace) (exchange : Exchange indexerHost) :
    unsaved (trace ++ [exchange]) =
      if movesRow exchange then []
      else unsaved trace ++ tookEffect exchange := by
  simp [unsaved]

theorem unsaved_quiet {trace : Trace} {exchange : Exchange indexerHost}
    (still : movesRow exchange = false) (idle : tookEffect exchange = []) :
    unsaved (trace ++ [exchange]) = unsaved trace := by
  simp [unsaved_snoc, still, idle]

/-- Where nothing was left unsaved, only what comes after counts. -/
theorem unsaved_append {first : Trace} (settled : unsaved first = [])
    (second : Trace) : unsaved (first ++ second) = unsaved second := by
  unfold unsaved at settled ⊢
  rw [List.foldl_append, settled]

/-- The statements of a page, from its first on. -/
structure Begins (runtime : Runtime) (order : List EventPacket)
    (writes : List EventWrite) : Prop where
  packets : writes.map EventWrite.packet <+: order
  bound : ∀ write ∈ writes, write.Bound runtime

/-- All statements of a page. -/
structure Completes (runtime : Runtime) (order : List EventPacket)
    (writes : List EventWrite) : Prop where
  packets : writes.map EventWrite.packet = order
  bound : ∀ write ∈ writes, write.Bound runtime

/-- What a call of `writeEvents` sends when all its events can be read: the
statements of its page in order and no dead letter, until one fails. -/
def PageOrder (runtime : Runtime) (order : List EventPacket) (past : Trace) :
    Exchange indexerHost → Prop
  | ⟨.batch writes, _⟩ =>
      Failing past ∨ Begins runtime order (unsaved past ++ writes)
  | ⟨.run _, _⟩ => Failing past
  | ⟨.deadLetter _, _⟩ => Failing past
  | _ => True

/-- The events can be read, or are of no interest. -/
def Interpretable (contract : ContractName) (events : List EventResponse) :
    Prop :=
  ∀ event ∈ events, ∀ reason, interpret contract event ≠ .invalid reason

section

variable {runtime : Runtime} {contract : ContractName} {skip : Bool}
  {order : List EventPacket} {past : Trace}
  {allows permits : Trace → Exchange indexerHost → Prop}

/-- Events that can be read need no dead letter. -/
theorem readEvents_interpretable {events : List EventResponse}
    (readable : Interpretable contract events) :
    readEvents contract events =
      .returns (events.filterMap (packetOf contract), 0) := by
  induction events with
  | nil => rfl
  | cons event events induction =>
      have rest := induction fun other member =>
        readable other (List.mem_cons_of_mem _ member)
      unfold readEvents
      cases interpreted : interpret contract event with
      | parsed data => simp [rest, packetOf, interpreted]
      | ignored reason => simp [rest, packetOf, interpreted]
      | invalid reason =>
          exact absurd interpreted (readable event List.mem_cons_self reason)

theorem pgNow_keeps (asks : ∀ time : Nat, permits past ⟨.now, time⟩) :
    (pgNow runtime).Ensures allows permits past fun _ now =>
      unsaved now = unsaved past := by
  rw [pgNow, bind_eq, call_bind]
  intro (time : Nat) _
  refine ⟨asks time, ?_⟩
  have same : unsaved (past ++ [⟨.now, time⟩]) = unsaved past :=
    unsaved_quiet rfl rfl
  dsimp only
  split <;> exact same

theorem recordMissingParents_keeps (updates : List EventPacket)
    (asks : ∀ rows reply, permits past ⟨.recordMissing rows, reply⟩) :
    (recordMissingParents updates).Ensures allows permits past
      fun _ now => unsaved now = unsaved past := by
  unfold recordMissingParents
  split
  · exact rfl
  · rw [bind_eq, call_bind]
    intro (reply : Reply (List Nat)) _
    refine ⟨asks _ reply, ?_⟩
    have same : unsaved (past ++ [⟨.recordMissing
        (updates.filterMap missingParentStatement), reply⟩]) =
      unsaved past := unsaved_quiet rfl rfl
    cases answer : reply.result with
    | ok changes =>
        simp only [answer]
        exact same
    | error error =>
        simp only [answer]
        exact same

/-- After a failure nothing is said of the order. -/
theorem pageOrder_of_failing (failing : Failing past)
    (program : IndexerTask α) :
    program.Ensures allows (PageOrder runtime order) past
      fun _ now => Failing now := by
  have silent : program.Ensures allows (PageOrder runtime order) past
      fun _ _ => True := by
    apply ensures_of_forall
    intro later exchange
    have failed := failing.append later
    obtain ⟨request, answer⟩ := exchange
    cases request with
    | batch writes => exact .inl failed
    | run write => exact failed
    | deadLetter entry => exact failed
    | _ => trivial
  exact silent.mono fun final later _ => failing.append later

/-- One batch of a page. -/
theorem writeBatch_attempt {writes : List EventWrite}
    (begins : Begins runtime order (unsaved past ++ writes)) :
    (writeBatch contract skip writes).Ensures allows (PageOrder runtime order)
      past fun final now => Failing now ∨ (∃ error, final = .threw error) ∨
        (∃ changes, final = .returned (.finished changes 0)) ∧
          unsaved now = unsaved past ++ writes := by
  rw [writeBatch, bind_eq, call_bind]
  intro (reply : Reply (List Nat)) _
  refine ⟨.inr begins, ?_⟩
  cases answer : reply.result with
  | ok changes =>
      obtain rfl : reply = .answered changes := by
        cases reply <;> cases answer
        rfl
      exact .inr (.inr ⟨⟨_, rfl⟩, unsaved_snoc _ _⟩)
  | error error =>
      cases failed : constraintFailure error with
      | none =>
          simp only [answer, failed]
          exact .inr (.inl ⟨error, rfl⟩)
      | some failure =>
          simp only [answer, failed]
          have failing : Failing (past ++ [⟨.batch writes, reply⟩]) := by
            refine ⟨_, List.mem_append_right _ List.mem_cons_self, error,
              answer, ?_⟩
            rw [failed]
            exact Option.some_ne_none failure
          exact (pageOrder_of_failing failing _).mono
            fun _ _ failed => .inl failed

/-- What a call leaves: a failure, or the statements of its whole page. -/
def PagePost (runtime : Runtime) (order : List EventPacket)
    (final : Final indexerHost Written) (now : Trace) : Prop :=
  Failing now ∨ ∀ written, final = .returned written →
    written.deferred = false ∧ Completes runtime order (unsaved now)

/-- The batches of a page, after those already written. -/
theorem writeBatches_attempt (now : String)
    {chunks : List (List EventPacket)}
    (packets : (unsaved past).map EventWrite.packet ++ chunks.flatten = order)
    (bound : ∀ write ∈ unsaved past, write.Bound runtime)
    (processed skipped : Nat) :
    (writeBatches runtime contract skip now chunks processed
      skipped).Ensures allows (PageOrder runtime order) past
      (PagePost runtime order) := by
  induction chunks generalizing past processed skipped with
  | nil =>
      right
      rintro written ⟨⟩
      rw [List.flatten_nil, List.append_nil] at packets
      exact ⟨rfl, packets, bound⟩
  | cons chunk chunks induction =>
      unfold writeBatches
      cases ready : chunk.mapM (eventWrite runtime now) with
      | error message => exact .inr fun written never => by cases never
      | ok writes =>
          simp only [bind_eq]
          obtain ⟨same, fresh⟩ := mapM_eventWrite_ok ready
          rw [List.flatten_cons, ← same, ← List.append_assoc,
            ← List.map_append] at packets
          have all : ∀ write ∈ unsaved past ++ writes,
              write.Bound runtime := by
            intro write member
            rcases List.mem_append.mp member with old | new
            · exact bound write old
            · exact fresh write new
          have begins : Begins runtime order (unsaved past ++ writes) :=
            ⟨⟨_, packets⟩, all⟩
          refine (writeBatch_attempt begins).bind ?_ ?_ ?_
          · rintro replayed later (failing | ⟨_, never⟩ | ⟨⟨changes, isDone⟩,
              grown⟩)
            · exact (pageOrder_of_failing failing _).mono
                fun _ _ failed => .inl failed
            · cases never
            · cases isDone
              refine (recordMissingParents_keeps _ fun _ _ => trivial).bind
                ?_ ?_ ?_
              · intro recorded after kept
                apply induction
                · rw [kept, grown]
                  exact packets
                · rw [kept, grown]
                  exact all
              · exact fun _ _ _ => .inr fun written never => by cases never
              · exact fun _ _ => .inr fun written never => by cases never
          · exact fun _ _ _ => .inr fun written never => by cases never
          · exact fun _ _ => .inr fun written never => by cases never

/-- A call of `writeEvents` whose events can all be read runs the statements
of its page in the order of `parentsFirst`. -/
theorem writeEvents_attempt {events : List EventResponse}
    (readable : Interpretable contract events)
    (settled : unsaved past = []) :
    (writeEvents runtime contract events skip).Ensures allows
      (PageOrder runtime
        (parentsFirst (events.filterMap (packetOf contract)))) past
      (PagePost runtime
        (parentsFirst (events.filterMap (packetOf contract)))) := by
  rw [writeEvents, readEvents_interpretable readable]
  simp only [bind_eq, returns_bind]
  refine (pgNow_keeps fun _ => trivial).bind ?_ ?_ ?_
  · intro now clock kept
    rw [settled] at kept
    apply writeBatches_attempt
    · rw [kept, flatten_batches]
      rfl
    · rw [kept]
      exact fun write member => by cases member
  · exact fun _ _ _ => .inr fun written never => by cases never
  · exact fun _ _ => .inr fun written never => by cases never

end

/-! ## The scan -/

/-- The packets of a stream in the ledgers after `low` up to `high`. -/
def pagePackets (contract : ContractName) (stream : List EventResponse)
    (low high : Nat) : List EventPacket :=
  (stream.filter fun event => low < event.ledger ∧ event.ledger ≤ high
    ).filterMap (packetOf contract)

/-- What a scan sends, by the row it has saved: statements of one page after
the row, and a checkpoint when that page has run. -/
def AttemptStep (runtime : Runtime) (stream : List EventResponse)
    (scan : Scan) (start : Checkpoint) (past : Trace) :
    Exchange indexerHost → Prop
  | ⟨.batch writes, _⟩ => Failing past ∨
      ∃ reached, (rowAfter scan.contract start past).lastLedger ≤ reached ∧
        reached ≤ scan.head ∧
        Begins runtime (parentsFirst (pagePackets scan.contract stream
          (rowAfter scan.contract start past).lastLedger reached))
          (unsaved past ++ writes)
  | ⟨.run _, _⟩ => Failing past
  | ⟨.deadLetter _, _⟩ => Failing past ∨ start.lastLedger + 1 < scan.oldest
  | ⟨.saveCheckpoint _ checkpoint _ _, _⟩ => Failing past ∨
      start.lastLedger + 1 < scan.oldest ∨
      (rowAfter scan.contract start past).lastLedger ≤
          checkpoint.lastLedger ∧
        checkpoint.lastLedger ≤ scan.head ∧ checkpoint.deferAttempts = 0 ∧
        Completes runtime (parentsFirst (pagePackets scan.contract stream
          (rowAfter scan.contract start past).lastLedger
          checkpoint.lastLedger)) (unsaved past)
  | _ => True

section

variable {runtime : Runtime} {scan : Scan} {stream : List EventResponse}
  {start : Checkpoint} {past : Trace}
  {allows : Trace → Exchange indexerHost → Prop}

/-- The page a round writes is what the stream has up to the ledger
reached. -/
theorem PageRound.ready_eq {loop : ScanState} {page : Page}
    {done rest later : List EventResponse}
    (round : PageRound runtime scan stream start loop past page done rest
      later) :
    (loop.read page).ready = stream.filter fun event =>
      loop.state.lastLedger < event.ledger ∧
        event.ledger ≤ max loop.state.lastLedger (loop.read page).reached := by
  have position := round.adds.position
  rw [position.split, List.filter_append, List.filter_append,
    List.filter_append]
  have before : done.filter (fun event => loop.state.lastLedger < event.ledger ∧
      event.ledger ≤ max loop.state.lastLedger (loop.read page).reached) =
        [] := by
    apply List.filter_eq_nil_iff.mpr
    intro event member
    have old := round.window.position.done event member
    simp only [decide_eq_true_eq, not_and]
    omega
  have here : (loop.read page).ready.filter (fun event =>
      loop.state.lastLedger < event.ledger ∧
      event.ledger ≤ max loop.state.lastLedger (loop.read page).reached) =
        (loop.read page).ready := by
    apply List.filter_eq_self.mpr
    intro event member
    exact decide_eq_true ⟨round.adds.fresh event member,
      position.done event (List.mem_append_right _ member)⟩
  have kept : (loop.read page).held.filter (fun event =>
      loop.state.lastLedger < event.ledger ∧
      event.ledger ≤ max loop.state.lastLedger (loop.read page).reached) =
        [] := by
    apply List.filter_eq_nil_iff.mpr
    intro event member
    have next := position.held event member
    simp only [decide_eq_true_eq, not_and]
    omega
  have after : later.filter (fun event =>
      loop.state.lastLedger < event.ledger ∧
      event.ledger ≤ max loop.state.lastLedger (loop.read page).reached) =
        [] := by
    apply List.filter_eq_nil_iff.mpr
    intro event member
    have beyond := position.rest event member
    simp only [decide_eq_true_eq, not_and]
    omega
  rw [before, here, kept, after, List.append_nil, List.append_nil,
    List.nil_append]

/-- After a failure nothing is said of what is sent. -/
theorem attemptStep_of_failing (failing : Failing past)
    (program : IndexerTask α) :
    program.Ensures allows (AttemptStep runtime stream scan start) past
      fun _ now => Failing now := by
  have silent : program.Ensures allows
      (AttemptStep runtime stream scan start) past fun _ _ => True := by
    apply ensures_of_forall
    intro later exchange
    have failed := failing.append later
    obtain ⟨request, answer⟩ := exchange
    cases request with
    | batch writes => exact .inl failed
    | run write => exact failed
    | deadLetter entry => exact .inl failed
    | saveCheckpoint contract checkpoint owner now => exact .inl failed
    | _ => trivial
  exact silent.mono fun final later _ => failing.append later

/-- A checkpoint that was saved leaves nothing unsaved. -/
theorem saveCheckpoint_settles {contract : ContractName}
    {checkpoint : Checkpoint} {owner : String}
    {permits : Trace → Exchange indexerHost → Prop}
    (clock : ∀ time : Nat, permits past ⟨.now, time⟩)
    (saves : ∀ (time : Nat) (now : String) (reply : Reply (Nat × Nat)),
      permits (past ++ [⟨.now, time⟩])
        ⟨.saveCheckpoint contract checkpoint owner now, reply⟩) :
    (saveCheckpoint runtime contract checkpoint owner).Ensures allows permits
      past fun final now => final = .returned () → unsaved now = [] := by
  rw [saveCheckpoint, bind_eq, pgNow, bind_eq, call_bind]
  intro (time : Nat) _
  refine ⟨clock time, ?_⟩
  cases written : pgTime runtime (.date (some (Int.ofNat time))) with
  | error message =>
      simp only [written, throws_bind]
      exact fun never => by cases never
  | ok now =>
      simp only [written, pure_eq, returns_bind, bind_eq]
      intro (reply : Reply (Nat × Nat)) _
      refine ⟨saves time now reply, ?_⟩
      cases reply with
      | answered changes =>
          obtain ⟨lock, state⟩ := changes
          simp only [returns_bind, Reply.result]
          by_cases lost : lock = 0
          · rw [if_pos lost]
            exact fun never => by cases never
          · by_cases moved : state = 0
            · rw [if_neg lost, if_pos moved]
              exact fun never => by cases never
            · rw [if_neg lost, if_neg moved]
              intro _
              rw [unsaved_snoc]
              simp [movesRow, savedCheckpoint, moved]
      | failed error => exact fun never => by cases never
      | lost error => exact fun never => by cases never

theorem save_attempt {loop : ScanState}
    (same : loop.state = loop.saved → unsaved past = [])
    (permitted : loop.state ≠ loop.saved → ∀ (time : Nat) (now : String)
      (reply : Reply (Nat × Nat)),
      AttemptStep runtime stream scan start (past ++ [⟨.now, time⟩])
        ⟨.saveCheckpoint scan.contract loop.state scan.owner now, reply⟩) :
    (loop.save runtime scan).Ensures allows
      (AttemptStep runtime stream scan start) past fun final now =>
        ∀ after, final = .returned after →
          unsaved now = [] ∧ after = { loop with saved := loop.state } := by
  unfold ScanState.save
  by_cases unchanged : loop.state = loop.saved
  · rw [if_pos unchanged]
    rintro after ⟨⟩
    refine ⟨same unchanged, ?_⟩
    obtain ⟨state, saved⟩ := loop
    cases unchanged
    rfl
  · rw [if_neg unchanged, bind_eq]
    refine (saveCheckpoint_settles (fun _ => trivial)
      (permitted unchanged)).bind ?_ ?_ ?_
    · rintro ⟨⟩ later settled after ⟨⟩
      exact ⟨settled rfl, rfl⟩
    · exact fun _ _ _ _ never => by cases never
    · exact fun _ _ _ never => by cases never

/-- What one round leaves: a failure, or nothing unsaved. -/
def RoundSettled (final : Final indexerHost Round) (now : Trace) : Prop :=
  Failing now ∨
    (∀ loop, final = .returned (.next loop) → unsaved now = []) ∧
    ∀ loop stopped, final = .returned (.stop loop stopped) →
      unsaved now = [] ∧ loop.state = loop.saved

theorem RoundSettled.threw (error : Thrown) (now : Trace) :
    RoundSettled (.threw error) now := by
  right
  constructor
  · intro loop never
    cases never
  · intro loop stopped never
    cases never

theorem RoundSettled.unfinished (now : Trace) :
    RoundSettled .unfinished now := by
  right
  constructor
  · intro loop never
    cases never
  · intro loop stopped never
    cases never

theorem following_settled {after : ScanState} {page : Page} {scanned : Bool}
    {now : Trace} (settled : unsaved now = [])
    (same : after.state = after.saved) :
    RoundSettled (.returned (after.following scan page scanned)) now := by
  refine .inr ⟨fun _ _ => settled, ?_⟩
  intro loop stopped ends
  obtain ⟨_, rfl, _⟩ := ScanState.following_stop (Final.returned.inj ends)
  exact ⟨settled, same⟩

/-- A written page is saved, or had no events. -/
theorem PageRound.written_attempt {loop after : ScanState} {page : Page}
    {done rest later : List EventResponse} {now : Trace}
    (round : PageRound runtime scan stream start loop past page done rest
      later)
    (state : after.state = loop.state) (saved : after.saved = loop.saved)
    (row : rowAfter scan.contract start now = loop.state)
    (complete : Completes runtime (parentsFirst
      ((loop.read page).ready.filterMap (packetOf scan.contract)))
      (unsaved now)) :
    (if loop.state.lastLedger < (loop.read page).reached then do
        let loop' ← ScanState.save runtime scan { after with
          state := ⟨(loop.read page).reached, 0⟩ }
        return loop'.following scan page (loop.read page).scanned
      else return after.following scan page (loop.read page).scanned :
        IndexerTask Round).Ensures allows
      (AttemptStep runtime stream scan start) now RoundSettled := by
  have isPage := round.ready_eq
  have reached := round.reached_le
  split
  · rename_i advances
    rw [Nat.max_eq_right (Nat.le_of_lt advances)] at isPage reached
    rw [bind_eq]
    refine (save_attempt ?_ ?_).bind ?_ ?_ ?_
    · intro unchanged
      dsimp only at unchanged
      rw [saved, round.invariant.saved] at unchanged
      have ledger := congrArg Checkpoint.lastLedger unchanged
      exact absurd ledger (Nat.ne_of_gt advances)
    · intro _ time text reply
      have quiet : unsaved (now ++ [⟨.now, time⟩]) = unsaved now :=
        unsaved_quiet rfl rfl
      have still : rowAfter scan.contract start (now ++ [⟨.now, time⟩]) =
        loop.state := (rowAfter_quiet rfl).trans row
      right
      right
      rw [quiet, still]
      refine ⟨Nat.le_of_lt advances, reached, rfl, ?_⟩
      unfold pagePackets
      rw [← isPage]
      exact complete
    · rintro final later settled
      obtain ⟨nothing, rfl⟩ := settled final rfl
      exact following_settled nothing rfl
    · exact fun error _ _ => .threw error _
    · exact fun _ _ => .unfinished _
  · rename_i idle
    rw [Nat.max_eq_left (Nat.le_of_not_lt idle)] at isPage
    have empty : (loop.read page).ready = [] := by
      rw [isPage]
      apply List.filter_eq_nil_iff.mpr
      intro event _
      simp only [decide_eq_true_eq, not_and]
      omega
    have nothing : unsaved now = [] := by
      have packets := complete.packets
      rw [empty] at packets
      exact List.map_eq_nil_iff.mp packets
    apply following_settled nothing
    rw [state, saved, round.invariant.saved]

theorem writePage_attempt {loop : ScanState} {page : Page}
    {done rest later : List EventResponse}
    (readable : Interpretable scan.contract stream)
    (round : PageRound runtime scan stream start loop past page done rest
      later) (settled : unsaved past = []) :
    (writePage runtime scan loop page).Ensures allows
      (AttemptStep runtime stream scan start) past RoundSettled := by
  have own : Interpretable scan.contract (loop.read page).ready := by
    intro event member
    apply readable event
    rw [round.adds.position.split]
    exact List.mem_append_left _
      (List.mem_append_left _ (List.mem_append_right _ member))
  rw [writePage, bind_eq]
  generalize isSkip : decide
    (MAX_DEFER_ATTEMPTS ≤ loop.state.deferAttempts) = skip
  have writes : (writeEvents runtime scan.contract (loop.read page).ready
      skip).Ensures allows (WriterStep scan.contract skip
        ((loop.read page).ready.filterMap (packetOf scan.contract))) past
      (WriterPost runtime scan.contract skip (loop.read page).ready) :=
    writeEvents_ensures (loop.read page).ready
  have both := (writes.and (writeEvents_attempt own settled)).traced
  refine (both.weaken ?_).bind ?_ ?_ ?_
  · rintro inside exchange along ⟨step, order⟩
    have row := (rowAfter_writer (along.mono fun _ _ both => both.1)).trans
      round.invariant.row
    obtain ⟨request, answer⟩ := exchange
    cases request with
    | batch sent =>
        refine order.imp id fun begins =>
          ⟨max loop.state.lastLedger (loop.read page).reached, ?_,
            round.reached_le, ?_⟩
        · rw [row]
          exact Nat.le_max_left _ _
        · rw [row, pagePackets, ← round.ready_eq]
          exact begins
    | run sent => exact order
    | deadLetter entry => exact .inl order
    | saveCheckpoint contract checkpoint owner now => exact absurd step id
    | _ => trivial
  · rintro written inside ⟨⟨_, post⟩, made, same, _, _, along⟩
    obtain rfl : inside = made := List.append_cancel_left same
    rw [bind_eq, call_bind]
    rintro ⟨⟩ _
    refine ⟨trivial, ?_⟩
    have quiet : unsaved (past ++ inside ++ [⟨.wrote scan.contract
        (loop.read page).ready skip written, ()⟩]) =
      unsaved (past ++ inside) := unsaved_quiet rfl rfl
    rcases post with failing | finished
    · exact (attemptStep_of_failing (failing.append _) _).mono
        fun _ _ failed => .inl failed
    · obtain ⟨undeferred, complete⟩ := finished written rfl
      rw [← quiet] at complete
      simp only [undeferred, Bool.false_eq_true, if_false]
      have row := (rowAfter_writer (along.mono fun _ _ both =>
        both.1)).trans round.invariant.row
      exact round.written_attempt rfl rfl ((rowAfter_quiet rfl).trans row)
        complete
  · exact fun error _ _ => .threw error _
  · exact fun _ _ => .unfinished _

theorem scanPage_attempt {loop : ScanState} {rest : List EventResponse}
    (ordered : ChainOrdered stream)
    (answers : ∀ past exchange, allows past exchange →
      RpcAnswers scan.contract stream exchange)
    (readable : Interpretable scan.contract stream)
    (invariant : ScanInvariant runtime scan stream start loop past rest)
    (unfinished : loop.state.lastLedger < scan.head)
    (settled : unsaved past = []) :
    (scanPage runtime scan loop).Ensures allows
      (AttemptStep runtime stream scan start) past RoundSettled := by
  rw [scanPage, bind_eq, call_bind]
  intro (time : Nat) _
  refine ⟨trivial, ?_⟩
  have timed := invariant.quiet ⟨.now, time⟩ rfl
    fun _ _ _ never => by cases never
  have stillTimed : unsaved (past ++ [⟨.now, time⟩]) = [] :=
    (unsaved_quiet rfl rfl).trans settled
  have stops : ∀ now, unsaved now = [] → ∀ stopped,
      RoundSettled (.returned (.stop loop stopped)) now := by
    intro now nothing stopped
    refine .inr ⟨fun _ never => (by cases never), ?_⟩
    rintro last reason ⟨⟩
    exact ⟨nothing, invariant.saved.symm⟩
  dsimp only
  split
  · exact stops _ stillTimed _
  · rw [bind_eq, call_bind]
    intro (answer : Except Thrown Page) allowed
    refine ⟨trivial, ?_⟩
    have asked := timed.quiet
      ⟨.getEvents scan.contract loop.request, answer⟩ rfl
      fun _ _ _ never => by cases never
    have stillAsked : unsaved (past ++ [⟨.now, time⟩] ++
        [⟨.getEvents scan.contract loop.request, answer⟩]) = [] :=
      (unsaved_quiet rfl rfl).trans stillTimed
    cases answer with
    | error error => exact stops _ stillAsked _
    | ok page =>
        have isPage := answers _ _ allowed rfl page rfl
        obtain ⟨done, later, round⟩ :=
          asked.pageRound ordered unfinished isPage
        exact writePage_attempt readable round stillAsked

/-- What the loop leaves: a failure, or nothing unsaved. -/
def LoopSettled (final : Final indexerHost (ScanState × Option Stopped))
    (now : Trace) : Prop :=
  Failing now ∨ ∀ loop stopped, final = .returned (loop, stopped) →
    unsaved now = [] ∧ loop.state = loop.saved

theorem scanPages_attempt {loop : ScanState} {rest : List EventResponse}
    (ordered : ChainOrdered stream)
    (answers : ∀ past exchange, allows past exchange →
      RpcAnswers scan.contract stream exchange)
    (readable : Interpretable scan.contract stream) (rounds : Nat)
    (invariant : ScanInvariant runtime scan stream start loop past rest)
    (settled : unsaved past = []) :
    (scanPages runtime scan rounds loop).Ensures allows
      (AttemptStep runtime stream scan start) past LoopSettled := by
  induction rounds generalizing loop past rest with
  | zero =>
      right
      intro _ _ never
      cases never
  | succ rounds induction =>
      unfold scanPages
      split
      · rename_i unfinished
        rw [bind_eq]
        have round := (scanPage_ensures ordered answers invariant
          unfinished).and (scanPage_attempt ordered answers readable invariant
          unfinished settled)
        refine (round.weaken fun _ _ _ both => both.2).bind ?_ ?_ ?_
        · rintro result later ⟨post, failing | ⟨goesOn, ends⟩⟩
          · exact (attemptStep_of_failing failing _).mono
              fun _ _ failed => .inl failed
          · cases result with
            | stop final stopped =>
                right
                rintro last reason ⟨⟩
                exact ends final stopped rfl
            | next final =>
                obtain ⟨others, kept, _⟩ := post
                exact induction kept (goesOn final rfl)
        · exact fun _ _ _ => .inr fun _ _ never => by cases never
        · exact fun _ _ => .inr fun _ _ never => by cases never
      · right
        rintro last stopped ⟨⟩
        exact ⟨settled, invariant.saved.symm⟩

theorem openScan_attempt (settled : unsaved past = []) :
    (openScan runtime scan start).Ensures allows
      (AttemptStep runtime stream scan start) past fun final now =>
        ∀ loop, final = .returned loop → unsaved now = [] := by
  unfold openScan
  split
  · rename_i aged
    simp only [deadLetter, bind_eq]
    intro (reply : Reply Unit) _
    refine ⟨.inr aged, ?_⟩
    have quiet : unsaved (past ++ [⟨.deadLetter (clampEntry scan.contract
        (start.lastLedger + 1) scan.oldest), reply⟩]) = [] :=
      (unsaved_quiet rfl rfl).trans settled
    refine (save_attempt (fun _ => quiet)
      fun _ _ _ _ => .inr (.inl aged)).mono ?_
    intro final later saves loop returned
    exact (saves loop returned).1
  · exact fun _ _ => settled

/-- A scan is a sequence of attempts at pages, each saved before the next
begins, until a statement fails on a constraint. -/
theorem indexContract_attempt (ordered : ChainOrdered stream)
    (answers : ∀ past exchange, allows past exchange →
      RpcAnswers scan.contract stream exchange)
    (readable : Interpretable scan.contract stream) (rounds : Nat) :
    (indexContract runtime rounds scan start).Ensures allows
      (AttemptStep runtime stream scan start) [] fun final now =>
        ∀ result, final = .returned result →
          Failing now ∨ unsaved now = [] := by
  unfold indexContract
  split
  · exact fun _ _ => .inr rfl
  · rename_i beyond
    rw [bind_eq]
    have opens : (openScan runtime scan start).Ensures allows
        (ScanStep runtime scan stream start) []
        (OpenPost runtime scan stream start) :=
      openScan_ensures ordered (Nat.lt_of_not_le beyond)
    refine ((opens.and (openScan_attempt rfl)).weaken
      fun _ _ _ both => both.2).bind ?_ ?_ ?_
    · rintro loop opened ⟨⟨rest, invariant, _⟩, settled⟩
      refine (scanPages_attempt ordered answers readable rounds invariant
        (settled loop rfl)).bind ?_ ?_ ?_
      · rintro ⟨ended, stopped⟩ scanned (failing | ends)
        · exact (attemptStep_of_failing failing _).mono
            fun _ _ failed _ _ => .inl failed
        · obtain ⟨nothing, same⟩ := ends ended stopped rfl
          refine (save_attempt (fun _ => nothing)
            fun changed => absurd same changed).bind ?_ ?_ ?_
          · exact fun after _ saves _ _ => .inr (saves after rfl).1
          · exact fun _ _ _ _ never => by cases never
          · exact fun _ _ _ never => by cases never
      · exact fun _ _ _ _ never => by cases never
      · exact fun _ _ _ never => by cases never
    · exact fun _ _ _ _ never => by cases never
    · exact fun _ _ _ never => by cases never

end

/-! ## The scans of a run -/

theorem Failing.prepend {trace : Trace} (failing : Failing trace)
    (earlier : Trace) : Failing (earlier ++ trace) := by
  obtain ⟨exchange, member, failed⟩ := failing
  exact ⟨exchange, List.mem_append_right _ member, failed⟩

/-- Every scan is a sequence of attempts, and leaves a failure or nothing
unsaved to the scans after it. -/
def attemptRule (runtime : Runtime) {streams : Streams}
    (ordered : ∀ contract, ChainOrdered (streams contract))
    (readable : ∀ contract, Interpretable contract (streams contract)) :
    ScanRule runtime streams where
  permits scan := AttemptStep runtime (streams scan.contract) scan
  leaves now := Failing now ∨ unsaved now = []
  scans scan _ rounds := indexContract_attempt (ordered scan.contract)
    (fun _ _ answered => answered) (readable scan.contract) rounds
  start := .inr rfl
  append := by
    rintro first second (failing | settled) left
    · exact .inl (failing.append second)
    · refine left.imp (fun failing => failing.prepend first) fun nothing => ?_
      rw [unsaved_append settled]
      exact nothing
  outside := by
    rintro ⟨request, answer⟩ outside
    right
    cases request with
    | now => rfl
    | getHealth => rfl
    | readCheckpoints => rfl
    | _ => exact absurd outside id

end Stellar8004.Indexer
