import Stellar8004.Indexer.ScanSafety

/-!
# The order of the batches

Nothing moves among the events of a contract without registrations.  A batch
of such a contract is sent only when the statements of every earlier event of
its scan have run, unless one of them has failed on a constraint.
-/

namespace Stellar8004.Indexer

open Program

/-- A statement or a batch failed on a constraint. -/
def FailedConstraint : Exchange indexerHost → Prop
  | ⟨.batch _, reply⟩ =>
      ∃ error, reply.result = .error error ∧ constraintFailure error ≠ none
  | ⟨.run _, reply⟩ =>
      ∃ error, reply.result = .error error ∧ constraintFailure error ≠ none
  | _ => False

def Failing (trace : Trace) : Prop :=
  ∃ exchange ∈ trace, FailedConstraint exchange

theorem Failing.append {trace : Trace} (failing : Failing trace)
    (later : Trace) : Failing (trace ++ later) := by
  obtain ⟨exchange, member, failed⟩ := failing
  exact ⟨exchange, List.mem_append_left _ member, failed⟩

/-- An event that does not parse was dead-lettered. -/
def Lettered (contract : ContractName) (trace : Trace)
    (event : EventResponse) : Prop :=
  ∀ reason, interpret contract event = .invalid reason →
    ∃ reply : Reply Unit,
      (⟨.deadLetter (unparseableEntry contract event reason), reply⟩ :
        Exchange indexerHost) ∈ trace

/-- The statement of an event that parses ran. -/
def EventRan (runtime : Runtime) (contract : ContractName) (trace : Trace)
    (event : EventResponse) : Prop :=
  ∀ packet, packetOf contract event = some packet → Ran runtime packet trace

/-- The statements of a batch are those of the events `middle`, after events
that were all written. -/
structure BatchAfter (runtime : Runtime) (contract : ContractName)
    (events : List EventResponse) (past : Trace) (writes : List EventWrite)
    (front middle back : List EventResponse) : Prop where
  split : events = front ++ middle ++ back
  packets : middle.filterMap (packetOf contract) =
    writes.map EventWrite.packet
  bound : ∀ write ∈ writes, write.Bound runtime
  lettered : ∀ event ∈ front ++ middle, Lettered contract past event
  ran : ∀ event ∈ front, EventRan runtime contract past event

/-- What a call of `writeEvents` sends, of a contract without
registrations. -/
def BatchOrder (runtime : Runtime) (contract : ContractName)
    (events : List EventResponse) (past : Trace) :
    Exchange indexerHost → Prop
  | ⟨.batch writes, _⟩ => Failing past ∨ ∃ front middle back,
      BatchAfter runtime contract events past writes front middle back
  | ⟨.run _, _⟩ => Failing past
  | _ => True

section

variable {runtime : Runtime} {contract : ContractName} {skip : Bool}
  {events : List EventResponse} {past : Trace}
  {allows : Trace → Exchange indexerHost → Prop}

theorem Lettered.append {event : EventResponse}
    (lettered : Lettered contract past event) (later : Trace) :
    Lettered contract (past ++ later) event := by
  intro reason invalid
  obtain ⟨reply, member⟩ := lettered reason invalid
  exact ⟨reply, List.mem_append_left _ member⟩

theorem EventRan.append {event : EventResponse}
    (ran : EventRan runtime contract past event) (later : Trace) :
    EventRan runtime contract (past ++ later) event :=
  fun packet parsed => (ran packet parsed).append later

theorem batchOrder_of_failing (failing : Failing past)
    (exchange : Exchange indexerHost) :
    BatchOrder runtime contract events past exchange := by
  obtain ⟨request, answer⟩ := exchange
  cases request with
  | batch writes => exact .inl failing
  | run write => exact failing
  | _ => trivial

/-- After a failure nothing is said of the order. -/
theorem ensures_of_failing (failing : Failing past)
    (program : IndexerTask α) :
    program.Ensures allows (BatchOrder runtime contract events) past
      fun _ _ => True :=
  ensures_of_forall
    (fun later exchange => batchOrder_of_failing (failing.append later)
      exchange) program

/-- The part of a call that sends no statement. -/
theorem WriterStep.batchOrder (runtime : Runtime)
    (events : List EventResponse) {exchange : Exchange indexerHost}
    (step : WriterStep contract skip [] past exchange) :
    BatchOrder runtime contract events past exchange := by
  obtain ⟨request, answer⟩ := exchange
  cases request with
  | batch writes =>
      have none : writes = [] := by
        apply List.eq_nil_iff_forall_not_mem.mpr
        intro write member
        cases step write member
      subst none
      exact .inr ⟨[], [], events, rfl, rfl, fun _ member => (nomatch member),
        fun _ member => (nomatch member), fun _ member => (nomatch member)⟩
  | run write => cases step
  | _ => trivial

theorem recordMissingParents_inOrder (updates : List EventPacket) :
    (recordMissingParents updates).Ensures allows
      (BatchOrder runtime contract events) past fun _ _ => True := by
  have silent : (recordMissingParents updates).Ensures allows
      (WriterStep contract false []) past
      fun final _ => ∃ recorded, final = .returned recorded :=
    recordMissingParents_ensures updates
  have weaker := silent.weaken fun inside exchange _ step =>
    step.batchOrder runtime events
  exact weaker.mono fun _ _ _ => trivial

theorem writeBatch_inOrder {writes : List EventWrite}
    {front middle back : List EventResponse}
    (sent : BatchAfter runtime contract events past writes front middle
      back) :
    (writeBatch contract skip writes).Ensures allows
      (BatchOrder runtime contract events) past fun final now =>
        Failing now ∨ (∃ error, final = .threw error) ∨
          ∀ event ∈ middle, EventRan runtime contract now event := by
  rw [writeBatch, bind_eq, call_bind]
  intro (reply : Reply (List Nat)) _
  refine ⟨.inr ⟨front, middle, back, sent⟩, ?_⟩
  cases answer : reply.result with
  | ok changes =>
      have isAnswered : reply = .answered changes := by
        cases reply <;> cases answer
        rfl
      subst isAnswered
      refine .inr (.inr fun event member packet parsed => ?_)
      have inside : packet ∈ middle.filterMap (packetOf contract) :=
        List.mem_filterMap.mpr ⟨event, member, parsed⟩
      rw [sent.packets] at inside
      obtain ⟨write, isWrite, same⟩ := List.mem_map.mp inside
      exact ⟨write, same, sent.bound write isWrite,
        .inl ⟨writes, changes, isWrite, by simp⟩⟩
  | error error =>
      cases failed : constraintFailure error with
      | none =>
          simp only [answer, failed]
          exact .inr (.inl ⟨error, rfl⟩)
      | some failure =>
          simp only [answer, failed]
          have failing : Failing (past ++ [⟨.batch writes, reply⟩]) := by
            refine ⟨_, List.mem_append_right _ List.mem_cons_self, error,
              answer, ?_⟩
            rw [failed]
            exact Option.some_ne_none failure
          apply (ensures_of_failing failing _).mono
          intro final later _
          exact .inl (failing.append later)

theorem writeBatches_inOrder (now : String)
    {chunks : List (List EventPacket)} {front rest : List EventResponse}
    (split : events = front ++ rest)
    (packets : rest.filterMap (packetOf contract) = chunks.flatten)
    (lettered : ∀ event ∈ events, Lettered contract past event)
    (ran : ∀ event ∈ front, EventRan runtime contract past event)
    (processed skipped : Nat) :
    (writeBatches runtime contract skip now chunks processed
      skipped).Ensures allows (BatchOrder runtime contract events) past
      fun _ _ => True := by
  induction chunks generalizing past front rest processed skipped with
  | nil => trivial
  | cons chunk chunks induction =>
      unfold writeBatches
      cases bound : chunk.mapM (eventWrite runtime now) with
      | error message => trivial
      | ok writes =>
          simp only [bind_eq]
          obtain ⟨same, all⟩ := mapM_eventWrite_ok bound
          rw [List.flatten_cons] at packets
          obtain ⟨middle, back, isRest, here, there⟩ :=
            List.filterMap_eq_append_iff.mp packets
          have sent : BatchAfter runtime contract events past writes front
              middle back := by
            refine ⟨?_, here.trans same.symm, all, ?_, ran⟩
            · rw [split, isRest, List.append_assoc]
            · intro event member
              apply lettered
              rw [split, isRest, ← List.append_assoc]
              exact List.mem_append_left _ member
          refine (writeBatch_inOrder sent).bind ?_ (fun _ _ _ => trivial)
            (fun _ _ => trivial)
          rintro replayed later (failing | ⟨_, threw⟩ | written)
          · exact ensures_of_failing failing _
          · cases threw
          · cases replayed with
            | deferred count => trivial
            | finished changes more =>
                have grown : events = (front ++ middle) ++ back := sent.split
                refine (recordMissingParents_inOrder _).bind ?_
                  (fun _ _ _ => trivial) (fun _ _ => trivial)
                intro recorded after _
                refine induction grown there ?_ ?_ _ _
                · intro event member
                  exact ((lettered event member).append later).append after
                · intro event member
                  rcases List.mem_append.mp member with early | moved
                  · exact ((ran event early).append later).append after
                  · exact (written event moved).append after

theorem isRegistered_of_packetOf {event : EventResponse}
    {packet : EventPacket} (dependent : contract ≠ .identity)
    (parsed : packetOf contract event = some packet) :
    packet.data.isRegistered = false := by
  unfold packetOf at parsed
  split at parsed
  · rename_i data interpreted
    cases parsed
    have kind := (interpret_readFrom interpreted).kind
    cases data with
    | registered e => exact absurd kind.symm dependent
    | _ => rfl
  · cases parsed

theorem parentsFirst_of_dependent (dependent : contract ≠ .identity)
    (events : List EventResponse) :
    parentsFirst (events.filterMap (packetOf contract)) =
      events.filterMap (packetOf contract) := by
  have none : ∀ packet ∈ events.filterMap (packetOf contract),
      packet.data.isRegistered = false := by
    intro packet member
    obtain ⟨event, _, parsed⟩ := List.mem_filterMap.mp member
    exact isRegistered_of_packetOf dependent parsed
  unfold parentsFirst
  rw [List.filter_eq_nil_iff.mpr, List.filter_eq_self.mpr, List.nil_append]
  · intro packet member
    simp [none packet member]
  · intro packet member
    simp [none packet member]

/-- A call of `writeEvents` keeps the order of its events. -/
theorem writeEvents_inOrder (dependent : contract ≠ .identity)
    (events : List EventResponse) :
    (writeEvents runtime contract events skip).Ensures allows
      (BatchOrder runtime contract events) past fun _ _ => True := by
  rw [writeEvents, bind_eq]
  have reads : (readEvents contract events).Ensures allows
      (WriterStep contract false []) past (ReadPost contract events) :=
    readEvents_ensures events
  have weaker := reads.weaken fun inside exchange _ step =>
    step.batchOrder runtime events
  refine weaker.bind ?_ (fun _ _ _ => trivial) (fun _ _ => trivial)
  rintro ⟨read, skipped⟩ later ⟨rfl, recorded⟩
  simp only [bind_eq]
  refine (pgNow_ensures fun _ => trivial).bind ?_ (fun _ _ _ => trivial)
    (fun _ _ => trivial)
  intro now clock _
  apply writeBatches_inOrder now (List.nil_append events).symm
  · rw [flatten_batches, parentsFirst_of_dependent dependent]
  · intro event member reason invalid
    obtain ⟨reply, inside⟩ := recorded event member reason invalid
    exact ⟨reply, List.mem_append_left _ inside⟩
  · intro event member
    cases member

end

/-! ## The calls of a scan -/

/-- A scan sends its statements in the order of the stream: whatever comes
before the call in progress is behind the row. -/
def InOrder (runtime : Runtime) (scan : Scan)
    (stream : List EventResponse) (start : Checkpoint) (past : Trace)
    (exchange : Exchange indexerHost) : Prop :=
  ∃ done ready later, stream = done ++ ready ++ later ∧
    (∀ event ∈ done, event.ledger ≤
      (rowAfter scan.contract start past).lastLedger) ∧
    BatchOrder runtime scan.contract ready past exchange

section

variable {runtime : Runtime} {scan : Scan} {stream : List EventResponse}
  {start : Checkpoint} {past : Trace}
  {allows : Trace → Exchange indexerHost → Prop}

/-- An exchange that sends no statement. -/
theorem inOrder_of_quiet {exchange : Exchange indexerHost}
    (quiet : BatchOrder runtime scan.contract [] past exchange) :
    InOrder runtime scan stream start past exchange :=
  ⟨[], [], stream, rfl, fun _ member => (nomatch member), quiet⟩

theorem save_inOrder (loop : ScanState) :
    (loop.save runtime scan).Ensures allows
      (InOrder runtime scan stream start) past fun _ _ => True := by
  unfold ScanState.save
  split
  · trivial
  · rw [bind_eq]
    refine (saveCheckpoint_ensures start ?_ ?_).bind (fun _ _ _ => trivial)
      (fun _ _ _ => trivial) (fun _ _ => trivial)
    · exact fun _ => inOrder_of_quiet trivial
    · exact fun _ _ _ => inOrder_of_quiet trivial

theorem writePage_inOrder (dependent : scan.contract ≠ .identity)
    {loop : ScanState} {page : Page} {done rest later : List EventResponse}
    (round : PageRound runtime scan stream start loop past page done rest
      later) :
    (writePage runtime scan loop page).Ensures allows
      (InOrder runtime scan stream start) past fun _ _ => True := by
  rw [writePage, bind_eq]
  generalize isSkip : decide
    (MAX_DEFER_ATTEMPTS ≤ loop.state.deferAttempts) = skip
  have writes : (writeEvents runtime scan.contract (loop.read page).ready
      skip).Ensures allows (WriterStep scan.contract skip
        ((loop.read page).ready.filterMap (packetOf scan.contract))) past
      (WriterPost runtime scan.contract skip (loop.read page).ready) :=
    writeEvents_ensures (loop.read page).ready
  have inOrder := writes.and (writeEvents_inOrder dependent _)
  refine (inOrder.weaken ?_).bind ?_ (fun _ _ _ => trivial) (fun _ _ => trivial)
  · intro inside exchange along step
    have row := (rowAfter_writer (along.mono fun _ _ both => both.1)).trans
      round.invariant.row
    refine ⟨done, (loop.read page).ready, (loop.read page).held ++ later, ?_,
      ?_, step.2⟩
    · rw [round.adds.position.split]
      simp only [List.append_assoc]
    · intro event member
      rw [row]
      exact round.window.position.done event member
  · intro written inside _
    rw [bind_eq, call_bind]
    rintro ⟨⟩ _
    refine ⟨inOrder_of_quiet trivial, ?_⟩
    dsimp only
    split
    · trivial
    · split
      · rw [bind_eq]
        exact (save_inOrder _).bind (fun _ _ _ => trivial)
          (fun _ _ _ => trivial) (fun _ _ => trivial)
      · trivial

theorem scanPage_inOrder (dependent : scan.contract ≠ .identity)
    {loop : ScanState} {rest : List EventResponse}
    (ordered : ChainOrdered stream)
    (answers : ∀ past exchange, allows past exchange →
      RpcAnswers scan.contract stream exchange)
    (invariant : ScanInvariant runtime scan stream start loop past rest)
    (unfinished : loop.state.lastLedger < scan.head) :
    (scanPage runtime scan loop).Ensures allows
      (InOrder runtime scan stream start) past fun _ _ => True := by
  rw [scanPage, bind_eq, call_bind]
  intro (time : Nat) _
  refine ⟨inOrder_of_quiet trivial, ?_⟩
  have timed := invariant.quiet ⟨.now, time⟩ rfl
    fun _ _ _ never => by cases never
  dsimp only
  split
  · trivial
  · rw [bind_eq, call_bind]
    intro (answer : Except Thrown Page) allowed
    refine ⟨inOrder_of_quiet trivial, ?_⟩
    have asked := timed.quiet
      ⟨.getEvents scan.contract loop.request, answer⟩ rfl
      fun _ _ _ never => by cases never
    cases answer with
    | error error => trivial
    | ok page =>
        have isPage := answers _ _ allowed rfl page rfl
        obtain ⟨done, later, round⟩ := asked.pageRound ordered unfinished isPage
        exact writePage_inOrder dependent round

theorem scanPages_inOrder (dependent : scan.contract ≠ .identity)
    {loop : ScanState} {rest : List EventResponse}
    (ordered : ChainOrdered stream)
    (answers : ∀ past exchange, allows past exchange →
      RpcAnswers scan.contract stream exchange)
    (rounds : Nat)
    (invariant : ScanInvariant runtime scan stream start loop past rest) :
    (scanPages runtime scan rounds loop).Ensures allows
      (InOrder runtime scan stream start) past fun _ _ => True := by
  induction rounds generalizing loop past rest with
  | zero => trivial
  | succ rounds induction =>
      unfold scanPages
      split
      · rename_i unfinished
        rw [bind_eq]
        have round := (scanPage_ensures ordered answers invariant
          unfinished).and (scanPage_inOrder dependent ordered answers
          invariant unfinished)
        refine (round.weaken fun _ _ _ both => both.2).bind ?_
          (fun _ _ _ => trivial) (fun _ _ => trivial)
        rintro result later ⟨post, _⟩
        cases result with
        | stop final stopped => trivial
        | next final =>
            obtain ⟨others, kept, _⟩ := post
            exact induction kept
      · trivial

theorem openScan_inOrder :
    (openScan runtime scan start).Ensures allows
      (InOrder runtime scan stream start) past fun _ _ => True := by
  unfold openScan
  split
  · simp only [deadLetter, bind_eq]
    intro (reply : Reply Unit) _
    exact ⟨inOrder_of_quiet trivial, save_inOrder _⟩
  · trivial

/-- A scan of a contract without registrations sends its statements in the
order of the stream. -/
theorem indexContract_inOrder (dependent : scan.contract ≠ .identity)
    (ordered : ChainOrdered stream)
    (answers : ∀ past exchange, allows past exchange →
      RpcAnswers scan.contract stream exchange) (rounds : Nat) :
    (indexContract runtime rounds scan start).Ensures allows
      (InOrder runtime scan stream start) [] fun _ _ => True := by
  unfold indexContract
  split
  · trivial
  · rename_i beyond
    rw [bind_eq]
    have opens : (openScan runtime scan start).Ensures allows
        (ScanStep runtime scan stream start) []
        (OpenPost runtime scan stream start) :=
      openScan_ensures ordered (Nat.lt_of_not_le beyond)
    refine ((opens.and openScan_inOrder).weaken
      fun _ _ _ both => both.2).bind ?_ (fun _ _ _ => trivial)
      (fun _ _ => trivial)
    rintro loop opened ⟨⟨rest, invariant, _⟩, _⟩
    refine (scanPages_inOrder dependent ordered answers rounds
      invariant).bind ?_ (fun _ _ _ => trivial) (fun _ _ => trivial)
    rintro ⟨ended, stopped⟩ scanned _
    exact (save_inOrder _).bind (fun _ _ _ => trivial)
      (fun _ _ _ => trivial) (fun _ _ => trivial)

end

end Stellar8004.Indexer
