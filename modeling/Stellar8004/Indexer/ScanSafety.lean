import Stellar8004.Indexer.Coverage
import Stellar8004.Indexer.ParsedEvents

/-!
# The scan, exchange by exchange

One weakest precondition proof for the whole of `indexContract`: which
exchanges it makes, what the row and the trace say of each other at every
point, and how it can end.
-/

namespace Stellar8004.Indexer

open Program

/-- `getEvents` for the contract is answered by some node, or throws. -/
def RpcAnswers (contract : ContractName) (stream : List EventResponse) :
    Exchange indexerHost → Prop
  | ⟨.getEvents asked request, answer⟩ =>
      asked = contract → ∀ page, answer = .ok page →
        ∃ node, getEvents stream node request = some page
  | _ => True

/-- An exchange that makes a run throw. -/
def Faulty (runtime : Runtime) : Exchange indexerHost → Prop
  | ⟨.now, time⟩ => ∃ message,
      pgTime runtime (.date (some (Int.ofNat time))) = .error message
  | ⟨.batch _, reply⟩ =>
      ∃ error, reply.result = .error error ∧ constraintFailure error = none
  | ⟨.run _, reply⟩ =>
      ∃ error, reply.result = .error error ∧ constraintFailure error = none
  | ⟨.saveCheckpoint _ _ _ _, reply⟩ =>
      ∀ lock state, reply = .answered (lock, state) → lock = 0 ∨ state = 0
  | _ => False

/-- What the exchanges of a scan are. -/
def ScanExchange (runtime : Runtime) (scan : Scan)
    (stream : List EventResponse) (start : Checkpoint) (past : Trace) :
    Exchange indexerHost → Prop
  | ⟨.saveCheckpoint contract checkpoint owner _, _⟩ =>
      contract = scan.contract ∧ owner = scan.owner ∧
      (rowAfter scan.contract start past).lastLedger ≤
        checkpoint.lastLedger ∧
      checkpoint.lastLedger ≤ max scan.head (scan.oldest - 1) ∧
      Covered runtime scan.contract stream start past checkpoint.lastLedger
  | ⟨.deadLetter entry, _⟩ =>
      (start.lastLedger + 1 < scan.oldest ∧ entry =
        clampEntry scan.contract (start.lastLedger + 1) scan.oldest) ∨
      (∃ event reason, interpret scan.contract event = .invalid reason ∧
        entry = unparseableEntry scan.contract event reason) ∨
      Undeferred scan.contract past ∧
        MAX_DEFER_ATTEMPTS ≤
          (rowAfter scan.contract start past).deferAttempts ∧
        ∃ before exchange write error failure, past = before ++ [exchange] ∧
          ConstraintFailed write error failure exchange ∧
          entry = skipEntry scan.contract write.packet error failure
  | ⟨.batch writes, _⟩ => ∀ write ∈ writes,
      write.packet.ledger ≤ scan.head ∧
        write.packet ∈ stream.filterMap (packetOf scan.contract)
  | ⟨.run write, _⟩ => write.packet.ledger ≤ scan.head ∧
      write.packet ∈ stream.filterMap (packetOf scan.contract)
  | ⟨.getEvents contract _, _⟩ => contract = scan.contract
  | ⟨.wrote contract _ _ _, _⟩ => contract = scan.contract ∧
      Undeferred scan.contract past
  | ⟨.now, _⟩ => True
  | ⟨.recordMissing _, _⟩ => True
  | _ => False

def ScanStep (runtime : Runtime) (scan : Scan)
    (stream : List EventResponse) (start : Checkpoint) (past : Trace)
    (exchange : Exchange indexerHost) : Prop :=
  ScanExchange runtime scan stream start past exchange ∧
    RowSummary runtime scan.contract start scan.oldest (past ++ [exchange])

/-- Why a scan threw. -/
def ScanThrew (runtime : Runtime) (contract : ContractName)
    (stream : List EventResponse) (now : Trace) : Prop :=
  (∃ exchange ∈ now, Faulty runtime exchange) ∨
    ∃ packet ∈ stream.filterMap (packetOf contract), Unbound runtime packet

section

variable {runtime : Runtime} {scan : Scan} {stream : List EventResponse}
  {start : Checkpoint} {past : Trace}
  {allows : Trace → Exchange indexerHost → Prop}

theorem rowAfter_quiet {contract : ContractName} {row : Checkpoint}
    {trace : Trace} {exchange : Exchange indexerHost}
    (quiet : savedCheckpoint contract exchange = none) :
    rowAfter contract row (trace ++ [exchange]) =
      rowAfter contract row trace := by
  rw [rowAfter_snoc, quiet]
  rfl

/-- An exchange that saves nothing keeps the summary. -/
theorem RowSummary.quiet {contract : ContractName} {oldest : Nat}
    {exchange : Exchange indexerHost}
    (summary : RowSummary runtime contract start oldest past)
    (quiet : savedCheckpoint contract exchange = none) :
    RowSummary runtime contract start oldest (past ++ [exchange]) := by
  unfold RowSummary
  rw [rowAfter_quiet quiet]
  rcases summary with progress | ⟨base, packet, progress, deferred, row⟩
  · exact .inl progress
  · exact .inr ⟨base, packet, progress, deferred.append _, row⟩

/-- A save leaves the saved checkpoint, or the row as it was. -/
theorem rowAfter_save (contract : ContractName) (row : Checkpoint)
    (trace : Trace) (checkpoint : Checkpoint) (owner now : String)
    (reply : Reply (Nat × Nat)) :
    rowAfter contract row
        (trace ++ [⟨.saveCheckpoint contract checkpoint owner now, reply⟩]) =
      checkpoint ∨
    rowAfter contract row
        (trace ++ [⟨.saveCheckpoint contract checkpoint owner now, reply⟩]) =
      rowAfter contract row trace := by
  rw [rowAfter_snoc]
  cases reply with
  | answered changes =>
      obtain ⟨lock, state⟩ := changes
      by_cases none : state = 0
      · exact .inr (by simp [savedCheckpoint, none])
      · exact .inl (by simp [savedCheckpoint, none])
  | failed error => exact .inr (by simp [savedCheckpoint])
  | lost error => exact .inl (by simp [savedCheckpoint])

theorem saveCheckpoint_ensures (start : Checkpoint) {checkpoint : Checkpoint}
    {permits : Trace → Exchange indexerHost → Prop}
    (clock : ∀ time : Nat, permits past ⟨.now, time⟩)
    (saves : ∀ (time : Nat) (now : String) (reply : Reply (Nat × Nat)),
      permits (past ++ [⟨.now, time⟩])
        ⟨.saveCheckpoint scan.contract checkpoint scan.owner now, reply⟩) :
    (saveCheckpoint runtime scan.contract checkpoint scan.owner).Ensures
      allows permits past fun final now =>
        match final with
        | .returned () => rowAfter scan.contract start now = checkpoint ∧
            (Undeferred scan.contract past → Undeferred scan.contract now)
        | .threw _ => ∃ exchange ∈ now, Faulty runtime exchange
        | .unfinished => False := by
  rw [saveCheckpoint, bind_eq, pgNow, bind_eq, call_bind]
  intro (time : Nat) _
  refine ⟨clock time, ?_⟩
  cases written : pgTime runtime (.date (some (Int.ofNat time))) with
  | error message =>
      simp only [written, throws_bind]
      exact ⟨⟨.now, time⟩, by simp, message, written⟩
  | ok now =>
      simp only [written, pure_eq, returns_bind, bind_eq]
      intro (reply : Reply (Nat × Nat)) _
      refine ⟨saves time now reply, ?_⟩
      cases reply with
      | answered changes =>
          obtain ⟨lock, state⟩ := changes
          simp only [returns_bind, Reply.result]
          by_cases lost : lock = 0
          · rw [if_pos lost]
            refine ⟨_, List.mem_append_right _ List.mem_cons_self, ?_⟩
            rintro lock' state' ⟨⟩
            exact .inl lost
          · rw [if_neg lost]
            by_cases moved : state = 0
            · rw [if_pos moved]
              refine ⟨_, List.mem_append_right _ List.mem_cons_self, ?_⟩
              rintro lock' state' ⟨⟩
              exact .inr moved
            · rw [if_neg moved]
              constructor
              · rw [rowAfter_snoc]
                simp [savedCheckpoint, moved]
              · intro undeferred
                refine (undeferred.snoc ?_).snoc ?_ <;> intro _ _ _ never <;>
                  cases never
      | failed error =>
          refine ⟨_, List.mem_append_right _ List.mem_cons_self, ?_⟩
          rintro lock state ⟨⟩
      | lost error =>
          refine ⟨_, List.mem_append_right _ List.mem_cons_self, ?_⟩
          rintro lock state ⟨⟩

/-- What `save` needs before a checkpoint that differs from the row. -/
structure SaveReady (runtime : Runtime) (scan : Scan)
    (stream : List EventResponse) (start : Checkpoint) (past : Trace)
    (loop : ScanState) : Prop where
  row : rowAfter scan.contract start past = loop.saved
  grows : loop.saved.lastLedger ≤ loop.state.lastLedger
  bounded : loop.state.lastLedger ≤ max scan.head (scan.oldest - 1)
  covered : Covered runtime scan.contract stream start past
    loop.state.lastLedger
  progress : Progress start scan.oldest loop.saved
  next : Progress start scan.oldest loop.state ∨
    (∃ packet, RunDeferredAt runtime scan.contract start past packet) ∧
      loop.state = { loop.saved with
        deferAttempts := loop.saved.deferAttempts + 1 }

theorem save_ensures {loop : ScanState}
    (ready : SaveReady runtime scan stream start past loop) :
    (loop.save runtime scan).Ensures allows
      (ScanStep runtime scan stream start) past fun final now =>
        match final with
        | .returned after => after = { loop with saved := loop.state } ∧
            rowAfter scan.contract start now = loop.state ∧
            (Undeferred scan.contract past → Undeferred scan.contract now)
        | .threw _ => ∃ exchange ∈ now, Faulty runtime exchange
        | .unfinished => False := by
  unfold ScanState.save
  by_cases same : loop.state = loop.saved
  · rw [if_pos same]
    refine ⟨?_, ready.row.trans same.symm, id⟩
    obtain ⟨state, saved⟩ := loop
    cases same
    rfl
  · rw [if_neg same, bind_eq]
    have summary : RowSummary runtime scan.contract start scan.oldest past :=
      .inl (ready.row ▸ ready.progress)
    have clock : ∀ time : Nat, ScanStep runtime scan stream start past
        ⟨.now, time⟩ := fun time => ⟨trivial, summary.quiet rfl⟩
    refine (saveCheckpoint_ensures start clock ?_).bind ?_ ?_ ?_
    · intro time now reply
      have row : rowAfter scan.contract start (past ++ [⟨.now, time⟩]) =
          loop.saved := (rowAfter_quiet rfl).trans ready.row
      refine ⟨⟨rfl, rfl, ?_, ready.bounded, ready.covered.append _⟩, ?_⟩
      · rw [row]
        exact ready.grows
      · rcases rowAfter_save scan.contract start (past ++ [⟨.now, time⟩])
          loop.state scan.owner now reply with saved | kept
        · rcases ready.next with progress | ⟨⟨packet, deferred⟩, isNext⟩
          · refine .inl ?_
            rw [saved]
            exact progress
          · refine .inr ⟨loop.saved, packet, ready.progress,
              (deferred.append _).append _, ?_⟩
            rw [saved, isNext]
        · exact .inl (by rw [kept, row]; exact ready.progress)
    · rintro ⟨⟩ later ⟨row, undeferred⟩
      exact ⟨rfl, row, undeferred⟩
    · intro error later fault
      exact fault
    · intro later impossible
      exact impossible

/-! ## Rounds -/

/-- What holds between two rounds. -/
structure ScanInvariant (runtime : Runtime) (scan : Scan)
    (stream : List EventResponse) (start : Checkpoint) (loop : ScanState)
    (past : Trace) (rest : List EventResponse) : Prop where
  row : rowAfter scan.contract start past = loop.state
  undeferred : Undeferred scan.contract past
  saved : loop.saved = loop.state
  progress : Progress start scan.oldest loop.state
  bounded : loop.state.lastLedger ≤ max scan.head (scan.oldest - 1)
  retained : scan.oldest ≤ loop.state.lastLedger + 1
  covered : Covered runtime scan.contract stream start past
    loop.state.lastLedger
  window : ∃ done, Window scan stream done rest loop

/-- How a scan's loop stopped. -/
structure ScanEnd (runtime : Runtime) (scan : Scan)
    (stream : List EventResponse) (start : Checkpoint) (loop : ScanState)
    (stopped : Option Stopped) (now : Trace) : Prop where
  ready : SaveReady runtime scan stream start now loop
  retained : scan.oldest ≤ loop.state.lastLedger + 1
  finished : stopped = none → start.lastLedger < scan.head →
    start.lastLedger < loop.state.lastLedger
  deadline : stopped = some .deadline → ∃ time : Nat,
    (⟨.now, time⟩ : Exchange indexerHost) ∈ now ∧ scan.deadlineMs ≤ time
  rpcError : stopped = some .rpcError → ∃ request error,
    (⟨.getEvents scan.contract request, .error error⟩ :
      Exchange indexerHost) ∈ now
  deferred : stopped = some .deferred →
    start.lastLedger < loop.state.lastLedger ∨
      start.deferAttempts < MAX_DEFER_ATTEMPTS

theorem ScanInvariant.summary {loop : ScanState}
    {rest : List EventResponse}
    (invariant : ScanInvariant runtime scan stream start loop past rest) :
    RowSummary runtime scan.contract start scan.oldest past :=
  .inl (invariant.row ▸ invariant.progress)

theorem ScanInvariant.ready {loop : ScanState} {rest : List EventResponse}
    (invariant : ScanInvariant runtime scan stream start loop past rest) :
    SaveReady runtime scan stream start past loop where
  row := invariant.row.trans invariant.saved.symm
  grows := by rw [invariant.saved]
  bounded := invariant.bounded
  covered := invariant.covered
  progress := by
    rw [invariant.saved]
    exact invariant.progress
  next := .inl invariant.progress

/-- Exchanges that save nothing keep what holds between rounds. -/
theorem ScanInvariant.quiet {loop : ScanState} {rest : List EventResponse}
    (invariant : ScanInvariant runtime scan stream start loop past rest)
    (exchange : Exchange indexerHost)
    (quiet : savedCheckpoint scan.contract exchange = none)
    (other : ∀ events skip result,
      exchange ≠ ⟨.wrote scan.contract events skip result, ()⟩) :
    ScanInvariant runtime scan stream start loop (past ++ [exchange])
      rest where
  row := (rowAfter_quiet quiet).trans invariant.row
  undeferred := invariant.undeferred.snoc fun events skip result same =>
    absurd same (other events skip result)
  saved := invariant.saved
  progress := invariant.progress
  bounded := invariant.bounded
  retained := invariant.retained
  covered := invariant.covered.append _
  window := invariant.window

/-- The row does not change inside a call of `writeEvents`. -/
theorem rowAfter_writer {contract : ContractName} {row : Checkpoint}
    {skip : Bool} {packets : List EventPacket} {inside : Trace}
    (along : Along (WriterStep contract skip packets) past inside) :
    rowAfter contract row (past ++ inside) = rowAfter contract row past := by
  induction inside generalizing past with
  | nil => simp
  | cons exchange inside induction =>
      obtain ⟨step, later⟩ := along
      have quiet : savedCheckpoint contract exchange = none := by
        obtain ⟨request, answer⟩ := exchange
        cases request with
        | saveCheckpoint => exact absurd step id
        | _ => rfl
      have rest := induction later
      rw [List.append_assoc, List.singleton_append] at rest
      rw [rest, rowAfter_quiet quiet]

theorem undeferred_writer {contract : ContractName} {skip : Bool}
    {packets : List EventPacket} {inside : Trace}
    (undeferred : Undeferred contract past)
    (along : Along (WriterStep contract skip packets) past inside) :
    Undeferred contract (past ++ inside) := by
  induction inside generalizing past with
  | nil => simpa using undeferred
  | cons exchange inside induction =>
      obtain ⟨step, later⟩ := along
      have kept : Undeferred contract (past ++ [exchange]) := by
        apply undeferred.snoc
        rintro events skip result rfl
        exact absurd step id
      simpa using induction kept later

theorem ledger_of_packetOf {contract : ContractName}
    {event : EventResponse} {packet : EventPacket}
    (parsed : packetOf contract event = some packet) :
    packet.ledger = event.ledger := by
  unfold packetOf at parsed
  cases interpreted : interpret contract event with
  | parsed data =>
      rw [interpreted] at parsed
      cases parsed
      have read := (interpret_readFrom interpreted).base
      exact congrArg EventBase.ledger read
  | ignored reason =>
      rw [interpreted] at parsed
      cases parsed
  | invalid reason =>
      rw [interpreted] at parsed
      cases parsed

theorem writerPost_of_yields {contract : ContractName} {skip : Bool}
    {events : List EventResponse} {inside : Trace}
    {final : Final indexerHost Written}
    (yields : Yields (writeEvents runtime contract events skip) inside
      (some final)) : WriterPost runtime contract skip events final inside := by
  have ensures : (writeEvents runtime contract events skip).Ensures
      (fun _ _ => True)
      (WriterStep contract skip (events.filterMap (packetOf contract))) []
      (WriterPost runtime contract skip events) := writeEvents_ensures events
  exact ensures.final yields (along_of_forall (fun _ _ => trivial) _ _)

/-- The exchanges of a call are exchanges of the scan. -/
theorem WriterStep.scanStep {loop : ScanState} {rest : List EventResponse}
    (invariant : ScanInvariant runtime scan stream start loop past rest)
    {events : List EventResponse} (own : ∀ event ∈ events, event ∈ stream)
    (inHead : ∀ event ∈ events, event.ledger ≤ scan.head)
    {skip : Bool}
    (armed : skip = true → MAX_DEFER_ATTEMPTS ≤ loop.state.deferAttempts)
    {inside : Trace} {exchange : Exchange indexerHost}
    (along : Along (WriterStep scan.contract skip
      (events.filterMap (packetOf scan.contract))) past inside)
    (step : WriterStep scan.contract skip
      (events.filterMap (packetOf scan.contract)) (past ++ inside) exchange) :
    ScanStep runtime scan stream start (past ++ inside) exchange := by
  have row := (rowAfter_writer along).trans invariant.row
  have quiet : savedCheckpoint scan.contract exchange = none := by
    obtain ⟨request, answer⟩ := exchange
    cases request with
    | saveCheckpoint => exact absurd step id
    | _ => rfl
  have packets : ∀ packet ∈ events.filterMap (packetOf scan.contract),
      packet.ledger ≤ scan.head ∧
        packet ∈ stream.filterMap (packetOf scan.contract) := by
    intro packet member
    obtain ⟨event, inEvents, parsed⟩ := List.mem_filterMap.mp member
    refine ⟨?_, List.mem_filterMap.mpr ⟨event, own event inEvents, parsed⟩⟩
    rw [ledger_of_packetOf parsed]
    exact inHead event inEvents
  refine ⟨?_, RowSummary.quiet (.inl (row ▸ invariant.progress)) quiet⟩
  obtain ⟨request, answer⟩ := exchange
  cases request with
  | deadLetter entry =>
      rcases step with unparseable | ⟨isArmed, skipped⟩
      · exact .inr (.inl unparseable)
      · refine .inr (.inr ⟨undeferred_writer invariant.undeferred along, ?_,
          skipped⟩)
        rw [row]
        exact armed isArmed
  | batch writes => exact fun write member => packets _ (step write member)
  | run write => exact packets _ step
  | now => trivial
  | recordMissing rows => trivial
  | getHealth => exact step
  | getEvents contract request => exact absurd step id
  | readCheckpoints => exact step
  | saveCheckpoint => exact absurd step id
  | wrote => exact absurd step id

/-- The rounds a scan still needs at most. -/
def roundsLeft (scan : Scan) (rest : List EventResponse)
    (loop : ScanState) : Nat :=
  rest.length + (scan.head - loop.state.lastLedger)

/-- What one round ensures. -/
def RoundPost (runtime : Runtime) (scan : Scan)
    (stream : List EventResponse) (start : Checkpoint) (rounds : Nat) :
    Final indexerHost Round → Trace → Prop
  | .returned (.next loop), now => ∃ rest,
      ScanInvariant runtime scan stream start loop now rest ∧
        roundsLeft scan rest loop < rounds
  | .returned (.stop loop stopped), now =>
      ScanEnd runtime scan stream start loop stopped now
  | .threw _, now => ScanThrew runtime scan.contract stream now
  | .unfinished, _ => False

/-- A page answered to a scan between rounds. -/
structure PageRound (runtime : Runtime) (scan : Scan)
    (stream : List EventResponse) (start : Checkpoint) (loop : ScanState)
    (past : Trace) (page : Page) (done rest later : List EventResponse) :
    Prop where
  invariant : ScanInvariant runtime scan stream start loop past rest
  unfinished : loop.state.lastLedger < scan.head
  window : Window scan stream done rest loop
  next : ∃ node stop, NextPage loop done rest node page stop
  adds : PageAdds stream done loop page (loop.read page) later

namespace PageRound

variable {loop : ScanState} {page : Page}
  {done rest later : List EventResponse}

theorem reached_le (round : PageRound runtime scan stream start loop past page
    done rest later) :
    max loop.state.lastLedger (loop.read page).reached ≤ scan.head := by
  have inWindow := round.window.ahead round.unfinished
  have inHead := round.window.head
  cases scanned : (loop.read page).scanned with
  | true =>
      rw [(round.adds.scanned scanned).2]
      omega
  | false =>
      have bound := (round.adds.full scanned).2.1
      omega

/-- After a page that did not defer, everything up to the ledger reached is
covered. -/
theorem covered (round : PageRound runtime scan stream start loop past page
    done rest later) {made : WriteCall} {now : Trace}
    (called : made.In runtime scan.contract start now)
    (events : made.events = (loop.read page).ready)
    (finished : made.result.deferred = false)
    (before : Covered runtime scan.contract stream start now
      loop.state.lastLedger) :
    Covered runtime scan.contract stream start now
      (max loop.state.lastLedger (loop.read page).reached) := by
  intro event member above below
  rcases Nat.lt_or_ge loop.state.lastLedger event.ledger with fresh | old
  · have ready := round.adds.mem_ready round.window.position member fresh
      below
    obtain ⟨front, back, isTrace, yields, armed⟩ := called
    have post := (writerPost_of_yields yields).1 finished event
      (events ▸ ready)
    refine .inl ⟨made, ⟨front, back, isTrace, yields, armed⟩, finished, ?_,
      events ▸ ready, ?_, post⟩
    · rw [events, round.adds.position.split]
      exact ⟨done, (loop.read page).held ++ later, by simp⟩
    · rw [events]
      exact round.adds.whole round.window.position ready
  · exact before event member above old

/-- A written page leaves fewer rounds. -/
theorem fewer (round : PageRound runtime scan stream start loop past page done
    rest later) {after : ScanState}
    (ledger : after.state.lastLedger =
      max loop.state.lastLedger (loop.read page).reached) :
    roundsLeft scan later after < roundsLeft scan rest loop := by
  obtain ⟨node, stop, next⟩ := round.next
  have unfinished := round.unfinished
  have inWindow := round.window.ahead unfinished
  have lengths := congrArg List.length
    (round.window.position.split.symm.trans round.adds.position.split)
  have keeps := round.adds.keeps
  simp only [List.length_append] at lengths
  unfold roundsLeft
  rw [ledger]
  cases scanned : (loop.read page).scanned with
  | true =>
      have reached := (round.adds.scanned scanned).2
      have ahead := next.ahead
      rw [reached]
      omega
  | false =>
      obtain ⟨_, _, _, more⟩ := round.adds.full scanned
      simp only [PAGE_LIMIT] at more
      omega

/-- The end of a round whose page was written and saved. -/
theorem followed (round : PageRound runtime scan stream start loop past page
    done rest later) {after : ScanState} {now : Trace}
    (held : after.held = (loop.read page).held)
    (ledger : after.state.lastLedger =
      max loop.state.lastLedger (loop.read page).reached)
    (sameTo : after.to = loop.to) (saved : after.saved = after.state)
    (row : rowAfter scan.contract start now = after.state)
    (undeferred : Undeferred scan.contract now)
    (progress : Progress start scan.oldest after.state)
    (covered : Covered runtime scan.contract stream start now
      after.state.lastLedger) :
    RoundPost runtime scan stream start (roundsLeft scan rest loop)
      (.returned (after.following scan page (loop.read page).scanned))
      now := by
  obtain ⟨node, stop, next⟩ := round.next
  have inWindow := round.window.ahead round.unfinished
  have inHead := round.window.head
  have bounded : after.state.lastLedger ≤ max scan.head (scan.oldest - 1) := by
    rw [ledger]
    exact round.reached_le.trans (Nat.le_max_left _ _)
  have retained : scan.oldest ≤ after.state.lastLedger + 1 := by
    have before := round.invariant.retained
    omega
  cases goesOn : after.following scan page (loop.read page).scanned with
  | next final =>
      obtain ⟨state, sameSaved⟩ := ScanState.following_next goesOn
      refine ⟨later, ⟨?_, undeferred, ?_, ?_, ?_, ?_, ?_, ?_⟩, ?_⟩
      · rw [state, row]
      · rw [state, sameSaved, saved]
      · rw [state]
        exact progress
      · rw [state]
        exact bounded
      · rw [state]
        exact retained
      · rw [state]
        exact covered
      · exact ⟨_, round.window.following next round.unfinished round.adds
          held ledger sameTo goesOn⟩
      · exact round.fewer (state ▸ ledger)
  | stop final stopped =>
      obtain ⟨scanned, rfl, rfl⟩ := ScanState.following_stop goesOn
      have advanced : start.lastLedger < final.state.lastLedger := by
        have reached := (round.adds.scanned scanned).2
        have ahead := next.ahead
        have grows := round.invariant.progress.le
        rw [ledger, reached]
        omega
      refine
        { ready := ⟨row.trans saved.symm, by rw [saved], bounded, covered,
            saved ▸ progress, .inl progress⟩
          retained := retained
          finished := fun _ _ => advanced
          deadline := fun never => nomatch never
          rpcError := fun never => nomatch never
          deferred := fun never => nomatch never }

end PageRound

/-- The page a node answers continues the scan where it stands. -/
theorem ScanInvariant.pageRound {loop : ScanState} {page : Page}
    {rest : List EventResponse} (ordered : ChainOrdered stream)
    (invariant : ScanInvariant runtime scan stream start loop past rest)
    (unfinished : loop.state.lastLedger < scan.head)
    (isPage : ∃ node, getEvents stream node loop.request = some page) :
    ∃ done later, PageRound runtime scan stream start loop past page done
      rest later := by
  obtain ⟨node, answered⟩ := isPage
  obtain ⟨done, window⟩ := invariant.window
  obtain ⟨stop, next⟩ := window.nextPage ordered answered
  have ahead : loop.state.lastLedger < min loop.to page.latestLedger := by
    have inWindow := window.ahead unfinished
    have known := next.ahead
    omega
  obtain ⟨later, adds⟩ := loop.pageAdds ordered window.position next.events
    next.reaches next.bounded ahead
  exact ⟨done, later, invariant, unfinished, window, ⟨node, stop, next⟩,
    adds⟩

theorem WriterPost.threw {events : List EventResponse} {skip : Bool}
    {error : Thrown} {now : Trace}
    (own : ∀ event ∈ events, event ∈ stream)
    (post : WriterPost runtime scan.contract skip events (.threw error) now) :
    ScanThrew runtime scan.contract stream now := by
  rcases post with ⟨exchange, member, fault⟩ | ⟨time, message, member, failed⟩ |
    ⟨packet, member, unbound⟩
  · refine .inl ⟨exchange, member, ?_⟩
    obtain ⟨request, answer⟩ := exchange
    cases request with
    | run write => exact ⟨error, fault⟩
    | batch writes => exact ⟨error, fault⟩
    | _ => exact absurd fault id
  · exact .inl ⟨_, member, message, failed⟩
  · obtain ⟨event, inEvents, parsed⟩ := List.mem_filterMap.mp member
    exact .inr ⟨packet,
      List.mem_filterMap.mpr ⟨event, own event inEvents, parsed⟩, unbound⟩

/-- A deferred call leaves the count of attempts raised by one. -/
theorem ScanInvariant.raised {loop after : ScanState}
    {rest : List EventResponse} {now : Trace}
    (invariant : ScanInvariant runtime scan stream start loop past rest)
    (state : after.state = { loop.state with
      deferAttempts := loop.state.deferAttempts + 1 })
    (saved : after.saved = loop.saved)
    (row : rowAfter scan.contract start now = loop.state)
    (covered : Covered runtime scan.contract stream start now
      loop.state.lastLedger)
    (deferred : ∃ packet, RunDeferredAt runtime scan.contract start now
      packet)
    (below : loop.state.deferAttempts < MAX_DEFER_ATTEMPTS) :
    ScanEnd runtime scan stream start after (some .deferred) now := by
  rw [invariant.saved] at saved
  have ledger : after.state.lastLedger = loop.state.lastLedger := by
    rw [state]
  constructor
  · constructor
    · rw [row, saved]
    · rw [saved, ledger]
    · rw [ledger]
      exact invariant.bounded
    · rw [ledger]
      exact covered
    · rw [saved]
      exact invariant.progress
    · refine .inr ⟨deferred, ?_⟩
      rw [state, saved]
  · rw [ledger]
    exact invariant.retained
  · intro never
    cases never
  · intro never
    cases never
  · intro never
    cases never
  · intro _
    rw [ledger]
    rcases invariant.progress with same | ⟨aged, same⟩ | ⟨advanced, _⟩
    · exact .inr (same ▸ below)
    · refine .inl ?_
      simp only [same]
      omega
    · exact .inl advanced

/-- A page that did not defer is saved, and the scan goes on after it. -/
theorem PageRound.written {loop after : ScanState} {page : Page}
    {done rest later : List EventResponse} {now : Trace}
    (round : PageRound runtime scan stream start loop past page done rest
      later)
    (state : after.state = loop.state) (saved : after.saved = loop.saved)
    (held : after.held = (loop.read page).held) (sameTo : after.to = loop.to)
    (row : rowAfter scan.contract start now = loop.state)
    (undeferred : Undeferred scan.contract now)
    (covered : Covered runtime scan.contract stream start now
      (max loop.state.lastLedger (loop.read page).reached)) :
    (if loop.state.lastLedger < (loop.read page).reached then do
        let loop' ← ScanState.save runtime scan { after with
          state := ⟨(loop.read page).reached, 0⟩ }
        return loop'.following scan page (loop.read page).scanned
      else return after.following scan page (loop.read page).scanned :
        IndexerTask Round).Ensures allows
      (ScanStep runtime scan stream start) now
      (RoundPost runtime scan stream start (roundsLeft scan rest loop)) := by
  have invariant := round.invariant
  rw [invariant.saved] at saved
  by_cases advances : loop.state.lastLedger < (loop.read page).reached
  · have isMax : max loop.state.lastLedger (loop.read page).reached =
        (loop.read page).reached :=
      Nat.max_eq_right (Nat.le_of_lt advances)
    have advanced : start.lastLedger < (loop.read page).reached :=
      Nat.lt_of_le_of_lt invariant.progress.le advances
    have bounded := round.reached_le
    rw [isMax] at covered bounded
    rw [if_pos advances, bind_eq]
    refine (save_ensures ?_).bind ?_ ?_ ?_
    · constructor
      · rw [row, saved]
      · rw [saved]
        exact Nat.le_of_lt advances
      · exact bounded.trans (Nat.le_max_left _ _)
      · exact covered
      · rw [saved]
        exact invariant.progress
      · exact .inl (.inr (.inr ⟨advanced, rfl⟩))
    · rintro final now' ⟨rfl, rowAfter, stillUndeferred⟩
      exact round.followed held isMax.symm sameTo rfl rowAfter
        (stillUndeferred undeferred) (.inr (.inr ⟨advanced, rfl⟩))
        (covered.append _)
    · intro error now' fault
      exact .inl fault
    · intro now' impossible
      exact impossible
  · have isMax : max loop.state.lastLedger (loop.read page).reached =
        loop.state.lastLedger :=
      Nat.max_eq_left (Nat.le_of_not_lt advances)
    rw [isMax, ← state] at covered
    rw [if_neg advances]
    refine round.followed held ?_ sameTo ?_ ?_ undeferred ?_ covered
    · rw [isMax, state]
    · rw [saved, state]
    · rw [row, state]
    · rw [state]
      exact invariant.progress

theorem writePage_ensures {loop : ScanState} {page : Page}
    {done rest later : List EventResponse}
    (round : PageRound runtime scan stream start loop past page done rest
      later) :
    (writePage runtime scan loop page).Ensures allows
      (ScanStep runtime scan stream start) past
      (RoundPost runtime scan stream start (roundsLeft scan rest loop)) := by
  have invariant := round.invariant
  have own : ∀ event ∈ (loop.read page).ready, event ∈ stream := by
    intro event member
    rw [round.adds.position.split]
    simp [member]
  have inHead : ∀ event ∈ (loop.read page).ready,
      event.ledger ≤ scan.head := by
    intro event member
    exact (round.adds.position.done event
      (List.mem_append_right _ member)).trans round.reached_le
  rw [writePage, bind_eq]
  generalize isSkip : decide
    (MAX_DEFER_ATTEMPTS ≤ loop.state.deferAttempts) = skip
  have armed : skip = true ↔
      MAX_DEFER_ATTEMPTS ≤ loop.state.deferAttempts := by
    rw [← isSkip, decide_eq_true_iff]
  refine ((writeEvents_ensures (loop.read page).ready).traced.weaken
    fun inside exchange along step =>
      step.scanStep invariant own inHead armed.mp along).bind ?_ ?_ ?_
  · rintro written inside ⟨_, inside', same, yields, _, along⟩
    obtain rfl : inside = inside' := List.append_cancel_left same
    have row := (rowAfter_writer along).trans invariant.row
    have covered := invariant.covered.append inside
    rw [bind_eq, call_bind]
    rintro ⟨⟩ _
    have quiet : savedCheckpoint scan.contract
        (⟨.wrote scan.contract (loop.read page).ready skip written, ()⟩ :
          Exchange indexerHost) = none := rfl
    refine ⟨⟨⟨rfl, undeferred_writer invariant.undeferred along⟩,
      RowSummary.quiet (.inl (row ▸ invariant.progress)) quiet⟩, ?_⟩
    dsimp only
    generalize isNow : past ++ inside ++
      [(⟨.wrote scan.contract (loop.read page).ready skip written, ()⟩ :
        Exchange indexerHost)] = now
    have rowNow : rowAfter scan.contract start now = loop.state := by
      rw [← isNow, rowAfter_quiet quiet, row]
    have coveredNow : Covered runtime scan.contract stream start now
        loop.state.lastLedger := isNow ▸ covered.append _
    have called : WriteCall.In runtime scan.contract start now
        { events := (loop.read page).ready, skip, result := written
          inside } := by
      refine ⟨past, [], isNow.symm, yields, ?_⟩
      rw [invariant.row]
      exact armed
    cases deferred : written.deferred with
    | true =>
        simp only [if_true]
        obtain ⟨unarmed, packet, _, stopped⟩ :=
          (writerPost_of_yields yields).2 deferred
        have below : loop.state.deferAttempts < MAX_DEFER_ATTEMPTS := by
          by_contra reached
          rw [armed.mpr (Nat.le_of_not_lt reached)] at unarmed
          cases unarmed
        exact invariant.raised rfl rfl rowNow coveredNow
          ⟨packet, _, called, deferred, stopped⟩ below
    | false =>
        simp only [Bool.false_eq_true, if_false]
        have undeferred : Undeferred scan.contract now := by
          rw [← isNow]
          apply (undeferred_writer invariant.undeferred along).snoc
          rintro events skip result ⟨⟩
          exact deferred
        exact round.written rfl rfl rfl rfl rowNow undeferred
          (round.covered called rfl deferred coveredNow)
  · rintro error inside ⟨post, _⟩
    exact post.threw own
  · rintro inside ⟨impossible, _⟩
    exact impossible

theorem scanPage_ensures {loop : ScanState} {rest : List EventResponse}
    (ordered : ChainOrdered stream)
    (answers : ∀ past exchange, allows past exchange →
      RpcAnswers scan.contract stream exchange)
    (invariant : ScanInvariant runtime scan stream start loop past rest)
    (unfinished : loop.state.lastLedger < scan.head) :
    (scanPage runtime scan loop).Ensures allows
      (ScanStep runtime scan stream start) past
      (RoundPost runtime scan stream start (roundsLeft scan rest loop)) := by
  rw [scanPage, bind_eq, call_bind]
  intro (time : Nat) _
  refine ⟨⟨trivial, invariant.summary.quiet rfl⟩, ?_⟩
  have timed := invariant.quiet ⟨.now, time⟩ rfl
    fun _ _ _ never => nomatch never
  dsimp only
  by_cases late : scan.deadlineMs ≤ time
  · rw [if_pos late]
    exact
      { ready := timed.ready
        retained := timed.retained
        finished := fun never => nomatch never
        deadline := fun _ => ⟨time, by simp, late⟩
        rpcError := fun never => nomatch never
        deferred := fun never => nomatch never }
  · rw [if_neg late, bind_eq, call_bind]
    intro (answer : Except Thrown Page) allowed
    refine ⟨⟨rfl, timed.summary.quiet rfl⟩, ?_⟩
    have asked := timed.quiet
      ⟨.getEvents scan.contract loop.request, answer⟩ rfl
      fun _ _ _ never => nomatch never
    cases answer with
    | error error =>
        exact
          { ready := asked.ready
            retained := asked.retained
            finished := fun never => nomatch never
            deadline := fun never => nomatch never
            rpcError := fun _ => ⟨loop.request, error, by simp⟩
            deferred := fun never => nomatch never }
    | ok page =>
        have isPage := answers _ _ allowed rfl page rfl
        obtain ⟨done, later, round⟩ :=
          asked.pageRound ordered unfinished isPage
        exact writePage_ensures round

/-- What the loop ensures. -/
def LoopPost (runtime : Runtime) (scan : Scan)
    (stream : List EventResponse) (start : Checkpoint)
    (enough : Prop) :
    Final indexerHost (ScanState × Option Stopped) → Trace → Prop
  | .returned (loop, stopped), now =>
      ScanEnd runtime scan stream start loop stopped now
  | .threw _, now => ScanThrew runtime scan.contract stream now
  | .unfinished, _ => ¬ enough

theorem scanPages_ensures {loop : ScanState} {rest : List EventResponse}
    (ordered : ChainOrdered stream)
    (answers : ∀ past exchange, allows past exchange →
      RpcAnswers scan.contract stream exchange)
    (rounds : Nat)
    (invariant : ScanInvariant runtime scan stream start loop past rest) :
    (scanPages runtime scan rounds loop).Ensures allows
      (ScanStep runtime scan stream start) past
      (LoopPost runtime scan stream start
        (roundsLeft scan rest loop < rounds)) := by
  induction rounds generalizing loop past rest with
  | zero => exact Nat.not_lt_zero _
  | succ rounds induction =>
      unfold scanPages
      by_cases unfinished : loop.state.lastLedger < scan.head
      · rw [if_pos unfinished, bind_eq]
        refine (scanPage_ensures ordered answers invariant unfinished).bind
          ?_ ?_ ?_
        · intro round later post
          cases round with
          | stop final stopped => exact post
          | next final =>
              obtain ⟨others, kept, fewer⟩ := post
              refine (induction kept).mono fun final' after holds => ?_
              match final', holds with
              | .returned _, ends => exact ends
              | .threw _, threw => exact threw
              | .unfinished, short =>
                  exact fun enough => short (by omega)
        · intro error later threw
          exact threw
        · intro later impossible
          exact absurd impossible id
      · rw [if_neg unfinished]
        exact
          { ready := invariant.ready
            retained := invariant.retained
            finished := fun _ inside => Nat.lt_of_lt_of_le inside
              (Nat.le_of_not_lt unfinished)
            deadline := fun never => nomatch never
            rpcError := fun never => nomatch never
            deferred := fun never => nomatch never }

/-- What opening the scan ensures. -/
def OpenPost (runtime : Runtime) (scan : Scan)
    (stream : List EventResponse) (start : Checkpoint) :
    Final indexerHost ScanState → Trace → Prop
  | .returned loop, now => ∃ rest,
      ScanInvariant runtime scan stream start loop now rest ∧
        rest.length ≤ stream.length
  | .threw _, now => ScanThrew runtime scan.contract stream now
  | .unfinished, _ => False

theorem openScan_ensures (ordered : ChainOrdered stream)
    (inside : start.lastLedger < scan.head) :
    (openScan runtime scan start).Ensures allows
      (ScanStep runtime scan stream start) []
      (OpenPost runtime scan stream start) := by
  unfold openScan
  by_cases aged : start.lastLedger + 1 < scan.oldest
  · rw [if_pos aged]
    simp only [deadLetter, bind_eq]
    intro (reply : Reply Unit) _
    have row : rowAfter scan.contract start
        ([] ++ [⟨.deadLetter (clampEntry scan.contract
          (start.lastLedger + 1) scan.oldest), reply⟩]) = start :=
      rowAfter_quiet rfl
    refine ⟨⟨.inl ⟨aged, rfl⟩, .inl (row ▸ .inl rfl)⟩, ?_⟩
    have progress : Progress start scan.oldest
        { start with lastLedger := scan.oldest - 1 } := .inr (.inl ⟨aged, rfl⟩)
    have covered : Covered runtime scan.contract stream start
        ([] ++ [⟨.deadLetter (clampEntry scan.contract
          (start.lastLedger + 1) scan.oldest), reply⟩])
        (scan.oldest - 1) := by
      intro event _ above below
      exact .inr ⟨start.lastLedger + 1, scan.oldest, reply, by simp, above,
        by omega⟩
    refine (save_ensures ?_).mono ?_
    · exact
        { row := row
          grows := by
            dsimp only
            omega
          bounded := Nat.le_max_right _ _
          covered := covered
          progress := .inl rfl
          next := .inl progress }
    · intro final later post
      cases final with
      | returned loop =>
          obtain ⟨isLoop, saved, undeferred⟩ := post
          subst isLoop
          refine ⟨_, ⟨saved, undeferred (by simp [Undeferred]), rfl, progress, Nat.le_max_right _ _, ?_,
            covered.append _, _, Window.first ordered ?_ rfl rfl rfl⟩,
            List.length_filter_le _ _⟩
          · dsimp only
            omega
          · dsimp only
            omega
      | threw thrown => exact .inl post
      | unfinished => cases post
  · rw [if_neg aged]
    refine ⟨_, ⟨rfl, by simp [Undeferred], rfl, .inl rfl, ?_,
      Nat.le_of_not_lt aged, ?_, _,
      Window.first ordered rfl rfl rfl rfl⟩, List.length_filter_le _ _⟩
    · exact (Nat.le_of_lt inside).trans (Nat.le_max_left _ _)
    · intro event _ above below
      exact absurd above (Nat.not_lt.mpr below)

/-- What `indexContract` ensures. -/
def ScanPost (runtime : Runtime) (scan : Scan)
    (stream : List EventResponse) (start : Checkpoint) (rounds : Nat) :
    Final indexerHost ContractResult → Trace → Prop
  | .returned result, now =>
      (rowAfter scan.contract start now).lastLedger = result.lastLedger ∧
      (start.lastLedger < scan.head →
        scan.oldest ≤ result.lastLedger + 1 ∧
        (result.stopped = none →
          start.lastLedger < result.lastLedger) ∧
        (result.stopped = some .deadline → ∃ time : Nat,
          (⟨.now, time⟩ : Exchange indexerHost) ∈ now ∧
            scan.deadlineMs ≤ time) ∧
        (result.stopped = some .rpcError → ∃ request error,
          (⟨.getEvents scan.contract request, .error error⟩ :
            Exchange indexerHost) ∈ now) ∧
        (result.stopped = some .deferred →
          start.lastLedger < result.lastLedger ∨
            start.deferAttempts < MAX_DEFER_ATTEMPTS))
  | .threw _, now => ScanThrew runtime scan.contract stream now
  | .unfinished, _ => rounds ≤ stream.length + scan.head

theorem indexContract_ensures (ordered : ChainOrdered stream)
    (answers : ∀ past exchange, allows past exchange →
      RpcAnswers scan.contract stream exchange) (rounds : Nat) :
    (indexContract runtime rounds scan start).Ensures allows
      (ScanStep runtime scan stream start) []
      (ScanPost runtime scan stream start rounds) := by
  unfold indexContract
  by_cases beyond : scan.head ≤ start.lastLedger
  · rw [if_pos beyond]
    exact ⟨rfl, fun inside => absurd inside (Nat.not_lt.mpr beyond)⟩
  · have inside := Nat.lt_of_not_le beyond
    rw [if_neg beyond, bind_eq]
    refine (openScan_ensures ordered inside).bind ?_
      (fun _ _ threw => threw) (fun _ impossible => absurd impossible id)
    rintro loop opened ⟨rest, invariant, shorter⟩
    refine (scanPages_ensures ordered answers rounds invariant).bind ?_
      (fun _ _ threw => threw) ?_
    · rintro ⟨ended, stopped⟩ scanned ends
      refine (save_ensures ends.ready).bind ?_
        (fun _ _ fault => .inl fault) (fun _ impossible => absurd impossible id)
      rintro _ saved ⟨rfl, row, _⟩
      refine ⟨congrArg Checkpoint.lastLedger row, fun _ =>
        ⟨ends.retained, ?_, ?_, ?_, ends.deferred⟩⟩
      · exact fun isNone => ends.finished isNone inside
      · intro isDeadline
        obtain ⟨time, member, late⟩ := ends.deadline isDeadline
        exact ⟨time, List.mem_append_left _ member, late⟩
      · intro isError
        obtain ⟨request, error, member⟩ := ends.rpcError isError
        exact ⟨request, error, List.mem_append_left _ member⟩
    · intro later short
      have few : ¬ rest.length + (scan.head - loop.state.lastLedger) <
        rounds := short
      show rounds ≤ stream.length + scan.head
      omega

end

end Stellar8004.Indexer
