import Stellar8004.Indexer.Database
import Stellar8004.Indexer.ScanRuns
import Stellar8004.Library.Stateful

/-!
# Reputation and validation behind identity

Over any sequence of runs the dependents' checkpoints stay at or below
identity's.  As long as nothing was dead-lettered every row that their events
refer to is indexed by then, so none of their statements fails.
-/

namespace Stellar8004.Indexer

open Program

/-! ## What the contracts promise -/

/-- The event inserts the parent row, unless it cannot be read. -/
def Creates (contract : ContractName) (parent : Parent)
    (event : EventResponse) : Prop :=
  match interpret contract event with
  | .parsed data => data.creates? = some parent
  | .ignored _ => False
  | .invalid _ => True

/-- Feedback and validation requests name an agent registered in the same or
an earlier ledger, and a response names feedback given before it. -/
structure Grounded (streams : Streams) : Prop where
  agents : ∀ contract event data agent, contract ≠ .identity →
    event ∈ streams contract → interpret contract event = .parsed data →
    data.parent? = some (.agent agent) →
      ∃ registration ∈ streams .identity,
        registration.ledger ≤ event.ledger ∧
          Creates .identity (.agent agent) registration
  feedback : ∀ contract before event after data key,
    streams contract = before ++ event :: after →
    interpret contract event = .parsed data →
    data.parent? = some (.feedback key) →
      ∃ given ∈ before, Creates contract (.feedback key) given

/-- The event was read, and the row it inserts is there. -/
def EventIndexed (tables : Tables) (contract : ContractName)
    (event : EventResponse) : Prop :=
  match interpret contract event with
  | .parsed data => ∀ parent, data.creates? = some parent → tables.Has parent
  | .ignored _ => True
  | .invalid _ => False

/-- Every event up to a ledger is indexed. -/
def IndexedTo (tables : Tables) (contract : ContractName)
    (stream : List EventResponse) (ledger : Nat) : Prop :=
  ∀ event ∈ stream, event.ledger ≤ ledger →
    EventIndexed tables contract event

theorem Creates.cases {contract : ContractName} {parent : Parent}
    {event : EventResponse} (creates : Creates contract parent event) :
    (∃ packet, packetOf contract event = some packet ∧
      packet.data.creates? = some parent) ∨
    ∃ reason, interpret contract event = .invalid reason := by
  unfold Creates at creates
  unfold packetOf
  cases interpreted : interpret contract event with
  | parsed data =>
      rw [interpreted] at creates
      exact .inl ⟨_, rfl, creates⟩
  | ignored reason =>
      rw [interpreted] at creates
      exact absurd creates id
  | invalid reason => exact .inr ⟨reason, rfl⟩

theorem EventIndexed.has {tables : Tables} {contract : ContractName}
    {parent : Parent} {event : EventResponse}
    (indexed : EventIndexed tables contract event)
    (creates : Creates contract parent event) : tables.Has parent := by
  unfold EventIndexed at indexed
  unfold Creates at creates
  cases interpreted : interpret contract event with
  | parsed data =>
      rw [interpreted] at creates indexed
      exact indexed parent creates
  | ignored reason =>
      rw [interpreted] at creates
      exact absurd creates id
  | invalid reason =>
      rw [interpreted] at indexed
      exact absurd indexed id

theorem EventIndexed.mono {tables after : Tables} {contract : ContractName}
    {event : EventResponse} (indexed : EventIndexed tables contract event)
    (keeps : ∀ parent, tables.Has parent → after.Has parent) :
    EventIndexed after contract event := by
  unfold EventIndexed at indexed ⊢
  cases interpreted : interpret contract event with
  | parsed data =>
      rw [interpreted] at indexed
      exact fun parent creates => keeps parent (indexed parent creates)
  | ignored reason => trivial
  | invalid reason =>
      rw [interpreted] at indexed
      exact absurd indexed id

/-! ## What a log says -/

/-- The statements an exchange sends. -/
def sentWrites : Exchange indexerHost → List EventWrite
  | ⟨.batch writes, _⟩ => writes
  | ⟨.run write, _⟩ => [write]
  | _ => []

/-- The statements that an exchange has run. -/
def ranWrites : Exchange indexerHost → List EventWrite
  | ⟨.batch writes, .answered _⟩ => writes
  | ⟨.run write, .answered _⟩ => [write]
  | _ => []

/-- Nothing was dead-lettered or clamped away.  A dead letter counts when it
is sent, since it is not sent again if it is lost. -/
def Unlettered (log : Trace) : Prop :=
  ∀ entry (reply : Reply Unit),
    (⟨.deadLetter entry, reply⟩ : Exchange indexerHost) ∉ log

theorem Unlettered.of_append {first second : Trace}
    (unlettered : Unlettered (first ++ second)) : Unlettered first :=
  fun entry reply member =>
    unlettered entry reply (List.mem_append_left _ member)

theorem Ran.mem_ranWrites {runtime : Runtime} {packet : EventPacket}
    {trace : Trace} (ran : Ran runtime packet trace) :
    ∃ exchange ∈ trace, ∃ write ∈ ranWrites exchange,
      write.packet = packet ∧ write.Bound runtime := by
  obtain ⟨write, same, bound, ⟨writes, changes, member, exchanged⟩ |
    ⟨count, exchanged⟩⟩ := ran
  · exact ⟨_, exchanged, write, member, same, bound⟩
  · exact ⟨_, exchanged, write, List.mem_singleton.mpr rfl, same, bound⟩

/-- No statement of a dependent failed on a constraint. -/
def Unfailed (log : Trace) : Prop :=
  ∀ exchange ∈ log,
    (∀ write ∈ sentWrites exchange, write.packet.contract ≠ .identity) →
      ¬ FailedConstraint exchange

/-- What holds while nothing was dead-lettered.  `rows` are the checkpoints
the latest run started from. -/
structure Clean (streams : Streams) (log : Trace) (store : Store)
    (rows : ContractName → Checkpoint) : Prop where
  unfailed : Unfailed log
  counts : ∀ contract, contract ≠ .identity →
    (store.rows contract).deferAttempts = 0
  started : ∀ contract, contract ≠ .identity →
    (rows contract).deferAttempts = 0
  indexed : ∀ contract, IndexedTo store.tables contract (streams contract)
    (store.rows contract).lastLedger

/-- What holds over any sequence of runs. -/
structure Follow (runtime : Runtime) (streams : Streams)
    (past current : Trace) (store : Store)
    (rows : ContractName → Checkpoint) : Prop where
  tracked : ∀ contract,
    store.rows contract = rowAfter contract (rows contract) current
  read : ∀ answer, (⟨.readCheckpoints, .ok answer⟩ :
    Exchange indexerHost) ∈ current → answer = fun contract =>
      some (rows contract)
  healthy : ∀ health : Health, (⟨.getHealth, .ok health⟩ :
    Exchange indexerHost) ∈ current →
      health.oldestLedger ≤ health.latestLedger + 1
  grows : ∀ contract,
    (rows contract).lastLedger ≤ (store.rows contract).lastLedger
  behind : ∀ contract, (store.rows contract).lastLedger ≤
    (store.rows .identity).lastLedger
  inserted : ∀ exchange ∈ past ++ current, ∀ write ∈ ranWrites exchange,
    write.Bound runtime → ∀ parent,
      write.packet.data.creates? = some parent → store.tables.Has parent
  clean : Unlettered (past ++ current) →
    Clean streams (past ++ current) store rows

section

variable {runtime : Runtime} {options : IndexOptions} {streams : Streams}
  {past current before inside : Trace} {store after : Store}
  {rows : ContractName → Checkpoint} {exchange : Exchange indexerHost}
  {scan : Scan} {health : Health}

/-! ## Steps -/

theorem IndexedTo.step {contract : ContractName}
    {stream : List EventResponse}
    (keeps : ∀ parent, store.tables.Has parent → after.tables.Has parent)
    (indexed : IndexedTo store.tables contract stream
      (store.rows contract).lastLedger)
    (fresh : ∀ event ∈ stream,
      (store.rows contract).lastLedger < event.ledger →
        event.ledger ≤ (after.rows contract).lastLedger →
          EventIndexed after.tables contract event) :
    IndexedTo after.tables contract stream
      (after.rows contract).lastLedger := by
  intro event member reached
  rcases Nat.lt_or_ge (store.rows contract).lastLedger event.ledger with
    isFresh | old
  · exact fresh event member isFresh reached
  · exact (indexed event member old).mono keeps

/-- One more exchange, by what it changes. -/
theorem Follow.snoc (follow : Follow runtime streams past current store rows)
    (tracked : ∀ contract, after.rows contract =
      (savedCheckpoint contract exchange).getD (store.rows contract))
    (read : ∀ answer, exchange = ⟨.readCheckpoints, .ok answer⟩ →
      answer = fun contract => some (rows contract))
    (healthy : ∀ health : Health, exchange = ⟨.getHealth, .ok health⟩ →
      health.oldestLedger ≤ health.latestLedger + 1)
    (grows : ∀ contract, (store.rows contract).lastLedger ≤
      (after.rows contract).lastLedger)
    (behind : ∀ contract, (after.rows contract).lastLedger ≤
      (after.rows .identity).lastLedger)
    (keeps : ∀ parent, store.tables.Has parent → after.tables.Has parent)
    (inserts : ∀ write ∈ ranWrites exchange, write.Bound runtime →
      ∀ parent, write.packet.data.creates? = some parent →
        after.tables.Has parent)
    (unfailed : Clean streams (past ++ current) store rows →
      Unlettered (past ++ current) →
      (∀ write ∈ sentWrites exchange, write.packet.contract ≠ .identity) →
        ¬ FailedConstraint exchange)
    (counts : Clean streams (past ++ current) store rows →
      ∀ contract, contract ≠ .identity →
        (after.rows contract).deferAttempts = 0)
    (fresh : Unlettered (past ++ current) → ∀ contract,
      ∀ event ∈ streams contract,
      (store.rows contract).lastLedger < event.ledger →
        event.ledger ≤ (after.rows contract).lastLedger →
          EventIndexed after.tables contract event) :
    Follow runtime streams past (current ++ [exchange]) after rows where
  tracked contract := by
    rw [rowAfter_snoc, ← follow.tracked contract]
    exact tracked contract
  read answer member := by
    rcases List.mem_append.mp member with old | new
    · exact follow.read answer old
    · exact read answer (List.mem_singleton.mp new).symm
  healthy health member := by
    rcases List.mem_append.mp member with old | new
    · exact follow.healthy health old
    · exact healthy health (List.mem_singleton.mp new).symm
  grows contract := (follow.grows contract).trans (grows contract)
  behind := behind
  inserted other member write ran bound parent creates := by
    rw [← List.append_assoc] at member
    rcases List.mem_append.mp member with old | new
    · exact keeps parent
        (follow.inserted other old write ran bound parent creates)
    · cases List.mem_singleton.mp new
      exact inserts write ran bound parent creates
  clean unlettered := by
    rw [← List.append_assoc] at unlettered ⊢
    have clean := follow.clean unlettered.of_append
    refine ⟨?_, counts clean, clean.started, ?_⟩
    · intro other member dependent
      rcases List.mem_append.mp member with old | new
      · exact clean.unfailed other old dependent
      · cases List.mem_singleton.mp new
        exact unfailed clean unlettered.of_append dependent
    · intro contract
      exact (clean.indexed contract).step keeps
        (fresh unlettered.of_append contract)

/-- An exchange that changes nothing. -/
theorem Follow.quiet (follow : Follow runtime streams past current store rows)
    (saves : ∀ contract, savedCheckpoint contract exchange = none)
    (read : ∀ answer, exchange = ⟨.readCheckpoints, .ok answer⟩ →
      answer = fun contract => some (rows contract))
    (healthy : ∀ health : Health, exchange = ⟨.getHealth, .ok health⟩ →
      health.oldestLedger ≤ health.latestLedger + 1)
    (ran : ranWrites exchange = [])
    (unfailed : ¬ FailedConstraint exchange) :
    Follow runtime streams past (current ++ [exchange]) store rows := by
  apply follow.snoc _ read healthy (fun _ => Nat.le_refl _) follow.behind
    (fun _ has => has)
  · rw [ran]
    intro write member
    cases member
  · exact fun _ _ _ => unfailed
  · exact fun clean => clean.counts
  · intro _ contract event _ above below
    omega
  · intro contract
    rw [saves contract]
    rfl

/-- The next run starts from the rows the earlier ones left. -/
theorem Follow.next (follow : Follow runtime streams past current store rows) :
    Follow runtime streams (past ++ current) [] store store.rows where
  tracked _ := rfl
  read _ member := nomatch member
  healthy _ member := nomatch member
  grows _ := Nat.le_refl _
  behind := follow.behind
  inserted := by
    rw [List.append_nil]
    exact follow.inserted
  clean unlettered := by
    rw [List.append_nil] at unlettered ⊢
    have clean := follow.clean unlettered
    exact ⟨clean.unfailed, clean.counts, clean.counts, clean.indexed⟩

/-! ## Statements -/

theorem contract_of_packetOf {contract : ContractName}
    {event : EventResponse} {packet : EventPacket}
    (parsed : packetOf contract event = some packet) :
    packet.contract = contract ∧
      interpret contract event = .parsed packet.data := by
  unfold packetOf at parsed
  split at parsed
  · rename_i data interpreted
    cases parsed
    exact ⟨rfl, interpreted⟩
  · cases parsed

/-- A scan sends statements of its own events, up to its head. -/
theorem ScanStep.sent {stream : List EventResponse} {start : Checkpoint}
    (step : ScanStep runtime scan stream start past exchange) :
    ∀ write ∈ sentWrites exchange, write.packet.contract = scan.contract ∧
      write.packet.ledger ≤ scan.head ∧
      write.packet ∈ stream.filterMap (packetOf scan.contract) := by
  have own : ∀ packet : EventPacket,
      packet ∈ stream.filterMap (packetOf scan.contract) →
        packet.contract = scan.contract := by
    intro packet member
    obtain ⟨event, _, parsed⟩ := List.mem_filterMap.mp member
    exact (contract_of_packetOf parsed).1
  obtain ⟨request, answer⟩ := exchange
  intro write member
  cases request with
  | batch writes =>
      obtain ⟨inHead, listed⟩ := step.1 write member
      exact ⟨own _ listed, inHead, listed⟩
  | run sent =>
      obtain rfl : write = sent := List.mem_singleton.mp member
      obtain ⟨inHead, listed⟩ := step.1
      exact ⟨own _ listed, inHead, listed⟩
  | _ => cases member

theorem ScanAt.not_failing
    (isAt : ScanAt runtime options streams current exchange scan rows health
      before inside) (dependent : scan.contract ≠ .identity)
    (unfailed : Unfailed (past ++ current)) : ¬ Failing inside := by
  rintro ⟨other, member, failed⟩
  obtain ⟨_, step⟩ := isAt.along.of_mem member
  refine unfailed other ?_ ?_ failed
  · rw [isAt.trace]
    exact List.mem_append_right _ (List.mem_append_right _ member)
  · intro write isSent
    rw [(step.sent write isSent).1]
    exact dependent

/-- The rows a scan's run has read are the rows it started from. -/
theorem Follow.rows_eq (follow : Follow runtime streams past current store rows)
    {others : ContractName → Checkpoint}
    (isAt : ScanAt runtime options streams current exchange scan others health
      before inside) : others = rows := by
  have member : (⟨.readCheckpoints, .ok fun contract =>
      some (others contract)⟩ : Exchange indexerHost) ∈ current := by
    rw [isAt.trace]
    exact List.mem_append_left _ isAt.read.checkpoints
  have same := follow.read _ member
  funext contract
  exact Option.some.inj (congrFun same contract)

/-- The row of the contract that is scanned, by the scan's own exchanges. -/
theorem Follow.row (follow : Follow runtime streams past current store rows)
    (isAt : ScanAt runtime options streams current exchange scan rows health
      before inside) :
    store.rows scan.contract =
      rowAfter scan.contract (rows scan.contract) inside := by
  rw [follow.tracked, isAt.trace, rowAfter_append, isAt.untouched]

theorem Follow.head_le
    (follow : Follow runtime streams past current store rows)
    (isAt : ScanAt runtime options streams current exchange scan rows health
      before inside) (dependent : scan.contract ≠ .identity) :
    scan.head ≤ (store.rows .identity).lastLedger ∧
      scan.oldest ≤ (store.rows .identity).lastLedger + 1 := by
  have follows := isAt.follows dependent
  have sane := follow.healthy health (by
    rw [isAt.trace]
    exact List.mem_append_left _ isAt.read.healthy)
  rw [follow.tracked, isAt.oldest]
  exact ⟨follows.head, follows.retained sane⟩

/-- The rows the events before a batch insert, if nothing was
dead-lettered. -/
theorem Follow.has_of_before
    (follow : Follow runtime streams past current store rows)
    (isAt : ScanAt runtime options streams current exchange scan rows health
      before inside)
    (unlettered : Unlettered (past ++ current))
    {event : EventResponse} {parent : Parent}
    (creates : Creates scan.contract parent event)
    (lettered : Lettered scan.contract inside event)
    (ran : EventRan runtime scan.contract inside event) :
    store.tables.Has parent := by
  have own : ∀ other ∈ inside, other ∈ past ++ current := by
    intro other member
    rw [isAt.trace]
    exact List.mem_append_right _ (List.mem_append_right _ member)
  rcases creates.cases with ⟨packet, parsed, isParent⟩ | ⟨reason, invalid⟩
  · obtain ⟨other, member, write, isRan, rfl, bound⟩ :=
      (ran packet parsed).mem_ranWrites
    exact follow.inserted other (own other member) write isRan bound parent
      isParent
  · obtain ⟨reply, member⟩ := lettered reason invalid
    exact absurd (own _ member) (unlettered _ reply)

/-- Every row a batch refers to is there, or inserted earlier in the
batch. -/
theorem Follow.supplied
    (follow : Follow runtime streams past current store rows)
    (grounded : Grounded streams)
    (isAt : ScanAt runtime options streams current exchange scan rows health
      before inside) (dependent : scan.contract ≠ .identity)
    (unlettered : Unlettered (past ++ current))
    {done ready later : List EventResponse}
    (isStream : streams scan.contract = done ++ ready ++ later)
    (isDone : ∀ event ∈ done, event.ledger ≤
      (rowAfter scan.contract (rows scan.contract) inside).lastLedger)
    {writes : List EventWrite} {front middle back : List EventResponse}
    (inHead : ∀ write ∈ writes, write.packet.ledger ≤ scan.head)
    (sent : BatchAfter runtime scan.contract ready inside writes front middle
      back) :
    Supplied store.tables.Has (writes.map fun write => write.packet.data) := by
  have clean := follow.clean unlettered
  intro first data second isSplit parent isParent
  obtain ⟨early, rest, isWrites, isFirst, isRest⟩ :=
    List.map_eq_append_iff.mp isSplit
  obtain ⟨write, late, rfl, rfl, _⟩ := List.map_eq_cons_iff.mp isRest
  -- the event of the statement, and the events before it
  have packets := sent.packets
  rw [isWrites, List.map_append, List.map_cons] at packets
  obtain ⟨moved, others, isMiddle, isEarly, isOthers⟩ :=
    List.filterMap_eq_append_iff.mp packets
  obtain ⟨ignored, event, after, isAfter, noneIgnored, parsed, _⟩ :=
    List.filterMap_eq_cons_iff.mp isOthers
  obtain ⟨_, interpreted⟩ := contract_of_packetOf parsed
  have isWhole : streams scan.contract = (done ++ (front ++ moved ++ ignored)) ++
      event :: (after ++ back ++ later) := by
    rw [isStream, sent.split, isMiddle, isAfter]
    simp only [List.append_assoc, List.cons_append]
  have inStream : event ∈ streams scan.contract := by
    rw [isWhole]
    exact List.mem_append_right _ List.mem_cons_self
  cases parent with
  | agent agent =>
      obtain ⟨registration, listed, earlier, registers⟩ :=
        grounded.agents _ event _ agent dependent inStream interpreted isParent
      have reached : registration.ledger ≤
          (store.rows .identity).lastLedger := by
        have inScan := inHead write (by rw [isWrites]; simp)
        rw [ledger_of_packetOf parsed] at inScan
        exact earlier.trans
          (inScan.trans (follow.head_le isAt dependent).1)
      exact .inl ((clean.indexed .identity registration listed reached).has
        registers)
  | feedback key =>
      obtain ⟨given, listed, creates⟩ := grounded.feedback _ _ event _ _ key
        isWhole interpreted isParent
      have lettered : given ∈ front ++ moved ++ ignored →
          Lettered scan.contract inside given := by
        intro member
        apply sent.lettered
        rw [isMiddle, isAfter]
        simp only [List.append_assoc, List.mem_append] at member ⊢
        tauto
      rcases List.mem_append.mp listed with old | recent
      · have reached := isDone given old
        rw [← follow.row isAt] at reached
        have inOld : given ∈ streams scan.contract := by
          rw [isWhole]
          exact List.mem_append_left _ listed
        exact .inl ((clean.indexed _ given inOld reached).has creates)
      · have isLettered := lettered recent
        rcases List.mem_append.mp recent with sentBefore | unread
        · rcases List.mem_append.mp sentBefore with written | inBatch
          · exact .inl (follow.has_of_before isAt unlettered creates
              isLettered (sent.ran given written))
          · rcases creates.cases with ⟨packet, isPacket, inserts⟩ |
              ⟨reason, invalid⟩
            · right
              have member : packet ∈ early.map EventWrite.packet := by
                rw [← isEarly]
                exact List.mem_filterMap.mpr ⟨given, inBatch, isPacket⟩
              obtain ⟨creator, isCreator, rfl⟩ := List.mem_map.mp member
              refine ⟨creator.packet.data, ?_, inserts⟩
              rw [← isFirst]
              exact List.mem_map_of_mem isCreator
            · exact .inl (follow.has_of_before isAt unlettered creates
                isLettered fun packet isPacket => by
                  rw [(contract_of_packetOf isPacket).2] at invalid
                  cases invalid)
        · exact .inl (follow.has_of_before isAt unlettered creates isLettered
            fun packet isPacket => by
              rw [noneIgnored given unread] at isPacket
              cases isPacket)

/-- The events of a contract without registrations pass the CHECKs of their
statements. -/
theorem ScanStep.checked {stream : List EventResponse} {start : Checkpoint}
    (step : ScanStep runtime scan stream start past exchange) :
    ∀ write ∈ sentWrites exchange, write.packet.data.Checked := by
  intro write member
  obtain ⟨_, _, listed⟩ := step.sent write member
  obtain ⟨event, _, parsed⟩ := List.mem_filterMap.mp listed
  exact (interpret_readFrom (contract_of_packetOf parsed).2).checked

/-- A dependent's batch runs. -/
theorem Follow.execAll_ok
    (follow : Follow runtime streams past current store rows)
    (grounded : Grounded streams) {writes : List EventWrite}
    {reply : Reply (List Nat)}
    (isAt : ScanAt runtime options streams current ⟨.batch writes, reply⟩
      scan rows health before inside) (dependent : scan.contract ≠ .identity)
    (unlettered : Unlettered (past ++ current)) (defaultTime : String) :
    ∃ result, store.tables.execAll defaultTime writes = .ok result := by
  obtain ⟨done, ready, later, isStream, isDone, order⟩ := isAt.inOrder dependent
  rcases order with failing | ⟨front, middle, back, sent⟩
  · exact absurd failing
      (isAt.not_failing dependent (follow.clean unlettered).unfailed)
  · apply Tables.execAll_ok sent.bound
    · exact isAt.step.checked
    · exact follow.supplied grounded isAt dependent unlettered isStream isDone
        (fun write member => (isAt.step.sent write member).2.1) sent

/-- No statement of a dependent fails on a constraint. -/
theorem Follow.not_failed
    (follow : Follow runtime streams past current store rows)
    (grounded : Grounded streams)
    (isAt : ScanAt runtime options streams current exchange scan rows health
      before inside)
    (served : Serves streams store exchange after)
    (unlettered : Unlettered (past ++ current))
    (dependents : ∀ write ∈ sentWrites exchange,
      write.packet.contract ≠ .identity) :
    ¬ FailedConstraint exchange := by
  intro failed
  have unfailed := (follow.clean unlettered).unfailed
  cases served with
  | batchFailed writes violates =>
      obtain ⟨error, ⟨⟩, isConstraint⟩ := failed
      obtain ⟨defaultTime, violation, isViolation⟩ := violates isConstraint
      by_cases dependent : scan.contract = .identity
      · cases writes with
        | nil => cases isViolation
        | cons write writes =>
            have own := (isAt.step.sent write List.mem_cons_self).1
            exact dependents write List.mem_cons_self (own.trans dependent)
      · obtain ⟨result, ran⟩ := follow.execAll_ok grounded isAt dependent
          unlettered defaultTime
        rw [ran] at isViolation
        cases isViolation
  | runFailed write violates =>
      have dependent : scan.contract ≠ .identity := by
        have own := (isAt.step.sent write List.mem_cons_self).1
        rw [← own]
        exact dependents write List.mem_cons_self
      obtain ⟨done, ready, later, _, _, order⟩ := isAt.inOrder dependent
      exact isAt.not_failing dependent unfailed order
  | batchLost ran other =>
      obtain ⟨error, ⟨⟩, isConstraint⟩ := failed
      exact isConstraint other
  | runLost ran other =>
      obtain ⟨error, ⟨⟩, isConstraint⟩ := failed
      exact isConstraint other
  | batched ran =>
      obtain ⟨error, impossible, _⟩ := failed
      cases impossible
  | ran isRan =>
      obtain ⟨error, impossible, _⟩ := failed
      cases impossible
  | _ => exact failed

/-- A request that changes the tables, or nothing. -/
theorem Follow.statement
    (follow : Follow runtime streams past current store rows)
    (grounded : Grounded streams)
    (isAt : ScanAt runtime options streams current exchange scan rows health
      before inside)
    (served : Serves streams store exchange after)
    (sameRows : after.rows = store.rows)
    (saves : ∀ contract, savedCheckpoint contract exchange = none)
    (keeps : ∀ parent, store.tables.Has parent → after.tables.Has parent)
    (inserts : ∀ write ∈ ranWrites exchange, write.Bound runtime →
      ∀ parent, write.packet.data.creates? = some parent →
        after.tables.Has parent) :
    Follow runtime streams past (current ++ [exchange]) after rows := by
  apply follow.snoc _ _ _ _ _ keeps inserts
  · intro _ unlettered dependents
    exact follow.not_failed grounded isAt served unlettered dependents
  · rw [sameRows]
    exact fun clean => clean.counts
  · rw [sameRows]
    intro _ contract event _ above below
    omega
  · intro contract
    rw [saves contract, sameRows]
    rfl
  · rintro answer rfl
    exact absurd isAt.step.1 id
  · rintro health rfl
    exact absurd isAt.step.1 id
  · rw [sameRows]
    exact fun _ => Nat.le_refl _
  · rw [sameRows]
    exact follow.behind

/-! ## Checkpoints -/

/-- What a call accounts for is indexed, if nothing was dead-lettered. -/
theorem Follow.indexed_of_accounted
    (follow : Follow runtime streams past current store rows)
    (unlettered : Unlettered (past ++ current)) {contract : ContractName}
    {skip : Bool} {trace : Trace} {event : EventResponse}
    (own : ∀ other ∈ trace, other ∈ past ++ current)
    (accounted : Accounted runtime contract skip trace event) :
    EventIndexed store.tables contract event := by
  cases accounted with
  | ignored reason interpreted =>
      unfold EventIndexed
      rw [interpreted]
      trivial
  | unparseable reason reply interpreted recorded =>
      exact absurd (own _ recorded) (unlettered _ reply)
  | written packet parsed ran =>
      unfold EventIndexed
      rw [(contract_of_packetOf parsed).2]
      intro parent creates
      obtain ⟨other, member, write, isRan, rfl, bound⟩ := ran.mem_ranWrites
      exact follow.inserted other (own other member) write isRan bound parent
        creates
  | skipped packet parsed armed passed =>
      obtain ⟨_, _, _, reply, _, _, recorded⟩ := passed
      exact absurd (own _ recorded) (unlettered _ reply)

/-- What a saved checkpoint covers is indexed, if nothing was
dead-lettered. -/
theorem Follow.indexed_of_covered
    (follow : Follow runtime streams past current store rows)
    (unlettered : Unlettered (past ++ current))
    (isAt : ScanAt runtime options streams current exchange scan rows health
      before inside) {ledger : Nat}
    (covered : Covered runtime scan.contract (streams scan.contract)
      (rows scan.contract) inside ledger)
    {event : EventResponse} (listed : event ∈ streams scan.contract)
    (above : (store.rows scan.contract).lastLedger < event.ledger)
    (below : event.ledger ≤ ledger) :
    EventIndexed store.tables scan.contract event := by
  have own : ∀ other ∈ inside, other ∈ past ++ current := by
    intro other member
    rw [isAt.trace]
    exact List.mem_append_right _ (List.mem_append_right _ member)
  have started := follow.grows scan.contract
  rcases covered event listed (by omega) below with handed | clamped
  · obtain ⟨made, ⟨front, back, isTrace, _⟩, _, _, _, _, accounted⟩ := handed
    apply follow.indexed_of_accounted unlettered _ accounted
    intro other member
    apply own
    rw [isTrace]
    exact List.mem_append_left _ (List.mem_append_right _ member)
  · obtain ⟨_, _, reply, member, _⟩ := clamped
    exact absurd (own _ member) (unlettered _ reply)

/-- A run that deferred has met a failure. -/
theorem RunDeferredAt.failing {contract : ContractName} {start : Checkpoint}
    {trace : Trace} {packet : EventPacket}
    (deferred : RunDeferredAt runtime contract start trace packet) :
    Failing trace := by
  obtain ⟨made, ⟨front, back, isTrace, _⟩, _, calls, other, write, error,
    failure, isCalls, _, failed⟩ := deferred
  refine ⟨other, ?_, ?_⟩
  · rw [isTrace, isCalls]
    simp
  · obtain ⟨request, answer⟩ := other
    cases request with
    | run ran =>
        obtain ⟨_, result, isFailure⟩ := failed
        exact ⟨error, result, by simp [isFailure]⟩
    | _ => exact absurd failed id

/-- A dependent's row keeps its count at zero. -/
theorem Clean.count_zero
    (clean : Clean streams (past ++ current) store rows)
    (isAt : ScanAt runtime options streams current exchange scan rows health
      before inside) (dependent : scan.contract ≠ .identity)
    (silent : ¬ FailedConstraint exchange) :
    (rowAfter scan.contract (rows scan.contract)
      (inside ++ [exchange])).deferAttempts = 0 := by
  have started := clean.started scan.contract dependent
  rcases isAt.step.2 with progress | ⟨_, _, _, deferred, _⟩
  · rcases progress with same | ⟨_, same⟩ | ⟨_, zero⟩
    · rw [same, started]
    · rw [same]
      exact started
    · exact zero
  · obtain ⟨other, member, failed⟩ := deferred.failing
    rcases List.mem_append.mp member with old | new
    · exact absurd ⟨other, old, failed⟩
        (isAt.not_failing dependent clean.unfailed)
    · cases List.mem_singleton.mp new
      exact absurd failed silent

theorem savedCheckpoint_save (contract saved : ContractName)
    (checkpoint : Checkpoint) (owner now : String)
    (reply : Reply (Nat × Nat)) :
    savedCheckpoint contract
        ⟨.saveCheckpoint saved checkpoint owner now, reply⟩ = none ∨
      contract = saved ∧ savedCheckpoint contract
        ⟨.saveCheckpoint saved checkpoint owner now, reply⟩ =
          some checkpoint := by
  by_cases same : saved = contract
  · subst same
    cases reply with
    | answered changes =>
        obtain ⟨lock, state⟩ := changes
        by_cases none : state = 0
        · exact .inl (by simp [savedCheckpoint, none])
        · exact .inr ⟨rfl, by simp [savedCheckpoint, none]⟩
    | failed error => exact .inl (by simp [savedCheckpoint])
    | lost error => exact .inr ⟨rfl, by simp [savedCheckpoint]⟩
  · exact .inl (by simp [savedCheckpoint, same])

/-- A saved checkpoint. -/
theorem Follow.save (follow : Follow runtime streams past current store rows)
    {contract : ContractName} {checkpoint : Checkpoint} {owner now : String}
    {reply : Reply (Nat × Nat)}
    (isAt : ScanAt runtime options streams current
      ⟨.saveCheckpoint contract checkpoint owner now, reply⟩ scan rows health
      before inside) :
    Follow runtime streams past
      (current ++ [⟨.saveCheckpoint contract checkpoint owner now, reply⟩])
      (store.afterSave
        ⟨.saveCheckpoint contract checkpoint owner now, reply⟩) rows := by
  generalize isExchange : (⟨.saveCheckpoint contract checkpoint owner now,
    reply⟩ : Exchange indexerHost) = exchange at isAt ⊢
  have exchangeStep := isAt.step.1
  rw [← isExchange] at exchangeStep
  obtain ⟨rfl, _, above, bounded, covered⟩ := exchangeStep
  rw [← follow.row isAt] at above
  -- either a row is as it was, or it is the scanned one with the checkpoint
  have changes : ∀ other,
      (store.afterSave exchange).rows other = store.rows other ∨
        other = scan.contract ∧
          (store.afterSave exchange).rows other = checkpoint := by
    intro other
    rcases savedCheckpoint_save other scan.contract checkpoint owner now reply
      with kept | ⟨same, saved⟩
    · left
      simp [Store.afterSave, ← isExchange, kept]
    · right
      refine ⟨same, ?_⟩
      simp [Store.afterSave, ← isExchange, saved]
  have grows : ∀ other, (store.rows other).lastLedger ≤
      ((store.afterSave exchange).rows other).lastLedger := by
    intro other
    rcases changes other with kept | ⟨rfl, saved⟩
    · rw [kept]
    · rw [saved]
      exact above
  apply follow.snoc (fun _ => rfl) _ _ grows _ (fun _ has => has)
  · rw [← isExchange]
    intro write member
    cases member
  · rw [← isExchange]
    exact fun _ _ _ => id
  · intro clean other different
    rcases changes other with kept | ⟨rfl, _⟩
    · rw [kept]
      exact clean.counts other different
    · have count := clean.count_zero isAt different (by
        rw [← isExchange]
        exact id)
      rwa [rowAfter_snoc, ← follow.row isAt] at count
  · intro unlettered other event listed fresh reached
    rcases changes other with kept | ⟨rfl, saved⟩
    · rw [kept] at reached
      omega
    · rw [saved] at reached
      exact follow.indexed_of_covered unlettered isAt covered listed fresh
        reached
  · rintro answer rfl
    cases isExchange
  · rintro health rfl
    cases isExchange
  · intro other
    rcases changes other with kept | ⟨rfl, saved⟩
    · rw [kept]
      exact (follow.behind other).trans (grows .identity)
    · by_cases dependent : scan.contract = .identity
      · rw [dependent]
      · have bounds := follow.head_le isAt dependent
        have identity := grows .identity
        rw [saved]
        omega

/-- One exchange of a run. -/
theorem Follow.serve
    (follow : Follow runtime streams past current store rows)
    (grounded : Grounded streams)
    (step : IndexStep runtime options streams current exchange)
    (served : Serves streams store exchange after) :
    Follow runtime streams past (current ++ [exchange]) after rows := by
  rcases step with outside | ⟨scan, others, health, before, inside, isAt⟩
  · cases served with
    | now time =>
        exact follow.quiet (fun _ => rfl) (fun _ never => nomatch never)
          (fun _ never => nomatch never) rfl id
    | healthy health retains =>
        refine follow.quiet (fun _ => rfl) (fun _ never => nomatch never) ?_
          rfl id
        rintro other ⟨⟩
        exact retains
    | unhealthy error =>
        exact follow.quiet (fun _ => rfl) (fun _ never => nomatch never)
          (fun _ never => nomatch never) rfl id
    | read =>
        refine follow.quiet (fun _ => rfl) ?_ (fun _ never => nomatch never)
          rfl id
        -- nothing was saved before the rows are read
        obtain rfl : current = [] := outside
        have same : store.rows = rows := funext follow.tracked
        rintro answer ⟨⟩
        rw [same]
    | unread error =>
        exact follow.quiet (fun _ => rfl) (fun _ never => nomatch never)
          (fun _ never => nomatch never) rfl id
    | _ => exact absurd outside id
  · obtain rfl := follow.rows_eq isAt
    cases served with
    | batched ran =>
        apply follow.statement grounded isAt (.batched ran) rfl (fun _ => rfl)
        · exact fun parent has => has.executedAll ran
        · intro write member bound parent creates
          exact Tables.Has.insertedAll ran member bound creates
    | batchLost ran other =>
        apply follow.statement grounded isAt (.batchLost ran other) rfl
          (fun _ => rfl)
        · exact fun parent has => has.executedAll ran
        · intro write member
          cases member
    | batchFailed writes violates =>
        apply follow.statement grounded isAt (.batchFailed writes violates)
          rfl (fun _ => rfl) (fun _ has => has)
        intro write member
        cases member
    | ran isRan =>
        apply follow.statement grounded isAt (.ran isRan) rfl (fun _ => rfl)
        · exact fun parent has => has.executed isRan
        · intro write member bound parent creates
          cases List.mem_singleton.mp member
          exact Tables.Has.inserted bound isRan creates
    | runLost isRan other =>
        apply follow.statement grounded isAt (.runLost isRan other) rfl
          (fun _ => rfl)
        · exact fun parent has => has.executed isRan
        · intro write member
          cases member
    | runFailed write violates =>
        apply follow.statement grounded isAt (.runFailed write violates) rfl
          (fun _ => rfl) (fun _ has => has)
        intro write member
        cases member
    | saved contract checkpoint owner now reply => exact follow.save isAt
    | healthy health retains => exact absurd isAt.step.1 id
    | unhealthy error => exact absurd isAt.step.1 id
    | read => exact absurd isAt.step.1 id
    | unread error => exact absurd isAt.step.1 id
    | _ =>
        exact follow.quiet (fun _ => rfl) (fun _ never => nomatch never)
          (fun _ never => nomatch never) rfl id

end

/-! ## Runs -/

/-- What a run is called with, and the rounds its loops are given. -/
structure RunSettings where
  options : IndexOptions
  rounds : Nat

def RunSettings.program (runtime : Runtime) (run : RunSettings) :
    IndexerTask IndexResult :=
  indexContracts runtime run.rounds run.options

/-- Where the runs start: dependents at or below identity, nothing deferred,
and every earlier event indexed. -/
structure Aligned (streams : Streams) (store : Store) : Prop where
  behind : ∀ contract, (store.rows contract).lastLedger ≤
    (store.rows .identity).lastLedger
  counts : ∀ contract, contract ≠ .identity →
    (store.rows contract).deferAttempts = 0
  indexed : ∀ contract, IndexedTo store.tables contract (streams contract)
    (store.rows contract).lastLedger

section

variable {runtime : Runtime} {streams : Streams} {start store : Store}
  {past current : Trace} {run : RunSettings}

theorem Aligned.follow (runtime : Runtime) (aligned : Aligned streams start) :
    Follow runtime streams [] [] start start.rows where
  tracked _ := rfl
  read _ member := nomatch member
  healthy _ member := nomatch member
  grows _ := Nat.le_refl _
  behind := aligned.behind
  inserted _ member := nomatch member
  clean _ := ⟨fun _ member => (nomatch member), aligned.counts,
    aligned.counts, aligned.indexed⟩

theorem RunSettings.program_ensures
    (ordered : ∀ contract, ChainOrdered (streams contract))
    (run : RunSettings) :
    (run.program runtime).Ensures (fun _ => NodesAnswer streams)
      (IndexStep runtime run.options streams) [] fun _ _ => True :=
  indexContracts_ensures ordered (fun _ _ answered => answered) run.rounds

theorem follow_of_runs
    (ordered : ∀ contract, ChainOrdered (streams contract))
    (grounded : Grounded streams) (aligned : Aligned streams start)
    (runs : Successive (RunSettings.program runtime) (Serves streams) start
      past run current store) :
    ∃ rows, Follow runtime streams past current store rows := by
  apply runs.invariant
    (fun run : RunSettings => IndexStep runtime run.options streams)
    (RunSettings.program_ensures ordered) Serves.nodesAnswer
    (fun past current store =>
      ∃ rows, Follow runtime streams past current store rows)
  · exact ⟨start.rows, aligned.follow runtime⟩
  · rintro past current store ⟨rows, follow⟩
    exact ⟨store.rows, follow.next⟩
  · rintro past current store after run exchange ⟨rows, follow⟩ step served
    exact ⟨rows, follow.serve grounded step served⟩

/-- Over any sequence of runs, each stopped anywhere, the reputation and
validation checkpoints stay at or below identity's, and whatever the latest
run sends next of these contracts lies at or below identity's checkpoint.  As
long as nothing was dead-lettered or clamped away none of their statements has
failed on a constraint, and nothing was deferred. -/
theorem dependents_follow_identity
    (ordered : ∀ contract, ChainOrdered (streams contract))
    (grounded : Grounded streams) (aligned : Aligned streams start)
    (runs : Successive (RunSettings.program runtime) (Serves streams) start
      past run current store) :
    (∀ contract, (store.rows contract).lastLedger ≤
      (store.rows .identity).lastLedger) ∧
    (∀ exchange after,
      Yields (run.program runtime) (current ++ [exchange]) none →
      Serves streams store exchange after →
        ∀ write ∈ sentWrites exchange, write.packet.contract ≠ .identity →
          write.packet.ledger ≤ (store.rows .identity).lastLedger) ∧
    (Unlettered (past ++ current) → Unfailed (past ++ current) ∧
      ∀ contract, contract ≠ .identity →
        (store.rows contract).deferAttempts = 0) := by
  obtain ⟨rows, follow⟩ := follow_of_runs ordered grounded aligned runs
  refine ⟨follow.behind, ?_, fun unlettered => ?_⟩
  · intro exchange after asked served write member dependent
    have step := runs.permitted (run.program_ensures ordered)
      Serves.nodesAnswer asked served
    rcases step with outside | ⟨scan, others, health, before, inside, isAt⟩
    · obtain ⟨request, answer⟩ := exchange
      cases request with
      | batch writes => exact absurd outside id
      | run sent => exact absurd outside id
      | _ => cases member
    · obtain rfl := follow.rows_eq isAt
      obtain ⟨own, inHead, _⟩ := isAt.step.sent write member
      exact inHead.trans (follow.head_le isAt (own ▸ dependent)).1
  · have clean := follow.clean unlettered
    exact ⟨clean.unfailed, clean.counts⟩

end

/-! ## A sample run -/

/-- A host that never writes an event. -/
def idleHost (streams : Streams) (node : Node)
    (rows : ContractName → Checkpoint) :
    (request : Request) → request.Answer
  | .now => 0
  | .getHealth =>
      .ok { latestLedger := node.latest, oldestLedger := node.oldest }
  | .getEvents contract request =>
      match getEvents (streams contract) node request with
      | some page => .ok page
      | none =>
          .error (newError "startLedger must be within the ledger range")
  | .readCheckpoints => .ok fun contract => some (rows contract)
  | .batch _ => .failed (newError "D1_ERROR: Network connection lost")
  | .run _ => .failed (newError "D1_ERROR: Network connection lost")
  | .recordMissing rows => .answered (rows.map fun _ => 0)
  | .deadLetter _ => .answered ()
  | .saveCheckpoint _ _ _ _ => .answered (1, 1)
  | .wrote _ _ _ _ => ()

theorem idleHost_serves (streams : Streams) {node : Node}
    (sane : node.oldest ≤ node.latest + 1)
    (rows : ContractName → Checkpoint) (store : Store) (request : Request)
    (other : request ≠ .readCheckpoints) :
    Serves streams store ⟨request, idleHost streams node rows request⟩
      (store.afterSave ⟨request, idleHost streams node rows request⟩) := by
  have fault : constraintFailure
      (newError "D1_ERROR: Network connection lost") = none := by decide +kernel
  cases request with
  | now => exact .now 0
  | getHealth => exact .healthy _ sane
  | getEvents contract request =>
      cases found : getEvents (streams contract) node request with
      | some page =>
          simp only [idleHost, found]
          exact .paged contract found
      | none =>
          simp only [idleHost, found]
          exact .unpaged contract request _
  | readCheckpoints => exact absurd rfl other
  | batch writes => exact .batchFailed writes fun failed => absurd fault failed
  | run write => exact .runFailed write fun failed => absurd fault failed
  | recordMissing rows => exact .recorded rows _
  | deadLetter entry => exact .lettered entry _
  | saveCheckpoint contract checkpoint owner now =>
      exact .saved contract checkpoint owner now _
  | wrote contract events skip result =>
      exact .wrote contract events skip result

/-- A host with one RPC node and a database that runs what it is sent. -/
def sampleDatabase (streams : Streams) (node : Node) (store : Store) :
    (request : Request) → request.Answer × Store
  | .readCheckpoints =>
      (.ok fun contract => some (store.rows contract), store)
  | .batch writes =>
      match store.tables.execAll "" writes with
      | .ok (tables, counts) => (.answered counts, { store with tables })
      | .error _ => (.failed missingRow, store)
  | .run write =>
      match store.tables.exec "" write.statement with
      | .ok (tables, count) => (.answered count, { store with tables })
      | .error _ => (.failed missingRow, store)
  | request =>
      (idleHost streams node store.rows request,
        store.afterSave ⟨request, idleHost streams node store.rows request⟩)

theorem sampleDatabase_serves (streams : Streams) {node : Node}
    (sane : node.oldest ≤ node.latest + 1) (store : Store)
    (request : Request) :
    Serves streams store
      ⟨request, (sampleDatabase streams node store request).1⟩
      (sampleDatabase streams node store request).2 := by
  cases request with
  | readCheckpoints => exact .read
  | batch writes =>
      simp only [sampleDatabase]
      cases ran : store.tables.execAll "" writes with
      | ok result => exact .batched ran
      | error violation =>
          exact .batchFailed writes fun _ => ⟨"", violation, ran⟩
  | run write =>
      simp only [sampleDatabase]
      cases ran : store.tables.exec "" write.statement with
      | ok result => exact .ran ran
      | error violation =>
          exact .runFailed write fun _ => ⟨"", violation, ran⟩
  | _ =>
      exact idleHost_serves streams sane store.rows store _ (by rintro ⟨⟩)

def sampleClient : Address :=
  { kind := .account, payload := Vector.replicate 32 2 }

def sampleEvent (ledger : Nat) (id : String) (topic : List ScVal)
    (entries : List (String × ScVal)) : EventResponse :=
  { id, ledger, ledgerClosedAt := "2026-01-01T00:00:00Z", txHash := "ab"
    inSuccessfulContractCall := true, topic
    value := .map (entries.map fun entry => (.symbol entry.1, entry.2)) }

def sampleFeedback (ledger : Nat) (index : Int) : EventResponse :=
  sampleEvent ledger "feedback"
    [.symbol "new_feedback", .int .u32 0, .address sampleClient,
      .string ⟨#[116]⟩]
    [("feedback_index", .int .u64 index), ("value", .int .i128 5),
      ("value_decimals", .int .u32 0)]

def sampleRegistration : EventResponse :=
  sampleEvent 5 "registered"
    [.symbol "registered", .int .u32 0, .address sampleClient]
    [("agent_uri", .string ⟨#[]⟩)]

/-- An entry of an agent that nobody registered. -/
def sampleOrphan : EventResponse :=
  sampleEvent 15000 "orphan"
    [.symbol "metadata_set", .int .u32 7, .string ⟨#[107]⟩]
    [("value", .bytes ⟨#[118]⟩)]

def sampleResponse : EventResponse :=
  sampleEvent 7 "response"
    [.symbol "response_appended", .int .u32 0, .address sampleClient,
      .address sampleClient]
    [("feedback_index", .int .u64 1)]

/-- Two events of identity and three of reputation. -/
def fiveStreams (registration orphan given response later : EventResponse) :
    Streams
  | .identity => [registration, orphan]
  | .reputation => [given, response, later]
  | .validation => []

/-- A registration, feedback and a response to it, then more feedback where
identity has the orphan. -/
def groundedStreams : Streams :=
  fiveStreams sampleRegistration sampleOrphan (sampleFeedback 6 1)
    sampleResponse (sampleFeedback 15000 2)

/-- The event inserts the row, as read. -/
def createdBy (contract : ContractName) (event : EventResponse) :
    Option Parent :=
  match interpret contract event with
  | .parsed data => data.creates?
  | _ => none

def referredBy (contract : ContractName) (event : EventResponse) :
    Option Parent :=
  match interpret contract event with
  | .parsed data => data.parent?
  | _ => none

theorem creates_of_createdBy {contract : ContractName} {event : EventResponse}
    {parent : Parent} (created : createdBy contract event = some parent) :
    Creates contract parent event := by
  unfold createdBy at created
  unfold Creates
  split at created
  · rename_i data parsed
    rw [parsed]
    exact created
  · cases created

theorem referredBy_parsed {contract : ContractName} {event : EventResponse}
    {data : ParsedEvent} (parsed : interpret contract event = .parsed data) :
    referredBy contract event = data.parent? := by
  rw [referredBy, parsed]

def sampleKey : FeedbackKey :=
  { agentId := 0, clientAddress := StrKey.encode sampleClient
    feedbackIndex := 1 }

theorem grounded_fiveStreams {key : FeedbackKey}
    {registration orphan given response later : EventResponse}
    (registers : createdBy .identity registration = some (.agent 0))
    (gives : createdBy .reputation given = some (.feedback key))
    (first : registration.ledger ≤ given.ledger ∧
      registration.ledger ≤ later.ledger)
    (ofIdentity : ∀ event ∈ [registration, orphan], ∀ other,
      referredBy .identity event ≠ some (.feedback other))
    (ofGiven : referredBy .reputation given = some (.agent 0))
    (ofResponse : referredBy .reputation response = some (.feedback key))
    (ofLater : referredBy .reputation later = some (.agent 0)) :
    Grounded (fiveStreams registration orphan given response later) := by
  constructor
  · intro contract event data agent other member parsed isParent
    have referred := (referredBy_parsed parsed).trans isParent
    cases contract with
    | identity => exact absurd rfl other
    | reputation =>
        simp only [fiveStreams, List.mem_cons, List.not_mem_nil, or_false]
          at member
        rcases member with rfl | rfl | rfl
        · cases ofGiven.symm.trans referred
          exact ⟨registration, List.mem_cons_self, first.1,
            creates_of_createdBy registers⟩
        · cases ofResponse.symm.trans referred
        · cases ofLater.symm.trans referred
          exact ⟨registration, List.mem_cons_self, first.2,
            creates_of_createdBy registers⟩
    | validation => cases member
  · intro contract before event after data other isStream parsed isParent
    have referred := (referredBy_parsed parsed).trans isParent
    cases contract with
    | identity =>
        have member : event ∈ [registration, orphan] := by
          rw [show [registration, orphan] = before ++ event :: after
            from isStream]
          simp
        exact absurd referred (ofIdentity event member other)
    | reputation =>
        rcases before with _ | ⟨one, _ | ⟨two, _ | ⟨three, before⟩⟩⟩
        · obtain ⟨rfl, -⟩ := List.cons.inj isStream
          cases ofGiven.symm.trans referred
        · obtain ⟨rfl, isRest⟩ := List.cons.inj isStream
          obtain ⟨rfl, -⟩ := List.cons.inj isRest
          cases ofResponse.symm.trans referred
          exact ⟨given, List.mem_cons_self, creates_of_createdBy gives⟩
        · obtain ⟨-, isRest⟩ := List.cons.inj isStream
          obtain ⟨-, isLast⟩ := List.cons.inj isRest
          obtain ⟨rfl, -⟩ := List.cons.inj isLast
          cases ofLater.symm.trans referred
        · simp [fiveStreams] at isStream
    | validation => simp [fiveStreams] at isStream

theorem groundedStreams_read :
    createdBy .identity sampleRegistration = some (.agent 0) ∧
      createdBy .reputation (sampleFeedback 6 1) =
        some (.feedback sampleKey) ∧
      referredBy .identity sampleRegistration = none ∧
      referredBy .identity sampleOrphan = some (.agent 7) ∧
      referredBy .reputation (sampleFeedback 6 1) = some (.agent 0) ∧
      referredBy .reputation sampleResponse = some (.feedback sampleKey) ∧
      referredBy .reputation (sampleFeedback 15000 2) = some (.agent 0) := by
  decide +kernel

theorem groundedStreams_grounded : Grounded groundedStreams := by
  obtain ⟨registers, gives, ofFirst, ofOrphan, ofGiven, ofResponse, ofLater⟩ :=
    groundedStreams_read
  refine grounded_fiveStreams registers gives ?_ ?_ ofGiven ofResponse ofLater
  · simp [sampleRegistration, sampleFeedback, sampleEvent]
  · intro event member other
    rcases List.mem_pair.mp member with rfl | rfl
    · rw [ofFirst]
      nofun
    · rw [ofOrphan]
      nofun

def emptyStore : Store :=
  { tables := Tables.empty
    rows := fun _ => { lastLedger := 0, deferAttempts := 0 } }

def laggingRun : RunSettings :=
  { options := { deadlineMs := 1, owner := "run", allowRetentionClamp := false }
    rounds := 8 }

/-- What that run exchanges, and the store it leaves. -/
def lagging : Trace × Store :=
  (laggingRun.program sampleRuntime).servedBy
    (sampleDatabase groundedStreams ⟨20000, 1⟩) emptyStore

/-- What the run comes to.  Identity defers at an event of its second page. -/
theorem lagging_outcome :
    (lagging.1.all fun exchange =>
        !(exchange.request matches .deadLetter _)) = true ∧
      (lagging.2.rows .identity).deferAttempts = 1 ∧
      (lagging.2.rows .identity).lastLedger = 10000 ∧
      (lagging.2.rows .reputation).lastLedger = 10000 ∧
      (lagging.2.tables.feedback sampleKey).isSome = true ∧
      lagging.2.tables.feedbackResponses.length = 1 := by
  decide +kernel

/-- The statements of the feedback and of the response run behind identity. -/
theorem dependents_follow_identity_lagging :
    ∃ current store,
      Successive (RunSettings.program sampleRuntime) (Serves groundedStreams)
        emptyStore [] laggingRun current store ∧
      (store.rows .identity).deferAttempts = 1 ∧
      (store.rows .identity).lastLedger = 10000 ∧
      (store.rows .reputation).lastLedger = 10000 ∧
      (store.tables.feedback sampleKey).isSome = true ∧
      store.tables.feedbackResponses.length = 1 ∧
      (store.rows .reputation).lastLedger ≤
        (store.rows .identity).lastLedger ∧
      Unfailed current ∧ (store.rows .reputation).deferAttempts = 0 := by
  obtain ⟨unlettered, defers, identity, reputation, given, responded⟩ :=
    lagging_outcome
  have ordered : ∀ contract, ChainOrdered (groundedStreams contract) := by
    intro contract
    cases contract <;>
      simp [ChainOrdered, groundedStreams, fiveStreams, sampleRegistration,
        sampleOrphan, sampleResponse, sampleFeedback, sampleEvent]
  have aligned : Aligned groundedStreams emptyStore := by
    refine ⟨fun _ => Nat.le_refl _, fun _ _ => rfl, ?_⟩
    intro contract event member early
    have later : ∀ event ∈ groundedStreams contract, 0 < event.ledger := by
      cases contract <;>
        simp [groundedStreams, fiveStreams, sampleRegistration,
          sampleOrphan, sampleResponse, sampleFeedback, sampleEvent]
    exact absurd early (Nat.not_le.mpr (later event member))
  have sane : (Node.mk 20000 1).oldest ≤ (Node.mk 20000 1).latest + 1 := by
    decide
  have yields : Yields (laggingRun.program sampleRuntime) ([] ++ lagging.1)
      none := by
    rw [List.nil_append]
    exact yields_servedBy _ _ _
  have served : Served (Serves groundedStreams) emptyStore lagging.1
      lagging.2 :=
    served_servedBy (sampleDatabase_serves groundedStreams sane) _ _
  have runs := (Successive.first laggingRun).extend yields served
  rw [List.nil_append] at runs
  obtain ⟨behind, -, clean⟩ := dependents_follow_identity ordered
    groundedStreams_grounded aligned runs
  rw [List.nil_append] at clean
  obtain ⟨unfailed, counts⟩ := clean (by
    intro entry reply member
    cases List.all_eq_true.mp unlettered _ member)
  exact ⟨_, _, runs, defers, identity, reputation, given, responded,
    behind .reputation, unfailed, counts .reputation (by decide)⟩

end Stellar8004.Indexer
