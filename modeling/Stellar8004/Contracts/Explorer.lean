import Stellar8004.Contracts.Projections
import Stellar8004.Contracts.Replays
import Stellar8004.Indexer.CatchUp

/-!
# The indexer and the contracts

The nodes serve the events of a run of the three registries, and runs of the
indexer follow them, one after another, each stopped anywhere and answered by
any node.  Once a contract's checkpoint has passed its events, the tables are
the registry's view.
-/

namespace Stellar8004.Contracts

open Stellar8004.Indexer

/-- The events of each contract, as a node serves them. -/
def Chain.streams (log : List (ContractEvent × Stamp)) : Streams :=
  fun contract =>
    (log.filter fun entry => entry.1.contract = contract).map fun entry =>
      entry.1.publish.response entry.2

section

variable {chain : Chain} {log : List (ContractEvent × Stamp)}

/-- Every event of a legible run can be read. -/
theorem Run.interpretable
    (run : Run Chain.LegibleStep Chain.initial chain log) :
    ∀ entry ∈ log, ∀ reason,
      interpret entry.1.contract (entry.1.publish.response entry.2) ≠
        .invalid reason := by
  have recorded := (run.mono Chain.LegibleStep.step).recorded
  have readable : ∀ {contract : ContractName} {raw : EventResponse}
      {packet : EventPacket}, packetOf contract raw = some packet →
      ∀ reason, interpret contract raw ≠ .invalid reason := by
    intro contract raw packet read reason invalid
    rw [(packetOf_eq_some.mp read).1] at invalid
    cases invalid
  rintro ⟨event, stamp⟩ member
  cases event with
  | identity event =>
      have inside : (event, stamp) ∈ picked ContractEvent.identity? log :=
        List.mem_filterMap.mpr ⟨_, member, rfl⟩
      have legible := run.identity.legible _ inside
      cases parsed : event.parsed stamp with
      | some data =>
          apply readable
          exact (IdentityEvent.packetOf_legible legible stamp).trans
            (congrArg _ parsed)
      | none =>
          cases event with
          | mint «to» tokenId =>
              intro reason invalid
              rw [ContractEvent.contract, ContractEvent.publish,
                interpret_mint] at invalid
              cases invalid
          | metadataSet agentId key value =>
              simp only [IdentityEvent.parsed] at parsed
              split at parsed
              · split at parsed <;> cases parsed
              · cases parsed
          | _ => cases parsed
  | reputation event =>
      exact readable (ReputationEvent.packetOf_bounded
        (recorded.bounded _ member) stamp)
  | validation event =>
      exact readable (ValidationEvent.packetOf_bounded
        (recorded.bounded _ member) stamp)

theorem packet?_filter (contract : ContractName)
    (entry : ContractEvent × Stamp) :
    (packet? entry).filter (fun packet => packet.contract = contract) =
      if entry.1.contract = contract then
        packetOf contract (entry.1.publish.response entry.2)
      else none := by
  unfold packet?
  cases read : packetOf entry.1.contract
      (entry.1.publish.response entry.2) with
  | none =>
      split
      · rename_i same
        rw [← same, read]
        rfl
      · rfl
  | some packet =>
      have label := (packetOf_eq_some.mp read).2.2
      split
      · rename_i same
        rw [← same, read]
        simp [Option.filter, label]
      · rename_i different
        simp [Option.filter, label, different]

/-- The packets of one contract are the packets of its own events. -/
theorem packetsOf_picked {δ : Type} {pick : ContractEvent → Option δ}
    {contract : ContractName} {publish : δ → Emission}
    (own : ∀ event, event.contract = contract → ∃ part,
      pick event = some part ∧ publish part = event.publish)
    (other : ∀ event, event.contract ≠ contract → pick event = none)
    (log : List (ContractEvent × Stamp)) :
    packetsOf (fun _ => contract) publish (picked pick log) =
      (Chain.packets log).filter fun packet => packet.contract = contract := by
  unfold packetsOf picked Chain.packets
  rw [List.filterMap_filterMap, packetsOf, List.filter_filterMap]
  apply List.filterMap_congr
  intro entry _
  refine Eq.trans ?_ (packet?_filter contract entry).symm
  by_cases same : entry.1.contract = contract
  · obtain ⟨part, isPart, published⟩ := own entry.1 same
    rw [isPart, if_pos same]
    simp only [Option.map_some, Option.bind_some, published]
  · rw [other entry.1 same, if_neg same]
    rfl

/-- The nodes' streams feed the indexer with the chain's packets. -/
theorem Run.feeds (run : Run Chain.LegibleStep Chain.initial chain log) :
    Feeds (Chain.packets log) (Chain.streams log) where
  ordered contract := by
    unfold ChainOrdered Chain.streams
    rw [List.pairwise_map]
    exact run.ordered.filter _
  readable contract := by
    intro event member
    obtain ⟨entry, inside, rfl⟩ := List.mem_map.mp member
    obtain ⟨listed, same⟩ := List.mem_filter.mp inside
    rw [← of_decide_eq_true same]
    exact run.interpretable entry listed
  packets contract := by
    unfold Chain.streams Chain.packets packetsOf
    rw [List.filterMap_map, List.filterMap_filter, List.filter_filterMap]
    apply List.filterMap_congr
    intro entry _
    simp only [decide_eq_true_eq]
    exact (packet?_filter contract entry).symm

end

/-! ## Cells -/

section

variable {runtime : Runtime} {chain : Chain}
  {log : List (ContractEvent × Stamp)} {origin : Nat}
  {checkpoints : ContractName → Nat} {tables : Tables}

/-- A contract's checkpoint is past all its events. -/
def Passed (log : List (ContractEvent × Stamp)) (contract : ContractName)
    (ledger : Nat) : Prop :=
  ∀ entry ∈ log, entry.1.contract = contract → entry.2.ledger ≤ ledger

theorem Passed.packets {contract : ContractName} {ledger : Nat}
    (passed : Passed log contract ledger) :
    ∀ packet ∈ Chain.packets log, packet.contract = contract →
      packet.ledger ≤ ledger := by
  intro packet member label
  obtain ⟨entry, inside, read⟩ := mem_packets.mp member
  obtain ⟨_, _, isContract, isLedger⟩ := readFrom_of_packet? read
  rw [isLedger]
  exact passed entry inside (isContract.symm.trans label)

/-- Once a contract's checkpoint has passed its events, each of its cells
holds what the contract's own packets leave. -/
theorem read_own {κ σ : Type} [DecidableEq κ]
    (view : CellView runtime κ σ) (cell : κ)
    (indexed : Indexes runtime (Chain.packets log) origin checkpoints tables)
    (wellFormed : WellFormed runtime (Chain.packets log))
    (tracks : view.Tracks (Chain.packets log))
    (later : ∀ packet ∈ Chain.packets log, origin < packet.ledger)
    (passed : Passed log view.contract (checkpoints view.contract)) :
    view.read tables cell =
      (view.history ((Chain.packets log).filter fun packet =>
        packet.contract = view.contract) cell).foldl view.step
          (view.read Tables.empty cell) := by
  obtain ⟨answers, answering⟩ := wellFormed.exists_answers
  rw [view.history_contract _ cell wellFormed.contract]
  exact indexed.read_eq_of_passed view cell tracks wellFormed.contract
    answering later passed.packets

/-! ## The three registries -/

theorem refinesIdentity_of_indexes
    (run : Run Chain.LegibleStep Chain.initial chain log)
    (indexed : Indexes runtime (Chain.packets log) origin checkpoints tables)
    (later : ∀ packet ∈ Chain.packets log, origin < packet.ledger)
    (passed : Passed log .identity (checkpoints .identity))
    {shown : Tables} (same : tables.settled = shown.settled) :
    RefinesIdentity shown chain.identity := by
  have wellFormed := (run.mono Chain.LegibleStep.step).wellFormed runtime
  obtain ⟨answers, answering⟩ := wellFormed.exists_answers
  apply refinesIdentity_of_cells runtime run.identity
  · exact (indexed.consistent answering).metadataOwned.of_settled same
  · intro agent
    have own : identityPackets (picked ContractEvent.identity? log) =
        (Chain.packets log).filter fun packet =>
          packet.contract = .identity := by
      apply packetsOf_picked
      · intro event isContract
        cases event with
        | identity event => exact ⟨event, rfl, rfl⟩
        | _ => cases isContract
      · intro event other
        cases event with
        | identity event => exact absurd rfl other
        | _ => rfl
    rw [← Tables.agentCell_of_settled same, own]
    exact read_own (agentView runtime) agent indexed wellFormed
      wellFormed.agentView later passed

theorem refinesReputation_of_indexes
    (run : Run Chain.LegibleStep Chain.initial chain log)
    (small : ∀ agentId client,
      chain.reputation.lastIndex agentId client < 2 ^ 63)
    (indexed : Indexes runtime (Chain.packets log) origin checkpoints tables)
    (later : ∀ packet ∈ Chain.packets log, origin < packet.ledger)
    (passed : Passed log .reputation (checkpoints .reputation))
    {shown : Tables} (same : tables.settled = shown.settled) :
    RefinesReputation shown chain.reputation
      (picked ContractEvent.reputation? log) := by
  have wellFormed := (run.mono Chain.LegibleStep.step).wellFormed runtime
  apply refinesReputation_of_cells (run.reputation.follows runtime small) small
  intro key
  have own : reputationPackets (picked ContractEvent.reputation? log) =
      (Chain.packets log).filter fun packet =>
        packet.contract = .reputation := by
    apply packetsOf_picked
    · intro event isContract
      cases event with
      | reputation event => exact ⟨event, rfl, rfl⟩
      | _ => cases isContract
    · intro event other
      cases event with
      | reputation event => exact absurd rfl other
      | _ => rfl
  have read := read_own (feedbackView runtime) key indexed wellFormed
    wellFormed.feedbackView later passed
  rw [(feedbackView runtime).history_eq_filter _ _ (by
    intro event isRegistered
    cases event <;> first | rfl | cases isRegistered)] at read
  change tables.feedbackCell key = _ at read
  rw [← Tables.feedbackCell_of_settled same, read]
  change ((((Chain.packets log).filter fun packet =>
    packet.contract = .reputation).map EventPacket.data).filter _).foldl _ _ = _
  rw [← own, data_reputationPackets run.reputation.reputation_recorded.2]
  rfl

theorem refinesValidation_of_indexes
    (run : Run Chain.LegibleStep Chain.initial chain log)
    (indexed : Indexes runtime (Chain.packets log) origin checkpoints tables)
    (later : ∀ packet ∈ Chain.packets log, origin < packet.ledger)
    (passed : Passed log .validation (checkpoints .validation))
    {shown : Tables} (same : tables.settled = shown.settled) :
    RefinesValidation shown chain.validation := by
  have wellFormed := (run.mono Chain.LegibleStep.step).wellFormed runtime
  have own : validationPackets (picked ContractEvent.validation? log) =
      (Chain.packets log).filter fun packet =>
        packet.contract = .validation := by
    apply packetsOf_picked
    · intro event isContract
      cases event with
      | validation event => exact ⟨event, rfl, rfl⟩
      | _ => cases isContract
    · intro event other
      cases event with
      | validation event => exact absurd rfl other
      | _ => rfl
  have cells : ∀ text, shown.validations text =
      writtenValidation runtime (picked ContractEvent.validation? log)
        text := by
    intro text
    have read := read_own (requestView runtime) text indexed wellFormed
      wellFormed.requestView later passed
    rw [(requestView runtime).history_eq_filter _ _ (by
      intro event isRegistered
      cases event <;> first | rfl | cases isRegistered)] at read
    have rows : tables.validations = shown.validations :=
      (Tables.settled_eq same).2.2.2.2
    change tables.validations text = _ at read
    rw [← rows, read]
    change ((((Chain.packets log).filter fun packet =>
      packet.contract = .validation).map EventPacket.data).filter _).foldl _ _ =
        _
    rw [← own, data_validationPackets run.validation.validation_recorded.2]
    rfl
  exact refinesValidation_of_cells (run.validation.followsRequests runtime)
    cells

theorem packets_later (later : ∀ entry ∈ log, origin < entry.2.ledger) :
    ∀ packet ∈ Chain.packets log, origin < packet.ledger := by
  intro packet member
  obtain ⟨entry, inside, read⟩ := mem_packets.mp member
  rw [(readFrom_of_packet? read).2.2.2]
  exact later entry inside

/-- Of a contract whose checkpoint is past its events, the tables show what
the registry holds. -/
theorem Run.shown (run : Run Chain.LegibleStep Chain.initial chain log)
    (later : ∀ entry ∈ log, origin < entry.2.ledger)
    {past current : Trace} {store : Store} {rows : ContractName → Checkpoint}
    (attempting : Attempting runtime (Chain.packets log) origin past current
      store rows) :
    (Passed log .identity (store.rows .identity).lastLedger →
      RefinesIdentity store.tables chain.identity) ∧
    (Passed log .reputation (store.rows .reputation).lastLedger →
      (∀ agentId client,
        chain.reputation.lastIndex agentId client < 2 ^ 63) →
      RefinesReputation store.tables chain.reputation
        (picked ContractEvent.reputation? log)) ∧
    (Passed log .validation (store.rows .validation).lastLedger →
      RefinesValidation store.tables chain.validation) := by
  have beyond := packets_later later
  obtain ⟨settled, indexed, same⟩ := attempting.underway.settle
  refine ⟨?_, ?_, ?_⟩
  · intro passed
    exact refinesIdentity_of_indexes run indexed beyond passed same
  · intro passed small
    exact refinesReputation_of_indexes run small indexed beyond passed same
  · intro passed
    exact refinesValidation_of_indexes run indexed beyond passed same

/-- Over any sequence of runs against an empty database, each stopped anywhere
and answered by any nodes, no statement fails on a constraint, nothing is
dead-lettered and nothing is deferred.  Whenever the checkpoint of a contract
is past its events, the tables are that registry's view. -/
theorem explorer_refines_contracts (runtime : Runtime)
    (run : Run Chain.LegibleStep Chain.initial chain log)
    (later : ∀ entry ∈ log, origin < entry.2.ledger)
    {past current : Trace} {latest : UnclampedRun} {store : Store}
    (runs : Successive (UnclampedRun.program runtime)
      (Serves (Chain.streams log)) (genesis origin) past latest current
      store) :
    ¬ Failing (past ++ current) ∧ Unlettered (past ++ current) ∧
    (∀ contract, (store.rows contract).deferAttempts = 0) ∧
    (Passed log .identity (store.rows .identity).lastLedger →
      RefinesIdentity store.tables chain.identity) ∧
    (Passed log .reputation (store.rows .reputation).lastLedger →
      (∀ agentId client,
        chain.reputation.lastIndex agentId client < 2 ^ 63) →
      RefinesReputation store.tables chain.reputation
        (picked ContractEvent.reputation? log)) ∧
    (Passed log .validation (store.rows .validation).lastLedger →
      RefinesValidation store.tables chain.validation) := by
  have wellFormed := (run.mono Chain.LegibleStep.step).wellFormed runtime
  obtain ⟨rows, attempting⟩ :=
    attempting_of_runs run.feeds wellFormed (packets_later later) runs
  exact ⟨attempting.unfailing, attempting.unlettered, attempting.undeferred,
    run.shown later attempting⟩

end

/-! ## A sample run -/

/-- A host that runs a batch on the tables it starts with. -/
def writingHost (streams : Streams) (node : Node) (store : Store) :
    (request : Request) → request.Answer
  | .batch writes =>
      match store.tables.execAll "" writes with
      | .ok (_, counts) => .answered counts
      | .error _ => .failed (newError "D1_ERROR: Network connection lost")
  | request => idleHost streams node store.rows request

def isBatch : Request → Bool
  | .batch _ => true
  | _ => false

/-- Neither the first request of a run nor a single statement nor a dead
letter. -/
def isBatchOrIdle : Request → Bool
  | .readCheckpoints => false
  | .run _ => false
  | .deadLetter _ => false
  | _ => true

/-- The state after an exchange with that host. -/
def afterWrite (store : Store) (exchange : Exchange indexerHost) : Store :=
  match exchange.request with
  | .batch writes =>
      { store with
        tables := match store.tables.execAll "" writes with
          | .ok (tables, _) => tables
          | .error _ => store.tables }
  | _ => store.afterSave exchange

theorem writingHost_batch (streams : Streams) (node : Node)
    {start store : Store} (same : store.tables = start.tables)
    (writes : List EventWrite) :
    Serves streams store
      ⟨.batch writes, writingHost streams node start (.batch writes)⟩
      (afterWrite store
        ⟨.batch writes, writingHost streams node start (.batch writes)⟩) := by
  have fault : constraintFailure
      (newError "D1_ERROR: Network connection lost") = none := by decide +kernel
  simp only [afterWrite, writingHost, ← same]
  cases ran : store.tables.execAll "" writes with
  | ok result => exact .batched ran
  | error violation =>
      exact .batchFailed writes fun failed => absurd fault failed

/-- A trace with one batch at most is served. -/
theorem writingHost_served {streams : Streams} {node : Node}
    (sane : node.oldest ≤ node.latest + 1) {start store : Store}
    (trace : Trace)
    (answers : ∀ exchange ∈ trace, exchange =
      ⟨exchange.request, writingHost streams node start exchange.request⟩)
    (allowed : (trace.all fun exchange => isBatchOrIdle exchange.request) =
      true)
    (once : (trace.countP fun exchange => isBatch exchange.request) ≤ 1)
    (same : store.tables = start.tables ∨
      (trace.countP fun exchange => isBatch exchange.request) = 0) :
    Served (Serves streams) store trace (trace.foldl afterWrite store) := by
  induction trace generalizing store with
  | nil => exact .nil store
  | cons exchange trace induction =>
      have whole := answers exchange List.mem_cons_self
      obtain ⟨request, answer⟩ := exchange
      obtain rfl : answer = writingHost streams node start request :=
        eq_of_heq (Exchange.mk.inj whole).2
      simp only [List.all_cons, Bool.and_eq_true] at allowed
      have rest := fun other member =>
        answers other (List.mem_cons_of_mem _ member)
      have idle : ∀ permitted : isBatch request = false,
          Serves streams store
            ⟨request, writingHost streams node start request⟩
            (afterWrite store
              ⟨request, writingHost streams node start request⟩) := by
        intro permitted
        have served := idleHost_serves streams sane start.rows store request
          (by
            rintro rfl
            cases allowed.1)
        cases request with
        | batch writes => cases permitted
        | _ => exact served
      cases isKind : isBatch request with
      | false =>
          rw [List.countP_cons_of_neg (by simp [isKind])] at once same
          refine .cons (idle isKind) (induction rest allowed.2 once ?_)
          refine same.imp (fun equal => ?_) id
          cases request with
          | batch writes => cases isKind
          | _ => exact equal
      | true =>
          rw [List.countP_cons_of_pos (by simp [isKind])] at once same
          have none : (trace.countP fun exchange =>
            isBatch exchange.request) = 0 := by omega
          cases request with
          | batch writes =>
              refine .cons (writingHost_batch streams node
                (same.resolve_right (by omega)) writes) ?_
              exact induction rest allowed.2 (by omega) (.inr none)
          | _ => cases isKind

def transferRun : UnclampedRun :=
  ⟨{ options := { deadlineMs := 1, owner := "run", allowRetentionClamp := false }
     rounds := 24 }, rfl⟩

def transferTrace : Trace :=
  ((transferRun.program sampleRuntime).answeredBy
    (writingHost (Chain.streams transferLog) ⟨10, 1⟩ (genesis 6))).1

theorem transferTrace_eq : transferTrace = ⟨.readCheckpoints, .ok fun contract =>
    some ((genesis 6).rows contract)⟩ :: transferTrace.tail := rfl

theorem transferRun_served :
    Successive (UnclampedRun.program sampleRuntime)
      (Serves (Chain.streams transferLog)) (genesis 6) [] transferRun
      transferTrace (transferTrace.tail.foldl afterWrite (genesis 6)) := by
  have yields := Program.yields_answeredBy
    (writingHost (Chain.streams transferLog) ⟨10, 1⟩ (genesis 6))
    (transferRun.program sampleRuntime)
  rw [← List.append_nil (Program.answeredBy _ _).1] at yields
  have chain : Served (Serves (Chain.streams transferLog)) (genesis 6)
      (⟨.readCheckpoints, .ok fun contract =>
        some ((genesis 6).rows contract)⟩ :: transferTrace.tail)
      (transferTrace.tail.foldl afterWrite (genesis 6)) := by
    apply Served.cons .read
    apply writingHost_served (show (Node.mk 10 1).oldest ≤ _ by decide)
    · intro exchange member
      exact Program.mem_answeredBy (List.mem_of_mem_tail member)
    · decide +kernel
    · decide +kernel
    · exact .inl rfl
  rw [← transferTrace_eq] at chain
  exact (Successive.first transferRun).extend yields.of_append chain

theorem transferLog_legible : ∃ chain : Chain,
    chain.identity.findOwner 0 = some secondOwner ∧
      chain.identity.nextTokenId = 1 ∧ chain.reputation = .initial ∧
      Run Chain.LegibleStep Chain.initial chain transferLog := by
  have registered : Run Chain.LegibleStep Chain.initial _
      (transferLog.take 3) :=
    .call .start 7 ((transferLog.take 3).map Prod.fst)
      ((transferLog.take 3).map Prod.snd)
      ⟨noApprovals, .identity (.register firstOwner),
        by simp [ContractCall.Legible, IdentityCall.texts], rfl⟩ rfl
      ⟨by decide, by decide, by decide, by decide, by decide⟩
  exact ⟨_, rfl, rfl, rfl, .call registered 8 ((transferLog.drop 3).map Prod.fst)
    ((transferLog.drop 3).map Prod.snd)
    ⟨noApprovals, .identity (.transfer firstOwner secondOwner 0),
      by simp [ContractCall.Legible, IdentityCall.texts], rfl⟩ rfl
    ⟨by decide, by decide, by decide, by decide, by decide⟩⟩

/-- One run indexes the registration and the transfer. -/
theorem explorer_refines_contracts_transferLog :
    ∃ (chain : Chain) (current : Trace) (store : Store),
      chain.identity.findOwner 0 = some secondOwner ∧
      Successive (UnclampedRun.program sampleRuntime)
        (Serves (Chain.streams transferLog)) (genesis 6) [] transferRun
        current store ∧
      (store.rows .identity).lastLedger = 10 ∧
      RefinesIdentity store.tables chain.identity := by
  obtain ⟨chain, owner, -, -, run⟩ := transferLog_legible
  have refines := explorer_refines_contracts sampleRuntime run
    (show ∀ entry ∈ transferLog, 6 < entry.2.ledger by decide)
    transferRun_served
  have reached : ((transferTrace.tail.foldl afterWrite (genesis 6)).rows
    .identity).lastLedger = 10 := by decide +kernel
  refine ⟨chain, _, _, owner, transferRun_served, reached,
    refines.2.2.2.1 ?_⟩
  rw [reached]
  intro entry member _
  exact Nat.le_trans (show entry.2.ledger ≤ 8 by
    revert entry
    decide) (by decide)

/-! ## Catching up -/

section

variable {chain : Chain} {log : List (ContractEvent × Stamp)} {origin : Nat}

/-- The statement of every event of a legible run can be bound. -/
theorem Run.bindable (run : Run Chain.LegibleStep Chain.initial chain log)
    (runtime : Runtime) : Bindable runtime (Chain.streams log) := by
  have wellFormed := (run.mono Chain.LegibleStep.step).wellFormed runtime
  intro contract packet member
  rw [run.feeds.packets contract] at member
  have timed := wellFormed.timed packet (List.mem_of_mem_filter member)
  rintro ⟨now, message, failed⟩
  obtain ⟨statement, bound⟩ := eventStatement_ok now timed
  rw [bound] at failed
  cases failed

end

/-- The exchange was answered before the deadline of `transferRun`, by a node
at ledger ten. -/
def answeredInTime : Exchange indexerHost → Bool
  | ⟨.now, time⟩ => time = 0
  | ⟨.getHealth, .ok health⟩ =>
      health.latestLedger = 10 ∧ health.oldestLedger = 1
  | ⟨.getEvents _ _, .ok page⟩ => 10 ≤ page.latestLedger
  | ⟨.batch _, .answered _⟩ => true
  | ⟨.saveCheckpoint _ _ _ _, .answered (lock, state)⟩ =>
      lock ≠ 0 ∧ state ≠ 0
  | ⟨.recordMissing _, _⟩ => true
  | ⟨.wrote _ _ _ _, _⟩ => true
  | _ => false

theorem undisturbed_of_answeredInTime {exchange : Exchange indexerHost}
    (answered : answeredInTime exchange = true) :
    Undisturbed sampleRuntime 1 { latestLedger := 10, oldestLedger := 1 }
      exchange := by
  obtain ⟨request, answer⟩ := exchange
  cases request with
  | now =>
      obtain rfl : answer = 0 := of_decide_eq_true answered
      exact ⟨Nat.one_pos, _, rfl⟩
  | getHealth =>
      cases answer with
      | error error => cases answered
      | ok health =>
          obtain ⟨latest, oldest⟩ := of_decide_eq_true answered
          obtain ⟨_, _⟩ := health
          cases latest
          cases oldest
          rfl
  | getEvents contract request =>
      cases answer with
      | error error => cases answered
      | ok page => exact ⟨page, rfl, of_decide_eq_true answered⟩
  | readCheckpoints => cases answered
  | batch writes =>
      cases answer with
      | answered counts =>
          rintro ⟨error, never, _⟩
          cases never
      | _ => cases answered
  | run write => cases answered
  | saveCheckpoint contract checkpoint owner now =>
      cases answer with
      | answered changes =>
          obtain ⟨lock, state⟩ := of_decide_eq_true answered
          intro faulty
          rcases faulty changes.1 changes.2 rfl with never | never
          · exact lock never
          · exact state never
      | _ => cases answered
  | _ => exact id

theorem transferTrace_undisturbed : ∀ exchange ∈ transferTrace,
    Undisturbed sampleRuntime 1 { latestLedger := 10, oldestLedger := 1 }
      exchange := by
  have inTime : transferTrace.tail.all answeredInTime = true := by
    decide +kernel
  rw [transferTrace_eq]
  intro exchange member
  rcases List.mem_cons.mp member with rfl | inside
  · refine ⟨(genesis 6).rows, rfl, ?_⟩
    intro contract
    exact Nat.le_add_left _ _
  · exact undisturbed_of_answeredInTime (List.all_eq_true.mp inTime _ inside)

end Stellar8004.Contracts
