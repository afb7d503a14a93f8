import Stellar8004.Indexer.Histories
import Stellar8004.Indexer.Supply

/-!
# Crash and retry

Attempts at indexing a chain of packets.  Each attempt reads one contract from
its saved checkpoint in batches of complete ledgers, writes some batches and a
beginning of the next, and may save a checkpoint it has passed.  Every cell is
a checkpointed consumer of its own history, so the attempts converge to the
tables of one uninterrupted pass.
-/

namespace Stellar8004.Indexer

/-- The packets of a contract in the ledgers after `low` up to `high`. -/
def between (chain : List EventPacket) (contract : ContractName)
    (low high : Nat) : List EventPacket :=
  chain.filter fun packet =>
    packet.contract = contract && (low < packet.ledger && packet.ledger ≤ high)

/-- Checkpoints and tables after some attempts.  In each attempt `finished`
batches are written whole and the `next` one up to `cut` statements; what
stops it (a thrown error, a deferral, a lost lock) does not matter.  The
checkpoint it saves lies before everything not written whole, and the
dependents of the identity contract are read up to its checkpoint only. -/
inductive Indexes (runtime : Runtime) (chain : List EventPacket)
    (origin : Nat) : (ContractName → Nat) → Tables → Prop where
  | start : Indexes runtime chain origin (fun _ => origin) Tables.empty
  | attempt {checkpoints : ContractName → Nat} {tables after : Tables}
      (prior : Indexes runtime chain origin checkpoints tables)
      (contract : ContractName) (head saved cut : Nat)
      (finished unread : List Batch) (next : Batch)
      (identityFirst : contract ≠ .identity →
        head ≤ checkpoints .identity)
      (read : ((finished ++ next :: unread).map Batch.packets).flatten =
        between chain contract (checkpoints contract) head)
      (complete : ((finished ++ next :: unread).map Batch.packets).Pairwise
        fun early late => ∀ first ∈ early, ∀ second ∈ late,
          first.ledger < second.ledger)
      (written : writeAll runtime
        (finished.flatMap Batch.ordered ++ next.ordered.take cut) tables =
          .ok after)
      (forward : checkpoints contract ≤ saved) (scanned : saved ≤ head)
      (passed : ∀ batch ∈ next :: unread, ∀ packet ∈ batch.packets,
        saved < packet.ledger) :
      Indexes runtime chain origin
        (Function.update checkpoints contract saved) after

section

variable {runtime : Runtime} {chain : List EventPacket} {origin : Nat}
  {checkpoints : ContractName → Nat} {tables after : Tables}

theorem writtenEvents_ordered (batch : Batch) :
    writtenEvents batch.ordered =
      (parentsFirst batch.packets).map EventPacket.data := by
  simp [writtenEvents, Batch.ordered, Function.comp_def]

theorem writtenEvents_flatMap (batches : List Batch) :
    writtenEvents (batches.flatMap Batch.ordered) =
      batches.flatMap fun batch =>
        (parentsFirst batch.packets).map EventPacket.data := by
  induction batches with
  | nil => rfl
  | cons batch batches induction =>
      rw [List.flatMap_cons, writtenEvents_append, List.flatMap_cons,
        writtenEvents_ordered, induction]

/-- Everything an attempt writes it has read from the chain. -/
theorem written_mem {contract : ContractName} {low head cut : Nat}
    {finished unread : List Batch} {next : Batch}
    (read : ((finished ++ next :: unread).map Batch.packets).flatten =
      between chain contract low head)
    {event : ParsedEvent}
    (member : event ∈ writtenEvents
      (finished.flatMap Batch.ordered ++ next.ordered.take cut)) :
    ∃ packet ∈ between chain contract low head, packet.data = event := by
  obtain ⟨write, inside, rfl⟩ := List.mem_map.mp member
  have ordered : ∃ batch ∈ finished ++ next :: unread,
      write ∈ batch.ordered := by
    rcases List.mem_append.mp inside with whole | torn
    · obtain ⟨batch, isFinished, holds⟩ := List.mem_flatMap.mp whole
      exact ⟨batch, List.mem_append_left _ isFinished, holds⟩
    · exact ⟨next, List.mem_append_right _ List.mem_cons_self,
        List.mem_of_mem_take torn⟩
  obtain ⟨batch, isBatch, holds⟩ := ordered
  obtain ⟨packet, isPacket, rfl⟩ := List.mem_map.mp holds
  refine ⟨packet, ?_, rfl⟩
  rw [← read]
  apply List.mem_flatten.mpr
  refine ⟨batch.packets, List.mem_map_of_mem isBatch, ?_⟩
  rcases List.mem_append.mp isPacket with left | right
  · exact (List.mem_filter.mp left).1
  · exact (List.mem_filter.mp right).1

theorem between_subset {contract : ContractName} {low head : Nat} :
    between chain contract low head ⊆ chain :=
  List.filter_subset_self _

theorem Indexes.consistent {answers : String → FeedbackKey}
    (indexed : Indexes runtime chain origin checkpoints tables)
    (answering : ∀ packet ∈ chain, packet.data.Answers answers) :
    tables.Consistent answers := by
  induction indexed with
  | start => exact Tables.Consistent.empty
  | attempt prior contract head saved cut finished unread next identityFirst
      read complete written forward scanned passed induction =>
      refine writeAll_consistent written induction ?_
      intro event member
      obtain ⟨packet, inside, rfl⟩ := written_mem read member
      exact answering packet (between_subset inside)

/-! ## Each cell is a consumer of its history -/

section

variable {κ σ : Type} [DecidableEq κ] (view : CellView runtime κ σ)
  (cell : κ)

/-- The position in a cell's history a checkpoint stands for. -/
def CellView.position (chain : List EventPacket) (checkpoint : Nat) : Nat :=
  Replay.position (fun event : ParsedEvent => event.base.ledger)
    (view.history chain cell) checkpoint

/-- The ledgers after `low` up to `head` are a segment of each history. -/
theorem CellView.history_between (tracks : view.Tracks chain)
    (labelled : ∀ packet ∈ chain, packet.data.contract = packet.contract)
    {low head : Nat} (forward : low ≤ head) :
    view.history (between chain view.contract low head) cell =
      Replay.segment (view.history chain cell)
        (view.position cell chain low) (view.position cell chain head) := by
  have split : between chain view.contract low head =
      (chain.filter fun packet =>
        (fun ledger => decide (low < ledger) && decide (ledger ≤ head))
          packet.ledger).filter
        (fun packet => packet.contract = view.contract) := by
    rw [List.filter_filter]
    rfl
  rw [split, view.history_contract _ cell (fun packet member =>
      labelled packet (List.mem_filter.mp member).1),
    view.history_filter chain cell
      (fun ledger => decide (low < ledger) && decide (ledger ≤ head))]
  exact (Replay.segment_position forward (tracks.ordered cell)).symm

/-- The events of a cell an attempt writes are a segment of its history that
starts at the checkpoint and reaches past the one it saves. -/
theorem CellView.written_segment (tracks : view.Tracks chain)
    (labelled : ∀ packet ∈ chain, packet.data.contract = packet.contract)
    (cut : Nat) {low head saved : Nat} {finished unread : List Batch}
    {next : Batch}
    (read : ((finished ++ next :: unread).map Batch.packets).flatten =
      between chain view.contract low head)
    (complete : ((finished ++ next :: unread).map Batch.packets).Pairwise
      fun early late => ∀ first ∈ early, ∀ second ∈ late,
        first.ledger < second.ledger)
    (forward : low ≤ saved) (scanned : saved ≤ head)
    (passed : ∀ batch ∈ next :: unread, ∀ packet ∈ batch.packets,
      saved < packet.ledger) :
    ∃ finish, view.position cell chain saved ≤ finish ∧
      (writtenEvents
        (finished.flatMap Batch.ordered ++ next.ordered.take cut)).filter
          (fun event => view.key event = some cell) =
        Replay.segment (view.history chain cell)
          (view.position cell chain low) finish := by
  set whole := finished.flatMap fun batch => view.history batch.packets cell
    with isWhole
  set torn := (writtenEvents (next.ordered.take cut)).filter
    (fun event => view.key event = some cell) with isTorn
  have events : (writtenEvents
      (finished.flatMap Batch.ordered ++ next.ordered.take cut)).filter
        (fun event => view.key event = some cell) = whole ++ torn := by
    rw [writtenEvents_append, List.filter_append]
    congr 1
    rw [writtenEvents_flatMap, List.filter_flatMap]
    rfl
  have tornPrefix : torn <+: view.history next.packets cell := by
    have taken : writtenEvents (next.ordered.take cut) <+:
        (parentsFirst next.packets).map EventPacket.data := by
      rw [← writtenEvents_ordered]
      exact (List.take_prefix _ _).map _
    exact taken.filter _
  have segment : whole ++ view.history next.packets cell ++
      unread.flatMap (fun batch => view.history batch.packets cell) =
        Replay.segment (view.history chain cell)
          (view.position cell chain low) (view.position cell chain head) := by
    rw [← view.history_between cell tracks labelled (forward.trans scanned),
      ← read, view.history_flatten _ cell complete]
    · simp [isWhole, List.flatMap_map]
    · rw [read]
      exact (tracks.earliest cell).subset view between_subset
  obtain ⟨rest, restEq⟩ := tornPrefix
  have start : whole ++ torn <+: Replay.segment (view.history chain cell)
      (view.position cell chain low) (view.position cell chain head) := by
    rw [← segment, ← restEq]
    simp only [List.append_assoc, List.prefix_append_right_inj]
    exact List.prefix_append _ _
  refine ⟨view.position cell chain low + (whole ++ torn).length, ?_, ?_⟩
  · have later : ∀ event ∈ view.history next.packets cell ++
        unread.flatMap (fun batch => view.history batch.packets cell),
        saved < event.base.ledger := by
      intro event member
      have source : ∃ batch ∈ next :: unread,
          event ∈ view.history batch.packets cell := by
        rcases List.mem_append.mp member with first | others
        · exact ⟨next, List.mem_cons_self, first⟩
        · obtain ⟨batch, isUnread, holds⟩ := List.mem_flatMap.mp others
          exact ⟨batch, List.mem_cons_of_mem _ isUnread, holds⟩
      obtain ⟨batch, isBatch, holds⟩ := source
      obtain ⟨packet, inside, rfl, _⟩ := view.mem_history.mp holds
      exact passed batch isBatch packet inside
    have reached := Replay.position_le_of_front forward scanned
      (tracks.ordered cell) ((segment.symm).trans (List.append_assoc _ _ _))
      later
    rw [List.length_append]
    exact reached.trans (by
      unfold CellView.position
      omega)
  · rw [events]
    exact Replay.eq_segment_of_prefix start

/-- After any attempts, each cell is in a state its own checkpointed consumer
can be in. -/
theorem Indexes.reached {answers : String → FeedbackKey}
    (indexed : Indexes runtime chain origin checkpoints tables)
    (tracks : view.Tracks chain)
    (labelled : ∀ packet ∈ chain, packet.data.contract = packet.contract)
    (answering : ∀ packet ∈ chain, packet.data.Answers answers)
    (later : ∀ packet ∈ chain, origin < packet.ledger) :
    ∃ furthest, Replay.Reached view.step (view.history chain cell)
      (view.read Tables.empty cell)
      (view.position cell chain (checkpoints view.contract)) furthest
      (view.read tables cell) := by
  induction indexed with
  | start =>
      have origin : view.position cell chain origin = 0 := by
        apply List.countP_eq_zero.mpr
        intro event member
        obtain ⟨packet, inside, rfl, _⟩ := view.mem_history.mp member
        have after := later packet inside
        simpa [EventPacket.ledger] using after
      rw [origin]
      exact ⟨0, .start⟩
  | @attempt checkpoints tables after prior contract head saved cut finished
      unread next identityFirst read complete written forward scanned passed
      induction =>
      obtain ⟨furthest, reached⟩ := induction
      have answered : ∀ event ∈ writtenEvents
          (finished.flatMap Batch.ordered ++ next.ordered.take cut),
          event.Answers answers := by
        intro event member
        obtain ⟨packet, inside, rfl⟩ := written_mem read member
        exact answering packet (between_subset inside)
      have result := view.reads written (prior.consistent answering) answered
        cell
      by_cases same : contract = view.contract
      · subst same
        obtain ⟨finish, past, segment⟩ := view.written_segment cell tracks
          labelled cut read complete forward scanned passed
        rw [segment] at result
        rw [Function.update_self, result]
        exact ⟨max furthest finish, reached.attempt finish _
          (Replay.position_mono forward) past⟩
      · have untouched : (writtenEvents
            (finished.flatMap Batch.ordered ++ next.ordered.take cut)).filter
              (fun event => view.key event = some cell) = [] := by
          apply List.filter_eq_nil_iff.mpr
          intro event member about
          obtain ⟨packet, inside, rfl⟩ := written_mem read member
          have isContract := (List.mem_filter.mp inside).2
          simp only [Bool.and_eq_true, decide_eq_true_eq] at isContract about
          exact same (isContract.1.symm.trans
            ((labelled packet (between_subset inside)).symm.trans
              (view.keyed _ _ about)))
        rw [untouched, List.foldl_nil] at result
        rw [Function.update_of_ne (Ne.symm same), result]
        exact ⟨furthest, reached⟩

/-- Once the checkpoint of its contract has passed that contract's packets, a
cell holds what its history leaves. -/
theorem Indexes.read_eq_of_passed {answers : String → FeedbackKey}
    (indexed : Indexes runtime chain origin checkpoints tables)
    (tracks : view.Tracks chain)
    (labelled : ∀ packet ∈ chain, packet.data.contract = packet.contract)
    (answering : ∀ packet ∈ chain, packet.data.Answers answers)
    (later : ∀ packet ∈ chain, origin < packet.ledger)
    (done : ∀ packet ∈ chain, packet.contract = view.contract →
      packet.ledger ≤ checkpoints view.contract) :
    view.read tables cell =
      (view.history chain cell).foldl view.step
        (view.read Tables.empty cell) := by
  obtain ⟨furthest, reached⟩ :=
    indexed.reached view cell tracks labelled answering later
  refine reached.converges view.births (tracks.begins cell)
    (view.settled _ (tracks.ordered cell)) (Nat.le_of_eq ?_)
  symm
  apply List.countP_eq_length.mpr
  intro event member
  obtain ⟨packet, inside, rfl, about⟩ := view.mem_history.mp member
  exact decide_eq_true (done packet inside
    ((labelled packet inside).symm.trans (view.keyed _ _ about)))

/-- Once the checkpoints have passed the chain, every cell holds what its
history leaves. -/
theorem Indexes.read_eq {answers : String → FeedbackKey}
    (indexed : Indexes runtime chain origin checkpoints tables)
    (tracks : view.Tracks chain)
    (labelled : ∀ packet ∈ chain, packet.data.contract = packet.contract)
    (answering : ∀ packet ∈ chain, packet.data.Answers answers)
    (later : ∀ packet ∈ chain, origin < packet.ledger)
    (done : ∀ packet ∈ chain, packet.ledger ≤ checkpoints packet.contract) :
    view.read tables cell =
      (view.history chain cell).foldl view.step
        (view.read Tables.empty cell) := by
  apply indexed.read_eq_of_passed view cell tracks labelled answering later
  intro packet member same
  rw [← same]
  exact done packet member

end

/-! ## Parents of an attempt -/

theorem ParsedEvent.creates?_feedback {event : ParsedEvent}
    {key : FeedbackKey} (isNew : event.isNewFeedback = true)
    (about : event.feedback? = some key) :
    event.creates? = some (.feedback key) ∧ event.isRegistered = false ∧
      event.contract = .reputation := by
  cases event with
  | newFeedback e =>
      cases about
      exact ⟨rfl, rfl, rfl⟩
  | _ => cases isNew

theorem ParsedEvent.parent?_feedback {event : ParsedEvent}
    {key : FeedbackKey} (isParent : event.parent? = some (.feedback key)) :
    event.feedback? = some key ∧ event.isNewFeedback = false ∧
      event.contract = .reputation := by
  cases event with
  | responseAppended e =>
      cases isParent
      exact ⟨rfl, rfl, rfl⟩
  | _ => cases isParent

theorem ParsedEvent.creates?_agent_contract {event : ParsedEvent}
    {agent : Nat} (creates : event.creates? = some (.agent agent)) :
    event.contract = .identity := by
  cases event with
  | registered e => rfl
  | _ => cases creates

/-- What an attempt reads finds its parents: in the tables where they were
indexed before, else among what it reads. -/
theorem WellFormed.parented (wellFormed : WellFormed runtime chain)
    {has : Parent → Prop} {contract : ContractName} {low head : Nat}
    (indexed : ∀ creator ∈ chain, creator.contract = contract →
      creator.ledger ≤ low → ∀ parent,
        creator.data.creates? = some parent → has parent)
    (agents : contract ≠ .identity → ∀ creator ∈ chain,
      creator.ledger ≤ head → ∀ agent,
        creator.data.creates? = some (.agent agent) → has (.agent agent)) :
    Parented has (between chain contract low head) := by
  intro before packet after split parent isParent
  obtain ⟨front, back, whole, isFirst, isRest⟩ :=
    List.filter_eq_append_iff.mp split
  obtain ⟨skipped, remaining, isBack, outside, chosen, _⟩ :=
    List.filter_eq_cons_iff.mp isRest
  have position : chain = (front ++ skipped) ++ packet :: remaining := by
    rw [whole, isBack, List.append_assoc]
  have member : packet ∈ chain := by
    rw [position]
    exact List.mem_append_right _ List.mem_cons_self
  simp only [Bool.and_eq_true, decide_eq_true_eq] at chosen
  obtain ⟨isContract, above, below⟩ := chosen
  cases parent with
  | agent agent =>
      obtain ⟨creator, inside, creates, early⟩ :=
        wellFormed.registered packet member agent (.inr isParent)
      have label : creator.contract = .identity :=
        (wellFormed.contract creator inside).symm.trans
          (ParsedEvent.creates?_agent_contract creates)
      by_cases same : contract = .identity
      · by_cases old : creator.ledger ≤ low
        · exact .inl (indexed creator inside (label.trans same.symm) old _
            creates)
        · refine .inr (.inl ⟨creator, ?_,
            (ParsedEvent.registered_of_creates? creates).1, creates, early⟩)
          apply List.mem_filter.mpr
          refine ⟨inside, ?_⟩
          simp only [Bool.and_eq_true, decide_eq_true_eq]
          exact ⟨label.trans same.symm, Nat.not_le.mp old, early.trans below⟩
      · exact .inl (agents same creator inside (early.trans below) agent
          creates)
  | feedback key =>
      obtain ⟨about, notNew, isReputation⟩ :=
        ParsedEvent.parent?_feedback isParent
      rcases wellFormed.given _ packet remaining position key about with
        new | ⟨creator, inside, new, touches⟩
      · rw [notNew] at new
        cases new
      · obtain ⟨creates, unregistered, kind⟩ :=
          ParsedEvent.creates?_feedback new touches
        have held : creator ∈ chain := by
          rw [position]
          exact List.mem_append_left _ inside
        have label : creator.contract = contract := by
          rw [← wellFormed.contract creator held, kind, ← isReputation,
            wellFormed.contract packet member, isContract]
        have early : creator.ledger ≤ packet.ledger := by
          have ordered := wellFormed.ordered
          rw [position] at ordered
          exact (List.pairwise_append.mp ordered).2.2 creator inside packet
            List.mem_cons_self
        by_cases old : creator.ledger ≤ low
        · exact .inl (indexed creator held label old _ creates)
        · have selected : (decide (creator.contract = contract) &&
              (decide (low < creator.ledger) &&
                decide (creator.ledger ≤ head))) = true := by
            simp only [Bool.and_eq_true, decide_eq_true_eq]
            exact ⟨label, Nat.not_le.mp old, early.trans below⟩
          refine .inr (.inr ⟨creator, ?_, unregistered, creates⟩)
          rcases List.mem_append.mp inside with here | there
          · rw [← isFirst]
            exact List.mem_filter.mpr ⟨here, selected⟩
          · exact absurd selected (outside creator there)

/-- Every parent is created somewhere in the chain. -/
theorem WellFormed.exists_creator (wellFormed : WellFormed runtime chain)
    (packet : EventPacket) (member : packet ∈ chain) (parent : Parent)
    (isParent : packet.data.parent? = some parent) :
    ∃ creator ∈ chain, creator.data.creates? = some parent := by
  cases parent with
  | agent agent =>
      obtain ⟨creator, held, creates, _⟩ :=
        wellFormed.registered packet member agent (.inr isParent)
      exact ⟨creator, held, creates⟩
  | feedback key =>
      obtain ⟨about, notNew, _⟩ := ParsedEvent.parent?_feedback isParent
      obtain ⟨before, after, split⟩ := List.append_of_mem member
      rcases wellFormed.given before packet after split key about with
        new | ⟨creator, inside, new, touches⟩
      · rw [notNew] at new
        cases new
      · refine ⟨creator, ?_, (ParsedEvent.creates?_feedback new touches).1⟩
        rw [split]
        exact List.mem_append_left _ inside

/-- Parents below their contract's checkpoint are indexed. -/
theorem Indexes.has (indexed : Indexes runtime chain origin checkpoints tables)
    (later : ∀ packet ∈ chain, origin < packet.ledger) :
    ∀ creator ∈ chain, creator.ledger ≤ checkpoints creator.contract →
      ∀ parent, creator.data.creates? = some parent → tables.Has parent := by
  induction indexed with
  | start =>
      intro creator member old
      exact absurd (later creator member) (Nat.not_lt.mpr old)
  | @attempt checkpoints tables after prior contract head saved cut finished
      unread next identityFirst read complete written forward scanned passed
      induction =>
      intro creator member old parent creates
      by_cases before : creator.ledger ≤ checkpoints creator.contract
      · exact (induction creator member before parent creates).writtenAll
          written
      · by_cases same : creator.contract = contract
        · rw [same, Function.update_self] at old
          rw [same] at before
          have inside : creator ∈ between chain contract
              (checkpoints contract) head := by
            apply List.mem_filter.mpr
            refine ⟨member, ?_⟩
            simp only [Bool.and_eq_true, decide_eq_true_eq]
            exact ⟨same, Nat.not_le.mp before, old.trans scanned⟩
          rw [← read] at inside
          obtain ⟨packets, isPackets, holds⟩ := List.mem_flatten.mp inside
          obtain ⟨batch, isBatch, rfl⟩ := List.mem_map.mp isPackets
          rcases List.mem_append.mp isBatch with done | waiting
          · refine Tables.Has.createdAll written creator.data ?_
              creates
            rw [writtenEvents_append]
            apply List.mem_append_left
            rw [writtenEvents_flatMap]
            refine List.mem_flatMap.mpr ⟨batch, done, ?_⟩
            exact List.mem_map_of_mem (mem_parentsFirst.mpr holds)
          · exact absurd (passed batch waiting creator holds)
              (Nat.not_lt.mpr old)
        · rw [Function.update_of_ne same] at old
          exact absurd old before

end

/-! ## Passes -/

/-- The statements of a pass over what is left of the chain, the identity
contract first, each contract in one batch. -/
def remaining (now : String) (chain : List EventPacket)
    (checkpoints : ContractName → Nat) (head : Nat) :
    List (String × EventPacket) :=
  [ContractName.identity, .reputation, .validation].flatMap fun contract =>
    Batch.ordered
      { now, packets := between chain contract (checkpoints contract) head }

section

variable {runtime : Runtime} {chain : List EventPacket} {origin head : Nat}
  {checkpoints : ContractName → Nat} {tables after : Tables}

/-- No statement of an attempt fails: batches of complete ledgers read from
the checkpoint are written to the end. -/
theorem Indexes.written (indexed : Indexes runtime chain origin checkpoints
      tables)
    (wellFormed : WellFormed runtime chain)
    (later : ∀ packet ∈ chain, origin < packet.ledger)
    (contract : ContractName) (batches : List Batch)
    (identityFirst : contract ≠ .identity → head ≤ checkpoints .identity)
    (read : (batches.map Batch.packets).flatten =
      between chain contract (checkpoints contract) head)
    (complete : (batches.map Batch.packets).Pairwise
      fun early late => ∀ first ∈ early, ∀ second ∈ late,
        first.ledger < second.ledger) :
    ∃ after, writeAll runtime (batches.flatMap Batch.ordered) tables =
      .ok after := by
  have events : writtenEvents (batches.flatMap Batch.ordered) =
      (batches.map Batch.packets).flatMap fun batch =>
        (parentsFirst batch).map EventPacket.data := by
    rw [writtenEvents_flatMap, List.flatMap_map]
  have source : ∀ event ∈ writtenEvents (batches.flatMap Batch.ordered),
      ∃ packet ∈ chain, packet.data = event := by
    intro event member
    rw [events] at member
    obtain ⟨packets, isBatch, inside⟩ := List.mem_flatMap.mp member
    obtain ⟨packet, holds, rfl⟩ := List.mem_map.mp inside
    have flat : packet ∈ (batches.map Batch.packets).flatten :=
      List.mem_flatten.mpr ⟨packets, isBatch, mem_parentsFirst.mp holds⟩
    exact ⟨packet, between_subset (read ▸ flat), rfl⟩
  apply writeAll_ok
  · intro event member
    obtain ⟨packet, inside, rfl⟩ := source event member
    exact wellFormed.timed packet inside
  · intro event member
    obtain ⟨packet, inside, rfl⟩ := source event member
    exact wellFormed.checked packet inside
  · rw [events]
    apply Parented.supplied_batches _ complete
    rw [read]
    apply wellFormed.parented
    · intro creator member same old parent creates
      exact indexed.has later creator member (same ▸ old) parent creates
    · intro dependent creator member below agent creates
      have label : creator.contract = .identity :=
        (wellFormed.contract creator member).symm.trans
          (ParsedEvent.creates?_agent_contract creates)
      apply indexed.has later creator member _ _ creates
      rw [label]
      exact below.trans (identityFirst dependent)

/-- One contract can always be read to the head. -/
private theorem Indexes.advance
    (indexed : Indexes runtime chain origin checkpoints tables)
    (wellFormed : WellFormed runtime chain)
    (later : ∀ packet ∈ chain, origin < packet.ledger)
    (now : String) (head : Nat) (contract : ContractName)
    (identityFirst : contract ≠ .identity → head ≤ checkpoints .identity) :
    ∃ after, writeAll runtime (Batch.ordered
        { now
          packets := between chain contract (checkpoints contract) head })
        tables = .ok after ∧
      Indexes runtime chain origin (Function.update checkpoints contract
        (max head (checkpoints contract))) after := by
  set batch : Batch :=
    { now, packets := between chain contract (checkpoints contract) head }
    with isBatch
  obtain ⟨after, written⟩ := indexed.written wellFormed later contract [batch]
    identityFirst (by simp [isBatch]) (by simp)
  rw [List.flatMap_cons, List.flatMap_nil, List.append_nil] at written
  refine ⟨after, written, ?_⟩
  by_cases behind : checkpoints contract ≤ head
  · rw [Nat.max_eq_left behind]
    refine indexed.attempt contract head head 0 [batch] [] ⟨now, []⟩
      identityFirst (by simp [isBatch]) (by simp) ?_ behind (Nat.le_refl _) ?_
    · simpa [Batch.ordered, parentsFirst] using written
    · simp
  · have ahead := Nat.le_of_lt (Nat.not_le.mp behind)
    have empty : batch.packets = [] := by
      apply List.filter_eq_nil_iff.mpr
      intro packet _
      simp only [Bool.and_eq_true, decide_eq_true_eq, not_and]
      omega
    have same : after = tables := by
      simp only [Batch.ordered, empty, parentsFirst, List.filter_nil,
        List.append_nil, List.map_nil, writeAll, Except.ok.injEq] at written
      exact written.symm
    rw [Nat.max_eq_right ahead, Function.update_eq_self, same]
    exact indexed

/-- From the checkpoints of any attempts, the rest of the chain can be written
without a failure. -/
theorem Indexes.finish (indexed : Indexes runtime chain origin checkpoints
      tables)
    (wellFormed : WellFormed runtime chain)
    (later : ∀ packet ∈ chain, origin < packet.ledger) (now : String)
    (head : Nat) :
    ∃ final, writeAll runtime (remaining now chain checkpoints head) tables =
        .ok final ∧
      ∃ passed, (∀ contract, head ≤ passed contract) ∧
        Indexes runtime chain origin passed final := by
  obtain ⟨first, firstWritten, firstIndexed⟩ :=
    indexed.advance wellFormed later now head .identity
      (fun different => absurd rfl different)
  obtain ⟨second, secondWritten, secondIndexed⟩ :=
    firstIndexed.advance wellFormed later now head .reputation
      (fun _ => by simp)
  obtain ⟨third, thirdWritten, thirdIndexed⟩ :=
    secondIndexed.advance wellFormed later now head .validation
      (fun _ => by simp)
  simp only [ne_eq, reduceCtorEq, not_false_eq_true,
    Function.update_of_ne] at secondWritten thirdWritten
  refine ⟨third, ?_, _, ?_, thirdIndexed⟩
  · simp only [remaining, List.flatMap_cons, List.flatMap_nil,
      List.append_nil, writeAll_append, firstWritten, secondWritten,
      thirdWritten]
  · intro contract
    cases contract <;> simp

end

/-! ## Equal tables -/

/-- Two databases with the same rows, apart from `updated_at`. -/
structure Tables.SameRows (left right : Tables) : Prop where
  agents : ∀ id, (left.agents id).map AgentRow.settled =
    (right.agents id).map AgentRow.settled
  agentMetadata : left.agentMetadata = right.agentMetadata
  feedback : left.feedback = right.feedback
  feedbackResponses : ∀ key,
    left.feedbackResponses.filter (·.key = key) =
      right.feedbackResponses.filter (·.key = key)
  validations : left.validations = right.validations

theorem AgentRow.toCell_inj {left right : AgentRow}
    {leftMetadata rightMetadata : String → Option String}
    (same : left.toCell leftMetadata = right.toCell rightMetadata) :
    left.settled = right.settled ∧ leftMetadata = rightMetadata := by
  obtain ⟨owner, agentUri, agentUriData, wallet, createdAt, updatedAt,
    createdLedger, txHash, attempts, pending, lastAttempt, trust, services,
    x402, mpp, uriLedger, transferred⟩ := left
  obtain ⟨owner', agentUri', agentUriData', wallet', createdAt', updatedAt',
    createdLedger', txHash', attempts', pending', lastAttempt', trust',
    services', x402', mpp', uriLedger', transferred'⟩ := right
  simp only [toCell, uriColumns, AgentCell.mk.injEq, UriColumns.mk.injEq,
    ResettableMap.mk.injEq] at same
  obtain ⟨rfl, rfl, rfl, ⟨rfl, rfl, rfl, rfl, rfl, rfl, rfl, rfl, rfl, rfl⟩,
    rfl, rfl, cells⟩ := same
  have sameWallet := congrFun cells .wallet
  simp only at sameWallet
  subst sameWallet
  refine ⟨rfl, ?_⟩
  funext key
  exact congrFun cells (.metadata key)

/-- Tables with equal cells have the same rows. -/
theorem Tables.SameRows.of_cells {left right : Tables}
    (leftOwned : left.MetadataOwned) (rightOwned : right.MetadataOwned)
    (agents : ∀ id, left.agentCell id = right.agentCell id)
    (feedback : ∀ key, left.feedbackCell key = right.feedbackCell key)
    (validations : ∀ requestHash,
      left.validations requestHash = right.validations requestHash) :
    left.SameRows right := by
  have rows : ∀ id, (left.agents id).map AgentRow.settled =
      (right.agents id).map AgentRow.settled ∧
        left.agentMetadata id = right.agentMetadata id := by
    intro id
    have same := agents id
    unfold Tables.agentCell at same
    cases leftRow : left.agents id with
    | none =>
        cases rightRow : right.agents id with
        | none =>
            refine ⟨rfl, ?_⟩
            funext key
            rw [leftOwned id leftRow key, rightOwned id rightRow key]
        | some row => simp [leftRow, rightRow] at same
    | some row =>
        cases rightRow : right.agents id with
        | none => simp [leftRow, rightRow] at same
        | some other =>
            simp only [leftRow, rightRow, Option.map_some,
              Option.some.injEq] at same
            obtain ⟨settled, metadata⟩ := AgentRow.toCell_inj same
            exact ⟨by simp [settled], metadata⟩
  refine ⟨fun id => (rows id).1, funext fun id => (rows id).2, ?_, ?_,
    funext validations⟩
  · funext key
    exact congrArg FeedbackCell.row (feedback key)
  · intro key
    exact congrArg FeedbackCell.responses (feedback key)

section

variable {runtime : Runtime} {chain : List EventPacket} {origin : Nat}
  {checkpoints passed : ContractName → Nat} {tables other : Tables}

/-- Attempts that have passed the whole chain agree. -/
theorem Indexes.sameRows
    (first : Indexes runtime chain origin checkpoints tables)
    (second : Indexes runtime chain origin passed other)
    (wellFormed : WellFormed runtime chain)
    (later : ∀ packet ∈ chain, origin < packet.ledger)
    (firstDone : ∀ packet ∈ chain,
      packet.ledger ≤ checkpoints packet.contract)
    (secondDone : ∀ packet ∈ chain,
      packet.ledger ≤ passed packet.contract) :
    tables.SameRows other := by
  obtain ⟨answers, answering⟩ := wellFormed.exists_answers
  have agree : ∀ {κ σ : Type} [DecidableEq κ] (view : CellView runtime κ σ),
      view.Tracks chain → ∀ cell, view.read tables cell =
        view.read other cell := by
    intro κ σ _ view tracks cell
    rw [first.read_eq view cell tracks wellFormed.contract answering later
        firstDone,
      second.read_eq view cell tracks wellFormed.contract answering later
        secondDone]
  exact .of_cells (first.consistent answering).metadataOwned
    (second.consistent answering).metadataOwned
    (agree _ wellFormed.agentView) (agree _ wellFormed.feedbackView)
    (agree _ wellFormed.requestView)

/-- Folding the end of the chain over a finished cell again changes
nothing. -/
theorem CellView.foldl_history_drop {κ σ : Type} [DecidableEq κ]
    (view : CellView runtime κ σ) (tracks : view.Tracks chain) (cell : κ)
    (births : ∀ event, event.isRegistered = true →
      view.key event = some cell → view.birth event)
    (start : Nat) (state : σ) :
    (view.history (chain.drop start) cell).foldl view.step
        ((view.history chain cell).foldl view.step state) =
      (view.history chain cell).foldl view.step state := by
  by_cases empty : view.history chain cell = []
  · have none : view.history (chain.drop start) cell = [] := by
      apply List.eq_nil_iff_forall_not_mem.mpr
      intro event member
      obtain ⟨packet, inside, isData, about⟩ := view.mem_history.mp member
      have earlier : event ∈ view.history chain cell := view.mem_history.mpr
        ⟨packet, List.mem_of_mem_drop inside, isData, about⟩
      rw [empty] at earlier
      cases earlier
    rw [none, List.foldl_nil]
  · have living : view.alive
        ((view.history chain cell).foldl view.step state) := by
      have alive := view.births.foldl_take_alive (tracks.begins cell) empty
        (List.length_pos_iff.mpr empty) state
      rwa [List.take_length] at alive
    -- Registrations in the end of the chain do nothing, and what they are
    -- moved past is an end of the history.
    set ending := (((chain.drop start).filter
      fun packet => !packet.data.isRegistered).map EventPacket.data).filter
        (fun event => view.key event = some cell) with isEnding
    have isSuffix : ending <:+ view.history chain cell := by
      have suffix : (chain.drop start).filter
          (fun packet => !packet.data.isRegistered) <:+
            chain.filter fun packet => !packet.data.isRegistered :=
        (List.drop_suffix start chain).filter _
      have part := (suffix.map EventPacket.data).filter
        (fun event => decide (view.key event = some cell))
      refine part.trans ?_
      unfold CellView.history parentsFirst
      rw [List.map_append, List.filter_append]
      exact List.suffix_append _ _
    have split : view.history (chain.drop start) cell =
        (((chain.drop start).filter
          fun packet => packet.data.isRegistered).map EventPacket.data).filter
            (fun event => view.key event = some cell) ++ ending := by
      unfold CellView.history parentsFirst
      rw [List.map_append, List.filter_append]
    rw [split, List.foldl_append, view.births.foldl_reborn _ living]
    · obtain ⟨before, whole⟩ := isSuffix
      have dropped : ending =
          (view.history chain cell).drop before.length := by
        rw [← whole, List.drop_left]
      rw [dropped]
      exact view.births.foldl_drop_again (tracks.begins cell)
        (view.settled _ (tracks.ordered cell)) before.length state
    · intro event member
      simp only [List.mem_filter, List.mem_map, decide_eq_true_eq] at member
      obtain ⟨⟨packet, ⟨_, isRegistered⟩, rfl⟩, about⟩ := member
      exact births _ isRegistered about

/-- Where every parent is there, nothing depends on the order. -/
theorem Supplied.of_has {has : Parent → Prop} {events : List ParsedEvent}
    (present : ∀ event ∈ events, ∀ parent, event.parent? = some parent →
      has parent) : Supplied has events := by
  intro before event after split parent isParent
  refine .inl (present event ?_ parent isParent)
  rw [split]
  exact List.mem_append_right _ List.mem_cons_self

/-- A pass over all of a list writes each cell's history in it. -/
theorem CellView.written_remaining {κ σ : Type} [DecidableEq κ]
    (view : CellView runtime κ σ) (cell : κ) {packets : List EventPacket}
    (labelled : ∀ packet ∈ packets, packet.data.contract = packet.contract)
    {head : Nat} (within : ∀ packet ∈ packets,
      origin < packet.ledger ∧ packet.ledger ≤ head) (now : String) :
    (writtenEvents (remaining now packets (fun _ => origin) head)).filter
        (fun event => view.key event = some cell) =
      view.history packets cell := by
  have whole : ∀ contract, between packets contract origin head =
      packets.filter fun packet => packet.contract = contract := by
    intro contract
    apply List.filter_congr
    intro packet member
    simp [within packet member]
  have part : ∀ contract, (writtenEvents (Batch.ordered
      { now, packets := between packets contract origin head })).filter
        (fun event => view.key event = some cell) =
      if contract = view.contract then view.history packets cell else [] := by
    intro contract
    rw [writtenEvents_ordered, whole]
    split
    · rename_i same
      subst same
      exact view.history_contract packets cell labelled
    · rename_i different
      apply view.history_of_other
      · intro packet member
        exact labelled packet (List.mem_filter.mp member).1
      · intro packet member
        have isContract := of_decide_eq_true (List.mem_filter.mp member).2
        rw [isContract]
        exact different
  simp only [remaining, List.flatMap_cons, List.flatMap_nil, List.append_nil]
  simp only [writtenEvents_append, List.filter_append, part]
  cases view.contract <;> simp

theorem mem_remaining {packets : List EventPacket} {now : String} {head : Nat}
    {event : ParsedEvent}
    (member : event ∈ writtenEvents
      (remaining now packets checkpoints head)) :
    ∃ packet ∈ packets, packet.data = event := by
  obtain ⟨write, inside, rfl⟩ := List.mem_map.mp member
  obtain ⟨contract, _, holds⟩ := List.mem_flatMap.mp inside
  obtain ⟨packet, isPacket, rfl⟩ := List.mem_map.mp holds
  exact ⟨packet, between_subset (mem_parentsFirst.mp isPacket), rfl⟩

/-- After the whole chain has been indexed, a pass over any end of it runs
without a failure and changes no row. -/
theorem Indexes.replay_suffix
    (indexed : Indexes runtime chain origin checkpoints tables)
    (wellFormed : WellFormed runtime chain) {head : Nat}
    (within : ∀ packet ∈ chain,
      origin < packet.ledger ∧ packet.ledger ≤ head)
    (done : ∀ packet ∈ chain, packet.ledger ≤ checkpoints packet.contract)
    (start : Nat) (now : String) :
    ∃ again, writeAll runtime
        (remaining now (chain.drop start) (fun _ => origin) head) tables =
          .ok again ∧ again.SameRows tables := by
  obtain ⟨answers, answering⟩ := wellFormed.exists_answers
  have later : ∀ packet ∈ chain, origin < packet.ledger :=
    fun packet member => (within packet member).1
  have source : ∀ event ∈ writtenEvents
      (remaining now (chain.drop start) (fun _ => origin) head),
      ∃ packet ∈ chain, packet.data = event := by
    intro event member
    obtain ⟨packet, inside, isData⟩ := mem_remaining member
    exact ⟨packet, List.mem_of_mem_drop inside, isData⟩
  have ran : ∃ again, writeAll runtime
      (remaining now (chain.drop start) (fun _ => origin) head) tables =
        .ok again := by
    apply writeAll_ok
    · intro event member
      obtain ⟨packet, inside, rfl⟩ := source event member
      exact wellFormed.timed packet inside
    · intro event member
      obtain ⟨packet, inside, rfl⟩ := source event member
      exact wellFormed.checked packet inside
    · apply Supplied.of_has
      intro event member parent isParent
      obtain ⟨packet, inside, rfl⟩ := source event member
      obtain ⟨creator, held, creates⟩ :=
        wellFormed.exists_creator packet inside parent isParent
      exact indexed.has later creator held (done creator held) parent creates
  obtain ⟨again, written⟩ := ran
  refine ⟨again, written, ?_⟩
  have consistent := indexed.consistent answering
  have answered : ∀ event ∈ writtenEvents
      (remaining now (chain.drop start) (fun _ => origin) head),
      event.Answers answers := by
    intro event member
    obtain ⟨packet, inside, rfl⟩ := source event member
    exact answering packet inside
  have agree : ∀ {κ σ : Type} [DecidableEq κ] (view : CellView runtime κ σ),
      view.Tracks chain → (∀ event cell, event.isRegistered = true →
        view.key event = some cell → view.birth event) → ∀ cell,
        view.read again cell = view.read tables cell := by
    intro κ σ _ view tracks births cell
    rw [view.reads written consistent answered cell,
      view.written_remaining cell (fun packet member =>
        wellFormed.contract packet (List.mem_of_mem_drop member))
        (fun packet member => within packet (List.mem_of_mem_drop member)),
      indexed.read_eq view cell tracks wellFormed.contract answering later
        done]
    exact view.foldl_history_drop tracks cell
      (fun event => births event cell) start _
  exact .of_cells
    (writeAll_consistent written consistent answered).metadataOwned
    consistent.metadataOwned
    (agree _ wellFormed.agentView fun _ _ isRegistered _ => isRegistered)
    (agree _ wellFormed.feedbackView fun event _ isRegistered about => by
      cases event <;> cases isRegistered
      cases about)
    (agree _ wellFormed.requestView fun event _ isRegistered about => by
      cases event <;> cases isRegistered
      cases about)

end

end Stellar8004.Indexer
