import Stellar8004.Indexer.CellReplay
import Stellar8004.Indexer.Constraints

/-!
# Histories of cells

A cell view reads one family of cells off the tables and names the events
that step them.  The history of a cell lists its events in the order the
indexer writes them: chain order, with a registration before the events its
transaction emitted first.  Cutting the chain into batches of complete
ledgers, each ordered by `parentsFirst`, does not change any history.
-/

namespace Stellar8004.Indexer

/-- A family of cells, the events that touch them and what these do. -/
structure CellView (runtime : Runtime) (κ σ : Type) [DecidableEq κ] where
  contract : ContractName
  key : ParsedEvent → Option κ
  read : Tables → κ → σ
  step : σ → ParsedEvent → σ
  alive : σ → Prop
  birth : ParsedEvent → Prop
  keyed : ∀ event cell, key event = some cell → event.contract = contract
  births : Replay.Births step alive birth
  settled : ∀ events, LedgerOrdered events →
    Replay.SegmentIdempotent step alive events
  reads : ∀ {writes : List (String × EventPacket)} {tables after : Tables}
    {answers : String → FeedbackKey},
    writeAll runtime writes tables = .ok after →
    tables.Consistent answers →
    (∀ event ∈ writtenEvents writes, event.Answers answers) → ∀ cell,
      read after cell =
        ((writtenEvents writes).filter
          (fun event => key event = some cell)).foldl step (read tables cell)

def agentView (runtime : Runtime) : CellView runtime Nat (Option AgentCell) where
  contract := .identity
  key := ParsedEvent.agent?
  read := Tables.agentCell
  step := stepAgent runtime
  alive cell := cell.isSome = true
  birth event := event.isRegistered = true
  keyed event _ about := by cases event <;> first | rfl | cases about
  births := stepAgent_births runtime
  settled _ := stepAgent_segmentIdempotent runtime
  reads := agentCell_writeAll

def feedbackView (runtime : Runtime) :
    CellView runtime FeedbackKey FeedbackCell where
  contract := .reputation
  key := ParsedEvent.feedback?
  read := Tables.feedbackCell
  step := stepFeedback runtime
  alive cell := cell.row.isSome = true
  birth event := event.isNewFeedback = true
  keyed event _ about := by cases event <;> first | rfl | cases about
  births := stepFeedback_births runtime
  settled _ := stepFeedback_segmentIdempotent runtime
  reads := feedbackCell_writeAll

def requestView (runtime : Runtime) :
    CellView runtime String (Option ValidationRow) where
  contract := .validation
  key := ParsedEvent.request?
  read := Tables.validations
  step := stepValidation runtime
  alive cell := cell.isSome = true
  birth event := event.isValidationRequest = true
  keyed event _ about := by cases event <;> first | rfl | cases about
  births := stepValidation_births runtime
  settled _ := stepValidation_segmentIdempotent runtime
  reads written _ _ := validations_writeAll written

/-! ## Chains of packets -/

/-- The facts about emitted events the indexer's guards rely on. -/
structure WellFormed (runtime : Runtime) (chain : List EventPacket) :
    Prop where
  ordered : chain.Pairwise fun left right => left.ledger ≤ right.ledger
  contract : ∀ packet ∈ chain, packet.data.contract = packet.contract
  timed : ∀ packet ∈ chain, packet.data.Timed runtime
  checked : ∀ packet ∈ chain, packet.data.Checked
  /-- Responses carry the identifier of their event. -/
  eventIds : ∀ packet ∈ chain, ∀ e, packet.data = .responseAppended e →
    e.eventId = packet.id
  ids : (chain.map EventPacket.id).Nodup
  /-- Agents are registered no later than anything else names them. -/
  registered : ∀ packet ∈ chain, ∀ agent,
    packet.data.agent? = some agent ∨
      packet.data.parent? = some (.agent agent) →
    ∃ creator ∈ chain, creator.data.creates? = some (.agent agent) ∧
      creator.ledger ≤ packet.ledger
  earliest : ∀ creator ∈ chain, ∀ packet ∈ chain, ∀ agent,
    creator.data.creates? = some (.agent agent) →
    packet.data.agent? = some agent → creator.ledger ≤ packet.ledger
  /-- Feedback is given before it is revoked or answered. -/
  given : ∀ before packet after, chain = before ++ packet :: after →
    ∀ key, packet.data.feedback? = some key →
    packet.data.isNewFeedback = true ∨
      ∃ creator ∈ before, creator.data.isNewFeedback = true ∧
        creator.data.feedback? = some key
  /-- Validation is requested before it is answered. -/
  requested : ∀ before packet after, chain = before ++ packet :: after →
    ∀ requestHash, packet.data.request? = some requestHash →
    packet.data.isValidationRequest = true ∨
      ∃ creator ∈ before, creator.data.isValidationRequest = true ∧
        creator.data.request? = some requestHash

section

variable {runtime : Runtime} {chain : List EventPacket}

private theorem find?_id (ids : (chain.map EventPacket.id).Nodup)
    {packet : EventPacket} (member : packet ∈ chain) :
    chain.find? (fun other => other.id = packet.id) = some packet := by
  induction chain with
  | nil => cases member
  | cons head rest induction =>
      rw [List.map_cons, List.nodup_cons] at ids
      rcases List.mem_cons.mp member with rfl | inside
      · simp
      · have different : head.id ≠ packet.id := by
          intro same
          exact ids.1 (same ▸ List.mem_map_of_mem inside)
        rw [List.find?_cons_of_neg (by simpa using different)]
        exact induction ids.2 inside

/-- The feedback that the response of an identifier answers. -/
def answeredFeedback (chain : List EventPacket) (id : String) : FeedbackKey :=
  match chain.find? (fun packet => packet.id = id) with
  | some ⟨_, _, .responseAppended e⟩ =>
      feedbackKey e.agentId e.clientAddress e.feedbackIndex
  | _ => ⟨0, "", 0⟩

/-- Identifiers say which feedback a response answers. -/
theorem exists_answers (ids : (chain.map EventPacket.id).Nodup)
    (eventIds : ∀ packet ∈ chain, ∀ e, packet.data = .responseAppended e →
      e.eventId = packet.id) :
    ∃ answers : String → FeedbackKey, ∀ packet ∈ chain,
      packet.data.Answers answers := by
  refine ⟨answeredFeedback chain, ?_⟩
  intro packet member
  obtain ⟨id, contract, data⟩ := packet
  cases data with
  | responseAppended e =>
      have named := eventIds _ member e rfl
      have found : chain.find? (fun packet => packet.id = id) =
          some ⟨id, contract, .responseAppended e⟩ :=
        find?_id ids member
      simp only [ParsedEvent.Answers, answeredFeedback, named, found]
  | _ => trivial

theorem WellFormed.exists_answers (wellFormed : WellFormed runtime chain) :
    ∃ answers : String → FeedbackKey, ∀ packet ∈ chain,
      packet.data.Answers answers :=
  Indexer.exists_answers wellFormed.ids wellFormed.eventIds

namespace CellView

variable {κ σ : Type} [DecidableEq κ] (view : CellView runtime κ σ)

/-- The events of a list of packets that touch a cell, as written. -/
def history (packets : List EventPacket) (cell : κ) : List ParsedEvent :=
  ((parentsFirst packets).map EventPacket.data).filter
    fun event => view.key event = some cell

theorem mem_history {packets : List EventPacket} {cell : κ}
    {event : ParsedEvent} :
    event ∈ view.history packets cell ↔
      ∃ packet ∈ packets, packet.data = event ∧
        view.key event = some cell := by
  simp only [history, parentsFirst, List.mem_filter, List.mem_map,
    List.mem_append, decide_eq_true_eq]
  constructor
  · rintro ⟨⟨packet, member, rfl⟩, about⟩
    exact ⟨packet, member.elim And.left And.left, rfl, about⟩
  · rintro ⟨packet, member, rfl, about⟩
    refine ⟨⟨packet, ?_, rfl⟩, about⟩
    by_cases isRegistered : packet.data.isRegistered = true
    · exact .inl ⟨member, isRegistered⟩
    · exact .inr ⟨member, by simpa using isRegistered⟩

/-- Registrations that touch the cell come no later than its other events. -/
def Earliest (packets : List EventPacket) (cell : κ) : Prop :=
  ∀ creator ∈ packets, ∀ packet ∈ packets,
    creator.data.isRegistered = true → view.key creator.data = some cell →
    view.key packet.data = some cell → creator.ledger ≤ packet.ledger

theorem Earliest.subset {packets fewer : List EventPacket} {cell : κ}
    (earliest : view.Earliest packets cell) (subset : fewer ⊆ packets) :
    view.Earliest fewer cell :=
  fun creator first packet second =>
    earliest creator (subset first) packet (subset second)

/-- Histories concatenate where no registration has to move across. -/
theorem history_append (first second : List EventPacket) (cell : κ)
    (unmoved : (∀ packet ∈ first, view.key packet.data ≠ some cell) ∨
      ∀ packet ∈ second, packet.data.isRegistered = true →
        view.key packet.data ≠ some cell) :
    view.history (first ++ second) cell =
      view.history first cell ++ view.history second cell := by
  have none : ∀ packets : List EventPacket,
      (∀ packet ∈ packets, view.key packet.data ≠ some cell) →
      (packets.map EventPacket.data).filter
        (fun event => view.key event = some cell) = [] := by
    intro packets elsewhere
    apply List.filter_eq_nil_iff.mpr
    intro event member
    obtain ⟨packet, inside, rfl⟩ := List.mem_map.mp member
    simpa using elsewhere packet inside
  simp only [history, parentsFirst, List.filter_append, List.map_append]
  rcases unmoved with empty | registered
  · rw [none (first.filter fun packet => packet.data.isRegistered)
        (fun packet member => empty packet (List.mem_filter.mp member).1),
      none (first.filter fun packet => !packet.data.isRegistered)
        (fun packet member => empty packet (List.mem_filter.mp member).1)]
    simp
  · rw [none (second.filter fun packet => packet.data.isRegistered)
        (fun packet member => registered packet (List.mem_filter.mp member).1
          (List.mem_filter.mp member).2)]
    simp

/-- Batches whose ledgers do not overlap write each cell as one batch
would. -/
theorem history_flatten (batches : List (List EventPacket)) (cell : κ)
    (apart : batches.Pairwise fun early late =>
      ∀ first ∈ early, ∀ second ∈ late, first.ledger < second.ledger)
    (earliest : view.Earliest batches.flatten cell) :
    view.history batches.flatten cell =
      batches.flatMap (fun batch => view.history batch cell) := by
  induction batches with
  | nil => rfl
  | cons batch batches induction =>
      have bounds := List.pairwise_cons.mp apart
      have later : view.Earliest batches.flatten cell :=
        earliest.subset view (List.subset_append_right batch _)
      rw [List.flatMap_cons, ← induction bounds.2 later, List.flatten_cons]
      apply view.history_append
      by_cases registered : ∃ creator ∈ batches.flatten,
          creator.data.isRegistered = true ∧
            view.key creator.data = some cell
      · obtain ⟨creator, member, isRegistered, about⟩ := registered
        left
        intro packet inside touches
        have early := earliest creator (List.mem_append_right _ member) packet
          (List.mem_append_left _ inside) isRegistered about touches
        obtain ⟨other, isBatch, holds⟩ := List.mem_flatten.mp member
        exact absurd (bounds.1 other isBatch packet inside creator holds)
          (Nat.not_lt.mpr early)
      · right
        intro packet member isRegistered about
        exact registered ⟨packet, member, isRegistered, about⟩

/-- Selecting packets by their ledgers selects the same events of each
history. -/
theorem history_filter (packets : List EventPacket) (cell : κ)
    (within : Nat → Bool) :
    view.history (packets.filter fun packet => within packet.ledger) cell =
      (view.history packets cell).filter
        fun event => within event.base.ledger := by
  simp only [history, parentsFirst, List.filter_append, List.map_append,
    List.filter_map, List.filter_filter, Function.comp_def]
  congr 2 <;>
  · apply List.filter_congr
    intro packet _
    simp only [EventPacket.ledger]
    cases within packet.data.base.ledger <;> simp

/-- Packets of other contracts touch no cell of the view. -/
theorem history_contract (packets : List EventPacket) (cell : κ)
    (labelled : ∀ packet ∈ packets, packet.data.contract = packet.contract) :
    view.history (packets.filter fun packet =>
        packet.contract = view.contract) cell =
      view.history packets cell := by
  simp only [history, parentsFirst, List.filter_append, List.map_append,
    List.filter_map, List.filter_filter, Function.comp_def]
  congr 2 <;>
  · apply List.filter_congr
    intro packet member
    by_cases about : view.key packet.data = some cell
    · have same : packet.contract = view.contract :=
        (labelled packet member).symm.trans (view.keyed _ _ about)
      simp [about, same]
    · simp [about]

theorem history_of_other {packets : List EventPacket} {cell : κ}
    (labelled : ∀ packet ∈ packets, packet.data.contract = packet.contract)
    (other : ∀ packet ∈ packets, packet.contract ≠ view.contract) :
    view.history packets cell = [] := by
  apply List.eq_nil_iff_forall_not_mem.mpr
  intro event member
  obtain ⟨packet, inside, rfl, about⟩ := view.mem_history.mp member
  exact other packet inside
    ((labelled packet inside).symm.trans (view.keyed _ _ about))

/-- Each history is in ledger order. -/
theorem history_ordered {packets : List EventPacket} {cell : κ}
    (ordered : packets.Pairwise fun left right => left.ledger ≤ right.ledger)
    (earliest : view.Earliest packets cell) :
    LedgerOrdered (view.history packets cell) := by
  have part : ∀ keep : EventPacket → Bool,
      LedgerOrdered (((packets.filter keep).map EventPacket.data).filter
        fun event => view.key event = some cell) := by
    intro keep
    apply List.Pairwise.filter
    rw [List.pairwise_map]
    exact ordered.filter keep
  unfold history parentsFirst
  rw [List.map_append, List.filter_append]
  apply List.pairwise_append.mpr
  refine ⟨part _, part _, ?_⟩
  intro early isEarly late isLate
  simp only [List.mem_filter, List.mem_map, decide_eq_true_eq] at isEarly isLate
  obtain ⟨⟨creator, ⟨first, isRegistered⟩, rfl⟩, about⟩ := isEarly
  obtain ⟨⟨packet, ⟨second, _⟩, rfl⟩, touches⟩ := isLate
  exact earliest creator first packet second isRegistered about touches

/-- What a chain promises about the cells of a view. -/
structure Tracks (chain : List EventPacket) : Prop where
  earliest : ∀ cell, view.Earliest chain cell
  ordered : ∀ cell, LedgerOrdered (view.history chain cell)
  begins : ∀ cell, Replay.Begins view.birth (view.history chain cell)

end CellView

/-! ## Well-formed chains track their cells -/

theorem ParsedEvent.creates?_of_registered {event : ParsedEvent} {agent : Nat}
    (isRegistered : event.isRegistered = true)
    (about : event.agent? = some agent) :
    event.creates? = some (.agent agent) := by
  cases event with
  | registered e =>
      cases about
      rfl
  | _ => cases isRegistered

theorem ParsedEvent.registered_of_creates? {event : ParsedEvent} {agent : Nat}
    (creates : event.creates? = some (.agent agent)) :
    event.isRegistered = true ∧ event.agent? = some agent := by
  cases event with
  | registered e =>
      cases creates
      exact ⟨rfl, rfl⟩
  | _ => cases creates

theorem WellFormed.agentView (wellFormed : WellFormed runtime chain) :
    (agentView runtime).Tracks chain := by
  have earliest : ∀ cell, (Indexer.agentView runtime).Earliest chain cell := by
    intro agent creator first packet second isRegistered about touches
    exact wellFormed.earliest creator first packet second agent
      (ParsedEvent.creates?_of_registered isRegistered about) touches
  refine ⟨earliest, fun cell => CellView.history_ordered _ wellFormed.ordered
    (earliest cell), ?_⟩
  intro agent first rest whole
  -- The agent's registration is in the chain, so the first part is not empty.
  have touched : first ∈ (Indexer.agentView runtime).history chain agent :=
    whole ▸ List.mem_cons_self
  obtain ⟨packet, member, rfl, about⟩ := (CellView.mem_history _).mp touched
  obtain ⟨creator, inside, creates, _⟩ :=
    wellFormed.registered packet member agent (.inl about)
  obtain ⟨isRegistered, named⟩ := ParsedEvent.registered_of_creates? creates
  unfold CellView.history parentsFirst at whole
  rw [List.map_append, List.filter_append] at whole
  have present : creator.data ∈
      ((chain.filter fun packet => packet.data.isRegistered).map
        EventPacket.data).filter
          (fun event => (Indexer.agentView runtime).key event =
            some agent) := by
    simp only [List.mem_filter, List.mem_map, decide_eq_true_eq]
    exact ⟨⟨creator, ⟨inside, isRegistered⟩, rfl⟩, named⟩
  cases registrations : ((chain.filter
      fun packet => packet.data.isRegistered).map EventPacket.data).filter
        (fun event => (Indexer.agentView runtime).key event = some agent) with
  | nil =>
      rw [registrations] at present
      cases present
  | cons head tail =>
      rw [registrations, List.cons_append] at whole
      have same := (List.cons.inj whole).1
      have isHead : head ∈ ((chain.filter
          fun packet => packet.data.isRegistered).map EventPacket.data).filter
            (fun event => (Indexer.agentView runtime).key event =
              some agent) := registrations ▸ List.mem_cons_self
      simp only [List.mem_filter, List.mem_map] at isHead
      obtain ⟨⟨other, ⟨_, born⟩, rfl⟩, _⟩ := isHead
      rw [← same]
      exact born

/-- Where no registration touches the cells, histories keep chain order. -/
theorem CellView.history_eq_filter {κ σ : Type} [DecidableEq κ]
    (view : CellView runtime κ σ) (packets : List EventPacket) (cell : κ)
    (unregistered : ∀ event, event.isRegistered = true →
      view.key event = none) :
    view.history packets cell =
      (packets.map EventPacket.data).filter
        fun event => view.key event = some cell := by
  unfold history parentsFirst
  induction packets with
  | nil => rfl
  | cons packet packets induction =>
      rw [List.map_append, List.filter_append] at induction ⊢
      by_cases isRegistered : packet.data.isRegistered = true
      · simp only [List.filter_cons, isRegistered, if_true, List.map_cons,
          unregistered _ isRegistered]
        simpa using induction
      · have none : ((packets.filter fun packet =>
            packet.data.isRegistered).map EventPacket.data).filter
              (fun event => view.key event = some cell) = [] := by
          apply List.filter_eq_nil_iff.mpr
          intro event member
          obtain ⟨other, inside, rfl⟩ := List.mem_map.mp member
          simp [unregistered _ (List.mem_filter.mp inside).2]
        simp only [List.filter_cons, isRegistered, Bool.not_false, if_true,
          List.map_cons, none, List.nil_append] at induction ⊢
        simp [none, induction]

/-- A view whose cells are created before anything else touches them. -/
private theorem tracks_of_created {κ σ : Type} [DecidableEq κ]
    (view : CellView runtime κ σ)
    (unregistered : ∀ event, event.isRegistered = true →
      view.key event = none)
    (ordered : chain.Pairwise fun left right => left.ledger ≤ right.ledger)
    (created : ∀ before packet after, chain = before ++ packet :: after →
      ∀ cell, view.key packet.data = some cell →
      view.birth packet.data ∨
        ∃ creator ∈ before, view.key creator.data = some cell) :
    view.Tracks chain := by
  have earliest : ∀ cell, view.Earliest chain cell := by
    intro cell creator _ packet _ isRegistered about
    rw [unregistered _ isRegistered] at about
    cases about
  refine ⟨earliest, fun cell => view.history_ordered ordered (earliest cell),
    ?_⟩
  intro cell first rest whole
  rw [view.history_eq_filter chain cell unregistered, List.filter_map] at whole
  obtain ⟨packet, others, selected, rfl, _⟩ := List.map_eq_cons_iff.mp whole
  obtain ⟨before, after, split, skipped, about, _⟩ :=
    List.filter_eq_cons_iff.mp selected
  rcases created before packet after split cell (of_decide_eq_true about) with
    birth | ⟨creator, member, touches⟩
  · exact birth
  · exact absurd (decide_eq_true touches) (skipped creator member)

theorem WellFormed.feedbackView (wellFormed : WellFormed runtime chain) :
    (feedbackView runtime).Tracks chain := by
  apply tracks_of_created
  · intro event isRegistered
    cases event <;> first | rfl | cases isRegistered
  · exact wellFormed.ordered
  · intro before packet after split key about
    rcases wellFormed.given before packet after split key about with
      birth | ⟨creator, member, _, touches⟩
    · exact .inl birth
    · exact .inr ⟨creator, member, touches⟩

theorem WellFormed.requestView (wellFormed : WellFormed runtime chain) :
    (requestView runtime).Tracks chain := by
  apply tracks_of_created
  · intro event isRegistered
    cases event <;> first | rfl | cases isRegistered
  · exact wellFormed.ordered
  · intro before packet after split requestHash about
    rcases wellFormed.requested before packet after split requestHash about
      with birth | ⟨creator, member, _, touches⟩
    · exact .inl birth
    · exact .inr ⟨creator, member, touches⟩

end

end Stellar8004.Indexer
