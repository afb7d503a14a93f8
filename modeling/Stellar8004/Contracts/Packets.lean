import Stellar8004.Contracts.Chain

/-!
# The packets of a chain

What a packet names is what its event names, and every event that creates a
row has a packet.  The packets of a run of the three contracts are therefore
well formed.
-/

namespace Stellar8004.Contracts

open Stellar8004.Indexer

/-- The key under which feedback is stored in the database. -/
def storedKey (key : Nat × Address × Nat) : FeedbackKey :=
  feedbackKey key.1 (StrKey.encode key.2.1) key.2.2

/-- A packet names what its event names. -/
structure ContractEvent.Reads (event : ContractEvent) (data : ParsedEvent) :
    Prop where
  agent : ∀ agent, data.agent? = some agent →
    event.identityAgent? = some agent
  parent : ∀ agent, data.parent? = some (.agent agent) →
    event.agentId? = some agent
  creates : ∀ agent, data.creates? = some (.agent agent) ↔
    event.registers? = some agent
  feedback : data.feedback? = event.feedback?.map storedKey
  gives : data.isNewFeedback = event.gives
  request : data.request? = event.request?.map hexText
  requests : data.isValidationRequest = event.requests

theorem packetOf_eq_some {contract : ContractName} {raw : EventResponse}
    {packet : EventPacket} :
    packetOf contract raw = some packet ↔
      interpret contract raw = .parsed packet.data ∧ packet.id = raw.id ∧
        packet.contract = contract := by
  obtain ⟨id, owner, data⟩ := packet
  unfold packetOf
  cases interpret contract raw with
  | parsed event =>
      simp only [Option.some.injEq, EventPacket.mk.injEq,
        EventInterpretation.parsed.injEq]
      constructor
      · rintro ⟨rfl, rfl, rfl⟩
        exact ⟨rfl, rfl, rfl⟩
      · rintro ⟨rfl, rfl, rfl⟩
        exact ⟨rfl, rfl, rfl⟩
  | _ => simp

private theorem agent_reads {event : IdentityEvent} {data : ParsedEvent}
    {agent : Nat} (about : event.agentId? = some agent)
    (read : data.agent? = some agent)
    (creates : data.creates? = (ContractEvent.identity event).registers?.map
      Parent.agent)
    (parent : ∀ other, data.parent? = some (.agent other) →
      other = agent) :
    (ContractEvent.identity event).Reads data := by
  have kind : data.contract = .identity := by
    cases data <;> first | rfl | cases read
  refine ⟨?_, ?_, ?_, ?_, ?_, ?_, ?_⟩
  · intro other touches
    rw [read] at touches
    cases touches
    exact about
  · intro other isParent
    rw [parent other isParent]
    exact about
  · intro other
    rw [creates]
    simp
  all_goals cases data <;> first | rfl | cases kind

theorem ContractEvent.reads_of_parsed {event : ContractEvent} {stamp : Stamp}
    {data : ParsedEvent} (bounded : event.Bounded)
    (parsed : interpret event.contract (event.publish.response stamp) =
      .parsed data) : event.Reads data := by
  match event, bounded, parsed with
  | .identity (.registered agentId owner agentUri), bounded, parsed =>
      have small : agentId < 2 ^ 32 := bounded agentId rfl
      rw [publish, contract, interpret_registered small] at parsed
      cases parsed
      exact agent_reads rfl rfl rfl (fun _ isParent => by cases isParent)
  | .identity (.uriUpdated agentId updatedBy newUri), bounded, parsed =>
      have small : agentId < 2 ^ 32 := bounded agentId rfl
      rw [publish, contract, interpret_uriUpdated small] at parsed
      cases parsed
      exact agent_reads rfl rfl rfl (fun _ isParent => by cases isParent)
  | .identity (.metadataSet agentId key value), bounded, parsed =>
      have small : agentId < 2 ^ 32 := bounded agentId rfl
      have inner : parseIdentityEventInner
          ((IdentityEvent.metadataSet agentId key value).publish.response
            stamp) = .ok (some data) := parsed_of_interpret parsed
      rw [parse_metadataSet small] at inner
      split at inner
      · split at inner
        · cases inner
          exact agent_reads rfl rfl rfl (fun _ isParent => by cases isParent)
        split at inner
        · cases inner
        · cases inner
          exact agent_reads rfl rfl rfl (fun _ isParent => by cases isParent)
      · cases inner
        refine agent_reads rfl rfl rfl ?_
        intro other isParent
        cases isParent
        rfl
  | .identity (.mint «to» tokenId), bounded, parsed =>
      rw [publish, contract, interpret_mint] at parsed
      cases parsed
  | .identity (.transfer «from» «to» tokenId), bounded, parsed =>
      have small : tokenId < 2 ^ 32 := bounded tokenId rfl
      rw [publish, contract, interpret_transfer small] at parsed
      cases parsed
      exact agent_reads rfl rfl rfl (fun _ isParent => by cases isParent)
  | .reputation (.newFeedback agentId client index value valueDecimals tag1
      tag2 endpoint feedbackUri feedbackHash), bounded, parsed =>
      rw [publish, contract, interpret_newFeedback bounded.1 _ _ bounded.2.1
        bounded.2.2] at parsed
      cases parsed
      exact ⟨fun _ same => (by cases same), fun _ same => (by cases same; rfl),
        by simp [ParsedEvent.creates?, registers?], rfl, rfl, rfl, rfl⟩
  | .reputation (.feedbackRevoked agentId client index), bounded, parsed =>
      rw [publish, contract, interpret_feedbackRevoked bounded.1 _ _ bounded.2]
        at parsed
      cases parsed
      exact ⟨fun _ same => (by cases same), fun _ same => (by cases same),
        by simp [ParsedEvent.creates?, registers?], rfl, rfl, rfl, rfl⟩
  | .reputation (.responseAppended agentId client responder index responseUri
      responseHash), bounded, parsed =>
      rw [publish, contract, interpret_responseAppended bounded.1 _ _
        bounded.2] at parsed
      cases parsed
      exact ⟨fun _ same => (by cases same), fun _ same => (by cases same),
        by simp [ParsedEvent.creates?, registers?], rfl, rfl, rfl, rfl⟩
  | .validation (.validationRequest validator agentId requestHash requestUri),
      bounded, parsed =>
      rw [publish, contract, interpret_validationRequest bounded] at parsed
      cases parsed
      exact ⟨fun _ same => (by cases same), fun _ same => (by cases same; rfl),
        by simp [ParsedEvent.creates?, registers?], rfl, rfl, rfl, rfl⟩
  | .validation (.validationResponse validator agentId requestHash response
      responseUri responseHash tag), bounded, parsed =>
      rw [publish, contract, interpret_validationResponse bounded.1 _ _ _
        bounded.2] at parsed
      cases parsed
      exact ⟨fun _ same => (by cases same), fun _ same => (by cases same),
        by simp [ParsedEvent.creates?, registers?], rfl, rfl, rfl, rfl⟩

/-- Every event that creates or touches a row outside the agents', or
registers an agent, has a packet. -/
theorem ContractEvent.exists_packet {event : ContractEvent}
    (bounded : event.Bounded) (stamp : Stamp)
    (named : event.registers?.isSome = true ∨
      event.feedback?.isSome = true ∨ event.request?.isSome = true) :
    ∃ packet, packetOf event.contract (event.publish.response stamp) =
      some packet := by
  have accepted : ∀ data, interpret event.contract
      (event.publish.response stamp) = .parsed data →
      ∃ packet, packetOf event.contract (event.publish.response stamp) =
        some packet := by
    intro data parsed
    exact ⟨{ id := stamp.id, contract := event.contract, data },
      packetOf_eq_some.mpr ⟨parsed, rfl, rfl⟩⟩
  match event, bounded, named with
  | .identity (.registered agentId owner agentUri), bounded, _ =>
      exact accepted _ (interpret_registered (bounded agentId rfl) _ _ _)
  | .reputation (.newFeedback ..), bounded, _ =>
      exact accepted _ (interpret_newFeedback bounded.1 _ _ bounded.2.1
        bounded.2.2 _ _ _ _ _ _)
  | .reputation (.feedbackRevoked ..), bounded, _ =>
      exact accepted _ (interpret_feedbackRevoked bounded.1 _ _ bounded.2)
  | .reputation (.responseAppended ..), bounded, _ =>
      exact accepted _ (interpret_responseAppended bounded.1 _ _ bounded.2
        _ _ _)
  | .validation (.validationRequest ..), bounded, _ =>
      exact accepted _ (interpret_validationRequest bounded _ _ _ _)
  | .validation (.validationResponse ..), bounded, _ =>
      exact accepted _ (interpret_validationResponse bounded.1 _ _ _
        bounded.2 _ _ _)

/-! ## Packets of a log -/

section

variable {log : List (ContractEvent × Stamp)}

/-- The packet of a published event. -/
def packet? (entry : ContractEvent × Stamp) : Option EventPacket :=
  packetOf entry.1.contract (entry.1.publish.response entry.2)

theorem mem_packets {packet : EventPacket} :
    packet ∈ Chain.packets log ↔
      ∃ entry ∈ log, packet? entry = some packet :=
  List.mem_filterMap

theorem readFrom_of_packet? {entry : ContractEvent × Stamp}
    {packet : EventPacket} (read : packet? entry = some packet) :
    packet.data.ReadFrom entry.1.contract
        (entry.1.publish.response entry.2) ∧
      packet.id = entry.2.id ∧ packet.contract = entry.1.contract ∧
      packet.ledger = entry.2.ledger := by
  obtain ⟨parsed, isId, isContract⟩ := packetOf_eq_some.mp read
  have source := interpret_readFrom parsed
  refine ⟨source, isId, isContract, ?_⟩
  unfold EventPacket.ledger
  rw [source.base]
  rfl

theorem reads_of_packet? {entry : ContractEvent × Stamp}
    {packet : EventPacket} (bounded : entry.1.Bounded)
    (read : packet? entry = some packet) : entry.1.Reads packet.data :=
  ContractEvent.reads_of_parsed bounded (packetOf_eq_some.mp read).1

/-- A position in the packets is a position in the log. -/
theorem split_packets {before after : List EventPacket}
    {packet : EventPacket}
    (split : Chain.packets log = before ++ packet :: after) :
    ∃ front entry back, log = front ++ entry :: back ∧
      packet? entry = some packet ∧ Chain.packets front = before := by
  obtain ⟨front, rest, rfl, isFront, isRest⟩ :=
    List.filterMap_eq_append_iff.mp split
  obtain ⟨skipped, entry, back, rfl, silent, read, _⟩ :=
    List.filterMap_eq_cons_iff.mp isRest
  refine ⟨front ++ skipped, entry, back, by simp, read, ?_⟩
  have none : skipped.filterMap packet? = [] :=
    List.filterMap_eq_nil_iff.mpr silent
  unfold Chain.packets packetsOf
  rw [List.filterMap_append, isFront]
  change before ++ skipped.filterMap packet? = before
  rw [none, List.append_nil]

/-- Where feedback is given before it is touched in the log, so it is in the
packets. -/
theorem given_packets {state : ReputationState}
    (bounded : ∀ entry ∈ log, entry.1.Bounded) (given : Given state log) :
    ∀ before packet after, Chain.packets log = before ++ packet :: after →
      ∀ key, packet.data.feedback? = some key →
      packet.data.isNewFeedback = true ∨
        ∃ creator ∈ before, creator.data.isNewFeedback = true ∧
          creator.data.feedback? = some key := by
  intro before packet after split key touches
  obtain ⟨front, entry, back, isLog, read, isBefore⟩ := split_packets split
  have inside : entry ∈ log := by
    rw [isLog]
    exact List.mem_append_right _ List.mem_cons_self
  have reads := reads_of_packet? (bounded entry inside) read
  rw [reads.feedback] at touches
  obtain ⟨named, about, rfl⟩ := Option.map_eq_some_iff.mp touches
  rw [reads.gives]
  rcases given.given front entry back isLog named about with
    gives | ⟨giver, isGiver, gives, same⟩
  · exact .inl gives
  · have member : giver ∈ log := by
      rw [isLog]
      exact List.mem_append_left _ isGiver
    obtain ⟨created, isCreated⟩ := ContractEvent.exists_packet
      (bounded giver member) giver.2 (.inr (.inl (by rw [same]; rfl)))
    have reads := reads_of_packet? (bounded giver member) isCreated
    refine .inr ⟨created, ?_, reads.gives.trans gives, ?_⟩
    · rw [← isBefore]
      exact mem_packets.mpr ⟨giver, isGiver, isCreated⟩
    · rw [reads.feedback, same]
      rfl

/-- Where validation is requested before it is answered in the log, so it is
in the packets. -/
theorem requested_packets {state : ValidationState}
    (bounded : ∀ entry ∈ log, entry.1.Bounded)
    (requested : Requested state log) :
    ∀ before packet after, Chain.packets log = before ++ packet :: after →
      ∀ requestHash, packet.data.request? = some requestHash →
      packet.data.isValidationRequest = true ∨
        ∃ creator ∈ before, creator.data.isValidationRequest = true ∧
          creator.data.request? = some requestHash := by
  intro before packet after split requestHash touches
  obtain ⟨front, entry, back, isLog, read, isBefore⟩ := split_packets split
  have inside : entry ∈ log := by
    rw [isLog]
    exact List.mem_append_right _ List.mem_cons_self
  have reads := reads_of_packet? (bounded entry inside) read
  rw [reads.request] at touches
  obtain ⟨named, about, rfl⟩ := Option.map_eq_some_iff.mp touches
  rw [reads.requests]
  rcases requested.requested front entry back isLog named about with
    requests | ⟨requester, isRequester, requests, same⟩
  · exact .inl requests
  · have member : requester ∈ log := by
      rw [isLog]
      exact List.mem_append_left _ isRequester
    obtain ⟨created, isCreated⟩ := ContractEvent.exists_packet
      (bounded requester member) requester.2
      (.inr (.inr (by rw [same]; rfl)))
    have reads := reads_of_packet? (bounded requester member) isCreated
    refine .inr ⟨created, ?_, reads.requests.trans requests, ?_⟩
    · rw [← isBefore]
      exact mem_packets.mpr ⟨requester, isRequester, isCreated⟩
    · rw [reads.request, same]
      rfl

theorem timed_packets (runtime : Runtime)
    (closed : ∀ entry ∈ log,
      isoLayout entry.2.ledgerClosedAt.toList = true) :
    ∀ packet ∈ Chain.packets log, packet.data.Timed runtime := by
  intro packet member
  obtain ⟨entry, inside, read⟩ := mem_packets.mp member
  obtain ⟨source, _⟩ := readFrom_of_packet? read
  unfold ParsedEvent.Timed
  rw [source.base]
  exact ⟨_, pgTime_text (closed entry inside)⟩

theorem checked_packets :
    ∀ packet ∈ Chain.packets log, packet.data.Checked := by
  intro packet member
  obtain ⟨entry, _, read⟩ := mem_packets.mp member
  exact (readFrom_of_packet? read).1.checked

theorem eventIds_packets :
    ∀ packet ∈ Chain.packets log, ∀ e, packet.data = .responseAppended e →
      e.eventId = packet.id := by
  intro packet member e same
  obtain ⟨entry, _, read⟩ := mem_packets.mp member
  obtain ⟨source, isId, _⟩ := readFrom_of_packet? read
  exact (source.eventId e same).trans isId.symm

theorem ids_packets (distinct : (log.map fun entry => entry.2.id).Nodup) :
    ((Chain.packets log).map EventPacket.id).Nodup := by
  rw [List.Nodup, List.pairwise_map] at distinct ⊢
  refine List.Pairwise.filterMap _ ?_ distinct
  intro left right different first isFirst second isSecond
  rw [(readFrom_of_packet? isFirst).2.1, (readFrom_of_packet? isSecond).2.1]
  exact different

/-- The packets of every run of the three contracts are well formed. -/
theorem Run.wellFormed (runtime : Runtime) {chain : Chain}
    (run : Run Chain.Step Chain.initial chain log) :
    WellFormed runtime (Chain.packets log) := by
  have recorded := run.recorded
  refine ⟨?_, ?_, timed_packets runtime run.closed, checked_packets,
    eventIds_packets, ids_packets run.ids, ?_, ?_,
    given_packets recorded.bounded recorded.given,
    requested_packets recorded.bounded recorded.requested⟩
  · refine List.Pairwise.filterMap _ ?_ run.ordered
    intro left right earlier first isFirst second isSecond
    rw [(readFrom_of_packet? isFirst).2.2.2,
      (readFrom_of_packet? isSecond).2.2.2]
    exact earlier
  · intro packet member
    obtain ⟨entry, _, read⟩ := mem_packets.mp member
    obtain ⟨source, _, isContract, _⟩ := readFrom_of_packet? read
    exact source.kind.trans isContract.symm
  · intro packet member agent named
    obtain ⟨entry, inside, read⟩ := mem_packets.mp member
    have reads := reads_of_packet? (recorded.bounded entry inside) read
    have about : entry.1.agentId? = some agent := by
      rcases named with touches | isParent
      · exact ContractEvent.agentId?_of_identityAgent
          (reads.agent agent touches)
      · exact reads.parent agent isParent
    obtain ⟨creator, isCreator, registers, earlier⟩ :=
      recorded.registered.named entry inside agent about
    obtain ⟨created, isCreated⟩ := ContractEvent.exists_packet
      (recorded.bounded creator isCreator) creator.2
      (.inl (by rw [registers]; rfl))
    have creates := (reads_of_packet? (recorded.bounded creator isCreator)
      isCreated).creates agent
    refine ⟨created, mem_packets.mpr ⟨creator, isCreator, isCreated⟩,
      creates.mpr registers, ?_⟩
    rw [(readFrom_of_packet? isCreated).2.2.2,
      (readFrom_of_packet? read).2.2.2]
    exact earlier
  · intro creator first packet second agent creates touches
    obtain ⟨registration, isRegistration, isCreator⟩ := mem_packets.mp first
    obtain ⟨entry, inside, read⟩ := mem_packets.mp second
    rw [(readFrom_of_packet? isCreator).2.2.2,
      (readFrom_of_packet? read).2.2.2]
    exact recorded.registered.earliest registration isRegistration entry
      inside agent
      (((reads_of_packet? (recorded.bounded registration isRegistration)
        isCreator).creates agent).mp creates)
      ((reads_of_packet? (recorded.bounded entry inside) read).agent agent
        touches)

end

end Stellar8004.Contracts
