import Stellar8004.Contracts.ReputationRefinement

/-!
# The validation table refines the validation registry

A row of `validations` is a request of the registry and, once the validator
has responded, its latest response; later responses of the same ledger count.
Tags are texts to the indexer: bytes that are not UTF-8 are stored as the
decoder reads them.
-/

namespace Stellar8004.Contracts

open Stellar8004.Indexer

/-- One successful call, whatever the identity registry answers. -/
def ValidationState.Step (state : ValidationState) (ledger : Nat)
    (after : ValidationState) (events : List ValidationEvent) : Prop :=
  ∃ identity request, state.call identity ledger request =
    .ok (after, events)

/-! ## What is read -/

/-- The parsed form of an event. -/
def ValidationEvent.parsed (stamp : Stamp) : ValidationEvent → ParsedEvent
  | validationRequest validatorAddress agentId requestHash requestUri =>
      .validationRequest
        { stamp.base with
          validatorAddress := StrKey.encode validatorAddress, agentId
          requestHash := hexText requestHash
          requestUri := decodeText requestUri }
  | validationResponse validatorAddress agentId requestHash response
      responseUri responseHash tag => .validationResponse
      { stamp.base with
        validatorAddress := StrKey.encode validatorAddress, agentId
        requestHash := hexText requestHash, response
        responseUri := decodeText responseUri
        responseHash := hexText responseHash, tag := decodeText tag }

theorem ValidationEvent.packetOf_bounded {event : ValidationEvent}
    (bounded : (ContractEvent.validation event).Bounded) (stamp : Stamp) :
    packetOf .validation (event.publish.response stamp) =
      some
        { id := stamp.id, contract := .validation
          data := event.parsed stamp } := by
  apply packetOf_eq_some.mpr
  refine ⟨?_, rfl, rfl⟩
  cases event with
  | validationRequest => exact interpret_validationRequest bounded _ _ _ _
  | validationResponse =>
      exact interpret_validationResponse bounded.1 _ _ _ bounded.2 _ _ _

/-- The packets of a validation log. -/
def validationPackets (log : List (ValidationEvent × Stamp)) :
    List EventPacket :=
  packetsOf (fun _ => .validation) ValidationEvent.publish log

/-- The same log among the events of all contracts. -/
def ofValidation (log : List (ValidationEvent × Stamp)) :
    List (ContractEvent × Stamp) :=
  log.map (Prod.map ContractEvent.validation id)

theorem packets_ofValidation (log : List (ValidationEvent × Stamp)) :
    Chain.packets (ofValidation log) = validationPackets log := by
  unfold Chain.packets validationPackets packetsOf ofValidation
  rw [List.filterMap_map]
  rfl

theorem data_validationPackets {log : List (ValidationEvent × Stamp)}
    (bounded : ∀ entry ∈ ofValidation log, entry.1.Bounded) :
    (validationPackets log).map EventPacket.data =
      log.map fun entry => entry.1.parsed entry.2 := by
  unfold validationPackets packetsOf
  rw [List.map_filterMap, ← List.filterMap_eq_map]
  apply List.filterMap_congr
  intro entry member
  rw [ValidationEvent.packetOf_bounded
    (bounded _ (List.mem_map_of_mem member)) entry.2]
  rfl

/-! ## Cells -/

/-- The row the events of a log write. -/
def writtenValidation (runtime : Runtime)
    (log : List (ValidationEvent × Stamp)) (requestHash : String) :
    Option ValidationRow :=
  ((log.map fun entry => entry.1.parsed entry.2).filter
    (·.request? = some requestHash)).foldl (stepValidation runtime) none

theorem writtenValidation_concat (runtime : Runtime)
    (log : List (ValidationEvent × Stamp)) (entry : ValidationEvent × Stamp)
    (requestHash : String) :
    writtenValidation runtime (log ++ [entry]) requestHash =
      if (entry.1.parsed entry.2).request? = some requestHash then
        stepValidation runtime (writtenValidation runtime log requestHash)
          (entry.1.parsed entry.2)
      else writtenValidation runtime log requestHash := by
  unfold writtenValidation
  rw [List.map_append, List.filter_append, List.foldl_append]
  by_cases touches : (entry.1.parsed entry.2).request? = some requestHash
  · simp [touches]
  · simp [touches]

/-- A row holds a request and the latest response to it. -/
structure RowOfRequest (status : ValidationStatus) (row : ValidationRow) :
    Prop where
  agentId : row.agentId = status.agentId
  validatorAddress :
    row.validatorAddress = StrKey.encode status.validatorAddress
  hasResponse : row.hasResponse = status.hasResponse
  response : status.hasResponse = true → row.response = some status.response
  responseHash : status.hasResponse = true →
    row.responseHash = some (hexText status.responseHash)
  tag : status.hasResponse = true → row.tag = orNull (decodeText status.tag)

/-- A log writes what its registry stores. -/
structure FollowsRequests (runtime : Runtime) (state : ValidationState)
    (log : List (ValidationEvent × Stamp)) : Prop where
  rows : ∀ requestHash,
    (writtenValidation runtime log (hexText requestHash)).isSome =
      (state.validation requestHash).isSome
  columns : ∀ requestHash row status,
    writtenValidation runtime log (hexText requestHash) = some row →
    state.validation requestHash = some status → RowOfRequest status row
  /-- The ledger a row is guarded by is one of the log's. -/
  ledgers : ∀ requestHash row ledger,
    writtenValidation runtime log (hexText requestHash) = some row →
    row.responseLedger = some ledger →
    ∃ entry ∈ log, entry.2.ledger = ledger
  elsewhere : ∀ text, (∀ requestHash, text ≠ hexText requestHash) →
    writtenValidation runtime log text = none

section

variable {runtime : Runtime} {state after : ValidationState}
  {log : List (ValidationEvent × Stamp)} {event : ValidationEvent}
  {stamp : Stamp} {requestHash : Vector UInt8 32}

/-- A call about one request leaves the others alone. -/
theorem FollowsRequests.touched (follows : FollowsRequests runtime state log)
    (about : (event.parsed stamp).request? = some (hexText requestHash))
    (others : ∀ other, other ≠ requestHash →
      after.validation other = state.validation other)
    {row : ValidationRow} {status : ValidationStatus}
    (isRow : stepValidation runtime
      (writtenValidation runtime log (hexText requestHash))
      (event.parsed stamp) = some row)
    (isStatus : after.validation requestHash = some status)
    (rowOf : RowOfRequest status row)
    (stamped : ∀ ledger, row.responseLedger = some ledger →
      ledger = stamp.ledger) :
    FollowsRequests runtime after (log ++ [(event, stamp)]) := by
  have here : writtenValidation runtime (log ++ [(event, stamp)])
      (hexText requestHash) = some row := by
    rw [writtenValidation_concat, if_pos about, isRow]
  have there : ∀ text, text ≠ hexText requestHash →
      writtenValidation runtime (log ++ [(event, stamp)]) text =
        writtenValidation runtime log text := by
    intro text other
    rw [writtenValidation_concat, if_neg]
    rw [about]
    exact fun same => other (Option.some.inj same).symm
  have different : ∀ {other}, other ≠ requestHash →
      hexText other ≠ hexText requestHash :=
    fun other same => other (hexText_injective same)
  refine ⟨?_, ?_, ?_, ?_⟩
  · intro other
    by_cases same : other = requestHash
    · rw [same, here, isStatus]
      rfl
    · rw [there _ (different same), others other same]
      exact follows.rows other
  · intro other found stored isFound isStored
    by_cases same : other = requestHash
    · subst same
      rw [here] at isFound
      rw [isStatus] at isStored
      cases isFound
      cases isStored
      exact rowOf
    · rw [there _ (different same)] at isFound
      rw [others other same] at isStored
      exact follows.columns other found stored isFound isStored
  · intro other found ledger isFound isLedger
    by_cases same : other = requestHash
    · subst same
      rw [here] at isFound
      cases isFound
      refine ⟨(event, stamp), by simp, ?_⟩
      exact (stamped ledger isLedger).symm
    · rw [there _ (different same)] at isFound
      obtain ⟨entry, member, isEntry⟩ :=
        follows.ledgers other found ledger isFound isLedger
      exact ⟨entry, List.mem_append_left _ member, isEntry⟩
  · intro text unnamed
    rw [there text (unnamed requestHash)]
    exact follows.elsewhere text unnamed

theorem FollowsRequests.initial (runtime : Runtime) :
    FollowsRequests runtime .initial [] where
  rows _ := rfl
  columns _ _ _ found := by cases found
  ledgers _ _ _ found := by cases found
  elsewhere _ _ := rfl

end

theorem Run.followsRequests (runtime : Runtime) {state : ValidationState}
    {log : List (ValidationEvent × Stamp)}
    (run : Run ValidationState.Step .initial state log) :
    FollowsRequests runtime state log := by
  induction run with
  | start => exact FollowsRequests.initial runtime
  | @call before after log prior ledger events stamps step length stamped
      follows =>
      obtain ⟨identity, request, success⟩ := step
      have performs := ValidationState.call_performs success
      have single : ∀ event, events = [event] →
          ∃ stamp, stamps = [stamp] ∧ stamp.ledger = ledger := by
        intro event isEvent
        rw [isEvent] at length
        obtain ⟨stamp, rfl⟩ := List.length_eq_one_iff.mp length
        exact ⟨stamp, rfl, stamped.ledgers stamp List.mem_cons_self⟩
      cases performs with
      | validationRequest after validatorAddress agentId requestUri
          requestHash living fresh stored =>
          obtain ⟨stamp, rfl, here⟩ := single _ rfl
          have absent : writtenValidation runtime log
              (hexText requestHash) = none := by
            have rows := follows.rows requestHash
            rw [fresh] at rows
            simpa using rows
          refine follows.touched rfl ?_ (by rw [absent]; rfl)
            (by rw [stored, Function.update_self]) ?_ ?_
          · intro other different
            rw [stored, Function.update_of_ne different]
          · exact ⟨rfl, rfl, rfl, nofun, nofun, nofun⟩
          · intro other isOther
            cases isOther
      | validationResponse status requestHash response responseUri
          responseHash tag small found =>
          obtain ⟨stamp, rfl, here⟩ := single _ rfl
          obtain ⟨row, isRow⟩ : ∃ row, writtenValidation runtime log
              (hexText requestHash) = some row := by
            apply Option.isSome_iff_exists.mp
            rw [follows.rows, found]
            rfl
          have rowOf := follows.columns requestHash row status isRow found
          -- The guard compares with a ledger of the log, none of which is
          -- later than this call's.
          have admitted : row.responseLedger.all (· ≤ stamp.ledger) = true := by
            cases held : row.responseLedger with
            | none => rfl
            | some guarded =>
                obtain ⟨entry, member, isEntry⟩ :=
                  follows.ledgers requestHash row guarded isRow held
                have earlier := stamped.later entry.2
                  (List.mem_map_of_mem member)
                rw [isEntry] at earlier
                simpa [here] using earlier
          have hash : orNull (hexText responseHash) =
              some (hexText responseHash) := by
            have length := length_hexText responseHash
            unfold orNull
            rw [if_neg]
            intro empty
            rw [empty] at length
            cases length
          have answered : ∀ e : ValidationResponseEvent,
              e.ledger = stamp.ledger →
              (answerStore runtime).apply row.answer e =
                (answerStore runtime).written e := by
            intro e same
            rw [← same] at admitted
            exact (if_pos admitted).trans rfl
          refine follows.touched rfl ?_ (by
              rw [isRow]
              exact congrArg (some ∘ row.withAnswer) (answered _ rfl))
            (Function.update_self ..) ?_ ?_
          · intro other different
            simp [ValidationState.setValidation,
              Function.update_of_ne different]
          · exact ⟨rowOf.agentId, rowOf.validatorAddress, rfl, fun _ => rfl,
              fun _ => hash, fun _ => rfl⟩
          · intro other isOther
            exact (Option.some.inj isOther).symm

theorem Run.validation_recorded {state : ValidationState}
    {log : List (ValidationEvent × Stamp)}
    (run : Run ValidationState.Step .initial state log) :
    Requested state (ofValidation log) ∧
      ∀ entry ∈ ofValidation log, entry.1.Bounded := by
  induction run with
  | start =>
      refine ⟨⟨?_, by simp [ofValidation]⟩, by simp [ofValidation]⟩
      intro requestHash status found
      cases found
  | call prior ledger events stamps step length stamped induction =>
      obtain ⟨identity, request, success⟩ := step
      obtain ⟨requested, bounded⟩ := induction
      have performs := ValidationState.call_performs success
      have appended : Appended (ofValidation _) ledger
          (events.map ContractEvent.validation)
          ((events.map ContractEvent.validation).zip stamps) :=
        .of_stamped (by simpa using length) (by
          unfold ofValidation
          rw [List.map_map]
          exact stamped)
      have grown : ∀ log : List (ValidationEvent × Stamp),
          ofValidation (log ++ events.zip stamps) = ofValidation log ++
            (events.map ContractEvent.validation).zip stamps := by
        intro log
        unfold ofValidation
        rw [List.map_append, List.zip_map_left]
      rw [grown]
      refine ⟨requested.validation performs appended, ?_⟩
      intro entry member
      rcases List.mem_append.mp member with old | new
      · exact bounded entry old
      · obtain ⟨event, isEvent, same⟩ :=
          List.mem_map.mp (List.of_mem_zip new).1
        rw [← same]
        exact bounded_validation requested performs event isEvent

/-! ## Refinement -/

/-- The rows of `validations` are the registry's requests. -/
structure RefinesValidation (tables : Tables) (state : ValidationState) :
    Prop where
  rows : ∀ requestHash,
    (tables.validations (hexText requestHash)).isSome =
      state.requestExists requestHash
  columns : ∀ requestHash row status,
    tables.validations (hexText requestHash) = some row →
    state.getValidationStatus requestHash = .ok status →
    RowOfRequest status row
  nothingElse : ∀ text, (∀ requestHash, text ≠ hexText requestHash) →
    tables.validations text = none

/-- Who is to validate which agent stays as requested. -/
theorem stepValidation_keeps (runtime : Runtime) (events : List ParsedEvent)
    {row : ValidationRow} :
    ∃ final, events.foldl (stepValidation runtime) (some row) = some final ∧
      final.agentId = row.agentId ∧
      final.validatorAddress = row.validatorAddress :=
  ⟨_, foldl_stepValidation_some runtime events row, rfl, rfl⟩

section

variable {state : ValidationState} {log : List (ValidationEvent × Stamp)}
  {database : Tables} {writes : List (String × EventPacket)}

theorem refinesValidation_of_cells {runtime : Runtime} {tables : Tables}
    (follows : FollowsRequests runtime state log)
    (cells : ∀ text, tables.validations text =
      writtenValidation runtime log text) :
    RefinesValidation tables state := by
  refine ⟨?_, ?_, ?_⟩
  · intro requestHash
    rw [cells]
    exact follows.rows requestHash
  · intro requestHash row status found stored
    rw [cells] at found
    refine follows.columns requestHash row status found ?_
    unfold ValidationState.getValidationStatus at stored
    cases kept : state.validation requestHash with
    | none => simp [kept] at stored
    | some other =>
        rw [kept] at stored
        cases stored
        rfl
  · intro text unnamed
    rw [cells]
    exact follows.elsewhere text unnamed

/-- A run's events, applied in order to a database with its agents. -/
theorem Run.validation_written (runtime : Runtime)
    (run : Run ValidationState.Step .initial state log)
    (noValidations : ∀ text, database.validations text = none)
    (agents : ∀ entry ∈ log, ∀ agent,
      (ContractEvent.validation entry.1).agentId? = some agent →
      (database.agents agent).isSome = true)
    (inOrder : writes.map Prod.snd = validationPackets log) :
    ∃ tables, writeAll runtime writes database = .ok tables ∧
      RefinesValidation tables state := by
  obtain ⟨requested, bounded⟩ := run.validation_recorded
  have events : writtenEvents writes =
      (Chain.packets (ofValidation log)).map EventPacket.data := by
    rw [packets_ofValidation, ← inOrder, List.map_map]
    rfl
  have member : ∀ event ∈ writtenEvents writes,
      ∃ packet ∈ Chain.packets (ofValidation log), packet.data = event := by
    intro event isEvent
    rw [events] at isEvent
    exact List.mem_map.mp isEvent
  have closed : ∀ entry ∈ ofValidation log,
      isoLayout entry.2.ledgerClosedAt.toList = true := by
    intro entry inside
    obtain ⟨original, isOriginal, rfl⟩ := List.mem_map.mp inside
    exact run.closed original isOriginal
  have supplied : Supplied database.Has (writtenEvents writes) := by
    apply Supplied.of_has
    intro event isEvent parent isParent
    obtain ⟨packet, isPacket, rfl⟩ := member event isEvent
    obtain ⟨entry, inside, read⟩ := mem_packets.mp isPacket
    have reads := reads_of_packet? (bounded entry inside) read
    obtain ⟨original, isOriginal, rfl⟩ := List.mem_map.mp inside
    cases parent with
    | agent agent =>
        exact agents original isOriginal agent (reads.parent agent isParent)
    | feedback key =>
        obtain ⟨about, _⟩ := ParsedEvent.parent?_feedback isParent
        rw [reads.feedback] at about
        cases about
  obtain ⟨tables, written⟩ := writeAll_ok
    (fun event isEvent => by
      obtain ⟨packet, inside, rfl⟩ := member event isEvent
      exact timed_packets runtime closed packet inside)
    (fun event isEvent => by
      obtain ⟨packet, inside, rfl⟩ := member event isEvent
      exact checked_packets packet inside) supplied
  have cells : ∀ text, tables.validations text =
      writtenValidation runtime log text := by
    intro text
    rw [validations_writeAll written, noValidations, events,
      packets_ofValidation, data_validationPackets bounded]
    rfl
  exact ⟨tables, written,
    refinesValidation_of_cells (run.followsRequests runtime) cells⟩

end

/-- A request for the agent and a response whose tag is no UTF-8. -/
def tagLog : List (ValidationEvent × Stamp) :=
  [(.validationRequest secondOwner 0 (Vector.replicate 32 4)
      ByteArray.empty, stampAt 9 "9-0"),
    (.validationResponse secondOwner 0 (Vector.replicate 32 4) 90
      ByteArray.empty (Vector.replicate 32 5) ⟨#[0xff]⟩, stampAt 9 "9-1")]

theorem tagLog_run : ∃ state,
    Run ValidationState.Step .initial state tagLog ∧
      state.getValidationStatus (Vector.replicate 32 4) = .ok
        { validatorAddress := secondOwner, agentId := 0, response := 90
          responseHash := Vector.replicate 32 5, tag := ⟨#[0xff]⟩
          lastUpdate := 9, hasResponse := true } := by
  have requested : Run ValidationState.Step .initial _ (tagLog.take 1) :=
    .call .start 9 ((tagLog.take 1).map Prod.fst)
      ((tagLog.take 1).map Prod.snd)
      ⟨{ findOwner := fun _ => some firstOwner, getApproved := fun _ => none
         isApprovedForAll := fun _ _ => false },
        .validationRequest firstOwner secondOwner 0 ByteArray.empty
          (Vector.replicate 32 4), rfl⟩ rfl
      ⟨by decide, by decide, by decide, by decide, by decide⟩
  exact ⟨_, .call requested 9 ((tagLog.drop 1).map Prod.fst)
    ((tagLog.drop 1).map Prod.snd)
    ⟨{ findOwner := fun _ => some firstOwner, getApproved := fun _ => none
       isApprovedForAll := fun _ _ => false },
      .validationResponse secondOwner (Vector.replicate 32 4) 90
        ByteArray.empty (Vector.replicate 32 5) ⟨#[0xff]⟩, rfl⟩ rfl
    ⟨by decide, by decide, by decide, by decide, by decide⟩, rfl⟩

theorem oneAgent_of_tagLog : ∀ entry ∈ tagLog, ∀ agent,
    (ContractEvent.validation entry.1).agentId? = some agent →
    (oneAgent.agents agent).isSome = true := by
  simp [tagLog, ContractEvent.agentId?, oneAgent, Tables.setAgent]

/-- The stored tag is not the registry's. -/
theorem tag_differs_tagLog :
    ∃ state tables row status,
      Run ValidationState.Step .initial state tagLog ∧
      writeAll { parseDate := fun _ => none, callDepth := 0 }
        ((validationPackets tagLog).map fun packet =>
          ("2026-01-01T00:00:00.000+00:00", packet)) oneAgent =
            .ok tables ∧
      tables.validations (hexText (Vector.replicate 32 4)) = some row ∧
      state.getValidationStatus (Vector.replicate 32 4) = .ok status ∧
      row.tag.map utf8 ≠ nullable status.tag := by
  obtain ⟨state, run, isStatus⟩ := tagLog_run
  obtain ⟨tables, written, refines⟩ := run.validation_written
    { parseDate := fun _ => none, callDepth := 0 } (fun _ => rfl)
    oneAgent_of_tagLog
    (show ((validationPackets tagLog).map fun packet =>
      ("2026-01-01T00:00:00.000+00:00", packet)).map Prod.snd = _ by
        simp [Function.comp_def])
  have present : (tables.validations
      (hexText (Vector.replicate 32 4))).isSome = true := by
    rw [refines.rows]
    unfold ValidationState.getValidationStatus at isStatus
    unfold ValidationState.requestExists
    cases kept : state.validation (Vector.replicate 32 4) with
    | none => simp [kept] at isStatus
    | some status => rfl
  obtain ⟨row, isRow⟩ := Option.isSome_iff_exists.mp present
  have tag := (refines.columns _ row _ isRow isStatus).tag rfl
  refine ⟨state, tables, row, _, run, written, isRow, isStatus, ?_⟩
  rw [tag]
  decide +kernel

section

variable {state : ValidationState} {log : List (ValidationEvent × Stamp)}
  {database : Tables} {writes : List (String × EventPacket)}

/-- A run's events, applied in order to a database with its agents, fail no
statement and leave the registry's requests and latest responses; agent and
validator of a row never change on the way. -/
theorem validation_tables_refine (runtime : Runtime)
    (run : Run ValidationState.Step .initial state log)
    (noValidations : ∀ text, database.validations text = none)
    (agents : ∀ entry ∈ log, ∀ agent,
      (ContractEvent.validation entry.1).agentId? = some agent →
      (database.agents agent).isSome = true)
    (inOrder : writes.map Prod.snd = validationPackets log) :
    ∃ tables, writeAll runtime writes database = .ok tables ∧
      RefinesValidation tables state ∧
      ∀ early late, writes = early ++ late →
        ∃ midway, writeAll runtime early database = .ok midway ∧
          ∀ text row, midway.validations text = some row →
            ∃ final, tables.validations text = some final ∧
              final.agentId = row.agentId ∧
              final.validatorAddress = row.validatorAddress := by
  obtain ⟨tables, written, refines⟩ :=
    run.validation_written runtime noValidations agents inOrder
  refine ⟨tables, written, refines, ?_⟩
  rintro early late rfl
  rw [writeAll_append] at written
  cases first : writeAll runtime early database with
  | error failure => simp [first] at written
  | ok midway =>
      rw [first] at written
      refine ⟨midway, rfl, ?_⟩
      intro text row found
      rw [validations_writeAll written text, found]
      exact stepValidation_keeps runtime _

end

theorem validation_tables_refine_tagLog :
    ∃ state tables, Run ValidationState.Step .initial state tagLog ∧
      writeAll { parseDate := fun _ => none, callDepth := 0 }
        ((validationPackets tagLog).map fun packet =>
          ("2026-01-01T00:00:00.000+00:00", packet)) oneAgent =
            .ok tables ∧
      RefinesValidation tables state := by
  obtain ⟨state, run, _⟩ := tagLog_run
  obtain ⟨tables, written, refines, _⟩ := validation_tables_refine
    { parseDate := fun _ => none, callDepth := 0 } run (fun _ => rfl)
    oneAgent_of_tagLog
    (show ((validationPackets tagLog).map fun packet =>
      ("2026-01-01T00:00:00.000+00:00", packet)).map Prod.snd = _ by
        simp [Function.comp_def])
  exact ⟨state, tables, run, written, refines⟩

end Stellar8004.Contracts
