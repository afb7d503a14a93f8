import Stellar8004.Contracts.Packets
import Stellar8004.Indexer.Convergence

/-!
# The reputation tables refine the reputation registry

Feedback rows are the registry's entries and their responses are numbered in
the order they were appended, whatever the identity registry answers.  The
database need only have a row for every agent that is given feedback.
-/

namespace Stellar8004.Contracts

open Stellar8004.Indexer

/-- Bytes that are UTF-8. -/
def ValidText (bytes : Bytes) : Prop := ∃ text : String, utf8 text = bytes

/-- How a text is stored in a nullable column: empty as NULL. -/
def nullable (bytes : Bytes) : Option Bytes :=
  if bytes = ByteArray.empty then none else some bytes

theorem orNull_decodeText {bytes : Bytes} (valid : ValidText bytes) :
    (orNull (decodeText bytes)).map utf8 = nullable bytes := by
  obtain ⟨text, rfl⟩ := valid
  rw [decodeText_utf8]
  by_cases empty : text = ""
  · subst empty
    rfl
  · have some : utf8 text ≠ ByteArray.empty := by
      intro same
      exact empty (utf8_injective same)
    simp [orNull, nullable, empty, some]

/-- One successful call whose texts are UTF-8, whatever the identity registry
answers. -/
def ReputationState.Step (state : ReputationState) (_ledger : Nat)
    (after : ReputationState) (events : List ReputationEvent) : Prop :=
  ∃ identity request, (∀ text ∈ request.texts, ValidText text) ∧
    state.call identity request = .ok (after, events)

/-! ## What is read -/

/-- The parsed form of an event. -/
def ReputationEvent.parsed (stamp : Stamp) : ReputationEvent → ParsedEvent
  | newFeedback agentId clientAddress feedbackIndex value valueDecimals tag1
      tag2 endpoint feedbackUri feedbackHash => .newFeedback
      { stamp.base with
        agentId, clientAddress := StrKey.encode clientAddress
        feedbackIndex, value, valueDecimals, tag1 := decodeText tag1
        tag2 := decodeText tag2, endpoint := decodeText endpoint
        feedbackUri := decodeText feedbackUri
        feedbackHash := hexText feedbackHash }
  | feedbackRevoked agentId clientAddress feedbackIndex => .feedbackRevoked
      { stamp.base with
        agentId, clientAddress := StrKey.encode clientAddress
        feedbackIndex }
  | responseAppended agentId clientAddress responder feedbackIndex responseUri
      responseHash => .responseAppended
      { stamp.base with
        agentId, clientAddress := StrKey.encode clientAddress
        responder := StrKey.encode responder, feedbackIndex
        responseUri := decodeText responseUri
        responseHash := hexText responseHash, eventId := stamp.id }

theorem ReputationEvent.packetOf_bounded {event : ReputationEvent}
    (bounded : (ContractEvent.reputation event).Bounded) (stamp : Stamp) :
    packetOf .reputation (event.publish.response stamp) =
      some
        { id := stamp.id, contract := .reputation
          data := event.parsed stamp } := by
  apply packetOf_eq_some.mpr
  refine ⟨?_, rfl, rfl⟩
  cases event with
  | newFeedback =>
      exact interpret_newFeedback bounded.1 _ _ bounded.2.1 bounded.2.2 _ _ _
        _ _ _
  | feedbackRevoked =>
      exact interpret_feedbackRevoked bounded.1 _ _ bounded.2
  | responseAppended =>
      exact interpret_responseAppended bounded.1 _ _ bounded.2 _ _ _

/-- The packets of a reputation log. -/
def reputationPackets (log : List (ReputationEvent × Stamp)) :
    List EventPacket :=
  packetsOf (fun _ => .reputation) ReputationEvent.publish log

/-- The same log among the events of all contracts. -/
def ofReputation (log : List (ReputationEvent × Stamp)) :
    List (ContractEvent × Stamp) :=
  log.map (Prod.map ContractEvent.reputation id)

theorem packets_ofReputation (log : List (ReputationEvent × Stamp)) :
    Chain.packets (ofReputation log) = reputationPackets log := by
  unfold Chain.packets reputationPackets packetsOf ofReputation
  rw [List.filterMap_map]
  rfl

theorem data_reputationPackets {log : List (ReputationEvent × Stamp)}
    (bounded : ∀ entry ∈ ofReputation log, entry.1.Bounded) :
    (reputationPackets log).map EventPacket.data =
      log.map fun entry => entry.1.parsed entry.2 := by
  unfold reputationPackets packetsOf
  rw [List.map_filterMap, ← List.filterMap_eq_map]
  apply List.filterMap_congr
  intro entry member
  rw [ReputationEvent.packetOf_bounded
    (bounded _ (List.mem_map_of_mem member)) entry.2]
  rfl

/-! ## Cells -/

/-- The cell the events of a log write. -/
def writtenFeedback (runtime : Runtime)
    (log : List (ReputationEvent × Stamp)) (key : FeedbackKey) :
    FeedbackCell :=
  ((log.map fun entry => entry.1.parsed entry.2).filter
    (·.feedback? = some key)).foldl (stepFeedback runtime)
      { row := none, responses := [] }

theorem writtenFeedback_concat (runtime : Runtime)
    (log : List (ReputationEvent × Stamp)) (entry : ReputationEvent × Stamp)
    (key : FeedbackKey) :
    writtenFeedback runtime (log ++ [entry]) key =
      if (entry.1.parsed entry.2).feedback? = some key then
        stepFeedback runtime (writtenFeedback runtime log key)
          (entry.1.parsed entry.2)
      else writtenFeedback runtime log key := by
  unfold writtenFeedback
  rw [List.map_append, List.filter_append, List.foldl_append]
  by_cases touches : (entry.1.parsed entry.2).feedback? = some key
  · simp [touches]
  · simp [touches]

/-- The identifiers of the responses to one feedback, in the order they were
appended. -/
def responseIds (log : List (ReputationEvent × Stamp)) (agentId : Nat)
    (client : Address) (index : Nat) : List String :=
  log.filterMap fun entry =>
    match entry.1 with
    | .responseAppended agent clientAddress _ feedbackIndex _ _ =>
        if (agent, clientAddress, feedbackIndex) = (agentId, client, index)
        then some entry.2.id else none
    | _ => none

/-- A row holds what the registry stores. -/
structure RowOf (data : FeedbackData) (row : FeedbackRow) : Prop where
  value : row.value = toString data.value
  valueDecimals : row.valueDecimals = data.valueDecimals
  tag1 : row.tag1.map utf8 = nullable data.tag1
  tag2 : row.tag2.map utf8 = nullable data.tag2
  isRevoked : row.isRevoked = data.isRevoked

/-- A cell holds an entry of the registry, or nothing. -/
structure CellOfFeedback (data : Option FeedbackData) (count : Nat)
    (ids : List String) (key : FeedbackKey) (cell : FeedbackCell) : Prop where
  exists_iff : cell.row.isSome = data.isSome
  row : ∀ row stored, cell.row = some row → data = some stored →
    RowOf stored row
  standing : ∀ row, cell.row = some row → row.isRevoked = false →
    row.revokedLedger = none
  numbers : cell.responses.map ResponseRow.responseIndex =
    List.range' 1 count
  ids : cell.responses.map ResponseRow.eventId = ids
  keys : ∀ response ∈ cell.responses, response.key = key

theorem CellOfFeedback.blank (key : FeedbackKey) :
    CellOfFeedback none 0 [] key { row := none, responses := [] } where
  exists_iff := rfl
  row _ _ found := by cases found
  standing _ found := by cases found
  numbers := rfl
  ids := rfl
  keys _ member := by cases member

/-- The key of an entry whose index fits a signed 64-bit integer. -/
def plainKey (agentId : Nat) (client : Address) (index : Nat) :
    FeedbackKey :=
  { agentId, clientAddress := StrKey.encode client, feedbackIndex := index }

theorem feedbackKey_plain {agentId : Nat} {client : Address} {index : Nat}
    (small : index < 2 ^ 63) :
    feedbackKey agentId (StrKey.encode client) index =
      plainKey agentId client index := by
  unfold feedbackKey plainKey integerAffinity
  rw [if_pos small]

theorem plainKey_injective {agentId other : Nat} {client client' : Address}
    {index index' : Nat}
    (same : plainKey agentId client index = plainKey other client' index') :
    (agentId, client, index) = (other, client', index') := by
  simp only [plainKey, FeedbackKey.mk.injEq] at same
  rw [same.1, encode_injective same.2.1, same.2.2]

/-- A log writes what its registry stores. -/
structure Follows (runtime : Runtime) (state : ReputationState)
    (log : List (ReputationEvent × Stamp)) : Prop where
  stored : ∀ agentId client index data,
    state.feedback agentId client index = some data →
    index ≤ state.lastIndex agentId client ∧ ValidText data.tag1 ∧
      ValidText data.tag2
  unanswered : ∀ agentId client index,
    state.feedback agentId client index = none →
    state.responseCount agentId client index = 0 ∧
      responseIds log agentId client index = []
  cells : ∀ agentId client index, index < 2 ^ 63 →
    CellOfFeedback (state.feedback agentId client index)
      (state.responseCount agentId client index)
      (responseIds log agentId client index) (plainKey agentId client index)
      (writtenFeedback runtime log (plainKey agentId client index))
  elsewhere : ∀ key, (∀ agentId client index, index < 2 ^ 63 →
      key ≠ plainKey agentId client index) →
    writtenFeedback runtime log key = { row := none, responses := [] }

theorem Follows.initial (runtime : Runtime) :
    Follows runtime .initial [] where
  stored _ _ _ _ found := by cases found
  unanswered _ _ _ _ := ⟨rfl, rfl⟩
  cells _ _ _ _ := CellOfFeedback.blank _
  elsewhere _ _ := rfl

section

variable {runtime : Runtime} {state after : ReputationState}
  {log : List (ReputationEvent × Stamp)} {event : ReputationEvent}
  {stamp : Stamp} {agentId : Nat} {client : Address} {index : Nat}

/-- A call about one entry leaves the others alone. -/
theorem Follows.touched (follows : Follows runtime state log)
    (small : index < 2 ^ 63)
    (about : (event.parsed stamp).feedback? =
      some (plainKey agentId client index))
    (stored : ∀ agentId client index data,
      after.feedback agentId client index = some data →
      index ≤ after.lastIndex agentId client ∧ ValidText data.tag1 ∧
        ValidText data.tag2)
    (others : ∀ agent address number,
      (agent, address, number) ≠ (agentId, client, index) →
      after.feedback agent address number =
          state.feedback agent address number ∧
        after.responseCount agent address number =
          state.responseCount agent address number ∧
        responseIds (log ++ [(event, stamp)]) agent address number =
          responseIds log agent address number)
    (present : after.feedback agentId client index ≠ none)
    (here : CellOfFeedback (after.feedback agentId client index)
      (after.responseCount agentId client index)
      (responseIds (log ++ [(event, stamp)]) agentId client index)
      (plainKey agentId client index)
      (stepFeedback runtime
        (writtenFeedback runtime log (plainKey agentId client index))
        (event.parsed stamp))) :
    Follows runtime after (log ++ [(event, stamp)]) := by
  refine ⟨stored, ?_, ?_, ?_⟩
  · intro agent address number absent
    by_cases same : (agent, address, number) = (agentId, client, index)
    · cases same
      exact absurd absent present
    · obtain ⟨sameData, sameCount, sameIds⟩ := others agent address number same
      rw [sameCount, sameIds]
      exact follows.unanswered agent address number (sameData ▸ absent)
  · intro agent address number fits
    rw [writtenFeedback_concat]
    by_cases same : (agent, address, number) = (agentId, client, index)
    · cases same
      rw [if_pos about]
      exact here
    · obtain ⟨sameData, sameCount, sameIds⟩ := others agent address number same
      rw [if_neg, sameData, sameCount, sameIds]
      · exact follows.cells agent address number fits
      · rw [about]
        intro sameKey
        exact same (plainKey_injective (Option.some.inj sameKey)).symm
  · intro key unnamed
    rw [writtenFeedback_concat, if_neg]
    · exact follows.elsewhere key unnamed
    · rw [about]
      intro sameKey
      exact unnamed agentId client index small (Option.some.inj sameKey).symm

theorem setFeedback_self (data : FeedbackData) :
    (state.setFeedback agentId client index data).feedback agentId client
      index = some data := by
  simp [ReputationState.setFeedback]

theorem setFeedback_other {agent : Nat} {address : Address} {number : Nat}
    (data : FeedbackData)
    (other : (agent, address, number) ≠ (agentId, client, index)) :
    (state.setFeedback agentId client index data).feedback agent address
      number = state.feedback agent address number := by
  unfold ReputationState.setFeedback
  by_cases sameAgent : agent = agentId
  · subst sameAgent
    by_cases sameClient : address = client
    · subst sameClient
      have different : number ≠ index := fun same => other (by rw [same])
      simp [Function.update_of_ne different]
    · simp [Function.update_of_ne sameClient]
  · simp [Function.update_of_ne sameAgent]

/-- The highest number of responses numbered in order. -/
theorem maxResponseIndex_of_numbers {responses : List ResponseRow}
    {key : FeedbackKey} {count : Nat}
    (numbers : responses.map ResponseRow.responseIndex = List.range' 1 count)
    (keys : ∀ response ∈ responses, response.key = key) :
    maxResponseIndex responses key = count := by
  have mine : responses.filter (fun row => row.key = key) = responses :=
    List.filter_eq_self.mpr fun response member =>
      decide_eq_true (keys response member)
  unfold maxResponseIndex
  rw [mine, numbers]
  clear numbers keys mine
  induction count with
  | zero => rfl
  | succ count induction =>
      rw [List.range'_concat, List.foldl_append, induction]
      simp only [List.foldl_cons, List.foldl_nil]
      omega

theorem responseIds_concat (agent : Nat) (address : Address) (number : Nat) :
    responseIds (log ++ [(event, stamp)]) agent address number =
      responseIds log agent address number ++
        (match event with
          | .responseAppended agentId clientAddress _ feedbackIndex _ _ =>
              if (agentId, clientAddress, feedbackIndex) =
                (agent, address, number) then [stamp.id] else []
          | _ => []) := by
  unfold responseIds
  rw [List.filterMap_append]
  congr 1
  cases event with
  | responseAppended =>
      simp only [List.filterMap_cons, List.filterMap_nil]
      split <;> simp_all
  | _ => rfl

theorem responseIds_subset {id : String}
    (member : id ∈ responseIds log agentId client index) :
    id ∈ log.map fun entry => entry.2.id := by
  obtain ⟨⟨event, stamp⟩, inside, isId⟩ := List.mem_filterMap.mp member
  refine List.mem_map.mpr ⟨_, inside, ?_⟩
  cases event with
  | responseAppended =>
      simp only at isId
      split at isId
      · exact Option.some.inj isId
      · cases isId
  | _ => cases isId

theorem Follows.give (follows : Follows runtime state log)
    {counted : ReputationState} {value : Int} {valueDecimals : Nat}
    {tag1 tag2 endpoint feedbackUri : Bytes}
    {feedbackHash : Vector UInt8 32}
    (isIndex : index = state.lastIndex agentId client + 1)
    (small : index < 2 ^ 63)
    (sameFeedback : counted.feedback = state.feedback)
    (sameIndex : counted.lastIndex = state.lastIndex)
    (sameResponses : counted.responseCount = state.responseCount)
    (valid : ValidText tag1 ∧ ValidText tag2) :
    Follows runtime
      ((counted.setLastIndex agentId client index).setFeedback agentId client
        index { value, valueDecimals, isRevoked := false, tag1, tag2 })
      (log ++ [(.newFeedback agentId client index value valueDecimals tag1
        tag2 endpoint feedbackUri feedbackHash, stamp)]) := by
  have absent : state.feedback agentId client index = none := by
    by_contra present
    obtain ⟨data, found⟩ := Option.ne_none_iff_exists'.mp present
    have bound := (follows.stored agentId client index data found).1
    omega
  have cell := follows.cells agentId client index small
  have blank : writtenFeedback runtime log (plainKey agentId client index) =
      { row := none, responses := [] } := by
    have row := cell.exists_iff
    have numbers := cell.numbers
    rw [absent] at row
    rw [(follows.unanswered _ _ _ absent).1] at numbers
    cases written : writtenFeedback runtime log
        (plainKey agentId client index) with
    | mk stored responses =>
        rw [written] at row numbers
        have gone : stored = none := by simpa using row
        have empty : responses = [] := List.map_eq_nil_iff.mp numbers
        rw [gone, empty]
  refine follows.touched small
    (congrArg some (feedbackKey_plain small)) ?_ ?_ ?_ ?_
  · intro agent address number data found
    by_cases same : (agent, address, number) = (agentId, client, index)
    · cases same
      rw [setFeedback_self] at found
      cases found
      refine ⟨?_, valid⟩
      simp [ReputationState.setFeedback, ReputationState.setLastIndex]
    · rw [setFeedback_other _ same] at found
      change counted.feedback agent address number = _ at found
      rw [sameFeedback] at found
      obtain ⟨bound, texts⟩ := follows.stored agent address number data found
      refine ⟨Nat.le_trans bound ?_, texts⟩
      simp only [ReputationState.setFeedback, ReputationState.setLastIndex,
        sameIndex]
      by_cases sameAgent : agent = agentId
      · subst sameAgent
        by_cases sameClient : address = client
        · subst sameClient
          simp only [Function.update_self]
          omega
        · simp [Function.update_of_ne sameClient]
      · simp [Function.update_of_ne sameAgent]
  · intro agent address number other
    refine ⟨?_, ?_, ?_⟩
    · rw [setFeedback_other _ other]
      exact congrFun (congrFun (congrFun sameFeedback agent) address) number
    · exact congrFun (congrFun (congrFun sameResponses agent) address) number
    · rw [responseIds_concat]
      simp
  · rw [setFeedback_self]
    simp
  · rw [setFeedback_self, blank]
    have count : ((counted.setLastIndex agentId client index).setFeedback
        agentId client index { value, valueDecimals, isRevoked := false, tag1
                               tag2 }).responseCount agentId client index =
          0 := by
      change counted.responseCount agentId client index = 0
      rw [sameResponses]
      exact (follows.unanswered _ _ _ absent).1
    have ids := cell.ids
    rw [blank] at ids
    refine ⟨rfl, ?_, ?_, ?_, ?_, ?_⟩
    · intro row stored isRow isStored
      cases isRow
      cases isStored
      exact ⟨rfl, rfl, orNull_decodeText valid.1, orNull_decodeText valid.2,
        rfl⟩
    · intro row isRow _
      cases isRow
      rfl
    · rw [count]
      rfl
    · rw [responseIds_concat, ← ids]
      rfl
    · intro response member
      cases member

theorem Follows.revoke (follows : Follows runtime state log)
    {data : FeedbackData} (small : index < 2 ^ 63)
    (found : state.feedback agentId client index = some data)
    (standing : data.isRevoked = false) :
    Follows runtime
      (state.setFeedback agentId client index { data with isRevoked := true })
      (log ++ [(.feedbackRevoked agentId client index, stamp)]) := by
  have cell := follows.cells agentId client index small
  obtain ⟨row, isRow⟩ : ∃ row, (writtenFeedback runtime log
      (plainKey agentId client index)).row = some row := by
    apply Option.isSome_iff_exists.mp
    rw [cell.exists_iff, found]
    rfl
  have rowOf := cell.row row data isRow found
  have unrevoked : row.isRevoked = false := rowOf.isRevoked.trans standing
  have unstamped := cell.standing row isRow unrevoked
  refine follows.touched small
    (congrArg some (feedbackKey_plain small)) ?_ ?_ ?_ ?_
  · intro agent address number other isOther
    by_cases same : (agent, address, number) = (agentId, client, index)
    · cases same
      rw [setFeedback_self] at isOther
      cases isOther
      have known := follows.stored agentId client index data found
      exact ⟨known.1, known.2⟩
    · rw [setFeedback_other _ same] at isOther
      exact follows.stored agent address number other isOther
  · intro agent address number other
    refine ⟨setFeedback_other _ other, rfl, ?_⟩
    rw [responseIds_concat]
    simp
  · rw [setFeedback_self]
    simp
  · rw [setFeedback_self]
    have stepped : stepFeedback runtime (writtenFeedback runtime log
        (plainKey agentId client index))
          ((ReputationEvent.feedbackRevoked agentId client index).parsed
            stamp) =
        { writtenFeedback runtime log (plainKey agentId client index) with
          row := some (row.withRevoked
            { isRevoked := true, revokedLedger := some stamp.ledger }) } := by
      simp only [stepFeedback, ReputationEvent.parsed, isRow]
      simp [GuardedWrite.apply, GuardedWrite.admits, revokedStore,
        FeedbackRow.revoked, unstamped, Stamp.base]
    rw [stepped]
    refine ⟨rfl, ?_, ?_, cell.numbers, ?_, cell.keys⟩
    · intro revoked stored isRevoked isStored
      cases isRevoked
      cases isStored
      exact ⟨rowOf.value, rowOf.valueDecimals, rowOf.tag1, rowOf.tag2, rfl⟩
    · intro revoked isRevoked contrary
      cases isRevoked
      cases contrary
    · rw [responseIds_concat]
      simpa using cell.ids

theorem Follows.respond (follows : Follows runtime state log)
    {data : FeedbackData} {responder : Address} {responseUri : Bytes}
    {responseHash : Vector UInt8 32} (small : index < 2 ^ 63)
    (found : state.feedback agentId client index = some data)
    (fresh : stamp.id ∉ log.map fun entry => entry.2.id) :
    Follows runtime
      { state with
        responseCount := Function.update state.responseCount agentId
          (Function.update (state.responseCount agentId) client
            (Function.update (state.responseCount agentId client) index
              (state.responseCount agentId client index + 1))) }
      (log ++ [(.responseAppended agentId client responder index responseUri
        responseHash, stamp)]) := by
  have cell := follows.cells agentId client index small
  obtain ⟨row, isRow⟩ : ∃ row, (writtenFeedback runtime log
      (plainKey agentId client index)).row = some row := by
    apply Option.isSome_iff_exists.mp
    rw [cell.exists_iff, found]
    rfl
  refine follows.touched small
    (congrArg some (feedbackKey_plain small)) follows.stored ?_ ?_ ?_
  · intro agent address number other
    refine ⟨rfl, ?_, ?_⟩
    · by_cases sameAgent : agent = agentId
      · subst sameAgent
        by_cases sameClient : address = client
        · subst sameClient
          have different : number ≠ index := fun same => other (by rw [same])
          simp [Function.update_of_ne different]
        · simp [Function.update_of_ne sameClient]
      · simp [Function.update_of_ne sameAgent]
    · rw [responseIds_concat]
      simp [Ne.symm other]
  · simp only [found]
    simp
  · have unknown : (writtenFeedback runtime log
        (plainKey agentId client index)).responses.any
          (·.eventId = stamp.id) = false := by
      apply List.any_eq_false.mpr
      intro response member same
      apply fresh
      apply responseIds_subset
      rw [← cell.ids]
      exact List.mem_map.mpr ⟨response, member, of_decide_eq_true same⟩
    have stepped : stepFeedback runtime (writtenFeedback runtime log
        (plainKey agentId client index))
          ((ReputationEvent.responseAppended agentId client responder index
            responseUri responseHash).parsed stamp) =
        { writtenFeedback runtime log (plainKey agentId client index) with
          responses :=
            (writtenFeedback runtime log
              (plainKey agentId client index)).responses ++
            [appendedResponse runtime
              (writtenFeedback runtime log
                (plainKey agentId client index)).responses
              { stamp.base with
                agentId, clientAddress := StrKey.encode client
                responder := StrKey.encode responder
                feedbackIndex := index
                responseUri := decodeText responseUri
                responseHash := hexText responseHash
                eventId := stamp.id }] } := by
      simp only [stepFeedback, ReputationEvent.parsed, isRow]
      rw [if_neg (by rw [unknown]; simp)]
    have number := maxResponseIndex_of_numbers cell.numbers cell.keys
    rw [stepped]
    refine ⟨cell.exists_iff, cell.row, cell.standing, ?_, ?_, ?_⟩
    · simp only [List.map_append, cell.numbers, List.map_cons, List.map_nil,
        appendedResponse, feedbackKey_plain small, number,
        Function.update_self, List.range'_concat]
      congr 2
      omega
    · rw [responseIds_concat, List.map_append, cell.ids]
      simp [appendedResponse]
    · intro response member
      rcases List.mem_append.mp member with old | new
      · exact cell.keys response old
      · rw [List.mem_singleton.mp new]
        exact feedbackKey_plain small

end

/-! ## Runs of the registry -/

section

variable {state : ReputationState} {log : List (ReputationEvent × Stamp)}

theorem ReputationState.Performs.lastIndex_le {state after : ReputationState}
    {agentExists : Nat → Bool} {events : List ReputationEvent}
    (performs : state.Performs agentExists after events) (agent : Nat)
    (address : Address) :
    state.lastIndex agent address ≤ after.lastIndex agent address := by
  cases performs with
  | giveFeedback counted caller agentId value valueDecimals tag1 tag2 endpoint
      feedbackUri feedbackHash scale living sameFeedback sameIndex
      sameResponses =>
      simp only [setFeedback, setLastIndex, sameIndex]
      by_cases sameAgent : agent = agentId.toNat
      · subst sameAgent
        by_cases sameClient : address = caller
        · subst sameClient
          simp
        · simp [Function.update_of_ne sameClient]
      · simp [Function.update_of_ne sameAgent]
  | revokeFeedback => exact Nat.le_refl _
  | appendResponse => exact Nat.le_refl _

theorem Run.follows (runtime : Runtime)
    (run : Run ReputationState.Step .initial state log)
    (small : ∀ agentId client, state.lastIndex agentId client < 2 ^ 63) :
    Follows runtime state log := by
  induction run with
  | start => exact Follows.initial runtime
  | @call before after log prior ledger events stamps step length stamped
      induction =>
      obtain ⟨identity, request, valid, success⟩ := step
      have texts := ReputationState.call_texts success
      have performs := ReputationState.call_performs success
      have follows := induction fun agentId client =>
        Nat.lt_of_le_of_lt (performs.lastIndex_le agentId client)
          (small agentId client)
      have fits : ∀ {agentId client index data},
          before.feedback agentId client index = some data →
          index < 2 ^ 63 := by
        intro agentId client index data found
        have bound := (follows.stored agentId client index data found).1
        have limit := small agentId client
        have grows := performs.lastIndex_le agentId client
        omega
      have single : ∀ event, events = [event] →
          ∃ stamp, stamps = [stamp] ∧
            stamp.id ∉ log.map fun entry => entry.2.id := by
        intro event isEvent
        rw [isEvent] at length
        obtain ⟨stamp, rfl⟩ := List.length_eq_one_iff.mp length
        refine ⟨stamp, rfl, ?_⟩
        have distinct := stamped.ids
        rw [List.map_append, List.map_map] at distinct
        intro member
        exact (List.nodup_append.mp distinct).2.2 stamp.id member stamp.id
          (by simp) rfl
      cases performs with
      | giveFeedback counted caller agentId value valueDecimals tag1 tag2
          endpoint feedbackUri feedbackHash scale living sameFeedback
          sameIndex sameResponses =>
          obtain ⟨stamp, rfl, _⟩ := single _ rfl
          have limit := small agentId.toNat caller
          simp only [ReputationState.setFeedback,
            ReputationState.setLastIndex, Function.update_self] at limit
          have read : ∀ text ∈ [tag1, tag2], ValidText text := by
            intro text member
            refine valid text (texts _ List.mem_cons_self text ?_)
            simp only [List.mem_cons, List.not_mem_nil, or_false] at member
            rcases member with rfl | rfl <;> simp [ReputationEvent.texts]
          exact follows.give rfl limit sameFeedback sameIndex sameResponses
            ⟨read tag1 (by simp), read tag2 (by simp)⟩
      | revokeFeedback caller agentId feedbackIndex data found standing =>
          obtain ⟨stamp, rfl, _⟩ := single _ rfl
          exact follows.revoke (fits found) found standing
      | appendResponse caller agentId clientAddress feedbackIndex responseUri
          responseHash data found =>
          obtain ⟨stamp, rfl, fresh⟩ := single _ rfl
          exact follows.respond (fits found) found fresh

theorem Run.reputation_recorded
    (run : Run ReputationState.Step .initial state log) :
    Given state (ofReputation log) ∧
      ∀ entry ∈ ofReputation log, entry.1.Bounded := by
  induction run with
  | start =>
      refine ⟨⟨?_, by simp [ofReputation]⟩, by simp [ofReputation]⟩
      intro agentId client index present
      cases present
  | call prior ledger events stamps step length stamped induction =>
      obtain ⟨identity, request, _, success⟩ := step
      obtain ⟨given, bounded⟩ := induction
      have performs := ReputationState.call_performs success
      have appended : Appended (ofReputation _) ledger
          (events.map ContractEvent.reputation)
          ((events.map ContractEvent.reputation).zip stamps) :=
        .of_stamped (by simpa using length) (by
          unfold ofReputation
          rw [List.map_map]
          exact stamped)
      have grown : ∀ log : List (ReputationEvent × Stamp),
          ofReputation (log ++ events.zip stamps) = ofReputation log ++
            (events.map ContractEvent.reputation).zip stamps := by
        intro log
        unfold ofReputation
        rw [List.map_append, List.zip_map_left]
      rw [grown]
      refine ⟨given.reputation performs appended, ?_⟩
      intro entry member
      rcases List.mem_append.mp member with old | new
      · exact bounded entry old
      · obtain ⟨event, isEvent, same⟩ :=
          List.mem_map.mp (List.of_mem_zip new).1
        rw [← same]
        exact bounded_reputation given performs event isEvent

end

/-! ## Refinement -/

/-- The rows of `feedback` and `feedback_responses` are the registry's entries
and the responses to them. -/
structure RefinesReputation (tables : Tables) (state : ReputationState)
    (log : List (ReputationEvent × Stamp)) : Prop where
  rows : ∀ agentId client index,
    (tables.feedback (plainKey agentId client index)).isSome = true ↔
      ∃ data, state.readFeedback agentId client index = .ok data
  columns : ∀ agentId client index row data,
    tables.feedback (plainKey agentId client index) = some row →
    state.readFeedback agentId client index = .ok data → RowOf data row
  numbers : ∀ agentId client index,
    (tables.feedbackResponses.filter
        (·.key = plainKey agentId client index)).map
        ResponseRow.responseIndex =
      List.range' 1 (state.getResponseCount agentId client index)
  appended : ∀ agentId client index,
    (tables.feedbackResponses.filter
        (·.key = plainKey agentId client index)).map ResponseRow.eventId =
      responseIds log agentId client index
  nothingElse : ∀ key,
    (∀ agentId client index, key ≠ plainKey agentId client index) →
    tables.feedbackCell key = { row := none, responses := [] }

section

variable {runtime : Runtime} {state : ReputationState}
  {log : List (ReputationEvent × Stamp)} {tables : Tables}

theorem refinesReputation_of_cells (follows : Follows runtime state log)
    (small : ∀ agentId client, state.lastIndex agentId client < 2 ^ 63)
    (cells : ∀ key, tables.feedbackCell key =
      writtenFeedback runtime log key) :
    RefinesReputation tables state log := by
  have cell : ∀ agentId client index,
      CellOfFeedback (state.feedback agentId client index)
        (state.responseCount agentId client index)
        (responseIds log agentId client index)
        (plainKey agentId client index)
        (tables.feedbackCell (plainKey agentId client index)) := by
    intro agentId client index
    rw [cells]
    by_cases fits : index < 2 ^ 63
    · exact follows.cells agentId client index fits
    · have absent : state.feedback agentId client index = none := by
        by_contra present
        obtain ⟨data, found⟩ := Option.ne_none_iff_exists'.mp present
        have bound := (follows.stored agentId client index data found).1
        have limit := small agentId client
        omega
      obtain ⟨noCount, noIds⟩ := follows.unanswered _ _ _ absent
      rw [follows.elsewhere _ (by
        intro agent address number within same
        have equal := plainKey_injective same
        simp only [Prod.mk.injEq] at equal
        omega), absent, noCount, noIds]
      exact CellOfFeedback.blank _
  have read : ∀ {agentId client index data},
      state.readFeedback agentId client index = .ok data ↔
        state.feedback agentId client index = some data := by
    intro agentId client index data
    unfold ReputationState.readFeedback
    cases state.feedback agentId client index <;> simp
  refine ⟨?_, ?_, ?_, ?_, ?_⟩
  · intro agentId client index
    have exists_iff := (cell agentId client index).exists_iff
    change (tables.feedback _).isSome = _ at exists_iff
    rw [exists_iff, Option.isSome_iff_exists]
    simp only [read]
  · intro agentId client index row data found stored
    exact (cell agentId client index).row row data found (read.mp stored)
  · intro agentId client index
    exact (cell agentId client index).numbers
  · intro agentId client index
    exact (cell agentId client index).ids
  · intro key unnamed
    rw [cells]
    exact follows.elsewhere key fun agentId client index _ =>
      unnamed agentId client index

/-- Parents of the packets of a log that gives feedback before it touches
it. -/
theorem supplied_packets {state : ReputationState}
    {log : List (ContractEvent × Stamp)} {has : Parent → Prop}
    (bounded : ∀ entry ∈ log, entry.1.Bounded) (given : Given state log)
    (agents : ∀ entry ∈ log, ∀ agent, entry.1.agentId? = some agent →
      has (.agent agent)) :
    Supplied has ((Chain.packets log).map EventPacket.data) := by
  intro before event after split parent isParent
  obtain ⟨front, rest, whole, isFront, isRest⟩ :=
    List.map_eq_append_iff.mp split
  obtain ⟨packet, back, rfl, rfl, _⟩ := List.map_eq_cons_iff.mp isRest
  have member : packet ∈ Chain.packets log := by
    rw [whole]
    exact List.mem_append_right _ List.mem_cons_self
  cases parent with
  | agent agent =>
      obtain ⟨entry, inside, read⟩ := mem_packets.mp member
      exact .inl (agents entry inside agent
        ((reads_of_packet? (bounded entry inside) read).parent agent
          isParent))
  | feedback key =>
      obtain ⟨about, notNew, _⟩ := ParsedEvent.parent?_feedback isParent
      rcases given_packets bounded given front packet back whole key about
        with new | ⟨creator, isCreator, new, touches⟩
      · rw [notNew] at new
        cases new
      · refine .inr ⟨creator.data, ?_,
          (ParsedEvent.creates?_feedback new touches).1⟩
        rw [← isFront]
        exact List.mem_map_of_mem isCreator

/-- A run's events, applied in order to a database with its agents, fail no
statement and leave the registry's entries and the responses to them. -/
theorem reputation_tables_refine (runtime : Runtime) {database : Tables}
    (run : Run ReputationState.Step .initial state log)
    (small : ∀ agentId client, state.lastIndex agentId client < 2 ^ 63)
    (owned : database.MetadataOwned)
    (noFeedback : ∀ key, database.feedback key = none)
    (noResponses : database.feedbackResponses = [])
    (agents : ∀ entry ∈ log, ∀ agent,
      (ContractEvent.reputation entry.1).agentId? = some agent →
      (database.agents agent).isSome = true)
    (writes : List (String × EventPacket))
    (inOrder : writes.map Prod.snd = reputationPackets log) :
    ∃ tables, writeAll runtime writes database = .ok tables ∧
      RefinesReputation tables state log := by
  obtain ⟨given, bounded⟩ := run.reputation_recorded
  have events : writtenEvents writes =
      (Chain.packets (ofReputation log)).map EventPacket.data := by
    rw [packets_ofReputation, ← inOrder, List.map_map]
    rfl
  have member : ∀ event ∈ writtenEvents writes,
      ∃ packet ∈ Chain.packets (ofReputation log), packet.data = event := by
    intro event isEvent
    rw [events] at isEvent
    exact List.mem_map.mp isEvent
  have closed : ∀ entry ∈ ofReputation log,
      isoLayout entry.2.ledgerClosedAt.toList = true := by
    intro entry inside
    obtain ⟨original, isOriginal, rfl⟩ := List.mem_map.mp inside
    exact run.closed original isOriginal
  have distinct : ((ofReputation log).map fun entry => entry.2.id).Nodup := by
    unfold ofReputation
    rw [List.map_map]
    exact run.ids
  obtain ⟨answers, answering⟩ :=
    exists_answers (ids_packets distinct) eventIds_packets
  have supplied : Supplied database.Has (writtenEvents writes) := by
    rw [events]
    refine supplied_packets bounded given ?_
    intro entry inside agent about
    obtain ⟨original, isOriginal, rfl⟩ := List.mem_map.mp inside
    exact agents original isOriginal agent about
  have consistent : database.Consistent answers :=
    ⟨owned, by simp [noResponses]⟩
  obtain ⟨tables, written⟩ := writeAll_ok
    (fun event isEvent => by
      obtain ⟨packet, inside, rfl⟩ := member event isEvent
      exact timed_packets runtime closed packet inside)
    (fun event isEvent => by
      obtain ⟨packet, inside, rfl⟩ := member event isEvent
      exact checked_packets packet inside) supplied
  refine ⟨tables, written, refinesReputation_of_cells
    (run.follows runtime small) small ?_⟩
  intro key
  have cell := feedbackCell_writeAll written consistent (fun event isEvent =>
    by
      obtain ⟨packet, inside, rfl⟩ := member event isEvent
      exact answering packet inside) key
  have blank : database.feedbackCell key = { row := none, responses := [] } := by
    simp [Tables.feedbackCell, noFeedback, noResponses]
  rw [cell, blank, events, packets_ofReputation,
    data_reputationPackets bounded]
  rfl

end

/-- A database with one agent. -/
def oneAgent : Tables :=
  Tables.empty.setAgent 0 (Tables.newAgent (StrKey.encode firstOwner) "" false
    "2026-01-01T00:00:00+00:00" 7 "ab" "2026-01-01T00:00:00+00:00")

/-- Feedback with a tag and its first response. -/
def feedbackLog : List (ReputationEvent × Stamp) :=
  [(.newFeedback 0 secondOwner 1 (-5) 2 (utf8 "speed") ByteArray.empty
      ByteArray.empty ByteArray.empty (Vector.replicate 32 0),
      stampAt 9 "9-0"),
    (.responseAppended 0 secondOwner firstOwner 1 (utf8 "ipfs://reply")
      (Vector.replicate 32 3), stampAt 9 "9-1")]

theorem reputation_tables_refine_feedbackLog :
    ∃ state tables, state.getResponseCount 0 secondOwner 1 = 1 ∧
      writeAll { parseDate := fun _ => none, callDepth := 0 }
        ((reputationPackets feedbackLog).map fun packet =>
          ("2026-01-01T00:00:00.000+00:00", packet)) oneAgent = .ok tables ∧
      RefinesReputation tables state feedbackLog := by
  have given : Run ReputationState.Step .initial _ (feedbackLog.take 1) :=
    .call .start 9 ((feedbackLog.take 1).map Prod.fst)
      ((feedbackLog.take 1).map Prod.snd)
      ⟨{ agentExists := fun _ => true
         isAuthorizedOrOwner := fun _ _ => false },
        .giveFeedback secondOwner 0 (-5) 2 (utf8 "speed") ByteArray.empty
          ByteArray.empty ByteArray.empty (Vector.replicate 32 0),
        by
          simp only [ReputationCall.texts, List.mem_cons, List.not_mem_nil,
            or_false]
          rintro _ (rfl | rfl | rfl | rfl)
          · exact ⟨"speed", rfl⟩
          all_goals exact ⟨"", rfl⟩, rfl⟩ rfl
      ⟨by decide, by decide, by decide, by decide, by decide⟩
  have answered : Run ReputationState.Step .initial _ feedbackLog :=
    .call given 9 ((feedbackLog.drop 1).map Prod.fst)
      ((feedbackLog.drop 1).map Prod.snd)
      ⟨{ agentExists := fun _ => true
         isAuthorizedOrOwner := fun _ _ => false },
        .appendResponse firstOwner 0 secondOwner 1 (utf8 "ipfs://reply")
          (Vector.replicate 32 3),
        by
          simp only [ReputationCall.texts, List.mem_singleton]
          rintro _ rfl
          exact ⟨"ipfs://reply", rfl⟩, rfl⟩ rfl
      ⟨by decide, by decide, by decide, by decide, by decide⟩
  obtain ⟨tables, written, refines⟩ := reputation_tables_refine
    { parseDate := fun _ => none, callDepth := 0 } answered (by
      intro agentId client
      by_cases sameAgent : agentId = 0
      · subst sameAgent
        by_cases sameClient : client = secondOwner
        · subst sameClient
          decide
        · simp [ReputationState.setFeedback, ReputationState.setLastIndex,
            ReputationState.initial, Function.update_of_ne sameClient]
      · simp [ReputationState.setFeedback, ReputationState.setLastIndex,
          ReputationState.initial, Function.update_of_ne sameAgent]) (show oneAgent.MetadataOwned from fun _ _ _ => rfl)
    (fun _ => rfl) rfl (by
      simp [feedbackLog, ContractEvent.agentId?, oneAgent, Tables.setAgent])
    ((reputationPackets feedbackLog).map fun packet =>
      ("2026-01-01T00:00:00.000+00:00", packet)) (by simp [Function.comp_def])
  exact ⟨_, tables, rfl, written, refines⟩

end Stellar8004.Contracts
