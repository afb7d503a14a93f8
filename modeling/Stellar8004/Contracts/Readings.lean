import Stellar8004.Contracts.Authorisation
import Stellar8004.Indexer.Decoding

/-!
# Published events and their readings

The contracts encode the events of a call, the indexer decodes them, and the
two sides are written separately.  Over every run of the three contracts the
decoder returns what the call was about: every bound a parser checks is one
the contracts keep.
-/

namespace Stellar8004.Contracts

open Stellar8004.Indexer

/-- The names a contract's parser recognises. -/
def recognizedNames : ContractName → List String
  | .identity => IDENTITY_EVENT_NAMES
  | .reputation => REPUTATION_EVENT_NAMES
  | .validation => VALIDATION_EVENT_NAMES

/-- What the indexer makes of a published event. -/
def ContractEvent.read (stamp : Stamp) (event : ContractEvent) :
    EventInterpretation :=
  interpret event.contract (event.publish.response stamp)

/-! ## Other names -/

/-- A parser accepts only events whose name it recognises. -/
theorem identityEvent_named {event : EventResponse} {parsed : ParsedEvent}
    (accepted : parseIdentityEventInner event = .ok (some parsed)) :
    ∃ name ∈ IDENTITY_EVENT_NAMES, event.nativeTopic 0 = .text name := by
  unfold parseIdentityEventInner at accepted
  split at accepted
  · cases accepted
  split at accepted
  · rename_i isName
    exact ⟨_, by simp [IDENTITY_EVENT_NAMES], isName⟩
  · obtain ⟨agentId, _, rest⟩ := bind_ok_iff.mp accepted
    split at rest
    · cases rest
    split at rest
    iterate 5
      · rename_i isName
        exact ⟨_, by simp [IDENTITY_EVENT_NAMES], isName⟩
    · cases rest

theorem reputationEvent_named {event : EventResponse} {parsed : ParsedEvent}
    (accepted : parseReputationEventInner event = .ok (some parsed)) :
    ∃ name ∈ REPUTATION_EVENT_NAMES, event.nativeTopic 0 = .text name := by
  unfold parseReputationEventInner at accepted
  split at accepted
  · cases accepted
  obtain ⟨agentId, _, rest⟩ := bind_ok_iff.mp accepted
  split at rest
  · cases rest
  dsimp only at rest
  split at rest
  · cases rest
  split at rest
  iterate 3
    · rename_i isName
      exact ⟨_, by simp [REPUTATION_EVENT_NAMES], isName⟩
  · cases rest

theorem validationEvent_named {event : EventResponse} {parsed : ParsedEvent}
    (accepted : parseValidationEventInner event = .ok (some parsed)) :
    ∃ name ∈ VALIDATION_EVENT_NAMES, event.nativeTopic 0 = .text name := by
  unfold parseValidationEventInner at accepted
  split at accepted
  · cases accepted
  dsimp only at accepted
  split at accepted
  · cases accepted
  obtain ⟨agentId, _, rest⟩ := bind_ok_iff.mp accepted
  split at rest
  · cases rest
  split at rest
  · cases rest
  split at rest
  iterate 2
    · rename_i isName
      exact ⟨_, by simp [VALIDATION_EVENT_NAMES], isName⟩
  · cases rest

/-- Exactly the events with other names are unrelated. -/
theorem interpretEvent_unrelated {names : List String}
    {inner : EventResponse → Except String (Option ParsedEvent)}
    (named : ∀ {event parsed}, inner event = .ok (some parsed) →
      ∃ name ∈ names, event.nativeTopic 0 = .text name)
    {emission : Emission} {name : String}
    (isName : emission.topics.head? = some (.symbol name)) (stamp : Stamp) :
    interpretEvent (emission.response stamp) names (caught inner) =
        .ignored .unrelated ↔ name ∉ names := by
  obtain ⟨topics, whole⟩ := List.head?_eq_some_iff.mp isName
  have native : (emission.response stamp).nativeTopic 0 = .text name := by
    simp [EventResponse.nativeTopic, Emission.response, whole]
  have topic : (emission.response stamp).topic = .symbol name :: topics :=
    whole
  have successful : (emission.response stamp).inSuccessfulContractCall = true :=
    rfl
  unfold interpretEvent
  rw [successful, if_neg (by decide)]
  cases isParsed : caught inner (emission.response stamp) with
  | some parsed =>
      have accepted : inner (emission.response stamp) = .ok (some parsed) := by
        unfold caught at isParsed
        split at isParsed
        · rename_i result isResult
          rw [isResult, isParsed]
        · cases isParsed
      obtain ⟨known, recognized, isKnown⟩ := named accepted
      rw [native] at isKnown
      cases isKnown
      simp [recognized]
  | none =>
      simp only [topic, scValToNative_symbol]
      split <;> simp_all

theorem interpret_unrelated_iff (contract : ContractName)
    {emission : Emission} {name : String}
    (isName : emission.topics.head? = some (.symbol name)) (stamp : Stamp) :
    interpret contract (emission.response stamp) = .ignored .unrelated ↔
      name ∉ recognizedNames contract := by
  cases contract with
  | identity =>
      exact interpretEvent_unrelated identityEvent_named isName stamp
  | reputation =>
      exact interpretEvent_unrelated reputationEvent_named isName stamp
  | validation =>
      exact interpretEvent_unrelated validationEvent_named isName stamp

/-! ## The readings of a call -/

/-- A registration: the mint, the wallet, each entry and the agent. -/
def registrationReadings (stamp : Stamp) (agentId : Nat) (caller : Address)
    (agentUri : Bytes) (metadata : List MetadataEntry) :
    List EventInterpretation :=
  [.ignored .unrelated,
    .parsed (.agentWalletSet
      { stamp.base with agentId, newWallet := StrKey.encode caller })] ++
  metadata.map (fun entry => .parsed (.metadataSet
    { stamp.base with
      agentId, key := decodeText entry.key
      value := utf8Decoder entry.value })) ++
  [.parsed (.registered
    { stamp.base with
      agentId, owner := StrKey.encode caller
      agentUri := decodeText agentUri })]

/-- A transfer: the wallet is cleared, then the owner changes. -/
def transferReadings (stamp : Stamp) («from» «to» : Address)
    (agentId : Nat) : List EventInterpretation :=
  [.parsed (.agentWalletUnset { stamp.base with agentId }),
    .parsed (.agentTransferred
      { stamp.base with
        agentId, «from» := StrKey.encode «from»
        «to» := StrKey.encode «to» })]

/-- What is to be read of an identity call made in a state. -/
def IdentityCall.readings (state : IdentityState) (stamp : Stamp) :
    IdentityCall → List EventInterpretation
  | register caller =>
      registrationReadings stamp state.nextTokenId caller ByteArray.empty []
  | registerWithUri caller agentUri =>
      registrationReadings stamp state.nextTokenId caller agentUri []
  | registerFull caller agentUri metadata =>
      registrationReadings stamp state.nextTokenId caller agentUri metadata
  | setAgentUri caller agentId newUri =>
      [.parsed (.uriUpdated
        { stamp.base with
          agentId := agentId.toNat, updatedBy := StrKey.encode caller
          newUri := decodeText newUri })]
  | setMetadata _ agentId key value =>
      [.parsed (.metadataSet
        { stamp.base with
          agentId := agentId.toNat, key := decodeText key
          value := utf8Decoder value })]
  | setAgentWallet _ agentId newWallet =>
      [.parsed (.agentWalletSet
        { stamp.base with
          agentId := agentId.toNat, newWallet := StrKey.encode newWallet })]
  | unsetAgentWallet _ agentId =>
      [.parsed (.agentWalletUnset
        { stamp.base with agentId := agentId.toNat })]
  | transfer «from» «to» tokenId =>
      transferReadings stamp «from» «to» tokenId.toNat
  | transferFrom _ «from» «to» tokenId =>
      transferReadings stamp «from» «to» tokenId.toNat

/-- What is to be read of a reputation call made in a state. -/
def ReputationCall.readings (state : ReputationState) (stamp : Stamp) :
    ReputationCall → List EventInterpretation
  | giveFeedback caller agentId value valueDecimals tag1 tag2 endpoint
      feedbackUri feedbackHash =>
      [.parsed (.newFeedback
        { stamp.base with
          agentId := agentId.toNat, clientAddress := StrKey.encode caller
          feedbackIndex := state.lastIndex agentId.toNat caller + 1, value
          valueDecimals := valueDecimals.toNat, tag1 := decodeText tag1
          tag2 := decodeText tag2, endpoint := decodeText endpoint
          feedbackUri := decodeText feedbackUri
          feedbackHash := hexText feedbackHash })]
  | revokeFeedback caller agentId feedbackIndex =>
      [.parsed (.feedbackRevoked
        { stamp.base with
          agentId := agentId.toNat, clientAddress := StrKey.encode caller
          feedbackIndex := feedbackIndex.toNat })]
  | appendResponse caller agentId clientAddress feedbackIndex responseUri
      responseHash =>
      [.parsed (.responseAppended
        { stamp.base with
          agentId := agentId.toNat
          clientAddress := StrKey.encode clientAddress
          responder := StrKey.encode caller
          feedbackIndex := feedbackIndex.toNat
          responseUri := decodeText responseUri
          responseHash := hexText responseHash, eventId := stamp.id })]

/-- What is to be read of a validation call made in a state.  A response does
not name its agent; the request on record does. -/
def ValidationCall.readings (state : ValidationState) (stamp : Stamp) :
    ValidationCall → List EventInterpretation
  | validationRequest _ validatorAddress agentId requestUri requestHash =>
      [.parsed (.validationRequest
        { stamp.base with
          validatorAddress := StrKey.encode validatorAddress
          agentId := agentId.toNat, requestHash := hexText requestHash
          requestUri := decodeText requestUri })]
  | validationResponse caller requestHash response responseUri responseHash
      tag =>
      ((state.validation requestHash).map fun status =>
        EventInterpretation.parsed (.validationResponse
          { stamp.base with
            validatorAddress := StrKey.encode caller
            agentId := status.agentId, requestHash := hexText requestHash
            response := response.toNat, responseUri := decodeText responseUri
            responseHash := hexText responseHash
            tag := decodeText tag })).toList

def ContractCall.readings (chain : Chain) (stamp : Stamp) :
    ContractCall → List EventInterpretation
  | identity request => request.readings chain.identity stamp
  | reputation request => request.readings chain.reputation stamp
  | validation request => request.readings chain.validation stamp

/-! ## Identity -/

/-- Only the wallet key itself is decoded to it. -/
theorem decodeText_ordinary {key : Bytes} (ordinary : key ≠ agentWalletKey) :
    decodeText key ≠ AGENT_WALLET_KEY := by
  intro isWallet
  unfold decodeText at isWallet
  split at isWallet
  · rename_i text decoded
    apply ordinary
    unfold String.fromUTF8? at decoded
    split at decoded
    · cases decoded
      unfold agentWalletKey
      rw [← AGENT_WALLET_KEY, ← isWallet]
      rfl
    · cases decoded
  · rename_i invalid
    obtain ⟨char, member, past⟩ := replaced_not_ascii invalid
    rw [isWallet] at member
    have ascii : (AGENT_WALLET_KEY.toList.all fun char =>
        decide (char.toNat < 0x80)) = true := by decide
    have small := of_decide_eq_true (List.all_eq_true.mp ascii char member)
    exact Nat.not_le_of_lt small past

section

variable {state after : IdentityState} {approvals : Approvals}
  {request : IdentityCall} {events : List IdentityEvent} (stamp : Stamp)

/-- A registration's events are read as they are. -/
theorem registration_read (bound : state.nextTokenId < 2 ^ 32)
    (caller : Address) (agentUri : Option Bytes)
    (metadata : List MetadataEntry)
    (storable : ∀ entry ∈ metadata,
      IdentityState.Storable entry.key entry.value) :
    (state.registrationEvents caller agentUri metadata).map
        (fun event => (ContractEvent.identity event).read stamp) =
      registrationReadings stamp state.nextTokenId caller
        (agentUri.getD ByteArray.empty) metadata := by
  have entries : metadata.map (fun entry => (ContractEvent.identity
      (.metadataSet state.nextTokenId entry.key entry.value)).read stamp) =
        metadata.map (fun entry => .parsed (.metadataSet
          { stamp.base with
            agentId := state.nextTokenId, key := decodeText entry.key
            value := utf8Decoder entry.value })) := by
    apply List.map_congr_left
    intro entry member
    exact interpret_metadataSet bound stamp entry.value
      (decodeText_ordinary (storable entry member).2.2)
  simp only [IdentityState.registrationEvents, List.map_append, List.map_map,
    Function.comp_def, entries, registrationReadings, List.map_cons,
    List.map_nil]
  congr 2
  · simp only [ContractEvent.read, ContractEvent.contract,
      ContractEvent.publish, interpret_mint, interpret_walletSet bound stamp]
  · simp only [ContractEvent.read, ContractEvent.contract,
      ContractEvent.publish, interpret_registered bound stamp]

theorem transfer_read {tokenId : Nat} (bound : tokenId < 2 ^ 32)
    («from» «to» : Address) :
    (IdentityState.transferEvents «from» «to» tokenId).map
        (fun event => (ContractEvent.identity event).read stamp) =
      transferReadings stamp «from» «to» tokenId := by
  simp only [IdentityState.transferEvents, List.map_cons, List.map_nil,
    ContractEvent.read, ContractEvent.contract, ContractEvent.publish,
    interpret_walletUnset bound stamp, interpret_transfer bound stamp,
    transferReadings]

/-- The events of a successful identity call are read as the call. -/
theorem identityCall_read
    (success : state.call approvals request = .ok (after, events)) :
    events.map (fun event => (ContractEvent.identity event).read stamp) =
      request.readings state stamp := by
  obtain ⟨takes, rfl⟩ := IdentityState.call_ok success
  cases takes with
  | register caller room =>
      exact registration_read stamp (by omega) caller none [] (by simp)
  | registerWithUri caller agentUri room =>
      exact registration_read stamp (by omega) caller (some agentUri) []
        (by simp)
  | registerFull caller agentUri metadata few storable room =>
      exact registration_read stamp (by omega) caller (some agentUri)
        metadata storable
  | setAgentUri caller agentId newUri =>
      exact congrArg (fun reading => [reading])
        (interpret_uriUpdated agentId.toNat_lt stamp caller newUri)
  | setMetadata caller agentId key value storable =>
      exact congrArg (fun reading => [reading])
        (interpret_metadataSet agentId.toNat_lt stamp value
          (decodeText_ordinary storable.2.2))
  | setAgentWallet caller agentId newWallet =>
      exact congrArg (fun reading => [reading])
        (interpret_walletSet agentId.toNat_lt stamp newWallet)
  | unsetAgentWallet caller agentId =>
      exact congrArg (fun reading => [reading])
        (interpret_walletUnset agentId.toNat_lt stamp)
  | transfer «from» «to» tokenId =>
      exact transfer_read stamp tokenId.toNat_lt «from» «to»
  | transferFrom spender «from» «to» tokenId =>
      exact transfer_read stamp tokenId.toNat_lt «from» «to»

end

/-! ## Reputation and validation -/

theorem reputationCall_read {state after : ReputationState}
    {identity : IdentityAnswers} {request : ReputationCall}
    {events : List ReputationEvent}
    (numbered : ∀ {agent client index data},
      state.feedback agent client index = some data → 1 ≤ index)
    (success : state.call identity request = .ok (after, events))
    (stamp : Stamp) :
    events.map (fun event => (ContractEvent.reputation event).read stamp) =
      request.readings state stamp := by
  obtain ⟨takes, rfl⟩ := ReputationState.call_ok success
  cases takes with
  | giveFeedback caller agentId value valueDecimals tag1 tag2 endpoint
      feedbackUri feedbackHash scale =>
      exact congrArg (fun reading => [reading])
        (interpret_newFeedback agentId.toNat_lt stamp caller (by omega) scale
          value tag1 tag2 endpoint feedbackUri feedbackHash)
  | revokeFeedback caller agentId feedbackIndex found =>
      exact congrArg (fun reading => [reading])
        (interpret_feedbackRevoked agentId.toNat_lt stamp caller
          (numbered found))
  | appendResponse caller agentId clientAddress feedbackIndex responseUri
      responseHash found =>
      exact congrArg (fun reading => [reading])
        (interpret_responseAppended agentId.toNat_lt stamp clientAddress
          (numbered found) caller responseUri responseHash)

theorem validationCall_read {state after : ValidationState}
    {identity : OwnerAnswers} {sequence : Nat} {request : ValidationCall}
    {events : List ValidationEvent}
    (named : ∀ {hash status}, state.validation hash = some status →
      status.agentId < 2 ^ 32)
    (success : state.call identity sequence request = .ok (after, events))
    (stamp : Stamp) :
    events.map (fun event => (ContractEvent.validation event).read stamp) =
      request.readings state stamp := by
  obtain ⟨takes, rfl⟩ := ValidationState.call_ok success
  cases takes with
  | validationRequest caller validatorAddress agentId requestUri
      requestHash =>
      exact congrArg (fun reading => [reading])
        (interpret_validationRequest agentId.toNat_lt stamp validatorAddress
          requestHash requestUri)
  | @validationResponse status requestHash response responseUri responseHash
      tag small found =>
      simp only [ValidationCall.readings, ValidationState.published, found]
      exact congrArg (fun reading => [reading])
        (interpret_validationResponse (named found) stamp
          status.validatorAddress requestHash small responseUri responseHash
          tag)

/-! ## Runs -/

/-- Recorded validations are about 32-bit agent numbers. -/
theorem validation_named {history : List ChainAction} {chain : Chain}
    (run : Accepted Chain.step .initial history chain) :
    ∀ hash status, chain.validation.validation hash = some status →
      status.agentId < 2 ^ 32 := by
  apply run.invariant fun _ chain => ∀ hash status,
    chain.validation.validation hash = some status →
      status.agentId < 2 ^ 32
  · exact fun _ _ found => (nomatch found)
  · intro history chain action after earlier named taken hash status found
    cases Chain.step_takes taken with
    | identity isCall takes => exact named hash status found
    | reputation isCall takes => exact named hash status found
    | validation isCall takes =>
        cases takes with
        | validationRequest caller validatorAddress agentId requestUri
            requestHash required fresh =>
            simp only [Function.update_apply] at found
            split at found
            · cases found
              exact agentId.toNat_lt
            · exact named hash status found
        | validationResponse requestHash response responseUri responseHash
            tag small isStatus =>
            simp only [ValidationState.setValidation,
              Function.update_apply] at found
            split at found
            · cases found
              have bound := named _ _ isStatus
              exact bound
            · exact named hash status found

/-- The events of a successful call in a reached state are read as the
call. -/
theorem call_read {history : List ChainAction} {chain after : Chain}
    (run : Accepted Chain.step .initial history chain)
    {approvals : Approvals} {ledger : Nat} {request : ContractCall}
    {events : List ContractEvent}
    (success : chain.call approvals ledger request = some (after, events))
    (stamp : Stamp) :
    events.map (ContractEvent.read stamp) =
      request.readings chain stamp := by
  cases request with
  | identity request =>
      simp only [Chain.call] at success
      split at success
      · cases success
      · rename_i result
        cases success
        rw [List.map_map]
        exact identityCall_read stamp result
  | reputation request =>
      simp only [Chain.call] at success
      split at success
      · cases success
      · rename_i result
        cases success
        rw [List.map_map]
        apply reputationCall_read _ result
        intro agent client index data found
        obtain ⟨_, _, _, _, _, _, _, _, _, _, _, rfl, _⟩ :=
          feedback_outsider run agent client index data found
        omega
  | validation request =>
      simp only [Chain.call] at success
      split at success
      · cases success
      · rename_i result
        cases success
        rw [List.map_map]
        exact validationCall_read (validation_named run _ _) result stamp

/-- Of a call nothing is invalid. -/
theorem readings_known (chain : Chain) (stamp : Stamp)
    (request : ContractCall) :
    ∀ reading ∈ request.readings chain stamp,
      (∃ parsed, reading = .parsed parsed) ∨
        reading = .ignored .unrelated := by
  have registration : ∀ agentId caller agentUri metadata, ∀ reading ∈
      registrationReadings stamp agentId caller agentUri metadata,
      (∃ parsed, reading = .parsed parsed) ∨
        reading = .ignored .unrelated := by
    intro agentId caller agentUri metadata reading member
    simp only [registrationReadings, List.mem_append, List.mem_cons,
      List.mem_map, List.not_mem_nil, or_false] at member
    rcases member with ((same | same) | ⟨entry, _, same⟩) | same
    · exact .inr same
    · exact .inl ⟨_, same⟩
    · exact .inl ⟨_, same.symm⟩
    · exact .inl ⟨_, same⟩
  have single : ∀ parsed, ∀ reading ∈ [EventInterpretation.parsed parsed],
      (∃ parsed, reading = .parsed parsed) ∨
        reading = .ignored .unrelated :=
    fun parsed reading member => .inl ⟨parsed, List.mem_singleton.mp member⟩
  have transfer : ∀ «from» «to» agentId, ∀ reading ∈
      transferReadings stamp «from» «to» agentId,
      (∃ parsed, reading = .parsed parsed) ∨
        reading = .ignored .unrelated := by
    intro «from» «to» agentId reading member
    rcases List.mem_cons.mp member with same | later
    · exact .inl ⟨_, same⟩
    · exact single _ reading later
  cases request with
  | identity request =>
      cases request with
      | register caller => exact registration _ _ _ _
      | registerWithUri caller agentUri => exact registration _ _ _ _
      | registerFull caller agentUri metadata => exact registration _ _ _ _
      | transfer «from» «to» tokenId => exact transfer _ _ _
      | transferFrom spender «from» «to» tokenId => exact transfer _ _ _
      | _ => exact single _
  | reputation request =>
      cases request <;> exact single _
  | validation request =>
      cases request with
      | validationRequest caller validatorAddress agentId requestUri
          requestHash => exact single _
      | validationResponse caller requestHash response responseUri
          responseHash tag =>
          intro reading member
          obtain ⟨status, _, same⟩ := Option.map_eq_some_iff.mp
            (Option.mem_toList.mp member)
          exact .inl ⟨_, same.symm⟩

/-- In every reached state the events of a successful call are read as the
call: those with a recognised name are parsed, with the fields of the call,
and those with any other name, whatever their topics and data, are none of
the indexer's. -/
theorem published_events_read {history : List ChainAction}
    {chain after : Chain}
    (run : Accepted Chain.step .initial history chain)
    {approvals : Approvals} {ledger : Nat} {request : ContractCall}
    {events : List ContractEvent}
    (success : chain.call approvals ledger request = some (after, events))
    (stamp : Stamp) :
    events.map (ContractEvent.read stamp) = request.readings chain stamp ∧
    (∀ event ∈ events, ∀ name,
      event.publish.topics.head? = some (.symbol name) →
      name ∈ recognizedNames event.contract →
        ∃ parsed, event.read stamp = .parsed parsed) ∧
    ∀ contract (emission : Emission) name,
      emission.topics.head? = some (.symbol name) →
      name ∉ recognizedNames contract →
        interpret contract (emission.response stamp) =
          .ignored .unrelated := by
  have read := call_read run success stamp
  refine ⟨read, fun event published name isName recognized => ?_, ?_⟩
  · have member : event.read stamp ∈ request.readings chain stamp := by
      rw [← read]
      exact List.mem_map_of_mem published
    rcases readings_known chain stamp request _ member with parsed | unrelated
    · exact parsed
    · exact absurd recognized
        ((interpret_unrelated_iff event.contract isName stamp).mp unrelated)
  · intro contract emission name isName other
    exact (interpret_unrelated_iff contract isName stamp).mpr other

/-- The first review of an agent. -/
def firstReview : ContractCall :=
  .reputation (.giveFeedback secondOwner 0 5 2 (utf8 "quality") ⟨#[]⟩ ⟨#[]⟩
    ⟨#[]⟩ (Vector.replicate 32 7))

theorem published_events_read_review :
    ∃ chain after events,
      Accepted Chain.step .initial
        [⟨noApprovals, 1, .identity (.register firstOwner)⟩] chain ∧
      chain.call noApprovals 2 firstReview = some (after, events) ∧
      events.map (ContractEvent.read (stampAt 2 "a")) =
        [.parsed (.newFeedback
          { (stampAt 2 "a").base with
            agentId := 0, clientAddress := StrKey.encode secondOwner
            feedbackIndex := 1, value := 5, valueDecimals := 2
            tag1 := decodeText (utf8 "quality"), tag2 := decodeText ⟨#[]⟩
            endpoint := decodeText ⟨#[]⟩, feedbackUri := decodeText ⟨#[]⟩
            feedbackHash := hexText (Vector.replicate 32 7) })] := by
  have run : Accepted Chain.step .initial
      [⟨noApprovals, 1, .identity (.register firstOwner)⟩] _ :=
    .took .start rfl
  refine ⟨_, _, _, run, rfl, ?_⟩
  exact (@published_events_read _ _ _ run noApprovals 2 firstReview _ rfl
    (stampAt 2 "a")).1

/-! ## Text metadata -/

theorem utf8_of_fromUTF8? {bytes : Bytes} {text : String}
    (decoded : String.fromUTF8? bytes = some text) : utf8 text = bytes := by
  unfold String.fromUTF8? at decoded
  split at decoded
  · cases decoded
    rfl
  · cases decoded

/-- The event is read as metadata whose key and value encode to the bytes on
the chain. -/
def IdentityEvent.ReadsBack (event : IdentityEvent) (stamp : Stamp)
    (key value : Bytes) : Prop :=
  ∃ data, parseIdentityEvent (event.publish.response stamp) =
      some (.metadataSet data) ∧
    utf8 data.key = key ∧ utf8 data.value = value

/-- Text that `set_metadata` accepts is read back, except that a value loses
a leading byte-order mark. -/
theorem metadata_text_read_iff
    {state after : IdentityState} {approvals : Approvals} {caller : Address}
    {agentId : UInt32} {key value : Bytes} {events : List IdentityEvent}
    (success : state.call approvals (.setMetadata caller agentId key value) =
      .ok (after, events))
    (keyIsText : (String.fromUTF8? key).isSome = true)
    (valueIsText : (String.fromUTF8? value).isSome = true) (stamp : Stamp) :
    (∃ event, events = [event] ∧ event.ReadsBack stamp key value) ↔
      ¬ byteOrderMarkBytes <+: value.data.toList := by
  obtain ⟨keyText, isKey⟩ := Option.isSome_iff_exists.mp keyIsText
  obtain ⟨valueText, isValue⟩ := Option.isSome_iff_exists.mp valueIsText
  obtain rfl := utf8_of_fromUTF8? isKey
  obtain rfl := utf8_of_fromUTF8? isValue
  have isEvents : events = [.metadataSet agentId.toNat (utf8 keyText)
      (utf8 valueText)] ∧ utf8 keyText ≠ agentWalletKey := by
    simp only [IdentityState.call] at success
    split at success
    · cases success
    split at success
    · cases success
    split at success
    · cases success
    split at success
    · cases success
    rename_i ordinary
    obtain ⟨_, _, rest⟩ := bind_ok_iff.mp success
    split at rest
    · cases rest
    · cases rest
      exact ⟨rfl, ordinary⟩
  obtain ⟨rfl, ordinary⟩ := isEvents
  have isRead : parseIdentityEvent ((IdentityEvent.metadataSet agentId.toNat
      (utf8 keyText) (utf8 valueText)).publish.response stamp) =
        some (.metadataSet
          { stamp.base with
            agentId := agentId.toNat, key := keyText
            value := dropByteOrderMark valueText }) := by
    have decoded : utf8Decoder (utf8 valueText) =
        dropByteOrderMark valueText := by
      unfold utf8Decoder
      rw [fromUTF8?_utf8]
    unfold parseIdentityEvent caught
    rw [parse_metadataSet agentId.toNat_lt,
      if_neg (decodeText_ordinary ordinary), decodeText_utf8, decoded]
  rw [← dropByteOrderMark_eq_iff]
  constructor
  · rintro ⟨event, isEvent, data, isData, _, isValue⟩
    cases isEvent
    rw [isRead] at isData
    cases isData
    exact utf8_injective isValue
  · intro kept
    refine ⟨_, rfl, _, isRead, rfl, ?_⟩
    rw [kept]

/-- The registry after a first registration. -/
def firstRegistered : IdentityState × List IdentityEvent :=
  match IdentityState.initial.call noApprovals (.register firstOwner) with
  | .ok result => result
  | .error _ => (.initial, [])

theorem metadata_text_read_note :
    IdentityState.initial.call noApprovals (.register firstOwner) =
        .ok firstRegistered ∧
      ∃ after events, firstRegistered.1.call noApprovals
          (.setMetadata firstOwner 0 (utf8 "note") (utf8 "hi")) =
            .ok (after, events) ∧
        ∃ event, events = [event] ∧
          event.ReadsBack (stampAt 2 "a") (utf8 "note") (utf8 "hi") := by
  have success : firstRegistered.1.call noApprovals
      (.setMetadata firstOwner 0 (utf8 "note") (utf8 "hi")) =
        .ok (_, _) := rfl
  refine ⟨rfl, _, _, success, ?_⟩
  apply (metadata_text_read_iff success (by simp) (by simp)
    (stampAt 2 "a")).mpr
  decide

/-- A value that begins with the mark is read without it. -/
theorem marked_text_not_read :
    IdentityState.initial.call noApprovals (.register firstOwner) =
        .ok firstRegistered ∧
      ∃ after event, firstRegistered.1.call noApprovals
          (.setMetadata firstOwner 0 (utf8 "note") (utf8 "\uFEFFhi")) =
            .ok (after, [event]) ∧
        parseIdentityEvent (event.publish.response (stampAt 2 "a")) =
          some (.metadataSet
            { (stampAt 2 "a").base with
              agentId := 0, key := "note", value := "hi" }) ∧
        ¬ event.ReadsBack (stampAt 2 "a") (utf8 "note")
          (utf8 "\uFEFFhi") := by
  have isRead : parseIdentityEvent
      ((IdentityEvent.metadataSet 0 (utf8 "note")
        (utf8 "\uFEFFhi")).publish.response (stampAt 2 "a")) =
      some (.metadataSet
        { (stampAt 2 "a").base with
          agentId := 0, key := "note", value := "hi" }) := by
    have decoded : utf8Decoder (utf8 "\uFEFFhi") = "hi" := by
      unfold utf8Decoder
      rw [fromUTF8?_utf8]
      decide
    unfold parseIdentityEvent caught
    rw [parse_metadataSet (by decide), decodeText_utf8, decoded]
    decide
  refine ⟨rfl, _, _, rfl, isRead, ?_⟩
  rintro ⟨data, isData, _, isValue⟩
  cases isRead.symm.trans isData
  exact absurd (utf8_injective isValue) (by decide)

end Stellar8004.Contracts
