import Stellar8004.Contracts.Identity

/-!
# The reputation registry

`contracts/reputation-registry`: feedback by clients, its revocation and
responses to it.  The identity registry is asked during `give_feedback`; its
answers are arguments of the call.
-/

namespace Stellar8004.Contracts

/-- The events of `reputation-registry/src/events.rs`. -/
inductive ReputationEvent where
  | newFeedback (agentId : Nat) (clientAddress : Address)
      (feedbackIndex : Nat) (value : Int) (valueDecimals : Nat)
      (tag1 tag2 endpoint feedbackUri : Bytes)
      (feedbackHash : Vector UInt8 32)
  | feedbackRevoked (agentId : Nat) (clientAddress : Address)
      (feedbackIndex : Nat)
  | responseAppended (agentId : Nat) (clientAddress responder : Address)
      (feedbackIndex : Nat) (responseUri : Bytes)
      (responseHash : Vector UInt8 32)
  deriving DecidableEq

/-- `BytesN<32>` as a contract value. -/
def bytesN (value : Vector UInt8 32) : ScVal := .bytes ⟨value.toArray⟩

def ReputationEvent.publish : ReputationEvent → Emission
  | newFeedback agentId clientAddress feedbackIndex value valueDecimals tag1
      tag2 endpoint feedbackUri feedbackHash =>
      contractEvent "new_feedback"
        [u32 agentId, .address clientAddress, .string tag1]
        [("endpoint", .string endpoint),
          ("feedback_hash", bytesN feedbackHash),
          ("feedback_index", u64 feedbackIndex),
          ("feedback_uri", .string feedbackUri), ("tag2", .string tag2),
          ("value", .int .i128 value), ("value_decimals", u32 valueDecimals)]
  | feedbackRevoked agentId clientAddress feedbackIndex =>
      contractEvent "feedback_revoked"
        [u32 agentId, .address clientAddress, u64 feedbackIndex] []
  | responseAppended agentId clientAddress responder feedbackIndex responseUri
      responseHash =>
      contractEvent "response_appended"
        [u32 agentId, .address clientAddress, .address responder]
        [("feedback_index", u64 feedbackIndex),
          ("response_hash", bytesN responseHash),
          ("response_uri", .string responseUri)]

/-- The texts an event carries. -/
def ReputationEvent.texts : ReputationEvent → List Bytes
  | newFeedback _ _ _ _ _ tag1 tag2 endpoint feedbackUri _ =>
      [tag1, tag2, endpoint, feedbackUri]
  | feedbackRevoked _ _ _ => []
  | responseAppended _ _ _ _ responseUri _ => [responseUri]

inductive ReputationError where
  | selfFeedback
  | feedbackNotFound
  | invalidValueDecimals
  | aggregateOverflow
  | agentNotFound
  | emptyValue
  | valueOutOfRange
  | clientAddressesRequired
  | noUpgradeProposed
  | timelockNotExpired
  | upgradeAlreadyProposed
  | panic (message : String)
  deriving DecidableEq

structure FeedbackData where
  value : Int
  valueDecimals : Nat
  isRevoked : Bool
  tag1 : Bytes
  tag2 : Bytes
  deriving DecidableEq

structure ReputationState where
  feedback : Nat → Address → Nat → Option FeedbackData
  lastIndex : Nat → Address → Nat
  clientCount : Nat → Nat
  clientAtIndex : Nat → Nat → Option Address
  clientExists : Nat → Address → Bool
  responseCount : Nat → Address → Nat → Nat

/-- What the identity registry answers during a call. -/
structure IdentityAnswers where
  agentExists : Nat → Bool
  isAuthorizedOrOwner : Address → Nat → Bool

inductive ReputationCall where
  | giveFeedback (caller : Address) (agentId : UInt32) (value : Int)
      (valueDecimals : UInt32) (tag1 tag2 endpoint feedbackUri : Bytes)
      (feedbackHash : Vector UInt8 32)
  | revokeFeedback (caller : Address) (agentId : UInt32)
      (feedbackIndex : UInt64)
  | appendResponse (caller : Address) (agentId : UInt32)
      (clientAddress : Address) (feedbackIndex : UInt64)
      (responseUri : Bytes) (responseHash : Vector UInt8 32)
  deriving DecidableEq

/-- The texts a call is given. -/
def ReputationCall.texts : ReputationCall → List Bytes
  | giveFeedback _ _ _ _ tag1 tag2 endpoint feedbackUri _ =>
      [tag1, tag2, endpoint, feedbackUri]
  | revokeFeedback _ _ _ => []
  | appendResponse _ _ _ _ responseUri _ => [responseUri]

def MAX_ABS_VALUE : Int := 100000000000000000000000000000000000000

namespace ReputationState

def initial : ReputationState :=
  { feedback := fun _ _ _ => none, lastIndex := fun _ _ => 0
    clientCount := fun _ => 0, clientAtIndex := fun _ _ => none
    clientExists := fun _ _ => false, responseCount := fun _ _ _ => 0 }

/-! ## Storage -/

def setFeedback (state : ReputationState) (agentId : Nat) (client : Address)
    (index : Nat) (data : FeedbackData) : ReputationState :=
  { state with
    feedback := Function.update state.feedback agentId
      (Function.update (state.feedback agentId) client
        (Function.update (state.feedback agentId client) index
          (some data))) }

def setLastIndex (state : ReputationState) (agentId : Nat) (client : Address)
    (index : Nat) : ReputationState :=
  { state with
    lastIndex := Function.update state.lastIndex agentId
      (Function.update (state.lastIndex agentId) client index) }

def addClient (state : ReputationState) (agentId : Nat) (client : Address) :
    Except ReputationError ReputationState :=
  if state.clientCount agentId + 1 < 2 ^ 32 then
    .ok { state with
      clientAtIndex := Function.update state.clientAtIndex agentId
        (Function.update (state.clientAtIndex agentId)
          (state.clientCount agentId) (some client))
      clientExists := Function.update state.clientExists agentId
        (Function.update (state.clientExists agentId) client true)
      clientCount := Function.update state.clientCount agentId
        (state.clientCount agentId + 1) }
  else .error .aggregateOverflow

/-- `if !client_exists { add_client }`. -/
def ensureClient (state : ReputationState) (agentId : Nat)
    (client : Address) : Except ReputationError ReputationState :=
  if state.clientExists agentId client then .ok state
  else state.addClient agentId client

def incrementResponseCount (state : ReputationState) (agentId : Nat)
    (client : Address) (index : Nat) :
    Except ReputationError ReputationState :=
  if state.responseCount agentId client index + 1 < 2 ^ 32 then
    .ok { state with
      responseCount := Function.update state.responseCount agentId
        (Function.update (state.responseCount agentId) client
          (Function.update (state.responseCount agentId client) index
            (state.responseCount agentId client index + 1))) }
  else .error .aggregateOverflow

def readFeedback (state : ReputationState) (agentId : Nat) (client : Address)
    (index : Nat) : Except ReputationError FeedbackData :=
  match state.feedback agentId client index with
  | some data => .ok data
  | none => .error .feedbackNotFound

def getResponseCount (state : ReputationState) (agentId : Nat)
    (client : Address) (index : Nat) : Nat :=
  state.responseCount agentId client index

/-! ## Calls -/

def call (state : ReputationState) (identity : IdentityAnswers) :
    ReputationCall →
      Except ReputationError (ReputationState × List ReputationEvent)
  | .giveFeedback caller agentId value valueDecimals tag1 tag2 endpoint
      feedbackUri feedbackHash => do
      let agentId := agentId.toNat
      let valueDecimals := valueDecimals.toNat
      if 18 < valueDecimals then .error .invalidValueDecimals
      else if ¬(-MAX_ABS_VALUE ≤ value ∧ value ≤ MAX_ABS_VALUE) then
        .error .valueOutOfRange
      else if identity.agentExists agentId = false then .error .agentNotFound
      else if identity.isAuthorizedOrOwner caller agentId then
        .error .selfFeedback
      else
        let state ← state.ensureClient agentId caller
        let feedbackIndex := state.lastIndex agentId caller + 1
        if 2 ^ 64 ≤ feedbackIndex then
          .error (.panic "attempt to add with overflow")
        else
          let state := state.setLastIndex agentId caller feedbackIndex
          return (state.setFeedback agentId caller feedbackIndex
              { value, valueDecimals, isRevoked := false, tag1, tag2 },
            [.newFeedback agentId caller feedbackIndex value valueDecimals
              tag1 tag2 endpoint feedbackUri feedbackHash])
  | .revokeFeedback caller agentId feedbackIndex =>
      let agentId := agentId.toNat
      let feedbackIndex := feedbackIndex.toNat
      match state.feedback agentId caller feedbackIndex with
      | none => .error .feedbackNotFound
      | some data =>
          if data.isRevoked then .error .feedbackNotFound
          else
            .ok (state.setFeedback agentId caller feedbackIndex
                { data with isRevoked := true },
              [.feedbackRevoked agentId caller feedbackIndex])
  | .appendResponse caller agentId clientAddress feedbackIndex responseUri
      responseHash => do
      let agentId := agentId.toNat
      let feedbackIndex := feedbackIndex.toNat
      if responseUri.size = 0 then .error .emptyValue
      else
        match state.feedback agentId clientAddress feedbackIndex with
        | none => .error .feedbackNotFound
        | some _ =>
            let state ← state.incrementResponseCount agentId clientAddress
              feedbackIndex
            return (state,
              [.responseAppended agentId clientAddress caller feedbackIndex
                responseUri responseHash])

/-! ## What a call can do -/

/-- The calls that succeed, by what they write and publish. -/
inductive Performs (state : ReputationState) (agentExists : Nat → Bool) :
    ReputationState → List ReputationEvent → Prop where
  | giveFeedback (counted : ReputationState) (caller : Address)
      (agentId : UInt32) (value : Int) (valueDecimals : Nat)
      (tag1 tag2 endpoint feedbackUri : Bytes)
      (feedbackHash : Vector UInt8 32)
      (scale : valueDecimals ≤ 18)
      (living : agentExists agentId.toNat = true)
      (sameFeedback : counted.feedback = state.feedback)
      (sameIndex : counted.lastIndex = state.lastIndex)
      (sameResponses : counted.responseCount = state.responseCount) :
      Performs state agentExists
        ((counted.setLastIndex agentId.toNat caller
            (state.lastIndex agentId.toNat caller + 1)).setFeedback
          agentId.toNat caller (state.lastIndex agentId.toNat caller + 1)
          { value, valueDecimals, isRevoked := false, tag1, tag2 })
        [.newFeedback agentId.toNat caller
          (state.lastIndex agentId.toNat caller + 1) value valueDecimals tag1
          tag2 endpoint feedbackUri feedbackHash]
  | revokeFeedback (caller : Address) (agentId : UInt32)
      (feedbackIndex : Nat) (data : FeedbackData)
      (found : state.feedback agentId.toNat caller feedbackIndex = some data)
      (standing : data.isRevoked = false) :
      Performs state agentExists
        (state.setFeedback agentId.toNat caller feedbackIndex
          { data with isRevoked := true })
        [.feedbackRevoked agentId.toNat caller feedbackIndex]
  | appendResponse (caller : Address) (agentId : UInt32)
      (clientAddress : Address) (feedbackIndex : Nat) (responseUri : Bytes)
      (responseHash : Vector UInt8 32) (data : FeedbackData)
      (found : state.feedback agentId.toNat clientAddress feedbackIndex =
        some data) :
      Performs state agentExists
        { state with
          responseCount := Function.update state.responseCount agentId.toNat
            (Function.update (state.responseCount agentId.toNat)
              clientAddress
              (Function.update
                (state.responseCount agentId.toNat clientAddress)
                feedbackIndex
                (state.responseCount agentId.toNat clientAddress
                  feedbackIndex + 1))) }
        [.responseAppended agentId.toNat clientAddress caller feedbackIndex
          responseUri responseHash]

/-- `if !client_exists { add_client }` lists a new client last. -/
theorem ensureClient_ok {state counted : ReputationState} {agentId : Nat}
    {client : Address}
    (ensured : state.ensureClient agentId client = .ok counted) :
    counted.feedback = state.feedback ∧
      counted.lastIndex = state.lastIndex ∧
      counted.responseCount = state.responseCount ∧
      ((state.clientExists agentId client = true ∧ counted = state) ∨
        (state.clientExists agentId client = false ∧ counted =
          { state with
            clientAtIndex := Function.update state.clientAtIndex agentId
              (Function.update (state.clientAtIndex agentId)
                (state.clientCount agentId) (some client))
            clientExists := Function.update state.clientExists agentId
              (Function.update (state.clientExists agentId) client true)
            clientCount := Function.update state.clientCount agentId
              (state.clientCount agentId + 1) })) := by
  unfold ensureClient at ensured
  split at ensured
  · rename_i known
    cases ensured
    exact ⟨rfl, rfl, rfl, .inl ⟨known, rfl⟩⟩
  · rename_i unknown
    unfold addClient at ensured
    split at ensured
    · cases ensured
      exact ⟨rfl, rfl, rfl, .inr ⟨by simpa using unknown, rfl⟩⟩
    · cases ensured

/-- The calls that succeed, with everything they checked. -/
inductive Takes (state : ReputationState) (identity : IdentityAnswers) :
    ReputationCall → ReputationState → Prop where
  | giveFeedback {counted : ReputationState} (caller : Address)
      (agentId : UInt32) (value : Int) (valueDecimals : UInt32)
      (tag1 tag2 endpoint feedbackUri : Bytes)
      (feedbackHash : Vector UInt8 32)
      (scale : valueDecimals.toNat ≤ 18)
      (range : -MAX_ABS_VALUE ≤ value ∧ value ≤ MAX_ABS_VALUE)
      (living : identity.agentExists agentId.toNat = true)
      (outsider : identity.isAuthorizedOrOwner caller agentId.toNat = false)
      (ensured : state.ensureClient agentId.toNat caller = .ok counted)
      (room : state.lastIndex agentId.toNat caller + 1 < 2 ^ 64) :
      Takes state identity
        (.giveFeedback caller agentId value valueDecimals tag1 tag2 endpoint
          feedbackUri feedbackHash)
        ((counted.setLastIndex agentId.toNat caller
            (state.lastIndex agentId.toNat caller + 1)).setFeedback
          agentId.toNat caller (state.lastIndex agentId.toNat caller + 1)
          { value, valueDecimals := valueDecimals.toNat, isRevoked := false
            tag1, tag2 })
  | revokeFeedback {data : FeedbackData} (caller : Address)
      (agentId : UInt32) (feedbackIndex : UInt64)
      (found : state.feedback agentId.toNat caller feedbackIndex.toNat =
        some data)
      (standing : data.isRevoked = false) :
      Takes state identity (.revokeFeedback caller agentId feedbackIndex)
        (state.setFeedback agentId.toNat caller feedbackIndex.toNat
          { data with isRevoked := true })
  | appendResponse {data : FeedbackData} (caller : Address)
      (agentId : UInt32) (clientAddress : Address) (feedbackIndex : UInt64)
      (responseUri : Bytes) (responseHash : Vector UInt8 32)
      (found : state.feedback agentId.toNat clientAddress
        feedbackIndex.toNat = some data) :
      Takes state identity
        (.appendResponse caller agentId clientAddress feedbackIndex
          responseUri responseHash)
        { state with
          responseCount := Function.update state.responseCount agentId.toNat
            (Function.update (state.responseCount agentId.toNat)
              clientAddress
              (Function.update
                (state.responseCount agentId.toNat clientAddress)
                feedbackIndex.toNat
                (state.responseCount agentId.toNat clientAddress
                  feedbackIndex.toNat + 1))) }

/-- The event of a call that succeeds. -/
def published (state : ReputationState) :
    ReputationCall → List ReputationEvent
  | .giveFeedback caller agentId value valueDecimals tag1 tag2 endpoint
      feedbackUri feedbackHash =>
      [.newFeedback agentId.toNat caller
        (state.lastIndex agentId.toNat caller + 1) value valueDecimals.toNat
        tag1 tag2 endpoint feedbackUri feedbackHash]
  | .revokeFeedback caller agentId feedbackIndex =>
      [.feedbackRevoked agentId.toNat caller feedbackIndex.toNat]
  | .appendResponse caller agentId clientAddress feedbackIndex responseUri
      responseHash =>
      [.responseAppended agentId.toNat clientAddress caller
        feedbackIndex.toNat responseUri responseHash]

section

variable {state after : ReputationState} {identity : IdentityAnswers}
  {request : ReputationCall} {events : List ReputationEvent}

/-- All there is to know of a call that succeeds. -/
theorem call_ok
    (success : state.call identity request = .ok (after, events)) :
    state.Takes identity request after ∧ events = state.published request := by
  cases request with
  | giveFeedback caller agentId value valueDecimals tag1 tag2 endpoint
      feedbackUri feedbackHash =>
      simp only [call] at success
      split at success
      · cases success
      rename_i scale
      split at success
      · cases success
      rename_i range
      split at success
      · cases success
      rename_i living
      split at success
      · cases success
      rename_i outsider
      obtain ⟨counted, ensured, rest⟩ := bind_ok_iff.mp success
      rw [(ensureClient_ok ensured).2.1] at rest
      split at rest
      · cases rest
      · rename_i room
        cases rest
        constructor
        · exact .giveFeedback caller agentId value valueDecimals tag1 tag2
            endpoint feedbackUri feedbackHash (Nat.not_lt.mp scale)
            (not_not.mp range) (by simpa using living)
            (by simpa using outsider) ensured (Nat.not_le.mp room)
        · rfl
  | revokeFeedback caller agentId feedbackIndex =>
      simp only [call] at success
      split at success
      · cases success
      · rename_i data found
        split at success
        · cases success
        · rename_i standing
          cases success
          constructor
          · exact .revokeFeedback caller agentId feedbackIndex found
              (by simpa using standing)
          · rfl
  | appendResponse caller agentId clientAddress feedbackIndex responseUri
      responseHash =>
      simp only [call] at success
      split at success
      · cases success
      split at success
      · cases success
      · rename_i data found
        unfold incrementResponseCount at success
        split at success
        · cases success
          constructor
          · exact .appendResponse caller agentId clientAddress feedbackIndex
              responseUri responseHash found
          · rfl
        · cases success

theorem call_performs
    (success : state.call identity request = .ok (after, events)) :
    state.Performs identity.agentExists after events := by
  obtain ⟨takes, rfl⟩ := call_ok success
  cases takes with
  | giveFeedback caller agentId value valueDecimals tag1 tag2 endpoint
      feedbackUri feedbackHash scale range living outsider ensured room =>
      obtain ⟨sameFeedback, sameIndex, sameResponses, -⟩ :=
        ensureClient_ok ensured
      exact .giveFeedback _ caller agentId value _ tag1 tag2 endpoint
        feedbackUri feedbackHash scale living sameFeedback sameIndex
        sameResponses
  | revokeFeedback caller agentId feedbackIndex found standing =>
      exact .revokeFeedback caller agentId feedbackIndex.toNat _ found standing
  | appendResponse caller agentId clientAddress feedbackIndex responseUri
      responseHash found =>
      exact .appendResponse caller agentId clientAddress feedbackIndex.toNat
        responseUri responseHash _ found

/-- Every text of a published event is one of the call's. -/
theorem call_texts
    (success : state.call identity request = .ok (after, events)) :
    ∀ event ∈ events, ∀ text ∈ event.texts, text ∈ request.texts := by
  obtain ⟨-, rfl⟩ := call_ok success
  intro event member
  cases request with
  | giveFeedback =>
      rw [List.mem_singleton.mp member]
      exact fun text inside => inside
  | revokeFeedback =>
      rw [List.mem_singleton.mp member]
      exact fun text inside => (nomatch inside)
  | appendResponse =>
      rw [List.mem_singleton.mp member]
      exact fun text inside => inside

end

end ReputationState

end Stellar8004.Contracts
