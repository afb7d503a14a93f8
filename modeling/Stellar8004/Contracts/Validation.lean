import Stellar8004.Contracts.Reputation

/-!
# The validation registry

`contracts/validation-registry`: requests by an agent's owner or an approved
address, and the designated validator's responses, which may be updated.
-/

namespace Stellar8004.Contracts

/-- The events of `validation-registry/src/events.rs`. -/
inductive ValidationEvent where
  | validationRequest (validatorAddress : Address) (agentId : Nat)
      (requestHash : Vector UInt8 32) (requestUri : Bytes)
  | validationResponse (validatorAddress : Address) (agentId : Nat)
      (requestHash : Vector UInt8 32) (response : Nat) (responseUri : Bytes)
      (responseHash : Vector UInt8 32) (tag : Bytes)
  deriving DecidableEq

def ValidationEvent.publish : ValidationEvent → Emission
  | validationRequest validatorAddress agentId requestHash requestUri =>
      contractEvent "validation_request"
        [.address validatorAddress, u32 agentId, bytesN requestHash]
        [("request_uri", .string requestUri)]
  | validationResponse validatorAddress agentId requestHash response
      responseUri responseHash tag =>
      contractEvent "validation_response"
        [.address validatorAddress, u32 agentId, bytesN requestHash]
        [("response", u32 response), ("response_hash", bytesN responseHash),
          ("response_uri", .string responseUri), ("tag", .string tag)]

inductive ValidationError where
  | notOwnerOrApproved
  | requestNotFound
  | invalidResponse
  | requestAlreadyExists
  | notDesignatedValidator
  | agentNotFound
  | counterOverflow
  | noUpgradeProposed
  | timelockNotExpired
  | upgradeAlreadyProposed
  | panic (message : String)
  deriving DecidableEq

structure ValidationStatus where
  validatorAddress : Address
  agentId : Nat
  response : Nat
  responseHash : Vector UInt8 32
  tag : Bytes
  lastUpdate : Nat
  hasResponse : Bool
  deriving DecidableEq

structure ValidationState where
  validation : Vector UInt8 32 → Option ValidationStatus
  agentValidationCount : Nat → Nat
  agentValidationAt : Nat → Nat → Option (Vector UInt8 32)
  validatorRequestCount : Address → Nat
  validatorRequestAt : Address → Nat → Option (Vector UInt8 32)

/-- What the identity registry answers during a call. -/
structure OwnerAnswers where
  findOwner : Nat → Option Address
  getApproved : Nat → Option Address
  isApprovedForAll : Address → Address → Bool

inductive ValidationCall where
  | validationRequest (caller validatorAddress : Address) (agentId : UInt32)
      (requestUri : Bytes) (requestHash : Vector UInt8 32)
  | validationResponse (caller : Address) (requestHash : Vector UInt8 32)
      (response : UInt32) (responseUri : Bytes)
      (responseHash : Vector UInt8 32) (tag : Bytes)
  deriving DecidableEq

/-- A request that was not answered yet. -/
def ValidationStatus.requested (validatorAddress : Address) (agentId : Nat)
    (sequence : Nat) : ValidationStatus :=
  { validatorAddress, agentId, response := 0
    responseHash := Vector.replicate 32 0, tag := ByteArray.empty
    lastUpdate := sequence, hasResponse := false }

namespace ValidationState

def initial : ValidationState :=
  { validation := fun _ => none, agentValidationCount := fun _ => 0
    agentValidationAt := fun _ _ => none
    validatorRequestCount := fun _ => 0
    validatorRequestAt := fun _ _ => none }

/-! ## Storage -/

def setValidation (state : ValidationState) (requestHash : Vector UInt8 32)
    (status : ValidationStatus) : ValidationState :=
  { state with
    validation := Function.update state.validation requestHash
      (some status) }

def addAgentValidation (state : ValidationState) (agentId : Nat)
    (requestHash : Vector UInt8 32) :
    Except ValidationError ValidationState :=
  if state.agentValidationCount agentId + 1 < 2 ^ 32 then
    .ok { state with
      agentValidationAt := Function.update state.agentValidationAt agentId
        (Function.update (state.agentValidationAt agentId)
          (state.agentValidationCount agentId) (some requestHash))
      agentValidationCount := Function.update state.agentValidationCount
        agentId (state.agentValidationCount agentId + 1) }
  else .error .counterOverflow

def addValidatorRequest (state : ValidationState) (validator : Address)
    (requestHash : Vector UInt8 32) :
    Except ValidationError ValidationState :=
  if state.validatorRequestCount validator + 1 < 2 ^ 32 then
    .ok { state with
      validatorRequestAt := Function.update state.validatorRequestAt validator
        (Function.update (state.validatorRequestAt validator)
          (state.validatorRequestCount validator) (some requestHash))
      validatorRequestCount := Function.update state.validatorRequestCount
        validator (state.validatorRequestCount validator + 1) }
  else .error .counterOverflow

def requestExists (state : ValidationState)
    (requestHash : Vector UInt8 32) : Bool :=
  (state.validation requestHash).isSome

def getValidationStatus (state : ValidationState)
    (requestHash : Vector UInt8 32) :
    Except ValidationError ValidationStatus :=
  match state.validation requestHash with
  | some status => .ok status
  | none => .error .requestNotFound

/-! ## Calls -/

/-- The check that the caller owns the agent or is approved for it. -/
def requireOwnerOrApproved (identity : OwnerAnswers) (caller : Address)
    (agentId : Nat) : Except ValidationError Unit :=
  match identity.findOwner agentId with
  | none => .error .agentNotFound
  | some owner =>
      if caller = owner then .ok ()
      else if identity.getApproved agentId = some caller then .ok ()
      else if identity.isApprovedForAll owner caller then .ok ()
      else .error .notOwnerOrApproved

/-- A call at a ledger sequence number. -/
def call (state : ValidationState) (identity : OwnerAnswers)
    (sequence : Nat) : ValidationCall →
      Except ValidationError (ValidationState × List ValidationEvent)
  | .validationRequest caller validatorAddress agentId requestUri
      requestHash => do
      let agentId := agentId.toNat
      requireOwnerOrApproved identity caller agentId
      if state.requestExists requestHash then .error .requestAlreadyExists
      else
        let state := state.setValidation requestHash
          { validatorAddress, agentId, response := 0
            responseHash := Vector.replicate 32 0, tag := ByteArray.empty
            lastUpdate := sequence, hasResponse := false }
        let state ← state.addAgentValidation agentId requestHash
        let state ← state.addValidatorRequest validatorAddress requestHash
        return (state,
          [.validationRequest validatorAddress agentId requestHash
            requestUri])
  | .validationResponse caller requestHash response responseUri responseHash
      tag =>
      let response := response.toNat
      if 100 < response then .error .invalidResponse
      else
        match state.validation requestHash with
        | none => .error .requestNotFound
        | some status =>
            if caller ≠ status.validatorAddress then
              .error .notDesignatedValidator
            else
              .ok (state.setValidation requestHash
                  { status with
                    response, responseHash, tag, lastUpdate := sequence
                    hasResponse := true },
                [.validationResponse status.validatorAddress status.agentId
                  requestHash response responseUri responseHash tag])

/-! ## What a call can do -/

/-- The calls that succeed, with everything they checked. -/
inductive Takes (state : ValidationState) (identity : OwnerAnswers)
    (sequence : Nat) : ValidationCall → ValidationState → Prop where
  | validationRequest (caller validatorAddress : Address) (agentId : UInt32)
      (requestUri : Bytes) (requestHash : Vector UInt8 32)
      (required : requireOwnerOrApproved identity caller agentId.toNat =
        .ok ())
      (fresh : state.validation requestHash = none) :
      Takes state identity sequence
        (.validationRequest caller validatorAddress agentId requestUri
          requestHash)
        { validation := Function.update state.validation requestHash
            (some (.requested validatorAddress agentId.toNat sequence))
          agentValidationCount := Function.update state.agentValidationCount
            agentId.toNat (state.agentValidationCount agentId.toNat + 1)
          agentValidationAt := Function.update state.agentValidationAt
            agentId.toNat
            (Function.update (state.agentValidationAt agentId.toNat)
              (state.agentValidationCount agentId.toNat) (some requestHash))
          validatorRequestCount := Function.update
            state.validatorRequestCount validatorAddress
            (state.validatorRequestCount validatorAddress + 1)
          validatorRequestAt := Function.update state.validatorRequestAt
            validatorAddress
            (Function.update (state.validatorRequestAt validatorAddress)
              (state.validatorRequestCount validatorAddress)
              (some requestHash)) }
  | validationResponse {status : ValidationStatus}
      (requestHash : Vector UInt8 32) (response : UInt32)
      (responseUri : Bytes) (responseHash : Vector UInt8 32) (tag : Bytes)
      (small : response.toNat ≤ 100)
      (found : state.validation requestHash = some status) :
      Takes state identity sequence
        (.validationResponse status.validatorAddress requestHash response
          responseUri responseHash tag)
        (state.setValidation requestHash
          { status with
            response := response.toNat, responseHash, tag
            lastUpdate := sequence, hasResponse := true })

/-- The event of a call that succeeds. -/
def published (state : ValidationState) :
    ValidationCall → List ValidationEvent
  | .validationRequest _ validatorAddress agentId requestUri requestHash =>
      [.validationRequest validatorAddress agentId.toNat requestHash
        requestUri]
  | .validationResponse _ requestHash response responseUri responseHash tag =>
      ((state.validation requestHash).map fun status =>
        ValidationEvent.validationResponse status.validatorAddress
          status.agentId requestHash response.toNat responseUri responseHash
          tag).toList

/-- The calls that succeed, by what they write and publish. -/
inductive Performs (state : ValidationState)
    (findOwner : Nat → Option Address) (sequence : Nat) :
    ValidationState → List ValidationEvent → Prop where
  | validationRequest (after : ValidationState) (validatorAddress : Address)
      (agentId : UInt32) (requestUri : Bytes)
      (requestHash : Vector UInt8 32)
      (living : (findOwner agentId.toNat).isSome = true)
      (fresh : state.validation requestHash = none)
      (stored : after.validation = Function.update state.validation
        requestHash (some
          { validatorAddress, agentId := agentId.toNat, response := 0
            responseHash := Vector.replicate 32 0, tag := ByteArray.empty
            lastUpdate := sequence, hasResponse := false })) :
      Performs state findOwner sequence after
        [.validationRequest validatorAddress agentId.toNat requestHash
          requestUri]
  | validationResponse (status : ValidationStatus)
      (requestHash : Vector UInt8 32) (response : Nat) (responseUri : Bytes)
      (responseHash : Vector UInt8 32) (tag : Bytes)
      (small : response ≤ 100)
      (found : state.validation requestHash = some status) :
      Performs state findOwner sequence
        (state.setValidation requestHash
          { status with
            response, responseHash, tag, lastUpdate := sequence
            hasResponse := true })
        [.validationResponse status.validatorAddress status.agentId
          requestHash response responseUri responseHash tag]

section

variable {state after : ValidationState} {identity : OwnerAnswers}
  {sequence : Nat} {request : ValidationCall} {events : List ValidationEvent}

/-- All there is to know of a call that succeeds. -/
theorem call_ok
    (success : state.call identity sequence request = .ok (after, events)) :
    state.Takes identity sequence request after ∧
      events = state.published request := by
  cases request with
  | validationRequest caller validatorAddress agentId requestUri
      requestHash =>
      obtain ⟨_, required, rest⟩ := bind_ok_iff.mp success
      split at rest
      · cases rest
      rename_i unrequested
      obtain ⟨counted, added, rest⟩ := bind_ok_iff.mp rest
      obtain ⟨listed, recorded, rest⟩ := bind_ok_iff.mp rest
      cases rest
      unfold addAgentValidation at added
      split at added
      · cases added
        unfold addValidatorRequest at recorded
        split at recorded
        · cases recorded
          have fresh : state.validation requestHash = none := by
            simpa [requestExists] using unrequested
          constructor
          · exact .validationRequest caller validatorAddress agentId
              requestUri requestHash required fresh
          · rfl
        · cases recorded
      · cases added
  | validationResponse caller requestHash response responseUri responseHash
      tag =>
      simp only [call] at success
      split at success
      · cases success
      rename_i small
      split at success
      · cases success
      · rename_i status found
        split at success
        · cases success
        · rename_i designated
          obtain rfl := not_not.mp designated
          cases success
          constructor
          · exact .validationResponse requestHash response responseUri
              responseHash tag (Nat.not_lt.mp small) found
          · simp only [published, found]
            rfl

theorem living_of_requireOwnerOrApproved {caller : Address} {agentId : Nat}
    (required : requireOwnerOrApproved identity caller agentId = .ok ()) :
    (identity.findOwner agentId).isSome = true := by
  unfold requireOwnerOrApproved at required
  split at required
  · cases required
  · rename_i found
    rw [found]
    rfl

theorem call_performs
    (success : state.call identity sequence request = .ok (after, events)) :
    state.Performs identity.findOwner sequence after events := by
  obtain ⟨takes, rfl⟩ := call_ok success
  cases takes with
  | validationRequest caller validatorAddress agentId requestUri requestHash
      required fresh =>
      exact .validationRequest _ validatorAddress agentId requestUri
        requestHash (living_of_requireOwnerOrApproved required) fresh rfl
  | validationResponse requestHash response responseUri responseHash tag small
      found =>
      simp only [published, found]
      exact .validationResponse _ requestHash response.toNat responseUri
        responseHash tag small found

end

end ValidationState

end Stellar8004.Contracts
