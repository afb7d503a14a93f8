import Stellar8004.Indexer.Events
import Stellar8004.Indexer.Helpers

/-!
# Parsing contract events

`chain/parsers/*.ts` and `chain/event-interpretation.ts`.  An inner parser
throws (`Except.error`), returns null (`none`) or returns an event; the public
parsers turn a throw into null.  `interpretEvent` separates events that are
irrelevant from recognised ones that cannot be read.
-/

namespace Stellar8004.Indexer

/-- `scValToNative(event.topic[index])`. -/
def EventResponse.nativeTopic (event : EventResponse) (index : Nat) : Native :=
  scValToNative (event.topic.getD index .void)

def EventResponse.base (event : EventResponse) : EventBase :=
  { ledger := event.ledger
    ledgerClosedAt := event.ledgerClosedAt
    txHash := event.txHash }

/-- The payload's fields. -/
def EventResponse.data (event : EventResponse) : List (String × Native) :=
  parseEventData (scValToNative event.value)

def AGENT_WALLET_KEY : String := "agentWallet"

def IDENTITY_EVENT_NAMES : List String :=
  ["registered", "uri_updated", "metadata_set", "agent_wallet_set",
    "agent_wallet_unset", "transfer"]

def REPUTATION_EVENT_NAMES : List String :=
  ["new_feedback", "feedback_revoked", "response_appended"]

def VALIDATION_EVENT_NAMES : List String :=
  ["validation_request", "validation_response"]

/-! ## Identity -/

/-- The OpenZeppelin `transfer` event: topics `transfer, from, to`, the token
id in the body. -/
def parseTransfer (event : EventResponse) :
    Except String (Option ParsedEvent) := do
  if event.topic.length < 3 then return none
  let «from» := (event.nativeTopic 1).toJsString
  let «to» := (event.nativeTopic 2).toJsString
  if !isValidStellarAddress «from» || !isValidStellarAddress «to» then
    return none
  let tokenId ← toSafeInteger (field event.data "token_id") "token_id"
  if tokenId < 0 then return none
  return some (.agentTransferred
    { event.base with agentId := tokenId.toNat, «from», «to» })

/-- The `metadata_set` case.  The reserved wallet key becomes a wallet event:
an empty value unsets, a valid address sets, anything else is dropped. -/
def parseMetadataSet (event : EventResponse) (agentId : Nat) :
    Except String (Option ParsedEvent) := do
  if event.topic.length < 3 then return none
  let key ← toText (some (event.nativeTopic 2))
  if key = AGENT_WALLET_KEY then
    let valueText ← bytesToUtf8 (field event.data "value")
    if valueText = "" then
      return some (.agentWalletUnset { event.base with agentId })
    if !isValidStellarAddress valueText then return none
    return some (.agentWalletSet
      { event.base with agentId, newWallet := valueText })
  else
    let value ← bytesToUtf8 (field event.data "value")
    return some (.metadataSet { event.base with agentId, key, value })

def parseIdentityEventInner (event : EventResponse) :
    Except String (Option ParsedEvent) := do
  if event.topic.length < 2 then return none
  match event.nativeTopic 0 with
  | .text "transfer" => parseTransfer event
  | eventName =>
    let agentId ← toSafeInteger (some (event.nativeTopic 1)) "agent_id"
    if agentId < 0 then return none
    let agentId := agentId.toNat
    match eventName with
    | .text "registered" =>
        if event.topic.length < 3 then return none
        let owner := (event.nativeTopic 2).toJsString
        if !isValidStellarAddress owner then return none
        let agentUri ← bytesToUtf8 (field event.data "agent_uri")
        return some (.registered { event.base with agentId, owner, agentUri })
    | .text "uri_updated" =>
        if event.topic.length < 3 then return none
        let updatedBy := (event.nativeTopic 2).toJsString
        if !isValidStellarAddress updatedBy then return none
        let newUri ← bytesToUtf8 (field event.data "new_uri")
        return some (.uriUpdated
          { event.base with agentId, updatedBy, newUri })
    | .text "metadata_set" => parseMetadataSet event agentId
    | .text "agent_wallet_set" =>
        if event.topic.length < 4 then return none
        let newWallet := (event.nativeTopic 2).toJsString
        if !isValidStellarAddress newWallet then return none
        return some (.agentWalletSet { event.base with agentId, newWallet })
    | .text "agent_wallet_unset" =>
        return some (.agentWalletUnset { event.base with agentId })
    | _ => return none

/-! ## Reputation -/

def parseNewFeedback (event : EventResponse) (agentId : Nat)
    (clientAddress : String) : Except String (Option ParsedEvent) := do
  if event.topic.length < 4 then return none
  let tag1 ← toText (some (event.nativeTopic 3))
  let data := event.data
  let feedbackIndex ← toBigInt (field data "feedback_index") "feedback_index"
  if feedbackIndex < 1 then return none
  let valueDecimals ← toSafeInteger
    (match field data "value_decimals" with
      | none => some (.number 0)
      | some .null => some (.number 0)
      | present => present) "value_decimals"
  if valueDecimals < 0 || valueDecimals > 18 then return none
  let value ← toBigInt (field data "value") "value"
  let tag2 ← toText (field data "tag2")
  let endpoint ← toText (field data "endpoint")
  let feedbackUri ← toText (field data "feedback_uri")
  return some (.newFeedback
    { event.base with
      agentId, clientAddress, feedbackIndex := feedbackIndex.toNat, value
      valueDecimals := valueDecimals.toNat, tag1, tag2, endpoint, feedbackUri
      feedbackHash := toHex (field data "feedback_hash") })

def parseFeedbackRevoked (event : EventResponse) (agentId : Nat)
    (clientAddress : String) : Except String (Option ParsedEvent) := do
  if event.topic.length < 4 then return none
  let feedbackIndex ← toBigInt (some (event.nativeTopic 3)) "feedback_index"
  if feedbackIndex < 1 then return none
  return some (.feedbackRevoked
    { event.base with
      agentId, clientAddress, feedbackIndex := feedbackIndex.toNat })

def parseResponseAppended (event : EventResponse) (agentId : Nat)
    (clientAddress : String) : Except String (Option ParsedEvent) := do
  if event.topic.length < 4 then return none
  let responder := (event.nativeTopic 3).toJsString
  if !isValidStellarAddress responder then return none
  let data := event.data
  let feedbackIndex ← toBigInt (field data "feedback_index") "feedback_index"
  if feedbackIndex < 1 then return none
  let responseUri ← toText (field data "response_uri")
  return some (.responseAppended
    { event.base with
      agentId, clientAddress, responder
      feedbackIndex := feedbackIndex.toNat, responseUri
      responseHash := toHex (field data "response_hash")
      eventId := event.id })

def parseReputationEventInner (event : EventResponse) :
    Except String (Option ParsedEvent) := do
  if event.topic.length < 3 then return none
  let eventName := event.nativeTopic 0
  let agentId ← toSafeInteger (some (event.nativeTopic 1)) "agent_id"
  if agentId < 0 then return none
  let clientAddress := (event.nativeTopic 2).toJsString
  if !isValidStellarAddress clientAddress then return none
  match eventName with
  | .text "new_feedback" =>
      parseNewFeedback event agentId.toNat clientAddress
  | .text "feedback_revoked" =>
      parseFeedbackRevoked event agentId.toNat clientAddress
  | .text "response_appended" =>
      parseResponseAppended event agentId.toNat clientAddress
  | _ => return none

/-! ## Validation -/

/-- The raw value of a map entry, found by its native key. -/
def mapEntry (value : ScVal) (name : String) : Option ScVal :=
  match value with
  | .map entries =>
      (entries.find? fun entry =>
        match scValToNative entry.1 with
        | .text key => key == name
        | _ => false).map Prod.snd
  | _ => none

def parseValidationRequest (event : EventResponse) (agentId : Nat)
    (validatorAddress requestHash : String) :
    Except String (Option ParsedEvent) := do
  match mapEntry event.value "request_uri" with
  | some (.string requestUri) =>
      let requestUri ← bytesToUtf8 (some (scValToNative (.string requestUri)))
      return some (.validationRequest
        { event.base with validatorAddress, agentId, requestHash, requestUri })
  | _ => return none

def parseValidationResponse (event : EventResponse) (agentId : Nat)
    (validatorAddress requestHash : String) :
    Except String (Option ParsedEvent) := do
  let data := event.data
  match field data "response" with
  | none => return none
  | some .null => return none
  | present =>
      let response ← toSafeInteger present "response"
      if response < 0 || response > 100 then return none
      let responseUri ← toText (field data "response_uri")
      let tag ← toText (field data "tag")
      return some (.validationResponse
        { event.base with
          validatorAddress, agentId, requestHash
          response := response.toNat, responseUri
          responseHash := toHex (field data "response_hash"), tag })

def parseValidationEventInner (event : EventResponse) :
    Except String (Option ParsedEvent) := do
  if event.topic.length < 4 then return none
  let eventName := event.nativeTopic 0
  let validatorAddress := (event.nativeTopic 1).toJsString
  if !isValidStellarAddress validatorAddress then return none
  let agentId ← toSafeInteger (some (event.nativeTopic 2)) "agent_id"
  if agentId < 0 then return none
  let requestHash := toHex (some (event.nativeTopic 3))
  if jsLength requestHash ≠ 64 then return none
  match eventName with
  | .text "validation_request" =>
      parseValidationRequest event agentId.toNat validatorAddress requestHash
  | .text "validation_response" =>
      parseValidationResponse event agentId.toNat validatorAddress requestHash
  | _ => return none

/-! ## Interpretation -/

/-- The public parsers: a thrown error is null. -/
def caught (inner : EventResponse → Except String (Option ParsedEvent))
    (event : EventResponse) : Option ParsedEvent :=
  match inner event with
  | .ok parsed => parsed
  | .error _ => none

def parseIdentityEvent : EventResponse → Option ParsedEvent :=
  caught parseIdentityEventInner

def parseReputationEvent : EventResponse → Option ParsedEvent :=
  caught parseReputationEventInner

def parseValidationEvent : EventResponse → Option ParsedEvent :=
  caught parseValidationEventInner

inductive IgnoreReason where
  | unsuccessful
  | unrelated
  deriving DecidableEq, Repr

inductive EventInterpretation where
  | parsed (event : ParsedEvent)
  | ignored (reason : IgnoreReason)
  | invalid (reason : String)
  deriving DecidableEq

def interpretEvent (event : EventResponse) (recognizedNames : List String)
    (parse : EventResponse → Option ParsedEvent) : EventInterpretation :=
  if event.inSuccessfulContractCall = false then .ignored .unsuccessful
  else
    match parse event with
    | some parsed => .parsed parsed
    | none =>
        match event.topic with
        | [] => .invalid "Missing event name topic"
        | first :: _ =>
            match scValToNative first with
            | .text name =>
                if name ∈ recognizedNames then
                  .invalid s!"Malformed recognized event: {name}"
                else .ignored .unrelated
            | _ => .invalid "Invalid event name topic"

/-- The `interpret` table of `indexer.ts`. -/
def interpret : ContractName → EventResponse → EventInterpretation
  | .identity, event =>
      interpretEvent event IDENTITY_EVENT_NAMES parseIdentityEvent
  | .reputation, event =>
      interpretEvent event REPUTATION_EVENT_NAMES parseReputationEvent
  | .validation, event =>
      interpretEvent event VALIDATION_EVENT_NAMES parseValidationEvent

/-- The packet `writeEvents` makes of a raw event, if it parses. -/
def packetOf (contract : ContractName) (event : EventResponse) :
    Option EventPacket :=
  match interpret contract event with
  | .parsed data => some { id := event.id, contract, data }
  | _ => none

end Stellar8004.Indexer
