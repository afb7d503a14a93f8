import Stellar8004.Contracts.Validation
import Stellar8004.Indexer.Addresses
import Stellar8004.Indexer.Parsers

/-!
# How published events are read

What the indexer's parsers make of each event the contracts publish.  Text
fields of any bytes are decoded; everything else is read exactly.
-/

namespace Stellar8004.Contracts

open Stellar8004.Indexer

/-- Where and when an event was published. -/
structure Stamp where
  id : String
  ledger : Nat
  ledgerClosedAt : String
  txHash : String
  deriving DecidableEq

def Stamp.base (stamp : Stamp) : EventBase :=
  { ledger := stamp.ledger, ledgerClosedAt := stamp.ledgerClosedAt
    txHash := stamp.txHash }

/-- A published event as an RPC node returns it. -/
def Emission.response (emission : Emission) (stamp : Stamp) : EventResponse :=
  { id := stamp.id, ledger := stamp.ledger
    ledgerClosedAt := stamp.ledgerClosedAt, txHash := stamp.txHash
    inSuccessfulContractCall := true, topic := emission.topics
    value := emission.data }

/-- The text the parsers read from a contract string. -/
def decodeText (bytes : Bytes) : String :=
  match String.fromUTF8? bytes with
  | some text => text
  | none => utf8Decoder bytes

@[simp] theorem decodeText_utf8 (text : String) :
    decodeText (utf8 text) = text := by
  simp [decodeText]

@[simp] theorem toText_string (bytes : Bytes) :
    toText (some (scValToNative (.string bytes))) =
      .ok (decodeText bytes) := by
  unfold decodeText
  simp only [scValToNative]
  cases String.fromUTF8? bytes <;> rfl

@[simp] theorem bytesToUtf8_string (bytes : Bytes) :
    bytesToUtf8 (some (scValToNative (.string bytes))) =
      .ok (decodeText bytes) := by
  unfold decodeText
  simp only [scValToNative]
  cases String.fromUTF8? bytes <;> rfl

@[simp] theorem bytesToUtf8_bytes (bytes : Bytes) :
    bytesToUtf8 (some (scValToNative (.bytes bytes))) =
      .ok (utf8Decoder bytes) := by
  simp [scValToNative, bytesToUtf8]

theorem toSafeInteger_u32 {number : Nat} (bound : number < 2 ^ 32)
    (name : String) :
    toSafeInteger (some (scValToNative (u32 number))) name =
      .ok (number : Int) := by
  have safe : isSafeInteger (number : Int) = true := by
    simp only [isSafeInteger, decide_eq_true_eq]
    omega
  simp [u32, scValToNative, IntKind.toNative, toSafeInteger, toBigInt, safe,
    bind, Except.bind]

/-- The fields of a published event by name. -/
theorem field_publish (name : String) (topics : List ScVal)
    (fields : List (String × ScVal)) (stamp : Stamp) (key : String) :
    field ((contractEvent name topics fields).response stamp).data key =
      (fields.reverse.find? (fun field => field.1 == key)).map
        fun field => scValToNative field.2 := by
  have entries : scEntriesToNative
      (fields.map fun field => (.symbol field.1, field.2)) =
        fields.map fun field => (field.1, scValToNative field.2) := by
    induction fields with
    | nil => rfl
    | cons first rest induction =>
        simp only [List.map_cons, scEntriesToNative, induction,
          scValToNative_symbol, Native.toJsString]
  simp only [EventResponse.data, Emission.response, contractEvent,
    scValToNative, parseEventData, entries, field, ← List.map_reverse]
  rw [List.find?_map]
  simp [Function.comp_def]

section

variable (name : String) (topics : List ScVal)
  (fields : List (String × ScVal)) (stamp : Stamp)

@[simp] theorem nativeTopic_publish (index : Nat) :
    ((contractEvent name topics fields).response stamp).nativeTopic index =
      scValToNative ((.symbol name :: topics).getD index .void) := rfl

@[simp] theorem length_publish :
    ((contractEvent name topics fields).response stamp).topic.length =
      topics.length + 1 := rfl

@[simp] theorem base_publish :
    ((contractEvent name topics fields).response stamp).base =
      stamp.base := rfl

end

theorem encode_ne_empty (address : Address) :
    StrKey.encode address ≠ "" := by
  intro empty
  have length := StrKey.length_encode address
  rw [empty] at length
  cases length

/-- An address has no byte-order mark. -/
theorem utf8Decoder_encode (address : Address) :
    utf8Decoder (utf8 (StrKey.encode address)) = StrKey.encode address := by
  simp only [utf8Decoder, fromUTF8?_utf8, dropByteOrderMark]
  split
  · rfl
  · rename_i first rest whole
    have head := head_encode address
    rw [whole, List.headD_cons] at head
    have unmarked : first ≠ byteOrderMark := by
      rw [head]
      cases address.kind <;> decide
    rw [if_neg unmarked]

/-- A parsed event is interpreted as such. -/
theorem interpretEvent_of_parsed {raw : EventResponse} {names : List String}
    {inner : EventResponse → Except String (Option ParsedEvent)}
    {event : ParsedEvent} (successful : raw.inSuccessfulContractCall = true)
    (parsed : inner raw = .ok (some event)) :
    interpretEvent raw names (caught inner) = .parsed event := by
  simp [interpretEvent, successful, caught, parsed]

/-! ## Identity -/

section

variable {agentId : Nat} (bound : agentId < 2 ^ 32) (stamp : Stamp)

include bound

theorem interpret_registered (owner : Address) (agentUri : Bytes) :
    interpret .identity
        ((IdentityEvent.registered agentId owner agentUri).publish.response
          stamp) =
      .parsed (.registered
        { stamp.base with
          agentId, owner := StrKey.encode owner
          agentUri := decodeText agentUri }) := by
  apply interpretEvent_of_parsed rfl
  simp [IdentityEvent.publish, parseIdentityEventInner, field_publish,
    toSafeInteger_u32 bound, Native.toJsString, isValidStellarAddress_encode]

theorem interpret_uriUpdated (updatedBy : Address) (newUri : Bytes) :
    interpret .identity
        ((IdentityEvent.uriUpdated agentId updatedBy newUri).publish.response
          stamp) =
      .parsed (.uriUpdated
        { stamp.base with
          agentId, updatedBy := StrKey.encode updatedBy
          newUri := decodeText newUri }) := by
  apply interpretEvent_of_parsed rfl
  simp [IdentityEvent.publish, parseIdentityEventInner, field_publish,
    toSafeInteger_u32 bound, Native.toJsString, isValidStellarAddress_encode]

theorem interpret_transfer («from» «to» : Address) :
    interpret .identity
        ((IdentityEvent.transfer «from» «to» agentId).publish.response
          stamp) =
      .parsed (.agentTransferred
        { stamp.base with
          agentId, «from» := StrKey.encode «from»
          «to» := StrKey.encode «to» }) := by
  apply interpretEvent_of_parsed rfl
  have natural : ¬ (agentId : Int) < 0 := by omega
  simp [IdentityEvent.publish, parseIdentityEventInner, parseTransfer,
    field_publish, toSafeInteger_u32 bound, Native.toJsString,
    isValidStellarAddress_encode, natural, pure, Except.pure]

/-- How `metadata_set` is read, whatever its key. -/
theorem parse_metadataSet (key value : Bytes) :
    parseIdentityEventInner
        ((IdentityEvent.metadataSet agentId key value).publish.response
          stamp) =
      if decodeText key = AGENT_WALLET_KEY then
        if utf8Decoder value = "" then
          .ok (some (.agentWalletUnset { stamp.base with agentId }))
        else if isValidStellarAddress (utf8Decoder value) = false then
          .ok none
        else
          .ok (some (.agentWalletSet
            { stamp.base with agentId, newWallet := utf8Decoder value }))
      else
        .ok (some (.metadataSet
          { stamp.base with
            agentId, key := decodeText key, value := utf8Decoder value })) := by
  have natural : ¬ (agentId : Int) < 0 := by omega
  simp [IdentityEvent.publish, parseIdentityEventInner, parseMetadataSet,
    field_publish, toSafeInteger_u32 bound, natural, pure, Except.pure]

/-- An ordinary key is read as metadata. -/
theorem interpret_metadataSet {key : Bytes} (value : Bytes)
    (ordinary : decodeText key ≠ AGENT_WALLET_KEY) :
    interpret .identity
        ((IdentityEvent.metadataSet agentId key value).publish.response
          stamp) =
      .parsed (.metadataSet
        { stamp.base with
          agentId, key := decodeText key, value := utf8Decoder value }) := by
  apply interpretEvent_of_parsed rfl
  rw [parse_metadataSet bound, if_neg ordinary]

/-- The wallet key with an address is read as the wallet. -/
theorem interpret_walletSet (wallet : Address) :
    interpret .identity
        ((IdentityEvent.metadataSet agentId agentWalletKey
          (addressToStrkeyBytes wallet)).publish.response stamp) =
      .parsed (.agentWalletSet
        { stamp.base with agentId, newWallet := StrKey.encode wallet }) := by
  apply interpretEvent_of_parsed rfl
  have key : decodeText agentWalletKey = AGENT_WALLET_KEY :=
    decodeText_utf8 _
  rw [parse_metadataSet bound, if_pos key, addressToStrkeyBytes,
    utf8Decoder_encode, if_neg (encode_ne_empty wallet),
    isValidStellarAddress_encode]
  rfl

/-- The wallet key with no bytes is read as its removal. -/
theorem interpret_walletUnset :
    interpret .identity
        ((IdentityEvent.metadataSet agentId agentWalletKey
          ByteArray.empty).publish.response stamp) =
      .parsed (.agentWalletUnset { stamp.base with agentId }) := by
  apply interpretEvent_of_parsed rfl
  have key : decodeText agentWalletKey = AGENT_WALLET_KEY :=
    decodeText_utf8 _
  have nothing : utf8Decoder ByteArray.empty = "" := by decide
  rw [parse_metadataSet bound, if_pos key, if_pos nothing]

end

/-- OpenZeppelin's `mint` event is none of the indexer's. -/
theorem interpret_mint («to» : Address) (tokenId : Nat) (stamp : Stamp) :
    interpret .identity
        ((IdentityEvent.mint «to» tokenId).publish.response stamp) =
      .ignored .unrelated := by
  have unread : parseIdentityEventInner
      ((IdentityEvent.mint «to» tokenId).publish.response stamp) =
        .error "toBigInt: expected bigint/number for agent_id, got string" := by
    simp [IdentityEvent.publish, parseIdentityEventInner, toSafeInteger,
      toBigInt, typeOf]
    rfl
  have none : parseIdentityEvent
      ((IdentityEvent.mint «to» tokenId).publish.response stamp) = none := by
    simp only [parseIdentityEvent, caught, unread]
  simp only [interpret, interpretEvent, none]
  simp [IdentityEvent.publish, contractEvent, Emission.response,
    IDENTITY_EVENT_NAMES]

/-! ## Reputation -/

@[simp] theorem toBigInt_u64 (number : Nat) (name : String) :
    toBigInt (some (scValToNative (u64 number))) name =
      .ok (number : Int) := by
  simp [u64, scValToNative, IntKind.toNative, toBigInt]

@[simp] theorem toBigInt_i128 (number : Int) (name : String) :
    toBigInt (some (scValToNative (.int .i128 number))) name =
      .ok number := by
  simp [scValToNative, IntKind.toNative, toBigInt]

/-- The text of a `BytesN<32>`. -/
def hexText (value : Vector UInt8 32) : String :=
  String.ofList (value.toList.flatMap hexByte)

theorem toHex_bytesN (value : Vector UInt8 32) :
    toHex (some (scValToNative (bytesN value))) = hexText value := by
  simp only [bytesN, scValToNative, toHex, hexText]
  rfl

section

variable {agentId : Nat} (bound : agentId < 2 ^ 32) (stamp : Stamp)
  (clientAddress : Address)

include bound

theorem interpret_newFeedback {feedbackIndex valueDecimals : Nat}
    (positive : 1 ≤ feedbackIndex) (scale : valueDecimals ≤ 18) (value : Int)
    (tag1 tag2 endpoint feedbackUri : Bytes)
    (feedbackHash : Vector UInt8 32) :
    interpret .reputation
        ((ReputationEvent.newFeedback agentId clientAddress feedbackIndex
          value valueDecimals tag1 tag2 endpoint feedbackUri
          feedbackHash).publish.response stamp) =
      .parsed (.newFeedback
        { stamp.base with
          agentId, clientAddress := StrKey.encode clientAddress
          feedbackIndex, value, valueDecimals, tag1 := decodeText tag1
          tag2 := decodeText tag2, endpoint := decodeText endpoint
          feedbackUri := decodeText feedbackUri
          feedbackHash := hexText feedbackHash }) := by
  apply interpretEvent_of_parsed rfl
  have natural : ¬ (agentId : Int) < 0 := by omega
  have counted : ¬ (feedbackIndex : Int) < 1 := by omega
  have native : scValToNative (u32 valueDecimals) =
      .number valueDecimals := by
    simp [u32, scValToNative, IntKind.toNative]
  have decimals := toSafeInteger_u32
    (show valueDecimals < 2 ^ 32 by omega) "value_decimals"
  rw [native] at decimals
  simp [ReputationEvent.publish, parseReputationEventInner, parseNewFeedback,
    field_publish, toSafeInteger_u32 bound, Native.toJsString,
    isValidStellarAddress_encode, natural, counted, native, decimals,
    scale, pure, Except.pure, toHex_bytesN]

theorem interpret_feedbackRevoked {feedbackIndex : Nat}
    (positive : 1 ≤ feedbackIndex) :
    interpret .reputation
        ((ReputationEvent.feedbackRevoked agentId clientAddress
          feedbackIndex).publish.response stamp) =
      .parsed (.feedbackRevoked
        { stamp.base with
          agentId, clientAddress := StrKey.encode clientAddress
          feedbackIndex }) := by
  apply interpretEvent_of_parsed rfl
  have natural : ¬ (agentId : Int) < 0 := by omega
  have counted : ¬ (feedbackIndex : Int) < 1 := by omega
  simp [ReputationEvent.publish, parseReputationEventInner,
    parseFeedbackRevoked, toSafeInteger_u32 bound, Native.toJsString,
    isValidStellarAddress_encode, natural, counted, pure, Except.pure]

theorem interpret_responseAppended {feedbackIndex : Nat}
    (positive : 1 ≤ feedbackIndex) (responder : Address)
    (responseUri : Bytes) (responseHash : Vector UInt8 32) :
    interpret .reputation
        ((ReputationEvent.responseAppended agentId clientAddress responder
          feedbackIndex responseUri responseHash).publish.response stamp) =
      .parsed (.responseAppended
        { stamp.base with
          agentId, clientAddress := StrKey.encode clientAddress
          responder := StrKey.encode responder, feedbackIndex
          responseUri := decodeText responseUri
          responseHash := hexText responseHash, eventId := stamp.id }) := by
  apply interpretEvent_of_parsed rfl
  have natural : ¬ (agentId : Int) < 0 := by omega
  have counted : ¬ (feedbackIndex : Int) < 1 := by omega
  simp [ReputationEvent.publish, parseReputationEventInner,
    parseResponseAppended, field_publish, toSafeInteger_u32 bound,
    Native.toJsString, isValidStellarAddress_encode, natural, counted, pure,
    Except.pure, toHex_bytesN]
  rfl

end

/-! ## Validation -/

private theorem hexDigit_small (value : Nat) :
    (hexDigit value).toNat < 0x10000 := by
  unfold hexDigit
  by_cases digit : value < 16
  · interval_cases value <;> decide
  · rw [List.getD_eq_default _ _ (by simpa using digit)]
    decide

theorem length_hexText (value : Vector UInt8 32) :
    jsLength (hexText value) = 64 := by
  have count : ∀ bytes : List UInt8,
      ((bytes.flatMap hexByte).map fun char =>
        if char.toNat < 0x10000 then 1 else 2).sum = 2 * bytes.length := by
    intro bytes
    induction bytes with
    | nil => rfl
    | cons byte bytes induction =>
        simp only [List.flatMap_cons, List.map_append, List.sum_append,
          induction, hexByte, List.map_cons, List.map_nil, hexDigit_small,
          if_true, List.sum_cons, List.sum_nil, List.length_cons]
        omega
  unfold jsLength hexText
  rw [String.toList_ofList, count]
  simp

private theorem hexDigit_injective {left right : Nat} (first : left < 16)
    (second : right < 16) (same : hexDigit left = hexDigit right) :
    left = right := by
  revert same
  interval_cases left <;> interval_cases right <;> decide

private theorem flatMap_hexByte_injective (left right : List UInt8)
    (same : left.flatMap hexByte = right.flatMap hexByte) : left = right := by
  induction left generalizing right with
  | nil =>
      cases right with
      | nil => rfl
      | cons byte right => simp [hexByte] at same
  | cons byte left induction =>
      cases right with
      | nil => simp [hexByte] at same
      | cons other right =>
          simp only [List.flatMap_cons, hexByte, List.cons_append,
            List.nil_append, List.cons.injEq] at same
          obtain ⟨high, low, rest⟩ := same
          have byteBound := byte.toNat_lt
          have otherBound := other.toNat_lt
          have highSame := hexDigit_injective (by omega) (by omega) high
          have lowSame := hexDigit_injective (by omega) (by omega) low
          have equal : byte = other := UInt8.toNat_inj.mp (by omega)
          rw [equal, induction right rest]

/-- Different hashes have different texts. -/
theorem hexText_injective : Function.Injective hexText := by
  intro left right same
  have texts := congrArg String.toList same
  simp only [hexText, String.toList_ofList] at texts
  exact Vector.toList_inj.mp (flatMap_hexByte_injective _ _ texts)

section

variable {agentId : Nat} (bound : agentId < 2 ^ 32) (stamp : Stamp)
  (validatorAddress : Address) (requestHash : Vector UInt8 32)

include bound

theorem interpret_validationRequest (requestUri : Bytes) :
    interpret .validation
        ((ValidationEvent.validationRequest validatorAddress agentId
          requestHash requestUri).publish.response stamp) =
      .parsed (.validationRequest
        { stamp.base with
          validatorAddress := StrKey.encode validatorAddress, agentId
          requestHash := hexText requestHash
          requestUri := decodeText requestUri }) := by
  apply interpretEvent_of_parsed rfl
  have natural : ¬ (agentId : Int) < 0 := by omega
  have entry : mapEntry ((ValidationEvent.validationRequest validatorAddress
      agentId requestHash requestUri).publish.response stamp).value
        "request_uri" = some (.string requestUri) := by
    simp [ValidationEvent.publish, Emission.response, contractEvent, mapEntry]
  simp only [ValidationEvent.publish] at entry
  simp [ValidationEvent.publish, parseValidationEventInner,
    parseValidationRequest, entry, toSafeInteger_u32 bound,
    Native.toJsString, isValidStellarAddress_encode, natural, pure,
    Except.pure, toHex_bytesN, length_hexText]

theorem interpret_validationResponse {response : Nat}
    (small : response ≤ 100) (responseUri : Bytes)
    (responseHash : Vector UInt8 32) (tag : Bytes) :
    interpret .validation
        ((ValidationEvent.validationResponse validatorAddress agentId
          requestHash response responseUri responseHash
          tag).publish.response stamp) =
      .parsed (.validationResponse
        { stamp.base with
          validatorAddress := StrKey.encode validatorAddress, agentId
          requestHash := hexText requestHash, response
          responseUri := decodeText responseUri
          responseHash := hexText responseHash, tag := decodeText tag }) := by
  apply interpretEvent_of_parsed rfl
  have natural : ¬ (agentId : Int) < 0 := by omega
  have native : scValToNative (u32 response) = .number response := by
    simp [u32, scValToNative, IntKind.toNative]
  have score := toSafeInteger_u32 (show response < 2 ^ 32 by omega)
    "response"
  rw [native] at score
  simp [ValidationEvent.publish, parseValidationEventInner,
    parseValidationResponse, field_publish, toSafeInteger_u32 bound,
    Native.toJsString, isValidStellarAddress_encode, natural, native, score,
    small, pure, Except.pure, toHex_bytesN, length_hexText]

end

end Stellar8004.Contracts
