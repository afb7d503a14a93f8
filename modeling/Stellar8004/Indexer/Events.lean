import Stellar8004.Soroban.Value

/-!
# Events

The raw events an RPC node returns and the parsed events the indexer writes
(`chain/events.ts` and the interfaces of `chain/parsers/`).
-/

namespace Stellar8004.Indexer

inductive ContractName where
  | identity
  | reputation
  | validation
  deriving DecidableEq, Repr

/-- `rpc.Api.EventResponse`.  An absent topic list is an empty one. -/
structure EventResponse where
  id : String
  ledger : Nat
  ledgerClosedAt : String
  txHash : String
  inSuccessfulContractCall : Bool
  topic : List ScVal
  value : ScVal

/-- The fields every parsed event copies from its raw event. -/
structure EventBase where
  ledger : Nat
  ledgerClosedAt : String
  txHash : String
  deriving DecidableEq

structure RegisteredEvent extends EventBase where
  agentId : Nat
  owner : String
  agentUri : String
  deriving DecidableEq

structure UriUpdatedEvent extends EventBase where
  agentId : Nat
  updatedBy : String
  newUri : String
  deriving DecidableEq

structure MetadataSetEvent extends EventBase where
  agentId : Nat
  key : String
  value : String
  deriving DecidableEq

structure AgentWalletSetEvent extends EventBase where
  agentId : Nat
  newWallet : String
  deriving DecidableEq

structure AgentWalletUnsetEvent extends EventBase where
  agentId : Nat
  deriving DecidableEq

structure AgentTransferredEvent extends EventBase where
  agentId : Nat
  «from» : String
  «to» : String
  deriving DecidableEq

structure NewFeedbackEvent extends EventBase where
  agentId : Nat
  clientAddress : String
  feedbackIndex : Nat
  value : Int
  valueDecimals : Nat
  tag1 : String
  tag2 : String
  endpoint : String
  feedbackUri : String
  feedbackHash : String
  deriving DecidableEq

structure FeedbackRevokedEvent extends EventBase where
  agentId : Nat
  clientAddress : String
  feedbackIndex : Nat
  deriving DecidableEq

structure ResponseAppendedEvent extends EventBase where
  agentId : Nat
  clientAddress : String
  responder : String
  feedbackIndex : Nat
  responseUri : String
  responseHash : String
  eventId : String
  deriving DecidableEq

structure ValidationRequestEvent extends EventBase where
  validatorAddress : String
  agentId : Nat
  requestHash : String
  requestUri : String
  deriving DecidableEq

structure ValidationResponseEvent extends EventBase where
  validatorAddress : String
  agentId : Nat
  requestHash : String
  response : Nat
  responseUri : String
  responseHash : String
  tag : String
  deriving DecidableEq

/-- `IdentityEvent | ReputationEvent | ValidationEvent`. -/
inductive ParsedEvent where
  | registered (event : RegisteredEvent)
  | uriUpdated (event : UriUpdatedEvent)
  | metadataSet (event : MetadataSetEvent)
  | agentWalletSet (event : AgentWalletSetEvent)
  | agentWalletUnset (event : AgentWalletUnsetEvent)
  | agentTransferred (event : AgentTransferredEvent)
  | newFeedback (event : NewFeedbackEvent)
  | feedbackRevoked (event : FeedbackRevokedEvent)
  | responseAppended (event : ResponseAppendedEvent)
  | validationRequest (event : ValidationRequestEvent)
  | validationResponse (event : ValidationResponseEvent)
  deriving DecidableEq

namespace ParsedEvent

def base : ParsedEvent → EventBase
  | registered event => event.toEventBase
  | uriUpdated event => event.toEventBase
  | metadataSet event => event.toEventBase
  | agentWalletSet event => event.toEventBase
  | agentWalletUnset event => event.toEventBase
  | agentTransferred event => event.toEventBase
  | newFeedback event => event.toEventBase
  | feedbackRevoked event => event.toEventBase
  | responseAppended event => event.toEventBase
  | validationRequest event => event.toEventBase
  | validationResponse event => event.toEventBase

/-- The contract whose parser returns the event. -/
def contract : ParsedEvent → ContractName
  | newFeedback _ => .reputation
  | feedbackRevoked _ => .reputation
  | responseAppended _ => .reputation
  | validationRequest _ => .validation
  | validationResponse _ => .validation
  | _ => .identity

def isRegistered : ParsedEvent → Bool
  | registered _ => true
  | _ => false

end ParsedEvent

structure EventPacket where
  id : String
  contract : ContractName
  data : ParsedEvent
  deriving DecidableEq

def EventPacket.ledger (packet : EventPacket) : Nat := packet.data.base.ledger

/-- Registration may follow its initialization events in the same
transaction. -/
def parentsFirst (events : List EventPacket) : List EventPacket :=
  events.filter (fun packet => packet.data.isRegistered) ++
    events.filter (fun packet => !packet.data.isRegistered)

theorem mem_parentsFirst {packet : EventPacket} {events : List EventPacket} :
    packet ∈ parentsFirst events ↔ packet ∈ events := by
  cases isRegistered : packet.data.isRegistered <;>
    simp [parentsFirst, isRegistered]

end Stellar8004.Indexer
