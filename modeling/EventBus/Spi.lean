import EventBus.Basic
import EventBus.Lib.Map

/-!
# Values at the provider boundary

What the facade hands to a provider and what it gets back: an outbound message, the provider's
acknowledgement with one admission per destination, its errors with the effect a failed
publication may have had, and the opaque token that settles a received delivery. An error's
source is kept as its text; a native payload (`Arc<dyn Any>`) as the identity of its type and
of its allocation.
-/

namespace EventBus

open Lib

/-- The name a provider routes by. -/
structure TopicAddress where
  value : String
deriving DecidableEq, Repr

/-- The identity of one logical publication. -/
structure EventId where
  value : String
deriving DecidableEq, Repr

/-- Events with the same key keep their order. -/
structure OrderingKey where
  value : String
deriving DecidableEq, Repr

structure SubscriberId where
  value : String
deriving DecidableEq, Repr

abbrev Headers := Map String String

/-! ## Messages -/

/-- The identity of a Rust type (`TypeId`). -/
structure TypeId where
  value : Nat
deriving DecidableEq, Repr

/-- A native payload: its type, and the allocation that clones of the `Arc` share. -/
structure NativePayload where
  typeId : TypeId
  allocation : Nat
deriving DecidableEq, Repr

inductive TransportPayload where
  | native (value : NativePayload)
  | encoded (bytes : List UInt8) (contentType : String) (schemaId : Option String)
deriving DecidableEq

structure OutboundMessage where
  topic : TopicAddress
  id : EventId
  timestamp : Nat
  headers : Headers
  orderingKey : Option OrderingKey
  delay : Option Nat
  nativePayloadWeightBytes : Option ℕ+
  payload : TransportPayload
deriving DecidableEq

/-! ## Admissions -/

inductive AdmissionStatus where
  | accepted
  | filtered
  | rejected (reason : String)
deriving DecidableEq, Repr

inductive AdmissionRejectionKind where
  | subscriptionClosed
  | subscriptionCapacity
  | providerCountCapacity
  | providerWeightCapacity
deriving DecidableEq, Repr

structure DestinationAdmission where
  subscriptionId : Id
  subscriberId : SubscriberId
  status : AdmissionStatus
  rejectionKind : Option AdmissionRejectionKind
deriving DecidableEq, Repr

namespace DestinationAdmission

def new (subscriptionId : Id) (subscriberId : SubscriberId) (status : AdmissionStatus) :
    DestinationAdmission :=
  { subscriptionId, subscriberId, status, rejectionKind := none }

def rejected (subscriptionId : Id) (subscriberId : SubscriberId) (kind : AdmissionRejectionKind)
    (reason : String) : DestinationAdmission :=
  { subscriptionId, subscriberId, status := .rejected reason, rejectionKind := some kind }

end DestinationAdmission

structure AdmissionSummary where
  accepted : Nat
  filtered : Nat
  rejected : Nat
deriving DecidableEq, Repr

/-- `AdmissionSummary::default`. -/
def AdmissionSummary.default : AdmissionSummary := ⟨0, 0, 0⟩

/-- One more destination with this status. -/
def AdmissionSummary.add (summary : AdmissionSummary) : AdmissionStatus → AdmissionSummary
  | .accepted => { summary with accepted := summary.accepted + 1 }
  | .filtered => { summary with filtered := summary.filtered + 1 }
  | .rejected _ => { summary with rejected := summary.rejected + 1 }

inductive AdmissionOutcome where
  | opaqueAccepted
  | accepted (summary : AdmissionSummary)
  | partiallyAccepted (summary : AdmissionSummary)
  | noneAccepted (summary : AdmissionSummary)
  | noDestinations
  | dropped
deriving DecidableEq, Repr

inductive PublishAcknowledgement where
  | accepted (providerMessageId : Option String) (metadata : Map String String)
  | destinationAdmissions (destinations : List DestinationAdmission)
  | droppedByInterceptor
deriving DecidableEq

def PublishAcknowledgement.admissionOutcome : PublishAcknowledgement → AdmissionOutcome
  | .accepted _ _ => .opaqueAccepted
  | .droppedByInterceptor => .dropped
  | .destinationAdmissions [] => .noDestinations
  | .destinationAdmissions destinations =>
    let summary : AdmissionSummary :=
      destinations.foldl (fun summary d => AdmissionSummary.add summary d.status) .default
    match summary.accepted, summary.rejected with
    | 0, _ => .noneAccepted summary
    | _, 0 => .accepted summary
    | _, _ => .partiallyAccepted summary

/-! ## Errors -/

/-- What a failed publication may have done. -/
inductive PublishEffect where
  | notAccepted
  | mayHaveBeenAccepted
deriving DecidableEq, Repr

inductive SpiError where
  | publish (providerId : String) (resource : Option String) (kind : String)
      (retryable : Option Bool) (effect : PublishEffect) (source : String)
  | operation (providerId operation : String) (resource : Option String) (kind : String)
      (retryable : Option Bool) (source : String)
  | invalidSettlementToken (providerId operation : String) (resource : Option String)
      (reason : String) (retryable : Option Bool) (source : String)
deriving DecidableEq, Repr

namespace SpiError

/-- Only a publish error knows its effect; every other failure may have been accepted. -/
def publishEffect : SpiError → PublishEffect
  | .publish _ _ _ _ effect _ => effect
  | _ => .mayHaveBeenAccepted

def kind : SpiError → String
  | .publish _ _ kind _ _ _ => kind
  | .operation _ _ _ kind _ _ => kind
  | .invalidSettlementToken .. => "invalid_settlement_token"

def retryable : SpiError → Option Bool
  | .publish _ _ _ retryable _ _ => retryable
  | .operation _ _ _ _ retryable _ => retryable
  | .invalidSettlementToken _ _ _ _ retryable _ => retryable

/-- `matches!(error, SpiError::InvalidSettlementToken { .. })` -/
def isInvalidSettlementToken : SpiError → Bool
  | .invalidSettlementToken .. => true
  | _ => false

end SpiError

/-! ## Settlement -/

inductive DeliveryDisposition where
  | accept
  | retry
  | reject
deriving DecidableEq, Repr

/-- The address of a shared settlement cell (`Arc<Mutex<LocalSettlementState>>`). Two handles are
the same cell exactly when `Arc::ptr_eq` holds. -/
structure LocalSettlementHandle where
  address : Nat
deriving DecidableEq, Repr

/-- The state a token carries (`Box<dyn Any>`): a local settlement handle, or a value of some
other type, for which the downcast fails. -/
inductive TokenState where
  | localSettlement (handle : LocalSettlementHandle)
  | foreign (typeId : TypeId)
deriving DecidableEq, Repr

structure SettlementToken where
  subscriptionId : Id
  state : TokenState
deriving DecidableEq, Repr

namespace SettlementToken

def belongsTo (token : SettlementToken) (subscriptionId : Id) : Bool :=
  token.subscriptionId == subscriptionId

/-- `downcast_ref::<LocalSettlementHandle>`. -/
def downcastRef (token : SettlementToken) : Option LocalSettlementHandle :=
  match token.state with
  | .localSettlement handle => some handle
  | .foreign _ => none

end SettlementToken

/-! ## Received messages -/

/-- A received message. A local provider adds no metadata of its own and no attempt number. -/
structure InboundMessage where
  topic : TopicAddress
  id : EventId
  timestamp : Nat
  headers : Headers
  orderingKey : Option OrderingKey
  payload : TransportPayload
  settlement : Option SettlementToken
deriving DecidableEq

/-- One or more messages may have been missed. -/
structure DeliveryGap where
  reason : String
  missed : Option Nat
deriving DecidableEq, Repr

inductive ReceiveOutcome where
  | message (message : InboundMessage)
  | gap (gap : DeliveryGap)
  | timedOut
  | closed
deriving DecidableEq

/-! ## Subscriptions and shutdown -/

inductive SubscriptionDurability where
  | ephemeral
  | durable
deriving DecidableEq, Repr

inductive StartPosition where
  | new
  | earliest
  | at (position : String)
deriving DecidableEq, Repr

structure SpiSubscriptionRequest where
  subscriptionId : Id
  topic : TopicAddress
  subscriberId : SubscriberId
  group : Option String
  durability : SubscriptionDurability
  startPosition : StartPosition
  payloadTypeId : TypeId
deriving DecidableEq, Repr

inductive ShutdownMode where
  | graceful (timeout : Nat)
  | immediate
deriving DecidableEq, Repr

inductive ShutdownOutcome where
  | complete
  | timedOut
deriving DecidableEq, Repr

end EventBus
