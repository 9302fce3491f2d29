import EventBus.Local.Budget
import EventBus.Local.Queue

/-!
# The critical sections of the local providers

What the synchronous and the asynchronous provider do while they hold the lock of a queue. In such
a section a thread also takes the lock of the budget or of a settlement cell, and lets go of it
before the section ends, so a section is one step of a run: `publishTo` (one destination of a
publish), `receive`, `settle` and `close`. The memory behind these locks is the `Store`.

A section comes with the moments at which it reads the clock and with the order in which hash
maps are iterated then (`Moment`). `none` is a panic: an assertion of the budget, an overflow of
the released weight, or a counter of the queue.
-/

namespace EventBus.Local

open Lib

/-! ## Memory -/

/-- The state of a settlement cell. -/
structure LocalSettlementState where
  tokenId : String
  disposition : Option DeliveryDisposition
deriving DecidableEq, Repr

structure LocalQueue where
  id : Id
  topic : TopicAddress
  subscriberId : SubscriberId
  capacity : Nat
  state : LocalQueueState

/-- The identity of a queue (`Arc<LocalQueue>`). -/
abbrev QueueRef := Nat

/-- The memory of a provider behind its queue locks. A queue and a settlement cell are named by
their places in these lists, to which new ones are appended. -/
structure Store where
  queues : List LocalQueue
  outstanding : OutstandingBudget
  cells : List LocalSettlementState

/-- What the holder of a queue's lock can reach. -/
structure Locked where
  state : LocalQueueState
  outstanding : OutstandingBudget
  cells : List LocalSettlementState

/-- A reading of the clock and the order of hash map iterations at that time. -/
structure Moment where
  now : Nat
  iter : IterOrder

/-! ## Errors -/

def operationError (operation : String) (resource : Option String) (kind : String) : SpiError :=
  .operation "local" operation resource kind (some false) kind

def preAdmissionPublishError (resource : Option String) (kind : String) : SpiError :=
  .publish "local" resource kind (some false) .notAccepted kind

def missingNativePayloadWeightError (topic : String) : SpiError :=
  preAdmissionPublishError (some topic) "missing_native_payload_weight"

def invalidTokenError (resource : Option String) (reason : String) : SpiError :=
  .invalidSettlementToken "local" "settle" resource reason (some false) reason

/-! ## Admission -/

/-- Whether the destination rejects the event, and the budget with a place taken if not. -/
def admissionRejection (queue : LocalQueue) (event : LocalEvent) (l : Locked) :
    Option (AdmissionRejectionKind × String) × OutstandingBudget :=
  if l.state.closed then
    (some (.subscriptionClosed, "subscription is closed"), l.outstanding)
  else if l.state.pendingCount + l.state.inFlight.size ≥ queue.capacity then
    (some (.subscriptionCapacity, "subscription queue is full"), l.outstanding)
  else
    match l.outstanding.tryReserve event.weightBytes with
    | (.error kind, outstanding) =>
      (some (kind, "provider outstanding capacity is full"), outstanding)
    | (.ok (), outstanding) => (none, outstanding)

/-- The rejections that the budget has not counted itself. -/
def recordAdmission (outstanding : OutstandingBudget) :
    Option (AdmissionRejectionKind × String) → OutstandingBudget
  | some (.subscriptionClosed, _) => outstanding.recordRejection .subscriptionClosed
  | some (.subscriptionCapacity, _) => outstanding.recordRejection .subscriptionCapacity
  | _ => outstanding

/-- One round of the loop of `publish`. -/
def publishTo (queue : LocalQueue) (event : LocalEvent) (m : Moment) (l : Locked) :
    Option (Option (AdmissionRejectionKind × String) × Locked) :=
  let (rejection, outstanding) := admissionRejection queue event l
  let outstanding := recordAdmission outstanding rejection
  match rejection with
  | some rejection => some (some rejection, { l with outstanding })
  | none => (l.state.enqueueBackAt m.iter m.now event).map fun state =>
      (none, { l with state, outstanding })

/-! ## Receiving -/

def tokenId (event : LocalEvent) (sequence : Nat) : String :=
  event.id.value ++ ":" ++ toString sequence

def LocalEvent.intoInbound (event : LocalEvent) (subscriptionId : Id)
    (settlement : LocalSettlementHandle) : InboundMessage :=
  { topic := event.topic, id := event.id, timestamp := event.timestamp, headers := event.headers,
    orderingKey := event.orderingKey, payload := .native event.payload,
    settlement := some ⟨subscriptionId, .localSettlement settlement⟩ }

/-- What one look at the queue gives a receiver. -/
inductive Received where
  | closed
  | message (message : InboundMessage)
  | failed (error : SpiError)
  /-- Nothing is ready; a receiver that waits also asks for the next delay. -/
  | nothing (delay : Option (Option Nat))
deriving DecidableEq

/-- The delivery of a popped event: it is in flight under a new token, with a new cell. -/
def deliver (queue : LocalQueue) (event : LocalEvent) (sequence : Nat) (l : Locked) :
    Received × Locked :=
  let token := tokenId event sequence
  let settlement : LocalSettlementHandle := ⟨l.cells.length⟩
  (.message (event.intoInbound queue.id settlement),
    { l with
      state := { l.state with
        nextDeliveryToken := sequence
        inFlight := l.state.inFlight.insert token ⟨event, settlement⟩ }
      cells := l.cells ++ [⟨token, none⟩] })

/-- A look at the queue of a receiver. `resource` is what an exhaustion error names: the topic of
the queue for the synchronous provider, that of the event for the asynchronous one. A receiver that
waits reads the next delay at `waits`. -/
def receive (queue : LocalQueue) (resource : LocalQueue → LocalEvent → TopicAddress) (m : Moment)
    (again : Moment) (waits : Option Nat) (l : Locked) : Option (Received × Locked) :=
  if l.state.closed then some (.closed, l)
  else
    (l.state.popReady m.iter m.now).bind fun
    | (some event, state) =>
      match checkedSucc state.nextDeliveryToken with
      | none => (state.enqueueFrontAt again.iter again.now event).map fun state =>
          (.failed (operationError "receive" (some (resource queue event).value)
            "settlement_token_exhausted"), { l with state })
      | some sequence => some (deliver queue event sequence { l with state })
    | (none, state) =>
      match waits with
      | none => some (.nothing none, { l with state })
      | some now => (state.nextReadyDelay now).map fun (delay, state) =>
          (.nothing (some delay), { l with state })

/-! ## Settlement -/

/-- The first settlement of a delivery. -/
def settleDelivery (handle : LocalSettlementHandle) (cell : LocalSettlementState)
    (delivery : LocalInFlight) (disposition : DeliveryDisposition) (m : Moment) (l : Locked) :
    Option Locked :=
  let state := { l.state with inFlight := l.state.inFlight.erase cell.tokenId }
  let cells := l.cells.set handle.address { cell with disposition := some disposition }
  if disposition = .retry then
    (state.enqueueFrontAt m.iter m.now delivery.event).map fun state => { l with state, cells }
  else
    (l.outstanding.release 1 delivery.event.weightBytes).map fun outstanding =>
      { state, outstanding, cells }

/-- `settle`, by a receiver of the queue. The first two tests are made before the lock is taken.
A handle is never dangling, so the test for the cell does not fail. -/
def settle (queue : LocalQueue) (token : SettlementToken) (disposition : DeliveryDisposition)
    (m : Moment) (l : Locked) : Option (Except SpiError Unit × Locked) :=
  let refuse (reason : String) : Option (Except SpiError Unit × Locked) :=
    some (.error (invalidTokenError (some queue.topic.value) reason), l)
  if !token.belongsTo queue.id then refuse "foreign_subscription"
  else
    match token.downcastRef with
    | none => refuse "unknown_token"
    | some handle =>
      match l.cells[handle.address]? with
      | none => refuse "unknown_token"
      | some cell =>
        match cell.disposition with
        | some previous =>
          if previous = disposition then some (.ok (), l) else refuse "conflicting_disposition"
        | none =>
          match l.state.inFlight.lookup cell.tokenId with
          | none => refuse "unknown_token"
          | some delivery =>
            if delivery.settlement ≠ handle then refuse "unknown_token"
            else (settleDelivery handle cell delivery disposition m l).map (.ok (), ·)

/-! ## Closing -/

/-- The sum of `weight_bytes` over the discarded events; an overflow panics. -/
def discardedWeight (events : Multiset LocalEvent) : Option Nat :=
  let weight := (events.map LocalEvent.weightBytes).sum
  if weight ≤ wordMax then some weight else none

/-- The queue is closed and emptied. The `close` of a synchronous receiver does this at most once
(`once`); the asynchronous one and both shutdowns do it whenever they come. -/
def close (once : Bool) (l : Locked) : Option (Multiset LocalEvent × Locked) :=
  if once && l.state.closed then some (0, l)
  else
    let (discarded, state) := LocalQueueState.clearPending { l.state with closed := true }
    (discardedWeight discarded).bind fun weight =>
    (l.outstanding.release discarded.card weight).map fun outstanding =>
      (discarded, { l with state, outstanding })

/-! ## Sections -/

namespace Store

def new (maxCount : Nat) (maxWeight : Option ℕ+) (cells : List LocalSettlementState) : Store :=
  ⟨[], .new maxCount maxWeight, cells⟩

def subscribe (s : Store) (id : Id) (topic : TopicAddress) (subscriberId : SubscriberId)
    (capacity : Nat) : Store :=
  { s with queues := s.queues ++ [⟨id, topic, subscriberId, capacity, .default⟩] }

def lock (s : Store) (queue : LocalQueue) : Locked := ⟨queue.state, s.outstanding, s.cells⟩

def unlock (s : Store) (q : QueueRef) (queue : LocalQueue) (l : Locked) : Store :=
  ⟨s.queues.set q { queue with state := l.state }, l.outstanding, l.cells⟩

/-- A section on the queue `q`; there is nothing to enter if there is no such queue. -/
def enter {R : Type} (s : Store) (q : QueueRef)
    (body : LocalQueue → Locked → Option (R × Locked)) : Option (Option R × Store) :=
  match s.queues[q]? with
  | none => some (none, s)
  | some queue => (body queue (s.lock queue)).map fun r => (some r.1, s.unlock q queue r.2)

end Store

end EventBus.Local
