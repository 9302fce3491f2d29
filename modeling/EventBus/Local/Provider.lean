import EventBus.Lib.Threads
import EventBus.Local.Registry
import EventBus.Local.StoreRun

/-!
# The synchronous local provider

The calls of `local_event_bus_spi.rs` and `local_event_subscription.rs` as threads on the provider's
shared state. A step of a call ends where the code gives a lock back. Between the sections of one
call those of others may come, so a publisher works with the routes of its snapshot, and an idle
wait and the drain of a shutdown look at one queue after the other.

The inputs of a step are what the clock reads, the orders of hash map iterations, and whether a wait
on a condition variable timed out; a wait may also end for no reason. A receiver's calls are not
kept apart here: that it has one owner is not used below. Nor is anything assumed of the clock.
-/

namespace EventBus.Local

open Lib

/-- What the calls of both providers return. -/
inductive Response where
  | published (result : Except SpiError PublishAcknowledgement)
  | subscribed (result : Except SpiError QueueRef)
  | received (result : Except SpiError ReceiveOutcome)
  | settled (result : Except SpiError Unit)
  | shutdown (result : Except SpiError ShutdownOutcome)
  | topicIdle (idle : Bool)
  | done

/-- What an observer of the sections sees. -/
inductive ProviderNote where
  /-- A publisher took its routes. -/
  | routed
  | accepted (q : QueueRef) (event : LocalEvent)
  | rejected (q : QueueRef) (kind : AdmissionRejectionKind)
  /-- A shutdown closed admission. -/
  | closing
  /-- A look at the queue found neither a pending event nor one in flight. -/
  | idle (q : QueueRef)
  /-- A shutdown in this mode emptied the queue. -/
  | discarded (mode : ShutdownMode) (q : QueueRef) (events : Multiset LocalEvent)
deriving DecidableEq

/-- The calls on the synchronous provider and its receivers. -/
inductive Request where
  | publish (message : OutboundMessage)
  | subscribe (request : SpiSubscriptionRequest)
  | receive (q : QueueRef) (timeout : Nat)
  | settle (q : QueueRef) (token : SettlementToken) (disposition : DeliveryDisposition)
  | close (q : QueueRef)
  | drop (q : QueueRef)
  | shutdown (mode : ShutdownMode)
  | waitForTopicIdle (topic : TopicAddress) (timeout : Option Nat)
  /-- Another provider settles a delivery of its own. -/
  | foreign (address : Nat) (disposition : DeliveryDisposition)

/-! ## Pieces both providers use -/

/-- The queue has work: `!state.is_pending_empty() || !state.in_flight.is_empty()`. -/
def LocalQueueState.isBusy (s : LocalQueueState) : Bool := !s.isPendingEmpty || s.inFlight.size != 0

/-- A section on a queue by a call that goes on with `next`. Calls are made on queues that exist;
one on another queue would stay where it is. -/
def Store.onQueue {R A : Type} (s : Store) (q : QueueRef) (stay : A)
    (body : LocalQueue → Locked → Option (R × Locked)) (next : LocalQueue → R → Store → A) :
    Option A :=
  match s.queues[q]? with
  | none => some stay
  | some queue => (body queue (s.lock queue)).map fun (r, l) => next queue r (s.unlock q queue l)

/-- The cell of a local token has no disposition yet. -/
def Store.isUnsettled (s : Store) (token : SettlementToken) : Bool :=
  (token.downcastRef.bind fun handle => s.cells[handle.address]?).any (·.disposition.isNone)

/-- The entry for a destination in the acknowledgement. -/
def destinationAdmission (queue : LocalQueue) :
    Option (AdmissionRejectionKind × String) → DestinationAdmission
  | some (kind, reason) => .rejected queue.id queue.subscriberId kind reason
  | none => .new queue.id queue.subscriberId .accepted

/-- What is seen of it. -/
def admissionNote (q : QueueRef) (event : LocalEvent) :
    Option (AdmissionRejectionKind × String) → ProviderNote
  | some (kind, _) => .rejected q kind
  | none => .accepted q event

/-- `sort_unstable_by_key(subscription_id)`; a snapshot has each id once. -/
def acknowledge (admissions : List DestinationAdmission) : Response :=
  .published (.ok (.destinationAdmissions
    (admissions.insertionSort fun a b => a.subscriptionId.value ≤ b.subscriptionId.value)))

/-- The event of a publication, before it has a route, and the type of its payload. -/
def outboundEvent (maxInstant now : Nat) (message : OutboundMessage) :
    Except SpiError (LocalEvent × TypeId) :=
  match message.payload with
  | .encoded _ _ _ =>
    .error (preAdmissionPublishError (some message.topic.value) "unsupported_payload_mode")
  | .native payload =>
    match LocalEvent.transport maxInstant now message.topic message payload with
    | none => .error (preAdmissionPublishError (some message.topic.value) "delay_deadline_overflow")
    | some event => .ok (event, payload.typeId)

/-- Only independent ephemeral receivers that begin with new events. -/
def supported (request : SpiSubscriptionRequest) : Bool :=
  request.durability = .ephemeral && request.group.isNone && request.startPosition = .new

def subscribeError (request : SpiSubscriptionRequest) (kind : String) : Response :=
  .subscribed (.error (operationError "subscribe" (some request.topic.value) kind))

/-! ## State -/

structure LocalSharedState where
  state : BusState
  /-- The thread that holds the shutdown gate. -/
  shutdownGate : Option Nat
  capacity : Nat
  /-- The queues, the budget and the settlement cells, behind locks of their own. -/
  store : Store
  /-- The strong references to queues: one for each receiver and each place in a snapshot. -/
  owners : List QueueRef

namespace LocalSharedState

/-- `LocalSharedState::new`, among the settlement cells of other providers. -/
def new (capacity maxTotalOutstanding : Nat) (maxWeight : Option ℕ+)
    (cells : List LocalSettlementState) : LocalSharedState :=
  ⟨.default, none, capacity, .new maxTotalOutstanding maxWeight cells, []⟩

/-- `strong_count() > 0`. -/
def live (s : LocalSharedState) (q : QueueRef) : Bool := decide (q ∈ s.owners)

/-- A snapshot takes a reference to each of its queues. -/
def own (s : LocalSharedState) (queues : List QueueRef) : LocalSharedState :=
  { s with owners := queues ++ s.owners }

def disown (s : LocalSharedState) (queues : List QueueRef) : LocalSharedState :=
  { s with owners := s.owners.diff queues }

def signalChanged (s : LocalSharedState) : LocalSharedState :=
  { s with state := s.state.signalChanged }

end LocalSharedState

/-! ## Calls -/

/-- What a loop over snapshots waits for. -/
inductive Goal where
  | topicIdle (topic : TopicAddress) (timeout : Option Nat)
  /-- The drain of a graceful shutdown. -/
  | drain (timeout : Nat)
deriving DecidableEq

def Goal.timeout : Goal → Option Nat
  | topicIdle _ timeout => timeout
  | drain timeout => some timeout

/-- A call in progress: where it is, with its local variables. -/
inductive Call where
  | publish (message : OutboundMessage)
  | admitting (topic : TopicAddress) (event : LocalEvent) (queues : List QueueRef)
      (admissions : List DestinationAdmission) (admittedAny : Bool)
  | subscribe (request : SpiSubscriptionRequest)
  | receive (q : QueueRef) (timeout : Nat)
  | receiving (q : QueueRef) (timeout started : Nat)
  /-- In flight; only the change is still to be announced. -/
  | delivered (message : InboundMessage)
  | settle (q : QueueRef) (token : SettlementToken) (disposition : DeliveryDisposition)
  | settled
  | close (q : QueueRef) (dropped : Bool)
  | unregister (q : QueueRef) (dropped : Bool)
  | unregistered (q : QueueRef) (dropped : Bool)
  | shutdown (mode : ShutdownMode)
  | gated (mode : ShutdownMode)
  | closing (mode : ShutdownMode)
  | announcing (mode : ShutdownMode)
  | look (goal : Goal) (started : Nat)
  | inspect (goal : Goal) (started version : Nat) (seen queues : List QueueRef)
  | busy (goal : Goal) (started version : Nat) (queues : List QueueRef)
  | wait (goal : Goal) (started : Nat) (queues : List QueueRef)
  | cleanup (mode : ShutdownMode) (outcome : ShutdownOutcome)
  | cleaning (mode : ShutdownMode) (outcome : ShutdownOutcome) (queues : List QueueRef)
  | recorded (outcome : ShutdownOutcome)
  | ungate (outcome : ShutdownOutcome)
  | waitForTopicIdle (topic : TopicAddress) (timeout : Option Nat)
  | foreign (address : Nat) (disposition : DeliveryDisposition)

/-- What a step of a thread depends on besides the state. -/
structure Tick where
  /-- The first reading of the clock, and the next one. -/
  moment : Moment
  again : Moment
  topics : KeyOrder TopicAddress
  timedOut : Bool

/-- The state after a step, where the call is then, and what was seen. -/
abbrev Next := LocalSharedState × Thread Call Response × List ProviderNote

namespace Call

def enter : Request → Call
  | .publish message => publish message
  | .subscribe request => subscribe request
  | .receive q timeout => receive q timeout
  | .settle q token disposition => settle q token disposition
  | .close q => close q false
  | .drop q => close q true
  | .shutdown mode => shutdown mode
  | .waitForTopicIdle topic timeout => waitForTopicIdle topic timeout
  | .foreign address disposition => foreign address disposition

/-- The section of `publish` that looks the destinations up. -/
def route (s : LocalSharedState) (message : OutboundMessage) (event : LocalEvent)
    (payloadTypeId : TypeId) : Next :=
  let topic := message.topic
  let refuse (s : LocalSharedState) (error : SpiError) : Next :=
    (s, .returned (.published (.error error)), [])
  if s.state.closed then refuse s (preAdmissionPublishError (some topic.value) "provider_closed")
  else
    let (queues, state) := s.state.liveQueuesForTopic s.live topic
    let s := { s with state }
    if (state.topics.lookup topic).any fun bucket =>
        bucket.payloadTypeId.any (· ≠ payloadTypeId) then
      refuse s (preAdmissionPublishError (some topic.value) "topic_type_conflict")
    else if s.store.outstanding.requiresWeight && message.nativePayloadWeightBytes.isNone then
      refuse s (missingNativePayloadWeightError topic.value)
    else
      let (queues, topics) := match state.topics.lookup topic with
        | none => (queues, state.topics)
        | some bucket =>
          let (queues, bucket) := bucket.rotatePublishQueues queues
          (queues, state.topics.insert topic bucket)
      let queues := queues.map Prod.snd
      let event :=
        if s.store.outstanding.requiresWeight then event else { event with weightBytes := 0 }
      ({ s with state := { state with topics } }.own queues,
        .running (admitting topic event queues [] false), [.routed])

/-- The section of `subscribe`. -/
def subscribeIn (s : LocalSharedState) (request : SpiSubscriptionRequest) (x : Tick) : Next :=
  let refuse (s : LocalSharedState) (kind : String) : Next :=
    (s, .returned (subscribeError request kind), [])
  let id := request.subscriptionId
  let topic := request.topic
  if s.state.closed then refuse s "provider_closed"
  else if !supported request then refuse s "unsupported_subscription_options"
  else
    let (_, state) := s.state.liveQueuesForTopic s.live topic
    let s := { s with state }
    if ((state.topics.lookup topic).bind (·.payloadTypeId)).any (· ≠ request.payloadTypeId) then
      refuse s "topic_type_conflict"
    else
      let isLive := (x.topics.keys state.topics.keys).any fun topic =>
        (state.topics.lookup topic).any fun bucket => (bucket.get id).any s.live
      if id ∈ state.subscriptionIds ∧ isLive then refuse s "duplicate_subscription"
      else
        let state :=
          if id ∈ state.subscriptionIds then state.removeStaleId s.live x.topics id else state
        let q : QueueRef := s.store.queues.length
        ({ s with
            state := state.register topic id q request.payloadTypeId
            store := s.store.subscribe id topic request.subscriberId s.capacity
            owners := q :: s.owners },
          .returned (.subscribed (.ok q)), [])

/-- What a receiver does after a look at its queue: it returns, or it waits. -/
def afterLook (q : QueueRef) (timeout started : Nat) (received : Received) (s : LocalSharedState) :
    Next :=
  match received with
  | .closed => (s, .returned (.received (.ok .closed)), [])
  | .message message => (s, .running (delivered message), [])
  | .failed error => (s, .returned (.received (.error error)), [])
  | .nothing none => (s, .returned (.received (.ok .timedOut)), [])
  | .nothing (some _) => (s, .running (receiving q timeout started), [])

/-- A round of the loop of `receive`. The receiver goes on to wait if time remains. -/
def lookAt (s : LocalSharedState) (call : Call) (q : QueueRef) (timeout started : Nat) (x : Tick) :
    Option Next :=
  let waits := if timeout = 0 ∨ timeout ≤ x.again.now - started then none else some x.moment.now
  s.store.onQueue q (s, .running call, [])
    (fun queue => Local.receive queue (fun queue _ => queue.topic) x.moment x.again waits)
    fun _ received store => afterLook q timeout started received { s with store }

/-- The end of a loop over snapshots: with the goal reached or without. -/
def finish (s : LocalSharedState) (goal : Goal) (reached : Bool) : Next :=
  match goal with
  | .topicIdle _ _ => (s, .returned (.topicIdle reached), [])
  | .drain timeout =>
    (s, .running (cleanup (.graceful timeout) (if reached then .complete else .timedOut)), [])

/-- The snapshot at the start of a round. -/
def snapshot (s : LocalSharedState) (goal : Goal) (x : Tick) : List (Id × QueueRef) × BusState :=
  match goal with
  | .topicIdle topic _ => s.state.liveQueuesForTopic s.live topic
  | .drain _ => s.state.liveQueues s.live x.topics

/-- One step of a call. The cells below `foreign` belong to other providers. -/
def step (maxInstant foreign : Nat) (s : LocalSharedState) (i : Nat) (call : Call) (x : Tick) :
    Option Next :=
  match call with
  | publish message =>
    match outboundEvent maxInstant x.moment.now message with
    | .error error => some (s, .returned (.published (.error error)), [])
    | .ok (event, payloadTypeId) => some (route s message event payloadTypeId)
  | admitting _ _ [] admissions admittedAny =>
    some (if admittedAny then s.signalChanged else s, .returned (acknowledge admissions), [])
  | admitting topic event (q :: queues) admissions admittedAny =>
    match s.store.queues[q]? with
    | none => some (s, .running call, [])
    | some queue =>
      if queue.topic ≠ topic then
        some (s.disown [q], .running (admitting topic event queues admissions admittedAny), [])
      else
        (publishTo queue event x.moment (s.store.lock queue)).map fun (rejection, l) =>
          ({ s with store := s.store.unlock q queue l }.disown [q],
            .running (admitting topic event queues
              (admissions ++ [destinationAdmission queue rejection])
              (admittedAny || rejection.isNone)),
            [admissionNote q event rejection])
  | subscribe request => some (subscribeIn s request x)
  | receive q timeout => lookAt s call q timeout x.moment.now x
  | receiving q timeout started =>
    if x.timedOut ∧ timeout < x.moment.now - started then
      match s.store.queues[q]? with
      | none => some (s, .running call, [])
      | some queue => some (s, .returned
          (.received (.ok (if queue.state.closed then .closed else .timedOut))), [])
    else lookAt s call q timeout started x
  | delivered message =>
    some (s.signalChanged, .returned (.received (.ok (.message message))), [])
  | settle q token disposition =>
    s.store.onQueue q (s, .running call, [])
      (fun queue => Local.settle queue token disposition x.moment)
      fun _ result store =>
        -- a repeated settlement returns before the change is announced
        if result.isOk && s.store.isUnsettled token then
          ({ s with store }, .running settled, [])
        else ({ s with store }, .returned (.settled result), [])
  | settled => some (s.signalChanged, .returned (.settled (.ok ())), [])
  | close q dropped =>
    s.store.onQueue q (s, .running call, []) (fun _ => Local.close true) fun _ _ store =>
      ({ s with store }, .running (unregister q dropped), [])
  | unregister q dropped =>
    match s.store.queues[q]? with
    | none => some (s, .running call, [])
    | some queue =>
      some ({ s with state := s.state.unregister s.live queue.topic queue.id q },
        .running (unregistered q dropped), [])
  | unregistered q dropped =>
    let s := s.signalChanged
    some (if dropped then s.disown [q] else s, .returned .done, [])
  | shutdown mode =>
    match s.shutdownGate with
    | some _ => some (s, .running call, [])
    | none => some ({ s with shutdownGate := some i }, .running (gated mode), [])
  | gated mode =>
    match s.state.shutdownOutcome with
    | some outcome =>
      some ({ s with shutdownGate := none }, .returned (.shutdown (.ok outcome)), [])
    | none => some (s, .running (closing mode), [])
  | closing mode =>
    some ({ s with state := { s.state with closed := true } }, .running (announcing mode),
      [.closing])
  | announcing mode =>
    match mode with
    | .immediate => some (s.signalChanged, .running (cleanup mode .complete), [])
    | .graceful timeout =>
      some (s.signalChanged, .running (look (.drain timeout) x.moment.now), [])
  | look goal started =>
    let (queues, state) := snapshot s goal x
    let queues := queues.map Prod.snd
    some ({ s with state }.own queues,
      .running (inspect goal started state.changeVersion [] queues), [])
  | inspect goal _ _ seen [] => some (finish (s.disown seen) goal true)
  | inspect goal started version seen (q :: queues) =>
    match s.store.queues[q]? with
    | none => some (s, .running call, [])
    | some queue =>
      if queue.state.isBusy then
        some (s, .running (busy goal started version (seen ++ q :: queues)), [])
      else some (s, .running (inspect goal started version (seen ++ [q]) queues), [.idle q])
  | busy goal started version queues =>
    if goal.timeout.any fun timeout => timeout < x.moment.now - started then
      some (finish (s.disown queues) goal false)
    else if s.state.changeVersion ≠ version then
      some (s.disown queues, .running (look goal started), [])
    else some (s, .running (wait goal started queues), [])
  | wait goal started queues =>
    if goal.timeout.isSome ∧ x.timedOut then some (finish (s.disown queues) goal false)
    else some (s.disown queues, .running (look goal started), [])
  | cleanup mode outcome =>
    let (queues, state) := s.state.liveQueues s.live x.topics
    let queues := queues.map Prod.snd
    some ({ s with state }.own queues, .running (cleaning mode outcome queues), [])
  | cleaning _ outcome [] =>
    some ({ s with state := { s.state with shutdownOutcome := some outcome } },
      .running (recorded outcome), [])
  | cleaning mode outcome (q :: queues) =>
    s.store.onQueue q (s, .running call, []) (fun _ => Local.close false) fun _ events store =>
      ({ s with store }.disown [q], .running (cleaning mode outcome queues),
        [.discarded mode q events])
  | recorded outcome => some (s.signalChanged, .running (ungate outcome), [])
  | ungate outcome =>
    some ({ s with shutdownGate := none }, .returned (.shutdown (.ok outcome)), [])
  | waitForTopicIdle topic timeout =>
    some (s, .running (look (.topicIdle topic timeout) x.moment.now), [])
  | .foreign address disposition =>
    some (if address < foreign then { s with store := s.store.settleForeign address disposition }
      else s, .returned .done, [])

end Call

/-- The synchronous provider. -/
def provider (maxInstant foreign : Nat) :
    Machine LocalSharedState Request Call Response Tick ProviderNote where
  enter := Call.enter
  step := Call.step maxInstant foreign

end EventBus.Local
