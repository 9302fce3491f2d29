import EventBus.Local.Provider

/-!
# The asynchronous local provider

The futures of `async_local_event_bus_spi.rs` and `async_local_event_subscription.rs` as threads. A
step goes to the end of a section or to the next await, where a future may also be dropped. Two
sections of a shutdown hold the lock of the registry while they visit the queues one by one: the
check of a graceful shutdown and the cleanup. So that lock has a holder, and other calls wait for
it.

Wakers are left out: a future may be polled at any time, also without having been woken. A poll of
the timer is an input of the step (`TimerPoll`).
-/

namespace EventBus.Local

open Lib

structure AsyncLocalShared where
  state : AsyncBusState
  /-- The thread that holds the lock of `state` between two of its steps. -/
  lock : Option Nat
  capacity : Nat
  store : Store

/-- `AsyncLocalShared::new`, among the settlement cells of other providers. -/
def AsyncLocalShared.new (capacity maxTotalOutstanding : Nat) (maxWeight : Option ℕ+)
    (cells : List LocalSettlementState) : AsyncLocalShared :=
  ⟨.default, none, capacity, .new maxTotalOutstanding maxWeight cells⟩

/-- The calls on the asynchronous provider and its receivers. -/
inductive AsyncRequest where
  | publish (message : OutboundMessage)
  | subscribe (request : SpiSubscriptionRequest)
  | receive (q : QueueRef) (timeout : Nat)
  | settle (q : QueueRef) (token : SettlementToken) (disposition : DeliveryDisposition)
  /-- `close`, or the drop of a receiver that was not closed. -/
  | close (q : QueueRef)
  | shutdown (mode : ShutdownMode)
  /-- Another provider settles a delivery of its own. -/
  | foreign (address : Nat) (disposition : DeliveryDisposition)

/-- A future in progress. -/
inductive AsyncCall where
  | publish (message : OutboundMessage)
  | admitting (event : LocalEvent) (mailboxes : List QueueRef)
      (admissions : List DestinationAdmission)
  | subscribe (request : SpiSubscriptionRequest)
  | receive (q : QueueRef) (timeout : Nat)
  | receiving (q : QueueRef) (timeout started : Nat)
  | settle (q : QueueRef) (token : SettlementToken) (disposition : DeliveryDisposition)
  | close (q : QueueRef)
  | shutdown (mode : ShutdownMode)
  /-- At the await of a graceful shutdown. -/
  | draining (timeout started : Nat)
  | checking (timeout started : Nat) (seen mailboxes : List QueueRef)
  | busy (timeout started : Nat)
  | finalize (mode : ShutdownMode) (result : ShutdownOutcome)
  | cleaning (mode : ShutdownMode) (result : ShutdownOutcome) (mailboxes : List QueueRef)
  | foreign (address : Nat) (disposition : DeliveryDisposition)

inductive TimerPoll where
  | pending
  | fired
  | failed (error : String)
deriving DecidableEq, Repr

/-- What a step of a future depends on besides the state. -/
structure AsyncTick where
  moment : Moment
  again : Moment
  /-- The reading for the time that has elapsed. -/
  clock : Nat
  mailboxes : KeyOrder Id
  timer : TimerPoll
  /-- The future is dropped, if it is at an await. -/
  dropped : Bool

abbrev AsyncNext := AsyncLocalShared × Thread AsyncCall Response × List ProviderNote

namespace AsyncCall

def enter : AsyncRequest → AsyncCall
  | .publish message => publish message
  | .subscribe request => subscribe request
  | .receive q timeout => receive q timeout
  | .settle q token disposition => settle q token disposition
  | .close q => close q
  | .shutdown mode => shutdown mode
  | .foreign address disposition => foreign address disposition

/-- The section of `publish` that looks the destinations up. -/
def route (s : AsyncLocalShared) (message : OutboundMessage) (event : LocalEvent)
    (payloadType : TypeId) : AsyncNext :=
  let topic := message.topic
  let refuse (error : SpiError) : AsyncNext := (s, .returned (.published (.error error)), [])
  if s.state.closed then refuse (preAdmissionPublishError (some topic.value) "provider_closed")
  else if (s.state.payloadTypes.lookup topic).any (· ≠ payloadType) then
    refuse (preAdmissionPublishError (some topic.value) "topic_type_conflict")
  else if s.store.outstanding.requiresWeight && message.nativePayloadWeightBytes.isNone then
    refuse (missingNativePayloadWeightError topic.value)
  else
    let (mailboxes, state) := s.state.publishMailboxesForTopic topic
    let event :=
      if s.store.outstanding.requiresWeight then event else { event with weightBytes := 0 }
    ({ s with state }, .running (admitting event (mailboxes.map Prod.snd) []), [.routed])

/-- The section of `subscribe`. -/
def subscribeIn (s : AsyncLocalShared) (request : SpiSubscriptionRequest) : AsyncNext :=
  let refuse (kind : String) : AsyncNext := (s, .returned (subscribeError request kind), [])
  let id := request.subscriptionId
  let topic := request.topic
  if s.state.closed then refuse "provider_closed"
  else if (s.state.payloadTypes.lookup topic).any (· ≠ request.payloadTypeId) then
    refuse "topic_type_conflict"
  else
    let mailbox : QueueRef := s.store.queues.length
    match s.state.insertMailbox id topic mailbox with
    | none => refuse "duplicate_subscription"
    | some state =>
      ({ s with
          state := { state with
            payloadTypes := state.payloadTypes.insert topic request.payloadTypeId }
          store := s.store.subscribe id topic request.subscriberId s.capacity },
        .returned (.subscribed (.ok mailbox)), [])

def timerError (operation : String) (resource : Option String) (error : String) : SpiError :=
  .operation "local" operation resource "timer_error" (some false) error

/-- What a receiver does after a look at its queue: it returns, or it polls its timer, if it has
one, and is at the await. -/
def afterLook (maxDuration : Nat) (q : QueueRef) (timeout started : Nat) (timer : TimerPoll)
    (queue : LocalQueue) (received : Received) (s : AsyncLocalShared) : AsyncNext :=
  match received with
  | .closed => (s, .returned (.received (.ok .closed)), [])
  | .message message => (s, .returned (.received (.ok (.message message))), [])
  | .failed error => (s, .returned (.received (.error error)), [])
  | .nothing none => (s, .returned (.received (.ok .timedOut)), [])
  | .nothing (some delay) =>
    match timer with
    | .failed error =>
      if delay.isSome || timeout ≠ maxDuration then
        (s, .returned (.received
          (.error (timerError "receive" (some queue.topic.value) error))), [])
      else (s, .running (receiving q timeout started), [])
    | _ => (s, .running (receiving q timeout started), [])

/-- One poll of `receive`. -/
def lookAt (maxDuration : Nat) (s : AsyncLocalShared) (call : AsyncCall) (q : QueueRef)
    (timeout started : Nat) (x : AsyncTick) : Option AsyncNext :=
  let waits :=
    if timeout = 0 ∨ timeout ≠ maxDuration ∧ timeout ≤ x.clock - started then none
    else some x.again.now
  s.store.onQueue q (s, .running call, [])
    (fun queue => Local.receive queue (fun _ event => event.topic) x.moment x.again waits)
    fun queue received store =>
      afterLook maxDuration q timeout started x.timer queue received { s with store }

/-- `close_mailbox`. The queue is closed while the registry is locked, which nobody can tell from
one step. -/
def closeMailbox (s : AsyncLocalShared) (call : AsyncCall) (q : QueueRef) : Option AsyncNext :=
  s.store.onQueue q (s, .running call, []) (fun _ => Local.close false) fun queue _ store =>
    let (removed, state) := s.state.removeMailboxIfSame queue.id queue.topic q
    let payloadTypes := if removed && !state.hasTopic queue.topic
      then state.payloadTypes.erase queue.topic else state.payloadTypes
    ({ s with state := { state with payloadTypes }, store }, .returned .done, [])

/-- One step of a future. The cells below `foreign` belong to other providers. -/
def step (maxInstant maxDuration foreign : Nat) (s : AsyncLocalShared) (i : Nat) (call : AsyncCall)
    (x : AsyncTick) : Option AsyncNext :=
  -- a section of the registry waits for its lock
  let locking (next : Option AsyncNext) : Option AsyncNext :=
    if s.lock.isSome then some (s, .running call, []) else next
  match call with
  | publish message =>
    match outboundEvent maxInstant x.moment.now message with
    | .error error => some (s, .returned (.published (.error error)), [])
    | .ok (event, payloadType) => locking (some (route s message event payloadType))
  | admitting _ [] admissions => some (s, .returned (acknowledge admissions), [])
  | admitting event (q :: mailboxes) admissions =>
    s.store.onQueue q (s, .running call, []) (fun queue => publishTo queue event x.moment)
      fun queue rejection store =>
        ({ s with store },
          .running (admitting event mailboxes
            (admissions ++ [destinationAdmission queue rejection])),
          [admissionNote q event rejection])
  | subscribe request =>
    if !supported request then
      some (s, .returned (subscribeError request "unsupported_subscription_options"), [])
    else locking (some (subscribeIn s request))
  | receive q timeout => lookAt maxDuration s call q timeout x.clock x
  | receiving q timeout started =>
    if x.dropped then some (s, .returned .done, [])
    else lookAt maxDuration s call q timeout started x
  | settle q token disposition =>
    s.store.onQueue q (s, .running call, [])
      (fun queue => Local.settle queue token disposition x.moment)
      fun _ result store => ({ s with store }, .returned (.settled result), [])
  | close q => locking (closeMailbox s call q)
  | shutdown mode => locking <|
    let s := { s with state := { s.state with closed := true } }
    match mode with
    | .immediate => some (s, .running (finalize mode .complete), [.closing])
    | .graceful timeout => some (s, .running (draining timeout x.clock), [.closing])
  | draining timeout started =>
    if x.dropped then some (s, .returned .done, [])
    else locking <|
      let mailboxes := (x.mailboxes.keys s.state.mailboxes.keys).filterMap s.state.mailboxes.lookup
      some ({ s with lock := some i }, .running (checking timeout started [] mailboxes), [])
  | checking timeout _ _ [] =>
    some ({ s with lock := none }, .running (finalize (.graceful timeout) .complete), [])
  | checking timeout started seen (q :: mailboxes) =>
    match s.store.queues[q]? with
    | none => some (s, .running call, [])
    | some queue =>
      if queue.state.isBusy then some ({ s with lock := none }, .running (busy timeout started), [])
      else some (s, .running (checking timeout started (seen ++ [q]) mailboxes), [.idle q])
  | busy timeout started =>
    if timeout = maxDuration then some (s, .running (draining timeout started), [])
    else if timeout ≤ x.clock - started then
      some (s, .running (finalize (.graceful timeout) .timedOut), [])
    else match x.timer with
    | .pending => some (s, .running (draining timeout started), [])
    | .fired => some (s, .running (finalize (.graceful timeout) .timedOut), [])
    | .failed error =>
      some (s, .returned (.shutdown (.error (timerError "shutdown" none error))), [])
  | finalize mode result => locking <|
    match s.state.outcome with
    | some previous => some (s, .returned (.shutdown (.ok previous)), [])
    | none =>
      let (mailboxes, state) := { s.state with closed := true }.drainMailboxes x.mailboxes
      some ({ s with state, lock := some i }, .running (cleaning mode result mailboxes), [])
  | cleaning _ result [] =>
    some ({ s with
        state := { s.state with payloadTypes := ∅, outcome := some result }
        lock := none },
      .returned (.shutdown (.ok result)), [])
  | cleaning mode result (q :: mailboxes) =>
    s.store.onQueue q (s, .running call, []) (fun _ => Local.close false) fun _ events store =>
      ({ s with store }, .running (cleaning mode result mailboxes), [.discarded mode q events])
  | .foreign address disposition =>
    some (if address < foreign then { s with store := s.store.settleForeign address disposition }
      else s, .returned .done, [])

end AsyncCall

/-- The asynchronous provider. -/
def asyncProvider (maxInstant maxDuration foreign : Nat) :
    Machine AsyncLocalShared AsyncRequest AsyncCall Response AsyncTick ProviderNote where
  enter := AsyncCall.enter
  step := AsyncCall.step maxInstant maxDuration foreign

end EventBus.Local
