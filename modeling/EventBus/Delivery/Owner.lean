import EventBus.Delivery.Failure
import EventBus.Scheduler.Core
import EventBus.Publish.Retry

/-!
# The owner of a receiver

`event_bus/worker.rs`: each synchronous subscription has a thread that owns its receiver. The thread
receives messages, hands them to a pool of handler threads, and settles them with the provider. All
calls of the receiver are made by it; jobs on the pool report to it over a channel.

The loop of the thread is cut into steps, at the points where other threads may come in between
(`Point`). A loop over the hash map of owned deliveries is one step for each delivery, in an
order that the input gives (`Tick.pick`). What the provider, the callbacks and the retry sessions
answer are inputs too. Besides the owner's steps, a run has those of the jobs, of whoever cancels
the subscription or shuts the bus down, of the clock, and of the other users of the scheduler, whose
core (`Scheduler/Core.lean`) is part of the state.

`Note`s are what an observer of the run sees. The counters of the subscription and of the bus cannot
overflow, since every count is for another lease.
-/

namespace EventBus.Delivery

open Lib Scheduler Publish

/-! ## State -/

/-- `OwnedSyncDelivery`. A retry session's state is not modelled: its answers are inputs. -/
structure OwnedSyncDelivery where
  inbound : Option (InboundMessage × Except CodecError NativePayload)
  delivery : Option Event
  token : Option SettlementToken
  /-- There is a retry session. -/
  session : Bool
  directive : Option FailureDirective
  due : Option MonotonicInstant
  attempts : Nat
  result : Option (DeliveryOutcome × FailureDirective)
  running : Bool
  settlement : Option SettlementIntent
  handlerFinished : Bool
  retryPending : Bool
  settlementGranted : Bool
  abandoned : Bool
  lifecycleFailed : Bool
  retry : SettlementRetryState
  firstAttempt : Option MonotonicInstant
  nextAttempt : Nat
  lastError : Option SpiError

/-- A delivery as it is received; one that could not be decoded has no `inbound`. -/
def OwnedSyncDelivery.new (config : SettlementRetryConfig)
    (inbound : Option (InboundMessage × Except CodecError NativePayload)) : OwnedSyncDelivery where
  inbound
  delivery := none
  token := none
  session := false
  directive := none
  due := none
  attempts := 0
  result := none
  running := false
  settlement := none
  handlerFinished := inbound.isNone
  retryPending := false
  settlementGranted := inbound.isSome
  abandoned := false
  lifecycleFailed := false
  retry := .new config
  firstAttempt := none
  nextAttempt := 0
  lastError := none

/-- What `finish_attempt` leaves of a delivery. -/
def OwnedSyncDelivery.finished (d : OwnedSyncDelivery) : OwnedSyncDelivery :=
  { d with token := none, handlerFinished := false }

inductive SubscriptionStopReason where
  | gap (gap : DeliveryGap)
  | codec (eventId : EventId) (error : CodecError)
  | provider (error : SpiError)
  | settlement (eventId : EventId) (disposition : DeliveryDisposition) (attempts : Nat)
      (termination : SettlementTermination) (error : SpiError)

/-- A handler's job on the pool. -/
inductive Job where
  | submitted
  | running
  /-- The subscription had stopped when the job started. -/
  | refused
  | reported
deriving DecidableEq

/-- Where the owner's loop stands. `todo` are the deliveries a loop has still to visit, and
`completed` those it found done. -/
inductive Point where
  | attaching
  /-- `coordinator_messages::drain`, and then the samples of the iteration. -/
  | messages
  | sampling
  | fencing
  /-- `prepare_stopping_deliveries`. -/
  | cleaning (todo : Finset Nat)
  | checking
  /-- The first loop of `progress_owned_settlements`. -/
  | finishing (todo : Finset Nat)
  | granting
  /-- The second loop of `progress_owned_settlements`. -/
  | settling (todo : Finset Nat) (completed : List Nat)
  /-- In the provider's `settle` for `lease`. -/
  | calling (lease : Nat) (intent : SettlementIntent) (started : MonotonicInstant) (attempt : Nat)
      (todo : Finset Nat) (completed : List Nat)
  /-- `remove_completed_deliveries`. -/
  | removing (completed : List Nat)
  | dispatching
  | requesting
  | reserving
  /-- In the provider's `receive` with `lease`. -/
  | receiving (lease : Nat)
  | closing
  /-- `owned.drain()`. -/
  | recovering
  | exited

/-- The lease of the receive that is going on. -/
def Point.receives : Point → Option Nat
  | .receiving lease => some lease
  | _ => none

structure State where
  owned : Map Nat OwnedSyncDelivery
  channel : List CoordinatorMessage
  jobs : Map Nat Job
  /-- `SubscriptionControl`. -/
  cancelled : Bool
  terminalFailure : Option SubscriptionStopReason
  /-- `SyncDeliveryScheduler`: its core, and its flags as far as they concern this owner. -/
  core : DeliverySchedulerState
  draining : Bool
  immediate : Bool
  fenced : Bool
  /-- What the clock shows. -/
  clock : MonotonicInstant
  completed : Nat
  abandonedEphemeral : Nat
  /-- `EventBusInner::abandoned_deliveries`, of the whole bus. -/
  abandonedDeliveries : Nat
  receiveClosed : Bool
  stopPublished : Bool
  /-- The samples of this iteration. -/
  sampledDraining : Bool
  stopping : Bool
  point : Point

/-- A provider call that settles a delivery. -/
structure SettleCall where
  token : SettlementToken
  disposition : DeliveryDisposition
  /-- The reading of the clock before the call. -/
  startedAt : MonotonicInstant
  /-- The owner was stopping. -/
  stopping : Bool
deriving DecidableEq, Repr

inductive Note where
  | claimed (lease : Nat)
  | received (lease : Nat)
  | completed (lease : Nat)
  | abandoned (lease : Nat)
  /-- The lease was given back to the scheduler. -/
  | released (lease : Nat)
  | calls (lease : Nat) (call : SettleCall)
  /-- A call failed at this time after the first one, and what follows. -/
  | failed (lease : Nat) (error : SpiError) (elapsed : Nat) (decision : SettlementRetryDecision)
  /-- `attempt_settlement` returned this delay at this time after the first call. -/
  | waits (lease : Nat) (elapsed delay : Nat)
  | terminates
deriving DecidableEq

namespace State

def new (core : DeliverySchedulerState) (clock : MonotonicInstant) : State where
  owned := ∅
  channel := []
  jobs := ∅
  cancelled := false
  terminalFailure := none
  core
  draining := false
  immediate := false
  fenced := false
  clock
  completed := 0
  abandonedEphemeral := 0
  abandonedDeliveries := 0
  receiveClosed := false
  stopPublished := false
  sampledDraining := false
  stopping := false
  point := .attaching

section
variable (ctx : OwnerContext) (s : State)

/-! ## What the steps are made of -/

def goto (point : Point) : State := { s with point }

def put (lease : Nat) (delivery : OwnedSyncDelivery) : State :=
  { s with owned := s.owned.insert lease delivery }

def send (messages : List CoordinatorMessage) : State :=
  { s with channel := s.channel ++ messages }

def onCore (f : DeliverySchedulerState → DeliverySchedulerState) : State :=
  { s with core := f s.core }

/-- `SyncDeliveryScheduler::should_drain`. -/
def shouldDrain : Bool := s.draining && !s.immediate && !s.fenced

/-- `SyncDeliveryScheduler::cancel_subscription`; the owner is registered while it runs. -/
def cancelSubscription : State :=
  { s with fenced := true, core := s.core.stopSubscription ctx.subscriptionId }

/-- `SubscriptionControl::fail_receive`, which keeps the first reason, and then
`cancel_subscription`. -/
def failReceive (reason : SubscriptionStopReason) : List Note × State :=
  ([.terminates], { s with
    terminalFailure := some (s.terminalFailure.getD reason)
    cancelled := true }.cancelSubscription ctx)

def failInternal (kind : String) : List Note × State :=
  s.failReceive ctx (.provider (.operation ctx.providerId "delivery_owner"
    (some ctx.subscriberId.value) kind (some false) kind))

/-- `count_abandoned`, `times` times; the control is registered while the owner runs. -/
def countAbandoned (lease times : Nat) : List Note × State :=
  if ctx.durability = .ephemeral then
    (List.replicate times (.abandoned lease), { s with
      abandonedDeliveries := s.abandonedDeliveries + times
      abandonedEphemeral := s.abandonedEphemeral + times })
  else ([], s)

/-- The effects of a decision about `lease`. -/
def perform (lease : Nat) (effects : Effects) : List Note × State :=
  let (notes, s) := s.countAbandoned ctx lease effects.abandoned
  let s := s.send effects.sent
  (notes, if effects.cancels then { s with cancelled := true }.cancelSubscription ctx else s)

/-- Drops the guard of `lease`. -/
def release (lease : Nat) : List Note × State :=
  ([.released lease], s.onCore fun core => core.complete lease)

end

end State

/-! ## Inputs -/

/-- What a provider call does. -/
inductive SpiAnswer (A : Type) where
  | returned (result : Except SpiError A)
  | panicked (payload : PanicPayload)

/-- `catch_spi_call(..).and_then(identity)` -/
def SpiAnswer.caught {A : Type} (ctx : OwnerContext) (operation : String) :
    SpiAnswer A → Except SpiError A
  | .returned result => result
  | .panicked payload =>
    .error (providerPanic ctx.providerId operation (some ctx.subscriberId.value) payload)

/-- `RetrySession::begin_attempt`. -/
inductive BeginAnswer where
  | admitted (attempt : Nat)
  | waiting (due : MonotonicInstant)
  | failed (reason : RetryErrorReason)

/-- `RetrySession::record_result`. -/
inductive RecordAnswer where
  | complete
  | failed (reason : RetryErrorReason)
  | retryAt (due : MonotonicInstant)

/-- The inputs of one step of the owner. A step uses those it asks for. -/
structure Tick where
  /-- The delivery that a loop visits next. -/
  pick : Nat := 0
  received : SpiAnswer ReceiveOutcome := .returned (.ok .timedOut)
  decoded : Except CodecError NativePayload := .ok ⟨⟨0⟩, 0⟩
  filter : FilterAnswer := .passes
  /-- The answers of the error handlers. -/
  answers : List (Option FailureDirective) := []
  /-- A dead letter could be built and was accepted. -/
  forwarded : Bool := true
  /-- `new_retry_session` fails: the retry configuration is invalid. -/
  sessionFails : Bool := false
  begin : BeginAnswer := .admitted 1
  record : RecordAnswer := .complete
  /-- The retry cancellation token is cancelled. -/
  retryCancelled : Bool := false
  settled : SpiAnswer Unit := .returned (.ok ())

/-! ## The owner's steps -/

namespace State

section
variable (ctx : OwnerContext) (s : State)

/-- One message of `coordinator_messages::drain`. -/
def deliver : CoordinatorMessage → List Note × State
  | .attemptFinished lease outcome directive =>
    match s.owned.lookup lease with
    | none => ([], s)
    | some d => ([], s.put lease { d with result := some (outcome, directive) })
  | .abandoned lease =>
    match s.owned.lookup lease with
    | none => ([], s)
    | some d => ([], s.put lease { d with abandoned := true })
  | .handlerFinished lease =>
    match s.owned.lookup lease with
    | none => ([], s)
    | some d => ([], s.put lease { d with handlerFinished := true, running := false })
  | .settlement lease intent =>
    match s.owned.lookup lease with
    | none => ([], s)
    | some d =>
      match d.settlement with
      | some previous =>
        if previous.disposition ≠ intent.disposition then
          s.failInternal ctx "conflicting_settlement_intent"
        else ([], s)
      | none => ([], s.put lease { d with settlement := some intent })

/-- One delivery of `prepare_stopping_deliveries`. -/
def prepareStopping (lease : Nat) (d : OwnedSyncDelivery) : List Note × State :=
  match d.inbound with
  | some (message, _) =>
    let d := { d with inbound := none, handlerFinished := true }
    if s.terminalFailure.isNone then
      -- `canceled_intent`
      if message.settlement.isSome ∧ ctx.settlement = .acceptRetryReject then
        ([], s.put lease { d with
          settlement := some ⟨message.settlement, .retry, message.id, message.topic.value,
            ctx.subscriptionId, ctx.subscriberId⟩
          abandoned := false })
      else (s.put lease { d with settlement := none, abandoned := true }).countAbandoned ctx lease 1
    else (s.put lease d).countAbandoned ctx lease 1
  | none =>
    match d.delivery with
    | none => ([], s)
    | some event =>
      if d.running ∨ d.abandoned ∨ d.result.isSome ∨ d.settlement.isSome then ([], s)
      else
        let d := { d with
          due := none, handlerFinished := true, retryPending := false, result := none }
        if d.token.isSome ∧ ctx.settlement = .acceptRetryReject then
          ([], s.put lease { d with
            settlement := some ⟨d.token, .retry, event.id, ctx.topic, ctx.subscriptionId,
              ctx.subscriberId⟩
            token := none })
        else
          (s.put lease { d with settlement := none, abandoned := true }).countAbandoned ctx lease 1

/-- `finish_attempt`; the result is the directive of a failure. `none` is the panic without a
prepared delivery. -/
def finishAttempt (lease : Nat) (d : OwnedSyncDelivery) (result : Option FailureDirective)
    (forwarded : Bool) : Option (List Note × State) :=
  d.delivery.map fun event =>
    let effects := match result with
      | none => settleToken ctx lease d.token .accept event
      | some directive => finishFailedDelivery ctx lease d.token event directive forwarded
    let (notes, s) := (s.put lease d.finished).perform ctx lease effects
    (notes, s.send [.handlerFinished lease])

/-- The result of an attempt in the first loop of `progress_owned_settlements`: the delivery, and
the terminal result if the attempt does not wait for a retry. -/
def attemptResult (d : OwnedSyncDelivery) (outcome : DeliveryOutcome) (directive : FailureDirective)
    (record : RecordAnswer) : OwnedSyncDelivery × Option (Option FailureDirective) :=
  if s.stopping then
    (d, some (match outcome with
      | .success => none
      | .failure _ => some (if directive = .retry then .requeue else directive)))
  else if d.session then
    match record with
    | .complete => ({ d with retryPending := false }, some none)
    | .failed reason =>
      ({ d with retryPending := false }, some (some (terminalDirective reason directive)))
    | .retryAt due => ({ d with retryPending := true, due := some due }, none)
  else
    (d, some (match outcome with
      | .success => none
      | .failure _ => some (if directive = .retry then .discard else directive)))

/-- `due.duration_since(now).unwrap_or(Duration::ZERO)` -/
def remaining (due now : MonotonicInstant) : Nat :=
  match ctx.clock.durationSince due now with
  | .ok remaining => remaining
  | .error _ => 0

/-- A retry that is due is woken. -/
def wakeDue (lease : Nat) (d : OwnedSyncDelivery) (retryCancelled : Bool) : State :=
  match d.due with
  | none => s
  | some due =>
    if s.stopping then s
    else if retryCancelled ∨ remaining ctx due s.clock = 0 then
      (s.put lease { d with due := none }).onCore fun core => core.wakeRetry lease
    else s

/-- One delivery of the first loop. -/
def finishOne (tick : Tick) (lease : Nat) (d : OwnedSyncDelivery) : Option (List Note × State) :=
  match d.handlerFinished, d.result with
  | true, some (outcome, directive) =>
    let d := { d with result := none, directive := some directive }
    match s.attemptResult d outcome directive tick.record with
    | (d, none) =>
      let s := (s.put lease d).onCore fun core => core.finishAttemptWaiting lease
      some ([], s.wakeDue ctx lease d tick.retryCancelled)
    | (d, some result) =>
      let d := { d with retryPending := false }
      (s.finishAttempt ctx lease d result tick.forwarded).map fun (notes, s) =>
        (notes, s.wakeDue ctx lease d.finished tick.retryCancelled)
  | _, _ => some ([], s.wakeDue ctx lease d tick.retryCancelled)

/-- The end of an attempt to settle: the delivery is done if it has no intent any more, and after a
terminal failure the loop ends. -/
def afterAttempt (lease : Nat) (todo : Finset Nat) (completed : List Nat) : State :=
  let completed := match s.owned.lookup lease with
    | some d => if d.settlement.isNone then completed ++ [lease] else completed
    | none => completed
  s.goto (if s.terminalFailure.isSome then .removing completed else .settling todo completed)

def stopSettlement (intent : SettlementIntent) (attempts : Nat)
    (termination : SettlementTermination) (error : SpiError) : List Note × State :=
  s.failReceive ctx (.settlement intent.eventId intent.disposition attempts termination error)

def clockError (error : TimeError) : SpiError :=
  .operation ctx.providerId "settlement_clock" (some ctx.subscriberId.value)
    "invalid_monotonic_clock" (some false)
    (if error = .clockDomainMismatch then "clock domain mismatch" else "invalid instant order")

/-- `attempt_settlement` up to the provider call. -/
def attemptSettlement (lease : Nat) (d : OwnedSyncDelivery) (intent : SettlementIntent)
    (todo : Finset Nat) (completed : List Nat) : Option (List Note × State) :=
  match intent.token with
  | none => some ([], (s.put lease { d with settlement := none }).afterAttempt lease todo completed)
  | some token =>
    if token.belongsTo intent.subscriptionId = false then
      let (notes, s) := s.stopSettlement ctx intent d.retry.attempts .invalidToken
        (.invalidSettlementToken ctx.providerId "settle" (some intent.subscriberId.value)
          "foreign_owner" (some false) "provider token belongs to another subscription")
      some (notes, s.afterAttempt lease todo completed)
    else
      let now := s.clock
      let started := d.firstAttempt.getD now
      let d := { d with firstAttempt := some started }
      match ctx.clock.durationSince now started with
      | .error error =>
        let (notes, s) := (s.put lease d).stopSettlement ctx intent d.retry.attempts
          .infrastructureFailure (clockError ctx error)
        some (notes, s.afterAttempt lease todo completed)
      | .ok elapsed =>
        if elapsed < d.nextAttempt then
          some ([.waits lease elapsed (d.nextAttempt - elapsed)],
            (s.put lease d).afterAttempt lease todo completed)
        else
          match d.retry.admitAttempt elapsed with
          | none => none
          | some (.error termination, retry) =>
            let s := s.put lease { d with retry }
            let (notes, s) := match d.lastError with
              | some error => s.stopSettlement ctx intent retry.attempts termination error
              | none => s.failInternal ctx "settlement_budget_before_first_attempt"
            some (notes, s.afterAttempt lease todo completed)
          | some (.ok attempt, retry) =>
            let s := (s.put lease { d with retry }).onCore
              fun core => core.setDispatchActive ctx.subscriptionId false
            some ([.calls lease ⟨token, intent.disposition, now, s.stopping⟩],
              s.goto (.calling lease intent started attempt todo completed))

/-- One delivery of the second loop of `progress_owned_settlements`. -/
def settleOne (lease : Nat) (d : OwnedSyncDelivery) (todo : Finset Nat) (completed : List Nat) :
    Option (List Note × State) :=
  if d.handlerFinished = false ∨ d.retryPending ∨ d.due.isSome ∨
      (d.settlementGranted = false ∧ s.stopping = false) then
    some ([], s.goto (.settling todo completed))
  else
    match d.settlement with
    | none => some ([], s.goto (.settling todo (completed ++ [lease])))
    | some intent =>
      -- cancellation makes one call for a fresh intent
      if s.stopping ∧ 0 < d.retry.attempts then some ([], s.goto (.settling todo completed))
      else s.attemptSettlement ctx lease d intent todo completed

/-- `attempt_settlement` from the return of the provider on. -/
def settleReturned (lease : Nat) (d : OwnedSyncDelivery) (intent : SettlementIntent)
    (started : MonotonicInstant) (attempt : Nat) (todo : Finset Nat) (completed : List Nat)
    (result : Except SpiError Unit) : List Note × State :=
  let s := s.onCore fun core => core.setDispatchActive ctx.subscriptionId true
  match result with
  | .ok () =>
    match ctx.clock.durationSince s.clock started with
    | .error error =>
      let d := { d with lifecycleFailed := true, settlement := none }
      let (notes, s) := (s.put lease d).stopSettlement ctx intent attempt .infrastructureFailure
        (clockError ctx error)
      (notes, s.afterAttempt lease todo completed)
    | .ok _ => ([], (s.put lease { d with settlement := none }).afterAttempt lease todo completed)
  | .error error =>
    match ctx.clock.durationSince s.clock started with
    | .error source =>
      let (notes, s) := s.stopSettlement ctx intent attempt .infrastructureFailure
        (clockError ctx source)
      (notes, s.afterAttempt lease todo completed)
    | .ok elapsed =>
      let d := { d with lastError := some error }
      let decision := d.retry.afterError error elapsed
      match decision with
      | .retryAfter delay =>
        let s := s.put lease { d with nextAttempt := saturatingAdd elapsed delay }
        (.failed lease error elapsed decision ::
          (if s.stopping then [] else [.waits lease elapsed delay]),
          s.afterAttempt lease todo completed)
      | .stop termination =>
        let (notes, s) := (s.put lease d).stopSettlement ctx intent attempt termination error
        (.failed lease error elapsed decision :: notes, s.afterAttempt lease todo completed)

/-- One lease of `remove_completed_deliveries`. -/
def removeOne (lease : Nat) : List Note × State :=
  match s.owned.lookup lease with
  | none => ([], s)
  | some d =>
    let (notes, s) := { s with owned := s.owned.erase lease }.release lease
    if d.abandoned = false ∧ d.lifecycleFailed = false then
      (.completed lease :: notes, { s with completed := s.completed + 1 })
    else (notes, s)

/-- The handler of `lease` gets its next attempt. -/
def submit (lease : Nat) (d : OwnedSyncDelivery) (attempt : Nat) : Option (List Note × State) :=
  d.delivery.map fun _ =>
    ([], { s.put lease { d with attempts := attempt, running := true } with
      jobs := s.jobs.insert lease .submitted })

/-- A granted delivery, once it is prepared. -/
def startAttempt (tick : Tick) (lease : Nat) (d : OwnedSyncDelivery) : Option (List Note × State) :=
  if d.session then
    match tick.begin with
    | .admitted attempt =>
      s.submit lease { d with retryPending := false, handlerFinished := false } attempt
    | .waiting due =>
      some ([], (s.put lease { d with retryPending := true, due := some due }).onCore
        fun core => core.deferUnstartedRetry lease)
    | .failed reason =>
      let directive := terminalDirective reason (d.directive.getD .discard)
      (s.onCore fun core => core.handlerFinished lease).finishAttempt ctx lease
        { d with retryPending := false } (some directive) tick.forwarded
  else s.submit lease { d with handlerFinished := false } 1

/-- A granted delivery. -/
def dispatch (tick : Tick) (lease : Nat) (d : OwnedSyncDelivery) : Option (List Note × State) :=
  match d.inbound with
  | none => s.startAttempt ctx tick lease d
  | some (message, decoded) =>
    let (delivery, token, effects) :=
      prepareDelivery ctx lease message decoded tick.filter tick.answers tick.forwarded
    let d := { d with inbound := none, delivery, token }
    let (notes, s) := s.perform ctx lease effects
    if delivery.isNone then
      some (notes, ((s.put lease d).onCore fun core => core.handlerFinished lease).send
        [.handlerFinished lease])
    else if ctx.retryEnabled ∧ tick.sessionFails then
      ((s.onCore fun core => core.handlerFinished lease).finishAttempt ctx lease d (some .discard)
        tick.forwarded).map fun (notes', s) => (notes ++ notes', s)
    else
      (s.startAttempt ctx tick lease { d with session := ctx.retryEnabled }).map
        fun (notes', s) => (notes ++ notes', s)

/-- After the last grant. -/
def dispatched : State :=
  s.goto (if s.receiveClosed ∧ s.owned.keys = ∅ then .closing else .requesting)

/-- The return of the provider's `receive`. -/
def receiveReturned (tick : Tick) (lease : Nat) : List Note × State :=
  let s := (s.onCore fun core => core.setDispatchActive ctx.subscriptionId true).goto .messages
  match tick.received.caught ctx "receive" with
  | .ok (.message message) =>
    let lane : Option OrderingLaneKey := if ctx.perKey then
        some ⟨ctx.topic, message.orderingKey.map OrderingKey.value, ctx.subscriptionId⟩ else none
    match tick.decoded with
    | .error error =>
      if receiveFailureAction error = .stopUnsettled then
        let (stops, s) := s.failReceive ctx (.codec message.id error)
        let (counts, s) := s.countAbandoned ctx lease 1
        let (releases, s) := s.release lease
        (.received lease :: (stops ++ counts ++ releases), s)
      else
        let (notes, s) := (s.put lease (.new ctx.settlementRetry none)).perform ctx lease
          (settleRejected ctx lease message.settlement message.id message.topic.value)
        (.received lease :: notes, s.onCore fun core => core.enqueueSettlement lease lane)
    | .ok payload =>
      let d := .new ctx.settlementRetry (some (message, .ok payload))
      ([.received lease], (s.put lease d).onCore fun core => core.enqueue lease lane)
  | .ok .timedOut => s.release lease
  | .ok .closed =>
    let (notes, s) := s.release lease
    (notes, { s with receiveClosed := true })
  | .ok (.gap gap) =>
    let (notes, s) := s.release lease
    if ctx.gapPolicy = .stop then
      let (stops, s) := s.failReceive ctx (.gap gap)
      (notes ++ stops, s)
    else (notes, s)
  | .error error =>
    let (notes, s) := s.release lease
    let (stops, s) := s.failReceive ctx (.provider error)
    (notes ++ stops, s)

/-- One delivery of the last loop: provider close recovers what is not resolved. -/
def drainOne (lease : Nat) (d : OwnedSyncDelivery) : List Note × State :=
  let s := { s with owned := s.owned.erase lease }
  let (counts, s) :=
    if d.abandoned = false ∧
        (d.settlement.isSome ∨ d.inbound.isSome ∨ d.token.isSome ∨ d.due.isSome) then
      s.countAbandoned ctx lease 1
    else ([], s)
  let (releases, s) := s.release lease
  (counts ++ releases, s)

/-- One step of the owner. -/
def ownerStep (tick : Tick) : Option (List Note × State) :=
  match s.point with
  | .attaching =>
    some ([], (s.onCore fun core => core.setDispatchActive ctx.subscriptionId true).goto .messages)
  | .messages =>
    match s.channel with
    | message :: channel => some ({ s with channel }.deliver ctx message)
    | [] => some ([], { s with sampledDraining := s.shouldDrain, point := .sampling })
  | .sampling =>
    some ([], { s with stopping := s.cancelled && !s.sampledDraining, point := .fencing })
  | .fencing =>
    let s := if s.cancelled then { s with receiveClosed := true } else s
    if s.stopping && !s.stopPublished then
      some ([], { s with
        receiveClosed := true, stopPublished := true
        point := .cleaning s.owned.keys }.cancelSubscription ctx)
    else some ([], s.goto .checking)
  | .cleaning todo =>
    if todo = ∅ then some ([], s.goto .checking)
    else if tick.pick ∉ todo then some ([], s)
    else
      let s := s.goto (.cleaning (todo.erase tick.pick))
      match s.owned.lookup tick.pick with
      | none => some ([], s)
      | some d => some (s.prepareStopping ctx tick.pick d)
  | .checking =>
    some ([], s.goto (if s.terminalFailure.isSome then .removing [] else .finishing s.owned.keys))
  | .finishing todo =>
    if todo = ∅ then some ([], s.goto (if s.stopping then .settling s.owned.keys [] else .granting))
    else if tick.pick ∉ todo then some ([], s)
    else
      let s := s.goto (.finishing (todo.erase tick.pick))
      match s.owned.lookup tick.pick with
      | none => some ([], s)
      | some d => s.finishOne ctx tick tick.pick d
  | .granting =>
    match s.core.takeSettlementReady ctx.subscriptionId with
    | (none, core) => some ([], { s with core, point := .settling s.owned.keys [] })
    | (some lease, core) =>
      let s := { s with core }
      match s.owned.lookup lease with
      | none => some ([], s)
      | some d => some ([], s.put lease { d with settlementGranted := true })
  | .settling todo completed =>
    if todo = ∅ then some ([], s.goto (.removing completed))
    else if tick.pick ∉ todo then some ([], s)
    else
      let todo := todo.erase tick.pick
      match s.owned.lookup tick.pick with
      | none => some ([], s.goto (.settling todo completed))
      | some d => s.settleOne ctx tick.pick d todo completed
  | .calling lease intent started attempt todo completed =>
    match s.owned.lookup lease with
    | none => none
    | some d => some (s.settleReturned ctx lease d intent started attempt todo completed
        (tick.settled.caught ctx "settle"))
  | .removing (lease :: completed) => some ((s.goto (.removing completed)).removeOne lease)
  | .removing [] =>
    if s.cancelled && !s.sampledDraining then
      if s.stopPublished = false then some ([], s.goto .messages)
      else if ∀ lease ∈ s.owned.keys, (s.owned.lookup lease).any (·.handlerFinished) then
        some ([], s.goto .closing)
      else some ([], s.goto .requesting)
    else some ([], s.goto .dispatching)
  | .dispatching =>
    match s.core.takeReady ctx.subscriptionId with
    | (none, core) => some ([], { s with core }.dispatched)
    | (some lease, core) =>
      let s := { s with core }
      match s.owned.lookup lease with
      | none =>
        let (notes, s) := s.failInternal ctx "missing_owned_delivery"
        some (notes, s.dispatched)
      | some d => s.dispatch ctx tick lease d
  | .requesting =>
    if s.receiveClosed = false ∧ s.cancelled = false then
      some ([], (s.onCore fun core => core.requestReceive ctx.subscriptionId).goto .reserving)
    -- `park_timeout`
    else some ([], s.goto .messages)
  | .reserving =>
    match s.core.takeReceiveReservation ctx.subscriptionId with
    | (some lease, core) =>
      let core := (core.recordOwnedStart lease s.clock).setDispatchActive ctx.subscriptionId false
      some ([.claimed lease], { s with core, point := .receiving lease })
    | (none, core) =>
      let s := { s with core, point := .messages }
      -- `lease_ids_exhausted`
      if core.nextLease.isNone then some (s.failInternal ctx "lease_id_exhausted") else some ([], s)
  | .receiving lease => some (s.receiveReturned ctx tick lease)
  | .closing => some ([], s.goto .recovering)
  | .recovering =>
    if s.owned.keys = ∅ then some ([], s.goto .exited)
    else
      match s.owned.lookup tick.pick with
      | none => some ([], s)
      | some d => some (s.drainOne ctx tick.pick d)
  | .exited => some ([], s)

end

end State

/-! ## Everybody else -/

/-- What a handler does: `refuses` is the wrapper that finds the subscription stopped. -/
inductive HandlerAnswer where
  | succeeds
  | fails (error : String)
  | refuses

inductive Action where
  | owner (tick : Tick)
  | jobStarts (lease : Nat)
  /-- The handler's answer, and those of the error handlers to a failure. -/
  | jobReports (lease : Nat) (answer : HandlerAnswer) (answers : List (Option FailureDirective))
  /-- The job ends, having reported or not. -/
  | jobExits (lease : Nat)
  /-- `SubscriptionControl::request_cancel`. -/
  | requestCancel
  | cancelSubscription
  /-- The flags of `stop_admission`. -/
  | stopAdmission (immediate : Bool)
  | clock (now : MonotonicInstant)
  /-- A handler or a snapshot measures the time since a reading. -/
  | measures (started : MonotonicInstant)
  /-- Another user of the scheduler calls its core. -/
  | scheduler (op : Scheduler.Op)

namespace State

section
variable (ctx : OwnerContext) (s : State)

/-- The job of the pool when it starts. -/
def jobStarts : Job :=
  if s.terminalFailure.isSome || (s.cancelled && !s.shouldDrain) then .refused else .running

/-- Other users of the scheduler know neither this subscription nor the leases it works with. -/
def foreign : Scheduler.Op → Bool
  | .register id | .setDispatchActive id _ | .requestReceive id | .cancelReceive id
  | .takeReceiveReservation id | .takeSettlementReady id | .takeReady id | .stopSubscription id
  | .unregister id => id ≠ ctx.subscriptionId
  | .enqueue lease _ | .enqueueSettlement lease _ | .handlerFinished lease
  | .deferUnstartedRetry lease | .finishAttemptWaiting lease | .wakeRetry lease | .complete lease
  | .recordOwnedStart lease _ => (s.owned.lookup lease).isNone ∧ s.point.receives ≠ some lease
  | .takeNotifications => true

/-- One step of a run. -/
def step : Action → Option (List Note × State)
  | .owner tick => s.ownerStep ctx tick
  | .jobStarts lease =>
    match s.jobs.lookup lease with
    | some .submitted => some ([], { s with jobs := s.jobs.insert lease s.jobStarts })
    | _ => some ([], s)
  | .jobReports lease answer answers =>
    let report (outcome : DeliveryOutcome) (directive : FailureDirective) : List Note × State :=
      ([], { s with jobs := s.jobs.insert lease .reported }.send
        [.attemptFinished lease outcome directive])
    let fails (error : DeliveryError) : List Note × State :=
      report (.failure error) (notifyErrorHandlers ctx.retryEnabled answers error)
    match s.jobs.lookup lease, answer with
    | some .refused, _ => some (fails .startRejected)
    | some .running, .refuses => some (fails .startRejected)
    | some .running, .fails error => some (fails (.handler error))
    | some .running, .succeeds => some (report .success .discard)
    | _, _ => some ([], s)
  | .jobExits lease =>
    match s.jobs.lookup lease with
    | some _ =>
      let s := { s with jobs := s.jobs.erase lease, core := s.core.handlerFinished lease }
      some ([], s.send [.handlerFinished lease])
    | none => some ([], s)
  | .requestCancel => some ([], { s with cancelled := true })
  | .cancelSubscription => some ([], s.cancelSubscription ctx)
  | .stopAdmission immediate =>
    some ([], { s with draining := true, immediate := s.immediate || immediate })
  | .clock now => some ([], { s with clock := now })
  | .measures started =>
    match ctx.clock.durationSince s.clock started with
    | .ok _ => some ([], s)
    | .error error => some (s.failReceive ctx (.provider (clockError ctx error)))
  | .scheduler op =>
    if s.foreign ctx op then some ([], { s with core := Scheduler.step s.core op })
    else some ([], s)

end

end State

end EventBus.Delivery
