import EventBus.Delivery.SettlementRetry

/-!
# What happens to a failed delivery

`event_bus/failure.rs`, the filter of `event_bus/delivery.rs` and the directives of `pipeline/`.
When the handler of a delivery is done with it, the owner of the receiver decides what the provider
is told: it sends itself a settlement to make, or the note that the delivery stays unsettled. These
functions decide; what they do besides (messages, counted losses, a cancelled subscription) is
their `Effects`. Diagnostics are left out.
-/

namespace EventBus.Delivery

/-! ## Capabilities and directives -/

inductive SettlementCapabilities where
  | none
  | acceptOnly
  | acceptRetryReject
deriving DecidableEq, Repr

inductive DurabilityCapability where
  | ephemeral
  | durable
deriving DecidableEq, Repr

/-- What an error handler asks for. -/
inductive FailureDirective where
  | retry
  | requeue
  | deadLetter
  | discard
deriving DecidableEq, Repr

inductive DeliveryFailureAction where
  | retryLocally
  | requeue
  | deadLetter
  | discard
deriving DecidableEq, Repr

def failureAction : FailureDirective → DeliveryFailureAction
  | .retry => .retryLocally
  | .requeue => .requeue
  | .deadLetter => .deadLetter
  | .discard => .discard

def failureDisposition :
    DeliveryFailureAction → SettlementCapabilities → Option DeliveryDisposition
  | _, .none => none
  | _, .acceptOnly => none
  | .requeue, .acceptRetryReject => some .retry
  | .retryLocally, .acceptRetryReject => none
  | .deadLetter, .acceptRetryReject => some .reject
  | .discard, .acceptRetryReject => some .reject

inductive DeliveryError where
  /-- `HandlerStartRejected`: the subscription stopped before the handler was called. -/
  | startRejected
  | handler (source : String)
deriving DecidableEq, Repr

inductive DeliveryOutcome where
  | success
  | failure (error : DeliveryError)
deriving DecidableEq, Repr

/-- The error handlers' answers, in order; `none` is a panic. -/
def chooseFailureDirective (retryEnabled : Bool) (directives : List (Option FailureDirective)) :
    FailureDirective :=
  let terminal := directives.findSome? fun directive =>
    match directive with
    | some .retry => none
    | some directive => some directive
    | none => some .discard
  terminal.getD (if some .retry ∈ directives ∧ retryEnabled then .retry else .discard)

def notifyErrorHandlers (retryEnabled : Bool) (answers : List (Option FailureDirective))
    (error : DeliveryError) : FailureDirective :=
  if error = .startRejected then .requeue
  else if answers = [] then if retryEnabled then .retry else .discard
  else chooseFailureDirective retryEnabled answers

/-- Why a retry session gave up (`RetryErrorReason`): its rule panicked, or anything else. -/
inductive RetryErrorReason where
  | ruleFailed
  | other
deriving DecidableEq, Repr

def terminalDirective (reason : RetryErrorReason) (requested : FailureDirective) :
    FailureDirective :=
  if reason = .ruleFailed then .requeue
  else if requested = .retry then .discard
  else requested

/-! ## Events and messages to the owner -/

/-- The part of an `EventEnvelope` that decides about its delivery. -/
structure Event where
  id : EventId
  topic : String
  headers : Headers
deriving DecidableEq

/-- `header(DEAD_LETTER_HEADER) == Some(DEAD_LETTER_HEADER_VALUE)` -/
def Event.isDeadLetter (event : Event) : Bool :=
  event.headers.lookup "x-qubit-event-bus-dead-letter" == some "v1"

/-- The fields of `CoordinatorMessage::Settlement`. -/
structure SettlementIntent where
  token : Option SettlementToken
  disposition : DeliveryDisposition
  eventId : EventId
  topic : String
  subscriptionId : Id
  subscriberId : SubscriberId
deriving DecidableEq, Repr

inductive CoordinatorMessage where
  | attemptFinished (leaseId : Nat) (outcome : DeliveryOutcome) (directive : FailureDirective)
  | settlement (leaseId : Nat) (intent : SettlementIntent)
  | abandoned (leaseId : Nat)
  | handlerFinished (leaseId : Nat)
deriving DecidableEq, Repr

def CoordinatorMessage.leaseId : CoordinatorMessage → Nat
  | .attemptFinished leaseId _ _ => leaseId
  | .settlement leaseId _ => leaseId
  | .abandoned leaseId => leaseId
  | .handlerFinished leaseId => leaseId

inductive GapPolicy where
  | continue
  | stop
deriving DecidableEq, Repr

/-- The bus and the subscription that an owner works for. -/
structure OwnerContext where
  providerId : String
  settlement : SettlementCapabilities
  durability : DurabilityCapability
  settlementRetry : SettlementRetryConfig
  subscriptionId : Id
  subscriberId : SubscriberId
  topic : String
  perKey : Bool
  gapPolicy : GapPolicy
  /-- The options have a retry policy. -/
  retryEnabled : Bool
  clock : MonotonicClock

/-- What a decision does besides: `abandoned` is the number of calls of `count_abandoned`, and
`cancels` says that the subscription is cancelled. -/
structure Effects where
  abandoned : Nat := 0
  sent : List CoordinatorMessage := []
  cancels : Bool := false

instance : Append Effects where
  append a b := ⟨a.abandoned + b.abandoned, a.sent ++ b.sent, a.cancels || b.cancels⟩

section
variable (ctx : OwnerContext) (leaseId : Nat)

/-- `OwnerSettlementRouter::settle`. -/
def settle (token : SettlementToken) (disposition : DeliveryDisposition) (eventId : EventId)
    (topic : String) : Effects :=
  { sent := [.settlement leaseId
      ⟨some token, disposition, eventId, topic, ctx.subscriptionId, ctx.subscriberId⟩] }

/-- `OwnerSettlementRouter::abandon`. -/
def abandon : Effects := { sent := [.abandoned leaseId] }

def countAbandoned : Effects := { abandoned := 1 }

def settleToken (token : Option SettlementToken) (disposition : DeliveryDisposition)
    (event : Event) : Effects :=
  match token with
  | none => {}
  | some token => settle ctx leaseId token disposition event.id event.topic

/-- The disposition and whether forwarding failed. `forwarded` says whether a dead letter could be
built and was accepted; if not, the loss is counted and the subscription cancelled
(`stop_after_dead_letter_failure`). -/
def forwardDeadLetter (forwarded : Bool) : Option DeliveryDisposition × Bool × Effects :=
  if forwarded then (failureDisposition .deadLetter ctx.settlement, false, {})
  else (none, true, { abandoned := 1, cancels := true })

/-- The first part of `finish_failed_delivery`: the disposition, whether the dead letter could not
be forwarded, and what that did. -/
def failureOutcome (event : Event) (directive : FailureDirective) (forwarded : Bool) :
    Option DeliveryDisposition × Bool × Effects :=
  match failureAction directive with
  | .deadLetter =>
    if event.isDeadLetter then (failureDisposition .deadLetter ctx.settlement, false, {})
    else forwardDeadLetter ctx forwarded
  -- a local retry that nobody will make is a discard
  | .retryLocally => (failureDisposition .discard ctx.settlement, false, {})
  | action => (failureDisposition action ctx.settlement, false, {})

def finishFailedDelivery (token : Option SettlementToken) (event : Event)
    (directive : FailureDirective) (forwarded : Bool) : Effects :=
  let requestedDisposition : DeliveryDisposition :=
    if failureAction directive = .requeue then .retry else .reject
  let (disposition, forwardFailed, forwarding) := failureOutcome ctx event directive forwarded
  if token = none ∧ forwardFailed = false then countAbandoned ++ abandon leaseId
  else
    match disposition with
    | some disposition => forwarding ++ settleToken ctx leaseId token disposition event
    | none =>
      -- a durable source keeps its unsettled token for recovery
      if forwardFailed then forwarding ++ abandon leaseId
      else
        match token with
        | some token =>
          if token.belongsTo ctx.subscriptionId = false then
            settle ctx leaseId token requestedDisposition event.id event.topic
          else countAbandoned ++ abandon leaseId
        | none => countAbandoned ++ abandon leaseId

/-- A message whose payload could not be decoded. -/
def settleRejected (token : Option SettlementToken) (eventId : EventId) (topic : String) :
    Effects :=
  match token with
  | some token =>
    -- the owner finds out about a foreign token, whatever the provider can do
    if token.belongsTo ctx.subscriptionId = false ∨ ctx.settlement = .acceptRetryReject then
      settle ctx leaseId token .reject eventId topic
    else countAbandoned ++ abandon leaseId
  | none => countAbandoned ++ abandon leaseId

end

/-! ## Decoding and the filter -/

inductive CodecError where
  | payloadTooLarge (actual limit : Nat)
  | metadataMismatch
  | nativeTypeMismatch
  | encode (source : String)
  | decode (source : String)
  | panicked (operation message : String)
deriving DecidableEq, Repr

inductive ReceiveFailureAction where
  | reject
  | stopUnsettled
deriving DecidableEq, Repr

def receiveFailureAction : CodecError → ReceiveFailureAction
  | .decode _ => .reject
  | _ => .stopUnsettled

/-- The answer of the subscription's filter; an event passes if there is none. -/
inductive FilterAnswer where
  | passes
  | excludes
  | panics
deriving DecidableEq, Repr

/-- The event to deliver, with the token it keeps. -/
def prepareDelivery (ctx : OwnerContext) (leaseId : Nat) (message : InboundMessage)
    (decoded : Except CodecError NativePayload) (filter : FilterAnswer)
    (answers : List (Option FailureDirective)) (forwarded : Bool) :
    Option Event × Option SettlementToken × Effects :=
  match decoded with
  | .error _ =>
    (none, none, settleRejected ctx leaseId message.settlement message.id message.topic.value)
  | .ok _ =>
    let event : Event := ⟨message.id, ctx.topic, message.headers⟩
    match filter with
    | .excludes => (none, none, settleToken ctx leaseId message.settlement .accept event)
    | .panics =>
      let directive := notifyErrorHandlers ctx.retryEnabled answers
        (.handler "subscriber filter panicked")
      (none, none, finishFailedDelivery ctx leaseId message.settlement event directive forwarded)
    | .passes => (some event, message.settlement, {})

/-! ## What the decisions send -/

/-- All messages sent are about `leaseId`. -/
structure Effects.About (leaseId : Nat) (effects : Effects) : Prop where
  sent : ∀ m ∈ effects.sent, m.leaseId = leaseId

section
variable (ctx : OwnerContext) (leaseId : Nat)

theorem about_none (abandoned : Nat) (cancels : Bool) :
    Effects.About leaseId { abandoned, cancels } := ⟨fun _ h => nomatch h⟩

theorem about_append {a b : Effects} (ha : a.About leaseId) (hb : b.About leaseId) :
    (a ++ b).About leaseId := ⟨fun m hm => (List.mem_append.1 hm).elim (ha.sent m) (hb.sent m)⟩

theorem about_settle (token : SettlementToken) (disposition : DeliveryDisposition)
    (eventId : EventId) (topic : String) :
    (settle ctx leaseId token disposition eventId topic).About leaseId := by
  refine ⟨fun m hm => ?_⟩
  rw [List.mem_singleton.1 hm]
  rfl

theorem about_abandon : (abandon leaseId).About leaseId := by
  refine ⟨fun m hm => ?_⟩
  rw [List.mem_singleton.1 hm]
  rfl

theorem about_lost : (countAbandoned ++ abandon leaseId).About leaseId :=
  about_append _ (about_none _ 1 false) (about_abandon _)

theorem about_settleToken (token : Option SettlementToken) (disposition : DeliveryDisposition)
    (event : Event) : (settleToken ctx leaseId token disposition event).About leaseId := by
  cases token with
  | none => exact about_none _ 0 false
  | some token => exact about_settle ..

theorem about_settleRejected (token : Option SettlementToken) (eventId : EventId) (topic : String) :
    (settleRejected ctx leaseId token eventId topic).About leaseId := by
  cases token with
  | none => exact about_lost _
  | some token =>
    simp only [settleRejected]
    split
    · exact about_settle ..
    · exact about_lost _

/-- Forwarding either does nothing besides, or fails, which counts the loss and cancels. -/
theorem failureOutcome_cases (event : Event) (directive : FailureDirective) (forwarded : Bool) :
    (∃ disposition, failureOutcome ctx event directive forwarded = (disposition, false, {})) ∨
      failureOutcome ctx event directive forwarded =
        (none, true, { abandoned := 1, cancels := true }) := by
  simp only [failureOutcome, forwardDeadLetter]
  split
  · split_ifs
    · exact .inl ⟨_, rfl⟩
    · exact .inl ⟨_, rfl⟩
    · exact .inr rfl
  · exact .inl ⟨_, rfl⟩
  · exact .inl ⟨_, rfl⟩

theorem about_finishFailedDelivery (token : Option SettlementToken) (event : Event)
    (directive : FailureDirective) (forwarded : Bool) :
    (finishFailedDelivery ctx leaseId token event directive forwarded).About leaseId := by
  have hforward : (failureOutcome ctx event directive forwarded).2.2.About leaseId := by
    rcases failureOutcome_cases ctx event directive forwarded with ⟨disposition, h⟩ | h
    · rw [h]
      exact about_none _ 0 false
    · rw [h]
      exact about_none _ 1 true
  simp only [finishFailedDelivery]
  split
  · exact about_lost _
  · split
    · exact about_append _ hforward (about_settleToken ..)
    · split
      · exact about_append _ hforward (about_abandon _)
      · split
        · split
          · exact about_settle ..
          · exact about_lost _
        · exact about_lost _

theorem about_prepareDelivery (message : InboundMessage) (decoded : Except CodecError NativePayload)
    (filter : FilterAnswer) (answers : List (Option FailureDirective)) (forwarded : Bool) :
    (prepareDelivery ctx leaseId message decoded filter answers forwarded).2.2.About leaseId := by
  unfold prepareDelivery
  split
  · exact about_settleRejected ..
  · dsimp only
    split
    · exact about_settleToken ..
    · exact about_finishFailedDelivery ..
    · exact about_none _ 0 false

end

/-! ## Every decision about a token is made once -/

/-- A token leads either to one settlement of it, or to one counted loss and a note of it. -/
inductive Decided (leaseId : Nat) (token : SettlementToken) : Effects → Prop
  | settles {intent : SettlementIntent} (h : intent.token = some token) :
    Decided leaseId token { sent := [.settlement leaseId intent] }
  | loses (cancels : Bool) :
    Decided leaseId token { abandoned := 1, sent := [.abandoned leaseId], cancels }

section
variable (ctx : OwnerContext) (leaseId : Nat) (token : SettlementToken)

theorem decided_settle (disposition : DeliveryDisposition) (eventId : EventId) (topic : String) :
    Decided leaseId token (settle ctx leaseId token disposition eventId topic) := .settles rfl

theorem decided_lost : Decided leaseId token (countAbandoned ++ abandon leaseId) := .loses false

theorem decided_settleRejected (eventId : EventId) (topic : String) :
    Decided leaseId token (settleRejected ctx leaseId (some token) eventId topic) := by
  simp only [settleRejected]
  split
  · exact decided_settle ..
  · exact decided_lost ..

theorem decided_finishFailedDelivery (event : Event) (directive : FailureDirective)
    (forwarded : Bool) :
    Decided leaseId token
      (finishFailedDelivery ctx leaseId (some token) event directive forwarded) := by
  simp only [finishFailedDelivery]
  rcases failureOutcome_cases ctx event directive forwarded with ⟨disposition, h⟩ | h
  · rw [h]
    cases disposition with
    | some disposition => exact decided_settle ..
    | none =>
      simp only [reduceCtorEq, false_and, if_false, Bool.false_eq_true]
      split
      · exact decided_settle ..
      · exact decided_lost ..
  · rw [h]
    exact .loses true

end

end EventBus.Delivery
