import EventBus.Publish.Request

/-!
# From a request to the message

`PublisherPipeline::prepare_publish`, which both facades run before the first provider call: the
typed interceptors in turn, the global interceptors on the headers, the mark of a dead letter put
back, the checks against the capabilities of the provider, and the message itself. The message is
built once and sent by every attempt.

Interceptors are callbacks of the user. A typed one may return another envelope, a global one may
edit the headers; what is proved of the message holds for all callbacks that use the public
operations only (`ReturnsObtained`, `Edits`).
-/

namespace EventBus.Publish

open Lib Util

/-! ## The provider's side -/

inductive PayloadModes where
  | native
  | encoded
  | nativeAndEncoded
deriving DecidableEq, Repr

inductive DelayedDeliveryCapability where
  | none
  | native
deriving DecidableEq, Repr

inductive OrderingCapability where
  | none
  | perSubscription
  | perKey
  | perPartition
deriving DecidableEq, Repr

structure EventBusCapabilities where
  payloadModes : PayloadModes
  delayedDelivery : DelayedDeliveryCapability
  ordering : OrderingCapability
deriving DecidableEq, Repr

structure PublisherPipeline (P : Type) where
  providerId : String
  /-- The registered codec of the payload type (`codecs.get::<T>()`). -/
  codec : Option (EventCodec P)
  capabilities : EventBusCapabilities
  maxEncodedPayloadBytes : ℕ+

/-- `failure`: nothing has been sent yet. -/
def failure (origin : PipelineFailureOrigin) (error : PublishError) : PipelineFailure :=
  ⟨origin, .notAccepted, error⟩

/-! ## Interceptors -/

/-- The typed interceptors in their order; `none` when one of them drops the event. -/
def applyInterceptors {P : Type} (inputEventId : EventId) :
    List (PublisherInterceptor P) → EventEnvelope P →
      Except PipelineFailure (Option (EventEnvelope P))
  | [], envelope => .ok (some envelope)
  | interceptor :: rest, envelope =>
    match interceptor envelope with
    | .ok (.ok (some next)) =>
      if next.id ≠ inputEventId then
        .error (failure .interceptor (.configuration (.invalidField "event_id"
          "typed publisher interceptor cannot change event identity")))
      else applyInterceptors inputEventId rest next
    | .ok (.ok none) => .ok none
    | .ok (.error error) => .error (failure .interceptor error)
    | .error payload =>
      .error (failure .interceptor (.interceptorPanicked "typed" (panicText payload)))

/-- A global interceptor: whether the event goes on, and the edited headers. -/
abbrev GlobalPublisherInterceptor :=
  PublishMetadata → CatchUnwind (Except PublishError Bool) × PublishMetadata

/-- `GlobalPublisherInterceptor::apply` for all of them, in their order. -/
def applyGlobalInterceptors :
    List GlobalPublisherInterceptor → PublishMetadata →
      Except PipelineFailure (Option PublishMetadata)
  | [], metadata => .ok (some metadata)
  | interceptor :: rest, metadata =>
    match interceptor metadata with
    | (.ok (.ok true), metadata) => applyGlobalInterceptors rest metadata
    | (.ok (.ok false), _) => .ok none
    | (.ok (.error error), _) => .error (failure .interceptor error)
    | (.error payload, _) =>
      .error (failure .interceptor (.interceptorPanicked "global" (panicText payload)))

/-! ## The message -/

/-- `validate_transport_metadata`. -/
def validateTransportMetadata (delay : Option Nat) (orderingKey : Option String)
    (capabilities : EventBusCapabilities) : Except PipelineFailure Unit :=
  if delay.isSome ∧ capabilities.delayedDelivery = .none then
    .error (failure .capability (.capability (.unsupported "delayed_delivery")))
  else if orderingKey.isSome ∧ capabilities.ordering = .none then
    .error (failure .capability (.capability (.unsupported "ordering")))
  else .ok ()

/-- `call_codec`. -/
def callCodec {R : Type} (operation : String) : CatchUnwind (Except String R) → Except String R
  | .ok result => result
  | .error payload =>
    let message := panicText payload
    .error s!"codec {operation} panicked: {message}"

section
variable {P C : Type} (pipeline : PublisherPipeline P)

/-- The payload in the encoding of the provider. -/
def encodePayload (codec : EventCodec P) (payload : P) : Except PipelineFailure TransportPayload :=
  do
  let fail {R : Type} (result : Except String R) : Except PipelineFailure R :=
    result.mapError fun text => failure .codec (.codec text)
  let bytes ← fail (callCodec "encode" (codec.encode payload))
  let actual := bytes.length
  let limit := (pipeline.maxEncodedPayloadBytes : Nat)
  if limit < actual then
    fail (.error
      s!"Publish encoded event payload is {actual} bytes, exceeding the {limit}-byte limit")
  let contentType ← fail (callCodec "content_type" (codec.contentType.map .ok))
  let schemaId ← fail (callCodec "schema_id" (codec.schemaId.map .ok))
  return .encoded bytes contentType schemaId

/-- The payload as the provider takes it: native where it can. -/
def transportPayload (envelope : EventEnvelope P) : Except PipelineFailure TransportPayload :=
  match pipeline.capabilities.payloadModes with
  | .native | .nativeAndEncoded => .ok (.native envelope.payload.native)
  | .encoded =>
    match envelope.topic.codec <|> pipeline.codec with
    | none => .error (failure .capability (.capability .codecRequired))
    | some codec => encodePayload pipeline codec envelope.payload.value

/-- `prepare_outbound_for`, and the message that `PreparedOutbound::build` makes of it. -/
def prepareOutboundFor (envelope : EventEnvelope P) (nativeWeight : Option ℕ+) :
    Except PipelineFailure OutboundMessage := do
  let topic ← (TopicAddress.new envelope.topic.name).mapError
    fun error => failure .capability (.configuration error)
  let payload ← transportPayload pipeline envelope
  return {
    topic
    id := envelope.id
    timestamp := envelope.timestamp
    headers := envelope.headers
    orderingKey := envelope.orderingKey.bind OrderingKey.new
    delay := envelope.delay
    nativePayloadWeightBytes := nativeWeight
    payload }

/-- The weight of a native payload, from the callback of the request. -/
def weigh (options : RequestOptions P C) (payload : P) : Except PipelineFailure (Option ℕ+) :=
  if pipeline.capabilities.payloadModes = .encoded then .ok none
  else
    match options.nativePayloadWeight with
    | none => .ok none
    | some weigh =>
      match weigh payload with
      | .ok weight => .ok (some weight)
      | .error payload =>
        .error (failure .interceptor (.interceptorPanicked "payload_weight" (panicText payload)))

inductive PublishPreparation (C : Type) where
  | dropped (receipt : PublishReceipt)
  | ready (prepared : PreparedPublish C)

/-- The receipt of an event that an interceptor has dropped. -/
def droppedReceipt (inputEventId : EventId) : PublishReceipt :=
  { inputEventId, dispatchedEventId := none, providerId := pipeline.providerId,
    acknowledgement := .droppedByInterceptor, duplicatePossible := false }

/-- The headers of the message: as the interceptors left them, with the mark put back. -/
def finalHeaders (isDeadLetter : Bool) (metadata : PublishMetadata) : Headers :=
  if isDeadLetter then metadata.headers.insert deadLetterHeader deadLetterHeaderValue
  else metadata.headers

/-- `prepare_publish`. -/
def preparePublish (request : PublishRequest P C)
    (globalInterceptors : List GlobalPublisherInterceptor) :
    Except PipelineFailure (PublishPreparation C) := do
  let inputEventId := request.envelope.id
  let options := request.options
  if !options.validRetryConfiguration then
    throw (failure .configuration (.configuration (.invalidField "retry_configuration"
      "retry rule or cancellation token requires a retry policy")))
  let isDeadLetter := isMarked request.envelope.headers
  let some envelope ← applyInterceptors inputEventId options.interceptors request.envelope
    | return .dropped (droppedReceipt pipeline inputEventId)
  let some metadata ← applyGlobalInterceptors globalInterceptors ⟨envelope.headers⟩
    | return .dropped (droppedReceipt pipeline inputEventId)
  let envelope := { envelope with headers := finalHeaders isDeadLetter metadata }
  validateTransportMetadata envelope.delay envelope.orderingKey pipeline.capabilities
  let nativeWeight ← weigh pipeline options envelope.payload.value
  let outbound ← prepareOutboundFor pipeline envelope nativeWeight
  return .ready { inputEventId, options := options.toPublishOptions, outbound }

end

/-! ## What the callbacks may do -/

section
variable {P C : Type}

/-- A typed interceptor that only returns envelopes obtained from its input or from `source`. -/
def ReturnsObtained (source : EventEnvelope P → Prop) (interceptor : PublisherInterceptor P) :
    Prop :=
  ∀ input output, interceptor input = .ok (.ok (some output)) →
    Obtained (fun envelope => source envelope ∨ envelope = input) output

/-- The metadata that the editing operations make of `metadata`. -/
inductive Edited (metadata : PublishMetadata) : PublishMetadata → Prop
  | same : Edited metadata metadata
  | setHeader {edited : PublishMetadata} (key value : String) (h : Edited metadata edited) :
      Edited metadata (edited.setHeader key value).2
  | removeHeader {edited : PublishMetadata} (key : String) (h : Edited metadata edited) :
      Edited metadata (edited.removeHeader key).2

/-- A global interceptor that edits the headers with the operations of `PublishMetadata`. -/
def Edits (interceptor : GlobalPublisherInterceptor) : Prop :=
  ∀ metadata, Edited metadata (interceptor metadata).2

theorem Edited.sameReserved {metadata edited : PublishMetadata} (h : Edited metadata edited) :
    SameReserved metadata.headers edited.headers := by
  induction h with
  | same => exact .refl _
  | setHeader key value _ ih => exact ih.trans (PublishMetadata.setHeader_sameReserved _ key value)
  | removeHeader key _ ih => exact ih.trans (PublishMetadata.removeHeader_sameReserved _ key)

/-! ## The chains of interceptors -/

/-- A property of envelopes that editing keeps and that holds of the source holds at the end of the
chain; and the identity is the input's. -/
theorem applyInterceptors_invariant {I : EventEnvelope P → Prop} {source : EventEnvelope P → Prop}
    (hsource : ∀ e, source e → I e)
    (hedit : ∀ e e', I e → SameReserved e.headers e'.headers → I e')
    {inputEventId : EventId} {interceptors : List (PublisherInterceptor P)}
    (h : ∀ interceptor ∈ interceptors, ReturnsObtained source interceptor)
    {envelope result : EventEnvelope P} (henvelope : I envelope) (hid : envelope.id = inputEventId)
    (heq : applyInterceptors inputEventId interceptors envelope = .ok (some result)) :
    I result ∧ result.id = inputEventId := by
  induction interceptors generalizing envelope with
  | nil =>
    cases heq
    exact ⟨henvelope, hid⟩
  | cons interceptor rest ih =>
    unfold applyInterceptors at heq
    split at heq
    · next next hnext =>
      split at heq
      · cases heq
      · next hsame =>
        obtain ⟨e, he, hreserved⟩ :=
          (h interceptor List.mem_cons_self envelope next hnext).sameReserved
        have hI : I e := by
          rcases he with he | rfl
          · exact hsource e he
          · exact henvelope
        exact ih (fun i hi => h i (List.mem_cons_of_mem _ hi)) (hedit e next hI hreserved)
          (not_not.1 hsame) heq
    all_goals cases heq

theorem applyGlobalInterceptors_sameReserved {interceptors : List GlobalPublisherInterceptor}
    (h : ∀ interceptor ∈ interceptors, Edits interceptor) {metadata result : PublishMetadata}
    (heq : applyGlobalInterceptors interceptors metadata = .ok (some result)) :
    SameReserved metadata.headers result.headers := by
  induction interceptors generalizing metadata with
  | nil =>
    cases heq
    exact .refl _
  | cons interceptor rest ih =>
    unfold applyGlobalInterceptors at heq
    have hedits := (h interceptor List.mem_cons_self metadata).sameReserved
    split at heq
    · next edited hreply =>
      rw [hreply] at hedits
      exact hedits.trans (ih (fun i hi => h i (List.mem_cons_of_mem _ hi)) heq)
    all_goals cases heq

/-! ## The message -/

variable {pipeline : PublisherPipeline P} {request : PublishRequest P C}
  {globalInterceptors : List GlobalPublisherInterceptor} {prepared : PreparedPublish C}

theorem prepareOutboundFor_ok {envelope : EventEnvelope P} {weight : Option ℕ+}
    {message : OutboundMessage} (h : prepareOutboundFor pipeline envelope weight = .ok message) :
    message.id = envelope.id ∧ message.headers = envelope.headers := by
  unfold prepareOutboundFor at h
  rcases ht : TopicAddress.new envelope.topic.name with error | topic <;>
    simp only [ht, bind, Except.bind, Except.mapError] at h
  · cases h
  split at h
  · cases h
  · cases h
    exact ⟨rfl, rfl⟩

/-- The stages of a successful preparation. -/
theorem preparePublish_ready
    (h : preparePublish pipeline request globalInterceptors = .ok (.ready prepared)) :
    ∃ envelope metadata,
      applyInterceptors request.envelope.id request.options.interceptors request.envelope =
        .ok (some envelope) ∧
      applyGlobalInterceptors globalInterceptors ⟨envelope.headers⟩ = .ok (some metadata) ∧
      prepared.outbound.id = envelope.id ∧
      prepared.outbound.headers = finalHeaders (isMarked request.envelope.headers) metadata := by
  unfold preparePublish at h
  dsimp only at h
  split at h
  · cases h
  rcases htyped : applyInterceptors request.envelope.id request.options.interceptors
    request.envelope with _ | _ | envelope <;> simp only [htyped, bind, Except.bind] at h
  · cases h
  · cases h
  rcases hglobal : applyGlobalInterceptors globalInterceptors ⟨envelope.headers⟩ with
    _ | _ | metadata <;> simp only [hglobal] at h
  · cases h
  · cases h
  refine ⟨envelope, metadata, rfl, hglobal, ?_⟩
  split at h
  · cases h
  split at h
  · cases h
  split at h
  · cases h
  · next message hmessage =>
    cases h
    exact prepareOutboundFor_ok hmessage

/-! ## The mark -/

theorem isMarked_finalHeaders (isDeadLetter : Bool) {metadata : PublishMetadata}
    (h : isDeadLetter = false → isMarked metadata.headers = false) :
    isMarked (finalHeaders isDeadLetter metadata) = isDeadLetter := by
  cases isDeadLetter with
  | false => exact h rfl
  | true => simp [finalHeaders, isMarked]

/-- **The mark of a dead letter cannot be forged or lost.** Whatever envelope a publication starts
from, its message carries the mark exactly if the envelope did, under the same id; and a message
that comes from built envelopes carries no spelling of the reserved header at all. -/
theorem preparePublish_marked
    (htyped : ∀ interceptor ∈ request.options.interceptors,
      ReturnsObtained (fun envelope => isMarked envelope.headers = false) interceptor)
    (hglobal : ∀ interceptor ∈ globalInterceptors, Edits interceptor)
    (h : preparePublish pipeline request globalInterceptors = .ok (.ready prepared)) :
    (isMarked prepared.outbound.headers = true ↔ isMarked request.envelope.headers = true) ∧
    prepared.outbound.id = request.envelope.id ∧
    (Built C request.envelope →
      (∀ interceptor ∈ request.options.interceptors, ReturnsObtained (Built C) interceptor) →
      Clean prepared.outbound.headers) := by
  obtain ⟨envelope, metadata, henvelope, hmetadata, hid, hheaders⟩ := preparePublish_ready h
  have hedited : SameReserved envelope.headers metadata.headers :=
    applyGlobalInterceptors_sameReserved hglobal hmetadata
  -- an envelope on the way is marked only if the input is
  obtain ⟨hmarked, hsame⟩ := applyInterceptors_invariant
    (I := fun e => isMarked request.envelope.headers = false → isMarked e.headers = false)
    (fun e he _ => he) (fun e e' he hreserved hinput => hreserved.isMarked.trans (he hinput))
    htyped id rfl henvelope
  refine ⟨?_, hid.trans hsame, fun hbuilt hreturns => ?_⟩
  · rw [hheaders, isMarked_finalHeaders _ fun hinput => hedited.isMarked.trans (hmarked hinput)]
  · obtain ⟨hclean, -⟩ := applyInterceptors_invariant (I := fun e => Clean e.headers)
      (fun e he => Built.clean he) (fun e e' he hreserved => hreserved.clean he) hreturns
      hbuilt.clean rfl henvelope
    rw [hheaders, hbuilt.clean.not_isMarked]
    exact hedited.clean hclean

end

/-- A dead letter whose mark the interceptors try to remove: one returns a new envelope under the
same id, one names the header in another spelling. -/
def unmarkingRequest : PublishRequest Unit Unit where
  envelope :=
    { EventEnvelope.withIdAndSharedPayload ⟨"orders", none⟩ ⟨(), ⟨⟨0⟩, 0⟩⟩ ⟨"event"⟩ 0 with
      headers := (∅ : Headers).insert deadLetterHeader deadLetterHeaderValue }
  options :=
    { duplicateRiskPolicy := .forbid
      retryPolicy := none
      retryRule := none
      errorHandlers := []
      retryCancellationToken := false
      nativePayloadWeight := none
      interceptors := [fun input => .ok (.ok (some (.withIdAndSharedPayload input.topic
        input.payload input.id 0)))] }

def unmarkingMetadata : GlobalPublisherInterceptor := fun metadata =>
  (.ok (.ok true), (metadata.removeHeader "X-Qubit-Event-Bus-Dead-Letter").2)

theorem preparePublish_marked_unmarking :
    ∃ prepared, preparePublish ⟨"local", none, ⟨.native, .none, .none⟩, 1⟩ unmarkingRequest
        [unmarkingMetadata] = .ok (.ready prepared) ∧
      isMarked prepared.outbound.headers = true := by
  obtain ⟨prepared, h⟩ : ∃ prepared, preparePublish ⟨"local", none, ⟨.native, .none, .none⟩, 1⟩
    unmarkingRequest [unmarkingMetadata] = .ok (.ready prepared) := ⟨_, rfl⟩
  refine ⟨prepared, h, (preparePublish_marked ?_ ?_ h).1.2 ?_⟩
  · intro interceptor hmem input output houtput
    obtain rfl := List.mem_singleton.1 hmem
    cases houtput
    exact .source (.inl rfl)
  · intro interceptor hmem metadata
    obtain rfl := List.mem_singleton.1 hmem
    exact .removeHeader _ .same
  · simp [unmarkingRequest, isMarked]

end EventBus.Publish
