import EventBus.Publish.Retry

/-!
# Publications

A publication from the prepared message on: the provider calls (`retry::publish_sync`,
`retry::publish_async`), which both go through the retry engine, a parameter, and what the pipeline
reports about them (`publisher_pipeline.rs`). A success becomes a receipt that says whether
duplicates are possible. A failure is shown to the error handlers of the request, which may panic,
and leaves with its aggregate effect.
-/

namespace EventBus.Publish

open Lib.Retry

/-! ## Errors -/

inductive CapabilityError where
  | codecRequired
  | unsupported (capability : String)
deriving DecidableEq, Repr

mutual

/-- `publish_error.rs`. A codec error is kept as its text. -/
inductive PublishError where
  | configuration (error : ConfigurationError)
  | capability (error : CapabilityError)
  | codec (error : String)
  | spi (error : SpiError)
  | retry (error : RetryError PublishAttemptError)
  | interceptorPanicked (scope message : String)
  | errorHandlerPanicked (message : String) (source : ErrorSource)
  | closed

/-- The boxed source of an error: a publish failure, or an error of another type, for which the
downcast fails. -/
inductive ErrorSource where
  | publishFailure (eventId : EventId) (effect : PublishEffect) (cause : PublishError)
  | other (text : String)

end

def PublishError.publishEffect : PublishError → PublishEffect
  | spi error => error.publishEffect
  | retry error => error.lastError.elim .notAccepted PublishAttemptError.effect
  | errorHandlerPanicked _ (.publishFailure _ effect _) => effect
  | errorHandlerPanicked _ (.other _) => .mayHaveBeenAccepted
  | _ => .notAccepted

/-- What a failed publication returns (`publish_failure.rs`). -/
structure PublishFailure where
  eventId : EventId
  effect : PublishEffect
  cause : PublishError

/-- A handler of publication errors, called with the event and the failure; it may panic. -/
abbrev PublishErrorHandler := EventId → PublishFailure → Option PanicPayload

/-! ## Requests and results -/

structure PublishOptions (C : Type) where
  duplicateRiskPolicy : DuplicateRiskPolicy
  retryPolicy : Option RetryPolicy
  retryRule : Option (Rule PublishAttemptError C)
  errorHandlers : List PublishErrorHandler

structure PreparedPublish (C : Type) where
  inputEventId : EventId
  options : PublishOptions C
  /-- What every attempt sends (`outbound.build()`). -/
  outbound : OutboundMessage

structure PublishReceipt where
  inputEventId : EventId
  dispatchedEventId : Option EventId
  providerId : String
  acknowledgement : PublishAcknowledgement
  duplicatePossible : Bool
deriving DecidableEq

/-- What a publication meets: the one call made without a retry policy, or the turns of the retry
engine and how it ends. -/
structure Script (P C : Type) where
  direct : P
  turns : List (Turn P C)
  ending : Ending

/-- The provider calls of a publication and their result. -/
structure Attempts (P : Type) where
  made : List P
  flags : Flags
  result : Except PublishError PublishAcknowledgement

section
variable {C : Type} (engine : Engine) (providerId : String) (message : OutboundMessage)
  (options : PublishOptions C)

/-- `retry::publish_sync`. -/
def publishSync (script : Script SyncReply C) : Attempts SyncReply :=
  match options.retryPolicy with
  | none =>
    let result := spiPublishSync providerId message script.direct
    ⟨[script.direct], noteSync .clear result, result.mapError .spi⟩
  | some policy =>
    match retryConfig policy options.retryRule options.duplicateRiskPolicy with
    | .error error => ⟨[], .clear, .error (.configuration error)⟩
    | .ok config =>
      let x := engine.run config (attemptSync providerId message) script.ending script.turns .clear
      ⟨x.made, x.state, x.result.mapError .retry⟩

/-- `retry::publish_async`. `none`: without a policy, an abandoned call is an abandoned
publication, which returns nothing. -/
def publishAsync (script : Script AsyncReply C) : Option (Attempts AsyncReply) :=
  match options.retryPolicy with
  | none =>
    match spiPublish providerId message script.direct with
    | .completed result =>
      some ⟨[script.direct], noteAsync .clear result, result.mapError .spi⟩
    | .dropped | .never => none
  | some policy =>
    match retryConfig policy options.retryRule options.duplicateRiskPolicy with
    | .error error => some ⟨[], .clear, .error (.configuration error)⟩
    | .ok config =>
      let x := engine.run config (publishAttempt providerId message) script.ending
        script.turns .clear
      some ⟨x.made, x.state, x.result.mapError .retry⟩

end

/-! ## Reporting -/

inductive PipelineFailureOrigin where
  | configuration
  | interceptor
  | capability
  | codec
  | provider
  | retry
deriving DecidableEq, Repr

structure PipelineFailure where
  origin : PipelineFailureOrigin
  effect : PublishEffect
  error : PublishError

def publishFailureOrigin : PublishError → PipelineFailureOrigin
  | .configuration _ => .configuration
  | .retry _ => .retry
  | _ => .provider

/-- The text of a panic payload. -/
def panicText (payload : PanicPayload) : String := payload.text.getD "non-string panic payload"

/-- The handlers are all called; the first panic is reported. -/
def notifyPublishErrorHandlers (eventId : EventId) (handlers : List PublishErrorHandler)
    (terminalError : PublishError) (effect : PublishEffect) : PublishError :=
  let failure : PublishFailure := ⟨eventId, effect, terminalError⟩
  match handlers.findSome? fun handler => (handler eventId failure).map panicText with
  | some message => .errorHandlerPanicked message (.publishFailure eventId effect terminalError)
  | none => terminalError

section
variable {C : Type} (prepared : PreparedPublish C)

def finishPublishSuccess (providerId : String) (acknowledgement : PublishAcknowledgement)
    (duplicatePossible : Bool) : PublishReceipt :=
  { inputEventId := prepared.inputEventId, dispatchedEventId := some prepared.outbound.id,
    providerId, acknowledgement, duplicatePossible }

def finishPublishFailure (error : PublishError) (seenUnknown seenAdmission : Bool) :
    PipelineFailure :=
  let effect := if seenUnknown || seenAdmission then .mayHaveBeenAccepted else error.publishEffect
  { origin := publishFailureOrigin error, effect,
    error := notifyPublishErrorHandlers prepared.outbound.id prepared.options.errorHandlers error
      effect }

/-- `publish_pipeline_error` of the facade. -/
def publishPipelineError (eventId : EventId) (failure : PipelineFailure) : PublishFailure :=
  ⟨eventId, failure.effect, failure.error⟩

/-- A publication: the provider calls it made and what it returned. -/
structure Publication (P : Type) where
  made : List P
  result : Except PublishFailure PublishReceipt

/-- What the pipeline and the facade make of the provider calls. -/
def finish {P : Type} (providerId : String) (attempts : Attempts P) : Publication P where
  made := attempts.made
  result :=
    match attempts.result with
    | .ok acknowledgement =>
      .ok (finishPublishSuccess prepared providerId acknowledgement attempts.flags.seenUnknown)
    | .error error =>
      .error (publishPipelineError prepared.inputEventId
        (finishPublishFailure prepared error attempts.flags.seenUnknown
          attempts.flags.seenAdmission))

/-- `PublisherPipeline::publish` from the prepared message on. -/
def publish (engine : Engine) (providerId : String) (script : Script SyncReply C) :
    Publication SyncReply :=
  finish prepared providerId
    (publishSync engine providerId prepared.outbound prepared.options script)

/-- `PublisherPipeline::publish_async` from the prepared message on. -/
def publishOnAsync (engine : Engine) (providerId : String) (script : Script AsyncReply C) :
    Option (Publication AsyncReply) :=
  (publishAsync engine providerId prepared.outbound prepared.options script).map
    (finish prepared providerId)

end

end EventBus.Publish
