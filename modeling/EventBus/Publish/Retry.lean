import EventBus.Spi
import EventBus.Lib.Retry

/-!
# Publish attempts

`pipeline/retry.rs`: one publication calls the provider once, or under a retry policy as often as
the retry engine asks for. Every call is fenced against panics, and what the calls have shown is
collected in two flags: `seenUnknown` (a call may have been accepted without saying so) and
`seenAdmission` (a call acknowledged an admission). The engine's rules are registered in
`retryConfig`, the gate on uncertain failures before the rule of the user.

What the provider does is a script: for the synchronous provider the value its `publish` returns or
a panic, for the asynchronous one the fate of the future it returns.
-/

namespace EventBus.Publish

open Lib.Retry

/-! ## Provider calls -/

/-- A panic payload: its text, if it is a string. -/
structure PanicPayload where
  text : Option String
deriving DecidableEq, Repr

/-- `provider_panic` (`panic_boundary.rs`). -/
def providerPanic (providerId operation : String) (resource : Option String)
    (payload : PanicPayload) : SpiError :=
  .operation providerId operation resource "provider_panicked" (some false)
    (payload.text.getD "provider panicked")

/-- What a synchronous `publish` call of the provider does. -/
inductive SyncReply where
  | returned (result : Except SpiError PublishAcknowledgement)
  | panicked (payload : PanicPayload)

/-- What an asynchronous `publish` call of the provider does. -/
inductive AsyncReply where
  /-- The call that should return the future panics. -/
  | callPanicked (payload : PanicPayload)
  /-- The future completes; dropping it may panic. -/
  | ready (result : Except SpiError PublishAcknowledgement) (cleanup : Option PanicPayload)
  /-- A poll of the future panics. -/
  | pollPanicked (payload : PanicPayload)
  /-- The future is polled and dropped before it completes. -/
  | abandoned
  /-- The attempt is dropped before its first poll, which would have called the provider. -/
  | unpolled

/-- `spi_publish_sync`. -/
def spiPublishSync (providerId : String) (message : OutboundMessage) :
    SyncReply → Except SpiError PublishAcknowledgement
  | .returned result => result
  | .panicked payload =>
    .error (providerPanic providerId "publish" (some message.topic.value) payload)

/-- How far an asynchronous attempt gets. -/
inductive Polled where
  | completed (result : Except SpiError PublishAcknowledgement)
  | dropped
  | never

/-- `spi_publish` with `CatchUnwindFuture`. A success whose future panics while it is dropped is
a provider panic; an error keeps its value. -/
def spiPublish (providerId : String) (message : OutboundMessage) : AsyncReply → Polled
  | .callPanicked payload | .pollPanicked payload =>
    .completed (.error (providerPanic providerId "publish" (some message.topic.value) payload))
  | .ready (.error error) _ => .completed (.error error)
  | .ready (.ok acknowledgement) none => .completed (.ok acknowledgement)
  | .ready (.ok _) (some _) =>
    .completed (.error (providerPanic providerId "publish" (some message.topic.value)
      ⟨some "provider future cleanup panicked"⟩))
  | .abandoned => .dropped
  | .unpolled => .never

/-! ## Evidence of an attempt -/

/-- `acknowledges_admission`. -/
def acknowledgesAdmission (acknowledgement : PublishAcknowledgement) : Bool :=
  match acknowledgement.admissionOutcome with
  | .opaqueAccepted | .accepted _ | .partiallyAccepted _ => true
  | _ => false

structure Flags where
  seenUnknown : Bool
  seenAdmission : Bool
deriving DecidableEq, Repr

def Flags.clear : Flags := ⟨false, false⟩

/-- The error of one attempt, as the retry engine sees it (`publish_attempt_error.rs`). -/
structure PublishAttemptError where
  kind : String
  retryable : Option Bool
  effect : PublishEffect
  source : SpiError
deriving DecidableEq, Repr

def PublishAttemptError.of (error : SpiError) : PublishAttemptError :=
  ⟨error.kind, error.retryable, error.publishEffect, error⟩

/-- What the closures of `publish_sync` note about a result. -/
def noteSync (flags : Flags) : Except SpiError PublishAcknowledgement → Flags
  | .ok acknowledgement =>
    { flags with seenAdmission := flags.seenAdmission || acknowledgesAdmission acknowledgement }
  | .error error =>
    { flags with
      seenUnknown := flags.seenUnknown || error.publishEffect == .mayHaveBeenAccepted }

/-- What the closures of `publish_async` note about a result. -/
def noteAsync (flags : Flags) : Except SpiError PublishAcknowledgement → Flags
  | .ok acknowledgement =>
    if acknowledgesAdmission acknowledgement then { flags with seenAdmission := true } else flags
  | .error error =>
    if error.publishEffect = .mayHaveBeenAccepted then { flags with seenUnknown := true } else flags

/-- The drop of `InFlightPublish`. -/
def InFlightPublish.drop (completed : Bool) (flags : Flags) : Flags :=
  if completed then flags else { flags with seenUnknown := true }

def outcomeOf : Except SpiError PublishAcknowledgement →
    Outcome PublishAttemptError PublishAcknowledgement
  | .ok acknowledgement => .success acknowledgement
  | .error error => .failure (.error (.of error))

/-- The operation `publish_sync` retries. -/
def attemptSync (providerId : String) (message : OutboundMessage) (reply : SyncReply)
    (flags : Flags) : Outcome PublishAttemptError PublishAcknowledgement × Flags :=
  let result := spiPublishSync providerId message reply
  (outcomeOf result, noteSync flags result)

/-- `publish_attempt`, the operation `publish_async` retries. The guard exists from the first
poll on. -/
def publishAttempt (providerId : String) (message : OutboundMessage) (reply : AsyncReply)
    (flags : Flags) : Outcome PublishAttemptError PublishAcknowledgement × Flags :=
  match spiPublish providerId message reply with
  | .never => (.failure .abandoned, flags)
  | .dropped => (.failure .abandoned, InFlightPublish.drop false flags)
  | .completed result =>
    (outcomeOf result, InFlightPublish.drop true (noteAsync flags result))

/-! ## Rules -/

inductive DuplicateRiskPolicy where
  | forbid
  | allowDuplicates
deriving DecidableEq, Repr

/-- `uncertainty_allows_retry`. -/
def uncertaintyAllowsRetry : PublishEffect → DuplicateRiskPolicy → Bool
  | .notAccepted, _ => true
  | .mayHaveBeenAccepted, .allowDuplicates => true
  | .mayHaveBeenAccepted, .forbid => false

/-- The first rule: a failure without an error value counts as possibly accepted. -/
def uncertaintyRule {C : Type} (duplicatePolicy : DuplicateRiskPolicy) :
    Rule PublishAttemptError C := fun failure _ =>
  let effect := failure.asError.elim .mayHaveBeenAccepted PublishAttemptError.effect
  some (if uncertaintyAllowsRetry effect duplicatePolicy then .useDefault else .abort)

/-- The last rule: what the provider says about retrying. -/
def retryableRule {C : Type} : Rule PublishAttemptError C := fun failure _ =>
  match failure.asError.bind PublishAttemptError.retryable with
  | some true => some .retry
  | some false => some .abort
  | none => some .useDefault

/-- A retry policy. Its limits and delays act through the engine; `rejection` is the message with
which `RetryConfig::build` refuses it. -/
structure RetryPolicy where
  rejection : Option String

/-- `retry_config`. -/
def retryConfig {C : Type} (policy : RetryPolicy) (rule : Option (Rule PublishAttemptError C))
    (duplicatePolicy : DuplicateRiskPolicy) :
    Except ConfigurationError (Config PublishAttemptError C) :=
  match policy.rejection with
  | some message => .error (.invalidField "retry_policy" message)
  | none => .ok
    { rules := uncertaintyRule duplicatePolicy :: (rule.toList ++ [retryableRule])
      fallback := .abort }

end EventBus.Publish
