import EventBus.Publish.Pipeline

/-!
# Evidence of a publication

What a publication reports about the attempts it made, and which attempts it makes. An attempt is
uncertain when the provider may have accepted the message without saying so: an error with that
effect, a panic, a future dropped after its first poll. It admits when its acknowledgement does.

Both providers come down to the same attempts (`attempt`), seen through how far a call gets
(`Polled`), and `Evident` says of them how flags, error and result stand to the attempts. It holds
of every publication, whatever the provider replies, the rules say and wherever the engine stops
(`publish_evidence`). Under `forbid` an uncertain or admitting attempt is the last one
(`publish_forbid_once`).
-/

namespace EventBus

/-- The provider took the message for at least one destination, or does not say for which. -/
def PublishAcknowledgement.Admits : PublishAcknowledgement → Prop
  | .accepted _ _ => True
  | .destinationAdmissions destinations => ∃ d ∈ destinations, d.status = .accepted
  | .droppedByInterceptor => False

namespace Publish

open Lib.Retry

variable {polled : Polled} {flags : Flags}

/-! ## Attempts -/

theorem accepted_foldl (destinations : List DestinationAdmission) (summary : AdmissionSummary) :
    (destinations.foldl (fun summary d => AdmissionSummary.add summary d.status) summary).accepted =
      summary.accepted + destinations.countP (·.status = .accepted) := by
  induction destinations generalizing summary with
  | nil => rfl
  | cons d destinations ih =>
    rw [List.foldl_cons, ih, List.countP_cons]
    cases d.status <;> simp [AdmissionSummary.add]
    omega

/-- The code's test on the outcome of an acknowledgement. -/
theorem acknowledgesAdmission_iff (acknowledgement : PublishAcknowledgement) :
    acknowledgesAdmission acknowledgement = true ↔ acknowledgement.Admits := by
  cases acknowledgement with
  | accepted => simp [acknowledgesAdmission, PublishAcknowledgement.admissionOutcome,
      PublishAcknowledgement.Admits]
  | droppedByInterceptor => simp [acknowledgesAdmission, PublishAcknowledgement.admissionOutcome,
      PublishAcknowledgement.Admits]
  | destinationAdmissions destinations =>
    have hcount : (destinations.foldl (fun summary d => AdmissionSummary.add summary d.status)
        .default).accepted = destinations.countP (·.status = .accepted) := by
      rw [accepted_foldl, AdmissionSummary.default, Nat.zero_add]
    have hpos : destinations.countP (·.status = .accepted) ≠ 0 ↔
        ∃ d ∈ destinations, d.status = .accepted := by
      rw [← Nat.pos_iff_ne_zero, List.countP_pos_iff]
      simp
    rw [PublishAcknowledgement.Admits, ← hpos, ← hcount]
    cases destinations with
    | nil => decide
    | cons d destinations =>
      simp only [acknowledgesAdmission, PublishAcknowledgement.admissionOutcome]
      generalize (d :: destinations).foldl _ _ = summary
      split <;> grind

namespace Polled

def Uncertain : Polled → Prop
  | completed (.error error) => error.publishEffect = .mayHaveBeenAccepted
  | completed (.ok _) => False
  | dropped => True
  | never => False

def Admits : Polled → Prop
  | completed (.ok acknowledgement) => acknowledgement.Admits
  | _ => False

end Polled

/-- The retried operation of both pipelines: `publishAttempt` after the provider call. -/
def attempt (polled : Polled) (flags : Flags) :
    Outcome PublishAttemptError PublishAcknowledgement × Flags :=
  match polled with
  | .never => (.failure .abandoned, flags)
  | .dropped => (.failure .abandoned, InFlightPublish.drop false flags)
  | .completed result => (outcomeOf result, InFlightPublish.drop true (noteAsync flags result))

/-- The two pipelines write it differently and note the same. -/
theorem noteSync_eq_noteAsync (flags : Flags) (result : Except SpiError PublishAcknowledgement) :
    noteSync flags result = noteAsync flags result := by
  obtain ⟨unknown, admission⟩ := flags
  cases result with
  | ok acknowledgement =>
    cases h : acknowledgesAdmission acknowledgement <;> simp [noteSync, noteAsync, h]
  | error error => cases h : error.publishEffect <;> simp [noteSync, noteAsync, h]

theorem attemptSync_eq (providerId : String) (message : OutboundMessage) :
    attemptSync providerId message =
      fun reply => attempt (.completed (spiPublishSync providerId message reply)) := by
  funext reply flags
  simp [attemptSync, attempt, InFlightPublish.drop, noteSync_eq_noteAsync]

theorem publishAttempt_eq (providerId : String) (message : OutboundMessage) :
    publishAttempt providerId message =
      fun reply => attempt (spiPublish providerId message reply) := rfl

theorem attempt_seenUnknown (polled : Polled) (flags : Flags) :
    (attempt polled flags).2.seenUnknown = true ↔ flags.seenUnknown = true ∨ polled.Uncertain := by
  cases polled with
  | completed result =>
    cases result with
    | ok ack =>
      cases h : acknowledgesAdmission ack <;>
        simp [attempt, InFlightPublish.drop, noteAsync, Polled.Uncertain, h]
    | error error =>
      cases h : error.publishEffect <;>
        simp [attempt, InFlightPublish.drop, noteAsync, Polled.Uncertain, h]
  | dropped => simp [attempt, InFlightPublish.drop, Polled.Uncertain]
  | never => simp [attempt, Polled.Uncertain]

theorem attempt_seenAdmission (polled : Polled) (flags : Flags) :
    (attempt polled flags).2.seenAdmission = true ↔
      flags.seenAdmission = true ∨ polled.Admits := by
  cases polled with
  | completed result =>
    cases result with
    | ok ack =>
      rw [Polled.Admits, ← acknowledgesAdmission_iff]
      cases h : acknowledgesAdmission ack <;>
        simp [attempt, InFlightPublish.drop, noteAsync, h]
    | error error =>
      cases h : error.publishEffect <;>
        simp [attempt, InFlightPublish.drop, noteAsync, Polled.Admits, h]
  | dropped => simp [attempt, InFlightPublish.drop, Polled.Admits]
  | never => simp [attempt, Polled.Admits]

/-- An attempt ends with an error value only if the provider call did. -/
theorem attempt_error {e : PublishAttemptError}
    (h : (attempt polled flags).1 = .failure (.error e)) :
    ∃ error, polled = .completed (.error error) ∧ e = .of error := by
  cases polled with
  | completed result =>
    cases result with
    | ok => cases h
    | error error =>
      cases h
      exact ⟨error, rfl, rfl⟩
  | dropped | never => cases h

theorem attempt_success {acknowledgement : PublishAcknowledgement}
    (h : (attempt polled flags).1 = .success acknowledgement) :
    polled = .completed (.ok acknowledgement) := by
  cases polled with
  | completed result =>
    cases result with
    | ok => cases h; rfl
    | error => cases h
  | dropped | never => cases h

/-! ## What the attempts of a publication show -/

/-- How flags, error and result of a publication stand to its attempts. -/
structure Evident {P : Type} (poll : P → Polled) (attempts : Attempts P) : Prop where
  unknown : attempts.flags.seenUnknown = true ↔ ∃ p ∈ attempts.made, (poll p).Uncertain
  admission : attempts.flags.seenAdmission = true ↔ ∃ p ∈ attempts.made, (poll p).Admits
  error {error : PublishError} : attempts.result = .error error →
    error.publishEffect = .mayHaveBeenAccepted → ∃ p ∈ attempts.made, (poll p).Uncertain
  ok {acknowledgement : PublishAcknowledgement} : attempts.result = .ok acknowledgement →
    ∃ earlier p, attempts.made = earlier ++ [p] ∧ poll p = .completed (.ok acknowledgement)
  /-- The handlers have not been called yet. -/
  unhandled (message : String) (source : ErrorSource) :
    attempts.result ≠ .error (.errorHandlerPanicked message source)

section
variable {P C : Type} {poll : P → Polled}

/-- A flag that an attempt raises exactly for some calls is up after a list of attempts exactly if
it was up before or one of the attempts raised it. -/
theorem flag_foldl (poll : P → Polled) {flag : Flags → Bool} {Raises : Polled → Prop}
    (hstep : ∀ polled flags, flag (attempt polled flags).2 = true ↔
      flag flags = true ∨ Raises polled) (made : List P) (flags : Flags) :
    flag (made.foldl (fun s p => (attempt (poll p) s).2) flags) = true ↔
      flag flags = true ∨ ∃ p ∈ made, Raises (poll p) := by
  induction made generalizing flags with
  | nil => simp
  | cons p made ih => rw [List.foldl_cons, ih, hstep]; simp [or_assoc]

theorem Evident.direct {p : P} {result : Except SpiError PublishAcknowledgement}
    (hp : poll p = .completed result) :
    Evident poll ⟨[p], noteAsync .clear result, result.mapError .spi⟩ where
  unknown := by
    have h := attempt_seenUnknown (.completed result) .clear
    simpa [attempt, InFlightPublish.drop, hp, Flags.clear] using h
  admission := by
    have h := attempt_seenAdmission (.completed result) .clear
    simpa [attempt, InFlightPublish.drop, hp, Flags.clear] using h
  error := by
    intro error he heff
    refine ⟨p, List.mem_singleton_self p, ?_⟩
    cases result with
    | ok => cases he
    | error =>
      cases he
      rw [hp]
      exact heff
  ok := by
    intro acknowledgement hok
    refine ⟨[], p, rfl, ?_⟩
    cases result with
    | ok => cases hok; exact hp
    | error => cases hok
  unhandled message source h := by cases result <;> cases h

/-- A policy that the engine refuses: no attempt is made. -/
theorem Evident.refused (error : ConfigurationError) :
    Evident poll ⟨[], .clear, .error (.configuration error)⟩ where
  unknown := by simp [Flags.clear]
  admission := by simp [Flags.clear]
  error h heff := by
    cases h
    cases heff
  ok h := nomatch h
  unhandled _ _ h := nomatch h

theorem Evident.retried {rules : List (Rule PublishAttemptError C)}
    {byDefault : AttemptFailure PublishAttemptError → C → Bool}
    {x : Execution P Flags PublishAttemptError PublishAcknowledgement}
    (h : Runs rules byDefault (fun p => attempt (poll p)) [] .clear x) :
    Evident poll ⟨x.made, x.state, x.result.mapError .retry⟩ where
  unknown := by
    have hflag := flag_foldl poll attempt_seenUnknown x.made .clear
    simpa [h.state, Flags.clear] using hflag
  admission := by
    have hflag := flag_foldl poll attempt_seenAdmission x.made .clear
    simpa [h.state, Flags.clear] using hflag
  error := by
    intro error he heff
    cases hx : x.result with
    | ok => simp [hx, Except.mapError] at he
    | error failure =>
      simp only [hx, Except.mapError, Except.error.injEq] at he
      subst he
      -- a run that reports no error value is reported as not accepted
      cases hlast : failure.lastError with
      | none => simp [PublishError.publishEffect, hlast] at heff
      | some e =>
        obtain hm | ⟨p, s, hp, hop⟩ := h.lastError hx hlast
        · cases hm
        · obtain ⟨error, hpoll, rfl⟩ := attempt_error hop
          refine ⟨p, hp, ?_⟩
          simpa [PublishError.publishEffect, hlast, PublishAttemptError.of, hpoll,
            Polled.Uncertain] using heff
  ok := by
    intro acknowledgement hok
    cases hx : x.result with
    | error => simp [hx, Except.mapError] at hok
    | ok value =>
      simp only [hx, Except.mapError, Except.ok.injEq] at hok
      subst hok
      obtain ⟨earlier, p, s, hm, hop⟩ := h.ok hx
      exact ⟨earlier, p, hm, attempt_success hop⟩
  unhandled message source hres := by cases hx : x.result <;> simp [hx, Except.mapError] at hres

variable (engine : Engine) (providerId : String) (message : OutboundMessage)
  (options : PublishOptions C)

theorem publishSync_evident (script : Script SyncReply C) :
    Evident (fun reply => .completed (spiPublishSync providerId message reply))
      (publishSync engine providerId message options script) := by
  unfold publishSync
  split
  · simp only [noteSync_eq_noteAsync]
    exact .direct rfl
  · split
    · exact .refused _
    · rw [attemptSync_eq]
      exact .retried (engine.runs ..)

theorem publishAsync_evident {script : Script AsyncReply C} {attempts : Attempts AsyncReply}
    (h : publishAsync engine providerId message options script = some attempts) :
    Evident (spiPublish providerId message) attempts := by
  unfold publishAsync at h
  split at h
  · split at h
    · cases h
      exact .direct ‹_›
    · cases h
    · cases h
  · split at h
    · cases h
      exact .refused _
    · cases h
      exact .retried (engine.runs ..)

end

/-! ## Replies -/

namespace SyncReply

def Uncertain : SyncReply → Prop
  | returned (.error error) => error.publishEffect = .mayHaveBeenAccepted
  | returned (.ok _) => False
  | panicked _ => True

def Admits : SyncReply → Prop
  | returned (.ok acknowledgement) => acknowledgement.Admits
  | _ => False

/-- The asynchronous provider that does the same. -/
def async : SyncReply → AsyncReply
  | returned result => .ready result none
  | panicked payload => .pollPanicked payload

variable (providerId : String) (message : OutboundMessage) (reply : SyncReply)

theorem uncertain_iff : reply.Uncertain ↔
    (Polled.completed (spiPublishSync providerId message reply)).Uncertain := by
  match reply with
  | returned (.ok _) | returned (.error _) => exact .rfl
  | panicked _ => exact ⟨fun _ => rfl, fun _ => trivial⟩

theorem admits_iff : reply.Admits ↔
    (Polled.completed (spiPublishSync providerId message reply)).Admits := by
  match reply with
  | returned (.ok _) | returned (.error _) | panicked _ => exact .rfl

theorem spiPublish_async : spiPublish providerId message reply.async =
    .completed (spiPublishSync providerId message reply) := by
  match reply with
  | returned (.ok _) | returned (.error _) | panicked _ => rfl

end SyncReply

namespace AsyncReply

/-- A provider that panics after it has answered is one that panicked. -/
def Uncertain : AsyncReply → Prop
  | callPanicked _ | pollPanicked _ | abandoned => True
  | ready (.error error) _ => error.publishEffect = .mayHaveBeenAccepted
  | ready (.ok _) cleanup => cleanup.isSome
  | unpolled => False

def Admits : AsyncReply → Prop
  | ready (.ok acknowledgement) _ => acknowledgement.Admits
  | _ => False

variable (providerId : String) (message : OutboundMessage) (reply : AsyncReply)

theorem uncertain_iff : reply.Uncertain ↔ (spiPublish providerId message reply).Uncertain := by
  match reply with
  | callPanicked _ | pollPanicked _ => exact ⟨fun _ => rfl, fun _ => trivial⟩
  | ready (.ok _) (some _) => exact ⟨fun _ => rfl, fun _ => rfl⟩
  | ready (.ok _) none => exact ⟨(nomatch ·), False.elim⟩
  | ready (.error _) _ | abandoned | unpolled => exact .rfl

/-- The acknowledgement is lost when its future panics afterwards; the attempt is uncertain
then. -/
theorem evidence_iff : reply.Uncertain ∨ reply.Admits ↔
    (spiPublish providerId message reply).Uncertain ∨
      (spiPublish providerId message reply).Admits := by
  rw [← uncertain_iff]
  match reply with
  | ready (.ok _) (some _) => simp [Uncertain]
  | callPanicked _ | pollPanicked _ | ready (.ok _) none | ready (.error _) _ | abandoned
  | unpolled => exact .rfl

end AsyncReply

/-! ## No second call under `forbid` -/

section
variable {P C : Type} {policy : RetryPolicy} {rule : Option (Rule PublishAttemptError C)}
  {byDefault : AttemptFailure PublishAttemptError → C → Bool}

/-- The gate is the first rule that is asked. -/
theorem goesOn_forbid {config : Config PublishAttemptError C}
    (hconfig : retryConfig policy rule .forbid = .ok config)
    {failure : AttemptFailure PublishAttemptError} {context : C}
    (hr : goesOn config.rules byDefault failure context = true) :
    ∃ e, failure = .error e ∧ e.effect = .notAccepted := by
  unfold retryConfig at hconfig
  split at hconfig
  · cases hconfig
  cases hconfig
  cases failure with
  | abandoned => cases hr
  | error e =>
    refine ⟨e, rfl, ?_⟩
    cases he : e.effect with
    | notAccepted => rfl
    | mayHaveBeenAccepted =>
      simp [goesOn, consult, uncertaintyRule, AttemptFailure.asError, he,
        uncertaintyAllowsRetry] at hr

/-- An uncertain or admitting attempt of a run with the gate is its last one. -/
theorem forbid_once {poll : P → Polled} {config : Config PublishAttemptError C}
    (hconfig : retryConfig policy rule .forbid = .ok config)
    {x : Execution P Flags PublishAttemptError PublishAcknowledgement}
    (h : Runs config.rules byDefault (fun p => attempt (poll p)) [] .clear x)
    {made post : List P} {p : P}
    (hm : x.made = made ++ p :: post) (hp : (poll p).Uncertain ∨ (poll p).Admits) : post = [] := by
  by_contra hpost
  obtain ⟨s, c, f, hop, hr⟩ := h.retried hm hpost
  obtain ⟨e, rfl, he⟩ := goesOn_forbid hconfig hr
  obtain ⟨error, hpoll, rfl⟩ := attempt_error hop
  rw [hpoll] at hp
  obtain hp | hp := hp
  · rw [Polled.Uncertain, show error.publishEffect = .notAccepted from he] at hp
    cases hp
  · exact hp

/-- Under `forbid` the provider is not called again for a publication after an attempt that
admitted the message, returned an error that may hide an admission, panicked, or was given up after
its first poll, whatever the user's rule answers and wherever the engine stops. -/
theorem publish_forbid_once (engine : Engine) (providerId : String) (message : OutboundMessage)
    (options : PublishOptions C) (hforbid : options.duplicateRiskPolicy = .forbid) :
    (∀ (script : Script SyncReply C) (earlier later : List SyncReply) (reply : SyncReply),
      (publishSync engine providerId message options script).made = earlier ++ reply :: later →
      reply.Uncertain ∨ reply.Admits → later = []) ∧
    ∀ (script : Script AsyncReply C) (attempts : Attempts AsyncReply)
      (earlier later : List AsyncReply) (reply : AsyncReply),
      publishAsync engine providerId message options script = some attempts →
      attempts.made = earlier ++ reply :: later →
      reply.Uncertain ∨ reply.Admits → later = [] := by
  -- without a policy there is only one call
  have hone : ∀ {Q : Type} {p q : Q} {earlier later : List Q},
      [p] = earlier ++ q :: later → later = [] := by
    intro Q p q earlier later h
    have := congrArg List.length h
    simp only [List.length_append, List.length_cons, List.length_nil] at this
    exact List.eq_nil_of_length_eq_zero (by omega)
  refine ⟨fun script earlier later reply hm hr => ?_,
    fun script attempts earlier later reply h hm hr => ?_⟩
  · unfold publishSync at hm
    split at hm
    · exact hone hm
    split at hm
    · simp at hm
    · rename_i config hconfig
      rw [hforbid] at hconfig
      rw [attemptSync_eq] at hm
      rw [SyncReply.uncertain_iff providerId message, SyncReply.admits_iff providerId message] at hr
      exact forbid_once hconfig (engine.runs ..) hm hr
  · unfold publishAsync at h
    split at h
    · split at h
      · cases h
        exact hone hm
      · cases h
      · cases h
    split at h
    · cases h
      simp at hm
    · rename_i config hconfig
      cases h
      rw [hforbid] at hconfig
      rw [AsyncReply.evidence_iff providerId message] at hr
      exact forbid_once hconfig (engine.runs ..) hm hr

def sampleMessage : OutboundMessage :=
  { topic := ⟨"orders"⟩, id := ⟨"e1"⟩, timestamp := 0, headers := ∅, orderingKey := none,
    delay := none, nativePayloadWeightBytes := none, payload := .encoded [] "text/plain" none }

/-- A user who always wants to go on. -/
def eagerOptions (duplicateRiskPolicy : DuplicateRiskPolicy) : PublishOptions Unit :=
  { duplicateRiskPolicy, retryPolicy := some ⟨none⟩, retryRule := some fun _ _ => some .retry,
    errorHandlers := [fun _ _ => some ⟨none⟩] }

def failing (effect : PublishEffect) : SyncReply :=
  .returned (.error (.publish "p" none "busy" (some true) effect ""))

/-- The provider refuses, then fails without saying what happened, and would accept the third
call. -/
def lostScript : Script SyncReply Unit :=
  { direct := failing .notAccepted
    turns := [⟨failing .notAccepted, (), false⟩, ⟨failing .mayHaveBeenAccepted, (), false⟩,
      ⟨.returned (.ok (.accepted none ∅)), (), false⟩]
    ending := ⟨.exhausted, some 0⟩ }

theorem publish_forbid_once_lost :
    (publishSync .stepwise "p" sampleMessage (eagerOptions .forbid) lostScript).made =
      [failing .notAccepted] ++ failing .mayHaveBeenAccepted :: [] ∧
    ∀ later, (publishSync .stepwise "p" sampleMessage (eagerOptions .forbid) lostScript).made =
      [failing .notAccepted] ++ failing .mayHaveBeenAccepted :: later → later = [] :=
  ⟨rfl, fun later h =>
    (publish_forbid_once .stepwise "p" sampleMessage (eagerOptions .forbid) rfl).1 lostScript _
      later _ h (.inl rfl)⟩

end

/-! ## Reports -/

/-- The same publication with other error handlers. -/
def PreparedPublish.withHandlers {C : Type} (prepared : PreparedPublish C)
    (handlers : List PublishErrorHandler) : PreparedPublish C :=
  { prepared with options := { prepared.options with errorHandlers := handlers } }

namespace Publication

variable {P : Type}

/-- The effect a failed publication reports. -/
def effect (publication : Publication P) : Option PublishEffect :=
  match publication.result with
  | .error failure => some failure.effect
  | .ok _ => none

/-- A failure reports a possible admission exactly if an attempt was uncertain or admitted the
message, also in an error that a handler's panic wrapped; a success reports possible duplicates
exactly if an earlier attempt was uncertain. -/
def Reports (uncertain admits : P → Prop) (publication : Publication P) : Prop :=
  match publication.result with
  | .error failure =>
    (failure.effect = .mayHaveBeenAccepted ↔
      ∃ reply ∈ publication.made, uncertain reply ∨ admits reply) ∧
    ∀ message source, failure.cause = .errorHandlerPanicked message source →
      failure.cause.publishEffect = failure.effect
  | .ok receipt => receipt.duplicatePossible = true ↔
      ∃ reply ∈ publication.made.dropLast, uncertain reply

end Publication

section
variable {P C : Type} (prepared : PreparedPublish C) (providerId : String)

/-- An error wrapped because a handler panicked keeps the effect of the publication. -/
theorem notify_effect (eventId : EventId) (handlers : List PublishErrorHandler)
    (error : PublishError) (effect : PublishEffect) :
    notifyPublishErrorHandlers eventId handlers error effect = error ∨
      (notifyPublishErrorHandlers eventId handlers error effect).publishEffect = effect := by
  unfold notifyPublishErrorHandlers
  dsimp only
  split
  · exact .inr rfl
  · exact .inl rfl

theorem finish_reports {poll : P → Polled} {attempts : Attempts P} (h : Evident poll attempts)
    {uncertain admits : P → Prop} (hu : ∀ p, uncertain p ↔ (poll p).Uncertain)
    (ha : ∀ p, uncertain p ∨ admits p ↔ (poll p).Uncertain ∨ (poll p).Admits) :
    (finish prepared providerId attempts).Reports uncertain admits := by
  cases hres : attempts.result with
  | error error =>
    have hwrap := fun effect => notify_effect prepared.outbound.id prepared.options.errorHandlers
      error effect
    simp only [Publication.Reports, finish, hres, publishPipelineError, finishPublishFailure, ha]
    refine ⟨?_, fun message source hcause => (hwrap _).resolve_left fun h' => ?_⟩
    swap
    · rw [h'] at hcause
      exact h.unhandled message source (by rw [hres, hcause])
    split
    · rename_i hflag
      rw [Bool.or_eq_true, h.unknown, h.admission] at hflag
      simp only [true_iff]
      obtain ⟨p, hp, hq⟩ | ⟨p, hp, hq⟩ := hflag
      · exact ⟨p, hp, .inl hq⟩
      · exact ⟨p, hp, .inr hq⟩
    · rename_i hflag
      rw [Bool.or_eq_true, h.unknown, h.admission] at hflag
      constructor
      · intro heff
        obtain ⟨p, hp, hq⟩ := h.error hres heff
        exact ⟨p, hp, .inl hq⟩
      · rintro ⟨p, hp, hq | hq⟩
        · exact absurd (.inl ⟨p, hp, hq⟩) hflag
        · exact absurd (.inr ⟨p, hp, hq⟩) hflag
  | ok acknowledgement =>
    obtain ⟨earlier, p, hm, hp⟩ := h.ok hres
    -- the attempt that succeeded is not uncertain itself
    have hlast : ¬(poll p).Uncertain := by rw [hp]; exact id
    simp only [Publication.Reports, finish, hres, finishPublishSuccess, hm, List.dropLast_concat,
      hu, h.unknown]
    constructor
    · rintro ⟨q, hq, hunc⟩
      obtain hq | hq := List.mem_append.1 hq
      · exact ⟨q, hq, hunc⟩
      · exact absurd (List.mem_singleton.1 hq ▸ hunc) hlast
    · rintro ⟨q, hq, hunc⟩
      exact ⟨q, List.mem_append_left _ hq, hunc⟩

/-- What the handlers do is no part of the effect. -/
theorem finish_effect (handlers : List PublishErrorHandler) (attempts : Attempts P) :
    (finish (prepared.withHandlers handlers) providerId attempts).effect =
      (finish prepared providerId attempts).effect := by
  cases hres : attempts.result <;>
    simp [Publication.effect, PreparedPublish.withHandlers, finish, hres, publishPipelineError,
      finishPublishFailure]

/-- The asynchronous provider that replies as the synchronous one. -/
def Script.async (script : Script SyncReply C) : Script AsyncReply C :=
  ⟨script.direct.async, script.turns.map (Turn.map SyncReply.async), script.ending⟩

def Publication.async (publication : Publication SyncReply) : Publication AsyncReply :=
  ⟨publication.made.map SyncReply.async, publication.result⟩

theorem publishOnAsync_async (engine : Engine) (script : Script SyncReply C) :
    publishOnAsync prepared engine providerId script.async =
      some (publish prepared engine providerId script).async := by
  have hop : ∀ reply : SyncReply, publishAttempt providerId prepared.outbound reply.async =
      attemptSync providerId prepared.outbound reply := by
    intro reply
    rw [publishAttempt_eq, attemptSync_eq]
    simp only [SyncReply.spiPublish_async]
  unfold publishOnAsync publish publishAsync publishSync
  cases prepared.options.retryPolicy with
  | none =>
    simp only [Script.async, SyncReply.spiPublish_async, noteSync_eq_noteAsync]
    rfl
  | some policy =>
    cases hconfig : retryConfig policy prepared.options.retryRule
        prepared.options.duplicateRiskPolicy with
    | error => simp only [hconfig]; rfl
    | ok config =>
      simp only [hconfig, Script.async, engine.run_map config script.ending hop]
      rfl

/-- For every trace of provider attempts, policy, rule and set of handlers: the effect of a failed
publication and the duplicates a successful one announces are exactly what the attempts show, in
both pipelines; the handlers do not change the effect; and the two pipelines report the same for
the same trace. -/
theorem publish_evidence (engine : Engine) :
    (∀ script, (publish prepared engine providerId script).Reports SyncReply.Uncertain
      SyncReply.Admits) ∧
    (∀ script publication, publishOnAsync prepared engine providerId script = some publication →
      publication.Reports AsyncReply.Uncertain AsyncReply.Admits) ∧
    (∀ handlers script, (publish (prepared.withHandlers handlers) engine providerId script).effect =
      (publish prepared engine providerId script).effect) ∧
    (∀ handlers script,
      (publishOnAsync (prepared.withHandlers handlers) engine providerId script).map
          Publication.effect =
        (publishOnAsync prepared engine providerId script).map Publication.effect) ∧
    ∀ script, publishOnAsync prepared engine providerId script.async =
      some (publish prepared engine providerId script).async := by
  refine ⟨fun script => ?_, fun script publication h => ?_, fun handlers script => ?_,
    fun handlers script => ?_, fun script => publishOnAsync_async prepared providerId engine script⟩
  · exact finish_reports prepared providerId (publishSync_evident engine providerId _ _ script)
      (SyncReply.uncertain_iff providerId _) fun reply => by
        rw [← SyncReply.uncertain_iff, ← SyncReply.admits_iff]
  · obtain ⟨attempts, ha, rfl⟩ := Option.map_eq_some_iff.1 h
    exact finish_reports prepared providerId (publishAsync_evident engine providerId _ _ ha)
      (AsyncReply.uncertain_iff providerId _) (AsyncReply.evidence_iff providerId _)
  · exact finish_effect prepared providerId handlers _
  · simp only [publishOnAsync, Option.map_map]
    congr 1
    funext attempts
    exact finish_effect prepared providerId handlers attempts

/-- A partial admission whose run the engine ends as failed, and a handler that panics. -/
def cutShort : Script AsyncReply Unit :=
  { direct := .unpolled
    turns := [⟨.ready (.ok (.destinationAdmissions [.new ⟨1⟩ ⟨"a"⟩ .accepted,
      .rejected ⟨2⟩ ⟨"b"⟩ .subscriptionCapacity "full"])) none, (), true⟩]
    ending := ⟨.timeFailed, none⟩ }

def cutShortPublish : PreparedPublish Unit := ⟨⟨"e1"⟩, eagerOptions .forbid, sampleMessage⟩

theorem publish_evidence_cutShort :
    ∃ publication, publishOnAsync cutShortPublish .stepwise "p" cutShort = some publication ∧
      publication.effect = some .mayHaveBeenAccepted ∧
      publication.Reports AsyncReply.Uncertain AsyncReply.Admits :=
  ⟨_, rfl, rfl, (publish_evidence cutShortPublish "p" .stepwise).2.1 cutShort _ rfl⟩

end

end Publish

end EventBus
