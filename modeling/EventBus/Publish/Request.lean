import EventBus.Publish.Pipeline
import EventBus.Util.ValidatedText
import Mathlib.Data.Finset.Sort
import Mathlib.Data.String.Basic

/-!
# Publication requests

What a publication starts from: an event envelope with its headers (`event_envelope.rs`), the
headers as a global interceptor may edit them (`publish_metadata.rs`), and the request builder
(`publish_request_builder.rs`). The header that marks a dead letter is reserved: each of the four
places where a caller can name a header refuses it in every spelling (`isReservedHeader`).

* `SameReserved`: two sets of headers agree on all spellings of the reserved name.
* `Obtained`: the envelopes that the editing operations make from some source; they agree with it
  (`Obtained.sameReserved`).
* `Built`: the envelopes of the public constructors; they carry no spelling at all (`Built.clean`).
-/

namespace EventBus

open Util

/-- `TopicAddress::new`. -/
def TopicAddress.new (value : String) : Except ConfigurationError TopicAddress :=
  if validTopicName value then .ok ⟨value⟩
  else .error (.invalidField "topic"
    "must be 1..=255 bytes without surrounding whitespace or controls")

/-- `OrderingKey::new`. -/
def OrderingKey.new (value : String) : Option OrderingKey :=
  if nonblankWithoutControls value then some ⟨value⟩ else none

end EventBus

namespace EventBus.Publish

open Lib Util

variable {headers headers' : Headers} {key : String}

/-! ## Headers -/

/-- `DEAD_LETTER_HEADER`. -/
def deadLetterHeader : String := "x-qubit-event-bus-dead-letter"

/-- `DEAD_LETTER_HEADER_VALUE`. -/
def deadLetterHeaderValue : String := "v1"

/-- `u8::to_ascii_lowercase`. -/
def toAsciiLowercase (byte : UInt8) : UInt8 :=
  if 0x41 ≤ byte ∧ byte ≤ 0x5A then byte + 0x20 else byte

/-- `str::eq_ignore_ascii_case`. -/
def eqIgnoreAsciiCase (a b : String) : Bool :=
  (asBytes a).map toAsciiLowercase == (asBytes b).map toAsciiLowercase

def isReservedHeader (key : String) : Bool := eqIgnoreAsciiCase key deadLetterHeader

/-- `is_ascii_alphanumeric`, or one of `-`, `_` and `.`. -/
def isHeaderByte (byte : UInt8) : Bool :=
  (0x30 ≤ byte && byte ≤ 0x39) || (0x41 ≤ byte && byte ≤ 0x5A) || (0x61 ≤ byte && byte ≤ 0x7A) ||
    byte == 0x2D || byte == 0x5F || byte == 0x2E

/-- An empty key, a key with another character, or a control character in the value. -/
def isInvalidHeader (key value : String) : Bool :=
  (asBytes key).isEmpty || !(asBytes key).all isHeaderByte ||
    value.toList.any fun c => isUnicodeControl c.val

/-- `header(DEAD_LETTER_HEADER) == Some(DEAD_LETTER_HEADER_VALUE)` -/
def isMarked (headers : Headers) : Bool :=
  headers.lookup deadLetterHeader == some deadLetterHeaderValue

/-! ## Envelopes -/

/-- What `catch_unwind` returns. -/
abbrev CatchUnwind (R : Type) := Except PanicPayload R

/-- A codec of the user. It may panic; an error is kept as its text. -/
structure EventCodec (P : Type) where
  encode : P → CatchUnwind (Except String (List UInt8))
  contentType : CatchUnwind String
  schemaId : CatchUnwind (Option String)

structure Topic (P : Type) where
  name : String
  codec : Option (EventCodec P)

/-- A shared payload (`Arc<T>`): its value, and what a provider sees of it. -/
structure SharedPayload (P : Type) where
  value : P
  native : NativePayload

structure EventEnvelope (P : Type) where
  id : EventId
  topic : Topic P
  payload : SharedPayload P
  headers : Headers
  orderingKey : Option String
  timestamp : Nat
  delay : Option Nat

namespace EventEnvelope

variable {P : Type}

/-- `with_id_and_shared_payload` (and `with_id`, whose payload is moved into a new `Arc`), with the
time at which it is called. The other constructors pass a generated id. -/
def withIdAndSharedPayload (topic : Topic P) (payload : SharedPayload P) (id : EventId)
    (now : Nat) : EventEnvelope P where
  id := id
  topic := topic
  payload := payload
  headers := ∅
  orderingKey := none
  timestamp := now
  delay := none

def reservedHeaderError : ConfigurationError :=
  .invalidField "event_header" "the dead-letter header is reserved for facade use"

/-- `set_header`: the previous value. An error leaves the envelope unchanged. -/
def setHeader (envelope : EventEnvelope P) (key value : String) :
    Except ConfigurationError (Option String) × EventEnvelope P :=
  if isReservedHeader key then (.error reservedHeaderError, envelope)
  else if isInvalidHeader key value then
    (.error (.invalidField "event_header" "invalid key or control character in value"), envelope)
  else
    (.ok (envelope.headers.lookup key),
      { envelope with headers := envelope.headers.insert key value })

/-- `remove_header`. -/
def removeHeader (envelope : EventEnvelope P) (key : String) :
    Except ConfigurationError (Option String) × EventEnvelope P :=
  if isReservedHeader key then (.error reservedHeaderError, envelope)
  else
    (.ok (envelope.headers.lookup key), { envelope with headers := envelope.headers.erase key })

end EventEnvelope

/-! ## Metadata -/

/-- The headers as a global interceptor sees them. -/
structure PublishMetadata where
  headers : Headers

namespace PublishMetadata

/-- `set_header`. -/
def setHeader (metadata : PublishMetadata) (key value : String) :
    Except ConfigurationError Unit × PublishMetadata :=
  if isReservedHeader key || isInvalidHeader key value then
    (.error (.invalidField "header" "header key or value is invalid or reserved"), metadata)
  else (.ok (), ⟨metadata.headers.insert key value⟩)

/-- `remove_header`: the reserved header counts as absent. -/
def removeHeader (metadata : PublishMetadata) (key : String) : Option String × PublishMetadata :=
  if isReservedHeader key then (none, metadata)
  else (metadata.headers.lookup key, ⟨metadata.headers.erase key⟩)

end PublishMetadata

/-! ## Requests -/

/-- A typed interceptor: another envelope, `None` to drop the event, an error or a panic. -/
abbrev PublisherInterceptor (P : Type) :=
  EventEnvelope P → CatchUnwind (Except PublishError (Option (EventEnvelope P)))

/-- The options of a request: those of the provider calls, and what prepares the message. -/
structure RequestOptions (P C : Type) extends PublishOptions C where
  /-- Whether there is a retry cancellation token. -/
  retryCancellationToken : Bool
  nativePayloadWeight : Option (P → CatchUnwind ℕ+)
  interceptors : List (PublisherInterceptor P)

/-- `validate_retry_configuration`. -/
def RequestOptions.validRetryConfiguration {P C : Type} (options : RequestOptions P C) : Bool :=
  !(options.retryPolicy.isNone && (options.retryRule.isSome || options.retryCancellationToken))

structure PublishRequest (P C : Type) where
  envelope : EventEnvelope P
  options : RequestOptions P C

inductive PublishRequestBuildError where
  | eventIdGeneration (source : String)
  | missingField (field : String)
  | invalidHeader (key : String)
  | invalidOrderingKey
  | invalidRetryConfiguration
deriving DecidableEq, Repr

structure PublishRequestBuilder (P C : Type) where
  topic : Option (Topic P)
  payload : Option (SharedPayload P)
  eventId : Option EventId
  headers : Headers
  orderingKey : Option String
  timestamp : Option Nat
  delay : Option Nat
  options : RequestOptions P C

namespace PublishRequestBuilder

variable {P C : Type}

/-- The first header, in the order of the keys, that `build` refuses. -/
def invalidHeader (builder : PublishRequestBuilder P C) : Option String :=
  (builder.headers.keys.sort (· ≤ ·)).find? fun key =>
    isReservedHeader key || isInvalidHeader key ((builder.headers.lookup key).getD "")

/-- `build_with_event_id_generator`, with what the generator returns if it is called and the time at
which the envelope is made. -/
def build (builder : PublishRequestBuilder P C) (generated : Except String EventId) (now : Nat) :
    Except PublishRequestBuildError (PublishRequest P C) := do
  let some topic := builder.topic | throw (.missingField "topic")
  let some payload := builder.payload | throw (.missingField "payload")
  if let some key := builder.invalidHeader then
    throw (.invalidHeader key)
  if builder.orderingKey.any fun key => !nonblankWithoutControls key then
    throw .invalidOrderingKey
  if !builder.options.validRetryConfiguration then
    throw .invalidRetryConfiguration
  let id ← match builder.eventId with
    | some id => pure id
    | none => generated.mapError .eventIdGeneration
  let envelope := EventEnvelope.withIdAndSharedPayload topic payload id now
  return {
    envelope := { envelope with
      headers := builder.headers
      orderingKey := builder.orderingKey
      timestamp := builder.timestamp.getD now
      delay := builder.delay }
    options := builder.options }

end PublishRequestBuilder

/-! ## What the operations do to the reserved header -/

/-- The same value under every spelling of the reserved name. -/
def SameReserved (headers headers' : Headers) : Prop :=
  ∀ key, isReservedHeader key = true → headers'.lookup key = headers.lookup key

/-- No spelling of the reserved name. -/
def Clean (headers : Headers) : Prop :=
  ∀ key, isReservedHeader key = true → headers.lookup key = none

theorem isReservedHeader_deadLetterHeader : isReservedHeader deadLetterHeader = true :=
  beq_self_eq_true _

theorem SameReserved.refl (headers : Headers) : SameReserved headers headers := fun _ _ => rfl

theorem SameReserved.trans {h₁ h₂ h₃ : Headers} (h : SameReserved h₁ h₂) (h' : SameReserved h₂ h₃) :
    SameReserved h₁ h₃ := fun key hkey => (h' key hkey).trans (h key hkey)

theorem SameReserved.clean (h : SameReserved headers headers') (hclean : Clean headers) :
    Clean headers' := fun key hkey => (h key hkey).trans (hclean key hkey)

/-- The mark is one of the spellings. -/
theorem SameReserved.isMarked (h : SameReserved headers headers') :
    isMarked headers' = isMarked headers := by
  unfold Publish.isMarked
  rw [h deadLetterHeader isReservedHeader_deadLetterHeader]

theorem Clean.not_isMarked (h : Clean headers) : isMarked headers = false := by
  unfold isMarked
  rw [h deadLetterHeader isReservedHeader_deadLetterHeader]
  rfl

theorem sameReserved_insert (hkey : ¬ isReservedHeader key = true) (headers : Headers)
    (value : String) : SameReserved headers (headers.insert key value) := by
  intro other hother
  rw [Map.lookup_insert_eq, if_neg]
  rintro rfl
  exact hkey hother

theorem sameReserved_erase (hkey : ¬ isReservedHeader key = true) (headers : Headers) :
    SameReserved headers (headers.erase key) := by
  intro other hother
  rw [Map.lookup_erase_eq, if_neg]
  rintro rfl
  exact hkey hother

namespace EventEnvelope

variable {P : Type} (envelope : EventEnvelope P) (key value : String)

theorem setHeader_sameReserved :
    SameReserved envelope.headers (envelope.setHeader key value).2.headers := by
  unfold setHeader
  split
  · exact .refl _
  split
  · exact .refl _
  · exact sameReserved_insert ‹_› _ _

theorem removeHeader_sameReserved :
    SameReserved envelope.headers (envelope.removeHeader key).2.headers := by
  unfold removeHeader
  split
  · exact .refl _
  · exact sameReserved_erase ‹_› _

end EventEnvelope

namespace PublishMetadata

variable (metadata : PublishMetadata) (key value : String)

theorem setHeader_sameReserved :
    SameReserved metadata.headers (metadata.setHeader key value).2.headers := by
  unfold setHeader
  split
  · exact .refl _
  · next h =>
    rw [Bool.or_eq_true, not_or] at h
    exact sameReserved_insert h.1 _ _

theorem removeHeader_sameReserved :
    SameReserved metadata.headers (metadata.removeHeader key).2.headers := by
  unfold removeHeader
  split
  · exact .refl _
  · exact sameReserved_erase ‹_› _

end PublishMetadata

/-! ## Envelopes a caller can make -/

/-- What the editing operations make of the envelopes in `source`. A clone is the same envelope; an
operation that fails changes nothing. -/
inductive Obtained {P : Type} (source : EventEnvelope P → Prop) : EventEnvelope P → Prop
  | source {envelope : EventEnvelope P} (h : source envelope) : Obtained source envelope
  | setHeader {envelope : EventEnvelope P} (key value : String) (h : Obtained source envelope) :
      Obtained source (envelope.setHeader key value).2
  | removeHeader {envelope : EventEnvelope P} (key : String) (h : Obtained source envelope) :
      Obtained source (envelope.removeHeader key).2

/-- What the constructors and the request builder make. -/
inductive Constructed {P : Type} (C : Type) : EventEnvelope P → Prop
  | constructor (topic : Topic P) (payload : SharedPayload P) (id : EventId) (now : Nat) :
      Constructed C (.withIdAndSharedPayload topic payload id now)
  | builder {builder : PublishRequestBuilder P C} {generated : Except String EventId} {now : Nat}
      {request : PublishRequest P C} (h : builder.build generated now = .ok request) :
      Constructed C request.envelope

/-- An envelope built by the public operations only. -/
def Built {P : Type} (C : Type) : EventEnvelope P → Prop := Obtained (Constructed C)

/-- The editing operations keep what the source has under any spelling of the reserved name. -/
theorem Obtained.sameReserved {P : Type} {source : EventEnvelope P → Prop}
    {envelope : EventEnvelope P} (h : Obtained source envelope) :
    ∃ e, source e ∧ SameReserved e.headers envelope.headers := by
  induction h with
  | source h => exact ⟨_, h, .refl _⟩
  | setHeader key value _ ih =>
    obtain ⟨e, hsource, hsame⟩ := ih
    exact ⟨e, hsource, hsame.trans (EventEnvelope.setHeader_sameReserved _ key value)⟩
  | removeHeader key _ ih =>
    obtain ⟨e, hsource, hsame⟩ := ih
    exact ⟨e, hsource, hsame.trans (EventEnvelope.removeHeader_sameReserved _ key)⟩

section
variable {generated : Except String EventId} {now : Nat} {P C : Type}
  {builder : PublishRequestBuilder P C} {request : PublishRequest P C} {envelope : EventEnvelope P}

theorem PublishRequestBuilder.build_headers (h : builder.build generated now = .ok request) :
    builder.invalidHeader = none ∧ request.envelope.headers = builder.headers := by
  unfold build at h
  rcases ht : builder.topic with _ | topic <;> simp only [ht] at h
  · cases h
  rcases hp : builder.payload with _ | payload <;> simp only [hp] at h
  · cases h
  rcases hh : builder.invalidHeader with _ | key <;> simp only [hh] at h
  swap
  · cases h
  refine ⟨rfl, ?_⟩
  split at h
  · cases h
  split at h
  · cases h
  rcases hid : builder.eventId with _ | id <;> simp only [hid] at h
  · rcases hg : generated with error | id <;> simp only [hg] at h
    · cases h
    · cases h
      rfl
  · cases h
    rfl

/-- The builder accepts no spelling of the reserved name. -/
theorem PublishRequestBuilder.clean_of_build (h : builder.build generated now = .ok request) :
    Clean request.envelope.headers := by
  obtain ⟨hvalid, hheaders⟩ := build_headers h
  rw [hheaders]
  intro key hkey
  apply Finmap.lookup_eq_none.2
  intro hmem
  have hlisted : key ∈ builder.headers.keys.sort (· ≤ ·) := by
    rw [Finset.mem_sort]
    exact Finmap.mem_keys.2 hmem
  have := List.find?_eq_none.1 hvalid key hlisted
  simp [hkey] at this

theorem Constructed.clean (h : Constructed C envelope) : Clean envelope.headers := by
  cases h with
  | constructor => exact fun _ _ => Finmap.lookup_empty _
  | builder h => exact PublishRequestBuilder.clean_of_build h

theorem Built.clean (h : Built C envelope) : Clean envelope.headers := by
  obtain ⟨e, he, hsame⟩ := h.sameReserved
  exact hsame.clean he.clean

end

end EventBus.Publish
