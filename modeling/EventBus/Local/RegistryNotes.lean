import EventBus.Local.ProviderSteps
import EventBus.Local.Shown

/-!
# What is seen of the registry

A second observer of both providers. It sees which queues are registered and for what, the live
subscriptions a publisher finds and the order in which it comes to them, what it places in which
queue, and when a topic has lost all its subscriptions (`RegistryNote`).

`Shown` says what a step does to the directory that the registry shows, in step with what is seen of
it.
-/

namespace EventBus.Local

open Lib

inductive RegistryNote where
  /-- None of the subscriptions these topics had before the step is left. -/
  | vacated (topics : Finset TopicAddress)
  | registered (q : QueueRef) (request : SpiSubscriptionRequest)
  /-- A publisher has found these live subscriptions, and will come to the queues in this order. -/
  | routed (topic : TopicAddress) (live : List (Id × QueueRef)) (queues : List QueueRef)
  /-- A publisher has come to a queue, and has placed its event there or not. -/
  | attempted (q : QueueRef) (placed : Option LocalEvent)

/-- A publisher on its way. -/
structure Itinerary where
  topic : TopicAddress
  event : LocalEvent
  queues : List QueueRef
  admissions : List DestinationAdmission

/-- What of a provider takes part in this: `S` is its shared state, `C` its calls, and `B` its
registry. -/
structure RegistryView (S C B : Type) extends View S C B where
  topics : S → Finset TopicAddress
  members : S → TopicAddress → List (Id × QueueRef)
  live : S → QueueRef → Bool
  asks : C → Option SpiSubscriptionRequest
  publishes : C → Option OutboundMessage
  admits : C → Option Itinerary
  /-- The call closes a receiver of this queue. -/
  closes : C → Option QueueRef
  /-- The registry shows the directory. -/
  shows : S → Directory → Prop
  /-- What a call of the thread knows while it holds the lock of the registry. -/
  own : S → Nat → C → Prop

/-- The id and the topic of a queue. -/
def Store.filed (s : Store) (q : QueueRef) : Option (Id × TopicAddress) :=
  (s.queues[q]?).map fun queue => (queue.id, queue.topic)

theorem Store.filed_unlock {s : Store} {q : QueueRef} {queue : LocalQueue}
    (h : s.queues[q]? = some queue) (l : Locked) (p : QueueRef) :
    (s.unlock q queue l).filed p = s.filed p := by
  unfold filed unlock
  by_cases hp : p = q
  · subst hp
    obtain ⟨hlt, rfl⟩ := List.getElem?_eq_some_iff.1 h
    simp [hlt]
  · simp [List.getElem?_set_ne (Ne.symm hp)]

/-- A queue keeps its id and its topic, and no queue goes away. -/
theorem StoreEffect.filed {s s' : Store} {notes : List ProviderNote} (h : StoreEffect s notes s')
    {q : QueueRef} {place : Id × TopicAddress} (hq : s.filed q = some place) :
    s'.filed q = some place := by
  cases h with
  | quiet | idle | rejected => exact hq
  | subscribed =>
    unfold Store.filed Store.subscribe at *
    obtain ⟨queue, hqueue, rfl⟩ := Option.map_eq_some_iff.1 hq
    rw [List.getElem?_append_left (List.getElem?_eq_some_iff.1 hqueue).1, hqueue]
    rfl
  | @foreign address disposition =>
    unfold Store.filed at *
    rwa [(settleForeign_queues s address disposition).1]
  | accepted hp _ | moved hp _ | discarded hp _ => rwa [Store.filed_unlock hp]

def attempt : ProviderNote → Option RegistryNote
  | .accepted q event => some (.attempted q (some event))
  | .rejected q _ => some (.attempted q none)
  | _ => none

theorem attempt_admissionNote (q : QueueRef) (event : LocalEvent)
    (rejection : Option (AdmissionRejectionKind × String)) :
    attempt (admissionNote q event rejection) =
      some (.attempted q (if rejection.isNone then some event else none)) := by
  cases rejection <;> rfl

namespace RegistryView

variable {S C B : Type} (v : RegistryView S C B)

/-- The topics none of whose subscriptions is left. -/
def vacated (s s' : S) : Finset TopicAddress :=
  (v.topics s).filter fun topic => ∀ e ∈ v.members s topic, e ∉ v.members s' topic

def registration (c : C) (t : Thread C Response) : List RegistryNote :=
  match v.asks c, t with
  | some request, .returned (.subscribed (.ok q)) => [.registered q request]
  | _, _ => []

def routing (s : S) (c : C) (t : Thread C Response) : List RegistryNote :=
  match v.publishes c, t with
  | some message, .running c' =>
    match v.admits c' with
    | some admission => [.routed message.topic
        ((v.members s message.topic).filter fun e => v.live s e.2) admission.queues]
    | none => []
  | _, _ => []

/-- What the observer sees of a step. -/
def sees (s : S) (c : C) (s' : S) (t : Thread C Response) (notes : List ProviderNote) :
    List RegistryNote :=
  .vacated (v.vacated s s') :: (v.registration c t ++ v.routing s c t ++ notes.filterMap attempt)

theorem registration_running (c c' : C) : v.registration c (.running c') = [] := by
  unfold registration
  split
  · rename_i heq
    cases heq
  · rfl

theorem registration_of_asks {c : C} (h : v.asks c = none) (t : Thread C Response) :
    v.registration c t = [] := by
  unfold registration
  rw [h]

end RegistryView

/-! ## Steps -/

section
variable {S C B : Type}

/-- The thread is not on its way to destinations, and has not been. -/
def Aside (v : RegistryView S C B) (c : C) (t : Thread C Response) : Prop :=
  v.admits c = none ∧ (∀ c', t = .running c' → v.admits c' = none) ∧
    ∀ acknowledgement, t ≠ .returned (.published (.ok acknowledgement))

/-- What a step does to the directory. -/
inductive Shown (v : RegistryView S C B) (s : S) (c : C) (d : Directory) (s' : S) :
    Thread C Response → List ProviderNote → Directory → Prop where
  /-- Members may leave; a close takes only its own queue. -/
  | aside {t : Thread C Response} {notes : List ProviderNote} {d' : Directory} :
    d.Shrunk d' → Aside v c t → v.registration c t = [] → notes.filterMap attempt = [] →
    (∀ q, v.closes c = some q → ∀ topic, ∀ e ∈ d.members topic, e.2 ≠ q → e ∈ d'.members topic) →
    Shown v s c d s' t notes d'
  | stays : Shown v s c d s' (.running c) [] d
  | joins {request : SpiSubscriptionRequest} {d₁ : Directory}
    (hid : ¬ d₁.Has request.subscriptionId) :
    v.asks c = some request → v.admits c = none → v.closes c = none → d.Shrunk d₁ →
    (∀ r, d₁.ring request.topic = some r → r.payloadType = request.payloadTypeId) →
    (v.store s').filed (v.store s).queues.length = some (request.subscriptionId, request.topic) →
    Shown v s c d s' (.returned (.subscribed (.ok (v.store s).queues.length))) []
      (d₁.join request.topic request.subscriptionId (v.store s).queues.length request.payloadTypeId
        hid)
  /-- The live members of the topic become destinations. -/
  | routes {message : OutboundMessage} {c' : C} {event : LocalEvent} {notes : List ProviderNote}
    {d₁ : Directory} :
    v.publishes c = some message → v.asks c = none → v.admits c = none → v.closes c = none →
    v.admits c' = some ⟨message.topic, event, (d₁.order message.topic).map Prod.snd, []⟩ →
    d.Shrunk d₁ →
    (d₁.members message.topic = (d.members message.topic).filter fun e => v.live s e.2) →
    (∀ r, d₁.ring message.topic = some r → r.payloadType = event.payload.typeId) →
    notes.filterMap attempt = [] →
    Shown v s c d s' (.running c') notes (d₁.turn message.topic)
  | attempts {a : Itinerary} {c' : C} {q : QueueRef} {queues : List QueueRef} {queue : LocalQueue}
    {rejection : Option (AdmissionRejectionKind × String)} :
    v.admits c = some a → a.queues = q :: queues → v.closes c = none →
    (v.store s).queues[q]? = some queue →
    v.admits c' = some { a with
      queues, admissions := a.admissions ++ [destinationAdmission queue rejection] } →
    Shown v s c d s' (.running c') [admissionNote q a.event rejection] d
  /-- A queue of another topic. -/
  | skips {a : Itinerary} {c' : C} {q : QueueRef} {queues : List QueueRef} {queue : LocalQueue} :
    v.admits c = some a → a.queues = q :: queues → v.closes c = none →
    (v.store s).queues[q]? = some queue → queue.topic ≠ a.topic →
    v.admits c' = some { a with queues } →
    Shown v s c d s' (.running c') [] d
  | acknowledges {a : Itinerary} :
    v.admits c = some a → a.queues = [] → v.closes c = none →
    Shown v s c d s' (.returned (acknowledge a.admissions)) [] d

/-- The calls of a provider keep its registry in order. -/
structure Routed {Q X : Type} (m : Machine S Q C Response X ProviderNote) (v : RegistryView S C B) :
    Prop where
  members : ∀ s d topic, v.shows s d → v.members s topic = d.members topic
  topics : ∀ s d topic, v.shows s d → (topic ∈ v.topics s ↔ (d.ring topic).isSome)
  /-- A call is one thing at a time. -/
  admits : ∀ c a, v.admits c = some a → v.asks c = none ∧ v.publishes c = none
  enter : ∀ request, v.admits (m.enter request) = none ∧
    ∀ s i, v.own s i (m.enter request)
  step : ∀ s i c x d s' t notes, v.shows s d → v.own s i c →
    (∀ topic, ∀ e ∈ d.members topic, (v.store s).filed e.2 = some (e.1, topic)) →
    m.step s i c x = some (s', t, notes) →
    (∃ d', v.shows s' d' ∧ Shown v s c d s' t notes d') ∧ (∀ c', t = .running c' → v.own s' i c') ∧
      ∀ k c', k ≠ i → v.own s k c' → v.own s' k c'

end

end EventBus.Local
