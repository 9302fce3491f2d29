import EventBus.Local.AsyncProvider

/-!
# What the providers do to the store

Whatever a thread of either provider does, to the store it is one of a few things (`StoreEffect`),
and what is seen of the step tells which. A queue gets a delivery only in a step that is seen to
accept one (`StoreEffect.heldAt`); this is all the shutdown and the idle wait rest on. The sections
are shown here to have such effects and to keep the accounts.
-/

namespace EventBus.Local

open Lib

variable {queue : LocalQueue} {q : QueueRef} {s : Store}

/-! ## Effects -/

namespace Store

/-- The deliveries that the queue `q` holds. -/
def heldAt (s : Store) (q : QueueRef) : Multiset LocalEvent := (s.queues[q]?).elim 0 (·.state.held)

theorem heldAt_eq (h : s.queues[q]? = some queue) : s.heldAt q = queue.state.held := by
  simp [heldAt, h]

theorem heldAt_unlock (h : s.queues[q]? = some queue) (l : Locked) (p : QueueRef) :
    (s.unlock q queue l).heldAt p = if p = q then l.state.held else s.heldAt p := by
  unfold heldAt unlock
  by_cases hp : p = q
  · subst hp
    simp [(List.getElem?_eq_some_iff.1 h).1]
  · simp [List.getElem?_set_ne (Ne.symm hp), hp]

theorem heldAt_subscribe (s : Store) (id : Id) (topic : TopicAddress) (subscriberId : SubscriberId)
    (capacity : Nat) (q : QueueRef) :
    (s.subscribe id topic subscriberId capacity).heldAt q = s.heldAt q := by
  unfold heldAt subscribe
  rcases Nat.lt_trichotomy q s.queues.length with h | h | h
  · simp [List.getElem?_append_left h]
  · subst h
    simp only [List.getElem?_concat_length, Option.elim_some,
      List.getElem?_eq_none (Nat.le_refl s.queues.length), Option.elim_none]
    rfl
  · rw [List.getElem?_eq_none (by simp; omega), List.getElem?_eq_none (by omega)]

/-- A section that leaves the queue as it was. -/
theorem unlock_same (h : s.queues[q]? = some queue) (outstanding : OutstandingBudget) :
    s.unlock q queue { s.lock queue with outstanding } = { s with outstanding } := by
  unfold unlock lock
  obtain ⟨hlt, rfl⟩ := List.getElem?_eq_some_iff.1 h
  congr 1
  exact List.set_getElem_self hlt

end Store

/-- The events that are seen to be admitted to `q`. -/
def admitted (q : QueueRef) (notes : List ProviderNote) : Multiset LocalEvent :=
  (notes.filterMap fun
    | .accepted p event => if p = q then some event else none
    | _ => none : List LocalEvent)

@[simp] theorem admitted_nil (q : QueueRef) : admitted q [] = 0 := rfl

theorem admitted_append (q : QueueRef) (notes notes' : List ProviderNote) :
    admitted q (notes ++ notes') = admitted q notes + admitted q notes' := by
  unfold admitted
  rw [List.filterMap_append, Multiset.coe_add]

theorem admitted_accepted (p q : QueueRef) (event : LocalEvent) :
    admitted q [.accepted p event] = if p = q then {event} else 0 := by
  unfold admitted
  split <;> rename_i h <;> simp [h]

/-- What a step of a thread does to the store, and what is seen of it. -/
inductive StoreEffect (s : Store) : List ProviderNote → Store → Prop where
  | quiet {notes : List ProviderNote} : (∀ n ∈ notes, n = .routed ∨ n = .closing) →
    StoreEffect s notes s
  | idle {q : QueueRef} : s.heldAt q = 0 → StoreEffect s [.idle q] s
  | subscribed {id : Id} {topic : TopicAddress} {subscriberId : SubscriberId} {capacity : Nat} :
    StoreEffect s [] (s.subscribe id topic subscriberId capacity)
  | foreign {address : Nat} {disposition : DeliveryDisposition} :
    StoreEffect s [] (s.settleForeign address disposition)
  /-- One counter of rejections goes up, and nothing else changes. -/
  | rejected {q : QueueRef} {kind : AdmissionRejectionKind} :
    StoreEffect s [.rejected q kind] { s with outstanding := s.outstanding.reject kind }
  | accepted {q : QueueRef} {queue : LocalQueue} {event : LocalEvent} {l : Locked} :
    s.queues[q]? = some queue → l.state.held = event ::ₘ queue.state.held →
    StoreEffect s [.accepted q event] (s.unlock q queue l)
  /-- A receiver moves deliveries within its queue or gives some back. -/
  | moved {q : QueueRef} {queue : LocalQueue} {l : Locked} :
    s.queues[q]? = some queue → l.state.held ≤ queue.state.held →
    StoreEffect s [] (s.unlock q queue l)
  /-- A shutdown takes all that a queue holds. -/
  | discarded {mode : ShutdownMode} {q : QueueRef} {queue : LocalQueue} {l : Locked} :
    s.queues[q]? = some queue → l.state.held = 0 →
    StoreEffect s [.discarded mode q queue.state.held] (s.unlock q queue l)

theorem StoreEffect.refl (s : Store) : StoreEffect s [] s := .quiet fun _ h => nomatch h

/-- A queue holds what it held or less, and what it is seen to be given. -/
theorem StoreEffect.heldAt {s' : Store} {notes : List ProviderNote} (h : StoreEffect s notes s')
    (q : QueueRef) : s'.heldAt q ≤ s.heldAt q + admitted q notes := by
  cases h with
  | quiet | idle | rejected => exact Multiset.le_add_right _ _
  | subscribed =>
    rw [Store.heldAt_subscribe]
    exact Multiset.le_add_right _ _
  | @foreign address disposition =>
    unfold Store.heldAt
    rw [(settleForeign_queues s address disposition).1]
    exact Multiset.le_add_right _ _
  | @accepted p queue event l hp hheld =>
    rw [Store.heldAt_unlock hp, admitted_accepted]
    by_cases hq : q = p
    · subst hq
      rw [if_pos rfl, if_pos rfl, Store.heldAt_eq hp, hheld, add_comm, Multiset.singleton_add]
    · rw [if_neg hq]
      exact Multiset.le_add_right _ _
  | @moved p queue l hp hheld =>
    rw [Store.heldAt_unlock hp]
    split
    · subst_vars
      rw [Store.heldAt_eq hp]
      exact le_trans hheld (Multiset.le_add_right _ _)
    · exact Multiset.le_add_right _ _
  | @discarded mode p queue l hp hheld =>
    rw [Store.heldAt_unlock hp]
    split
    · rw [hheld]
      exact Multiset.zero_le _
    · exact Multiset.le_add_right _ _

/-! ## The sections -/

section
variable {maxCount : Nat} {maxWeight : Option ℕ+}

/-- A section that keeps every frame keeps the accounts. -/
theorem Accounted.keeps {R : Type} {result : Option (R × Locked)} {P : R → Locked → Prop}
    (h : Accounted maxCount maxWeight s) (hq : s.queues[q]? = some queue)
    (hbody : ∀ f : Frame, f.capacity = queue.capacity → f.maxWeight = maxWeight →
      Fits f (s.lock queue) → ∃ r l, result = some (r, l) ∧ Fits f l ∧ P r l) :
    ∃ r l, result = some (r, l) ∧ P r l ∧ Accounted maxCount maxWeight (s.unlock q queue l) := by
  obtain ⟨f, hcap, hmax, hf, hback⟩ := h.frame hq
  obtain ⟨r, l, heq, hl, hp⟩ := hbody f hcap hmax hf
  exact ⟨r, l, heq, hp, hback l hl⟩

theorem Accounted.publishTo (h : Accounted maxCount maxWeight s) (hq : s.queues[q]? = some queue)
    {event : LocalEvent} (hw : maxWeight = none → event.weightBytes = 0) (m : Moment) :
    ∃ rejection l, publishTo queue event m (s.lock queue) = some (rejection, l) ∧
      StoreEffect s [admissionNote q event rejection] (s.unlock q queue l) ∧
      Accounted maxCount maxWeight (s.unlock q queue l) := by
  refine h.keeps hq fun f hcap hmax hf => ?_
  obtain ⟨kind, reason, heq⟩ | ⟨state, outstanding, heq, hput, hf'⟩ :=
    publishTo_spec hf hcap.symm (hmax ▸ hw) m
  · refine ⟨_, _, heq, hf.reject kind, ?_⟩
    have hsame := Store.unlock_same hq (s.outstanding.reject kind)
    show StoreEffect s [.rejected q kind] (s.unlock q queue { s.lock queue with
      outstanding := s.outstanding.reject kind })
    rw [hsame]
    exact .rejected
  · exact ⟨_, _, heq, hf', .accepted hq (hput.held_added hf.queue.balanced.tallied (.inl rfl))⟩

theorem Accounted.receive (h : Accounted maxCount maxWeight s) (hq : s.queues[q]? = some queue)
    (resource : LocalQueue → LocalEvent → TopicAddress) (m again : Moment) (waits : Option Nat) :
    ∃ received l, receive queue resource m again waits (s.lock queue) = some (received, l) ∧
      StoreEffect s [] (s.unlock q queue l) ∧
      Accounted maxCount maxWeight (s.unlock q queue l) := by
  refine h.keeps hq fun f _ _ hf => ?_
  obtain ⟨r, l, heq, hr⟩ := receive_spec hf.queue.balanced resource m again waits
  exact ⟨r, l, heq, hr.fits hf, .moved hq (le_of_eq (hr.held hf.queue))⟩

theorem SettleStep.held {token : SettlementToken} {disposition : DeliveryDisposition}
    {r : Except SpiError Unit} {l l' : Locked} (h : SettleStep queue token disposition l r l')
    (hb : l.state.Balanced) : l'.state.held ≤ l.state.held := by
  cases h with
  | refused | repeated => exact le_rfl
  | first hs hsettled =>
    obtain ⟨-, heq⟩ | ⟨-, heq⟩ := hsettled.held hs.inFlight hb
    · exact le_of_eq heq
    · rw [heq]
      exact Multiset.le_cons_self _ _

theorem Accounted.settle (h : Accounted maxCount maxWeight s) (hq : s.queues[q]? = some queue)
    (token : SettlementToken) (disposition : DeliveryDisposition) (m : Moment) :
    ∃ result l, settle queue token disposition m (s.lock queue) = some (result, l) ∧
      StoreEffect s [] (s.unlock q queue l) ∧
      Accounted maxCount maxWeight (s.unlock q queue l) := by
  refine h.keeps hq fun f _ _ hf => ?_
  obtain ⟨r, l, heq, hr⟩ := settle_spec hf token disposition m
  exact ⟨r, l, heq, hr.fits hf, .moved hq (hr.held hf.queue.balanced)⟩

/-- Closing discards what the queue held. -/
theorem Accounted.close (h : Accounted maxCount maxWeight s) (hq : s.queues[q]? = some queue)
    (once : Bool) :
    ∃ events l, close once (s.lock queue) = some (events, l) ∧
      (events = queue.state.held ∧ l.state.held = 0) ∧
      Accounted maxCount maxWeight (s.unlock q queue l) := by
  refine h.keeps hq fun f _ _ hf => ?_
  obtain ⟨events, l, heq, hr⟩ := close_spec hf once
  exact ⟨events, l, heq, hr.fits hf, hr.held hf.queue⟩

/-- A queue is found idle if and only if it holds nothing. -/
theorem Accounted.isBusy (h : Accounted maxCount maxWeight s) (hq : s.queues[q]? = some queue) :
    queue.state.isBusy = false ↔ s.heldAt q = 0 := by
  have hcard := (h.queues queue (List.mem_of_getElem? hq)).balanced.tallied.card_held
  rw [Store.heldAt_eq hq, ← Multiset.card_eq_zero, ← hcard]
  simp [LocalQueueState.isBusy, LocalQueueState.isPendingEmpty]

end

end EventBus.Local
