import EventBus.Local.Capacity
import EventBus.Lib.Trace

/-!
# Runs of the sections

Both local providers touch queues, budget and settlement cells only in the sections of the store. A
run of the store is any sequence of them on any queues (`Store.step`), with new queues in between
and with cells of other providers, of which it is only assumed that a disposition is not changed
once it is there. `Accounted` is the invariant about the capacity: the budget has in use exactly
what the queues hold. Every section enters with the queue and the rest of the store as its frame and
gives it back (`Accounted.section_`).
-/

namespace EventBus.Local

open Lib

variable {maxWeight : Option ℕ+} {q : QueueRef} {s : Store} {maxCount : Nat}

/-! ## The invariant -/

/-- The budget counts what the queues hold, within all limits. -/
structure Accounted (maxCount : Nat) (maxWeight : Option ℕ+) (s : Store) : Prop where
  queues : ∀ queue ∈ s.queues, QueueOk queue.capacity maxWeight queue.state
  count : s.outstanding.state.countUsed = (s.queues.map (·.state.held.card)).sum
  weight : s.outstanding.state.weightUsed = (s.queues.map (·.state.heldWeight)).sum
  within : Within maxCount maxWeight s.outstanding

theorem sum_map_set {α : Type} (g : α → Nat) {l : List α} {i : Nat} {a : α} (h : l[i]? = some a)
    (b : α) : ((l.set i b).map g).sum + g a = (l.map g).sum + g b := by
  induction l generalizing i with
  | nil => cases h
  | cons x l ih =>
    cases i with
    | zero =>
      cases h
      simp only [List.set_cons_zero, List.map_cons, List.sum_cons]
      omega
    | succ i =>
      have := ih (i := i) h
      simp only [List.set_cons_succ, List.map_cons, List.sum_cons]
      omega

section
variable {queue : LocalQueue}

theorem Accounted.new (cells : List LocalSettlementState) :
    Accounted maxCount maxWeight (.new maxCount maxWeight cells) where
  queues _ h := nomatch h
  count := rfl
  weight := rfl
  within := ⟨rfl, rfl, Nat.zero_le _, fun _ _ => Nat.zero_le _, Nat.zero_le _⟩

theorem Accounted.subscribe (h : Accounted maxCount maxWeight s) (id : Id) (topic : TopicAddress)
    (subscriberId : SubscriberId) (capacity : Nat) :
    Accounted maxCount maxWeight (s.subscribe id topic subscriberId capacity) where
  queues queue hq := by
    obtain hq | hq := List.mem_append.1 hq
    · exact h.queues queue hq
    · cases List.mem_singleton.1 hq
      exact ⟨LocalQueueState.default_empty.balanced, (nomatch ·), Nat.zero_le _, fun _ => rfl,
        fun _ e he => absurd he (Multiset.notMem_zero e)⟩
  count := by
    simp only [Store.subscribe, List.map_append, List.sum_append, h.count]
    rfl
  weight := by
    simp only [Store.subscribe, List.map_append, List.sum_append, h.weight]
    rfl
  within := h.within

/-- Entering a queue: the rest of the store is a frame for the section, and what fits the frame
can be put back. -/
theorem Accounted.frame (h : Accounted maxCount maxWeight s) (hq : s.queues[q]? = some queue) :
    ∃ f : Frame, f.capacity = queue.capacity ∧ f.maxWeight = maxWeight ∧ Fits f (s.lock queue) ∧
      ∀ l', Fits f l' → Accounted maxCount maxWeight (s.unlock q queue l') := by
  have hmem := List.mem_of_getElem? hq
  have hcount := fun b => sum_map_set (fun x : LocalQueue => x.state.held.card) hq b
  have hweight := fun b => sum_map_set (fun x : LocalQueue => x.state.heldWeight) hq b
  have hle : queue.state.held.card ≤ (s.queues.map (·.state.held.card)).sum :=
    List.single_le_sum (fun _ _ => Nat.zero_le _) _ (List.mem_map_of_mem hmem)
  have hle' : queue.state.heldWeight ≤ (s.queues.map (·.state.heldWeight)).sum :=
    List.single_le_sum (fun _ _ => Nat.zero_le _) _ (List.mem_map_of_mem hmem)
  refine ⟨⟨queue.capacity, s.outstanding.state.countUsed - queue.state.held.card,
    s.outstanding.state.weightUsed - queue.state.heldWeight, maxCount, maxWeight⟩, rfl, rfl,
    ⟨h.queues queue hmem, ?_, ?_, h.within⟩, fun l' hf => ⟨fun x hx => ?_, ?_, ?_, hf.within⟩⟩
  · have := h.count
    simp only [Store.lock]
    omega
  · have := h.weight
    simp only [Store.lock]
    omega
  · obtain hx | rfl := List.mem_or_eq_of_mem_set hx
    · exact h.queues x hx
    · exact hf.queue
  · have h1 := h.count
    have h2 := hf.count
    have h3 := hcount { queue with state := l'.state }
    simp only [Store.unlock] at h2 h3 ⊢
    omega
  · have h1 := h.weight
    have h2 := hf.weight
    have h3 := hweight { queue with state := l'.state }
    simp only [Store.unlock] at h2 h3 ⊢
    omega

end

/-! ## Runs -/

/-- A section, a new queue, or what another provider does to a cell of its own. -/
inductive StoreOp where
  | subscribe (id : Id) (topic : TopicAddress) (subscriberId : SubscriberId) (capacity : Nat)
  | publishTo (q : QueueRef) (event : LocalEvent) (m : Moment)
  | receive (q : QueueRef) (resource : LocalQueue → LocalEvent → TopicAddress) (m again : Moment)
      (waits : Option Nat)
  | settle (q : QueueRef) (token : SettlementToken) (disposition : DeliveryDisposition) (m : Moment)
  | close (q : QueueRef) (once : Bool)
  | foreign (address : Nat) (disposition : DeliveryDisposition)

/-- The answers, with `none` for a queue that does not exist. -/
inductive StoreResponse where
  | done
  | admission (rejection : Option (Option (AdmissionRejectionKind × String)))
  | received (received : Option Received)
  | settled (result : Option (Except SpiError Unit))
  | closed (discarded : Option (Multiset LocalEvent))

/-- Without a weight limit, published events have been stripped of their weight. -/
def StoreOp.Weighed (maxWeight : Option ℕ+) : StoreOp → Prop
  | publishTo _ event _ => maxWeight = none → event.weightBytes = 0
  | _ => True

namespace Store

/-- Another provider settles a delivery of its own. -/
def settleForeign (s : Store) (address : Nat) (disposition : DeliveryDisposition) : Store :=
  match s.cells[address]? with
  | some ⟨tokenId, none⟩ => { s with cells := s.cells.set address ⟨tokenId, some disposition⟩ }
  | _ => s

/-- One step of a run. The cells below `foreign` belong to other providers. -/
def step (foreign : Nat) (s : Store) : StoreOp → Option (StoreResponse × Store)
  | .subscribe id topic subscriberId capacity =>
    some (.done, s.subscribe id topic subscriberId capacity)
  | .publishTo q event m =>
    (s.enter q fun queue => publishTo queue event m).map fun r => (.admission r.1, r.2)
  | .receive q resource m again waits =>
    (s.enter q fun queue => receive queue resource m again waits).map fun r => (.received r.1, r.2)
  | .settle q token disposition m =>
    (s.enter q fun queue => settle queue token disposition m).map fun r => (.settled r.1, r.2)
  | .close q once => (s.enter q fun _ => close once).map fun r => (.closed r.1, r.2)
  | .foreign address disposition =>
    if address < foreign then some (.done, s.settleForeign address disposition) else some (.done, s)

end Store

section
variable {foreign : Nat}

/-- What a section on a queue does, in all four cases. -/
inductive SectionStep (queue : LocalQueue) (l : Locked) :
    StoreOp → StoreResponse → Locked → Prop where
  | rejected {q : QueueRef} {event : LocalEvent} {m : Moment} {kind : AdmissionRejectionKind}
    {reason : String} : SectionStep queue l (.publishTo q event m)
      (.admission (some (some (kind, reason))))
      { l with outstanding := l.outstanding.reject kind }
  | accepted {q : QueueRef} {event : LocalEvent} {m : Moment} {state : LocalQueueState}
    {outstanding : OutstandingBudget} :
    l.state.Put event.orderingKey (l.state.events event.orderingKey ++ [event]) state →
    SectionStep queue l (.publishTo q event m) (.admission (some none))
      { l with state, outstanding }
  | received {q : QueueRef} {resource : LocalQueue → LocalEvent → TopicAddress} {m again : Moment}
    {waits : Option Nat} {r : Received} {l' : Locked} : ReceiveStep queue resource l r l' →
    SectionStep queue l (.receive q resource m again waits) (.received (some r)) l'
  | settled {q : QueueRef} {token : SettlementToken} {disposition : DeliveryDisposition}
    {m : Moment} {r : Except SpiError Unit} {l' : Locked} :
    SettleStep queue token disposition l r l' →
    SectionStep queue l (.settle q token disposition m) (.settled (some r)) l'
  | closed {q : QueueRef} {once : Bool} {discarded : Multiset LocalEvent} {l' : Locked} :
    CloseStep once l discarded l' →
    SectionStep queue l (.close q once) (.closed (some discarded)) l'

/-- The queue a section is on. -/
def StoreOp.queue : StoreOp → Option QueueRef
  | publishTo q _ _ | receive q _ _ _ _ | settle q _ _ _ | close q _ => some q
  | _ => none

/-- The answer if the queue does not exist. -/
def StoreOp.absent : StoreOp → StoreResponse
  | publishTo _ _ _ => .admission none
  | receive _ _ _ _ _ => .received none
  | settle _ _ _ _ => .settled none
  | close _ _ => .closed none
  | _ => .done

/-- What a step of the store can be. -/
inductive StoreStep (foreign : Nat) (s : Store) : StoreOp → StoreResponse → Store → Prop where
  | subscribed {id : Id} {topic : TopicAddress} {subscriberId : SubscriberId} {capacity : Nat} :
    StoreStep foreign s (.subscribe id topic subscriberId capacity) .done
      (s.subscribe id topic subscriberId capacity)
  | section_ {op : StoreOp} {r : StoreResponse} {q : QueueRef} {queue : LocalQueue} {l' : Locked} :
    op.queue = some q → s.queues[q]? = some queue → SectionStep queue (s.lock queue) op r l' →
    StoreStep foreign s op r (s.unlock q queue l')
  | absent {op : StoreOp} {q : QueueRef} : op.queue = some q → s.queues[q]? = none →
    StoreStep foreign s op op.absent s
  | foreign {address : Nat} {disposition : DeliveryDisposition} : address < foreign →
    StoreStep foreign s (.foreign address disposition) .done (s.settleForeign address disposition)
  | notForeign {address : Nat} {disposition : DeliveryDisposition} :
    StoreStep foreign s (.foreign address disposition) .done s

theorem settleForeign_queues (s : Store) (address : Nat) (disposition : DeliveryDisposition) :
    (s.settleForeign address disposition).queues = s.queues ∧
      (s.settleForeign address disposition).outstanding = s.outstanding := by
  unfold Store.settleForeign
  split <;> exact ⟨rfl, rfl⟩

theorem Accounted.settleForeign (h : Accounted maxCount maxWeight s) (address : Nat)
    (disposition : DeliveryDisposition) :
    Accounted maxCount maxWeight (s.settleForeign address disposition) := by
  obtain ⟨hqs, hb⟩ := settleForeign_queues s address disposition
  exact ⟨by rw [hqs]; exact h.queues, by rw [hqs, hb]; exact h.count,
    by rw [hqs, hb]; exact h.weight, by rw [hb]; exact h.within⟩

variable {op : StoreOp}

/-- A section that returns and keeps every frame is a step of the store that keeps the
invariant. -/
theorem Accounted.section_ {R : Type} {body : LocalQueue → Locked → Option (R × Locked)}
    {wrap : Option R → StoreResponse} (h : Accounted maxCount maxWeight s) (hop : op.queue = some q)
    (habsent : op.absent = wrap none)
    (hstep : s.step foreign op = (s.enter q body).map fun r => (wrap r.1, r.2))
    (hbody : ∀ queue f, f.capacity = queue.capacity → f.maxWeight = maxWeight →
      Fits f (s.lock queue) → ∃ r l', body queue (s.lock queue) = some (r, l') ∧ Fits f l' ∧
        SectionStep queue (s.lock queue) op (wrap (some r)) l') :
    ∃ r s', s.step foreign op = some (r, s') ∧ StoreStep foreign s op r s' ∧
      Accounted maxCount maxWeight s' := by
  rw [hstep]
  unfold Store.enter
  cases hq : s.queues[q]? with
  | none => exact ⟨_, _, rfl, habsent ▸ .absent hop hq, h⟩
  | some queue =>
    obtain ⟨f, hcap, hmax, hf, hback⟩ := h.frame hq
    obtain ⟨r, l', heq, hf', hsec⟩ := hbody queue f hcap hmax hf
    exact ⟨_, _, by simp only [heq, Option.map_some], .section_ hop hq hsec, hback l' hf'⟩

/-- Every step returns, is one of those above, and keeps the invariant. -/
theorem Accounted.step (h : Accounted maxCount maxWeight s) (foreign : Nat)
    (hop : op.Weighed maxWeight) :
    ∃ r s', s.step foreign op = some (r, s') ∧ StoreStep foreign s op r s' ∧
      Accounted maxCount maxWeight s' := by
  cases op with
  | subscribe id topic subscriberId capacity =>
    exact ⟨_, _, rfl, .subscribed, h.subscribe id topic subscriberId capacity⟩
  | publishTo q event m =>
    refine h.section_ rfl rfl rfl fun queue f hcap hmax hf => ?_
    obtain ⟨kind, reason, heq⟩ | ⟨state, outstanding, heq, hput, hf'⟩ :=
      publishTo_spec hf hcap.symm (hmax ▸ hop) m
    · exact ⟨_, _, heq, hf.reject kind, .rejected⟩
    · exact ⟨_, _, heq, hf', .accepted hput⟩
  | receive q resource m again waits =>
    refine h.section_ rfl rfl rfl fun queue f _ _ hf => ?_
    obtain ⟨r, l', heq, hr⟩ := receive_spec hf.queue.balanced resource m again waits
    exact ⟨r, l', heq, hr.fits hf, .received hr⟩
  | settle q token disposition m =>
    refine h.section_ rfl rfl rfl fun queue f _ _ hf => ?_
    obtain ⟨r, l', heq, hr⟩ := settle_spec hf token disposition m
    exact ⟨r, l', heq, hr.fits hf, .settled hr⟩
  | close q once =>
    refine h.section_ rfl rfl rfl fun queue f _ _ hf => ?_
    obtain ⟨r, l', heq, hr⟩ := close_spec hf once
    exact ⟨r, l', heq, hr.fits hf, .closed hr⟩
  | foreign address disposition =>
    by_cases hlt : address < foreign
    · exact ⟨_, _, if_pos hlt, .foreign hlt, h.settleForeign address disposition⟩
    · exact ⟨_, _, if_neg hlt, .notForeign, h⟩

end

end EventBus.Local
