import EventBus.Local.QueueCount
import EventBus.Local.Store

/-!
# Capacity under the lock of a queue

The budget counts what the queues hold, pending and in flight. A section on one queue must keep
that so without knowing the other queues: `Frame` is what it may rely on (its queue's capacity, what
the other queues have in use, the limits), and `Fits` that queue and budget agree with it. Every
section returns (`publishTo_spec`, `receive_spec`, `settle_spec`, `close_spec`) and keeps `Fits`.

That a delivery is not overwritten in `in_flight`, and so not lost to the budget, needs that token
ids are never used twice: they end in a sequence number, which can be read off again because it
contains no colon (`tokenId_inj`).
-/

namespace EventBus.Local

open Lib

variable {events : List LocalEvent} {s : LocalQueueState} {e : LocalEvent}

/-! ## Token ids -/

/-- What follows the last separator is determined. -/
theorem after_last_inj {α : Type} [DecidableEq α] {c : α} {a a' b b' : List α} (hb : c ∉ b)
    (hb' : c ∉ b') (h : a ++ c :: b = a' ++ c :: b') : b = b' := by
  have htake : ∀ (a b : List α), c ∉ b →
      (a ++ c :: b).reverse.takeWhile (fun x => decide (x ≠ c)) = b.reverse := by
    intro a b hb
    have hrev : (a ++ c :: b).reverse = b.reverse ++ c :: a.reverse := by simp
    rw [hrev, List.takeWhile_append_of_pos]
    · simp
    · intro x hx
      have hne : x ≠ c := fun hxc => hb (hxc ▸ List.mem_reverse.1 hx)
      simpa using hne
  have heq :=
    (htake a b hb).symm.trans ((congrArg _ (congrArg List.reverse h)).trans (htake a' b' hb'))
  exact List.reverse_injective heq

theorem colon_notMem_repr (n : Nat) : ':' ∉ n.repr.toList := by
  rw [Nat.repr_eq_ofList_toDigits, String.toList_ofList]
  intro hm
  have := Nat.isDigit_of_mem_toDigits (by omega) (by omega) hm
  exact absurd this (by decide)

/-- The sequence number of a token id is determined, whatever the event ids contain. -/
theorem tokenId_inj {e' : LocalEvent} {n n' : Nat} (h : tokenId e n = tokenId e' n') : n = n' := by
  have hlist := congrArg String.toList h
  simp only [tokenId, String.toList_append, List.append_assoc] at hlist
  have hrepr := after_last_inj (colon_notMem_repr n) (colon_notMem_repr n') hlist
  simp only [Nat.repr_eq_ofList_toDigits, String.toList_ofList] at hrepr
  rw [← Nat.ofDigitChars_ten_toDigits (n := n), hrepr, Nat.ofDigitChars_ten_toDigits]

/-! ## What a queue holds -/

namespace LocalQueueState

/-- The deliveries that count: pending and in flight. -/
def held (s : LocalQueueState) : Multiset LocalEvent := s.pendingEvents + s.inFlightEvents

def heldWeight (s : LocalQueueState) : Nat := (s.held.map LocalEvent.weightBytes).sum

section
variable {s' : LocalQueueState} {key : QueueKey}

theorem Tallied.card_held (ht : Tallied s) : s.pendingCount + s.inFlight.size = s.held.card := by
  have hsize : s.inFlight.size = s.inFlightEvents.card := by
    rw [Map.size_eq_total, inFlightEvents]
    exact (Map.map_total Multiset.cardHom
      (fun flight : LocalInFlight => ({flight.event} : Multiset LocalEvent)) s.inFlight).symm
  rw [held, Multiset.card_add, ht.pendingCount_eq, hsize]

theorem heldWeight_cons (h : s'.held = e ::ₘ s.held) :
    s'.heldWeight = e.weightBytes + s.heldWeight := by
  rw [heldWeight, h, Multiset.map_cons, Multiset.sum_cons, heldWeight]

theorem inFlightEvents_congr (h : s'.inFlight = s.inFlight) :
    s'.inFlightEvents = s.inFlightEvents := by
  rw [inFlightEvents, inFlightEvents, h]

theorem Same.held (h : Same s s') (ht : Tallied s) (ht' : Tallied s') : s'.held = s.held := by
  rw [LocalQueueState.held, LocalQueueState.held, h.pendingEvents ht ht',
    inFlightEvents_congr h.inFlight]

/-- One more pending event. -/
theorem Put.held_added (h : Put key events s s') (ht : Tallied s)
    (he : events = s.events key ++ [e] ∨ events = e :: s.events key) : s'.held = e ::ₘ s.held := by
  have hp := h.pendingEvents ht
  have hcoe : (events : Multiset LocalEvent) = e ::ₘ (s.events key : Multiset LocalEvent) := by
    obtain rfl | rfl := he
    · rw [← Multiset.coe_add, Multiset.coe_singleton, add_comm, Multiset.singleton_add]
    · rfl
  rw [hcoe, Multiset.add_cons, ← Multiset.cons_add] at hp
  rw [held, held, add_right_cancel hp, inFlightEvents_congr h.inFlight, Multiset.cons_add]

/-- A pending event leaves its lane. -/
theorem Put.pending_removed (h : Put key events s s') (ht : Tallied s)
    (he : s.events key = e :: events) : s.pendingEvents = e ::ₘ s'.pendingEvents := by
  have hp := h.pendingEvents ht
  rw [he, ← Multiset.cons_coe, Multiset.add_cons, ← Multiset.cons_add] at hp
  exact (add_right_cancel hp).symm

end

end LocalQueueState

/-! ## Queue and budget -/

/-- What a queue keeps to itself. -/
structure QueueOk (capacity : Nat) (maxWeight : Option ℕ+) (s : LocalQueueState) : Prop where
  balanced : s.Balanced
  tokens : ∀ {t flight}, s.inFlight.lookup t = some flight →
    ∃ n, n ≤ s.nextDeliveryToken ∧ t = tokenId flight.event n
  capacity : s.held.card ≤ capacity
  closed : s.closed = true → s.held = 0
  weightless : maxWeight = none → ∀ e ∈ s.held, e.weightBytes = 0

/-- The budget is within its limits. -/
structure Within (maxCount : Nat) (maxWeight : Option ℕ+) (b : OutstandingBudget) : Prop where
  maxCount_eq : b.maxCount = maxCount
  maxWeight_eq : b.maxWeight = maxWeight
  count : b.state.countUsed ≤ maxCount
  weight : ∀ limit, maxWeight = some limit → b.state.weightUsed ≤ limit.val
  word : b.state.weightUsed ≤ wordMax

/-- What a section may rely on: the capacity of its queue, what the other queues have in use,
and the limits of the budget. -/
structure Frame where
  capacity : Nat
  count : Nat
  weight : Nat
  maxCount : Nat
  maxWeight : Option ℕ+

structure Fits (f : Frame) (l : Locked) : Prop where
  queue : QueueOk f.capacity f.maxWeight l.state
  count : l.outstanding.state.countUsed = l.state.held.card + f.count
  weight : l.outstanding.state.weightUsed = l.state.heldWeight + f.weight
  within : Within f.maxCount f.maxWeight l.outstanding

section
variable {resource : LocalQueue → LocalEvent → TopicAddress} {cells : List LocalSettlementState}
  {discarded : Multiset LocalEvent} {token : SettlementToken} {r : Received} {once : Bool}
  {handle : LocalSettlementHandle} {cell : LocalSettlementState} {disposition : DeliveryDisposition}
  {delivery : LocalInFlight} {b : OutstandingBudget} {state : LocalQueueState} {l' : Locked}
  {w : Option ℕ+} {c : Nat} {f : Frame} {l : Locked} {queue : LocalQueue}

/-- A weight counts unless there is no limit, and is 0 then. -/
theorem Within.counted (hb : Within f.maxCount f.maxWeight b) {w : Nat}
    (hw : f.maxWeight = none → w = 0) : b.counted w = w := by
  unfold OutstandingBudget.counted OutstandingBudget.requiresWeight
  rw [hb.maxWeight_eq]
  cases hmax : f.maxWeight with
  | none => simp [hw hmax]
  | some limit => simp

theorem Within.reject (hb : Within f.maxCount f.maxWeight b) (kind : AdmissionRejectionKind) :
    Within f.maxCount f.maxWeight (b.reject kind) :=
  ⟨by simp [hb.maxCount_eq], by simp [hb.maxWeight_eq], by simpa using hb.count,
    by simpa using hb.weight, by simpa using hb.word⟩

/-- A rejection is no delivery. -/
theorem Fits.reject (hf : Fits f l) (kind : AdmissionRejectionKind) :
    Fits f { l with outstanding := l.outstanding.reject kind } :=
  ⟨hf.queue, by simpa using hf.count, by simpa using hf.weight, hf.within.reject kind⟩

/-- A change of the queue that moves its deliveries within the queue. -/
theorem Fits.move (hf : Fits f l) (hb : state.Balanced) (hheld : state.held = l.state.held)
    (hc : state.closed = l.state.closed) (ht : ∀ {t flight}, state.inFlight.lookup t = some flight →
      ∃ n, n ≤ state.nextDeliveryToken ∧ t = tokenId flight.event n) :
    Fits f { l with state, cells } where
  queue := ⟨hb, ht, by rw [hheld]; exact hf.queue.capacity,
    fun h => by rw [hheld]; exact hf.queue.closed (hc ▸ h),
    fun h => by rw [hheld]; exact hf.queue.weightless h⟩
  count := by rw [hheld]; exact hf.count
  weight := by
    rw [LocalQueueState.heldWeight, hheld]
    exact hf.weight
  within := hf.within

/-! ## Admission -/

/-- A destination that rejects counts the rejection and does nothing else; one that accepts
queues the event behind the others of its key. -/
theorem publishTo_spec (hf : Fits f l) (hcap : queue.capacity = f.capacity) {event : LocalEvent}
    (hev : f.maxWeight = none → event.weightBytes = 0) (m : Moment) :
    (∃ kind reason, publishTo queue event m l =
      some (some (kind, reason), { l with outstanding := l.outstanding.reject kind })) ∨
    ∃ state outstanding, publishTo queue event m l = some (none, { l with state, outstanding }) ∧
      l.state.Put event.orderingKey (l.state.events event.orderingKey ++ [event]) state ∧
      Fits f { l with state, outstanding } := by
  by_cases hopen : l.state.closed = true
  · exact .inl ⟨.subscriptionClosed, "subscription is closed", by
      simp only [publishTo, admissionRejection, hopen, if_true]; rfl⟩
  by_cases hroom : l.state.pendingCount + l.state.inFlight.size ≥ queue.capacity
  · exact .inl ⟨.subscriptionCapacity, "subscription queue is full", by
      simp only [publishTo, admissionRejection, hopen, hroom, if_true]; rfl⟩
  have hq := hf.queue
  have hless : l.state.held.card < f.capacity := by
    rw [← hq.balanced.tallied.card_held, ← hcap]
    omega
  obtain ⟨kind, hres, hk, hk'⟩ | ⟨b, hres, hmc, hmw, hcount, hweight, hlimit, hword, hall⟩ :=
    l.outstanding.tryReserve_cases event.weightBytes
  · refine .inl ⟨kind, "provider outstanding capacity is full", ?_⟩
    simp only [publishTo, admissionRejection, hopen, hroom, Bool.false_eq_true, if_false, hres]
    cases kind with
    | subscriptionClosed => exact absurd rfl hk
    | subscriptionCapacity => exact absurd rfl hk'
    | providerCountCapacity | providerWeightCapacity => rfl
  · obtain ⟨state, heq, hput⟩ :=
      LocalQueueState.enqueueBackAt_balanced m.iter m.now hq.balanced event
    have hheld := hput.held_added hq.balanced.tallied (.inl rfl)
    refine .inr ⟨state, b, by simp only [publishTo, admissionRejection, hopen, hroom,
      Bool.false_eq_true, if_false, hres, recordAdmission, heq, Option.map_some], hput, ?_⟩
    refine ⟨⟨hput.balanced, fun h => ?_, ?_, fun h => ?_, fun h e he => ?_⟩, ?_, ?_, ?_⟩
    · rw [hput.inFlight] at h
      rw [hput.nextDeliveryToken]
      exact hq.tokens h
    · rw [hheld, Multiset.card_cons]
      omega
    · rw [hput.closed] at h
      exact absurd h hopen
    · rw [hheld, Multiset.mem_cons] at he
      obtain rfl | he := he
      · exact hev h
      · exact hq.weightless h e he
    · have := hf.count
      simp only [hheld, Multiset.card_cons, hcount]
      omega
    · have := hf.weight
      simp only [LocalQueueState.heldWeight_cons hheld, hweight, hf.within.counted hev]
      omega
    · rw [hf.within.maxCount_eq] at hlimit
      rw [hf.within.maxWeight_eq] at hall
      exact ⟨hmc.trans hf.within.maxCount_eq, hmw.trans hf.within.maxWeight_eq, hlimit, hall, hword⟩

/-! ## Receiving -/

/-- What a look at the queue can be. -/
inductive ReceiveStep (queue : LocalQueue) (resource : LocalQueue → LocalEvent → TopicAddress)
    (l : Locked) : Received → Locked → Prop where
  | closed : l.state.closed = true → ReceiveStep queue resource l .closed l
  | nothing {state : LocalQueueState} {delay : Option (Option Nat)} : l.state.closed = false →
    state.Balanced → l.state.Same state →
    ReceiveStep queue resource l (.nothing delay) { l with state }
  /-- No token is left: the event goes back to where it was. -/
  | exhausted {e : LocalEvent} {state : LocalQueueState} : l.state.closed = false →
    checkedSucc l.state.nextDeliveryToken = none → e ∈ l.state.events e.orderingKey →
    state.Balanced → l.state.Same state →
    ReceiveStep queue resource l (.failed (operationError "receive"
      (some (resource queue e).value) "settlement_token_exhausted")) { l with state }
  | message {e : LocalEvent} {events : List LocalEvent} {state : LocalQueueState} {sequence : Nat} :
    l.state.closed = false → checkedSucc l.state.nextDeliveryToken = some sequence →
    l.state.events e.orderingKey = e :: events → l.state.Put e.orderingKey events state →
    ReceiveStep queue resource l (deliver queue e sequence { l with state }).1
      (deliver queue e sequence { l with state }).2

/-- An event that is taken and put back leaves no trace in the lanes. -/
theorem LocalQueueState.Put.back {s₁ s₂ : LocalQueueState} (ht : s.Tallied)
    (he : s.events e.orderingKey = e :: events) (h₁ : s.Put e.orderingKey events s₁)
    (h₂ : s₁.Put e.orderingKey (e :: s₁.events e.orderingKey) s₂) : s.Same s₂ := by
  have hevents : ∀ k, s₂.events k = s.events k := by
    intro k
    rw [h₂.events, h₁.events, h₁.events, if_pos rfl]
    split
    · rename_i hk
      rw [hk, he]
    · rfl
  have hpending : s₂.pendingEvents = s.pendingEvents := by
    refine Multiset.ext.2 fun x => ?_
    rw [h₂.balanced.tallied.count_pendingEvents, ht.count_pendingEvents, hevents]
  refine ⟨hevents, ?_, h₂.inFlight.trans h₁.inFlight, h₂.closed.trans h₁.closed,
    h₂.nextDeliveryToken.trans h₁.nextDeliveryToken⟩
  rw [h₂.balanced.tallied.pendingCount_eq, ht.pendingCount_eq, hpending]

theorem receive_spec (hb : l.state.Balanced)
    (resource : LocalQueue → LocalEvent → TopicAddress) (m again : Moment) (waits : Option Nat) :
    ∃ r l', receive queue resource m again waits l = some (r, l') ∧
      ReceiveStep queue resource l r l' := by
  unfold receive
  split
  · exact ⟨_, _, rfl, .closed ‹_›⟩
  rename_i hopen
  rw [Bool.not_eq_true] at hopen
  obtain ⟨r, state, heq, htook⟩ := LocalQueueState.popReady_balanced m.iter m.now hb
  rw [heq, Option.bind_some]
  cases htook with
  | idle hb' hsame =>
    cases waits with
    | none => exact ⟨_, _, rfl, .nothing hopen hb' hsame⟩
    | some now =>
      obtain ⟨delay, state', heq', hb'', hsame'⟩ := LocalQueueState.nextReadyDelay_balanced now hb'
      exact ⟨.nothing (some delay), _, by simp only [heq', Option.map_some],
        .nothing hopen hb'' (hsame.trans hsame')⟩
  | @taken e events _ hdue he hput =>
    dsimp only
    rw [hput.nextDeliveryToken]
    cases hs : checkedSucc l.state.nextDeliveryToken with
    | none =>
      obtain ⟨state', heq', hput'⟩ :=
        LocalQueueState.enqueueFrontAt_balanced again.iter again.now hput.balanced e
      exact ⟨_, _, by simp only [heq', Option.map_some], .exhausted hopen hs
        (he ▸ List.mem_cons_self) hput'.balanced (hput.back hb.tallied he hput')⟩
    | some sequence => exact ⟨_, _, rfl, .message hopen hs he hput⟩

/-- The token of a delivery is not in use. -/
theorem QueueOk.fresh (hq : QueueOk c w s) {sequence : Nat}
    (hs : checkedSucc s.nextDeliveryToken = some sequence) (e : LocalEvent) :
    s.inFlight.lookup (tokenId e sequence) = none := by
  obtain ⟨rfl, -⟩ := checkedSucc_some hs
  cases hl : s.inFlight.lookup (tokenId e (s.nextDeliveryToken + 1)) with
  | none => rfl
  | some flight =>
    obtain ⟨n, hn, ht⟩ := hq.tokens hl
    have := tokenId_inj ht
    omega

/-- Receiving moves a delivery within the queue. -/
theorem ReceiveStep.held (hr : ReceiveStep queue resource l r l') (hq : QueueOk c w l.state) :
    l'.state.held = l.state.held := by
  have ht := hq.balanced.tallied
  cases hr with
  | closed => rfl
  | nothing _ hb hsame | exhausted _ _ _ hb hsame => exact hsame.held ht hb.tallied
  | @message e events state sequence hopen hs he hput =>
    have hfresh := hq.fresh hs e
    rw [← hput.inFlight] at hfresh
    have hin := Map.total_insert_new
      (fun flight : LocalInFlight => ({flight.event} : Multiset LocalEvent))
      (⟨e, ⟨l.cells.length⟩⟩ : LocalInFlight) hfresh
    simp only [deliver, LocalQueueState.held, LocalQueueState.inFlightEvents, hin]
    rw [hput.pending_removed ht he, hput.inFlight, Multiset.cons_add, Multiset.singleton_add,
      Multiset.add_cons]
    rfl

theorem ReceiveStep.fits (hr : ReceiveStep queue resource l r l') (hf : Fits f l) : Fits f l' := by
  have hq := hf.queue
  have hheld := hr.held hq
  cases hr with
  | closed => exact hf
  | nothing _ hb hsame | exhausted _ _ _ hb hsame =>
    refine hf.move hb hheld hsame.closed fun h => ?_
    rw [hsame.inFlight] at h
    rw [hsame.nextDeliveryToken]
    exact hq.tokens h
  | @message e events state sequence hopen hs he hput =>
    obtain ⟨hseq, -⟩ := checkedSucc_some hs
    have hb := hput.balanced
    have hbal : LocalQueueState.Balanced { state with
        nextDeliveryToken := sequence
        inFlight := state.inFlight.insert (tokenId e sequence) ⟨e, ⟨l.cells.length⟩⟩ } :=
      have ht := hb.tallied
      ⟨⟨ht.keyed, ht.pending, ht.live, ht.length, ht.sorted, ht.entry⟩,
        fun k => ⟨(hb.head k).deadline⟩⟩
    refine hf.move hbal hheld hput.closed fun {t flight} h => ?_
    simp only [Map.lookup_insert_eq, hput.inFlight] at h
    split at h
    · rename_i htok
      cases h
      exact ⟨sequence, le_rfl, htok⟩
    · obtain ⟨n, hn, htok⟩ := hq.tokens h
      exact ⟨n, by simp only; omega, htok⟩

/-! ## Settlement -/

/-- The token names a delivery of the queue that is in flight. -/
structure Settles (queue : LocalQueue) (token : SettlementToken) (l : Locked)
    (handle : LocalSettlementHandle) (cell : LocalSettlementState) (delivery : LocalInFlight) :
    Prop where
  belongs : token.belongsTo queue.id = true
  handle_eq : token.downcastRef = some handle
  cell_eq : l.cells[handle.address]? = some cell
  unsettled : cell.disposition = none
  inFlight : l.state.inFlight.lookup cell.tokenId = some delivery
  same : delivery.settlement = handle

/-- Why a settlement is refused. -/
inductive Refusal (queue : LocalQueue) (token : SettlementToken) (disposition : DeliveryDisposition)
    (l : Locked) : String → Prop where
  | foreign : token.belongsTo queue.id = false →
    Refusal queue token disposition l "foreign_subscription"
  | notLocal : token.belongsTo queue.id = true → token.downcastRef = none →
    Refusal queue token disposition l "unknown_token"
  | conflicting {handle : LocalSettlementHandle} {cell : LocalSettlementState}
    {previous : DeliveryDisposition} : token.belongsTo queue.id = true →
    token.downcastRef = some handle → l.cells[handle.address]? = some cell →
    cell.disposition = some previous → previous ≠ disposition →
    Refusal queue token disposition l "conflicting_disposition"
  /-- No delivery of this queue that is in flight has this cell. -/
  | unknown {handle : LocalSettlementHandle} : token.belongsTo queue.id = true →
    token.downcastRef = some handle → (∀ cell, l.cells[handle.address]? = some cell →
      cell.disposition = none ∧ ∀ delivery, l.state.inFlight.lookup cell.tokenId = some delivery →
        delivery.settlement ≠ handle) →
    Refusal queue token disposition l "unknown_token"

/-- The queue, budget and cells after the first settlement of a delivery. -/
inductive Settled (handle : LocalSettlementHandle) (cell : LocalSettlementState)
    (delivery : LocalInFlight) (disposition : DeliveryDisposition) (l : Locked) :
    Locked → Prop where
  | retried {state : LocalQueueState} : disposition = .retry →
    LocalQueueState.Put delivery.event.orderingKey
      (delivery.event :: l.state.events delivery.event.orderingKey)
      { l.state with inFlight := l.state.inFlight.erase cell.tokenId } state →
    Settled handle cell delivery disposition l { l with
      state, cells := l.cells.set handle.address { cell with disposition := some disposition } }
  | released {outstanding : OutstandingBudget} : disposition ≠ .retry →
    l.outstanding.release 1 delivery.event.weightBytes = some outstanding →
    Settled handle cell delivery disposition l
      { state := { l.state with inFlight := l.state.inFlight.erase cell.tokenId }
        outstanding
        cells := l.cells.set handle.address { cell with disposition := some disposition } }

/-- What a call of `settle` can do. -/
inductive SettleStep (queue : LocalQueue) (token : SettlementToken)
    (disposition : DeliveryDisposition) (l : Locked) : Except SpiError Unit → Locked → Prop where
  | refused {reason : String} : Refusal queue token disposition l reason →
    SettleStep queue token disposition l
      (.error (invalidTokenError (some queue.topic.value) reason)) l
  | repeated {handle : LocalSettlementHandle} {cell : LocalSettlementState} :
    token.belongsTo queue.id = true → token.downcastRef = some handle →
    l.cells[handle.address]? = some cell → cell.disposition = some disposition →
    SettleStep queue token disposition l (.ok ()) l
  | first {handle : LocalSettlementHandle} {cell : LocalSettlementState}
    {delivery : LocalInFlight} {l' : Locked} : Settles queue token l handle cell delivery →
    Settled handle cell delivery disposition l l' → SettleStep queue token disposition l (.ok ()) l'

/-- A change of `in_flight` alone. -/
theorem LocalQueueState.Balanced.setInFlight (hb : s.Balanced)
    (inFlight : Map String LocalInFlight) :
    LocalQueueState.Balanced { s with inFlight } :=
  have ht := hb.tallied
  ⟨⟨ht.keyed, ht.pending, ht.live, ht.length, ht.sorted, ht.entry⟩, fun k => ⟨(hb.head k).deadline⟩⟩

theorem held_erase {t : String} (h : s.inFlight.lookup t = some delivery) :
    s.held = delivery.event ::ₘ
      LocalQueueState.held { s with inFlight := s.inFlight.erase t } := by
  have herase := Map.total_erase
    (fun flight : LocalInFlight => ({flight.event} : Multiset LocalEvent)) h
  simp only [LocalQueueState.held, LocalQueueState.inFlightEvents, herase]
  rw [Multiset.singleton_add, Multiset.add_cons]
  rfl

/-- A delivery in flight is covered by the budget. -/
theorem Fits.covers (hf : Fits f l) (h : l.state.held = e ::ₘ s.held) :
    l.outstanding.counted e.weightBytes = e.weightBytes ∧ 1 ≤ l.outstanding.state.countUsed ∧
      e.weightBytes ≤ l.outstanding.state.weightUsed := by
  have hcount := hf.count
  have hweight := hf.weight
  rw [h, Multiset.card_cons] at hcount
  rw [LocalQueueState.heldWeight_cons h] at hweight
  have hmem : e ∈ l.state.held := by
    rw [h]
    exact Multiset.mem_cons_self e _
  exact ⟨hf.within.counted fun hn => hf.queue.weightless hn e hmem, by omega, by omega⟩

theorem settleDelivery_spec (hf : Fits f l) (hs : Settles queue token l handle cell delivery)
    (disposition : DeliveryDisposition) (m : Moment) :
    ∃ l', settleDelivery handle cell delivery disposition m l = some l' ∧
      Settled handle cell delivery disposition l l' := by
  unfold settleDelivery
  dsimp only
  split
  · rename_i hretry
    obtain ⟨state, heq, hput⟩ := LocalQueueState.enqueueFrontAt_balanced m.iter m.now
      (hf.queue.balanced.setInFlight (l.state.inFlight.erase cell.tokenId)) delivery.event
    exact ⟨_, by simp only [heq, Option.map_some], .retried hretry hput⟩
  · rename_i hretry
    obtain ⟨hcounted, hcount, hweight⟩ := hf.covers (held_erase hs.inFlight)
    obtain ⟨b, heq, -⟩ := l.outstanding.release_some 1 delivery.event.weightBytes hcount (by omega)
    exact ⟨_, by simp only [heq, Option.map_some], .released hretry heq⟩

theorem settle_spec (hf : Fits f l) (token : SettlementToken) (disposition : DeliveryDisposition)
    (m : Moment) :
    ∃ r l', settle queue token disposition m l = some (r, l') ∧
      SettleStep queue token disposition l r l' := by
  unfold settle
  dsimp only
  split
  · rename_i hb
    exact ⟨_, _, rfl, .refused (.foreign (by simpa using hb))⟩
  rename_i hb
  have hbelongs : token.belongsTo queue.id = true := by simpa using hb
  split
  · exact ⟨_, _, rfl, .refused (.notLocal hbelongs ‹_›)⟩
  rename_i handle hh
  split
  · rename_i hc
    exact ⟨_, _, rfl, .refused (.unknown hbelongs hh
      fun cell hcell => by rw [hc] at hcell; cases hcell)⟩
  rename_i cell hc
  split
  · rename_i previous hp
    split
    · rename_i heq
      exact ⟨_, _, rfl, .repeated hbelongs hh hc (heq ▸ hp)⟩
    · exact ⟨_, _, rfl, .refused (.conflicting hbelongs hh hc hp ‹_›)⟩
  rename_i hu
  split
  · rename_i hl
    refine ⟨_, _, rfl, .refused (.unknown hbelongs hh fun cell' hcell => ?_)⟩
    rw [hc] at hcell
    cases hcell
    exact ⟨hu, fun delivery hd => by rw [hl] at hd; cases hd⟩
  rename_i delivery hl
  split
  · rename_i hne
    refine ⟨_, _, rfl, .refused (.unknown hbelongs hh fun cell' hcell => ?_)⟩
    rw [hc] at hcell
    cases hcell
    exact ⟨hu, fun delivery' hd => by rw [hl] at hd; cases hd; exact hne⟩
  rename_i hsame
  have hs : Settles queue token l handle cell delivery :=
    ⟨hbelongs, hh, hc, hu, hl, not_not.1 hsame⟩
  obtain ⟨l', heq, hsettled⟩ := settleDelivery_spec hf hs disposition m
  exact ⟨.ok (), l', by rw [heq, Option.map_some], .first hs hsettled⟩

/-- A queue that has given up a part of its deliveries, and the budget that has got them back. -/
theorem Fits.release (hf : Fits f l) (removed : Multiset LocalEvent) (hb : state.Balanced)
    (hheld : l.state.held = removed + state.held)
    (ht : ∀ {t flight}, state.inFlight.lookup t = some flight →
      ∃ n, n ≤ state.nextDeliveryToken ∧ t = tokenId flight.event n)
    (hc : state.closed = true → state.held = 0)
    (hb' : l.outstanding.release removed.card (removed.map LocalEvent.weightBytes).sum = some b) :
    Fits f ⟨state, b, cells⟩ := by
  have hq := hf.queue
  have hcount := hf.count
  have hweight := hf.weight
  have hcard : l.state.held.card = removed.card + state.held.card := by
    rw [hheld, Multiset.card_add]
  have hsum : l.state.heldWeight = (removed.map LocalEvent.weightBytes).sum + state.heldWeight := by
    rw [LocalQueueState.heldWeight, hheld, Multiset.map_add, Multiset.sum_add,
      LocalQueueState.heldWeight]
  have hcounted : l.outstanding.counted (removed.map LocalEvent.weightBytes).sum =
      (removed.map LocalEvent.weightBytes).sum := by
    refine hf.within.counted fun hn => Multiset.sum_eq_zero fun w hw => ?_
    obtain ⟨e, he, rfl⟩ := Multiset.mem_map.1 hw
    exact hq.weightless hn e (by rw [hheld]; exact Multiset.mem_add.2 (.inl he))
  obtain ⟨b'', heq, hmc, hmw, hc', hw'⟩ := l.outstanding.release_some removed.card
    (removed.map LocalEvent.weightBytes).sum (by omega) (by omega)
  rw [heq] at hb'
  cases hb'
  have hw := hf.within
  refine ⟨⟨hb, ht, ?_, hc, fun hn e he => ?_⟩, ?_, ?_, ?_⟩
  · have := hq.capacity
    dsimp only
    omega
  · exact hq.weightless hn e (by rw [hheld]; exact Multiset.mem_add.2 (.inr he))
  · dsimp only
    omega
  · dsimp only
    omega
  · have hlimit := hw.weight
    have := hw.count
    have := hw.word
    refine ⟨hmc.trans hw.maxCount_eq, hmw.trans hw.maxWeight_eq, ?_, fun limit hl => ?_, ?_⟩ <;>
      dsimp only
    · omega
    · have := hlimit limit hl
      omega
    · omega

/-- A first settlement keeps the deliveries or gives one back. -/
theorem Settled.held (h : Settled handle cell delivery disposition l l')
    (hl : l.state.inFlight.lookup cell.tokenId = some delivery) (hb : l.state.Balanced) :
    (disposition = .retry ∧ l'.state.held = l.state.held) ∨
      (disposition ≠ .retry ∧ l.state.held = delivery.event ::ₘ l'.state.held) := by
  have hheld := held_erase hl
  cases h with
  | retried hretry hput =>
    refine .inl ⟨hretry, ?_⟩
    rw [hput.held_added (hb.setInFlight _).tallied (.inr rfl), hheld]
  | released hne _ => exact .inr ⟨hne, hheld⟩

theorem Settled.fits (h : Settled handle cell delivery disposition l l')
    (hl : l.state.inFlight.lookup cell.tokenId = some delivery) (hf : Fits f l) : Fits f l' := by
  have hq := hf.queue
  have hb := hq.balanced.setInFlight (l.state.inFlight.erase cell.tokenId)
  have hheld := held_erase hl
  have htokens : ∀ {t flight}, (l.state.inFlight.erase cell.tokenId).lookup t = some flight →
      ∃ n, n ≤ l.state.nextDeliveryToken ∧ t = tokenId flight.event n := by
    intro t flight ht
    rw [Map.lookup_erase_eq] at ht
    split at ht
    · cases ht
    · exact hq.tokens ht
  cases h with
  | @retried state hretry hput =>
    refine hf.move hput.balanced ?_ hput.closed fun h => ?_
    · rw [hput.held_added hb.tallied (.inr rfl), hheld]
    · rw [hput.inFlight] at h
      rw [hput.nextDeliveryToken]
      exact htokens h
  | released _ hrel =>
    refine hf.release {delivery.event} hb ?_ htokens (fun hc => ?_) (by simpa using hrel)
    · rw [hheld, Multiset.singleton_add]
    · have := hq.closed hc
      rw [hheld] at this
      exact absurd this (Multiset.cons_ne_zero)

theorem SettleStep.fits {r : Except SpiError Unit} (h : SettleStep queue token disposition l r l')
    (hf : Fits f l) : Fits f l' := by
  cases h with
  | refused => exact hf
  | repeated => exact hf
  | first hs hsettled => exact hsettled.fits hs.inFlight hf

/-! ## Closing -/

/-- What closing does: nothing, or all deliveries leave the queue and the budget. -/
inductive CloseStep (once : Bool) (l : Locked) : Multiset LocalEvent → Locked → Prop where
  | again : once = true → l.state.closed = true → CloseStep once l 0 l
  | emptied {state : LocalQueueState} {outstanding : OutstandingBudget} : state.Empty →
    state.inFlight = ∅ → state.closed = true →
    state.nextDeliveryToken = l.state.nextDeliveryToken →
    l.outstanding.release l.state.held.card l.state.heldWeight = some outstanding →
    CloseStep once l l.state.held { l with state, outstanding }

/-- The whole content of a queue is covered by the budget, and its weight fits a word. -/
theorem Fits.covers_all (hf : Fits f l) :
    l.state.heldWeight ≤ wordMax ∧
      ∃ b, l.outstanding.release l.state.held.card l.state.heldWeight = some b := by
  have hcount := hf.count
  have hweight := hf.weight
  have hword := hf.within.word
  have hcounted : l.outstanding.counted l.state.heldWeight = l.state.heldWeight := by
    refine hf.within.counted fun hn => Multiset.sum_eq_zero fun w hw => ?_
    obtain ⟨e, he, rfl⟩ := Multiset.mem_map.1 hw
    exact hf.queue.weightless hn e he
  refine ⟨by omega, ?_⟩
  obtain ⟨b, heq, -⟩ := l.outstanding.release_some l.state.held.card l.state.heldWeight (by omega)
    (by omega)
  exact ⟨b, heq⟩

theorem close_spec (hf : Fits f l) (once : Bool) :
    ∃ discarded l', close once l = some (discarded, l') ∧ CloseStep once l discarded l' := by
  unfold close
  split
  · rename_i h
    rw [Bool.and_eq_true] at h
    exact ⟨_, _, rfl, .again h.1 h.2⟩
  obtain ⟨hword, b, hb⟩ := hf.covers_all
  have hdiscarded : discardedWeight l.state.held = some l.state.heldWeight := by
    unfold discardedWeight
    exact if_pos hword
  refine ⟨l.state.held, { l with
    state := (LocalQueueState.clearPending { l.state with closed := true }).2, outstanding := b },
    ?_, .emptied (LocalQueueState.clearPending_empty _) rfl rfl rfl hb⟩
  change (discardedWeight l.state.held).bind _ = _
  rw [hdiscarded, Option.bind_some]
  change (l.outstanding.release l.state.held.card l.state.heldWeight).map _ = _
  rw [hb, Option.map_some]
  rfl

theorem LocalQueueState.Empty.held (h : state.Empty) (hin : state.inFlight = ∅) :
    state.held = 0 := by
  rw [LocalQueueState.held, LocalQueueState.pendingEvents, LocalQueueState.inFlightEvents, h.lanes,
    hin]
  rfl

/-- All that was there is discarded. -/
theorem CloseStep.held (h : CloseStep once l discarded l') (hq : QueueOk c w l.state) :
    discarded = l.state.held ∧ l'.state.held = 0 := by
  cases h with
  | again _ hclosed => exact ⟨(hq.closed hclosed).symm, hq.closed hclosed⟩
  | emptied hempty hin => exact ⟨rfl, hempty.held hin⟩

theorem CloseStep.fits (h : CloseStep once l discarded l') (hf : Fits f l) : Fits f l' := by
  cases h with
  | again => exact hf
  | @emptied state b hempty hin hclosed htoken hrel =>
    have hheld := hempty.held hin
    refine hf.release _ hempty.balanced ?_ (fun h => ?_) (fun _ => hheld) hrel
    · rw [hheld, add_zero]
    · rw [hin] at h
      cases h

end

end EventBus.Local
