import EventBus.Local.QueueRefine
import EventBus.Local.SettlementRun

/-!
# The order of retried deliveries

Within a key the queue is a FIFO, but a retried delivery goes to the front of it, and several
deliveries of a key can be in flight at once. To say in which order their events were admitted,
a bystander numbers the admissions of one queue and follows them by the calls and the answers
(`Ledger.record`): an admission is appended, a message takes the first of its key, a settlement
with `Retry` puts it back in front. That the ledger describes the lanes is `Faithful`.

The numbers of a key stay in order exactly as long as nothing is retried behind an earlier event
of its key that is pending already (`StoreOp.RetriesFirst`). Two deliveries in flight, retried in
the order in which they were admitted, are out of order.
-/

namespace EventBus.Local

open Lib

variable {maxWeight : Option ℕ+} {s : Store} {foreign maxCount : Nat} {q : QueueRef} {address : Nat}

/-! ## The ledger -/

/-- An admission: its number, and the event. -/
abbrev Admission := Nat × LocalEvent

structure Ledger where
  next : Nat
  pending : QueueKey → List Admission
  /-- Deliveries in flight, by the cell of their token. -/
  inFlight : Nat → Option Admission

variable {x : Admission}

namespace Ledger

def empty : Ledger := ⟨0, fun _ => [], fun _ => none⟩

variable (m : Ledger)

def enroll (event : LocalEvent) : Ledger :=
  { m with
    next := m.next + 1
    pending := Function.update m.pending event.orderingKey
      (m.pending event.orderingKey ++ [(m.next, event)]) }

/-- A message of the key `key` is delivered with the cell `address`. -/
def take (key : QueueKey) (address : Nat) : Ledger :=
  match m.pending key with
  | [] => m
  | x :: rest =>
    { m with
      pending := Function.update m.pending key rest
      inFlight := Function.update m.inFlight address (some x) }

/-- The delivery with the cell `address` is settled. -/
def settle (address : Nat) (disposition : DeliveryDisposition) : Ledger :=
  match m.inFlight address with
  | none => m
  | some x =>
    let m := { m with inFlight := Function.update m.inFlight address none }
    if disposition = .retry then
      { m with
        pending := Function.update m.pending x.2.orderingKey (x :: m.pending x.2.orderingKey) }
    else m

/-- What a call on the queue and its answer say. -/
def note : StoreOp → StoreResponse → Ledger
  | .publishTo _ event _, .admission (some none) => m.enroll event
  | .receive _ _ _ _ _, .received (some (.message message)) =>
    match message.settlement.bind SettlementToken.downcastRef with
    | none => m
    | some handle => m.take message.orderingKey handle.address
  | .settle _ token disposition _, .settled (some (.ok ())) =>
    match token.downcastRef with
    | none => m
    | some handle => m.settle handle.address disposition
  | .close _ _, .closed (some _) => { empty with next := m.next }
  | _, _ => m

/-- The ledger of the queue `q`. -/
def record (q : QueueRef) (op : StoreOp) (r : StoreResponse) : Ledger :=
  if op.queue = some q then m.note op r else m

theorem enroll_pending (e : LocalEvent) (k : QueueKey) : (m.enroll e).pending k =
    if k = e.orderingKey then m.pending e.orderingKey ++ [(m.next, e)] else m.pending k :=
  Function.update_apply _ _ _ _

section
variable {m} {key : QueueKey} {rest : List Admission}

theorem take_pending (h : m.pending key = x :: rest) (address : Nat) (k : QueueKey) :
    (m.take key address).pending k = if k = key then rest else m.pending k := by
  rw [take, h]
  exact Function.update_apply _ _ _ _

theorem take_inFlight (h : m.pending key = x :: rest) (address a : Nat) :
    (m.take key address).inFlight a = if a = address then some x else m.inFlight a := by
  rw [take, h]
  exact Function.update_apply _ _ _ _

theorem settle_none (h : m.inFlight address = none) (disposition : DeliveryDisposition) :
    m.settle address disposition = m := by
  rw [settle, h]

theorem settle_pending (h : m.inFlight address = some x) (disposition : DeliveryDisposition)
    (k : QueueKey) :
    (m.settle address disposition).pending k =
      if disposition = .retry ∧ k = x.2.orderingKey then x :: m.pending k else m.pending k := by
  rw [settle, h]
  by_cases hd : disposition = .retry
  · simp only [hd, if_true, true_and]
    rw [Function.update_apply]
    split
    · rename_i hk
      rw [hk]
    · rfl
  · simp only [hd, if_false, false_and]

theorem settle_inFlight (h : m.inFlight address = some x) (disposition : DeliveryDisposition)
    (a : Nat) :
    (m.settle address disposition).inFlight a = if a = address then none else m.inFlight a := by
  rw [settle, h]
  dsimp only
  split
  · exact Function.update_apply _ _ _ _
  · exact Function.update_apply _ _ _ _

end

@[simp] theorem take_next (key : QueueKey) (address : Nat) :
    (m.take key address).next = m.next := by
  unfold take
  split <;> rfl

@[simp] theorem settle_next (address : Nat) (disposition : DeliveryDisposition) :
    (m.settle address disposition).next = m.next := by
  unfold settle
  split
  · rfl
  · dsimp only
    split <;> rfl

/-- The pending events of every key are in the order of their admission. -/
def InOrder : Prop := ∀ k, (m.pending k).Pairwise fun x y => x.1 < y.1

end Ledger

/-- The store together with the ledger of its queue `q`. -/
def Store.recorded (foreign : Nat) (q : QueueRef) (t : Store × Ledger) (op : StoreOp) :
    Option (StoreResponse × Store × Ledger) :=
  (t.1.step foreign op).map fun (r, s) => (r, s, t.2.record q op r)

/-- A delivery is retried only in front of later events of its key. -/
def StoreOp.RetriesFirst (q : QueueRef) (t : Store × Ledger) : StoreOp → Prop
  | .settle q' token .retry _ => q' = q → ∀ queue ∈ t.1.queues[q]?,
    token.belongsTo queue.id = true → ∀ handle ∈ token.downcastRef,
      ∀ x ∈ t.2.inFlight handle.address, ∀ y ∈ t.2.pending x.2.orderingKey, x.1 < y.1
  | _ => True

instance (q : QueueRef) (t : Store × Ledger) (op : StoreOp) : Decidable (op.RetriesFirst q t) := by
  unfold StoreOp.RetriesFirst
  split
  · infer_instance
  · infer_instance

/-! ## The ledger describes the queue -/

/-- Events, deliveries in flight and numbers. -/
structure Faithful (q : QueueRef) (s : Store) (m : Ledger) : Prop where
  absent : s.queues[q]? = none → m = .empty
  pending : ∀ queue, s.queues[q]? = some queue → ∀ k,
    queue.state.events k = (m.pending k).map Prod.snd
  inFlight : ∀ queue, s.queues[q]? = some queue → ∀ address e,
    (∃ n, m.inFlight address = some (n, e)) ↔
      ∃ t, queue.state.inFlight.lookup t = some ⟨e, ⟨address⟩⟩
  lt_next : ∀ k, ∀ x ∈ m.pending k, x.1 < m.next
  flight_lt : ∀ address x, m.inFlight address = some x → x.1 < m.next

variable {m : Ledger}

section
variable {handle : LocalSettlementHandle} {events : List LocalEvent} {state : LocalQueueState}
  {mo : Moment} {disposition : DeliveryDisposition} {token : SettlementToken} {l : Locked}
  {e : LocalEvent} {op : StoreOp} {j : List Note} {s' : Store} {m' : Ledger} {queue : LocalQueue}

theorem Faithful.new (cells : List LocalSettlementState) :
    Faithful q (.new maxCount maxWeight cells) .empty where
  absent _ := rfl
  pending _ h := nomatch h
  inFlight _ h := nomatch h
  lt_next _ _ h := nomatch h
  flight_lt _ _ h := nomatch h

/-- Another queue, or none, has changed. -/
theorem Faithful.elsewhere (h : Faithful q s m) (hq : s'.queues[q]? = s.queues[q]?) :
    Faithful q s' m :=
  ⟨fun hn => h.absent (hq ▸ hn), fun queue hs => h.pending queue (hq ▸ hs),
    fun queue hs => h.inFlight queue (hq ▸ hs), h.lt_next, h.flight_lt⟩

/-- The queue has been locked and changed. -/
theorem Faithful.unlock (hq : s.queues[q]? = some queue)
    (hp : ∀ k, l.state.events k = (m'.pending k).map Prod.snd)
    (hf : ∀ address e, (∃ n, m'.inFlight address = some (n, e)) ↔
      ∃ t, l.state.inFlight.lookup t = some ⟨e, ⟨address⟩⟩)
    (hlt : ∀ k, ∀ x ∈ m'.pending k, x.1 < m'.next)
    (hflt : ∀ address x, m'.inFlight address = some x → x.1 < m'.next) :
    Faithful q (s.unlock q queue l) m' := by
  have hqueue := (Store.unlock_queues hq l q).trans (if_pos rfl)
  refine ⟨fun hn => ?_, fun queue' hq' => ?_, fun queue' hq' => ?_, hlt, hflt⟩
  · rw [hqueue] at hn
    cases hn
  · cases hqueue.symm.trans hq'
    exact hp
  · cases hqueue.symm.trans hq'
    exact hf

/-- Neither the events nor the deliveries in flight have changed. -/
theorem Faithful.quiet (h : Faithful q s m) (hq : s.queues[q]? = some queue)
    (hp : ∀ k, l.state.events k = queue.state.events k)
    (hf : l.state.inFlight = queue.state.inFlight) : Faithful q (s.unlock q queue l) m := by
  refine .unlock hq (fun k => ?_) (fun address e => ?_) h.lt_next h.flight_lt
  · rw [hp, h.pending queue hq]
  · rw [hf, h.inFlight queue hq]

theorem Faithful.subscribe (h : Faithful q s m) (id : Id) (topic : TopicAddress)
    (subscriberId : SubscriberId) (capacity : Nat) :
    Faithful q (s.subscribe id topic subscriberId capacity) m := by
  by_cases hlt : q < s.queues.length
  · exact h.elsewhere (List.getElem?_append_left hlt)
  · -- the queue may be the new one, of which nothing is recorded yet
    obtain rfl := h.absent (List.getElem?_eq_none (Nat.le_of_not_lt hlt))
    have hempty : ∀ queue, (s.subscribe id topic subscriberId capacity).queues[q]? = some queue →
        queue.state = .default := by
      intro queue hq
      rw [Store.subscribe, List.getElem?_append_right (Nat.le_of_not_lt hlt),
        List.getElem?_singleton] at hq
      split at hq
      · cases hq
        rfl
      · cases hq
    refine ⟨fun _ => rfl, fun queue hq k => ?_, fun queue hq address e => ?_, ?_, ?_⟩
    · rw [hempty queue hq]
      rfl
    · rw [hempty queue hq]
      refine iff_of_false ?_ ?_
      · rintro ⟨_, ⟨⟩⟩
      · rintro ⟨_, ⟨⟩⟩
    · rintro _ _ ⟨⟩
    · rintro _ _ ⟨⟩

/-! ## What is put into and taken out of the ledger -/

theorem Faithful.enroll (h : Faithful q s m) (hq : s.queues[q]? = some queue)
    (hput : queue.state.Put e.orderingKey (queue.state.events e.orderingKey ++ [e]) l.state) :
    Faithful q (s.unlock q queue l) (m.enroll e) := by
  refine .unlock hq (fun k => ?_) (fun address e' => ?_) (fun k x hx => ?_) fun address x hx => ?_
  · rw [hput.events k, Ledger.enroll_pending]
    split
    · rw [List.map_append, h.pending queue hq]
      rfl
    · exact h.pending queue hq k
  · rw [hput.inFlight]
    exact h.inFlight queue hq address e'
  · rw [Ledger.enroll_pending] at hx
    show x.1 < m.next + 1
    split at hx
    · rcases List.mem_append.1 hx with hx | hx
      · have := h.lt_next _ x hx
        omega
      · cases List.mem_singleton.1 hx
        omega
    · have := h.lt_next k x hx
      omega
  · exact Nat.lt_succ_of_lt (h.flight_lt address x hx)

/-- What is taken is the first of its key. -/
theorem Faithful.head (h : Faithful q s m) (hq : s.queues[q]? = some queue)
    (he : queue.state.events e.orderingKey = e :: events) :
    ∃ n rest, m.pending e.orderingKey = (n, e) :: rest ∧ events = rest.map Prod.snd := by
  have hp := h.pending queue hq e.orderingKey
  rw [he] at hp
  cases hm : m.pending e.orderingKey with
  | nil =>
    rw [hm] at hp
    cases hp
  | cons x rest =>
    rw [hm, List.map_cons] at hp
    obtain ⟨rfl, rfl⟩ := List.cons.inj hp
    exact ⟨x.1, rest, rfl, rfl⟩

/-- A delivery in flight has a cell that is in use. -/
theorem Faithful.inFlight_none (h : Faithful q s m) (ht : Tokened foreign j s)
    (hq : s.queues[q]? = some queue) (ha : s.cells.length ≤ address) :
    m.inFlight address = none := by
  cases hm : m.inFlight address with
  | none => rfl
  | some x =>
    obtain ⟨t, hl⟩ := (h.inFlight queue hq address x.2).1 ⟨x.1, hm⟩
    obtain ⟨d, hd, -, -, hflight, -⟩ := (ht.inFlight q queue hq _ _).1 hl
    have := ht.address_lt hd
    have : address = d.address := congrArg (fun f => f.settlement.address) hflight
    omega

theorem Faithful.take (h : Faithful q s m) (ht : Tokened foreign j s)
    (hq : s.queues[q]? = some queue) {sequence : Nat}
    (hfresh : queue.state.inFlight.lookup (tokenId e sequence) = none)
    (he : queue.state.events e.orderingKey = e :: events)
    (hput : queue.state.Put e.orderingKey events state) :
    Faithful q (s.delivered q queue state e sequence) (m.take e.orderingKey s.cells.length) := by
  obtain ⟨n, rest, hm, rfl⟩ := h.head hq he
  refine .unlock hq (fun k => ?_) (fun address e' => ?_) (fun k x hx => ?_) fun address x hx => ?_
  · show state.events k = _
    rw [hput.events k, Ledger.take_pending hm]
    split
    · rfl
    · exact h.pending queue hq k
  · show _ ↔ ∃ t, (state.inFlight.insert _ _).lookup t = _
    rw [Ledger.take_inFlight hm, hput.inFlight]
    split
    · -- the new cell
      subst_vars
      have hold := h.inFlight queue hq s.cells.length e'
      rw [h.inFlight_none ht hq le_rfl] at hold
      refine ⟨fun ⟨n', hn'⟩ => ?_, fun ⟨t, hl⟩ => ?_⟩
      · cases hn'
        exact ⟨tokenId e sequence, Finmap.lookup_insert _⟩
      · rw [Map.lookup_insert_eq] at hl
        split at hl
        · cases hl
          exact ⟨n, rfl⟩
        · obtain ⟨_, hn'⟩ := hold.2 ⟨t, hl⟩
          cases hn'
    · rename_i hne
      rw [h.inFlight queue hq]
      refine exists_congr fun t => ?_
      rw [Map.lookup_insert_eq]
      split
      · subst_vars
        rw [hfresh]
        refine ⟨fun hl => (nomatch hl), fun hl => ?_⟩
        cases hl
        exact absurd rfl hne
      · rfl
  · rw [Ledger.take_pending hm] at hx
    rw [Ledger.take_next]
    split at hx
    · refine h.lt_next e.orderingKey x ?_
      rw [hm]
      exact List.mem_cons_of_mem _ hx
    · exact h.lt_next k x hx
  · rw [Ledger.take_inFlight hm] at hx
    rw [Ledger.take_next]
    split at hx
    · cases hx
      refine h.lt_next e.orderingKey (n, e) ?_
      rw [hm]
      exact List.mem_cons_self
    · exact h.flight_lt address x hx

/-- The settlement of what the ledger has in flight is the first one. -/
theorem Faithful.settles (h : Faithful q s m) (ht : Tokened foreign j s)
    (hq : s.queues[q]? = some queue) (hb : token.belongsTo queue.id = true)
    (hh : token.downcastRef = some handle) (hx : m.inFlight handle.address = some x) :
    ∃ d ∈ issued j, d.queue = q ∧ handle = ⟨d.address⟩ ∧ x.2 = d.event ∧
      s.disposition d.address = none ∧ Settles queue token (s.lock queue) handle ⟨d.token, none⟩
        ⟨d.event, handle⟩ := by
  obtain ⟨t, hl⟩ := (h.inFlight queue hq handle.address x.2).1 ⟨x.1, hx⟩
  obtain ⟨d, hd, hdq, rfl, hflight, hnone, -⟩ := (ht.inFlight q queue hq _ _).1 hl
  obtain ⟨he, hs⟩ := LocalInFlight.mk.inj hflight
  have ha : handle = ⟨d.address⟩ := hs
  subst ha
  exact ⟨d, hd, hdq, rfl, he, hnone, hb, hh, ht.unsettled_cell hd hnone, rfl, he ▸ hl, rfl⟩

theorem Faithful.settle (h : Faithful q s m) (ht : Tokened foreign j s)
    (hq : s.queues[q]? = some queue) {d : Delivery} (hd : d ∈ issued j)
    (hs : SettledOnce d disposition (s.lock queue) l) :
    Faithful q (s.unlock q queue l) (m.settle d.address disposition) := by
  obtain ⟨n, hx⟩ := (h.inFlight queue hq d.address d.event).2 ⟨d.token, hs.was⟩
  refine .unlock hq (fun k => ?_) (fun address e => ?_) (fun k x hx' => ?_) fun address x hx' => ?_
  · rw [Ledger.settle_pending hx]
    by_cases hretry : disposition = .retry
    · rw [(hs.retry hretry).2 k]
      simp only [hretry, true_and]
      split
      · rw [List.map_cons, ← h.pending queue hq]
        rfl
      · exact h.pending queue hq k
    · rw [if_neg fun hc => hretry hc.1, (hs.release hretry).1]
      exact h.pending queue hq k
  · rw [Ledger.settle_inFlight hx, hs.inFlight]
    show _ ↔ ∃ t, (queue.state.inFlight.erase d.token).lookup t = _
    -- another delivery in flight has another cell and another token id
    have hone : ∀ t e, queue.state.inFlight.lookup t = some ⟨e, ⟨d.address⟩⟩ → t = d.token := by
      intro t e hl
      obtain ⟨d', hd', -, rfl, hflight, -⟩ := (ht.inFlight q queue hq _ _).1 hl
      have ha : d.address = d'.address := congrArg (fun f => f.settlement.address) hflight
      rw [ht.address_inj hd hd' ha]
    split
    · subst_vars
      refine ⟨fun ⟨_, hn⟩ => (nomatch hn), fun ⟨t, hl⟩ => ?_⟩
      rw [Map.lookup_erase_eq] at hl
      split at hl
      · cases hl
      · exact absurd (hone t e hl) ‹_›
    · rename_i hne
      rw [h.inFlight queue hq]
      refine exists_congr fun t => ?_
      rw [Map.lookup_erase_eq]
      split
      · subst_vars
        refine ⟨fun hl => ?_, fun hl => (nomatch hl)⟩
        have hsame := hl.symm.trans hs.was
        cases hsame
        exact absurd rfl hne
      · rfl
  · rw [Ledger.settle_pending hx] at hx'
    rw [Ledger.settle_next]
    split at hx'
    · rcases List.mem_cons.1 hx' with rfl | hx'
      · exact h.flight_lt _ _ hx
      · exact h.lt_next k x hx'
    · exact h.lt_next k x hx'
  · rw [Ledger.settle_inFlight hx] at hx'
    rw [Ledger.settle_next]
    split at hx'
    · cases hx'
    · exact h.flight_lt address x hx'

/-- A queue that holds nothing. -/
theorem Faithful.clear (hq : s.queues[q]? = some queue) (hp : ∀ k, l.state.events k = [])
    (hf : ∀ t, l.state.inFlight.lookup t = none) (next : Nat) :
    Faithful q (s.unlock q queue l) { Ledger.empty with next } := by
  refine .unlock hq hp (fun address e => ⟨fun ⟨_, hn⟩ => (nomatch hn), fun ⟨t, hl⟩ => ?_⟩)
    (fun _ _ h => (nomatch h)) fun _ _ h => (nomatch h)
  rw [hf] at hl
  cases hl

/-! ## Steps -/

theorem Ledger.record_elsewhere (h : op.queue ≠ some q) (r : StoreResponse) : m.record q op r = m :=
  if_neg h

theorem Ledger.record_here (h : op.queue = some q) (r : StoreResponse) :
    m.record q op r = m.note op r :=
  if_pos h

theorem Ledger.note_absent (m : Ledger) (op : StoreOp) : m.note op op.absent = m := by
  cases op <;> rfl

theorem StoreOp.retriesFirst_elsewhere (h : op.queue ≠ some q) (t : Store × Ledger) :
    op.RetriesFirst q t := by
  unfold StoreOp.RetriesFirst
  split
  · exact fun hq => absurd (congrArg some hq) h
  · trivial

theorem Ledger.InOrder.enroll (h : m.InOrder) (hlt : ∀ k, ∀ x ∈ m.pending k, x.1 < m.next)
    (e : LocalEvent) : (m.enroll e).InOrder := by
  intro k
  rw [Ledger.enroll_pending]
  split
  · refine List.pairwise_append.2 ⟨h _, List.pairwise_singleton _ _, fun x hx y hy => ?_⟩
    cases List.mem_singleton.1 hy
    exact hlt _ x hx
  · exact h k

theorem Ledger.InOrder.take (h : m.InOrder) (key : QueueKey) (address : Nat) :
    (m.take key address).InOrder := by
  intro k
  cases hm : m.pending key with
  | nil =>
    rw [Ledger.take, hm]
    exact h k
  | cons x rest =>
    rw [Ledger.take_pending hm]
    split
    · have hkey := h key
      rw [hm] at hkey
      exact (List.pairwise_cons.1 hkey).2
    · exact h k

/-- A retry keeps the order exactly if it comes before all that is pending. -/
theorem Ledger.InOrder.settle_iff (h : m.InOrder) (hx : m.inFlight address = some x)
    (disposition : DeliveryDisposition) :
    (m.settle address disposition).InOrder ↔
      (disposition = .retry → ∀ y ∈ m.pending x.2.orderingKey, x.1 < y.1) := by
  constructor
  · intro hs hretry
    have hkey := hs x.2.orderingKey
    rw [Ledger.settle_pending hx, if_pos ⟨hretry, rfl⟩] at hkey
    exact (List.pairwise_cons.1 hkey).1
  · intro hfirst k
    rw [Ledger.settle_pending hx]
    split
    · rename_i hc
      obtain ⟨hretry, rfl⟩ := hc
      exact List.pairwise_cons.2 ⟨hfirst hretry, h _⟩
    · exact h k

theorem retriesFirst_settle {t : Store × Ledger} :
    (StoreOp.settle q token disposition mo).RetriesFirst q t ↔
      ∀ queue, t.1.queues[q]? = some queue → token.belongsTo queue.id = true → ∀ handle,
        token.downcastRef = some handle → ∀ x, t.2.inFlight handle.address = some x →
          disposition = .retry → ∀ y ∈ t.2.pending x.2.orderingKey, x.1 < y.1 := by
  cases disposition with
  | retry =>
    simp only [StoreOp.RetriesFirst, forall_const, Option.mem_def]
  | accept | reject =>
    simp only [StoreOp.RetriesFirst, true_iff]
    exact fun _ _ _ _ _ _ _ hd => (nomatch hd)

theorem Settles.not_refused {cell : LocalSettlementState} {delivery : LocalInFlight}
    (h : Settles queue token l handle cell delivery) {reason : String} :
    ¬ Refusal queue token disposition l reason := by
  intro hr
  cases hr with
  | foreign hb =>
    rw [h.belongs] at hb
    cases hb
  | notLocal _ hn =>
    rw [h.handle_eq] at hn
    cases hn
  | conflicting _ hh hc hd _ =>
    cases h.handle_eq.symm.trans hh
    cases h.cell_eq.symm.trans hc
    rw [h.unsettled] at hd
    cases hd
  | unknown _ hh hno =>
    cases h.handle_eq.symm.trans hh
    exact (hno cell h.cell_eq).2 delivery h.inFlight h.same

/-- A settlement: where the ledger has the delivery in flight, it is the first settlement. -/
theorem Faithful.settleStep (h : Faithful q s m) (ha : Accounted maxCount maxWeight s)
    (ht : Tokened foreign j s) (hq : s.queues[q]? = some queue) {r : Except SpiError Unit}
    (hs : SettleStep queue token disposition (s.lock queue) r l) :
    let op : StoreOp := .settle q token disposition mo
    Faithful q (s.unlock q queue l) (m.note op (.settled (some r))) ∧
      (m.InOrder → ((m.note op (.settled (some r))).InOrder ↔ op.RetriesFirst q (s, m))) := by
  intro op
  -- the condition speaks of this queue and of a delivery in flight
  have hfirst : (∀ handle, token.belongsTo queue.id = true → token.downcastRef = some handle →
      m.inFlight handle.address = none) → op.RetriesFirst q (s, m) := by
    refine fun hnone => retriesFirst_settle.2 fun queue' hq' hb handle hh x hx => ?_
    cases hq.symm.trans hq'
    rw [hnone handle hb hh] at hx
    cases hx
  cases hs with
  | @refused reason hr =>
    refine ⟨h.quiet hq (fun _ => rfl) rfl, fun ho => iff_of_true ho (hfirst fun handle hb hh => ?_)⟩
    cases hx : m.inFlight handle.address with
    | none => rfl
    | some x =>
      obtain ⟨d, -, -, rfl, -, -, hset⟩ := h.settles ht hq hb hh hx
      exact absurd hr hset.not_refused
  | @repeated handle cell hb hh hc hd =>
    have hnone : m.inFlight handle.address = none := by
      cases hx : m.inFlight handle.address with
      | none => rfl
      | some x =>
        obtain ⟨d, -, -, rfl, -, hn, hset⟩ := h.settles ht hq hb hh hx
        cases hset.cell_eq.symm.trans hc
        cases hd
    have hnote : m.note op (.settled (some (.ok ()))) = m := by
      simp only [op, Ledger.note, hh, Ledger.settle_none hnone]
    rw [hnote]
    refine ⟨h.quiet hq (fun _ => rfl) rfl, fun ho => iff_of_true ho
      (hfirst fun handle' _ hh' => ?_)⟩
    cases hh.symm.trans hh'
    exact hnone
  | @first handle cell delivery _ hset hsettled =>
    obtain ⟨f, hf⟩ := ha.fits hq
    obtain ⟨d, hd, hdq, rfl, rfl, rfl, hnone, -⟩ := ht.delivery hq hset
    have honce := hsettled.once hf hset.inFlight
    have hnote : m.note op (.settled (some (.ok ()))) = m.settle d.address disposition := by
      simp only [op, Ledger.note, hset.handle_eq]
    rw [hnote]
    refine ⟨h.settle ht hq hd honce, fun ho => ?_⟩
    obtain ⟨n, hx⟩ := (h.inFlight queue hq d.address d.event).2 ⟨d.token, honce.was⟩
    rw [ho.settle_iff hx, retriesFirst_settle]
    constructor
    · intro hy queue' hq' hb handle hh x hx'
      cases hset.handle_eq.symm.trans hh
      cases hx.symm.trans hx'
      exact hy
    · intro hy
      exact hy queue hq hset.belongs _ hset.handle_eq _ hx

/-- A closed queue holds nothing. -/
theorem QueueOk.closed_empty {capacity : Nat} (h : QueueOk capacity maxWeight state)
    (hc : state.closed = true) (k : QueueKey) : state.events k = [] := by
  have hcard := congrArg Multiset.card (h.closed hc)
  rw [LocalQueueState.held, Multiset.card_add, Multiset.card_zero] at hcard
  have hnone : state.pendingEvents = 0 := Multiset.card_eq_zero.1 (by omega)
  have hk := LocalQueueState.filter_pendingEvents h.balanced.tallied.keyed k
  rw [hnone, Multiset.filter_zero] at hk
  exact (Multiset.coe_eq_zero _).1 hk.symm

theorem Faithful.step (h : Faithful q s m) (ha : Accounted maxCount maxWeight s)
    (ht : Tokened foreign j s) {r : StoreResponse} (hstep : StoreStep foreign s op r s') :
    Faithful q s' (m.record q op r) ∧
      (m.InOrder → ((m.record q op r).InOrder ↔ op.RetriesFirst q (s, m))) := by
  -- a step that is not on this queue
  have hother : op.queue ≠ some q → Faithful q s' m → Faithful q s' (m.record q op r) ∧
      (m.InOrder → ((m.record q op r).InOrder ↔ op.RetriesFirst q (s, m))) := by
    intro hne hf
    rw [Ledger.record_elsewhere hne]
    exact ⟨hf, fun ho => iff_of_true ho (StoreOp.retriesFirst_elsewhere hne _)⟩
  cases hstep with
  | subscribed => exact hother (fun hq => (nomatch hq)) (h.subscribe _ _ _ _)
  | notForeign => exact hother (fun hq => (nomatch hq)) h
  | @foreign address disposition =>
    refine hother (fun hq => (nomatch hq)) (h.elsewhere ?_)
    rw [(settleForeign_queues s address disposition).1]
  | @absent _ q' hop hnone =>
    by_cases hq : q' = q
    · subst hq
      obtain rfl := h.absent hnone
      rw [Ledger.record_here hop, Ledger.note_absent]
      refine ⟨h, fun ho => iff_of_true ho ?_⟩
      unfold StoreOp.RetriesFirst
      split
      · intro _ queue hqueue
        rw [hnone] at hqueue
        cases hqueue
      · trivial
    · exact hother (fun hq' => hq (Option.some.inj (hop.symm.trans hq'))) h
  | @section_ _ _ q' queue l hop hqueue hsec =>
    by_cases hq : q' = q
    · subst hq
      rw [Ledger.record_here hop]
      cases hsec with
      | rejected => exact ⟨h.quiet hqueue (fun _ => rfl) rfl, fun ho => iff_of_true ho trivial⟩
      | accepted hput =>
        exact ⟨h.enroll hqueue hput, fun ho => iff_of_true (ho.enroll h.lt_next _) trivial⟩
      | received hr =>
        cases hr with
        | closed => exact ⟨h.quiet hqueue (fun _ => rfl) rfl, fun ho => iff_of_true ho trivial⟩
        | nothing _ _ hsame | exhausted _ _ _ _ hsame =>
          exact ⟨h.quiet hqueue hsame.events hsame.inFlight, fun ho => iff_of_true ho trivial⟩
        | @message e events state sequence _ hs he hput =>
          have hfresh := (ha.queues _ (List.mem_of_getElem? hqueue)).fresh hs e
          exact ⟨h.take ht hqueue hfresh he hput, fun ho => iff_of_true (ho.take _ _) trivial⟩
      | settled hs =>
        cases hop
        exact h.settleStep ha ht hqueue hs
      | closed hc =>
        have hempty : Ledger.InOrder { Ledger.empty with next := m.next } :=
          fun _ => List.Pairwise.nil
        refine ⟨?_, fun _ => iff_of_true hempty trivial⟩
        cases hc with
        | again _ hclosed =>
          refine .clear hqueue (fun k => ?_) (fun t => ?_) _
          · exact (ha.queues _ (List.mem_of_getElem? hqueue)).closed_empty hclosed k
          · cases hl : queue.state.inFlight.lookup t with
            | none => exact hl
            | some flight =>
              obtain ⟨-, -, -, -, -, -, hopen⟩ := (ht.inFlight _ queue hqueue _ _).1 hl
              have hclosed : queue.state.closed = true := hclosed
              rw [hclosed] at hopen
              cases hopen
        | emptied he hin =>
          refine .clear hqueue (fun k => ?_) (fun t => ?_) _
          · exact congrArg (Option.elim · [] QueueLane.events) (he.lookup k)
          · dsimp only
            rw [hin, Finmap.lookup_empty]
    · refine hother (fun hq' => hq (Option.some.inj (hop.symm.trans hq'))) (h.elsewhere ?_)
      exact (Store.unlock_queues hqueue l q).trans (if_neg (Ne.symm hq))

end

/-! ## Runs -/

/-- The ledger follows the queue `q`: it lists the events of its lanes, and a message that is
received is the first of its key. -/
structure Described (foreign : Nat) (q : QueueRef) (t : Store × Ledger) : Prop where
  events : ∀ queue, t.1.queues[q]? = some queue → ∀ k,
    queue.state.events k = (t.2.pending k).map Prod.snd
  received : ∀ resource m again waits message s',
    t.1.step foreign (.receive q resource m again waits) =
      some (.received (some (.message message)), s') →
    ∃ n e rest id handle, t.2.pending message.orderingKey = (n, e) :: rest ∧
      message = e.intoInbound id handle

theorem Faithful.described (h : Faithful q s m) (ha : Accounted maxCount maxWeight s) :
    Described foreign q (s, m) := by
  refine ⟨h.pending, fun resource mo again waits message s' hstep => ?_⟩
  cases hq : s.queues[q]? with
  | none =>
    rw [Store.step, Store.enter, hq] at hstep
    cases hstep
  | some queue =>
    have hok := ha.queues queue (List.mem_of_getElem? hq)
    obtain ⟨r, l, heq, hr⟩ :=
      @receive_spec (s.lock queue) queue hok.balanced resource mo again waits
    simp only [Store.step, Store.enter, hq, heq, Option.map_some] at hstep
    cases hr with
    | closed => cases hstep
    | nothing => cases hstep
    | exhausted => cases hstep
    | @message e events state sequence _ _ he _ =>
      obtain ⟨n, rest, hm, -⟩ := h.head hq he
      cases hstep
      exact ⟨n, e, rest, _, _, hm, rfl⟩

/-- **When retries keep the order.** The ledger follows the queue through every run, and the
pending events of each key are in the order of their admission in every state of the run if and
only if every retry of the run comes before the pending events of its key. -/
theorem trace_retry_order (maxCount : Nat) (maxWeight : Option ℕ+)
    (cells : List LocalSettlementState) (q : QueueRef) (ops : List StoreOp)
    (hops : ∀ op ∈ ops, op.Weighed maxWeight) :
    let step := Store.recorded cells.length q
    let start : Store × Ledger := (.new maxCount maxWeight cells, .empty)
    Reaches step (Described cells.length q) start ops ∧
      (Reaches step (fun t => t.2.InOrder) start ops ↔
        Meets step (fun t op => op.RetriesFirst q t) start ops) := by
  intro step start
  let I : Store × Ledger → Prop := fun t =>
    Accounted maxCount maxWeight t.1 ∧ (∃ j, Tokened cells.length j t.1) ∧ Faithful q t.1 t.2
  have hstart : I start := ⟨.new cells, ⟨[], .new cells⟩, .new cells⟩
  have hstep : ∀ (t : Store × Ledger) op, I t → op.Weighed maxWeight →
      ∃ r t', step t op = some (r, t') ∧ I t' ∧
        (t.2.InOrder → (t'.2.InOrder ↔ op.RetriesFirst q t)) := by
    rintro ⟨s, m⟩ op ⟨ha, ⟨j, ht⟩, hf⟩ hop
    obtain ⟨r, s', heq, hs, ha'⟩ := ha.step cells.length hop
    obtain ⟨hf', horder⟩ := hf.step ha ht hs
    exact ⟨r, (s', m.record q op r), by simp only [step, Store.recorded, heq, Option.map_some],
      ⟨ha', ⟨_, ht.step ha hs⟩, hf'⟩, horder⟩
  refine ⟨reaches_invariant (I := I) (fun t op ht hop => ?_) (fun t ht => ht.2.2.described ht.1)
    hstart hops, reaches_iff_meets hstep hstart (fun _ => List.Pairwise.nil) hops⟩
  obtain ⟨r, t', heq, ht', -⟩ := hstep t op ht hop
  exact ⟨r, t', heq, ht'⟩

/-- The topic of the queue. -/
def queueTopic (queue : LocalQueue) (_ : LocalEvent) : TopicAddress := queue.topic

/-- Two events of one key are received and then retried. -/
noncomputable def retriedBoth (first second : Nat) : List StoreOp :=
  [.subscribe ⟨7⟩ ⟨"orders"⟩ ⟨"worker"⟩ 4,
    .publishTo 0 (LocalQueueState.keyedEvent "a1" "a" none) earlyMoment,
    .publishTo 0 (LocalQueueState.keyedEvent "a2" "a" none) earlyMoment,
    .receive 0 queueTopic earlyMoment earlyMoment none,
    .receive 0 queueTopic earlyMoment earlyMoment none,
    .settle 0 ⟨⟨7⟩, .localSettlement ⟨first⟩⟩ .retry earlyMoment,
    .settle 0 ⟨⟨7⟩, .localSettlement ⟨second⟩⟩ .retry earlyMoment]

/-- The message in an answer. -/
def StoreResponse.message? : StoreResponse → Option InboundMessage
  | .received (some (.message message)) => some message
  | _ => none

set_option maxRecDepth 16000 in
/-- Retried in the order of their admission, they are pending in reverse, and the later one is
received first. -/
theorem trace_retriedBoth_reversed :
    ∃ rs t r s', trace (Store.recorded 0 0) (.new 5 none [], .empty) (retriedBoth 0 1) =
        some (rs, t) ∧ ¬ t.2.InOrder ∧
      t.1.step 0 (.receive 0 queueTopic earlyMoment earlyMoment none) = some (r, s') ∧
      r.message?.map (fun message => message.id) = some ⟨"a2"⟩ ∧
      (t.2.pending (some ⟨"a"⟩)).map (fun x => (x.1, x.2.id)) =
        [(1, ⟨"a2"⟩), (0, ⟨"a1"⟩)] := by
  have hpending : (trace (Store.recorded 0 0) (.new 5 none [], .empty) (retriedBoth 0 1)).map
      (fun p => (p.2.2.pending (some ⟨"a"⟩)).map fun x => (x.1, x.2.id)) =
        some [(1, ⟨"a2"⟩), (0, ⟨"a1"⟩)] := by decide
  have hnext : (trace (Store.recorded 0 0) (.new 5 none [], .empty) (retriedBoth 0 1)).bind
      (fun p => (p.2.1.step 0 (.receive 0 queueTopic earlyMoment earlyMoment none)).map
        fun r => r.1.message?.map fun message => message.id) = some (some ⟨"a2"⟩) := by decide
  obtain ⟨⟨rs, t⟩, ht, hp⟩ := Option.map_eq_some_iff.1 hpending
  rw [ht, Option.bind_some] at hnext
  obtain ⟨⟨r, s'⟩, hs, hid⟩ := Option.map_eq_some_iff.1 hnext
  refine ⟨rs, t, r, s', ht, fun ho => ?_, hs, hid, hp⟩
  have hsorted := (ho (some ⟨"a"⟩)).map (S := fun x y : Nat × EventId => x.1 < y.1)
    (fun x : Admission => (x.1, x.2.id)) fun _ _ h => h
  rw [hp] at hsorted
  exact absurd hsorted (by decide)

set_option maxRecDepth 16000 in
/-- Retried in reverse, they are in order. -/
theorem trace_retry_order_reverse :
    Meets (Store.recorded 0 0) (fun t op => op.RetriesFirst 0 t) (.new 5 none [], .empty)
        (retriedBoth 1 0) ∧
      Reaches (Store.recorded 0 0) (fun t => t.2.InOrder) (.new 5 none [], .empty)
        (retriedBoth 1 0) := by
  have hmeets : Meets (Store.recorded 0 0) (fun t op => op.RetriesFirst 0 t)
      (.new 5 none [], .empty) (retriedBoth 1 0) := by decide
  refine ⟨hmeets, (trace_retry_order 5 none [] 0 (retriedBoth 1 0) ?_).2.2 hmeets⟩
  intro op hop
  simp only [retriedBoth, List.mem_cons, List.not_mem_nil, or_false] at hop
  rcases hop with rfl | rfl | rfl | rfl | rfl | rfl | rfl <;>
    simp [StoreOp.Weighed, LocalQueueState.keyedEvent]

end EventBus.Local
