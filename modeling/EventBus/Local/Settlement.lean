import EventBus.Local.StoreRun

/-!
# Settlement over whole runs

A token names its delivery twice: by the cell it shares with the queue, and by the token id that
the cell carries, under which the queue finds the delivery in `in_flight`. Closing a queue empties
`in_flight` and leaves the cells alone, so the two need not agree afterwards.

A run keeps a journal of the deliveries issued and of what settlements gave back to the budget
(`notes`). `Tokened` says what the journal determines: `in_flight` holds exactly the deliveries that
this queue has issued and nobody has settled, unless the queue is closed, and then nothing. What a
settlement does is read off from it (`Tokened.settled`), for any token whatsoever.
-/

namespace EventBus.Local

open Lib

variable {cell : LocalSettlementState} {foreign address : Nat} {r : StoreResponse} {op : StoreOp}
  {s s' : Store}

/-! ## Cells -/

namespace Store

/-- The disposition in a cell. -/
def disposition (s : Store) (address : Nat) : Option DeliveryDisposition :=
  s.cells[address]?.bind (·.disposition)

/-- The token id in a cell. -/
def tokenIdAt (s : Store) (address : Nat) : Option String := s.cells[address]?.map (·.tokenId)

/-- What a step may do to the cells: nothing, add one, or fill one that had no disposition. -/
inductive CellStep (cells : List LocalSettlementState) : List LocalSettlementState → Prop where
  | same : CellStep cells cells
  | added (token : String) : CellStep cells (cells ++ [⟨token, none⟩])
  | filled {address : Nat} {token : String} (disposition : DeliveryDisposition) :
    cells[address]? = some ⟨token, none⟩ →
    CellStep cells (cells.set address ⟨token, some disposition⟩)

theorem disposition_of_cell (h : s.cells[address]? = some cell) :
    s.disposition address = cell.disposition := by
  rw [disposition, h, Option.bind_some]

/-- A cell keeps its token id, and its disposition once it has one. -/
theorem CellStep.keeps (h : CellStep s.cells s'.cells) :
    (∀ t, s.tokenIdAt address = some t → s'.tokenIdAt address = some t) ∧
      ∀ d, s.disposition address = some d → s'.disposition address = some d := by
  unfold tokenIdAt disposition
  generalize s.cells = cells at h ⊢
  generalize s'.cells = cells' at h ⊢
  cases h with
  | same => exact ⟨fun _ => id, fun _ => id⟩
  | added token =>
    rw [List.getElem?_append]
    split
    · exact ⟨fun _ => id, fun _ => id⟩
    · rename_i hlt
      rw [List.getElem?_eq_none (Nat.le_of_not_lt hlt)]
      exact ⟨fun _ h => (nomatch h), fun _ h => (nomatch h)⟩
  | @filled a token disposition hcell =>
    by_cases ha : a = address
    · subst ha
      have hlt := (List.getElem?_eq_some_iff.1 hcell).1
      rw [List.getElem?_set_self hlt, hcell]
      exact ⟨fun _ => id, fun _ h => (nomatch h)⟩
    · rw [List.getElem?_set_ne ha]
      exact ⟨fun _ => id, fun _ => id⟩

end Store

theorem StoreStep.cells (h : StoreStep foreign s op r s') : Store.CellStep s.cells s'.cells := by
  cases h with
  | subscribed => exact .same
  | absent => exact .same
  | notForeign => exact .same
  | @foreign address disposition =>
    unfold Store.settleForeign
    split
    · exact .filled _ ‹_›
    · exact .same
  | section_ _ _ hsec =>
    cases hsec with
    | rejected => exact .same
    | accepted => exact .same
    | received hr =>
      cases hr with
      | closed => exact .same
      | nothing => exact .same
      | exhausted => exact .same
      | message => exact .added _
    | settled hs =>
      cases hs with
      | refused => exact .same
      | repeated => exact .same
      | @first handle cell delivery l' hs hset =>
        obtain ⟨t, disp⟩ := cell
        cases hs.unsettled
        cases hset with
        | retried => exact .filled _ hs.cell_eq
        | released => exact .filled _ hs.cell_eq
    | closed hc =>
      cases hc with
      | again => exact .same
      | emptied => exact .same

/-! ## The journal -/

/-- A delivery: the queue that issued it, the cell of its token, its token id and its event. -/
structure Delivery where
  queue : QueueRef
  address : Nat
  token : String
  event : LocalEvent

inductive Note where
  | issued (delivery : Delivery)
  /-- A settlement with the token of this cell has given something back to the budget. -/
  | freed (address count weight : Nat)

/-- The delivery that has been made with a message, as it can be seen when the section ends. -/
def Delivery.of (q : QueueRef) (message : InboundMessage) (s : Store) : Option Delivery := do
  let settlement ← message.settlement
  let handle ← settlement.downcastRef
  let token ← s.tokenIdAt handle.address
  let queue ← s.queues[q]?
  let flight ← queue.state.inFlight.lookup token
  return ⟨q, handle.address, token, flight.event⟩

/-- What is noted of a step. -/
def notes (s : Store) (op : StoreOp) (r : StoreResponse) (s' : Store) : List Note :=
  match op, r with
  | .receive q _ _ _ _, .received (some (.message message)) =>
    ((Delivery.of q message s').map .issued).toList
  | .settle _ token _ _, _ =>
    if s'.outstanding = s.outstanding then []
    else (token.downcastRef.map fun handle => .freed handle.address
      (s.outstanding.state.countUsed - s'.outstanding.state.countUsed)
      (s.outstanding.state.weightUsed - s'.outstanding.state.weightUsed)).toList
  | _, _ => []

/-- The deliveries issued. -/
def issued (j : List Note) : List Delivery :=
  j.filterMap fun
    | .issued d => some d
    | .freed _ _ _ => none

/-- What settlements with the token of a cell gave back, each as count and weight. -/
def freed (address : Nat) (j : List Note) : List (Nat × Nat) :=
  j.filterMap fun
    | .issued _ => none
    | .freed a count weight => if a = address then some (count, weight) else none

@[simp] theorem issued_append (j n : List Note) : issued (j ++ n) = issued j ++ issued n :=
  List.filterMap_append

@[simp] theorem freed_append (address : Nat) (j n : List Note) :
    freed address (j ++ n) = freed address j ++ freed address n :=
  List.filterMap_append

/-! ## The invariant -/

/-- The queue holds in flight what it has issued and nobody has settled, unless it is closed. -/
def InFlightIs (j : List Note) (s : Store) (q : QueueRef) (state : LocalQueueState) : Prop :=
  ∀ t flight, state.inFlight.lookup t = some flight ↔ ∃ d ∈ issued j, d.queue = q ∧ d.token = t ∧
    flight = ⟨d.event, ⟨d.address⟩⟩ ∧ s.disposition d.address = none ∧ state.closed = false

/-- What a delivery has given back to the budget by being settled. -/
def settledShare (d : Delivery) : Option DeliveryDisposition → List (Nat × Nat)
  | some .accept | some .reject => [(1, d.event.weightBytes)]
  | some .retry | none => []

structure Tokened (foreign : Nat) (j : List Note) (s : Store) : Prop where
  foreign_le : foreign ≤ s.cells.length
  cell : ∀ d ∈ issued j, foreign ≤ d.address ∧ s.tokenIdAt d.address = some d.token
  sequence : ∀ d ∈ issued j, ∃ queue n, s.queues[d.queue]? = some queue ∧
    n ≤ queue.state.nextDeliveryToken ∧ d.token = tokenId d.event n
  tokens : ((issued j).map fun d => (d.queue, d.token)).Nodup
  addresses : ((issued j).map Delivery.address).Nodup
  inFlight : ∀ q queue, s.queues[q]? = some queue → InFlightIs j s q queue.state
  freed_eq : ∀ d ∈ issued j, freed d.address j = settledShare d (s.disposition d.address)
  freed_new : ∀ address, s.cells.length ≤ address → freed address j = []

section
variable {state state' : LocalQueueState} {disposition : DeliveryDisposition} {l : Locked}
  {token : SettlementToken} {maxCount : Nat} {maxWeight : Option ℕ+} {j n : List Note}
  {q : QueueRef} {queue : LocalQueue} {d d' : Delivery}

theorem Tokened.new (cells : List LocalSettlementState) :
    Tokened cells.length [] (.new maxCount maxWeight cells) where
  foreign_le := le_rfl
  cell _ h := nomatch h
  sequence _ h := nomatch h
  tokens := List.nodup_nil
  addresses := List.nodup_nil
  inFlight _ _ h := nomatch h
  freed_eq _ h := nomatch h
  freed_new _ _ := rfl

theorem Tokened.address_inj (h : Tokened foreign j s) (hd : d ∈ issued j) (hd' : d' ∈ issued j)
    (heq : d.address = d'.address) : d = d' :=
  List.inj_on_of_nodup_map h.addresses hd hd' heq

theorem Tokened.token_inj (h : Tokened foreign j s) (hd : d ∈ issued j) (hd' : d' ∈ issued j)
    (hq : d.queue = d'.queue) (heq : d.token = d'.token) : d = d' :=
  List.inj_on_of_nodup_map h.tokens hd hd' (Prod.ext hq heq)

/-- An issued delivery has a cell. -/
theorem Tokened.address_lt (h : Tokened foreign j s) (hd : d ∈ issued j) :
    d.address < s.cells.length := by
  have htok := (h.cell d hd).2
  by_contra hge
  rw [Store.tokenIdAt, List.getElem?_eq_none (Nat.le_of_not_lt hge)] at htok
  cases htok

theorem Tokened.unsettled_cell (h : Tokened foreign j s) (hd : d ∈ issued j)
    (hnone : s.disposition d.address = none) : s.cells[d.address]? = some ⟨d.token, none⟩ := by
  obtain ⟨⟨t, disp⟩, hc, rfl⟩ := Option.map_eq_some_iff.1 (h.cell d hd).2
  rw [Store.disposition_of_cell hc] at hnone
  cases hnone
  exact hc

theorem InFlightIs.congr (h : InFlightIs j s q state) (hin : state'.inFlight = state.inFlight)
    (hc : state'.closed = state.closed)
    (hs : ∀ d ∈ issued j, d.queue = q → s'.disposition d.address = s.disposition d.address) :
    InFlightIs j s' q state' := by
  intro t flight
  rw [hin, hc, h]
  refine exists_congr fun d => and_congr_right fun hd => and_congr_right fun hq => ?_
  rw [hs d hd hq]

/-- A step that issues nothing. -/
theorem Tokened.update (h : Tokened foreign j s) (hn : issued n = [])
    (hcells : Store.CellStep s.cells s'.cells) (hlen : s'.cells.length = s.cells.length)
    (hqueues : ∀ (q : QueueRef) (queue : LocalQueue), s.queues[q]? = some queue →
      ∃ queue' : LocalQueue, s'.queues[q]? = some queue' ∧
        queue'.state.nextDeliveryToken = queue.state.nextDeliveryToken)
    (hin : ∀ (q : QueueRef) (queue : LocalQueue), s'.queues[q]? = some queue →
      InFlightIs j s' q queue.state)
    (hfreed : ∀ d ∈ issued j, freed d.address n = [] ∧
      s'.disposition d.address = s.disposition d.address ∨
      s.disposition d.address = none ∧
        freed d.address n = settledShare d (s'.disposition d.address))
    (hnew : ∀ address, s.cells.length ≤ address → freed address n = []) :
    Tokened foreign (j ++ n) s' := by
  have hissued : issued (j ++ n) = issued j := by rw [issued_append, hn, List.append_nil]
  refine ⟨hlen ▸ h.foreign_le, ?_, ?_, ?_, ?_, ?_, ?_, ?_⟩ <;> try rw [hissued]
  · intro d hd
    obtain ⟨hle, htok⟩ := h.cell d hd
    exact ⟨hle, hcells.keeps.1 _ htok⟩
  · intro d hd
    obtain ⟨queue, m, hq, hm, htok⟩ := h.sequence d hd
    obtain ⟨queue', hq', hnext⟩ := hqueues d.queue queue hq
    exact ⟨queue', m, hq', hnext ▸ hm, htok⟩
  · exact h.tokens
  · exact h.addresses
  · intro q queue hq t flight
    rw [hissued]
    exact hin q queue hq t flight
  · intro d hd
    have heq := h.freed_eq d hd
    rw [freed_append, heq]
    obtain ⟨hnil, hsame⟩ | ⟨hnone, hshare⟩ := hfreed d hd
    · rw [hnil, hsame, List.append_nil]
    · rw [hnone, hshare]
      rfl
  · intro address hle
    rw [hlen] at hle
    rw [freed_append, h.freed_new address hle, hnew address hle, List.append_nil]

theorem Tokened.subscribe (h : Tokened foreign j s) (id : Id) (topic : TopicAddress)
    (subscriberId : SubscriberId) (capacity : Nat) :
    Tokened foreign j (s.subscribe id topic subscriberId capacity) := by
  rw [← List.append_nil j]
  refine h.update rfl .same rfl (fun q queue hq => ?_) (fun q queue hq => ?_)
    (fun _ _ => .inl ⟨rfl, rfl⟩) fun _ _ => rfl
  · refine ⟨queue, ?_, rfl⟩
    rw [Store.subscribe, List.getElem?_append_left (List.getElem?_eq_some_iff.1 hq).1, hq]
  · rw [Store.subscribe, List.getElem?_append] at hq
    split at hq
    · exact h.inFlight q queue hq
    · -- the new queue has issued nothing
      rename_i hlt
      rw [List.getElem?_singleton] at hq
      split at hq
      · cases hq
        refine fun t flight => ⟨by rintro ⟨⟩, ?_⟩
        rintro ⟨d, hd, rfl, -⟩
        obtain ⟨queue, -, hq, -⟩ := h.sequence d hd
        exact absurd (List.getElem?_eq_some_iff.1 hq).1 hlt
      · cases hq

theorem Store.unlock_queues (hq : s.queues[q]? = some queue) (l : Locked) (q' : QueueRef) :
    (s.unlock q queue l).queues[q']? =
      if q' = q then some { queue with state := l.state } else s.queues[q']? := by
  unfold Store.unlock
  split
  · subst_vars
    exact List.getElem?_set_self (List.getElem?_eq_some_iff.1 hq).1
  · exact List.getElem?_set_ne (Ne.symm ‹_›)

/-- A section that issues nothing. -/
theorem Tokened.unlock (h : Tokened foreign j s) (hq : s.queues[q]? = some queue)
    (hn : issued n = []) (hcells : Store.CellStep s.cells l.cells)
    (hlen : l.cells.length = s.cells.length)
    (hnext : l.state.nextDeliveryToken = queue.state.nextDeliveryToken)
    (hin : InFlightIs j (s.unlock q queue l) q l.state) (hother : ∀ d ∈ issued j, d.queue ≠ q →
      (s.unlock q queue l).disposition d.address = s.disposition d.address)
    (hfreed : ∀ d ∈ issued j, freed d.address n = [] ∧
      (s.unlock q queue l).disposition d.address = s.disposition d.address ∨
      s.disposition d.address = none ∧
        freed d.address n = settledShare d ((s.unlock q queue l).disposition d.address))
    (hnew : ∀ address, s.cells.length ≤ address → freed address n = []) :
    Tokened foreign (j ++ n) (s.unlock q queue l) := by
  refine h.update hn hcells hlen (fun q' queue' hq' => ?_) (fun q' queue' hq' => ?_) hfreed hnew
  · rw [Store.unlock_queues hq]
    split
    · subst_vars
      rw [hq] at hq'
      cases hq'
      exact ⟨_, rfl, hnext⟩
    · exact ⟨queue', hq', rfl⟩
  · rw [Store.unlock_queues hq] at hq'
    split at hq'
    · subst_vars
      cases hq'
      exact hin
    · rename_i hne
      exact (h.inFlight q' queue' hq').congr rfl rfl fun d hd hdq => hother d hd (hdq ▸ hne)

section
variable (h : Tokened foreign j s) (hq : s.queues[q]? = some queue) (hcells : l.cells = s.cells)
  (hnext : l.state.nextDeliveryToken = queue.state.nextDeliveryToken)
include h hq hcells hnext

/-- A section that leaves the cells alone. -/
theorem Tokened.sameCells
    (hin : (∀ a, (s.unlock q queue l).disposition a = s.disposition a) →
      InFlightIs j (s.unlock q queue l) q l.state) : Tokened foreign j (s.unlock q queue l) := by
  have hdisp : ∀ a, (s.unlock q queue l).disposition a = s.disposition a := by
    intro a
    simp only [Store.disposition, Store.unlock, hcells]
  rw [← List.append_nil j]
  exact h.unlock hq rfl (hcells ▸ .same) (congrArg _ hcells) hnext (hin hdisp)
    (fun d _ _ => hdisp d.address) (fun d _ => .inl ⟨rfl, hdisp d.address⟩) fun _ _ => rfl

/-- It leaves the deliveries alone, too. -/
theorem Tokened.quiet (hin : l.state.inFlight = queue.state.inFlight)
    (hc : l.state.closed = queue.state.closed) : Tokened foreign j (s.unlock q queue l) :=
  h.sameCells hq hcells hnext fun hdisp =>
    (h.inFlight q queue hq).congr hin hc fun d _ _ => hdisp d.address

/-- Closing discards all deliveries; the cells do not notice. -/
theorem Tokened.emptied (hin : l.state.inFlight = ∅) (hc : l.state.closed = true) :
    Tokened foreign j (s.unlock q queue l) := by
  refine h.sameCells hq hcells hnext fun _ t flight => ?_
  rw [hin, hc]
  refine iff_of_false (by rintro ⟨⟩) ?_
  rintro ⟨_, _, _, _, _, _, ⟨⟩⟩

end

/-- Another provider's cells are not those of a delivery. -/
theorem Tokened.settleForeign (h : Tokened foreign j s) (ha : address < foreign)
    (disposition : DeliveryDisposition) :
    Tokened foreign j (s.settleForeign address disposition) := by
  obtain ⟨hqs, -⟩ := settleForeign_queues s address disposition
  have hcells := StoreStep.cells
    (.foreign ha : StoreStep foreign s (.foreign address disposition) .done _)
  have hlen : (s.settleForeign address disposition).cells.length = s.cells.length := by
    unfold Store.settleForeign
    split
    · exact List.length_set
    · rfl
  have hdisp : ∀ d ∈ issued j,
      (s.settleForeign address disposition).disposition d.address = s.disposition d.address := by
    intro d hd
    have hle := (h.cell d hd).1
    unfold Store.settleForeign Store.disposition
    split
    · simp only [List.getElem?_set_ne (show address ≠ d.address by omega)]
    · rfl
  rw [← List.append_nil j]
  exact h.update rfl hcells hlen (fun q queue hq => ⟨queue, by rw [hqs, hq], rfl⟩)
    (fun q queue hq => (h.inFlight q queue (hqs ▸ hq)).congr rfl rfl fun d hd _ => hdisp d hd)
    (fun d hd => .inl ⟨rfl, hdisp d hd⟩) fun _ _ => rfl

/-! ## A new delivery -/

/-- The store after a delivery of the event `e`. -/
def Store.delivered (s : Store) (q : QueueRef) (queue : LocalQueue) (state : LocalQueueState)
    (e : LocalEvent) (sequence : Nat) : Store :=
  s.unlock q queue (deliver queue e sequence { s.lock queue with state }).2

/-- What the journal notes of it. -/
def Delivery.next (s : Store) (q : QueueRef) (e : LocalEvent) (sequence : Nat) : Delivery :=
  ⟨q, s.cells.length, tokenId e sequence, e⟩

section
variable {e : LocalEvent} {sequence : Nat}

theorem Store.delivered_cells (s : Store) (q : QueueRef) (queue : LocalQueue)
    (state : LocalQueueState) (e : LocalEvent) (sequence : Nat) :
    (s.delivered q queue state e sequence).cells = s.cells ++ [⟨tokenId e sequence, none⟩] := rfl

theorem notes_delivered (hq : s.queues[q]? = some queue) (state : LocalQueueState) (e : LocalEvent)
    (sequence : Nat) (resource : LocalQueue → LocalEvent → TopicAddress) (m again : Moment)
    (waits : Option Nat) :
    notes s (.receive q resource m again waits)
      (.received (some (deliver queue e sequence { s.lock queue with state }).1))
      (s.delivered q queue state e sequence) = [.issued (.next s q e sequence)] := by
  have hcell : (s.delivered q queue state e sequence).tokenIdAt s.cells.length =
      some (tokenId e sequence) := by
    rw [Store.tokenIdAt, Store.delivered_cells, List.getElem?_concat_length, Option.map_some]
  have hqueue : (s.delivered q queue state e sequence).queues[q]? = _ :=
    (Store.unlock_queues hq _ q).trans (if_pos rfl)
  have hof : Delivery.of q (e.intoInbound queue.id ⟨s.cells.length⟩)
      (s.delivered q queue state e sequence) = some (.next s q e sequence) := by
    simp only [Delivery.of, LocalEvent.intoInbound, SettlementToken.downcastRef, hcell, hqueue,
      deliver, Option.bind_eq_bind, Option.bind_some, Map.lookup_insert_eq, if_pos]
    rfl
  exact congrArg (fun d => (Option.map Note.issued d).toList) hof

/-- The delivery that is noted last, beside the others. -/
theorem inFlightIs_concat (hd : s'.disposition d.address = none)
    (hs : ∀ x ∈ issued j, s'.disposition x.address = s.disposition x.address) :
    InFlightIs (j ++ [.issued d]) s' q state ↔ ∀ t flight,
      state.inFlight.lookup t = some flight ↔
        (∃ x ∈ issued j, x.queue = q ∧ x.token = t ∧ flight = ⟨x.event, ⟨x.address⟩⟩ ∧
          s.disposition x.address = none ∧ state.closed = false) ∨
        d.queue = q ∧ d.token = t ∧ flight = ⟨d.event, ⟨d.address⟩⟩ ∧ state.closed = false := by
  have hissued : issued (j ++ [.issued d]) = issued j ++ [d] := issued_append _ _
  refine forall_congr' fun t => forall_congr' fun flight => iff_congr Iff.rfl ?_
  rw [hissued]
  constructor
  · rintro ⟨x, hx, hxq, ht, hf, hn, hc⟩
    obtain hx | hx := List.mem_append.1 hx
    · exact .inl ⟨x, hx, hxq, ht, hf, hs x hx ▸ hn, hc⟩
    · cases List.mem_singleton.1 hx
      exact .inr ⟨hxq, ht, hf, hc⟩
  · rintro (⟨x, hx, hxq, ht, hf, hn, hc⟩ | ⟨hdq, ht, hf, hc⟩)
    · exact ⟨x, List.mem_append_left _ hx, hxq, ht, hf, (hs x hx).trans hn, hc⟩
    · exact ⟨d, List.mem_append_right _ (List.mem_singleton_self d), hdq, ht, hf, hd, hc⟩

theorem InFlightIs.elsewhere (h : InFlightIs j s q state) (hne : d.queue ≠ q)
    (hd : s'.disposition d.address = none)
    (hs : ∀ x ∈ issued j, s'.disposition x.address = s.disposition x.address) :
    InFlightIs (j ++ [.issued d]) s' q state := by
  refine (inFlightIs_concat hd hs).2 fun t flight => (h t flight).trans ?_
  exact ⟨.inl, fun hor => hor.resolve_right fun hr => hne hr.1⟩

theorem InFlightIs.insert (h : InFlightIs j s q state) (hq : d.queue = q)
    (hfresh : state.inFlight.lookup d.token = none)
    (hin : state'.inFlight = state.inFlight.insert d.token ⟨d.event, ⟨d.address⟩⟩)
    (hopen : state.closed = false) (hopen' : state'.closed = false)
    (hd : s'.disposition d.address = none)
    (hs : ∀ x ∈ issued j, s'.disposition x.address = s.disposition x.address) :
    InFlightIs (j ++ [.issued d]) s' q state' := by
  refine (inFlightIs_concat hd hs).2 fun t flight => ?_
  have hbefore := h t flight
  rw [hin, Map.lookup_insert_eq, hopen']
  rw [hopen] at hbefore
  split
  · rename_i ht
    subst ht
    rw [← hbefore, hfresh]
    constructor
    · intro hf
      cases hf
      exact .inr ⟨hq, rfl, rfl, rfl⟩
    · rintro (hf | ⟨-, -, rfl, -⟩)
      · cases hf
      · rfl
  · rename_i ht
    rw [hbefore]
    exact ⟨.inl, fun hor => hor.resolve_right fun hr => ht hr.2.1.symm⟩

/-- The delivery is new in every respect: to the cells by its address, to the deliveries of the
queue by its token id, because the sequence numbers go up. -/
theorem Tokened.delivered (h : Tokened foreign j s) (hq : s.queues[q]? = some queue)
    (hs : checkedSucc queue.state.nextDeliveryToken = some sequence)
    (hfresh : queue.state.inFlight.lookup (tokenId e sequence) = none)
    (hin : state.inFlight = queue.state.inFlight) (hopen : state.closed = false)
    (hclosed : queue.state.closed = false) :
    Tokened foreign (j ++ [.issued (.next s q e sequence)])
      (s.delivered q queue state e sequence) := by
  obtain ⟨hseq, -⟩ := checkedSucc_some hs
  have hcells := s.delivered_cells q queue state e sequence
  have hqueues := Store.unlock_queues hq (deliver queue e sequence { s.lock queue with state }).2
  have hdisp : ∀ d ∈ issued j,
      (s.delivered q queue state e sequence).disposition d.address = s.disposition d.address := by
    intro d hd
    rw [Store.disposition, hcells, List.getElem?_append_left (h.address_lt hd), Store.disposition]
  have hnone : (s.delivered q queue state e sequence).disposition s.cells.length = none := by
    rw [Store.disposition, hcells, List.getElem?_concat_length]
    rfl
  have hissued : issued (j ++ [.issued (.next s q e sequence)]) =
      issued j ++ [.next s q e sequence] := issued_append _ _
  refine ⟨?_, ?_, ?_, ?_, ?_, ?_, ?_, ?_⟩ <;> try rw [hissued]
  · rw [hcells, List.length_append]
    exact h.foreign_le.trans (Nat.le_add_right _ _)
  · intro d hd
    obtain hd | hd := List.mem_append.1 hd
    · obtain ⟨hle, htok⟩ := h.cell d hd
      refine ⟨hle, ?_⟩
      rw [Store.tokenIdAt, hcells, List.getElem?_append_left (h.address_lt hd)]
      exact htok
    · cases List.mem_singleton.1 hd
      refine ⟨h.foreign_le, ?_⟩
      rw [Store.tokenIdAt, hcells]
      exact congrArg _ List.getElem?_concat_length
  · intro d hd
    obtain hd | hd := List.mem_append.1 hd
    · obtain ⟨queue', n, hq', hn, htok⟩ := h.sequence d hd
      by_cases hdq : d.queue = q
      · rw [hdq, hq] at hq'
        cases hq'
        refine ⟨_, n, (hqueues d.queue).trans (if_pos hdq), ?_, htok⟩
        dsimp only [deliver]
        omega
      · exact ⟨queue', n, ((hqueues d.queue).trans (if_neg hdq)).trans hq', hn, htok⟩
    · cases List.mem_singleton.1 hd
      exact ⟨_, sequence, (hqueues q).trans (if_pos rfl), le_rfl, rfl⟩
  · rw [List.map_append, List.map_singleton, ← List.concat_eq_append]
    refine List.Nodup.concat (fun hm => ?_) h.tokens
    obtain ⟨d, hd, heq⟩ := List.mem_map.1 hm
    obtain ⟨rfl, htok⟩ := Prod.mk.inj heq
    obtain ⟨queue', n, hq', hn, ht⟩ := h.sequence d hd
    rw [hq] at hq'
    cases hq'
    have := tokenId_inj (ht.symm.trans htok)
    omega
  · rw [List.map_append, List.map_singleton, ← List.concat_eq_append]
    refine List.Nodup.concat (fun hm => ?_) h.addresses
    obtain ⟨d, hd, heq⟩ := List.mem_map.1 hm
    exact absurd (h.address_lt hd) (heq ▸ lt_irrefl _)
  · intro q' queue' hq'
    have hq'' := (hqueues q').symm.trans hq'
    split at hq''
    · subst_vars
      cases hq''
      exact (h.inFlight _ queue hq).insert (d := .next s _ e _) rfl hfresh
        (congrArg (fun m : Map String LocalInFlight => m.insert _ _) hin) hclosed hopen hnone hdisp
    · exact (h.inFlight q' queue' hq'').elsewhere (Ne.symm ‹_›) hnone hdisp
  · intro d hd
    have hnil : freed d.address [.issued (.next s q e sequence)] = [] := rfl
    rw [freed_append, hnil, List.append_nil]
    obtain hd | hd := List.mem_append.1 hd
    · rw [hdisp d hd]
      exact h.freed_eq d hd
    · cases List.mem_singleton.1 hd
      have hfreed : freed s.cells.length j = [] := h.freed_new _ le_rfl
      exact hfreed.trans (congrArg (settledShare (.next s q e sequence)) hnone).symm
  · intro address hle
    rw [hcells, List.length_append] at hle
    have hnil : freed address [.issued (.next s q e sequence)] = [] := rfl
    rw [freed_append, hnil, List.append_nil]
    exact h.freed_new address (by omega)

end

/-! ## The first settlement -/

/-- What the first settlement of a delivery does to the queue, the budget and the cells. -/
structure SettledOnce (d : Delivery) (disposition : DeliveryDisposition) (l l' : Locked) :
    Prop where
  was : l.state.inFlight.lookup d.token = some ⟨d.event, ⟨d.address⟩⟩
  cells : l'.cells = l.cells.set d.address ⟨d.token, some disposition⟩
  inFlight : l'.state.inFlight = l.state.inFlight.erase d.token
  closed : l'.state.closed = l.state.closed
  nextDeliveryToken : l'.state.nextDeliveryToken = l.state.nextDeliveryToken
  retry : disposition = .retry → l'.outstanding = l.outstanding ∧ ∀ key, l'.state.events key =
    if key = d.event.orderingKey then d.event :: l.state.events key else l.state.events key
  release : disposition ≠ .retry →
    l'.state = { l.state with inFlight := l.state.inFlight.erase d.token } ∧
    l.outstanding.release 1 d.event.weightBytes = some l'.outstanding ∧
    l'.outstanding.state.countUsed + 1 = l.outstanding.state.countUsed ∧
    l'.outstanding.state.weightUsed + d.event.weightBytes = l.outstanding.state.weightUsed

/-- A delivery that can be settled is one that the queue has issued. -/
theorem Tokened.delivery (h : Tokened foreign j s) (hq : s.queues[q]? = some queue)
    {handle : LocalSettlementHandle} {delivery : LocalInFlight}
    (hs : Settles queue token (s.lock queue) handle cell delivery) :
    ∃ d ∈ issued j, d.queue = q ∧ handle = ⟨d.address⟩ ∧ cell = ⟨d.token, none⟩ ∧
      delivery = ⟨d.event, ⟨d.address⟩⟩ ∧ s.disposition d.address = none ∧
      queue.state.closed = false := by
  obtain ⟨d, hd, hdq, htok, rfl, hnone, hc⟩ := (h.inFlight q queue hq _ _).1 hs.inFlight
  refine ⟨d, hd, hdq, hs.same.symm, ?_, rfl, hnone, hc⟩
  obtain ⟨t, disp⟩ := cell
  cases hs.unsettled
  rw [htok]

theorem Settled.once {f : Frame} {l' : Locked} (hf : Fits f l)
    (hl : l.state.inFlight.lookup d.token = some ⟨d.event, ⟨d.address⟩⟩)
    (h : Settled ⟨d.address⟩ ⟨d.token, none⟩ ⟨d.event, ⟨d.address⟩⟩ disposition l l') :
    SettledOnce d disposition l l' := by
  cases h with
  | retried hretry hput =>
    refine ⟨hl, rfl, hput.inFlight, hput.closed, hput.nextDeliveryToken, fun _ =>
      ⟨rfl, fun key => ?_⟩, fun hne => absurd hretry hne⟩
    have hevents := hput.events key
    dsimp only at hevents ⊢
    rw [hevents]
    split
    · subst_vars
      rfl
    · rfl
  | @released b hne hrel =>
    obtain ⟨hcounted, hcount, hweight⟩ := hf.covers (held_erase hl)
    dsimp only at hcounted hweight
    obtain ⟨b', heq, -, -, hc, hw⟩ :=
      l.outstanding.release_some 1 d.event.weightBytes hcount (by omega)
    have hsame : b' = b := Option.some.inj (heq.symm.trans hrel)
    subst hsame
    exact ⟨hl, rfl, rfl, rfl, rfl, fun hretry => absurd hretry hne,
      fun _ => ⟨rfl, heq, hc, hcounted ▸ hw⟩⟩

theorem SettledOnce.disposition_eq (h : SettledOnce d disposition (s.lock queue) l)
    (hlt : d.address < s.cells.length) (address : Nat) :
    (s.unlock q queue l).disposition address =
      if address = d.address then some disposition else s.disposition address := by
  have hcells : l.cells = s.cells.set d.address ⟨d.token, some disposition⟩ := h.cells
  simp only [Store.disposition, Store.unlock, hcells]
  split
  · subst_vars
    rw [List.getElem?_set_self hlt, Option.bind_some]
  · rw [List.getElem?_set_ne (Ne.symm ‹_›)]

/-- A settlement that is no retry is noted with exactly what the delivery had taken. -/
theorem SettledOnce.notes (h : SettledOnce d disposition (s.lock queue) l)
    (htoken : token.downcastRef = some ⟨d.address⟩) (m : Moment) (r : StoreResponse) :
    notes s (.settle q token disposition m) r (s.unlock q queue l) =
      if disposition = .retry then [] else [.freed d.address 1 d.event.weightBytes] := by
  simp only [Local.notes, htoken, Option.map_some, Option.toList_some]
  by_cases hretry : disposition = .retry
  · rw [if_pos hretry]
    exact if_pos (h.retry hretry).1
  · obtain ⟨-, -, hcount, hweight⟩ := h.release hretry
    have hne : (s.unlock q queue l).outstanding ≠ s.outstanding := by
      intro heq
      have : l.outstanding.state.countUsed = s.outstanding.state.countUsed :=
        congrArg (fun b => b.state.countUsed) heq
      simp only [Store.lock] at hcount
      omega
    rw [if_neg hretry, if_neg hne]
    simp only [Store.unlock, Store.lock] at hcount hweight ⊢
    congr 2 <;> omega

theorem Tokened.settled (h : Tokened foreign j s) (hq : s.queues[q]? = some queue)
    (hd : d ∈ issued j) (hdq : d.queue = q) (hnone : s.disposition d.address = none)
    (hs : SettledOnce d disposition (s.lock queue) l) :
    Tokened foreign (j ++ if disposition = .retry then [] else
      [.freed d.address 1 d.event.weightBytes]) (s.unlock q queue l) := by
  have hdisp := hs.disposition_eq (q := q) (h.address_lt hd)
  -- another delivery has another cell
  have hother : ∀ x ∈ issued j, x ≠ d →
      (s.unlock q queue l).disposition x.address = s.disposition x.address :=
    fun x hx hne => (hdisp x.address).trans (if_neg fun heq => hne (h.address_inj hx hd heq))
  refine h.unlock hq ?_ ?_ ?_ hs.nextDeliveryToken (fun t flight => ?_)
    (fun x hx hne => hother x hx fun heq => hne (heq ▸ hdq)) (fun x hx => ?_) fun a ha => ?_
  · split <;> rfl
  · rw [hs.cells]
    exact .filled disposition (h.unsettled_cell hd hnone)
  · rw [hs.cells]
    exact List.length_set
  · have hbefore := h.inFlight q queue hq t flight
    rw [hs.inFlight, Map.lookup_erase_eq, hs.closed]
    split
    · -- the token id is no longer in use
      subst_vars
      refine ⟨fun hl => (nomatch hl), ?_⟩
      rintro ⟨x, hx, hxq, htok, -, hn, -⟩
      rw [h.token_inj hx hd hxq htok, hdisp, if_pos rfl] at hn
      cases hn
    · rename_i ht
      refine hbefore.trans (exists_congr fun x => and_congr_right fun hx =>
        and_congr_right fun hxq => and_congr_right fun htok => ?_)
      rw [hother x hx fun heq => ht (heq ▸ htok.symm)]
      rfl
  · by_cases hx' : x = d
    · subst hx'
      refine .inr ⟨hnone, ?_⟩
      rw [hdisp, if_pos rfl]
      cases disposition <;> simp [freed, settledShare]
    · refine .inl ⟨?_, hother x hx hx'⟩
      split
      · rfl
      · have hne : d.address ≠ x.address := fun heq => hx' (h.address_inj hx hd heq.symm)
        simp [freed, hne]
  · split
    · rfl
    · have hne : d.address ≠ a := by
        have := h.address_lt hd
        omega
      simp [freed, hne]

/-! ## Steps -/

theorem notes_eq_nil {m : Moment} (h : s'.outstanding = s.outstanding) :
    notes s (.settle q token disposition m) r s' = [] :=
  if_pos h

theorem notes_absent : notes s op op.absent s = [] := by
  cases op with
  | settle => exact notes_eq_nil rfl
  | subscribe | publishTo | receive | close | foreign => rfl

/-- What a section finds. -/
theorem Accounted.fits (h : Accounted maxCount maxWeight s) (hq : s.queues[q]? = some queue) :
    ∃ f, Fits f (s.lock queue) := by
  obtain ⟨f, -, -, hf, -⟩ := h.frame hq
  exact ⟨f, hf⟩

/-- Every step keeps the invariant, with what it notes. -/
theorem Tokened.step (h : Tokened foreign j s) (ha : Accounted maxCount maxWeight s)
    (hstep : StoreStep foreign s op r s') : Tokened foreign (j ++ notes s op r s') s' := by
  -- most steps note nothing
  have hnil : notes s op r s' = [] → Tokened foreign j s' →
      Tokened foreign (j ++ notes s op r s') s' :=
    fun hn ht => by rwa [hn, List.append_nil]
  cases hstep with
  | subscribed => exact hnil rfl (h.subscribe _ _ _ _)
  | absent => exact hnil notes_absent h
  | notForeign => exact hnil rfl h
  | foreign hlt => exact hnil rfl (h.settleForeign hlt _)
  | section_ hop hq hsec =>
    cases hsec with
    | rejected => exact hnil rfl (h.quiet hq rfl rfl rfl rfl)
    | accepted hput =>
      exact hnil rfl (h.quiet hq rfl hput.nextDeliveryToken hput.inFlight hput.closed)
    | received hr =>
      cases hr with
      | closed => exact hnil rfl (h.quiet hq rfl rfl rfl rfl)
      | nothing _ _ hsame | exhausted _ _ _ _ hsame =>
        exact hnil rfl (h.quiet hq rfl hsame.nextDeliveryToken hsame.inFlight hsame.closed)
      | @message e events state sequence hopen hs _ hput =>
        cases hop
        have hfresh := (ha.queues _ (List.mem_of_getElem? hq)).fresh hs e
        have hnew := h.delivered (e := e) hq hs hfresh hput.inFlight (hput.closed.trans hopen) hopen
        have hn := notes_delivered hq state e sequence
        exact (congrArg (fun n => Tokened foreign (j ++ n) _) (hn _ _ _ _)).mpr hnew
    | settled hs =>
      cases hs with
      | refused => exact hnil (notes_eq_nil rfl) (h.quiet hq rfl rfl rfl rfl)
      | repeated => exact hnil (notes_eq_nil rfl) (h.quiet hq rfl rfl rfl rfl)
      | first hset hsettled =>
        cases hop
        obtain ⟨f, hf⟩ := ha.fits hq
        obtain ⟨d, hd, hdq, rfl, rfl, rfl, hnone, -⟩ := h.delivery hq hset
        have honce := hsettled.once hf hset.inFlight
        rw [honce.notes hset.handle_eq]
        exact h.settled hq hd hdq hnone honce
    | closed hc =>
      cases hc with
      | again => exact hnil rfl (h.quiet hq rfl rfl rfl rfl)
      | emptied _ hin hclosed hnext => exact hnil rfl (h.emptied hq rfl hnext hin hclosed)

end

end EventBus.Local
