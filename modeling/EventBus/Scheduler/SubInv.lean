import EventBus.Scheduler.State

/-!
# The invariant of one subscription

`SubInv R sub`: the state `sub` of a subscription agrees with its records `R` (`Owns`). Its lanes
hold exactly the queued records, its locked lanes are exactly the lanes of the records past their
lane, with one such record per lane, and its receive reservation is exactly its reserved record.

Leases are handed out in increasing order and a subscription has one reservation at a time, so
the order in which leases entered a lane is their own order: every lane is sorted, the record
that holds a lane comes before all that wait in it, and a reservation comes after all other
records (`laneSorted`, `holderFirst`, `reservedLast`).

For every change of one record there is one lemma here; none of them looks at the rest of the
scheduler.
-/

namespace EventBus.Scheduler

open Lib OwnedDeliveryPhase DeliverySchedulerState

variable {R : Nat → OwnedDeliveryRecord → Prop} {p : OwnedDeliveryPhase}
  {record : OwnedDeliveryRecord} {l lease : Nat}

/-- `record` is the record of `lease` and belongs to `id`. -/
def Owns (owned : Map Nat OwnedDeliveryRecord) (id : Id) (lease : Nat)
    (record : OwnedDeliveryRecord) : Prop :=
  owned.lookup lease = some record ∧ record.subscriptionId = id

/-- The records after `lease` got the record `record`. -/
def upd (R : Nat → OwnedDeliveryRecord → Prop) (lease : Nat)
    (record : OwnedDeliveryRecord) : Nat → OwnedDeliveryRecord → Prop :=
  fun l r => (l = lease ∧ r = record) ∨ (l ≠ lease ∧ R l r)

/-- The records without `lease`. -/
def del (R : Nat → OwnedDeliveryRecord → Prop) (lease : Nat) :
    Nat → OwnedDeliveryRecord → Prop := fun l r => l ≠ lease ∧ R l r

/-! ## Records of a map -/

section
variable {owned : Map Nat OwnedDeliveryRecord} {id : Id}

theorem Owns.unique {r : OwnedDeliveryRecord} (h : Owns owned id lease record)
    (h' : Owns owned id lease r) : record = r := by
  have := h.1
  rw [h'.1] at this
  exact (Option.some.inj this).symm

theorem owns_insert (h : record.subscriptionId = id) :
    Owns (owned.insert lease record) id = upd (Owns owned id) lease record := by
  funext l r
  apply propext
  unfold Owns upd
  rw [Map.lookup_insert_eq]
  by_cases hl : l = lease
  · simp only [hl, if_true, true_and, ne_eq, not_true_eq_false, false_and, or_false,
      Option.some.injEq]
    exact ⟨fun hr => hr.1.symm, fun hr => ⟨hr.symm, hr ▸ h⟩⟩
  · simp only [hl, if_false, false_and, ne_eq, not_false_eq_true, true_and, false_or]

theorem owns_erase : Owns (owned.erase lease) id = del (Owns owned id) lease := by
  funext l r
  apply propext
  unfold Owns del
  rw [Map.lookup_erase_eq]
  by_cases hl : l = lease
  · simp [hl]
  · simp [hl]

/-- Records of another subscription do not matter. -/
theorem owns_insert_ne {j : Id} (hn : record.subscriptionId ≠ j)
    (ho : ∀ r, owned.lookup lease = some r → r.subscriptionId ≠ j) :
    Owns (owned.insert lease record) j = Owns owned j := by
  funext l r
  apply propext
  unfold Owns
  rw [Map.lookup_insert_eq]
  by_cases hl : l = lease
  · subst hl
    simp only [if_true, Option.some.injEq]
    refine ⟨fun h => ?_, fun h => ?_⟩
    · obtain ⟨rfl, h⟩ := h
      exact absurd h hn
    · exact absurd h.2 (ho r h.1)
  · simp only [hl, if_false]

theorem owns_erase_ne {j : Id} (ho : ∀ r, owned.lookup lease = some r → r.subscriptionId ≠ j) :
    Owns (owned.erase lease) j = Owns owned j := by
  rw [owns_erase]
  funext l r
  apply propext
  refine ⟨fun h => h.2, fun h => ⟨fun hl => ?_, h⟩⟩
  subst hl
  exact ho r h.1 h.2

end

/-! ## What the records say about a lease -/

section
variable (R : Nat → OwnedDeliveryRecord → Prop)

/-- `lease` waits in `lane`. -/
def Queued (lane : Option OrderingLaneKey) (lease : Nat) : Prop :=
  ∃ r, R lease r ∧ r.lane = lane ∧ r.phase.isQueued

/-- `lease` keeps the ordered lane `key` locked. -/
def Holds (key : OrderingLaneKey) (lease : Nat) : Prop :=
  ∃ r, R lease r ∧ r.lane = some key ∧ r.phase.holdsLane

/-- `lease` is reserved for a receive. -/
def Reserved (lease : Nat) : Prop := ∃ r, R lease r ∧ r.phase = .reservedReceive

/-- Every lease has one record. -/
def Functional : Prop := ∀ l r r', R l r → R l r' → r = r'

end

/-- A property of one record after an update, or after a deletion. -/
theorem exists_upd {P : OwnedDeliveryRecord → Prop} :
    (∃ r, upd R lease record l r ∧ P r) ↔
      (l = lease ∧ P record) ∨ (l ≠ lease ∧ ∃ r, R l r ∧ P r) := by
  refine ⟨fun ⟨r, hu, hp⟩ => ?_, fun h => ?_⟩
  · rcases hu with ⟨hl, rfl⟩ | ⟨hl, hr⟩
    · exact .inl ⟨hl, hp⟩
    · exact .inr ⟨hl, r, hr, hp⟩
  · rcases h with ⟨hl, hp⟩ | ⟨hl, r, hr, hp⟩
    · exact ⟨record, .inl ⟨hl, rfl⟩, hp⟩
    · exact ⟨r, .inr ⟨hl, hr⟩, hp⟩

theorem exists_del {P : OwnedDeliveryRecord → Prop} :
    (∃ r, del R lease l r ∧ P r) ↔ l ≠ lease ∧ ∃ r, R l r ∧ P r :=
  ⟨fun ⟨r, hd, hp⟩ => ⟨hd.1, r, hd.2, hp⟩, fun ⟨hl, r, hr, hp⟩ => ⟨r, ⟨hl, hr⟩, hp⟩⟩

/-- Removing a lease without the property changes nothing. -/
theorem ne_and_iff {P : Nat → Prop} (h : ¬ P lease) : l ≠ lease ∧ P l ↔ P l :=
  ⟨fun hp => hp.2, fun hp => ⟨fun he => h (he ▸ hp), hp⟩⟩

theorem Functional.not_queued (hfn : Functional R) (hr : R lease record)
    (hp : ¬ record.phase.isQueued) (lane : Option OrderingLaneKey) : ¬ Queued R lane lease :=
  fun ⟨_, hr', _, hq⟩ => hp (hfn _ _ _ hr hr' ▸ hq)

theorem Functional.not_holds (hfn : Functional R) (hr : R lease record)
    (hp : ¬ record.phase.holdsLane) (key : OrderingLaneKey) : ¬ Holds R key lease :=
  fun ⟨_, hr', _, hq⟩ => hp (hfn _ _ _ hr hr' ▸ hq)

theorem Functional.not_reserved (hfn : Functional R) (hr : R lease record)
    (hp : record.phase ≠ .reservedReceive) : ¬ Reserved R lease :=
  fun ⟨_, hr', hq⟩ => hp (hfn _ _ _ hr hr' ▸ hq)

theorem owns_functional (owned : Map Nat OwnedDeliveryRecord) (id : Id) :
    Functional (Owns owned id) := fun _ _ _ h h' => h.unique h'

theorem holdsLane.not_isQueued (h : p.holdsLane) : ¬ p.isQueued := by
  revert h; cases p <;> decide

theorem isQueued.not_holdsLane (h : p.isQueued) : ¬ p.holdsLane :=
  fun hh => holdsLane.not_isQueued hh h

theorem isQueued.not_reserved (h : p.isQueued) : p ≠ .reservedReceive := by
  revert h; cases p <;> decide

theorem holdsLane.not_reserved (h : p.holdsLane) : p ≠ .reservedReceive := by
  revert h; cases p <;> decide

/-! ## The invariant -/

structure SubInv (R : Nat → OwnedDeliveryRecord → Prop) (sub : SubscriptionScheduleState) :
    Prop where
  lanesOk : sub.lanes.Ok
  lanesMem : ∀ lane lease, sub.lanes.Mem lane lease ↔ Queued R lane lease
  lockedMem : ∀ key, key ∈ sub.lockedLanes ↔ ∃ lease, Holds R key lease
  holderUnique : ∀ key l l', Holds R key l → Holds R key l' → l = l'
  reserved : ∀ lease, sub.receiveReservation = some lease ↔ Reserved R lease
  waiting : sub.receiveWaiting = true → sub.receiveReservation = none
  stopped : sub.stopped = true → sub.dispatchActive = false ∧ sub.receiveWaiting = false
  laneSorted : ∀ lane q, (lane, q) ∈ sub.lanes → q.Pairwise (· < ·)
  holderFirst : ∀ key l l', Holds R key l → Queued R (some key) l' → l < l'
  reservedLast : ∀ l l' r, Reserved R l → R l' r → l' ≤ l

theorem subInv_new (h : ∀ l r, ¬ R l r) : SubInv R {} where
  lanesOk := Lanes.ok_nil
  lanesMem lane lease := by simp [Queued, h]
  lockedMem key := by simp [Holds, h]
  holderUnique key l l' hl := by simp [Holds, h] at hl
  reserved lease := by simp [Reserved, h]
  waiting := by simp
  stopped := by simp
  laneSorted := by simp
  holderFirst key l l' hl := by simp [Holds, h] at hl
  reservedLast l l' r hl := by simp [Reserved, h] at hl

section
variable {phase : OwnedDeliveryPhase} {sub : SubscriptionScheduleState}

/-- The flags outside the records: any change that keeps the stop fence. -/
theorem SubInv.flags (h : SubInv R sub) {owned : Nat} {active stopped waiting taken : Bool}
    (hw : waiting = true → sub.receiveReservation = none)
    (hs : stopped = true → active = false ∧ waiting = false) :
    SubInv R { sub with
      owned, dispatchActive := active, stopped, receiveWaiting := waiting,
      receiveTaken := taken } :=
  { h with waiting := hw, stopped := hs }

theorem SubInv.not_mem_items (h : SubInv R sub) (hn : ∀ lane, ¬ Queued R lane lease) :
    lease ∉ sub.lanes.items := by
  intro hm
  obtain ⟨lane, hm⟩ := Lanes.mem_items.1 hm
  exact hn lane ((h.lanesMem lane lease).1 hm)

/-- There is no second reservation. -/
theorem SubInv.reserved_eq (h : SubInv R sub) {l' : Nat} (hl : Reserved R l) (hl' : Reserved R l') :
    l = l' := by
  rw [← h.reserved] at hl hl'
  exact Option.some.inj (hl.symm.trans hl')

/-- The reservation is later than every other lease. -/
theorem SubInv.lt_reserved (h : SubInv R sub) (hres : Reserved R lease) {r : OwnedDeliveryRecord}
    (hr : R l r) (hl : ¬ Reserved R l) : l < lease :=
  Nat.lt_of_le_of_ne (h.reservedLast lease l r hres hr) fun he => hl (he ▸ hres)

/-- A new reservation, later than every record. -/
theorem SubInv.grant (h : SubInv R sub) (hnew : ∀ l r, R l r → l < lease)
    (hres : sub.receiveReservation = none) (hp : record.phase = .reservedReceive) {owned : Nat} :
    SubInv (upd R lease record) { sub with
      receiveWaiting := false, receiveReservation := some lease, receiveTaken := false,
        owned } := by
  have hno : ∀ l, ¬ Reserved R l := fun l hl => by
    have := (h.reserved l).2 hl
    rw [hres] at this
    cases this
  have hfresh : ∀ r, ¬ R lease r := fun r hr => Nat.lt_irrefl _ (hnew lease r hr)
  have hQ : ∀ lane l, Queued (upd R lease record) lane l ↔ Queued R lane l := fun lane l =>
    exists_upd.trans (by
      simp only [hp, isQueued, reduceCtorEq, or_self, and_false, false_or]
      exact ne_and_iff (P := Queued R lane) fun ⟨r, hr, _⟩ => hfresh r hr)
  have hH : ∀ key l, Holds (upd R lease record) key l ↔ Holds R key l := fun key l =>
    exists_upd.trans (by
      simp only [hp, holdsLane, reduceCtorEq, or_self, and_false, false_or]
      exact ne_and_iff (P := Holds R key) fun ⟨r, hr, _⟩ => hfresh r hr)
  have hV : ∀ l, Reserved (upd R lease record) l ↔ l = lease := fun l =>
    exists_upd.trans (by
      have := hno l
      simp only [Reserved] at this
      simp [hp, this])
  refine ⟨h.lanesOk, fun lane l => ?_, fun key => ?_, fun key l l' => ?_, fun l => ?_, by simp,
    fun hs => ⟨(h.stopped hs).1, rfl⟩, h.laneSorted, fun key l l' => ?_, fun l l' r hl hr => ?_⟩
  · rw [hQ]; exact h.lanesMem lane l
  · simp only [hH]; exact h.lockedMem key
  · rw [hH, hH]; exact h.holderUnique key l l'
  · rw [hV]; simp [eq_comm]
  · rw [hH, hQ]; exact h.holderFirst key l l'
  · rw [hV] at hl
    subst hl
    rcases hr with ⟨rfl, -⟩ | ⟨-, hr⟩
    · exact Nat.le_refl _
    · exact Nat.le_of_lt (hnew l' r hr)

/-- The reservation enters a lane, behind everything that waits there. -/
theorem SubInv.enqueue (h : SubInv R sub) (hfn : Functional R) (hr : R lease record)
    (hp : record.phase = .reservedReceive) (hq : phase.isQueued) (lane : Option OrderingLaneKey) :
    SubInv (upd R lease { record with phase, lane })
      ({ sub with receiveReservation := none, receiveTaken := false }.enqueue lease lane) := by
  have hres : Reserved R lease := ⟨record, hr, hp⟩
  have hnq : ∀ lane, ¬ Queued R lane lease := hfn.not_queued hr (by rw [hp]; decide)
  have hnh : ∀ key, ¬ Holds R key lease := hfn.not_holds hr (by rw [hp]; decide)
  have hQ : ∀ lane' l, Queued (upd R lease { record with phase, lane }) lane' l ↔
      (lane' = lane ∧ l = lease) ∨ Queued R lane' l := fun lane' l =>
    exists_upd.trans (or_congr (by simp [hq, and_comm, eq_comm]) (ne_and_iff (hnq lane')))
  have hH : ∀ key l, Holds (upd R lease { record with phase, lane }) key l ↔ Holds R key l :=
    fun key l => exists_upd.trans (by
      simp only [isQueued.not_holdsLane hq, and_false, false_or]
      exact ne_and_iff (hnh key))
  have hV : ∀ l, ¬ Reserved (upd R lease { record with phase, lane }) l := fun l hl => by
    rcases exists_upd.1 hl with ⟨-, hl⟩ | ⟨hne, hl⟩
    · exact isQueued.not_reserved hq hl
    · exact hne (h.reserved_eq hl hres)
  have hlast : ∀ l r, R l r → r.phase ≠ .reservedReceive → l < lease := fun l r hr' hp' =>
    h.lt_reserved hres hr' (hfn.not_reserved hr' hp')
  refine ⟨h.lanesOk.put (fun q => List.perm_append_singleton _ _) _ (h.not_mem_items hnq),
    fun lane' l => ?_, fun key => ?_, fun key l l' => ?_, fun l => ?_, fun _ => rfl, h.stopped,
    fun lane' q hq' => ?_, fun key l l' hl hl' => ?_, fun l l' r hl => absurd hl (hV l)⟩
  · rw [hQ, ← h.lanesMem]
    exact Lanes.mem_put (fun q b => by simp [or_comm]) _ _ _ _
  · simp only [hH]; exact h.lockedMem key
  · rw [hH, hH]; exact h.holderUnique key l l'
  · exact ⟨fun he => (by cases he), fun hl => absurd hl (hV l)⟩
  · rcases Lanes.put_queue hq' with hq' | ⟨-, -, q₀, hq₀, rfl⟩ | ⟨-, rfl⟩
    · exact h.laneSorted lane' q hq'
    · refine List.pairwise_append.2 ⟨h.laneSorted lane q₀ hq₀, List.pairwise_singleton _ _, ?_⟩
      intro a ha b hb
      rw [List.mem_singleton.1 hb]
      obtain ⟨r, hr', -, hq'⟩ := (h.lanesMem lane a).1 ⟨q₀, hq₀, ha⟩
      exact hlast a r hr' (isQueued.not_reserved hq')
    · exact List.pairwise_singleton _ _
  · rw [hH] at hl
    rcases (hQ _ _).1 hl' with ⟨-, rfl⟩ | hl'
    · obtain ⟨r, hr', -, hh⟩ := hl
      exact hlast l r hr' (holdsLane.not_reserved hh)
    · exact h.holderFirst key l l' hl hl'

/-- The head of an unlocked lane leaves it and locks it; the rest goes to the back. -/
theorem SubInv.take (h : SubInv R sub) (hfn : Functional R) {l₁ l₂ : Lanes OrderingLaneKey Nat}
    {lane : Option OrderingLaneKey} {q : List Nat} (hl : sub.lanes = l₁ ++ (lane, lease :: q) :: l₂)
    (hu : ∀ key, lane = some key → key ∉ sub.lockedLanes) (hr : R lease record)
    (hp : phase.holdsLane) :
    SubInv (upd R lease { record with phase }) { sub with
      lanes := l₁ ++ l₂ ++ Lanes.rest lane q
      lockedLanes := lane.toFinset ∪ sub.lockedLanes } := by
  have hin : (lane, lease :: q) ∈ sub.lanes := by rw [hl]; simp
  obtain ⟨r, hr', hlane, hq⟩ := (h.lanesMem lane lease).1 ⟨_, hin, List.mem_cons_self⟩
  rw [← hfn _ _ _ hr hr'] at hlane hq
  have hnh : ∀ key, ¬ Holds R key lease := hfn.not_holds hr (isQueued.not_holdsLane hq)
  have hnr : ¬ Reserved R lease := hfn.not_reserved hr (isQueued.not_reserved hq)
  have hQ : ∀ lane' l, Queued (upd R lease { record with phase }) lane' l ↔
      Queued R lane' l ∧ l ≠ lease := fun lane' l => exists_upd.trans (by
    simp only [holdsLane.not_isQueued hp, and_false, false_or]
    exact and_comm)
  have hH : ∀ key l, Holds (upd R lease { record with phase }) key l ↔
      (lane = some key ∧ l = lease) ∨ Holds R key l := fun key l =>
    exists_upd.trans (or_congr (by simp [hp, hlane, and_comm]) (ne_and_iff (hnh key)))
  have hV : ∀ l, Reserved (upd R lease { record with phase }) l ↔ Reserved R l := fun l =>
    exists_upd.trans (by
      simp only [holdsLane.not_reserved hp, and_false, false_or]
      exact ne_and_iff hnr)
  have hunlocked : ∀ key l, lane = some key → ¬ Holds R key l := fun key l hk hh =>
    hu key hk ((h.lockedMem key).2 ⟨l, hh⟩)
  have hok := h.lanesOk
  rw [hl] at hok
  refine ⟨hok.takeAt, fun lane' l => ?_, fun key => ?_, fun key a b ha hb => ?_, fun l => ?_,
    h.waiting, h.stopped, fun lane' q' hq' => ?_, fun key a b ha hb => ?_, fun a b r ha hb => ?_⟩
  · rw [hQ, ← h.lanesMem, hl]
    exact Lanes.mem_takeAt hok lane' l
  · simp only [hH, Finset.mem_union, h.lockedMem, Option.mem_toFinset, Option.mem_def]
    refine ⟨fun hk => ?_, fun ⟨l, hk⟩ => ?_⟩
    · rcases hk with hk | ⟨l, hk⟩
      · exact ⟨lease, .inl ⟨hk, rfl⟩⟩
      · exact ⟨l, .inr hk⟩
    · rcases hk with ⟨hk, -⟩ | hk
      · exact .inl hk
      · exact .inr ⟨l, hk⟩
  · rw [hH] at ha hb
    rcases ha with ⟨hk, ha⟩ | ha <;> rcases hb with ⟨hk', hb⟩ | hb
    · exact ha.trans hb.symm
    · exact absurd hb (hunlocked key b hk)
    · exact absurd ha (hunlocked key a hk')
    · exact h.holderUnique key a b ha hb
  · rw [hV]; exact h.reserved l
  · simp only [List.mem_append, Lanes.mem_rest_iff] at hq'
    rcases hq' with (hq' | hq') | ⟨hq', -⟩
    · exact h.laneSorted lane' q' (by rw [hl]; simp [hq'])
    · exact h.laneSorted lane' q' (by rw [hl]; simp [hq'])
    · cases hq'
      exact (List.pairwise_cons.1 (h.laneSorted lane _ hin)).2
  · rw [hQ] at hb
    rw [hH] at ha
    obtain ⟨hb, hne⟩ := hb
    rcases ha with ⟨hk, rfl⟩ | ha
    · -- what waits in the lane stands behind its old head
      subst hk
      obtain ⟨q', hq', hbq⟩ := (h.lanesMem _ b).2 hb
      rw [h.lanesOk.key_unique hq' hin, List.mem_cons] at hbq
      exact (List.pairwise_cons.1 (h.laneSorted _ _ hin)).1 b (hbq.resolve_left hne)
    · exact h.holderFirst key a b ha hb
  · rw [hV] at ha
    rcases hb with ⟨rfl, -⟩ | ⟨-, hb⟩
    · exact h.reservedLast a b record ha hr
    · exact h.reservedLast a b r ha hb

/-- A lease that keeps its lane locked changes its phase. -/
theorem SubInv.rephase (h : SubInv R sub) (hfn : Functional R) (hr : R lease record)
    (hh : record.phase.holdsLane) (hp : phase.holdsLane) :
    SubInv (upd R lease { record with phase }) sub := by
  have hnq : ∀ lane, ¬ Queued R lane lease := hfn.not_queued hr (holdsLane.not_isQueued hh)
  have hnr : ¬ Reserved R lease := hfn.not_reserved hr (holdsLane.not_reserved hh)
  have hQ : ∀ lane l, Queued (upd R lease { record with phase }) lane l ↔ Queued R lane l :=
    fun lane l => exists_upd.trans (by
      simp only [holdsLane.not_isQueued hp, and_false, false_or]
      exact ne_and_iff (hnq lane))
  have hH : ∀ key l, Holds (upd R lease { record with phase }) key l ↔ Holds R key l :=
    fun key l => exists_upd.trans (by
      by_cases hl : l = lease
      · subst hl
        simp only [true_and, hp, and_true, ne_eq, not_true_eq_false, false_and, or_false]
        exact ⟨fun hk => ⟨record, hr, hk, hh⟩, fun ⟨r, hr', hk, _⟩ => hfn _ _ _ hr hr' ▸ hk⟩
      · simp only [hl, false_and, ne_eq, not_false_eq_true, true_and, false_or]
        exact Iff.rfl)
  have hV : ∀ l, Reserved (upd R lease { record with phase }) l ↔ Reserved R l := fun l =>
    exists_upd.trans (by
      simp only [holdsLane.not_reserved hp, and_false, false_or]
      exact ne_and_iff hnr)
  refine ⟨h.lanesOk, fun lane l => ?_, fun key => ?_, fun key a b => ?_, fun l => ?_, h.waiting,
    h.stopped, h.laneSorted, fun key a b => ?_, fun a b r ha hb => ?_⟩
  · rw [hQ]; exact h.lanesMem lane l
  · simp only [hH]; exact h.lockedMem key
  · rw [hH, hH]; exact h.holderUnique key a b
  · rw [hV]; exact h.reserved l
  · rw [hH, hQ]; exact h.holderFirst key a b
  · rw [hV] at ha
    rcases hb with ⟨rfl, -⟩ | ⟨-, hb⟩
    · exact h.reservedLast a b record ha hr
    · exact h.reservedLast a b r ha hb

/-- A lease that keeps its lane locked returns to the head of the lane and unlocks it. -/
theorem SubInv.wake (h : SubInv R sub) (hfn : Functional R) (hr : R lease record)
    (hh : record.phase.holdsLane) (hp : phase.isQueued) :
    SubInv (upd R lease { record with phase }) { sub with
      lockedLanes := sub.lockedLanes \ record.lane.toFinset
      lanes := sub.lanes.pushFront record.lane lease } := by
  have hnq : ∀ lane, ¬ Queued R lane lease := hfn.not_queued hr (holdsLane.not_isQueued hh)
  have hnr : ¬ Reserved R lease := hfn.not_reserved hr (holdsLane.not_reserved hh)
  have hQ : ∀ lane l, Queued (upd R lease { record with phase }) lane l ↔
      (lane = record.lane ∧ l = lease) ∨ Queued R lane l := fun lane l =>
    exists_upd.trans (or_congr (by simp [hp, and_comm, eq_comm]) (ne_and_iff (hnq lane)))
  have hholder : ∀ key, record.lane = some key → Holds R key lease :=
    fun key hk => ⟨record, hr, hk, hh⟩
  have hH : ∀ key l, Holds (upd R lease { record with phase }) key l ↔
      Holds R key l ∧ record.lane ≠ some key := fun key l => exists_upd.trans (by
    simp only [isQueued.not_holdsLane hp, and_false, false_or]
    refine ⟨fun ⟨hne, hl⟩ => ⟨hl, fun hk => hne ?_⟩, fun ⟨hl, hk⟩ => ⟨fun he => hk ?_, hl⟩⟩
    · exact h.holderUnique key l lease hl (hholder key hk)
    · subst he
      obtain ⟨r, hr', hk', -⟩ := hl
      exact hfn _ _ _ hr hr' ▸ hk')
  have hV : ∀ l, Reserved (upd R lease { record with phase }) l ↔ Reserved R l := fun l =>
    exists_upd.trans (by
      simp only [isQueued.not_reserved hp, and_false, false_or]
      exact ne_and_iff hnr)
  refine ⟨h.lanesOk.put (fun q => List.Perm.refl _) _ (h.not_mem_items hnq), fun lane l => ?_,
    fun key => ?_, fun key a b ha hb => ?_, fun l => ?_, h.waiting, h.stopped,
    fun lane q hq => ?_, fun key a b ha hb => ?_, fun a b r ha hb => ?_⟩
  · rw [hQ, ← h.lanesMem]
    exact Lanes.mem_put (fun q b => by simp) _ _ _ _
  · simp only [hH, Finset.mem_sdiff, h.lockedMem, Option.mem_toFinset, Option.mem_def,
      exists_and_right, ne_eq]
  · exact h.holderUnique key a b ((hH _ _).1 ha).1 ((hH _ _).1 hb).1
  · rw [hV]; exact h.reserved l
  · rcases Lanes.put_queue hq with hq | ⟨-, hk, q₀, hq₀, rfl⟩ | ⟨-, rfl⟩
    · exact h.laneSorted lane q hq
    · refine List.pairwise_cons.2 ⟨fun a ha => ?_, h.laneSorted _ q₀ hq₀⟩
      obtain ⟨key, hk⟩ := Option.isSome_iff_exists.1 hk
      exact h.holderFirst key lease a (hholder key hk) ((h.lanesMem _ a).1 ⟨q₀, hk ▸ hq₀, ha⟩)
    · exact List.pairwise_singleton _ _
  · obtain ⟨ha, hk⟩ := (hH _ _).1 ha
    rcases (hQ _ _).1 hb with ⟨hk', -⟩ | hb
    · exact absurd hk'.symm hk
    · exact h.holderFirst key a b ha hb
  · rw [hV] at ha
    rcases hb with ⟨rfl, -⟩ | ⟨-, hb⟩
    · exact h.reservedLast a b record ha hr
    · exact h.reservedLast a b r ha hb

/-- Only the start time of a record changes. -/
theorem SubInv.touch (h : SubInv R sub) (hfn : Functional R) (hr : R lease record)
    {createdAt : Option MonotonicInstant} :
    SubInv (upd R lease { record with createdAt }) sub := by
  have hex : ∀ {P : OwnedDeliveryRecord → Prop} {l : Nat},
      (P { record with createdAt } ↔ P record) →
      ((∃ r, upd R lease { record with createdAt } l r ∧ P r) ↔ ∃ r, R l r ∧ P r) := by
    intro P l hP
    rw [exists_upd, hP]
    refine ⟨fun hl => ?_, fun ⟨r, hr', hp⟩ => ?_⟩
    · rcases hl with ⟨rfl, hp⟩ | ⟨-, hp⟩
      · exact ⟨record, hr, hp⟩
      · exact hp
    · by_cases hl : l = lease
      · subst hl
        exact .inl ⟨rfl, hfn _ _ _ hr hr' ▸ hp⟩
      · exact .inr ⟨hl, r, hr', hp⟩
  refine ⟨h.lanesOk, fun lane l => ?_, fun key => ?_, fun key a b ha hb => ?_, fun l => ?_,
    h.waiting, h.stopped, h.laneSorted, fun key a b ha hb => ?_, fun a b r ha hb => ?_⟩
  · exact (h.lanesMem lane l).trans (hex Iff.rfl).symm
  · exact (h.lockedMem key).trans (exists_congr fun l => (hex Iff.rfl).symm)
  · exact h.holderUnique key a b ((hex Iff.rfl).1 ha) ((hex Iff.rfl).1 hb)
  · exact (h.reserved l).trans (hex Iff.rfl).symm
  · exact h.holderFirst key a b ((hex Iff.rfl).1 ha) ((hex Iff.rfl).1 hb)
  · rcases hb with ⟨rfl, -⟩ | ⟨-, hb⟩
    · exact h.reservedLast a b record ((hex Iff.rfl).1 ha) hr
    · exact h.reservedLast a b r ((hex Iff.rfl).1 ha) hb

/-- A lease leaves with everything it holds. -/
theorem SubInv.release (h : SubInv R sub) (hfn : Functional R) (hr : R lease record) :
    SubInv (del R lease) (releaseSub sub record lease) := by
  obtain ⟨-, hactive, hstop, hwait⟩ := releaseSub_flags sub record lease
  have hQ : ∀ lane l, Queued (del R lease) lane l ↔ l ≠ lease ∧ Queued R lane l :=
    fun lane l => exists_del
  have hH : ∀ key l, Holds (del R lease) key l ↔ l ≠ lease ∧ Holds R key l :=
    fun key l => exists_del
  have hV : ∀ l, Reserved (del R lease) l ↔ l ≠ lease ∧ Reserved R l := fun l => exists_del
  refine ⟨?_, fun lane l => ?_, fun key => ?_, fun key a b ha hb => ?_, fun l => ?_, fun hw => ?_,
    fun hs => ?_, fun lane q hq => ?_, fun key a b ha hb => ?_, fun a b r ha hb => ?_⟩
  · rw [releaseSub_lanes]
    split
    · exact h.lanesOk.remove lease
    · exact h.lanesOk
  · rw [releaseSub_lanes, hQ]
    split
    · rw [Lanes.mem_remove, h.lanesMem, and_comm]
    · rename_i hq
      rw [ne_and_iff (hfn.not_queued hr hq lane), h.lanesMem]
  · rw [releaseSub_lockedLanes]
    simp only [hH]
    split
    · rename_i hh
      simp only [Finset.mem_sdiff, h.lockedMem, Option.mem_toFinset, Option.mem_def]
      refine ⟨fun ⟨⟨l, hl⟩, hk⟩ => ⟨l, fun he => hk ?_, hl⟩, fun ⟨l, hne, hl⟩ => ⟨⟨l, hl⟩, ?_⟩⟩
      · subst he
        obtain ⟨r, hr', hk', -⟩ := hl
        exact hfn _ _ _ hr hr' ▸ hk'
      · exact fun hk => hne (h.holderUnique key l lease hl ⟨record, hr, hk, hh⟩)
    · rename_i hh
      simp only [ne_and_iff (P := Holds R key) (hfn.not_holds hr hh key)]
      exact h.lockedMem key
  · exact h.holderUnique key a b ((hH _ _).1 ha).2 ((hH _ _).1 hb).2
  · rw [releaseSub_receiveReservation, hV, ← h.reserved]
    split
    · rename_i hres
      rw [hres]
      exact ⟨fun he => (by cases he), fun ⟨hne, he⟩ => absurd (Option.some.inj he).symm hne⟩
    · rename_i hres
      exact ⟨fun he => ⟨fun hl => hres (hl ▸ he), he⟩, fun he => he.2⟩
  · rw [releaseSub_receiveReservation, h.waiting (hwait ▸ hw)]
    simp
  · rw [hactive, hwait]
    exact h.stopped (hstop ▸ hs)
  · rw [releaseSub_lanes] at hq
    split at hq
    · obtain ⟨q₀, hq₀, rfl, -⟩ := Lanes.mem_remove_queue.1 hq
      exact (h.laneSorted lane q₀ hq₀).filter _
    · exact h.laneSorted lane q hq
  · exact h.holderFirst key a b ((hH _ _).1 ha).2 ((hQ _ _).1 hb).2
  · exact h.reservedLast a b r ((hV _).1 ha).2 hb.2

end

end EventBus.Scheduler
