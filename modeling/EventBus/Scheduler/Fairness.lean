import EventBus.Scheduler.Ordered

/-!
# Bounded bypass

The scheduler takes turns at three levels: the subscriptions of `ready`, the lanes of one
subscription, and the waiting receivers. Each level is a list in which the granted element goes to
the back (`Moved`) and everything else only leaves or comes in at the back (`Edited`). While `A` can
be granted, whoever is granted instead of it stands ahead of it; afterwards it does not, and cannot
get ahead of `A` again. By `sumAlong_le_one` it is granted at most once before `A`.
-/

namespace EventBus.Scheduler

open Lib OwnedDeliveryPhase DeliverySchedulerState

section
variable {t s₀ : DeliverySchedulerState} {lane : OrderingLaneKey ⊕ Nat} {waiters : List Id} {j : Id}
  {sub : SubscriptionScheduleState} {g : LaneHead} {id a b : Id} {ops : List Op} {op : Op}
  {lease : Nat} {s s' : DeliverySchedulerState}

/-! ## The rotation of subscriptions -/

theorem refreshReady_ready (s : DeliverySchedulerState) (id : Id) :
    (s.refreshReady id).ready = s.ready ∨
    (id ∉ s.ready ∧ (s.refreshReady id).ready = s.ready ++ [id]) ∨
    (s.refreshReady id).ready = s.ready.filter (· ≠ id) := by
  unfold refreshReady
  split_ifs with he hm
  · exact .inl rfl
  · exact .inr (.inl ⟨hm, rfl⟩)
  · exact .inr (.inr rfl)

theorem refreshReady_edited (s : DeliverySchedulerState) (id : Id) :
    Edited s.ready (s.refreshReady id).ready := by
  rcases refreshReady_ready s id with he | ⟨hm, he⟩ | he
  · rw [he]; exact .refl _
  · rw [he]; exact .inr ⟨id, hm, rfl⟩
  · rw [he]; exact .inl List.filter_sublist

@[simp] theorem notifyReady_ready : s.notifyReady.ready = s.ready := by
  unfold notifyReady
  split <;> rfl

theorem grantReceives_ready (hw : Wf s) : s.grantReceives.ready = s.ready :=
  grantLoop_rule (P := fun _ t => t.ready = s.ready) (fun _ _ _ h _ => h)
    (fun _ _ _ _ _ _ h _ _ => h) (fun _ _ _ _ _ _ h _ _ _ => h)
    (fun _ _ _ _ _ _ _ h _ _ _ => h) hw rfl

theorem release_edited (s : DeliverySchedulerState) (lease : Nat) :
    Edited s.ready (s.release lease).ready := by
  unfold DeliverySchedulerState.release
  split
  · exact .refl _
  · dsimp only
    split
    · exact .refl _
    · exact refreshReady_edited _ _

theorem releaseUnclaimed_edited (s : DeliverySchedulerState) (unclaimed : Option Nat) :
    Edited s.ready (s.releaseUnclaimed unclaimed).ready := by
  cases unclaimed with
  | none => exact .refl _
  | some lease => exact release_edited s lease

/-- Without a lane grant, subscriptions leave `ready` or come in at the back. -/
theorem Took.ready_edited (ht : Took s op s') (hi : Inv s) (hn : laneGrant s op = none) :
    Edited s.ready s'.ready := by
  cases ht with
  | skip => exact .refl _
  | notify => rw [notifyReady_ready]; exact .refl _
  | register => exact .refl _
  | setDispatchActive => rw [notifyReady_ready]; exact refreshReady_edited _ _
  | requestReceive hs hstop hwait hres =>
    rw [grantReceives_ready (hi.demanded hs hstop hwait hres).wf]
    exact .refl _
  | cancelReceive hs =>
    rw [notifyReady_ready, grantReceives_ready ((hi.withdrawn hs).releaseUnclaimed _).wf]
    exact releaseUnclaimed_edited _ _
  | takeReceiveReservation => exact .refl _
  | enqueue => rw [notifyReady_ready]; exact refreshReady_edited _ _
  | grant hret => rw [hn] at hret; cases hret
  | leaveRunning => rw [notifyReady_ready]; exact .refl _
  | finishAttemptWaiting => exact .refl _
  | wakeRetry => rw [notifyReady_ready]; exact refreshReady_edited _ _
  | complete lease =>
    rw [notifyReady_ready, grantReceives_ready (hi.release lease).wf]
    exact release_edited s lease
  | stopSubscription hs h₁ =>
    rename_i id sub s₁
    have hi₁ : Inv s₁ := h₁ ▸ hi.fenced hs
    rw [notifyReady_ready, grantReceives_ready (hi₁.setNotifications _).wf]
    show Edited s.ready s₁.ready
    rw [h₁]
    cases hu : sub.unclaimed with
    | none => exact refreshReady_edited (fenced s id sub) id
    | some lease =>
      -- the release has refreshed `ready` already
      have he := (hi.fenced_release hs hu).ready.refreshReady_self id
      show Edited s.ready (((fenced s id sub).release lease).refreshReady id).ready
      rw [he]
      exact release_edited (fenced s id sub) lease
  | unregister => rw [notifyReady_ready]; exact .inl List.filter_sublist
  | takeNotifications => exact .refl _
  | recordOwnedStart => exact .refl _

/-- The granted subscription has its turn. -/
theorem granted_ready (s : DeliverySchedulerState) (id : Id) (g : LaneHead) :
    Moved s.ready (granted s id g).ready id := by
  refine ⟨s.ready.filter (· ≠ id), List.filter_sublist, by simp, ?_⟩
  unfold granted
  rcases refreshReady_ready _ id with he | ⟨-, he⟩ | he
  · exact .inl he
  · exact .inr he
  · refine .inl (he.trans ?_)
    simp

/-- `id` has a lane that could be granted now. -/
def SubGrantable (s : DeliverySchedulerState) (id : Id) : Prop :=
  (s.eligibleLane id s.handlerAvailable).isSome

instance (s : DeliverySchedulerState) (id : Id) : Decidable (SubGrantable s id) :=
  inferInstanceAs (Decidable (_ = true))

/-- A free handler slot makes no lane worse. -/
theorem eligibleLane_mono {owned : Map Nat OwnedDeliveryRecord} {h : Bool}
    (he : (sub.eligibleLane owned h).isSome) : (sub.eligibleLane owned true).isSome := by
  unfold SubscriptionScheduleState.eligibleLane at he ⊢
  split at he
  · cases he
  · rename_i hs
    rw [if_neg hs]
    rw [List.findIdx?_isSome, List.any_eq_true] at he ⊢
    obtain ⟨p, hp, he⟩ := he
    refine ⟨p, hp, ?_⟩
    unfold SubscriptionScheduleState.laneEligible at he ⊢
    simp only [Bool.and_eq_true, Option.any_eq_true, Bool.or_eq_true, decide_eq_true_eq,
      Bool.true_and] at he ⊢
    obtain ⟨hk, r, hr, hph⟩ := he
    exact ⟨hk, r, hr, hph.imp_right And.right⟩

theorem SubGrantable.mem_ready (hi : Inv s) (h : SubGrantable s id) : id ∈ s.ready := by
  rw [hi.ready.mem id]
  unfold SubGrantable eligibleLane at h
  unfold eligibleLane
  cases hs : s.subscriptions.lookup id with
  | none =>
    rw [hs] at h
    cases h
  | some sub =>
    rw [hs] at h
    exact eligibleLane_mono h

/-- Whoever is selected instead of a grantable subscription stands ahead of it. -/
theorem selected_ahead {i : Nat} (hsel : s.selectedReady = some (b, i)) (ha : a ∈ s.ready)
    (hg : SubGrantable s a) (hab : b ≠ a) : Ahead s.ready b a := by
  obtain ⟨l₁, x, l₂, hl, hx, hnone⟩ := List.findSome?_eq_some_iff.1 hsel
  obtain ⟨_, -, he⟩ := Option.map_eq_some_iff.1 hx
  obtain rfl : x = b := (Prod.mk.inj he).1
  rw [hl] at ha ⊢
  rcases List.mem_append.1 ha with ha | ha
  · have := hnone a ha
    rw [Option.map_eq_none_iff] at this
    rw [SubGrantable, this] at hg
    cases hg
  · exact ahead_append_cons ((List.mem_cons.1 ha).resolve_left hab.symm)

/-- The number of lane grants to `id` in a call: none or one. -/
def subGrants (id : Id) (s : DeliverySchedulerState) (op : Op) : Nat :=
  if (laneGrant s op).map Prod.fst = some id then 1 else 0

/-- A lane grant, as the call returns it. -/
theorem laneGrant_some (hi : Inv s) (h : laneGrant s op = some (id, lease)) :
    ∃ g, Selected s id g ∧ g.lease = lease ∧ step s op = (granted s id g).notifyReady := by
  have ht := hi.took op
  generalize hs' : step s op = s' at ht
  cases ht with
  | grant hret hg =>
    rw [h] at hret
    cases hret
    exact ⟨_, hg, rfl, rfl⟩
  | skip hn => rw [h] at hn; cases hn
  | notify hn => rw [h] at hn; cases hn
  | enqueue hop => rcases hop with ⟨rfl, -⟩ | ⟨rfl, -⟩ <;> cases h
  | leaveRunning hop => rcases hop with ⟨rfl, -⟩ | ⟨rfl, -⟩ <;> cases h
  | _ => cases h

theorem bypass_subscriptions (hab : b ≠ a) (hi : Inv s)
    (h : Along step (fun t op => SubGrantable t a ∧ (laneGrant t op).map Prod.fst ≠ some a) s ops) :
    sumAlong step (subGrants b) s ops ≤ 1 := by
  refine sumAlong_le_one (I := Inv) (A := fun t => Ahead t.ready b a)
    (fun t op ht => ht.step op) (fun t op ht hc hn ha => hn ?_) (fun t op ht hc hw => ?_) hi h
  · cases hg : laneGrant t op with
    | none => exact ((ht.took op).ready_edited ht hg).ahead (hc.1.mem_ready ht) ha
    | some p =>
      obtain ⟨id, lease⟩ := p
      obtain ⟨g, -, -, he⟩ := laneGrant_some ht hg
      rw [he, notifyReady_ready] at ha
      refine (granted_ready t id g).ahead (fun hid => hc.2 ?_) ha
      rw [hg, hid]
      rfl
  · unfold subGrants at hw ⊢
    split_ifs at hw with hgb
    · obtain ⟨⟨id, lease⟩, hg, rfl⟩ := Option.map_eq_some_iff.1 hgb
      obtain ⟨g, hsel, -, he⟩ := laneGrant_some ht hg
      refine ⟨selected_ahead hsel.selected (hc.1.mem_ready ht) hc.1 hab, ?_, ?_⟩
      · rw [he, notifyReady_ready]
        exact (granted_ready t id g).not_ahead hab.symm
      · rw [if_pos hgb]
    · omega

/-! ## The rotation of the lanes of one subscription -/

/-- The lanes of `id` in rotation order. -/
def lanesOf (s : DeliverySchedulerState) (id : Id) : Lanes OrderingLaneKey Nat :=
  ((s.subscriptions.lookup id).map (·.lanes)).getD []

theorem lanesOf_lookup (hs : s.subscriptions.lookup id = some sub) : lanesOf s id = sub.lanes := by
  simp [lanesOf, hs]

theorem lanesOf_congr (h : (s'.subscriptions.lookup id).map dispatchView =
      (s.subscriptions.lookup id).map dispatchView) : lanesOf s' id = lanesOf s id := by
  have := congrArg (Option.map fun v => v.2.1) h
  rw [Option.map_map, Option.map_map] at this
  exact congrArg (Option.getD · []) this

theorem lanesOf_insert {subs : Map Id SubscriptionScheduleState}
    (h : s'.subscriptions = subs.insert j sub) (id : Id) :
    lanesOf s' id = if id = j then sub.lanes else ((subs.lookup id).map (·.lanes)).getD [] := by
  unfold lanesOf
  rw [h, Map.lookup_insert_eq]
  split <;> rfl

@[simp] theorem refreshReady_lanesOf (s : DeliverySchedulerState) (id j : Id) :
    lanesOf (s.refreshReady id) j = lanesOf s j := by
  rw [lanesOf, refreshReady_subscriptions]
  rfl

@[simp] theorem notifyReady_lanesOf (s : DeliverySchedulerState) (j : Id) :
    lanesOf s.notifyReady j = lanesOf s j := by
  rw [lanesOf, notifyReady_subscriptions]
  rfl

theorem grantReceives_lanesOf (hw : Wf s) (id : Id) :
    lanesOf s.grantReceives id = lanesOf s id := by
  refine grantLoop_rule (P := fun _ t => lanesOf t id = lanesOf s id) (fun _ _ _ h _ => h)
    (fun _ _ _ _ _ _ h _ _ => h) (fun _ _ _ _ _ _ h _ _ _ => h) ?_ hw rfl
  intro n t j waiters sub lease _ h hf _ _
  rw [← h]
  refine lanesOf_congr (s := t) (view_insert hf.lookup ?_ id)
  rfl

/-- The lanes of `id` are edited. -/
def LanesEdited (s s' : DeliverySchedulerState) (id : Id) : Prop :=
  Edited (Lanes.idents (lanesOf s id)) (Lanes.idents (lanesOf s' id))

theorem LanesEdited.of_eq (h : lanesOf s' id = lanesOf s id) : LanesEdited s s' id := by
  rw [LanesEdited, h]
  exact .refl _

/-- Only the subscription `j` changes, and its lanes are edited. -/
theorem LanesEdited.insert {sub' : SubscriptionScheduleState}
    (hs : s.subscriptions.lookup j = some sub)
    (hs' : s'.subscriptions = s.subscriptions.insert j sub')
    (he : Edited (Lanes.idents sub.lanes) (Lanes.idents sub'.lanes)) (id : Id) :
    LanesEdited s s' id := by
  rw [LanesEdited, lanesOf_insert hs']
  split
  · rename_i hid
    rw [hid, lanesOf_lookup hs]
    exact he
  · exact .refl _

theorem release_lanesEdited (hw : Wf s) (lease : Nat) (id : Id) :
    LanesEdited s (s.release lease) id := by
  cases hl : s.owned.lookup lease with
  | none =>
    refine .of_eq ?_
    unfold DeliverySchedulerState.release
    rw [hl]
  | some r =>
    obtain ⟨sub, hs⟩ := hw.registered lease r hl
    have hok := (hw.sub _ sub hs).inv.lanesOk
    have hsubs : (s.release lease).subscriptions =
        s.subscriptions.insert r.subscriptionId (releaseSub sub r lease) := by
      unfold DeliverySchedulerState.release
      simp only [hl, hs, refreshReady_subscriptions]
    refine LanesEdited.insert hs hsubs ?_ id
    · rw [releaseSub_lanes]
      split
      · exact .inl (Lanes.idents_remove hok.single lease)
      · exact .refl _

theorem releaseUnclaimed_lanesEdited (hw : Wf s) (unclaimed : Option Nat) (id : Id) :
    LanesEdited s (s.releaseUnclaimed unclaimed) id := by
  cases unclaimed with
  | none => exact .of_eq rfl
  | some lease => exact release_lanesEdited hw lease id

/-- A lease that is in no lane joins one, or opens one at the end. -/
theorem Inv.edited_put {f : List Nat → List Nat} {lane : Option OrderingLaneKey} {lease : Nat}
    {r : OwnedDeliveryRecord} (hi : Inv s) (hl : s.owned.lookup lease = some r)
    (hs : s.subscriptions.lookup r.subscriptionId = some sub) (hp : ¬ r.phase.isQueued) :
    Edited (Lanes.idents sub.lanes) (Lanes.idents (Lanes.put f sub.lanes lane lease)) := by
  rcases Lanes.idents_put ((hi.wf.sub _ _ hs).inv.not_mem_items
    ((owns_functional _ _).not_queued ⟨hl, rfl⟩ hp)) with he | ⟨hm, he⟩
  · exact he ▸ .refl _
  · exact .inr ⟨_, hm, he⟩

/-- Unless a lane of `id` is granted, its lanes leave or come in at the back. -/
theorem Took.lanes_edited (ht : Took s op s') (hi : Inv s)
    (hn : (laneGrant s op).map Prod.fst ≠ some id) : LanesEdited s s' id := by
  cases ht with
  | skip => exact .of_eq rfl
  | notify => exact .of_eq (notifyReady_lanesOf s id)
  | register hs hlt =>
    rename_i j
    refine .of_eq ((lanesOf_insert rfl id).trans ?_)
    split
    · rename_i hid
      rw [hid, lanesOf, hs]
      rfl
    · rfl
  | setDispatchActive active hs =>
    rw [LanesEdited, notifyReady_lanesOf, refreshReady_lanesOf]
    refine LanesEdited.insert hs rfl ?_ id
    exact .refl _
  | requestReceive hs hstop hwait hres =>
    rw [LanesEdited, grantReceives_lanesOf (hi.demanded hs hstop hwait hres).wf]
    refine LanesEdited.insert hs rfl ?_ id
    exact .refl _
  | cancelReceive hs =>
    rename_i j sub
    have hw := hi.withdrawn hs
    rw [LanesEdited, notifyReady_lanesOf, grantReceives_lanesOf (hw.releaseUnclaimed _).wf]
    have he : lanesOf (withdrawn s j sub) id = lanesOf s id := by
      refine lanesOf_congr (view_insert hs ?_ id)
      rfl
    rw [← he]
    exact releaseUnclaimed_lanesEdited hw.wf _ id
  | takeReceiveReservation hs =>
    refine LanesEdited.insert hs rfl ?_ id
    exact .refl _
  | enqueue hop hl hs hp =>
    rw [LanesEdited, notifyReady_lanesOf, refreshReady_lanesOf]
    exact LanesEdited.insert hs rfl (hi.edited_put hl hs (by rw [hp]; decide)) id
  | grant hret hg =>
    rename_i j g
    refine .of_eq ?_
    rw [notifyReady_lanesOf, granted, refreshReady_lanesOf]
    refine (lanesOf_insert rfl id).trans (if_neg fun hid => hn ?_)
    rw [hret, hid]
    rfl
  | leaveRunning => exact .of_eq (notifyReady_lanesOf _ id)
  | finishAttemptWaiting => exact .of_eq rfl
  | wakeRetry hl hs hp =>
    rw [LanesEdited, notifyReady_lanesOf, refreshReady_lanesOf]
    exact LanesEdited.insert hs rfl (hi.edited_put hl hs (by rw [hp]; decide)) id
  | complete lease =>
    rw [LanesEdited, notifyReady_lanesOf, grantReceives_lanesOf (hi.release lease).wf]
    exact release_lanesEdited hi.wf lease id
  | stopSubscription hs h₁ =>
    rename_i j sub s₁
    have hi₁ : Inv s₁ := h₁ ▸ hi.fenced hs
    rw [LanesEdited, notifyReady_lanesOf, grantReceives_lanesOf (hi₁.setNotifications _).wf]
    show Edited _ (Lanes.idents (lanesOf s₁ id))
    rw [h₁, refreshReady_lanesOf]
    have he : lanesOf (fenced s j sub) id = lanesOf s id := by
      refine (lanesOf_insert rfl id).trans ?_
      split
      · rename_i hid
        rw [hid, lanesOf_lookup hs]
      · rfl
    rw [← he]
    exact releaseUnclaimed_lanesEdited (hi.fenced_but hs).1 _ id
  | unregister hs hz =>
    rename_i j sub
    rw [LanesEdited, notifyReady_lanesOf]
    have he : lanesOf (dropped s j) id = if id = j then [] else lanesOf s id := by
      unfold lanesOf dropped
      rw [Map.lookup_erase_eq]
      split <;> rfl
    rw [he]
    split
    · exact .inl (List.nil_sublist _)
    · exact .refl _
  | takeNotifications => exact .of_eq rfl
  | recordOwnedStart => exact .of_eq rfl

/-- The lane `lane` of `id` could be granted now. -/
def LaneGrantable (s : DeliverySchedulerState) (id : Id) (lane : OrderingLaneKey ⊕ Nat) : Prop :=
  ∃ sub p, s.subscriptions.lookup id = some sub ∧ sub.stopped = false ∧
    sub.dispatchActive = true ∧ p ∈ sub.lanes ∧ Lanes.ident p = some lane ∧
    sub.laneEligible s.owned s.handlerAvailable p = true

/-- The subscription and the lane of a lane grant, if the call makes one. -/
def laneGranted (s : DeliverySchedulerState) (op : Op) : Option (Id × (OrderingLaneKey ⊕ Nat)) :=
  (laneGrant s op).map fun g => (g.1, Lanes.laneOf ((s.owned.lookup g.2).bind (·.lane)) g.2)

/-- The number of grants to the lane `lane` of `id` in a call: none or one. -/
def laneGrants (id : Id) (lane : OrderingLaneKey ⊕ Nat) (s : DeliverySchedulerState) (op : Op) :
    Nat :=
  if laneGranted s op = some (id, lane) then 1 else 0

theorem LaneGrantable.mem (h : LaneGrantable s id lane) : lane ∈ Lanes.idents (lanesOf s id) := by
  obtain ⟨sub, p, hs, -, -, hp, hid, -⟩ := h
  rw [lanesOf_lookup hs]
  exact List.mem_filterMap.2 ⟨p, hp, hid⟩

theorem Selected.laneGranted (hg : Selected s id g) (h : laneGrant s op = some (id, g.lease)) :
    laneGranted s op = some (id, Lanes.laneOf g.lane g.lease) := by
  rw [Scheduler.laneGranted, h, Option.map_some, hg.owns.1, Option.bind_some, hg.lane]

/-- The granted lane has its turn. -/
theorem Selected.lanes_moved (hi : Inv s) (hg : Selected s id g) :
    Moved (Lanes.idents (lanesOf s id)) (Lanes.idents (lanesOf (granted s id g) id))
      (Lanes.laneOf g.lane g.lease) := by
  have hok := (hi.wf.sub id g.sub hg.lookup).inv.lanesOk
  have hafter : lanesOf (granted s id g) id = g.before ++ g.after ++ Lanes.rest g.lane g.queue := by
    rw [granted, refreshReady_lanesOf]
    exact (lanesOf_insert rfl id).trans (if_pos rfl)
  rw [lanesOf_lookup hg.lookup, hafter, hg.lanes]
  rw [hg.lanes] at hok
  have hnd := hok.idents_nodup
  rw [Lanes.idents_append, Lanes.idents_cons] at hnd
  refine ⟨Lanes.idents g.before ++ Lanes.idents g.after, ?_, ?_, ?_⟩
  · rw [Lanes.idents_append, Lanes.idents_cons]
    exact (List.Sublist.refl _).append (List.sublist_cons_self _ _)
  · intro hm
    exact (List.nodup_cons.1 (List.perm_middle.nodup_iff.1 hnd)).1 hm
  · simp only [Lanes.idents_append]
    rcases hok.idents_rest with he | he
    · exact .inl (by rw [he, List.append_nil])
    · exact .inr (by rw [he])

/-- The lanes before the selected one cannot be granted. -/
theorem Selected.not_eligible (hg : Selected s id g) {p : Option OrderingLaneKey × List Nat}
    (hp : p ∈ g.before) : g.sub.laneEligible s.owned s.handlerAvailable p = false := by
  have he := (selectedReady_some hg.selected).2
  rw [eligibleLane, hg.lookup, Option.bind_some, SubscriptionScheduleState.eligibleLane] at he
  split at he
  · cases he
  · obtain ⟨_, _, hmin⟩ := List.findIdx?_eq_some_iff_getElem.1 he
    obtain ⟨j, hj, rfl⟩ := List.getElem_of_mem hp
    have := hmin j hj
    simp only [hg.lanes, List.getElem_append_left hj, Bool.not_eq_true] at this
    exact this

theorem Selected.lane_ahead (hg : Selected s id g) (hl : LaneGrantable s id lane)
    (hne : Lanes.laneOf g.lane g.lease ≠ lane) :
    Ahead (Lanes.idents (lanesOf s id)) (Lanes.laneOf g.lane g.lease) lane := by
  obtain ⟨sub, p, hs, -, -, hp, hid, he⟩ := hl
  obtain rfl : g.sub = sub := Option.some.inj (hg.lookup.symm.trans hs)
  rw [lanesOf_lookup hs, hg.lanes, Lanes.idents_append, Lanes.idents_cons]
  rw [hg.lanes] at hp
  rcases List.mem_append.1 hp with hp | hp
  · rw [hg.not_eligible hp] at he
    cases he
  · rcases List.mem_cons.1 hp with rfl | hp
    · rw [Lanes.ident_cons] at hid
      exact absurd (Option.some.inj hid) hne
    · exact ahead_append_cons (List.mem_filterMap.2 ⟨p, hp, hid⟩)

theorem bypass_lanes {a b : OrderingLaneKey ⊕ Nat} (hab : b ≠ a) (hi : Inv s)
    (h : Along step (fun t op => LaneGrantable t id a ∧ laneGranted t op ≠ some (id, a)) s ops) :
    sumAlong step (laneGrants id b) s ops ≤ 1 := by
  refine sumAlong_le_one (I := Inv) (A := fun t => Ahead (Lanes.idents (lanesOf t id)) b a)
    (fun t op ht => ht.step op) (fun t op ht hc hn ha => hn ?_) (fun t op ht hc hw => ?_) hi h
  · by_cases hg : (laneGrant t op).map Prod.fst = some id
    · obtain ⟨⟨j, lease⟩, hg', rfl⟩ := Option.map_eq_some_iff.1 hg
      obtain ⟨g, hsel, rfl, he⟩ := laneGrant_some ht hg'
      rw [he, notifyReady_lanesOf] at ha
      refine (hsel.lanes_moved ht).ahead (fun hla => hc.2 ?_) ha
      rw [hsel.laneGranted hg', hla]
    · exact ((ht.took op).lanes_edited ht hg).ahead hc.1.mem ha
  · unfold laneGrants at hw ⊢
    split_ifs at hw with hgb
    · obtain ⟨⟨j, lease⟩, hg, he⟩ := Option.map_eq_some_iff.1 hgb
      obtain ⟨g, hsel, rfl, hstep⟩ := laneGrant_some ht hg
      have hb := (hsel.laneGranted hg).symm.trans hgb
      obtain ⟨rfl, rfl⟩ := Prod.mk.inj (Option.some.inj hb)
      refine ⟨hsel.lane_ahead hc.1 hab, ?_, ?_⟩
      · rw [hstep, notifyReady_lanesOf]
        exact (hsel.lanes_moved ht).not_ahead hab.symm
      · rw [if_pos hgb]
    · omega

/-! ## The rotation of waiting receivers -/

/-- The leases `id` got between `s` and `s'`. -/
def newLeases (s s' : DeliverySchedulerState) (id : Id) : Finset Nat :=
  s'.owned.keys.filter fun lease =>
    s.owned.lookup lease = none ∧ (s'.owned.lookup lease).any (·.subscriptionId = id)

/-- The reservations `b` got in a call before any that `a` got in it; leases are numbered in the
order of the grants. -/
def receiveGrants (a b : Id) (s : DeliverySchedulerState) (op : Op) : Nat :=
  ((newLeases s (step s op) b).filter fun lease => ∀ l ∈ newLeases s (step s op) a, lease < l).card

theorem mem_newLeases :
    lease ∈ newLeases s s' id ↔ NewLease s s' id lease := by
  simp only [newLeases, NewLease, Finset.mem_filter, Finmap.mem_keys, Option.any_eq_true,
    decide_eq_true_eq]
  refine ⟨fun h => h.2, fun h => ⟨?_, h⟩⟩
  obtain ⟨-, r, hr, -⟩ := h
  exact Map.mem_of_lookup hr

/-- In the middle of a scan that started at `s` with the grantable waiter `a`. -/
structure ScanBypass (s t : DeliverySchedulerState) (a b : Id) : Prop where
  old : ∀ l r, s.owned.lookup l = some r → t.owned.lookup l = some r
  below : ∀ sub, t.subscriptions.lookup a = some sub → a ∈ t.receiveWaiters →
    sub.owned < t.config.maxOwnedPerSubscription
  waits : a ∈ t.receiveWaiters ∨ ∃ l, NewLease s t a l
  left : ∀ l, NewLease s t b l → b ∉ t.receiveWaiters
  unique : ∀ l l', NewLease s t b l → NewLease s t b l' → l = l'
  ahead : Ahead t.receiveWaiters b a → Ahead s.receiveWaiters b a
  first : ∀ l, NewLease s t b l → (∀ l', NewLease s t a l' → l < l') → Ahead s.receiveWaiters b a

theorem scanBypass_start (b : Id) (hg : Grantable s a) : ScanBypass s s a b := by
  have hno : ∀ j l, ¬ NewLease s s j l :=
    not_newLease_of_owner fun l r hl => by rw [hl]; rfl
  obtain ⟨hm, sub, hs, hlt⟩ := hg
  refine ⟨fun _ _ hl => hl, fun sub' hs' _ => ?_, .inl hm, fun l hl => absurd hl (hno b l),
    fun l _ hl => absurd hl (hno b l), fun h => h, fun l hl => absurd hl (hno b l)⟩
  exact Option.some.inj (hs.symm.trans hs') ▸ hlt

theorem ScanBypass.rotate (h : ScanBypass s t a b) (hf : FirstWaiter t id waiters sub)
    (hlim : t.config.maxOwnedPerSubscription ≤ sub.owned) :
    ScanBypass s (rotate t id waiters) a b := by
  have hmem : ∀ j, j ∈ (Scheduler.rotate t id waiters).receiveWaiters ↔ j ∈ t.receiveWaiters := by
    intro j
    rw [hf.waiters]
    exact (List.perm_append_singleton id waiters).mem_iff
  -- the waiter at its limit is not `a`
  have hid : a ≠ id := fun he => Nat.not_le.2
    (h.below sub (he ▸ hf.lookup) (by rw [hf.waiters, he]; exact List.mem_cons_self)) hlim
  refine ⟨h.old, fun sub' hs' hm => h.below sub' hs' ((hmem a).1 hm),
    h.waits.imp_left (hmem a).2, fun l hl hm => h.left l hl ((hmem b).1 hm), h.unique,
    fun ha => h.ahead ?_, h.first⟩
  have ha : Ahead (waiters ++ [id]) b a := ha
  rw [hf.waiters]
  exact (ha.of_append fun hm => hid (List.mem_singleton.1 hm)).sublist (List.sublist_cons_self _ _)

theorem ScanBypass.grant (hab : b ≠ a) (hw : Wf t) (h : ScanBypass s t a b)
    (hf : FirstWaiter t id waiters sub) (hn : t.nextLease = some lease) :
    ScanBypass s (grantFirst t id waiters sub lease) a b := by
  have hnew : ∀ j l, NewLease s (grantFirst t id waiters sub lease) j l ↔
      NewLease s t j l ∨ (j = id ∧ l = lease) := newLease_grantFirst hw hn h.old
  have hnd := hw.waitersNodup
  rw [hf.waiters, List.nodup_cons] at hnd
  have hsub : ∀ j, j ∈ waiters → j ∈ t.receiveWaiters := fun j hj => by
    rw [hf.waiters]
    exact List.mem_cons_of_mem _ hj
  have hlt : ∀ j l, NewLease s t j l → l < lease := by
    intro j l hl
    obtain ⟨-, r, hr, -⟩ := hl
    exact hw.fresh lease hn l r hr
  have hb : id = b → ∀ l, ¬ NewLease s t b l := fun he l hl =>
    h.left l hl (by rw [hf.waiters, he]; exact List.mem_cons_self)
  refine ⟨fun l r hl => grantFirst_keeps hw hn (h.old l r hl), fun sub' hs' hm => ?_, ?_,
    fun l hl => ?_, fun l l' hl hl' => ?_, fun ha => h.ahead ?_, fun l hl hfirst => ?_⟩
  · have hne : a ≠ id := fun he => hnd.1 (he ▸ hm)
    have : (t.subscriptions.insert id _).lookup a = some sub' := hs'
    rw [Map.lookup_insert_eq, if_neg hne] at this
    exact h.below sub' this (hsub a hm)
  · by_cases ha : a = id
    · exact .inr ⟨lease, (hnew a lease).2 (.inr ⟨ha, rfl⟩)⟩
    · rcases h.waits with hm | ⟨l, hl⟩
      · rw [hf.waiters] at hm
        exact .inl ((List.mem_cons.1 hm).resolve_left ha)
      · exact .inr ⟨l, (hnew a l).2 (.inl hl)⟩
  · rcases (hnew b l).1 hl with hl | ⟨hb, -⟩
    · exact fun hm => h.left l hl (hsub b hm)
    · exact hb ▸ hnd.1
  · rw [hnew] at hl hl'
    rcases hl with hl | ⟨hi, hl⟩ <;> rcases hl' with hl' | ⟨hi', hl'⟩
    · exact h.unique l l' hl hl'
    · exact absurd hl (hb hi'.symm l)
    · exact absurd hl' (hb hi.symm l')
    · exact hl.trans hl'.symm
  · rw [hf.waiters]
    exact Ahead.sublist (List.sublist_cons_self _ _) ha
  · have hfirst' : ∀ l', NewLease s t a l' → l < l' := fun l' hl' =>
      hfirst l' ((hnew a l').2 (.inl hl'))
    rcases (hnew b l).1 hl with hl | ⟨hi, rfl⟩
    · exact h.first l hl hfirst'
    · -- `a` has not been granted yet, so it waits behind `b`
      have ha : a ∈ t.receiveWaiters := h.waits.resolve_right fun ⟨l', hl'⟩ =>
        Nat.lt_asymm (hlt a l' hl') (hfirst' l' hl')
      refine h.ahead ?_
      rw [hf.waiters] at ha ⊢
      exact hi ▸ ahead_cons ((List.mem_cons.1 ha).resolve_left fun he => hab (hi.trans he.symm))

theorem scanBypass_grantReceives (hab : b ≠ a) (hw : Wf s) (hg : Grantable s a) :
    ScanBypass s s.grantReceives a b := by
  refine grantLoop_rule (P := fun _ t => ScanBypass s t a b) (fun _ _ _ h _ => h) ?_ ?_ ?_ hw
    (scanBypass_start b hg)
  · intro n t id waiters sub _ h hf hlim
    exact h.rotate hf hlim
  · intro n t id waiters sub _ h _ _ _
    exact { h with }
  · intro n t id waiters sub lease hw h hf _ hn
    exact h.grant hab hw hf hn

/-- What comes before the scan does not bring `b` ahead of a waiter. -/
theorem Prepared.ahead (hp : Prepared s s₀) (hi₀ : Inv s₀) (ha : a ∈ s.receiveWaiters)
    (h : Ahead s₀.receiveWaiters b a) : Ahead s.receiveWaiters b a := by
  rcases hp.waiters with ⟨id, he⟩ | he
  · rw [he] at h
    refine h.of_append fun hm => ?_
    have hnd := hi₀.wf.waitersNodup
    rw [he, List.nodup_append] at hnd
    exact hnd.2.2 a ha a hm rfl
  · exact h.sublist he

/-- A waiter that stays below its limit before the scan can be granted by it. -/
theorem Prepared.grantable (hp : Prepared s s₀) (hi : Inv s) (hi₀ : Inv s₀) (hg : Grantable s a)
    (ha : a ∈ s₀.receiveWaiters) : Grantable s₀ a := by
  obtain ⟨-, sub, hs, hlt⟩ := hg
  obtain ⟨sub₀, hs₀, -⟩ := (hi₀.wf.waiters a).1 ha
  refine ⟨ha, sub₀, hs₀, ?_⟩
  have hle : s₀.owned.count (·.subscriptionId = a) ≤ s.owned.count (·.subscriptionId = a) :=
    Map.total_le_of_subset _ _ hp.owner
  have h := (hi.wf.sub a sub hs).ownedEq
  have h₀ := (hi₀.wf.sub a sub₀ hs₀).ownedEq
  have hc := hp.config
  rw [hc]
  omega

/-- `a` waits for a receive below its own limit, and the call leaves it waiting or grants it. -/
def Awaits (a : Id) (s : DeliverySchedulerState) (op : Op) : Prop :=
  Grantable s a ∧
    (a ∈ (step s op).receiveWaiters ∨ (newLeases s (step s op) a).Nonempty)

/-- One call while `a` waits. -/
theorem bypass_receivers_step (hab : b ≠ a) (hi : Inv s) (hc : Awaits a s op) :
    (Ahead (step s op).receiveWaiters b a → Ahead s.receiveWaiters b a) ∧
    (0 < receiveGrants a b s op → Ahead s.receiveWaiters b a ∧
      ¬ Ahead (step s op).receiveWaiters b a ∧ receiveGrants a b s op ≤ 1) := by
  rcases (hi.took op).receive hi with hq | ⟨-, s₀, hi₀, hp, he⟩
  · refine ⟨fun h => h.sublist hq.waiters, fun h => ?_⟩
    obtain ⟨l, hl⟩ := Finset.card_pos.1 h
    exact absurd (mem_newLeases.1 (Finset.mem_filter.1 hl).1) (hq.not_newLease b l)
  · -- both ways a call ends after its scan give the same leases and waiters
    have hown : (step s op).owned = s₀.grantReceives.owned := by
      rcases he with he | he <;> simp [he]
    have hwait : (step s op).receiveWaiters = s₀.grantReceives.receiveWaiters := by
      rcases he with he | he <;> simp [he]
    have hscan := scan_grantReceives hi₀.wf
    have hnew : ∀ j l, NewLease s (step s op) j l ↔ NewLease s₀ s₀.grantReceives j l := by
      intro j l
      rw [← hp.newLease hi.wf hscan, NewLease, hown]
      rfl
    have ha₀ : a ∈ s₀.receiveWaiters := by
      rcases hc.2 with h | ⟨l, hl⟩
      · exact hscan.waiters a (hwait ▸ h)
      · exact (hscan.new a l ((hnew a l).1 (mem_newLeases.1 hl))).1
    have hb := scanBypass_grantReceives hab hi₀.wf (hp.grantable hi hi₀ hc.1 ha₀)
    rw [hwait]
    refine ⟨fun h => hp.ahead hi₀ hc.1.1 (hb.ahead h), fun h => ?_⟩
    obtain ⟨l, hl⟩ := Finset.card_pos.1 h
    obtain ⟨hl, hfirst⟩ := Finset.mem_filter.1 hl
    have hl := (hnew b l).1 (mem_newLeases.1 hl)
    refine ⟨hp.ahead hi₀ hc.1.1 (hb.first l hl fun l' hl' => hfirst l' ?_),
      fun ha => hb.left l hl ha.mem_left, Finset.card_le_one.2 fun x hx y hy => ?_⟩
    · exact mem_newLeases.2 ((hnew a l').2 hl')
    · exact hb.unique x y ((hnew b x).1 (mem_newLeases.1 (Finset.mem_filter.1 hx).1))
        ((hnew b y).1 (mem_newLeases.1 (Finset.mem_filter.1 hy).1))

theorem bypass_receivers (hab : b ≠ a) (hi : Inv s) (h : Along step (Awaits a) s ops) :
    sumAlong step (receiveGrants a b) s ops ≤ 1 :=
  sumAlong_le_one (I := Inv) (A := fun t => Ahead t.receiveWaiters b a)
    (fun _ op ht => ht.step op)
    (fun _ _ ht hc hn ha => hn ((bypass_receivers_step hab ht hc).1 ha))
    (fun _ _ ht hc hw => (bypass_receivers_step hab ht hc).2 hw) hi h

end

/-- **Bounded bypass.** From any state a scheduler reaches, along any stretch of a run:
(a) while the subscription `a` can be granted and is not, every other subscription gets at most one
lane grant; (b) while a lane of `id` can be granted and is not, every other lane of `id` is granted
at most once; (c) while `a` waits for a receive below its own limit, every other subscription gets
at most one reservation before `a` gets its own. -/
theorem exec_new_bounded_bypass (config : DeliverySchedulingConfig) (pre ops : List Op)
    (s : DeliverySchedulerState) (hs : s = exec step (.new config) pre) :
    (∀ a b, b ≠ a →
      Along step (fun t op => SubGrantable t a ∧ (laneGrant t op).map Prod.fst ≠ some a) s ops →
      sumAlong step (subGrants b) s ops ≤ 1) ∧
    (∀ id a b, b ≠ a →
      Along step (fun t op => LaneGrantable t id a ∧ laneGranted t op ≠ some (id, a)) s ops →
      sumAlong step (laneGrants id b) s ops ≤ 1) ∧
    (∀ a b, b ≠ a → Along step (Awaits a) s ops → sumAlong step (receiveGrants a b) s ops ≤ 1) := by
  have hi : Inv s := hs ▸ exec_inv (inv_new config) pre
  exact ⟨fun a b hab h => bypass_subscriptions hab hi h, fun id a b hab h => bypass_lanes hab hi h,
    fun a b hab h => bypass_receivers hab hi h⟩

/-- Subscription `1` has two deliveries in lanes of their own, subscription `2` has one. -/
def twoReady : List Op :=
  [.register ⟨1⟩, .setDispatchActive ⟨1⟩ true, .register ⟨2⟩, .setDispatchActive ⟨2⟩ true,
    .requestReceive ⟨1⟩, .takeReceiveReservation ⟨1⟩, .enqueue 1 none,
    .requestReceive ⟨1⟩, .takeReceiveReservation ⟨1⟩, .enqueue 2 none,
    .requestReceive ⟨2⟩, .takeReceiveReservation ⟨2⟩, .enqueue 3 none]

set_option maxRecDepth 16000 in
/-- The first of two calls for subscription `1` is granted, the second has to let `2` go first. -/
theorem exec_new_bounded_bypass_two :
    laneGrant (exec step (.new .default) twoReady) (.takeReady ⟨1⟩) = some (⟨1⟩, 1) ∧
    sumAlong step (subGrants ⟨1⟩) (exec step (.new .default) twoReady)
      [.takeReady ⟨1⟩, .takeReady ⟨1⟩] ≤ 1 :=
  ⟨by decide, (exec_new_bounded_bypass .default twoReady [.takeReady ⟨1⟩, .takeReady ⟨1⟩] _
    rfl).1 ⟨2⟩ ⟨1⟩ (by decide) (by decide)⟩

end EventBus.Scheduler
