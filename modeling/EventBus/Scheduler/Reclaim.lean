import EventBus.Scheduler.Fairness
import EventBus.Scheduler.Stop

/-!
# Reclaiming a stopped subscription

What is left of a subscription that is no longer registered: nothing. Records, the receive rotation
and `ready` only speak of registered subscriptions, which is part of `Inv`; the same holds for the
notifications (`Named`). The keys of lanes carry an identity too, and `enqueue` takes them from its
caller: where every caller passes a key of the lease's own subscription, as the workers do
(`Op.OwnLane`), the keys in the state are those of the records' owners (`LaneKeyed`).
-/

namespace EventBus.Scheduler

open Lib OwnedDeliveryPhase DeliverySchedulerState

section
variable {sub : SubscriptionScheduleState} {r : OwnedDeliveryRecord} {ops : List Op} {lease : Nat}
  {op : Op} {s s' : DeliverySchedulerState} {id : Id}

/-! ## Notifications -/

/-- Only registered subscriptions are notified. -/
def Named (s : DeliverySchedulerState) : Prop := ∀ j ∈ s.notifications, j ∈ s.subscriptions

theorem Named.keep (h : Named s) (hs : ∀ j, j ∈ s.subscriptions → j ∈ s'.subscriptions)
    (hn : ∀ j ∈ s'.notifications, j ∈ s.notifications ∨ j ∈ s'.subscriptions) : Named s' := by
  intro j hj
  rcases hn j hj with hj | hj
  · exact hs j (h j hj)
  · exact hj

/-- A registered subscription is told. -/
theorem Named.tell (h : Named s) (hid : id ∈ s.subscriptions)
    (hs : s'.subscriptions = s.subscriptions)
    (hn : s'.notifications = insert id s.notifications) : Named s' := by
  refine h.keep (fun j hj => hs ▸ hj) fun j hj => ?_
  rw [hn] at hj
  rcases Finset.mem_insert.1 hj with rfl | hj
  · exact .inr (hs ▸ hid)
  · exact .inl hj

/-- One subscription changes or is added; it may be told, no other is. -/
theorem Named.setSub (h : Named s) (hs : s'.subscriptions = s.subscriptions.insert id sub)
    (hn : s'.notifications ⊆ insert id s.notifications) : Named s' := by
  refine h.keep (fun j hj => ?_) fun j hj => ?_
  · rw [hs]
    exact Finmap.mem_insert.2 (.inr hj)
  · rcases Finset.mem_insert.1 (hn hj) with rfl | hj
    · rw [hs]
      exact .inr (Finmap.mem_insert.2 (.inl rfl))
    · exact .inl hj

theorem Named.refreshReady (h : Named s) (id : Id) : Named (s.refreshReady id) := by
  refine h.keep (fun j hj => ?_) fun j hj => ?_
  · rw [refreshReady_subscriptions]
    exact hj
  · rw [refreshReady_notifications] at hj
    exact .inl hj

theorem Named.notifyReady (h : Named s) : Named s.notifyReady := by
  unfold DeliverySchedulerState.notifyReady
  split
  · exact h
  · rename_i j i hsel
    -- the selected subscription has an eligible lane
    obtain ⟨sub, hsub, -⟩ := Option.bind_eq_some_iff.1 (selectedReady_some hsel).2
    exact h.tell (Map.mem_of_lookup hsub) rfl rfl

theorem Named.release (h : Named s) (lease : Nat) : Named (s.release lease) := by
  unfold DeliverySchedulerState.release
  split
  · exact h
  · dsimp only
    split
    · exact h
    · exact Named.refreshReady (h.setSub rfl (Finset.Subset.refl _)) _

theorem Named.releaseUnclaimed (h : Named s) (unclaimed : Option Nat) :
    Named (s.releaseUnclaimed unclaimed) := by
  cases unclaimed with
  | none => exact h
  | some lease => exact h.release lease

theorem mem_release (s : DeliverySchedulerState) (lease : Nat) {j : Id}
    (h : j ∈ s.subscriptions) : j ∈ (s.release lease).subscriptions := by
  unfold DeliverySchedulerState.release
  split
  · exact h
  · dsimp only
    split
    · exact h
    · rw [refreshReady_subscriptions]
      exact Finmap.mem_insert.2 (.inr h)

theorem mem_releaseUnclaimed (s : DeliverySchedulerState) (unclaimed : Option Nat) {j : Id}
    (h : j ∈ s.subscriptions) : j ∈ (s.releaseUnclaimed unclaimed).subscriptions := by
  cases unclaimed with
  | none => exact h
  | some lease => exact mem_release s lease h

theorem Wf.waiter_mem (hw : Wf s) (h : id ∈ s.receiveWaiters) : id ∈ s.subscriptions := by
  obtain ⟨sub, hs, -⟩ := (hw.waiters id).1 h
  exact Map.mem_of_lookup hs

theorem Named.grantReceives (hw : Wf s) (h : Named s) : Named s.grantReceives := by
  refine grantLoop_rule (P := fun _ t => Named t) (fun _ _ _ h _ => h) ?_ ?_ ?_ hw h
  · intro n t id waiters sub _ h _ _
    exact h
  · intro n t id waiters sub hw h _ _ _ j hj
    rcases Finset.mem_union.1 hj with hj | hj
    · exact h j hj
    · exact hw.waiter_mem (List.mem_toFinset.1 hj)
  · intro n t id waiters sub lease _ h hf _ _
    exact h.setSub rfl (Finset.Subset.refl _)

theorem Took.named (ht : Took s op s') (hi : Inv s) (h : Named s) : Named s' := by
  cases ht with
  | skip => exact h
  | notify => exact h.notifyReady
  | register => exact h.setSub rfl (Finset.subset_insert _ _)
  | setDispatchActive =>
    refine Named.notifyReady (Named.refreshReady ?_ _)
    exact h.setSub rfl (Finset.subset_insert _ _)
  | requestReceive hs hstop hwait hres =>
    refine Named.grantReceives (hi.demanded hs hstop hwait hres).wf ?_
    exact h.setSub rfl (Finset.subset_insert _ _)
  | @cancelReceive j sub hs =>
    have hw : Named (withdrawn s j sub) := h.setSub rfl (Finset.subset_insert _ _)
    exact (Named.grantReceives ((hi.withdrawn hs).releaseUnclaimed _).wf
      (hw.releaseUnclaimed _)).notifyReady
  | takeReceiveReservation => exact h.setSub rfl (Finset.subset_insert _ _)
  | enqueue =>
    refine Named.notifyReady (Named.refreshReady ?_ _)
    exact h.setSub rfl (Finset.subset_insert _ _)
  | grant =>
    refine Named.notifyReady (Named.refreshReady ?_ _)
    exact h.setSub rfl (Finset.subset_insert _ _)
  | leaveRunning => exact Named.notifyReady (h.keep (fun _ hj => hj) fun _ hj => .inl hj)
  | finishAttemptWaiting => exact h
  | wakeRetry =>
    refine Named.notifyReady (Named.refreshReady ?_ _)
    exact h.setSub rfl (Finset.subset_insert _ _)
  | complete lease => exact (Named.grantReceives (hi.release lease).wf
    (h.release lease)).notifyReady
  | @stopSubscription j sub hs s₁ h₁ =>
    have hf : Named (fenced s j sub) := h.setSub rfl (Finset.subset_insert _ _)
    have hn₁ : Named s₁ := h₁ ▸ (hf.releaseUnclaimed _).refreshReady j
    have hi₁ : Inv s₁ := h₁ ▸ hi.fenced hs
    have hj : j ∈ s₁.subscriptions := by
      rw [h₁, refreshReady_subscriptions]
      exact mem_releaseUnclaimed _ _ (Finmap.mem_insert.2 (.inl rfl))
    have hi₂ := hi₁.setNotifications (insert j s₁.notifications)
    exact (Named.grantReceives hi₂.wf (hn₁.tell hj rfl rfl)).notifyReady
  | @unregister j sub hs hz =>
    refine Named.notifyReady fun k hk => ?_
    obtain ⟨hne, hk⟩ := Finset.mem_erase.1 hk
    exact Finmap.mem_erase.2 ⟨hne, h k hk⟩
  | takeNotifications => exact fun j hj => absurd hj (Finset.notMem_empty j)
  | recordOwnedStart => exact h

/-! ## The keys of lanes -/

/-- The lane of a record is one of its own subscription. -/
def LaneKeyed (s : DeliverySchedulerState) : Prop :=
  ∀ lease r key, s.owned.lookup lease = some r → r.lane = some key →
    key.subscriptionId = r.subscriptionId

/-- An ordered lane is named after the subscription whose lease is queued in it. -/
def Op.OwnLane (s : DeliverySchedulerState) (op : Op) : Prop :=
  ∀ l ∈ op.lane, ∀ r ∈ s.owned.lookup l.1, l.2.subscriptionId = r.subscriptionId

instance (s : DeliverySchedulerState) (op : Op) : Decidable (op.OwnLane s) :=
  inferInstanceAs (Decidable (∀ l ∈ op.lane, ∀ r ∈ s.owned.lookup l.1, _ = r.subscriptionId))

theorem Took.laneKeyed (ht : Took s op s') (hi : Inv s) (hop : op.OwnLane s) (h : LaneKeyed s) :
    LaneKeyed s' := by
  refine ht.carry hi (P := LaneKeyed) ⟨fun h ho _ _ l r key hl => h l r key (ho ▸ hl),
    fun h _ l r key hl => h l r key (release_owned _ l r hl), ?_⟩ fun t he l r key hl hk => ?_
  · intro t id waiters sub lease h _ _ _ l r key hl hk
    rw [show (grantFirst t id waiters sub lease).owned.lookup l = _ from
      Map.lookup_insert_eq _ _ _ _] at hl
    split at hl
    · cases hl
      cases hk
    · exact h l r key hl hk
  · cases he.owned with
    | same heq => exact h l r key (heq ▸ hl) hk
    | @change lease record r' heq hrecord hr =>
      rw [heq, Map.lookup_insert_eq] at hl
      split at hl
      · cases hl
        rw [hr.owner]
        rcases hr.lane with hlane | hlane
        · exact h lease record key hrecord (hlane ▸ hk)
        · rw [hk] at hlane
          exact hop (lease, key) hlane record hrecord
      · exact h l r key hl hk

/-! ## An identity nothing mentions -/

/-- `id` is no subscription of `s`, and nothing refers to it. -/
structure Unnamed (s : DeliverySchedulerState) (id : Id) : Prop where
  subscriptions : id ∉ s.subscriptions
  owned : ∀ lease, ¬ OwnedBy s id lease
  ready : id ∉ s.ready
  receiveWaiters : id ∉ s.receiveWaiters
  notifications : id ∉ s.notifications

/-- No key of a lane mentions `id`. -/
structure LanesUnnamed (s : DeliverySchedulerState) (id : Id) : Prop where
  owned : ∀ lease r key, s.owned.lookup lease = some r → r.lane = some key → key.subscriptionId ≠ id
  lanes : ∀ j sub key, s.subscriptions.lookup j = some sub → key ∈ sub.lanes.keys →
    key.subscriptionId ≠ id
  lockedLanes : ∀ j sub key, s.subscriptions.lookup j = some sub → key ∈ sub.lockedLanes →
    key.subscriptionId ≠ id

theorem Inv.unnamed (hi : Inv s) (hn : Named s) (hid : id ∉ s.subscriptions) : Unnamed s id where
  subscriptions := hid
  owned lease h := by
    obtain ⟨r, hl, rfl⟩ := ownedBy_iff.1 h
    obtain ⟨sub, hs⟩ := hi.wf.registered lease r hl
    exact hid (Map.mem_of_lookup hs)
  ready h := by
    obtain ⟨i, hi⟩ := Option.isSome_iff_exists.1 ((hi.ready.mem id).1 h)
    obtain ⟨sub, hs, -⟩ := Option.bind_eq_some_iff.1 hi
    exact hid (Map.mem_of_lookup hs)
  receiveWaiters h := hid (hi.wf.waiter_mem h)
  notifications h := hid (hn id h)

/-- The keys of the lanes are the keys of the records. -/
theorem Inv.lanesUnnamed (hi : Inv s) (hk : LaneKeyed s) (hid : id ∉ s.subscriptions) :
    LanesUnnamed s id := by
  have hrec : ∀ lease r key, s.owned.lookup lease = some r → r.lane = some key →
      key.subscriptionId ≠ id := by
    intro lease r key hl hlane he
    obtain ⟨sub, hs⟩ := hi.wf.registered lease r hl
    rw [← hk lease r key hl hlane, he] at hs
    exact hid (Map.mem_of_lookup hs)
  refine ⟨hrec, fun j sub key hs hm => ?_, fun j sub key hs hm => ?_⟩
  · have hinv := (hi.wf.sub j sub hs).inv
    obtain ⟨q, hq⟩ := Lanes.mem_keys.1 hm
    obtain ⟨lease, hlease⟩ := List.exists_mem_of_ne_nil q (hinv.lanesOk.nonempty _ hq)
    obtain ⟨r, hr, hlane, -⟩ := (hinv.lanesMem (some key) lease).1 ⟨q, hq, hlease⟩
    exact hrec lease r key hr.1 hlane
  · obtain ⟨lease, r, hr, hlane, -⟩ := ((hi.wf.sub j sub hs).inv.lockedMem key).1 hm
    exact hrec lease r key hr.1 hlane

/-! ## Stopping one subscription leaves every lane alone -/

/-- One subscription changes, but not its lanes. -/
theorem lanesOf_setSub {sub' : SubscriptionScheduleState}
    (h : s'.subscriptions = s.subscriptions.insert id sub')
    (hs : s.subscriptions.lookup id = some sub) (hl : sub'.lanes = sub.lanes) (j : Id) :
    lanesOf s' j = lanesOf s j := by
  rw [lanesOf_insert h j]
  split
  · rename_i hj
    rw [hj, lanesOf_lookup hs, hl]
  · rfl

/-- A lease outside the lanes is released. -/
theorem lanesOf_release (hl : s.owned.lookup lease = some r) (hq : ¬ r.phase.isQueued) (j : Id) :
    lanesOf (s.release lease) j = lanesOf s j := by
  unfold DeliverySchedulerState.release
  rw [hl]
  dsimp only
  split
  · rfl
  · rename_i sub hs
    rw [refreshReady_lanesOf]
    refine lanesOf_setSub rfl hs ?_ j
    rw [releaseSub_lanes, if_neg hq]

/-! ## The stop -/

section
variable (hi : Inv s) (hs : s.subscriptions.lookup id = some sub)
include hi hs

/-- The reservation a stop gives back is not in a lane. -/
theorem lanesOf_halted (j : Id) : lanesOf (halted s id sub) j = lanesOf s j := by
  have hf : lanesOf (fenced s id sub) j = lanesOf s j := by
    refine lanesOf_setSub rfl hs ?_ j
    rfl
  show lanesOf (((fenced s id sub).releaseUnclaimed sub.unclaimed).refreshReady id) j = _
  rw [refreshReady_lanesOf, ← hf]
  cases hu : sub.unclaimed with
  | none => rfl
  | some lease =>
    obtain ⟨r, hl, -, hp⟩ := (hi.wf.sub id sub hs).inv.reserved_owns (unclaimed_some hu).2
    have hl : (fenced s id sub).owned.lookup lease = some r := hl
    refine lanesOf_release hl ?_ j
    rw [hp]
    decide

end

/-- Stopping a subscription leaves every lane as it is. -/
theorem lanesOf_stop (hi : Inv s) (id j : Id) :
    lanesOf (step s (.stopSubscription id)) j = lanesOf s j := by
  cases hs : s.subscriptions.lookup id with
  | none => rw [step_stop_none hs]
  | some sub =>
    rw [step_stop_some hs, notifyReady_lanesOf, grantReceives_lanesOf (hi.halted hs).wf,
      lanesOf_halted hi hs]

/-- A stop takes back the reservation that is not claimed, and nothing else. -/
theorem ownedBy_stop (hi : Inv s) (id : Id) (lease : Nat) :
    OwnedBy (step s (.stopSubscription id)) id lease ↔
      OwnedBy s id lease ∧ unclaimedOf s id ≠ some lease := by
  unfold unclaimedOf
  cases hs : s.subscriptions.lookup id with
  | none => simp [step_stop_none hs]
  | some sub =>
    have hw := (hi.halted hs).wf
    rw [step_stop_some hs, ownedBy_notifyReady,
      ownedBy_grantReceives hw (.inl (hw.not_waiting (fenced_halted hi hs).stopped)),
      Option.bind_some]
    show OwnedBy (((fenced s id sub).releaseUnclaimed sub.unclaimed).refreshReady id) id lease ↔ _
    rw [ownedBy_refreshReady, ownedBy_releaseUnclaimed]
    exact and_congr_left fun _ => ownedBy_congr rfl

/-- A stop keeps the records of all other subscriptions. -/
theorem stop_others (hi : Inv s) (hl : s.owned.lookup lease = some r) (hr : r.subscriptionId ≠ id) :
    (step s (.stopSubscription id)).owned.lookup lease = some r := by
  cases hs : s.subscriptions.lookup id with
  | none =>
    rw [step_stop_none hs]
    exact hl
  | some sub =>
    rw [step_stop_some hs, notifyReady_owned]
    apply (scan_grantReceives (hi.halted hs).wf).old
    show (((fenced s id sub).releaseUnclaimed sub.unclaimed).refreshReady id).owned.lookup lease = _
    rw [refreshReady_owned]
    cases hu : sub.unclaimed with
    | none => exact hl
    | some l =>
      have hne : lease ≠ l := by
        rintro rfl
        exact hr (OwnedBy.unique (ownedBy_iff.2 ⟨r, hl, rfl⟩) (hi.unclaimed_ownedBy hs hu))
      exact (release_lookup_ne hne).trans hl

/-! ## Behind the fence nothing is taken, and what is completed can be unregistered -/

theorem Fenced.take_none (hf : Fenced s id) (hi : Inv s)
    (hop : op = .takeReceiveReservation id ∨ op.takes id) : (call s op).1 = .lease none := by
  rcases hop with rfl | hop
  · dsimp only [call, DeliverySchedulerState.takeReceiveReservation]
    cases hs : s.subscriptions.lookup id with
    | none => rfl
    | some sub =>
      dsimp only
      rw [(hf sub hs).1, Bool.true_or, if_pos rfl]
  · obtain ⟨ret, hret⟩ : ∃ ret, (call s op).1 = .lease ret := by
      rcases hop with rfl | rfl
      · exact ⟨_, rfl⟩
      · exact ⟨_, rfl⟩
    cases ret with
    | none => exact hret
    | some lease =>
      -- a granted lane is eligible, so its subscription is not stopped
      obtain ⟨g, hg, -⟩ := call_lease hi hop hret
      obtain ⟨sub, hs, he⟩ := Option.bind_eq_some_iff.1 (selectedReady_some hg.selected).2
      have hst := (sub_eligibleLane_some he).1
      rw [(hf sub hs).1] at hst
      cases hst

theorem Inv.call_unregister (hi : Inv s) (hid : id ∈ s.subscriptions)
    (hown : ∀ lease, ¬ OwnedBy s id lease) :
    (call s (.unregister id)).1 = .bool true ∧
      id ∉ (Scheduler.step s (.unregister id)).subscriptions := by
  obtain ⟨sub, hs⟩ := Finmap.mem_iff.1 hid
  have hz : sub.owned = 0 := by
    rw [(hi.wf.sub id sub hs).ownedEq]
    refine Map.total_eq_zero _ fun lease r hl => if_neg fun hr => ?_
    exact hown lease (ownedBy_iff.2 ⟨r, hl, hr⟩)
  simp only [Scheduler.step, call, DeliverySchedulerState.unregister, hs, hz, ne_eq,
    not_true_eq_false, if_false, notifyReady_subscriptions, true_and]
  exact fun hm => (Finmap.mem_erase.1 hm).1 rfl

/-- `id` is not registered anew. -/
def KeepsOut (id : Id) (s : DeliverySchedulerState) (op : Op) : Prop :=
  op = .register id → (call s op).1 = .bool false

instance (id : Id) (s : DeliverySchedulerState) (op : Op) : Decidable (KeepsOut id s op) :=
  inferInstanceAs (Decidable (_ → _))

theorem exec_fenced (hi : Inv s) (hf : Fenced s id) (hops : Along step (KeepsOut id) s ops) :
    Fenced (exec step s ops) id ∧
      ∀ lease, OwnedBy (exec step s ops) id lease ↔ OwnedBy s id lease ∧ .complete lease ∉ ops := by
  induction ops generalizing s with
  | nil => exact ⟨hf, fun lease => by simp⟩
  | cons op ops ih =>
    obtain ⟨hf', ho⟩ := ih (hi.step op) (fenced_step hi hf hops.1) hops.2
    refine ⟨hf', fun lease => ?_⟩
    rw [exec_cons, ho lease, List.mem_cons, not_or]
    by_cases hop : op = .complete lease
    · subst hop
      exact ⟨fun h => absurd rfl (((hf.apart lease).complete hi lease).1 h.1).2,
        fun h => absurd rfl h.2.1⟩
    · rw [(hi.took op).ownedBy hi (hf.apart lease) hop]
      exact ⟨fun h => ⟨h.1, Ne.symm hop, h.2⟩, fun h => ⟨h.1, h.2.2⟩⟩

theorem exec_named (hi : Inv s) (hn : Named s) : Named (exec step s ops) := by
  have h := exec_induct (P := fun s => Inv s ∧ Named s)
    (fun s op h => ⟨h.1.step op, (h.1.took op).named h.1 h.2⟩) ⟨hi, hn⟩ ops
  exact h.2

theorem exec_laneKeyed (hi : Inv s) (hk : LaneKeyed s)
    (hops : Along step (fun s op => op.OwnLane s) s ops) : LaneKeyed (exec step s ops) := by
  induction ops generalizing s with
  | nil => exact hk
  | cons op ops ih => exact ih (hi.step op) ((hi.took op).laneKeyed hi hops.1 hk) hops.2

/-! ## The fence over whole runs -/

/-- What a stop of `id` that takes `s₀` to `s₁` means for the state `s` after the run `after`. -/
structure StopFence (s₀ s₁ s : DeliverySchedulerState) (id : Id) (after : List Op) : Prop where
  /-- Nothing is taken for `id`. -/
  take : ∀ op, op = .takeReceiveReservation id ∨ op = .takeReady id ∨ op = .takeSettlementReady id →
    (call s op).1 = .lease none
  /-- The stop itself takes back the reservation that is not claimed; ... -/
  stopped : ∀ lease, OwnedBy s₁ id lease ↔ OwnedBy s₀ id lease ∧ unclaimedOf s₀ id ≠ some lease
  /-- ... after it only `complete` removes a lease. -/
  completed : ∀ lease, OwnedBy s id lease ↔ OwnedBy s₁ id lease ∧ .complete lease ∉ after
  /-- When all leases are completed, `id` can be unregistered; ... -/
  reclaim : id ∈ s.subscriptions → (∀ lease, OwnedBy s₁ id lease → .complete lease ∈ after) →
    (call s (.unregister id)).1 = .bool true ∧ id ∉ (step s (.unregister id)).subscriptions
  /-- ... and once it is, nothing mentions it. -/
  unnamed : id ∉ s.subscriptions → Unnamed s id
  /-- The stop leaves the lanes of every subscription, and the records of the others. -/
  lanes : ∀ j, lanesOf s₁ j = lanesOf s₀ j
  others : ∀ lease r, s₀.owned.lookup lease = some r → r.subscriptionId ≠ id →
    s₁.owned.lookup lease = some r

/-- The stop fence, for every run before the stop and every run after it that does not register
`id` anew. -/
theorem exec_new_stop_fence (config : DeliverySchedulingConfig) (before after : List Op) (id : Id)
    {s₀ s₁ s : DeliverySchedulerState} (h₀ : s₀ = exec step (.new config) before)
    (h₁ : s₁ = step s₀ (.stopSubscription id)) (h : s = exec step s₁ after)
    (hafter : Along step (KeepsOut id) s₁ after) :
    StopFence s₀ s₁ s id after ∧
      (Along step (fun s op => op.OwnLane s) (.new config)
          (before ++ .stopSubscription id :: after) →
        id ∉ s.subscriptions → LanesUnnamed s id) := by
  have hi₀ : Inv s₀ := h₀ ▸ exec_inv (inv_new config) before
  have hi₁ : Inv s₁ := h₁ ▸ hi₀.step _
  have hi : Inv s := h ▸ exec_inv hi₁ after
  have hrun : s = exec step (.new config) (before ++ .stopSubscription id :: after) := by
    rw [exec_append, exec_cons, ← h₀, ← h₁, h]
  obtain ⟨hf, ho⟩ := exec_fenced hi₁ (h₁ ▸ fenced_stop hi₀ id) hafter
  rw [← h] at hf ho
  refine ⟨⟨fun op hop => hf.take_none hi hop, ?_, ho, fun hid hc => ?_, fun hid => ?_, ?_, ?_⟩,
    fun hk hid => ?_⟩
  · rw [h₁]
    exact ownedBy_stop hi₀ id
  · exact hi.call_unregister hid fun lease hl => ((ho lease).1 hl).2 (hc lease ((ho lease).1 hl).1)
  · have hn : Named s := hrun ▸ exec_named (inv_new config) fun j hj => absurd hj (by simp [new])
    exact hi.unnamed hn hid
  · rw [h₁]
    exact lanesOf_stop hi₀ id
  · rw [h₁]
    exact fun lease r hl hr => stop_others hi₀ hl hr
  · have hlk : LaneKeyed s := by
      rw [hrun]
      exact exec_laneKeyed (inv_new config) (fun l r key hl => by simp [new] at hl) hk
    exact hi.lanesUnnamed hlk hid

/-- Subscription 1 is stopped with one lease in a lane and one reserved; dispatch is switched on
again, a receive is requested, the lease is completed and the subscription unregistered, while
subscription 2 goes on with a lane of the same name. -/
theorem exec_new_stop_fence_reclaimed :
    let before : List Op := [.register ⟨1⟩, .setDispatchActive ⟨1⟩ true, .requestReceive ⟨1⟩,
      .takeReceiveReservation ⟨1⟩, .enqueue 1 (some ⟨"t", some "k", ⟨1⟩⟩), .requestReceive ⟨1⟩,
      .register ⟨2⟩, .requestReceive ⟨2⟩, .takeReceiveReservation ⟨2⟩]
    let after : List Op := [.setDispatchActive ⟨1⟩ true, .requestReceive ⟨1⟩,
      .enqueue 3 (some ⟨"t", some "k", ⟨2⟩⟩), .complete 1, .unregister ⟨1⟩]
    let s₀ := exec step (.new .default) before
    let s₁ := step s₀ (.stopSubscription ⟨1⟩)
    let s := exec step s₁ after
    unclaimedOf s₀ ⟨1⟩ = some 2 ∧ (call s₀ (.takeReady ⟨1⟩)).1 = .lease (some 1) ∧
      StopFence s₀ s₁ s ⟨1⟩ after ∧ ⟨1⟩ ∉ s.subscriptions ∧ LanesUnnamed s ⟨1⟩ ∧
      (s.owned.lookup 3).map (·.lane) = some (some ⟨"t", some "k", ⟨2⟩⟩) := by
  intro before after s₀ s₁ s
  have hgone : ⟨1⟩ ∉ s.subscriptions := by decide +kernel
  have h := @exec_new_stop_fence .default before after ⟨1⟩ s₀ s₁ s rfl rfl rfl (by decide +kernel)
  exact ⟨by decide, by decide, h.1, hgone, h.2 (by decide +kernel) hgone, by decide +kernel⟩

/-- **A lane can keep the name of a subscription that is gone**: `enqueue` stores whatever key it is
passed, here one of subscription 1 for a lease of subscription 2. -/
theorem exec_new_lane_names_reclaimed :
    let before : List Op := [.register ⟨1⟩, .register ⟨2⟩, .requestReceive ⟨2⟩,
      .takeReceiveReservation ⟨2⟩]
    let after : List Op := [.unregister ⟨1⟩, .enqueue 1 (some ⟨"t", some "k", ⟨1⟩⟩)]
    let s₁ := step (exec step (.new .default) before) (.stopSubscription ⟨1⟩)
    let s := exec step s₁ after
    Along step (KeepsOut ⟨1⟩) s₁ after ∧ (call s₁ (.unregister ⟨1⟩)).1 = .bool true ∧
      ⟨1⟩ ∉ s.subscriptions ∧ ¬ LanesUnnamed s ⟨1⟩ := by
  intro before after s₁ s
  refine ⟨by decide, by decide, by decide +kernel, fun h => ?_⟩
  have hlane :
      (s.owned.lookup 1).map (·.lane) = some (some ⟨"t", some "k", ⟨1⟩⟩) := by decide +kernel
  obtain ⟨r, hl, hr⟩ := Option.map_eq_some_iff.1 hlane
  exact h.owned 1 r _ hl hr rfl

end

end EventBus.Scheduler
