import EventBus.Scheduler.Step

/-!
# Every reachable state satisfies the invariant

Each operation keeps `Inv` (`Inv.step`), so every run does (`exec_inv`), with whatever identities,
leases and lanes its callers pass. The result is spelled out in terms of the scheduler's own fields
at the end (`Inv.consistent`).
-/

namespace EventBus.Scheduler

open Lib OwnedDeliveryPhase DeliverySchedulerState

variable {s : DeliverySchedulerState} {id : Id}

theorem ReadyBut.ready (h : ReadyBut s id) (hid : id ∈ s.ready ↔ (s.eligibleLane id true).isSome) :
    Ready s :=
  ⟨h.nodup, fun j => if hj : j = id then hj ▸ hid else h.mem j hj⟩

section
variable {sub : SubscriptionScheduleState}

/-! ## Registration -/

/-- An unknown subscription has no records and no place in the rotations. -/
theorem Inv.unknown (h : Inv s) (hs : s.subscriptions.lookup id = none) :
    (∀ l r, ¬ Owns s.owned id l r) ∧ id ∉ s.receiveWaiters ∧ id ∉ s.ready := by
  refine ⟨fun l r hr => ?_, fun hw => ?_, fun hr => ?_⟩
  · obtain ⟨sub, hsub⟩ := h.wf.registered l r hr.1
    rw [hr.2, hs] at hsub
    cases hsub
  · obtain ⟨sub, hsub, -⟩ := (h.wf.waiters id).1 hw
    rw [hs] at hsub
    cases hsub
  · rw [h.ready.mem id, eligibleLane, hs] at hr
    cases hr

theorem Inv.register (h : Inv s) (hs : s.subscriptions.lookup id = none)
    (hlt : s.subscriptions.size < s.config.maxSubscriptions) :
    Inv { s with subscriptions := s.subscriptions.insert id {} } := by
  obtain ⟨hnone, hnw, hnr⟩ := h.unknown hs
  refine ⟨{ h.wf with subsLe := ?_, sub := ?_, registered := ?_, waiters := ?_ },
    ReadyBut.ready (h.wf.readyBut (h.ready.but id) h.ready.nodup (fun _ _ => Iff.rfl)
      (fun j hj => ?_) fun _ _ hl _ => hl) ?_⟩
  · show Map.size (s.subscriptions.insert id {}) ≤ _
    rw [Map.size_insert_new _ hs]
    exact hlt
  · intro j sub hj
    simp only [Map.lookup_insert_eq] at hj
    split at hj
    · rename_i hji
      subst hji
      cases hj
      refine ⟨Nat.zero_le _, ?_, subInv_new hnone⟩
      exact (Map.total_eq_zero _ fun l r hl => if_neg fun hid => hnone l r ⟨hl, hid⟩).symm
    · exact h.wf.sub j sub hj
  · intro l r hl
    simp only [Map.lookup_insert_eq]
    split
    · exact ⟨_, rfl⟩
    · exact h.wf.registered l r hl
  · intro j
    simp only [Map.lookup_insert_eq]
    by_cases hj : j = id
    · simp [hj, hnw]
    · simp [hj, h.wf.waiters j]
  · exact (Map.lookup_insert_eq _ _ _ _).trans (if_neg hj)
  · show id ∈ s.ready ↔ (((s.subscriptions.insert id {}).lookup id).bind _).isSome
    rw [Map.lookup_insert_eq, if_pos rfl]
    simp [hnr, SubscriptionScheduleState.eligibleLane]

theorem Inv.dropped (h : Inv s) (hs : s.subscriptions.lookup id = some sub) (hz : sub.owned = 0) :
    Inv (dropped s id) := by
  have hcount := (h.wf.sub id sub hs).ownedEq
  rw [hz] at hcount
  have hnone : ∀ l r, s.owned.lookup l = some r → r.subscriptionId ≠ id :=
    fun l r hl => Map.count_eq_zero hcount.symm hl
  refine ⟨{ ownedLe := h.wf.ownedLe, runningLe := h.wf.runningLe, runningEq := h.wf.runningEq
            fresh := h.wf.fresh, subsLe := ?_, sub := ?_, registered := ?_
            waitersNodup := h.wf.waitersNodup.filter _, waiters := ?_ },
    ReadyBut.ready (h.wf.readyBut (h.ready.but id) (h.ready.nodup.filter _)
      (fun j hj => by simp [Scheduler.dropped, hj]) (fun j hj => ?_) fun _ _ hl _ => hl) ?_⟩
  · have := Map.size_erase hs
    have := h.wf.subsLe
    show Map.size (s.subscriptions.erase id) ≤ (s.config.maxSubscriptions : Nat)
    omega
  · intro j subj hj
    simp only [Scheduler.dropped, Map.lookup_erase_eq] at hj
    split at hj
    · cases hj
    · exact h.wf.sub j subj hj
  · intro l r hl
    simp only [Scheduler.dropped, Map.lookup_erase_eq]
    rw [if_neg (hnone l r hl)]
    exact h.wf.registered l r hl
  · intro j
    simp only [Scheduler.dropped, Map.lookup_erase_eq]
    by_cases hj : j = id
    · simp [hj]
    · simp [hj, h.wf.waiters j]
  · exact (Map.lookup_erase_eq _ _ _).trans (if_neg hj)
  · show id ∈ s.ready.filter (· ≠ id) ↔ (((s.subscriptions.erase id).lookup id).bind _).isSome
    rw [Map.lookup_erase_eq, if_pos rfl]
    simp

/-! ## Receive demand -/

/-- The rotation without `id`. -/
theorem mem_filter_ne {ids : List Id} {waiting : Bool} (hw : waiting = false) (j : Id) :
    j ∈ ids.filter (· ≠ id) ↔ (j = id ∧ waiting = true) ∨ (j ≠ id ∧ j ∈ ids) := by
  simp [hw, and_comm]

theorem Inv.demanded (h : Inv s) (hs : s.subscriptions.lookup id = some sub)
    (hstop : sub.stopped = false) (hwait : sub.receiveWaiting = false)
    (hres : sub.receiveReservation = none) : Inv (demanded s id sub) := by
  have hnw : id ∉ s.receiveWaiters := by
    rw [h.wf.waiters_of_lookup hs, hwait]
    exact Bool.false_ne_true
  have hsub : SubInv (Owns s.owned id) { sub with receiveWaiting := true } :=
    (h.wf.sub id sub hs).inv.flags (fun _ => hres) fun hst => by
      rw [hstop] at hst
      cases hst
  refine h.setSub hs hsub rfl rfl ?_ fun j => ?_
  · exact List.nodup_append.2 ⟨h.wf.waitersNodup, List.nodup_singleton _, fun a ha b hb hab =>
      hnw (List.mem_singleton.1 hb ▸ hab ▸ ha)⟩
  · by_cases hj : j = id
    · simp [hj]
    · simp [hj]

theorem Inv.withdrawn (h : Inv s) (hs : s.subscriptions.lookup id = some sub) :
    Inv (withdrawn s id sub) := by
  have hinv := (h.wf.sub id sub hs).inv
  have hsub : SubInv (Owns s.owned id) { sub with receiveWaiting := false } :=
    hinv.flags (fun hw => by cases hw) fun hst => ⟨(hinv.stopped hst).1, rfl⟩
  exact h.setSub hs hsub rfl rfl (h.wf.waitersNodup.filter _) (mem_filter_ne rfl)

theorem Inv.claimed (h : Inv s) (hs : s.subscriptions.lookup id = some sub) :
    Inv { s with
      subscriptions := s.subscriptions.insert id { sub with receiveTaken := true } } := by
  have hinv := (h.wf.sub id sub hs).inv
  have hsub : SubInv (Owns s.owned id) { sub with receiveTaken := true } :=
    hinv.flags hinv.waiting hinv.stopped
  exact h.setSub hs hsub rfl rfl h.wf.waitersNodup (h.wf.waiters_same hs rfl)

theorem Inv.activated (h : Inv s) (hs : s.subscriptions.lookup id = some sub) (active : Bool) :
    Inv (refreshReady { s with
      subscriptions := s.subscriptions.insert id
        { sub with dispatchActive := active && !sub.stopped } } id) := by
  have hinv := (h.wf.sub id sub hs).inv
  have hsub : SubInv (Owns s.owned id) { sub with dispatchActive := active && !sub.stopped } :=
    hinv.flags hinv.waiting fun hst => ⟨by rw [hst, Bool.not_true, Bool.and_false],
      (hinv.stopped hst).2⟩
  exact h.setSub_refresh hs hsub rfl h.wf.waitersNodup (h.wf.waiters_same hs rfl)

/-- A stop fence leaves `ready` wrong about `id` until it is refreshed. -/
theorem Inv.fenced_but (h : Inv s) (hs : s.subscriptions.lookup id = some sub) :
    Wf (fenced s id sub) ∧ ReadyBut (fenced s id sub) id := by
  have hinv := (h.wf.sub id sub hs).inv
  have hsub : SubInv (Owns s.owned id)
      { sub with stopped := true, dispatchActive := false, receiveWaiting := false } :=
    hinv.flags (fun hw => by cases hw) fun _ => ⟨rfl, rfl⟩
  exact ⟨h.wf.setSub hs hsub rfl (h.wf.waitersNodup.filter _) (mem_filter_ne rfl),
    h.wf.readyBut (h.ready.but id) h.ready.nodup (fun _ _ => Iff.rfl)
      (fun _ hj => (Map.lookup_insert_eq _ _ _ _).trans (if_neg hj)) fun _ _ hl _ => hl⟩

theorem Inv.fenced_release (h : Inv s) (hs : s.subscriptions.lookup id = some sub) {lease : Nat}
    (hu : sub.unclaimed = some lease) : Inv ((Scheduler.fenced s id sub).release lease) := by
  obtain ⟨hw, hr⟩ := h.fenced_but hs
  obtain ⟨r, hl, rfl, -⟩ := (h.wf.sub id sub hs).inv.reserved_owns (unclaimed_some hu).2
  exact hw.released hl hr

theorem Inv.fenced (h : Inv s) (hs : s.subscriptions.lookup id = some sub) :
    Inv (((fenced s id sub).releaseUnclaimed sub.unclaimed).refreshReady id) := by
  cases hu : sub.unclaimed with
  | none => exact (h.fenced_but hs).1.refresh_inv (h.fenced_but hs).2
  | some lease =>
    have h' := h.fenced_release hs hu
    exact h'.wf.refresh_inv (h'.ready.but _)

/-! ## Lanes, attempts and retries -/

section
variable {lease : Nat} {record : OwnedDeliveryRecord}

theorem Inv.laned (h : Inv s) (hl : s.owned.lookup lease = some record)
    (hs : s.subscriptions.lookup record.subscriptionId = some sub)
    (hp : record.phase = .reservedReceive) (lane : Option OrderingLaneKey)
    {phase : OwnedDeliveryPhase} (hq : phase.isQueued) :
    Inv ((laned s sub lease record lane phase).refreshReady record.subscriptionId) := by
  have hinv := (h.wf.sub _ sub hs).inv.enqueue (owns_functional _ _) ⟨hl, rfl⟩ hp hq lane
  refine h.update_refresh hs ⟨hl, rfl⟩ rfl hinv rfl rfl ?_ h.wf.runningLe h.ready.nodup
    fun _ _ => Iff.rfl
  rcases hq with rfl | rfl <;> simp [hp]

theorem Inv.granted (h : Inv s) {g : LaneHead} (hg : Selected s id g) :
    Inv (granted s id g) := by
  have hinv := (h.wf.sub id g.sub hg.lookup).inv.take (owns_functional _ _) hg.lanes hg.unlocked
    hg.owns (grantPhase_holdsLane g.record.phase)
  refine h.update_refresh hg.lookup hg.owns hg.owns.2 hinv rfl rfl ?_ ?_
    (h.ready.nodup.filter _) fun j hj => by simp [hj]
  · rcases hg.phase with hp | ⟨-, hp⟩ <;> simp [hp, grantPhase]
  · split_ifs with hp
    · rcases hg.phase with hp' | ⟨ha, -⟩
      · rw [hp] at hp'
        cases hp'
      · exact of_decide_eq_true ha
    · exact h.wf.runningLe

theorem Inv.leaveRunning (h : Inv s) (hl : s.owned.lookup lease = some record)
    (hp : record.phase = .running) {next : OwnedDeliveryPhase} (hn : next.holdsLane)
    (hr : next ≠ .running) :
    Inv { s with
      owned := s.owned.insert lease { record with phase := next }
      running := s.running - 1 } := by
  obtain ⟨sub, hs⟩ := h.wf.registered lease record hl
  have hpos := Map.count_pos (p := (·.phase = .running)) hl hp
  rw [← h.wf.runningEq] at hpos
  have hle := h.wf.runningLe
  refine h.update hs hl rfl (by rw [hp]; decide)
    ((h.wf.sub _ sub hs).inv.rephase (owns_functional _ _) ⟨hl, rfl⟩ (.inl hp) hn) ?_ (by omega)
  simp only [hp, hr, if_true, if_false]
  omega

theorem Inv.finishAttemptWaiting (h : Inv s) (hl : s.owned.lookup lease = some record)
    (hp : record.phase = .settling) :
    Inv { s with owned := s.owned.insert lease { record with phase := .waitingRetry } } := by
  obtain ⟨sub, hs⟩ := h.wf.registered lease record hl
  exact h.update hs hl rfl (by rw [hp]; decide)
    ((h.wf.sub _ sub hs).inv.rephase (owns_functional _ _) ⟨hl, rfl⟩ (.inr (.inl hp))
      (.inr (.inr rfl))) (by simp [hp]) h.wf.runningLe

theorem Inv.woken (h : Inv s) (hl : s.owned.lookup lease = some record)
    (hs : s.subscriptions.lookup record.subscriptionId = some sub)
    (hp : record.phase = .waitingRetry) :
    Inv ((woken s sub lease record).refreshReady record.subscriptionId) := by
  have hq : isQueued .queued := .inl rfl
  have hinv := (h.wf.sub _ sub hs).inv.wake (owns_functional _ _) ⟨hl, rfl⟩ (.inr (.inr hp)) hq
  exact h.update_refresh hs ⟨hl, rfl⟩ rfl hinv rfl rfl (by simp [hp]) h.wf.runningLe
    h.ready.nodup fun _ _ => Iff.rfl

theorem Inv.recordOwnedStart (h : Inv s) (hl : s.owned.lookup lease = some record)
    (hp : record.phase = .reservedReceive) (createdAt : MonotonicInstant) :
    Inv { s with owned := s.owned.insert lease { record with createdAt := some createdAt } } := by
  obtain ⟨sub, hs⟩ := h.wf.registered lease record hl
  exact h.update hs hl rfl (by rw [hp]; decide)
    ((h.wf.sub _ sub hs).inv.touch (owns_functional _ _) ⟨hl, rfl⟩) rfl h.wf.runningLe

end

end

/-! ## All states -/

theorem Took.inv {s' : DeliverySchedulerState} {op : Op} (ht : Took s op s') (h : Inv s) :
    Inv s' := by
  cases ht with
  | skip => exact h
  | notify => exact h.notifyReady
  | register hs hlt => exact h.register hs hlt
  | setDispatchActive active hs => exact (h.activated hs active).notifyReady
  | requestReceive hs hstop hwait hres => exact (h.demanded hs hstop hwait hres).grantReceives
  | cancelReceive hs =>
    exact ((h.withdrawn hs).releaseUnclaimed _).grantReceives.notifyReady
  | takeReceiveReservation hs => exact h.claimed hs
  | enqueue hop hl hs hp =>
    exact (h.laned hl hs hp _ (hop.imp (·.2) (·.2))).notifyReady
  | grant hret hg => exact (h.granted hg).notifyReady
  | leaveRunning hop hl hp =>
    refine (h.leaveRunning hl hp ?_ ?_).notifyReady
    · rcases hop with ⟨-, rfl⟩ | ⟨-, rfl⟩ <;> decide
    · rcases hop with ⟨-, rfl⟩ | ⟨-, rfl⟩ <;> decide
  | finishAttemptWaiting hl hp => exact h.finishAttemptWaiting hl hp
  | wakeRetry hl hs hp => exact (h.woken hl hs hp).notifyReady
  | complete lease => exact (h.release lease).grantReceives.notifyReady
  | stopSubscription hs h₁ =>
    exact ((h₁ ▸ h.fenced hs).setNotifications _).grantReceives.notifyReady
  | unregister hs hz => exact (h.dropped hs hz).notifyReady
  | takeNotifications => exact h.setNotifications ∅
  | recordOwnedStart createdAt hl hp => exact h.recordOwnedStart hl hp createdAt

theorem Inv.step (h : Inv s) (op : Op) : Inv (step s op) :=
  (h.took op).inv h

theorem exec_inv (h : Inv s) (ops : List Op) : Inv (exec step s ops) :=
  exec_induct (fun _ op h => h.step op) h ops

/-! ## The configuration -/

section
variable (s : DeliverySchedulerState)

@[simp] theorem refreshReady_config (id : Id) : (s.refreshReady id).config = s.config := by
  unfold refreshReady
  split_ifs <;> rfl

@[simp] theorem notifyReady_config : s.notifyReady.config = s.config := by
  unfold notifyReady
  split <;> rfl

@[simp] theorem grantLoop_config (n : Nat) : (grantLoop n s).config = s.config := by
  induction n generalizing s with
  | zero => rfl
  | succ n ih =>
    unfold grantLoop grantReceive
    split_ifs
    · rfl
    · split
      · rfl
      · split
        · rw [ih]
        · split_ifs
          · rw [ih]
          · rw [ih]
          · split
            · rfl
            · rw [ih]

@[simp] theorem release_config (lease : Nat) : (s.release lease).config = s.config := by
  unfold release
  split
  · rfl
  · dsimp only
    split
    · rfl
    · rw [refreshReady_config]

@[simp] theorem startGrant_config (lease : Nat) (record : OwnedDeliveryRecord)
    (expected : OwnedDeliveryPhase) : (s.startGrant lease record expected).config = s.config := by
  unfold startGrant
  split <;> rfl

theorem step_config (op : Op) : (step s op).config = s.config := by
  cases op <;>
    simp only [step, call, register, setDispatchActive, requestReceive, cancelReceive,
      takeReceiveReservation, enqueue, enqueueSettlement, enqueuePhase, takeSettlementReady,
      takeReady, takeGrant, handlerFinished, deferUnstartedRetry, leaveRunning,
      finishAttemptWaiting, wakeRetry, complete, stopSubscription, unregister, takeNotifications,
      recordOwnedStart, releaseUnclaimed, grantReceives] <;>
    (repeat' split) <;> simp

end

theorem exec_config (s : DeliverySchedulerState) (ops : List Op) :
    (exec step s ops).config = s.config :=
  exec_induct (P := fun t => t.config = s.config) (fun t op h => (step_config t op).trans h) rfl ops

/-! ## Consistency in the scheduler's own terms -/

/-- The state `sub` of the subscription `id` agrees with the records of `s`. -/
structure SubscriptionConsistent (s : DeliverySchedulerState) (id : Id)
    (sub : SubscriptionScheduleState) : Prop where
  ownedEq : sub.owned = s.owned.count (·.subscriptionId = id)
  /-- The lanes hold exactly the queued leases, each in its own lane ... -/
  lanesMem : ∀ lane lease, (∃ queue, (lane, queue) ∈ sub.lanes ∧ lease ∈ queue) ↔
    ∃ r, s.owned.lookup lease = some r ∧ r.subscriptionId = id ∧ r.lane = lane ∧
      (r.phase = .queued ∨ r.phase = .queuedSettlement)
  /-- ... and once, with no empty lane and no key twice. -/
  lanesNodup : (sub.lanes.flatMap Prod.snd).Nodup
  lanesNonempty : ∀ p ∈ sub.lanes, p.2 ≠ []
  keysNodup : (sub.lanes.filterMap Prod.fst).Nodup
  lockedMem : ∀ key, key ∈ sub.lockedLanes ↔
    ∃ lease r, s.owned.lookup lease = some r ∧ r.subscriptionId = id ∧ r.lane = some key ∧
      (r.phase = .running ∨ r.phase = .settling ∨ r.phase = .waitingRetry)
  lockedUnique : ∀ key l l' r r', s.owned.lookup l = some r → r.subscriptionId = id →
    r.lane = some key → (r.phase = .running ∨ r.phase = .settling ∨ r.phase = .waitingRetry) →
    s.owned.lookup l' = some r' → r'.subscriptionId = id → r'.lane = some key →
    (r'.phase = .running ∨ r'.phase = .settling ∨ r'.phase = .waitingRetry) → l = l'
  reservation : ∀ lease, sub.receiveReservation = some lease ↔
    ∃ r, s.owned.lookup lease = some r ∧ r.subscriptionId = id ∧ r.phase = .reservedReceive

/-- The limits hold and the indexes of the scheduler agree with its records. -/
structure Consistent (config : DeliverySchedulingConfig) (s : DeliverySchedulerState) : Prop where
  ownedLe : s.owned.size ≤ config.maxOwnedDeliveries
  runningLe : s.running ≤ config.maxRunningHandlers
  subscriptionsLe : s.subscriptions.size ≤ config.maxSubscriptions
  perSubscriptionLe : ∀ id sub, s.subscriptions.lookup id = some sub →
    sub.owned ≤ config.maxOwnedPerSubscription
  runningEq : s.running = s.owned.count (·.phase = .running)
  registered : ∀ lease r, s.owned.lookup lease = some r →
    (s.subscriptions.lookup r.subscriptionId).isSome
  subscription : ∀ id sub, s.subscriptions.lookup id = some sub → SubscriptionConsistent s id sub
  waitersNodup : s.receiveWaiters.Nodup
  waitersMem : ∀ id, id ∈ s.receiveWaiters ↔
    ∃ sub, s.subscriptions.lookup id = some sub ∧ sub.receiveWaiting = true
  readyNodup : s.ready.Nodup
  readyMem : ∀ id, id ∈ s.ready ↔
    ∃ sub, s.subscriptions.lookup id = some sub ∧ (sub.eligibleLane s.owned true).isSome

theorem SubOk.consistent {sub : SubscriptionScheduleState} (h : SubOk s.config s.owned id sub) :
    SubscriptionConsistent s id sub where
  ownedEq := h.ownedEq
  lanesMem lane lease := (h.inv.lanesMem lane lease).trans (exists_congr fun _ => and_assoc)
  lanesNodup := h.inv.lanesOk.itemsNodup
  lanesNonempty := h.inv.lanesOk.nonempty
  keysNodup := h.inv.lanesOk.keysNodup
  lockedMem key := (h.inv.lockedMem key).trans
    (exists_congr fun _ => exists_congr fun _ => and_assoc)
  lockedUnique key l l' r r' hl hid hk hp hl' hid' hk' hp' :=
    h.inv.holderUnique key l l' ⟨r, ⟨hl, hid⟩, hk, hp⟩ ⟨r', ⟨hl', hid'⟩, hk', hp'⟩
  reservation lease := (h.inv.reserved lease).trans (exists_congr fun _ => and_assoc)

theorem Inv.consistent (h : Inv s) : Consistent s.config s where
  ownedLe := h.wf.ownedLe
  runningLe := h.wf.runningLe
  subscriptionsLe := h.wf.subsLe
  perSubscriptionLe id sub hs := (h.wf.sub id sub hs).ownedLe
  runningEq := h.wf.runningEq
  registered lease r hl := Option.isSome_iff_exists.2 (h.wf.registered lease r hl)
  subscription id sub hs := (h.wf.sub id sub hs).consistent
  waitersNodup := h.wf.waitersNodup
  waitersMem := h.wf.waiters
  readyNodup := h.ready.nodup
  readyMem id := by
    rw [h.ready.mem id, eligibleLane]
    cases hs : s.subscriptions.lookup id with
    | none => simp
    | some sub => simp

/-- After any operations on a new scheduler, by any callers and with any arguments, its limits
hold and its indexes agree with its records. -/
theorem exec_new_consistent (config : DeliverySchedulingConfig) (ops : List Op) :
    Consistent config (exec step (.new config) ops) := by
  have h := (exec_inv (inv_new config) ops).consistent
  rw [exec_config] at h
  exact h

end EventBus.Scheduler
