import EventBus.Scheduler.Ordered

/-!
# The stop fence

`stopSubscription` sets a flag that nothing unsets: a subscription that is stopped stays so until
it is unregistered (`SubsKeep`), and every grant looks at the flag first. Behind the fence
(`Fenced`) no lease comes to the subscription, and what it owned stays with it until `complete`
(`Took.ownedBy`). What is left after the last one is the subject of `Scheduler/Reclaim.lean`.
-/

namespace EventBus.Scheduler

open Lib OwnedDeliveryPhase DeliverySchedulerState

section
variable {lease : Nat} {op : Op} {j : Id} {s s' t : DeliverySchedulerState} {id : Id}
  {sub : SubscriptionScheduleState}

/-! ## The flag stays -/

/-- A stopped subscription stays stopped, and no reservation waits to be claimed. -/
structure KeepsStop (sub sub' : SubscriptionScheduleState) : Prop where
  stopped : sub.stopped = true → sub'.stopped = true
  unclaimed : sub.stopped = true → sub.unclaimed = none → sub'.unclaimed = none

theorem KeepsStop.refl (sub : SubscriptionScheduleState) : KeepsStop sub sub :=
  ⟨id, fun _ => id⟩

theorem KeepsStop.of_open {sub sub' : SubscriptionScheduleState} (h : sub.stopped = false) :
    KeepsStop sub sub' := by
  refine ⟨fun hst => ?_, fun hst => ?_⟩
  · rw [h] at hst
    cases hst
  · rw [h] at hst
    cases hst

/-- The subscriptions of `s'` are those of `s`, or fewer. -/
def SubsKeep (s s' : DeliverySchedulerState) : Prop :=
  ∀ j sub', s'.subscriptions.lookup j = some sub' →
    ∃ sub, s.subscriptions.lookup j = some sub ∧ KeepsStop sub sub'

theorem SubsKeep.of_eq (h : s'.subscriptions = s.subscriptions) : SubsKeep s s' := by
  intro j sub hj
  rw [h] at hj
  exact ⟨sub, hj, .refl sub⟩

theorem SubsKeep.trans (h : SubsKeep s s') (h' : SubsKeep s' t) : SubsKeep s t := by
  intro j sub hj
  obtain ⟨sub₁, h₁, hk₁⟩ := h' j sub hj
  obtain ⟨sub₀, h₀, hk₀⟩ := h j sub₁ h₁
  exact ⟨sub₀, h₀, fun hst => hk₁.stopped (hk₀.stopped hst),
    fun hst hu => hk₁.unclaimed (hk₀.stopped hst) (hk₀.unclaimed hst hu)⟩

/-- One subscription changes. -/
theorem SubsKeep.insert {sub' : SubscriptionScheduleState}
    (h : s'.subscriptions = s.subscriptions.insert id sub')
    (hs : s.subscriptions.lookup id = some sub) (hk : KeepsStop sub sub') : SubsKeep s s' := by
  intro j subj hj
  rw [h, Map.lookup_insert_eq] at hj
  split at hj
  · rename_i he
    cases hj
    exact ⟨sub, he ▸ hs, hk⟩
  · exact ⟨subj, hj, .refl subj⟩

theorem releaseSub_receiveTaken (sub : SubscriptionScheduleState) (record : OwnedDeliveryRecord)
    (lease : Nat) : (releaseSub sub record lease).receiveTaken =
    if sub.receiveReservation = some lease then false else sub.receiveTaken := by
  dsimp only [releaseSub, SubscriptionScheduleState.removeQueued]
  split_ifs <;> cases record.lane <;> simp_all

theorem keepsStop_releaseSub (sub : SubscriptionScheduleState) (record : OwnedDeliveryRecord)
    (lease : Nat) : KeepsStop sub (releaseSub sub record lease) where
  stopped hst := by rw [(releaseSub_flags sub record lease).2.2.1, hst]
  unclaimed _ hu := by
    unfold SubscriptionScheduleState.unclaimed at hu ⊢
    rw [releaseSub_receiveTaken, releaseSub_receiveReservation]
    by_cases hl : sub.receiveReservation = some lease
    · rw [if_pos hl, if_pos hl]
      rfl
    · rw [if_neg hl, if_neg hl]
      exact hu

theorem Edit.subsKeep (h : Edit s op t)
    (hop : ∀ j, op = .register j → s.subscriptions.lookup j ≠ none) : SubsKeep s t := by
  cases h.subscriptions with
  | same heq => exact .of_eq heq
  | register _ hreg hs => exact absurd hs (hop _ hreg)
  | change heq hs hsub =>
    refine .insert heq hs ⟨hsub.stopped, fun hst hu => ?_⟩
    unfold SubscriptionScheduleState.unclaimed at hu ⊢
    rcases hsub.reservation with ⟨hres, htaken⟩ | ⟨-, htaken⟩ | ⟨hopen, -⟩
    · rw [hres, htaken, hu]
    · rw [htaken, if_pos rfl]
    · rw [hst] at hopen
      cases hopen
  | unregister heq =>
    intro j sub hs
    rw [heq, Map.lookup_erase_eq] at hs
    split at hs
    · cases hs
    · exact ⟨sub, hs, .refl sub⟩

theorem carries_subsKeep (s t : DeliverySchedulerState) (op : Op) : Carries t op (SubsKeep s) where
  reads h _ hs _ := h.trans (.of_eq hs)
  release {t lease} h _ := by
    rcases release_subscriptions t lease with hs | ⟨record, sub, hsub, hs⟩
    · exact h.trans (.of_eq hs)
    · exact h.trans (.insert hs hsub (keepsStop_releaseSub sub record lease))
  grant h hw hf _ := h.trans (.insert rfl hf.lookup (.of_open (hf.not_stopped hw)))

/-- No operation but a registration brings a subscription back. -/
theorem Took.subsKeep (ht : Took s op s') (hi : Inv s)
    (hop : ∀ j, op = .register j → s.subscriptions.lookup j ≠ none) : SubsKeep s s' :=
  ht.carry hi (carries_subsKeep s s op) fun _ h => h.subsKeep hop

/-! ## Who owns a lease -/

/-- `lease` belongs to `id`. -/
def OwnedBy (s : DeliverySchedulerState) (id : Id) (lease : Nat) : Prop :=
  (s.owned.lookup lease).map (·.subscriptionId) = some id

theorem ownedBy_iff :
    OwnedBy s id lease ↔ ∃ r, s.owned.lookup lease = some r ∧ r.subscriptionId = id :=
  Option.map_eq_some_iff

theorem OwnedBy.unique (h : OwnedBy s id lease) (h' : OwnedBy s j lease) : id = j :=
  Option.some.inj (h.symm.trans h')

theorem ownedBy_congr (h : s'.owned = s.owned) : OwnedBy s' id lease ↔ OwnedBy s id lease := by
  rw [OwnedBy, h, OwnedBy]

@[simp] theorem ownedBy_notifyReady :
    OwnedBy s.notifyReady id lease ↔ OwnedBy s id lease :=
  ownedBy_congr (notifyReady_owned s)

@[simp] theorem ownedBy_refreshReady :
    OwnedBy (s.refreshReady j) id lease ↔ OwnedBy s id lease :=
  ownedBy_congr (refreshReady_owned s j)

/-- A record changes, but not its owner. -/
theorem ownedBy_insert {l : Nat} {r r' : OwnedDeliveryRecord} (h : s'.owned = s.owned.insert l r')
    (hl : s.owned.lookup l = some r) (hid : r'.subscriptionId = r.subscriptionId) :
    OwnedBy s' id lease ↔ OwnedBy s id lease := by
  rw [OwnedBy, h, owner_insert hl hid, OwnedBy]

theorem ownedBy_release {l : Nat} :
    OwnedBy (s.release l) id lease ↔ OwnedBy s id lease ∧ lease ≠ l := by
  by_cases hl : lease = l
  · subst hl
    simp [OwnedBy, release_lookup_self]
  · simp [OwnedBy, release_lookup_ne hl, hl]

theorem ownedBy_releaseUnclaimed {unclaimed : Option Nat} :
    OwnedBy (s.releaseUnclaimed unclaimed) id lease ↔
      OwnedBy s id lease ∧ unclaimed ≠ some lease := by
  cases unclaimed with
  | none => simp [DeliverySchedulerState.releaseUnclaimed]
  | some l =>
    have hne : lease ≠ l ↔ some l ≠ some lease := by
      rw [ne_eq, ne_eq, Option.some.injEq, eq_comm]
    rw [← hne]
    exact ownedBy_release

/-- A scan hands out unused leases, and to waiters only. -/
theorem ownedBy_grantReceives (hw : Wf s)
    (h : id ∉ s.receiveWaiters ∨ ∀ n, s.nextLease = some n → lease < n) :
    OwnedBy s.grantReceives id lease ↔ OwnedBy s id lease := by
  have hscan := scan_grantReceives hw
  refine ⟨fun ho => ?_, fun ho => ?_⟩
  · obtain ⟨r, hr, hid⟩ := ownedBy_iff.1 ho
    cases hl : s.owned.lookup lease with
    | none =>
      obtain ⟨hwait, -, n, hn, hle⟩ := hscan.new id lease ⟨hl, r, hr, hid⟩
      rcases h with hno | hused
      · exact absurd hwait hno
      · exact absurd (hused n hn) (Nat.not_lt.2 hle)
    | some r₀ =>
      rw [hscan.old lease r₀ hl] at hr
      exact ownedBy_iff.2 ⟨r₀, hl, Option.some.inj hr ▸ hid⟩
  · obtain ⟨r, hl, hr⟩ := ownedBy_iff.1 ho
    exact ownedBy_iff.2 ⟨r, hscan.old lease r hl, hr⟩

/-! ## Behind the fence -/

/-- `id` is not registered, or stopped. -/
def Stopped (s : DeliverySchedulerState) (id : Id) : Prop :=
  ∀ sub, s.subscriptions.lookup id = some sub → sub.stopped = true

/-- If `id` is registered, it is stopped and has no reservation to claim. -/
def Fenced (s : DeliverySchedulerState) (id : Id) : Prop :=
  ∀ sub, s.subscriptions.lookup id = some sub → sub.stopped = true ∧ sub.unclaimed = none

theorem Fenced.keep (h : Fenced s id) (hk : SubsKeep s s') : Fenced s' id := by
  intro sub' hs'
  obtain ⟨sub, hs, hkeep⟩ := hk id sub' hs'
  obtain ⟨hst, hu⟩ := h sub hs
  exact ⟨hkeep.stopped hst, hkeep.unclaimed hst hu⟩

theorem Wf.not_waiting (hw : Wf s) (h : Stopped s id) : id ∉ s.receiveWaiters := by
  intro hm
  obtain ⟨sub, hs, hwait⟩ := (hw.waiters id).1 hm
  have := ((hw.sub id sub hs).inv.stopped (h sub hs)).2
  rw [hwait] at this
  cases this

/-- An unclaimed reservation belongs to its subscription. -/
theorem Inv.unclaimed_ownedBy (hi : Inv s) (hs : s.subscriptions.lookup id = some sub)
    (hu : sub.unclaimed = some lease) : OwnedBy s id lease := by
  obtain ⟨r, hl, hid, -⟩ := (hi.wf.sub id sub hs).inv.reserved_owns (unclaimed_some hu).2
  exact ownedBy_iff.2 ⟨r, hl, hid⟩

/-- The scheduler neither takes `lease` back from `id` nor hands it out to it. -/
structure Apart (s : DeliverySchedulerState) (id : Id) (lease : Nat) : Prop where
  /-- It is no reservation that `id` has still to claim. -/
  claimed : ∀ sub, s.subscriptions.lookup id = some sub → sub.unclaimed ≠ some lease
  unscanned : Stopped s id ∨ ∀ n, s.nextLease = some n → lease < n

theorem Fenced.stopped (h : Fenced s id) : Stopped s id := fun sub hs => (h sub hs).1

theorem Fenced.apart (h : Fenced s id) (lease : Nat) : Apart s id lease := by
  refine ⟨fun sub hs => ?_, .inl h.stopped⟩
  rw [(h sub hs).2]
  exact nofun

/-- A scan after changes that let nobody wait who is stopped. -/
theorem Apart.scan (ha : Apart s id lease) (hi : Inv s) (hw : Wf t)
    (hn : t.nextLease = s.nextLease)
    (hwait : ∀ k ∈ t.receiveWaiters, k ∈ s.receiveWaiters ∨ ¬ Stopped s k) :
    OwnedBy t.grantReceives id lease ↔ OwnedBy t id lease := by
  refine ownedBy_grantReceives hw ?_
  rw [hn]
  exact ha.unscanned.imp_left fun hst hm =>
    (hwait id hm).elim (hi.wf.not_waiting hst) fun hno => hno hst

theorem Apart.releaseUnclaimed (ha : Apart s id lease) (hi : Inv s) (h : s'.owned = s.owned)
    (hs : s.subscriptions.lookup j = some sub) :
    OwnedBy (s'.releaseUnclaimed sub.unclaimed) id lease ↔ OwnedBy s id lease := by
  rw [ownedBy_releaseUnclaimed, ownedBy_congr h]
  refine ⟨And.left, fun ho => ⟨ho, fun hu => ?_⟩⟩
  obtain rfl := ho.unique (hi.unclaimed_ownedBy hs hu)
  exact ha.claimed sub hs hu

@[simp] theorem releaseUnclaimed_receiveWaiters (unclaimed : Option Nat) :
    (s.releaseUnclaimed unclaimed).receiveWaiters = s.receiveWaiters := by
  cases unclaimed with
  | none => rfl
  | some lease => exact release_receiveWaiters lease

@[simp] theorem releaseUnclaimed_nextLease (unclaimed : Option Nat) :
    (s.releaseUnclaimed unclaimed).nextLease = s.nextLease := by
  cases unclaimed with
  | none => rfl
  | some lease => exact release_nextLease lease

/-- `complete` ends a lease, ... -/
theorem Apart.complete (ha : Apart s id lease) (hi : Inv s) (l : Nat) :
    OwnedBy (step s (.complete l)) id lease ↔ OwnedBy s id lease ∧ lease ≠ l := by
  show OwnedBy (s.release l).grantReceives.notifyReady id lease ↔ _
  rw [ownedBy_notifyReady, ha.scan hi (hi.release l).wf (release_nextLease l) fun k hk => ?_,
    ownedBy_release]
  exact .inl (release_receiveWaiters l ▸ hk)

/-- ... and nothing else does. -/
theorem Took.ownedBy (ht : Took s op s') (hi : Inv s) (ha : Apart s id lease)
    (hop : op ≠ .complete lease) : OwnedBy s' id lease ↔ OwnedBy s id lease := by
  cases ht with
  | skip => exact Iff.rfl
  | notify => exact ownedBy_notifyReady
  | register => exact ownedBy_congr rfl
  | setDispatchActive =>
    rw [ownedBy_notifyReady, ownedBy_refreshReady]
    exact ownedBy_congr rfl
  | @requestReceive j sub hs hstop hwait hres =>
    rw [ha.scan hi (hi.demanded hs hstop hwait hres).wf rfl fun k hk => ?_]
    · exact ownedBy_congr rfl
    · refine (List.mem_append.1 hk).imp_right fun hk hst => ?_
      rw [List.mem_singleton.1 hk] at hst
      rw [hst sub hs] at hstop
      cases hstop
  | @cancelReceive j sub hs =>
    rw [ownedBy_notifyReady, ha.scan hi ((hi.withdrawn hs).releaseUnclaimed sub.unclaimed).wf
      (by simp [withdrawn]) fun k hk => ?_]
    · exact ha.releaseUnclaimed hi rfl hs
    · rw [releaseUnclaimed_receiveWaiters] at hk
      exact .inl (List.mem_filter.1 hk).1
  | takeReceiveReservation => exact ownedBy_congr rfl
  | enqueue _ hl =>
    rw [ownedBy_notifyReady, ownedBy_refreshReady]
    exact ownedBy_insert rfl hl rfl
  | grant _ hg =>
    rw [ownedBy_notifyReady, granted, ownedBy_refreshReady]
    exact ownedBy_insert rfl hg.owns.1 rfl
  | leaveRunning _ hl =>
    rw [ownedBy_notifyReady]
    exact ownedBy_insert rfl hl rfl
  | finishAttemptWaiting hl => exact ownedBy_insert rfl hl rfl
  | wakeRetry hl =>
    rw [ownedBy_notifyReady, ownedBy_refreshReady]
    exact ownedBy_insert rfl hl rfl
  | complete l =>
    refine (ha.complete hi l).trans ⟨And.left, fun ho => ⟨ho, fun hl => hop (hl ▸ rfl)⟩⟩
  | @stopSubscription j sub hs s₁ h₁ =>
    have hi₁ : Inv s₁ := h₁ ▸ hi.fenced hs
    rw [ownedBy_notifyReady, ha.scan hi (hi₁.setNotifications (insert j s₁.notifications)).wf
      (by simp [h₁, fenced]) fun k hk => ?_]
    · show OwnedBy s₁ id lease ↔ _
      rw [h₁, ownedBy_refreshReady]
      exact ha.releaseUnclaimed hi rfl hs
    · have hk : k ∈ s₁.receiveWaiters := hk
      rw [h₁, refreshReady_receiveWaiters, releaseUnclaimed_receiveWaiters] at hk
      exact .inl (List.mem_filter.1 hk).1
  | unregister =>
    rw [ownedBy_notifyReady]
    exact ownedBy_congr rfl
  | takeNotifications => exact ownedBy_congr rfl
  | recordOwnedStart createdAt hl => exact ownedBy_insert rfl hl rfl

/-! ## The stop -/

/-- The state a stop leaves to the scan. -/
def halted (s : DeliverySchedulerState) (id : Id) (sub : SubscriptionScheduleState) :
    DeliverySchedulerState :=
  let s₁ := ((fenced s id sub).releaseUnclaimed sub.unclaimed).refreshReady id
  { s₁ with notifications := insert id s₁.notifications }

theorem step_stop_none (hs : s.subscriptions.lookup id = none) :
    step s (.stopSubscription id) = s := by
  simp only [step, call, stopSubscription, hs]

theorem step_stop_some (hs : s.subscriptions.lookup id = some sub) :
    step s (.stopSubscription id) = (halted s id sub).grantReceives.notifyReady := by
  simp only [step, call, stopSubscription, hs]
  rfl

section
variable (hi : Inv s) (hs : s.subscriptions.lookup id = some sub)
include hi hs

theorem Inv.halted : Inv (halted s id sub) :=
  (hi.fenced hs).setNotifications _

theorem fenced_halted : Fenced (halted s id sub) id := by
  intro sub' hs'
  have hs' :
      (((fenced s id sub).releaseUnclaimed sub.unclaimed).refreshReady id).subscriptions.lookup id =
      some sub' := hs'
  rw [refreshReady_subscriptions] at hs'
  have hf : (fenced s id sub).subscriptions.lookup id = some
      { sub with stopped := true, dispatchActive := false, receiveWaiting := false } :=
    Finmap.lookup_insert _
  cases hu : sub.unclaimed with
  | none =>
    rw [hu] at hs'
    cases hf.symm.trans hs'
    exact ⟨rfl, hu⟩
  | some lease =>
    obtain ⟨r, hl, hid, -⟩ := (hi.wf.sub id sub hs).inv.reserved_owns (unclaimed_some hu).2
    have hl : (fenced s id sub).owned.lookup lease = some r := hl
    subst hid
    rw [hu, DeliverySchedulerState.releaseUnclaimed, DeliverySchedulerState.release, hl] at hs'
    simp only [hf, refreshReady_subscriptions, Finmap.lookup_insert, Option.some.injEq] at hs'
    subst hs'
    -- the reservation is the one that was released
    refine ⟨(releaseSub_flags _ r lease).2.2.1, ?_⟩
    unfold SubscriptionScheduleState.unclaimed
    rw [releaseSub_receiveReservation, if_pos (unclaimed_some hu).2, ite_self]

end

/-- A stop is a fence. -/
theorem fenced_stop (hi : Inv s) (id : Id) : Fenced (step s (.stopSubscription id)) id := by
  cases hs : s.subscriptions.lookup id with
  | none =>
    intro sub hsub
    rw [step_stop_none hs, hs] at hsub
    cases hsub
  | some sub =>
    have hP := carries_subsKeep (halted s id sub) s (.stopSubscription id)
    rw [step_stop_some hs]
    exact (fenced_halted hi hs).keep
      (hP.notifyReady (hP.grantReceives (.of_eq rfl) (hi.halted hs).wf))

theorem call_register (s : DeliverySchedulerState) (j : Id) :
    call s (.register j) = (.bool false, s) ∨
      call s (.register j) =
        (.bool true, { s with subscriptions := s.subscriptions.insert j {} }) := by
  dsimp only [call, DeliverySchedulerState.register]
  split
  · exact .inl rfl
  · exact .inr rfl

/-- No operation breaks the fence, unless it registers `id` anew. -/
theorem fenced_step (hi : Inv s) (hf : Fenced s id)
    (hop : op = .register id → (call s op).1 = .bool false) : Fenced (step s op) id := by
  by_cases hreg : ∃ j, op = .register j
  · obtain ⟨j, rfl⟩ := hreg
    rcases call_register s j with hc | hc <;> rw [step, hc]
    · exact hf
    · have hj : j ≠ id := by
        rintro rfl
        rw [hc] at hop
        cases hop rfl
      intro sub hsub
      rw [Finmap.lookup_insert_of_ne _ hj.symm] at hsub
      exact hf sub hsub
  · exact hf.keep ((hi.took op).subsKeep hi fun j hj => absurd ⟨j, hj⟩ hreg)

end

end EventBus.Scheduler
