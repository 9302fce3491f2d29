import EventBus.Scheduler.Receive
import Mathlib.Data.List.Induction

/-!
# Wakeups

`notifications` collects the subscriptions whose runners have something to do. An operation either
leaves the selection of `selectedReady` as it is or ends by notifying the selected subscription
(`Took.selection`), so a subscription that becomes selected is notified. Notifications leave the
set only when they are drained, or with their subscription. Over a whole run: a selected
subscription is notified, or was drained while it was selected and has been selected ever since.
-/

namespace EventBus.Scheduler

open Lib OwnedDeliveryPhase DeliverySchedulerState

/-- `selectedReady` names `id`. -/
def Selects (s : DeliverySchedulerState) (id : Id) : Prop := ∃ i, s.selectedReady = some (id, i)

/-! ## What the selection depends on -/

section
variable {op : Op} {id : Id} {s s' : DeliverySchedulerState}

theorem selectedReady_congr (hr : s'.ready = s.ready)
    (hh : s'.handlerAvailable = s.handlerAvailable)
    (he : ∀ id ∈ s.ready, ∀ h, s'.eligibleLane id h = s.eligibleLane id h) :
    s'.selectedReady = s.selectedReady := by
  unfold selectedReady
  rw [hr, hh]
  refine findSome?_congr fun id hid => ?_
  rw [he id hid]

/-- Nothing that makes a lane eligible changes. -/
theorem Wf.selectedReady_frame (hw : Wf s) (hr : s'.ready = s.ready)
    (hh : s'.handlerAvailable = s.handlerAvailable)
    (hs : ∀ id, (s'.subscriptions.lookup id).map dispatchView =
      (s.subscriptions.lookup id).map dispatchView)
    (ho : ∀ lease r, s.owned.lookup lease = some r → r.phase.isQueued →
      s'.owned.lookup lease = some r) :
    s'.selectedReady = s.selectedReady :=
  selectedReady_congr hr hh fun id _ h =>
    hw.eligibleLane_congr h (hs id) fun lease r hl _ hq => ho lease r hl hq

@[simp] theorem notifyReady_selectedReady : s.notifyReady.selectedReady = s.selectedReady := by
  unfold notifyReady
  split <;> rfl

theorem selects_notified (h : Selects s.notifyReady id) : id ∈ s.notifyReady.notifications := by
  obtain ⟨i, hi⟩ := h
  rw [notifyReady_selectedReady] at hi
  unfold notifyReady
  rw [hi]
  exact Finset.mem_insert_self _ _

theorem grantReceives_selectedReady (hw : Wf s) :
    s.grantReceives.selectedReady = s.selectedReady := by
  refine grantLoop_rule (P := fun _ t => t.selectedReady = s.selectedReady)
    (fun _ _ _ h _ => h) ?_ ?_ ?_ hw rfl
  · intro n t id waiters sub _ h _ _
    exact h
  · intro n t id waiters sub _ h _ _ _
    exact h
  · intro n t id waiters sub lease hw h hf _ hn
    rw [← h]
    exact hw.selectedReady_frame rfl rfl (view_insert hf.lookup rfl)
      fun l r hl _ => grantFirst_keeps hw hn hl

/-- An operation keeps the selection or notifies the selected subscription. -/
theorem Took.selection (ht : Took s op s') (hi : Inv s) :
    s'.selectedReady = s.selectedReady ∨ ∀ id, Selects s' id → id ∈ s'.notifications := by
  cases ht with
  | skip => exact .inl rfl
  | register hs hlt =>
    refine .inl (selectedReady_congr rfl rfl fun j hj h => ?_)
    refine hi.wf.eligibleLane_congr h (congrArg _ ?_) fun _ _ hl _ _ => hl
    refine (Map.lookup_insert_eq _ _ _ _).trans (if_neg fun he => ?_)
    exact (hi.unknown hs).2.2 (he ▸ hj)
  | requestReceive hs hstop hwait hres =>
    rw [grantReceives_selectedReady (hi.demanded hs hstop hwait hres).wf]
    exact .inl (hi.wf.selectedReady_frame rfl rfl (view_insert hs rfl) fun _ _ hl _ => hl)
  | takeReceiveReservation hs =>
    exact .inl (hi.wf.selectedReady_frame rfl rfl (view_insert hs rfl) fun _ _ hl _ => hl)
  | finishAttemptWaiting hl hp =>
    exact .inl (hi.wf.selectedReady_frame rfl rfl (fun _ => rfl)
      (queued_insert hl (by rw [hp]; decide)))
  | takeNotifications => exact .inl rfl
  | recordOwnedStart createdAt hl hp =>
    exact .inl (hi.wf.selectedReady_frame rfl rfl (fun _ => rfl)
      (queued_insert hl (by rw [hp]; decide)))
  | notify => exact .inr fun _ => selects_notified
  | setDispatchActive => exact .inr fun _ => selects_notified
  | cancelReceive => exact .inr fun _ => selects_notified
  | enqueue => exact .inr fun _ => selects_notified
  | grant => exact .inr fun _ => selects_notified
  | leaveRunning => exact .inr fun _ => selects_notified
  | wakeRetry => exact .inr fun _ => selects_notified
  | complete => exact .inr fun _ => selects_notified
  | stopSubscription => exact .inr fun _ => selects_notified
  | unregister => exact .inr fun _ => selects_notified

/-! ## How notifications leave -/

theorem release_notifications (lease : Nat) :
    s.notifications ⊆ (s.release lease).notifications := by
  unfold DeliverySchedulerState.release
  split
  · exact Finset.Subset.refl _
  · dsimp only
    split
    · exact Finset.Subset.refl _
    · rw [refreshReady_notifications]
      exact Finset.subset_insert _ _

theorem releaseUnclaimed_notifications (unclaimed : Option Nat) :
    s.notifications ⊆ (s.releaseUnclaimed unclaimed).notifications := by
  cases unclaimed with
  | none => exact Finset.Subset.refl _
  | some lease => exact release_notifications lease

/-- A notification stays, unless it is drained or its subscription is unregistered. -/
theorem Took.notifications (ht : Took s op s') (hi : Inv s) (hid : id ∈ s.notifications) :
    id ∈ s'.notifications ∨ op = .takeNotifications ∨
      (op = .unregister id ∧ s'.subscriptions.lookup id = none) := by
  cases ht with
  | skip => exact .inl hid
  | notify => exact .inl (notifyReady_notifications _ hid)
  | register => exact .inl hid
  | setDispatchActive =>
    refine .inl (notifyReady_notifications _ ?_)
    rw [refreshReady_notifications]
    exact hid
  | requestReceive hs hstop hwait hres =>
    exact .inl ((scan_grantReceives (hi.demanded hs hstop hwait hres).wf).notifications hid)
  | cancelReceive hs =>
    exact .inl (notifyReady_notifications _
      ((scan_grantReceives ((hi.withdrawn hs).releaseUnclaimed _).wf).notifications
        (releaseUnclaimed_notifications _ hid)))
  | takeReceiveReservation => exact .inl hid
  | enqueue =>
    refine .inl (notifyReady_notifications _ ?_)
    rw [refreshReady_notifications]
    exact hid
  | grant =>
    refine .inl (notifyReady_notifications _ ?_)
    rw [granted, refreshReady_notifications]
    exact hid
  | leaveRunning => exact .inl (notifyReady_notifications _ hid)
  | finishAttemptWaiting => exact .inl hid
  | wakeRetry =>
    refine .inl (notifyReady_notifications _ ?_)
    rw [refreshReady_notifications]
    exact hid
  | complete lease =>
    exact .inl
      (notifyReady_notifications _ ((scan_grantReceives (hi.release lease).wf).notifications
        (release_notifications lease hid)))
  | stopSubscription hs h₁ =>
    have hw : Inv _ := h₁ ▸ hi.fenced hs
    refine .inl (notifyReady_notifications _ ((scan_grantReceives
      (hw.setNotifications _).wf).notifications ?_))
    refine Finset.mem_insert_of_mem ?_
    rw [h₁, refreshReady_notifications]
    exact releaseUnclaimed_notifications _ hid
  | unregister hs hz =>
    rename_i j sub
    by_cases hj : id = j
    · refine .inr (.inr ⟨by rw [hj], ?_⟩)
      rw [notifyReady_subscriptions, hj]
      exact (Map.lookup_erase_eq _ _ _).trans (if_pos rfl)
    · exact .inl (notifyReady_notifications _ (Finset.mem_erase.2 ⟨hj, hid⟩))
  | takeNotifications => exact .inr (.inl rfl)
  | recordOwnedStart => exact .inl hid

/-! ## Granted reservations and exhausted leases -/

/-- The owner of a new reservation is notified. -/
theorem Took.granted_notified (ht : Took s op s') (hi : Inv s) {lease : Nat}
    (hn : NewLease s s' id lease) : id ∈ s'.notifications := by
  rcases ht.receive hi with h | ⟨-, s₀, hi₀, hp, rfl | rfl⟩
  · exact absurd hn (h.not_newLease id lease)
  · have hs := scan_grantReceives hi₀.wf
    exact (hs.new id lease ((hp.newLease hi.wf hs).1 hn)).2.1
  · have hs := scan_grantReceives hi₀.wf
    rw [NewLease, notifyReady_owned] at hn
    exact notifyReady_notifications _ (hs.new id lease ((hp.newLease hi.wf hs).1 hn)).2.1

/-- The operation looks at the waiting receivers. -/
def Op.scans (s : DeliverySchedulerState) : Op → Prop
  | .requestReceive id => ∃ sub, s.subscriptions.lookup id = some sub ∧ sub.stopped = false ∧
      sub.receiveWaiting = false ∧ sub.receiveReservation = none
  | .cancelReceive id => (s.subscriptions.lookup id).isSome
  | .complete _ => True
  | .stopSubscription id => (s.subscriptions.lookup id).isSome
  | _ => False

theorem ScanDone.notifyReady (h : ScanDone s) : ScanDone s.notifyReady := by
  intro id hg hroom
  simp only [Grantable, notifyReady_receiveWaiters, notifyReady_subscriptions,
    notifyReady_config, notifyReady_owned, notifyReady_nextLease] at hg hroom ⊢
  obtain ⟨hn, hall⟩ := h id hg hroom
  exact ⟨hn, fun j hj => notifyReady_notifications _ (hall j hj)⟩

/-- An operation that looks at the receivers does a whole scan. -/
theorem scanDone_step (hi : Inv s) (hs : op.scans s) : ScanDone (step s op) := by
  cases op with
  | requestReceive id =>
    obtain ⟨sub, hsub, hstop, hwait, hres⟩ := hs
    have hg : (sub.stopped || sub.receiveWaiting || sub.receiveReservation.isSome) = false := by
      simp [hstop, hwait, hres]
    show ScanDone (s.requestReceive id)
    simp only [requestReceive, hsub, hg, Bool.false_eq_true, if_false]
    exact scanDone_grantReceives (hi.demanded hsub hstop hwait hres).wf
  | cancelReceive id =>
    obtain ⟨sub, hsub⟩ := Option.isSome_iff_exists.1 hs
    show ScanDone (s.cancelReceive id)
    simp only [cancelReceive, hsub]
    exact (scanDone_grantReceives ((hi.withdrawn hsub).releaseUnclaimed _).wf).notifyReady
  | complete lease => exact (scanDone_grantReceives (hi.release lease).wf).notifyReady
  | stopSubscription id =>
    obtain ⟨sub, hsub⟩ := Option.isSome_iff_exists.1 hs
    show ScanDone (s.stopSubscription id)
    simp only [stopSubscription, hsub]
    exact (scanDone_grantReceives ((hi.fenced hsub).setNotifications _).wf).notifyReady
  | _ => cases hs

/-! ## Whole runs -/

/-- A selected subscription is notified, or it was selected before the operation too and loses its
notification only by being drained. -/
theorem Took.selects (ht : Took s op s') (hi : Inv s) (hs : Selects s' id) :
    id ∈ s'.notifications ∨
      (Selects s id ∧ (id ∈ s.notifications → op = .takeNotifications)) := by
  rcases ht.selection hi with he | hn
  · by_cases hid : id ∈ s'.notifications
    · exact .inl hid
    · have hsel : Selects s id := by
        obtain ⟨i, h⟩ := hs
        exact ⟨i, he ▸ h⟩
      refine .inr ⟨hsel, fun hm => ?_⟩
      rcases ht.notifications hi hm with h | h | ⟨-, h⟩
      · exact absurd h hid
      · exact h
      · -- an unregistered subscription is not selected
        obtain ⟨i, hi'⟩ := hs
        have he := (selectedReady_some hi').2
        rw [eligibleLane, h] at he
        cases he
  · exact .inl (hn id hs)

end

/-- A notification of `id` was drained when `id` was selected, and `id` has been selected since. -/
def DrainedSelected (config : DeliverySchedulingConfig) (ops : List Op) (id : Id) : Prop :=
  ∃ pre post, ops = pre ++ .takeNotifications :: post ∧
    id ∈ (exec step (.new config) pre).notifications ∧
    Selects (exec step (.new config) pre) id ∧
    ∀ mid, mid <+: post → Selects (exec step (.new config) (pre ++ .takeNotifications :: mid)) id

theorem selected_notified_or_drained (config : DeliverySchedulingConfig) (ops : List Op) (id : Id)
    (h : Selects (exec step (.new config) ops) id) :
    id ∈ (exec step (.new config) ops).notifications ∨ DrainedSelected config ops id := by
  induction ops using List.reverseRecOn with
  | nil =>
    obtain ⟨i, h⟩ := h
    cases h
  | append_singleton ops op ih =>
    have hi := exec_inv (inv_new config) ops
    have hsel := h
    rw [exec_append] at h ⊢
    rcases (hi.took op).selects hi h with hn | ⟨hs, hm⟩
    · exact .inl hn
    · refine .inr ?_
      rcases ih hs with hn | ⟨pre, post, rfl, hn, hp, hall⟩
      · obtain rfl := hm hn
        refine ⟨ops, [], rfl, hn, hs, fun mid hmid => ?_⟩
        rw [List.prefix_nil.1 hmid]
        exact hsel
      · refine ⟨pre, post ++ [op], by simp, hn, hp, fun mid hmid => ?_⟩
        rcases List.prefix_concat_iff.1 hmid with rfl | hmid
        · simpa using hsel
        · exact hall mid hmid

/-- **No lost wakeup.** After any operations `ops` and one more, `op`: a newly selected
subscription is notified; so is the owner of every new reservation; an operation that looks at
the receivers and finds one below its limit, with credit left but no lease, notifies all of
them; and a notification leaves only by a drain or with its subscription. Hence a selected
subscription is notified, or was drained after it last became selected. -/
theorem exec_new_no_lost_wakeup (config : DeliverySchedulingConfig) (ops : List Op) (op : Op)
    (s s' : DeliverySchedulerState) (hs : s = exec step (.new config) ops) (hs' : s' = step s op) :
    (∀ id, Selects s' id → ¬ Selects s id → id ∈ s'.notifications) ∧
    (∀ id lease, NewLease s s' id lease → id ∈ s'.notifications) ∧
    (op.scans s → (∃ id, Grantable s' id) → s'.owned.size < config.maxOwnedDeliveries →
      s'.nextLease = none → ∀ id ∈ s'.receiveWaiters, id ∈ s'.notifications) ∧
    (∀ id ∈ s.notifications, id ∉ s'.notifications →
      op = .takeNotifications ∨ op = .unregister id) ∧
    (∀ id, Selects s id → id ∈ s.notifications ∨ DrainedSelected config ops id) := by
  have hi : Inv s := hs ▸ exec_inv (inv_new config) ops
  have ht : Took s op s' := hs' ▸ hi.took op
  refine ⟨fun id hsel hn => ?_, fun id lease hn => ht.granted_notified hi hn,
    fun hscan ⟨id, hg⟩ hroom _ j hj => ?_, fun id hid hn => ?_, fun id hsel => ?_⟩
  · exact (ht.selects hi hsel).resolve_right fun h => hn h.1
  · have hdone : ScanDone s' := hs' ▸ scanDone_step hi hscan
    have hc : s'.config = config := by rw [hs', step_config, hs, exec_config]; rfl
    exact (hdone id hg (hc ▸ hroom)).2 j hj
  · rcases ht.notifications hi hid with h | h | ⟨h, -⟩
    · exact absurd h hn
    · exact .inl h
    · exact .inr h
  · rw [hs] at hsel ⊢
    exact selected_notified_or_drained config ops id hsel

set_option maxRecDepth 8000 in
/-- The first delivery of a lone subscription makes it selected, and notifies it. -/
theorem exec_new_no_lost_wakeup_first :
    (⟨1⟩ : Id) ∈ (step (exec step (.new .default) [.register ⟨1⟩, .setDispatchActive ⟨1⟩ true,
      .requestReceive ⟨1⟩, .takeReceiveReservation ⟨1⟩, .takeNotifications])
        (.enqueue 1 none)).notifications :=
  (exec_new_no_lost_wakeup .default [.register ⟨1⟩, .setDispatchActive ⟨1⟩ true,
    .requestReceive ⟨1⟩, .takeReceiveReservation ⟨1⟩, .takeNotifications] (.enqueue 1 none) _ _ rfl
    rfl).1 ⟨1⟩ ⟨0, by decide⟩ fun ⟨i, hi⟩ => by
      have hn : (exec step (.new .default) [.register ⟨1⟩, .setDispatchActive ⟨1⟩ true,
        .requestReceive ⟨1⟩, .takeReceiveReservation ⟨1⟩, .takeNotifications]).selectedReady =
          none := by decide
      rw [hn] at hi
      cases hi

end EventBus.Scheduler
