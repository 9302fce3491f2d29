import EventBus.Lib.Rotation
import EventBus.Scheduler.Core
import EventBus.Scheduler.SubInv

/-!
# The invariant of the scheduler

`Inv s` has two parts. `Wf s` is about the records, the counters and the receive rotation, and
does not read `ready` or `notifications`. `Ready s` says that `ready` lists exactly the
subscriptions with a lane that could be granted. An operation changes one subscription, here `id`,
and its records; in the middle of it `ready` may be wrong about `id` only (`ReadyBut s id`), which
`refreshReady id` repairs.

There is one lemma for every kind of change (`Wf.setSub`, `Wf.update`, `Wf.release`,
`Wf.grantReceive`); the operations are composed from them.
-/

namespace EventBus.Scheduler

open Lib OwnedDeliveryPhase DeliverySchedulerState

variable {s s' : DeliverySchedulerState} {sub sub' : SubscriptionScheduleState}
  {owned : Map Nat OwnedDeliveryRecord} {r r' : OwnedDeliveryRecord} {waiters : List Id}
  {lease running : Nat} {id : Id}

/-- One subscription: its limit, its counter and its own invariant. -/
structure SubOk (config : DeliverySchedulingConfig) (owned : Map Nat OwnedDeliveryRecord) (id : Id)
    (sub : SubscriptionScheduleState) : Prop where
  ownedLe : sub.owned ≤ config.maxOwnedPerSubscription
  ownedEq : sub.owned = owned.count (·.subscriptionId = id)
  inv : SubInv (Owns owned id) sub

structure Wf (s : DeliverySchedulerState) : Prop where
  ownedLe : s.owned.size ≤ s.config.maxOwnedDeliveries
  runningLe : s.running ≤ s.config.maxRunningHandlers
  subsLe : s.subscriptions.size ≤ s.config.maxSubscriptions
  runningEq : s.running = s.owned.count (·.phase = .running)
  sub : ∀ id sub, s.subscriptions.lookup id = some sub → SubOk s.config s.owned id sub
  registered : ∀ lease record, s.owned.lookup lease = some record →
    ∃ sub, s.subscriptions.lookup record.subscriptionId = some sub
  waitersNodup : s.receiveWaiters.Nodup
  waiters : ∀ id, id ∈ s.receiveWaiters ↔
    ∃ sub, s.subscriptions.lookup id = some sub ∧ sub.receiveWaiting = true
  fresh : ∀ n, s.nextLease = some n → ∀ lease record, s.owned.lookup lease = some record → lease < n

/-- `ready` is right about every subscription but `id`. -/
structure ReadyBut (s : DeliverySchedulerState) (id : Id) : Prop where
  nodup : s.ready.Nodup
  mem : ∀ j, j ≠ id → (j ∈ s.ready ↔ (s.eligibleLane j true).isSome)

structure Ready (s : DeliverySchedulerState) : Prop where
  nodup : s.ready.Nodup
  mem : ∀ id, id ∈ s.ready ↔ (s.eligibleLane id true).isSome

theorem Ready.but (h : Ready s) (id : Id) : ReadyBut s id :=
  ⟨h.nodup, fun j _ => h.mem j⟩

/-- The invariant of the scheduler (module doc). -/
structure Inv (s : DeliverySchedulerState) : Prop where
  wf : Wf s
  ready : Ready s

theorem inv_new (config : DeliverySchedulingConfig) : Inv (.new config) where
  wf :=
    { ownedLe := Nat.zero_le _, runningLe := Nat.zero_le _, subsLe := Nat.zero_le _
      runningEq := rfl
      sub := fun id sub h => by simp [DeliverySchedulerState.new] at h
      registered := fun lease record h => by simp [DeliverySchedulerState.new] at h
      waitersNodup := List.nodup_nil
      waiters := fun id => by simp [DeliverySchedulerState.new]
      fresh := fun n _ lease record h => by simp [DeliverySchedulerState.new] at h }
  ready := ⟨List.nodup_nil, fun id => by simp [DeliverySchedulerState.new, eligibleLane]⟩

/-! ## Which lane is eligible -/

/-- What `eligibleLane` reads of a subscription. -/
def dispatchView (sub : SubscriptionScheduleState) :
    Bool × Lanes OrderingLaneKey Nat × Finset OrderingLaneKey :=
  (sub.stopped || !sub.dispatchActive, sub.lanes, sub.lockedLanes)

/-- A change `eligibleLane` does not see. -/
theorem view_insert {subs : Map Id SubscriptionScheduleState} (hs : subs.lookup id = some sub)
    (hv : dispatchView sub' = dispatchView sub) (j : Id) :
    ((subs.insert id sub').lookup j).map dispatchView = (subs.lookup j).map dispatchView := by
  rw [Map.lookup_insert_eq]
  split
  · rename_i hj
    rw [hj, hs, Option.map_some, Option.map_some, hv]
  · rfl

/-- A record outside the lanes changes. -/
theorem queued_insert (hl : owned.lookup lease = some r) (hq : ¬ r.phase.isQueued) (l : Nat)
    (r₀ : OwnedDeliveryRecord) (hl₀ : owned.lookup l = some r₀) (hq₀ : r₀.phase.isQueued) :
    (owned.insert lease r').lookup l = some r₀ := by
  rw [Map.lookup_insert_eq, if_neg]
  · exact hl₀
  · intro he
    rw [he, hl] at hl₀
    exact hq (Option.some.inj hl₀ ▸ hq₀)

theorem sub_eligibleLane_congr {owned' : Map Nat OwnedDeliveryRecord} {h : Bool}
    (hv : dispatchView sub' = dispatchView sub)
    (hr : ∀ lane lease q, (lane, lease :: q) ∈ sub.lanes →
      owned'.lookup lease = owned.lookup lease) :
    sub'.eligibleLane owned' h = sub.eligibleLane owned h := by
  simp only [dispatchView, Prod.mk.injEq] at hv
  obtain ⟨hv, hl, hk⟩ := hv
  unfold SubscriptionScheduleState.eligibleLane
  rw [hv, hl]
  split
  · rfl
  · refine findIdx?_congr fun p hp => ?_
    obtain ⟨lane, q⟩ := p
    unfold SubscriptionScheduleState.laneEligible
    rw [hk]
    cases q with
    | nil => rfl
    | cons lease q => simp only [List.head?_cons, Option.bind_some, hr lane lease q hp]

/-- The heads of the lanes are queued leases of the subscription. -/
theorem SubInv.head {R : Nat → OwnedDeliveryRecord → Prop} (h : SubInv R sub)
    {lane : Option OrderingLaneKey} {q : List Nat} (hm : (lane, lease :: q) ∈ sub.lanes) :
    Queued R lane lease :=
  (h.lanesMem lane lease).1 ⟨_, hm, List.mem_cons_self⟩

/-- A subscription keeps its eligible lane when nothing `eligibleLane` reads changes: neither its
lanes, nor its queued records. -/
theorem Wf.eligibleLane_congr (hw : Wf s) (h : Bool)
    (hv : (s'.subscriptions.lookup id).map dispatchView =
      (s.subscriptions.lookup id).map dispatchView)
    (hr : ∀ lease r, s.owned.lookup lease = some r → r.subscriptionId = id → r.phase.isQueued →
      s'.owned.lookup lease = some r) : s'.eligibleLane id h = s.eligibleLane id h := by
  unfold eligibleLane
  cases hs : s.subscriptions.lookup id with
  | none =>
    rw [hs, Option.map_none, Option.map_eq_none_iff] at hv
    rw [hv]
    rfl
  | some sub =>
    rw [hs] at hv
    obtain ⟨sub', hs', hv⟩ := Option.map_eq_some_iff.1 hv
    rw [hs']
    refine sub_eligibleLane_congr hv fun lane lease q hm => ?_
    obtain ⟨r, ⟨hl, hid⟩, -, hq⟩ := (hw.sub id sub hs).inv.head hm
    rw [hl]
    exact hr lease r hl hid hq

/-- Only `id` and its records change: `ready` stays right about the others. -/
theorem Wf.readyBut (hw : Wf s) (h : ReadyBut s id) (hnd : s'.ready.Nodup)
    (hl : ∀ j, j ≠ id → (j ∈ s'.ready ↔ j ∈ s.ready))
    (hs : ∀ j, j ≠ id → s'.subscriptions.lookup j = s.subscriptions.lookup j)
    (hr : ∀ lease r, s.owned.lookup lease = some r → r.subscriptionId ≠ id →
      s'.owned.lookup lease = some r) : ReadyBut s' id where
  nodup := hnd
  mem j hj := by
    rw [hl j hj, h.mem j hj, hw.eligibleLane_congr true (congrArg _ (hs j hj))]
    exact fun lease r hlr hid _ => hr lease r hlr (hid ▸ hj)

/-- Nothing that makes a lane eligible changes. -/
theorem Wf.ready_frame (hw : Wf s) (h : Ready s) (hl : s'.ready = s.ready)
    (hs : ∀ id, (s'.subscriptions.lookup id).map dispatchView =
      (s.subscriptions.lookup id).map dispatchView)
    (hr : ∀ lease r, s.owned.lookup lease = some r → r.phase.isQueued →
      s'.owned.lookup lease = some r) : Ready s' where
  nodup := hl ▸ h.nodup
  mem id := by
    rw [hl, h.mem id, hw.eligibleLane_congr true (hs id)]
    exact fun lease r hlr _ hq => hr lease r hlr hq

theorem refreshReady_eligibleLane (s : DeliverySchedulerState) (id j : Id) (h : Bool) :
    (s.refreshReady id).eligibleLane j h = s.eligibleLane j h := by
  unfold refreshReady
  split_ifs <;> rfl

/-- `refreshReady` repairs `ready`. -/
theorem ReadyBut.refresh (h : ReadyBut s id) : Ready (s.refreshReady id) := by
  refine ⟨?_, fun j => ?_⟩
  · unfold refreshReady
    split_ifs with he hm
    · exact h.nodup
    · exact List.nodup_append.2 ⟨h.nodup, List.nodup_singleton _, fun a ha b hb hab =>
        hm (List.mem_singleton.1 hb ▸ hab ▸ ha)⟩
    · exact h.nodup.filter _
  · rw [refreshReady_eligibleLane]
    by_cases hj : j = id
    · subst hj
      unfold refreshReady
      split_ifs with he hm
      · exact ⟨fun _ => he, fun _ => hm⟩
      · exact ⟨fun _ => he, fun _ => by simp⟩
      · exact ⟨fun hm => by simp at hm, fun he' => absurd he' he⟩
    · rw [← h.mem j hj]
      unfold refreshReady
      split_ifs with he hm
      · exact Iff.rfl
      · simp [hj]
      · simp [hj]

/-! ## Fields the two parts do not read -/

theorem Wf.frame (h : Wf s) (ready : List Id) (notifications : Finset Id) :
    Wf { s with ready, notifications } := { h with }

theorem Wf.refreshReady (h : Wf s) (id : Id) : Wf (s.refreshReady id) := by
  unfold DeliverySchedulerState.refreshReady
  split_ifs
  · exact h
  · exact h.frame _ _
  · exact h.frame _ _

theorem Inv.setNotifications (h : Inv s) (notifications : Finset Id) :
    Inv { s with notifications } := ⟨h.wf.frame _ _, { h.ready with }⟩

theorem Inv.notifyReady (h : Inv s) : Inv s.notifyReady := by
  unfold DeliverySchedulerState.notifyReady
  split
  · exact h
  · exact h.setNotifications _

/-- The end of most operations. -/
theorem Wf.refresh_inv (hw : Wf s) (h : ReadyBut s id) :
    Inv (s.refreshReady id) := ⟨hw.refreshReady id, h.refresh⟩

/-! ## Changes of one subscription -/

/-- Everything that belongs to `id` may change; the records of the others stay. -/
theorem Wf.change (h : Wf s) {next : Option Nat} (hs : s.subscriptions.lookup id = some sub)
    (hok : SubOk s.config owned id sub') (hothers : ∀ j, j ≠ id → Owns owned j = Owns s.owned j ∧
      owned.count (·.subscriptionId = j) = s.owned.count (·.subscriptionId = j))
    (hle : owned.size ≤ s.config.maxOwnedDeliveries)
    (hrun : running = owned.count (·.phase = .running))
    (hrle : running ≤ s.config.maxRunningHandlers) (hnd : waiters.Nodup) (hw : ∀ j, j ∈ waiters ↔
      (j = id ∧ sub'.receiveWaiting = true) ∨ (j ≠ id ∧ j ∈ s.receiveWaiters))
    (hf : ∀ n, next = some n → ∀ lease record, owned.lookup lease = some record → lease < n) :
    Wf { s with
      owned, running, subscriptions := s.subscriptions.insert id sub', receiveWaiters := waiters,
      nextLease := next } where
  ownedLe := hle
  runningLe := hrle
  subsLe := by
    show Map.size (s.subscriptions.insert id sub') ≤ _
    rw [Map.size_update sub' hs]
    exact h.subsLe
  runningEq := hrun
  sub j subj hj := by
    simp only [Map.lookup_insert_eq] at hj
    by_cases hji : j = id
    · subst hji
      rw [if_pos rfl] at hj
      exact Option.some.inj hj ▸ hok
    · rw [if_neg hji] at hj
      obtain ⟨ho, hc⟩ := hothers j hji
      have hok := h.sub j subj hj
      exact ⟨hok.ownedLe, hok.ownedEq.trans hc.symm, ho ▸ hok.inv⟩
  registered lease record hl := by
    simp only [Map.lookup_insert_eq]
    by_cases hji : record.subscriptionId = id
    · exact ⟨sub', if_pos hji⟩
    · rw [if_neg hji]
      have ho : Owns owned record.subscriptionId lease record := ⟨hl, rfl⟩
      rw [(hothers _ hji).1] at ho
      exact h.registered lease record ho.1
  waitersNodup := hnd
  waiters j := by
    simp only [Map.lookup_insert_eq, hw]
    by_cases hji : j = id
    · simp [hji]
    · simp [hji, h.waiters j]
  fresh := hf

theorem Wf.waiters_of_lookup (h : Wf s) (hs : s.subscriptions.lookup id = some sub) :
    id ∈ s.receiveWaiters ↔ sub.receiveWaiting = true := by
  rw [h.waiters id, hs]
  simp

/-- The rotation does not change when the demand of `id` does not. -/
theorem Wf.waiters_same (h : Wf s) (hs : s.subscriptions.lookup id = some sub)
    (hw : sub'.receiveWaiting = sub.receiveWaiting) (j : Id) :
    j ∈ s.receiveWaiters ↔
      (j = id ∧ sub'.receiveWaiting = true) ∨ (j ≠ id ∧ j ∈ s.receiveWaiters) := by
  by_cases hj : j = id
  · subst hj
    simp [hw, h.waiters_of_lookup hs]
  · simp [hj]

/-- Only the state of `id` and the rotation change. -/
theorem Wf.setSub (h : Wf s) (hs : s.subscriptions.lookup id = some sub)
    (hinv : SubInv (Owns s.owned id) sub') (ho : sub'.owned = sub.owned) (hnd : waiters.Nodup)
    (hw : ∀ j, j ∈ waiters ↔
      (j = id ∧ sub'.receiveWaiting = true) ∨ (j ≠ id ∧ j ∈ s.receiveWaiters)) :
    Wf { s with subscriptions := s.subscriptions.insert id sub', receiveWaiters := waiters } := by
  have hok := h.sub id sub hs
  exact h.change hs ⟨ho ▸ hok.ownedLe, ho.trans hok.ownedEq, hinv⟩ (fun _ _ => ⟨rfl, rfl⟩)
    h.ownedLe h.runningEq h.runningLe hnd hw h.fresh

/-- One record and the state of its subscription change. -/
theorem Wf.update (h : Wf s) (hs : s.subscriptions.lookup id = some sub)
    (hl : Owns s.owned id lease r) (hid : r'.subscriptionId = id)
    (hinv : SubInv (upd (Owns s.owned id) lease r') sub') (ho : sub'.owned = sub.owned)
    (hwait : sub'.receiveWaiting = sub.receiveWaiting)
    (hrun : running + (if r.phase = .running then 1 else 0) =
      s.running + (if r'.phase = .running then 1 else 0))
    (hrle : running ≤ s.config.maxRunningHandlers) :
    Wf { s with
      owned := s.owned.insert lease r', running,
      subscriptions := s.subscriptions.insert id sub' } := by
  have hok := h.sub id sub hs
  obtain ⟨hl, hlid⟩ := hl
  have hcount : ∀ j, Map.count (·.subscriptionId = j) (s.owned.insert lease r') =
      s.owned.count (·.subscriptionId = j) := by
    intro j
    have := Map.count_update (·.subscriptionId = j) r' hl
    rw [hlid, hid] at this
    exact Nat.add_right_cancel this
  refine h.change hs ⟨ho ▸ hok.ownedLe, ?_, ?_⟩ (fun j hj => ⟨?_, hcount j⟩) ?_ ?_ hrle
    h.waitersNodup (h.waiters_same hs hwait) ?_
  · rw [hcount id, ho]
    exact hok.ownedEq
  · rw [owns_insert hid]
    exact hinv
  · refine owns_insert_ne (by rw [hid]; exact hj.symm) fun r₀ hr₀ => ?_
    rw [hl] at hr₀
    rw [← Option.some.inj hr₀, hlid]
    exact hj.symm
  · rw [Map.size_update r' hl]
    exact h.ownedLe
  · have := Map.count_update (·.phase = .running) r' hl
    have := h.runningEq
    omega
  · intro n hn l record hlr
    rw [Map.lookup_insert_eq] at hlr
    split at hlr
    · rename_i he
      exact he ▸ h.fresh n hn lease r hl
    · exact h.fresh n hn l record hlr

/-- A record goes, with its part of the state of its subscription. -/
theorem Wf.release (h : Wf s) {record : OwnedDeliveryRecord}
    (hs : s.subscriptions.lookup id = some sub) (hl : Owns s.owned id lease record)
    (hrun : running = if record.phase = .running then s.running - 1 else s.running) :
    Wf { s with
      owned := s.owned.erase lease, running,
      subscriptions := s.subscriptions.insert id (releaseSub sub record lease) } := by
  have hok := h.sub id sub hs
  obtain ⟨howned, -, -, hwait⟩ := releaseSub_flags sub record lease
  have hinv := hok.inv.release (owns_functional _ _) hl
  obtain ⟨hl, hlid⟩ := hl
  have hcount := fun j => Map.count_erase (·.subscriptionId = j) hl
  have hrc := Map.count_erase (·.phase = .running) hl
  have heq := h.runningEq
  have hle := h.runningLe
  refine h.change hs ⟨?_, ?_, ?_⟩ (fun j hj => ⟨owns_erase_ne ?_, ?_⟩) ?_ ?_ ?_
    h.waitersNodup (h.waiters_same hs hwait) ?_
  · have := hok.ownedLe
    omega
  · have := hcount id
    rw [if_pos hlid] at this
    have := hok.ownedEq
    omega
  · rw [owns_erase]
    exact hinv
  · intro r₀ hr₀
    rw [hl] at hr₀
    rw [← Option.some.inj hr₀, hlid]
    exact hj.symm
  · have := hcount j
    rw [if_neg (by rw [hlid]; exact hj.symm)] at this
    omega
  · have := Map.size_erase hl
    have := h.ownedLe
    omega
  · split at hrun <;> split at hrc <;> first | omega | contradiction
  · split at hrun <;> omega
  · intro n hn l r hlr
    rw [Map.lookup_erase_eq] at hlr
    split at hlr
    · cases hlr
    · exact h.fresh n hn l r hlr

/-- The next lease is not in use. -/
theorem Wf.unused (h : Wf s) (hn : s.nextLease = some lease) : s.owned.lookup lease = none := by
  cases hl : s.owned.lookup lease with
  | none => rfl
  | some r => exact absurd (h.fresh lease hn lease r hl) (Nat.lt_irrefl _)

/-- A waiter below its limit gets the next lease. -/
theorem Wf.grantReceive (h : Wf s) (hw : s.receiveWaiters = id :: waiters)
    (hs : s.subscriptions.lookup id = some sub)
    (hlim : ¬ s.config.maxOwnedPerSubscription ≤ sub.owned)
    (hmax : ¬ s.config.maxOwnedDeliveries ≤ s.owned.size) (hn : s.nextLease = some lease) :
    Wf (DeliverySchedulerState.grantReceive { s with receiveWaiters := waiters } id sub lease) := by
  have hok := h.sub id sub hs
  have hnd := h.waitersNodup
  rw [hw, List.nodup_cons] at hnd
  have hnew := h.unused hn
  have hwait : sub.receiveWaiting = true := by
    rw [← h.waiters_of_lookup hs, hw]
    exact List.mem_cons_self
  have hcount := fun j => Map.count_insert_new (·.subscriptionId = j)
    { subscriptionId := id, phase := .reservedReceive, createdAt := none, lane := none } hnew
  have hrc := Map.count_insert_new (·.phase = .running)
    { subscriptionId := id, phase := .reservedReceive, createdAt := none, lane := none } hnew
  unfold DeliverySchedulerState.grantReceive
  refine Wf.frame (h.change hs ⟨?_, ?_, ?_⟩ (fun j hj => ⟨owns_insert_ne hj.symm ?_, ?_⟩) ?_ ?_
    h.runningLe hnd.2 ?_ ?_) _ _
  · show sub.owned + 1 ≤ _
    omega
  · show sub.owned + 1 = _
    have := hcount id
    simp only [if_true] at this
    have := hok.ownedEq
    omega
  · rw [owns_insert rfl]
    exact hok.inv.grant (fun l r hr => h.fresh lease hn l r hr.1) (hok.inv.waiting hwait) rfl
  · intro r hr
    rw [hnew] at hr
    cases hr
  · have := hcount j
    rw [if_neg hj.symm] at this
    omega
  · rw [Map.size_insert_new _ hnew]
    omega
  · simp only [reduceCtorEq, if_false, Nat.zero_add] at hrc
    rw [hrc]
    exact h.runningEq
  · intro j
    by_cases hj : j = id
    · simp [hj, hnd.1]
    · simp [hj, hw]
  · intro n hn' l r hlr
    obtain ⟨rfl, -⟩ := checkedSucc_some hn'
    rw [Map.lookup_insert_eq] at hlr
    split at hlr
    · omega
    · have := h.fresh lease hn l r hlr
      omega

/-! ## The scan of the receive rotation -/

/-- The first waiter of the rotation, with its state. -/
structure FirstWaiter (s : DeliverySchedulerState) (id : Id) (waiters : List Id)
    (sub : SubscriptionScheduleState) : Prop where
  waiters : s.receiveWaiters = id :: waiters
  lookup : s.subscriptions.lookup id = some sub
  waiting : sub.receiveWaiting = true
  room : ¬ s.config.maxOwnedDeliveries ≤ s.owned.size

/-- The first waiter goes to the back. -/
def rotate (s : DeliverySchedulerState) (id : Id) (waiters : List Id) : DeliverySchedulerState :=
  { s with receiveWaiters := waiters ++ [id] }

/-- All waiters are told that no lease is left. -/
def tellWaiters (s : DeliverySchedulerState) : DeliverySchedulerState :=
  { s with notifications := s.notifications ∪ s.receiveWaiters.toFinset }

/-- The first waiter gets `lease`. -/
def grantFirst (s : DeliverySchedulerState) (id : Id) (waiters : List Id)
    (sub : SubscriptionScheduleState) (lease : Nat) : DeliverySchedulerState :=
  DeliverySchedulerState.grantReceive { s with receiveWaiters := waiters } id sub lease

theorem Wf.rotate (h : Wf s) (hw : s.receiveWaiters = id :: waiters) :
    Wf (rotate s id waiters) := by
  have hperm : (waiters ++ [id]).Perm s.receiveWaiters := by
    rw [hw]
    exact List.perm_append_singleton id waiters
  exact { h with
    waitersNodup := hperm.nodup_iff.2 h.waitersNodup
    waiters := fun j => hperm.mem_iff.trans (h.waiters j) }

/-- A waiter is registered and has a demand, so the scan never drops one. -/
theorem Wf.firstWaiter (hw : Wf s) (hroom : ¬ s.config.maxOwnedDeliveries ≤ s.owned.size)
    (hws : s.receiveWaiters = id :: waiters) : ∃ sub, FirstWaiter s id waiters sub := by
  obtain ⟨sub, hs, hwait⟩ := (hw.waiters id).1 (hws ▸ List.mem_cons_self)
  exact ⟨sub, hws, hs, hwait, hroom⟩

theorem FirstWaiter.not_stopped (hw : Wf s) (hf : FirstWaiter s id waiters sub) :
    sub.stopped = false := by
  cases hst : sub.stopped with
  | false => rfl
  | true =>
    have := ((hw.sub id sub hf.lookup).inv.stopped hst).2
    rw [hf.waiting] at this
    cases this

/-! One look at the first waiter, by what it finds. -/

theorem grantLoop_done {n : Nat}
    (h : s.config.maxOwnedDeliveries ≤ s.owned.size ∨ s.receiveWaiters = []) :
    grantLoop n s = s := by
  cases n with
  | zero => rfl
  | succ n =>
    unfold grantLoop
    split_ifs with hmax
    · rfl
    · rw [h.resolve_left hmax]

theorem FirstWaiter.grantLoop_rotate (hw : Wf s) (hf : FirstWaiter s id waiters sub)
    (hlim : s.config.maxOwnedPerSubscription ≤ sub.owned) (n : Nat) :
    grantLoop (n + 1) s = grantLoop n (rotate s id waiters) := by
  simp only [grantLoop, hf.room, hf.waiters, hf.lookup, hf.waiting, hf.not_stopped hw, hlim,
    Bool.not_true, Bool.or_self, Bool.false_eq_true, if_false, if_true, rotate]

theorem FirstWaiter.grantLoop_tell (hw : Wf s) (hf : FirstWaiter s id waiters sub)
    (hlim : sub.owned < s.config.maxOwnedPerSubscription) (hn : s.nextLease = none) (n : Nat) :
    grantLoop (n + 1) s = tellWaiters s := by
  simp only [grantLoop, hf.room, hf.waiters, hf.lookup, hf.waiting, hf.not_stopped hw,
    Nat.not_le.2 hlim, hn, Bool.not_true, Bool.or_self, Bool.false_eq_true, if_false, tellWaiters]

theorem FirstWaiter.grantLoop_grant (hw : Wf s) (hf : FirstWaiter s id waiters sub)
    (hlim : sub.owned < s.config.maxOwnedPerSubscription) (hn : s.nextLease = some lease)
    (n : Nat) : grantLoop (n + 1) s = grantLoop n (grantFirst s id waiters sub lease) := by
  simp only [grantLoop, hf.room, hf.waiters, hf.lookup, hf.waiting, hf.not_stopped hw,
    Nat.not_le.2 hlim, hn, Bool.not_true, Bool.or_self, Bool.false_eq_true, if_false, grantFirst]

/-- Reasoning about the scan: `P n` holds with `n` candidates left, `Q` at its end. -/
theorem grantLoop_rule {P : Nat → DeliverySchedulerState → Prop} {Q : DeliverySchedulerState → Prop}
    (hdone : ∀ n s, Wf s → P n s →
      n = 0 ∨ s.config.maxOwnedDeliveries ≤ s.owned.size ∨ s.receiveWaiters = [] → Q s)
    (hrot : ∀ n s id waiters sub, Wf s → P (n + 1) s → FirstWaiter s id waiters sub →
      s.config.maxOwnedPerSubscription ≤ sub.owned → P n (rotate s id waiters))
    (htell : ∀ n s id waiters sub, Wf s → P (n + 1) s → FirstWaiter s id waiters sub →
      sub.owned < s.config.maxOwnedPerSubscription → s.nextLease = none → Q (tellWaiters s))
    (hgrant : ∀ n s id waiters sub lease, Wf s → P (n + 1) s → FirstWaiter s id waiters sub →
      sub.owned < s.config.maxOwnedPerSubscription → s.nextLease = some lease →
      P n (grantFirst s id waiters sub lease)) {n : Nat} (hw : Wf s) (h : P n s) :
    Q (grantLoop n s) := by
  induction n generalizing s with
  | zero => exact hdone 0 s hw h (.inl rfl)
  | succ n ih =>
    by_cases hend : s.config.maxOwnedDeliveries ≤ s.owned.size ∨ s.receiveWaiters = []
    · rw [grantLoop_done hend]
      exact hdone _ s hw h (.inr hend)
    · rw [not_or] at hend
      obtain ⟨id, waiters, hws⟩ := List.exists_cons_of_ne_nil hend.2
      obtain ⟨sub, hf⟩ := hw.firstWaiter hend.1 hws
      rcases Nat.lt_or_ge sub.owned s.config.maxOwnedPerSubscription with hlim | hlim
      · cases hnext : s.nextLease with
        | none =>
          rw [hf.grantLoop_tell hw hlim hnext]
          exact htell n s id waiters sub hw h hf hlim hnext
        | some lease =>
          rw [hf.grantLoop_grant hw hlim hnext]
          exact ih (hw.grantReceive hws hf.lookup (Nat.not_le.2 hlim) hend.1 hnext)
            (hgrant n s id waiters sub lease hw h hf hlim hnext)
      · rw [hf.grantLoop_rotate hw hlim]
        exact ih (hw.rotate hws) (hrot n s id waiters sub hw h hf hlim)

theorem grantFirst_keeps (hw : Wf s) (hn : s.nextLease = some lease) {l : Nat}
    {r : OwnedDeliveryRecord} (hl : s.owned.lookup l = some r) :
    (grantFirst s id waiters sub lease).owned.lookup l = some r := by
  show (s.owned.insert lease _).lookup l = _
  rw [Map.lookup_insert_eq, if_neg (Nat.ne_of_lt (hw.fresh lease hn l r hl))]
  exact hl

/-- A grant changes nothing `eligibleLane` reads. -/
theorem Ready.grantFirst (hw : Wf s) (h : Ready s) (hs : s.subscriptions.lookup id = some sub)
    (hn : s.nextLease = some lease) : Ready (grantFirst s id waiters sub lease) :=
  hw.ready_frame h rfl (view_insert hs rfl) fun _ _ hl _ => grantFirst_keeps hw hn hl

theorem Inv.grantReceives (h : Inv s) : Inv s.grantReceives := by
  refine grantLoop_rule (P := fun _ s => Inv s) (fun _ _ _ h _ => h) ?_ ?_ ?_ h.wf h
  · intro n s id waiters sub hw h hf _
    exact ⟨hw.rotate hf.waiters, { h.ready with }⟩
  · intro n s id waiters sub _ h _ _ _
    exact h.setNotifications _
  · intro n s id waiters sub lease hw h hf hlim hn
    exact ⟨hw.grantReceive hf.waiters hf.lookup (Nat.not_le.2 hlim) hf.room hn,
      h.ready.grantFirst hw hf.lookup hn⟩

/-! ## The operations keep the invariant -/

/-- A release ends with a repaired `ready`. -/
theorem Wf.released (hw : Wf s) {record : OwnedDeliveryRecord}
    (hl : s.owned.lookup lease = some record) (hr : ReadyBut s record.subscriptionId) :
    Inv (s.release lease) := by
  obtain ⟨sub, hs⟩ := hw.registered lease record hl
  unfold DeliverySchedulerState.release
  simp only [hl, hs]
  have hw' := hw.release hs ⟨hl, rfl⟩ rfl
  refine Wf.refresh_inv (hw'.frame _ _) (hw.readyBut hr hr.nodup (fun _ _ => Iff.rfl)
    (fun j hj => ?_) fun l r hlr hid => ?_)
  · exact (Map.lookup_insert_eq _ _ _ _).trans (if_neg hj)
  · refine (Map.lookup_erase_eq _ _ _).trans ((if_neg fun he => hid ?_).trans hlr)
    rw [he, hl] at hlr
    rw [Option.some.inj hlr]

theorem Inv.release (h : Inv s) (lease : Nat) : Inv (s.release lease) := by
  cases hl : s.owned.lookup lease with
  | none =>
    unfold DeliverySchedulerState.release
    rw [hl]
    exact h
  | some record => exact h.wf.released hl (h.ready.but _)

theorem Inv.releaseUnclaimed (h : Inv s) (unclaimed : Option Nat) :
    Inv (s.releaseUnclaimed unclaimed) := by
  cases unclaimed with
  | none => exact h
  | some lease => exact h.release lease

/-- The state of `id` changes in what `eligibleLane` does not read. -/
theorem Inv.setSub (h : Inv s) (hs : s.subscriptions.lookup id = some sub)
    (hinv : SubInv (Owns s.owned id) sub') (ho : sub'.owned = sub.owned)
    (hv : dispatchView sub' = dispatchView sub) (hnd : waiters.Nodup) (hw : ∀ j, j ∈ waiters ↔
      (j = id ∧ sub'.receiveWaiting = true) ∨ (j ≠ id ∧ j ∈ s.receiveWaiters)) :
    Inv { s with subscriptions := s.subscriptions.insert id sub', receiveWaiters := waiters } := by
  exact ⟨h.wf.setSub hs hinv ho hnd hw, h.wf.ready_frame h.ready rfl (view_insert hs hv)
    fun _ _ hl _ => hl⟩

/-- The state of `id` changes in any way; `ready` is repaired afterwards. -/
theorem Inv.setSub_refresh (h : Inv s) (hs : s.subscriptions.lookup id = some sub)
    (hinv : SubInv (Owns s.owned id) sub') (ho : sub'.owned = sub.owned) (hnd : waiters.Nodup)
    (hw : ∀ j, j ∈ waiters ↔
      (j = id ∧ sub'.receiveWaiting = true) ∨ (j ≠ id ∧ j ∈ s.receiveWaiters)) :
    Inv (refreshReady { s with
      subscriptions := s.subscriptions.insert id sub', receiveWaiters := waiters } id) :=
  (h.wf.setSub hs hinv ho hnd hw).refresh_inv (h.wf.readyBut (h.ready.but id) h.ready.nodup
    (fun _ _ => Iff.rfl) (fun _ hj => (Map.lookup_insert_eq _ _ _ _).trans (if_neg hj))
    fun _ _ hl _ => hl)

/-- One record of `id` and its state change; `ready` is repaired afterwards. -/
theorem Inv.update_refresh (h : Inv s) {ready : List Id} (hs : s.subscriptions.lookup id = some sub)
    (hl : Owns s.owned id lease r) (hid : r'.subscriptionId = id)
    (hinv : SubInv (upd (Owns s.owned id) lease r') sub') (ho : sub'.owned = sub.owned)
    (hwait : sub'.receiveWaiting = sub.receiveWaiting)
    (hrun : running + (if r.phase = .running then 1 else 0) =
      s.running + (if r'.phase = .running then 1 else 0))
    (hrle : running ≤ s.config.maxRunningHandlers) (hnd : ready.Nodup)
    (hr : ∀ j, j ≠ id → (j ∈ ready ↔ j ∈ s.ready)) :
    Inv (refreshReady { s with
      owned := s.owned.insert lease r', running,
      subscriptions := s.subscriptions.insert id sub', ready } id) := by
  have hw := h.wf.update hs hl hid hinv ho hwait hrun hrle
  refine Wf.refresh_inv (hw.frame _ _) (h.wf.readyBut (h.ready.but id) hnd hr
    (fun _ hj => (Map.lookup_insert_eq _ _ _ _).trans (if_neg hj)) fun l r₀ hl₀ hid₀ => ?_)
  refine (Map.lookup_insert_eq _ _ _ _).trans ((if_neg fun he => hid₀ ?_).trans hl₀)
  rw [he, hl.1] at hl₀
  rw [← Option.some.inj hl₀]
  exact hl.2

/-- A record outside the lanes changes to another phase outside the lanes. -/
theorem Inv.update (h : Inv s) (hs : s.subscriptions.lookup r.subscriptionId = some sub)
    (hl : s.owned.lookup lease = some r) (hid : r'.subscriptionId = r.subscriptionId)
    (hq : ¬ r.phase.isQueued) (hinv : SubInv (upd (Owns s.owned r.subscriptionId) lease r') sub)
    (hrun : running + (if r.phase = .running then 1 else 0) =
      s.running + (if r'.phase = .running then 1 else 0))
    (hrle : running ≤ s.config.maxRunningHandlers) :
    Inv { s with owned := s.owned.insert lease r', running } := by
  have hw := h.wf.update hs ⟨hl, rfl⟩ hid hinv rfl rfl hrun hrle
  rw [Map.insert_self hs] at hw
  exact ⟨hw, h.wf.ready_frame h.ready rfl (fun _ => rfl) (queued_insert hl hq)⟩

end EventBus.Scheduler
