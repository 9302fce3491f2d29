import EventBus.Scheduler.Inv

/-!
# What one operation can do

`Took s op s'` lists the ends of every operation: it changes nothing, it only notifies the selected
runner, or its guards held and it did its work. `Inv.took` says that a call always ends in one of
these ways; everything later says about "any operation" is a case analysis on `Took`.
-/

namespace EventBus.Scheduler

open Lib OwnedDeliveryPhase DeliverySchedulerState

variable {owned : Map Nat OwnedDeliveryRecord} {expected : OwnedDeliveryPhase}
  {s : DeliverySchedulerState} {sub : SubscriptionScheduleState} {id : Id} {lease i : Nat}

/-! ## A lane grant -/

/-- What an eligible lane is: the subscription may dispatch, the lane is not locked, and its head
can take a grant. -/
theorem sub_eligibleLane_some {h : Bool} (he : sub.eligibleLane owned h = some i) :
    sub.stopped = false ∧ sub.dispatchActive = true ∧
    ∃ lane lease q r, sub.lanes[i]? = some (lane, lease :: q) ∧
      (∀ key, lane = some key → key ∉ sub.lockedLanes) ∧ owned.lookup lease = some r ∧
      (r.phase = .queuedSettlement ∨ h = true ∧ r.phase = .queued) := by
  unfold SubscriptionScheduleState.eligibleLane at he
  split at he
  · cases he
  · rename_i hs
    simp only [Bool.or_eq_true, Bool.not_eq_true', not_or, Bool.not_eq_true,
      Bool.not_eq_false] at hs
    refine ⟨hs.1, hs.2, ?_⟩
    obtain ⟨hi, hp, -⟩ := List.findIdx?_eq_some_iff_getElem.1 he
    obtain ⟨⟨lane, q⟩, hl⟩ : ∃ p, sub.lanes[i] = p := ⟨_, rfl⟩
    rw [hl] at hp
    simp only [SubscriptionScheduleState.laneEligible, Bool.and_eq_true, Option.all_eq_true,
      decide_eq_true_eq, Option.any_eq_true, Option.bind_eq_some_iff, Bool.or_eq_true] at hp
    obtain ⟨hk, r, ⟨lease, hq, hr⟩, hp⟩ := hp
    cases q with
    | nil => cases hq
    | cons a q =>
      cases hq
      exact ⟨lane, lease, q, r, by rw [List.getElem?_eq_getElem hi, hl], hk, hr, hp⟩

theorem selectedReady_some (h : s.selectedReady = some (id, i)) :
    id ∈ s.ready ∧ s.eligibleLane id s.handlerAvailable = some i := by
  obtain ⟨j, hj, he⟩ := List.exists_of_findSome?_eq_some h
  obtain ⟨i', hi', he⟩ := Option.map_eq_some_iff.1 he
  cases he
  exact ⟨hj, hi'⟩

/-- The head of a lane, with the lanes around it. -/
structure LaneHead where
  sub : SubscriptionScheduleState
  before : Lanes OrderingLaneKey Nat
  lane : Option OrderingLaneKey
  lease : Nat
  queue : List Nat
  after : Lanes OrderingLaneKey Nat
  record : OwnedDeliveryRecord

/-- `g` is the head of the selected lane of the selected subscription `id`. -/
structure Selected (s : DeliverySchedulerState) (id : Id) (g : LaneHead) : Prop where
  selected : s.selectedReady = some (id, g.before.length)
  lookup : s.subscriptions.lookup id = some g.sub
  lanes : g.sub.lanes = g.before ++ (g.lane, g.lease :: g.queue) :: g.after
  unlocked : ∀ key, g.lane = some key → key ∉ g.sub.lockedLanes
  owns : Owns s.owned id g.lease g.record
  lane : g.record.lane = g.lane
  phase : g.record.phase = .queuedSettlement ∨
    s.handlerAvailable = true ∧ g.record.phase = .queued

/-- The phase a granted head goes on to. -/
def grantPhase (p : OwnedDeliveryPhase) : OwnedDeliveryPhase :=
  if p = .queued then .running else .settling

/-- The subscription after a grant. -/
def LaneHead.grantSub (g : LaneHead) : SubscriptionScheduleState :=
  { g.sub with
    lanes := g.before ++ g.after ++ Lanes.rest g.lane g.queue
    lockedLanes := g.lane.toFinset ∪ g.sub.lockedLanes }

/-- The state after a grant, before the next runner is notified. -/
def granted (s : DeliverySchedulerState) (id : Id) (g : LaneHead) : DeliverySchedulerState :=
  refreshReady { s with
    owned := s.owned.insert g.lease { g.record with phase := grantPhase g.record.phase }
    running := if g.record.phase = .queued then s.running + 1 else s.running
    subscriptions := s.subscriptions.insert id g.grantSub
    ready := s.ready.filter (· ≠ id) } id

/-- The selected lane of a well-formed state. -/
theorem Wf.selected (hw : Wf s) (h : s.selectedReady = some (id, i)) :
    ∃ g, Selected s id g ∧ g.before.length = i := by
  obtain ⟨-, he⟩ := selectedReady_some h
  obtain ⟨sub, hs, he⟩ := Option.bind_eq_some_iff.1 he
  obtain ⟨-, -, lane, lease, q, r, hi, hk, hr, hp⟩ := sub_eligibleLane_some he
  obtain ⟨l₁, l₂, hl, hlen, -⟩ := Lanes.takeAt_some hi
  have hm : (lane, lease :: q) ∈ sub.lanes := List.mem_of_getElem? hi
  obtain ⟨r', hr', hlane, -⟩ := (hw.sub id sub hs).inv.head hm
  have : r' = r := Option.some.inj (hr'.1.symm.trans hr)
  subst this
  exact ⟨⟨sub, l₁, lane, lease, q, l₂, r'⟩, ⟨hlen ▸ h, hs, hl, hk, hr', hlane, hp⟩, hlen⟩

variable {g : LaneHead}

/-- The selected subscription gets its lane head when it asks for the head's kind of grant. -/
theorem Selected.takeGrant (hg : Selected s id g) :
    s.takeGrant id g.record.phase = (some g.lease, (granted s id g).notifyReady) := by
  have hi : g.sub.lanes[g.before.length]? = some (g.lane, g.lease :: g.queue) := by
    rw [hg.lanes]
    simp
  obtain ⟨l₁, l₂, hl, hlen, htake⟩ := Lanes.takeAt_some hi
  obtain ⟨rfl, hl'⟩ := List.append_inj (hg.lanes.symm.trans hl) hlen.symm
  obtain rfl := (List.cons.inj hl').2
  simp only [DeliverySchedulerState.takeGrant, hg.selected, ne_eq, not_true_eq_false, if_false,
    hg.lookup, hi, Option.bind_some, List.head?_cons, hg.owns.1,
    SubscriptionScheduleState.takeReady, htake, startGrant, granted, grantPhase]
  split_ifs <;> rfl

/-- Anyone else, and the selected subscription for the other kind of grant, gets nothing and
notifies the selected one. -/
theorem Selected.takeGrant_none {selected : Id} (hg : Selected s selected g)
    (hn : selected ≠ id ∨ g.record.phase ≠ expected) :
    s.takeGrant id expected = (none, s.notifyReady) := by
  unfold DeliverySchedulerState.takeGrant
  simp only [hg.selected]
  split_ifs with hid
  · rfl
  · have hphase : g.record.phase ≠ expected := hn.resolve_left hid
    have hi : g.sub.lanes[g.before.length]? = some (g.lane, g.lease :: g.queue) := by
      rw [hg.lanes]
      simp
    simp only [hg.lookup, hi, Option.bind_some, List.head?_cons, hg.owns.1, if_pos hphase]

/-- The three ends of `takeGrant`: nothing, a notification of the selected runner, a grant. -/
theorem Wf.takeGrant_cases (hw : Wf s) (id : Id) (expected : OwnedDeliveryPhase) :
    s.takeGrant id expected = (none, s) ∨ s.takeGrant id expected = (none, s.notifyReady) ∨
    ∃ g, Selected s id g ∧ g.record.phase = expected ∧
      s.takeGrant id expected = (some g.lease, (granted s id g).notifyReady) := by
  cases hsel : s.selectedReady with
  | none =>
    refine .inl ?_
    unfold takeGrant
    rw [hsel]
  | some p =>
    obtain ⟨selected, index⟩ := p
    obtain ⟨g, hg, rfl⟩ := hw.selected hsel
    by_cases hn : selected ≠ id ∨ g.record.phase ≠ expected
    · exact .inr (.inl (hg.takeGrant_none hn))
    · simp only [ne_eq, not_or, not_not] at hn
      obtain ⟨rfl, rfl⟩ := hn
      exact .inr (.inr ⟨g, hg, rfl, hg.takeGrant⟩)

theorem grantPhase_holdsLane (p : OwnedDeliveryPhase) : (grantPhase p).holdsLane := by
  cases p <;> decide

/-! ## The other operations -/

/-- The lease of the reservation belongs to the subscription. -/
theorem SubInv.reserved_owns (h : SubInv (Owns owned id) sub)
    (hres : sub.receiveReservation = some lease) :
    ∃ r, owned.lookup lease = some r ∧ r.subscriptionId = id ∧ r.phase = .reservedReceive := by
  obtain ⟨r, hr, hp⟩ := (h.reserved lease).1 hres
  exact ⟨r, hr.1, hr.2, hp⟩

theorem unclaimed_some (h : sub.unclaimed = some lease) :
    sub.receiveTaken = false ∧ sub.receiveReservation = some lease := by
  unfold SubscriptionScheduleState.unclaimed at h
  split_ifs at h with ht
  exact ⟨Bool.eq_false_iff.2 ht, h⟩

/-- `id` has a new receive demand, at the back of the rotation. -/
def demanded (s : DeliverySchedulerState) (id : Id) (sub : SubscriptionScheduleState) :
    DeliverySchedulerState :=
  { s with
    subscriptions := s.subscriptions.insert id { sub with receiveWaiting := true }
    receiveWaiters := s.receiveWaiters ++ [id] }

/-- The demand of `id` is withdrawn. -/
def withdrawn (s : DeliverySchedulerState) (id : Id) (sub : SubscriptionScheduleState) :
    DeliverySchedulerState :=
  { s with
    subscriptions := s.subscriptions.insert id { sub with receiveWaiting := false }
    receiveWaiters := s.receiveWaiters.filter (· ≠ id) }

/-- `id` is stopped, with its demand. -/
def fenced (s : DeliverySchedulerState) (id : Id) (sub : SubscriptionScheduleState) :
    DeliverySchedulerState :=
  { s with
    subscriptions := s.subscriptions.insert id
      { sub with stopped := true, dispatchActive := false, receiveWaiting := false }
    receiveWaiters := s.receiveWaiters.filter (· ≠ id) }

/-- The reserved `lease` is in `lane`, `ready` not yet refreshed. -/
def laned (s : DeliverySchedulerState) (sub : SubscriptionScheduleState) (lease : Nat)
    (record : OwnedDeliveryRecord) (lane : Option OrderingLaneKey) (phase : OwnedDeliveryPhase) :
    DeliverySchedulerState :=
  { s with
    subscriptions := s.subscriptions.insert record.subscriptionId
      ({ sub with receiveReservation := none, receiveTaken := false }.enqueue lease lane)
    owned := s.owned.insert lease { record with phase, lane } }

/-- The waiting `lease` is back at the head of its lane, `ready` not yet refreshed. -/
def woken (s : DeliverySchedulerState) (sub : SubscriptionScheduleState) (lease : Nat)
    (record : OwnedDeliveryRecord) : DeliverySchedulerState :=
  { s with
    subscriptions := s.subscriptions.insert record.subscriptionId
      { sub with
        lockedLanes := sub.lockedLanes \ record.lane.toFinset
        lanes := sub.lanes.pushFront record.lane lease }
    owned := s.owned.insert lease { record with phase := .queued } }

/-- `id` is gone. -/
def dropped (s : DeliverySchedulerState) (id : Id) : DeliverySchedulerState :=
  { s with
    subscriptions := s.subscriptions.erase id
    ready := s.ready.filter (· ≠ id)
    receiveWaiters := s.receiveWaiters.filter (· ≠ id)
    notifications := s.notifications.erase id }

/-- The subscription and the lease of a lane grant, if the call makes one. -/
def laneGrant (s : DeliverySchedulerState) : Op → Option (Id × Nat)
  | .takeReady id => (s.takeReady id).1.map fun lease => (id, lease)
  | .takeSettlementReady id => (s.takeSettlementReady id).1.map fun lease => (id, lease)
  | _ => none

/-- The ends of an operation (module doc). -/
inductive Took (s : DeliverySchedulerState) : Op → DeliverySchedulerState → Prop
  | skip {op : Op} (hn : laneGrant s op = none) : Took s op s
  | notify {op : Op} (hn : laneGrant s op = none) : Took s op s.notifyReady
  | register {id : Id} (hs : s.subscriptions.lookup id = none)
      (hlt : s.subscriptions.size < s.config.maxSubscriptions) :
      Took s (.register id) { s with subscriptions := s.subscriptions.insert id {} }
  | setDispatchActive {id : Id} {sub : SubscriptionScheduleState} (active : Bool)
      (hs : s.subscriptions.lookup id = some sub) :
      Took s (.setDispatchActive id active)
        (refreshReady { s with
          subscriptions := s.subscriptions.insert id
            { sub with dispatchActive := active && !sub.stopped } } id).notifyReady
  | requestReceive {id : Id} {sub : SubscriptionScheduleState}
      (hs : s.subscriptions.lookup id = some sub) (hstop : sub.stopped = false)
      (hwait : sub.receiveWaiting = false) (hres : sub.receiveReservation = none) :
      Took s (.requestReceive id) (demanded s id sub).grantReceives
  | cancelReceive {id : Id} {sub : SubscriptionScheduleState}
      (hs : s.subscriptions.lookup id = some sub) :
      Took s (.cancelReceive id)
        ((withdrawn s id sub).releaseUnclaimed sub.unclaimed).grantReceives.notifyReady
  | takeReceiveReservation {id : Id} {sub : SubscriptionScheduleState} {lease : Nat}
      (hs : s.subscriptions.lookup id = some sub) (hstop : sub.stopped = false)
      (htaken : sub.receiveTaken = false) (hres : sub.receiveReservation = some lease) :
      Took s (.takeReceiveReservation id)
        { s with subscriptions := s.subscriptions.insert id { sub with receiveTaken := true } }
  | enqueue {op : Op} {lease : Nat} {record : OwnedDeliveryRecord} {sub : SubscriptionScheduleState}
      {lane : Option OrderingLaneKey} {phase : OwnedDeliveryPhase}
      (hop : op = .enqueue lease lane ∧ phase = .queued ∨
        op = .enqueueSettlement lease lane ∧ phase = .queuedSettlement)
      (hl : s.owned.lookup lease = some record)
      (hs : s.subscriptions.lookup record.subscriptionId = some sub)
      (hp : record.phase = .reservedReceive) (hstop : sub.stopped = false)
      (htaken : sub.receiveTaken = true) :
      Took s op ((laned s sub lease record lane phase).refreshReady
        record.subscriptionId).notifyReady
  | grant {op : Op} {id : Id} {g : LaneHead} (hret : laneGrant s op = some (id, g.lease))
      (hg : Selected s id g) : Took s op (granted s id g).notifyReady
  | leaveRunning {op : Op} {lease : Nat} {record : OwnedDeliveryRecord} {next : OwnedDeliveryPhase}
      (hop : op = .handlerFinished lease ∧ next = .settling ∨
        op = .deferUnstartedRetry lease ∧ next = .waitingRetry)
      (hl : s.owned.lookup lease = some record) (hp : record.phase = .running) :
      Took s op (notifyReady { s with
        owned := s.owned.insert lease { record with phase := next }
        running := s.running - 1 })
  | finishAttemptWaiting {lease : Nat} {record : OwnedDeliveryRecord}
      (hl : s.owned.lookup lease = some record) (hp : record.phase = .settling) :
      Took s (.finishAttemptWaiting lease)
        { s with owned := s.owned.insert lease { record with phase := .waitingRetry } }
  | wakeRetry {lease : Nat} {record : OwnedDeliveryRecord} {sub : SubscriptionScheduleState}
      (hl : s.owned.lookup lease = some record)
      (hs : s.subscriptions.lookup record.subscriptionId = some sub)
      (hp : record.phase = .waitingRetry) (hstop : sub.stopped = false) :
      Took s (.wakeRetry lease)
        ((woken s sub lease record).refreshReady record.subscriptionId).notifyReady
  | complete (lease : Nat) :
      Took s (.complete lease) (s.release lease).grantReceives.notifyReady
  | stopSubscription {id : Id} {sub : SubscriptionScheduleState}
      (hs : s.subscriptions.lookup id = some sub) {s₁ : DeliverySchedulerState}
      (h₁ : s₁ = ((fenced s id sub).releaseUnclaimed sub.unclaimed).refreshReady id) :
      Took s (.stopSubscription id)
        (grantReceives { s₁ with notifications := insert id s₁.notifications }).notifyReady
  | unregister {id : Id} {sub : SubscriptionScheduleState}
      (hs : s.subscriptions.lookup id = some sub) (hz : sub.owned = 0) :
      Took s (.unregister id) (dropped s id).notifyReady
  | takeNotifications : Took s .takeNotifications { s with notifications := ∅ }
  | recordOwnedStart {lease : Nat} {record : OwnedDeliveryRecord} (createdAt : MonotonicInstant)
      (hl : s.owned.lookup lease = some record) (hp : record.phase = .reservedReceive) :
      Took s (.recordOwnedStart lease createdAt)
        { s with owned := s.owned.insert lease { record with createdAt := some createdAt } }

/-! ## A call ends in one of these ways -/

/-- In a consistent state there is nothing to refresh. -/
theorem Ready.refreshReady_self (h : Ready s) (id : Id) : s.refreshReady id = s := by
  have hid := h.mem id
  unfold refreshReady
  split_ifs with he hm
  · rfl
  · exact absurd (hid.2 he) hm
  · have : s.ready.filter (· ≠ id) = s.ready := by
      refine List.filter_eq_self.2 fun j hj => decide_eq_true ?_
      intro hji
      exact he (hid.1 (hji ▸ hj))
    rw [this]

section
variable {op : Op}

theorem Wf.took_enqueue (hw : Wf s) {lane : Option OrderingLaneKey} {phase : OwnedDeliveryPhase}
    (hop : op = .enqueue lease lane ∧ phase = .queued ∨
      op = .enqueueSettlement lease lane ∧ phase = .queuedSettlement) :
    Took s op (s.enqueuePhase lease lane phase) := by
  have hn : laneGrant s op = none := by rcases hop with ⟨rfl, -⟩ | ⟨rfl, -⟩ <;> rfl
  unfold enqueuePhase
  cases hl : s.owned.lookup lease with
  | none => exact .skip hn
  | some record =>
    obtain ⟨sub, hs⟩ := hw.registered lease record hl
    simp only [hs]
    split_ifs with hp hg
    · exact .skip hn
    · exact .skip hn
    · simp only [Bool.or_eq_true, Bool.not_eq_true', not_or, Bool.not_eq_true,
        Bool.not_eq_false] at hg
      exact .enqueue hop hl hs (not_not.1 hp) hg.1 hg.2

theorem Wf.took_grant (hw : Wf s)
    (hop : laneGrant s op = (s.takeGrant id expected).1.map fun lease => (id, lease)) :
    Took s op (s.takeGrant id expected).2 := by
  rcases hw.takeGrant_cases id expected with he | he | ⟨g, hg, -, he⟩
  · rw [he] at hop ⊢
    exact .skip hop
  · rw [he] at hop ⊢
    exact .notify hop
  · rw [he] at hop ⊢
    exact .grant hop hg

theorem took_leaveRunning {next : OwnedDeliveryPhase}
    (hop : op = .handlerFinished lease ∧ next = .settling ∨
      op = .deferUnstartedRetry lease ∧ next = .waitingRetry) :
    Took s op (s.leaveRunning lease next) := by
  have hn : laneGrant s op = none := by rcases hop with ⟨rfl, -⟩ | ⟨rfl, -⟩ <;> rfl
  unfold leaveRunning
  cases hl : s.owned.lookup lease with
  | none => exact .skip hn
  | some record =>
    simp only
    split_ifs with hp
    · exact .skip hn
    · exact .leaveRunning hop hl (not_not.1 hp)

theorem Wf.took_wakeRetry (hw : Wf s) (lease : Nat) :
    Took s (.wakeRetry lease) (s.wakeRetry lease) := by
  unfold wakeRetry
  cases hl : s.owned.lookup lease with
  | none => exact .skip rfl
  | some record =>
    obtain ⟨sub, hs⟩ := hw.registered lease record hl
    simp only [hs]
    split_ifs with hp hstop
    · exact .skip rfl
    · exact .skip rfl
    · exact .wakeRetry hl hs (not_not.1 hp) (Bool.eq_false_iff.2 hstop)

theorem took_requestReceive (id : Id) : Took s (.requestReceive id) (s.requestReceive id) := by
  unfold requestReceive
  cases hs : s.subscriptions.lookup id with
  | none => exact .skip rfl
  | some sub =>
    simp only
    split_ifs with hg
    · exact .skip rfl
    · simp only [Bool.or_eq_true, not_or, Bool.not_eq_true, Option.isSome_eq_false_iff,
        Option.isNone_iff_eq_none] at hg
      exact .requestReceive hs hg.1.1 hg.1.2 hg.2

theorem took_takeReceiveReservation (id : Id) :
    Took s (.takeReceiveReservation id) (s.takeReceiveReservation id).2 := by
  unfold takeReceiveReservation
  cases hs : s.subscriptions.lookup id with
  | none => exact .skip rfl
  | some sub =>
    simp only
    split_ifs with hg
    · exact .skip rfl
    · simp only [Bool.or_eq_true, not_or, Bool.not_eq_true] at hg
      split
      · exact .skip rfl
      · rename_i lease hres
        exact .takeReceiveReservation hs hg.1 hg.2 hres

theorem took_recordOwnedStart (lease : Nat) (createdAt : MonotonicInstant) :
    Took s (.recordOwnedStart lease createdAt) (s.recordOwnedStart lease createdAt) := by
  unfold recordOwnedStart
  cases hl : s.owned.lookup lease with
  | none => exact .skip rfl
  | some record =>
    simp only
    split_ifs with hp
    · exact .skip rfl
    · rw [not_or, not_not] at hp
      exact .recordOwnedStart createdAt hl hp.1
    · exact .skip rfl

theorem took_finishAttemptWaiting (lease : Nat) :
    Took s (.finishAttemptWaiting lease) (s.finishAttemptWaiting lease) := by
  unfold finishAttemptWaiting
  cases hl : s.owned.lookup lease with
  | none => exact .skip rfl
  | some record =>
    simp only
    split_ifs with hp
    · exact .finishAttemptWaiting hl hp
    · exact .skip rfl

theorem took_register (id : Id) : Took s (.register id) (s.register id).2 := by
  unfold register
  split_ifs with hg
  · exact .skip rfl
  · simp only [not_or, Bool.not_eq_true, Option.isSome_eq_false_iff, Option.isNone_iff_eq_none,
      not_le] at hg
    exact .register hg.1 hg.2

theorem took_unregister (id : Id) : Took s (.unregister id) (s.unregister id).2 := by
  unfold unregister
  cases hs : s.subscriptions.lookup id with
  | none => exact .skip rfl
  | some sub =>
    simp only
    split_ifs with hz
    · exact .skip rfl
    · exact .unregister hs (not_not.1 hz)

/-- Every call ends in one of the ways of `Took`. -/
theorem Inv.took (h : Inv s) (op : Op) : Took s op (step s op) := by
  cases op with
  | register id => exact took_register id
  | setDispatchActive id active =>
    show Took s _ (s.setDispatchActive id active)
    unfold DeliverySchedulerState.setDispatchActive
    cases hs : s.subscriptions.lookup id with
    | none =>
      simp only [h.ready.refreshReady_self id]
      exact .notify rfl
    | some sub => exact .setDispatchActive active hs
  | requestReceive id => exact took_requestReceive id
  | cancelReceive id =>
    show Took s _ (s.cancelReceive id)
    unfold DeliverySchedulerState.cancelReceive
    cases hs : s.subscriptions.lookup id with
    | none => exact .skip rfl
    | some sub => exact .cancelReceive hs
  | takeReceiveReservation id => exact took_takeReceiveReservation id
  | enqueue lease lane => exact h.wf.took_enqueue (.inl ⟨rfl, rfl⟩)
  | enqueueSettlement lease lane => exact h.wf.took_enqueue (.inr ⟨rfl, rfl⟩)
  | takeSettlementReady id => exact h.wf.took_grant rfl
  | takeReady id => exact h.wf.took_grant rfl
  | handlerFinished lease => exact took_leaveRunning (.inl ⟨rfl, rfl⟩)
  | deferUnstartedRetry lease => exact took_leaveRunning (.inr ⟨rfl, rfl⟩)
  | finishAttemptWaiting lease => exact took_finishAttemptWaiting lease
  | wakeRetry lease => exact h.wf.took_wakeRetry lease
  | complete lease => exact .complete lease
  | stopSubscription id =>
    show Took s _ (s.stopSubscription id)
    unfold DeliverySchedulerState.stopSubscription
    cases hs : s.subscriptions.lookup id with
    | none => exact .skip rfl
    | some sub => exact .stopSubscription hs rfl
  | unregister id => exact took_unregister id
  | takeNotifications => exact .takeNotifications
  | recordOwnedStart lease createdAt => exact took_recordOwnedStart lease createdAt

end

end EventBus.Scheduler
