import EventBus.Scheduler.Receive

/-!
# What an operation edits

An operation changes at most one record and one subscription (`Edit`). What comes after that is the
same for all of them: a release, a scan that grants receives, and the repair of `ready` and of the
notifications. So a property of the records, the subscriptions and the next lease survives an
operation if it survives the edit, a release and a grant (`Took.carry`).
-/

namespace EventBus.Scheduler

open Lib OwnedDeliveryPhase DeliverySchedulerState

/-- `op` makes `lease` wait for a handler. -/
def Op.queues (op : Op) (lease : Nat) : Prop :=
  (∃ lane, op = .enqueue lease lane) ∨ op = .wakeRetry lease

/-- The ordered lane that a lease is queued in. -/
def Op.lane : Op → Option (Nat × OrderingLaneKey)
  | .enqueue lease lane | .enqueueSettlement lease lane => lane.map (lease, ·)
  | _ => none

/-- The reservation of `id` that no adapter has claimed. -/
def unclaimedOf (s : DeliverySchedulerState) (id : Id) : Option Nat :=
  (s.subscriptions.lookup id).bind (·.unclaimed)

/-! ## Edits -/

structure RecordEdit (op : Op) (lease : Nat) (r r' : OwnedDeliveryRecord) : Prop where
  owner : r'.subscriptionId = r.subscriptionId
  queued : r'.phase = .queued → op.queues lease
  lane : r'.lane = r.lane ∨ op.lane = r'.lane.map (lease, ·)
  /-- Only a reserved lease changes its lane, and it is not reserved again. -/
  entered : r.phase ≠ .reservedReceive → r'.lane = r.lane ∧ r'.phase ≠ .reservedReceive

structure SubEdit (op : Op) (id : Id) (sub sub' : SubscriptionScheduleState) : Prop where
  stopped : sub.stopped = true → sub'.stopped = true
  /-- A reservation stays as it is, is claimed, or is used up. -/
  reservation :
    sub'.receiveReservation = sub.receiveReservation ∧ sub'.receiveTaken = sub.receiveTaken ∨
    op = .takeReceiveReservation id ∧ sub'.receiveTaken = true ∨
    sub.stopped = false ∧ sub.receiveTaken = true ∧ sub'.receiveReservation = none

inductive RecordsEdit (owned : Map Nat OwnedDeliveryRecord) (op : Op)
    (owned' : Map Nat OwnedDeliveryRecord) : Prop
  | same (h : owned' = owned)
  | change {lease : Nat} {r r' : OwnedDeliveryRecord} (h : owned' = owned.insert lease r')
      (hl : owned.lookup lease = some r) (hr : RecordEdit op lease r r')

inductive SubsEdit (subs : Map Id SubscriptionScheduleState) (op : Op)
    (subs' : Map Id SubscriptionScheduleState) : Prop
  | same (h : subs' = subs)
  | register {id : Id} (h : subs' = subs.insert id {}) (hop : op = .register id)
      (hs : subs.lookup id = none)
  | change {id : Id} {sub sub' : SubscriptionScheduleState} (h : subs' = subs.insert id sub')
      (hs : subs.lookup id = some sub) (hsub : SubEdit op id sub sub')
  | unregister {id : Id} (h : subs' = subs.erase id) (hop : op = .unregister id)

/-- What `op` does to `s` before anything is released, granted or repaired. -/
structure Edit (s : DeliverySchedulerState) (op : Op) (t : DeliverySchedulerState) : Prop where
  owned : RecordsEdit s.owned op t.owned
  subscriptions : SubsEdit s.subscriptions op t.subscriptions
  next : t.nextLease = s.nextLease

/-! ## What survives -/

/-- `P` survives what an operation does after its edit. -/
structure Carries (s : DeliverySchedulerState) (op : Op) (P : DeliverySchedulerState → Prop) :
    Prop where
  reads : ∀ {t t' : DeliverySchedulerState}, P t → t'.owned = t.owned →
    t'.subscriptions = t.subscriptions → t'.nextLease = t.nextLease → P t'
  release : ∀ {t : DeliverySchedulerState} {lease : Nat}, P t →
    (op = .complete lease ∨ ∃ id, unclaimedOf s id = some lease) → P (t.release lease)
  grant : ∀ {t : DeliverySchedulerState} {id : Id} {waiters : List Id}
    {sub : SubscriptionScheduleState} {lease : Nat}, P t → Wf t → FirstWaiter t id waiters sub →
    t.nextLease = some lease → P (grantFirst t id waiters sub lease)

section
variable {s s' t : DeliverySchedulerState} {op : Op} {id : Id} {sub : SubscriptionScheduleState}
  {P : DeliverySchedulerState → Prop}

namespace Carries

theorem notifyReady (hP : Carries s op P) (h : P t) : P t.notifyReady :=
  hP.reads h (notifyReady_owned t) (notifyReady_subscriptions t) (notifyReady_nextLease t)

theorem refreshReady (hP : Carries s op P) (h : P t) (id : Id) : P (t.refreshReady id) :=
  hP.reads h (refreshReady_owned t id) (refreshReady_subscriptions t id)
  (refreshReady_nextLease t id)

theorem releaseUnclaimed (hP : Carries s op P) (h : P t)
    (hs : s.subscriptions.lookup id = some sub) : P (t.releaseUnclaimed sub.unclaimed) := by
  cases hu : sub.unclaimed with
  | none => exact h
  | some lease =>
    refine hP.release h (.inr ⟨id, ?_⟩)
    rw [unclaimedOf, hs]
    exact hu

theorem grantReceives (hP : Carries s op P) (h : P t) (hw : Wf t) : P t.grantReceives := by
  refine grantLoop_rule (P := fun _ t => P t) (fun _ _ _ h _ => h) ?_ ?_ ?_ hw h
  · intro n t id waiters sub _ h _ _
    exact hP.reads h rfl rfl rfl
  · intro n t id waiters sub _ h _ _ _
    exact hP.reads h rfl rfl rfl
  · intro n t id waiters sub lease hw h hf _ hn
    exact hP.grant h hw hf hn

end Carries

/-- **What the edits keep, the operations keep.** -/
theorem Took.carry (ht : Took s op s') (hi : Inv s) (hP : Carries s op P)
    (hedit : ∀ t, Edit s op t → P t) : P s' := by
  have hsame : P s := hedit s ⟨.same rfl, .same rfl, rfl⟩
  cases ht with
  | skip => exact hsame
  | notify => exact hP.notifyReady hsame
  | register hs => exact hedit _ ⟨.same rfl, .register rfl rfl hs, rfl⟩
  | setDispatchActive active hs =>
    refine hP.notifyReady (hP.refreshReady (hedit _ ?_) _)
    exact ⟨.same rfl, .change rfl hs ⟨id, .inl ⟨rfl, rfl⟩⟩, rfl⟩
  | requestReceive hs hstop hwait hres =>
    refine hP.grantReceives (hedit _ ?_) (hi.demanded hs hstop hwait hres).wf
    exact ⟨.same rfl, .change rfl hs ⟨id, .inl ⟨rfl, rfl⟩⟩, rfl⟩
  | cancelReceive hs =>
    refine hP.notifyReady (hP.grantReceives (hP.releaseUnclaimed (hedit _ ?_) hs)
      ((hi.withdrawn hs).releaseUnclaimed _).wf)
    exact ⟨.same rfl, .change rfl hs ⟨id, .inl ⟨rfl, rfl⟩⟩, rfl⟩
  | takeReceiveReservation hs =>
    exact hedit _ ⟨.same rfl, .change rfl hs ⟨id, .inr (.inl ⟨rfl, rfl⟩)⟩, rfl⟩
  | @enqueue _ lease record sub lane phase hop hl hs hp hstop htaken =>
    refine hP.notifyReady (hP.refreshReady (hedit _ ?_) _)
    refine ⟨.change rfl hl ⟨rfl, fun hq => ?_, .inr ?_, fun hn => absurd hp hn⟩,
      .change rfl hs ⟨id, .inr (.inr ⟨hstop, htaken, rfl⟩)⟩, rfl⟩
    · obtain ⟨rfl, -⟩ | ⟨-, rfl⟩ := hop
      · exact .inl ⟨lane, rfl⟩
      · cases hq
    · obtain ⟨rfl, -⟩ | ⟨rfl, -⟩ := hop <;> rfl
  | @grant _ _ g hret hg =>
    refine hP.notifyReady (hP.refreshReady (hedit _ ?_) _)
    refine ⟨.change rfl hg.owns.1 ⟨rfl, fun hq => ?_, .inl rfl, fun _ => ⟨rfl, ?_⟩⟩,
      .change rfl hg.lookup ⟨id, .inl ⟨rfl, rfl⟩⟩, rfl⟩
    · have hh := grantPhase_holdsLane g.record.phase
      rw [show grantPhase g.record.phase = .queued from hq] at hh
      exact absurd hh (by decide)
    · exact holdsLane.not_reserved (grantPhase_holdsLane _)
  | leaveRunning hop hl hp =>
    refine hP.notifyReady (hedit _ ⟨.change rfl hl ⟨rfl, ?_, .inl rfl, fun _ => ⟨rfl, ?_⟩⟩,
      .same rfl, rfl⟩)
    · rcases hop with ⟨-, rfl⟩ | ⟨-, rfl⟩ <;> simp
    · rcases hop with ⟨-, rfl⟩ | ⟨-, rfl⟩ <;> simp
  | finishAttemptWaiting hl hp =>
    exact hedit _ ⟨.change rfl hl ⟨rfl, by simp, .inl rfl, by simp⟩, .same rfl, rfl⟩
  | wakeRetry hl hs hp hstop =>
    refine hP.notifyReady (hP.refreshReady (hedit _ ?_) _)
    exact ⟨.change rfl hl ⟨rfl, fun _ => .inr rfl, .inl rfl, by simp⟩,
      .change rfl hs ⟨id, .inl ⟨rfl, rfl⟩⟩, rfl⟩
  | complete lease =>
    exact hP.notifyReady (hP.grantReceives (hP.release hsame (.inl rfl)) (hi.release lease).wf)
  | @stopSubscription j sub hs s₁ h₁ =>
    have hi₁ : Inv s₁ := h₁ ▸ hi.fenced hs
    refine hP.notifyReady (hP.grantReceives ?_ (hi₁.setNotifications
      (insert j s₁.notifications)).wf)
    refine hP.reads (t := s₁) ?_ rfl rfl rfl
    rw [h₁]
    refine hP.refreshReady (hP.releaseUnclaimed (hedit _ ?_) hs) j
    exact ⟨.same rfl, .change rfl hs ⟨fun _ => rfl, .inl ⟨rfl, rfl⟩⟩, rfl⟩
  | unregister hs hz => exact hP.notifyReady (hedit _ ⟨.same rfl, .unregister rfl rfl, rfl⟩)
  | takeNotifications => exact hP.reads hsame rfl rfl rfl
  | recordOwnedStart createdAt hl hp =>
    refine hedit _ ⟨.change rfl hl ⟨rfl, fun hq => ?_, .inl rfl, fun hn => absurd hp hn⟩,
      .same rfl, rfl⟩
    rw [hp] at hq
    cases hq

/-! ## Releases -/

/-- A release changes at most the subscription of its lease. -/
theorem release_subscriptions (s : DeliverySchedulerState) (lease : Nat) :
    (s.release lease).subscriptions = s.subscriptions ∨
      ∃ record sub, s.subscriptions.lookup record.subscriptionId = some sub ∧
        (s.release lease).subscriptions =
          s.subscriptions.insert record.subscriptionId (releaseSub sub record lease) := by
  unfold DeliverySchedulerState.release
  split
  · exact .inl rfl
  · rename_i record _
    dsimp only
    split
    · exact .inl rfl
    · rename_i sub hs
      exact .inr ⟨record, sub, hs, refreshReady_subscriptions _ _⟩

end

end EventBus.Scheduler
