import EventBus.Basic
import EventBus.Lib.Map
import EventBus.Lib.Lanes

/-!
# The scheduler's state

The delivery scheduler owns only metadata: one record for every delivery a subscription has
received or may still receive (`OwnedDeliveryRecord`, keyed by its lease, a `u64`), the lanes of
each subscription (`SubscriptionScheduleState`), and two rotations over subscriptions: `ready` for
the ones with a lane to grant, `receiveWaiters` for the ones that want to receive. This file has the
state (`delivery_scheduler_state.rs`, `subscription_schedule_state.rs`) and the transitions on it
that run inside one lock; the operations built from them are in `Scheduler/Core.lean`.
-/

namespace EventBus.Scheduler

open Lib

/-- Where a delivery is between its receive reservation and its release. -/
inductive OwnedDeliveryPhase where
  | reservedReceive
  | queued
  | queuedSettlement
  | running
  | waitingRetry
  | settling
deriving DecidableEq, Repr

namespace OwnedDeliveryPhase

/-- The delivery waits in a lane. -/
def isQueued (p : OwnedDeliveryPhase) : Prop := p = .queued ∨ p = .queuedSettlement

/-- The delivery left its lane and keeps it locked. -/
def holdsLane (p : OwnedDeliveryPhase) : Prop := p = .running ∨ p = .settling ∨ p = .waitingRetry

instance : DecidablePred isQueued := fun _ => inferInstanceAs (Decidable (_ ∨ _))

instance : DecidablePred holdsLane := fun _ => inferInstanceAs (Decidable (_ ∨ _ ∨ _))

end OwnedDeliveryPhase

/-- The identity of an ordered lane. -/
structure OrderingLaneKey where
  topic : String
  orderingKey : Option String
  subscriptionId : Id
deriving DecidableEq, Repr

structure OwnedDeliveryRecord where
  subscriptionId : Id
  phase : OwnedDeliveryPhase
  createdAt : Option MonotonicInstant
  lane : Option OrderingLaneKey
deriving DecidableEq, Repr

/-! ## Configuration -/

/-- The scheduler's limits; the relations `new` checks are part of the value. -/
structure DeliverySchedulingConfig where
  maxRunningHandlers : ℕ+
  maxOwnedDeliveries : ℕ+
  maxOwnedPerSubscription : ℕ+
  maxSubscriptions : ℕ+
  running_le : maxRunningHandlers ≤ maxOwnedDeliveries
  perSubscription_le : maxOwnedPerSubscription ≤ maxOwnedDeliveries

def DeliverySchedulingConfig.new (maxRunningHandlers maxOwnedDeliveries maxOwnedPerSubscription
    maxSubscriptions : ℕ+) : Except ConfigurationError DeliverySchedulingConfig :=
  if hr : maxRunningHandlers > maxOwnedDeliveries then
    .error (.invalidField "max_running_handlers" "must not exceed max_owned_deliveries")
  else if hp : maxOwnedPerSubscription > maxOwnedDeliveries then
    .error (.invalidField "max_owned_per_subscription" "must not exceed max_owned_deliveries")
  else
    .ok ⟨maxRunningHandlers, maxOwnedDeliveries, maxOwnedPerSubscription, maxSubscriptions,
      not_lt.1 hr, not_lt.1 hp⟩

/-- The limits of `DeliverySchedulingConfig::default`. -/
def DeliverySchedulingConfig.default : DeliverySchedulingConfig :=
  ⟨4, 256, 32, 256, by decide, by decide⟩

/-! ## One subscription -/

/-- The receive demand and the lanes of one registration. -/
structure SubscriptionScheduleState where
  owned : Nat := 0
  dispatchActive : Bool := false
  stopped : Bool := false
  receiveWaiting : Bool := false
  receiveReservation : Option Nat := none
  receiveTaken : Bool := false
  lanes : Lanes OrderingLaneKey Nat := []
  lockedLanes : Finset OrderingLaneKey := ∅
deriving DecidableEq

namespace SubscriptionScheduleState

variable (sub : SubscriptionScheduleState)

/-- The head of an unlocked lane can take a grant: a settlement always, a handler while one is
available. -/
def laneEligible (owned : Map Nat OwnedDeliveryRecord) (handlerAvailable : Bool)
    (lane : Option OrderingLaneKey × List Nat) : Bool :=
  (lane.1.all fun key => key ∉ sub.lockedLanes) &&
    ((lane.2.head?.bind fun lease => owned.lookup lease).any fun record =>
      record.phase = .queuedSettlement || (handlerAvailable && record.phase = .queued))

/-- The index of the first lane that can take a grant. -/
def eligibleLane (owned : Map Nat OwnedDeliveryRecord) (handlerAvailable : Bool) :
    Option Nat :=
  if sub.stopped || !sub.dispatchActive then none
  else sub.lanes.findIdx? (sub.laneEligible owned handlerAvailable)

def enqueue (lease : Nat) (lane : Option OrderingLaneKey) : SubscriptionScheduleState :=
  { sub with lanes := sub.lanes.pushBack lane lease }

/-- Consumes the head of the lane at `index`: an ordered lane is locked, and what is left of the
lane goes to the back of the rotation. -/
def takeReady (index : Nat) : Option Nat × SubscriptionScheduleState :=
  match sub.lanes.takeAt index with
  | (none, lanes) => (none, { sub with lanes })
  | (some (lane, lease), lanes) =>
    (some lease, { sub with lanes, lockedLanes := lane.toFinset ∪ sub.lockedLanes })

def removeQueued (lease : Nat) : SubscriptionScheduleState :=
  { sub with lanes := sub.lanes.remove lease }

/-- The reserved lease no adapter has claimed. -/
def unclaimed : Option Nat := if sub.receiveTaken then none else sub.receiveReservation

end SubscriptionScheduleState

/-! ## The scheduler -/

structure DeliverySchedulerState where
  config : DeliverySchedulingConfig
  owned : Map Nat OwnedDeliveryRecord
  running : Nat
  subscriptions : Map Id SubscriptionScheduleState
  ready : List Id
  receiveWaiters : List Id
  notifications : Finset Id
  nextLease : Option Nat

namespace DeliverySchedulerState

def new (config : DeliverySchedulingConfig) : DeliverySchedulerState where
  config := config
  owned := ∅
  running := 0
  subscriptions := ∅
  ready := []
  receiveWaiters := []
  notifications := ∅
  nextLease := some 1

variable (s : DeliverySchedulerState)

def handlerAvailable : Bool := s.running < s.config.maxRunningHandlers

/-- The lane `id` would be granted now. -/
def eligibleLane (id : Id) (handlerAvailable : Bool) : Option Nat :=
  (s.subscriptions.lookup id).bind fun sub => sub.eligibleLane s.owned handlerAvailable

/-- The next subscription and lane to grant, without consuming a turn. -/
def selectedReady : Option (Id × Nat) :=
  s.ready.findSome? fun id => (s.eligibleLane id s.handlerAvailable).map fun index => (id, index)

/-- Updates the membership of `id` in `ready` without disturbing the order of the others. -/
def refreshReady (id : Id) : DeliverySchedulerState :=
  if (s.eligibleLane id true).isSome then
    if id ∈ s.ready then s else { s with ready := s.ready ++ [id] }
  else { s with ready := s.ready.filter (· ≠ id) }

/-- Notifies the selected subscription. -/
def notifyReady : DeliverySchedulerState :=
  match s.selectedReady with
  | none => s
  | some (id, _) => { s with notifications := insert id s.notifications }

/-- Reserves `lease` for the receive of `id`, whose state is `sub`. -/
def grantReceive (id : Id) (sub : SubscriptionScheduleState) (lease : Nat) :
    DeliverySchedulerState :=
  { s with
    nextLease := checkedSucc lease
    subscriptions := s.subscriptions.insert id
      { sub with
        receiveWaiting := false, receiveReservation := some lease, receiveTaken := false,
        owned := sub.owned + 1 }
    owned := s.owned.insert lease
      { subscriptionId := id, phase := .reservedReceive, createdAt := none, lane := none }
    notifications := insert id s.notifications }

/-- The scan of `grantReceives`: at most `candidates` waiters, each taken from the front. -/
def grantLoop : Nat → DeliverySchedulerState → DeliverySchedulerState
  | 0, s => s
  | candidates + 1, s =>
    if s.config.maxOwnedDeliveries ≤ s.owned.size then s
    else
      match s.receiveWaiters with
      | [] => s
      | id :: waiters =>
        match s.subscriptions.lookup id with
        | none => grantLoop candidates { s with receiveWaiters := waiters }
        | some sub =>
          if sub.stopped || !sub.receiveWaiting then
            grantLoop candidates { s with receiveWaiters := waiters }
          else if s.config.maxOwnedPerSubscription ≤ sub.owned then
            -- at its own limit: the waiter keeps its demand and goes to the back
            grantLoop candidates { s with receiveWaiters := waiters ++ [id] }
          else
            match s.nextLease with
            | none =>
              -- no lease is left for anyone: all waiters are told
              { s with
                receiveWaiters := id :: waiters
                notifications := s.notifications ∪ (id :: waiters).toFinset }
            | some lease =>
              grantLoop candidates (grantReceive { s with receiveWaiters := waiters } id sub lease)

/-- Grants the free owned credits to the waiting receivers in turn. -/
def grantReceives : DeliverySchedulerState := grantLoop s.receiveWaiters.length s

/-- The subscription's part of a release. -/
def releaseSub (sub : SubscriptionScheduleState) (record : OwnedDeliveryRecord) (lease : Nat) :
    SubscriptionScheduleState :=
  let sub := { sub with owned := sub.owned - 1 }
  let sub := if sub.receiveReservation = some lease then
      { sub with receiveReservation := none, receiveTaken := false } else sub
  let sub := if record.phase.isQueued then sub.removeQueued lease else sub
  if record.phase.holdsLane then
    match record.lane with
    | some lane => { sub with lockedLanes := sub.lockedLanes.erase lane }
    | none => sub
  else sub

section
variable (sub : SubscriptionScheduleState) (record : OwnedDeliveryRecord) (lease : Nat)

theorem releaseSub_lanes : (releaseSub sub record lease).lanes =
    if record.phase.isQueued then sub.lanes.remove lease else sub.lanes := by
  dsimp only [releaseSub, SubscriptionScheduleState.removeQueued]
  split_ifs <;> cases record.lane <;> rfl

theorem releaseSub_lockedLanes : (releaseSub sub record lease).lockedLanes =
    if record.phase.holdsLane then sub.lockedLanes \ record.lane.toFinset
    else sub.lockedLanes := by
  dsimp only [releaseSub, SubscriptionScheduleState.removeQueued]
  split_ifs <;> cases record.lane <;> simp [Finset.sdiff_singleton_eq_erase]

theorem releaseSub_receiveReservation : (releaseSub sub record lease).receiveReservation =
    if sub.receiveReservation = some lease then none else sub.receiveReservation := by
  dsimp only [releaseSub, SubscriptionScheduleState.removeQueued]
  split_ifs <;> cases record.lane <;> simp_all

/-- A release keeps the flags and returns one owned credit. -/
@[simp] theorem releaseSub_flags :
    (releaseSub sub record lease).owned = sub.owned - 1 ∧
    (releaseSub sub record lease).dispatchActive = sub.dispatchActive ∧
    (releaseSub sub record lease).stopped = sub.stopped ∧
    (releaseSub sub record lease).receiveWaiting = sub.receiveWaiting := by
  dsimp only [releaseSub, SubscriptionScheduleState.removeQueued]
  split_ifs <;> cases record.lane <;> simp

end

/-- Releases a lease with everything it holds; an unknown lease is ignored. -/
def release (lease : Nat) : DeliverySchedulerState :=
  match s.owned.lookup lease with
  | none => s
  | some record =>
    let s := { s with owned := s.owned.erase lease }
    let id := record.subscriptionId
    match s.subscriptions.lookup id with
    | none => s
    | some sub =>
      refreshReady
        { s with
          subscriptions := s.subscriptions.insert id (releaseSub sub record lease)
          running := if record.phase = .running then s.running - 1 else s.running
          notifications := insert id s.notifications } id

end DeliverySchedulerState

end EventBus.Scheduler
