import EventBus.Lib.Run
import EventBus.Scheduler.State

/-!
# The scheduler's operations

`DeliverySchedulerCore` (`delivery_scheduler_core.rs`) guards the state with one mutex, so each of
its methods is one transition, whoever calls it. `step` is the machine of all transitions: every
interleaving of callers is a run of it. Calls with unknown, stale or foreign identities are
operations like any other; they mostly change nothing.
-/

namespace EventBus.Scheduler

open Lib

namespace DeliverySchedulerState

variable (s : DeliverySchedulerState)

/-! ## Registration and receive demand -/

def register (id : Id) : Bool × DeliverySchedulerState :=
  if (s.subscriptions.lookup id).isSome ∨ s.config.maxSubscriptions ≤ s.subscriptions.size then
    (false, s)
  else (true, { s with subscriptions := s.subscriptions.insert id {} })

def setDispatchActive (id : Id) (active : Bool) : DeliverySchedulerState :=
  let s := match s.subscriptions.lookup id with
    | none => s
    | some sub => { s with
        subscriptions := s.subscriptions.insert id
          { sub with dispatchActive := active && !sub.stopped } }
  (s.refreshReady id).notifyReady

def requestReceive (id : Id) : DeliverySchedulerState :=
  match s.subscriptions.lookup id with
  | none => s
  | some sub =>
    if sub.stopped || sub.receiveWaiting || sub.receiveReservation.isSome then s
    else
      grantReceives { s with
        subscriptions := s.subscriptions.insert id { sub with receiveWaiting := true }
        receiveWaiters := s.receiveWaiters ++ [id] }

/-- Releases the reservation `unclaimed`, if there is one. -/
def releaseUnclaimed (unclaimed : Option Nat) : DeliverySchedulerState :=
  match unclaimed with
  | none => s
  | some lease => s.release lease

def cancelReceive (id : Id) : DeliverySchedulerState :=
  match s.subscriptions.lookup id with
  | none => s
  | some sub =>
    let s := { s with
      subscriptions := s.subscriptions.insert id { sub with receiveWaiting := false }
      receiveWaiters := s.receiveWaiters.filter (· ≠ id) }
    (s.releaseUnclaimed sub.unclaimed).grantReceives.notifyReady

def takeReceiveReservation (id : Id) : Option Nat × DeliverySchedulerState :=
  match s.subscriptions.lookup id with
  | none => (none, s)
  | some sub =>
    if sub.stopped || sub.receiveTaken then (none, s)
    else
      match sub.receiveReservation with
      | none => (none, s)
      | some lease =>
        (some lease,
          { s with subscriptions := s.subscriptions.insert id { sub with receiveTaken := true } })

/-! ## Lanes -/

def enqueuePhase (lease : Nat) (lane : Option OrderingLaneKey) (phase : OwnedDeliveryPhase) :
    DeliverySchedulerState :=
  match s.owned.lookup lease with
  | none => s
  | some record =>
    if record.phase ≠ .reservedReceive then s
    else
      match s.subscriptions.lookup record.subscriptionId with
      | none => s
      | some sub =>
        if sub.stopped || !sub.receiveTaken then s
        else
          let id := record.subscriptionId
          let s := { s with
            subscriptions := s.subscriptions.insert id
              ({ sub with receiveReservation := none, receiveTaken := false }.enqueue lease lane)
            owned := s.owned.insert lease { record with phase, lane } }
          (s.refreshReady id).notifyReady

def enqueue (lease : Nat) (lane : Option OrderingLaneKey) : DeliverySchedulerState :=
  s.enqueuePhase lease lane .queued

def enqueueSettlement (lease : Nat) (lane : Option OrderingLaneKey) :
    DeliverySchedulerState :=
  s.enqueuePhase lease lane .queuedSettlement

/-- The phase and the running count of a grant that expected `expected`. -/
def startGrant (lease : Nat) (record : OwnedDeliveryRecord) (expected : OwnedDeliveryPhase) :
    DeliverySchedulerState :=
  if expected = .queued then
    { s with
      owned := s.owned.insert lease { record with phase := .running }
      running := s.running + 1 }
  else { s with owned := s.owned.insert lease { record with phase := .settling } }

/-- Consumes the selected lane if it is the turn of `id` and the lane's head is in phase
`expected`. -/
def takeGrant (id : Id) (expected : OwnedDeliveryPhase) :
    Option Nat × DeliverySchedulerState :=
  match s.selectedReady with
  | none => (none, s)
  | some (selected, index) =>
    if selected ≠ id then (none, s.notifyReady)
    else
      match s.subscriptions.lookup selected with
      | none => (none, s)
      | some sub =>
        match (sub.lanes[index]?.bind fun lane => lane.2.head?).bind
            fun candidate => s.owned.lookup candidate with
        | none => (none, s)
        | some head =>
          if head.phase ≠ expected then (none, s.notifyReady)
          else
            match sub.takeReady index with
            | (none, sub) =>
              (none, { s with subscriptions := s.subscriptions.insert selected sub })
            | (some lease, sub) =>
              let s := { s with
                subscriptions := s.subscriptions.insert selected sub
                ready := s.ready.filter (· ≠ selected) }
              match s.owned.lookup lease with
              | none => (none, s)
              | some record =>
                (some lease,
                  ((s.startGrant lease record expected).refreshReady selected).notifyReady)

def takeSettlementReady (id : Id) : Option Nat × DeliverySchedulerState :=
  s.takeGrant id .queuedSettlement

def takeReady (id : Id) : Option Nat × DeliverySchedulerState := s.takeGrant id .queued

/-! ## Attempts and retries -/

/-- A running lease gives its handler slot back and goes on to `next`. -/
def leaveRunning (lease : Nat) (next : OwnedDeliveryPhase) : DeliverySchedulerState :=
  match s.owned.lookup lease with
  | none => s
  | some record =>
    if record.phase ≠ .running then s
    else
      notifyReady { s with
        owned := s.owned.insert lease { record with phase := next }
        running := s.running - 1 }

def handlerFinished (lease : Nat) : DeliverySchedulerState := s.leaveRunning lease .settling

def deferUnstartedRetry (lease : Nat) : DeliverySchedulerState :=
  s.leaveRunning lease .waitingRetry

def finishAttemptWaiting (lease : Nat) : DeliverySchedulerState :=
  match s.owned.lookup lease with
  | none => s
  | some record =>
    if record.phase = .settling then
      { s with owned := s.owned.insert lease { record with phase := .waitingRetry } }
    else s

def wakeRetry (lease : Nat) : DeliverySchedulerState :=
  match s.owned.lookup lease with
  | none => s
  | some record =>
    if record.phase ≠ .waitingRetry then s
    else
      match s.subscriptions.lookup record.subscriptionId with
      | none => s
      | some sub =>
        if sub.stopped then s
        else
          let id := record.subscriptionId
          let s := { s with
            subscriptions := s.subscriptions.insert id
              { sub with
                lockedLanes := sub.lockedLanes \ record.lane.toFinset
                lanes := sub.lanes.pushFront record.lane lease }
            owned := s.owned.insert lease { record with phase := .queued } }
          (s.refreshReady id).notifyReady

/-! ## Release and stop -/

def complete (lease : Nat) : DeliverySchedulerState :=
  (s.release lease).grantReceives.notifyReady

def stopSubscription (id : Id) : DeliverySchedulerState :=
  match s.subscriptions.lookup id with
  | none => s
  | some sub =>
    let s := { s with
      subscriptions := s.subscriptions.insert id
        { sub with stopped := true, dispatchActive := false, receiveWaiting := false }
      receiveWaiters := s.receiveWaiters.filter (· ≠ id) }
    let s := (s.releaseUnclaimed sub.unclaimed).refreshReady id
    (grantReceives { s with notifications := insert id s.notifications }).notifyReady

def unregister (id : Id) : Bool × DeliverySchedulerState :=
  match s.subscriptions.lookup id with
  | none => (false, s)
  | some sub =>
    if sub.owned ≠ 0 then (false, s)
    else
      (true, notifyReady { s with
        subscriptions := s.subscriptions.erase id
        ready := s.ready.filter (· ≠ id)
        receiveWaiters := s.receiveWaiters.filter (· ≠ id)
        notifications := s.notifications.erase id })

/-- Drains the wake targets; their order is not specified. -/
def takeNotifications : Finset Id × DeliverySchedulerState :=
  (s.notifications, { s with notifications := ∅ })

def recordOwnedStart (lease : Nat) (createdAt : MonotonicInstant) : DeliverySchedulerState :=
  match s.owned.lookup lease with
  | none => s
  | some record =>
    if record.phase ≠ .reservedReceive ∨ record.createdAt.isSome then s
    else if (s.subscriptions.lookup record.subscriptionId).any (·.receiveTaken) then
      { s with owned := s.owned.insert lease { record with createdAt := some createdAt } }
    else s

end DeliverySchedulerState

/-! ## The machine -/

/-- A call of a method of `DeliverySchedulerCore` that takes the lock to change the state. -/
inductive Op where
  | register (id : Id)
  | setDispatchActive (id : Id) (active : Bool)
  | requestReceive (id : Id)
  | cancelReceive (id : Id)
  | takeReceiveReservation (id : Id)
  | enqueue (lease : Nat) (lane : Option OrderingLaneKey)
  | enqueueSettlement (lease : Nat) (lane : Option OrderingLaneKey)
  | takeSettlementReady (id : Id)
  | takeReady (id : Id)
  | handlerFinished (lease : Nat)
  | deferUnstartedRetry (lease : Nat)
  | finishAttemptWaiting (lease : Nat)
  | wakeRetry (lease : Nat)
  | complete (lease : Nat)
  | stopSubscription (id : Id)
  | unregister (id : Id)
  | takeNotifications
  | recordOwnedStart (lease : Nat) (createdAt : MonotonicInstant)
deriving DecidableEq

/-- What a call returns. -/
inductive Ret where
  | unit
  | bool (b : Bool)
  | lease (lease : Option Nat)
  | ids (ids : Finset Id)
deriving DecidableEq

/-- A call: its result and the state it leaves. -/
def call (s : DeliverySchedulerState) : Op → Ret × DeliverySchedulerState
  | .register id => (.bool (s.register id).1, (s.register id).2)
  | .setDispatchActive id active => (.unit, s.setDispatchActive id active)
  | .requestReceive id => (.unit, s.requestReceive id)
  | .cancelReceive id => (.unit, s.cancelReceive id)
  | .takeReceiveReservation id =>
    (.lease (s.takeReceiveReservation id).1, (s.takeReceiveReservation id).2)
  | .enqueue lease lane => (.unit, s.enqueue lease lane)
  | .enqueueSettlement lease lane => (.unit, s.enqueueSettlement lease lane)
  | .takeSettlementReady id => (.lease (s.takeSettlementReady id).1, (s.takeSettlementReady id).2)
  | .takeReady id => (.lease (s.takeReady id).1, (s.takeReady id).2)
  | .handlerFinished lease => (.unit, s.handlerFinished lease)
  | .deferUnstartedRetry lease => (.unit, s.deferUnstartedRetry lease)
  | .finishAttemptWaiting lease => (.unit, s.finishAttemptWaiting lease)
  | .wakeRetry lease => (.unit, s.wakeRetry lease)
  | .complete lease => (.unit, s.complete lease)
  | .stopSubscription id => (.unit, s.stopSubscription id)
  | .unregister id => (.bool (s.unregister id).1, (s.unregister id).2)
  | .takeNotifications => (.ids s.takeNotifications.1, s.takeNotifications.2)
  | .recordOwnedStart lease createdAt => (.unit, s.recordOwnedStart lease createdAt)

/-- The state after a call. -/
def step (s : DeliverySchedulerState) (op : Op) : DeliverySchedulerState := (call s op).2

end EventBus.Scheduler
