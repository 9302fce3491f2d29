import EventBus.Lib.Signal
import EventBus.Lib.Threads

/-!
# The control of an asynchronous subscription (`async_subscription_control.rs`)

The session of a subscription is used by one future at a time: `run`, `close` and `shutdown` wait in
`lease` for the slot that holds the session, and the drop of their `SessionLease` puts it back and
notifies those who wait. `dispose` closes the slot for good; if a lease is out, its drop also drops
the session.

Each future is a thread. A step is one access to the slot, to the table of wakers or to the atomic
`run_state`; the wakers that a notification has taken are woken one by one, in an order that the run
chooses. What is done with a leased session is an input (`Tick.use`). The stop signals, the
scheduler and the bus's table of controls are left out.
-/

namespace EventBus.Session

open Lib

inductive AsyncSubscriptionRunState where
  | unstarted
  | running
  | paused
  | stopped
deriving DecidableEq, Repr

structure SessionSlot (σ : Type) where
  session : Option σ
  active : Bool
  disposed : Bool

structure AsyncSubscriptionControl (σ W : Type) where
  slot : SessionSlot σ
  available : Signal W
  runState : AsyncSubscriptionRunState

variable {σ W : Type}

/-- `AsyncSubscriptionControl::new`. -/
def AsyncSubscriptionControl.new (session : σ) : AsyncSubscriptionControl σ W where
  slot := ⟨some session, false, false⟩
  available := .new
  runState := .unstarted

/-- `mark_stopped`. -/
def AsyncSubscriptionControl.markStopped (s : AsyncSubscriptionControl σ W) :
    AsyncSubscriptionControl σ W :=
  { s with runState := .stopped }

/-- The futures that lease the session. -/
inductive User where
  | run
  | close
  | shutdown
deriving DecidableEq, Repr

inductive Request where
  | lease (user : User)
  | dispose
  /-- `stop`, `fail_metrics_clock`, and a failure of the clock in `delivery_metrics`. -/
  | stop
deriving DecidableEq, Repr

inductive Call (σ W : Type) where
  /-- `mark_stopped` of `close` and `shutdown`, which comes before the lease. -/
  | marking (user : User)
  /-- `SignalRegistration::new`. -/
  | creating (user : User)
  /-- At the await of `lease`; the last poll returned `Pending` and had this waker. -/
  | waiting (user : User) (id : Nat) (waker : Option W)
  /-- In a poll, registered, before the look at the slot. -/
  | registered (user : User) (id : Nat) (waker : W)
  /-- The poll is ready, and the registration is still to be dropped. -/
  | refused (id : Nat)
  | granted (user : User) (id : Nat) (session : σ)
  /-- In `enter_run`, which has read `observed`. -/
  | entering (session : σ) (observed : Option AsyncSubscriptionRunState)
  /-- In the session's `run`, with a `RunStateGuard`. -/
  | running (session : σ)
  /-- It has returned. -/
  | finishing (session : σ)
  /-- The drop of the guard. -/
  | unguarding (session : σ)
  /-- `close` and `shutdown` use the session. -/
  | holding (session : σ)
  /-- The drop of the `SessionLease`, which may also have to drop the session. -/
  | returning (session : σ)
  | dropping (session : σ)
  /-- `dispose`. -/
  | disposing
  | emptying
  | disposed (session : Option σ)
  /-- `notify` is still to run. -/
  | notifying
  | waking (wakers : Map Nat W)
  | stopping

inductive Outcome where
  /-- `lease` has returned `None`, or `close` was refused. -/
  | closed
  /-- The future was dropped while it waited. -/
  | cancelled
  | done
deriving DecidableEq, Repr

inductive Note (W : Type) where
  | created
  | polled
  | leased
  /-- `dispose` found the slot idle or active. -/
  | disposed (idle : Bool)
  | dropped
  | woken (waker : W)
deriving DecidableEq

/-- How the use of a leased session goes on. -/
inductive Exit where
  | stay
  | finished
  | cancelled
deriving DecidableEq, Repr

structure Tick (σ W : Type) where
  /-- The waker of a poll. -/
  waker : W
  /-- A future that waits for the lease is dropped. -/
  cancelled : Bool
  /-- `compare_exchange_weak` fails for no reason. -/
  spurious : Bool
  /-- The bus is running. -/
  running : Bool
  use : σ → σ
  exit : Exit
  /-- The waiter whose waker is woken next. -/
  next : Nat

abbrev Next (σ W : Type) :=
  AsyncSubscriptionControl σ W × Thread (Call σ W) Outcome × List (Note W)

namespace Call

def enter : Request → Call σ W
  | .lease .run => creating .run
  | .lease user => marking user
  | .dispose => disposing
  | .stop => stopping

/-- The look of a poll of `lease` at the slot. -/
def inspect (s : AsyncSubscriptionControl σ W) (user : User) (id : Nat) (waker : W) : Next σ W :=
  if s.slot.disposed then (s, .running (refused id), [])
  else match s.slot.active, s.slot.session with
    | false, some session =>
      ({ s with slot := { s.slot with session := none, active := true } },
        .running (granted user id session), [.leased])
    | _, _ => (s, .running (waiting user id (some waker)), [])

/-- A round of the loop of `enter_run`. -/
def enterRun (s : AsyncSubscriptionControl σ W) (session : σ) (spurious : Bool) :
    AsyncSubscriptionRunState → Next σ W
  | .unstarted => attempt .unstarted
  | .paused => attempt .paused
  | .running | .stopped => (s, .running (returning session), [])
where
  attempt (observed : AsyncSubscriptionRunState) : Next σ W :=
    if s.runState = observed ∧ !spurious then
      ({ s with runState := .running }, .running (running session), [])
    else (s, .running (entering session (some s.runState)), [])

def step (s : AsyncSubscriptionControl σ W) (x : Tick σ W) : Call σ W → Next σ W
  | marking user =>
    if user = .close ∧ !x.running then (s.markStopped, .returned .closed, [])
    else (s.markStopped, .running (creating user), [])
  | creating user =>
    let (id, available) := s.available.allocate
    ({ s with available }, .running (waiting user id none), [.created])
  | waiting user id _ =>
    if x.cancelled then ({ s with available := s.available.remove id }, .returned .cancelled, [])
    else ({ s with available := s.available.insert id x.waker },
      .running (registered user id x.waker), [.polled])
  | registered user id waker => inspect s user id waker
  | refused id => ({ s with available := s.available.remove id }, .returned .closed, [])
  | granted user id session =>
    let next := if user = .run then entering session none else holding session
    ({ s with available := s.available.remove id }, .running next, [])
  | entering session none => (s, .running (entering session (some s.runState)), [])
  | entering session (some observed) => enterRun s session x.spurious observed
  | running session =>
    match x.exit with
    | .stay => (s, .running (running (x.use session)), [])
    | .finished => (s, .running (finishing session), [])
    | .cancelled => (s, .running (unguarding session), [])
  | finishing session => (s.markStopped, .running (unguarding session), [])
  | unguarding session =>
    let runState := if s.runState = .running then .paused else s.runState
    ({ s with runState }, .running (returning session), [])
  | holding session =>
    match x.exit with
    | .stay => (s, .running (holding (x.use session)), [])
    | _ => (s, .running (returning session), [])
  | returning session =>
    if s.slot.disposed then (s, .running (dropping session), [])
    else ({ s with slot := { s.slot with session := some session, active := false } },
      .running notifying, [])
  | dropping _ => (s, .running notifying, [.dropped])
  | disposing => (s.markStopped, .running emptying, [])
  | emptying =>
    let session := if s.slot.active then none else s.slot.session
    let rest := if s.slot.active then s.slot.session else none
    ({ s with slot := { s.slot with session := rest, disposed := true } },
      .running (disposed session), [.disposed (!s.slot.active)])
  | disposed (some _) => (s, .running notifying, [.dropped])
  | disposed none => (s, .running notifying, [])
  | notifying =>
    let (wakers, available) := s.available.drain
    ({ s with available }, .running (waking wakers), [])
  | waking wakers =>
    if wakers.keys = ∅ then (s, .returned .done, [])
    else match wakers.lookup x.next with
      | some waker => (s, .running (waking (wakers.erase x.next)), [.woken waker])
      | none => (s, .running (waking wakers), [])
  | stopping => (s.markStopped, .returned .done, [])

end Call

/-- The futures of one subscription. -/
def control (σ W : Type) :
    Machine (AsyncSubscriptionControl σ W) Request (Call σ W) Outcome (Tick σ W) (Note W) where
  enter := Call.enter
  step s _ call x := some (call.step s x)

end EventBus.Session
