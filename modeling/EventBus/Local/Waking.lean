import EventBus.Lib.Signal
import EventBus.Local.AsyncProvider

/-!
# Wakers of the asynchronous local provider

`AsyncProvider` without its wakers leaves open when a future is polled. Here every queue has its
table of wakers (`async_ready`). A poll of `receive` enters its waker into the table, or leaves the
one that is there if it wakes the same task, and then looks at the queue under its lock. `publish`,
`settle`, `close` and `shutdown` change queues under their locks and owe a `notify_all` for each
queue they have changed.

The accesses to a table are steps of their own: `register` takes an id and inserts the waker,
`update` compares and inserts, `notify_all` drains the table and then wakes one waker after the
other. A receiver is borrowed by one `receive` future at a time, because `receive` takes `&mut
self`. The table of the provider that a graceful shutdown waits on (`changed`) is left out.
-/

namespace EventBus.Local

open Lib

structure WakingShared (W : Type) where
  provider : AsyncLocalShared
  /-- `queue.async_ready`. -/
  signals : QueueRef → Signal W
  /-- The receivers that a `receive` future has borrowed. -/
  borrowed : Finset QueueRef

variable {W : Type}

def WakingShared.new (provider : AsyncLocalShared) : WakingShared W := ⟨provider, fun _ => .new, ∅⟩

def WakingShared.setSignal (s : WakingShared W) (q : QueueRef) (signal : Signal W) :
    WakingShared W :=
  { s with signals := Function.update s.signals q signal }

/-- The variables of a `receive` future. -/
structure ReceiveFuture where
  q : QueueRef
  timeout : Nat
  started : Option Nat
  /-- The id of its `AsyncWaiter`. -/
  waiter : Option Nat
deriving DecidableEq

/-- What a poll that returned `Pending` has left: its waker, and whether the future also waits for a
timer, because the timeout is finite or the queue has a delayed head. -/
structure Pending (W : Type) where
  waker : W
  timed : Bool

inductive WakingCall (W : Type) where
  /-- A call other than `receive`, with the queues that it has changed and not notified of. -/
  | calling (inner : Thread AsyncCall Response) (owed : List QueueRef)
  /-- It is in `notify_all` of `q` and has drained the table. -/
  | waking (inner : Thread AsyncCall Response) (owed : List QueueRef) (q : QueueRef)
      (wakers : Map Nat W)
  /-- `receive` is called when the receiver is free. -/
  | opening (q : QueueRef) (timeout : Nat)
  /-- Between two polls. -/
  | resting (future : ReceiveFuture) (last : Option (Pending W))
  /-- In a poll, before the waker is inserted. -/
  | registering (future : ReceiveFuture) (waker : W)
  /-- In a poll, before the look at the queue. -/
  | looking (future : ReceiveFuture) (waker : W)
  /-- The drop of the `AsyncWaiter`. -/
  | leaving (future : ReceiveFuture) (response : Response)

inductive WakingNote (W : Type) where
  | polled
  | woken (waker : W)
deriving DecidableEq

structure WakingTick (W : Type) where
  tick : AsyncTick
  /-- The waker of a poll. -/
  waker : W
  /-- The waiter whose waker is woken next. -/
  next : Nat

abbrev WakingNext (W : Type) :=
  WakingShared W × Thread (WakingCall W) Response × List (WakingNote W)

/-- The queues of which a call owes a notification after a step from `call` to `t`. -/
def AsyncCall.owes (s : AsyncLocalShared) (t : Thread AsyncCall Response)
    (notes : List ProviderNote) : AsyncCall → List QueueRef
  | admitting event (q :: _) _ => if .accepted q event ∈ notes then [q] else []
  | settle q token _ =>
    match t with
    | .returned (.settled (.ok ())) => if s.store.isUnsettled token then [q] else []
    | _ => []
  | close q =>
    match t with
    | .returned _ => [q]
    | .running _ => []
  | cleaning _ _ (q :: _) => [q]
  | _ => []

/-- The cleanup of a shutdown notifies when it has given the lock of the registry back. -/
def AsyncCall.postpones : AsyncCall → Bool
  | cleaning .. => true
  | _ => false

namespace WakingCall

def enter : AsyncRequest → WakingCall W
  | .receive q timeout => opening q timeout
  | request => calling (.running (AsyncCall.enter request)) []

/-- `notify_all` drains the table. -/
def notify (s : WakingShared W) (inner : Thread AsyncCall Response) (q : QueueRef)
    (owed : List QueueRef) : WakingNext W :=
  let (wakers, signal) := (s.signals q).drain
  (s.setSignal q signal, .running (waking inner owed q wakers), [])

/-- A step of a call other than `receive`: a notification that it owes comes first. -/
def stepCalling (maxInstant maxDuration foreign : Nat) (s : WakingShared W) (i : Nat)
    (x : AsyncTick) : Thread AsyncCall Response → List QueueRef → Option (WakingNext W)
  | .returned response, [] => some (s, .returned response, [])
  | .returned response, q :: owed => some (notify s (.returned response) q owed)
  | .running call, owed =>
    match owed, call.postpones with
    | q :: owed, false => some (notify s (.running call) q owed)
    | owed, _ =>
      (AsyncCall.step maxInstant maxDuration foreign s.provider i call x).map
        fun (provider, t, notes) =>
        ({ s with provider }, .running (calling t (owed ++ call.owes s.provider t notes)), [])

/-- The beginning of a poll: `register_or_update`. A receive with a zero timeout does not wait. -/
def poll (s : WakingShared W) [DecidableEq W] (future : ReceiveFuture) (waker : W) (clock : Nat) :
    WakingNext W :=
  let future := { future with started := some (future.started.getD clock) }
  if future.timeout = 0 then (s, .running (looking future waker), [.polled])
  else match future.waiter with
    | none =>
      let (id, signal) := (s.signals future.q).allocate
      (s.setSignal future.q signal, .running (registering { future with waiter := some id } waker),
        [.polled])
    | some id =>
      -- `will_wake`
      if (s.signals future.q).waiters.lookup id = some waker then
        (s, .running (looking future waker), [.polled])
      else (s, .running (registering future waker), [.polled])

/-- Whether the poll waits for a timer too. -/
def isTimed (maxDuration timeout : Nat) : Received → Bool
  | .nothing (some delay) => delay.isSome || timeout ≠ maxDuration
  | _ => false

/-- The look at the queue; it is `AsyncCall.lookAt`, with what it tells about the timer. -/
def look (maxDuration : Nat) (s : WakingShared W) (future : ReceiveFuture) (waker : W)
    (x : AsyncTick) : Option (WakingNext W) :=
  let started := future.started.getD x.clock
  let waits :=
    if future.timeout = 0 ∨
        future.timeout ≠ maxDuration ∧ future.timeout ≤ x.clock - started then none
    else some x.again.now
  s.provider.store.onQueue future.q (s, .running (looking future waker), [])
    (fun queue => Local.receive queue (fun _ event => event.topic) x.moment x.again waits)
    fun queue received store =>
      let (provider, t, _) := AsyncCall.afterLook maxDuration future.q future.timeout started
        x.timer queue received { s.provider with store }
      let timed := isTimed maxDuration future.timeout received
      match t with
      | .returned response => ({ s with provider }, .running (leaving future response), [])
      | .running _ =>
        -- a timer that has fired wakes the task at once
        let notes := if timed && x.timer = .fired then [.woken waker] else []
        ({ s with provider }, .running (resting future (some ⟨waker, timed⟩)), notes)

def step (maxInstant maxDuration foreign : Nat) [DecidableEq W] (s : WakingShared W) (i : Nat)
    (call : WakingCall W) (x : WakingTick W) : Option (WakingNext W) :=
  match call with
  | calling inner owed => stepCalling maxInstant maxDuration foreign s i x.tick inner owed
  | waking inner owed q wakers =>
    if wakers.keys = ∅ then some (s, .running (calling inner owed), [])
    else match wakers.lookup x.next with
      | some waker => some (s, .running (waking inner owed q (wakers.erase x.next)), [.woken waker])
      | none => some (s, .running (waking inner owed q wakers), [])
  | opening q timeout =>
    if q ∈ s.borrowed then some (s, .running (opening q timeout), [])
    else some ({ s with borrowed := insert q s.borrowed },
      .running (resting ⟨q, timeout, none, none⟩ none), [])
  | resting future _ =>
    if x.tick.dropped then some (s, .running (leaving future .done), [])
    else some (poll s future x.waker x.tick.clock)
  | registering future waker =>
    match future.waiter with
    | none => some (s, .running (looking future waker), [])
    | some id => some (s.setSignal future.q ((s.signals future.q).insert id waker),
        .running (looking future waker), [])
  | looking future waker => look maxDuration s future waker x.tick
  | leaving future response =>
    let s := match future.waiter with
      | none => s
      | some id => s.setSignal future.q ((s.signals future.q).remove id)
    some ({ s with borrowed := s.borrowed.erase future.q }, .returned response, [])

end WakingCall

/-- The asynchronous provider with its wakers. -/
def wakingProvider (maxInstant maxDuration foreign : Nat) (W : Type) [DecidableEq W] :
    Machine (WakingShared W) AsyncRequest (WakingCall W) Response (WakingTick W)
      (WakingNote W) where
  enter := WakingCall.enter
  step := WakingCall.step maxInstant maxDuration foreign

end EventBus.Local
