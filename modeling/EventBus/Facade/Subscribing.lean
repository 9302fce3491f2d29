import EventBus.Lib.Threads
import EventBus.Scheduler.Claim
import EventBus.Scheduler.Registration
import EventBus.Spi

/-!
# Subscribing and the workers (`facade/event_bus/subscribing.rs`)

A synchronous `subscribe` reserves a worker permit, opens the provider's subscription, registers it
with the scheduler and spawns the worker thread. The budget of permits and the scheduler have the
same limit, so a call with a permit expects to find room for its registration.

A call is a machine (`step`) that goes on as the worker it has spawned. The closure of the worker
owns the permit. When the worker ends, its lifecycle guard takes back the registration before the
permit is dropped. When the thread cannot be spawned, `spawn` drops the closure, and with it the
permit, before the caller takes back the registration: then a registration is left without a permit,
and another call may find the scheduler full (`subscribe_overbooked`). In every run without a failed
spawn, the registrations are at most the permits (`subscribe_permits`).
-/

namespace EventBus.Facade

open Lib Scheduler

inductive SubscribeError where
  | closed
  | configuration (error : ConfigurationError)
  | capability (capability : String)
  | resourceLimit (resource : String) (limit : Nat)
  | spi (error : SpiError)
deriving DecidableEq, Repr

/-- What the calls and workers of a bus share. -/
structure EventBusInner where
  providerId : String
  /-- `subscription_worker_budget`. -/
  active : Nat
  limit : Nat
  /-- The scheduler's core. -/
  core : DeliverySchedulerState
  nextSubscriptionId : Nat
  /-- The workers that `tracker` counts. -/
  workers : Nat
  subscriptions : Finset Id

/-- A new bus: the budget has the limit of the scheduler. -/
def EventBusInner.new (providerId : String) (config : DeliverySchedulingConfig) :
    EventBusInner where
  providerId := providerId
  active := 0
  limit := config.maxSubscriptions
  core := .new config
  nextSubscriptionId := 1
  workers := 0
  subscriptions := ∅

/-- Where a call stands. -/
inductive Stage where
  | entering
  /-- In the loop of `try_reserve`, which has read `observed`. -/
  | reserving (observed : Nat)
  | validating
  | numbering
  /-- In the provider's `subscribe`. -/
  | opening (id : Id)
  /-- `scheduler.start`. -/
  | starting (id : Id)
  | registering (id : Id)
  /-- Before the registration is entered into the tracker and the table of subscriptions. -/
  | tracking (id : Id)
  | spawning (id : Id)
  /-- The call returns this error and drops its permit. -/
  | failing (error : SubscribeError)
  /-- The caller after a failed spawn: `finish_subscription`, and then the tracker and the table. -/
  | stopping (id : Id) (text : String)
  | unregistering (id : Id) (text : String)
  | untracking (id : Id) (text : String)
  /-- The worker, in `run_subscription_worker_body`. -/
  | working (id : Id)
  /-- The drop of its `OwnerLifecycleGuard`, in `finish_subscription` and behind it. -/
  | finishing (id : Id)
  | leaving (id : Id)
  /-- The drop of its permit. -/
  | releasing
deriving DecidableEq

inductive Call where
  | subscribe (subscriber : SubscriberId) (stage : Stage)
  /-- Another operation on the scheduler, of a worker, a handler or a caller. -/
  | scheduler (op : Op)
deriving DecidableEq

inductive Request where
  | subscribe (subscriber : SubscriberId)
  | scheduler (op : Op)

inductive Outcome where
  | failed (error : SubscribeError)
  | exited
  | done
deriving DecidableEq

/-- `subscribe` has returned a subscription. -/
inductive Note where
  | subscribed (id : Id)
deriving DecidableEq

/-- What a step leaves open: the gate of operations, the checks of the request, a spurious failure
of `compare_exchange_weak`, the provider, and whether threads can be spawned. -/
structure Tick where
  entered : Bool := true
  misconfigured : Option SubscribeError := none
  spurious : Bool := false
  refusal : Option SubscribeError := none
  openError : Option SpiError := none
  startError : Option String := none
  spawnError : Option String := none

/-- `cleanup_failed_worker_spawn`; a failure to close the provider's subscription is only
recorded. -/
def workerSpawnFailed (providerId : String) (subscriber : SubscriberId) (source : String) :
    SubscribeError :=
  .spi (.operation providerId "spawn_subscription_worker" (some subscriber.value)
    "worker_spawn_failed" none source)

/-- `register` and `unregister` are called by `subscribe` and by the end of a worker only. -/
def registers : Op → Bool
  | .register _ | .unregister _ => true
  | _ => false

abbrev Next := EventBusInner × Thread Call Outcome × List Note

/-- The next step of a call of `subscribe`, or of the worker it has become. -/
def Stage.step (s : EventBusInner) (subscriber : SubscriberId) (x : Tick) : Stage → Next
  | .entering =>
    if !x.entered then (s, .returned (.failed .closed), [])
    else match x.misconfigured with
      | some error => (s, .returned (.failed error), [])
      | none => (s, .running (.subscribe subscriber (.reserving s.active)), [])
  | .reserving observed =>
    if s.limit ≤ observed then
      (s, .returned (.failed (.resourceLimit "subscriptions" s.limit)), [])
    else if s.active = observed ∧ !x.spurious then
      ({ s with active := s.active + 1 }, .running (.subscribe subscriber .validating), [])
    else (s, .running (.subscribe subscriber (.reserving s.active)), [])
  | .validating =>
    match x.refusal with
    | some error => (s, .running (.subscribe subscriber (.failing error)), [])
    | none => (s, .running (.subscribe subscriber .numbering), [])
  | .numbering =>
    match checkedSucc s.nextSubscriptionId with
    | none => (s, .running (.subscribe subscriber (.failing (.configuration (.invalidField
        "subscription_id" "bus-local subscription ID space is exhausted")))), [])
    | some next => ({ s with nextSubscriptionId := next },
        .running (.subscribe subscriber (.opening ⟨s.nextSubscriptionId⟩)), [])
  | .opening id =>
    match x.openError with
    | some error => (s, .running (.subscribe subscriber (.failing (.spi error))), [])
    | none => (s, .running (.subscribe subscriber (.starting id)), [])
  | .starting id =>
    match x.startError with
    | some text => (s, .running (.subscribe subscriber
        (.failing (workerSpawnFailed s.providerId subscriber text))), [])
    | none => (s, .running (.subscribe subscriber (.registering id)), [])
  | .registering id =>
    let (registered, core) := s.core.register id
    if registered then ({ s with core }, .running (.subscribe subscriber (.tracking id)), [])
    else (s, .running (.subscribe subscriber (.failing (workerSpawnFailed s.providerId subscriber
      "subscription scheduler registration invariant violated"))), [])
  | .tracking id =>
    ({ s with workers := s.workers + 1, subscriptions := insert id s.subscriptions },
      .running (.subscribe subscriber (.spawning id)), [])
  | .spawning id =>
    match x.spawnError with
    | none => (s, .running (.subscribe subscriber (.working id)), [.subscribed id])
    | some text =>
      -- the closure with the permit is dropped before `spawn` returns
      ({ s with active := s.active - 1 }, .running (.subscribe subscriber (.stopping id text)), [])
  | .failing error => ({ s with active := s.active - 1 }, .returned (.failed error), [])
  | .stopping id text =>
    ({ s with core := s.core.stopSubscription id },
      .running (.subscribe subscriber (.unregistering id text)), [])
  | .unregistering id text =>
    ({ s with core := (s.core.unregister id).2 },
      .running (.subscribe subscriber (.untracking id text)), [])
  | .untracking id text =>
    ({ s with workers := s.workers - 1, subscriptions := s.subscriptions.erase id },
      .returned (.failed (workerSpawnFailed s.providerId subscriber text)), [])
  | .working id =>
    -- an owner that leaves has completed every lease that it took (`Delivery.owner_gives_back`)
    if GaveBack s.core id then
      ({ s with core := s.core.stopSubscription id },
        .running (.subscribe subscriber (.finishing id)), [])
    else (s, .running (.subscribe subscriber (.working id)), [])
  | .finishing id =>
    ({ s with core := (s.core.unregister id).2 },
      .running (.subscribe subscriber (.leaving id)), [])
  | .leaving id =>
    ({ s with workers := s.workers - 1, subscriptions := s.subscriptions.erase id },
      .running (.subscribe subscriber .releasing), [])
  | .releasing => ({ s with active := s.active - 1 }, .returned .exited, [])

def Call.step (s : EventBusInner) (_ : Nat) (call : Call) (x : Tick) : Option Next :=
  match call with
  | .subscribe subscriber stage => some (stage.step s subscriber x)
  | .scheduler op =>
    if registers op then some (s, .returned .done, [])
    else some ({ s with core := Scheduler.step s.core op }, .returned .done, [])

/-- The calls of a bus and its workers. -/
def subscribing : Machine EventBusInner Request Call Outcome Tick Note where
  enter
    | .subscribe subscriber => .subscribe subscriber .entering
    | .scheduler op => .scheduler op
  step := Call.step

/-- The permit that a call or worker holds. -/
def Stage.permits : Stage → Nat
  | .entering | .reserving _ | .stopping .. | .unregistering .. | .untracking .. => 0
  | _ => 1

def Thread.permits : Thread Call Outcome → Nat
  | .running (.subscribe _ stage) => stage.permits
  | _ => 0

/-- All live permits. -/
def permits (threads : List (Thread Call Outcome)) : Nat := Machine.total Thread.permits threads

/-! ## A failed spawn -/

/-- A bus for one subscription. The spawn of the first caller fails; before that caller takes back
its registration, a second one gets the permit, and is told that the scheduler is full. -/
def overbooking : List (Move Request Tick) :=
  let first := List.replicate 8 (.step 0 {})
  let second := List.replicate 8 (.step 1 {})
  [.call (.subscribe ⟨"first"⟩), .call (.subscribe ⟨"second"⟩)] ++ first ++
    [.step 0 { spawnError := some "no thread" }] ++ second

theorem subscribe_overbooked :
    (subscribing.reached (Machine.start (.new "local" { DeliverySchedulingConfig.default with
        maxSubscriptions := 1 })) (overbooking.take 11)).map (fun w =>
      (w.shared.core.subscriptions.size, permits w.threads)) = some (1, 0) ∧
    (subscribing.reached (Machine.start (.new "local" { DeliverySchedulingConfig.default with
        maxSubscriptions := 1 })) overbooking).map (fun w => w.threads[1]?) =
      some (some (.returned (.failed (workerSpawnFailed "local" ⟨"second"⟩
        "subscription scheduler registration invariant violated")))) := by
  decide +kernel

end EventBus.Facade
