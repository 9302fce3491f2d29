import EventBus.Spi
import EventBus.Lib.Threads

/-!
# The notification publisher

`NotificationPublisher` hands payloads through a bounded channel to one worker thread, which
publishes them on the bus. A step of the model is one access to something shared: the `sender`
mutex, the weight budget, the channel, a counter, the worker's exit. The worker is part of the
state, and a `work` call lets it take one step. What it gets from outside (the answer of the bus,
panics of the observer and of destructors) and the time a `close` has taken are inputs.

A `PoisonError` is ignored by the source everywhere, so a mutex is not more than its holder.
-/

namespace EventBus.Notification

open Lib

/-! ## The channel -/

inductive TrySendError where
  | full
  | disconnected

/-- `std::sync::mpsc::sync_channel`, which is bounded and first in, first out. The publisher has its
only sender, the worker the receiver. -/
structure SyncChannel (A : Type) where
  capacity : ℕ+
  items : List A
  sender : Bool
  receiver : Bool

def SyncChannel.trySend {A : Type} (channel : SyncChannel A) (a : A) :
    Except TrySendError (SyncChannel A) :=
  if channel.receiver = false then .error .disconnected
  else if channel.capacity ≤ channel.items.length then .error .full
  else .ok { channel with items := channel.items ++ [a] }

/-! ## The weight budget -/

structure WeightBudget where
  limit : ℕ+
  used : Nat

/-- The reservation is its weight; it is charged until it is dropped. -/
def WeightBudget.reserve (budget : WeightBudget) (weight : ℕ+) : Option (WeightBudget × ℕ+) :=
  let next := budget.used + weight
  if next < 2 ^ 64 ∧ next ≤ budget.limit then some ({ budget with used := next }, weight) else none

/-- The `Drop` of a reservation: `none` is the panic "weight reservation released once". -/
def WeightBudget.release (budget : WeightBudget) (weight : ℕ+) : Option WeightBudget :=
  if weight ≤ budget.used then some { budget with used := budget.used - weight } else none

/-! ## Counters -/

inductive Counter where
  | enqueued
  | queueFull
  | queueClosed
  | published
  | publishErrors
  | requestErrors
  | observerPanicked
  | workerPanicked
  | admissionAccepted
  | admissionPartiallyAccepted
  | admissionNoneAccepted
  | admissionNoDestinations
  | admissionOpaqueAccepted
  | admissionDropped
deriving DecidableEq

structure NotificationStats where
  load : Counter → Nat

/-- `u64::MAX`. -/
def maxCount : Nat := 2 ^ 64 - 1

/-- `fetch_update` with `saturating_add(1)`. -/
def NotificationStats.increment (stats : NotificationStats) (counter : Counter) :
    NotificationStats :=
  ⟨fun c => if c = counter then min (stats.load c + 1) maxCount else stats.load c⟩

/-- The counter of `record_admission`. -/
def admissionCounter : AdmissionOutcome → Counter
  | .accepted _ => .admissionAccepted
  | .partiallyAccepted _ => .admissionPartiallyAccepted
  | .noneAccepted _ => .admissionNoneAccepted
  | .noDestinations => .admissionNoDestinations
  | .opaqueAccepted => .admissionOpaqueAccepted
  | .dropped => .admissionDropped

/-! ## State -/

structure QueuedNotification (T : Type) where
  payload : T
  reservation : Option ℕ+

inductive TryPublishError (T : Type) where
  | full (payload : T)
  | closed (payload : T)

/-- The payload that was not accepted. -/
def TryPublishError.payload {T : Type} : TryPublishError T → T
  | .full payload | .closed payload => payload

/-- What `try_publish` returns. -/
abbrev Verdict (T : Type) := Except (TryPublishError T) Unit

/-- The counter each way out of `try_publish_entry` increments. -/
def verdictCounter {T : Type} : Verdict T → Counter
  | .ok _ => .enqueued
  | .error (.full _) => .queueFull
  | .error (.closed _) => .queueClosed

inductive WorkerExit where
  | drained
  | panicked
deriving DecidableEq

/-- What became of a request. -/
inductive NotificationOutcome where
  | published (admission : AdmissionOutcome)
  | publishFailed
  | requestFailed
deriving DecidableEq

def outcomeCounter : NotificationOutcome → Counter
  | .published _ => .published
  | .publishFailed => .publishErrors
  | .requestFailed => .requestErrors

/-- Where the worker is. -/
inductive Worker (T : Type) where
  | receiving
  /-- It has taken an entry and makes the request. -/
  | handling (entry : QueuedNotification T)
  | counting (outcome : NotificationOutcome) (reservation : Option ℕ+)
  | recording (admission : AdmissionOutcome) (reservation : Option ℕ+)
  | observing (reservation : Option ℕ+)
  /-- The observer has panicked. -/
  | blaming (reservation : Option ℕ+)
  | releasing (reservation : Option ℕ+)
  /-- A panic outside the observer: the entry is dropped, then the receiver with all it holds. -/
  | unwinding (reservation : Option ℕ+)
  | abandoning
  | discarding
  /-- The loop has ended: the receiver is dropped, then what else the worker owns. -/
  | cleaning
  | disposing
  | exiting (exit : WorkerExit)
  /-- `exit` is set, and the thread ends. -/
  | leaving (exit : WorkerExit)
  | finished (exit : WorkerExit)

structure NotificationPublisher (T : Type) where
  /-- The holder of the `sender` mutex. -/
  lock : Option Nat
  /-- The mutex still has the sender. -/
  sender : Bool
  channel : SyncChannel (QueuedNotification T)
  worker : Worker T
  /-- `WorkerState::exit`. -/
  exit : Option WorkerExit
  /-- The join handle has not been taken. -/
  handle : Bool
  stats : NotificationStats
  weightBudget : Option WeightBudget

/-- `with_optional_weight_budget`. -/
def NotificationPublisher.new (T : Type) (capacity : ℕ+) (limit : Option ℕ+) :
    NotificationPublisher T where
  lock := none
  sender := true
  channel := ⟨capacity, [], true, true⟩
  worker := .receiving
  exit := none
  handle := true
  stats := ⟨fun _ => 0⟩
  weightBudget := limit.map (⟨·, 0⟩)

namespace NotificationPublisher

variable {T : Type} (s : NotificationPublisher T)

def count (counter : Counter) : NotificationPublisher T :=
  { s with stats := s.stats.increment counter }

/-- A reservation, if there is one, is dropped. -/
def release : Option ℕ+ → Option (NotificationPublisher T)
  | none => some s
  | some weight => do
    let budget ← s.weightBudget
    let budget ← budget.release weight
    return { s with weightBudget := some budget }

end NotificationPublisher

/-! ## Calls -/

inductive ErrorKind where
  | timedOut
  | other
deriving DecidableEq

structure IoError where
  kind : ErrorKind
  message : String
deriving DecidableEq

inductive Request (T : Type) where
  /-- `try_publish` without and `try_publish_weighted` with a weight. -/
  | tryPublish (payload : T) (weight : Option ℕ+)
  /-- `close` or `close_with_timeout`; `inside` is a call from the worker's own thread. -/
  | close (timeout : Option Nat) (inside : Bool)
  | work

/-- Where a call of `try_publish_entry` is. -/
inductive Admission (T : Type) where
  | locking (payload : T) (weight : Option ℕ+)
  | reserving (payload : T) (weight : Option ℕ+)
  | sending (entry : QueuedNotification T)
  | counting (verdict : Verdict T) (reservation : Option ℕ+)
  | unlocking (verdict : Verdict T) (reservation : Option ℕ+)
  /-- The guard is gone, and what is left of the entry is dropped. -/
  | dropping (verdict : Verdict T) (reservation : Option ℕ+)

/-- Where a call of `close_inner` is. -/
inductive Closing where
  | checking (timeout : Option Nat) (inside : Bool)
  | taking (timeout : Option Nat)
  | dropping (timeout : Option Nat) (taken : Bool)
  | awaiting (timeout : Option Nat)
  | joining (timeout : Option Nat) (exit : WorkerExit)
  | joined (exit : WorkerExit)

inductive Call (T : Type) where
  | admission (at' : Admission T)
  | closing (at' : Closing)
  | work

inductive Response (T : Type) where
  | tried (verdict : Verdict T)
  | closed (result : Except IoError Unit)
  | worked

/-- What an observer sees. -/
inductive Note (T : Type) where
  | accepted (payload : T)
  /-- The worker has made a request of the payload. -/
  | handled (payload : T)
  | counted (counter : Counter)
  /-- A `close` has taken the sender. -/
  | taken
deriving DecidableEq

/-- What a step gets from outside. -/
structure Tick where
  /-- `started.elapsed()` of a `close`. -/
  elapsed : Nat
  /-- What the bus does with the request; `none` is a panic. -/
  outcome : Option NotificationOutcome
  observerPanics : Bool
  /-- A destructor of what the worker owns panics. -/
  cleanupPanics : Bool

abbrev Next (T : Type) :=
  NotificationPublisher T × Thread (Call T) (Response T) × List (Note T)

section
variable {T : Type} (s : NotificationPublisher T)

/-- `try_publish_entry` -/
def Admission.step (i : Nat) : Admission T → Option (Next T)
  | .locking payload weight =>
    match s.lock with
    | some _ => some (s, .running (.admission (.locking payload weight)), [])
    | none =>
      some ({ s with lock := some i }, .running (.admission (.reserving payload weight)), [])
  | .reserving payload weight =>
    if s.sender = false then
      some (s, .running (.admission (.counting (.error (.closed payload)) none)), [])
    else
      match weight with
      | none => some (s, .running (.admission (.sending ⟨payload, none⟩)), [])
      | some weight =>
        match s.weightBudget.bind (·.reserve weight) with
        | some (budget, reservation) =>
          some ({ s with weightBudget := some budget },
            .running (.admission (.sending ⟨payload, some reservation⟩)), [])
        | none => some (s, .running (.admission (.counting (.error (.full payload)) none)), [])
  | .sending entry =>
    match s.channel.trySend entry with
    | .ok channel => some ({ s with channel }, .running (.admission (.counting (.ok ()) none)),
        [.accepted entry.payload])
    | .error .full => some (s, .running (.admission
        (.counting (.error (.full entry.payload)) entry.reservation)), [])
    | .error .disconnected => some (s, .running (.admission
        (.counting (.error (.closed entry.payload)) entry.reservation)), [])
  | .counting verdict reservation =>
    some (s.count (verdictCounter verdict), .running (.admission (.unlocking verdict reservation)),
      [.counted (verdictCounter verdict)])
  | .unlocking verdict reservation =>
    some ({ s with lock := none }, .running (.admission (.dropping verdict reservation)), [])
  | .dropping verdict reservation =>
    (s.release reservation).map fun s => (s, .returned (.tried verdict), [])

/-- `remaining_timeout` -/
def remainingTimeout (limit elapsed : Nat) : Except IoError Nat :=
  if elapsed ≤ limit then .ok (limit - elapsed)
  else .error ⟨.timedOut, "notification publisher close timed out"⟩

/-- A wait of `close` that may have run out of time. -/
def Closing.wait (timeout : Option Nat) (stay : Closing) (elapsed : Nat) : Next T :=
  match timeout with
  | none => (s, .running (.closing stay), [])
  | some limit =>
    match remainingTimeout limit elapsed with
    | .ok _ => (s, .running (.closing stay), [])
    | .error e => (s, .returned (.closed (.error e)), [])

/-- The last line of `close_inner`. -/
def closeResult : WorkerExit → Except IoError Unit
  | .drained => .ok ()
  | .panicked => .error ⟨.other, "notification publisher worker panicked"⟩

/-- `close_inner`, with `finish_join`. The thread of the worker catches all panics, so joining it
does not fail. -/
def Closing.step (x : Tick) : Closing → Next T
  | .checking timeout inside =>
    if inside then
      (s, .returned (.closed (.error
        ⟨.other, "notification publisher cannot close from its worker thread"⟩)), [])
    else (s, .running (.closing (.taking timeout)), [])
  | .taking timeout =>
    match s.lock with
    | some _ => (s, .running (.closing (.taking timeout)), [])
    | none =>
      ({ s with sender := false }, .running (.closing (.dropping timeout s.sender)), [.taken])
  | .dropping timeout taken =>
    ({ s with channel := { s.channel with sender := s.channel.sender && !taken } },
      .running (.closing (.awaiting timeout)), [])
  | .awaiting timeout =>
    match s.exit with
    | none => Closing.wait s timeout (.awaiting timeout) x.elapsed
    | some exit => (s, .running (.closing (.joining timeout exit)), [])
  | .joining timeout exit =>
    match s.handle, s.worker with
    | false, _ | true, .finished _ => (s, .running (.closing (.joined exit)), [])
    | true, _ => Closing.wait s timeout (.joining timeout exit) x.elapsed
  | .joined exit => ({ s with handle := false }, .returned (.closed (closeResult exit)), [])

/-- `WorkerCompletionGuard::drop` -/
def NotificationPublisher.complete (exit : WorkerExit) : NotificationPublisher T :=
  match s.exit with
  | some _ => s
  | none =>
    match exit with
    | .drained => { s with exit := some exit }
    | .panicked => { s.count .workerPanicked with exit := some exit }

/-- A reservation is dropped, and the worker goes on. -/
def Worker.drop (reservation : Option ℕ+) (next : Worker T) :
    Option (NotificationPublisher T × List (Note T)) :=
  (s.release reservation).map fun s => ({ s with worker := next }, [])

/-- The thread of the worker. -/
def Worker.step (x : Tick) : Worker T → Option (NotificationPublisher T × List (Note T))
  | .receiving =>
    match s.channel.items with
    | entry :: items =>
      some ({ s with channel := { s.channel with items }, worker := .handling entry }, [])
    | [] => some (if s.channel.sender then s else { s with worker := .cleaning }, [])
  | .handling entry =>
    match x.outcome with
    | none => some ({ s with worker := .unwinding entry.reservation }, [])
    | some outcome =>
      some ({ s with worker := .counting outcome entry.reservation }, [.handled entry.payload])
  | .counting outcome reservation =>
    let next := match outcome with
      | .published admission => .recording admission reservation
      | .publishFailed | .requestFailed => .observing reservation
    some ({ s.count (outcomeCounter outcome) with worker := next },
      [.counted (outcomeCounter outcome)])
  | .recording admission reservation =>
    some ({ s.count (admissionCounter admission) with worker := .observing reservation },
      [.counted (admissionCounter admission)])
  | .observing reservation =>
    some ({ s with
      worker := if x.observerPanics then .blaming reservation else .releasing reservation }, [])
  | .blaming reservation =>
    some ({ s.count .observerPanicked with worker := .releasing reservation },
      [.counted .observerPanicked])
  | .releasing reservation => Worker.drop s reservation .receiving
  | .unwinding reservation => Worker.drop s reservation .abandoning
  | .abandoning =>
    some ({ s with channel := { s.channel with receiver := false }, worker := .discarding }, [])
  | .discarding =>
    match s.channel.items with
    | entry :: items =>
      Worker.drop { s with channel := { s.channel with items } } entry.reservation .discarding
    | [] => some ({ s with worker := .exiting .panicked }, [])
  | .cleaning =>
    some ({ s with channel := { s.channel with receiver := false }, worker := .disposing }, [])
  | .disposing =>
    some ({ s with worker := .exiting (if x.cleanupPanics then .panicked else .drained) }, [])
  | .exiting exit =>
    some ({ s.complete exit with worker := .leaving exit },
      if s.exit = none ∧ exit = .panicked then [.counted .workerPanicked] else [])
  | .leaving exit => some ({ s with worker := .finished exit }, [])
  | .finished _ => some (s, [])

end

section
variable (T : Type)

def Call.enter : Request T → Call T
  | .tryPublish payload weight => .admission (.locking payload weight)
  | .close timeout inside => .closing (.checking timeout inside)
  | .work => .work

/-- The publisher with all its callers. -/
def publisher :
    Machine (NotificationPublisher T) (Request T) (Call T) (Response T) Tick (Note T) where
  enter := Call.enter T
  step s i c x :=
    match c with
    | .admission a => a.step s i
    | .closing c => some (c.step s x)
    | .work => (s.worker.step s x).map fun (s, notes) => (s, .returned .worked, notes)

end

end EventBus.Notification
