import EventBus.Spi
import EventBus.Lib.Map
import EventBus.Lib.Trace
import Mathlib.Data.List.Sort

/-!
# The queue of one local subscription

`LocalQueueState` (`local_queue_state.rs`) keeps pending events in one FIFO lane per ordering key.
Which lane may be received from next is kept beside the lanes: `readyLanes` is a round robin of
lanes whose head is due, `delayedLanes` a heap of lanes whose head has a deadline. Neither is
updated in place. An entry carries the generation (`version`) of the lane it was made for and is
ignored once the lane has moved on; a stale heap entry is dropped when it surfaces, or by a
compaction when there are too many of them.

An `Instant` is a `Nat`. `none` stands for a panic: an underflow of one of the counters, or an
`expect` that fails. The heap is the list of its entries in the order in which they are popped.
-/

namespace EventBus.Local

open Lib

/-- `u64::wrapping_add(1)`. -/
def wrappingSucc (n : Nat) : Nat := (n + 1) % 2 ^ 64

/-- `n - 1` on `usize`: an underflow panics. -/
def checkedPred : Nat → Option Nat
  | 0 => none
  | n + 1 => some n

/-! ## Events -/

/-- The key of a lane; `none` is the lane of the events without an ordering key. -/
abbrev QueueKey := Option OrderingKey

/-- A queued event (`local_event.rs`). -/
structure LocalEvent where
  topic : TopicAddress
  id : EventId
  timestamp : Nat
  headers : Headers
  orderingKey : QueueKey
  weightBytes : Nat
  payload : NativePayload
  notBefore : Option Nat
deriving DecidableEq

/-- `LocalEvent::transport` at the time `now`. `none` if the deadline does not fit an `Instant`,
whose last value is `maxInstant`. An encoded payload was rejected before. -/
def LocalEvent.transport (maxInstant now : Nat) (topic : TopicAddress) (message : OutboundMessage)
    (payload : NativePayload) : Option LocalEvent :=
  let event (notBefore : Option Nat) : LocalEvent :=
    { topic, id := message.id, timestamp := message.timestamp, headers := message.headers,
      orderingKey := message.orderingKey,
      weightBytes := message.nativePayloadWeightBytes.elim 0 (·.val), payload, notBefore }
  match message.delay with
  | none => some (event none)
  | some delay => if now + delay ≤ maxInstant then some (event (some (now + delay))) else none

/-- The event may be received at `now`. -/
def LocalEvent.Due (now : Nat) (event : LocalEvent) : Prop :=
  ∀ deadline, event.notBefore = some deadline → deadline ≤ now

instance (now : Nat) (event : LocalEvent) : Decidable (event.Due now) :=
  match h : event.notBefore with
  | none => .isTrue fun d hd => by rw [h] at hd; cases hd
  | some d => decidable_of_iff (d ≤ now)
      ⟨fun hd x hx => by rw [h] at hx; cases hx; exact hd, fun hd => hd d h⟩

/-- A received event that is not settled yet. -/
structure LocalInFlight where
  event : LocalEvent
  settlement : LocalSettlementHandle
deriving DecidableEq

/-! ## State -/

/-- The pending events of one key (`queue_lane.rs`). -/
structure QueueLane where
  events : List LocalEvent
  /-- The generation of the current head. -/
  version : Nat
  /-- The generation that the heap holds a live entry for. -/
  delayedVersion : Option Nat
deriving DecidableEq

/-- `QueueLane::default`. -/
def QueueLane.default : QueueLane := ⟨[], 0, none⟩

/-- The deadline of the lane's head, if it has one. -/
def QueueLane.headDeadline (lane : QueueLane) : Option Nat :=
  lane.events.head?.bind LocalEvent.notBefore

/-- A heap entry (`delayed_queue_head.rs`). -/
structure DelayedQueueHead where
  deadline : Nat
  sequence : Nat
  key : QueueKey
  version : Nat
deriving DecidableEq

/-- The heap's order: by deadline, then by sequence; key and version do not take part. -/
def DelayedQueueHead.le (a b : DelayedQueueHead) : Prop :=
  a.deadline < b.deadline ∨ a.deadline = b.deadline ∧ a.sequence ≤ b.sequence

instance : DecidableRel DelayedQueueHead.le := fun _ _ => inferInstanceAs (Decidable (_ ∨ _ ∧ _))

structure LocalQueueState where
  lanes : Map QueueKey QueueLane
  pendingCount : Nat
  readyLanes : List (QueueKey × Nat)
  delayedLanes : List DelayedQueueHead
  nextDelaySequence : Nat
  delayedLiveCount : Nat
  delayedStaleCount : Nat
  inFlight : Map String LocalInFlight
  closed : Bool
  nextDeliveryToken : Nat

/-- The order in which an iteration visits the keys of a hash map: each key once, and otherwise
unspecified. -/
structure IterOrder where
  keys : Finset QueueKey → List QueueKey
  nodup : ∀ s, (keys s).Nodup
  mem_keys : ∀ s k, k ∈ keys s ↔ k ∈ s

noncomputable def someOrder : IterOrder :=
  ⟨Finset.toList, Finset.nodup_toList, fun _ _ => Finset.mem_toList⟩

namespace LocalQueueState

/-- `LocalQueueState::default`. -/
def default : LocalQueueState where
  lanes := ∅
  pendingCount := 0
  readyLanes := []
  delayedLanes := []
  nextDelaySequence := 0
  delayedLiveCount := 0
  delayedStaleCount := 0
  inFlight := ∅
  closed := false
  nextDeliveryToken := 0

/-- The pending events of a key, in the order of its lane. -/
def events (s : LocalQueueState) (k : QueueKey) : List LocalEvent :=
  (s.lanes.lookup k).elim [] QueueLane.events

def isPendingEmpty (s : LocalQueueState) : Bool := s.pendingCount == 0

/-! ## The heap of delayed heads -/

/-- The entry is the one its lane knows of. -/
def isLive (lanes : Map QueueKey QueueLane) (head : DelayedQueueHead) : Bool :=
  match lanes.lookup head.key with
  | none => false
  | some lane => lane.version == head.version && lane.delayedVersion == some head.version

/-- `BinaryHeap::push(Reverse(head))`. -/
def pushHead (head : DelayedQueueHead) (heap : List DelayedQueueHead) : List DelayedQueueHead :=
  heap.orderedInsert DelayedQueueHead.le head

/-- The loop of `discard_stale_delayed_heads`, over the heap. -/
def discardLoop : List DelayedQueueHead → LocalQueueState → Option LocalQueueState
  | [], s => some { s with delayedLanes := [] }
  | head :: heap, s =>
    if isLive s.lanes head then some { s with delayedLanes := head :: heap }
    else
      match checkedPred s.delayedStaleCount with
      | none => none
      | some stale => discardLoop heap { s with delayedStaleCount := stale }

def discardStaleDelayedHeads (s : LocalQueueState) : Option LocalQueueState :=
  discardLoop s.delayedLanes s

/-- The loop of `compact_delayed_heap_if_needed`, over the keys still to be visited; the
accumulator is the sequence counter, the new heap and the number of its entries. -/
def compactLoop (lanes : Map QueueKey QueueLane) :
    List QueueKey → Nat × List DelayedQueueHead × Nat → Nat × List DelayedQueueHead × Nat
  | [], acc => acc
  | key :: keys, (sequence, heap, live) =>
    match lanes.lookup key with
    | none => compactLoop lanes keys (sequence, heap, live)
    | some lane =>
      match lane.delayedVersion, lane.headDeadline with
      | some version, some deadline =>
        let sequence := wrappingSucc sequence
        compactLoop lanes keys
          (sequence, pushHead { deadline, sequence, key, version } heap, live + 1)
      | _, _ => compactLoop lanes keys (sequence, heap, live)

def compactDelayedHeapIfNeeded (iter : IterOrder) (s : LocalQueueState) : LocalQueueState :=
  if s.delayedStaleCount ≤ max s.delayedLiveCount 8 then s
  else
    let (sequence, heap, live) :=
      compactLoop s.lanes (iter.keys s.lanes.keys) (s.nextDelaySequence, [], 0)
    { s with nextDelaySequence := sequence, delayedLanes := heap, delayedLiveCount := live,
             delayedStaleCount := 0 }

/-! ## Scheduling -/

/-- The first part of `schedule_lane_head_at`: the lane starts a new generation, and the live
heap entry it may have becomes stale. -/
def renewLane (s : LocalQueueState) (key : QueueKey) (lane : QueueLane) : Option LocalQueueState :=
  let lane' := { lane with version := wrappingSucc lane.version, delayedVersion := none }
  let s := { s with lanes := s.lanes.insert key lane' }
  if lane.delayedVersion.isSome then
    match checkedPred s.delayedLiveCount with
    | none => none
    | some live => some { s with delayedLiveCount := live,
                                 delayedStaleCount := s.delayedStaleCount + 1 }
  else some s

/-- The second part: the lane's head is registered as ready or as delayed. -/
def registerHead (now : Nat) (s : LocalQueueState) (key : QueueKey) (lane : QueueLane) :
    LocalQueueState :=
  match lane.headDeadline with
  | none => { s with readyLanes := s.readyLanes ++ [(key, lane.version)] }
  | some deadline =>
    if deadline ≤ now then { s with readyLanes := s.readyLanes ++ [(key, lane.version)] }
    else
      let sequence := wrappingSucc s.nextDelaySequence
      { s with
        nextDelaySequence := sequence
        delayedLanes := pushHead { deadline, sequence, key, version := lane.version }
          s.delayedLanes
        lanes := s.lanes.insert key { lane with delayedVersion := some lane.version }
        delayedLiveCount := s.delayedLiveCount + 1 }

/-- `schedule_lane_head_at`. -/
def scheduleLaneHeadAt (iter : IterOrder) (now : Nat) (s : LocalQueueState) (key : QueueKey) :
    Option LocalQueueState :=
  match s.lanes.lookup key with
  | none => some s
  | some lane =>
    match renewLane s key lane with
    | none => none
    | some s =>
      let lane := { lane with version := wrappingSucc lane.version, delayedVersion := none }
      some (compactDelayedHeapIfNeeded iter (registerHead now s key lane))

/-- `enqueue_back_at`. -/
def enqueueBackAt (iter : IterOrder) (now : Nat) (s : LocalQueueState) (event : LocalEvent) :
    Option LocalQueueState :=
  let key := event.orderingKey
  let lane := (s.lanes.lookup key).getD .default
  let s := { s with
    lanes := s.lanes.insert key { lane with events := lane.events ++ [event] }
    pendingCount := s.pendingCount + 1 }
  if lane.events.isEmpty then scheduleLaneHeadAt iter now s key else some s

/-- `enqueue_front_at`. -/
def enqueueFrontAt (iter : IterOrder) (now : Nat) (s : LocalQueueState) (event : LocalEvent) :
    Option LocalQueueState :=
  let key := event.orderingKey
  let lane := (s.lanes.lookup key).getD .default
  let s := { s with
    lanes := s.lanes.insert key { lane with events := event :: lane.events }
    pendingCount := s.pendingCount + 1 }
  scheduleLaneHeadAt iter now s key

/-! ## Receiving -/

/-- One round of `promote_due_heads` on the popped entry `head`. -/
def promoteHead (s : LocalQueueState) (head : DelayedQueueHead) : Option LocalQueueState :=
  match s.lanes.lookup head.key with
  | none => (checkedPred s.delayedStaleCount).map fun stale => { s with delayedStaleCount := stale }
  | some lane =>
    if lane.version = head.version ∧ lane.delayedVersion = some head.version then
      (checkedPred s.delayedLiveCount).map fun live =>
        { s with
          lanes := s.lanes.insert head.key { lane with delayedVersion := none }
          delayedLiveCount := live
          readyLanes := s.readyLanes ++ [(head.key, head.version)] }
    else (checkedPred s.delayedStaleCount).map fun stale => { s with delayedStaleCount := stale }

/-- The loop of `promote_due_heads`. Every round pops a heap entry, so the heap's length is
enough fuel. -/
def promoteLoop (now : Nat) : Nat → LocalQueueState → Option LocalQueueState
  | 0, s => some s
  | fuel + 1, s =>
    match s.delayedLanes with
    | [] => some s
    | head :: heap =>
      if head.deadline ≤ now then
        (promoteHead { s with delayedLanes := heap } head).bind fun s =>
        (discardStaleDelayedHeads s).bind fun s => promoteLoop now fuel s
      else some s

def promoteDueHeads (now : Nat) (s : LocalQueueState) : Option LocalQueueState :=
  (discardStaleDelayedHeads s).bind fun s => promoteLoop now s.delayedLanes.length s

/-- The loop of `pop_ready`, over the ready entries. -/
def popLoop (iter : IterOrder) (now : Nat) :
    List (QueueKey × Nat) → LocalQueueState → Option (Option LocalEvent × LocalQueueState)
  | [], s => some (none, { s with readyLanes := [] })
  | (key, version) :: ready, s =>
    match s.lanes.lookup key with
    | none => popLoop iter now ready s
    | some lane =>
      if lane.version ≠ version then popLoop iter now ready s
      else
        match lane.events with
        | [] => popLoop iter now ready s
        | event :: events =>
          if ¬ event.Due now then popLoop iter now ready s
          else
            (checkedPred s.pendingCount).bind fun pending =>
            let s := { s with readyLanes := ready, pendingCount := pending }
            if events.isEmpty then some (some event, { s with lanes := s.lanes.erase key })
            else
              (scheduleLaneHeadAt iter now
                { s with lanes := s.lanes.insert key { lane with events } } key).map
                fun s => (some event, s)

def popReady (iter : IterOrder) (now : Nat) (s : LocalQueueState) :
    Option (Option LocalEvent × LocalQueueState) :=
  (promoteDueHeads now s).bind fun s => popLoop iter now s.readyLanes s

/-- The subtraction is `saturating_duration_since`. -/
def nextReadyDelay (now : Nat) (s : LocalQueueState) : Option (Option Nat × LocalQueueState) :=
  (discardStaleDelayedHeads s).map fun s =>
    (s.delayedLanes.head?.map fun head => head.deadline - now, s)

/-- All events of the lanes. -/
def pendingEvents (s : LocalQueueState) : Multiset LocalEvent :=
  s.lanes.total fun lane => (lane.events : Multiset LocalEvent)

/-- All events in flight. -/
def inFlightEvents (s : LocalQueueState) : Multiset LocalEvent :=
  s.inFlight.total fun flight => {flight.event}

/-- The discarded events come in the order of two hash map iterations, so only their multiset is
determined. -/
def clearPending (s : LocalQueueState) : Multiset LocalEvent × LocalQueueState :=
  (s.pendingEvents + s.inFlightEvents,
    { s with lanes := ∅, inFlight := ∅, readyLanes := [], delayedLanes := [], pendingCount := 0,
             delayedLiveCount := 0, delayedStaleCount := 0 })

end LocalQueueState

end EventBus.Local
