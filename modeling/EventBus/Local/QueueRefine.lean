import EventBus.Local.QueueReceive

/-!
# The queue refines a map of FIFOs

`PlainQueue` is what the queue is for: a FIFO of events for each key, and a clock. `PlainStep` says
what each call may answer. It knows no generation, heap or ready list: `pop_ready` answers the head
of some key's FIFO that is due, or nothing if no head is due. `trace_refines_plain` is the
refinement: with a clock that does not run backwards, every run of the queue is one of the plain
queue, without a panic, whatever order the hash map is iterated in.

The one trace of the bookkeeping a caller can see is the answer of `next_ready_delay` without a
promotion right before it: a head that has come due since the last promotion is answered as a
delay of 0. `PlainQueue.promoted` is the time of that promotion.
-/

namespace EventBus.Local

open Lib

/-! ## Calls -/

/-- The calls of a queue. A call that may compact the heap comes with the order in which the
lanes are visited. -/
inductive QueueOp where
  | enqueueBack (event : LocalEvent) (now : Nat) (iter : IterOrder)
  | enqueueFront (event : LocalEvent) (now : Nat) (iter : IterOrder)
  | popReady (now : Nat) (iter : IterOrder)
  | promoteDueHeads (now : Nat)
  | nextReadyDelay (now : Nat)
  | clearPending

inductive QueueResponse where
  | done
  | event (event : Option LocalEvent)
  | delay (delay : Option Nat)
  | discarded (events : Multiset LocalEvent)

namespace QueueOp

def now : QueueOp → Option Nat
  | enqueueBack _ now _ | enqueueFront _ now _ | popReady now _ => some now
  | promoteDueHeads now | nextReadyDelay now => some now
  | clearPending => none

/-- The event a call puts into the queue. -/
def added : QueueOp → Multiset LocalEvent
  | enqueueBack event _ _ | enqueueFront event _ _ => {event}
  | _ => 0

end QueueOp

/-- The events a call takes out of the queue. -/
def QueueResponse.removed : QueueResponse → Multiset LocalEvent
  | .event (some e) => {e}
  | .discarded events => events
  | _ => 0

namespace LocalQueueState

def step (s : LocalQueueState) : QueueOp → Option (QueueResponse × LocalQueueState)
  | .enqueueBack event now iter => (enqueueBackAt iter now s event).map (.done, ·)
  | .enqueueFront event now iter => (enqueueFrontAt iter now s event).map (.done, ·)
  | .popReady now iter => (popReady iter now s).map fun r => (.event r.1, r.2)
  | .promoteDueHeads now => (promoteDueHeads now s).map (.done, ·)
  | .nextReadyDelay now => (nextReadyDelay now s).map fun r => (.delay r.1, r.2)
  | .clearPending => some (.discarded (clearPending s).1, (clearPending s).2)

end LocalQueueState

/-! ## The plain queue -/

structure PlainQueue where
  queue : QueueKey → List LocalEvent
  /-- The last time at which due heads were promoted. -/
  promoted : Nat
  /-- The time of the last call. -/
  clock : Nat

namespace PlainQueue

def empty : PlainQueue := ⟨fun _ => [], 0, 0⟩

/-- Other events for one key. -/
def set (m : PlainQueue) (key : QueueKey) (events : List LocalEvent) : QueueKey → List LocalEvent :=
  fun k => if k = key then events else m.queue k

/-- `x` is the deadline of the head of some key. -/
def HeadDeadline (m : PlainQueue) (x : Nat) : Prop :=
  ∃ k e, (m.queue k).head? = some e ∧ e.notBefore = some x

/-- The remaining delays of the heads that are not due at `now`. -/
def waits (m : PlainQueue) (now : Nat) : Set Nat :=
  { d | ∃ x, m.HeadDeadline x ∧ now < x ∧ d = x - now }

/-- `r` is the least remaining delay, or nothing if every head is due. -/
def LeastWait (m : PlainQueue) (now : Nat) : Option Nat → Prop
  | none => m.waits now = ∅
  | some d => IsLeast (m.waits now) d

/-- A head has come due since the last promotion. -/
def Overdue (m : PlainQueue) (now : Nat) : Prop :=
  ∃ x, m.HeadDeadline x ∧ m.promoted < x ∧ x ≤ now

end PlainQueue

open PlainQueue in
/-- What a call may answer, and the plain queue after it. -/
inductive PlainStep (m : PlainQueue) : QueueOp → QueueResponse → PlainQueue → Prop where
  | enqueueBack {e now iter} : PlainStep m (.enqueueBack e now iter) .done
      ⟨m.set e.orderingKey (m.queue e.orderingKey ++ [e]), m.promoted, now⟩
  | enqueueFront {e now iter} : PlainStep m (.enqueueFront e now iter) .done
      ⟨m.set e.orderingKey (e :: m.queue e.orderingKey), m.promoted, now⟩
  | popSome {e events now iter} : e.Due now → m.queue e.orderingKey = e :: events →
      PlainStep m (.popReady now iter) (.event (some e)) ⟨m.set e.orderingKey events, now, now⟩
  | popNone {now iter} : (∀ k e, (m.queue k).head? = some e → ¬ e.Due now) →
      PlainStep m (.popReady now iter) (.event none) ⟨m.queue, now, now⟩
  | promote {now} : PlainStep m (.promoteDueHeads now) .done ⟨m.queue, now, now⟩
  | delay {now r} : m.LeastWait now r ∨ r = some 0 ∧ m.Overdue now →
      PlainStep m (.nextReadyDelay now) (.delay r) ⟨m.queue, m.promoted, now⟩
  | clear {events : Multiset LocalEvent} :
      (∀ k, events.filter (fun e => e.orderingKey = k) = (m.queue k : Multiset LocalEvent)) →
      PlainStep m .clearPending (.discarded events) ⟨fun _ => [], m.promoted, m.clock⟩

variable {m : PlainQueue} {op : QueueOp}

/-- No event of a key gets lost or appears twice in a step. -/
theorem PlainStep.conserves {m' : PlainQueue} {r : QueueResponse} (h : PlainStep m op r m')
    (k : QueueKey) :
    op.added.filter (fun e => e.orderingKey = k) + (m.queue k : Multiset LocalEvent) =
      r.removed.filter (fun e => e.orderingKey = k) + m'.queue k := by
  cases h with
  | @enqueueBack e | @enqueueFront e =>
    simp only [QueueOp.added, QueueResponse.removed, PlainQueue.set]
    by_cases hk : e.orderingKey = k
    · subst hk
      simp [Multiset.filter_singleton, ← Multiset.cons_coe, ← Multiset.coe_add, add_comm]
    · simp [Multiset.filter_singleton, hk, Ne.symm hk]
  | @popSome e events _ _ _ hev =>
    simp only [QueueOp.added, QueueResponse.removed, PlainQueue.set]
    by_cases hk : e.orderingKey = k
    · subst hk
      simp [Multiset.filter_singleton, hev, ← Multiset.cons_coe]
    · simp [Multiset.filter_singleton, hk, Ne.symm hk]
  | popNone | promote | delay => rfl
  | clear hev =>
    simp [QueueOp.added, QueueResponse.removed, hev k]

variable {ops : List QueueOp}

/-- The events of a key that a plain run takes in are those it gives out and those it keeps. -/
theorem PlainStep.conserves_run {n : PlainQueue} {rs : List QueueResponse}
    (h : Follows PlainStep m ops rs n) (k : QueueKey) :
    (ops.map QueueOp.added).sum.filter (fun e => e.orderingKey = k) +
        (m.queue k : Multiset LocalEvent) =
      (rs.map QueueResponse.removed).sum.filter (fun e => e.orderingKey = k) + n.queue k := by
  induction h with
  | nil m => rfl
  | @cons m m' n op ops r rs ha _ ih =>
    have hstep := ha.conserves k
    simp only [List.map_cons, List.sum_cons, Multiset.filter_add]
    rw [add_right_comm, hstep, add_assoc, add_assoc, ← ih,
      add_comm (m'.queue k : Multiset LocalEvent)]

/-! ## The refinement -/

namespace LocalQueueState

/-- The queue and the plain queue before the calls `ops`. -/
structure Refines (ops : List QueueOp) (s : LocalQueueState) (m : PlainQueue) : Prop where
  sound : Sound s
  events : ∀ k, s.events k = m.queue k
  inFlight : s.inFlight = ∅
  timed : Timed m.promoted m.clock s
  clock : (m.clock :: ops.filterMap QueueOp.now).Pairwise (· ≤ ·)
  unwrapped : Reaches step Unwrapped s ops

/-- The clock after a call at `now`. -/
theorem Refines.tick {s : LocalQueueState} (h : Refines (op :: ops) s m) {now : Nat}
    (hn : op.now = some now) :
    m.clock ≤ now ∧ (now :: ops.filterMap QueueOp.now).Pairwise (· ≤ ·) := by
  have hc := h.clock
  rw [List.filterMap_cons_some hn] at hc
  exact ⟨(List.pairwise_cons.1 hc).1 now List.mem_cons_self, (List.pairwise_cons.1 hc).2⟩

section
variable {p : Nat} {s s' : LocalQueueState} {now : Nat}

/-- A call at `now` that changed the events of one key. -/
theorem Refines.changed {key : QueueKey} {events : List LocalEvent} (h : Refines (op :: ops) s m)
    (hn : op.now = some now) (hc : Changed now key events s s') (ht : Timed p now s')
    (hw : Reaches step Unwrapped s' ops) : Refines ops s' ⟨m.set key events, p, now⟩ where
  sound := hc.sound
  events k := by
    rw [hc.events k, h.events k]
    rfl
  inFlight := hc.inFlight.trans h.inFlight
  timed := ht
  clock := (h.tick hn).2
  unwrapped := hw

/-- A call at `now` that changed the bookkeeping only. -/
theorem Refines.same (h : Refines (op :: ops) s m) (hn : op.now = some now) (hs : Sound s')
    (hsame : Same s s') (ht : Timed p now s') (hw : Reaches step Unwrapped s' ops) :
    Refines ops s' ⟨m.queue, p, now⟩ where
  sound := hs
  events k := (hsame.events k).trans (h.events k)
  inFlight := hsame.inFlight.trans h.inFlight
  timed := ht
  clock := (h.tick hn).2
  unwrapped := hw

theorem Refines.popReady {iter : IterOrder} (h : Refines (.popReady now iter :: ops) s m) :
    ∃ r s' m', step s (.popReady now iter) = some (r, s') ∧
      PlainStep m (.popReady now iter) r m' ∧ Refines ops s' m' := by
  obtain ⟨r, s₁, s', heq, hp, hpop⟩ := popReady_spec iter now h.sound
  have hstep : step s (.popReady now iter) = some (.event r, s') := by
    rw [step, heq, Option.map_some]
  obtain ⟨hw, hws⟩ := h.unwrapped _ _ hstep
  have ht₁ := hp.timed h.timed (h.tick rfl).1
  have hev : ∀ k, s₁.events k = m.queue k := fun k => (hp.same.events k).trans (h.events k)
  cases hpop with
  | idle hs' hsame ht =>
    obtain ⟨ht', hnone⟩ := ht le_rfl ht₁
    refine ⟨_, s', _, hstep, .popNone fun k e he => hnone k e ?_,
      h.same rfl hs' (hp.same.trans hsame) ht' hws⟩
    rw [hev]
    exact he
  | taken hdue hhead hc =>
    have hc := hc hw
    refine ⟨_, s', _, hstep, .popSome hdue ((hev _).symm.trans hhead), h.changed rfl
      ⟨hc.toPut.of_same hp.same, hc.formed, fun {p t} ht h => ?_⟩ (hc.timed le_rfl ht₁) hws⟩
    exact ⟨h.le.trans ht, (hc.timed le_rfl (hp.timed h ht)).scheduled, fun g hg =>
      lt_of_le_of_lt (h.le.trans ht) ((hc.timed le_rfl (hp.timed h ht)).later g hg)⟩

/-- A head that is not due is in the heap. -/
theorem waiting_in_heap (hs : Sound s) (hev : ∀ k, s.events k = m.queue k) {t : Nat}
    (ht : Timed p t s) (hle : t ≤ now) {x : Nat} (hx : m.HeadDeadline x) (hlt : now < x) :
    ∃ h ∈ s.delayedLanes, h.deadline = x := by
  obtain ⟨k, e, he, hd⟩ := hx
  rw [← hev] at he
  cases hl : s.lanes.lookup k with
  | none => rw [events, hl] at he; cases he
  | some lane =>
    rw [events_of_lookup hl] at he
    have hhead : lane.headDeadline = some x := by
      rw [QueueLane.headDeadline, he, Option.bind_some, hd]
    cases hv : lane.delayedVersion with
    | none =>
      have := (ht.scheduled k).due hl hv hhead
      omega
    | some v =>
      obtain ⟨h, hm, -, hx'⟩ := (hs.balanced.head k).deadline hl hv
      rw [hhead] at hx'
      exact ⟨h, hm, (Option.some.inj hx').symm⟩

/-- A live heap entry has the deadline of a head. -/
theorem live_is_head (hs : Sound s) (hev : ∀ k, s.events k = m.queue k) {h : DelayedQueueHead}
    (hm : h ∈ s.delayedLanes) (hlive : isLive s.lanes h = true) : m.HeadDeadline h.deadline := by
  obtain ⟨lane, hl, -, hd⟩ := isLive_iff.1 hlive
  have hx := hs.headDeadline hl hd hm rfl
  obtain ⟨e, he, hne⟩ := Option.bind_eq_some_iff.1 hx
  refine ⟨h.key, e, ?_, hne⟩
  rw [← hev, events_of_lookup hl, he]

/-- The answer of `next_ready_delay`, read off a heap with a live head. -/
theorem leastWait_or_overdue (hs : Sound s) (hev : ∀ k, s.events k = m.queue k) {t : Nat}
    (ht : Timed m.promoted t s) (hle : t ≤ now)
    (hhead : ∀ h, s.delayedLanes.head? = some h → isLive s.lanes h = true) {r : Option Nat}
    (hr : r = s.delayedLanes.head?.map fun head => head.deadline - now) :
    m.LeastWait now r ∨ r = some 0 ∧ m.Overdue now := by
  cases hheap : s.delayedLanes with
  | nil =>
    rw [hheap] at hr
    subst hr
    refine .inl (Set.eq_empty_iff_forall_notMem.2 fun d hd => ?_)
    obtain ⟨x, hx, hlt, -⟩ := hd
    obtain ⟨h, hm, -⟩ := waiting_in_heap hs hev ht hle hx hlt
    rw [hheap] at hm
    cases hm
  | cons h heap =>
    have hm : h ∈ s.delayedLanes := hheap ▸ List.mem_cons_self
    have hx := live_is_head hs hev hm (hhead h (by rw [hheap]; rfl))
    rw [hheap] at hr
    subst hr
    by_cases hlt : now < h.deadline
    · refine .inl ⟨⟨h.deadline, hx, hlt, rfl⟩, fun d hd => ?_⟩
      obtain ⟨x, hx', hlt', rfl⟩ := hd
      obtain ⟨g, hg, rfl⟩ := waiting_in_heap hs hev ht hle hx' hlt'
      have hsorted := hs.formed.heap.sorted
      rw [hheap] at hg hsorted
      obtain rfl | hg := List.mem_cons.1 hg
      · exact le_rfl
      · exact Nat.sub_le_sub_right ((List.pairwise_cons.1 hsorted).1 g hg) now
    · refine .inr ⟨?_, h.deadline, hx, ht.later h hm, not_lt.1 hlt⟩
      exact congrArg some (Nat.sub_eq_zero_of_le (not_lt.1 hlt))

/-- One call of the queue is one step of the plain queue. -/
theorem Refines.step (h : Refines (op :: ops) s m) :
    ∃ r s' m', LocalQueueState.step s op = some (r, s') ∧ PlainStep m op r m' ∧
    Refines ops s' m' := by
  cases op with
  | enqueueBack e now iter =>
    obtain ⟨s', heq, hc⟩ := enqueueBackAt_spec iter now h.sound e
    have hstep : LocalQueueState.step s (.enqueueBack e now iter) = some (.done, s') := by
      rw [LocalQueueState.step, heq, Option.map_some]
    obtain ⟨hw, hws⟩ := h.unwrapped _ _ hstep
    have hc := hc hw
    rw [h.events] at hc
    exact ⟨_, s', _, hstep, .enqueueBack, h.changed rfl hc (hc.timed (h.tick rfl).1 h.timed) hws⟩
  | enqueueFront e now iter =>
    obtain ⟨s', heq, hc⟩ := enqueueFrontAt_spec iter now h.sound e
    have hstep : LocalQueueState.step s (.enqueueFront e now iter) = some (.done, s') := by
      rw [LocalQueueState.step, heq, Option.map_some]
    obtain ⟨hw, hws⟩ := h.unwrapped _ _ hstep
    have hc := hc hw
    rw [h.events] at hc
    exact ⟨_, s', _, hstep, .enqueueFront, h.changed rfl hc (hc.timed (h.tick rfl).1 h.timed) hws⟩
  | popReady now iter => exact h.popReady
  | promoteDueHeads now =>
    obtain ⟨s', heq, hp⟩ := promoteDueHeads_spec now h.sound
    have hstep : LocalQueueState.step s (.promoteDueHeads now) = some (.done, s') := by
      rw [LocalQueueState.step, heq, Option.map_some]
    exact ⟨_, s', _, hstep, .promote, h.same rfl hp.sound hp.same
      (hp.timed h.timed (h.tick rfl).1) (h.unwrapped _ _ hstep).2⟩
  | nextReadyDelay now =>
    obtain ⟨r, s', heq, hs', hsame, ht, hr, hhead⟩ := nextReadyDelay_spec now h.sound
    have hstep : LocalQueueState.step s (.nextReadyDelay now) = some (.delay r, s') := by
      rw [LocalQueueState.step, heq, Option.map_some]
    have hle := (h.tick rfl).1
    have ht' := ht h.timed
    have hev : ∀ k, s'.events k = m.queue k := fun k => (hsame.events k).trans (h.events k)
    exact ⟨_, s', _, hstep, .delay (leastWait_or_overdue hs' hev ht' hle hhead hr),
      h.same rfl hs' hsame ⟨ht'.le.trans hle, fun k => (ht'.scheduled k).mono hle, ht'.later⟩
        (h.unwrapped _ _ hstep).2⟩
  | clearPending =>
    have hempty := clearPending_empty s
    have hstep : LocalQueueState.step s .clearPending =
        some (.discarded (clearPending s).1, (clearPending s).2) := rfl
    refine ⟨_, _, _, hstep, .clear fun k => ?_, hempty.sound, fun k => ?_, rfl,
      hempty.timed h.timed.le, h.clock, (h.unwrapped _ _ hstep).2⟩
    · have hflight : s.inFlightEvents = 0 := by
        rw [inFlightEvents, h.inFlight]
        rfl
      rw [clearPending, hflight, add_zero, filter_pendingEvents h.sound.formed.lanes.keyed,
        h.events]
    · exact congrArg (Option.elim · [] QueueLane.events) (hempty.lookup k)

end

/-- **Refinement.** Every run of the queue with a clock that does not run backwards and without a
wrapped generation counter is a run of the plain queue: no call panics, the answers are those of a
map of FIFOs, and the lanes hold what the FIFOs hold. No event of a key is lost or handed out
twice. At the end of the run, and so at any point of a run, promoting and then asking for the
next delay answers the least remaining delay of the heads that are not due. -/
theorem trace_refines_plain (ops : List QueueOp)
    (hclock : (ops.filterMap QueueOp.now).Pairwise (· ≤ ·))
    (hwrap : Reaches step Unwrapped default ops) :
    ∃ rs s m, trace step default ops = some (rs, s) ∧ Follows PlainStep .empty ops rs m ∧
      (∀ k, s.events k = m.queue k) ∧
      (∀ k, (ops.map QueueOp.added).sum.filter (fun e => e.orderingKey = k) =
        (rs.map QueueResponse.removed).sum.filter (fun e => e.orderingKey = k) + m.queue k) ∧
      ∀ now, m.clock ≤ now → ∃ s₁ r s₂, promoteDueHeads now s = some s₁ ∧
        nextReadyDelay now s₁ = some (r, s₂) ∧ m.LeastWait now r := by
  have h0 : Refines ops default .empty :=
    ⟨default_empty.sound, fun k => rfl, rfl, default_empty.timed le_rfl,
      List.pairwise_cons.2 ⟨fun _ _ => Nat.zero_le _, hclock⟩, hwrap⟩
  obtain ⟨rs, s, m, htrace, hfollows, h⟩ := simulate (fun _ _ _ _ h => h.step) h0
  refine ⟨rs, s, m, htrace, hfollows, h.events, fun k => ?_, fun now hnow => ?_⟩
  · have := PlainStep.conserves_run hfollows k
    rwa [PlainQueue.empty, Multiset.coe_nil, add_zero] at this
  · obtain ⟨s₁, heq₁, hp⟩ := promoteDueHeads_spec now h.sound
    obtain ⟨r, s₂, heq₂, hs₂, hsame, ht, hr, hhead⟩ := nextReadyDelay_spec now hp.sound
    refine ⟨s₁, r, s₂, heq₁, heq₂, ?_⟩
    have hev : ∀ k, s₂.events k = PlainQueue.queue ⟨m.queue, now, now⟩ k := fun k =>
      (hsame.events k).trans ((hp.same.events k).trans (h.events k))
    obtain hleast | ⟨-, x, -, hlt, hle⟩ :=
      leastWait_or_overdue hs₂ hev (ht (hp.timed h.timed hnow)) le_rfl hhead hr
    · exact hleast
    · exact absurd hle (not_le.2 hlt)

instance : DecidablePred Unwrapped := fun s =>
  decidable_of_iff (∀ k ∈ s.lanes.keys, ∀ lane ∈ s.lanes.lookup k, lane.version ≠ 0)
    ⟨fun h k lane hl => h k (Finmap.mem_keys.2 (Map.mem_of_lookup hl)) lane hl,
      fun h k _ lane hl => h k lane hl⟩

/-- An event of the key `key` with the deadline `notBefore`. -/
def keyedEvent (id key : String) (notBefore : Option Nat) : LocalEvent where
  topic := ⟨"orders"⟩
  id := ⟨id⟩
  timestamp := 0
  headers := ∅
  orderingKey := some ⟨key⟩
  weightBytes := 0
  payload := ⟨⟨0⟩, 0⟩
  notBefore := notBefore

/-- A delayed head with a successor, a key whose lane is emptied and created again, a retried
head and a clear. -/
noncomputable def delayedAndRetried : List QueueOp :=
  [.enqueueBack (keyedEvent "a1" "a" (some 250)) 0 someOrder,
    .enqueueBack (keyedEvent "a2" "a" (some 20)) 0 someOrder,
    .enqueueBack (keyedEvent "b1" "b" (some 20)) 0 someOrder,
    .popReady 19 someOrder, .popReady 20 someOrder, .promoteDueHeads 30, .nextReadyDelay 30,
    .enqueueFront (keyedEvent "b1" "b" none) 40 someOrder, .popReady 250 someOrder,
    .enqueueFront (keyedEvent "a1" "a" (some 250)) 250 someOrder, .popReady 250 someOrder,
    .clearPending]

set_option maxRecDepth 16000 in
theorem trace_refines_plain_delayed :
    ∃ rs s m, trace step default delayedAndRetried = some (rs, s) ∧
      Follows PlainStep .empty delayedAndRetried rs m ∧ ∀ k, s.events k = m.queue k := by
  obtain ⟨rs, s, m, ht, hf, he, -⟩ := trace_refines_plain delayedAndRetried (by decide) (by decide)
  exact ⟨rs, s, m, ht, hf, he⟩

set_option maxRecDepth 16000 in
example : (trace step default delayedAndRetried).map (fun t => t.1.filterMap fun
      | .event e => some (e.map fun e => e.id.value)
      | _ => none) = some [none, some "b1", some "b1", some "a1"] := by
  decide

end LocalQueueState

end EventBus.Local
