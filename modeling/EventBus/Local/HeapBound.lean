import EventBus.Local.QueueRefine
import EventBus.Local.QueueSteps
import EventBus.Local.QueueCount

/-!
# The size of the delay heap

An entry of the delay heap becomes stale when its lane gets another head. Stale entries are dropped
when they surface, and the heap is rebuilt when they outnumber the live ones and a fixed slack
(`compact_delayed_heap_if_needed`). That check runs when a lane head is scheduled. A promotion makes
live entries fewer and does not check: so the bound is kept by every run in which the heads that are
not due at a promotion are enough for the stale entries (`CalmAt`, `trace_stale_bounded`), and not
by every run (`trace_promotedTogether_stale`).
-/

namespace EventBus.Local.LocalQueueState

open Lib

/-! ## The bound -/

/-- The heap entries that no lane knows of. -/
def staleHeads (s : LocalQueueState) : Nat := s.delayedLanes.countP fun head => !isLive s.lanes head

/-- The lanes whose head is in the heap. -/
def liveHeads (s : LocalQueueState) : Nat := s.lanes.count fun lane => lane.delayedVersion.isSome

/-- The bound that the compaction is for. -/
def HeapBounded (s : LocalQueueState) : Prop := s.staleHeads ≤ max s.liveHeads 8

/-- The same bound on the counters of the state. -/
def CountersBounded (s : LocalQueueState) : Prop := s.delayedStaleCount ≤ max s.delayedLiveCount 8

instance (s : LocalQueueState) : Decidable s.HeapBounded := inferInstanceAs (Decidable (_ ≤ _))

section
variable {iter : IterOrder} {event : LocalEvent} {s s' : LocalQueueState} {now : Nat}
  {key : QueueKey}

/-- Every lane that waits in the heap has a live entry there. -/
theorem Tallied.live_le (ht : Tallied s) :
    s.delayedLiveCount ≤ s.delayedLanes.countP (isLive s.lanes) := by
  rw [ht.live, List.countP_eq_length_filter]
  apply Map.count_le_length s.lanes DelayedQueueHead.key
  intro k lane hl hsome
  obtain ⟨v, hv⟩ := Option.isSome_iff_exists.1 hsome
  obtain ⟨hcur, hmem⟩ := ht.entry hl hv
  obtain ⟨head, hhead, hid⟩ := List.mem_map.1 hmem
  obtain ⟨rfl, hver⟩ := Prod.mk.inj hid
  refine ⟨head, List.mem_filter.2 ⟨hhead, isLive_iff.2 ⟨lane, hl, ?_, ?_⟩⟩, rfl⟩
  · rw [hver, hcur]
  · rw [hver, hv]

/-- The counters bound the heap. -/
theorem Tallied.heapBounded (ht : Tallied s) (hc : s.CountersBounded) : s.HeapBounded := by
  have hlive := ht.live_le
  have hlen := List.length_eq_countP_add_countP (isLive s.lanes) (l := s.delayedLanes)
  have hstale : s.staleHeads = s.delayedLanes.countP fun a => decide ¬ isLive s.lanes a = true := by
    apply List.countP_congr
    simp
  have hcount : s.liveHeads = s.delayedLiveCount := ht.live.symm
  unfold CountersBounded at hc
  unfold HeapBounded
  have := ht.length
  omega

/-! ## Scheduling -/

/-- The check of the compaction establishes the bound. -/
theorem compact_bounded (iter : IterOrder) (s : LocalQueueState) :
    (compactDelayedHeapIfNeeded iter s).CountersBounded := by
  unfold compactDelayedHeapIfNeeded
  split
  · assumption
  · exact Nat.zero_le _

theorem scheduleLaneHeadAt_bounded {lane : QueueLane} (hl : s.lanes.lookup key = some lane)
    (h : scheduleLaneHeadAt iter now s key = some s') : s'.CountersBounded := by
  obtain ⟨live, stale, rfl⟩ := scheduleLaneHeadAt_some hl h
  exact compact_bounded iter _

theorem enqueueFrontAt_bounded (h : enqueueFrontAt iter now s event = some s') :
    s'.CountersBounded := by
  rw [enqueueFrontAt_eq] at h
  exact scheduleLaneHeadAt_bounded joined_lookup h

/-- An event behind others schedules nothing. -/
theorem enqueueBackAt_bounded (hs : s.CountersBounded)
    (h : enqueueBackAt iter now s event = some s') : s'.CountersBounded := by
  rw [enqueueBackAt_eq] at h
  split at h
  · exact scheduleLaneHeadAt_bounded joined_lookup h
  · cases h
    exact hs

/-! ## Promotion -/

/-- The live entries that a promotion at `now` finds due. -/
def dueHeads (now : Nat) (s : LocalQueueState) : Nat :=
  s.delayedLanes.countP fun head => head.deadline ≤ now && isLive s.lanes head

/-- Entries that are live in a lane whose head is promoted were live before. -/
theorem isLive_promoted {lanes : Map QueueKey QueueLane} {lane : QueueLane}
    {head : DelayedQueueHead}
    (h : isLive (lanes.insert key { lane with delayedVersion := none }) head = true) :
    isLive lanes head = true := by
  obtain ⟨lane', hl, hv, hd⟩ := isLive_iff.1 h
  rw [Map.lookup_insert_eq] at hl
  split at hl
  · cases hl
    cases hd
  · exact isLive_iff.2 ⟨lane', hl, hv, hd⟩

/-- A promotion adds no stale entries, and takes no live ones but those that are due. -/
theorem promoteDueHeads_counts (h : promoteDueHeads now s = some s') :
    s'.delayedStaleCount ≤ s.delayedStaleCount ∧
      s.delayedLiveCount + s'.dueHeads now ≤ s'.delayedLiveCount + s.dueHeads now := by
  refine promoteDueHeads_induct (P := fun t => t.delayedStaleCount ≤ s.delayedStaleCount ∧
    s.delayedLiveCount + t.dueHeads now ≤ t.delayedLiveCount + s.dueHeads now) ?_ ?_
    ⟨le_rfl, le_rfl⟩ h
  · rintro t t₁ ⟨hstale, hlive⟩ h₁
    obtain ⟨heap, stale, rfl, hsub, hle, -⟩ := discardLoop_some h₁
    refine ⟨hle.trans hstale, le_trans ?_ hlive⟩
    exact Nat.add_le_add_left hsub.countP_le _
  · rintro t t₁ head heap ⟨hstale, hlive⟩ hheap hdue h₁
    simp only [dueHeads, hheap, List.countP_cons] at hlive
    obtain ⟨stale, hle, rfl⟩ | ⟨lane, live, hlane, hv, hd, hcount, rfl⟩ := promoteHead_some h₁
    · refine ⟨hle.trans hstale, ?_⟩
      simp only [dueHeads]
      omega
    · -- the entry was live and due
      have hhead : (decide (head.deadline ≤ now) && isLive t.lanes head) = true := by
        rw [decide_eq_true hdue, Bool.true_and]
        exact isLive_iff.2 ⟨lane, hlane, hv, hd⟩
      have hle : heap.countP (fun g => g.deadline ≤ now &&
          isLive (t.lanes.insert head.key { lane with delayedVersion := none }) g) ≤
            heap.countP fun g => g.deadline ≤ now && isLive t.lanes g := by
        refine List.countP_mono_left fun g _ hg => ?_
        rw [Bool.and_eq_true] at hg ⊢
        exact ⟨hg.1, isLive_promoted hg.2⟩
      rw [if_pos hhead] at hlive
      refine ⟨hstale, ?_⟩
      simp only [dueHeads] at hcount ⊢
      omega

/-- A promotion at `now` leaves enough live heads for the stale entries. -/
def CalmAt (now : Nat) (s : LocalQueueState) : Prop :=
  s.delayedStaleCount ≤ max (s.delayedLiveCount - s.dueHeads now) 8

instance (now : Nat) (s : LocalQueueState) : Decidable (s.CalmAt now) :=
  inferInstanceAs (Decidable (_ ≤ _))

theorem promoteDueHeads_bounded (hcalm : s.CalmAt now) (h : promoteDueHeads now s = some s') :
    s'.CountersBounded := by
  have := promoteDueHeads_counts h
  unfold CalmAt at hcalm
  unfold CountersBounded
  omega

/-! ## Receiving -/

theorem popLoop_bounded {ready : List (QueueKey × Nat)} {r : Option LocalEvent}
    (hs : s.CountersBounded) (h : popLoop iter now ready s = some (r, s')) :
    s'.CountersBounded := by
  cases popLoop_some h with
  | nothing => exact hs
  | takes _ _ _ _ _ _ _ hs' =>
    rcases hs' with ⟨-, rfl⟩ | ⟨-, hs'⟩
    · exact hs
    · exact scheduleLaneHeadAt_bounded ((Map.lookup_insert_eq _ _ _ _).trans (if_pos rfl)) hs'

/-! ## Runs -/

/-- A promotion, by itself or in `pop_ready`, is calm. -/
def CalmOp (s : LocalQueueState) : QueueOp → Prop
  | .popReady now _ | .promoteDueHeads now => s.CalmAt now
  | _ => True

instance (s : LocalQueueState) : ∀ op, Decidable (s.CalmOp op)
  | .popReady now _ | .promoteDueHeads now => inferInstanceAs (Decidable (s.CalmAt now))
  | .enqueueBack .. | .enqueueFront .. | .nextReadyDelay _ | .clearPending => .isTrue trivial

/-- Every call returns, and keeps the counters in order. -/
theorem step_balanced (hb : Balanced s) (op : QueueOp) :
    ∃ r s', step s op = some (r, s') ∧ Balanced s' := by
  cases op with
  | enqueueBack event now iter =>
    obtain ⟨s', h, hp⟩ := enqueueBackAt_balanced iter now hb event
    exact ⟨.done, s', by simp [step, h], hp.balanced⟩
  | enqueueFront event now iter =>
    obtain ⟨s', h, hp⟩ := enqueueFrontAt_balanced iter now hb event
    exact ⟨.done, s', by simp [step, h], hp.balanced⟩
  | popReady now iter =>
    obtain ⟨r, s', h, ht⟩ := popReady_balanced iter now hb
    refine ⟨.event r, s', by simp [step, h], ?_⟩
    cases ht with
    | idle hb' _ => exact hb'
    | taken _ _ hp => exact hp.balanced
  | promoteDueHeads now =>
    obtain ⟨s', h, hb', -⟩ := promoteDueHeads_balanced now hb
    exact ⟨.done, s', by simp [step, h], hb'⟩
  | nextReadyDelay now =>
    obtain ⟨r, s', h, hb', -⟩ := nextReadyDelay_balanced now hb
    exact ⟨.delay r, s', by simp [step, h], hb'⟩
  | clearPending => exact ⟨_, _, rfl, (clearPending_empty s).balanced⟩

theorem step_bounded (hs : s.CountersBounded) {op : QueueOp} (hc : s.CalmOp op) {r : QueueResponse}
    (h : step s op = some (r, s')) : s'.CountersBounded := by
  cases op with
  | enqueueBack event now iter =>
    obtain ⟨s₁, h₁, heq⟩ := Option.map_eq_some_iff.1 h
    cases heq
    exact enqueueBackAt_bounded hs h₁
  | enqueueFront event now iter =>
    obtain ⟨s₁, h₁, heq⟩ := Option.map_eq_some_iff.1 h
    cases heq
    exact enqueueFrontAt_bounded h₁
  | popReady now iter =>
    obtain ⟨⟨e, s₁⟩, h₁, heq⟩ := Option.map_eq_some_iff.1 h
    cases heq
    obtain ⟨s₂, h₂, h₁⟩ := Option.bind_eq_some_iff.1 h₁
    exact popLoop_bounded (promoteDueHeads_bounded hc h₂) h₁
  | promoteDueHeads now =>
    obtain ⟨s₁, h₁, heq⟩ := Option.map_eq_some_iff.1 h
    cases heq
    exact promoteDueHeads_bounded hc h₁
  | nextReadyDelay now =>
    obtain ⟨⟨d, s₁⟩, h₁, heq⟩ := Option.map_eq_some_iff.1 h
    cases heq
    obtain ⟨s₂, h₂, heq⟩ := Option.map_eq_some_iff.1 h₁
    cases heq
    obtain ⟨heap, stale, rfl, -, hle, -⟩ := discardLoop_some h₂
    exact hle.trans hs
  | clearPending =>
    cases h
    exact Nat.zero_le _

/-- The heap is bounded, also after a calm promotion. -/
structure Compact (s : LocalQueueState) : Prop where
  bounded : s.HeapBounded
  promoted : ∀ now, s.CalmAt now → ∃ s', promoteDueHeads now s = some s' ∧ s'.HeapBounded

theorem compact_of (hb : Balanced s) (hs : s.CountersBounded) : Compact s := by
  refine ⟨hb.tallied.heapBounded hs, fun now hc => ?_⟩
  obtain ⟨s', h, hb', -⟩ := promoteDueHeads_balanced now hb
  exact ⟨s', h, hb'.tallied.heapBounded (promoteDueHeads_bounded hc h)⟩

/-- **The delay heap is bounded** while every promotion leaves as many live heads as there are stale
entries, or finds at most eight of those: then, after every call, the heap has at most as many stale
entries as there are live ones, or eight. -/
theorem trace_stale_bounded (ops : List QueueOp) (hcalm : Meets step CalmOp default ops) (n : Nat) :
    ∃ rs s, trace step default (ops.take n) = some (rs, s) ∧ Compact s := by
  have hstep (s : LocalQueueState) (op : QueueOp) (hi : Balanced s ∧ s.CountersBounded)
      (hc : s.CalmOp op) : ∃ r s', step s op = some (r, s') ∧ Balanced s' ∧ s'.CountersBounded := by
    obtain ⟨r, s', h, hb⟩ := step_balanced hi.1 op
    exact ⟨r, s', h, hb, step_bounded hi.2 hc h⟩
  obtain ⟨rs, s, ht, hb, hs⟩ :=
    meets_invariant hstep ⟨default_empty.balanced, Nat.zero_le _⟩ (hcalm.take n)
  exact ⟨rs, s, ht, compact_of hb hs⟩

/-- One event of the key `a` is received and retried nine times, in front of a delayed one; nine
other keys wait in the heap, eight of them until 5. -/
noncomputable def retriedInFront : List QueueOp :=
  [.enqueueBack (keyedEvent "a1" "a" none) 0 someOrder,
    .enqueueBack (keyedEvent "a2" "a" (some 1000)) 0 someOrder,
    .enqueueBack (keyedEvent "c" "c" (some 500)) 0 someOrder] ++
  ["b1", "b2", "b3", "b4", "b5", "b6", "b7", "b8"].map
    (fun key => .enqueueBack (keyedEvent key key (some 5)) 0 someOrder) ++
  (List.replicate 9 [.popReady 0 someOrder,
    .enqueueFront (keyedEvent "a1" "a" none) 0 someOrder]).flatten

/-- Eight more keys wait longer, so that the other eight can become due. -/
theorem trace_stale_bounded_retried :
    let ops := retriedInFront ++ ["d1", "d2", "d3", "d4", "d5", "d6", "d7", "d8"].map
      (fun key => .enqueueBack (keyedEvent key key (some 600)) 0 someOrder) ++ [.promoteDueHeads 5]
    ∃ rs s, trace step default (ops.take 38) = some (rs, s) ∧ Compact s :=
  trace_stale_bounded _ (by decide +kernel) 38

/-- When the eight keys become due, and one of them is received, nine stale entries are left beside
two live ones. -/
theorem trace_promotedTogether_stale :
    let ops := retriedInFront ++ [.popReady 0 someOrder, .popReady 5 someOrder]
    (ops.filterMap QueueOp.now).Pairwise (· ≤ ·) ∧
      ∃ rs s s', trace step default ops = some (rs, s) ∧ promoteDueHeads 5 s = some s' ∧
        s'.staleHeads = 9 ∧ s'.liveHeads = 2 ∧ ¬ s'.HeapBounded := by
  intro ops
  refine ⟨by decide +kernel, ?_⟩
  have h : ((trace step default ops).bind fun t => promoteDueHeads 5 t.2).any
      fun s' => s'.staleHeads = 9 ∧ s'.liveHeads = 2 := by
    decide +kernel
  obtain ⟨s', hs', hcounts⟩ := (Option.any_eq_true _ _).1 h
  obtain ⟨⟨rs, s⟩, ht, hp⟩ := Option.bind_eq_some_iff.1 hs'
  obtain ⟨hstale, hlive⟩ := of_decide_eq_true hcounts
  refine ⟨rs, s, s', ht, hp, hstale, hlive, ?_⟩
  unfold HeapBounded
  omega

end

end EventBus.Local.LocalQueueState
