import EventBus.Local.QueueOps

/-!
# Receiving from the queue

What `pop_ready`, `next_ready_delay` and `clear_pending` do. `Popped` has the two answers of
`pop_ready` after the due heads have been promoted. Removing the last event of a lane is the
place where the bookkeeping has to be clean: `Sound.popLast` shows that neither the ready list nor
the heap holds an entry of the lane any more.
-/

namespace EventBus.Local.LocalQueueState

open Lib

section
variable {events : List LocalEvent} {lane : QueueLane} {e : LocalEvent} {k key : QueueKey}
  {s s' : LocalQueueState} {now n t : Nat} {iter : IterOrder} {rest : List (QueueKey × Nat)}

/-! ## `pop_ready` -/

/-- The answers of `pop_ready` from a state whose heap was drained up to `now`. -/
inductive Popped (now : Nat) (s : LocalQueueState) :
    Option LocalEvent → LocalQueueState → Prop where
  | idle {s' : LocalQueueState} : Sound s' → Same s s' →
    (∀ {p t}, t ≤ now → Timed p t s →
      Timed p now s' ∧ ∀ k e, (s.events k).head? = some e → ¬ e.Due now) → Popped now s none s'
  | taken {e : LocalEvent} {events : List LocalEvent} {s' : LocalQueueState} : e.Due now →
    s.events e.orderingKey = e :: events →
    (Unwrapped s' → Changed now e.orderingKey events s s') → Popped now s (some e) s'

/-- With a clock that does not run backwards, a lane that does not wait for its head can be received
from. -/
theorem Formed.poppable (hf : Formed s) (hsched : Scheduled t s k) (ht : t ≤ now)
    (hl : s.lanes.lookup k = some lane) (hd : lane.delayedVersion = none) :
    Poppable now s (k, lane.version) := by
  obtain ⟨e, events, hev⟩ := List.exists_cons_of_ne_nil (hf.lanes.nonempty hl)
  refine ⟨lane, e, hl, rfl, by rw [hev]; rfl, fun d hd' => (hsched.due hl hd ?_).trans ht⟩
  rw [QueueLane.headDeadline, hev]
  exact hd'

/-- Nothing is ready: what is left is in the heap, and late. -/
theorem Popped.nothing (hs : Sound s) (hlater : ∀ h ∈ s.delayedLanes, now < h.deadline)
    (hno : ∀ entry ∈ s.readyLanes, ¬ Poppable now s entry) :
    Popped now s none { s with readyLanes := [] } := by
  have hsound : Sound { s with readyLanes := [] } :=
    ⟨hs.balanced.setReady [], hs.formed.shrink rfl (List.nil_sublist _) (.refl _)⟩
  refine .idle hsound ⟨fun _ => rfl, rfl, rfl, rfl, rfl⟩ fun {p t} ht htimed => ?_
  have hall {k : QueueKey} {lane : QueueLane} (hl : s.lanes.lookup k = some lane) :
      lane.delayedVersion ≠ none := fun hd =>
    hno _ ((htimed.scheduled k).ready hl hd) (hs.formed.poppable (htimed.scheduled k) ht hl hd)
  refine ⟨⟨htimed.le.trans ht, fun k => ⟨fun hl hd => absurd hd (hall hl),
    fun hl hd => absurd hd (hall hl)⟩, htimed.later⟩, fun k e he hdue => ?_⟩
  cases hl : s.lanes.lookup k with
  | none => rw [events, hl] at he; cases he
  | some lane =>
    rw [events_of_lookup hl] at he
    have hev := (List.cons_head?_tail he).symm
    exact hall hl (hs.balanced.not_delayed hlater hl hev hdue)

/-- Every heap entry of a lane with a due head refers to an event behind the head. -/
theorem Formed.behind_head (hf : Formed s) (hlater : ∀ h ∈ s.delayedLanes, now < h.deadline)
    (hl : s.lanes.lookup key = some lane) (hev : lane.events = e :: events) (hdue : e.Due now) :
    ∀ h ∈ s.delayedLanes, h.key = key → ∃ x ∈ events, x.notBefore = some h.deadline := by
  intro h hm hk
  obtain ⟨lane', hl', -, x, hx, hd⟩ := hf.heap.known hm
  rw [hk, hl] at hl'
  cases hl'
  rw [hev] at hx
  obtain rfl | hx := List.mem_cons.1 hx
  · have := hdue _ hd
    have := hlater h hm
    omega
  · exact ⟨x, hx, hd⟩

/-- The current generation of a lane is the last of its ready entries. -/
theorem Formed.last_ready (hf : Formed s)
    (hr : ((key, lane.version) :: rest).Sublist s.readyLanes)
    (hl : s.lanes.lookup key = some lane) : ∀ v, (key, v) ∉ rest := by
  intro v hm
  have hlt := (List.pairwise_cons.1 (hf.ready.increasing.sublist hr)).1 _ hm rfl
  obtain ⟨lane', hl', hle⟩ := hf.ready.known (hr.subset (List.mem_cons_of_mem _ hm))
  rw [hl] at hl'
  cases hl'
  exact absurd hlt (Nat.not_lt.2 hle)

section
variable (hs : Sound s) (hlater : ∀ h ∈ s.delayedLanes, now < h.deadline)
  (hr : ((key, lane.version) :: rest).Sublist s.readyLanes)
  (hrest : ∀ {t k lane'}, t ≤ now → k ≠ key → Scheduled t s k → s.lanes.lookup k = some lane' →
    lane'.delayedVersion = none → (k, lane'.version) ∈ rest)
  (hl : s.lanes.lookup key = some lane) (hdue : e.Due now)
include hs hlater hr hrest hl hdue

/-- The last event of a lane leaves, and the lane with it. -/
theorem Sound.popLast (hev : lane.events = [e]) (hn : s.pendingCount = n + 1) :
    Changed now key [] s
      { s with readyLanes := rest, pendingCount := n, lanes := s.lanes.erase key } := by
  have hsub := (List.sublist_cons_self _ _).trans hr
  have hd := hs.balanced.not_delayed hlater hl hev hdue
  refine { hs.balanced.popLast hl hd hev hn rest with
    formed := hs.formed.removeLane rfl hsub rfl (hs.formed.last_ready hr hl) fun h hm hk => ?_
    timed := fun ht htimed => ⟨htimed.le.trans ht, fun k => ?_, htimed.later⟩ }
  · obtain ⟨x, hx, -⟩ := hs.formed.behind_head hlater hl hev hdue h hm hk
    cases hx
  · by_cases hk : k = key
    · refine ⟨fun hl' => ?_, fun hl' => ?_⟩ <;>
        rw [Map.lookup_erase_eq, if_pos hk] at hl' <;> cases hl'
    · have hsched := htimed.scheduled k
      refine (hsched.mono ht).congr ?_ fun hl' hd' _ => hrest ht hk hsched hl' hd'
      rw [Map.lookup_erase_eq, if_neg hk]

/-- The head of a lane leaves, and the next event is scheduled. -/
theorem Sound.popFront (hev : lane.events = e :: events) (hne : events ≠ [])
    (hn : s.pendingCount = n + 1) (hp : Put key events s s')
    (h : scheduleLaneHeadAt iter now (s.dequeued key lane events rest n) key = some s')
    (hw : Unwrapped s') : Changed now key events s s' := by
  have hsub := (List.sublist_cons_self _ _).trans hr
  have hd := hs.balanced.not_delayed hlater hl hev hdue
  have hb := hs.formed.lanes.bounded hl
  have hf : Formed (s.dequeued key lane events rest n) := by
    refine hs.formed.setLane rfl hne (fun x hx => ?_) hb (fun old ho => ?_) hsub (.refl _)
      (hs.formed.behind_head hlater hl hev hdue) (by simp [hd])
    · exact hs.formed.lanes.keyed hl (hev ▸ List.mem_cons_of_mem _ hx)
    · rw [hl] at ho
      cases ho
      exact le_rfl
  obtain ⟨ht, hh, -⟩ := hs.balanced.popFront hl hev hn rest
  refine hp.changed (scheduleLaneHeadAt_spec ht hh hf
    ((Map.lookup_insert_eq _ _ _ _).trans (if_pos rfl)) h hw) (fun hle hk hsched => ?_) rfl
  exact hsched.congr ((Map.lookup_insert_eq _ _ _ _).trans (if_neg hk)) fun hl' hd' _ =>
    hrest hle hk hsched hl' hd'

end

/-- The loop of `pop_ready`. -/
theorem popLoop_spec (iter : IterOrder) (hs : Sound s)
    (hlater : ∀ h ∈ s.delayedLanes, now < h.deadline) :
    ∃ r s', popLoop iter now s.readyLanes s = some (r, s') ∧ Popped now s r s' := by
  obtain ⟨r, s', heq, htook⟩ := popLoop_balanced iter s.readyLanes hs.balanced hlater
  refine ⟨r, s', heq, ?_⟩
  cases popLoop_some heq with
  | nothing hno => exact .nothing hs hlater hno
  | @takes key lane e events pending _ skipped rest hr hno hl he hp hs' =>
    cases htook with
    | taken hdue hhead hput =>
      obtain rfl : e.orderingKey = key :=
        hs.formed.lanes.keyed hl (he ▸ List.mem_cons_self)
      obtain rfl := (List.cons.inj (((events_of_lookup hl).trans he).symm.trans hhead)).2
      have hsub : ((e.orderingKey, lane.version) :: rest).Sublist s.readyLanes :=
        hr ▸ List.sublist_append_right _ _
      -- what can be received from is not skipped
      have hrest {t : Nat} {k : QueueKey} {lane' : QueueLane} (ht : t ≤ now)
          (hk : k ≠ e.orderingKey) (hsched : Scheduled t s k) (hl' : s.lanes.lookup k = some lane')
          (hd' : lane'.delayedVersion = none) : (k, lane'.version) ∈ rest := by
        have hm := hsched.ready hl' hd'
        rw [hr] at hm
        rcases List.mem_append.1 hm with hm | hm
        · exact absurd (hs.formed.poppable hsched ht hl' hd') (hno _ hm)
        · exact (List.mem_cons.1 hm).resolve_left fun heq => hk (Prod.mk.inj heq).1
      refine .taken hdue hhead fun hw => ?_
      rcases hs' with ⟨rfl, rfl⟩ | ⟨hne, hs'⟩
      · exact hs.popLast hlater hsub hrest hl hdue he hp
      · exact hs.popFront hlater hsub hrest hl hdue he hne hp hput hs' hw

theorem popReady_spec (iter : IterOrder) (now : Nat) (hs : Sound s) :
    ∃ r s₁ s', popReady iter now s = some (r, s') ∧ Promoted now s s₁ ∧ Popped now s₁ r s' := by
  obtain ⟨s₁, heq₁, hp⟩ := promoteDueHeads_spec now hs
  obtain ⟨r, s', heq, hpop⟩ := popLoop_spec iter hp.sound hp.later
  refine ⟨r, s₁, s', ?_, hp, hpop⟩
  rw [popReady, heq₁, Option.bind_some, heq]

/-! ## `next_ready_delay` -/

theorem nextReadyDelay_spec (now : Nat) (hs : Sound s) :
    ∃ r s', nextReadyDelay now s = some (r, s') ∧ Sound s' ∧ Same s s' ∧
      (∀ {p t}, Timed p t s → Timed p t s') ∧
      r = s'.delayedLanes.head?.map (fun head => head.deadline - now) ∧
      ∀ h, s'.delayedLanes.head? = some h → isLive s'.lanes h = true := by
  obtain ⟨heap, stale, heq, hs', hsuf, hhead⟩ := discard_spec hs
  refine ⟨_, _, by rw [nextReadyDelay, heq, Option.map_some], hs', Same.setHeap _ _ _, fun ht => ?_,
    rfl, hhead⟩
  exact ⟨ht.le, fun k => (ht.scheduled k).congr rfl fun _ _ hm => hm,
    fun h hm => ht.later h (hsuf.subset hm)⟩

end

end EventBus.Local.LocalQueueState
