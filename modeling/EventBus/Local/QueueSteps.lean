import EventBus.Local.Queue

/-!
# What the functions of the queue can do

What a call that returns has done, for each function of the queue that branches or loops. Nothing is
assumed of the state, so the facts about single calls that need no invariant are read off from here.
-/

namespace EventBus.Local

open Lib

theorem checkedPred_some {n m : Nat} (h : checkedPred n = some m) : n = m + 1 := by
  cases n with
  | zero => cases h
  | succ n =>
    cases h
    rfl

namespace LocalQueueState

variable {s s' : LocalQueueState} {key : QueueKey} {lane : QueueLane} {now : Nat} {iter : IterOrder}
  {P : LocalQueueState → Prop}

/-! ## Scheduling -/

theorem renewLane_some (h : renewLane s key lane = some s') :
    ∃ live stale, s' = { s with
      lanes := s.lanes.insert key
        { lane with version := wrappingSucc lane.version, delayedVersion := none }
      delayedLiveCount := live
      delayedStaleCount := stale } := by
  unfold renewLane at h
  dsimp only at h
  split at h
  · split at h
    · cases h
    · cases h
      exact ⟨_, _, rfl⟩
  · cases h
    exact ⟨_, _, rfl⟩

theorem scheduleLaneHeadAt_some (hl : s.lanes.lookup key = some lane)
    (h : scheduleLaneHeadAt iter now s key = some s') :
    ∃ live stale, s' = compactDelayedHeapIfNeeded iter (registerHead now { s with
        lanes := s.lanes.insert key
          { lane with version := wrappingSucc lane.version, delayedVersion := none }
        delayedLiveCount := live
        delayedStaleCount := stale } key
      { lane with version := wrappingSucc lane.version, delayedVersion := none }) := by
  simp only [scheduleLaneHeadAt, hl] at h
  split at h
  · cases h
  · rename_i s₁ h₁
    cases h
    obtain ⟨live, stale, rfl⟩ := renewLane_some h₁
    exact ⟨live, stale, rfl⟩

@[simp] theorem compact_lanes (iter : IterOrder) (s : LocalQueueState) :
    (compactDelayedHeapIfNeeded iter s).lanes = s.lanes := by
  unfold compactDelayedHeapIfNeeded
  split <;> rfl

@[simp] theorem compact_ready (iter : IterOrder) (s : LocalQueueState) :
    (compactDelayedHeapIfNeeded iter s).readyLanes = s.readyLanes := by
  unfold compactDelayedHeapIfNeeded
  split <;> rfl

/-- Registering a head touches at most what its lane knows of the heap. -/
theorem registerHead_lookup (now : Nat) (s : LocalQueueState) (key k : QueueKey)
    (lane : QueueLane) :
    (registerHead now s key lane).lanes.lookup k = s.lanes.lookup k ∨ k = key ∧
      (registerHead now s key lane).lanes.lookup k =
        some { lane with delayedVersion := some lane.version } := by
  unfold registerHead
  split
  · exact .inl rfl
  · split
    · exact .inl rfl
    · simp only [Map.lookup_insert_eq]
      split
      · exact .inr ⟨‹_›, rfl⟩
      · exact .inl rfl

/-- A lane that is scheduled starts its next generation. -/
theorem scheduleLaneHeadAt_version (hl : s.lanes.lookup key = some lane)
    (h : scheduleLaneHeadAt iter now s key = some s') :
    ∃ new, s'.lanes.lookup key = some new ∧ new.version = wrappingSucc lane.version := by
  obtain ⟨live, stale, rfl⟩ := scheduleLaneHeadAt_some hl h
  rw [compact_lanes]
  rcases registerHead_lookup now { s with
      lanes := s.lanes.insert key
        { lane with version := wrappingSucc lane.version, delayedVersion := none }
      delayedLiveCount := live, delayedStaleCount := stale } key key
      { lane with version := wrappingSucc lane.version, delayedVersion := none } with heq | ⟨-, heq⟩
  · exact ⟨_, heq.trans ((Map.lookup_insert_eq _ _ _ _).trans (if_pos rfl)), rfl⟩
  · exact ⟨_, heq, rfl⟩

/-! ## Promotion -/

/-- Stale entries leave the heap from its front. -/
theorem discardLoop_some {heap : List DelayedQueueHead} (h : discardLoop heap s = some s') :
    ∃ heap' stale, s' = { s with delayedLanes := heap', delayedStaleCount := stale } ∧
      heap'.Sublist heap ∧ stale ≤ s.delayedStaleCount ∧
      ∀ head, heap'.head? = some head → isLive s.lanes head = true := by
  induction heap generalizing s with
  | nil =>
    cases h
    exact ⟨[], _, rfl, .refl [], le_rfl, by simp⟩
  | cons head heap ih =>
    unfold discardLoop at h
    split at h
    · rename_i hlive
      cases h
      refine ⟨head :: heap, _, rfl, .refl _, le_rfl, fun head' hh => ?_⟩
      cases hh
      exact hlive
    · split at h
      · cases h
      · rename_i stale hstale
        obtain ⟨heap', stale', rfl, hsub, hle, hhead⟩ := ih h
        have := checkedPred_some hstale
        refine ⟨heap', stale', rfl, hsub.cons head, ?_, hhead⟩
        simp only at hle
        omega

/-- The popped entry was stale, or its lane is ready now. -/
theorem promoteHead_some {head : DelayedQueueHead} (h : promoteHead s head = some s') :
    (∃ stale, stale ≤ s.delayedStaleCount ∧ s' = { s with delayedStaleCount := stale }) ∨
    ∃ lane live, s.lanes.lookup head.key = some lane ∧ lane.version = head.version ∧
      lane.delayedVersion = some head.version ∧ s.delayedLiveCount = live + 1 ∧ s' = { s with
        lanes := s.lanes.insert head.key { lane with delayedVersion := none }
        delayedLiveCount := live
        readyLanes := s.readyLanes ++ [(head.key, head.version)] } := by
  have hpred (hm : (checkedPred s.delayedStaleCount).map
      (fun stale => { s with delayedStaleCount := stale }) = some s') :
      ∃ stale, stale ≤ s.delayedStaleCount ∧ s' = { s with delayedStaleCount := stale } := by
    obtain ⟨stale, hstale, rfl⟩ := Option.map_eq_some_iff.1 hm
    have := checkedPred_some hstale
    exact ⟨stale, by omega, rfl⟩
  unfold promoteHead at h
  split at h
  · exact .inl (hpred h)
  rename_i lane hl
  split at h
  · rename_i hlive
    obtain ⟨live, hcount, rfl⟩ := Option.map_eq_some_iff.1 h
    exact .inr ⟨lane, live, hl, hlive.1, hlive.2, checkedPred_some hcount, rfl⟩
  · exact .inl (hpred h)

/-- What discarding and every round keep, a promotion keeps. By induction on the rounds. -/
theorem promoteDueHeads_induct
    (hdiscard : ∀ s s₁, P s → discardStaleDelayedHeads s = some s₁ → P s₁)
    (hround : ∀ s s₁ head heap, P s → s.delayedLanes = head :: heap → head.deadline ≤ now →
      promoteHead { s with delayedLanes := heap } head = some s₁ → P s₁)
    (hs : P s) (h : promoteDueHeads now s = some s') : P s' := by
  obtain ⟨s₁, h₁, h⟩ := Option.bind_eq_some_iff.1 h
  have hs₁ := hdiscard s s₁ hs h₁
  generalize s₁.delayedLanes.length = fuel at h
  clear hs h₁
  induction fuel generalizing s₁ with
  | zero =>
    cases h
    exact hs₁
  | succ fuel ih =>
    unfold promoteLoop at h
    split at h
    · cases h
      exact hs₁
    · rename_i head heap hheap
      split at h
      · rename_i hdue
        obtain ⟨s₂, h₂, h⟩ := Option.bind_eq_some_iff.1 h
        obtain ⟨s₃, h₃, h⟩ := Option.bind_eq_some_iff.1 h
        exact ih s₃ (hdiscard s₂ s₃ (hround s₁ s₂ head heap hs₁ hheap hdue h₂) h₃) h
      · cases h
        exact hs₁

/-! ## Receiving -/

/-- The entry makes `pop_ready` return an event. -/
def Poppable (now : Nat) (s : LocalQueueState) (entry : QueueKey × Nat) : Prop :=
  ∃ lane e, s.lanes.lookup entry.1 = some lane ∧ lane.version = entry.2 ∧
    lane.events.head? = some e ∧ e.Due now

/-- The state in which the lane of `key` has only `events` left. -/
def dequeued (s : LocalQueueState) (key : QueueKey) (lane : QueueLane) (events : List LocalEvent)
    (rest : List (QueueKey × Nat)) (pending : Nat) : LocalQueueState :=
  { s with
    readyLanes := rest, pendingCount := pending, lanes := s.lanes.insert key { lane with events } }

/-- What the loop of `pop_ready` does: entries that are no good are dropped, and the first good one
gives an event. The last event of a lane goes with it. -/
inductive Pops (iter : IterOrder) (now : Nat) (s : LocalQueueState)
    (ready : List (QueueKey × Nat)) : Option LocalEvent → LocalQueueState → Prop where
  | nothing (hno : ∀ entry ∈ ready, ¬ Poppable now s entry) :
    Pops iter now s ready none { s with readyLanes := [] }
  | takes {key : QueueKey} {lane : QueueLane} {event : LocalEvent} {events : List LocalEvent}
      {pending : Nat} {s' : LocalQueueState} (skipped rest : List (QueueKey × Nat))
      (hr : ready = skipped ++ (key, lane.version) :: rest)
      (hno : ∀ entry ∈ skipped, ¬ Poppable now s entry) (hl : s.lanes.lookup key = some lane)
      (he : lane.events = event :: events) (hp : s.pendingCount = pending + 1)
      (hs : events = [] ∧ s' = { s with
          readyLanes := rest, pendingCount := pending, lanes := s.lanes.erase key } ∨
        events ≠ [] ∧
          scheduleLaneHeadAt iter now (s.dequeued key lane events rest pending) key = some s') :
    Pops iter now s ready (some event) s'

theorem Pops.skip {ready : List (QueueKey × Nat)} {r : Option LocalEvent} {entry : QueueKey × Nat}
    (h : Pops iter now s ready r s') (hno : ¬ Poppable now s entry) :
    Pops iter now s (entry :: ready) r s' := by
  cases h with
  | nothing hall => exact .nothing (List.forall_mem_cons.2 ⟨hno, hall⟩)
  | takes skipped rest hr hall hl he hp hs =>
    exact .takes (entry :: skipped) rest (by rw [hr]; rfl) (List.forall_mem_cons.2 ⟨hno, hall⟩) hl
      he hp hs

theorem popLoop_some {ready : List (QueueKey × Nat)} {r : Option LocalEvent}
    (h : popLoop iter now ready s = some (r, s')) : Pops iter now s ready r s' := by
  induction ready with
  | nil =>
    cases h
    exact .nothing (by simp)
  | cons entry ready ih =>
    obtain ⟨key, version⟩ := entry
    unfold popLoop at h
    split at h
    · rename_i hnone
      refine (ih h).skip ?_
      rintro ⟨lane, e, hl, -⟩
      rw [hnone] at hl
      cases hl
    rename_i lane hlane
    -- the entry is good only if the lane is of its generation and has a due head
    have hgood {lane' : QueueLane} (hl : s.lanes.lookup key = some lane') : lane' = lane :=
      Option.some.inj (hl.symm.trans hlane)
    split at h
    · rename_i hv
      refine (ih h).skip ?_
      rintro ⟨lane', e, hl, hv', -⟩
      exact hv (hgood hl ▸ hv')
    rename_i hv
    obtain rfl : lane.version = version := not_not.1 hv
    split at h
    · rename_i hev
      refine (ih h).skip ?_
      rintro ⟨lane', e, hl, -, he, -⟩
      rw [hgood hl, hev] at he
      cases he
    rename_i event events hev
    split at h
    · rename_i hdue
      refine (ih h).skip ?_
      rintro ⟨lane', e, hl, -, he, hd⟩
      rw [hgood hl, hev] at he
      obtain rfl := Option.some.inj he
      exact hdue hd
    obtain ⟨pending, hp, h⟩ := Option.bind_eq_some_iff.1 h
    have hp := checkedPred_some hp
    dsimp only at h
    split at h
    · rename_i hnil
      cases h
      exact .takes [] ready rfl (by simp) hlane hev hp (.inl ⟨List.isEmpty_iff.1 hnil, rfl⟩)
    · rename_i hne
      obtain ⟨s₁, h₁, heq⟩ := Option.map_eq_some_iff.1 h
      cases heq
      exact .takes [] ready rfl (by simp) hlane hev hp (.inr ⟨by simpa using hne, h₁⟩)

end LocalQueueState

end EventBus.Local
