import EventBus.Local.HeapBound

/-!
# What the entries of a queue stand for

The counters of a queue, and what its ready and heap entries refer to, after any calls of the
methods of `LocalQueueState` and at any times: nothing here depends on the clock.

A generation is one number of a lane, and a removed lane that comes back counts from zero again.
An entry is nevertheless never taken for one of another generation: while it is there its lane is
there (`Sound`), and in one call a lane that stays either keeps its generation, and then its head,
or moves on to a later one (`Keeps`). So an entry of the current generation was made for the event
that is at the head now.
-/

namespace EventBus.Local.LocalQueueState

open Lib

variable {s : LocalQueueState} {lane : QueueLane} {k : QueueKey} {v : Nat}

/-! ## The methods -/

/-- A call of a method of `LocalQueueState`: those the providers use, and the three maintenance
steps these are made of. -/
inductive StateOp where
  | queue (op : QueueOp)
  | scheduleLaneHead (key : QueueKey) (now : Nat) (iter : IterOrder)
  | discardStaleDelayedHeads
  | compactDelayedHeapIfNeeded (iter : IterOrder)

def call (s : LocalQueueState) : StateOp → Option (QueueResponse × LocalQueueState)
  | .queue op => step s op
  | .scheduleLaneHead key now iter => (scheduleLaneHeadAt iter now s key).map (.done, ·)
  | .discardStaleDelayedHeads => (discardStaleDelayedHeads s).map (.done, ·)
  | .compactDelayedHeapIfNeeded iter => some (.done, compactDelayedHeapIfNeeded iter s)

/-! ## Heap entries of the current generation -/

/-- A lane knows only of an entry of its current generation. A heap entry is not ahead of its lane,
and the entry of the current generation is the one the lane knows of. -/
structure Current (s : LocalQueueState) : Prop where
  own : ∀ {k lane v}, s.lanes.lookup k = some lane → lane.delayedVersion = some v → v = lane.version
  nodup : (s.delayedLanes.map DelayedQueueHead.ident).Nodup
  le : ∀ {h lane}, h ∈ s.delayedLanes → s.lanes.lookup h.key = some lane → h.version ≤ lane.version
  known : ∀ {h lane}, h ∈ s.delayedLanes → s.lanes.lookup h.key = some lane →
    h.version = lane.version → lane.delayedVersion = some lane.version

/-- Every lane keeps its generation and its events. -/
def SameLanes (s s' : LocalQueueState) : Prop :=
  ∀ k, (s'.lanes.lookup k).map (fun lane => (lane.version, lane.events)) =
    (s.lanes.lookup k).map fun lane => (lane.version, lane.events)

/-- A lane that stays keeps its generation and its head, or has a later generation. -/
def Keeps (s s' : LocalQueueState) : Prop :=
  ∀ k old new, s.lanes.lookup k = some old → s'.lanes.lookup k = some new →
    old.version < new.version ∨ old.version = new.version ∧ old.events <+: new.events

section
variable {r : Option LocalEvent} {iter : IterOrder} {e : LocalEvent} {s' s₁ : LocalQueueState}
  {key : QueueKey} {now : Nat}

theorem SameLanes.refl (s : LocalQueueState) : SameLanes s s := fun _ => rfl

theorem SameLanes.trans (h : SameLanes s s₁) (h' : SameLanes s₁ s') : SameLanes s s' :=
  fun k => (h' k).trans (h k)

theorem SameLanes.keeps (h : SameLanes s s') : Keeps s s' := by
  intro k old new hold hnew
  have := h k
  rw [hold, hnew] at this
  simp only [Option.map_some, Option.some.injEq, Prod.mk.injEq] at this
  exact .inr ⟨this.1.symm, this.2 ▸ List.prefix_rfl⟩

/-- A lane before a step that changes no generation. -/
theorem SameLanes.before (h : SameLanes s s₁) {old : QueueLane}
    (hold : s.lanes.lookup k = some old) :
    ∃ mid, s₁.lanes.lookup k = some mid ∧ mid.version = old.version ∧ mid.events = old.events := by
  have hk := h k
  rw [hold, Option.map_some] at hk
  obtain ⟨mid, hmid, heq⟩ := Option.map_eq_some_iff.1 hk
  exact ⟨mid, hmid, (Prod.mk.inj heq).1, (Prod.mk.inj heq).2⟩

theorem SameLanes.trans_keeps (h : SameLanes s s₁) (h' : Keeps s₁ s') : Keeps s s' := by
  intro k old new hold hnew
  obtain ⟨mid, hmid, hv, he⟩ := h.before hold
  have := h' k mid new hmid hnew
  rwa [hv, he] at this

/-- Only the lane of `key` changes, and it moves on or goes. -/
theorem keeps_of_other (key : QueueKey)
    (hother : ∀ k, k ≠ key → s'.lanes.lookup k = s.lanes.lookup k)
    (hkey : ∀ old new, s.lanes.lookup key = some old → s'.lanes.lookup key = some new →
      old.version < new.version ∨ old.version = new.version ∧ old.events <+: new.events) :
    Keeps s s' := by
  intro k old new hold hnew
  by_cases hk : k = key
  · subst hk
    exact hkey old new hold hnew
  · rw [hother k hk, hold] at hnew
    cases hnew
    exact .inr ⟨rfl, List.prefix_rfl⟩

/-- What `Current` says beyond the invariant of the queue. -/
def Known (s : LocalQueueState) : Prop :=
  ∀ h lane, h ∈ s.delayedLanes → s.lanes.lookup h.key = some lane → h.version = lane.version →
    lane.delayedVersion = some lane.version

theorem Formed.heap_le (hf : Formed s) {h : DelayedQueueHead} (hm : h ∈ s.delayedLanes)
    (hl : s.lanes.lookup h.key = some lane) : h.version ≤ lane.version := by
  obtain ⟨lane', hl', hle, -⟩ := hf.heap.known hm
  rw [hl] at hl'
  cases hl'
  exact hle

theorem Sound.current (hs : Sound s) (hk : Known s) : Current s where
  own hl hd := (hs.balanced.tallied.entry hl hd).1
  nodup := hs.formed.heap.nodup
  le hm hl := hs.formed.heap_le hm hl
  known := hk _ _

/-- Entries leave the heap. -/
theorem Known.shrink (hk : Known s) (hl : s'.lanes = s.lanes)
    (hh : s'.delayedLanes ⊆ s.delayedLanes) : Known s' :=
  fun h lane hm hlane => hk h lane (hh hm) (hl ▸ hlane)

/-- One lane changes. -/
theorem Known.setLane (hk : Known s) (hl : s'.lanes = s.lanes.insert key lane)
    (hh : s'.delayedLanes ⊆ s.delayedLanes)
    (hkey : ∀ h ∈ s'.delayedLanes, h.key = key → h.version = lane.version →
      lane.delayedVersion = some lane.version) : Known s' := by
  intro h new hm hnew hv
  rw [hl, Map.lookup_insert_eq] at hnew
  split at hnew
  · rename_i heq
    cases hnew
    exact hkey h hm heq hv
  · exact hk h new (hh hm) hnew hv

theorem Known.erase (hk : Known s) (key : QueueKey) (hl : s'.lanes = s.lanes.erase key)
    (hh : s'.delayedLanes = s.delayedLanes) : Known s' := by
  intro h lane hm hlane
  rw [hl, Map.lookup_erase_eq] at hlane
  split at hlane
  · cases hlane
  · exact hk h lane (hh ▸ hm) hlane

/-! ## Dropping and promoting -/

theorem discard_known (hk : Known s) (h : discardStaleDelayedHeads s = some s') :
    Known s' ∧ SameLanes s s' := by
  obtain ⟨heap, stale, rfl, hsub, -⟩ := discardLoop_some h
  exact ⟨hk.shrink rfl hsub.subset, .refl s⟩

/-- A promoted entry was the only one of its generation. -/
theorem promoteDueHeads_known (hf : Formed s) (hk : Known s) (h : promoteDueHeads now s = some s') :
    Known s' ∧ SameLanes s s' := by
  suffices hrun : (s'.delayedLanes.map DelayedQueueHead.ident).Nodup ∧ Known s' ∧
      SameLanes s s' from
    hrun.2
  refine promoteDueHeads_induct (P := fun t =>
    (t.delayedLanes.map DelayedQueueHead.ident).Nodup ∧ Known t ∧ SameLanes s t) ?_ ?_
    ⟨hf.heap.nodup, hk, .refl s⟩ h
  · rintro t t₁ ⟨hn, ht, hsame⟩ h₁
    obtain ⟨heap, stale, rfl, hsub, -⟩ := discardLoop_some h₁
    exact ⟨hn.sublist (hsub.map _), ht.shrink rfl hsub.subset, hsame⟩
  · rintro t t₁ head heap ⟨hn, ht, hsame⟩ hheap - h₁
    have hsub : heap ⊆ t.delayedLanes := hheap ▸ List.subset_cons_self _ _
    rw [hheap, List.map_cons, List.nodup_cons] at hn
    obtain ⟨stale, -, rfl⟩ | ⟨lane, live, hlane, hv, -, -, rfl⟩ := promoteHead_some h₁
    · exact ⟨hn.2, ht.shrink rfl hsub, hsame⟩
    · refine ⟨hn.2, ht.setLane rfl hsub fun g hm hg hgv => ?_, hsame.trans fun k => ?_⟩
      · exact absurd (List.mem_map.2 ⟨g, hm, Prod.ext hg (hgv.trans hv)⟩) hn.1
      · simp only [Map.lookup_insert_eq]
        split
        · rename_i heq
          rw [heq, hlane]
          rfl
        · rfl

/-! ## Scheduling -/

theorem registerHead_known (hk : Known s) (now : Nat) :
    Known (registerHead now s key lane) := by
  unfold registerHead
  split
  · exact hk
  · split
    · exact hk
    · intro h new hm hnew heq
      rw [Map.lookup_insert_eq] at hnew
      split at hnew
      · cases hnew
        rfl
      · rename_i hne
        obtain rfl | hm := mem_pushHead.1 hm
        · exact absurd rfl hne
        · exact hk h new hm hnew heq

/-- The rebuilt heap has the entries that the lanes know of. -/
theorem compact_known (iter : IterOrder) (hk : Known s)
    (hown : ∀ k lane v, s.lanes.lookup k = some lane → lane.delayedVersion = some v →
      v = lane.version) :
    Known (compactDelayedHeapIfNeeded iter s) := by
  rcases compact_cases iter s with heq | ⟨sequence, heap, heq, hok⟩
  · rwa [heq]
  rw [heq]
  intro h new hm hnew _
  obtain ⟨lane, hlane, hd, -⟩ := (hok.sound hm).2
  obtain rfl : lane = new := Option.some.inj (hlane.symm.trans hnew)
  rw [hd, hown _ lane _ hlane hd]

/-- Scheduling moves the lane on by one generation and leaves the others alone. -/
theorem scheduleLaneHeadAt_known (hk : Known s) (ht : Tallied s)
    (hlane : s.lanes.lookup key = some lane)
    (hle : ∀ h ∈ s.delayedLanes, h.key = key → h.version ≤ lane.version)
    (hb : lane.version < 2 ^ 64) (h : scheduleLaneHeadAt iter now s key = some s')
    (hw : Unwrapped s') : Known s' ∧ (∀ k, k ≠ key → s'.lanes.lookup k = s.lanes.lookup k) ∧
      ∃ new, s'.lanes.lookup key = some new ∧ new.version = lane.version + 1 := by
  have hnext := scheduleLaneHeadAt_next hlane hb h hw
  obtain ⟨new, hnew, hv⟩ := scheduleLaneHeadAt_version hlane h
  refine ⟨?_, fun k hne => ?_, new, hnew, hv.trans hnext⟩ <;>
    obtain ⟨live, stale, rfl⟩ := scheduleLaneHeadAt_some hlane h
  · refine compact_known iter (registerHead_known ?_ now) fun k new v hl hd => ?_
    · -- the older entries of the lane are behind it
      refine hk.setLane rfl (List.Subset.refl _) fun g hm hg hv => ?_
      have := hle g hm hg
      simp only at hv
      omega
    · rcases registerHead_lookup now _ key k _ with heq | ⟨-, heq⟩ <;> rw [heq] at hl
      · rw [Map.lookup_insert_eq] at hl
        split at hl
        · cases hl
          cases hd
        · exact (ht.entry hl hd).1
      · cases hl
        cases hd
        rfl
  · rw [compact_lanes]
    rcases registerHead_lookup now _ key k _ with heq | ⟨heq, -⟩
    · rw [heq, Map.lookup_insert_eq, if_neg hne]
    · exact absurd heq hne

/-! ## Adding and taking events -/

/-- The lane of `e` gets its events; a new lane has no entries yet. -/
theorem Known.join (hk : Known s) (hs : Sound s) (e : LocalEvent) (events : List LocalEvent) :
    Known (s.joined e events) := by
  refine hk.setLane rfl (List.Subset.refl _) fun h hm heq hv => ?_
  cases hl : s.lanes.lookup e.orderingKey with
  | none => exact absurd heq ((hs.formed.no_entry hl).2 h hm)
  | some lane =>
    rw [hl] at hv
    exact hk h lane hm (heq ▸ hl) hv

theorem join_keeps (hs : Sound s) (hk : Known s) {events : List LocalEvent}
    (he : events = s.events e.orderingKey ++ [e] ∨ events = e :: s.events e.orderingKey)
    (h : scheduleLaneHeadAt iter now (s.joined e events) e.orderingKey = some s')
    (hw : Unwrapped s') : Known s' ∧ Keeps s s' := by
  have hf := hs.join he
  obtain ⟨hk', hother, new, hnew, hv⟩ := scheduleLaneHeadAt_known (hk.join hs e events)
    (hs.balanced.join he).1 joined_lookup
    (fun g hm hg => hf.heap_le hm (by rw [hg]; exact joined_lookup))
    (hf.lanes.bounded joined_lookup) h hw
  refine ⟨hk', keeps_of_other e.orderingKey (fun k hne => ?_) fun old new' hold hnew' => ?_⟩
  · rw [hother k hne, joined_lookup_of_ne hne]
  · rw [hnew] at hnew'
    cases hnew'
    rw [hold] at hv
    simp only [Option.getD_some] at hv
    exact .inl (by omega)

theorem enqueueFrontAt_keeps (hs : Sound s) (hk : Known s)
    (h : enqueueFrontAt iter now s e = some s') (hw : Unwrapped s') : Known s' ∧ Keeps s s' := by
  rw [enqueueFrontAt_eq] at h
  exact join_keeps hs hk (.inr rfl) h hw

theorem enqueueBackAt_keeps (hs : Sound s) (hk : Known s)
    (h : enqueueBackAt iter now s e = some s') (hw : Unwrapped s') : Known s' ∧ Keeps s s' := by
  rw [enqueueBackAt_eq] at h
  split at h
  · exact join_keeps hs hk (.inl rfl) h hw
  · cases h
    refine ⟨hk.join hs e _, keeps_of_other e.orderingKey (fun _ => joined_lookup_of_ne)
      fun old new hold hnew => ?_⟩
    rw [joined_lookup, hold] at hnew
    cases hnew
    rw [events_of_lookup hold]
    exact .inr ⟨rfl, List.prefix_append _ _⟩

theorem popLoop_keeps {ready : List (QueueKey × Nat)} (hs : Sound s) (hk : Known s)
    (h : popLoop iter now ready s = some (r, s')) (hw : Unwrapped s') : Known s' ∧ Keeps s s' := by
  cases popLoop_some h with
  | nothing => exact ⟨hk, (SameLanes.refl s).keeps⟩
  | @takes key lane event events pending _ skipped rest _ _ hlane he hp hs' =>
    rcases hs' with ⟨-, rfl⟩ | ⟨-, hs'⟩
    · -- the last event goes with its lane
      refine ⟨hk.erase key rfl rfl, keeps_of_other key (fun k hne => ?_) fun old new _ hnew => ?_⟩
      · rw [Map.lookup_erase_eq, if_neg hne]
      · rw [Map.lookup_erase_eq, if_pos rfl] at hnew
        cases hnew
    · have hk₀ : Known (s.dequeued key lane events rest pending) :=
        hk.setLane rfl (List.Subset.refl _) fun g hm hg hv => hk g lane hm (hg ▸ hlane) hv
      have hb := hs.formed.lanes.bounded hlane
      have hle (g : DelayedQueueHead) (hm : g ∈ s.delayedLanes) (hg : g.key = key) :
          g.version ≤ lane.version := hs.formed.heap_le hm (hg ▸ hlane)
      obtain ⟨hk', hother, new, hnew, hv⟩ := scheduleLaneHeadAt_known hk₀
        (hs.balanced.popFront hlane he hp rest).1
        ((Map.lookup_insert_eq _ _ _ _).trans (if_pos rfl)) hle hb hs' hw
      refine ⟨hk', keeps_of_other key (fun k hne => ?_) fun old new' hold hnew' => ?_⟩
      · rw [hother k hne, dequeued, Map.lookup_insert_eq, if_neg hne]
      · rw [hnew] at hnew'
        cases hnew'
        rw [hlane] at hold
        cases hold
        simp only at hv
        exact .inl (by omega)

theorem popReady_keeps (hs : Sound s) (hk : Known s) (h : popReady iter now s = some (r, s'))
    (hw : Unwrapped s') : Known s' ∧ Keeps s s' := by
  obtain ⟨s₁, h₁, h⟩ := Option.bind_eq_some_iff.1 h
  obtain ⟨hk₁, hsame⟩ := promoteDueHeads_known hs.formed hk h₁
  obtain ⟨s₂, h₂, hp⟩ := promoteDueHeads_spec now hs
  obtain rfl : s₁ = s₂ := Option.some.inj (h₁.symm.trans h₂)
  obtain ⟨hk', hkeeps⟩ := popLoop_keeps hp.sound hk₁ h hw
  exact ⟨hk', hsame.trans_keeps hkeeps⟩

/-! ## One call -/

theorem Empty.known (h : Empty s) : Known s := fun _ _ _ hl => (h.no_lane hl).elim

theorem step_kept (hs : Sound s) (hk : Known s) (op : QueueOp) :
    ∃ r s', step s op = some (r, s') ∧ (Unwrapped s' → Sound s' ∧ Known s' ∧ Keeps s s') := by
  cases op with
  | enqueueBack event now iter =>
    obtain ⟨s', h, hchanged⟩ := enqueueBackAt_spec iter now hs event
    refine ⟨.done, s', by simp [step, h], fun hw => ⟨(hchanged hw).sound, ?_⟩⟩
    exact enqueueBackAt_keeps hs hk h hw
  | enqueueFront event now iter =>
    obtain ⟨s', h, hchanged⟩ := enqueueFrontAt_spec iter now hs event
    refine ⟨.done, s', by simp [step, h], fun hw => ⟨(hchanged hw).sound, ?_⟩⟩
    exact enqueueFrontAt_keeps hs hk h hw
  | popReady now iter =>
    obtain ⟨r, s₁, s', h, hp, hpop⟩ := popReady_spec iter now hs
    refine ⟨.event r, s', by simp [step, h], fun hw => ⟨?_, popReady_keeps hs hk h hw⟩⟩
    cases hpop with
    | idle hsound _ _ => exact hsound
    | taken _ _ hchanged => exact (hchanged hw).sound
  | promoteDueHeads now =>
    obtain ⟨s', h, hp⟩ := promoteDueHeads_spec now hs
    obtain ⟨hk', hsame⟩ := promoteDueHeads_known hs.formed hk h
    exact ⟨.done, s', by simp [step, h], fun _ => ⟨hp.sound, hk', hsame.keeps⟩⟩
  | nextReadyDelay now =>
    obtain ⟨r, s', h, hs', -⟩ := nextReadyDelay_spec now hs
    refine ⟨.delay r, s', by simp [step, h], fun _ => ⟨hs', ?_⟩⟩
    obtain ⟨s₁, h₁, heq⟩ := Option.map_eq_some_iff.1 h
    cases heq
    obtain ⟨hk', hsame⟩ := discard_known hk h₁
    exact ⟨hk', hsame.keeps⟩
  | clearPending =>
    refine ⟨_, _, rfl, fun _ => ⟨(clearPending_empty s).sound, (clearPending_empty s).known, ?_⟩⟩
    intro k old new _ hnew
    exact ((clearPending_empty s).no_lane hnew).elim

theorem call_kept (hs : Sound s) (hk : Known s) (op : StateOp) :
    ∃ r s', call s op = some (r, s') ∧ (Unwrapped s' → Sound s' ∧ Known s' ∧ Keeps s s') := by
  cases op with
  | queue op => exact step_kept hs hk op
  | scheduleLaneHead key now iter =>
    cases hl : s.lanes.lookup key with
    | none =>
      have h : scheduleLaneHeadAt iter now s key = some s := by simp only [scheduleLaneHeadAt, hl]
      exact ⟨.done, s, by simp [call, h], fun _ => ⟨hs, hk, (SameLanes.refl s).keeps⟩⟩
    | some lane =>
      have hb := hs.formed.lanes.bounded hl
      obtain ⟨s', h, hbal, -⟩ :=
        scheduleLaneHeadAt_balanced iter now hs.balanced.tallied (fun k _ => hs.balanced.head k) hl
      refine ⟨.done, s', by simp [call, h], fun hw => ?_⟩
      obtain ⟨hk', hother, new, hnew, hnewv⟩ := scheduleLaneHeadAt_known hk hs.balanced.tallied hl
        (fun g hm hg => hs.formed.heap_le hm (hg ▸ hl)) hb h hw
      have hres := scheduleLaneHeadAt_spec hs.balanced.tallied (fun k _ => hs.balanced.head k)
        hs.formed hl h hw
      refine ⟨⟨hbal, hres.formed⟩, hk', keeps_of_other key hother fun old new' hold hnew' => ?_⟩
      rw [hl] at hold
      rw [hnew] at hnew'
      cases hold
      cases hnew'
      exact .inl (by omega)
  | discardStaleDelayedHeads =>
    obtain ⟨heap, stale, h, hs', -⟩ := discard_spec hs
    obtain ⟨hk', hsame⟩ := discard_known hk h
    exact ⟨.done, _, by simp only [call, h, Option.map_some], fun _ => ⟨hs', hk', hsame.keeps⟩⟩
  | compactDelayedHeapIfNeeded iter =>
    have hs' : Sound (LocalQueueState.compactDelayedHeapIfNeeded iter s) :=
      ⟨compact_balanced iter hs.balanced, hs.formed.compact hs.balanced.tallied iter⟩
    refine ⟨.done, _, rfl, fun _ => ⟨hs', compact_known iter hk ?_, SameLanes.keeps ?_⟩⟩
    · exact fun _ _ _ hl hd => (hs.balanced.tallied.entry hl hd).1
    · intro k
      rw [compact_lanes]

end

/-! ## Whole runs -/

/-- The entry names an existing lane and its current generation. -/
def Matches (lanes : Map QueueKey QueueLane) (h : DelayedQueueHead) : Bool :=
  (lanes.lookup h.key).any fun lane => lane.version = h.version

/-- The counters agree with the lanes and the heap. -/
structure Accounts (s : LocalQueueState) : Prop where
  pending : s.pendingCount = s.lanes.total fun lane => lane.events.length
  nonempty : ∀ k lane, s.lanes.lookup k = some lane → lane.events ≠ []
  liveLanes : s.delayedLiveCount = s.lanes.count fun lane => lane.delayedVersion.isSome
  liveHeads : s.delayedLiveCount = s.delayedLanes.countP (Matches s.lanes)
  length : s.delayedLanes.length = s.delayedLiveCount + s.delayedStaleCount
  /-- A heap entry of the current generation waits for the head. -/
  deadline : ∀ h lane, h ∈ s.delayedLanes → s.lanes.lookup h.key = some lane →
    lane.version = h.version → lane.headDeadline = some h.deadline

/-- There is an entry for the generation `v` of the lane of `k`. -/
def HasEntry (s : LocalQueueState) (k : QueueKey) (v : Nat) : Prop :=
  (k, v) ∈ s.readyLanes ∨ (k, v) ∈ s.delayedLanes.map DelayedQueueHead.ident

section
variable {t : LocalQueueState}

theorem Current.matches_iff (hc : Current s) {h : DelayedQueueHead} (hm : h ∈ s.delayedLanes) :
    Matches s.lanes h = isLive s.lanes h := by
  unfold Matches isLive
  cases hl : s.lanes.lookup h.key with
  | none => rfl
  | some lane =>
    by_cases hv : lane.version = h.version
    · have hd := hc.known hm hl hv.symm
      simp [hv, hd]
    · simp [hv]

/-- The live entries are those of the waiting lanes. -/
theorem Sound.live_eq (hs : Sound s) :
    s.delayedLiveCount = s.delayedLanes.countP (isLive s.lanes) := by
  refine Nat.le_antisymm hs.balanced.tallied.live_le ?_
  rw [List.countP_eq_length_filter, hs.balanced.tallied.live]
  have hnodup := hs.formed.heap.nodup.sublist
    (List.filter_sublist (p := isLive s.lanes).map DelayedQueueHead.ident)
  refine Map.length_le_count s.lanes DelayedQueueHead.key
    (nodup_keys hnodup fun a ha b hb hab => ?_) fun h hm => ?_
  · obtain ⟨lane, hl, hv, -⟩ := isLive_iff.1 (List.mem_filter.1 ha).2
    obtain ⟨lane', hl', hv', -⟩ := isLive_iff.1 (List.mem_filter.1 hb).2
    rw [← hab, hl] at hl'
    cases hl'
    exact hv.symm.trans hv'
  · obtain ⟨lane, hl, -, hd⟩ := isLive_iff.1 (List.mem_filter.1 hm).2
    exact ⟨lane, hl, by rw [hd]; rfl⟩

theorem Sound.accounts (hs : Sound s) (hc : Current s) : Accounts s where
  pending := hs.balanced.tallied.pending
  nonempty k lane hl := hs.formed.lanes.nonempty hl
  liveLanes := hs.balanced.tallied.live
  liveHeads := by
    rw [hs.live_eq]
    exact (List.countP_congr fun h hm => by rw [hc.matches_iff hm]).symm
  length := hs.balanced.tallied.length
  deadline h lane hm hl hv := by
    have hd := hc.known hm hl hv.symm
    exact hs.headDeadline hl hd hm (by rw [DelayedQueueHead.ident, hv])

/-- An entry is there only with its lane. -/
theorem Sound.lane_of_entry (hs : Sound s) (h : HasEntry s k v) :
    ∃ lane, s.lanes.lookup k = some lane ∧ v ≤ lane.version := by
  rcases h with hm | hm
  · exact hs.formed.ready.known hm
  · obtain ⟨head, hhead, heq⟩ := List.mem_map.1 hm
    obtain ⟨rfl, rfl⟩ := Prod.mk.inj heq
    obtain ⟨lane, hl, hle, -⟩ := hs.formed.heap.known hhead
    exact ⟨lane, hl, hle⟩

variable {ops : List StateOp}

/-- The invariants along a run, and the state it ends in. -/
theorem trace_kept (hs : Sound t) (hk : Known t) (hw : Reaches call Unwrapped t ops) :
    ∃ rs s, trace call t ops = some (rs, s) ∧ Sound s ∧ Known s := by
  induction ops generalizing t with
  | nil => exact ⟨[], t, rfl, hs, hk⟩
  | cons op ops ih =>
    obtain ⟨r, t₁, h, hkept⟩ := call_kept hs hk op
    obtain ⟨hw₁, hw⟩ := hw r t₁ h
    obtain ⟨hs₁, hk₁, -⟩ := hkept hw₁
    obtain ⟨rs, s, htrace, hend⟩ := ih hs₁ hk₁ hw
    exact ⟨r :: rs, s, by rw [trace_cons h, htrace, Option.map_some], hend⟩

/-- An entry that stays until it is of the current generation was of the current generation all
along, and the head has not changed. By induction on the run, from its end. -/
theorem trace_entry_head (hs : Sound t) (hk : Known t) (hw : Reaches call Unwrapped t ops)
    {rs : List QueueResponse} (htrace : trace call t ops = some (rs, s))
    (hstays : ∀ n ≤ ops.length, ∀ rs u, trace call t (ops.take n) = some (rs, u) → HasEntry u k v)
    (hl : s.lanes.lookup k = some lane) (hv : lane.version = v) :
    ∃ made, t.lanes.lookup k = some made ∧ made.version = v ∧ made.events ≠ [] ∧
      made.events <+: lane.events := by
  induction ops generalizing t rs with
  | nil =>
    cases htrace
    exact ⟨lane, hl, hv, hs.formed.lanes.nonempty hl, List.prefix_rfl⟩
  | cons op ops ih =>
    obtain ⟨r, t₁, h, hkept⟩ := call_kept hs hk op
    obtain ⟨hw₁, hw⟩ := hw r t₁ h
    obtain ⟨hs₁, hk₁, hkeeps⟩ := hkept hw₁
    rw [trace_cons h] at htrace
    obtain ⟨⟨rs₁, s₁⟩, htrace₁, heq⟩ := Option.map_eq_some_iff.1 htrace
    obtain ⟨-, rfl⟩ := Prod.mk.inj heq
    have hstays₁ : ∀ n ≤ ops.length, ∀ rs u,
        trace call t₁ (ops.take n) = some (rs, u) → HasEntry u k v := by
      intro n hn rs u hu
      refine hstays (n + 1) (by simpa using hn) (r :: rs) u ?_
      rw [List.take_succ_cons, trace_cons h, hu, Option.map_some]
    obtain ⟨made₁, hmade₁, hv₁, -, hprefix⟩ := ih hs₁ hk₁ hw htrace₁ hstays₁
    obtain ⟨old, hold, hle⟩ := hs.lane_of_entry (hstays 0 (Nat.zero_le _) [] t rfl)
    rcases hkeeps k old made₁ hold hmade₁ with hlt | ⟨hveq, hold'⟩
    · omega
    · exact ⟨old, hold, hveq.trans hv₁, hs.formed.lanes.nonempty hold, hold'.trans hprefix⟩

end

/-- **The accounts of a queue.** After any calls at any times none of whose generations wraps, no
counter has underflowed and all counters agree with the lanes and the heap. And an entry of the
current generation of a lane, in the ready list or in the heap, was made for the event that is at
the head of the lane now: ever since the entry is there, here since the call `n`, the lane has been
there with this generation, and events have only joined it at its end. -/
theorem trace_accounts (ops : List StateOp) (hwrap : Reaches call Unwrapped default ops) :
    ∃ rs s, trace call default ops = some (rs, s) ∧ Accounts s ∧
      ∀ n ≤ ops.length, ∀ k v lane,
        (∀ m, n ≤ m → m ≤ ops.length → ∀ rs u,
          trace call default (ops.take m) = some (rs, u) → HasEntry u k v) →
        s.lanes.lookup k = some lane → lane.version = v →
        ∃ rs t made, trace call default (ops.take n) = some (rs, t) ∧
          t.lanes.lookup k = some made ∧ made.version = v ∧ made.events ≠ [] ∧
          made.events <+: lane.events := by
  have hs := default_empty.sound
  have hk := default_empty.known
  obtain ⟨rs, s, htrace, hs', hk'⟩ := trace_kept hs hk hwrap
  refine ⟨rs, s, htrace, hs'.accounts (hs'.current hk'), fun n hn k v lane hstays hl hv => ?_⟩
  -- the run is cut where the entry is first looked at
  rw [← List.take_append_drop n ops] at hwrap htrace
  obtain ⟨rs₁, t, htrace₁, hs₁, hk₁⟩ := trace_kept hs hk hwrap.left
  rw [trace_append, htrace₁, Option.bind_some] at htrace
  obtain ⟨⟨rs₂, s₂⟩, htrace₂, heq⟩ := Option.map_eq_some_iff.1 htrace
  obtain ⟨-, rfl⟩ := Prod.mk.inj heq
  have hstays₁ : ∀ m ≤ (ops.drop n).length, ∀ rs u,
      trace call t ((ops.drop n).take m) = some (rs, u) → HasEntry u k v := by
    intro m hm rs u hu
    refine hstays (n + m) (Nat.le_add_right n m) ?_ (rs₁ ++ rs) u ?_
    · rw [List.length_drop] at hm
      omega
    · rw [List.take_add, trace_append, htrace₁, Option.bind_some, hu, Option.map_some]
  obtain ⟨made, hmade, hvm, hne, hprefix⟩ :=
    trace_entry_head hs₁ hk₁ (hwrap.right htrace₁) htrace₂ hstays₁ hl hv
  exact ⟨rs₁, t, made, htrace₁, hmade, hvm, hne, hprefix⟩

/-- The lane of `a` goes with its only event and comes back with a delayed one, at an earlier
time. -/
noncomputable def removedAndRecreated : List StateOp :=
  [.queue (.enqueueBack (keyedEvent "a1" "a" (some 5)) 0 someOrder),
    .queue (.popReady 5 someOrder),
    .queue (.enqueueBack (keyedEvent "a2" "a" (some 9)) 4 someOrder),
    .scheduleLaneHead (some ⟨"a"⟩) 4 someOrder, .discardStaleDelayedHeads]

theorem trace_accounts_recreated :
    ∃ rs s, trace call default removedAndRecreated = some (rs, s) ∧ Accounts s := by
  obtain ⟨rs, s, htrace, haccounts, -⟩ := trace_accounts removedAndRecreated (by decide +kernel)
  exact ⟨rs, s, htrace, haccounts⟩

end EventBus.Local.LocalQueueState
