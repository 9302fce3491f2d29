import EventBus.Local.QueueSteps

/-!
# The queue's bookkeeping

The invariant of the queue (`Sound`) has two parts. `Balanced` has the counters, and an entry in the
heap for each lane that waits for its head; it holds for every run. `Formed` ties the entries to the
lanes, and holds as long as no generation wraps around. What makes lazy deletion sound, although a
removed lane comes back with its generation restarted, is in two of its parts: the entries of a key
name generations the lane has already had, strictly increasing along the ready list (`ReadyOk`), and
every heap entry carries a deadline of an event that is still in its lane (`HeapOk.known`). A
receive first drains all deadlines up to `now`, so when the last event of a lane leaves, no entry of
the lane is left behind.

`HeadEntry` is broken for the key of an event put at the front, until the lane is scheduled again.
There is one lemma here for each change of the state that `Formed` has to survive; those about
`Balanced` are in `QueueCount.lean`.
-/

namespace EventBus.Local

open Lib

/-- What tells heap entries apart: the lane and the generation they were made for. -/
def DelayedQueueHead.ident (h : DelayedQueueHead) : QueueKey × Nat := (h.key, h.version)

namespace LocalQueueState

variable {lanes : Map QueueKey QueueLane} {heap : List DelayedQueueHead}
  {ready : List (QueueKey × Nat)} {s s' : LocalQueueState} {h : DelayedQueueHead} {lane : QueueLane}
  {k key : QueueKey} {v now : Nat} {e : LocalEvent} {events : List LocalEvent}

/-! ## What stays the same -/

/-- `s'` differs from `s` in the bookkeeping only. -/
structure Same (s s' : LocalQueueState) : Prop where
  events : ∀ k, s'.events k = s.events k
  pendingCount : s'.pendingCount = s.pendingCount
  inFlight : s'.inFlight = s.inFlight
  closed : s'.closed = s.closed
  nextDeliveryToken : s'.nextDeliveryToken = s.nextDeliveryToken

theorem Same.refl (s : LocalQueueState) : Same s s := ⟨fun _ => rfl, rfl, rfl, rfl, rfl⟩

theorem Same.trans {a b c : LocalQueueState} (h : Same a b) (h' : Same b c) : Same a c :=
  ⟨fun k => (h'.events k).trans (h.events k), h'.pendingCount.trans h.pendingCount,
    h'.inFlight.trans h.inFlight, h'.closed.trans h.closed,
    h'.nextDeliveryToken.trans h.nextDeliveryToken⟩

theorem Same.setHeap (s : LocalQueueState) (heap : List DelayedQueueHead) (stale : Nat) :
    Same s { s with delayedLanes := heap, delayedStaleCount := stale } :=
  ⟨fun _ => rfl, rfl, rfl, rfl, rfl⟩

theorem events_of_lookup (hl : s.lanes.lookup k = some lane) : s.events k = lane.events := by
  rw [events, hl, Option.elim_some]

theorem events_getD (s : LocalQueueState) (k : QueueKey) :
    ((s.lanes.lookup k).getD .default).events = s.events k := by
  unfold events
  cases s.lanes.lookup k <;> rfl

/-- A lane that changes in its generations only. -/
theorem events_insert {v : Nat} {d : Option Nat} (hl : s.lanes.lookup key = some lane)
    (hs : s'.lanes = s.lanes.insert key { lane with version := v, delayedVersion := d })
    (k : QueueKey) : s'.events k = s.events k := by
  unfold events
  rw [hs, Map.lookup_insert_eq]
  split
  · rename_i hk
    rw [hk, hl, Option.elim_some, Option.elim_some]
  · rfl

/-- `clear_pending` hands back each key's events. -/
theorem filter_pendingEvents
    (hkeyed : ∀ {k lane e}, s.lanes.lookup k = some lane → e ∈ lane.events → e.orderingKey = k)
    (k : QueueKey) :
    s.pendingEvents.filter (fun e => e.orderingKey = k) = (s.events k : Multiset LocalEvent) := by
  -- the lanes of other keys have no event of `k`
  have hnone : ∀ lanes : Map QueueKey QueueLane, lanes.lookup k = none →
      (∀ j lane, lanes.lookup j = some lane → s.lanes.lookup j = some lane) →
      (lanes.total fun lane => (lane.events : Multiset LocalEvent)).filter
        (fun e => e.orderingKey = k) = 0 := by
    intro lanes hk hsub
    refine Multiset.filter_eq_nil.2 fun e he hek => ?_
    obtain ⟨j, lane, hj, he⟩ := (Map.mem_total lanes).1 he
    have := hkeyed (hsub j lane hj) he
    rw [← this, hek, hk] at hj
    cases hj
  unfold pendingEvents
  cases hl : s.lanes.lookup k with
  | none =>
    rw [hnone s.lanes hl fun _ _ h => h, events, hl]
    rfl
  | some lane =>
    rw [Map.total_erase _ hl, Multiset.filter_add, hnone (s.lanes.erase k), add_zero,
      events_of_lookup hl]
    · exact Multiset.filter_eq_self.2 fun e he => hkeyed hl he
    · rw [Map.lookup_erase_eq, if_pos rfl]
    · intro j lane' hj
      rw [Map.lookup_erase_eq] at hj
      split at hj
      · cases hj
      · exact hj

/-! ## The heap -/

theorem isLive_iff : isLive lanes h = true ↔
    ∃ lane, lanes.lookup h.key = some lane ∧ lane.version = h.version ∧
      lane.delayedVersion = some h.version := by
  unfold isLive
  cases hl : lanes.lookup h.key <;> simp

/-- The generation a lane knows of is live. -/
theorem isLive_of_delayed (hl : lanes.lookup k = some lane)
    (hd : lane.delayedVersion = some lane.version) (hh : h.ident = (k, lane.version)) :
    isLive lanes h = true := by
  obtain ⟨hk, hv⟩ := Prod.mk.inj hh
  exact isLive_iff.2 ⟨lane, hk ▸ hl, hv.symm, hv ▸ hd⟩

theorem pushHead_perm (h : DelayedQueueHead) (heap : List DelayedQueueHead) :
    (pushHead h heap).Perm (h :: heap) := List.perm_orderedInsert _ h heap

theorem mem_pushHead {g : DelayedQueueHead} : g ∈ pushHead h heap ↔ g = h ∨ g ∈ heap :=
  (pushHead_perm h heap).mem_iff.trans List.mem_cons

/-- A pushed entry finds its place: the deadlines stay sorted. -/
theorem pushHead_sorted (hs : heap.Pairwise fun a b => a.deadline ≤ b.deadline) :
    (pushHead h heap).Pairwise fun a b => a.deadline ≤ b.deadline := by
  induction heap with
  | nil => exact List.pairwise_singleton _ _
  | cons g heap ih =>
    obtain ⟨hg, hs⟩ := List.pairwise_cons.1 hs
    unfold pushHead at ih ⊢
    rw [List.orderedInsert_cons]
    split
    · rename_i hle
      have hhg : h.deadline ≤ g.deadline := hle.elim Nat.le_of_lt fun he => Nat.le_of_eq he.1
      refine List.pairwise_cons.2 ⟨fun a ha => ?_, List.pairwise_cons.2 ⟨hg, hs⟩⟩
      obtain rfl | ha := List.mem_cons.1 ha
      · exact hhg
      · exact hhg.trans (hg a ha)
    · rename_i hle
      have hgh : g.deadline ≤ h.deadline := Nat.le_of_not_lt fun hlt => hle (.inl hlt)
      refine List.pairwise_cons.2 ⟨fun a ha => ?_, ih hs⟩
      obtain rfl | ha := mem_pushHead.1 ha
      · exact hgh
      · exact hg a ha

theorem mem_ident_pushHead {i : QueueKey × Nat} (hm : i ∈ heap.map DelayedQueueHead.ident) :
    i ∈ (pushHead h heap).map DelayedQueueHead.ident := by
  obtain ⟨g, hg, hid⟩ := List.mem_map.1 hm
  exact List.mem_map.2 ⟨g, mem_pushHead.2 (.inr hg), hid⟩

/-- Entries of one key differ in their generations. -/
theorem nodup_keys (hn : (heap.map DelayedQueueHead.ident).Nodup)
    (hv : ∀ a ∈ heap, ∀ b ∈ heap, a.key = b.key → a.version = b.version) :
    (heap.map DelayedQueueHead.key).Nodup :=
  List.pairwise_map.2 ((List.pairwise_map.1 hn).imp_of_mem fun ha hb hne hab =>
    hne (Prod.ext hab (hv _ ha _ hb hab)))

/-- All entries are later than `now` if the first one is. -/
theorem later_of_sorted {heap : List DelayedQueueHead}
    (hsorted : heap.Pairwise fun a b => a.deadline ≤ b.deadline)
    (hh : ∀ h, heap.head? = some h → now < h.deadline) : ∀ h ∈ heap, now < h.deadline := by
  intro h hm
  cases heap with
  | nil => cases hm
  | cons g heap =>
    have hg := hh g rfl
    obtain rfl | hm := List.mem_cons.1 hm
    · exact hg
    · exact lt_of_lt_of_le hg ((List.pairwise_cons.1 hsorted).1 h hm)

/-! ## Compaction -/

section
variable {visited : List QueueKey} {live : Nat}

/-- The entry is the live one of its lane, with the deadline of the lane's head. -/
def Represents (lanes : Map QueueKey QueueLane) (h : DelayedQueueHead) : Prop :=
  ∃ lane, lanes.lookup h.key = some lane ∧ lane.delayedVersion = some h.version ∧
    lane.headDeadline = some h.deadline

/-- The heap rebuilt from the lanes visited so far. -/
structure CompactOk (lanes : Map QueueKey QueueLane) (visited : List QueueKey)
    (heap : List DelayedQueueHead) (live : Nat) : Prop where
  sound : ∀ {h}, h ∈ heap → h.key ∈ visited ∧ Represents lanes h
  complete : ∀ {k lane v d}, k ∈ visited → lanes.lookup k = some lane →
    lane.delayedVersion = some v → lane.headDeadline = some d →
    (k, v) ∈ heap.map DelayedQueueHead.ident
  live : live = heap.length
  sorted : heap.Pairwise fun a b => a.deadline ≤ b.deadline
  nodup : (heap.map DelayedQueueHead.ident).Nodup

/-- A visited lane that adds no entry. -/
theorem CompactOk.skip (hc : CompactOk lanes visited heap live)
    (hk : ∀ {lane v d}, lanes.lookup key = some lane →
      lane.delayedVersion = some v → lane.headDeadline = some d → False) :
    CompactOk lanes (visited ++ [key]) heap live := by
  refine ⟨fun hm => ?_, fun hv hl hd hx => ?_, hc.live, hc.sorted, hc.nodup⟩
  · exact ⟨List.mem_append_left _ (hc.sound hm).1, (hc.sound hm).2⟩
  · obtain hv | hv := List.mem_append.1 hv
    · exact hc.complete hv hl hd hx
    · cases List.mem_singleton.1 hv
      exact (hk hl hd hx).elim

/-- A visited lane whose head is delayed. -/
theorem CompactOk.push (hc : CompactOk lanes visited heap live) (hr : Represents lanes h)
    (hn : h.key ∉ visited) : CompactOk lanes (visited ++ [h.key]) (pushHead h heap) (live + 1) := by
  have hperm := pushHead_perm h heap
  refine ⟨fun hm => ?_, fun {k lane v d} hv hl hd hx => ?_, ?_, pushHead_sorted hc.sorted, ?_⟩
  · obtain rfl | hm := mem_pushHead.1 hm
    · exact ⟨List.mem_append_right _ (List.mem_singleton_self _), hr⟩
    · exact ⟨List.mem_append_left _ (hc.sound hm).1, (hc.sound hm).2⟩
  · rw [(hperm.map _).mem_iff, List.map_cons, List.mem_cons]
    obtain hv | hv := List.mem_append.1 hv
    · exact .inr (hc.complete hv hl hd hx)
    · cases List.mem_singleton.1 hv
      obtain ⟨lane', hl', hd', -⟩ := hr
      rw [hl] at hl'
      cases hl'
      rw [hd] at hd'
      cases hd'
      exact .inl rfl
  · rw [hperm.length_eq, hc.live, List.length_cons]
  · rw [(hperm.map _).nodup_iff, List.map_cons, List.nodup_cons]
    refine ⟨fun hm => ?_, hc.nodup⟩
    obtain ⟨g, hg, hid⟩ := List.mem_map.1 hm
    exact hn ((Prod.mk.inj hid).1 ▸ (hc.sound hg).1)

/-- The loop rebuilds the heap of all lanes it visits. -/
theorem compactLoop_spec (keys : List QueueKey) (sequence : Nat)
    (hc : CompactOk lanes visited heap live) (hn : (visited ++ keys).Nodup) :
    ∃ sequence' heap' live',
      compactLoop lanes keys (sequence, heap, live) = (sequence', heap', live') ∧
        CompactOk lanes (visited ++ keys) heap' live' := by
  induction keys generalizing visited sequence heap live with
  | nil => exact ⟨_, _, _, rfl, by rw [List.append_nil]; exact hc⟩
  | cons key keys ih =>
    have hassoc : visited ++ key :: keys = (visited ++ [key]) ++ keys := by simp
    rw [hassoc] at hn ⊢
    have hnew : key ∉ visited := by
      have := (List.nodup_append.1 (List.nodup_append.1 hn).1).2.2
      exact fun hm => this key hm key (List.mem_singleton_self _) rfl
    unfold compactLoop
    split
    · rename_i hl
      exact ih _ (hc.skip fun hl' => by rw [hl] at hl'; cases hl') hn
    · rename_i lane hl
      split
      · rename_i version deadline hd hx
        have hr : Represents lanes { deadline, sequence := wrappingSucc sequence, key, version } :=
          ⟨lane, hl, hd, hx⟩
        exact ih _ (hc.push hr hnew) hn
      · rename_i hno
        refine ih _ (hc.skip fun {lane' v d} hl' hd hx => ?_) hn
        rw [hl] at hl'
        cases hl'
        exact hno v d hd hx

/-- Compaction does nothing, or builds the heap again. -/
theorem compact_cases (iter : IterOrder) (s : LocalQueueState) :
    compactDelayedHeapIfNeeded iter s = s ∨ ∃ sequence heap,
      compactDelayedHeapIfNeeded iter s = { s with
        nextDelaySequence := sequence, delayedLanes := heap, delayedLiveCount := heap.length
        delayedStaleCount := 0 } ∧
      CompactOk s.lanes (iter.keys s.lanes.keys) heap heap.length := by
  unfold compactDelayedHeapIfNeeded
  split
  · exact .inl rfl
  have h0 : CompactOk s.lanes [] [] 0 := ⟨by simp, by simp, rfl, .nil, List.nodup_nil⟩
  obtain ⟨sequence, heap, live, heq, hc⟩ := compactLoop_spec (iter.keys s.lanes.keys)
    s.nextDelaySequence h0 (by simpa using iter.nodup _)
  rw [List.nil_append] at hc
  obtain rfl := hc.live
  rw [heq]
  exact .inr ⟨sequence, heap, rfl, hc⟩

end

theorem compact_same (iter : IterOrder) (s : LocalQueueState) :
    Same s (compactDelayedHeapIfNeeded iter s) := by
  unfold compactDelayedHeapIfNeeded
  split
  · exact .refl s
  · exact ⟨fun _ => rfl, rfl, rfl, rfl, rfl⟩

/-! ## The invariant -/

structure Tallied (s : LocalQueueState) : Prop where
  keyed : ∀ {k lane e}, s.lanes.lookup k = some lane → e ∈ lane.events → e.orderingKey = k
  pending : s.pendingCount = s.lanes.total fun lane => lane.events.length
  live : s.delayedLiveCount = s.lanes.count fun lane => lane.delayedVersion.isSome
  length : s.delayedLanes.length = s.delayedLiveCount + s.delayedStaleCount
  sorted : s.delayedLanes.Pairwise fun a b => a.deadline ≤ b.deadline
  entry : ∀ {k lane v}, s.lanes.lookup k = some lane → lane.delayedVersion = some v →
    v = lane.version ∧ (k, v) ∈ s.delayedLanes.map DelayedQueueHead.ident

/-- If the lane of `k` waits for its head, an entry has the deadline of the head. -/
structure HeadEntry (s : LocalQueueState) (k : QueueKey) : Prop where
  deadline : ∀ {lane v}, s.lanes.lookup k = some lane → lane.delayedVersion = some v →
    ∃ h ∈ s.delayedLanes, h.ident = (k, v) ∧ lane.headDeadline = some h.deadline

/-- The invariant between two calls. -/
structure Balanced (s : LocalQueueState) : Prop where
  tallied : Tallied s
  head : ∀ k, HeadEntry s k

structure LanesOk (lanes : Map QueueKey QueueLane) : Prop where
  nonempty : ∀ {k lane}, lanes.lookup k = some lane → lane.events ≠ []
  keyed : ∀ {k lane e}, lanes.lookup k = some lane → e ∈ lane.events → e.orderingKey = k
  bounded : ∀ {k lane}, lanes.lookup k = some lane → lane.version < 2 ^ 64

structure ReadyOk (lanes : Map QueueKey QueueLane) (ready : List (QueueKey × Nat)) : Prop where
  known : ∀ {k v}, (k, v) ∈ ready → ∃ lane, lanes.lookup k = some lane ∧ v ≤ lane.version
  increasing : ready.Pairwise fun a b => a.1 = b.1 → a.2 < b.2

structure HeapOk (lanes : Map QueueKey QueueLane) (heap : List DelayedQueueHead) : Prop where
  known : ∀ {h}, h ∈ heap → ∃ lane, lanes.lookup h.key = some lane ∧ h.version ≤ lane.version ∧
    ∃ e ∈ lane.events, e.notBefore = some h.deadline
  sorted : heap.Pairwise fun a b => a.deadline ≤ b.deadline
  nodup : (heap.map DelayedQueueHead.ident).Nodup

/-- The entries are those of the lanes. -/
structure Formed (s : LocalQueueState) : Prop where
  lanes : LanesOk s.lanes
  ready : ReadyOk s.lanes s.readyLanes
  heap : HeapOk s.lanes s.delayedLanes
  /-- A lane that waits for its head is not ready. -/
  not_ready : ∀ {k lane v}, s.lanes.lookup k = some lane → lane.delayedVersion = some v →
    (k, v) ∉ s.readyLanes

/-- The invariant between two calls, as long as no generation wraps around. -/
structure Sound (s : LocalQueueState) : Prop where
  balanced : Balanced s
  formed : Formed s

/-- The entry that a lane waits for has the deadline of its head. -/
theorem Sound.headDeadline (hs : Sound s) (hl : s.lanes.lookup k = some lane)
    (hd : lane.delayedVersion = some v) (hm : h ∈ s.delayedLanes) (hid : h.ident = (k, v)) :
    lane.headDeadline = some h.deadline := by
  obtain ⟨g, hg, hgid, hx⟩ := (hs.balanced.head k).deadline hl hd
  rw [hx, List.inj_on_of_nodup_map hs.formed.heap.nodup hg hm (hgid.trans hid.symm)]

/-! ## The empty queue -/

/-- A queue without lanes and entries. -/
structure Empty (s : LocalQueueState) : Prop where
  lanes : s.lanes = ∅
  pending : s.pendingCount = 0
  ready : s.readyLanes = []
  heap : s.delayedLanes = []
  live : s.delayedLiveCount = 0
  stale : s.delayedStaleCount = 0

theorem Empty.lookup (h : Empty s) (k : QueueKey) : s.lanes.lookup k = none := by
  rw [h.lanes, Finmap.lookup_empty]

theorem Empty.no_lane (h : Empty s) (hl : s.lanes.lookup k = some lane) : False := by
  rw [h.lookup] at hl
  cases hl

theorem default_empty : Empty default := ⟨rfl, rfl, rfl, rfl, rfl, rfl⟩

theorem clearPending_empty (s : LocalQueueState) : Empty (clearPending s).2 :=
  ⟨rfl, rfl, rfl, rfl, rfl, rfl⟩

theorem Empty.balanced (h : Empty s) : Balanced s where
  tallied :=
    { keyed := fun hl => (h.no_lane hl).elim
      pending := by rw [h.pending, h.lanes]; rfl
      live := by rw [h.live, h.lanes]; rfl
      length := by rw [h.heap, h.live, h.stale]; rfl
      sorted := by rw [h.heap]; exact .nil
      entry := fun hl => (h.no_lane hl).elim }
  head _ := ⟨fun hl => (h.no_lane hl).elim⟩

theorem Empty.sound (h : Empty s) : Sound s where
  balanced := h.balanced
  formed :=
    { lanes := ⟨fun hl => (h.no_lane hl).elim, fun hl => (h.no_lane hl).elim,
        fun hl => (h.no_lane hl).elim⟩
      ready := by rw [h.ready]; exact ⟨by simp, .nil⟩
      heap := by rw [h.heap]; exact ⟨by simp, .nil, List.nodup_nil⟩
      not_ready := fun hl => (h.no_lane hl).elim }

/-! ## Entries leave -/

theorem ReadyOk.sublist {ready' : List (QueueKey × Nat)} (hi : ReadyOk lanes ready)
    (hr : ready'.Sublist ready) : ReadyOk lanes ready' :=
  ⟨fun hm => hi.known (hr.subset hm), hi.increasing.sublist hr⟩

theorem HeapOk.sublist {heap' : List DelayedQueueHead} (hi : HeapOk lanes heap)
    (hh : heap'.Sublist heap) : HeapOk lanes heap' :=
  ⟨fun hm => hi.known (hh.subset hm), hi.sorted.sublist hh, hi.nodup.sublist (hh.map _)⟩

theorem Formed.shrink (hf : Formed s) (hl : s'.lanes = s.lanes)
    (hr : s'.readyLanes.Sublist s.readyLanes) (hh : s'.delayedLanes.Sublist s.delayedLanes) :
    Formed s' where
  lanes := hl ▸ hf.lanes
  ready := hl ▸ hf.ready.sublist hr
  heap := hl ▸ hf.heap.sublist hh
  not_ready hlane hd hm := hf.not_ready (hl ▸ hlane) hd (hr.subset hm)

/-! ## A changed lane -/

theorem LanesOk.insert (hi : LanesOk lanes) (hne : lane.events ≠ [])
    (hk : ∀ e ∈ lane.events, e.orderingKey = key) (hb : lane.version < 2 ^ 64) :
    LanesOk (lanes.insert key lane) where
  nonempty hl := by
    rw [Map.lookup_insert_eq] at hl
    split at hl
    · cases hl; exact hne
    · exact hi.nonempty hl
  keyed hl he := by
    rw [Map.lookup_insert_eq] at hl
    split at hl
    · cases hl; rename_i hj; rw [hj]; exact hk _ he
    · exact hi.keyed hl he
  bounded hl := by
    rw [Map.lookup_insert_eq] at hl
    split at hl
    · cases hl; exact hb
    · exact hi.bounded hl

/-- A ready list stays good if the changed lane has not lost a generation. -/
theorem ReadyOk.insert {ready : List (QueueKey × Nat)} (hi : ReadyOk lanes ready)
    (hv : ∀ old, lanes.lookup key = some old → old.version ≤ lane.version) :
    ReadyOk (lanes.insert key lane) ready := by
  refine ⟨fun {k v} hm => ?_, hi.increasing⟩
  obtain ⟨old, hl, hle⟩ := hi.known hm
  rw [Map.lookup_insert_eq]
  split
  · rename_i hk
    exact ⟨lane, rfl, hle.trans (hv old (hk ▸ hl))⟩
  · exact ⟨old, hl, hle⟩

/-- A heap stays good if the changed lane has not lost a generation or a referenced event. -/
theorem HeapOk.insert (hi : HeapOk lanes heap)
    (hv : ∀ old, lanes.lookup key = some old → old.version ≤ lane.version)
    (he : ∀ h ∈ heap, h.key = key → ∃ e ∈ lane.events, e.notBefore = some h.deadline) :
    HeapOk (lanes.insert key lane) heap := by
  refine ⟨fun {h} hm => ?_, hi.sorted, hi.nodup⟩
  obtain ⟨old, hl, hle, hev⟩ := hi.known hm
  rw [Map.lookup_insert_eq]
  split
  · rename_i hk
    exact ⟨lane, rfl, hle.trans (hv old (hk ▸ hl)), he h hm hk⟩
  · exact ⟨old, hl, hle, hev⟩

/-- One lane changes. It has lost no generation, and no event that an entry refers to. -/
theorem Formed.setLane (hf : Formed s) (hl : s'.lanes = s.lanes.insert key lane)
    (hne : lane.events ≠ []) (hk : ∀ e ∈ lane.events, e.orderingKey = key)
    (hb : lane.version < 2 ^ 64)
    (hv : ∀ old, s.lanes.lookup key = some old → old.version ≤ lane.version)
    (hr : s'.readyLanes.Sublist s.readyLanes) (hh : s'.delayedLanes.Sublist s.delayedLanes)
    (he : ∀ h ∈ s'.delayedLanes, h.key = key → ∃ e ∈ lane.events, e.notBefore = some h.deadline)
    (hn : ∀ v, lane.delayedVersion = some v → (key, v) ∉ s'.readyLanes) : Formed s' where
  lanes := hl ▸ hf.lanes.insert hne hk hb
  ready := hl ▸ (hf.ready.sublist hr).insert hv
  heap := hl ▸ (hf.heap.sublist hh).insert hv he
  not_ready {k lane' v} hlane hd := by
    rw [hl, Map.lookup_insert_eq] at hlane
    split at hlane
    · rename_i hkey
      cases hlane
      exact hkey ▸ hn v hd
    · exact fun hm => hf.not_ready hlane hd (hr.subset hm)

/-- A lane changes in its generations only. -/
theorem Formed.renew {d : Option Nat} (hf : Formed s) (hlane : s.lanes.lookup key = some lane)
    (hl : s'.lanes = s.lanes.insert key { lane with version := v, delayedVersion := d })
    (hv : lane.version ≤ v) (hb : v < 2 ^ 64) (hr : s'.readyLanes.Sublist s.readyLanes)
    (hh : s'.delayedLanes.Sublist s.delayedLanes)
    (hn : ∀ w, d = some w → (key, w) ∉ s'.readyLanes) : Formed s' := by
  have hne := hf.lanes.nonempty hlane
  refine hf.setLane hl hne (fun e he => hf.lanes.keyed hlane he) hb (fun old ho => ?_) hr hh
    (fun h hm hk => ?_) hn
  · rw [hlane] at ho
    cases ho
    exact hv
  · obtain ⟨old, ho, -, he⟩ := hf.heap.known (hh.subset hm)
    rw [hk, hlane] at ho
    cases ho
    exact he

/-- No entry of a key that has no lane. -/
theorem Formed.no_entry (hf : Formed s) (hl : s.lanes.lookup key = none) :
    (∀ v, (key, v) ∉ s.readyLanes) ∧ ∀ h ∈ s.delayedLanes, h.key ≠ key := by
  refine ⟨fun v hm => ?_, fun h hm hk => ?_⟩
  · obtain ⟨lane, hlane, -⟩ := hf.ready.known hm
    rw [hl] at hlane
    cases hlane
  · obtain ⟨lane, hlane, -⟩ := hf.heap.known hm
    rw [hk, hl] at hlane
    cases hlane

/-- The lane of a key leaves with the last entry about it. -/
theorem Formed.removeLane (hf : Formed s) (hl : s'.lanes = s.lanes.erase key)
    (hr : s'.readyLanes.Sublist s.readyLanes) (hh : s'.delayedLanes = s.delayedLanes)
    (hnr : ∀ v, (key, v) ∉ s'.readyLanes) (hnh : ∀ h ∈ s'.delayedLanes, h.key ≠ key) :
    Formed s' := by
  have hlookup {k : QueueKey} (hk : k ≠ key) : s'.lanes.lookup k = s.lanes.lookup k := by
    rw [hl, Map.lookup_erase_eq, if_neg hk]
  have hback {k : QueueKey} {l : QueueLane} (hkl : s'.lanes.lookup k = some l) :
      s.lanes.lookup k = some l := by
    rw [hl, Map.lookup_erase_eq] at hkl
    split at hkl
    · cases hkl
    · exact hkl
  refine ⟨⟨fun hl' => hf.lanes.nonempty (hback hl'), fun hl' => hf.lanes.keyed (hback hl'),
    fun hl' => hf.lanes.bounded (hback hl')⟩, ⟨fun {k v} hm => ?_, hf.ready.increasing.sublist hr⟩,
    ⟨fun {h} hm => ?_, hh ▸ hf.heap.sorted, hh ▸ hf.heap.nodup⟩,
    fun hl' hd hm => hf.not_ready (hback hl') hd (hr.subset hm)⟩
  · rw [hlookup (fun hk => hnr v (hk ▸ hm))]
    exact hf.ready.known (hr.subset hm)
  · rw [hlookup (hnh h hm)]
    exact hf.heap.known (hh ▸ hm)

/-! ## New entries -/

/-- A generation the lane has not reached has no entry. -/
theorem Formed.fresh (hf : Formed s) (hl : s.lanes.lookup key = some lane) (hv : lane.version < v) :
    (key, v) ∉ s.readyLanes ∧ (key, v) ∉ s.delayedLanes.map DelayedQueueHead.ident := by
  constructor
  · intro hm
    obtain ⟨lane', hl', hle⟩ := hf.ready.known hm
    rw [hl] at hl'
    cases hl'
    omega
  · intro hm
    obtain ⟨h, hm, hfd⟩ := List.mem_map.1 hm
    obtain ⟨hk, hv'⟩ := Prod.mk.inj hfd
    obtain ⟨lane', hl', hle, -⟩ := hf.heap.known hm
    rw [hk, hl] at hl'
    cases hl'
    omega

/-- The lane's current generation becomes ready. -/
theorem Formed.pushReady (hf : Formed s) (hl : s.lanes.lookup key = some lane)
    (hd : lane.delayedVersion = none) (hn : (key, lane.version) ∉ s.readyLanes) :
    Formed { s with readyLanes := s.readyLanes ++ [(key, lane.version)] } := by
  refine ⟨hf.lanes, ⟨fun {k v} hm => ?_, ?_⟩, hf.heap, fun {k lane' v} hl' hd' hm => ?_⟩
  · obtain hm | hm := List.mem_append.1 hm
    · exact hf.ready.known hm
    · cases List.mem_singleton.1 hm
      exact ⟨lane, hl, le_rfl⟩
  · refine List.pairwise_append.2 ⟨hf.ready.increasing, List.pairwise_singleton _ _, ?_⟩
    rintro ⟨k, v⟩ hm b hb hk
    cases List.mem_singleton.1 hb
    cases hk
    obtain ⟨lane', hl', hle⟩ := hf.ready.known hm
    rw [hl] at hl'
    cases hl'
    exact lt_of_le_of_ne hle fun he : v = lane.version => hn (he ▸ hm)
  · obtain hm | hm := List.mem_append.1 hm
    · exact hf.not_ready hl' hd' hm
    · cases List.mem_singleton.1 hm
      rw [hl] at hl'
      cases hl'
      rw [hd] at hd'
      cases hd'

/-- The lane's current generation is delayed to the deadline of one of its events. -/
theorem Formed.pushDelayed (hf : Formed s) (hl : s.lanes.lookup h.key = some lane)
    (hv : h.version = lane.version) (hn : h.ident ∉ s.readyLanes)
    (hnh : h.ident ∉ s.delayedLanes.map DelayedQueueHead.ident)
    (he : ∃ e ∈ lane.events, e.notBefore = some h.deadline) (sequence live : Nat) :
    Formed { s with
      nextDelaySequence := sequence
      delayedLanes := pushHead h s.delayedLanes
      lanes := s.lanes.insert h.key { lane with delayedVersion := some lane.version }
      delayedLiveCount := live } := by
  have h₁ : Formed { s with
      lanes := s.lanes.insert h.key { lane with delayedVersion := some lane.version } } := by
    refine hf.renew hl rfl le_rfl (hf.lanes.bounded hl) (.refl _) (.refl _) fun w hw => ?_
    cases hw
    rw [← hv]
    exact hn
  refine ⟨h₁.lanes, h₁.ready, ⟨fun {g} hg => ?_, pushHead_sorted hf.heap.sorted, ?_⟩, h₁.not_ready⟩
  · obtain rfl | hg := mem_pushHead.1 hg
    · exact ⟨_, (Map.lookup_insert_eq _ _ _ _).trans (if_pos rfl), hv.le, he⟩
    · exact h₁.heap.known hg
  · rw [((pushHead_perm h s.delayedLanes).map _).nodup_iff, List.map_cons, List.nodup_cons]
    exact ⟨hnh, hf.heap.nodup⟩

/-- Compaction drops stale entries only. -/
theorem Formed.compact (hf : Formed s) (ht : Tallied s) (iter : IterOrder) :
    Formed (compactDelayedHeapIfNeeded iter s) := by
  rcases compact_cases iter s with heq | ⟨sequence, heap, heq, hc⟩
  · rwa [heq]
  rw [heq]
  refine ⟨hf.lanes, hf.ready, ⟨fun hm => ?_, hc.sorted, hc.nodup⟩, hf.not_ready⟩
  obtain ⟨-, lane, hl, hd, hx⟩ := hc.sound hm
  obtain ⟨e, he, hne⟩ := Option.bind_eq_some_iff.1 hx
  exact ⟨lane, hl, (ht.entry hl hd).1.le, e, List.mem_of_mem_head? he, hne⟩

end LocalQueueState

end EventBus.Local
