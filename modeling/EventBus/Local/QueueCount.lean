import EventBus.Local.QueueInv

/-!
# What the queue holds

The events a queue holds do not depend on its generations, so what its functions do to them is also
true when the 64-bit generation of a lane wraps around. `Tallied` is the part of the bookkeeping
that survives a wrap: the counters count, and the lanes that wait for their head have an entry in
the heap, if perhaps not the only one that looks live. That is enough for every function to return
and to move events as it says (`Put`, `Same`).
-/

namespace EventBus.Local.LocalQueueState

open Lib

section
variable {events : List LocalEvent} {e : LocalEvent} {now : Nat} {s s' : LocalQueueState}
  {key : QueueKey} {lane : QueueLane} {h : DelayedQueueHead} {heap : List DelayedQueueHead}

/-- 1 for a lane that waits for its head. -/
def delays (lane : QueueLane) : Nat := if lane.delayedVersion.isSome then 1 else 0

/-- One lane changes, with the counters and the heap. -/
theorem Tallied.setLane (ht : Tallied s) (hlanes : s'.lanes = s.lanes.insert key lane)
    (hkeyed : ∀ e ∈ lane.events, e.orderingKey = key)
    (hpending : s'.pendingCount + (s.lanes.lookup key).elim 0 (·.events.length) =
      s.pendingCount + lane.events.length)
    (hlive : s'.delayedLiveCount + (s.lanes.lookup key).elim 0 delays =
      s.delayedLiveCount + delays lane)
    (hlength : s'.delayedLanes.length = s'.delayedLiveCount + s'.delayedStaleCount)
    (hsorted : s'.delayedLanes.Pairwise fun a b => a.deadline ≤ b.deadline)
    (hkeep : ∀ {k v}, k ≠ key → (k, v) ∈ s.delayedLanes.map DelayedQueueHead.ident →
      (k, v) ∈ s'.delayedLanes.map DelayedQueueHead.ident)
    (hentry : ∀ v, lane.delayedVersion = some v →
      v = lane.version ∧ (key, v) ∈ s'.delayedLanes.map DelayedQueueHead.ident) :
    Tallied s' := by
  refine ⟨fun hl he => ?_, ?_, ?_, hlength, hsorted, fun hl hd => ?_⟩
  · rw [hlanes, Map.lookup_insert_eq] at hl
    split at hl
    · rename_i hk
      cases hl
      rw [hk]
      exact hkeyed _ he
    · exact ht.keyed hl he
  · have := Map.total_insert (fun lane : QueueLane => lane.events.length) s.lanes key lane
    have := ht.pending
    rw [hlanes]
    omega
  · have := Map.total_insert delays s.lanes key lane
    have hold : s.delayedLiveCount = s.lanes.total delays := ht.live
    change s'.delayedLiveCount = s'.lanes.total delays
    rw [hlanes]
    omega
  · rw [hlanes, Map.lookup_insert_eq] at hl
    split at hl
    · rename_i hk
      cases hl
      rw [hk]
      exact hentry _ hd
    · rename_i hk
      obtain ⟨hv, hm⟩ := ht.entry hl hd
      exact ⟨hv, hkeep hk hm⟩

/-- A lane that did not change, in a heap that has kept its entries. -/
theorem HeadEntry.congr {k : QueueKey} (hk : HeadEntry s k)
    (hl : s'.lanes.lookup k = s.lanes.lookup k)
    (hh : ∀ h ∈ s.delayedLanes, h.key = k → isLive s.lanes h = true → h ∈ s'.delayedLanes)
    (ht : Tallied s) : HeadEntry s' k := by
  refine ⟨fun hlane hd => ?_⟩
  rw [hl] at hlane
  obtain ⟨h, hm, hid, hx⟩ := hk.deadline hlane hd
  have hv := (ht.entry hlane hd).1
  refine ⟨h, hh h hm (Prod.mk.inj hid).1 ?_, hid, hx⟩
  exact isLive_of_delayed hlane (hv ▸ hd) (hv ▸ hid)

/-! ## The heap -/

/-- An entry that is not live leaves the heap. -/
theorem Tallied.popStale (ht : Tallied s) (hh : s.delayedLanes = h :: heap)
    (hs : isLive s.lanes h = false) :
    ∃ n, checkedPred s.delayedStaleCount = some n ∧
      Tallied { s with delayedLanes := heap, delayedStaleCount := n } := by
  have hentry : ∀ {k lane v}, s.lanes.lookup k = some lane → lane.delayedVersion = some v →
      v = lane.version ∧ (k, v) ∈ heap.map DelayedQueueHead.ident := by
    intro k lane v hl hd
    obtain ⟨hv, hm⟩ := ht.entry hl hd
    refine ⟨hv, ?_⟩
    rw [hh, List.map_cons, List.mem_cons] at hm
    refine hm.resolve_left fun heq => ?_
    have := isLive_of_delayed hl (hv ▸ hd) (hv ▸ heq.symm)
    rw [hs] at this
    cases this
  -- every waiting lane has an entry among the others
  have hle : s.delayedLiveCount ≤ heap.length := by
    rw [ht.live]
    refine Map.count_le_length s.lanes DelayedQueueHead.key fun k lane hl hd => ?_
    obtain ⟨v, hv⟩ := Option.isSome_iff_exists.1 hd
    obtain ⟨g, hg, hid⟩ := List.mem_map.1 (hentry hl hv).2
    exact ⟨g, hg, (Prod.mk.inj hid).1⟩
  have hlength := ht.length
  have hsorted := ht.sorted
  rw [hh] at hlength hsorted
  rw [List.length_cons] at hlength
  obtain ⟨n, hn⟩ : ∃ n, s.delayedStaleCount = n + 1 := ⟨s.delayedStaleCount - 1, by omega⟩
  refine ⟨n, by rw [hn]; rfl, ht.keyed, ht.pending, ht.live, ?_, (List.pairwise_cons.1 hsorted).2,
    hentry⟩
  change heap.length = s.delayedLiveCount + n
  omega

theorem Balanced.popStale (hb : Balanced s) (hh : s.delayedLanes = h :: heap)
    (hs : isLive s.lanes h = false) :
    ∃ n, checkedPred s.delayedStaleCount = some n ∧
      Balanced { s with delayedLanes := heap, delayedStaleCount := n } := by
  obtain ⟨n, hn, ht⟩ := hb.tallied.popStale hh hs
  refine ⟨n, hn, ht, fun k => (hb.head k).congr rfl (fun g hg _ hlive => ?_) hb.tallied⟩
  rw [hh] at hg
  refine (List.mem_cons.1 hg).resolve_left fun heq => ?_
  rw [heq, hs] at hlive
  cases hlive

theorem discardLoop_balanced (heap : List DelayedQueueHead)
    (hb : Balanced { s with delayedLanes := heap }) :
    ∃ heap' stale, discardLoop heap s =
        some { s with delayedLanes := heap', delayedStaleCount := stale } ∧
      Balanced { s with delayedLanes := heap', delayedStaleCount := stale } ∧ heap' <:+ heap ∧
      ∀ h, heap'.head? = some h → isLive s.lanes h = true := by
  induction heap generalizing s with
  | nil => exact ⟨[], _, rfl, hb, List.suffix_rfl, fun h hh => nomatch hh⟩
  | cons head heap ih =>
    unfold discardLoop
    split
    · rename_i hlive
      refine ⟨head :: heap, _, rfl, hb, List.suffix_rfl, fun h hh => ?_⟩
      cases hh
      exact hlive
    · rename_i hstale
      rw [Bool.not_eq_true] at hstale
      obtain ⟨n, hn, hbal⟩ := hb.popStale rfl hstale
      simp only [hn]
      obtain ⟨heap', stale, heq, hb', hsuf, hhead⟩ :=
        ih (s := { s with delayedStaleCount := n }) hbal
      exact ⟨heap', stale, heq, hb', hsuf.trans (List.suffix_cons _ _), hhead⟩

theorem discard_balanced (hb : Balanced s) :
    ∃ heap stale, discardStaleDelayedHeads s =
        some { s with delayedLanes := heap, delayedStaleCount := stale } ∧
      Balanced { s with delayedLanes := heap, delayedStaleCount := stale } ∧
      heap <:+ s.delayedLanes ∧ ∀ h, heap.head? = some h → isLive s.lanes h = true :=
  discardLoop_balanced s.delayedLanes hb

/-- One round of a promotion: the entry of a waiting lane leaves the heap, and the lane becomes
ready. -/
def promoted (s : LocalQueueState) (h : DelayedQueueHead) (heap : List DelayedQueueHead)
    (lane : QueueLane) (live : Nat) : LocalQueueState :=
  { s with
    delayedLanes := heap
    lanes := s.lanes.insert h.key { lane with delayedVersion := none }
    delayedLiveCount := live
    readyLanes := s.readyLanes ++ [(h.key, h.version)] }

theorem promoteHead_balanced (hb : Balanced s) (hh : s.delayedLanes = h :: heap)
    (hl : s.lanes.lookup h.key = some lane) (hv : lane.version = h.version)
    (hd : lane.delayedVersion = some h.version) :
    ∃ live, promoteHead { s with delayedLanes := heap } h = some (s.promoted h heap lane live) ∧
      Balanced (s.promoted h heap lane live) ∧ Same s (s.promoted h heap lane live) := by
  have ht := hb.tallied
  have hpos : 0 < s.delayedLiveCount := by
    rw [ht.live]
    exact Map.count_pos hl (by rw [hd]; rfl)
  obtain ⟨n, hn⟩ : ∃ n, s.delayedLiveCount = n + 1 := ⟨s.delayedLiveCount - 1, by omega⟩
  have hlength := ht.length
  have hsorted := ht.sorted
  rw [hh] at hlength hsorted
  rw [List.length_cons] at hlength
  -- the other lanes have other entries
  have hkeep : ∀ {k v}, k ≠ h.key → (k, v) ∈ s.delayedLanes.map DelayedQueueHead.ident →
      (k, v) ∈ heap.map DelayedQueueHead.ident := by
    intro k v hk hm
    rw [hh, List.map_cons, List.mem_cons] at hm
    exact hm.resolve_left fun heq => hk (Prod.mk.inj heq).1
  refine ⟨n, ?_, ⟨?_, fun k => ?_⟩, events_insert hl rfl, rfl, rfl, rfl, rfl⟩
  · simp only [promoteHead, hl]
    rw [if_pos ⟨hv, hd⟩, hn]
    rfl
  · refine ht.setLane rfl (fun e he => ht.keyed hl he) ?_ ?_ ?_ (List.pairwise_cons.1 hsorted).2
      hkeep (by rintro v ⟨⟩)
    · rw [hl, Option.elim_some]
      rfl
    · simp only [promoted, hl, Option.elim_some, delays, hd, Option.isSome_some, if_true, hn]
      rfl
    · change heap.length = n + s.delayedStaleCount
      omega
  · by_cases hk : k = h.key
    · refine ⟨fun hlane hd' => ?_⟩
      rw [promoted, Map.lookup_insert_eq, if_pos hk] at hlane
      cases hlane
      cases hd'
    · refine (hb.head k).congr (by rw [promoted, Map.lookup_insert_eq, if_neg hk])
        (fun g hg hgk _ => ?_) ht
      rw [hh] at hg
      exact (List.mem_cons.1 hg).resolve_left fun heq => hk (by rw [← hgk, heq])

/-- What a property has to survive to survive a promotion at `now`. -/
structure Promotes (now : Nat) (Q : LocalQueueState → Prop) : Prop where
  discard : ∀ {s heap n}, Q s → heap <:+ s.delayedLanes →
    Q { s with delayedLanes := heap, delayedStaleCount := n }
  round : ∀ {s h heap lane live}, Balanced s → Q s → s.delayedLanes = h :: heap →
    h.deadline ≤ now → s.lanes.lookup h.key = some lane → lane.version = h.version →
    lane.delayedVersion = some h.version → Q (s.promoted h heap lane live)

/-- The loop, started on a live head with fuel for the whole heap. -/
theorem Promotes.promoteLoop {Q : LocalQueueState → Prop} (hQ : Promotes now Q) (fuel : Nat)
    (hb : Balanced s) (hq : Q s)
    (hhead : ∀ h, s.delayedLanes.head? = some h → isLive s.lanes h = true)
    (hfuel : s.delayedLanes.length ≤ fuel) :
    ∃ s', promoteLoop now fuel s = some s' ∧ Balanced s' ∧ Q s' ∧ Same s s' ∧
      ∀ h ∈ s'.delayedLanes, now < h.deadline := by
  induction fuel generalizing s with
  | zero =>
    have hnil : s.delayedLanes = [] := List.length_eq_zero_iff.1 (Nat.le_zero.1 hfuel)
    exact ⟨s, rfl, hb, hq, .refl s, by simp [hnil]⟩
  | succ fuel ih =>
    unfold LocalQueueState.promoteLoop
    split
    · rename_i hnil
      exact ⟨s, rfl, hb, hq, .refl s, by simp [hnil]⟩
    rename_i head heap hheap
    split
    · rename_i hdue
      obtain ⟨lane, hl, hv, hd⟩ := isLive_iff.1 (hhead head (by rw [hheap]; rfl))
      obtain ⟨live, heq₁, hb₁, hsame₁⟩ := promoteHead_balanced hb hheap hl hv hd
      obtain ⟨heap₂, stale₂, heq₂, hb₂, hsuf₂, hhead₂⟩ := discard_balanced hb₁
      have hlen : heap₂.length ≤ fuel := by
        have : heap₂.length ≤ heap.length := hsuf₂.length_le
        rw [hheap, List.length_cons] at hfuel
        omega
      have hq₂ := hQ.discard (n := stale₂) (hQ.round hb hq hheap hdue hl hv hd) hsuf₂
      obtain ⟨s₃, heq₃, hb₃, hq₃, hsame₃, hlater⟩ := ih hb₂ hq₂ hhead₂ hlen
      refine ⟨s₃, ?_, hb₃, hq₃, hsame₁.trans ((Same.setHeap _ _ _).trans hsame₃), hlater⟩
      rw [heq₁, Option.bind_some, heq₂, Option.bind_some, heq₃]
    · rename_i hlate
      refine ⟨s, rfl, hb, hq, .refl s, later_of_sorted hb.tallied.sorted fun h hh => ?_⟩
      rw [hheap] at hh
      cases hh
      omega

theorem Promotes.promoteDueHeads {Q : LocalQueueState → Prop} (hQ : Promotes now Q)
    (hb : Balanced s) (hq : Q s) :
    ∃ s', promoteDueHeads now s = some s' ∧ Balanced s' ∧ Q s' ∧ Same s s' ∧
      ∀ h ∈ s'.delayedLanes, now < h.deadline := by
  obtain ⟨heap, stale, heq, hb₁, hsuf, hhead⟩ := discard_balanced hb
  obtain ⟨s', heq', hb', hq', hsame, hlater⟩ :=
    hQ.promoteLoop heap.length hb₁ (hQ.discard hq hsuf) hhead le_rfl
  refine ⟨s', ?_, hb', hq', (Same.setHeap _ _ _).trans hsame, hlater⟩
  rw [LocalQueueState.promoteDueHeads, heq, Option.bind_some]
  exact heq'

theorem promoteDueHeads_balanced (now : Nat) (hb : Balanced s) :
    ∃ s', promoteDueHeads now s = some s' ∧ Balanced s' ∧ Same s s' ∧
      ∀ h ∈ s'.delayedLanes, now < h.deadline := by
  have hQ : Promotes now fun _ => True := ⟨fun _ _ => trivial, fun _ _ _ _ _ _ _ => trivial⟩
  obtain ⟨s', heq, hb', -, hrest⟩ := hQ.promoteDueHeads hb trivial
  exact ⟨s', heq, hb', hrest⟩

theorem nextReadyDelay_balanced (now : Nat) (hb : Balanced s) :
    ∃ r s', nextReadyDelay now s = some (r, s') ∧ Balanced s' ∧ Same s s' := by
  obtain ⟨heap, stale, heq, hb', -, -⟩ := discard_balanced hb
  exact ⟨_, _, by rw [nextReadyDelay, heq, Option.map_some], hb', Same.setHeap _ _ _⟩

/-! ## Scheduling -/

/-- The ready list is no part of the count. -/
theorem Balanced.setReady (hb : Balanced s) (ready : List (QueueKey × Nat)) :
    Balanced { s with readyLanes := ready } :=
  have ht := hb.tallied
  ⟨⟨ht.keyed, ht.pending, ht.live, ht.length, ht.sorted, ht.entry⟩, fun k => ⟨(hb.head k).deadline⟩⟩

/-- The state in which the lane of `key` has moved on to the generation `v`. -/
def forgotten (s : LocalQueueState) (key : QueueKey) (lane : QueueLane) (v : Nat) :
    LocalQueueState :=
  { s with
    lanes := s.lanes.insert key { lane with version := v, delayedVersion := none }
    delayedLiveCount := s.delayedLiveCount - delays lane
    delayedStaleCount := s.delayedStaleCount + delays lane }

theorem scheduleLaneHeadAt_eq (iter : IterOrder) (hle : delays lane ≤ s.delayedLiveCount)
    (hl : s.lanes.lookup key = some lane) :
    scheduleLaneHeadAt iter now s key =
      some (compactDelayedHeapIfNeeded iter (registerHead now
        (s.forgotten key lane (wrappingSucc lane.version)) key
        { lane with version := wrappingSucc lane.version, delayedVersion := none })) := by
  have hrenew : renewLane s key lane = some (s.forgotten key lane (wrappingSucc lane.version)) := by
    unfold renewLane forgotten delays
    unfold delays at hle
    cases hd : lane.delayedVersion with
    | none => simp
    | some v =>
      rw [hd, Option.isSome_some, if_pos rfl] at hle
      obtain ⟨n, hn⟩ : ∃ n, s.delayedLiveCount = n + 1 := ⟨_, (Nat.sub_add_cancel hle).symm⟩
      simp [hn, checkedPred]
  unfold scheduleLaneHeadAt
  rw [hl]
  simp only [hrenew]

/-- The lane moves on to another generation. -/
theorem Tallied.forget (ht : Tallied s) (hh : ∀ k, k ≠ key → HeadEntry s k)
    (hl : s.lanes.lookup key = some lane) (v : Nat) :
    delays lane ≤ s.delayedLiveCount ∧ Balanced (s.forgotten key lane v) := by
  have hle : delays lane ≤ s.delayedLiveCount := by
    rw [ht.live]
    exact Map.le_total delays hl
  have hlength := ht.length
  refine ⟨hle, ⟨?_, fun k => ?_⟩⟩
  · refine ht.setLane rfl (fun e he => ht.keyed hl he) ?_ ?_ ?_ ht.sorted (fun _ hm => hm)
      (fun v hv => nomatch hv)
    · rw [hl]
      rfl
    · rw [hl, Option.elim_some]
      change s.delayedLiveCount - delays lane + delays lane = s.delayedLiveCount + 0
      omega
    · change s.delayedLanes.length =
        s.delayedLiveCount - delays lane + (s.delayedStaleCount + delays lane)
      omega
  · by_cases hk : k = key
    · refine ⟨fun hlane hd => ?_⟩
      rw [forgotten, Map.lookup_insert_eq, if_pos hk] at hlane
      cases hlane
      cases hd
    · exact (hh k hk).congr (by rw [forgotten, Map.lookup_insert_eq, if_neg hk])
        (fun _ hm _ _ => hm) ht

theorem registerHead_balanced (now : Nat) (hb : Balanced s) (hl : s.lanes.lookup key = some lane)
    (hd : lane.delayedVersion = none) :
    Balanced (registerHead now s key lane) ∧ Same s (registerHead now s key lane) := by
  have ht := hb.tallied
  unfold registerHead
  split
  · exact ⟨hb.setReady _, fun _ => rfl, rfl, rfl, rfl, rfl⟩
  rename_i deadline hx
  split
  · exact ⟨hb.setReady _, fun _ => rfl, rfl, rfl, rfl, rfl⟩
  refine ⟨⟨?_, fun k => ?_⟩, events_insert hl rfl, rfl, rfl, rfl, rfl⟩
  · refine ht.setLane rfl (fun e he => ht.keyed hl he) ?_ ?_ ?_ (pushHead_sorted ht.sorted)
      (fun _ hm => mem_ident_pushHead hm) (fun v hv => ?_)
    · rw [hl]
      rfl
    · simp [hl, delays, hd]
    · have := ht.length
      simp only [(pushHead_perm _ s.delayedLanes).length_eq, List.length_cons]
      omega
    · cases hv
      exact ⟨rfl, List.mem_map.2 ⟨_, mem_pushHead.2 (.inl rfl), rfl⟩⟩
  · by_cases hk : k = key
    · refine ⟨fun hlane hd' => ?_⟩
      rw [Map.lookup_insert_eq, if_pos hk] at hlane
      cases hlane
      cases hd'
      exact ⟨_, mem_pushHead.2 (.inl rfl), by rw [hk]; rfl, hx⟩
    · exact (hb.head k).congr (by rw [Map.lookup_insert_eq, if_neg hk])
        (fun g hg _ _ => mem_pushHead.2 (.inr hg)) ht

/-- The rebuilt heap has one entry for each waiting lane. -/
theorem compact_balanced (iter : IterOrder) (hb : Balanced s) :
    Balanced (compactDelayedHeapIfNeeded iter s) := by
  have ht := hb.tallied
  rcases compact_cases iter s with heq | ⟨sequence, heap, heq, hc⟩
  · rwa [heq]
  rw [heq]
  have hentry : ∀ {k lane v}, s.lanes.lookup k = some lane → lane.delayedVersion = some v →
      (k, v) ∈ heap.map DelayedQueueHead.ident := fun hl hd => by
    obtain ⟨h, -, -, hx⟩ := (hb.head _).deadline hl hd
    have hkey := (iter.mem_keys _ _).2 (Finmap.mem_keys.2 (Map.mem_of_lookup hl))
    exact hc.complete hkey hl hd hx
  have hkeys : (heap.map DelayedQueueHead.key).Nodup := by
    refine nodup_keys hc.nodup fun a ha b hb hab => ?_
    obtain ⟨-, lane, hl, hd, -⟩ := hc.sound ha
    obtain ⟨-, lane', hl', hd', -⟩ := hc.sound hb
    rw [← hab, hl] at hl'
    cases hl'
    exact Option.some.inj (hd.symm.trans hd')
  have hlive : heap.length = s.lanes.count fun lane => lane.delayedVersion.isSome := by
    refine Nat.le_antisymm (Map.length_le_count s.lanes DelayedQueueHead.key hkeys fun h hm => ?_)
      (Map.count_le_length s.lanes DelayedQueueHead.key fun k lane hl hd => ?_)
    · obtain ⟨-, lane, hl, hd, -⟩ := hc.sound hm
      exact ⟨lane, hl, by rw [hd]; rfl⟩
    · obtain ⟨v, hv⟩ := Option.isSome_iff_exists.1 hd
      obtain ⟨g, hg, hid⟩ := List.mem_map.1 (hentry hl hv)
      exact ⟨g, hg, (Prod.mk.inj hid).1⟩
  refine ⟨⟨ht.keyed, ht.pending, hlive, rfl, hc.sorted, fun hl hd =>
    ⟨(ht.entry hl hd).1, hentry hl hd⟩⟩, fun k => ⟨fun hl hd => ?_⟩⟩
  obtain ⟨h, hm, hid⟩ := List.mem_map.1 (hentry hl hd)
  obtain ⟨-, lane', hl', -, hx⟩ := hc.sound hm
  rw [(Prod.mk.inj hid).1, hl] at hl'
  cases hl'
  exact ⟨h, hm, hid, hx⟩

/-- The rebuilt heap has deadlines of the old one. -/
theorem Balanced.compact_deadline (hb : Balanced s) (iter : IterOrder)
    (hm : h ∈ (compactDelayedHeapIfNeeded iter s).delayedLanes) :
    ∃ g ∈ s.delayedLanes, g.deadline = h.deadline := by
  rcases compact_cases iter s with heq | ⟨sequence, heap, heq, hc⟩
  · exact ⟨h, heq ▸ hm, rfl⟩
  · rw [heq] at hm
    obtain ⟨-, lane, hl, hd, hx⟩ := hc.sound hm
    obtain ⟨g, hg, -, hx'⟩ := (hb.head _).deadline hl hd
    exact ⟨g, hg, Option.some.inj (hx'.symm.trans hx)⟩

theorem scheduleLaneHeadAt_balanced (iter : IterOrder) (now : Nat) (ht : Tallied s)
    (hh : ∀ k, k ≠ key → HeadEntry s k) (hl : s.lanes.lookup key = some lane) :
    ∃ s', scheduleLaneHeadAt iter now s key = some s' ∧ Balanced s' ∧ Same s s' := by
  obtain ⟨hle, hb⟩ := ht.forget hh hl (wrappingSucc lane.version)
  have hl₁ : (s.forgotten key lane (wrappingSucc lane.version)).lanes.lookup key =
      some { lane with version := wrappingSucc lane.version, delayedVersion := none } := by
    rw [forgotten, Map.lookup_insert_eq, if_pos rfl]
  obtain ⟨hb₁, hsame₁⟩ := registerHead_balanced now hb hl₁ rfl
  have hsame : Same s (s.forgotten key lane (wrappingSucc lane.version)) :=
    ⟨events_insert hl rfl, rfl, rfl, rfl, rfl⟩
  exact ⟨_, scheduleLaneHeadAt_eq iter hle hl, compact_balanced iter hb₁,
    hsame.trans (hsame₁.trans (compact_same iter _))⟩

/-! ## Moving events -/

/-- `s'` is `s` with other events in the lane of `key`. -/
structure Put (key : QueueKey) (events : List LocalEvent) (s s' : LocalQueueState) : Prop where
  balanced : Balanced s'
  events : ∀ k, s'.events k = if k = key then events else s.events k
  inFlight : s'.inFlight = s.inFlight
  closed : s'.closed = s.closed
  nextDeliveryToken : s'.nextDeliveryToken = s.nextDeliveryToken

theorem length_events (s : LocalQueueState) (key : QueueKey) :
    (s.lanes.lookup key).elim 0 (·.events.length) = (s.events key).length := by
  unfold events
  cases s.lanes.lookup key <;> rfl

/-- A lane gets other events; what waited for its old head has to be scheduled again. -/
theorem Tallied.setEvents (ht : Tallied s) (s' : LocalQueueState)
    (hs : s'.lanes = s.lanes.insert key { (s.lanes.lookup key).getD .default with events })
    (hkeyed : ∀ e ∈ events, e.orderingKey = key)
    (hpending : s'.pendingCount + (s.events key).length = s.pendingCount + events.length)
    (hlive : s'.delayedLiveCount = s.delayedLiveCount)
    (hstale : s'.delayedStaleCount = s.delayedStaleCount)
    (hheap : s'.delayedLanes = s.delayedLanes) :
    Tallied s' ∧ (∀ k, k ≠ key → HeadEntry s k → HeadEntry s' k) ∧
      ∀ k, s'.events k = if k = key then events else s.events k := by
  refine ⟨ht.setLane hs hkeyed (by rw [length_events]; exact hpending) ?_ ?_
    (by rw [hheap]; exact ht.sorted) (fun _ hm => by rw [hheap]; exact hm) (fun v hv => ?_),
    fun k hk hh => ?_, fun k => ?_⟩
  · rw [hlive]
    cases s.lanes.lookup key <;> rfl
  · rw [hheap, hlive, hstale]
    exact ht.length
  · cases hl : s.lanes.lookup key with
    | none => rw [hl] at hv; cases hv
    | some lane =>
      rw [hl] at hv
      have hd : lane.delayedVersion = some v := hv
      have hentry := ht.entry hl hd
      rw [hheap]
      exact hentry
  · exact hh.congr (by rw [hs, Map.lookup_insert_eq, if_neg hk])
      (fun g hg _ _ => by rw [hheap]; exact hg) ht
  · rw [LocalQueueState.events, hs, Map.lookup_insert_eq]
    split <;> rfl

theorem Tallied.keyed_events (ht : Tallied s) (he : e ∈ s.events key) : e.orderingKey = key := by
  unfold LocalQueueState.events at he
  cases hl : s.lanes.lookup key with
  | none => rw [hl] at he; cases he
  | some lane => rw [hl] at he; exact ht.keyed hl he

theorem Tallied.keyed_put (ht : Tallied s)
    (he : events = s.events e.orderingKey ++ [e] ∨ events = e :: s.events e.orderingKey) :
    ∀ x ∈ events, x.orderingKey = e.orderingKey := by
  intro x hx
  have hm : x ∈ s.events e.orderingKey ∨ x = e := by
    obtain rfl | rfl := he <;> simpa [or_comm] using hx
  obtain hm | rfl := hm
  · exact ht.keyed_events hm
  · rfl

/-- The state in which `e` has joined its lane, whose events are now `events`. -/
def joined (s : LocalQueueState) (e : LocalEvent) (events : List LocalEvent) : LocalQueueState :=
  { s with
    lanes := s.lanes.insert e.orderingKey
      { (s.lanes.lookup e.orderingKey).getD .default with events }
    pendingCount := s.pendingCount + 1 }

theorem joined_lookup : (s.joined e events).lanes.lookup e.orderingKey =
    some { (s.lanes.lookup e.orderingKey).getD .default with events } := by
  rw [joined, Map.lookup_insert_eq, if_pos rfl]

theorem joined_lookup_of_ne {k : QueueKey} (hk : k ≠ e.orderingKey) :
    (s.joined e events).lanes.lookup k = s.lanes.lookup k := by
  rw [joined, Map.lookup_insert_eq, if_neg hk]

theorem enqueueFrontAt_eq (iter : IterOrder) (now : Nat) (s : LocalQueueState) (e : LocalEvent) :
    enqueueFrontAt iter now s e = scheduleLaneHeadAt iter now
      (s.joined e (e :: s.events e.orderingKey)) e.orderingKey := by
  simp only [enqueueFrontAt, events_getD, joined]

theorem enqueueBackAt_eq (iter : IterOrder) (now : Nat) (s : LocalQueueState) (e : LocalEvent) :
    enqueueBackAt iter now s e =
      if (s.events e.orderingKey).isEmpty then scheduleLaneHeadAt iter now
        (s.joined e (s.events e.orderingKey ++ [e])) e.orderingKey
      else some (s.joined e (s.events e.orderingKey ++ [e])) := by
  simp only [enqueueBackAt, events_getD, joined]

/-- An event joins its lane at either end; the lane may be new. -/
theorem Balanced.join (hb : Balanced s)
    (he : events = s.events e.orderingKey ++ [e] ∨ events = e :: s.events e.orderingKey) :
    Tallied (s.joined e events) ∧
      (∀ k, k ≠ e.orderingKey → HeadEntry (s.joined e events) k) ∧
      ∀ k, (s.joined e events).events k = if k = e.orderingKey then events else s.events k := by
  have hlen : events.length = (s.events e.orderingKey).length + 1 := by
    obtain rfl | rfl := he <;> simp
  obtain ⟨ht, hh, hevents⟩ := hb.tallied.setEvents (s.joined e events) rfl
    (hb.tallied.keyed_put he) (by simp only [joined, hlen]; omega) rfl rfl rfl
  exact ⟨ht, fun k hk => hh k hk (hb.head k), hevents⟩

/-- One more event in a lane whose head has to be scheduled. -/
theorem putLane_balanced (iter : IterOrder) (now : Nat) (hb : Balanced s)
    (he : events = s.events e.orderingKey ++ [e] ∨ events = e :: s.events e.orderingKey) :
    ∃ s', scheduleLaneHeadAt iter now (s.joined e events) e.orderingKey = some s' ∧
      Put e.orderingKey events s s' := by
  obtain ⟨ht, hh, hevents⟩ := hb.join he
  obtain ⟨s', heq, hb', hsame⟩ := scheduleLaneHeadAt_balanced iter now ht hh joined_lookup
  exact ⟨s', heq, hb', fun k => (hsame.events k).trans (hevents k), hsame.inFlight, hsame.closed,
    hsame.nextDeliveryToken⟩

theorem enqueueFrontAt_balanced (iter : IterOrder) (now : Nat) (hb : Balanced s) (e : LocalEvent) :
    ∃ s', enqueueFrontAt iter now s e = some s' ∧
      Put e.orderingKey (e :: s.events e.orderingKey) s s' := by
  rw [enqueueFrontAt_eq]
  exact putLane_balanced iter now hb (.inr rfl)

theorem enqueueBackAt_balanced (iter : IterOrder) (now : Nat) (hb : Balanced s) (e : LocalEvent) :
    ∃ s', enqueueBackAt iter now s e = some s' ∧
      Put e.orderingKey (s.events e.orderingKey ++ [e]) s s' := by
  rw [enqueueBackAt_eq]
  split
  · exact putLane_balanced iter now hb (.inl rfl)
  rename_i hne
  -- the lane keeps its head, so what waits for it still does
  obtain ⟨ht, hh, hevents⟩ := hb.join (e := e) (.inl rfl)
  refine ⟨_, rfl, ⟨ht, fun k => ?_⟩, hevents, rfl, rfl, rfl⟩
  by_cases hk : k = e.orderingKey
  · refine ⟨fun hlane hd => ?_⟩
    rw [hk, joined_lookup] at hlane
    cases hlane
    cases hl : s.lanes.lookup e.orderingKey with
    | none => rw [hl] at hd; cases hd
    | some lane =>
      rw [hl] at hd
      have hd' : lane.delayedVersion = some _ := hd
      have hlane : s.events e.orderingKey = lane.events := events_of_lookup hl
      obtain ⟨h, hm, hid, hx⟩ := (hb.head e.orderingKey).deadline hl hd'
      refine ⟨h, hm, by rw [hk]; exact hid, ?_⟩
      rw [← hx, QueueLane.headDeadline, QueueLane.headDeadline, hlane,
        List.head?_append_of_ne_nil _ (by rw [hlane] at hne; simpa using hne)]
  · exact hh k hk

/-! ## Taking an event -/

/-- What a receive at `now` does. -/
inductive Took (now : Nat) (s : LocalQueueState) : Option LocalEvent → LocalQueueState → Prop where
  | idle {s' : LocalQueueState} : Balanced s' → Same s s' → Took now s none s'
  | taken {e : LocalEvent} {events : List LocalEvent} {s' : LocalQueueState} : e.Due now →
    s.events e.orderingKey = e :: events → Put e.orderingKey events s s' → Took now s (some e) s'

theorem Put.of_same {s₁ s' : LocalQueueState} (h : Put key events s₁ s') (hsame : Same s s₁) :
    Put key events s s' := by
  refine ⟨h.balanced, fun k => ?_, h.inFlight.trans hsame.inFlight, h.closed.trans hsame.closed,
    h.nextDeliveryToken.trans hsame.nextDeliveryToken⟩
  rw [h.events, hsame.events]

theorem Took.of_same {s₁ : LocalQueueState} {r : Option LocalEvent} (h : Took now s₁ r s')
    (hsame : Same s s₁) : Took now s r s' := by
  cases h with
  | idle hb h => exact .idle hb (hsame.trans h)
  | taken hdue he hp => exact .taken hdue ((hsame.events _).symm.trans he) (hp.of_same hsame)

/-- The last event of a lane leaves, and the lane with it. -/
theorem Balanced.popLast (hb : Balanced s) (hl : s.lanes.lookup key = some lane)
    (hd : lane.delayedVersion = none) (hev : lane.events = [e]) {n : Nat}
    (hn : s.pendingCount = n + 1) (ready : List (QueueKey × Nat)) :
    Put key [] s { s with readyLanes := ready, pendingCount := n, lanes := s.lanes.erase key } := by
  have ht := hb.tallied
  have hback : ∀ {k l}, (s.lanes.erase key).lookup k = some l → s.lanes.lookup k = some l := by
    intro k l hkl
    rw [Map.lookup_erase_eq] at hkl
    split at hkl
    · cases hkl
    · exact hkl
  refine ⟨⟨⟨fun hl' he => ht.keyed (hback hl') he, ?_, ?_, ht.length, ht.sorted,
    fun hl' hd' => ht.entry (hback hl') hd'⟩, fun k => ⟨fun hl' hd' =>
      (hb.head k).deadline (hback hl') hd'⟩⟩, fun k => ?_, rfl, rfl, rfl⟩
  · have h1 := Map.total_erase (fun lane : QueueLane => lane.events.length) hl
    have h2 := ht.pending
    simp only [hev, List.length_singleton] at h1 h2 ⊢
    omega
  · have h1 := Map.count_erase (fun lane : QueueLane => lane.delayedVersion.isSome) hl
    have h2 := ht.live
    simp only [hd, Option.isSome_none, Bool.false_eq_true, if_false] at h1 h2 ⊢
    omega
  · rw [LocalQueueState.events, Map.lookup_erase_eq]
    split <;> rfl

/-- The head of a lane leaves, and the next event has to be scheduled. -/
theorem Balanced.popFront (hb : Balanced s) (hl : s.lanes.lookup key = some lane)
    (hev : lane.events = e :: events) {n : Nat} (hn : s.pendingCount = n + 1)
    (ready : List (QueueKey × Nat)) :
    Tallied (s.dequeued key lane events ready n) ∧
      (∀ k, k ≠ key → HeadEntry (s.dequeued key lane events ready n) k) ∧
      ∀ k, (s.dequeued key lane events ready n).events k =
        if k = key then events else s.events k := by
  have ht := hb.tallied
  obtain ⟨ht₁, hh₁, hevents⟩ := ht.setEvents (s.dequeued key lane events ready n) (by rw [hl]; rfl)
    (fun x hx => ht.keyed hl (hev ▸ List.mem_cons_of_mem _ hx))
    (by simp only [events_of_lookup hl, hev, dequeued, List.length_cons]; omega) rfl rfl rfl
  exact ⟨ht₁, fun k hk => hh₁ k hk (hb.head k), hevents⟩

/-- A lane whose head is due does not wait for it in a drained heap. -/
theorem Balanced.not_delayed (hb : Balanced s) (hlater : ∀ h ∈ s.delayedLanes, now < h.deadline)
    (hl : s.lanes.lookup key = some lane) (hev : lane.events = e :: events) (hdue : e.Due now) :
    lane.delayedVersion = none := by
  cases hd : lane.delayedVersion with
  | none => rfl
  | some v =>
    obtain ⟨h, hm, -, hx⟩ := (hb.head key).deadline hl hd
    rw [QueueLane.headDeadline, hev, List.head?_cons, Option.bind_some] at hx
    have := hdue _ hx
    have := hlater h hm
    omega

/-- The loop of `pop_ready`, by induction on the ready entries. -/
theorem popLoop_balanced (iter : IterOrder) (ready : List (QueueKey × Nat)) (hb : Balanced s)
    (hlater : ∀ h ∈ s.delayedLanes, now < h.deadline) :
    ∃ r s', popLoop iter now ready s = some (r, s') ∧ Took now s r s' := by
  induction ready with
  | nil => exact ⟨none, _, rfl, .idle (hb.setReady []) ⟨fun _ => rfl, rfl, rfl, rfl, rfl⟩⟩
  | cons entry ready ih =>
    obtain ⟨key, version⟩ := entry
    unfold popLoop
    split
    · exact ih
    rename_i lane hl
    split
    · exact ih
    split
    · exact ih
    rename_i e events hev
    split
    · exact ih
    rename_i hdue
    rw [not_not] at hdue
    have ht := hb.tallied
    have hkey : e.orderingKey = key := ht.keyed hl (hev ▸ List.mem_cons_self)
    subst hkey
    have hevents := (events_of_lookup hl).trans hev
    have hd := hb.not_delayed hlater hl hev hdue
    obtain ⟨n, hn⟩ : ∃ n, s.pendingCount = n + 1 := by
      have h1 := Map.le_total (fun lane : QueueLane => lane.events.length) hl
      have h2 := ht.pending
      simp only [hev, List.length_cons] at h1 h2
      exact ⟨s.pendingCount - 1, by omega⟩
    rw [show checkedPred s.pendingCount = some n by rw [hn]; rfl, Option.bind_some]
    split
    · rename_i hnil
      have hnil : events = [] := List.isEmpty_iff.1 hnil
      subst hnil
      exact ⟨some e, _, rfl, .taken hdue hevents (hb.popLast hl hd hev hn ready)⟩
    · obtain ⟨ht₁, hh₁, hevents₁⟩ := hb.popFront hl hev hn ready
      obtain ⟨s', heq, hb', hsame⟩ := scheduleLaneHeadAt_balanced iter now ht₁ hh₁
        ((Map.lookup_insert_eq _ _ _ _).trans (if_pos rfl))
      refine ⟨some e, s', ?_, .taken hdue hevents ⟨hb', fun k =>
        (hsame.events k).trans (hevents₁ k), hsame.inFlight, hsame.closed, hsame.nextDeliveryToken⟩⟩
      simp only [dequeued] at heq ⊢
      rw [heq, Option.map_some]

theorem popReady_balanced (iter : IterOrder) (now : Nat) (hb : Balanced s) :
    ∃ r s', popReady iter now s = some (r, s') ∧ Took now s r s' := by
  obtain ⟨s₁, heq₁, hb₁, hsame, hlater⟩ := promoteDueHeads_balanced now hb
  obtain ⟨r, s', heq, htook⟩ := popLoop_balanced iter s₁.readyLanes hb₁ hlater
  refine ⟨r, s', ?_, htook.of_same hsame⟩
  rw [popReady, heq₁, Option.bind_some, heq]

/-! ## All events -/

theorem Tallied.pendingCount_eq (ht : Tallied s) : s.pendingCount = s.pendingEvents.card := by
  rw [ht.pending, pendingEvents]
  exact (Map.map_total Multiset.cardHom
    (fun lane : QueueLane => (lane.events : Multiset LocalEvent)) s.lanes).symm

theorem Tallied.count_pendingEvents (ht : Tallied s) (e : LocalEvent) :
    s.pendingEvents.count e = (s.events e.orderingKey).count e := by
  rw [← Multiset.coe_count, ← filter_pendingEvents ht.keyed, Multiset.count_filter, if_pos rfl]

theorem Same.pendingEvents (h : Same s s') (ht : Tallied s) (ht' : Tallied s') :
    s'.pendingEvents = s.pendingEvents := by
  refine Multiset.ext.2 fun e => ?_
  rw [ht'.count_pendingEvents, ht.count_pendingEvents, h.events]

theorem Put.pendingEvents (h : Put key events s s') (ht : Tallied s) :
    s'.pendingEvents + (s.events key : Multiset LocalEvent) = s.pendingEvents + events := by
  have ht' := h.balanced.tallied
  have hevents : s'.events key = events := by rw [h.events, if_pos rfl]
  refine Multiset.ext.2 fun e => ?_
  rw [Multiset.count_add, Multiset.count_add, ht'.count_pendingEvents, ht.count_pendingEvents,
    Multiset.coe_count, Multiset.coe_count, h.events]
  split
  · rename_i hk
    rw [hk, Nat.add_comm]
  · rename_i hk
    -- the lane of `key` has no event of another key
    rw [List.count_eq_zero.2 fun he => hk (ht.keyed_events he),
      List.count_eq_zero.2 fun he => hk (ht'.keyed_events (hevents.symm ▸ he))]

end

end EventBus.Local.LocalQueueState
