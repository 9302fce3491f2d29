import EventBus.Scheduler.Preserve
import Mathlib.Data.Multiset.Fold
import Mathlib.Data.Set.Card

/-!
# The gauges

`snapshot_gauges` scans the owned records and the lanes and counts them anew, for one subscription
or for all, while admission goes by counters that every operation keeps up to date. In every
reachable state the two agree (`GaugesConsistent`): the scans count what the invariant of the
scheduler says the counters count, and the lanes hold the queued leases, each once.
-/

namespace EventBus.Scheduler

open Lib OwnedDeliveryPhase

variable {s : DeliverySchedulerState}

/-! ## The scans -/

/-- `u64::saturating_add`. -/
def saturatingAdd (a b : Nat) : Nat := min (a + b) (2 ^ 64 - 1)

/-- The gauges of a snapshot, each a `u64`. -/
structure DeliveryMetricsSnapshot where
  reservedReceives : Nat := 0
  queued : Nat := 0
  runningHandlers : Nat := 0
  settling : Nat := 0
  laneWaiting : Nat := 0
deriving DecidableEq

def DeliveryMetricsSnapshot.count (snapshot : DeliveryMetricsSnapshot) :
    OwnedDeliveryPhase → DeliveryMetricsSnapshot
  | .reservedReceive =>
    { snapshot with reservedReceives := saturatingAdd snapshot.reservedReceives 1 }
  | .queued | .queuedSettlement | .waitingRetry =>
    { snapshot with queued := saturatingAdd snapshot.queued 1 }
  | .running => { snapshot with runningHandlers := saturatingAdd snapshot.runningHandlers 1 }
  | .settling => { snapshot with settling := saturatingAdd snapshot.settling 1 }

def scanRecord (selected : Option Id) (snapshot : DeliveryMetricsSnapshot)
    (e : (_ : Nat) × OwnedDeliveryRecord) : DeliveryMetricsSnapshot :=
  if selected.any (e.2.subscriptionId ≠ ·) then snapshot else snapshot.count e.2.phase

def scanLane (sub : SubscriptionScheduleState) (waiting : Nat)
    (lane : Option OrderingLaneKey × List Nat) : Nat :=
  match lane.1 with
  | none => waiting
  | some key => saturatingAdd waiting
      (if key ∈ sub.lockedLanes then lane.2.length else lane.2.length - 1)

def scanSubscription (selected : Option Id) (waiting : Nat)
    (e : (_ : Id) × SubscriptionScheduleState) : Nat :=
  if selected.any (· ≠ e.1) then waiting else e.2.lanes.foldl (scanLane e.2) waiting

-- a hash map is visited in any order

instance (selected : Option Id) : RightCommutative (scanRecord selected) where
  right_comm snapshot e e' := by
    unfold scanRecord
    split <;> split <;> try rfl
    cases e.2.phase <;> cases e'.2.phase <;> rfl

theorem scanLane_comm (sub sub' : SubscriptionScheduleState) (waiting : Nat)
    (lane lane' : Option OrderingLaneKey × List Nat) :
    scanLane sub' (scanLane sub waiting lane) lane' =
      scanLane sub (scanLane sub' waiting lane') lane := by
  unfold scanLane saturatingAdd
  split <;> split <;> omega

theorem foldl_scanLane_comm (sub sub' : SubscriptionScheduleState) (waiting : Nat)
    (lanes lanes' : Lanes OrderingLaneKey Nat) :
    lanes'.foldl (scanLane sub') (lanes.foldl (scanLane sub) waiting) =
      lanes.foldl (scanLane sub) (lanes'.foldl (scanLane sub') waiting) := by
  induction lanes generalizing waiting with
  | nil => rfl
  | cons lane lanes ih =>
    rw [List.foldl_cons, List.foldl_cons, ih]
    congr 1
    exact List.foldl_hom (fun waiting => scanLane sub waiting lane) fun waiting lane' =>
      scanLane_comm sub sub' waiting lane lane'

instance (selected : Option Id) : RightCommutative (scanSubscription selected) where
  right_comm waiting e e' := by
    unfold scanSubscription
    split <;> split <;> try rfl
    exact foldl_scanLane_comm e.2 e'.2 waiting e.2.lanes e'.2.lanes

/-- The gauges of one registration, or of all. -/
def DeliverySchedulerState.snapshotGauges (s : DeliverySchedulerState) (selected : Option Id) :
    DeliveryMetricsSnapshot :=
  let snapshot := s.owned.entries.foldl (scanRecord selected) {}
  { snapshot with
    laneWaiting := s.subscriptions.entries.foldl (scanSubscription selected) snapshot.laneWaiting }

/-! ## What they count -/

section
variable {id : Id} {lease : Nat}

/-- `lease` waits in an ordered lane that is locked, or behind another lease. A lease that waits for
its retry is not in its lane: it holds it. -/
def DeliverySchedulerState.Behind (s : DeliverySchedulerState) (id : Id) (lease : Nat) : Prop :=
  ∃ sub record key, s.subscriptions.lookup id = some sub ∧ s.owned.lookup lease = some record ∧
    record.subscriptionId = id ∧ record.lane = some key ∧ record.phase.isQueued ∧
    (key ∈ sub.lockedLanes ∨ ∀ queue, (some key, lease :: queue) ∉ sub.lanes)

end

/-- The agreement of the gauges with the leases and with the counters. -/
structure GaugesConsistent (s : DeliverySchedulerState) : Prop where
  reservedReceives : ∀ id, (s.snapshotGauges (some id)).reservedReceives =
    s.owned.count fun r => r.subscriptionId = id ∧ r.phase = .reservedReceive
  queued : ∀ id, (s.snapshotGauges (some id)).queued =
    s.owned.count fun r => r.subscriptionId = id ∧
      (r.phase = .queued ∨ r.phase = .queuedSettlement ∨ r.phase = .waitingRetry)
  runningHandlers : ∀ id, (s.snapshotGauges (some id)).runningHandlers =
    s.owned.count fun r => r.subscriptionId = id ∧ r.phase = .running
  settling : ∀ id, (s.snapshotGauges (some id)).settling =
    s.owned.count fun r => r.subscriptionId = id ∧ r.phase = .settling
  owned : ∀ id sub, s.subscriptions.lookup id = some sub →
    (s.snapshotGauges (some id)).reservedReceives + (s.snapshotGauges (some id)).queued +
      (s.snapshotGauges (some id)).runningHandlers + (s.snapshotGauges (some id)).settling =
      sub.owned
  running : (s.snapshotGauges none).runningHandlers = s.running
  sum : ∀ gauge ∈ ([(·.reservedReceives), (·.queued), (·.runningHandlers), (·.settling),
      (·.laneWaiting)] : List (DeliveryMetricsSnapshot → Nat)),
    gauge (s.snapshotGauges none) = ∑ id ∈ s.subscriptions.keys, gauge (s.snapshotGauges (some id))
  laneWaiting : ∀ selected : Option Id, (s.snapshotGauges selected).laneWaiting =
    Set.ncard {lease | ∃ id, (∀ i ∈ selected, i = id) ∧ s.Behind id lease}

/-! ## The records -/

section
variable {g : DeliveryMetricsSnapshot → Nat} {P : OwnedDeliveryPhase → Prop} [DecidablePred P]

/-- `g` is the gauge of the phases `P`. -/
structure GaugeOf (g : DeliveryMetricsSnapshot → Nat) (P : OwnedDeliveryPhase → Prop)
    [DecidablePred P] : Prop where
  new : g {} = 0
  count : ∀ x p, g (x.count p) = if P p then saturatingAdd (g x) 1 else g x
  lane : ∀ x n, g { x with laneWaiting := n } = g x

theorem gaugeOf_reservedReceives : GaugeOf (·.reservedReceives) (· = .reservedReceive) :=
  ⟨rfl, fun x p => by cases p <;> rfl, fun _ _ => rfl⟩

theorem gaugeOf_queued :
    GaugeOf (·.queued) fun p => p = .queued ∨ p = .queuedSettlement ∨ p = .waitingRetry :=
  ⟨rfl, fun x p => by cases p <;> rfl, fun _ _ => rfl⟩

theorem gaugeOf_runningHandlers : GaugeOf (·.runningHandlers) (· = .running) :=
  ⟨rfl, fun x p => by cases p <;> rfl, fun _ _ => rfl⟩

theorem gaugeOf_settling : GaugeOf (·.settling) (· = .settling) :=
  ⟨rfl, fun x p => by cases p <;> rfl, fun _ _ => rfl⟩

theorem GaugeOf.foldl (h : GaugeOf g P) (selected : Option Id)
    (m : Multiset ((_ : Nat) × OwnedDeliveryRecord)) {x : DeliveryMetricsSnapshot}
    (hx : g x < 2 ^ 64) :
    g (m.foldl (scanRecord selected) x) = saturatingAdd (g x) (m.map fun e =>
      if (∀ i ∈ selected, e.2.subscriptionId = i) ∧ P e.2.phase then 1 else 0).sum := by
  induction m using Multiset.induction generalizing x with
  | empty =>
    simp only [Multiset.foldl_zero, Multiset.map_zero, Multiset.sum_zero, saturatingAdd]
    omega
  | cons e m ih =>
    have hcount := h.count x e.2.phase
    rw [Multiset.foldl_cons, Multiset.map_cons, Multiset.sum_cons, scanRecord]
    by_cases hi : ∀ i ∈ selected, e.2.subscriptionId = i
    · have hany : selected.any (e.2.subscriptionId ≠ ·) = false := by
        cases selected with
        | none => rfl
        | some i => simpa using hi i rfl
      have hlt : g (x.count e.2.phase) < 2 ^ 64 := by
        rw [hcount, saturatingAdd]
        split <;> omega
      rw [hany, if_neg Bool.false_ne_true, ih hlt, hcount]
      by_cases hp : P e.2.phase
      · rw [if_pos hp, if_pos ⟨hi, hp⟩]
        unfold saturatingAdd
        omega
      · rw [if_neg hp, if_neg fun h => hp h.2, Nat.zero_add]
    · have hany : selected.any (e.2.subscriptionId ≠ ·) = true := by
        cases selected with
        | none => simp at hi
        | some i => simpa using hi
      rw [hany, if_pos rfl, ih hx, if_neg fun h => hi h.1, Nat.zero_add]

/-- A gauge of phases is the number of the leases in them. -/
theorem GaugeOf.snapshotGauges (h : GaugeOf g P) (hs : s.owned.size < 2 ^ 64)
    (selected : Option Id) :
    g (s.snapshotGauges selected) =
      s.owned.count fun r => (∀ i ∈ selected, r.subscriptionId = i) ∧ P r.phase := by
  have hle := Map.count_le_size (fun r => (∀ i ∈ selected, r.subscriptionId = i) ∧ P r.phase)
    s.owned
  rw [DeliverySchedulerState.snapshotGauges, h.lane, h.foldl selected _ (by rw [h.new]; omega),
    h.new]
  simp only [Map.count, Map.total] at hle ⊢
  rw [saturatingAdd]
  omega

end

/-- Every record is one of a registered subscription. -/
theorem sum_count (hw : Wf s) (p : OwnedDeliveryRecord → Prop) [DecidablePred p] : s.owned.count p =
      ∑ id ∈ s.subscriptions.keys, s.owned.count fun r => r.subscriptionId = id ∧ p r := by
  refine Map.count_eq_sum (f := OwnedDeliveryRecord.subscriptionId) fun lease r hr => ?_
  obtain ⟨sub, hsub⟩ := hw.registered lease r hr
  exact Finmap.mem_keys.2 (Map.mem_of_lookup hsub)

/-! ## The lanes -/

/-- The leases that wait in ordered lanes, without the heads of unlocked ones. -/
def SubscriptionScheduleState.behind (sub : SubscriptionScheduleState) : List Nat :=
  sub.lanes.flatMap fun lane =>
    lane.1.elim [] fun key => if key ∈ sub.lockedLanes then lane.2 else lane.2.tail

section
variable {sub : SubscriptionScheduleState} {id : Id} {lease : Nat}

theorem foldl_scanLane (sub : SubscriptionScheduleState) {waiting : Nat} (hw : waiting < 2 ^ 64) :
    sub.lanes.foldl (scanLane sub) waiting = saturatingAdd waiting sub.behind.length := by
  unfold SubscriptionScheduleState.behind
  induction sub.lanes generalizing waiting with
  | nil =>
    simp only [List.foldl_nil, List.flatMap_nil, List.length_nil, saturatingAdd]
    omega
  | cons lane lanes ih =>
    obtain ⟨key, queue⟩ := lane
    rw [List.foldl_cons, List.flatMap_cons, List.length_append]
    cases key with
    | none =>
      rw [scanLane, ih hw, Option.elim_none, List.length_nil, Nat.zero_add]
    | some key =>
      have hlt : scanLane sub waiting (some key, queue) < 2 ^ 64 := by
        simp only [scanLane, saturatingAdd]
        omega
      rw [ih hlt, Option.elim_some]
      simp only [scanLane, saturatingAdd]
      split
      · omega
      · rw [List.length_tail]
        omega

theorem behind_sublist (sub : SubscriptionScheduleState) : sub.behind.Sublist sub.lanes.items := by
  unfold SubscriptionScheduleState.behind
  induction sub.lanes with
  | nil => exact .refl _
  | cons lane lanes ih =>
    rw [List.flatMap_cons, Lanes.items_cons]
    refine List.Sublist.append ?_ ih
    cases lane.1 with
    | none => exact List.nil_sublist _
    | some key =>
      rw [Option.elim_some]
      split
      · exact .refl _
      · exact List.tail_sublist _

theorem mem_behind : lease ∈ sub.behind ↔ ∃ key queue, (some key, queue) ∈ sub.lanes ∧
    lease ∈ if key ∈ sub.lockedLanes then queue else queue.tail := by
  unfold SubscriptionScheduleState.behind
  rw [List.mem_flatMap]
  constructor
  · rintro ⟨⟨key, queue⟩, hlane, hmem⟩
    cases key with
    | none => cases hmem
    | some key => exact ⟨key, queue, hlane, hmem⟩
  · rintro ⟨key, queue, hlane, hmem⟩
    exact ⟨(some key, queue), hlane, hmem⟩

/-- The list holds the leases it should. -/
theorem Wf.mem_behind (hw : Wf s) (hsub : s.subscriptions.lookup id = some sub) :
    lease ∈ sub.behind ↔ s.Behind id lease := by
  have hinv := (hw.sub id sub hsub).inv
  rw [Scheduler.mem_behind]
  constructor
  · rintro ⟨key, queue, hlane, hmem⟩
    have hin : lease ∈ queue := by
      split at hmem
      · exact hmem
      · exact List.mem_of_mem_tail hmem
    obtain ⟨r, ⟨hl, hid⟩, hr, hq⟩ := (hinv.lanesMem (some key) lease).1 ⟨queue, hlane, hin⟩
    refine ⟨sub, r, key, hsub, hl, hid, hr, hq, ?_⟩
    by_cases hk : key ∈ sub.lockedLanes
    · exact .inl hk
    · -- the lane of the key is sorted, so its head is not in its tail
      refine .inr fun queue' hlane' => ?_
      obtain rfl := hinv.lanesOk.key_unique hlane hlane'
      rw [if_neg hk, List.tail_cons] at hmem
      exact Nat.lt_irrefl lease ((List.pairwise_cons.1 (hinv.laneSorted _ _ hlane)).1 lease hmem)
  · rintro ⟨sub', r, key, hsub', hl, hid, hr, hq, hbehind⟩
    obtain rfl := Option.some.inj (hsub.symm.trans hsub')
    obtain ⟨queue, hlane, hin⟩ := (hinv.lanesMem (some key) lease).2 ⟨r, ⟨hl, hid⟩, hr, hq⟩
    refine ⟨key, queue, hlane, ?_⟩
    split
    · exact hin
    · rename_i hk
      cases queue with
      | nil => exact hin
      | cons head queue =>
        rcases List.mem_cons.1 hin with rfl | hin
        · exact absurd hlane (hbehind.resolve_left hk queue)
        · exact hin

/-- The leases of `id` that wait behind others. -/
def behindOf (s : DeliverySchedulerState) (id : Id) : Finset Nat :=
  ((s.subscriptions.lookup id).elim [] (·.behind)).toFinset

theorem Wf.mem_behindOf (hw : Wf s) : lease ∈ behindOf s id ↔ s.Behind id lease := by
  unfold behindOf
  rw [List.mem_toFinset]
  cases hsub : s.subscriptions.lookup id with
  | none =>
    refine iff_of_false List.not_mem_nil ?_
    rintro ⟨sub, -, -, h, -⟩
    rw [hsub] at h
    cases h
  | some sub => exact hw.mem_behind hsub

theorem Wf.card_behindOf (hw : Wf s) (id : Id) :
    (behindOf s id).card = (s.subscriptions.lookup id).elim 0 (·.behind.length) := by
  unfold behindOf
  cases hsub : s.subscriptions.lookup id with
  | none => rfl
  | some sub =>
    exact List.toFinset_card_of_nodup
      ((hw.sub id sub hsub).inv.lanesOk.itemsNodup.sublist (behind_sublist sub))

theorem foldl_scanSubscription (selected : Option Id)
    (m : Multiset ((_ : Id) × SubscriptionScheduleState)) {waiting : Nat} (hw : waiting < 2 ^ 64) :
    m.foldl (scanSubscription selected) waiting = saturatingAdd waiting (m.map fun e =>
      if ∀ i ∈ selected, i = e.1 then e.2.behind.length else 0).sum := by
  induction m using Multiset.induction generalizing waiting with
  | empty =>
    simp only [Multiset.foldl_zero, Multiset.map_zero, Multiset.sum_zero, saturatingAdd]
    omega
  | cons e m ih =>
    rw [Multiset.foldl_cons, Multiset.map_cons, Multiset.sum_cons, scanSubscription]
    by_cases hi : ∀ i ∈ selected, i = e.1
    · have hany : selected.any (· ≠ e.1) = false := by
        cases selected with
        | none => rfl
        | some i => simpa using hi i rfl
      rw [hany, if_neg Bool.false_ne_true, foldl_scanLane e.2 hw,
        ih (by unfold saturatingAdd; omega), if_pos hi]
      unfold saturatingAdd
      omega
    · have hany : selected.any (· ≠ e.1) = true := by
        cases selected with
        | none => simp at hi
        | some i => simpa using hi
      rw [hany, if_pos rfl, ih hw, if_neg hi, Nat.zero_add]

/-- A lease waits in the lanes of one subscription. -/
theorem Wf.card_biUnion_behindOf (hw : Wf s) (ids : Finset Id) :
    (ids.biUnion (behindOf s)).card = ∑ id ∈ ids, (behindOf s id).card := by
  refine Finset.card_biUnion fun i _ j _ hij => Finset.disjoint_left.2 fun lease hi hj => hij ?_
  obtain ⟨-, r, -, -, hr, rfl, -⟩ := hw.mem_behindOf.1 hi
  obtain ⟨-, r', -, -, hr', rfl, -⟩ := hw.mem_behindOf.1 hj
  rw [hr] at hr'
  rw [Option.some.inj hr']

theorem Wf.laneWaiting (hw : Wf s) (hs : s.owned.size < 2 ^ 64) (selected : Option Id) :
    (s.snapshotGauges selected).laneWaiting =
      ∑ id ∈ s.subscriptions.keys with ∀ i ∈ selected, i = id, (behindOf s id).card := by
  have hsum : (s.subscriptions.entries.map fun e =>
      if ∀ i ∈ selected, i = e.1 then e.2.behind.length else 0).sum =
      ∑ id ∈ s.subscriptions.keys with ∀ i ∈ selected, i = id, (behindOf s id).card := by
    rw [Map.sum_entries s.subscriptions fun id sub =>
      if ∀ i ∈ selected, i = id then sub.behind.length else 0, Finset.sum_filter]
    refine Finset.sum_congr rfl fun id _ => ?_
    rw [hw.card_behindOf]
    cases s.subscriptions.lookup id <;> simp
  -- they are owned leases, so the gauge does not saturate
  have hle : ∑ id ∈ s.subscriptions.keys with ∀ i ∈ selected, i = id, (behindOf s id).card ≤
      s.owned.size := by
    rw [← hw.card_biUnion_behindOf, Map.size_eq_card]
    refine Finset.card_le_card fun lease hm => ?_
    obtain ⟨id, -, hm⟩ := Finset.mem_biUnion.1 hm
    obtain ⟨-, r, -, -, hr, -⟩ := hw.mem_behindOf.1 hm
    exact Finmap.mem_keys.2 (Map.mem_of_lookup hr)
  have hzero : (s.owned.entries.foldl (scanRecord selected) {}).laneWaiting = 0 := by
    refine Multiset.foldl_induction' (scanRecord selected) {} (fun _ => True) (·.laneWaiting = 0) _
      ?_ rfl fun _ _ => trivial
    intro e x _ hx
    unfold scanRecord
    split
    · exact hx
    · cases e.2.phase <;> exact hx
  rw [DeliverySchedulerState.snapshotGauges]
  simp only [hzero]
  rw [foldl_scanSubscription selected _ (by omega), hsum, saturatingAdd]
  omega

end

/-! ## The agreement -/

theorem Wf.gauges (hw : Wf s) (hs : s.owned.size < 2 ^ 64) : GaugesConsistent s := by
  have hone (g : DeliveryMetricsSnapshot → Nat) (P : OwnedDeliveryPhase → Prop) [DecidablePred P]
      (h : GaugeOf g P) (id : Id) : g (s.snapshotGauges (some id)) =
        s.owned.count fun r => r.subscriptionId = id ∧ P r.phase := by
    rw [h.snapshotGauges hs]
    simp
  have hall (g : DeliveryMetricsSnapshot → Nat) (P : OwnedDeliveryPhase → Prop) [DecidablePred P]
      (h : GaugeOf g P) : g (s.snapshotGauges none) = s.owned.count fun r => P r.phase := by
    rw [h.snapshotGauges hs]
    simp
  have hsum (g : DeliveryMetricsSnapshot → Nat) (P : OwnedDeliveryPhase → Prop) [DecidablePred P]
      (h : GaugeOf g P) : g (s.snapshotGauges none) =
        ∑ id ∈ s.subscriptions.keys, g (s.snapshotGauges (some id)) := by
    rw [hall g P h, sum_count hw]
    exact Finset.sum_congr rfl fun id _ => (hone g P h id).symm
  refine ⟨hone _ _ gaugeOf_reservedReceives, hone _ _ gaugeOf_queued,
    hone _ _ gaugeOf_runningHandlers, hone _ _ gaugeOf_settling, fun id sub hsub => ?_, ?_, ?_,
    fun selected => ?_⟩
  · rw [hone _ _ gaugeOf_reservedReceives, hone _ _ gaugeOf_queued,
      hone _ _ gaugeOf_runningHandlers, hone _ _ gaugeOf_settling, (hw.sub id sub hsub).ownedEq]
    simp only [Map.count, ← Map.total_add]
    refine Map.total_congr _ fun lease r _ => ?_
    obtain ⟨subscriptionId, phase, createdAt, lane⟩ := r
    by_cases hid : subscriptionId = id
    · cases phase <;> simp [hid]
    · simp [hid]
  · rw [hall _ _ gaugeOf_runningHandlers, hw.runningEq]
  · simp only [List.forall_mem_cons, List.not_mem_nil, false_imp_iff, implies_true, and_true]
    refine ⟨hsum _ _ gaugeOf_reservedReceives, hsum _ _ gaugeOf_queued,
      hsum _ _ gaugeOf_runningHandlers, hsum _ _ gaugeOf_settling, ?_⟩
    rw [hw.laneWaiting hs, Finset.filter_true_of_mem (by simp)]
    refine Finset.sum_congr rfl fun id hid => ?_
    rw [hw.laneWaiting hs, Finset.sum_filter]
    simp [hid]
  · rw [hw.laneWaiting hs, ← hw.card_biUnion_behindOf, ← Set.ncard_coe_finset]
    congr 1
    ext lease
    simp only [Finset.coe_biUnion, Set.mem_iUnion, Finset.mem_coe, Finset.mem_filter,
      Set.mem_ofPred_eq, hw.mem_behindOf]
    constructor
    · rintro ⟨id, ⟨-, hi⟩, hb⟩
      exact ⟨id, hi, hb⟩
    · rintro ⟨id, hi, hb⟩
      have hb' := hb
      obtain ⟨sub, -, -, hsub, -⟩ := hb'
      exact ⟨id, ⟨Finmap.mem_keys.2 (Map.mem_of_lookup hsub), hi⟩, hb⟩

/-- **In every reachable state the gauges are right.** The limit of owned deliveries is a
`usize`. -/
theorem exec_new_gauges (config : DeliverySchedulingConfig)
    (hmax : (config.maxOwnedDeliveries : Nat) < 2 ^ 64) (ops : List Op) :
    GaugesConsistent (exec step (.new config) ops) := by
  have hw := (exec_inv (inv_new config) ops).wf
  refine hw.gauges (Nat.lt_of_le_of_lt hw.ownedLe ?_)
  rwa [exec_config]

/-- A lease in each phase that is gauged: 1 runs and holds its lane, 2 is settling, 3 waits for the
lane, and both subscriptions have a reservation. -/
theorem exec_new_gauges_default :
    let receive (lease : Nat) (lane : Option OrderingLaneKey) : List Op :=
      [.requestReceive ⟨1⟩, .takeReceiveReservation ⟨1⟩, .enqueue lease lane, .takeReady ⟨1⟩]
    let s := exec step (.new .default)
      ([.register ⟨1⟩, .register ⟨2⟩, .setDispatchActive ⟨1⟩ true] ++
      receive 1 (some ⟨"t", some "k", ⟨1⟩⟩) ++ receive 2 none ++ [.handlerFinished 2] ++
      receive 3 (some ⟨"t", some "k", ⟨1⟩⟩) ++ [.requestReceive ⟨1⟩, .requestReceive ⟨2⟩])
    s.snapshotGauges none = ⟨2, 1, 1, 1, 1⟩ ∧ s.snapshotGauges (some ⟨1⟩) = ⟨1, 1, 1, 1, 1⟩ ∧
      GaugesConsistent s :=
  ⟨by decide +kernel, by decide +kernel, exec_new_gauges .default (by decide) _⟩

end EventBus.Scheduler
