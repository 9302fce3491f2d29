import EventBus.Scheduler.Edit

/-!
# Ordered lanes

A lane with an ordering key is a FIFO with one delivery out at a time, across handler attempts and
retries. The argument needs no history in the state: a lease that entered a lane stays in it
(`InLane`) until `complete` ends it, a lease that ended never comes back (`Gone`), and within one
subscription leases enter lanes in their own order (`SubInv.reservedLast`). So the head of an
unlocked lane can be granted only when everything that entered the lane before it is gone.
-/

namespace EventBus.Scheduler

open Lib OwnedDeliveryPhase DeliverySchedulerState

/-- `lease` has entered the lane `key` of `id` and has not ended. -/
def InLane (s : DeliverySchedulerState) (id : Id) (key : OrderingLaneKey) (lease : Nat) : Prop :=
  ∃ r, s.owned.lookup lease = some r ∧ r.subscriptionId = id ∧ r.lane = some key ∧
    r.phase ≠ .reservedReceive

/-- `lease` was handed out and has ended. -/
def Gone (s : DeliverySchedulerState) (lease : Nat) : Prop :=
  s.owned.lookup lease = none ∧ ∀ n, s.nextLease = some n → lease < n

/-- `op`, called in `s`, puts `lease` into the lane `key` of `id`. -/
def Enqueues (s : DeliverySchedulerState) (op : Op) (id : Id) (key : OrderingLaneKey)
    (lease : Nat) : Prop :=
  (op = .enqueue lease (some key) ∨ op = .enqueueSettlement lease (some key)) ∧
    ∃ r r', s.owned.lookup lease = some r ∧ r.subscriptionId = id ∧
      r.phase = .reservedReceive ∧ (step s op).owned.lookup lease = some r' ∧ r'.phase.isQueued

section
variable {key : OrderingLaneKey} {lease : Nat} {id : Id} {op : Op} {s s' : DeliverySchedulerState}

/-! ## Releases -/

theorem release_lookup_ne {l : Nat} (hl : l ≠ lease) :
    (s.release lease).owned.lookup l = s.owned.lookup l := by
  have herase : (s.owned.erase lease).lookup l = s.owned.lookup l :=
    (Map.lookup_erase_eq _ _ _).trans (if_neg hl)
  unfold DeliverySchedulerState.release
  split
  · rfl
  · dsimp only
    split
    · exact herase
    · rw [refreshReady_owned]
      exact herase

theorem release_lookup_self (lease : Nat) : (s.release lease).owned.lookup lease = none := by
  have herase : (s.owned.erase lease).lookup lease = none :=
    (Map.lookup_erase_eq _ _ _).trans (if_pos rfl)
  unfold DeliverySchedulerState.release
  split
  · assumption
  · dsimp only
    split
    · exact herase
    · rw [refreshReady_owned]
      exact herase

/-! ## One operation -/

theorem Gone.release (h : Gone s lease) (l : Nat) : Gone (s.release l) lease := by
  refine ⟨Option.eq_none_iff_forall_ne_some.2 fun r hr => ?_,
    fun n hn => h.2 n (release_nextLease l ▸ hn)⟩
  cases h.1.symm.trans (release_owned l lease r hr)

theorem Gone.grant {waiters : List Id} {sub : SubscriptionScheduleState} {l : Nat}
    (h : Gone s lease) (hn : s.nextLease = some l) :
    Gone (grantFirst s id waiters sub l) lease := by
  have hlt := h.2 l hn
  refine ⟨?_, fun m hm => ?_⟩
  · show (s.owned.insert l _).lookup lease = none
    rw [Map.lookup_insert_eq, if_neg (Nat.ne_of_lt hlt)]
    exact h.1
  · obtain ⟨rfl, -⟩ := checkedSucc_some hm
    exact Nat.lt_succ_of_lt hlt

/-- A lease that has ended does not come back. -/
theorem Took.gone (ht : Took s op s') (hi : Inv s) (h : Gone s lease) : Gone s' lease := by
  refine ht.carry hi (P := fun t => Gone t lease) ⟨fun h ho _ hn => ⟨ho ▸ h.1, hn ▸ h.2⟩,
    fun h _ => h.release _, fun h _ _ hn => h.grant hn⟩ fun t he => ⟨?_, he.next ▸ h.2⟩
  cases he.owned with
  | same heq => exact heq ▸ h.1
  | change heq hl =>
    rw [heq, Map.lookup_insert_eq, if_neg]
    · exact h.1
    · rintro rfl
      cases h.1.symm.trans hl

/-- A lease leaves its lane only when it is completed. -/
theorem Took.inLane (ht : Took s op s') (hi : Inv s) (h : InLane s id key lease) :
    InLane s' id key lease ∨ (op = .complete lease ∧ Gone s' lease) := by
  obtain ⟨r, hr, hid, hkey, hp⟩ := h
  refine ht.carry hi (P := fun t => (InLane t id key lease ∧ ∀ n, t.nextLease = some n →
    lease < n) ∨ (op = .complete lease ∧ Gone t lease)) ⟨?_, ?_, ?_⟩
    (fun t he => .inl ⟨?_, fun n hn => ?_⟩)
    |>.imp_left And.left
  · rintro t t' (⟨h, hu⟩ | ⟨hop, h⟩) ho - hn
    · exact .inl ⟨by rwa [InLane, ho], hn ▸ hu⟩
    · exact .inr ⟨hop, ho ▸ h.1, hn ▸ h.2⟩
  · rintro t l (⟨⟨r', hr', hk⟩, hu⟩ | ⟨hop, h⟩) hl
    · by_cases hlease : lease = l
      · subst hlease
        rcases hl with hl | ⟨j, hj⟩
        · exact .inr ⟨hl, release_lookup_self lease, fun n hn =>
            hu n (release_nextLease lease ▸ hn)⟩
        · -- only a reserved lease is unclaimed
          obtain ⟨sub, hs, hj⟩ := Option.bind_eq_some_iff.1 hj
          obtain ⟨r₀, hr₀, -, hp₀⟩ := (hi.wf.sub j sub hs).inv.reserved_owns (unclaimed_some hj).2
          rw [hr] at hr₀
          exact absurd (Option.some.inj hr₀ ▸ hp₀) hp
      · exact .inl ⟨⟨r', (release_lookup_ne hlease).trans hr', hk⟩,
          fun n hn => hu n (release_nextLease l ▸ hn)⟩
    · exact .inr ⟨hop, h.release l⟩
  · rintro t j waiters sub l (⟨⟨r', hr', hk⟩, hu⟩ | ⟨hop, h⟩) hw - hn
    · refine .inl ⟨⟨r', grantFirst_keeps hw hn hr', hk⟩, fun m hm => ?_⟩
      obtain ⟨rfl, -⟩ := checkedSucc_some hm
      exact Nat.lt_succ_of_lt (hu l hn)
    · exact .inr ⟨hop, h.grant hn⟩
  · cases he.owned with
    | same heq => exact ⟨r, heq ▸ hr, hid, hkey, hp⟩
    | @change l _ r' heq hl he =>
      by_cases hlease : lease = l
      · subst hlease
        obtain rfl := Option.some.inj (hr.symm.trans hl)
        obtain ⟨hlane, hphase⟩ := he.entered hp
        refine ⟨r', ?_, he.owner.trans hid, hlane.trans hkey, hphase⟩
        rw [heq, Map.lookup_insert_eq, if_pos rfl]
      · refine ⟨r, ?_, hid, hkey, hp⟩
        rw [heq, Map.lookup_insert_eq, if_neg hlease, hr]
  · exact hi.wf.fresh n (he.next ▸ hn) lease r hr

/-! ## Whole runs -/

/-- A lease in a lane stays there or is gone. -/
theorem exec_inLane_or_gone (hi : Inv s) (h : InLane s id key lease ∨ Gone s lease)
    (ops : List Op) : InLane (exec step s ops) id key lease ∨ Gone (exec step s ops) lease := by
  have := exec_induct (P := fun t => Inv t ∧ (InLane t id key lease ∨ Gone t lease))
    (fun t op ht => ⟨ht.1.step op, ?_⟩) ⟨hi, h⟩ ops
  · exact this.2
  · rcases ht.2 with h | h
    · exact ((ht.1.took op).inLane ht.1 h).imp_right (·.2)
    · exact .inr ((ht.1.took op).gone ht.1 h)

theorem exec_gone (hi : Inv s) (h : Gone s lease) (ops : List Op) : Gone (exec step s ops) lease :=
  (exec_induct (P := fun t => Inv t ∧ Gone t lease)
    (fun _ op ht => ⟨ht.1.step op, (ht.1.took op).gone ht.1 ht.2⟩) ⟨hi, h⟩ ops).2

theorem InLane.not_gone (h : InLane s id key lease) : ¬ Gone s lease := by
  intro hg
  obtain ⟨r, hr, -⟩ := h
  rw [hg.1] at hr
  cases hr

/-- Only `complete` ends a lease in a lane. -/
theorem complete_mem_of_gone (hi : Inv s) (h : InLane s id key lease) {ops : List Op}
    (hg : Gone (exec step s ops) lease) : .complete lease ∈ ops := by
  by_contra hn
  refine InLane.not_gone (exec_of_not_mem (P := fun t => InLane t id key lease)
    (fun _ op ht => ht.step op) (fun _ op ht hop h => ?_) hi hn h) hg
  exact ((ht.took op).inLane ht h).resolve_right fun hc => hop hc.1

/-! ## Enqueuing and granting -/

/-- After it was enqueued, a lease is in its lane. -/
theorem Enqueues.inLane (hi : Inv s) (h : Enqueues s op id key lease) :
    InLane (step s op) id key lease := by
  obtain ⟨hop, r, r', hl, hid, hp, hl', hq⟩ := h
  refine ⟨r', hl', ?_⟩
  have hkey : ∀ phase, ((s.enqueuePhase lease (some key) phase).owned.lookup lease = some r') →
      r'.subscriptionId = id ∧ r'.lane = some key ∧ r'.phase ≠ .reservedReceive := by
    intro phase h'
    obtain ⟨sub, hs⟩ := hi.wf.registered lease r hl
    simp only [enqueuePhase, hl, hp, hs, ne_eq, not_true_eq_false, if_false] at h'
    split_ifs at h'
    · rw [hl] at h'
      obtain rfl := Option.some.inj h'
      exact absurd hp (isQueued.not_reserved hq)
    · rw [notifyReady_owned, refreshReady_owned, Map.lookup_insert_eq, if_pos rfl] at h'
      obtain rfl := Option.some.inj h'
      exact ⟨hid, rfl, isQueued.not_reserved hq⟩
  rcases hop with rfl | rfl
  · exact hkey .queued hl'
  · exact hkey .queuedSettlement hl'

/-- A lease enters its lane after everything that is there. -/
theorem Enqueues.lt (hi : Inv s) {first : Nat} (h : Enqueues s op id key lease)
    (hin : InLane s id key first) : first < lease := by
  obtain ⟨-, r, -, hl, hid, hp, -⟩ := h
  obtain ⟨r₁, hl₁, hid₁, -, hp₁⟩ := hin
  obtain ⟨sub, hs⟩ := hi.wf.registered lease r hl
  exact (hi.wf.sub id sub (hid ▸ hs)).inv.lt_reserved ⟨r, ⟨hl, hid⟩, hp⟩ ⟨hl₁, hid₁⟩
    ((owns_functional _ _).not_reserved ⟨hl₁, hid₁⟩ hp₁)

/-- A call of one of the two operations that grant a lane. -/
def Op.takes (op : Op) (id : Id) : Prop := op = .takeReady id ∨ op = .takeSettlementReady id

/-- A returned lease is the head of the selected lane. -/
theorem call_lease (hi : Inv s) (hop : op.takes id) (h : (call s op).1 = .lease (some lease)) :
    ∃ g, Selected s id g ∧ g.lease = lease ∧ step s op = (granted s id g).notifyReady := by
  have hcase : ∀ expected, (s.takeGrant id expected).1 = some lease →
      ∃ g, Selected s id g ∧ g.lease = lease ∧
        (s.takeGrant id expected).2 = (granted s id g).notifyReady := by
    intro expected hret
    rcases hi.wf.takeGrant_cases id expected with he | he | ⟨g, hg, -, he⟩
    · rw [he] at hret
      cases hret
    · rw [he] at hret
      cases hret
    · rw [he] at hret ⊢
      exact ⟨g, hg, Option.some.inj hret, rfl⟩
  rcases hop with rfl | rfl
  · exact hcase .queued (Ret.lease.inj h)
  · exact hcase .queuedSettlement (Ret.lease.inj h)

/-- Everything else in the lane of a granted head comes after it. -/
theorem Selected.lt_of_inLane (hi : Inv s) {g : LaneHead} (hg : Selected s id g)
    (hk : g.lane = some key) (hne : lease ≠ g.lease) (h : InLane s id key lease) :
    g.lease < lease := by
  have hinv := (hi.wf.sub id g.sub hg.lookup).inv
  obtain ⟨r, hl, hid, hlane, hp⟩ := h
  have hin : (some key, g.lease :: g.queue) ∈ g.sub.lanes := by
    rw [hg.lanes, hk]
    simp
  have hqueued : r.phase.isQueued := by
    -- a lease past the lane would keep it locked
    have hnh : ¬ r.phase.holdsLane := fun hh =>
      hg.unlocked key hk ((hinv.lockedMem key).2 ⟨lease, r, ⟨hl, hid⟩, hlane, hh⟩)
    revert hnh hp
    cases r.phase <;> decide
  obtain ⟨q, hq, hm⟩ := (hinv.lanesMem (some key) lease).2 ⟨r, ⟨hl, hid⟩, hlane, hqueued⟩
  rw [hinv.lanesOk.key_unique hq hin] at hm
  exact (List.pairwise_cons.1 (hinv.laneSorted _ _ hin)).1 lease
    ((List.mem_cons.1 hm).resolve_left hne)

end

/-- The history of one ordered lane: `first` entered the lane `key` of `id` at the operation
`opA`, and `second` at the later operation `opB`. -/
structure EnqueuedBefore (config : DeliverySchedulingConfig) (ops pre mid post : List Op)
    (opA opB : Op) (id : Id) (key : OrderingLaneKey) (first second : Nat) : Prop where
  split : ops = pre ++ opA :: (mid ++ opB :: post)
  first : Enqueues (exec step (.new config) pre) opA id key first
  second : Enqueues (exec step (.new config) (pre ++ opA :: mid)) opB id key second

/-- **Ordered-lane exclusion and FIFO.** Whenever `takeReady` or `takeSettlementReady` returns a
lease whose lane has an ordering key, for the first time or after a retry, every lease that was
enqueued into this lane before it has been completed and is gone, and no other lease of the lane
is running, settling or waiting for a retry. -/
theorem exec_new_lane_fifo (config : DeliverySchedulingConfig) (ops : List Op) (op : Op)
    (s : DeliverySchedulerState) (id : Id) (key : OrderingLaneKey) (lease : Nat)
    (record : OwnedDeliveryRecord) (hs : s = exec step (.new config) ops) (hop : op.takes id)
    (hret : (call s op).1 = .lease (some lease)) (hlease : s.owned.lookup lease = some record)
    (hkey : record.lane = some key) :
    (∀ pre mid post opA opB first,
      EnqueuedBefore config ops pre mid post opA opB id key first lease →
      .complete first ∈ mid ++ opB :: post ∧ s.owned.lookup first = none) ∧
    (∀ other r, (step s op).owned.lookup other = some r → other ≠ lease →
      r.subscriptionId = id → r.lane = some key →
      ¬ (r.phase = .running ∨ r.phase = .settling ∨ r.phase = .waitingRetry)) := by
  have hi : Inv s := hs ▸ exec_inv (inv_new config) ops
  obtain ⟨g, hg, rfl, hstep⟩ := call_lease hi hop hret
  obtain rfl : g.record = record := Option.some.inj (hg.owns.1.symm.trans hlease)
  have hk : g.lane = some key := hg.lane.symm.trans hkey
  refine ⟨fun pre mid post opA opB first hb => ?_, fun other r ho hne hid hlane hp => ?_⟩
  · have hpre := exec_inv (inv_new config) pre
    have hA := hb.first.inLane hpre
    -- the states before `first` entered, before the granted lease entered, and at the grant
    have ht : exec step (.new config) (pre ++ opA :: mid) =
        exec step (step (exec step (.new config) pre) opA) mid := by rw [exec_append, exec_cons]
    have hst : s = exec step (exec step (.new config) (pre ++ opA :: mid)) (opB :: post) := by
      rw [hs, hb.split, ← exec_append]
      simp
    have hmid := exec_inLane_or_gone (hpre.step opA) (.inl hA) mid
    rw [← ht] at hmid
    have hit := exec_inv (inv_new config) (pre ++ opA :: mid)
    have hend := exec_inLane_or_gone hit hmid (opB :: post)
    rw [← hst] at hend
    have hgone : Gone s first := by
      refine hend.resolve_left fun hin => ?_
      -- `first` was still in the lane when the granted lease was reserved, so it is the smaller
      have hin' := hmid.resolve_right fun h => hin.not_gone (hst ▸ exec_gone hit h (opB :: post))
      have hlt := hb.second.lt hit hin'
      exact Nat.lt_asymm hlt (hg.lt_of_inLane hi hk (Nat.ne_of_lt hlt) hin)
    refine ⟨complete_mem_of_gone (hpre.step opA) hA ?_, hgone.1⟩
    rw [exec_append, ← ht, ← hst]
    exact hgone
  · have hi' := hi.step op
    obtain ⟨sub', hs'⟩ := hi'.wf.registered other r ho
    refine hne ((hi'.wf.sub id sub' (hid ▸ hs')).inv.holderUnique key other g.lease
      ⟨r, ⟨ho, hid⟩, hlane, hp⟩ ⟨{ g.record with phase := grantPhase g.record.phase },
        ⟨?_, hg.owns.2⟩, hkey, grantPhase_holdsLane _⟩)
    rw [hstep, notifyReady_owned, granted, refreshReady_owned]
    exact (Map.lookup_insert_eq _ _ _ _).trans (if_pos rfl)

/-- Two deliveries through one ordered lane: the second is enqueued behind the first, which then
runs, settles and completes. -/
def twoInLane (key : OrderingLaneKey) : List Op :=
  [.register ⟨1⟩, .setDispatchActive ⟨1⟩ true, .requestReceive ⟨1⟩, .takeReceiveReservation ⟨1⟩,
    .enqueue 1 (some key), .requestReceive ⟨1⟩, .takeReceiveReservation ⟨1⟩,
    .enqueue 2 (some key), .takeReady ⟨1⟩, .handlerFinished 1, .complete 1]

set_option maxRecDepth 8000 in
theorem exec_new_lane_fifo_two :
    (call (exec step (.new .default) (twoInLane ⟨"t", some "k", ⟨1⟩⟩)) (.takeReady ⟨1⟩)).1 =
      .lease (some 2) ∧
    Op.complete 1 ∈ ([.requestReceive ⟨1⟩, .takeReceiveReservation ⟨1⟩] : List Op) ++
      .enqueue 2 (some ⟨"t", some "k", ⟨1⟩⟩) ::
        [.takeReady ⟨1⟩, .handlerFinished 1, .complete 1] :=
  ⟨by decide, ((exec_new_lane_fifo .default (twoInLane ⟨"t", some "k", ⟨1⟩⟩) (.takeReady ⟨1⟩) _ ⟨1⟩
    ⟨"t", some "k", ⟨1⟩⟩ 2 ⟨⟨1⟩, .queued, none, some ⟨"t", some "k", ⟨1⟩⟩⟩ rfl (.inl rfl)
    (by decide) (by decide) rfl).1
    [.register ⟨1⟩, .setDispatchActive ⟨1⟩ true, .requestReceive ⟨1⟩, .takeReceiveReservation ⟨1⟩]
    [.requestReceive ⟨1⟩, .takeReceiveReservation ⟨1⟩]
    [.takeReady ⟨1⟩, .handlerFinished 1, .complete 1]
    (.enqueue 1 (some ⟨"t", some "k", ⟨1⟩⟩)) (.enqueue 2 (some ⟨"t", some "k", ⟨1⟩⟩)) 1
    ⟨rfl, ⟨.inl rfl, ⟨⟨1⟩, .reservedReceive, none, none⟩,
        ⟨⟨1⟩, .queued, none, some ⟨"t", some "k", ⟨1⟩⟩⟩, by decide, rfl, rfl, by decide, .inl rfl⟩,
      ⟨.inl rfl, ⟨⟨1⟩, .reservedReceive, none, none⟩,
        ⟨⟨1⟩, .queued, none, some ⟨"t", some "k", ⟨1⟩⟩⟩, by decide, rfl, rfl, by decide,
        .inl rfl⟩⟩).1⟩

end EventBus.Scheduler
