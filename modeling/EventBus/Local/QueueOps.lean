import EventBus.Local.QueueCount

/-!
# What the queue's functions do

One specification for each function of the queue, from the invariant `Sound`: it does not panic, it
keeps the invariant, and it changes the lanes as it says. That it returns and what it does to the
events does not depend on the generations (`QueueCount.lean`); what is added here is `Formed`, as
long as no generation wraps around. The specifications hold for every `now`; what they add for a
clock that does not run backwards is `Timed`: every lane is either ready with a due head or in the
heap.
-/

namespace EventBus.Local.LocalQueueState

open Lib

variable {s s' : LocalQueueState} {lane : QueueLane} {k key : QueueKey} {now t : Nat}
  {h : DelayedQueueHead} {heap : List DelayedQueueHead} {iter : IterOrder} {e : LocalEvent}
  {events : List LocalEvent}

/-- The lane of `k` is in the heap, or ready with a head that is due at `t`. -/
structure Scheduled (t : Nat) (s : LocalQueueState) (k : QueueKey) : Prop where
  ready : ∀ {lane}, s.lanes.lookup k = some lane → lane.delayedVersion = none →
    (k, lane.version) ∈ s.readyLanes
  due : ∀ {lane d}, s.lanes.lookup k = some lane → lane.delayedVersion = none →
    lane.headDeadline = some d → d ≤ t

/-- All lanes are scheduled at `t`, the time of the last call, and the heap was drained up to
`p`. -/
structure Timed (p t : Nat) (s : LocalQueueState) : Prop where
  le : p ≤ t
  scheduled : ∀ k, Scheduled t s k
  later : ∀ h ∈ s.delayedLanes, p < h.deadline

theorem Scheduled.mono {t' : Nat} (h : Scheduled t s k) (ht : t ≤ t') :
    Scheduled t' s k := ⟨h.ready, fun hl hd hx => (h.due hl hd hx).trans ht⟩

/-- A key whose lane and ready entry did not change. -/
theorem Scheduled.congr (h : Scheduled t s k) (hl : s'.lanes.lookup k = s.lanes.lookup k)
    (hr : ∀ {lane}, s.lanes.lookup k = some lane → lane.delayedVersion = none →
      (k, lane.version) ∈ s.readyLanes → (k, lane.version) ∈ s'.readyLanes) : Scheduled t s' k :=
  ⟨fun hlane hd => hr (hl ▸ hlane) hd (h.ready (hl ▸ hlane) hd), fun hlane hd hx =>
    h.due (hl ▸ hlane) hd hx⟩

theorem Empty.timed (h : Empty s) {p : Nat} (hp : p ≤ t) : Timed p t s where
  le := hp
  scheduled := fun _ => ⟨fun hl => (h.no_lane hl).elim, fun hl => (h.no_lane hl).elim⟩
  later := by simp [h.heap]

/-! ## Discarding and promoting -/

/-- The stale entries at the top leave the heap. -/
theorem discard_spec (hs : Sound s) :
    ∃ heap stale, discardStaleDelayedHeads s =
        some { s with delayedLanes := heap, delayedStaleCount := stale } ∧
      Sound { s with delayedLanes := heap, delayedStaleCount := stale } ∧
      heap <:+ s.delayedLanes ∧ ∀ h, heap.head? = some h → isLive s.lanes h = true := by
  obtain ⟨heap, stale, heq, hb, hsuf, hhead⟩ := discard_balanced hs.balanced
  exact ⟨heap, stale, heq, ⟨hb, hs.formed.shrink rfl (.refl _) hsuf.sublist⟩, hsuf, hhead⟩

/-- What promoting at `now` does: no entry up to `now` is left. -/
structure Promoted (now : Nat) (s s' : LocalQueueState) : Prop where
  sound : Sound s'
  same : Same s s'
  later : ∀ h ∈ s'.delayedLanes, now < h.deadline
  scheduled : ∀ t, t ≤ now → (∀ k, Scheduled t s k) → ∀ k, Scheduled now s' k

/-- One live entry moves to the ready list. -/
theorem Formed.promoted (hf : Formed s) (hh : s.delayedLanes = h :: heap)
    (hl : s.lanes.lookup h.key = some lane) (hv : lane.version = h.version)
    (hd : lane.delayedVersion = some h.version) (live : Nat) :
    Formed (s.promoted h heap lane live) := by
  have hr := hf.not_ready hl hd
  rw [← hv] at hr
  have h₁ : Formed { s with
      delayedLanes := heap
      lanes := s.lanes.insert h.key { lane with delayedVersion := none } } :=
    hf.renew hl rfl le_rfl (hf.lanes.bounded hl) (.refl _) (hh ▸ List.sublist_cons_self _ _)
      (by simp)
  have h₂ := h₁.pushReady ((Map.lookup_insert_eq _ _ _ _).trans (if_pos rfl)) rfl hr
  exact h₂.shrink rfl (by simp only [LocalQueueState.promoted, hv]; exact .refl _) (.refl _)

/-- The promoted lane is ready, and its head is due. -/
theorem Sound.promoted_scheduled (hs : Sound s) (hh : s.delayedLanes = h :: heap)
    (hdue : h.deadline ≤ now) (hl : s.lanes.lookup h.key = some lane)
    (hv : lane.version = h.version) (hd : lane.delayedVersion = some h.version) (live : Nat)
    (hk : Scheduled now s k) : Scheduled now (s.promoted h heap lane live) k := by
  have hx := hs.headDeadline hl hd (hh ▸ List.mem_cons_self) rfl
  refine ⟨fun {lane'} hl' hd' => ?_, fun {lane' d} hl' hd' hx' => ?_⟩ <;>
    rw [LocalQueueState.promoted, Map.lookup_insert_eq] at hl' <;> split at hl'
  · rename_i hkey
    cases hl'
    exact List.mem_append_right _ (by rw [hkey, hv]; exact List.mem_singleton_self _)
  · exact List.mem_append_left _ (hk.ready hl' hd')
  · cases hl'
    obtain rfl : h.deadline = d := Option.some.inj (hx.symm.trans hx')
    exact hdue
  · exact hk.due hl' hd' hx'

theorem promoteDueHeads_spec (now : Nat) (hs : Sound s) :
    ∃ s', promoteDueHeads now s = some s' ∧ Promoted now s s' := by
  have hQ : Promotes now fun t =>
      Formed t ∧ ((∀ k, Scheduled now s k) → ∀ k, Scheduled now t k) := by
    constructor
    · rintro t heap stale ⟨hf, hsched⟩ hsuf
      exact ⟨hf.shrink rfl (.refl _) hsuf.sublist, fun hall k => (hsched hall k).congr rfl
        fun _ _ hm => hm⟩
    · rintro t h heap lane live hb ⟨hf, hsched⟩ hh hdue hl hv hd
      have ht : Sound t := ⟨hb, hf⟩
      exact ⟨hf.promoted hh hl hv hd live, fun hall k =>
        ht.promoted_scheduled hh hdue hl hv hd live (hsched hall k)⟩
  obtain ⟨s', heq, hb, ⟨hf, hsched⟩, hsame, hlater⟩ :=
    hQ.promoteDueHeads hs.balanced ⟨hs.formed, id⟩
  exact ⟨s', heq, ⟨hb, hf⟩, hsame, hlater, fun t ht hall => hsched fun k => (hall k).mono ht⟩

theorem Promoted.timed {p : Nat} (hp : Promoted now s s') (ht : Timed p t s) (hn : t ≤ now) :
    Timed now now s' :=
  ⟨le_rfl, hp.scheduled t hn ht.scheduled, hp.later⟩

/-! ## Scheduling a lane -/

/-- No lane has wrapped its generation counter to 0. A lane is scheduled, and its counter
incremented, in the call that creates it. -/
def Unwrapped (s : LocalQueueState) : Prop :=
  ∀ k lane, s.lanes.lookup k = some lane → lane.version ≠ 0

/-- A lane that is scheduled without a wrap moves on by one generation. -/
theorem scheduleLaneHeadAt_next (hl : s.lanes.lookup key = some lane) (hb : lane.version < 2 ^ 64)
    (h : scheduleLaneHeadAt iter now s key = some s') (hw : Unwrapped s') :
    wrappingSucc lane.version = lane.version + 1 := by
  obtain ⟨new, hnew, hv⟩ := scheduleLaneHeadAt_version hl h
  have hne := hw key new hnew
  rw [hv, wrappingSucc] at hne
  refine Nat.mod_eq_of_lt (lt_of_le_of_ne hb fun heq => ?_)
  rw [heq, Nat.mod_self] at hne
  exact hne rfl

/-- What scheduling `key` at `now` does. -/
structure Rescheduled (now : Nat) (key : QueueKey) (s s' : LocalQueueState) : Prop where
  formed : Formed s'
  scheduled : ∀ t, t ≤ now → (∀ k, k ≠ key → Scheduled t s k) → ∀ k, Scheduled now s' k
  later : ∀ p, p ≤ now → (∀ h ∈ s.delayedLanes, p < h.deadline) →
    ∀ h ∈ s'.delayedLanes, p < h.deadline

/-- The second part of scheduling, for a generation without entries. -/
theorem registerHead_spec (now : Nat) (hf : Formed s) (hl : s.lanes.lookup key = some lane)
    (hd : lane.delayedVersion = none) (hr : (key, lane.version) ∉ s.readyLanes)
    (hn : (key, lane.version) ∉ s.delayedLanes.map DelayedQueueHead.ident) :
    Rescheduled now key s (registerHead now s key lane) := by
  -- a head that is due makes the lane ready
  have hready (hdue : ∀ d, lane.headDeadline = some d → d ≤ now) :
      Rescheduled now key s { s with readyLanes := s.readyLanes ++ [(key, lane.version)] } := by
    refine ⟨hf.pushReady hl hd hr, fun t ht hsched k => ?_, fun p _ hp => hp⟩
    by_cases hk : k = key
    · subst hk
      refine ⟨fun hl' _ => ?_, fun hl' _ hx => ?_⟩ <;> rw [hl] at hl' <;> cases hl'
      · exact List.mem_append_right _ (List.mem_singleton_self _)
      · exact hdue _ hx
    · exact ((hsched k hk).mono ht).congr rfl fun _ _ => List.mem_append_left _
  unfold registerHead
  split
  · rename_i hx
    exact hready fun d hd' => by rw [hx] at hd'; cases hd'
  rename_i deadline hx
  split
  · rename_i hdue
    exact hready fun d hd' => by rw [hx] at hd'; cases hd'; exact hdue
  · rename_i hlate
    obtain ⟨e, he, hne⟩ := Option.bind_eq_some_iff.1 hx
    refine ⟨hf.pushDelayed
      (h := ⟨deadline, wrappingSucc s.nextDelaySequence, key, lane.version⟩) hl rfl hr hn
      ⟨e, List.mem_of_mem_head? he, hne⟩ _ _, fun t ht hsched k => ?_, fun p hp hlater h hm => ?_⟩
    · by_cases hk : k = key
      · refine ⟨fun hl' hd' => ?_, fun hl' hd' => ?_⟩ <;>
          rw [Map.lookup_insert_eq, if_pos hk] at hl' <;> cases hl' <;> cases hd'
      · refine ((hsched k hk).mono ht).congr ?_ fun _ _ hm => hm
        rw [Map.lookup_insert_eq, if_neg hk]
    · obtain rfl | hm := mem_pushHead.1 hm
      · exact Nat.lt_of_le_of_lt hp (Nat.lt_of_not_le hlate)
      · exact hlater h hm

/-- `schedule_lane_head_at` on a lane whose generation counter does not wrap. -/
theorem scheduleLaneHeadAt_spec (ht : Tallied s) (hh : ∀ k, k ≠ key → HeadEntry s k)
    (hf : Formed s) (hl : s.lanes.lookup key = some lane)
    (h : scheduleLaneHeadAt iter now s key = some s') (hw : Unwrapped s') :
    Rescheduled now key s s' := by
  have hnext := scheduleLaneHeadAt_next hl (hf.lanes.bounded hl) h hw
  obtain ⟨hle, hb₁⟩ := ht.forget hh hl (wrappingSucc lane.version)
  obtain rfl := Option.some.inj ((scheduleLaneHeadAt_eq iter hle hl).symm.trans h)
  have hf₁ : Formed (s.forgotten key lane (wrappingSucc lane.version)) :=
    hf.renew hl rfl (by omega) (Nat.mod_lt _ (Nat.two_pow_pos 64)) (.refl _) (.refl _) (by simp)
  have hl₁ : (s.forgotten key lane (wrappingSucc lane.version)).lanes.lookup key =
      some { lane with version := wrappingSucc lane.version, delayedVersion := none } := by
    rw [forgotten, Map.lookup_insert_eq, if_pos rfl]
  obtain ⟨hr, hn⟩ := hf.fresh hl (show lane.version < wrappingSucc lane.version by omega)
  have h₁ := registerHead_spec now hf₁ hl₁ rfl hr hn
  have hb₂ := (registerHead_balanced now hb₁ hl₁ rfl).1
  refine ⟨h₁.formed.compact hb₂.tallied iter, fun t ht hsched k => ?_, fun p hp hlater h hm => ?_⟩
  · have hsched₁ (k : QueueKey) (hk : k ≠ key) :
        Scheduled t (s.forgotten key lane (wrappingSucc lane.version)) k := by
      refine (hsched k hk).congr ?_ fun _ _ hm => hm
      rw [forgotten, Map.lookup_insert_eq, if_neg hk]
    refine (h₁.scheduled t ht hsched₁ k).congr (by rw [compact_lanes]) fun _ _ hm => ?_
    rw [compact_ready]
    exact hm
  · obtain ⟨g, hg, hgd⟩ := hb₂.compact_deadline iter hm
    rw [← hgd]
    exact h₁.later p hp hlater g hg

/-! ## Adding an event -/

/-- `s'` is `s` with other events in the lane of `key`, and all lanes scheduled at `now`. -/
structure Changed (now : Nat) (key : QueueKey) (events : List LocalEvent)
    (s s' : LocalQueueState) : Prop extends Put key events s s' where
  formed : Formed s'
  timed : ∀ {p t}, t ≤ now → Timed p t s → Timed p now s'

theorem Changed.sound (h : Changed now key events s s') : Sound s' := ⟨h.balanced, h.formed⟩

/-- A lane with new events that is scheduled at once. The state `s₁` has the new lane. -/
theorem Put.changed {s₁ : LocalQueueState} (hp : Put key events s s')
    (hr : Rescheduled now key s₁ s')
    (hs : ∀ {t k}, t ≤ now → k ≠ key → Scheduled t s k → Scheduled t s₁ k)
    (hh : s₁.delayedLanes = s.delayedLanes) : Changed now key events s s' :=
  { hp with
    formed := hr.formed
    timed := fun {p t} ht htimed => ⟨htimed.le.trans ht, hr.scheduled t ht fun k hk =>
      hs ht hk (htimed.scheduled k), hr.later p (htimed.le.trans ht)
      (by rw [hh]; exact htimed.later)⟩ }

/-- An event `e` joins its lane at either end; the lane may be new. -/
theorem Sound.join (hs : Sound s)
    (he : events = s.events e.orderingKey ++ [e] ∨ events = e :: s.events e.orderingKey) :
    Formed (s.joined e events) := by
  have hne : events ≠ [] := by obtain rfl | rfl := he <;> simp
  have hsub : ∀ x ∈ s.events e.orderingKey, x ∈ events := by
    obtain rfl | rfl := he
    · exact fun x hx => List.mem_append_left _ hx
    · exact fun x hx => List.mem_cons_of_mem _ hx
  refine hs.formed.setLane rfl hne (hs.balanced.tallied.keyed_put he) ?_ (fun old ho => ?_)
    (.refl _) (.refl _) (fun h hm hk => ?_) fun v hd => ?_
  · cases hl : s.lanes.lookup e.orderingKey with
    | none => exact Nat.two_pow_pos 64
    | some lane =>
      have hb := hs.formed.lanes.bounded hl
      exact hb
  · simp only [ho, Option.getD_some, le_refl]
  · obtain ⟨lane, hl, -, x, hx, hd⟩ := hs.formed.heap.known hm
    exact ⟨x, hsub x (events_of_lookup (hk ▸ hl) ▸ hx), hd⟩
  · cases hl : s.lanes.lookup e.orderingKey with
    | none =>
      rw [hl] at hd
      cases hd
    | some lane =>
      rw [hl] at hd
      exact hs.formed.not_ready hl hd

/-- The lane of `e` is scheduled when `e` has joined it. -/
theorem Sound.joins (hs : Sound s)
    (he : events = s.events e.orderingKey ++ [e] ∨ events = e :: s.events e.orderingKey)
    (hp : Put e.orderingKey events s s')
    (h : scheduleLaneHeadAt iter now (s.joined e events) e.orderingKey = some s')
    (hw : Unwrapped s') : Changed now e.orderingKey events s s' := by
  obtain ⟨ht, hh, -⟩ := hs.balanced.join he
  refine hp.changed (scheduleLaneHeadAt_spec ht hh (hs.join he) joined_lookup h hw) ?_ rfl
  exact fun _ hk h => h.congr (joined_lookup_of_ne hk) fun _ _ hm => hm

theorem enqueueFrontAt_spec (iter : IterOrder) (now : Nat) (hs : Sound s) (e : LocalEvent) :
    ∃ s', enqueueFrontAt iter now s e = some s' ∧
      (Unwrapped s' → Changed now e.orderingKey (e :: s.events e.orderingKey) s s') := by
  obtain ⟨s', heq, hp⟩ := enqueueFrontAt_balanced iter now hs.balanced e
  refine ⟨s', heq, fun hw => ?_⟩
  rw [enqueueFrontAt_eq] at heq
  exact hs.joins (.inr rfl) hp heq hw

theorem enqueueBackAt_spec (iter : IterOrder) (now : Nat) (hs : Sound s) (e : LocalEvent) :
    ∃ s', enqueueBackAt iter now s e = some s' ∧
      (Unwrapped s' → Changed now e.orderingKey (s.events e.orderingKey ++ [e]) s s') := by
  obtain ⟨s', heq, hp⟩ := enqueueBackAt_balanced iter now hs.balanced e
  refine ⟨s', heq, fun hw => ?_⟩
  rw [enqueueBackAt_eq] at heq
  split at heq
  · exact hs.joins (.inl rfl) hp heq hw
  rename_i hne
  cases heq
  -- the lane keeps its head, so it stays scheduled as it is
  refine { hp with
    formed := hs.join (.inl rfl)
    timed := fun {p t} ht htimed => ⟨htimed.le.trans ht, fun k => ?_, htimed.later⟩ }
  have hk' := (htimed.scheduled k).mono ht
  by_cases hk : k = e.orderingKey
  · subst hk
    cases hl : s.lanes.lookup e.orderingKey with
    | none =>
      rw [events, hl] at hne
      exact absurd rfl hne
    | some lane =>
      rw [events_of_lookup hl] at hne ⊢
      refine ⟨fun hl' hd => ?_, fun hl' hd hx => ?_⟩ <;> rw [joined_lookup, hl] at hl' <;> cases hl'
      · have hready := hk'.ready hl hd
        exact hready
      · refine hk'.due hl hd (hx ▸ ?_)
        simp only [QueueLane.headDeadline]
        rw [List.head?_append_of_ne_nil _ (by simpa using hne)]
  · exact hk'.congr (joined_lookup_of_ne hk) fun _ _ hm => hm

end EventBus.Local.LocalQueueState
