import EventBus.Local.QueueRefine
import EventBus.Local.QueueSteps
import EventBus.Lib.Rotation

/-!
# Ready keys take turns

`pop_ready` takes ready lanes from the front and puts a lane that has more events at the back. So
while the head of a key waits in the rotation, no other key is received from twice
(`trace_round_robin`). What has to be shown is that entries of a key other than the one in its turn
are stale, and stay so: the generations of a lane only grow, and when a lane is removed no entry of
it is left.
-/

namespace EventBus.Local

open Lib

/-- The event is put back in front of its key. -/
def QueueOp.reinserts (k : QueueKey) : QueueOp → Bool
  | .enqueueFront e _ _ => e.orderingKey = k
  | _ => false

/-- The answer is an event of the key. -/
def QueueResponse.returns (k : QueueKey) : QueueResponse → Bool
  | .event (some e) => e.orderingKey = k
  | _ => false

namespace LocalQueueState

variable {ready : List (QueueKey × Nat)} {r : Option LocalEvent} {ops : List QueueOp}
  {s s' : LocalQueueState} {lane : QueueLane} {e : LocalEvent} {iter : IterOrder} {key : QueueKey}
  {now : Nat}

/-! ## What the functions do to the rotation -/

/-- The generation of the lane of `k`. -/
def generation (s : LocalQueueState) (k : QueueKey) : Option Nat :=
  (s.lanes.lookup k).map QueueLane.version

/-- The lane of `a` keeps its generation, and entries are only added at the back of the rotation. -/
structure Appends (a : QueueKey) (s s' : LocalQueueState) : Prop where
  ready : ∃ tail, s'.readyLanes = s.readyLanes ++ tail
  generation : s'.generation a = s.generation a

section
variable {s'' : LocalQueueState} {a : QueueKey}

theorem Appends.of_same (hr : s'.readyLanes = s.readyLanes)
    (hl : s'.lanes.lookup a = s.lanes.lookup a) : Appends a s s' :=
  ⟨⟨[], by rw [hr, List.append_nil]⟩, by rw [LocalQueueState.generation, hl]; rfl⟩

theorem Appends.trans (h : Appends a s s') (h' : Appends a s' s'') : Appends a s s'' := by
  obtain ⟨tail, ht⟩ := h.ready
  obtain ⟨tail', ht'⟩ := h'.ready
  exact ⟨⟨tail ++ tail', by rw [ht', ht, List.append_assoc]⟩, h'.generation.trans h.generation⟩

theorem Appends.after (h : Appends a s' s'') (hr : s'.readyLanes = s.readyLanes)
    (hl : s'.lanes.lookup a = s.lanes.lookup a) : Appends a s s'' := (Appends.of_same hr hl).trans h

theorem registerHead_appends (hne : a ≠ key) (now : Nat) (s : LocalQueueState) (lane : QueueLane) :
    Appends a s (registerHead now s key lane) := by
  unfold registerHead
  split
  · exact ⟨⟨_, rfl⟩, rfl⟩
  · split
    · exact ⟨⟨_, rfl⟩, rfl⟩
    · exact .of_same rfl ((Map.lookup_insert_eq _ _ _ _).trans (if_neg hne))

/-- Another lane is scheduled. -/
theorem scheduleLaneHeadAt_appends (hne : a ≠ key)
    (h : scheduleLaneHeadAt iter now s key = some s') : Appends a s s' := by
  cases hl : s.lanes.lookup key with
  | none =>
    simp only [scheduleLaneHeadAt, hl] at h
    cases h
    exact .of_same rfl rfl
  | some lane =>
    obtain ⟨live, stale, rfl⟩ := scheduleLaneHeadAt_some hl h
    have hcompact (s₂ : LocalQueueState) : Appends a s₂ (compactDelayedHeapIfNeeded iter s₂) :=
      .of_same (compact_ready iter s₂) (by rw [compact_lanes])
    exact ((registerHead_appends hne now _ _).trans (hcompact _)).after rfl
      ((Map.lookup_insert_eq _ _ _ _).trans (if_neg hne))

theorem discardStaleDelayedHeads_appends (h : discardStaleDelayedHeads s = some s') :
    Appends a s s' := by
  obtain ⟨heap, stale, rfl, -⟩ := discardLoop_some h
  exact .of_same rfl rfl

/-- Promoted lanes go to the back. -/
theorem promoteDueHeads_appends (h : promoteDueHeads now s = some s') : Appends a s s' := by
  refine promoteDueHeads_induct (fun t t₁ ht h₁ => ht.trans (discardStaleDelayedHeads_appends h₁))
    ?_ (.of_same rfl rfl) h
  rintro t t₁ head heap ht - - h₁
  refine ht.trans ?_
  obtain ⟨stale, -, rfl⟩ | ⟨lane, live, hlane, -, -, -, rfl⟩ := promoteHead_some h₁
  · exact .of_same rfl rfl
  · refine ⟨⟨_, rfl⟩, ?_⟩
    simp only [LocalQueueState.generation, Map.lookup_insert_eq]
    split
    · rename_i heq
      rw [heq, hlane]
      rfl
    · rfl

/-- What `pop_ready` does to the rotation: entries that are no good are dropped, and the first good
one gives an event. -/
inductive Turn (now : Nat) (s : LocalQueueState) (ready : List (QueueKey × Nat)) :
    Option LocalEvent → LocalQueueState → Prop where
  | idle {s' : LocalQueueState} (hno : ∀ entry ∈ ready, ¬ Poppable now s entry) :
    Turn now s ready none s'
  | takes {e : LocalEvent} {s' : LocalQueueState} {key : QueueKey} {lane : QueueLane}
      (skipped rest : List (QueueKey × Nat)) (hr : ready = skipped ++ (key, lane.version) :: rest)
      (hno : ∀ entry ∈ skipped, ¬ Poppable now s entry) (hl : s.lanes.lookup key = some lane)
      (he : lane.events.head? = some e)
      (hs : ∀ a, a ≠ key → Appends a { s with readyLanes := rest } s') :
    Turn now s ready (some e) s'

theorem popLoop_turn (h : popLoop iter now ready s = some (r, s')) : Turn now s ready r s' := by
  cases popLoop_some h with
  | nothing hno => exact .idle hno
  | takes skipped rest hr hno hl he _ hs =>
    refine .takes skipped rest hr hno hl (by rw [he]; rfl) fun a hne => ?_
    rcases hs with ⟨-, rfl⟩ | ⟨-, hs⟩
    · exact .of_same rfl ((Map.lookup_erase_eq _ _ _).trans (if_neg hne))
    · exact (scheduleLaneHeadAt_appends hne hs).after rfl
        ((Map.lookup_insert_eq _ _ _ _).trans (if_neg hne))

end

/-! ## One key waits, another one is served -/

/-- The head of `a` has a live entry in the rotation. -/
def HeadReady (a : QueueKey) (s : LocalQueueState) : Prop :=
  ∃ v, s.generation a = some v ∧ (a, v) ∈ s.readyLanes

instance (a : QueueKey) (s : LocalQueueState) : Decidable (HeadReady a s) :=
  decidable_of_iff (∃ v ∈ s.generation a, (a, v) ∈ s.readyLanes) Iff.rfl

/-- An entry of `b` stands in the rotation before the live one of `a`. -/
def Precedes (b a : QueueKey) (s : LocalQueueState) : Prop :=
  ∃ v w, s.generation a = some v ∧ Ahead s.readyLanes (b, w) (a, v)

section
variable {m : PlainQueue} {s₁ : LocalQueueState} {a b : QueueKey}

/-- The rotation has an entry at most once. -/
theorem ReadyOk.not_twice {lanes : Map QueueKey QueueLane} {l tail : List (QueueKey × Nat)}
    {x : QueueKey × Nat} (h : ReadyOk lanes (l ++ tail)) (hx : x ∈ l) : x ∉ tail := by
  intro ht
  have := (List.pairwise_append.1 h.increasing).2.2 x hx x ht rfl
  omega

theorem HeadReady.appends (h : HeadReady a s) (hap : Appends a s s') : HeadReady a s' := by
  obtain ⟨v, hv, hm⟩ := h
  obtain ⟨tail, ht⟩ := hap.ready
  exact ⟨v, hap.generation.trans hv, by rw [ht]; exact List.mem_append_left _ hm⟩

/-- What is added at the back does not get ahead. -/
theorem Precedes.of_appends (h : Precedes b a s') (hr : HeadReady a s) (hap : Appends a s s')
    (hf : Formed s') : Precedes b a s := by
  obtain ⟨v, hv, hm⟩ := hr
  obtain ⟨tail, ht⟩ := hap.ready
  obtain ⟨v', w, hv', hah⟩ := h
  obtain rfl : v = v' := Option.some.inj (hv.symm.trans (hap.generation.symm.trans hv'))
  rw [ht] at hah
  have hready := hf.ready
  rw [ht] at hready
  exact ⟨v, w, hv, hah.of_append (hready.not_twice hm)⟩

/-- The turn of a key other than `a`: its entry was ahead of the one of `a`, and no other entry of
it is. -/
theorem Turn.passes (ht : Turn now s s.readyLanes (some e) s') (hf : Formed s) (hf' : Formed s')
    (hr : HeadReady a s)
    (hdue : ∀ v, s.generation a = some v → (a, v) ∈ s.readyLanes → Poppable now s (a, v))
    (hne : e.orderingKey ≠ a) :
    Precedes e.orderingKey a s ∧ ¬ Precedes e.orderingKey a s' ∧
      ∀ b, Precedes b a s' → Precedes b a s := by
  obtain ⟨v, hv, hm⟩ := hr
  cases ht with
  | @takes _ _ key lane skipped rest hready hno hl he hs =>
    obtain rfl : e.orderingKey = key := hf.lanes.keyed hl (List.mem_of_mem_head? he)
    -- the entry of `a` is behind the one that is taken
    have hrest : (a, v) ∈ rest := by
      have hgood := hdue v hv hm
      rw [hready] at hm
      rcases List.mem_append.1 hm with hm | hm
      · exact absurd hgood (hno _ hm)
      · rcases List.mem_cons.1 hm with heq | hm
        · exact absurd (Prod.mk.inj heq).1.symm hne
        · exact hm
    have hfront : ((e.orderingKey, lane.version) :: rest).Sublist s.readyLanes := by
      rw [hready]
      exact List.sublist_append_right skipped _
    have hpre (b : QueueKey) (h : Precedes b a s') : Precedes b a { s with readyLanes := rest } :=
      h.of_appends ⟨v, hv, hrest⟩ (hs a (Ne.symm hne)) hf'
    refine ⟨⟨v, lane.version, hv, ?_⟩, fun h => ?_, fun b h => ?_⟩
    · rw [hready]
      exact ahead_append_cons hrest
    · -- it was the last entry of its lane
      obtain ⟨_, w, -, hah⟩ := hpre _ h
      exact hf.last_ready hfront hl w hah.mem_left
    · obtain ⟨v', w, hv', hah⟩ := hpre b h
      exact ⟨v', w, hv', hah.sublist ((List.sublist_cons_self _ rest).trans hfront)⟩

/-- A live entry is for a due head: a lane that waits in the heap has none. -/
theorem Sound.poppable {v : Nat} (hs : Sound s) (hsch : Scheduled now s a)
    (hv : s.generation a = some v) (hm : (a, v) ∈ s.readyLanes) : Poppable now s (a, v) := by
  obtain ⟨lane, hl, rfl⟩ := Option.map_eq_some_iff.1 hv
  have hd : lane.delayedVersion = none := by
    cases hd : lane.delayedVersion with
    | none => rfl
    | some v =>
      obtain ⟨rfl, -⟩ := hs.balanced.tallied.entry hl hd
      exact absurd hm (hs.formed.not_ready hl hd)
  exact hs.formed.poppable hsch le_rfl hl hd

/-! ## Runs -/

/-- The head of `a` is ready, and no event comes back in front of it. -/
def Waits (a : QueueKey) (s : LocalQueueState) (op : QueueOp) : Prop :=
  HeadReady a s ∧ op.reinserts a = false

instance (a : QueueKey) (s : LocalQueueState) (op : QueueOp) : Decidable (Waits a s op) :=
  inferInstanceAs (Decidable (_ ∧ _))

/-- An event behind the head of `a`, or of another key. -/
theorem enqueueBackAt_appends (hf : Formed s) (hr : HeadReady a s)
    (h : enqueueBackAt iter now s e = some s') : Appends a s s' := by
  rw [enqueueBackAt_eq] at h
  by_cases heq : a = e.orderingKey
  · subst heq
    obtain ⟨v, hv, -⟩ := hr
    obtain ⟨lane, hl, rfl⟩ := Option.map_eq_some_iff.1 hv
    have hne : lane.events.isEmpty = false := by simpa using hf.lanes.nonempty hl
    rw [events_of_lookup hl, if_neg (by simp [hne])] at h
    cases h
    refine ⟨⟨[], (List.append_nil _).symm⟩, ?_⟩
    rw [generation, generation, joined_lookup, hl]
    rfl
  · split at h
    · exact (scheduleLaneHeadAt_appends heq h).after rfl (joined_lookup_of_ne heq)
    · cases h
      exact .of_same rfl (joined_lookup_of_ne heq)

/-- **The step lemma.** While the head of `a` waits, an event of another key is returned only if an
entry of that key is ahead, and then none is any more. -/
theorem step_passes {op : QueueOp} {m' : PlainQueue} (h : Refines (op :: ops) s m)
    (hw : Waits a s op) {r : QueueResponse} (hs : step s op = some (r, s')) (h' : Refines ops s' m')
    (ha : r.returns a = false) :
    (r.returns b = true → Precedes b a s) ∧
      (HeadReady a s' → Precedes b a s' → Precedes b a s ∧ r.returns b = false) := by
  obtain ⟨hr, hfront⟩ := hw
  have hf' := h'.sound.formed
  have happ (hno : r.returns b = false) (hap : Appends a s s') :
      (r.returns b = true → Precedes b a s) ∧
        (HeadReady a s' → Precedes b a s' → Precedes b a s ∧ r.returns b = false) := by
    refine ⟨fun hyes => ?_, fun _ hp => ⟨hp.of_appends hr hap hf', hno⟩⟩
    rw [hno] at hyes
    cases hyes
  cases op with
  | enqueueBack e now iter =>
    obtain ⟨s₁, h₁, heq⟩ := Option.map_eq_some_iff.1 hs
    cases heq
    exact happ rfl (enqueueBackAt_appends h.sound.formed hr h₁)
  | enqueueFront e now iter =>
    obtain ⟨s₁, h₁, heq⟩ := Option.map_eq_some_iff.1 hs
    cases heq
    have hne : a ≠ e.orderingKey := Ne.symm (by simpa [QueueOp.reinserts] using hfront)
    rw [enqueueFrontAt_eq] at h₁
    exact happ rfl ((scheduleLaneHeadAt_appends hne h₁).after rfl (joined_lookup_of_ne hne))
  | popReady now iter =>
    obtain ⟨⟨r, s₁⟩, h₁, heq⟩ := Option.map_eq_some_iff.1 hs
    cases heq
    obtain ⟨s₂, h₂, h₁⟩ := Option.bind_eq_some_iff.1 h₁
    obtain ⟨s₃, h₃, hp⟩ := promoteDueHeads_spec now h.sound
    obtain rfl : s₃ = s₂ := Option.some.inj (h₃.symm.trans h₂)
    have hap : Appends a s s₃ := promoteDueHeads_appends h₂
    have hr₃ := hr.appends hap
    have ht := hp.timed h.timed (h.tick rfl).1
    have hdue (v : Nat) (hv : s₃.generation a = some v) (hm : (a, v) ∈ s₃.readyLanes) :
        Poppable now s₃ (a, v) := hp.sound.poppable (ht.scheduled a) hv hm
    cases r with
    | none =>
      cases popLoop_turn h₁ with
      | idle hno =>
        obtain ⟨v, hv, hm⟩ := hr₃
        exact absurd (hdue v hv hm) (hno _ hm)
    | some e =>
      have hne : e.orderingKey ≠ a := by simpa [QueueResponse.returns] using ha
      obtain ⟨hbefore, hafter, hkeep⟩ := (popLoop_turn h₁).passes hp.sound.formed hf' hr₃ hdue hne
      have hback {b : QueueKey} (h : Precedes b a s₃) : Precedes b a s :=
        h.of_appends hr hap hp.sound.formed
      refine ⟨fun hyes => ?_, fun _ hpre => ⟨hback (hkeep b hpre), ?_⟩⟩
      · obtain rfl : e.orderingKey = b := by simpa [QueueResponse.returns] using hyes
        exact hback hbefore
      · have : e.orderingKey ≠ b := by
          rintro rfl
          exact hafter hpre
        simpa [QueueResponse.returns] using this
  | promoteDueHeads now =>
    obtain ⟨s₁, h₁, heq⟩ := Option.map_eq_some_iff.1 hs
    cases heq
    exact happ rfl (promoteDueHeads_appends h₁)
  | nextReadyDelay now =>
    obtain ⟨⟨d, s₁⟩, h₁, heq⟩ := Option.map_eq_some_iff.1 hs
    cases heq
    obtain ⟨s₂, h₂, heq⟩ := Option.map_eq_some_iff.1 h₁
    cases heq
    exact happ rfl (discardStaleDelayedHeads_appends h₂)
  | clearPending =>
    cases hs
    refine ⟨nofun, fun hr' => ?_⟩
    obtain ⟨lane, -, hm⟩ := hr'
    cases hm

/-- Over a stretch: at most one event, and none if no entry was ahead. -/
theorem stretch_passes {rs : List QueueResponse} (h : Refines ops s m)
    (hw : Meets step (Waits a) s ops) (ht : trace step s ops = some (rs, s'))
    (ha : ∀ r ∈ rs, r.returns a = false) (b : QueueKey) :
    rs.countP (·.returns b) ≤ 1 ∧ (0 < rs.countP (·.returns b) → Precedes b a s) := by
  induction ops generalizing s m rs with
  | nil =>
    cases ht
    exact ⟨Nat.zero_le _, nofun⟩
  | cons op ops ih =>
    obtain ⟨r, s₁, m₁, hs, -, h₁⟩ := h.step
    rw [trace_cons hs] at ht
    obtain ⟨⟨rs₁, s₂⟩, ht₁, heq⟩ := Option.map_eq_some_iff.1 ht
    cases heq
    obtain ⟨hr, hrs⟩ := List.forall_mem_cons.1 ha
    obtain ⟨hbefore, hafter⟩ := step_passes (b := b) h hw.1 hs h₁ hr
    have hrest := ih h₁ (hw.2 r s₁ hs) ht₁ hrs
    rw [List.countP_cons]
    by_cases hpos : 0 < rs₁.countP (·.returns b)
    · -- a later event of `b`: then this answer was none, and its entry was ahead all along
      have hr₁ : HeadReady a s₁ := by
        cases ops with
        | nil =>
          cases ht₁
          cases hpos
        | cons op' ops => exact (hw.2 r s₁ hs).1.1
      obtain ⟨hpre, hno⟩ := hafter hr₁ (hrest.2 hpos)
      rw [hno]
      exact ⟨hrest.1, fun _ => hpre⟩
    · have hzero : rs₁.countP (·.returns b) = 0 := by omega
      rw [hzero]
      cases hyes : r.returns b with
      | true => exact ⟨Nat.le_refl 1, fun _ => hbefore hyes⟩
      | false => exact ⟨Nat.zero_le 1, nofun⟩

theorem Refines.append {before : List QueueOp} {rs : List QueueResponse}
    (h : Refines (before ++ ops) s m) (ht : trace LocalQueueState.step s before = some (rs, s')) :
    ∃ m', Refines ops s' m' := by
  induction before generalizing s m rs with
  | nil =>
    cases ht
    exact ⟨m, h⟩
  | cons op before ih =>
    obtain ⟨r, s₁, m₁, hs, -, h₁⟩ := h.step
    rw [trace_cons hs] at ht
    obtain ⟨⟨rs₁, s₂⟩, ht₁, heq⟩ := Option.map_eq_some_iff.1 ht
    cases heq
    exact ih h₁ ht₁

end

/-! ## Generations -/

/-- Every lane has been scheduled, and at most `n` times. -/
def Young (n : Nat) (s : LocalQueueState) : Prop := ∀ k v, s.generation k = some v → 0 < v ∧ v ≤ n

section
variable {n : Nat}

theorem Young.unwrapped (h : Young n s) : Unwrapped s := by
  intro k lane hl
  have := h k lane.version (by rw [generation, hl]; rfl)
  omega

theorem Young.of_generation (h : Young n s) (hg : ∀ k, s'.generation k = s.generation k) :
    Young (n + 1) s' := by
  intro k v hv
  have := h k v (hg k ▸ hv)
  omega

/-- A lane is created, or put back, and scheduled. -/
theorem Young.schedule {s₁ : LocalQueueState} (h : Young n s) (hn : n + 1 < 2 ^ 64)
    (hs : scheduleLaneHeadAt iter now s₁ key = some s') (hl : s₁.lanes = s.lanes.insert key lane)
    (hv : lane.version ≤ n) : Young (n + 1) s' := by
  intro k v hk
  by_cases heq : k = key
  · subst heq
    have hlane : s₁.lanes.lookup k = some lane := by rw [hl, Map.lookup_insert_eq, if_pos rfl]
    obtain ⟨new, hnew, hv'⟩ := scheduleLaneHeadAt_version hlane hs
    rw [generation, hnew, Option.map_some, hv'] at hk
    obtain rfl := Option.some.inj hk
    have : wrappingSucc lane.version = lane.version + 1 := Nat.mod_eq_of_lt (by omega)
    omega
  · rw [(scheduleLaneHeadAt_appends heq hs).generation, generation, hl, Map.lookup_insert_eq,
      if_neg heq] at hk
    have := h k v hk
    omega

theorem Young.lane_le (h : Young n s) (k : QueueKey) :
    ((s.lanes.lookup k).getD .default).version ≤ n := by
  cases hl : s.lanes.lookup k with
  | none => exact Nat.zero_le n
  | some lane => exact (h k lane.version (by rw [generation, hl]; rfl)).2

theorem Young.enqueueBackAt (h : Young n s) (hn : n + 1 < 2 ^ 64)
    (hs : enqueueBackAt iter now s e = some s') : Young (n + 1) s' := by
  rw [enqueueBackAt_eq] at hs
  split at hs
  · exact h.schedule hn hs rfl (h.lane_le e.orderingKey)
  · rename_i hne
    cases hs
    refine h.of_generation fun k => ?_
    by_cases hk : k = e.orderingKey
    · subst hk
      cases hl : s.lanes.lookup e.orderingKey with
      | none =>
        rw [events, hl] at hne
        exact absurd rfl hne
      | some lane =>
        rw [generation, generation, joined_lookup, hl]
        rfl
    · rw [generation, joined_lookup_of_ne hk]
      rfl

theorem Young.popLoop (h : Young n s) (hn : n + 1 < 2 ^ 64)
    (hs : popLoop iter now ready s = some (r, s')) : Young (n + 1) s' := by
  cases popLoop_some hs with
  | nothing => exact h.of_generation fun _ => rfl
  | @takes key lane _ _ _ _ _ _ _ _ hl _ _ hs =>
    rcases hs with ⟨-, rfl⟩ | ⟨-, hs⟩
    · intro k v hk
      simp only [generation, Map.lookup_erase_eq] at hk
      split at hk
      · cases hk
      · have := h k v hk
        omega
    · have hle := (h key lane.version (by rw [generation, hl]; rfl)).2
      exact h.schedule hn hs rfl hle

theorem Young.step {op : QueueOp} {r : QueueResponse} (h : Young n s) (hn : n + 1 < 2 ^ 64)
    (hs : LocalQueueState.step s op = some (r, s')) : Young (n + 1) s' := by
  cases op with
  | enqueueBack e now iter =>
    obtain ⟨s₁, h₁, heq⟩ := Option.map_eq_some_iff.1 hs
    cases heq
    exact h.enqueueBackAt hn h₁
  | enqueueFront e now iter =>
    obtain ⟨s₁, h₁, heq⟩ := Option.map_eq_some_iff.1 hs
    cases heq
    exact h.schedule hn h₁ rfl (h.lane_le e.orderingKey)
  | popReady now iter =>
    obtain ⟨⟨e, s₁⟩, h₁, heq⟩ := Option.map_eq_some_iff.1 hs
    cases heq
    obtain ⟨s₂, h₂, h₁⟩ := Option.bind_eq_some_iff.1 h₁
    have h₂ : Young n s₂ := fun k v hv => h k v ((promoteDueHeads_appends h₂).generation ▸ hv)
    exact h₂.popLoop hn h₁
  | promoteDueHeads now =>
    obtain ⟨s₁, h₁, heq⟩ := Option.map_eq_some_iff.1 hs
    cases heq
    exact h.of_generation fun k => (promoteDueHeads_appends h₁).generation
  | nextReadyDelay now =>
    obtain ⟨⟨d, s₁⟩, h₁, heq⟩ := Option.map_eq_some_iff.1 hs
    cases heq
    obtain ⟨s₂, h₂, heq⟩ := Option.map_eq_some_iff.1 h₁
    cases heq
    exact h.of_generation fun k => (discardStaleDelayedHeads_appends h₂).generation
  | clearPending =>
    cases hs
    intro k v hv
    cases hv

end

/-- No generation wraps in a run of fewer than `2 ^ 64` calls. -/
theorem reaches_unwrapped (h : ops.length < 2 ^ 64) : Reaches step Unwrapped default ops := by
  have hrun : ∀ (ops : List QueueOp) (n : Nat) (s : LocalQueueState), Young n s →
      n + ops.length < 2 ^ 64 →
      Reaches step Unwrapped s ops := by
    intro ops
    induction ops with
    | nil => exact fun _ _ _ _ => trivial
    | cons op ops ih =>
      intro n s hy hn r s' hs
      rw [List.length_cons] at hn
      have hy' := hy.step (by omega) hs
      exact ⟨hy'.unwrapped, ih (n + 1) s' hy' (by omega)⟩
  refine hrun ops 0 default (fun k v hv => ?_) (by omega)
  cases hv

/-- **Round robin.** In a stretch of a run in which the head of key `a` has a live entry in the
rotation and no event is put back in front of it, no other key is received from twice before `a`
is. -/
theorem trace_round_robin (before stretch : List QueueOp)
    (hclock : ((before ++ stretch).filterMap QueueOp.now).Pairwise (· ≤ ·))
    (hwrap : Reaches step Unwrapped default (before ++ stretch)) {rs₀ rs : List QueueResponse}
    {s s' : LocalQueueState} (h₀ : trace step default before = some (rs₀, s))
    (h : trace step s stretch = some (rs, s')) (a : QueueKey) (hw : Meets step (Waits a) s stretch)
    (ha : ∀ r ∈ rs, r.returns a = false) (b : QueueKey) : rs.countP (·.returns b) ≤ 1 := by
  have hstart : Refines (before ++ stretch) default .empty :=
    ⟨default_empty.sound, fun _ => rfl, rfl, default_empty.timed le_rfl,
      List.pairwise_cons.2 ⟨fun _ _ => Nat.zero_le _, hclock⟩, hwrap⟩
  obtain ⟨m, hm⟩ := hstart.append h₀
  exact (stretch_passes hm hw h ha b).1

/-- While `a1` waits behind `b1`, the first event of `b` is received and retried, and `b` gets
another one: still `a1` is next. -/
theorem trace_round_robin_retried :
    let before : List QueueOp := [.enqueueBack (keyedEvent "b1" "b" none) 0 someOrder,
      .enqueueBack (keyedEvent "b2" "b" none) 0 someOrder,
      .enqueueBack (keyedEvent "a1" "a" none) 0 someOrder]
    let stretch : List QueueOp := [.popReady 1 someOrder,
      .enqueueFront (keyedEvent "b1" "b" none) 1 someOrder,
      .enqueueBack (keyedEvent "b3" "b" none) 2 someOrder]
    let run := (trace step default before).bind fun t => trace step t.2 stretch
    run.any (fun t => t.1.countP (·.returns (some ⟨"b"⟩)) = 1) ∧
      ∀ rs s', run = some (rs, s') → ∀ b, rs.countP (·.returns b) ≤ 1 := by
  intro before stretch run
  have hmeets : (trace step default before).any fun t =>
      Meets step (Waits (some ⟨"a"⟩)) t.2 stretch := by decide +kernel
  have hreturns : run.any fun t => ∀ r ∈ t.1, r.returns (some ⟨"a"⟩) = false := by decide +kernel
  refine ⟨by decide +kernel, fun rs s' h b => ?_⟩
  obtain ⟨⟨rs₀, s⟩, h₀, h₁⟩ := Option.bind_eq_some_iff.1 h
  rw [h₀] at hmeets
  rw [h] at hreturns
  exact trace_round_robin before stretch (by decide) (reaches_unwrapped (by decide)) h₀ h₁
    (some ⟨"a"⟩) (of_decide_eq_true hmeets) (of_decide_eq_true hreturns) b

end LocalQueueState

end EventBus.Local
