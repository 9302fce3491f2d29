import Mathlib.Data.List.Basic

/-!
# Fallible machines and what their traces refine

A fallible machine answers an operation with a response and a new state, or stops: `none` stands
for a panic. `trace` runs a list of operations and collects the responses. `Follows` is the
same for an abstract machine given as a relation, which may allow several responses.
`simulate` is the refinement rule: a relation between the two machines' states that every step
keeps, without stopping, makes every trace of the machine one that the abstract machine allows.

`trace_invariant` is the rule for invariants, and `meets_invariant` the one for runs whose steps
meet a condition on the state before them. Where a property is about the past of a run, the run
keeps a `journal`, and `journal_invariant` is the rule for what holds between it and the state.
-/

namespace EventBus.Lib

variable {S M O R : Type} {os : List O} {s : S}

section
variable {C : S → O → Prop} {I : S → Prop} {os' : List O} {rs : List R} {E : Type}
  (step : S → O → Option (R × S))

/-- The responses and the last state of a run; `none` if some step stopped. -/
def trace : S → List O → Option (List R × S)
  | s, [] => some ([], s)
  | s, o :: os =>
    match step s o with
    | none => none
    | some (r, s') => (trace s' os).map fun t => (r :: t.1, t.2)

/-- `C` holds of every state that a step of the run reaches. -/
def Reaches (C : S → Prop) : S → List O → Prop
  | _, [] => True
  | s, o :: os => ∀ r s', step s o = some (r, s') → C s' ∧ Reaches C s' os

/-- `C` holds of every state of the run together with the operation that leaves it. -/
def Meets (C : S → O → Prop) : S → List O → Prop
  | _, [] => True
  | s, o :: os => C s o ∧ ∀ r s', step s o = some (r, s') → Meets C s' os

variable {step}

theorem trace_cons {s' : S} {o : O} {r : R} (h : step s o = some (r, s')) :
    trace step s (o :: os) = (trace step s' os).map fun t => (r :: t.1, t.2) := by
  rw [trace, h]

instance Reaches.decidable (C : S → Prop) [DecidablePred C] :
    ∀ s os, Decidable (Reaches step C s os)
  | _, [] => .isTrue trivial
  | s, o :: os =>
    match h : step s o with
    | none => .isTrue fun r s' hs => by rw [h] at hs; cases hs
    | some (r, s') =>
      have := Reaches.decidable C s' os
      decidable_of_iff (C s' ∧ Reaches step C s' os)
        ⟨fun hc r' t ht => by rw [h] at ht; cases ht; exact hc, fun hc => hc r s' h⟩

instance Meets.decidable (C : S → O → Prop) [∀ s o, Decidable (C s o)] :
    ∀ s os, Decidable (Meets step C s os)
  | _, [] => .isTrue trivial
  | s, o :: os =>
    match h : step s o with
    | none => decidable_of_iff (C s o)
        ⟨fun hc => ⟨hc, fun r s' hs => by rw [h] at hs; cases hs⟩, fun hc => hc.1⟩
    | some (r, s') =>
      have := Meets.decidable C s' os
      decidable_of_iff (C s o ∧ Meets step C s' os)
        ⟨fun hc => ⟨hc.1, fun r' t ht => by rw [h] at ht; cases ht; exact hc.2⟩,
          fun hc => ⟨hc.1, hc.2 r s' h⟩⟩

/-- A run that goes on. -/
theorem trace_append (s : S) (os os' : List O) :
    trace step s (os ++ os') = (trace step s os).bind fun t =>
      (trace step t.2 os').map fun t' => (t.1 ++ t'.1, t'.2) := by
  induction os generalizing s with
  | nil => simp [trace]
  | cons o os ih =>
    simp only [List.cons_append, trace]
    split
    · rfl
    · rename_i r s' _
      rw [ih]
      cases trace step s' os with
      | none => rfl
      | some t => simp [Function.comp_def]

theorem trace_then {s₁ s₂ : S} {rs' : List R} (h : trace step s os = some (rs, s₁))
    (h' : trace step s₁ os' = some (rs', s₂)) :
    trace step s (os ++ os') = some (rs ++ rs', s₂) := by
  rw [trace_append, h, Option.bind_some, h', Option.map_some]

theorem Meets.take (h : Meets step C s os) (n : Nat) : Meets step C s (os.take n) := by
  induction os generalizing s n with
  | nil => simpa using h
  | cons o os ih =>
    cases n with
    | zero => exact trivial
    | succ n => exact ⟨h.1, fun r s' hs => ih (h.2 r s' hs) n⟩

theorem Reaches.left {C : S → Prop} (h : Reaches step C s (os ++ os')) : Reaches step C s os := by
  induction os generalizing s with
  | nil => exact trivial
  | cons o os ih => exact fun r s' hs => ⟨(h r s' hs).1, ih (h r s' hs).2⟩

theorem Reaches.right {C : S → Prop} {t : S} (h : Reaches step C s (os ++ os'))
    (ht : trace step s os = some (rs, t)) : Reaches step C t os' := by
  induction os generalizing s rs with
  | nil =>
    cases ht
    exact h
  | cons o os ih =>
    simp only [trace] at ht
    split at ht
    · cases ht
    · rename_i r s' hs
      obtain ⟨⟨rs', t'⟩, ht', heq⟩ := Option.map_eq_some_iff.1 ht
      obtain ⟨-, rfl⟩ := Prod.mk.inj heq
      exact ih (h r s' hs).2 ht'

/-- What holds at the start and of every state reached holds after every part of the run. -/
theorem Reaches.trace_take {C : S → Prop} {v : S} (h : Reaches step C s os) (hs : C s) {n : Nat}
    (hv : trace step s (os.take n) = some (rs, v)) : C v := by
  induction os generalizing s n rs with
  | nil =>
    rw [List.take_nil] at hv
    cases hv
    exact hs
  | cons o os ih =>
    cases n with
    | zero => cases hv; exact hs
    | succ n =>
      simp only [List.take_succ_cons, trace] at hv
      split at hv
      · cases hv
      · rename_i r s' hstep
        obtain ⟨hs', hrest⟩ := h r s' hstep
        obtain ⟨⟨rs', v'⟩, ht, heq⟩ := Option.map_eq_some_iff.1 hv
        cases heq
        exact ih hrest hs' ht

/-- A condition on the operations alone is met by every run of them. -/
theorem meets_of_forall {C : O → Prop} (s : S) (hos : ∀ o ∈ os, C o) :
    Meets step (fun _ o => C o) s os := by
  induction os generalizing s with
  | nil => exact trivial
  | cons o os ih =>
    exact ⟨hos o List.mem_cons_self,
      fun _ s' _ => ih s' fun o ho => hos o (List.mem_cons_of_mem _ ho)⟩

/-- What every step keeps, without stopping, if it meets a condition, every run keeps. -/
theorem meets_invariant (hstep : ∀ s o, I s → C s o → ∃ r s', step s o = some (r, s') ∧ I s')
    (hs : I s) (hos : Meets step C s os) : ∃ rs s', trace step s os = some (rs, s') ∧ I s' := by
  induction os generalizing s with
  | nil => exact ⟨[], s, rfl, hs⟩
  | cons o os ih =>
    obtain ⟨hc, hos⟩ := hos
    obtain ⟨r, s', heq, hs'⟩ := hstep s o hs hc
    obtain ⟨rs, t, ht, hi⟩ := ih hs' (hos r s' heq)
    exact ⟨r :: rs, t, by rw [trace_cons heq, ht, Option.map_some], hi⟩

/-- What every step keeps, without stopping, every run keeps. -/
theorem trace_invariant {C : O → Prop}
    (hstep : ∀ s o, I s → C o → ∃ r s', step s o = some (r, s') ∧ I s') (hs : I s)
    (hos : ∀ o ∈ os, C o) : ∃ rs s', trace step s os = some (rs, s') ∧ I s' :=
  meets_invariant hstep hs (meets_of_forall s hos)

/-- Where `C` is what a step needs to keep `P`, a run keeps `P` if and only if it meets `C`. -/
theorem reaches_iff_meets {P : S → Prop} {D : O → Prop}
    (hstep : ∀ s o, I s → D o → ∃ r s', step s o = some (r, s') ∧ I s' ∧ (P s → (P s' ↔ C s o)))
    (hs : I s) (hp : P s) (hos : ∀ o ∈ os, D o) : Reaches step P s os ↔ Meets step C s os := by
  induction os generalizing s with
  | nil => exact Iff.rfl
  | cons o os ih =>
    obtain ⟨r, s', heq, hs', hiff⟩ := hstep s o hs (hos o List.mem_cons_self)
    have hos' : ∀ o ∈ os, D o := fun o ho => hos o (List.mem_cons_of_mem _ ho)
    constructor
    · intro h
      obtain ⟨hp', hrest⟩ := h r s' heq
      refine ⟨(hiff hp).1 hp', fun r₁ s₁ h₁ => ?_⟩
      rw [heq] at h₁
      cases h₁
      exact (ih hs' hp' hos').1 hrest
    · intro h r₁ s₁ h₁
      rw [heq] at h₁
      cases h₁
      have hp' := (hiff hp).2 h.1
      exact ⟨hp', (ih hs' hp' hos').2 (h.2 r s' heq)⟩

theorem reaches_invariant {P : S → Prop} {C : O → Prop}
    (hstep : ∀ s o, I s → C o → ∃ r s', step s o = some (r, s') ∧ I s') (hP : ∀ s, I s → P s)
    (hs : I s) (hos : ∀ o ∈ os, C o) : Reaches step P s os := by
  induction os generalizing s with
  | nil => exact trivial
  | cons o os ih =>
    intro r₁ s₁ h₁
    obtain ⟨r, s', heq, hs'⟩ := hstep s o hs (hos o List.mem_cons_self)
    rw [heq] at h₁
    cases h₁
    exact ⟨hP _ hs', ih hs' fun o ho => hos o (List.mem_cons_of_mem _ ho)⟩

variable (step)

/-- The journal of a run: what `view` notes at each step. -/
def journal {E : Type} (view : S → O → R → S → List E) : S → List O → List E
  | _, [] => []
  | s, o :: os =>
    match step s o with
    | none => []
    | some (r, s') => view s o r s' ++ journal view s' os

variable {step}

/-- Where an entry is in a journal that goes on. -/
theorem append_eq_append_cons {A : Type} {l l' a b : List A} {x : A} (h : l ++ l' = a ++ x :: b) :
    (∃ b', l = a ++ x :: b' ∧ b = b' ++ l') ∨ ∃ a', a = l ++ a' ∧ l' = a' ++ x :: b := by
  rcases List.append_eq_append_iff.1 h with ⟨a', ha, hl'⟩ | ⟨b', hl, hb⟩
  · exact .inr ⟨a', ha, hl'⟩
  · cases b' with
    | nil => exact .inr ⟨[], by simp [hl], by simp [hb]⟩
    | cons y b' =>
      cases hb
      exact .inl ⟨b', hl, rfl⟩

/-- An invariant of the journal so far and the state, where each step may need a condition. -/
theorem journal_meets (view : S → O → R → S → List E) {I : List E → S → Prop}
    (hstep : ∀ j s o, I j s → C s o → ∃ r s', step s o = some (r, s') ∧ I (j ++ view s o r s') s')
    {j : List E} (hs : I j s) (hos : Meets step C s os) :
    ∃ rs s', trace step s os = some (rs, s') ∧ I (j ++ journal step view s os) s' := by
  induction os generalizing j s with
  | nil => exact ⟨[], s, rfl, by rwa [journal, List.append_nil]⟩
  | cons o os ih =>
    obtain ⟨hc, hos⟩ := hos
    obtain ⟨r, s', heq, hs'⟩ := hstep j s o hs hc
    obtain ⟨rs, t, ht, hi⟩ := ih hs' (hos r s' heq)
    refine ⟨r :: rs, t, by rw [trace_cons heq, ht, Option.map_some], ?_⟩
    simp only [journal, heq]
    rwa [← List.append_assoc]

/-- Where the responses are notes: an invariant of the notes so far and the state, for the runs that
do not stop. -/
theorem trace_flatten {step : S → O → Option (List E × S)} {I : List E → S → Prop}
    (hstep : ∀ j s o es s', I j s → C s o → step s o = some (es, s') → I (j ++ es) s') {j : List E}
    {s' : S} (hs : I j s) (hos : Meets step C s os) {rs : List (List E)}
    (h : trace step s os = some (rs, s')) : I (j ++ rs.flatten) s' := by
  induction os generalizing j s rs with
  | nil =>
    cases h
    rwa [List.flatten_nil, List.append_nil]
  | cons o os ih =>
    simp only [trace] at h
    split at h
    · cases h
    · rename_i es s₁ hes
      obtain ⟨⟨rs', s₂⟩, ht, heq⟩ := Option.map_eq_some_iff.1 h
      cases heq
      rw [List.flatten_cons, ← List.append_assoc]
      exact ih (hstep j s o es s₁ hs hos.1 hes) (hos.2 es s₁ hes) ht

/-- An invariant of the journal so far and the state. -/
theorem journal_invariant (view : S → O → R → S → List E) {I : List E → S → Prop} {C : O → Prop}
    (hstep : ∀ j s o, I j s → C o → ∃ r s', step s o = some (r, s') ∧ I (j ++ view s o r s') s')
    {j : List E} (hs : I j s) (hos : ∀ o ∈ os, C o) :
    ∃ rs s', trace step s os = some (rs, s') ∧ I (j ++ journal step view s os) s' :=
  journal_meets view hstep hs (meets_of_forall s hos)

end

/-- The abstract machine `A` allows the responses `rs` to the operations `os`. -/
inductive Follows (A : M → O → R → M → Prop) : M → List O → List R → M → Prop where
  | nil (m : M) : Follows A m [] [] m
  | cons {m m' n : M} {o : O} {os : List O} {r : R} {rs : List R} :
    A m o r m' → Follows A m' os rs n → Follows A m (o :: os) (r :: rs) n

/-- **Refinement.** `I os s m` relates the states when the operations `os` are still to be
run, so that it can also carry what is assumed of them. -/
theorem simulate {step : S → O → Option (R × S)} {A : M → O → R → M → Prop}
    {I : List O → S → M → Prop} (hstep : ∀ o os s m, I (o :: os) s m →
      ∃ r s' m', step s o = some (r, s') ∧ A m o r m' ∧ I os s' m') {m : M} (h : I os s m) :
    ∃ rs s' m', trace step s os = some (rs, s') ∧ Follows A m os rs m' ∧ I [] s' m' := by
  induction os generalizing s m with
  | nil => exact ⟨[], s, m, rfl, .nil m, h⟩
  | cons o os ih =>
    obtain ⟨r, s', m', hs, ha, hi⟩ := hstep o os s m h
    obtain ⟨rs, t, n, ht, hf, hn⟩ := ih hi
    refine ⟨r :: rs, t, n, ?_, .cons ha hf, hn⟩
    rw [trace_cons hs, ht, Option.map_some]

end EventBus.Lib
