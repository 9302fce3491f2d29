import EventBus.Lib.Threads

/-!
# Sequential scripts

A call that is made alone, with nobody else between its steps, `Returns`. A script is a list of
requests, each with what its steps get from outside; it is played one call after the other
(`Plays`), and a request that cannot be made in a state is left out. `simulate_plays` compares two
machines: a relation between their states that every call keeps makes all scripts of the two come to
related answers.
-/

namespace EventBus.Lib.Machine

variable {S Q C R X E S' Q' C' R' X' E' : Type}

/-- The call returns. `x` has the inputs of its steps, in order. -/
inductive Returns (m : Machine S Q C R X E) : S → C → (Nat → X) → S → R → Prop where
  | done {s s' : S} {c : C} {x : Nat → X} {r : R} {es : List E} :
    m.step s 0 c (x 0) = some (s', .returned r, es) → Returns m s c x s' r
  | next {s s' s'' : S} {c c' : C} {x : Nat → X} {r : R} {es : List E} :
    m.step s 0 c (x 0) = some (s', .running c', es) → Returns m s' c' (fun k => x (k + 1)) s'' r →
    Returns m s c x s'' r

theorem Returns.unique {m : Machine S Q C R X E} {s s₁ s₂ : S} {c : C} {x : Nat → X} {r₁ r₂ : R}
    (h₁ : Returns m s c x s₁ r₁) (h₂ : Returns m s c x s₂ r₂) : s₁ = s₂ ∧ r₁ = r₂ := by
  induction h₁ with
  | done h =>
    cases h₂ with
    | done h' =>
      rw [h] at h'
      cases h'
      exact ⟨rfl, rfl⟩
    | next h' =>
      rw [h] at h'
      cases h'
  | next h _ ih =>
    cases h₂ with
    | done h' =>
      rw [h] at h'
      cases h'
    | next h' hrest =>
      rw [h] at h'
      cases h'
      exact ih hrest

/-- A script with the answers to its requests. -/
inductive Plays (m : Machine S Q C R X E) (possible : S → Q → Prop) :
    S → List (Q × (Nat → X)) → List R → S → Prop where
  | nil (s : S) : Plays m possible s [] [] s
  | skip {s s' : S} {q : Q} {x : Nat → X} {turns : List (Q × (Nat → X))} {rs : List R} :
    ¬ possible s q → Plays m possible s turns rs s' → Plays m possible s ((q, x) :: turns) rs s'
  | call {s s₁ s' : S} {q : Q} {x : Nat → X} {turns : List (Q × (Nat → X))} {r : R} {rs : List R} :
    possible s q → Returns m s (m.enter q) x s₁ r → Plays m possible s₁ turns rs s' →
    Plays m possible s ((q, x) :: turns) (r :: rs) s'

theorem Plays.unique {m : Machine S Q C R X E} {possible : S → Q → Prop} {s s₁ s₂ : S}
    {turns : List (Q × (Nat → X))} {rs₁ rs₂ : List R} (h₁ : Plays m possible s turns rs₁ s₁)
    (h₂ : Plays m possible s turns rs₂ s₂) : rs₁ = rs₂ := by
  induction h₁ generalizing rs₂ s₂ with
  | nil =>
    cases h₂
    rfl
  | skip hno _ ih =>
    cases h₂ with
    | skip _ hrest => exact ih hrest
    | call hp => exact absurd hp hno
  | call hp hr _ ih =>
    cases h₂ with
    | skip hno => exact absurd hp hno
    | call _ hr' hrest =>
      obtain ⟨rfl, rfl⟩ := hr.unique hr'
      rw [ih hrest]

/-- **Two machines answer alike.** `W` relates their states and `K` their answers; `f` and `g` are
the requests of an operation. -/
theorem simulate_plays {A : Type} (m : Machine S Q C R X E) (m' : Machine S' Q' C' R' X' E')
    (possible : S → Q → Prop) (possible' : S' → Q' → Prop) (f : A → Q) (g : A → Q')
    {W : S → S' → Prop} {K : R → R' → Prop}
    (hpossible : ∀ s s' a, W s s' → (possible s (f a) ↔ possible' s' (g a)))
    (hcall : ∀ s s' a x x', W s s' → possible s (f a) →
      ∃ s₁ r s₁' r', Returns m s (m.enter (f a)) x s₁ r ∧ Returns m' s' (m'.enter (g a)) x' s₁' r' ∧
        K r r' ∧ W s₁ s₁')
    {s : S} {s' : S'} (h : W s s') (script : List (A × (Nat → X) × (Nat → X'))) :
    ∃ rs s₁ rs' s₁', Plays m possible s (script.map fun t => (f t.1, t.2.1)) rs s₁ ∧
      Plays m' possible' s' (script.map fun t => (g t.1, t.2.2)) rs' s₁' ∧
      List.Forall₂ K rs rs' := by
  induction script generalizing s s' with
  | nil => exact ⟨[], s, [], s', .nil s, .nil s', .nil⟩
  | cons t script ih =>
    obtain ⟨a, x, x'⟩ := t
    have hiff := hpossible s s' a h
    by_cases hp : possible s (f a)
    · obtain ⟨s₁, r, s₁', r', hr, hr', hk, hw⟩ := hcall s s' a x x' h hp
      obtain ⟨rs, s₂, rs', s₂', hplays, hplays', hks⟩ := ih hw
      exact ⟨r :: rs, s₂, r' :: rs', s₂', .call hp hr hplays, .call (hiff.1 hp) hr' hplays',
        .cons hk hks⟩
    · obtain ⟨rs, s₂, rs', s₂', hplays, hplays', hks⟩ := ih h
      exact ⟨rs, s₂, rs', s₂', .skip hp hplays, .skip (fun hp' => hp (hiff.2 hp')) hplays', hks⟩

end EventBus.Lib.Machine
