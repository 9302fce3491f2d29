import Mathlib.Data.List.Basic

/-!
# Runs of a machine

A machine is a step function `step : S → O → S` on states and operations. `exec` runs a list of
operations, and `exec_induct` is the invariant rule: what every step keeps, every run keeps.

Properties of a *stretch* of a run are stated with `Along` (a condition on every state and
operation of the stretch) and `sumAlong` (the sum of a weight over its steps). `sumAlong_le_one`
is the rule for bounded bypass: a weight that is only spent from the states `A`, at most one unit
at a time, and only on a step that leaves `A`, is spent at most once if no step of the stretch
enters `A` again.
-/

namespace EventBus.Lib

variable {S O : Type} (step : S → O → S) {P I : S → Prop} {ops : List O} {s : S}

/-- The state after a run. -/
def exec : S → List O → S
  | s, [] => s
  | s, op :: ops => exec (step s op) ops

@[simp] theorem exec_nil (s : S) : exec step s [] = s := rfl

@[simp] theorem exec_cons (s : S) (op : O) (ops : List O) :
    exec step s (op :: ops) = exec step (step s op) ops := rfl

theorem exec_append (s : S) (ops ops' : List O) :
    exec step s (ops ++ ops') = exec step (exec step s ops) ops' := by
  induction ops generalizing s with
  | nil => rfl
  | cons op ops ih => exact ih _

variable {step}

/-- What every step keeps, every run keeps. -/
theorem exec_induct (hs : ∀ s op, P s → P (step s op)) (h : P s) (ops : List O) :
    P (Lib.exec step s ops) := by
  induction ops generalizing s with
  | nil => exact h
  | cons op ops ih => exact ih (hs s op h)

/-! ## Stretches -/

variable (step)

/-- `C` holds of every state of the stretch together with the operation that leaves it. -/
def Along (C : S → O → Prop) : S → List O → Prop
  | _, [] => True
  | s, op :: ops => C s op ∧ Along C (step s op) ops

instance Along.decidable (C : S → O → Prop) [∀ s op, Decidable (C s op)] :
    ∀ s ops, Decidable (Along step C s ops)
  | _, [] => .isTrue trivial
  | s, op :: ops =>
    have := Along.decidable C (step s op) ops
    inferInstanceAs (Decidable (_ ∧ _))

/-- The sum of `w` over the steps of the stretch. -/
def sumAlong (w : S → O → Nat) : S → List O → Nat
  | _, [] => 0
  | s, op :: ops => w s op + sumAlong w (step s op) ops

variable {step}

/-- A stretch that starts outside `A` spends nothing. -/
theorem sumAlong_eq_zero {A : S → Prop} {C : S → O → Prop} {w : S → O → Nat}
    (hI : ∀ s op, I s → I (step s op)) (hstay : ∀ s op, I s → C s op → ¬ A s → ¬ A (step s op))
    (hw : ∀ s op, I s → C s op → 0 < w s op → A s) (hs : I s) (hc : Along step C s ops)
    (ha : ¬ A s) : sumAlong step w s ops = 0 := by
  induction ops generalizing s with
  | nil => rfl
  | cons op ops ih =>
    obtain ⟨hc0, hc⟩ := hc
    have h0 : w s op = 0 := Nat.eq_zero_of_not_pos fun h => ha (hw s op hs hc0 h)
    simp only [sumAlong, h0, ih (hI s op hs) hc (hstay s op hs hc0 ha)]

/-- **Bounded bypass.** A weight spent only when leaving `A`, one unit at a time, is spent
at most once along a stretch that never enters `A` again. -/
theorem sumAlong_le_one {A : S → Prop} {C : S → O → Prop} {w : S → O → Nat}
    (hI : ∀ s op, I s → I (step s op)) (hstay : ∀ s op, I s → C s op → ¬ A s → ¬ A (step s op))
    (hw : ∀ s op, I s → C s op → 0 < w s op → A s ∧ ¬ A (step s op) ∧ w s op ≤ 1) (hs : I s)
    (hc : Along step C s ops) : sumAlong step w s ops ≤ 1 := by
  induction ops generalizing s with
  | nil => exact Nat.zero_le _
  | cons op ops ih =>
    obtain ⟨hc0, hc⟩ := hc
    simp only [sumAlong]
    by_cases h : 0 < w s op
    · obtain ⟨-, hn, h1⟩ := hw s op hs hc0 h
      rw [sumAlong_eq_zero hI hstay (fun s op hs hc h => (hw s op hs hc h).1) (hI s op hs) hc hn]
      omega
    · have := ih (hI s op hs) hc
      omega

/-! ## What a run takes away -/

/-- A fact that only the operation `op₀` can end holds after every run without `op₀`. -/
theorem exec_of_not_mem {op₀ : O} (hI : ∀ s op, I s → I (step s op))
    (hs : ∀ s op, I s → op ≠ op₀ → P s → P (step s op)) (hi : I s) (hn : op₀ ∉ ops) (h : P s) :
    P (Lib.exec step s ops) := by
  induction ops generalizing s with
  | nil => exact h
  | cons op ops ih =>
    rw [List.mem_cons, not_or] at hn
    exact ih (hI s op hi) hn.2 (hs s op hi (Ne.symm hn.1) h)

end EventBus.Lib
