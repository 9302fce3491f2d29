import Mathlib.Order.Lattice
import Mathlib.Data.List.Basic

/-!
# Turns in a changing circle

The members of a linear order take turns: after `a` comes the next one above it, and after the
greatest the least (`IsNext`). Members may come and go between two turns. In a round, from one turn
of `x` to its next one, whoever is there all the time has exactly one turn
(`Turning.count_between`): `Owed` says who is still to come.
-/

namespace EventBus.Lib

section
variable {A : Type} [LinearOrder A]

/-- `b` follows `a` among the elements of `l`: the least one above `a`, or the least of all if
there is none. -/
def IsNext (l : List A) (a b : A) : Prop :=
  b ∈ l ∧ (a < b ∧ (∀ c ∈ l, a < c → b ≤ c) ∨ (∀ c ∈ l, c ≤ a) ∧ ∀ c ∈ l, b ≤ c)

/-- On the way up from `a`, over the top and up to `x`, `y` is still to come. -/
def Owed (x y a : A) : Prop := x < y ∧ x ≤ a ∧ a < y ∨ y < x ∧ (x ≤ a ∨ a < y)

theorem owed_self {x y : A} (h : x ≠ y) : Owed x y x := by
  obtain h | h := lt_or_gt_of_ne h
  · exact .inl ⟨h, le_rfl, h⟩
  · exact .inr ⟨h, .inl le_rfl⟩

section
variable {l : List A} {x y a b : A}

theorem IsNext.not_owed (h : IsNext l a x) (hy : y ∈ l) : ¬ Owed x y a := by
  have hle := h.2
  rintro (⟨hxy, hxa, hay⟩ | ⟨hyx, ha⟩)
  · obtain ⟨hlt, -⟩ | ⟨htop, -⟩ := hle
    · exact absurd hxa (not_le_of_gt hlt)
    · exact absurd (htop y hy) (not_le_of_gt hay)
  · obtain ⟨hlt, hmin⟩ | ⟨-, hmin⟩ := hle
    · obtain ha | ha := ha
      · exact absurd ha (not_le_of_gt hlt)
      · exact absurd (hmin y hy ha) (not_le_of_gt hyx)
    · exact absurd (hmin y hy) (not_le_of_gt hyx)

theorem IsNext.owed (h : IsNext l a y) (hx : x ∈ l) (hne : x ≠ y) : Owed x y a := by
  obtain hxy | hyx := lt_or_gt_of_ne hne
  · obtain ⟨hlt, hmin⟩ | ⟨-, hmin⟩ := h.2
    · exact .inl ⟨hxy, not_lt.1 fun hax => absurd (hmin x hx hax) (not_le_of_gt hxy), hlt⟩
    · exact absurd (hmin x hx) (not_le_of_gt hxy)
  · obtain ⟨hlt, -⟩ | ⟨htop, -⟩ := h.2
    · exact .inr ⟨hyx, .inr hlt⟩
    · exact .inr ⟨hyx, .inl (htop x hx)⟩

theorem IsNext.owed_iff (h : IsNext l a b) (hx : x ∈ l) (hy : y ∈ l) (hbx : b ≠ x) (hby : b ≠ y) :
    Owed x y b ↔ Owed x y a := by
  have hxs := h.2
  unfold Owed
  obtain ⟨hlt, hmin⟩ | ⟨htop, hmin⟩ := hxs
  · have h₁ := hmin x hx
    have h₂ := hmin y hy
    grind
  · have h₁ := hmin x hx
    have h₂ := hmin y hy
    have h₃ := htop x hx
    have h₄ := htop y hy
    grind

end

/-- A sequence of turns, each with the elements there were then: every turn is that of the one that
follows the last. -/
def Turning : A → List (List A × A) → Prop
  | _, [] => True
  | a, (l, b) :: turns => IsNext l a b ∧ Turning b turns

/-- **Everyone has one turn in a round.** -/
theorem Turning.count_between {x y a : A} (hne : x ≠ y) {turns : List (List A × A)} {l : List A}
    (h : Turning a (turns ++ [(l, x)])) (hx : ∀ t ∈ turns, x ∈ t.1 ∧ y ∈ t.1) (hl : y ∈ l)
    (hturns : ∀ t ∈ turns, t.2 ≠ x) :
    (Owed x y a → turns.countP (·.2 = y) = 1) ∧ (¬ Owed x y a → turns.countP (·.2 = y) = 0) := by
  induction turns generalizing a with
  | nil => exact ⟨fun ho => absurd ho (h.1.not_owed hl), fun _ => rfl⟩
  | cons t turns ih =>
    obtain ⟨l', b⟩ := t
    obtain ⟨hnext, hrest⟩ := h
    obtain ⟨hxl, hyl⟩ := hx _ List.mem_cons_self
    have hbx := hturns _ List.mem_cons_self
    obtain ⟨ih₁, ih₀⟩ := ih hrest (fun t ht => hx t (List.mem_cons_of_mem _ ht))
      fun t ht => hturns t (List.mem_cons_of_mem _ ht)
    rw [List.countP_cons]
    by_cases hby : b = y
    · subst hby
      -- it has its turn now, and is not owed another one
      have hno : ¬ Owed x b b := by
        rintro (⟨-, -, h⟩ | ⟨h, h' | h'⟩)
        · exact lt_irrefl _ h
        · exact absurd h (not_lt.2 h')
        · exact lt_irrefl _ h'
      rw [ih₀ hno]
      exact ⟨fun _ => by simp, fun h => absurd (hnext.owed hxl hne) h⟩
    · have hiff := hnext.owed_iff hxl hyl hbx hby
      simp only [hby, decide_false, Bool.false_eq_true, if_false, Nat.add_zero]
      exact ⟨fun h => ih₁ (hiff.2 h), fun h => ih₀ fun hb => h (hiff.1 hb)⟩

end

end EventBus.Lib
