import Mathlib.Data.PNat.Basic

/-!
# Shared values

The values several components use: bus-local identities, machine integers with a checked
successor, and configuration errors. A `u64` or `usize` is a `Nat`; where the code depends on the
width, the bound `2 ^ 64` is written out (`checkedSucc`).
-/

namespace EventBus

/-- A bus-local identity (`qubit_id::Id`), compared only for equality and order. -/
structure Id where
  value : Nat
deriving DecidableEq, Repr

/-- `u64::checked_add(1)`: no successor past `u64::MAX`. -/
def checkedSucc (n : Nat) : Option Nat := if n + 1 < 2 ^ 64 then some (n + 1) else none

theorem checkedSucc_some {n m : Nat} (h : checkedSucc n = some m) : m = n + 1 ∧ m < 2 ^ 64 := by
  unfold checkedSucc at h
  split at h
  · cases h; exact ⟨rfl, ‹_›⟩
  · cases h

/-- A rejected setting: the field and what it must satisfy. -/
inductive ConfigurationError where
  | invalidField (field message : String)
deriving DecidableEq, Repr

/-- A reading of a monotonic clock: the clock's domain and the time since its origin. -/
structure MonotonicInstant where
  domain : Nat
  elapsed : Nat
deriving DecidableEq, Repr

inductive TimeError where
  | clockDomainMismatch
  | invalidInstantOrder
deriving DecidableEq, Repr

namespace MonotonicInstant

/-- A reading of the same clock that is not earlier. -/
def NotBefore (now start : MonotonicInstant) : Prop :=
  now.domain = start.domain ∧ start.elapsed ≤ now.elapsed

instance : DecidableRel NotBefore := fun _ _ => inferInstanceAs (Decidable (_ ∧ _))

theorem NotBefore.refl (i : MonotonicInstant) : NotBefore i i := ⟨rfl, Nat.le_refl _⟩

theorem NotBefore.trans {a b c : MonotonicInstant} (h : NotBefore a b) (h' : NotBefore b c) :
    NotBefore a c := ⟨h.1.trans h'.1, Nat.le_trans h'.2 h.2⟩

end MonotonicInstant

/-- `MonotonicInstant::duration_since` of `qubit_clock`. Of its answers only those for readings of
one clock that go forward are fixed. -/
structure MonotonicClock where
  durationSince (now start : MonotonicInstant) : Except TimeError Nat
  forward : ∀ {now start}, now.NotBefore start →
    durationSince now start = .ok (now.elapsed - start.elapsed)

/-- A clock that refuses all other readings. -/
def MonotonicClock.strict : MonotonicClock where
  durationSince now start :=
    if now.domain ≠ start.domain then .error .clockDomainMismatch
    else if now.elapsed < start.elapsed then .error .invalidInstantOrder
    else .ok (now.elapsed - start.elapsed)
  forward h := by rw [if_neg (not_not.2 h.1), if_neg (Nat.not_lt.2 h.2)]

end EventBus
