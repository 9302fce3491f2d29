import EventBus.Spi

/-!
# The provider-wide budget

`OutstandingBudget` (`outstanding_budget.rs`) counts the deliveries and the payload bytes that the
queues of one provider hold. `tryReserve` takes a place before a delivery is queued and `release`
gives places back; an underflow there is an assertion failure (`none`).
-/

namespace EventBus.Local

/-- `usize::MAX` and `u64::MAX`. -/
def wordMax : Nat := 2 ^ 64 - 1

/-- `usize::checked_add`. -/
def checkedAdd (a b : Nat) : Option Nat := if a + b ≤ wordMax then some (a + b) else none

/-- `u64::saturating_add(1)`. -/
def saturatingSucc (n : Nat) : Nat := min (n + 1) wordMax

structure OutstandingState where
  countUsed : Nat
  weightUsed : Nat
  rejectedSubscriptionClosed : Nat
  rejectedSubscriptionCapacity : Nat
  rejectedProviderCountCapacity : Nat
  rejectedProviderWeightCapacity : Nat
deriving DecidableEq, Repr

/-- `OutstandingState::default`. -/
def OutstandingState.default : OutstandingState := ⟨0, 0, 0, 0, 0, 0⟩

structure OutstandingBudget where
  maxCount : Nat
  maxWeight : Option ℕ+
  state : OutstandingState
deriving DecidableEq

namespace OutstandingBudget

/-- `OutstandingBudget::new`; the configuration has been validated. -/
def new (maxCount : Nat) (maxWeight : Option ℕ+) : OutstandingBudget :=
  ⟨maxCount, maxWeight, .default⟩

def requiresWeight (b : OutstandingBudget) : Bool := b.maxWeight.isSome

/-- The weight that counts: none without a weight limit. -/
def counted (b : OutstandingBudget) (weight : Nat) : Nat := if b.requiresWeight then weight else 0

/-- `checked_add` and the filter on the limit. -/
def nextCount (b : OutstandingBudget) : Option Nat :=
  (checkedAdd b.state.countUsed 1).filter fun count => count ≤ b.maxCount

def nextWeight (b : OutstandingBudget) (weight : Nat) : Option Nat :=
  (checkedAdd b.state.weightUsed weight).filter fun weight =>
    b.maxWeight.all fun limit => weight ≤ limit.val

/-- One more rejection of this kind. -/
def reject (b : OutstandingBudget) : AdmissionRejectionKind → OutstandingBudget
  | .subscriptionClosed => { b with state :=
      { b.state with
        rejectedSubscriptionClosed := saturatingSucc b.state.rejectedSubscriptionClosed } }
  | .subscriptionCapacity => { b with state :=
      { b.state with
        rejectedSubscriptionCapacity := saturatingSucc b.state.rejectedSubscriptionCapacity } }
  | .providerCountCapacity => { b with state :=
      { b.state with
        rejectedProviderCountCapacity := saturatingSucc b.state.rejectedProviderCountCapacity } }
  | .providerWeightCapacity => { b with state :=
      { b.state with
        rejectedProviderWeightCapacity := saturatingSucc b.state.rejectedProviderWeightCapacity } }

/-- `try_reserve`. The count is checked before the weight. -/
def tryReserve (b : OutstandingBudget) (weight : Nat) :
    Except AdmissionRejectionKind Unit × OutstandingBudget :=
  match b.nextCount with
  | none => (.error .providerCountCapacity, b.reject .providerCountCapacity)
  | some countUsed =>
    match b.nextWeight (b.counted weight) with
    | none => (.error .providerWeightCapacity, b.reject .providerWeightCapacity)
    | some weightUsed => (.ok (), { b with state := { b.state with countUsed, weightUsed } })

/-- `record_rejection` records the two kinds that `tryReserve` does not. -/
def recordRejection (b : OutstandingBudget) : AdmissionRejectionKind → OutstandingBudget
  | .subscriptionClosed => b.reject .subscriptionClosed
  | .subscriptionCapacity => b.reject .subscriptionCapacity
  | _ => b

def release (b : OutstandingBudget) (count weight : Nat) : Option OutstandingBudget :=
  let weight := b.counted weight
  if b.state.countUsed < count then none
  else if b.state.weightUsed < weight then none
  else some { b with state :=
    { b.state with
      countUsed := b.state.countUsed - count
      weightUsed := b.state.weightUsed - weight } }

/-! ## What the calls do -/

@[simp] theorem reject_maxCount (b : OutstandingBudget) (kind : AdmissionRejectionKind) :
    (b.reject kind).maxCount = b.maxCount := by cases kind <;> rfl

@[simp] theorem reject_maxWeight (b : OutstandingBudget) (kind : AdmissionRejectionKind) :
    (b.reject kind).maxWeight = b.maxWeight := by cases kind <;> rfl

@[simp] theorem reject_countUsed (b : OutstandingBudget) (kind : AdmissionRejectionKind) :
    (b.reject kind).state.countUsed = b.state.countUsed := by cases kind <;> rfl

@[simp] theorem reject_weightUsed (b : OutstandingBudget) (kind : AdmissionRejectionKind) :
    (b.reject kind).state.weightUsed = b.state.weightUsed := by cases kind <;> rfl

theorem nextCount_some {b : OutstandingBudget} {n : Nat} (h : b.nextCount = some n) :
    n = b.state.countUsed + 1 ∧ n ≤ b.maxCount := by
  unfold nextCount checkedAdd at h
  split at h
  · simp only [Option.filter_some, decide_eq_true_eq, Option.ite_none_right_eq_some,
      Option.some.injEq] at h
    omega
  · simp at h

theorem nextWeight_some {b : OutstandingBudget} {w n : Nat} (h : b.nextWeight w = some n) :
    n = b.state.weightUsed + w ∧ n ≤ wordMax ∧
      ∀ limit, b.maxWeight = some limit → n ≤ limit.val := by
  unfold nextWeight checkedAdd at h
  split at h
  · rename_i hle
    simp only [Option.filter_some, Option.ite_none_right_eq_some, Option.some.injEq] at h
    obtain ⟨hall, rfl⟩ := h
    refine ⟨rfl, hle, fun limit hlimit => ?_⟩
    simpa [hlimit] using hall
  · simp at h

/-- Either one counter of rejections goes up, or a place is taken within the limits. -/
theorem tryReserve_cases (b : OutstandingBudget) (weight : Nat) :
    (∃ kind, b.tryReserve weight = (.error kind, b.reject kind) ∧
      kind ≠ .subscriptionClosed ∧ kind ≠ .subscriptionCapacity) ∨
    ∃ b', b.tryReserve weight = (.ok (), b') ∧ b'.maxCount = b.maxCount ∧
      b'.maxWeight = b.maxWeight ∧ b'.state.countUsed = b.state.countUsed + 1 ∧
      b'.state.weightUsed = b.state.weightUsed + b.counted weight ∧
      b'.state.countUsed ≤ b.maxCount ∧ b'.state.weightUsed ≤ wordMax ∧
      ∀ limit, b.maxWeight = some limit → b'.state.weightUsed ≤ limit.val := by
  unfold tryReserve
  split
  · exact .inl ⟨_, rfl, by simp, by simp⟩
  rename_i n hn
  obtain ⟨hn, hlimit⟩ := nextCount_some hn
  split
  · exact .inl ⟨_, rfl, by simp, by simp⟩
  rename_i w hw
  obtain ⟨hw, hmax, hall⟩ := nextWeight_some hw
  exact .inr ⟨_, rfl, rfl, rfl, hn, hw, hlimit, hmax, hall⟩

/-- What is in use can be released. -/
theorem release_some (b : OutstandingBudget) (count weight : Nat)
    (hc : count ≤ b.state.countUsed) (hw : b.counted weight ≤ b.state.weightUsed) :
    ∃ b', b.release count weight = some b' ∧ b'.maxCount = b.maxCount ∧
      b'.maxWeight = b.maxWeight ∧ b'.state.countUsed + count = b.state.countUsed ∧
      b'.state.weightUsed + b.counted weight = b.state.weightUsed := by
  unfold release
  rw [if_neg (by omega), if_neg (by omega)]
  refine ⟨_, rfl, rfl, rfl, ?_, ?_⟩
  · simp only
    omega
  · simp only
    omega

end OutstandingBudget

end EventBus.Local
