import EventBus.Spi

/-!
# The settlement retry budget

`settlement_retry_config.rs`, `settlement_retry_state.rs`. Settling one delivery may take several
provider calls. A budget of attempts and of time since the first call bounds them, and a failed call
is repeated, after a delay, only if its error says that it may be. The state knows no clock: elapsed
times are given to it. Durations are nanoseconds.
-/

namespace EventBus.Delivery

/-- `Duration::MAX`: the seconds are a `u64`. -/
def durationMax : Nat := 2 ^ 64 * 10 ^ 9 - 1

/-- `std::time::Duration`. -/
abbrev Duration := { n : Nat // n ≤ durationMax }

abbrev NonZeroU32 := { n : Nat // 0 < n ∧ n < 2 ^ 32 }

/-- `Duration::saturating_add`. -/
def saturatingAdd (a b : Nat) : Nat := min (a + b) durationMax

/-- `Duration::saturating_mul`. -/
def saturatingMul (a k : Nat) : Nat := min (a * k) durationMax

/-! ## Configuration -/

/-- The relations that `new` checks are part of the value. -/
structure SettlementRetryConfig where
  /-- The first attempt counts. -/
  maxAttempts : NonZeroU32
  maxElapsed : Duration
  initialBackoff : Duration
  maxBackoff : Duration
  maxElapsed_pos : 0 < maxElapsed.val
  initialBackoff_pos : 0 < initialBackoff.val
  initialBackoff_le : initialBackoff.val ≤ maxBackoff.val

namespace SettlementRetryConfig

def new (maxAttempts : NonZeroU32) (maxElapsed initialBackoff maxBackoff : Duration) :
    Except ConfigurationError SettlementRetryConfig :=
  if he : maxElapsed.val = 0 then .error (.invalidField "max_elapsed" "must be positive")
  else if hi : initialBackoff.val = 0 then
    .error (.invalidField "initial_backoff" "must be positive")
  else if hb : maxBackoff.val < initialBackoff.val then
    .error (.invalidField "max_backoff" "must not be less than initial_backoff")
  else
    .ok ⟨maxAttempts, maxElapsed, initialBackoff, maxBackoff, Nat.pos_of_ne_zero he,
      Nat.pos_of_ne_zero hi, Nat.not_lt.1 hb⟩

/-- `SettlementRetryConfig::default`: five attempts in five seconds, delays of ten milliseconds to
one second. -/
def default : SettlementRetryConfig where
  maxAttempts := ⟨5, by decide⟩
  maxElapsed := ⟨5 * 10 ^ 9, by decide⟩
  initialBackoff := ⟨10 * 10 ^ 6, by decide⟩
  maxBackoff := ⟨10 ^ 9, by decide⟩
  maxElapsed_pos := by decide
  initialBackoff_pos := by decide
  initialBackoff_le := by decide

/-- Every policy is one that `new` accepts: the checks and the fields of the structure agree. -/
theorem new_fields (config : SettlementRetryConfig) :
    new config.maxAttempts config.maxElapsed config.initialBackoff config.maxBackoff =
      .ok config := by
  have he := config.maxElapsed_pos
  have hi := config.initialBackoff_pos
  have hb := config.initialBackoff_le
  rw [new, dif_neg (by omega), dif_neg (by omega), dif_neg (by omega)]

end SettlementRetryConfig

/-! ## The state -/

/-- Why settling a delivery ended without success. -/
inductive SettlementTermination where
  | permanentError
  | retryabilityUnknown
  | attemptsExhausted
  | deadlineExceeded
  | providerPanicked
  | invalidToken
  | infrastructureFailure
deriving DecidableEq, Repr

inductive SettlementRetryDecision where
  | retryAfter (delay : Nat)
  | stop (termination : SettlementTermination)
deriving DecidableEq, Repr

structure SettlementRetryState where
  config : SettlementRetryConfig
  /-- A `u32`. -/
  attempts : Nat

namespace SettlementRetryState

def new (config : SettlementRetryConfig) : SettlementRetryState := ⟨config, 0⟩

variable (s : SettlementRetryState)

/-- Asks for the next attempt; `none` is the overflow of the `u32`. -/
def admitAttempt (elapsed : Nat) :
    Option (Except SettlementTermination Nat × SettlementRetryState) :=
  if s.config.maxElapsed.val ≤ elapsed then some (.error .deadlineExceeded, s)
  else if s.config.maxAttempts.val ≤ s.attempts then some (.error .attemptsExhausted, s)
  else if s.attempts + 1 < 2 ^ 32 then
    some (.ok (s.attempts + 1), { s with attempts := s.attempts + 1 })
  else none

/-- What follows the failure of an admitted attempt. -/
def afterError (error : SpiError) (elapsed : Nat) : SettlementRetryDecision :=
  if error.isInvalidSettlementToken then .stop .invalidToken
  else if error.kind = "provider_panicked" then .stop .providerPanicked
  else
    match error.retryable with
    | some false => .stop .permanentError
    | none => .stop .retryabilityUnknown
    | some true =>
      if s.config.maxAttempts.val ≤ s.attempts then .stop .attemptsExhausted
      else if s.config.maxElapsed.val ≤ elapsed then .stop .deadlineExceeded
      else
        -- the shift `1u32 << exponent` keeps its bit
        let exponent := min (s.attempts - 1) 31
        let delay := min (saturatingMul s.config.initialBackoff.val (2 ^ exponent))
          s.config.maxBackoff.val
        .retryAfter (min delay (s.config.maxElapsed.val - elapsed))

end SettlementRetryState

/-! ## What the budget guarantees -/

/-- The error says that the call may be repeated, and is neither an invalid token nor a panic. -/
def MayRetry (error : SpiError) : Prop :=
  error.isInvalidSettlementToken = false ∧ error.kind ≠ "provider_panicked" ∧
    error.retryable = some true

instance : DecidablePred MayRetry := fun _ => inferInstanceAs (Decidable (_ ∧ _ ∧ _))

/-- A delay that was returned at `elapsed` is within both limits. -/
structure DelayOk (config : SettlementRetryConfig) (elapsed delay : Nat) : Prop where
  backoff : delay ≤ config.maxBackoff.val
  deadline : elapsed + delay ≤ config.maxElapsed.val

namespace SettlementRetryState

variable {s : SettlementRetryState} {elapsed : Nat}

theorem admitAttempt_ok (ht : elapsed < s.config.maxElapsed.val)
    (ha : s.attempts < s.config.maxAttempts.val) :
    s.admitAttempt elapsed =
      some (.ok (s.attempts + 1), { s with attempts := s.attempts + 1 }) := by
  have := s.config.maxAttempts.property.2
  rw [admitAttempt, if_neg (by omega), if_neg (by omega), if_pos (by omega)]

/-- An attempt is admitted within both limits and otherwise refused; the counter never overflows. -/
theorem admitAttempt_cases (s : SettlementRetryState) (elapsed : Nat) :
    (∃ t, s.admitAttempt elapsed = some (.error t, s)) ∨
      elapsed < s.config.maxElapsed.val ∧ s.attempts < s.config.maxAttempts.val ∧
        s.admitAttempt elapsed =
          some (.ok (s.attempts + 1), { s with attempts := s.attempts + 1 }) := by
  by_cases ht : s.config.maxElapsed.val ≤ elapsed
  · exact .inl ⟨.deadlineExceeded, by rw [admitAttempt, if_pos ht]⟩
  · by_cases ha : s.config.maxAttempts.val ≤ s.attempts
    · exact .inl ⟨.attemptsExhausted, by rw [admitAttempt, if_neg ht, if_pos ha]⟩
    · exact .inr ⟨by omega, by omega, admitAttempt_ok (by omega) (by omega)⟩

/-- A retry is granted only after an error that allows it, and within both limits. -/
theorem afterError_retryAfter {error : SpiError} {delay : Nat}
    (h : s.afterError error elapsed = .retryAfter delay) :
    MayRetry error ∧ s.attempts < s.config.maxAttempts.val ∧ DelayOk s.config elapsed delay := by
  unfold afterError at h
  split at h
  · cases h
  · rename_i hinv
    split at h
    · cases h
    · rename_i hkind
      split at h
      · cases h
      · cases h
      · rename_i hretry
        split at h
        · cases h
        · split at h
          · cases h
          · rename_i ha ht
            cases h
            refine ⟨⟨Bool.eq_false_iff.2 hinv, hkind, hretry⟩, by omega, ?_, ?_⟩
            · exact Nat.le_trans (Nat.min_le_left _ _) (Nat.min_le_right _ _)
            · have := Nat.min_le_right
                (min (saturatingMul s.config.initialBackoff.val (2 ^ min (s.attempts - 1) 31))
                  s.config.maxBackoff.val) (s.config.maxElapsed.val - elapsed)
              omega

/-- The shift of the backoff does not saturate below its bound. -/
theorem min_saturatingMul (a k : Nat) {b : Nat} (hb : b ≤ durationMax) :
    min (saturatingMul a k) b = min (a * k) b := by
  unfold saturatingMul
  omega

/-- The delay is the exponential backoff, cut off at both limits. -/
theorem afterError_backoff {error : SpiError} {delay : Nat}
    (h : s.afterError error elapsed = .retryAfter delay) :
    delay = min (min (s.config.initialBackoff.val * 2 ^ min (s.attempts - 1) 31)
      s.config.maxBackoff.val) (s.config.maxElapsed.val - elapsed) := by
  unfold afterError at h
  split at h
  · cases h
  · split at h
    · cases h
    · split at h
      · cases h
      · cases h
      · split at h
        · cases h
        · split at h
          · cases h
          · cases h
            rw [min_saturatingMul _ _ s.config.maxBackoff.property]

end SettlementRetryState

/-- The sum of an elapsed time and a delay within the limits does not saturate. -/
theorem DelayOk.saturatingAdd {config : SettlementRetryConfig} {elapsed delay : Nat}
    (h : DelayOk config elapsed delay) : saturatingAdd elapsed delay = elapsed + delay := by
  have := config.maxElapsed.property
  have := h.deadline
  exact Nat.min_eq_left (by omega)

end EventBus.Delivery
