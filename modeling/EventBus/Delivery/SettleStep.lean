import EventBus.Delivery.OwnerFrame

/-!
# One attempt to settle

What `attempt_settlement` can do while the clock goes forward, up to the provider call (`Attempted`)
and from its return on (`Returned`). Both lists are complete: the function neither panics nor finds
the clock broken.
-/

namespace EventBus.Delivery

open Lib Scheduler State

/-- The first reading of the clock for a delivery: the one it keeps, or the one of now. -/
def OwnedSyncDelivery.startedAt (d : OwnedSyncDelivery) (now : MonotonicInstant) :
    MonotonicInstant :=
  d.firstAttempt.getD now

/-- The delivery in an attempt. -/
def OwnedSyncDelivery.attempted (d : OwnedSyncDelivery) (now : MonotonicInstant) :
    OwnedSyncDelivery :=
  { d with firstAttempt := some (d.startedAt now) }

/-- The delivery in a call. -/
def OwnedSyncDelivery.called (d : OwnedSyncDelivery) (now : MonotonicInstant) : OwnedSyncDelivery :=
  { d with firstAttempt := some (d.startedAt now), retry := { d.retry with
    attempts := d.retry.attempts + 1 } }

section
variable (ctx : OwnerContext) (s : State) (lease : Nat) (d : OwnedSyncDelivery)
  (intent : SettlementIntent) (todo : Finset Nat) (completed : List Nat)

/-- The outcomes of `attemptSettlement`. -/
inductive Attempted : List Note → State → Prop
  | tokenless (ht : intent.token = none) :
    Attempted [] ((s.put lease { d with settlement := none }).afterAttempt lease todo completed)
  | foreign {token : SettlementToken} (reason : SubscriptionStopReason)
      (ht : intent.token = some token) (hb : token.belongsTo intent.subscriptionId = false) :
    Attempted [.terminates] ((s.failReceive ctx reason).2.afterAttempt lease todo completed)
  | waits {elapsed : Nat} (he : elapsed = s.clock.elapsed - (d.startedAt s.clock).elapsed)
      (hlt : elapsed < d.nextAttempt) :
    Attempted [.waits lease elapsed (d.nextAttempt - elapsed)]
      ((s.put lease (d.attempted s.clock)).afterAttempt lease todo completed)
  /-- The budget is used up. -/
  | refused {elapsed : Nat} (reason : SubscriptionStopReason)
      (he : elapsed = s.clock.elapsed - (d.startedAt s.clock).elapsed)
      (hno : ¬ (elapsed < d.retry.config.maxElapsed.val ∧
        d.retry.attempts < d.retry.config.maxAttempts.val)) :
    Attempted [.terminates]
      (((s.put lease (d.attempted s.clock)).failReceive ctx reason).2.afterAttempt lease
        todo completed)
  | calls {token : SettlementToken} {elapsed : Nat} (ht : intent.token = some token)
      (he : elapsed = s.clock.elapsed - (d.startedAt s.clock).elapsed)
      (hdue : d.nextAttempt ≤ elapsed) (htime : elapsed < d.retry.config.maxElapsed.val)
      (hcount : d.retry.attempts < d.retry.config.maxAttempts.val) :
    Attempted [.calls lease ⟨token, intent.disposition, s.clock, s.stopping⟩]
      (((s.put lease (d.called s.clock)).onCore fun core =>
        core.setDispatchActive ctx.subscriptionId false).goto
          (.calling lease intent (d.startedAt s.clock) (d.retry.attempts + 1) todo completed))

variable {ctx s lease d intent todo completed}

theorem attemptSettlement_attempted (hfirst : ∀ t, d.firstAttempt = some t → s.clock.NotBefore t) :
    ∃ notes s', s.attemptSettlement ctx lease d intent todo completed = some (notes, s') ∧
      Attempted ctx s lease d intent todo completed notes s' := by
  cases ht : intent.token with
  | none => exact ⟨_, _, by simp only [attemptSettlement, ht], .tokenless ht⟩
  | some token =>
    by_cases hb : token.belongsTo intent.subscriptionId = false
    · exact ⟨_, _, by simp only [attemptSettlement, ht, if_pos hb]; rfl, .foreign _ ht hb⟩
    · have hnb : s.clock.NotBefore (d.firstAttempt.getD s.clock) := by
        cases hf : d.firstAttempt with
        | none => exact .refl s.clock
        | some t => exact hfirst t hf
      simp only [attemptSettlement, ht, if_neg hb, ctx.clock.forward hnb]
      by_cases hlt : s.clock.elapsed - (d.firstAttempt.getD s.clock).elapsed < d.nextAttempt
      · rw [if_pos hlt]
        exact ⟨_, _, rfl, .waits rfl hlt⟩
      · rw [if_neg hlt]
        rcases d.retry.admitAttempt_cases
          (s.clock.elapsed - (d.firstAttempt.getD s.clock).elapsed) with
          ⟨termination, ha⟩ | ⟨htime, hcount, ha⟩
        · have hno : ¬ (s.clock.elapsed - (d.firstAttempt.getD s.clock).elapsed <
              d.retry.config.maxElapsed.val ∧
              d.retry.attempts < d.retry.config.maxAttempts.val) := by
            rintro ⟨htime, hcount⟩
            rw [SettlementRetryState.admitAttempt_ok htime hcount] at ha
            cases ha
          rw [ha]
          refine ⟨_, _, rfl, ?_⟩
          split <;> exact .refused _ rfl hno
        · rw [ha]
          exact ⟨_, _, rfl, .calls ht rfl (Nat.not_lt.1 hlt) htime hcount⟩

theorem attempted_of_some (hfirst : ∀ t, d.firstAttempt = some t → s.clock.NotBefore t)
    {notes : List Note} {s' : State}
    (h : s.attemptSettlement ctx lease d intent todo completed = some (notes, s')) :
    Attempted ctx s lease d intent todo completed notes s' := by
  obtain ⟨notes₁, s₁, heq, ha⟩ := attemptSettlement_attempted hfirst
  rw [h] at heq
  cases heq
  exact ha

end

section
variable (ctx : OwnerContext) (s : State) (lease : Nat) (d : OwnedSyncDelivery)
  (started : MonotonicInstant) (todo : Finset Nat) (completed : List Nat)

/-- The owner is no longer in the provider. -/
def State.back : State := s.onCore fun core => core.setDispatchActive ctx.subscriptionId true

/-- The outcomes of `settleReturned`, for each result of the call. -/
inductive Returned : Except SpiError Unit → List Note → State → Prop
  | settled : Returned (.ok ()) []
      (((s.back ctx).put lease { d with settlement := none }).afterAttempt lease todo completed)
  | retries {error : SpiError} {elapsed delay : Nat}
      (he : elapsed = s.clock.elapsed - started.elapsed)
      (hd : d.retry.afterError error elapsed = .retryAfter delay) :
    Returned (.error error) (.failed lease error elapsed (.retryAfter delay) ::
        if s.stopping then [] else [.waits lease elapsed delay])
      (((s.back ctx).put lease { d with
        lastError := some error, nextAttempt := saturatingAdd elapsed delay }).afterAttempt
          lease todo completed)
  | stops {error : SpiError} {elapsed : Nat} {termination : SettlementTermination}
      (reason : SubscriptionStopReason) :
    Returned (.error error) [.failed lease error elapsed (.stop termination), .terminates]
      ((((s.back ctx).put lease { d with lastError := some error }).failReceive ctx
        reason).2.afterAttempt lease todo completed)

variable {ctx s lease d started todo completed} {intent : SettlementIntent} {attempt : Nat}

theorem settleReturned_returned (hclock : s.clock.NotBefore started)
    (result : Except SpiError Unit) :
    Returned ctx s lease d started todo completed result
      (s.settleReturned ctx lease d intent started attempt todo completed result).1
      (s.settleReturned ctx lease d intent started attempt todo completed result).2 := by
  have hc : ctx.clock.durationSince (s.back ctx).clock started =
      .ok (s.clock.elapsed - started.elapsed) := ctx.clock.forward hclock
  simp only [State.back] at hc
  cases result with
  | ok u =>
    simp only [settleReturned, hc]
    exact .settled
  | error error =>
    simp only [settleReturned, hc]
    cases ha : d.retry.afterError error (s.clock.elapsed - started.elapsed) with
    | retryAfter delay => exact .retries rfl ha
    | stop termination => exact .stops _

end

/-! ## Where the loop goes on -/

section
variable {s : State} {lease : Nat} {todo : Finset Nat} {completed : List Nat}
  {d : OwnedSyncDelivery}

/-- The deliveries found done after an attempt for `lease`. -/
def State.completedAfter (s : State) (lease : Nat) (completed : List Nat) : List Nat :=
  if (s.owned.lookup lease).any (·.settlement.isNone) then completed ++ [lease] else completed

theorem afterAttempt_point :
    (s.afterAttempt lease todo completed).point =
      if s.terminalFailure.isSome then .removing (s.completedAfter lease completed)
      else .settling todo (s.completedAfter lease completed) := by
  simp only [afterAttempt, State.goto, State.completedAfter]
  cases s.owned.lookup lease with
  | none => rfl
  | some d => cases d.settlement <;> rfl

theorem completedAfter_some (hd : s.owned.lookup lease = some d) :
    s.completedAfter lease completed =
      if d.settlement.isNone then completed ++ [lease] else completed := by
  rw [State.completedAfter, hd]
  rfl

/-- Where the owner can be after it has looked at `lease` in the second loop. -/
inductive Goes (lease : Nat) (completed : List Nat) : Point → Prop
  | on (todo : Finset Nat) {c : List Nat} (hc : c = completed ∨ c = completed ++ [lease]) :
    Goes lease completed (.settling todo c)
  | out {c : List Nat} (hc : c = completed ∨ c = completed ++ [lease]) :
    Goes lease completed (.removing c)
  | calls (intent : SettlementIntent) (started : MonotonicInstant) (attempt : Nat)
      (todo : Finset Nat) :
    Goes lease completed (.calling lease intent started attempt todo completed)

theorem mem_completed_iff {c completed : List Nat} {l : Nat} (hl : l ≠ lease)
    (hc : c = completed ∨ c = completed ++ [lease]) : l ∈ c ↔ l ∈ completed := by
  rcases hc with rfl | rfl
  · exact .rfl
  · simp [hl]

theorem goes_afterAttempt (todo : Finset Nat) (completed : List Nat) :
    Goes lease completed (s.afterAttempt lease todo completed).point := by
  have hc : s.completedAfter lease completed = completed ∨
      s.completedAfter lease completed = completed ++ [lease] := by
    unfold State.completedAfter
    split
    · exact .inr rfl
    · exact .inl rfl
  rw [afterAttempt_point]
  split
  · exact .out hc
  · exact .on todo hc

end

end EventBus.Delivery
