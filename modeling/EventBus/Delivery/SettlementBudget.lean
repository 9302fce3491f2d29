import EventBus.Delivery.Attempts

/-!
# The settlement budget over whole runs

`Budgets` (`Attempts.lean`) is kept by every step of a run in which the clock goes forward: so every
call that the owner makes to settle a delivery, in every run, is within the budget of the delivery
(`owner_settles_within_budget`).
-/

namespace EventBus.Delivery

open Lib Scheduler

section
variable {channel : List CoordinatorMessage} {message : CoordinatorMessage}
  {t now : MonotonicInstant} {token : SettlementToken} {failures : List Failure}
  {todo' : Finset Nat} {s₁ : State} {lease : Nat} {todo : Finset Nat} {d₀ : OwnedSyncDelivery}
  {config : SettlementRetryConfig} {clock : MonotonicInstant} {completed : List Nat} {s₀ : State}
  {p p' : Point} {ctx : OwnerContext} {notes notes' : List Note} {s s' : State} {lease : Nat}
  {d d' : OwnedSyncDelivery}

/-! ## Messages and handlers -/

/-- A message for a delivery is taken from the channel: the delivery was looked at before. -/
theorem Budgets.pop (h : Budgets ctx notes s) (hp : s.point = .messages)
    (hc : s.channel = message :: channel) :
    Budgets ctx notes { s with channel } ∧
      ∀ d, s.owned.lookup message.leaseId = some d → d.inbound = none := by
  have hin :
      s.inbox message.leaseId = message :: ({ s with channel } : State).inbox message.leaseId := by
    simp [State.inbox, hc]
  have hne : s.inbox message.leaseId ≠ [] := by simp [hin]
  have hold : ∀ d, s.owned.lookup message.leaseId = some d → d.inbound = none := by
    intro d hd
    by_contra hsome
    exact hne ((h.leases message.leaseId).fresh d hd (Option.isSome_iff_ne_none.2 hsome)).2.2.1
  refine ⟨?_, hold⟩
  have hf : Frame ctx message.leaseId s [] { s with channel } := frame_pop hc
  have hb := h.leases message.leaseId
  have := h.about hf ?_ (fun l _ => .refl l _) h.progress (h.within.plain plain_nil)
  · rwa [List.append_nil] at this
  · rw [List.append_nil]
    refine { hb with
      claimed := fun hcl => hb.claimed ?_
      receiving := fun hr => ?_
      fresh := fun d hd hsome => ?_ }
    · rcases hcl with hcl | hcl | hcl | hcl
      · exact .inl hcl
      · exact .inr (.inl hcl)
      · exact .inr (.inr (.inl hne))
      · exact .inr (.inr (.inr hcl))
    · have hr : s.point.receives = some message.leaseId := hr
      rw [hp] at hr
      cases hr
    · rw [hold d hd] at hsome
      cases hsome

/-- A delivery that has been looked at changes, at a point where nothing is marked as done. -/
theorem Budgets.put (h : Budgets ctx notes s) (hc : s.point.completing = [])
    (hd : s.owned.lookup lease = some d) (hu : d.Untouched d') (hin : d'.inbound = none) :
    Budgets ctx notes (s.put lease d') := by
  have := h.untouched (frame_put d') plain_nil rfl hc h.progress hd put_lookup hu
    fun hsome => absurd hsome (by simp [hin])
  rwa [List.append_nil] at this

theorem Budgets.deliver (h : Budgets ctx notes s) (hp : s.point = .messages)
    (hc : s.channel = message :: channel) :
    After (Budgets ctx) notes ({ s with channel }.deliver ctx message) := by
  obtain ⟨hpop, hin⟩ := h.pop hp hc
  have hcompl : ({ s with channel } : State).point.completing = [] := by
    show s.point.completing = []
    rw [hp]
    rfl
  have hsame : Budgets ctx (notes ++ []) { s with channel } := by rwa [List.append_nil]
  have hput {d d' : OwnedSyncDelivery} (hd : s.owned.lookup message.leaseId = some d)
      (hu : d.Untouched d') (hkeep : d'.inbound = d.inbound) :
      Budgets ctx (notes ++ []) (({ s with channel } : State).put message.leaseId d') := by
    rw [List.append_nil]
    exact hpop.put hcompl hd hu (hkeep.trans (hin d hd))
  cases message with
  | settlement l intent =>
    simp only [State.deliver]
    split
    · exact hsame
    · rename_i d hd
      split
      · split
        · exact hpop.failReceive _ (by show s.point.progress = false; rw [hp]; rfl)
        · exact hsame
      · rename_i hnone
        exact hput hd ⟨rfl, rfl, rfl, .inr hnone⟩ rfl
  | _ =>
    simp only [State.deliver]
    split
    · exact hsame
    · rename_i d hd
      exact hput hd ⟨rfl, rfl, rfl, .inl rfl⟩ rfl

/-- What a step leaves of the delivery it is about, which it has looked at. -/
structure Handled (lease : Nat) (d : OwnedSyncDelivery) (s s' : State) : Prop where
  delivery : ∃ d', s'.owned.lookup lease = some d' ∧ d.Untouched d' ∧ d'.inbound = none
  point : s'.point = s.point
  terminal : s'.terminalFailure = s.terminalFailure

theorem Budgets.handled (h : Budgets ctx notes s) (hf : Frame ctx lease s notes' s')
    (hn : Plain notes') (hc : s.point.completing = []) (hd : s.owned.lookup lease = some d)
    (hh : Handled lease d s s') : Budgets ctx (notes ++ notes') s' := by
  obtain ⟨⟨d', hd', hu, hin⟩, hp, ht⟩ := hh
  exact h.untouched hf hn hp hc (fun hg => ht.trans (h.progress hg)) hd hd' hu
    fun hsome => absurd hsome (by simp [hin])

theorem OwnedSyncDelivery.Untouched.refl (d : OwnedSyncDelivery) : d.Untouched d :=
  ⟨rfl, rfl, rfl, .inl rfl⟩

theorem countAbandoned_handled (hu : d.Untouched d') (hin : d'.inbound = none) (times : Nat) :
    Handled lease d s ((s.put lease d').countAbandoned ctx lease times).2 := by
  obtain ⟨notes, deliveries, ephemeral, heq, -⟩ :=
    countAbandoned_cases ctx (s.put lease d') lease times
  rw [heq]
  exact ⟨⟨d', put_lookup, hu, hin⟩, rfl, rfl⟩

theorem perform_terminal (effects : Effects) :
    (s.perform ctx lease effects).2.terminalFailure = s.terminalFailure := by
  obtain ⟨notes, deliveries, ephemeral, heq, -⟩ :=
    countAbandoned_cases ctx s lease effects.abandoned
  simp only [State.perform, heq]
  split <;> rfl

/-- A delivery that has not been looked at has no intent, and neither has one that is cleaned up. -/
theorem prepareStopping_handled (hd : s.owned.lookup lease = some d)
    (hfresh : d.inbound.isSome → d.settlement = none) :
    Handled lease d s (s.prepareStopping ctx lease d).2 := by
  unfold State.prepareStopping
  dsimp only
  split
  · rename_i message payload hin
    have hnone := hfresh (by rw [hin]; rfl)
    split
    · split
      · exact ⟨⟨_, put_lookup, ⟨rfl, rfl, rfl, .inr hnone⟩, rfl⟩, rfl, rfl⟩
      · refine countAbandoned_handled ?_ ?_ 1
        · exact ⟨rfl, rfl, rfl, .inr hnone⟩
        · rfl
    · refine countAbandoned_handled ?_ ?_ 1
      · exact ⟨rfl, rfl, rfl, .inl rfl⟩
      · rfl
  · rename_i hin
    have hsame : Handled lease d s s := ⟨⟨d, hd, .refl d, hin⟩, rfl, rfl⟩
    split
    · exact hsame
    · split
      · exact hsame
      · rename_i hbusy
        have hnone : d.settlement = none := by
          cases hs : d.settlement with
          | none => rfl
          | some intent => exact absurd (.inr (.inr (.inr (by rw [hs]; rfl)))) hbusy
        split
        · exact ⟨⟨_, put_lookup, ⟨rfl, rfl, rfl, .inr hnone⟩, hin⟩, rfl, rfl⟩
        · refine countAbandoned_handled ?_ ?_ 1
          · exact ⟨rfl, rfl, rfl, .inr hnone⟩
          · exact hin

theorem Budgets.prepareStopping (h : Budgets ctx notes s) (hp : s.point = .cleaning todo)
    (hd : s.owned.lookup lease = some d) :
    After (Budgets ctx) notes (s.prepareStopping ctx lease d) :=
  h.handled (frame_prepareStopping d) plain_prepareStopping (by rw [hp]; rfl) hd
    (prepareStopping_handled hd fun hsome => ((h.leases lease).fresh d hd hsome).1)

/-! ## Finished attempts -/

theorem finishAttempt_handled {result : Option FailureDirective} {forwarded : Bool}
    (h : s.finishAttempt ctx lease d result forwarded = some (notes, s')) (hu : d₀.Untouched d)
    (hin : d.inbound = none) (hp : s.point = s₀.point)
    (ht : s.terminalFailure = s₀.terminalFailure) :
    Handled lease d₀ s₀ s' ∧ s'.owned.lookup lease = some d.finished := by
  obtain ⟨effects, -, -, rfl⟩ := finishAttempt_some h
  have htold : Told ctx (s.put lease d.finished) effects.sent
    ((s.put lease d.finished).perform ctx lease effects).2 := told_perform effects
  have hown : ((s.put lease d.finished).perform ctx lease effects).2.owned.lookup lease =
      some d.finished := (congrArg (Finmap.lookup lease) htold.owned).trans put_lookup
  refine ⟨⟨⟨d.finished, hown, ⟨hu.retry, hu.firstAttempt, hu.nextAttempt, hu.settlement⟩, hin⟩,
    ?_, ?_⟩, hown⟩
  · exact htold.point.trans hp
  · exact (perform_terminal effects).trans ht

/-- A retry that is due is woken: only its time is taken from the delivery. -/
theorem wakeDue_cases (lease : Nat) (d : OwnedSyncDelivery) (s : State) (retryCancelled : Bool) :
    s.wakeDue ctx lease d retryCancelled = s ∨ s.wakeDue ctx lease d retryCancelled =
      (s.put lease { d with due := none }).onCore fun core => core.wakeRetry lease := by
  unfold State.wakeDue
  split
  · exact .inl rfl
  · split
    · exact .inl rfl
    · split
      · exact .inr rfl
      · exact .inl rfl

theorem Handled.wakeDue (h : Handled lease d₀ s₀ s) (hd : s.owned.lookup lease = some d)
    (retryCancelled : Bool) : Handled lease d₀ s₀ (s.wakeDue ctx lease d retryCancelled) := by
  rcases wakeDue_cases lease d s retryCancelled with heq | heq
  · rw [heq]
    exact h
  · rw [heq]
    obtain ⟨⟨d', hd', hu, hin⟩, hp, ht⟩ := h
    obtain rfl : d' = d := Option.some.inj (hd'.symm.trans hd)
    exact ⟨⟨_, put_lookup, ⟨hu.retry, hu.firstAttempt, hu.nextAttempt, hu.settlement⟩, hin⟩, hp, ht⟩

theorem Budgets.finishOne (h : Budgets ctx notes s) (hp : s.point = .finishing todo)
    (hd : s.owned.lookup lease = some d) {tick : Tick}
    (hs : s.finishOne ctx tick lease d = some (notes', s')) : Budgets ctx (notes ++ notes') s' := by
  have hf : Frame ctx lease s notes' s' := frame_finishOne hs
  have hn := plain_finishOne hs
  have hc : s.point.completing = [] := by
    rw [hp]
    rfl
  rcases finishOne_cases hs with ⟨-, hres, hcase⟩ | ⟨-, -, rfl⟩
  · -- a delivery with a result has been looked at
    have hin : d.inbound = none := by
      by_contra hsome
      have := ((h.leases lease).fresh d hd (Option.isSome_iff_ne_none.2 hsome)).2.1
      rw [this] at hres
      cases hres
    refine h.handled hf hn hc hd ?_
    rcases hcase with ⟨d', result, s₁, hr, hfin, rfl⟩ | ⟨d', due, hr, rfl, rfl⟩
    · obtain ⟨hh, hown⟩ := finishAttempt_handled hfin
        ⟨hr.retry, hr.firstAttempt, hr.nextAttempt, .inl hr.settlement⟩ (hr.inbound.trans hin)
        rfl rfl
      exact hh.wakeDue hown tick.retryCancelled
    · have hh :
          Handled lease d s ((s.put lease d').onCore fun core => core.finishAttemptWaiting lease) :=
        ⟨⟨d', put_lookup, ⟨hr.retry, hr.firstAttempt, hr.nextAttempt, .inl hr.settlement⟩,
          hr.inbound.trans hin⟩, rfl, rfl⟩
      exact hh.wakeDue put_lookup tick.retryCancelled
  · have hfresh := (h.leases lease).fresh d hd
    rcases wakeDue_cases lease d s tick.retryCancelled with heq | heq
    · rw [heq] at hf ⊢
      exact h.untouched hf hn rfl hc h.progress hd hd (.refl d) hfresh
    · rw [heq] at hf ⊢
      exact h.untouched hf hn rfl hc h.progress hd put_lookup ⟨rfl, rfl, rfl, .inl rfl⟩ hfresh

/-- A granted settlement. -/
theorem Budgets.grant (h : Budgets ctx notes s) (hp : s.point = .granting)
    (hd : s.owned.lookup lease = some d) :
    Budgets ctx notes ({ s with core := (s.core.takeSettlementReady ctx.subscriptionId).2 }.put
      lease { d with settlementGranted := true }) := by
  have hf₀ : Frame ctx lease s []
      { s with core := (s.core.takeSettlementReady ctx.subscriptionId).2 } :=
    frame_plain (.takeSettlementReady ctx.subscriptionId) rfl
  have := h.untouched (hf₀.then (frame_put { d with settlementGranted := true })) plain_nil rfl
    (by rw [hp]; rfl) h.progress hd put_lookup ⟨rfl, rfl, rfl, .inl rfl⟩
    ((h.leases lease).fresh d hd)
  rwa [List.append_nil] at this

/-! ## Grants -/

theorem submit_handled {attempt : Nat} (h : s.submit lease d attempt = some (notes, s'))
    (hu : d₀.Untouched d) (hin : d.inbound = none) (hp : s.point = s₀.point)
    (ht : s.terminalFailure = s₀.terminalFailure) : Handled lease d₀ s₀ s' := by
  obtain ⟨event, -, heq⟩ := Option.map_eq_some_iff.1 h
  cases heq
  exact ⟨⟨_, put_lookup, ⟨hu.retry, hu.firstAttempt, hu.nextAttempt, hu.settlement⟩, hin⟩, hp, ht⟩

theorem startAttempt_handled {tick : Tick} (h : s.startAttempt ctx tick lease d = some (notes, s'))
    (hu : d₀.Untouched d) (hin : d.inbound = none) (hp : s.point = s₀.point)
    (ht : s.terminalFailure = s₀.terminalFailure) : Handled lease d₀ s₀ s' := by
  have hu' : ∀ d', d'.retry = d.retry → d'.firstAttempt = d.firstAttempt →
      d'.nextAttempt = d.nextAttempt → d'.settlement = d.settlement → d₀.Untouched d' := by
    intro d' h₁ h₂ h₃ h₄
    exact ⟨h₁.trans hu.retry, h₂.trans hu.firstAttempt, h₃.trans hu.nextAttempt, h₄ ▸ hu.settlement⟩
  unfold State.startAttempt at h
  split at h
  · split at h
    · exact submit_handled h (hu' _ rfl rfl rfl rfl) hin hp ht
    · cases h
      exact ⟨⟨_, put_lookup, hu' _ rfl rfl rfl rfl, hin⟩, hp, ht⟩
    · exact (finishAttempt_handled h (hu' _ rfl rfl rfl rfl) hin hp ht).1
  · exact submit_handled h (hu' _ rfl rfl rfl rfl) hin hp ht

theorem dispatch_handled {tick : Tick} (h : s.dispatch ctx tick lease d = some (notes, s')) :
    Handled lease d s s' := by
  unfold State.dispatch at h
  split at h
  · rename_i hin
    exact startAttempt_handled h (.refl d) hin rfl rfl
  · rename_i message decoded hin
    dsimp only at h
    generalize
      prepareDelivery ctx lease message decoded tick.filter tick.answers tick.forwarded = r at h
    have hp : (s.perform ctx lease r.2.2).2.point = s.point := (told_perform r.2.2).point
    have ht : (s.perform ctx lease r.2.2).2.terminalFailure = s.terminalFailure :=
      perform_terminal r.2.2
    split at h
    · cases h
      exact ⟨⟨_, put_lookup, ⟨rfl, rfl, rfl, .inl rfl⟩, rfl⟩, hp, ht⟩
    · split at h
      · obtain ⟨⟨notes', s₁⟩, hf, heq⟩ := Option.map_eq_some_iff.1 h
        cases heq
        refine (finishAttempt_handled hf ?_ rfl hp ht).1
        exact ⟨rfl, rfl, rfl, .inl rfl⟩
      · obtain ⟨⟨notes', s₁⟩, hf, heq⟩ := Option.map_eq_some_iff.1 h
        cases heq
        refine startAttempt_handled hf ?_ rfl hp ht
        exact ⟨rfl, rfl, rfl, .inl rfl⟩

theorem Budgets.dispatch (h : Budgets ctx notes s) (hp : s.point = .dispatching)
    (hd : s.owned.lookup lease = some d) {tick : Tick}
    (hs : { s with core := (s.core.takeReady ctx.subscriptionId).2 }.dispatch ctx tick lease d =
      some (notes', s')) : Budgets ctx (notes ++ notes') s' := by
  have hf₀ : Frame ctx lease s [] { s with core := (s.core.takeReady ctx.subscriptionId).2 } :=
    frame_plain (.takeReady ctx.subscriptionId) rfl
  obtain ⟨hdel, hpoint, hterm⟩ := dispatch_handled hs
  exact h.handled (hf₀.silent (frame_dispatch hs)) (plain_dispatch hs) (by rw [hp]; rfl) hd
    ⟨hdel, hpoint, hterm⟩

/-! ## Attempts to settle -/

/-- The delivery of `lease` after an attempt to settle it that made no call, or whose call has
returned. -/
theorem Budgeted.attempted (h : Budgeted ctx notes s lease)
    (hf : Frame ctx lease s notes' (s₁.afterAttempt lease todo completed)) (hi : Inv s.core)
    (hd : s.owned.lookup lease = some d) (hd' : s₁.owned.lookup lease = some d')
    (hm : lease ∉ completed) (hin : d'.inbound = none)
    (hbal : (failuresOf (notes ++ notes') lease).length ≤ (callsOf (notes ++ notes') lease).length)
    (hatt : Attempting ctx.settlementRetry s.clock (callsOf (notes ++ notes') lease) d')
    (hdue : d'.settlement.isSome → s₁.terminalFailure = none →
      Due ctx.settlementRetry s.clock (callsOf (notes ++ notes') lease)
        (failuresOf (notes ++ notes') lease) d' ∧
      ∀ failure ∈ failuresOf (notes ++ notes') lease, failure.Retried) :
    Budgeted ctx (notes ++ notes') (s₁.afterAttempt lease todo completed) lease := by
  have hown (d₁ : OwnedSyncDelivery)
      (h₁ : (s₁.afterAttempt lease todo completed).owned.lookup lease = some d₁) : d₁ = d' :=
    Option.some.inj (h₁.symm.trans hd')
  have hcompl : (s₁.afterAttempt lease todo completed).point.completing =
      if d'.settlement.isNone then completed ++ [lease] else completed := by
    rw [afterAttempt_point, completedAfter_some hd']
    split <;> rfl
  have hpoint : (s₁.afterAttempt lease todo completed).point.receives = none ∧
      (s₁.afterAttempt lease todo completed).point.call = none := by
    rw [afterAttempt_point]
    split <;> exact ⟨rfl, rfl⟩
  have hclock : (s₁.afterAttempt lease todo completed).clock = s.clock := hf.clock
  constructor
  · exact fun _ => (hf.core hi).claimed lease (h.claimed (.inr (.inl (by rw [hd]; nofun))))
  · rw [hpoint.1]
    nofun
  · exact hbal
  · intro d₁ h₁
    obtain rfl := hown d₁ h₁
    rwa [hclock]
  · intro d₁ h₁ _
    obtain rfl := hown d₁ h₁
    rw [hcompl]
    cases d₁.settlement with
    | none => simp
    | some intent => exact .inl rfl
  · intro d₁ h₁ hmem
    obtain rfl := hown d₁ h₁
    rw [hcompl] at hmem
    cases hs : d₁.settlement with
    | none => rfl
    | some intent =>
      rw [hs] at hmem
      exact absurd hmem hm
  · intro d₁ h₁ _ hs ht
    obtain rfl := hown d₁ h₁
    rw [hclock]
    exact hdue hs ht
  · rw [hpoint.2]
    nofun
  · intro d₁ h₁ hsome
    obtain rfl := hown d₁ h₁
    rw [hin] at hsome
    cases hsome

theorem Goes.keeps {l : Nat} (h : Goes lease completed p') (hl : l ≠ lease) (hr : p.receives = none)
    (hc : p.completing = completed) (hcall : ∀ t, p.call ≠ some (l, t)) : p.Keeps l p' := by
  refine ⟨?_, fun t => iff_of_false ?_ (hcall t), ?_⟩
  · rw [hr]
    cases h <;> exact .rfl
  · intro ht
    cases h with
    | calls intent started attempt todo => exact hl (Prod.mk.inj (Option.some.inj ht)).1.symm
    | _ => cases ht
  · rw [hc]
    cases h with
    | on todo hc' => exact mem_completed_iff hl hc'
    | out hc' => exact mem_completed_iff hl hc'
    | calls => exact .rfl

/-- After an attempt the loop goes on only without a terminal failure. -/
theorem progress_afterAttempt (hg : (s.afterAttempt lease todo completed).point.progress = true) :
    s.terminalFailure = none := by
  rw [afterAttempt_point] at hg
  split at hg
  · cases hg
  · rename_i hno
    simpa using hno

theorem attempted_eq (h : d.firstAttempt = some t) : d.attempted now = d := by
  simp only [OwnedSyncDelivery.attempted, OwnedSyncDelivery.startedAt, h, Option.getD_some]
  rw [← h]

/-- A delivery for which the provider was called keeps the time of the first call. -/
theorem Attempting.exists_first {calls : List SettleCall} (h : Attempting config clock calls d)
    (hne : calls ≠ []) : ∃ c, calls.head? = some c ∧ d.firstAttempt = some c.startedAt := by
  cases calls with
  | nil => exact absurd rfl hne
  | cons c calls => exact ⟨c, rfl, h.first c rfl⟩

theorem Due.exists_last {calls : List SettleCall} (h : Due config clock calls failures d)
    (hne : calls ≠ []) : ∃ failure, failures.getLast? = some failure := by
  have hlen : failures.length = calls.length := h.failed
  cases hl : failures.getLast? with
  | some failure => exact ⟨failure, rfl⟩
  | none =>
    rw [List.getLast?_eq_none_iff] at hl
    rw [hl] at hlen
    exact absurd (List.length_eq_zero_iff.1 hlen.symm) hne

/-- The delay that is left of the one that was granted is within the limits, too. -/
theorem Due.waits {calls : List SettleCall} (h : Due config clock calls failures d)
    (hne : calls ≠ []) (ht : d.firstAttempt = some t)
    (hlt : clock.elapsed - t.elapsed < d.nextAttempt) :
    DelayOk config (clock.elapsed - t.elapsed) (d.nextAttempt - (clock.elapsed - t.elapsed)) := by
  obtain ⟨failure, hl⟩ := h.exists_last hne
  obtain ⟨delay, -, hok, hn, hpast⟩ := h.last failure hl
  have hpast := hpast t ht
  have hb := hok.backoff
  have hd := hok.deadline
  rw [hn] at hlt ⊢
  exact ⟨by omega, by omega⟩

/-- A delivery that is ready for a call. -/
structure Ready (ctx : OwnerContext) (notes : List Note) (s : State) (lease : Nat)
    (d : OwnedSyncDelivery) (intent : SettlementIntent) (completed : List Nat) : Prop where
  owned : s.owned.lookup lease = some d
  intent : d.settlement = some intent
  inbound : d.inbound = none
  unmarked : lease ∉ completed
  attempting : Attempting ctx.settlementRetry s.clock (callsOf notes lease) d
  due : Due ctx.settlementRetry s.clock (callsOf notes lease) (failuresOf notes lease) d
  retried : ∀ failure ∈ failuresOf notes lease, failure.Retried
  /-- A stopping owner calls the provider for a fresh intent only. -/
  stopping : s.stopping = true → callsOf notes lease = []

variable {intent : SettlementIntent}

theorem Budgets.ready (h : Budgets ctx notes s) (hp : s.point = .settling todo completed)
    (hd : s.owned.lookup lease = some d) (hset : d.settlement = some intent)
    (hstop : ¬ (s.stopping ∧ 0 < d.retry.attempts)) :
    Ready ctx notes s lease d intent completed := by
  have hb := h.leases lease
  have ha := hb.attempting d hd
  have hterm : s.terminalFailure = none := h.progress (by rw [hp]; rfl)
  obtain ⟨hdue, hretried⟩ := hb.due d hd (by rw [hp]; nofun) (by rw [hset]; rfl) hterm
  refine ⟨hd, hset, ?_, fun hm => ?_, ha, hdue, hretried, fun hs => ?_⟩
  · by_contra hsome
    have := (hb.fresh d hd (Option.isSome_iff_ne_none.2 hsome)).1
    rw [hset] at this
    cases this
  · have := hb.done d hd (by rw [hp]; exact hm)
    rw [hset] at this
    cases this
  · have hzero : d.retry.attempts = 0 := by
      by_contra hne
      exact hstop ⟨hs, Nat.pos_of_ne_zero hne⟩
    exact List.length_eq_zero_iff.1 (ha.attempts ▸ hzero)

/-- The time since the first call, for a delivery that had one. -/
theorem Ready.elapsed (h : Ready ctx notes s lease d intent completed) {first : SettleCall}
    (hf : (callsOf notes lease).head? = some first) :
    d.startedAt s.clock = first.startedAt ∧ s.clock.NotBefore first.startedAt := by
  have := h.attempting.first first hf
  refine ⟨?_, h.attempting.past _ this⟩
  rw [OwnedSyncDelivery.startedAt, this]
  rfl

theorem Ready.notBefore (h : Ready ctx notes s lease d intent completed) :
    s.clock.NotBefore (d.startedAt s.clock) := by
  unfold OwnedSyncDelivery.startedAt
  cases hf : d.firstAttempt with
  | none => exact .refl s.clock
  | some t => exact h.attempting.past t hf

/-- The call is within the budget. -/
theorem Ready.callOk (h : Ready ctx notes s lease d intent completed)
    (ht : intent.token = some token) {elapsed : Nat}
    (he : elapsed = s.clock.elapsed - (d.startedAt s.clock).elapsed)
    (hdue : d.nextAttempt ≤ elapsed) (htime : elapsed < d.retry.config.maxElapsed.val)
    (hcount : d.retry.attempts < d.retry.config.maxAttempts.val) (hrun : .terminates ∉ notes) :
    CallOk ctx.settlementRetry notes lease ⟨token, intent.disposition, s.clock, s.stopping⟩ := by
  have ha := h.attempting
  rw [ha.config] at htime hcount
  refine ⟨ha.attempts ▸ hcount, fun c hc => ?_, ⟨h.due.failed, h.retried⟩, fun first hf => ?_,
    fun first failure delay hf hl hdec => ?_, h.stopping, hrun⟩
  · obtain ⟨htok, hdisp⟩ := ha.same c hc intent h.intent
    exact ⟨Option.some.inj (htok.symm.trans ht), hdisp.symm⟩
  · obtain ⟨hst, hnb⟩ := h.elapsed hf
    rw [hst] at he
    exact ⟨hnb, he ▸ htime⟩
  · obtain ⟨hst, -⟩ := h.elapsed hf
    rw [hst] at he
    obtain ⟨delay', hdec', -, hn, -⟩ := h.due.last failure hl
    obtain rfl : delay' = delay := by
      rw [hdec] at hdec'
      exact (SettlementRetryDecision.retryAfter.inj hdec').symm
    show failure.elapsed + delay' ≤ s.clock.elapsed - first.startedAt.elapsed
    omega

theorem callsOf_call (notes : List Note) (lease : Nat) (call : SettleCall) :
    callsOf (notes ++ [.calls lease call]) lease = callsOf notes lease ++ [call] := by
  rw [callsOf_append]
  simp [callsOf, Note.call?]

theorem failuresOf_call (notes : List Note) (lease : Nat) (call : SettleCall) :
    failuresOf (notes ++ [.calls lease call]) lease = failuresOf notes lease := by
  rw [failuresOf_append]
  exact List.append_nil _

/-- The provider is called. -/
theorem Ready.calls (h : Ready ctx notes s lease d intent completed)
    (hb : Budgeted ctx notes s lease) (hi : Inv s.core) (ht : intent.token = some token)
    {attempt : Nat} {call : SettleCall}
    (hcall : call = ⟨token, intent.disposition, s.clock, s.stopping⟩)
    (hf : Frame ctx lease s [.calls lease call] s')
    (hp : s'.point = .calling lease intent (d.startedAt s.clock) attempt todo completed)
    (hd' : s'.owned.lookup lease = some (d.called s.clock)) :
    Budgeted ctx (notes ++ [.calls lease call]) s' lease := by
  have ha := h.attempting
  have hown (d₁ : OwnedSyncDelivery) (h₁ : s'.owned.lookup lease = some d₁) :
      d₁ = d.called s.clock :=
    Option.some.inj (h₁.symm.trans hd')
  have hsome : (d.called s.clock).settlement.isSome := by
    show d.settlement.isSome
    rw [h.intent]
    rfl
  constructor
  · exact fun _ => (hf.core hi).claimed lease (hb.claimed (.inr (.inl (by rw [h.owned]; nofun))))
  · rw [hp]
    nofun
  · rw [callsOf_call, failuresOf_call, h.due.failed, List.length_append]
    omega
  · intro d₁ h₁
    obtain rfl := hown d₁ h₁
    rw [callsOf_call, hf.clock]
    refine ⟨ha.config, ?_, fun hnil => ?_, fun c hc => ?_, fun t ht => ?_, fun c hc i hset => ?_⟩
    · rw [List.length_append, ← ha.attempts]
      rfl
    · simp at hnil
    · show some (d.startedAt s.clock) = _
      cases hcalls : callsOf notes lease with
      | nil =>
        rw [hcalls] at hc
        obtain rfl : call = c := Option.some.inj hc
        rw [OwnedSyncDelivery.startedAt, (ha.untouched hcalls).1, hcall]
        rfl
      | cons first rest =>
        rw [hcalls] at hc
        obtain rfl : first = c := Option.some.inj hc
        rw [(h.elapsed (by rw [hcalls]; rfl)).1]
    · obtain rfl : d.startedAt s.clock = t := Option.some.inj ht
      exact h.notBefore
    · rcases List.mem_append.1 hc with hc | hc
      · exact ha.same c hc i hset
      · obtain rfl := List.mem_singleton.1 hc
        obtain rfl : intent = i := Option.some.inj (h.intent.symm.trans hset)
        rw [hcall]
        exact ⟨ht, rfl⟩
  · intro d₁ h₁ _
    obtain rfl := hown d₁ h₁
    exact .inl hsome
  · rw [hp]
    exact fun _ _ hm => absurd hm h.unmarked
  · rw [hp]
    exact fun _ _ hc => absurd rfl (hc (d.startedAt s.clock))
  · rw [hp]
    intro t hc
    obtain ⟨-, rfl⟩ := Prod.mk.inj (Option.some.inj hc)
    refine ⟨_, hd', rfl, hsome, ?_, ?_⟩
    · rw [callsOf_call, failuresOf_call, h.due.failed, List.length_append]
      rfl
    · rw [failuresOf_call]
      exact h.retried
  · intro d₁ h₁ hin
    obtain rfl := hown d₁ h₁
    have hin : d.inbound.isSome := hin
    rw [h.inbound] at hin
    cases hin

/-- An attempt that makes no call and leaves the delivery as it is. -/
theorem Ready.leaves (h : Ready ctx notes s lease d intent completed)
    (hb : Budgeted ctx notes s lease) (hi : Inv s.core) (hn : ∀ note ∈ notes', note.Silent lease)
    (hf : Frame ctx lease s notes' (s₁.afterAttempt lease todo completed))
    (hd' : s₁.owned.lookup lease = some d) :
    Budgeted ctx (notes ++ notes') (s₁.afterAttempt lease todo completed) lease := by
  have hcalls : callsOf (notes ++ notes') lease = callsOf notes lease := callsOf_silent hn
  have hfails : failuresOf (notes ++ notes') lease = failuresOf notes lease := failuresOf_silent hn
  refine hb.attempted hf hi h.owned hd' h.unmarked h.inbound ?_ ?_ fun _ _ => ?_
  · rw [hcalls, hfails]
    exact hb.balanced
  · rw [hcalls]
    exact h.attempting
  · rw [hcalls, hfails]
    exact ⟨h.due, h.retried⟩

theorem Budgets.attempt (h : Budgets ctx notes s) (hp : s.point = .settling todo completed)
    (hr : Ready ctx notes s lease d intent completed)
    (hs : s.attemptSettlement ctx lease d intent todo' completed = some (notes', s')) :
    Budgets ctx (notes ++ notes') s' := by
  have hf : Frame ctx lease s notes' s' := frame_attemptSettlement hs
  have hb := h.leases lease
  have ha := hr.attempting
  have hterm : s.terminalFailure = none := h.progress (by rw [hp]; rfl)
  have hrun : .terminates ∉ notes := by
    intro hm
    have := h.terminated hm
    rw [hterm] at this
    cases this
  have hothers {p : Point} (hg : Goes lease completed p) (l : Nat) (hl : l ≠ lease) :
      s.point.Keeps l p :=
    hg.keeps hl (by rw [hp]; rfl) (by rw [hp]; rfl) (by rw [hp]; nofun)
  -- a delivery without calls has all of its budget
  have hcalled (hno : ¬ (d.nextAttempt ≤ s.clock.elapsed - (d.startedAt s.clock).elapsed ∧
      s.clock.elapsed - (d.startedAt s.clock).elapsed < d.retry.config.maxElapsed.val ∧
      d.retry.attempts < d.retry.config.maxAttempts.val)) : callsOf notes lease ≠ [] := by
    intro hnil
    obtain ⟨hfirst, hnext⟩ := ha.untouched hnil
    have hatt : d.retry.attempts = 0 := by rw [ha.attempts, hnil]; rfl
    have hpos := d.retry.config.maxElapsed_pos
    have hmax := d.retry.config.maxAttempts.property.1
    refine hno ⟨by omega, ?_, by omega⟩
    rw [OwnedSyncDelivery.startedAt, hfirst, Option.getD_none]
    omega
  cases attempted_of_some ha.past hs with
  | tokenless ht =>
    have hnil : callsOf notes lease = [] := by
      cases hc : callsOf notes lease with
      | nil => rfl
      | cons c rest =>
        have := (ha.same c (by rw [hc]; exact List.mem_cons_self) intent hr.intent).1
        rw [ht] at this
        cases this
    refine h.about hf ?_ (hothers (goes_afterAttempt todo' completed)) progress_afterAttempt
      (h.within.plain plain_nil)
    rw [List.append_nil]
    have hf' : Frame ctx lease s [] _ := hf
    have := hb.attempted hf' h.inv hr.owned put_lookup hr.unmarked hr.inbound
      (by simpa using hb.balanced)
      (by rw [List.append_nil]; exact ha.unsettle) nofun
    rwa [List.append_nil] at this
  | foreign reason ht hbel =>
    exact h.about hf (hr.leaves hb h.inv (Plain.silent (plain_nil.cons rfl) lease) hf hr.owned)
      (hothers (goes_afterAttempt todo' completed)) progress_afterAttempt
      (h.within.plain (plain_nil.cons rfl))
  | @waits elapsed he hlt =>
    have hne := hcalled (by omega)
    obtain ⟨c, -, hfirst⟩ := ha.exists_first hne
    rw [attempted_eq hfirst] at hf ⊢
    have hst : d.startedAt s.clock = c.startedAt := by
      rw [OwnedSyncDelivery.startedAt, hfirst]
      rfl
    refine h.about hf (hr.leaves hb h.inv (List.forall_mem_singleton.2 ⟨rfl, rfl⟩) hf put_lookup)
      (hothers (goes_afterAttempt todo' completed)) progress_afterAttempt
      (h.within.snoc nofun nofun ?_)
    rintro l e delay heq
    cases heq
    rw [he, hst] at hlt ⊢
    exact hr.due.waits hne hfirst hlt
  | refused reason he hno =>
    have hne := hcalled (by rw [← he]; exact fun hok => hno hok.2)
    obtain ⟨c, -, hfirst⟩ := ha.exists_first hne
    rw [attempted_eq hfirst] at hf ⊢
    exact h.about hf (hr.leaves hb h.inv (Plain.silent (plain_nil.cons rfl) lease) hf put_lookup)
      (hothers (goes_afterAttempt todo' completed)) progress_afterAttempt
      (h.within.plain (plain_nil.cons rfl))
  | calls ht he hdue htime hcount =>
    refine h.about hf (hr.calls hb h.inv ht rfl hf rfl put_lookup)
      (hothers (.calls intent (d.startedAt s.clock) (d.retry.attempts + 1) todo')) (fun _ => hterm)
      (h.within.snoc ?_ nofun nofun)
    rintro l call heq
    cases heq
    exact hr.callOk ht he hdue htime hcount hrun

theorem Budgets.settleOne (h : Budgets ctx notes s) (hp : s.point = .settling todo completed)
    (hd : s.owned.lookup lease = some d)
    (hs : s.settleOne ctx lease d todo' completed = some (notes', s')) :
    Budgets ctx (notes ++ notes') s' := by
  have hprog : s.terminalFailure = none := h.progress (by rw [hp]; rfl)
  have hskip : Budgets ctx (notes ++ []) (s.goto (.settling todo' completed)) := by
    rw [List.append_nil]
    refine h.goto _ (fun l => ?_) fun _ => hprog
    rw [hp]
    exact ⟨.rfl, fun _ => .rfl, .rfl⟩
  unfold State.settleOne at hs
  split at hs
  · cases hs
    exact hskip
  · split at hs
    · rename_i hset
      cases hs
      have hb := h.leases lease
      have hf : Frame ctx lease s [] (s.goto (.settling todo' (completed ++ [lease]))) :=
        frame_goto _
      refine h.about hf ?_ (fun l hl => ?_) (fun _ => hprog) (h.within.plain plain_nil)
      · have hnone (d₁ : OwnedSyncDelivery) (h₁ : s.owned.lookup lease = some d₁) :
            d₁.settlement = none :=
          Option.some.inj (h₁.symm.trans hd) ▸ hset
        have hmem : lease ∈ completed ++ [lease] := List.mem_append_right _ List.mem_cons_self
        rw [List.append_nil]
        exact { hb with
          receiving := nofun
          kept := fun _ _ _ => .inr hmem
          done := fun d₁ h₁ _ => hnone d₁ h₁
          due := fun d₁ h₁ _ hsome => absurd hsome (by simp [hnone d₁ h₁])
          calling := nofun }
      · rw [hp]
        exact ⟨.rfl, fun _ => .rfl, by simp [State.goto, Point.completing, hl]⟩
    · rename_i intent hset
      split at hs
      · cases hs
        exact hskip
      · rename_i hstop
        exact h.attempt hp (h.ready hp hd hset hstop) hs

theorem callsOf_failed (notes : List Note) {rest : List Note}
    (hn : ∀ note ∈ rest, note.Silent lease) (error : SpiError) (elapsed : Nat)
    (decision : SettlementRetryDecision) :
    callsOf (notes ++ .failed lease error elapsed decision :: rest) lease = callsOf notes lease ∧
      failuresOf (notes ++ .failed lease error elapsed decision :: rest) lease =
        failuresOf notes lease ++ [⟨error, elapsed, decision⟩] := by
  rw [← List.singleton_append, ← List.append_assoc]
  refine ⟨(callsOf_silent hn).trans ?_, (failuresOf_silent hn).trans ?_⟩
  · rw [callsOf_append]
    exact List.append_nil _
  · rw [failuresOf_append]
    simp [failuresOf, Note.failure?]

/-- The provider returns. -/
theorem Budgets.settleReturned (h : Budgets ctx notes s) {started : MonotonicInstant}
    {attempt : Nat} (hp : s.point = .calling lease intent started attempt todo completed)
    (hd : s.owned.lookup lease = some d) (result : Except SpiError Unit) :
    After (Budgets ctx) notes
      (s.settleReturned ctx lease d intent started attempt todo completed result) := by
  have hb := h.leases lease
  have ha := hb.attempting d hd
  obtain ⟨d₁, h₁, hfirst, hsome, hlen, hretried⟩ := hb.calling started (by rw [hp]; rfl)
  obtain rfl : d₁ = d := Option.some.inj (h₁.symm.trans hd)
  have hclock := ha.past started hfirst
  have hin : d₁.inbound = none := by
    by_contra hne
    have := (hb.fresh d₁ hd (Option.isSome_iff_ne_none.2 hne)).1
    rw [this] at hsome
    cases hsome
  have hm : lease ∉ completed := by
    intro hm
    have := hb.done d₁ hd (by rw [hp]; exact hm)
    rw [this] at hsome
    cases hsome
  generalize hs : s.settleReturned ctx lease d₁ intent started attempt todo completed result = step
  have hf : Frame ctx lease s step.1 step.2 := hs ▸ frame_settleReturned ..
  have hr : Returned ctx s lease d₁ started todo completed result step.1 step.2 :=
    hs ▸ settleReturned_returned hclock result
  obtain ⟨notes', s'⟩ := step
  dsimp only at hf hr ⊢
  have hothers {p : Point} (hg : Goes lease completed p) (l : Nat) (hl : l ≠ lease) :
      s.point.Keeps l p := by
    refine hg.keeps hl (by rw [hp]; rfl) (by rw [hp]; rfl) fun t ht => ?_
    rw [hp] at ht
    exact hl (Prod.mk.inj (Option.some.inj ht)).1.symm
  cases hr with
  | settled =>
    refine h.about hf ?_ (hothers (goes_afterAttempt todo completed)) progress_afterAttempt
      (h.within.plain plain_nil)
    refine hb.attempted hf h.inv hd put_lookup hm hin ?_ ?_ nofun
    · simpa using hb.balanced
    · rw [List.append_nil]
      exact ha.unsettle
  | @retries error elapsed delay he hdec =>
    obtain ⟨hmay, -, hok⟩ := SettlementRetryState.afterError_retryAfter hdec
    have hback := SettlementRetryState.afterError_backoff hdec
    rw [ha.config] at hok hback
    rw [ha.attempts] at hback
    have hfok : FailureOk ctx.settlementRetry notes lease error elapsed delay :=
      ⟨hmay, hok, hback, hok.saturatingAdd⟩
    have hfailed : WithinBudget ctx.settlementRetry
        (notes ++ [.failed lease error elapsed (.retryAfter delay)]) := by
      refine h.within.snoc nofun ?_ nofun
      rintro l e el w heq
      cases heq
      exact hfok
    have hrest : ∀ note ∈ (if s.stopping then [] else [Note.waits lease elapsed delay]),
        note.Silent lease := by
      split
      · exact List.forall_mem_nil _
      · exact List.forall_mem_singleton.2 ⟨rfl, rfl⟩
    obtain ⟨hcalls, hfails⟩ := callsOf_failed notes hrest error elapsed (.retryAfter delay)
    refine h.about hf ?_ (hothers (goes_afterAttempt todo completed)) progress_afterAttempt ?_
    · refine hb.attempted hf h.inv hd put_lookup hm hin ?_ ?_ fun _ _ => ?_
      · rw [hcalls, hfails, List.length_append]
        exact Nat.le_of_eq hlen
      · rw [hcalls]
        refine ⟨ha.config, ha.attempts, fun hnil => ?_, ha.first, ha.past, ha.same⟩
        rw [hnil] at hlen
        cases hlen
      · rw [hcalls, hfails]
        refine ⟨⟨by rw [List.length_append]; exact hlen, fun failure hl => ?_⟩,
          fun failure hm => ?_⟩
        · rw [List.getLast?_append] at hl
          obtain rfl := Option.some.inj hl
          refine ⟨delay, rfl, hok, hok.saturatingAdd, fun t ht => ?_⟩
          obtain rfl : started = t := Option.some.inj (hfirst.symm.trans ht)
          exact Nat.le_of_eq he
        · rcases List.mem_append.1 hm with hm | hm
          · exact hretried failure hm
          · obtain rfl := List.mem_singleton.1 hm
            exact ⟨hmay, delay, rfl⟩
    · rw [← List.singleton_append, ← List.append_assoc]
      split
      · rwa [List.append_nil]
      · refine hfailed.snoc nofun nofun ?_
        rintro l e w heq
        cases heq
        exact hok
  | @stops error elapsed termination reason =>
    have hrest : Plain [Note.terminates] := plain_nil.cons rfl
    obtain ⟨hcalls, hfails⟩ :=
      callsOf_failed notes (hrest.silent lease) error elapsed (.stop termination)
    refine h.about hf ?_ (hothers (goes_afterAttempt todo completed)) progress_afterAttempt ?_
    · refine hb.attempted hf h.inv hd put_lookup hm hin ?_ ?_ fun _ hno => ?_
      · rw [hcalls, hfails, List.length_append]
        exact Nat.le_of_eq hlen
      · rw [hcalls]
        exact ⟨ha.config, ha.attempts, ha.untouched, ha.first, ha.past, ha.same⟩
      · cases hno
    · have hfailed : WithinBudget ctx.settlementRetry
          (notes ++ [.failed lease error elapsed (.stop termination)]) :=
          h.within.snoc nofun nofun nofun
      rw [← List.singleton_append, ← List.append_assoc]
      exact hfailed.plain hrest

/-! ## The ends -/

theorem Budgets.removeOne (h : Budgets ctx notes s)
    (hp : s.point = .removing (lease :: completed)) :
    After (Budgets ctx) notes ((s.goto (.removing completed)).removeOne lease) := by
  have hf : Frame ctx lease s _ ((s.goto (.removing completed)).removeOne lease).2 :=
    (frame_goto (.removing completed)).silent frame_removeOne
  have hleft : ((s.goto (.removing completed)).removeOne lease).2.point = .removing completed ∧
      ((s.goto (.removing completed)).removeOne lease).2.owned.lookup lease = none ∧
      ((s.goto (.removing completed)).removeOne lease).2.jobs = s.jobs ∧
      ((s.goto (.removing completed)).removeOne lease).2.channel = s.channel := by
    unfold State.removeOne
    split
    · rename_i hd
      exact ⟨rfl, hd, rfl, rfl⟩
    · dsimp only
      split
      · exact ⟨rfl, erase_lookup s lease, rfl, rfl⟩
      · exact ⟨rfl, erase_lookup s lease, rfl, rfl⟩
  obtain ⟨hpoint, hown, hjobs, hch⟩ := hleft
  refine h.about hf ((h.leases lease).unowned hf h.inv (plain_removeOne.silent lease) hown ?_ ?_ ?_)
    (fun l hl => ?_) (fun hg => ?_) (h.within.plain plain_removeOne)
  · rw [hjobs, State.inbox, hch]
    exact id
  · simp [hpoint, Point.receives]
  · simp [hpoint, Point.call]
  · rw [hpoint, hp]
    exact ⟨.rfl, fun _ => .rfl, by simp [Point.completing, hl]⟩
  · rw [hpoint] at hg
    cases hg

theorem Budgets.drainOne (h : Budgets ctx notes s) (hp : s.point = .recovering) :
    After (Budgets ctx) notes (s.drainOne ctx lease d) := by
  have hf : Frame ctx lease s (s.drainOne ctx lease d).1 (s.drainOne ctx lease d).2 :=
    frame_drainOne d
  have hleft : (s.drainOne ctx lease d).2.point = s.point ∧
      (s.drainOne ctx lease d).2.owned.lookup lease = none ∧
      (s.drainOne ctx lease d).2.jobs = s.jobs ∧
      (s.drainOne ctx lease d).2.channel = s.channel := by
    obtain ⟨counts, deliveries, ephemeral, heq, -⟩ :=
      countAbandoned_cases ctx { s with owned := s.owned.erase lease } lease 1
    simp only [State.drainOne, heq]
    split
    · exact ⟨rfl, erase_lookup s lease, rfl, rfl⟩
    · exact ⟨rfl, erase_lookup s lease, rfl, rfl⟩
  obtain ⟨hpoint, hown, hjobs, hch⟩ := hleft
  refine h.about hf ((h.leases lease).unowned hf h.inv (plain_drainOne.silent lease) hown ?_ ?_ ?_)
    (fun l _ => by rw [hpoint]; exact .refl l _) (fun hg => ?_) (h.within.plain plain_drainOne)
  · rw [hjobs, State.inbox, hch]
    exact id
  · simp [hpoint, hp, Point.receives]
  · simp [hpoint, hp, Point.call]
  · rw [hpoint, hp] at hg
    cases hg

/-! ## Receives -/

/-- A receive is reserved with a lease that is new. -/
theorem Budgets.reserve (h : Budgets ctx notes s) (hp : s.point = .reserving)
    (hr : (s.core.takeReceiveReservation ctx.subscriptionId).1 = some lease) :
    Budgets ctx (notes ++ [.claimed lease]) { s with
      core := ((s.core.takeReceiveReservation ctx.subscriptionId).2.recordOwnedStart lease
        s.clock).setDispatchActive ctx.subscriptionId false
      point := .receiving lease } := by
  obtain ⟨hnc, hc, -⟩ := takeReceiveReservation_some h.inv hr
  have hb := h.leases lease
  have hi₀ := h.inv.step (.takeReceiveReservation ctx.subscriptionId)
  have hstart : Frame ctx lease { s with
      core := (s.core.takeReceiveReservation ctx.subscriptionId).2 } [] _ := frame_started _
  have hclaim := (hstart.core hi₀).claimed lease hc
  have hplain : Plain [Note.claimed lease] := plain_nil.cons rfl
  have hcalls : callsOf (notes ++ [.claimed lease]) lease = callsOf notes lease :=
    callsOf_silent (hplain.silent lease)
  -- nothing was known about the lease
  have hnone : callsOf notes lease = [] ∧ s.owned.lookup lease = none ∧ s.inbox lease = [] ∧
      s.jobs.lookup lease = none := by
    refine ⟨?_, ?_, ?_, ?_⟩
    · by_contra hne
      exact hnc (hb.claimed (.inl hne))
    · by_contra hne
      exact hnc (hb.claimed (.inr (.inl hne)))
    · by_contra hne
      exact hnc (hb.claimed (.inr (.inr (.inl hne))))
    · by_contra hne
      exact hnc (hb.claimed (.inr (.inr (.inr hne))))
  have hno (d : OwnedSyncDelivery) : s.owned.lookup lease ≠ some d := by
    rw [hnone.2.1]
    nofun
  refine h.about (frame_reserve hr) ?_ (fun l hl => ?_) nofun (h.within.plain hplain)
  · refine ⟨fun _ => hclaim, fun _ => ⟨hclaim, hcalls.trans hnone.1, hnone.2⟩, ?_,
      fun d hd => absurd hd (hno d), fun d hd => absurd hd (hno d), fun d hd => absurd hd (hno d),
      fun d hd => absurd hd (hno d), nofun, fun d hd => absurd hd (hno d)⟩
    rw [hcalls, failuresOf_silent (hplain.silent lease)]
    exact hb.balanced
  · rw [hp]
    exact ⟨by simp [Point.receives, Ne.symm hl], fun _ => .rfl, .rfl⟩

/-- A received message is owned, and no call was made for it. -/
theorem Budgeted.opened (h : Budgeted ctx notes s lease) (hp : s.point = .receiving lease)
    (hf : Frame ctx lease s notes' s') (hi : Inv s.core) (hn : Plain notes')
    (hp' : s'.point = .messages)
    {inbound : Option (InboundMessage × Except CodecError NativePayload)}
    (hd : s'.owned.lookup lease = some (.new ctx.settlementRetry inbound))
    (hfresh : inbound.isSome → s'.inbox lease = [] ∧ s'.jobs.lookup lease = none) :
    Budgeted ctx (notes ++ notes') s' lease := by
  obtain ⟨hclaim, hnil, -⟩ := h.receiving (by rw [hp]; rfl)
  have hcalls : callsOf (notes ++ notes') lease = [] :=
    (callsOf_silent (hn.silent lease)).trans hnil
  have hfails : failuresOf (notes ++ notes') lease = [] := by
    rw [failuresOf_silent (hn.silent lease)]
    have := h.balanced
    rw [hnil] at this
    exact List.length_eq_zero_iff.1 (Nat.le_zero.1 this)
  have hown (d : OwnedSyncDelivery) (h₁ : s'.owned.lookup lease = some d) :
      d = .new ctx.settlementRetry inbound := Option.some.inj (h₁.symm.trans hd)
  constructor
  · exact fun _ => (hf.core hi).claimed lease hclaim
  · rw [hp']
    nofun
  · rw [hcalls, hfails]
    exact Nat.le_refl 0
  · intro d h₁
    obtain rfl := hown d h₁
    rw [hcalls]
    exact ⟨rfl, rfl, fun _ => ⟨rfl, rfl⟩, nofun, nofun, nofun⟩
  · rw [hcalls]
    exact fun _ _ hne => absurd rfl hne
  · rw [hp']
    exact fun _ _ hm => absurd hm List.not_mem_nil
  · intro d h₁ _ hs
    obtain rfl := hown d h₁
    cases hs
  · rw [hp']
    nofun
  · intro d h₁ hin
    obtain rfl := hown d h₁
    exact ⟨rfl, rfl, hfresh hin⟩

/-- A message is owned as it is received, or as one that is rejected; otherwise nothing is left of
the receive. -/
theorem receiveReturned_cases (tick : Tick) :
    ((s.receiveReturned ctx tick lease).2.owned = s.owned ∧
      (s.receiveReturned ctx tick lease).2.jobs = s.jobs ∧
      (s.receiveReturned ctx tick lease).2.channel = s.channel) ∨
    ∃ inbound, (s.receiveReturned ctx tick lease).2.owned.lookup lease =
        some (.new ctx.settlementRetry inbound) ∧
      (inbound.isSome → (s.receiveReturned ctx tick lease).2.jobs = s.jobs ∧
        (s.receiveReturned ctx tick lease).2.channel = s.channel) := by
  unfold State.receiveReturned
  dsimp only
  split
  · rename_i message hmsg
    split
    · split
      · refine .inl ?_
        simp only [State.countAbandoned]
        split <;> exact ⟨rfl, rfl, rfl⟩
      · refine .inr ⟨none, ?_, (by simp)⟩
        have htold := @told_perform ctx (((s.onCore fun core =>
            core.setDispatchActive ctx.subscriptionId true).goto .messages).put lease
              (.new ctx.settlementRetry none)) lease
          (settleRejected ctx lease message.settlement message.id message.topic.value)
        exact (congrArg (Finmap.lookup lease) htold.owned).trans put_lookup
    · exact .inr ⟨_, put_lookup, fun _ => ⟨rfl, rfl⟩⟩
  · exact .inl ⟨rfl, rfl, rfl⟩
  · exact .inl ⟨rfl, rfl, rfl⟩
  · split <;> exact .inl ⟨rfl, rfl, rfl⟩
  · exact .inl ⟨rfl, rfl, rfl⟩

theorem Budgets.receive (h : Budgets ctx notes s) (hp : s.point = .receiving lease) (tick : Tick) :
    After (Budgets ctx) notes (s.receiveReturned ctx tick lease) := by
  have hf :
      Frame ctx lease s (s.receiveReturned ctx tick lease).1 (s.receiveReturned ctx tick lease).2 :=
    frame_receiveReturned tick
  have hpoint : (s.receiveReturned ctx tick lease).2.point = .messages := receiveReturned_point tick
  have hn : Plain (s.receiveReturned ctx tick lease).1 := plain_receiveReturned tick
  have hb := h.leases lease
  obtain ⟨-, -, hnone, hin, hjob⟩ := hb.receiving (by rw [hp]; rfl)
  refine h.about hf ?_ (fun l hl => ?_) (fun hg => ?_) (h.within.plain hn)
  · rcases receiveReturned_cases tick with ⟨hown, hjobs, hch⟩ | ⟨inbound, hd, hkeep⟩
    · refine hb.unowned hf h.inv (hn.silent lease) (by rw [hown, hnone]) ?_ (by rw [hpoint]; nofun)
        (by rw [hpoint]; nofun)
      rw [hjobs, State.inbox, hch]
      exact id
    · refine hb.opened hp hf h.inv hn hpoint hd fun hsome => ?_
      obtain ⟨hjobs, hch⟩ := hkeep hsome
      rw [hjobs, State.inbox, hch]
      exact ⟨hin, hjob⟩
  · rw [hpoint, hp]
    exact ⟨by simp [Point.receives, Ne.symm hl], fun _ => .rfl, .rfl⟩
  · rw [hpoint] at hg
    cases hg

/-! ## The loop -/

/-- A move between two points that no settlement notices. -/
theorem Budgets.moves (h : Budgets ctx notes s) (hp : s.point = p) (hm : p.Moves p') :
    Budgets ctx notes (s.goto p') := by
  refine h.goto p' (fun l => ?_) fun hg => h.progress (by rw [hp]; exact hm.progress hg)
  rw [hp]
  exact ⟨by rw [hm.receives], fun t => by rw [hm.call], by rw [hm.completing]⟩

theorem Budgets.ends (h : Budgets ctx notes s) (hp : s.point = p) (hr : p'.receives = p.receives)
    (hc : p'.call = p.call) (hm : p'.completing = p.completing) (hg : p'.progress = false) :
    Budgets ctx notes (s.goto p') := by
  refine h.goto p' (fun l => ?_) (by simp [hg])
  rw [hp]
  exact ⟨by rw [hr], fun t => by rw [hc], by rw [hm]⟩

theorem Budgets.fence (h : Budgets ctx notes s) (hp : s.point = .fencing) :
    Budgets ctx notes ({ s with
      receiveClosed := true, stopPublished := true
      point := .cleaning s.owned.keys }.cancelSubscription ctx) := by
  have h' : Budgets ctx notes { s with receiveClosed := true, stopPublished := true } := h.flags ..
  have h₁ := h'.idle
    (fun _ => (frame_goto (.cleaning s.owned.keys)).then frame_cancelSubscription) plain_nil
    (fun l => ?_) (by simp [State.cancelSubscription, State.goto, Point.progress])
  · rwa [List.append_nil] at h₁
  · rw [show State.point _ = _ from hp]
    exact ⟨.rfl, fun _ => .rfl, .rfl⟩

/-! ## Everybody else -/

/-- A job of the pool: its delivery has been looked at. -/
theorem Budgets.job (h : Budgets ctx notes s) {job : Job} (hj : s.jobs.lookup lease = some job)
    (hf : Frame ctx lease s [] s') (hown : s'.owned = s.owned) (hp : s'.point = s.point)
    (ht : s'.terminalFailure = s.terminalFailure) : Budgets ctx notes s' := by
  have hb := h.leases lease
  have hne : s.jobs.lookup lease ≠ none := by
    rw [hj]
    nofun
  have hkeep (l : Nat) : s.point.Keeps l s'.point := by
    rw [hp]
    exact .refl l _
  have := h.about hf ?_ (fun l _ => hkeep l) (by rw [hp, ht]; exact h.progress)
    (h.within.plain plain_nil)
  · rwa [List.append_nil] at this
  · cases hd : s.owned.lookup lease with
    | none =>
      refine hb.unowned hf h.inv (List.forall_mem_nil _) (by rw [hown, hd])
        (fun _ => .inr hne) ?_ ?_
      · rw [hp]
        exact fun hr => hne (hb.receiving hr).2.2.2.2
      · rw [hp]
        intro t hc
        obtain ⟨d, hd', -⟩ := hb.calling t hc
        rw [hd] at hd'
        cases hd'
    | some d =>
      exact hb.untouched hf h.inv (List.forall_mem_nil _) (hkeep lease) (.inr rfl) hd
        (by rw [hown, hd]) (.refl d) fun hsome => absurd (hb.fresh d hd hsome).2.2.2 hne

/-- The clock goes on. -/
theorem Budgets.tick (h : Budgets ctx notes s) (hn : now.NotBefore s.clock) :
    Budgets ctx notes { s with clock := now } := by
  refine { h with leases := fun l => ?_ }
  have hb := h.leases l
  refine { hb with
    attempting := fun d hd => ?_
    due := fun d hd hc hs ht => ?_ }
  · have ha := hb.attempting d hd
    exact { ha with past := fun t ht => hn.trans (ha.past t ht) }
  · obtain ⟨hdue, hretried⟩ := hb.due d hd hc hs ht
    refine ⟨⟨hdue.failed, fun failure hl => ?_⟩, hretried⟩
    obtain ⟨delay, hdec, hok, hnext, hpast⟩ := hdue.last failure hl
    refine ⟨delay, hdec, hok, hnext, fun t ht => Nat.le_trans (hpast t ht) ?_⟩
    exact Nat.sub_le_sub_right hn.2 t.elapsed

/-- Another user of the scheduler. -/
theorem Budgets.foreign (h : Budgets ctx notes s) (op : Scheduler.Op) :
    Budgets ctx notes { s with core := Scheduler.step s.core op } := by
  have ht := h.inv.took op
  refine { h with inv := h.inv.step op, leases := fun l => ?_ }
  have hb := h.leases l
  exact { hb with
    claimed := fun hc => ht.claimed h.inv (hb.claimed hc)
    receiving := fun hr => ⟨ht.claimed h.inv (hb.receiving hr).1, (hb.receiving hr).2⟩ }

theorem Budgets.carried : Carried ctx (fun _ => True) (Budgets ctx) where
  moves h := h.moves
  op _ h hop := h.op _ hop
  flags _ _ _ _ _ _ _ h := h.flags ..
  deliver h hp hc := h.deliver hp hc
  sample h hp _ := h.ends hp rfl rfl rfl rfl
  fence h := h.fence
  prepareStopping h := h.prepareStopping
  check h hp hno := h.goto _ (fun l => by rw [hp]; exact ⟨.rfl, fun _ => .rfl, .rfl⟩) fun _ => hno
  finishOne h hp hd hs := h.finishOne hp hd hs
  grant h := h.grant
  settleOne h := h.settleOne
  settleReturned _ h hp hd := h.settleReturned hp hd _
  removeOne h := h.removeOne
  close h hp _ := h.ends hp rfl rfl rfl rfl
  dispatch h hp _ hd hs := h.dispatch hp hd hs
  failReceive _ h := h.failReceive _
  reserve h := h.reserve
  receive _ h hp := h.receive hp _
  leave h hp _ hl := by
    rcases hl with ⟨rfl, rfl⟩ | ⟨rfl, rfl⟩
    · exact h.ends hp rfl rfl rfl rfl
    · exact h.ends hp rfl rfl rfl rfl
  drainOne h hp _ := h.drainOne hp
  jobReports job' h hj hm := by
    refine h.job hj ((frame_job job').then (frame_send fun m hmem => ?_)) rfl rfl rfl
    obtain ⟨outcome, directive, rfl⟩ := hm m hmem
    rfl
  jobExits h hj := h.job hj frame_jobExits rfl rfl rfl
  cancelSubscription h := by
    have := h.idle (fun _ => frame_cancelSubscription) plain_nil (fun l => .refl l _) h.progress
    rwa [List.append_nil] at this
  tick h := h.tick
  foreign h _ := h.foreign _

/-! ## Runs -/

/-- Before the owner starts. -/
theorem budgets_new (ctx : OwnerContext) {core : DeliverySchedulerState} (hi : Inv core)
    (clock : MonotonicInstant) : Budgets ctx [] (.new core clock) where
  inv := hi
  leases l := by
    have hnone (d : OwnedSyncDelivery) : (State.new core clock).owned.lookup l ≠ some d := nofun
    refine ⟨?_, nofun, Nat.le_refl 0, fun d hd => absurd hd (hnone d),
      fun d hd => absurd hd (hnone d), fun d hd => absurd hd (hnone d),
      fun d hd => absurd hd (hnone d), nofun, fun d hd => absurd hd (hnone d)⟩
    rintro (h | h | h | h) <;> exact absurd rfl h
  progress := nofun
  terminated := nofun
  within := by
    refine ⟨fun _ => Nat.zero_le _, fun pre _ _ _ h => ?_, fun pre _ _ _ _ _ h => ?_, nofun⟩
    · simp at h
    · simp at h

/-- **The settlement budget.** In every run in which the clock goes forward, each call of the
provider's `settle` and each delay between two of them is within the budget of its delivery, and the
counter of a delivery's attempts does not overflow. -/
theorem owner_settles_within_budget (ctx : OwnerContext) (config : DeliverySchedulingConfig)
    (ops : List Scheduler.Op) (clock : MonotonicInstant) {actions : List Action}
    (hc : Meets (State.step ctx) Forward (.new (exec Scheduler.step (.new config) ops) clock)
      actions)
    {rs : List (List Note)}
    (h : trace (State.step ctx) (.new (exec Scheduler.step (.new config) ops) clock) actions =
      some (rs, s)) :
    WithinBudget ctx.settlementRetry rs.flatten ∧
      ∀ lease d, s.owned.lookup lease = some d →
        d.retry.attempts ≤ ctx.settlementRetry.maxAttempts.val ∧
        ∀ intent todo completed,
          (s.attemptSettlement ctx lease d intent todo completed).isSome := by
  have hb : Budgets ctx rs.flatten s :=
    trace_flatten (I := Budgets ctx)
      (fun _ _ _ _ _ hj hc hs => Budgets.carried.step hj (fun _ _ _ => trivial) hc hs)
      (budgets_new ctx (exec_inv (inv_new config) ops) clock) hc h
  refine ⟨hb.within, fun lease d hd => ⟨?_, fun intent todo completed => ?_⟩⟩
  · have ha := (hb.leases lease).attempting d hd
    rw [ha.attempts]
    exact hb.within.attempts lease
  · obtain ⟨notes, s', heq, -⟩ :=
      attemptSettlement_attempted ((hb.leases lease).attempting d hd).past
    rw [heq]
    rfl

/-- The first call that settles a message fails; it is repeated ten milliseconds later, at the
earliest time that the policy allows. -/
theorem owner_settles_within_budget_retry :
    let ctx : OwnerContext := ⟨"local", .acceptOnly, .ephemeral, .default, ⟨1⟩, ⟨"subscriber"⟩,
      "topic", false, .continue, false, .strict⟩
    let message : InboundMessage := ⟨⟨"topic"⟩, ⟨"id"⟩, 0, ∅, none, .native ⟨⟨0⟩, 0⟩,
      some ⟨⟨1⟩, .foreign ⟨0⟩⟩⟩
    let busy : SpiError := .operation "local" "settle" none "busy" (some true) "busy"
    let actions :=
      List.replicate 13 (.owner { pick := 1, received := .returned (.ok (.message message)) }) ++
      List.replicate 14 (.owner { pick := 1 }) ++
      [.jobStarts 1, .jobReports 1 .succeeds [], .jobExits 1] ++
      List.replicate 35 (.owner { pick := 1, settled := .returned (.error busy) }) ++
      .clock ⟨0, 10 * 10 ^ 6⟩ :: List.replicate 30 (.owner { pick := 1 })
    let run := trace (State.step ctx) (.new (exec Scheduler.step (.new .default) [.register ⟨1⟩])
      ⟨0, 0⟩) actions
    run.any (fun t => (callsOf t.1.flatten 1).map (·.startedAt) == [⟨0, 0⟩, ⟨0, 10 * 10 ^ 6⟩]) ∧
      ∀ rs s, run = some (rs, s) → WithinBudget ctx.settlementRetry rs.flatten := by
  intro ctx message busy actions run
  have hrun : run.any
      (fun t => (callsOf t.1.flatten 1).map (·.startedAt) == [⟨0, 0⟩, ⟨0, 10 * 10 ^ 6⟩]) := by
    decide +kernel
  refine ⟨hrun, fun rs s h => ?_⟩
  exact (owner_settles_within_budget ctx .default [.register ⟨1⟩] ⟨0, 0⟩ (by decide +kernel) h).1

end

end EventBus.Delivery
