import EventBus.Delivery.Turns
import EventBus.Delivery.SettleStep
import EventBus.Lib.Trace

/-!
# Every delivery is accounted for once

`Accounted` (`Stages.lean`) is kept by every step of a run (`Accounted.carried`): by the owner,
point by point, by the jobs of the pool, by the clock and by the other users of the scheduler. An
owner that has left owns nothing, so that each lease it claimed has been given back, and each
message it received has been counted (`owner_accounts_once`). It has taken no lease that it did not
claim, so that the scheduler has no lease of its that is not a reservation still to be claimed
(`owner_gives_back`).
-/

namespace EventBus.Delivery

open Lib Scheduler

section
variable {core : DeliverySchedulerState} {clock started : MonotonicInstant}
  {todo todo' : Finset Nat} {completed : List Nat} {intent : SettlementIntent} {p p' : Point}
  {ctx : OwnerContext} {notes notes' : List Note} {s s' : State} {lease : Nat} {stage : Stage}
  {d : OwnedSyncDelivery}

/-! ## Moves -/

/-- The loop goes on to another point. -/
theorem Accounted.goto (h : Accounted ctx notes s) (p : Point)
    (hplace : ∀ l stage, Lives ctx notes s l stage → stage.At s.clock p l)
    (hclean : ∀ todo, p = .cleaning todo → Stopped s.core ctx.subscriptionId) :
    Accounted ctx notes (s.goto p) := by
  have hf (lease : Nat) : Frame ctx lease s [] (s.goto p) := frame_goto p
  have := h.idle hf hplace hclean
  rwa [List.append_nil] at this

theorem Accounted.moves (h : Accounted ctx notes s) (hp : s.point = p) (hm : p.Moves p') :
    Accounted ctx notes (s.goto p') := by
  refine h.goto p' (fun l stage hst => hst.place.leads (by rw [hp]; exact hm.leads l))
    fun todo ht => ?_
  obtain ⟨todo', rfl⟩ := hm.cleaning (by rw [ht]; rfl)
  exact h.cleaning todo' hp

theorem Lives.same (h : Lives ctx notes s lease stage) :
    ∃ stage', Lives ctx (notes ++ []) s lease stage' :=
  ⟨stage, by rwa [List.append_nil]⟩

theorem Lives.waits (h : Lives ctx notes s lease stage) :
    stage.mayWait = true ∨ Ungranted ctx s lease := by
  cases hm : stage.mayWait with
  | true => exact .inl rfl
  | false => exact .inr (h.ungranted hm)

/-! ## Stopping -/

/-- What is not started when the owner stops is given back or lost. -/
theorem Lives.prepareStopping (he : ctx.durability = .ephemeral) (h : Lives ctx notes s lease stage)
    (hi : Inv s.core) (hp : s.point = .cleaning todo) (hst : Stopped s.core ctx.subscriptionId)
    (hd : s.owned.lookup lease = some d) :
    ∃ stage', Lives ctx (notes ++ (s.prepareStopping ctx lease d).1)
      (s.prepareStopping ctx lease d).2 lease stage' := by
  have hf : Frame ctx lease s (s.prepareStopping ctx lease d).1 (s.prepareStopping ctx lease d).2 :=
    frame_prepareStopping d
  have hu : Ungranted ctx s lease := fun _ => hst
  have ha := h.place.allowed
  rw [hp] at ha
  obtain ⟨hfit, hint⟩ := h.fits hd
  cases stage with
  | fresh =>
    obtain ⟨-, -, hjob, hin⟩ := h.idle rfl
    obtain ⟨⟨m, p, hinb, htok⟩, hdel, hnone, hdue, hres, hrun, hset, hh, hab⟩ := hfit
    simp only [State.prepareStopping, hinb, countAbandoned_eq he] at hf ⊢
    by_cases ht : s.terminalFailure.isNone
    · simp only [if_pos ht] at hf ⊢
      by_cases hr : m.settlement.isSome ∧ ctx.settlement = .acceptRetryReject
      · simp only [if_pos hr] at hf ⊢
        refine ⟨.decided false true, h.become hf hi rfl (holds_put ?_ hint rfl rfl) ⟨hjob, hin⟩
          (at_point hp Stage.decided_allowedAt (by simp) rfl) (.inr hu) (by simp) (by simp)⟩
        · exact ⟨rfl, hdue, hres, hrun, rfl, fun intent he => Option.some.inj he ▸ htok, rfl, rfl⟩
      · simp only [if_neg hr] at hf ⊢
        refine ⟨.decided true true, h.become hf hi ?_ (holds_put ?_ hint rfl rfl) ⟨hjob, hin⟩
          (at_point hp Stage.decided_allowedAt (by simp) rfl) (.inr hu) (by simp) (by simp)⟩
        · exact congrArg _ (tally_lossNotes true)
        · exact ⟨rfl, hdue, hres, hrun, rfl, (by simp), rfl, rfl⟩
    · simp only [if_neg ht] at hf ⊢
      refine ⟨.forgotten, h.become hf hi ?_ (holds_put ?_ hint rfl rfl) ⟨hjob, hin⟩
        (at_point hp ⟨rfl, List.not_mem_nil⟩ (by simp) rfl) (.inr hu) (fun _ => ?_) (by simp)⟩
      · exact congrArg _ (tally_lossNotes true)
      · exact ⟨rfl, hdel, hnone, hdue, hres, hset, hab⟩
      · show s.terminalFailure.isSome
        simpa [Option.isSome_iff_ne_none] using ht
  | resting due =>
    obtain ⟨-, -, hjob, hin⟩ := h.idle rfl
    obtain ⟨hinb, hdel, htok, -, hres, hrun, hset, hab⟩ := hfit
    obtain ⟨event, hdel⟩ := Option.isSome_iff_exists.1 hdel
    simp only [State.prepareStopping, hinb, hdel, hrun, hab, hres, hset, countAbandoned_eq he,
      Bool.false_eq_true, Option.isSome_none, or_self, if_false] at hf ⊢
    split at hf
    · rename_i hr
      simp only [if_pos hr] at hf ⊢
      refine ⟨.decided false true, h.become hf hi rfl (holds_put ?_ hint rfl rfl) ⟨hjob, hin⟩
        (at_point hp Stage.decided_allowedAt (by simp) rfl) (.inr hu) (by simp) (by simp)⟩
      · exact ⟨rfl, rfl, rfl, rfl, rfl, fun intent he => Option.some.inj he ▸ htok, rfl, rfl⟩
    · rename_i hr
      simp only [if_neg hr] at hf ⊢
      refine ⟨.decided true true, h.become hf hi ?_ (holds_put ?_ hint rfl rfl) ⟨hjob, hin⟩
        (at_point hp Stage.decided_allowedAt (by simp) rfl) (.inr hu) (by simp) (by simp)⟩
      · exact congrArg _ (tally_lossNotes true)
      · exact ⟨rfl, rfl, rfl, rfl, rfl, (by simp), rfl, rfl⟩
  | running =>
    rw [prepareStopping_skip hfit.1 (.inr (.inl hfit.2.2.2.2.1))]
    exact h.same
  | done =>
    rw [prepareStopping_skip hfit.1 (.inr (.inr (.inr (.inl hfit.2.2.2.2.1))))]
    exact h.same
  | decided lost finished =>
    obtain ⟨hinb, -, -, -, hset, -, -, hab⟩ := hfit
    rw [prepareStopping_skip hinb ?_]
    · exact h.same
    · cases lost with
      | true => exact .inr (.inr (.inl hab))
      | false => exact .inr (.inr (.inr (.inr (by simpa [Option.isSome_iff_ne_none] using hset))))
  | forgotten =>
    rw [prepareStopping_skip hfit.1 (.inl hfit.2.1)]
    exact h.same
  | deciding lost rejected => cases ha.1
  | settled => cases ha
  | _ => cases hfit

theorem Accounted.prepareStopping (he : ctx.durability = .ephemeral) (h : Accounted ctx notes s)
    (hp : s.point = .cleaning todo) (hd : s.owned.lookup lease = some d) :
    After (Accounted ctx) notes (s.prepareStopping ctx lease d) := by
  have hst := h.cleaning todo hp
  have hf : Frame ctx lease s _ (s.prepareStopping ctx lease d).2 := frame_prepareStopping d
  exact h.about hf (fun stage hl => hl.prepareStopping he h.inv hp hst hd)
    (fun l _ => by rw [prepareStopping_point]; exact .refl l _)
    fun _ _ => (hf.core h.inv).stopped hst

/-! ## Finished attempts -/

/-- A delivery that waits for the time of its retry is woken or stays. -/
theorem Lives.wakeDue (h : Lives ctx notes s lease stage)
    (hs : stage = .resting true ∨ d.due = none) (hi : Inv s.core)
    (hd : s.owned.lookup lease = some d) (retryCancelled : Bool) :
    ∃ stage', Lives ctx notes (s.wakeDue ctx lease d retryCancelled) lease stage' := by
  have hf : Frame ctx lease s [] (s.wakeDue ctx lease d retryCancelled) :=
    frame_wakeDue d retryCancelled
  unfold State.wakeDue at hf ⊢
  split at hf
  · exact ⟨stage, h⟩
  · rename_i due hdue
    split at hf
    · rename_i hst
      rw [if_pos hst]
      exact ⟨stage, h⟩
    · rename_i hst
      rw [if_neg hst]
      split at hf
      · rename_i hw
        rw [if_pos hw]
        obtain rfl : stage = .resting true := hs.resolve_right (by rw [hdue]; nofun)
        obtain ⟨⟨hinb, hdel, htok, -, hres, hrun, hset, hab⟩, hint⟩ := h.fits hd
        have hplace : (Stage.resting false).At s.clock s.point lease :=
          ⟨h.place.receiving.trans (by simp), fun t ht => absurd (h.place.calling t ht).1 nofun,
            trivial, h.place.exited⟩
        obtain ⟨-, -, hjob, hin⟩ := h.idle rfl
        have hwoken : Lives ctx (notes ++ []) _ lease (.resting false) := h.become hf hi rfl
          (holds_put ⟨hinb, hdel, htok, rfl, hres, hrun, hset, hab⟩ hint rfl rfl)
          ⟨hjob, hin⟩ hplace (.inl rfl) (by simp) (by simp)
        rw [List.append_nil] at hwoken
        exact ⟨_, hwoken⟩
      · rename_i hw
        rw [if_neg hw]
        exact ⟨stage, h⟩

/-- Only a delivery with a result is done with its handler. -/
theorem Stage.Fits.done (hfit : stage.Fits d) (hh : d.handlerFinished = true)
    (hres : d.result.isSome) (hs : stage ≠ .settled) : stage = .done := by
  have hne : d.result ≠ none := Option.isSome_iff_ne_none.1 hres
  cases stage with
  | done => rfl
  | settled => exact absurd rfl hs
  | fresh => exact absurd hfit.2.2.2.2.1 hne
  | resting due => exact absurd hfit.2.2.2.2.1 hne
  | running => simp [hfit.2.2.2.2.2.2.1] at hh
  | deciding lost rejected => exact absurd hfit.2.2.1 hne
  | decided lost finished => exact absurd hfit.2.2.1 hne
  | forgotten => exact absurd hfit.2.2.2.2.1 hne
  | _ => cases hfit

/-- Only a delivery that waits for the time of its retry has one. -/
theorem Stage.Fits.due (hfit : stage.Fits d) (hs : stage ≠ .settled) :
    stage = .resting true ∨ d.due = none := by
  cases stage with
  | resting due =>
    cases due with
    | true => exact .inl rfl
    | false => exact .inr (by simpa using hfit.2.2.2.1)
  | settled => exact absurd rfl hs
  | fresh => exact .inr hfit.2.2.2.1
  | running => exact .inr hfit.2.2.2.1
  | done => exact .inr hfit.2.2.2.1
  | deciding lost rejected => exact .inr hfit.2.1
  | decided lost finished => exact .inr hfit.2.1
  | forgotten => exact .inr hfit.2.2.2.1
  | _ => cases hfit

theorem Lives.finishOne (he : ctx.durability = .ephemeral) (h : Lives ctx notes s lease stage)
    (hi : Inv s.core) (hp : s.point = .finishing todo) (hd : s.owned.lookup lease = some d)
    {tick : Tick} (hs : s.finishOne ctx tick lease d = some (notes', s')) :
    ∃ stage', Lives ctx (notes ++ notes') s' lease stage' := by
  have hf : Frame ctx lease s notes' s' := frame_finishOne hs
  have hsettled : stage ≠ .settled := by
    rintro rfl
    have ha := h.place.allowed
    rw [hp] at ha
    cases ha
  obtain ⟨hfit, hint⟩ := h.fits hd
  rcases finishOne_cases hs with ⟨hh, hres, hcase⟩ | ⟨-, rfl, rfl⟩
  · obtain rfl := hfit.done hh hres hsettled
    obtain ⟨hinb, hdel, htok, hdue, -, hrun, hset, hh, hab⟩ := hfit
    obtain ⟨-, -, hjob, hin⟩ := h.idle rfl
    have hcalm : Calm ctx s lease := ⟨hi, hjob, hin, h.ungranted rfl⟩
    rcases hcase with ⟨d', result, s₁, hr, hfin, rfl⟩ | ⟨d', due, hr, rfl, rfl⟩
    · have hdue' : d'.finished.due = none := hr.due.trans hdue
      rw [wakeDue_none hdue'] at hf ⊢
      obtain ⟨lost, ht⟩ := turn_finishAttempt he hcalm
        ⟨hr.inbound.trans hinb, hr.delivery ▸ hdel, hr.token ▸ htok, by rw [hr.due, hdue]; rfl,
          hr.result, hr.running.trans hrun, hr.settlement.trans hset, hr.abandoned.trans hab⟩
        ⟨hr.lifecycleFailed.trans hint.lifecycle, hr.firstAttempt ▸ hint.first⟩ hfin
      exact ⟨.deciding lost false, h.turn rfl hf hi ht
        (at_point (ht.point.trans hp) ⟨rfl, rfl, List.not_mem_nil, nofun⟩ (by simp) rfl) nofun⟩
    · have hf₁ : Frame ctx lease s [] ((s.put lease d').onCore fun core =>
        core.finishAttemptWaiting lease) := (frame_put d').then frame_finishAttemptWaiting
      have hcalm' := hcalm.op (.finishAttemptWaiting lease) rfl
      have h₁ : Lives ctx (notes ++ []) _ lease (.resting true) := h.become hf₁ hi rfl
        (holds_put ?_ hint hr.lifecycleFailed hr.firstAttempt) ⟨hjob, hin⟩
        (at_point hp trivial (by simp) rfl) (.inr hcalm'.ungranted) (by simp) (by simp)
      · exact h₁.wakeDue (.inl rfl) (hf₁.core hi).inv put_lookup tick.retryCancelled
      · exact ⟨hr.inbound.trans hinb, hr.delivery ▸ hdel, hr.token ▸ htok, by rw [hr.due]; rfl,
          hr.result, hr.running.trans hrun, hr.settlement.trans hset, hr.abandoned.trans hab⟩
  · rw [List.append_nil]
    exact h.wakeDue (hfit.due hsettled) hi hd tick.retryCancelled

theorem Accounted.finishOne (he : ctx.durability = .ephemeral) (h : Accounted ctx notes s)
    (hp : s.point = .finishing todo) (hd : s.owned.lookup lease = some d) {tick : Tick}
    (hs : s.finishOne ctx tick lease d = some (notes', s')) :
    Accounted ctx (notes ++ notes') s' := by
  have hpoint := finishOne_point hs
  refine h.about (frame_finishOne hs) (fun stage hl => hl.finishOne he h.inv hp hd hs)
    (fun l _ => by rw [hpoint]; exact .refl l _) fun todo ht => ?_
  rw [hpoint, hp] at ht
  cases ht

/-! ## Settlements -/

/-- A granted settlement. -/
theorem Accounted.grant (h : Accounted ctx notes s) (hp : s.point = .granting)
    (hd : s.owned.lookup lease = some d) :
    Accounted ctx notes ({ s with core := (s.core.takeSettlementReady ctx.subscriptionId).2 }.put
      lease { d with settlementGranted := true }) := by
  have hf₀ : Frame ctx lease s []
      { s with core := (s.core.takeSettlementReady ctx.subscriptionId).2 } :=
    frame_plain (.takeSettlementReady ctx.subscriptionId) rfl
  have hf := hf₀.then (frame_put { d with settlementGranted := true })
  have := h.about hf (fun stage hl => ?_) (fun l _ => .refl l _) fun todo ht => ?_
  · rwa [List.append_nil] at this
  · obtain ⟨hfit, hint⟩ := hl.fits hd
    have hu : stage.mayWait = true ∨ Ungranted ctx
        { s with core := (s.core.takeSettlementReady ctx.subscriptionId).2 } lease :=
      hl.waits.imp_right fun hu => hu.op h.inv (.takeSettlementReady ctx.subscriptionId) rfl rfl
    refine ⟨stage, hl.become hf h.inv rfl (holds_put ?_ hint rfl rfl) hl.inbox hl.place hu
      hl.forgotten ?_⟩
    · cases stage <;> exact hfit
    · rintro rfl
      cases hfit
  · have ht : s.point = .cleaning todo := ht
    rw [hp] at ht
    cases ht

theorem Goes.leads {l : Nat} (h : Goes lease completed p') (hl : l ≠ lease) (hr : p.receives = none)
    (hc : p.completing = completed) (hg : p.progress = true) : p.Leads l p' := by
  have hm : p.isMessages = false := by
    cases p with
    | messages => cases hg
    | _ => rfl
  refine ⟨?_, fun t ht => ?_, ?_, fun _ => ?_, ?_, fun _ => ?_, fun he => ?_, ?_⟩
  · rw [hr]
    cases h <;> exact .rfl
  · cases h with
    | calls intent started attempt todo => exact absurd (Prod.mk.inj (Option.some.inj ht)).1.symm hl
    | _ => cases ht
  · rw [hc]
    cases h with
    | on todo hc' => exact mem_completed_iff hl hc'
    | out hc' => exact mem_completed_iff hl hc'
    | calls => exact .rfl
  · cases h <;> rfl
  · simp [hg]
  · cases h <;> rfl
  · cases h <;> cases he
  · simp [hm]

/-- The delivery is looked at again, or is done. -/
theorem at_afterAttempt
    (hs : stage = .decided false true ∨
      stage = .settled ∧ ∃ d, s.owned.lookup lease = some d ∧ d.settlement = none) :
    stage.At (s.afterAttempt lease todo completed).clock
      (s.afterAttempt lease todo completed).point lease := by
  have hallowed : ∀ p : Point, p.completing = s.completedAfter lease completed →
      stage.AllowedAt p lease := by
    intro p hp
    rcases hs with rfl | ⟨rfl, d, hd, hset⟩
    · exact nofun
    · show lease ∈ p.completing
      rw [hp, completedAfter_some hd, hset]
      simp
  have hne : stage ≠ .receiving := by
    rintro rfl
    rcases hs with hs | ⟨hs, -⟩ <;> cases hs
  have hpoint : (s.afterAttempt lease todo completed).point = _ := afterAttempt_point
  split at hpoint
  · exact at_point hpoint (hallowed _ rfl) hne rfl
  · exact at_point hpoint (hallowed _ rfl) hne rfl

/-- A step about a delivery that waits for its settlement. -/
theorem Lives.waitsOn (h : Lives ctx notes s lease (.decided false true))
    (hf : Frame ctx lease s notes' s') (hi : Inv s.core)
    (ht : Delivery.tally notes' lease = ⟨0, 0, 0, 0⟩) (hd : s'.owned.lookup lease = some d)
    (hfit : (Stage.decided false true).Fits d) (hint : d.Intact s'.clock) (hjobs : s'.jobs = s.jobs)
    (hch : s'.channel = s.channel) (hu : Ungranted ctx s' lease)
    (hp : (Stage.decided false true).At s'.clock s'.point lease) :
    Lives ctx (notes ++ notes') s' lease (.decided false true) := by
  refine h.become hf hi (by rw [ht]; rfl) (holds_of hd hfit hint) ?_ hp (.inr hu) (by simp)
    (by simp)
  rw [hjobs, State.inbox, hch]
  exact h.inbox

theorem Ungranted.setDispatchActive (h : Ungranted ctx s lease) (hi : Inv s.core) (active : Bool) :
    Ungranted ctx (s.onCore fun core => core.setDispatchActive ctx.subscriptionId active) lease :=
  h.op hi (.setDispatchActive ctx.subscriptionId active) rfl rfl

theorem Ungranted.failReceive (h : Ungranted ctx s lease) (hi : Inv s.core)
    (reason : SubscriptionStopReason) : Ungranted ctx (s.failReceive ctx reason).2 lease :=
  h.op hi (.stopSubscription ctx.subscriptionId) rfl rfl

/-- An attempt leaves the settlement as it is, and the provider may be called for it. -/
theorem Lives.attempt (h : Lives ctx notes s lease (.decided false true)) (hi : Inv s.core)
    (hd : s.owned.lookup lease = some d) (hset : d.settlement = some intent)
    (hs : s.attemptSettlement ctx lease d intent todo completed = some (notes', s')) :
    Lives ctx (notes ++ notes') s' lease (.decided false true) ∧ Goes lease completed s'.point := by
  have hf : Frame ctx lease s notes' s' := frame_attemptSettlement hs
  have hu : Ungranted ctx s lease := h.ungranted rfl
  obtain ⟨hfit, hint⟩ := h.fits hd
  have hstart : s.clock.NotBefore (d.startedAt s.clock) := by
    unfold OwnedSyncDelivery.startedAt
    cases hf : d.firstAttempt with
    | none => exact .refl s.clock
    | some t => exact hint.first t hf
  have hint' : (d.attempted s.clock).Intact s.clock :=
    ⟨hint.lifecycle, fun t ht => Option.some.inj ht ▸ hstart⟩
  cases attempted_of_some hint.first hs with
  | tokenless ht =>
    have := hfit.2.2.2.2.2.1 intent hset
    rw [ht] at this
    cases this
  | foreign reason ht hb =>
    exact ⟨h.waitsOn hf hi rfl hd hfit hint rfl rfl (hu.failReceive hi reason)
      (at_afterAttempt (.inl rfl)), goes_afterAttempt todo completed⟩
  | waits he hlt =>
    exact ⟨h.waitsOn hf hi (by simp [Delivery.tally, Note.counts]) put_lookup hfit hint' rfl rfl hu
      (at_afterAttempt (.inl rfl)), goes_afterAttempt todo completed⟩
  | refused reason he hno =>
    have hu' : Ungranted ctx (s.put lease (d.attempted s.clock)) lease := hu
    exact ⟨h.waitsOn hf hi rfl put_lookup hfit hint' rfl rfl (hu'.failReceive hi reason)
      (at_afterAttempt (.inl rfl)), goes_afterAttempt todo completed⟩
  | calls ht he hdue htime hcount =>
    have hu' : Ungranted ctx (s.put lease (d.called s.clock)) lease := hu
    refine ⟨h.waitsOn hf hi (by simp [Delivery.tally, Note.counts]) put_lookup hfit
      { hint' with } rfl rfl (hu'.setDispatchActive hi false) ?_, .calls ..⟩
    refine ⟨by simp [State.goto, Point.receives], fun t ht => ⟨rfl, ?_⟩,
      Stage.decided_allowedAt, by simp [State.goto, Point.isExited]⟩
    obtain ⟨-, rfl⟩ := Prod.mk.inj (Option.some.inj ht)
    exact hstart

/-- A delivery whose handler is not finished is skipped, so what is marked as done can be
removed. -/
theorem Stage.At.marked (h : stage.At clock (.settling todo completed) lease) (hfit : stage.Fits d)
    (hh : d.handlerFinished = true) :
    stage.At clock (.settling todo' (completed ++ [lease])) lease := by
  refine ⟨h.receiving, nofun, ?_, nofun⟩
  have ha := h.allowed
  cases stage with
  | fresh => rfl
  | running =>
    rw [hfit.2.2.2.2.2.2.1] at hh
    cases hh
  | deciding lost rejected =>
    rw [hfit.2.2.2.2.2.1] at hh
    cases ha.2.2.2 hh
  | decided lost finished =>
    rw [hfit.2.2.2.2.2.2.1] at hh
    rw [hh]
    exact nofun
  | settled => exact List.mem_append_right _ List.mem_cons_self
  | forgotten => cases ha.1
  | _ => trivial

/-- Only a decided delivery has a settlement. -/
theorem Stage.Fits.decided (hfit : stage.Fits d) (hh : d.handlerFinished = true)
    (hset : d.settlement = some intent) : stage = .decided false true := by
  have hne : d.settlement ≠ none := by rw [hset]; nofun
  cases stage with
  | fresh => exact absurd hfit.2.2.2.2.2.2.1 hne
  | resting due => exact absurd hfit.2.2.2.2.2.2.1 hne
  | running => exact absurd hfit.2.2.2.2.2.1 hne
  | done => exact absurd hfit.2.2.2.2.2.2.1 hne
  | deciding lost rejected => exact absurd hfit.2.2.2.2.1 hne
  | settled => exact absurd hfit.1 hne
  | forgotten => exact absurd hfit.2.2.2.2.2.1 hne
  | decided lost finished =>
    obtain ⟨-, -, -, -, hl, -, hf, -⟩ := hfit
    rw [hset] at hl
    rw [← hl, ← hf, hh]
    rfl
  | _ => cases hfit

theorem Lives.goto (h : Lives ctx notes s lease stage) (hp : stage.At s.clock p lease) :
    Lives ctx notes (s.goto p) lease stage := { h with place := hp }

theorem Lives.settleOne (h : Lives ctx notes s lease stage) (hi : Inv s.core)
    (hp : s.point = .settling todo completed) (hd : s.owned.lookup lease = some d)
    (hs : s.settleOne ctx lease d todo' completed = some (notes', s')) :
    (∃ stage', Lives ctx (notes ++ notes') s' lease stage') ∧ Goes lease completed s'.point := by
  obtain ⟨hfit, hint⟩ := h.fits hd
  have hplace := h.place
  rw [hp] at hplace
  have hskip : Lives ctx (notes ++ []) (s.goto (.settling todo' completed)) lease stage := by
    rw [List.append_nil]
    exact h.goto (hplace.leads ⟨.rfl, fun _ h => h, .rfl, id, id, id, id, id⟩)
  unfold State.settleOne at hs
  split at hs
  · cases hs
    exact ⟨⟨stage, hskip⟩, .on todo' (.inl rfl)⟩
  · rename_i hready
    have hh : d.handlerFinished = true := by
      cases hh : d.handlerFinished with
      | true => rfl
      | false => exact absurd (.inl hh) hready
    split at hs
    · cases hs
      refine ⟨⟨stage, ?_⟩, .on todo' (.inr rfl)⟩
      rw [List.append_nil]
      exact h.goto (hplace.marked hfit hh)
    · rename_i intent hset
      split at hs
      · cases hs
        exact ⟨⟨stage, hskip⟩, .on todo' (.inl rfl)⟩
      · obtain rfl := hfit.decided hh hset
        obtain ⟨hl, hg⟩ := h.attempt hi hd hset hs
        exact ⟨⟨_, hl⟩, hg⟩

theorem Accounted.settleOne (h : Accounted ctx notes s) (hp : s.point = .settling todo completed)
    (hd : s.owned.lookup lease = some d)
    (hs : s.settleOne ctx lease d todo' completed = some (notes', s')) :
    Accounted ctx (notes ++ notes') s' := by
  obtain ⟨stage, hl⟩ := h.lives lease
  have hg := (hl.settleOne h.inv hp hd hs).2
  refine h.about (frame_settleOne hs) (fun stage hl => (hl.settleOne h.inv hp hd hs).1)
    (fun l hne => hg.leads hne (by rw [hp]; rfl) (by rw [hp]; rfl) (by rw [hp]; rfl))
    fun todo ht => ?_
  rw [ht] at hg
  cases hg

/-- The provider returns. -/
theorem Lives.settleReturned (h : Lives ctx notes s lease stage) (hi : Inv s.core) {attempt : Nat}
    (hp : s.point = .calling lease intent started attempt todo completed)
    (hd : s.owned.lookup lease = some d) {result : Except SpiError Unit} {step : List Note × State}
    (hs : s.settleReturned ctx lease d intent started attempt todo completed result = step) :
    (∃ stage', Lives ctx (notes ++ step.1) step.2 lease stage') ∧
      Goes lease completed step.2.point := by
  obtain ⟨hfit, hint⟩ := h.fits hd
  obtain ⟨rfl, hclock⟩ := h.place.calling started (by rw [hp]; rfl)
  have hf : Frame ctx lease s step.1 step.2 := hs ▸ frame_settleReturned ..
  have hr : Returned ctx s lease d started todo completed result step.1 step.2 :=
    hs ▸ settleReturned_returned hclock result
  obtain ⟨notes', s'⟩ := step
  dsimp only at hf hr ⊢
  have hu : Ungranted ctx (s.back ctx) lease := (h.ungranted rfl).setDispatchActive hi true
  have hback : Inv (s.back ctx).core := hi.step (.setDispatchActive ctx.subscriptionId true)
  cases hr with
  | settled =>
    exact ⟨⟨.settled, h.become hf hi rfl (holds_put ⟨rfl, hfit.2.2.2.2.2.2.2⟩ hint rfl rfl) h.inbox
      (at_afterAttempt (.inr ⟨rfl, _, put_lookup, rfl⟩)) (.inr hu) (by simp) (by simp)⟩,
      goes_afterAttempt todo completed⟩
  | retries he hdec =>
    refine ⟨⟨_, h.waitsOn hf hi ?_ put_lookup hfit { hint with } rfl rfl hu
      (at_afterAttempt (.inl rfl))⟩, goes_afterAttempt todo completed⟩
    split <;> simp [Delivery.tally, Note.counts]
  | @stops error elapsed termination reason =>
    have hu' : Ungranted ctx ((s.back ctx).put lease { d with lastError := some error }) lease := hu
    exact ⟨⟨_, h.waitsOn hf hi (by simp [Delivery.tally, Note.counts]) put_lookup hfit
      { hint with } rfl rfl (hu'.failReceive hback reason)
      (at_afterAttempt (.inl rfl))⟩, goes_afterAttempt todo completed⟩

theorem Accounted.settleReturned (h : Accounted ctx notes s) {attempt : Nat}
    (hp : s.point = .calling lease intent started attempt todo completed)
    (hd : s.owned.lookup lease = some d) (result : Except SpiError Unit) :
    After (Accounted ctx) notes
      (s.settleReturned ctx lease d intent started attempt todo completed result) := by
  have hself (stage : Stage) (hl : Lives ctx notes s lease stage) :=
    hl.settleReturned h.inv hp hd (Eq.refl (s.settleReturned ctx lease d _ _ attempt _ _ result))
  obtain ⟨stage, hl⟩ := h.lives lease
  have hg := (hself stage hl).2
  refine h.about (frame_settleReturned ..) (fun stage hl => (hself stage hl).1)
    (fun l hne => hg.leads hne (by rw [hp]; rfl) (by rw [hp]; rfl) (by rw [hp]; rfl))
    fun todo ht => ?_
  rw [ht] at hg
  cases hg

/-! ## The ends -/

theorem tally_released (lease : Nat) : tally [.released lease] lease = ⟨0, 0, 0, 1⟩ := by
  simp [tally, Note.counts]

theorem tally_completed (lease : Nat) :
    tally [.completed lease, .released lease] lease = ⟨0, 0, 1, 1⟩ := by
  simp [tally, Note.counts]

theorem tally_drained (lease : Nat) (lost : Bool) :
    tally (lossNotes lease lost ++ [.released lease]) lease = ⟨0, 0, lost.toNat, 1⟩ := by
  rw [tally_append, tally_lossNotes, tally_released]
  cases lost <;> rfl

theorem Stage.Fits.owned (hfit : stage.Fits d) : stage.owned = true := by
  cases stage with
  | unseen => cases hfit
  | receiving => cases hfit
  | returned => cases hfit
  | gone => cases hfit
  | _ => rfl

/-- A lease is given back: its delivery is gone, and has been counted once. -/
theorem Lives.goes (h : Lives ctx notes s lease stage) (hf : Frame ctx lease s notes' s')
    (hi : Inv s.core) (hs : stage.owned = true)
    (ht : stage.tally + Delivery.tally notes' lease = ⟨1, 1, 1, 1⟩)
    (hown : s'.owned.lookup lease = none) (hjob : s'.jobs.lookup lease = none)
    (hin : s'.inbox lease = []) (hr : s'.point.receives = none) (hc : s'.point.call = none) :
    Lives ctx (notes ++ notes') s' lease .gone := by
  refine h.become hf hi ht ?_ ⟨hjob, hin⟩ ⟨?_, ?_, trivial, fun _ => rfl⟩ (.inl rfl) nofun ?_
  · rw [hown]
    exact rfl
  · simp [hr]
  · simp [hc]
  · rintro rfl
    cases hs

/-- A delivery that is marked as done is not waiting for anything. -/
theorem Lives.removable (h : Lives ctx notes s lease stage) (hp : s.point = .removing completed)
    (hm : lease ∈ completed) (hd : s.owned.lookup lease = some d) :
    s.jobs.lookup lease = none ∧ s.inbox lease = [] ∧
      stage.tally = ⟨1, 1, if d.abandoned then 1 else 0, 0⟩ := by
  obtain ⟨hfit, -⟩ := h.fits hd
  have ha := h.place.allowed
  rw [hp] at ha
  have hin := h.inbox
  cases stage with
  | fresh => exact ⟨hin.1, hin.2, by rw [hfit.2.2.2.2.2.2.2.2]; rfl⟩
  | resting due => exact ⟨hin.1, hin.2, by rw [hfit.2.2.2.2.2.2.2]; rfl⟩
  | running => exact absurd hm ha.2
  | done => exact ⟨hin.1, hin.2, by rw [hfit.2.2.2.2.2.2.2.2]; rfl⟩
  | deciding lost rejected => exact absurd hm ha.2.2.1
  | decided lost finished =>
    cases finished with
    | false => exact absurd hm (ha rfl).2
    | true =>
      refine ⟨hin.1, hin.2, ?_⟩
      rw [hfit.2.2.2.2.2.2.2]
      cases lost <;> rfl
  | settled => exact ⟨hin.1, hin.2, by rw [hfit.2]; rfl⟩
  | forgotten => exact absurd hm ha.2
  | _ => cases hfit

theorem Accounted.removeOne (h : Accounted ctx notes s)
    (hp : s.point = .removing (lease :: completed)) :
    After (Accounted ctx) notes ((s.goto (.removing completed)).removeOne lease) := by
  have hf : Frame ctx lease s _ ((s.goto (.removing completed)).removeOne lease).2 :=
    (frame_goto (.removing completed)).silent frame_removeOne
  have hpoint : ((s.goto (.removing completed)).removeOne lease).2.point = .removing completed := by
    simp only [State.removeOne]
    repeat' split
    all_goals rfl
  refine h.about hf (fun stage hl => ?_) (fun l hne => ?_) fun todo ht => ?_
  · cases hd : s.owned.lookup lease with
    | none =>
      have hs := hl.unowned hd
      simp only [State.removeOne, show (s.goto (.removing completed)).owned = s.owned from rfl, hd,
        List.append_nil]
      refine ⟨stage, hl.goto ⟨?_, nofun, ?_, nofun⟩⟩
      · have := hl.place.receiving
        rwa [hp] at this
      · cases stage <;> trivial
    | some d =>
      obtain ⟨hjob, hin, ht⟩ := hl.removable hp List.mem_cons_self hd
      obtain ⟨hfit, hint⟩ := hl.fits hd
      have howned := hfit.owned
      simp only [State.removeOne, show (s.goto (.removing completed)).owned = s.owned from rfl, hd,
        hint.lifecycle, and_true] at hf hpoint ⊢
      cases hab : d.abandoned with
      | true =>
        simp only [hab, Bool.true_eq_false, if_false] at hf hpoint ⊢
        refine ⟨.gone, hl.goes hf h.inv howned ?_ (erase_lookup s lease) hjob hin rfl rfl⟩
        rw [ht, hab]
        exact congrArg _ (tally_released lease)
      | false =>
        simp only [hab, if_true] at hf hpoint ⊢
        refine ⟨.gone, hl.goes hf h.inv howned ?_ (erase_lookup s lease) hjob hin rfl rfl⟩
        rw [ht, hab]
        exact congrArg _ (tally_completed lease)
  · rw [hpoint, hp]
    exact ⟨.rfl, fun _ h => h, by simp [Point.completing, hne], id, id, id, id, id⟩
  · rw [hpoint] at ht
    cases ht

/-- Provider close recovers the delivery, so that it counts as lost. -/
def OwnedSyncDelivery.Unresolved (d : OwnedSyncDelivery) : Prop :=
  d.abandoned = false ∧ (d.settlement.isSome ∨ d.inbound.isSome ∨ d.token.isSome ∨ d.due.isSome)

theorem drainOne_cases (he : ctx.durability = .ephemeral) (s : State) (lease : Nat)
    (d : OwnedSyncDelivery) :
    ∃ lost : Bool, (lost = true ↔ d.Unresolved) ∧
      (s.drainOne ctx lease d).1 = lossNotes lease lost ++ [.released lease] ∧
      (s.drainOne ctx lease d).2.owned.lookup lease = none ∧
      (s.drainOne ctx lease d).2.jobs = s.jobs ∧ (s.drainOne ctx lease d).2.channel = s.channel ∧
      (s.drainOne ctx lease d).2.point = s.point := by
  by_cases hc : d.abandoned = false ∧
      (d.settlement.isSome ∨ d.inbound.isSome ∨ d.token.isSome ∨ d.due.isSome)
  · simp only [State.drainOne, if_pos hc, countAbandoned_eq he]
    exact ⟨true, iff_of_true rfl hc, rfl, erase_lookup s lease, rfl, rfl, rfl⟩
  · simp only [State.drainOne, if_neg hc]
    exact ⟨false, iff_of_false nofun hc, rfl, erase_lookup s lease, rfl, rfl, rfl⟩

/-- After the loop, a delivery is lost, or has been counted before. -/
theorem Lives.drained (h : Lives ctx notes s lease stage) (hp : s.point = .recovering)
    (hd : s.owned.lookup lease = some d) {lost : Bool} (hlost : lost = true ↔ d.Unresolved) :
    s.jobs.lookup lease = none ∧ s.inbox lease = [] ∧ stage.tally = ⟨1, 1, (!lost).toNat, 0⟩ := by
  obtain ⟨hfit, -⟩ := h.fits hd
  have ha := h.place.allowed
  rw [hp] at ha
  have hin := h.inbox
  cases stage with
  | fresh => cases ha
  | running => cases ha.1
  | deciding lost rejected => cases ha.2.1
  | settled => cases ha
  | resting due =>
    rw [hlost.2 ⟨hfit.2.2.2.2.2.2.2, .inr (.inr (.inl hfit.2.2.1))⟩]
    exact ⟨hin.1, hin.2, rfl⟩
  | done =>
    rw [hlost.2 ⟨hfit.2.2.2.2.2.2.2.2, .inr (.inr (.inl hfit.2.2.1))⟩]
    exact ⟨hin.1, hin.2, rfl⟩
  | decided lost' finished =>
    obtain ⟨-, -, -, -, hset, -, -, hab⟩ := hfit
    cases finished with
    | false => cases (ha rfl).1
    | true =>
      cases lost' with
      | true =>
        have : lost = false := by
          by_contra hl
          have := (hlost.1 (by simpa using hl)).1
          rw [hab] at this
          cases this
        rw [this]
        exact ⟨hin.1, hin.2, rfl⟩
      | false =>
        rw [hlost.2 ⟨hab, .inl (by simpa [Option.isSome_iff_ne_none] using hset)⟩]
        exact ⟨hin.1, hin.2, rfl⟩
  | forgotten =>
    obtain ⟨hinb, -, htok, hdue, -, hset, -⟩ := hfit
    have : lost = false := by
      by_contra hl
      have := (hlost.1 (by simpa using hl)).2
      simp [hset, hinb, htok, hdue] at this
    rw [this]
    exact ⟨hin.1, hin.2, rfl⟩
  | _ => cases hfit

theorem Accounted.drainOne (he : ctx.durability = .ephemeral) (h : Accounted ctx notes s)
    (hp : s.point = .recovering) (hd : s.owned.lookup lease = some d) :
    After (Accounted ctx) notes (s.drainOne ctx lease d) := by
  have hf : Frame ctx lease s (s.drainOne ctx lease d).1 (s.drainOne ctx lease d).2 :=
    frame_drainOne d
  obtain ⟨lost, hlost, hn, hown, hjobs, hch, hpoint⟩ := drainOne_cases he s lease d
  refine h.about hf (fun stage hl => ⟨.gone, ?_⟩) (fun l hne => ?_) fun todo ht => ?_
  · obtain ⟨hjob, hin, ht⟩ := hl.drained hp hd hlost
    refine hl.goes hf h.inv (hl.fits hd).1.owned ?_ hown (by rw [hjobs]; exact hjob) ?_
      (by rw [hpoint, hp]; rfl) (by rw [hpoint, hp]; rfl)
    · rw [ht, hn, tally_drained]
      cases lost <;> rfl
    · rw [State.inbox, hch]
      exact hin
  · rw [hpoint]
    exact .refl l _
  · rw [hpoint, hp] at ht
    cases ht

/-! ## Grants and receives -/

theorem Stage.Begun.allowed (h : stage.Begun) (hq : p.quiet = false) (hc : p.closed = false)
    (hm : lease ∉ p.completing) :
    stage ≠ .receiving ∧ stage ≠ .forgotten ∧ stage.AllowedAt p lease := by
  cases stage with
  | running => exact ⟨nofun, nofun, hc, hm⟩
  | resting due => exact ⟨nofun, nofun, trivial⟩
  | deciding lost rejected =>
    cases rejected with
    | false => exact ⟨nofun, nofun, hq, hc, hm, nofun⟩
    | true => cases h
  | _ => cases h

/-- A handler is granted for a delivery that waits for its first attempt or was woken. -/
theorem Stage.Fits.granted (hfit : stage.Fits d) (hm : stage.mayWait = true) :
    stage = .fresh ∨ stage = .resting false := by
  cases stage with
  | fresh => exact .inl rfl
  | resting due =>
    cases due with
    | false => exact .inr rfl
    | true => cases hm
  | unseen => cases hfit
  | returned => cases hfit
  | gone => cases hfit
  | _ => cases hm

theorem Accounted.dispatch (he : ctx.durability = .ephemeral) (h : Accounted ctx notes s)
    (hp : s.point = .dispatching) (hg : (s.core.takeReady ctx.subscriptionId).1 = some lease)
    (hd : s.owned.lookup lease = some d) {tick : Tick}
    (hs : { s with core := (s.core.takeReady ctx.subscriptionId).2 }.dispatch ctx tick lease d =
      some (notes', s')) : Accounted ctx (notes ++ notes') s' := by
  obtain ⟨hw, hst, hnw⟩ := takeReady_some h.inv hg
  have hf₀ : Frame ctx lease s [] { s with core := (s.core.takeReady ctx.subscriptionId).2 } :=
    frame_plain (.takeReady ctx.subscriptionId) rfl
  have hf := hf₀.silent (frame_dispatch hs)
  have hturn (stage : Stage) (hl : Lives ctx notes s lease stage) :
      stage.idle = true ∧ ∃ stage' : Stage, stage'.Begun ∧ Turn ctx lease
        { s with core := (s.core.takeReady ctx.subscriptionId).2 } notes' s' stage' := by
    obtain ⟨hfit, hint⟩ := hl.fits hd
    have hmay := hl.waiting hw hst
    have hstage := hfit.granted hmay
    have hidle : stage.idle = true := by rcases hstage with rfl | rfl <;> rfl
    obtain ⟨-, -, hjob, hin⟩ := hl.idle hidle
    exact ⟨hidle, turn_dispatch he ⟨(hf₀.core h.inv).inv, hjob, hin, fun hw => absurd hw hnw⟩
      hstage hfit hint hs⟩
  have hpoint : s'.point = .dispatching := by
    obtain ⟨stage, hl⟩ := h.lives lease
    obtain ⟨-, stage', -, ht⟩ := hturn stage hl
    exact ht.point.trans hp
  refine h.about hf (fun stage hl => ?_) (fun l _ => ?_) fun todo ht => ?_
  · obtain ⟨hidle, stage', hb, ht⟩ := hturn stage hl
    have hm : lease ∉ Point.dispatching.completing := List.not_mem_nil
    obtain ⟨hr, hfo, ha⟩ := hb.allowed rfl rfl hm
    exact ⟨stage', hl.turn hidle hf h.inv ht (at_point hpoint ha hr rfl) hfo⟩
  · rw [hpoint, hp]
    exact .refl l _
  · rw [hpoint] at ht
    cases ht

/-- The owner claims a reservation. -/
theorem Accounted.reserve (h : Accounted ctx notes s) (hp : s.point = .reserving)
    (hr : (s.core.takeReceiveReservation ctx.subscriptionId).1 = some lease) :
    Accounted ctx (notes ++ [.claimed lease]) { s with
      core := ((s.core.takeReceiveReservation ctx.subscriptionId).2.recordOwnedStart lease
        s.clock).setDispatchActive ctx.subscriptionId false
      point := .receiving lease } := by
  obtain ⟨hnc, hc, ho, hnw, -⟩ := takeReceiveReservation_some h.inv hr
  have hi₀ := h.inv.step (.takeReceiveReservation ctx.subscriptionId)
  refine h.about (frame_reserve hr) (fun stage hl => ?_) (fun l hne => ?_) (by simp)
  · have hunseen : stage = .unseen := by
      by_contra hs
      exact hnc (hl.claimed hs)
    subst hunseen
    have hstart : Frame ctx lease { s with
        core := (s.core.takeReceiveReservation ctx.subscriptionId).2 } [] _ := frame_started _
    have hu₀ : Ungranted ctx { s with core := (s.core.takeReceiveReservation ctx.subscriptionId).2 }
        lease := fun hw => absurd hw hnw
    have hu₁ : Ungranted ctx { s with core := (s.core.takeReceiveReservation
        ctx.subscriptionId).2.recordOwnedStart lease s.clock } lease :=
      hu₀.op hi₀ (.recordOwnedStart lease s.clock) rfl rfl
    have hi₁ := hi₀.step (.recordOwnedStart lease s.clock)
    refine ⟨.receiving, ?_, hl.delivery, hl.inbox, ?_, fun _ => ?_, fun _ => ?_, fun hw hst => ?_,
      (by simp)⟩
    · rw [tally_append, hl.tally]
      simp [tally, Note.counts]
      rfl
    · exact ⟨iff_of_true rfl rfl, by simp [Point.call], trivial, by simp [Point.isExited]⟩
    · exact (hstart.core hi₀).claimed lease hc
    · exact hstart.held hi₀ lease true hc ho
    · exact absurd (hu₁.setDispatchActive hi₁ false hw) hst
  · rw [hp]
    exact ⟨by simp [Point.receives, Ne.symm hne], fun _ h => h, .rfl, id, id, id, id, id⟩

/-- A message that is lost when it is received. -/
theorem tally_unsettled (lease : Nat) :
    tally [.received lease, .terminates, .abandoned lease, .released lease] lease =
      ⟨0, 1, 1, 1⟩ := by
  simp [tally, Note.counts]

theorem tally_received (lease : Nat) : tally [.received lease] lease = ⟨0, 1, 0, 0⟩ := by
  simp [tally, Note.counts]

theorem holds_none (hd : s.owned.lookup lease = none) (hs : stage.owned = false) :
    stage.Holds s.clock (s.owned.lookup lease) := by
  rw [hd]
  exact hs

/-- A receive that brings no message gives the lease back. -/
theorem Lives.returns (h : Lives ctx notes s lease .receiving) (hf : Frame ctx lease s notes' s')
    (hi : Inv s.core) (ht : Delivery.tally notes' lease = ⟨0, 0, 0, 1⟩) (hown : s'.owned = s.owned)
    (hjobs : s'.jobs = s.jobs) (hch : s'.channel = s.channel) (hp : s'.point = .messages) :
    Lives ctx (notes ++ notes') s' lease .returned := by
  refine h.become hf hi (by rw [ht]; rfl) ?_ ?_ (at_point hp trivial (by simp) rfl) (.inl rfl)
    (by simp) (by simp)
  · rw [hown]
    have := h.delivery
    cases hd : s.owned.lookup lease with
    | none => exact rfl
    | some d =>
      rw [hd] at this
      cases this.1
  · rw [hjobs, State.inbox, hch]
    exact h.inbox

theorem Lives.receive (he : ctx.durability = .ephemeral) (h : Lives ctx notes s lease .receiving)
    (hi : Inv s.core) (tick : Tick)
    (htok : ∀ message, tick.received.caught ctx "receive" = .ok (.message message) →
      message.settlement.isSome) :
    ∃ stage', Lives ctx (notes ++ (s.receiveReturned ctx tick lease).1)
      (s.receiveReturned ctx tick lease).2 lease stage' := by
  have hf :
      Frame ctx lease s (s.receiveReturned ctx tick lease).1 (s.receiveReturned ctx tick lease).2 :=
    frame_receiveReturned tick
  have hp : (s.receiveReturned ctx tick lease).2.point = .messages := receiveReturned_point tick
  have hown : s.owned.lookup lease = none := by
    have := h.delivery
    cases hd : s.owned.lookup lease with
    | none => rfl
    | some d =>
      rw [hd] at this
      cases this.1
  obtain ⟨hjob, hin⟩ := h.inbox
  have hu : Ungranted ctx s lease := h.ungranted rfl
  revert hf hp
  unfold State.receiveReturned
  dsimp only
  split
  · rename_i message hmsg
    have htok := htok message hmsg
    obtain ⟨token, ht⟩ := Option.isSome_iff_exists.1 htok
    split
    · split
      · rw [countAbandoned_eq he]
        intro hf hp
        refine ⟨.gone, h.become hf hi ?_ ?_ ⟨hjob, hin⟩ (at_point hp trivial (by simp) rfl)
          (.inl rfl) (by simp) (by simp)⟩
        · exact congrArg _ (tally_unsettled lease)
        · exact holds_none hown rfl
      · rw [ht]
        have hi₁ := hi.step (.setDispatchActive ctx.subscriptionId true)
        have hu₁ : Ungranted ctx (((s.onCore fun core =>
            core.setDispatchActive ctx.subscriptionId true).goto .messages).put lease
            (.new ctx.settlementRetry none)) lease := hu.setDispatchActive hi true
        obtain ⟨lost, m, hn, hm, hl, htold⟩ :=
          (decided_settleRejected ctx lease token message.id message.topic.value).performs he
            (((s.onCore fun core => core.setDispatchActive ctx.subscriptionId true).goto
              .messages).put lease (.new ctx.settlementRetry none))
        intro hf hp
        refine ⟨.deciding lost true, h.become hf hi ?_
          (holds_of (d := .new ctx.settlementRetry none) ?_ ?_ ?_) ⟨?_, m, hm, ?_⟩
          (at_point hp ⟨rfl, rfl, List.not_mem_nil, fun _ => rfl⟩ (by simp) rfl) (.inr ?_) (by simp)
          (by simp)⟩
        · rw [hn, ← List.singleton_append, tally_append, tally_received, tally_lossNotes]
          cases lost <;> rfl
        · exact (congrArg (Finmap.lookup lease) htold.owned).trans put_lookup
        · exact ⟨rfl, rfl, rfl, rfl, rfl, rfl, rfl⟩
        · exact ⟨rfl, nofun⟩
        · exact (congrArg (Finmap.lookup lease) htold.jobs).trans hjob
        · have hbox := inbox_append htold.channel (List.forall_mem_singleton.2 hl)
          exact hbox.trans (congrArg (· ++ [m]) hin)
        · exact (hu₁.told hi₁ htold).op (htold.inv hi₁) (.enqueueSettlement lease _) rfl rfl
    · intro hf hp
      refine ⟨.fresh, h.become hf hi ?_ (holds_of put_lookup ?_ ⟨rfl, nofun⟩) ⟨hjob, hin⟩
        (at_point hp rfl (by simp) rfl) (.inl rfl) (by simp) (by simp)⟩
      · exact congrArg _ (tally_received lease)
      · exact ⟨⟨message, _, rfl, htok⟩, rfl, rfl, rfl, rfl, rfl, rfl, rfl, rfl⟩
  · intro hf hp
    exact ⟨.returned, h.returns hf hi (tally_released lease) rfl rfl rfl hp⟩
  · intro hf hp
    exact ⟨.returned, h.returns hf hi (tally_released lease) rfl rfl rfl hp⟩
  · split
    · intro hf hp
      exact ⟨.returned, h.returns hf hi (tally_released lease) rfl rfl rfl hp⟩
    · intro hf hp
      exact ⟨.returned, h.returns hf hi (tally_released lease) rfl rfl rfl hp⟩
  · intro hf hp
    exact ⟨.returned, h.returns hf hi (tally_released lease) rfl rfl rfl hp⟩

theorem Accounted.receive (he : ctx.durability = .ephemeral) (h : Accounted ctx notes s)
    (hp : s.point = .receiving lease) (tick : Tick)
    (htok : ∀ message, tick.received.caught ctx "receive" = .ok (.message message) →
      message.settlement.isSome) :
    After (Accounted ctx) notes (s.receiveReturned ctx tick lease) := by
  have hpoint : (s.receiveReturned ctx tick lease).2.point = .messages := receiveReturned_point tick
  refine h.about (frame_receiveReturned tick) (fun stage hl => ?_) (fun l hne => ?_)
    fun todo ht => ?_
  · obtain rfl : stage = .receiving := hl.place.receiving.1 (by rw [hp]; rfl)
    exact hl.receive he h.inv tick htok
  · rw [hpoint, hp]
    exact ⟨by simp [Point.receives, Ne.symm hne], fun _ h => h, .rfl, id, id, id, id, nofun⟩
  · rw [hpoint] at ht
    cases ht

/-! ## The loop -/

/-- Every message carries a token of the subscription. -/
def tokenOk (ctx : OwnerContext) (tick : Tick) : Bool :=
  match tick.received.caught ctx "receive" with
  | .ok (.message message) => message.settlement.any fun token => token.belongsTo ctx.subscriptionId
  | _ => true

/-- Nothing is owned. -/
theorem Lives.unowned_of_empty (h : Lives ctx notes s lease stage) (hk : s.owned.keys = ∅) :
    stage.owned = false := by
  refine h.unowned (Finmap.lookup_eq_none.2 fun hm => ?_)
  rw [← Finmap.mem_keys, hk] at hm
  exact absurd hm (Finset.notMem_empty _)

theorem Stage.At.of_unowned (h : stage.At clock p lease) (hs : stage.owned = false)
    (hr : p.receives = none) (hr' : p'.receives = none) (hc' : p'.call = none) :
    stage.At clock p' lease := by
  refine ⟨by rw [hr', ← hr]; exact h.receiving, by simp [hc'], ?_, fun _ => hs⟩
  cases stage <;> trivial

/-- The flags that no stage depends on. -/
theorem Accounted.flags (h : Accounted ctx notes s)
    (cancelled draining immediate receiveClosed stopPublished sampledDraining stopping : Bool) :
    Accounted ctx notes { s with
      cancelled := cancelled, draining := draining, immediate := immediate
      receiveClosed := receiveClosed, stopPublished := stopPublished
      sampledDraining := sampledDraining, stopping := stopping } :=
  { h with lives := fun l => (h.lives l).imp fun _ hl => { hl with } }

/-- A step of the core that puts no lease into a lane. -/
theorem Accounted.op (h : Accounted ctx notes s) (op : Scheduler.Op)
    (hop : op.plain = true) :
    Accounted ctx notes { s with core := Scheduler.step s.core op } := by
  have hf (lease : Nat) : Frame ctx lease s [] { s with core := Scheduler.step s.core op } :=
    frame_plain op hop
  have := h.idle hf (fun l stage hl => hl.place) fun todo ht => ((hf 0).core h.inv).stopped
    (h.cleaning todo ht)
  rwa [List.append_nil] at this

/-- The subscription fails. -/
theorem Accounted.failReceive (h : Accounted ctx notes s) (reason : SubscriptionStopReason) :
    After (Accounted ctx) notes (s.failReceive ctx reason) :=
  h.idle (fun _ => frame_failReceive reason) (fun _ _ hl => hl.place) fun _ _ =>
    stopSubscription_stopped h.inv ctx.subscriptionId

/-- Every handler has finished: the loop may end. -/
theorem Accounted.close (h : Accounted ctx notes s) (hp : s.point = .removing [])
    (hall : ∀ lease ∈ s.owned.keys, (s.owned.lookup lease).any (·.handlerFinished)) :
    Accounted ctx notes (s.goto .closing) := by
  refine h.goto .closing (fun l stage hl => ?_) nofun
  have hplace := hl.place
  rw [hp] at hplace
  refine ⟨hplace.receiving, nofun, ?_, nofun⟩
  have hfinished : ∀ d, s.owned.lookup l = some d → d.handlerFinished = true := by
    intro d hd
    have := hall l (Finmap.mem_keys.2 (Finmap.mem_iff.2 ⟨d, hd⟩))
    rwa [hd] at this
  have ha := hplace.allowed
  cases stage with
  | fresh =>
    obtain ⟨d, hd, hfit, -⟩ := hl.exists_delivery rfl
    have := hfinished d hd
    rw [hfit.2.2.2.2.2.2.2.1] at this
    cases this
  | running =>
    obtain ⟨d, hd, hfit, -⟩ := hl.exists_delivery rfl
    have := hfinished d hd
    rw [hfit.2.2.2.2.2.2.1] at this
    cases this
  | deciding lost rejected =>
    obtain ⟨d, hd, hfit, -⟩ := hl.exists_delivery rfl
    have := hfinished d hd
    rw [hfit.2.2.2.2.2.1] at this
    cases ha.2.2.2 this
  | decided lost finished =>
    obtain ⟨d, hd, hfit, -⟩ := hl.exists_delivery rfl
    have := hfinished d hd
    rw [hfit.2.2.2.2.2.2.1] at this
    rw [this]
    exact nofun
  | settled => cases ha
  | forgotten => exact ⟨rfl, List.not_mem_nil⟩
  | _ => trivial

/-- The loop ends with nothing left to do. -/
theorem Accounted.leave (h : Accounted ctx notes s) (hp : s.point = p) (hk : s.owned.keys = ∅)
    (hl : p = .dispatching ∧ p' = .closing ∨ p = .recovering ∧ p' = .exited) :
    Accounted ctx notes (s.goto p') := by
  refine h.goto p' (fun l stage hst => ?_) fun todo ht => ?_
  · have hplace := hst.place
    have hown := hst.unowned_of_empty hk
    rw [hp] at hplace
    rcases hl with ⟨rfl, rfl⟩ | ⟨rfl, rfl⟩
    · exact hplace.of_unowned hown rfl rfl rfl
    · exact hplace.of_unowned hown rfl rfl rfl
  · rcases hl with ⟨-, rfl⟩ | ⟨-, rfl⟩
    · cases ht
    · cases ht

/-- The channel is empty, so no decision is on its way. -/
theorem Accounted.sample (h : Accounted ctx notes s) (hp : s.point = .messages)
    (hc : s.channel = []) : Accounted ctx notes (s.goto .sampling) := by
  refine h.goto .sampling (fun l stage hl => ?_) (by simp)
  have hplace := hl.place
  rw [hp] at hplace
  refine ⟨hplace.receiving, by simp [Point.call], ?_, by simp [Point.isExited]⟩
  have ha := hplace.allowed
  cases stage with
  | deciding lost rejected =>
    obtain ⟨-, m, -, hin⟩ := hl.inbox
    rw [State.inbox, hc] at hin
    cases hin
  | _ => exact ha

/-- The owner fences itself before it cleans up. -/
theorem Accounted.fence (h : Accounted ctx notes s) (hp : s.point = .fencing) :
    Accounted ctx notes ({ s with
      receiveClosed := true, stopPublished := true
      point := .cleaning s.owned.keys }.cancelSubscription ctx) := by
  have h' : Accounted ctx notes { s with receiveClosed := true, stopPublished := true } :=
    h.flags ..
  have h₁ := h'.idle
    (fun _ => (frame_goto (.cleaning s.owned.keys)).then frame_cancelSubscription)
    (fun l stage hl => ?_) fun _ _ => stopSubscription_stopped h.inv ctx.subscriptionId
  · rwa [List.append_nil] at h₁
  · have hplace : stage.At s.clock s.point l := hl.place
    rw [hp] at hplace
    exact hplace.leads ⟨.rfl, fun _ h => h, .rfl, id, id, id, id, by simp [Point.isMessages]⟩

/-- Without a terminal failure nothing has been forgotten. -/
theorem Accounted.check (h : Accounted ctx notes s) (hp : s.point = .checking)
    (hno : s.terminalFailure = none) : Accounted ctx notes (s.goto (.finishing s.owned.keys)) := by
  refine h.goto _ (fun l stage hl => ?_) (by simp)
  have hplace := hl.place
  rw [hp] at hplace
  refine ⟨hplace.receiving, by simp [Point.call], ?_, by simp [Point.isExited]⟩
  have ha := hplace.allowed
  cases stage with
  | forgotten =>
    have := hl.forgotten rfl
    rw [hno] at this
    cases this
  | _ => exact ha

/-! ## Everybody else -/

/-- Only a running delivery has a job. -/
theorem Lives.of_job (h : Lives ctx notes s lease stage) {job : Job}
    (hj : s.jobs.lookup lease = some job) : stage = .running := by
  have hin := h.inbox
  rw [hj] at hin
  cases stage with
  | running => rfl
  | _ => cases hin.1

/-- What the step of a job leaves to show. -/
theorem Accounted.job (h : Accounted ctx notes s) {job : Job} (hj : s.jobs.lookup lease = some job)
    (hf : Frame ctx lease s [] s') (hown : s'.owned = s.owned) (hp : s'.point = s.point)
    (hu : Ungranted ctx s lease → Ungranted ctx s' lease)
    (hin : Stage.running.InboxOk lease (s.jobs.lookup lease) (s.inbox lease) →
      Stage.running.InboxOk lease (s'.jobs.lookup lease) (s'.inbox lease)) :
    Accounted ctx notes s' := by
  have := h.about hf (fun stage hl => ?_) (fun l _ => by rw [hp]; exact .refl l _) fun todo ht => ?_
  · rwa [List.append_nil] at this
  · obtain rfl := hl.of_job hj
    refine ⟨.running, hl.become hf h.inv rfl ?_ (hin hl.inbox) ?_ (.inr (hu (hl.ungranted rfl)))
      (by simp) (by simp)⟩
    · rw [hown, hf.clock]
      exact hl.delivery
    · rw [hp, hf.clock]
      exact hl.place
  · rw [hp] at ht
    exact (hf.core h.inv).stopped (h.cleaning todo ht)

/-- A job that goes on, and reports. -/
theorem Accounted.jobReports (h : Accounted ctx notes s) {job : Job}
    (hj : s.jobs.lookup lease = some job) (job' : Job) {messages : List CoordinatorMessage}
    (hm : ∀ m ∈ messages, ∃ outcome directive, m = .attemptFinished lease outcome directive) :
    Accounted ctx notes ({ s with jobs := s.jobs.insert lease job' }.send messages) := by
  have hl : ∀ m ∈ messages, m.leaseId = lease := by
    intro m hmem
    obtain ⟨outcome, directive, rfl⟩ := hm m hmem
    rfl
  refine h.job hj ((frame_job job').then (frame_send hl)) rfl rfl (fun hu => hu) ?_
  rintro ⟨reports, hr, heq⟩
  rw [hj] at heq
  refine ⟨reports ++ messages, fun m hmem => (List.mem_append.1 hmem).elim (hr m) (hm m), ?_⟩
  have hjob : (s.jobs.insert lease job').lookup lease = some job' :=
    (Map.lookup_insert_eq _ _ _ _).trans (if_pos rfl)
  rw [show State.inbox _ lease = s.inbox lease ++ messages from inbox_append rfl hl, heq]
  simp [State.send, hjob]

theorem Accounted.jobExits (h : Accounted ctx notes s) {job : Job}
    (hj : s.jobs.lookup lease = some job) :
    Accounted ctx notes ({ s with
      jobs := s.jobs.erase lease
      core := s.core.handlerFinished lease }.send [.handlerFinished lease]) := by
  have hm : ∀ m ∈ [CoordinatorMessage.handlerFinished lease], m.leaseId = lease :=
    List.forall_mem_singleton.2 rfl
  refine h.job hj frame_jobExits rfl rfl ?_ ?_
  · exact fun hu => hu.op h.inv (.handlerFinished lease) rfl rfl
  · rintro ⟨reports, hr, heq⟩
    rw [hj] at heq
    refine ⟨reports, hr, ?_⟩
    have hjob : (s.jobs.erase lease).lookup lease = none :=
      (Map.lookup_erase_eq _ _ _).trans (if_pos rfl)
    rw [show State.inbox _ lease = s.inbox lease ++ [.handlerFinished lease] from
      inbox_append rfl hm, heq]
    simp [State.send, hjob]

theorem Accounted.cancelSubscription (h : Accounted ctx notes s) :
    Accounted ctx notes (s.cancelSubscription ctx) := by
  have := h.idle (fun _ => frame_cancelSubscription) (fun _ _ hl => hl.place) fun _ _ =>
    stopSubscription_stopped h.inv ctx.subscriptionId
  rwa [List.append_nil] at this

/-- The clock goes on. -/
theorem Accounted.tick (h : Accounted ctx notes s) {now : MonotonicInstant}
    (hn : now.NotBefore s.clock) :
    Accounted ctx notes { s with clock := now } := by
  refine { h with lives := fun l => ?_ }
  obtain ⟨stage, hl⟩ := h.lives l
  refine ⟨stage, { hl with delivery := ?_, place := ?_ }⟩
  · have hd := hl.delivery
    show stage.Holds now (s.owned.lookup l)
    cases hlook : s.owned.lookup l with
    | none =>
      rw [hlook] at hd
      exact hd
    | some d =>
      rw [hlook] at hd
      exact ⟨hd.1, hd.2.lifecycle, fun t ht => hn.trans (hd.2.first t ht)⟩
  · refine { hl.place with calling := fun t ht => ?_ }
    obtain ⟨hs, hc⟩ := hl.place.calling t ht
    exact ⟨hs, hn.trans hc⟩

/-- Another user of the scheduler. -/
theorem Accounted.foreign (h : Accounted ctx notes s) {op : Scheduler.Op}
    (hop : s.foreign ctx op = true) :
    Accounted ctx notes { s with core := Scheduler.step s.core op } := by
  have hreg : op ≠ .register ctx.subscriptionId := by
    rintro rfl
    simp [State.foreign] at hop
  have ht := h.inv.took op
  refine { h with
    inv := h.inv.step op
    lives := fun l => ?_
    cleaning := fun todo hp => ht.stopped h.inv hreg (h.cleaning todo hp) }
  obtain ⟨stage, hl⟩ := h.lives l
  -- others only touch leases that are none of the owner's
  have hother (hnone : s.owned.lookup l = none ∧ s.point.receives ≠ some l) :
      stage = .unseen ∨ stage = .returned ∨ stage = .gone := by
    have ho := hl.unowned hnone.1
    cases stage with
    | receiving => exact absurd (hl.place.receiving.2 rfl) hnone.2
    | unseen => exact .inl rfl
    | returned => exact .inr (.inl rfl)
    | gone => exact .inr (.inr rfl)
    | _ => cases ho
  refine ⟨stage, { hl with
    claimed := fun hs => ht.claimed h.inv (hl.claimed hs)
    held := fun hs => ?_
    waiting := fun hw hst => ?_ }⟩
  · by_cases he : op = .complete l
    · subst he
      have hheld := (hl.held hs).complete h.inv (hl.claimed hs)
      rcases hother (by simpa [State.foreign] using hop) with rfl | rfl | rfl
      · exact absurd rfl hs
      · exact hheld
      · exact hheld
    · exact ht.held h.inv (hl.claimed hs) (hl.held hs) he
  · rcases ht.waiting h.inv hw with hw | hq
    · exact hl.waiting hw fun hs => hst (ht.stopped h.inv hreg hs)
    · have hnone : s.owned.lookup l = none ∧ s.point.receives ≠ some l := by
        rcases hq with ⟨lane, rfl⟩ | rfl <;> simpa [State.foreign] using hop
      rcases hother hnone with rfl | rfl | rfl <;> rfl

theorem Accounted.carried (he : ctx.durability = .ephemeral) :
    Carried ctx (fun tick => tokenOk ctx tick = true) (Accounted ctx) where
  moves h := h.moves
  op _ h hop := h.op _ hop
  flags _ _ _ _ _ _ _ h := h.flags ..
  deliver h hp hc := h.deliver hp hc
  sample h := h.sample
  fence h := h.fence
  prepareStopping h := h.prepareStopping he
  check h := h.check
  finishOne h hp hd hs := h.finishOne he hp hd hs
  grant h := h.grant
  settleOne h := h.settleOne
  settleReturned _ h hp hd := h.settleReturned hp hd _
  removeOne h := h.removeOne
  close h := h.close
  dispatch h hp hg hd hs := h.dispatch he hp hg hd hs
  failReceive _ h _ := h.failReceive _
  reserve h := h.reserve
  receive hok h hp := by
    refine h.receive he hp _ fun message hm => ?_
    rw [tokenOk, hm] at hok
    exact ((Option.any_eq_true_iff_get _ _).1 hok).1
  leave h := h.leave
  drainOne h := h.drainOne he
  jobReports job' h hj hm := h.jobReports hj job' hm
  jobExits h hj := h.jobExits hj
  cancelSubscription h := h.cancelSubscription
  tick h := h.tick
  foreign h := h.foreign

/-! ## Runs -/

/-- The clock goes forward, also for those who measure, and every message carries a token of the
subscription. -/
def Steady (ctx : OwnerContext) (s : State) : Action → Prop
  | .owner tick => s.point.receives.isSome → tokenOk ctx tick = true
  | .clock now => now.NotBefore s.clock
  | .measures started => s.clock.NotBefore started
  | _ => True

instance (ctx : OwnerContext) (s : State) : ∀ action, Decidable (Steady ctx s action)
  | .owner _ => inferInstanceAs (Decidable (_ → _))
  | .clock now => inferInstanceAs (Decidable (now.NotBefore s.clock))
  | .measures started => inferInstanceAs (Decidable (s.clock.NotBefore started))
  | .jobStarts _ | .jobReports .. | .jobExits _ | .requestCancel | .cancelSubscription
  | .stopAdmission _ | .scheduler _ => .isTrue trivial

theorem Steady.forward {action : Action} (h : Steady ctx s action) : Forward s action := by
  cases action <;> first | exact h | trivial

/-- Before the owner starts. -/
theorem accounted_new (ctx : OwnerContext) (hi : Inv core) (clock : MonotonicInstant) :
    Accounted ctx [] (.new core clock) where
  inv := hi
  lives l := by
    refine ⟨.unseen, rfl, ?_, ⟨rfl, rfl⟩, ⟨iff_of_false nofun nofun, nofun, trivial, nofun⟩,
      fun hs => absurd rfl hs, fun hs => absurd rfl hs, fun _ _ => rfl, nofun⟩
    exact holds_none (s := .new core clock) rfl rfl
  cleaning _ h := nomatch h
  completed := rfl
  abandonedEphemeral := rfl
  abandonedDeliveries := rfl

/-- Over a whole run. -/
theorem trace_accounted (he : ctx.durability = .ephemeral) (hi : Inv core)
    (clock : MonotonicInstant) {actions : List Action}
    (hc : Meets (State.step ctx) (Steady ctx) (.new core clock) actions) {rs : List (List Note)}
    (h : trace (State.step ctx) (.new core clock) actions = some (rs, s)) :
    Accounted ctx rs.flatten s := by
  refine trace_flatten (I := Accounted ctx) (fun _ _ _ _ _ hj hc hs => ?_)
    (accounted_new ctx hi clock) hc h
  refine (Accounted.carried he).step hj (fun tick ht => ?_) hc.forward hs
  subst ht
  exact hc

/-- A claimed lease is the subscription's in the scheduler until it is given back, and then
nobody's. -/
structure LeasesKept (ctx : OwnerContext) (notes : List Note) (s : State) : Prop where
  held : ∀ lease, .claimed lease ∈ notes → .released lease ∉ notes →
    OwnedBy s.core ctx.subscriptionId lease
  completed : ∀ lease, .released lease ∈ notes → lease ∉ s.core.owned

/-- A lease that was claimed or given back is in a stage. -/
theorem Lives.seen (h : Lives ctx notes s lease stage)
    (hm : .claimed lease ∈ notes ∨ .released lease ∈ notes) : stage ≠ .unseen := by
  rintro rfl
  have hc : notes.count (.claimed lease) = 0 := congrArg Tally.claimed h.tally
  have hr : notes.count (.released lease) = 0 := congrArg Tally.released h.tally
  exact hm.elim (List.count_eq_zero.1 hc) (List.count_eq_zero.1 hr)

theorem Accounted.leasesKept (h : Accounted ctx notes s) : LeasesKept ctx notes s := by
  refine ⟨fun lease hc hr => ?_, fun lease hr => ?_⟩
  · obtain ⟨stage, hl⟩ := h.lives lease
    have hzero : stage.tally.released = 0 := by
      rw [← hl.tally]
      exact List.count_eq_zero.2 hr
    have hheld := hl.held (hl.seen (.inl hc))
    rwa [hzero] at hheld
  · obtain ⟨stage, hl⟩ := h.lives lease
    have hpos : stage.tally.released ≠ 0 := by
      rw [← hl.tally]
      exact fun hzero => List.count_eq_zero.1 hzero hr
    have hheld := hl.held (hl.seen (.inr hr))
    rw [decide_eq_false hpos] at hheld
    exact Finmap.lookup_eq_none.1 (Option.map_eq_none_iff.1 hheld)

/-- What the accounts say when the owner has left. -/
structure Settled (notes : List Note) (s : State) : Prop where
  /-- A lease receives at most one message. -/
  received : ∀ lease, notes.count (.received lease) ≤ 1
  /-- A received message is counted once, as completed or as abandoned. -/
  once : ∀ lease, .received lease ∈ notes →
    notes.count (.completed lease) + notes.count (.abandoned lease) = 1
  /-- Nothing else is counted. -/
  only : ∀ lease, .received lease ∉ notes →
    notes.count (.completed lease) + notes.count (.abandoned lease) = 0
  completed : s.completed = notes.countP Note.isCompleted
  abandonedEphemeral : s.abandonedEphemeral = notes.countP Note.isAbandoned
  abandonedDeliveries : s.abandonedDeliveries = s.abandonedEphemeral
  claimed : ∀ lease, .claimed lease ∈ notes → notes.count (.claimed lease) = 1
  released : ∀ lease, .claimed lease ∈ notes → notes.count (.released lease) = 1
  /-- None of the leases is left in the scheduler. -/
  owned : ∀ lease, .claimed lease ∈ notes → lease ∉ s.core.owned

theorem counted_eq (notes : List Note) (lease : Nat) :
    (tally notes lease).counted =
      notes.count (.completed lease) + notes.count (.abandoned lease) := by
  induction notes with
  | nil => rfl
  | cons note notes ih =>
    simp only [tally, List.countP_cons, List.count_cons] at ih ⊢
    rw [ih]
    cases note <;> simp [Note.counts] <;> omega

/-- An owner that has left has given every lease back. -/
theorem Accounted.exit_tally (h : Accounted ctx notes s) (hexit : s.point = .exited) (lease : Nat) :
    tally notes lease = ⟨0, 0, 0, 0⟩ ∨ tally notes lease = ⟨1, 0, 0, 1⟩ ∨
      tally notes lease = ⟨1, 1, 1, 1⟩ := by
  obtain ⟨stage, hl⟩ := h.lives lease
  have ho := hl.place.exited (by rw [hexit]; rfl)
  rw [hl.tally]
  cases stage with
  | unseen => exact .inl rfl
  | returned => exact .inr (.inl rfl)
  | gone => exact .inr (.inr rfl)
  | receiving =>
    have := hl.place.receiving.2 rfl
    rw [hexit] at this
    cases this
  | _ => cases ho

theorem Accounted.settled (h : Accounted ctx notes s) (hexit : s.point = .exited) :
    Settled notes s := by
  have htally := h.exit_tally hexit
  have hparts (lease : Nat) : notes.count (.received lease) = (tally notes lease).received ∧
      notes.count (.claimed lease) = (tally notes lease).claimed ∧
      notes.count (.released lease) = (tally notes lease).released := ⟨rfl, rfl, rfl⟩
  have hreleased (lease : Nat) (hm : .claimed lease ∈ notes) :
      notes.count (.released lease) = 1 := by
    obtain ⟨-, hc, hr⟩ := hparts lease
    have hpos := List.count_pos_iff.2 hm
    rcases htally lease with h | h | h
    · rw [hc, h] at hpos
      cases hpos
    · rw [hr, h]
    · rw [hr, h]
  refine ⟨fun lease => ?_, fun lease hm => ?_, fun lease hm => ?_, h.completed,
    h.abandonedEphemeral, h.abandonedDeliveries.trans h.abandonedEphemeral.symm, fun lease hm => ?_,
    hreleased, fun lease hm => ?_⟩
  · obtain ⟨hr, -, -⟩ := hparts lease
    rcases htally lease with h | h | h <;> rw [hr, h] <;> decide
  · obtain ⟨hr, -, -⟩ := hparts lease
    have hpos := List.count_pos_iff.2 hm
    rw [← counted_eq]
    rcases htally lease with h | h | h
    · rw [hr, h] at hpos
      cases hpos
    · rw [hr, h] at hpos
      cases hpos
    · rw [h]
  · obtain ⟨hr, -, -⟩ := hparts lease
    have hzero := List.count_eq_zero.2 hm
    rw [← counted_eq]
    rcases htally lease with h | h | h
    · rw [h]
    · rw [h]
    · rw [hr, h] at hzero
      cases hzero
  · obtain ⟨-, hc, -⟩ := hparts lease
    have hpos := List.count_pos_iff.2 hm
    rcases htally lease with h | h | h
    · rw [hc, h] at hpos
      cases hpos
    · rw [hc, h]
    · rw [hc, h]
  · refine h.leasesKept.completed lease (List.count_pos_iff.1 ?_)
    rw [hreleased lease hm]
    exact Nat.one_pos

/-! ## What the scheduler gets back -/

/-- The owner has claimed every lease that it has taken. -/
structure Claims (ctx : OwnerContext) (notes : List Note) (s : State) : Prop where
  inv : Inv s.core
  taken : ∀ l, Taken s.core ctx.subscriptionId l → .claimed l ∈ notes

theorem Claims.frame (h : Claims ctx notes s) (hf : Frame ctx lease s notes' s') :
    Claims ctx (notes ++ notes') s' := by
  refine ⟨(hf.core h.inv).inv, fun l ht => ?_⟩
  rcases hf.taken h.inv l ht with ht | hm
  · exact List.mem_append_left _ (h.taken l ht)
  · exact List.mem_append_right _ hm

theorem Claims.op (h : Claims ctx notes s) (op : Scheduler.Op)
    (hs : s'.core = Scheduler.step s.core op)
    (hop : op ≠ .takeReceiveReservation ctx.subscriptionId ∧ op ≠ .unregister ctx.subscriptionId) :
    Claims ctx notes s' := by
  refine ⟨hs ▸ h.inv.step op, fun l ht => h.taken l ?_⟩
  exact (h.inv.took op).taken h.inv hop.1 hop.2 (hs ▸ ht)

theorem Claims.carried : Carried ctx (fun _ => True) (Claims ctx) where
  moves h _ _ := { h with }
  op op h hop := h.op op rfl
    ⟨(op.tame_of_plain hop 0).claims _, (op.tame_of_plain hop 0).unregister _⟩
  flags _ _ _ _ _ _ _ h := { h with }
  deliver {_ s _ channel} h _ _ :=
    Claims.frame (s := { s with channel }) { h with } (frame_deliver _ rfl)
  sample h _ _ := { h with }
  fence h _ := h.op (.stopSubscription ctx.subscriptionId) rfl (by simp)
  prepareStopping h _ _ := h.frame (frame_prepareStopping _)
  check h _ _ := { h with }
  finishOne h _ _ hs := h.frame (frame_finishOne hs)
  grant h _ _ := h.op (.takeSettlementReady ctx.subscriptionId) rfl (by simp)
  settleOne h _ _ hs := h.frame (frame_settleOne hs)
  settleReturned result h _ _ := h.frame (frame_settleReturned _ _ _ _ _ _ result)
  removeOne {_ s _ completed} h _ :=
    Claims.frame (s := s.goto (.removing completed)) { h with } frame_removeOne
  close h _ _ := { h with }
  dispatch h _ _ _ hs :=
    (h.op (.takeReady ctx.subscriptionId) rfl (by simp)).frame (frame_dispatch hs)
  failReceive reason h _ := h.frame (frame_failReceive reason : Frame ctx 0 _ _ _)
  reserve h _ hr := h.frame (frame_reserve hr)
  receive _ h _ := h.frame (frame_receiveReturned _)
  leave h _ _ _ := { h with }
  drainOne h _ _ := h.frame (frame_drainOne _)
  jobReports _ h _ _ := { h with }
  jobExits h _ := h.op (.handlerFinished _) rfl (by simp)
  cancelSubscription h := h.op (.stopSubscription ctx.subscriptionId) rfl (by simp)
  tick h _ := { h with }
  foreign {_ s op} h hop := by
    refine h.op op rfl ⟨?_, ?_⟩
    · rintro rfl
      simp [State.foreign] at hop
    · rintro rfl
      simp [State.foreign] at hop

/-- **What an owner has taken, the scheduler gets back.** An owner that has left has completed every
lease that it took. -/
theorem owner_gives_back (he : ctx.durability = .ephemeral) (hi : Inv core)
    (hcore : GaveBack core ctx.subscriptionId) (clock : MonotonicInstant) {actions : List Action}
    (hc : Meets (State.step ctx) (Steady ctx) (.new core clock) actions) {rs : List (List Note)}
    (h : trace (State.step ctx) (.new core clock) actions = some (rs, s))
    (hexit : s.point = .exited) : GaveBack s.core ctx.subscriptionId := by
  have hnew : Claims ctx [] (.new core clock) :=
    ⟨hi, fun l ht => absurd ht (gaveBack_iff.1 hcore l)⟩
  have hclaims : Claims ctx rs.flatten s := by
    refine trace_flatten (I := Claims ctx) (fun _ _ _ _ _ hj hc hs => ?_) hnew hc h
    exact Claims.carried.step hj (fun _ _ _ => trivial) hc.forward hs
  refine gaveBack_iff.2 fun lease ht => ?_
  obtain ⟨r, hl, -⟩ := ownedBy_iff.1 ht.1
  exact ((trace_accounted he hi clock hc h).settled hexit).owned lease (hclaims.taken lease ht)
    (Map.mem_of_lookup hl)

/-- **Every delivery is accounted for once.** In every run of the owner of an ephemeral subscription
the scheduler has each lease that it claimed until it is given back. When it has left, each message
it received has been counted exactly once, as completed or as abandoned, the bus has counted the
same losses as the subscription, each lease it claimed has been given back once, and the scheduler
has none of them. -/
theorem owner_accounts_once (he : ctx.durability = .ephemeral) (config : DeliverySchedulingConfig)
    (ops : List Scheduler.Op) (clock : MonotonicInstant) {actions : List Action}
    (hc : Meets (State.step ctx) (Steady ctx) (.new (exec Scheduler.step (.new config) ops) clock)
      actions)
    {rs : List (List Note)}
    (h : trace (State.step ctx) (.new (exec Scheduler.step (.new config) ops) clock) actions =
      some (rs, s)) :
    LeasesKept ctx rs.flatten s ∧ (s.point = .exited → Settled rs.flatten s) := by
  have ha := trace_accounted he (exec_inv (inv_new config) ops) clock hc h
  exact ⟨ha.leasesKept, ha.settled⟩

/-- Two messages are received; the subscription is cancelled when the first one's handler has
succeeded. The first message is accepted and counts as completed, the second one, which the provider
cannot take back, as abandoned. -/
theorem owner_accounts_once_cancelled :
    let ctx : OwnerContext := ⟨"local", .acceptOnly, .ephemeral, .default, ⟨1⟩, ⟨"subscriber"⟩,
      "topic", false, .continue, false, .strict⟩
    let message (id : String) : InboundMessage := ⟨⟨"topic"⟩, ⟨id⟩, 0, ∅, none, .native ⟨⟨0⟩, 0⟩,
      some ⟨⟨1⟩, .foreign ⟨0⟩⟩⟩
    let owner (id : String) (pick : Nat) : Action :=
      .owner { pick, received := .returned (.ok (.message (message id))) }
    let actions := List.replicate 13 (owner "a" 1) ++ List.replicate 15 (owner "b" 1) ++
      [.jobStarts 1, .jobReports 1 .succeeds [], .jobExits 1, .requestCancel] ++
      [0, 0, 0, 0, 0, 1, 2, 0, 0, 1, 2, 0, 1, 2, 0, 0, 0, 0, 0, 0, 0, 0, 0, 0, 1, 0, 1, 0, 0,
        0, 0, 0, 0].map (owner "")
    let run := trace (State.step ctx) (.new (exec Scheduler.step (.new .default) [.register ⟨1⟩])
      ⟨0, 0⟩) actions
    run.any (fun t => t.2.point.isExited && t.2.completed == 1 && t.2.abandonedEphemeral == 1) ∧
      ∀ rs s, run = some (rs, s) → LeasesKept ctx rs.flatten s ∧ Settled rs.flatten s := by
  intro ctx message owner actions run
  have hrun : run.any
      (fun t => t.2.point.isExited && t.2.completed == 1 && t.2.abandonedEphemeral == 1) := by
    decide +kernel
  refine ⟨hrun, fun rs s h => ?_⟩
  obtain ⟨hkept, hsettled⟩ :=
    owner_accounts_once rfl .default [.register ⟨1⟩] ⟨0, 0⟩ (by decide +kernel) h
  refine ⟨hkept, hsettled ?_⟩
  rw [h] at hrun
  simp only [Option.any_some, Bool.and_eq_true] at hrun
  cases hp : s.point with
  | exited => rfl
  | _ =>
    have hexit := hrun.1.1
    rw [hp] at hexit
    cases hexit

end

end EventBus.Delivery
