import EventBus.Delivery.Stages

/-!
# What the owner does to one delivery

For each thing that the owner does to a delivery, the stage it leads to: a handler is granted
(`turn_dispatch`), an attempt is finished (`turn_finishAttempt`), a message about the delivery
arrives (`Lives.deliver`). The effects of a decision are its loss or the settlement it asks for,
never both (`Decided.performs`).
-/

namespace EventBus.Delivery

open Lib Scheduler

section
variable {result : Option FailureDirective} {token : SettlementToken} {effects : Effects}
  {forwarded : Bool} {sent channel : List CoordinatorMessage} {message : CoordinatorMessage}
  {tick : Tick} {ctx : OwnerContext} {notes notes' : List Note} {s s' : State} {lease : Nat}
  {stage : Stage} {d : OwnedSyncDelivery}

/-! ## Counting, sending and stopping -/

@[simp] theorem put_lookup : (s.put lease d).owned.lookup lease = some d :=
  (Map.lookup_insert_eq _ _ _ _).trans (if_pos rfl)

theorem holds_of (hd : s.owned.lookup lease = some d) (hfit : stage.Fits d)
    (hint : d.Intact s.clock) : stage.Holds s.clock (s.owned.lookup lease) := by
  rw [hd]
  exact ⟨hfit, hint⟩

/-- A delivery put back with the first attempt that it had. -/
theorem holds_put {clock : MonotonicInstant} {d' : OwnedSyncDelivery} (hfit : stage.Fits d')
    (hint : d.Intact clock) (hl : d'.lifecycleFailed = d.lifecycleFailed)
    (hf : d'.firstAttempt = d.firstAttempt) :
    stage.Holds clock ((s.put lease d').owned.lookup lease) := by
  rw [put_lookup]
  exact ⟨hfit, hl.trans hint.lifecycle, hf ▸ hint.first⟩

theorem inbox_append {messages : List CoordinatorMessage} (hc : s'.channel = s.channel ++ messages)
    (hm : ∀ m ∈ messages, m.leaseId = lease) : s'.inbox lease = s.inbox lease ++ messages := by
  rw [State.inbox, hc, List.filter_append]
  congr 1
  exact List.filter_eq_self.2 fun m hmem => by simp [hm m hmem]

/-- `s'` is `s` after some messages were sent to the owner; losses may have been counted and the
subscription stopped. -/
structure Told (ctx : OwnerContext) (s : State) (sent : List CoordinatorMessage) (s' : State) :
    Prop where
  owned : s'.owned = s.owned
  jobs : s'.jobs = s.jobs
  point : s'.point = s.point
  clock : s'.clock = s.clock
  channel : s'.channel = s.channel ++ sent
  core : s'.core = s.core ∨ s'.core = s.core.stopSubscription ctx.subscriptionId

theorem countAbandoned_eq (he : ctx.durability = .ephemeral) (times : Nat) :
    s.countAbandoned ctx lease times = (List.replicate times (.abandoned lease), { s with
      abandonedDeliveries := s.abandonedDeliveries + times
      abandonedEphemeral := s.abandonedEphemeral + times }) := if_pos he

/-- Counting losses changes the counters only, and notes nothing else. -/
theorem countAbandoned_cases (ctx : OwnerContext) (s : State) (lease times : Nat) :
    ∃ notes deliveries ephemeral, s.countAbandoned ctx lease times = (notes, { s with
      abandonedDeliveries := deliveries, abandonedEphemeral := ephemeral }) ∧
      ∀ note ∈ notes, note = .abandoned lease := by
  unfold State.countAbandoned
  split
  · exact ⟨_, _, _, rfl, fun note hn => List.eq_of_mem_replicate hn⟩
  · exact ⟨_, s.abandonedDeliveries, s.abandonedEphemeral, rfl, nofun⟩

theorem told_perform (effects : Effects) :
    Told ctx s effects.sent (s.perform ctx lease effects).2 := by
  obtain ⟨notes, deliveries, ephemeral, heq, -⟩ :=
    countAbandoned_cases ctx s lease effects.abandoned
  simp only [State.perform, heq]
  split
  · exact ⟨rfl, rfl, rfl, rfl, rfl, .inr rfl⟩
  · exact ⟨rfl, rfl, rfl, rfl, rfl, .inl rfl⟩

theorem Told.send (h : Told ctx s sent s') (messages : List CoordinatorMessage) :
    Told ctx s (sent ++ messages) (s'.send messages) :=
  { h with channel := by rw [State.send, h.channel, List.append_assoc] }

theorem Told.inv (h : Told ctx s sent s') (hi : Inv s.core) : Inv s'.core := by
  rcases h.core with hc | hc
  · exact hc ▸ hi
  · exact hc ▸ hi.step (.stopSubscription ctx.subscriptionId)

theorem Ungranted.told (h : Ungranted ctx s lease) (hi : Inv s.core) (ht : Told ctx s sent s') :
    Ungranted ctx s' lease := by
  rcases ht.core with hc | hc
  · intro hw
    rw [hc] at hw ⊢
    exact h hw
  · exact h.op hi (.stopSubscription ctx.subscriptionId) hc rfl

theorem perform_none (he : ctx.durability = .ephemeral) : s.perform ctx lease {} = ([], s) := by
  simp [State.perform, countAbandoned_eq he, State.send]

/-- The notes of a decision. -/
def lossNotes (lease : Nat) (lost : Bool) : List Note := if lost then [.abandoned lease] else []

theorem tally_lossNotes (lost : Bool) :
    tally (lossNotes lease lost) lease = ⟨0, 0, lost.toNat, 0⟩ := by
  cases lost <;> simp [lossNotes, tally, Note.counts]

/-- What a decision about a token notes and sends. -/
theorem Decided.performs (h : Decided lease token effects) (he : ctx.durability = .ephemeral)
    (s : State) :
    ∃ lost m, (s.perform ctx lease effects).1 = lossNotes lease lost ∧ Stage.Decision lease lost m ∧
      m.leaseId = lease ∧ Told ctx s [m] (s.perform ctx lease effects).2 := by
  cases h with
  | @settles intent ht =>
    refine ⟨false, _, ?_, ⟨intent, rfl, by rw [ht]; rfl⟩, rfl,
      told_perform ⟨0, [.settlement lease intent], false⟩⟩
    simp [State.perform, countAbandoned_eq he, lossNotes]
  | loses cancels =>
    refine ⟨true, _, ?_, rfl, rfl, told_perform ⟨1, [.abandoned lease], cancels⟩⟩
    simp [State.perform, countAbandoned_eq he, lossNotes]

/-! ## Attempts -/

/-- Nothing about the delivery is on its way to the owner, and no handler can be granted for it. -/
structure Calm (ctx : OwnerContext) (s : State) (lease : Nat) : Prop where
  inv : Inv s.core
  job : s.jobs.lookup lease = none
  inbox : s.inbox lease = []
  ungranted : Ungranted ctx s lease

/-- What the owner did to a delivery that was not counted before. -/
structure Turn (ctx : OwnerContext) (lease : Nat) (s : State) (notes : List Note) (s' : State)
    (stage : Stage) : Prop where
  tally : (⟨1, 1, 0, 0⟩ : Tally) + tally notes lease = stage.tally
  delivery : stage.Holds s'.clock (s'.owned.lookup lease)
  inbox : stage.InboxOk lease (s'.jobs.lookup lease) (s'.inbox lease)
  point : s'.point = s.point
  clock : s'.clock = s.clock
  ungranted : Ungranted ctx s' lease

/-- The stages after a grant. -/
def Stage.Begun : Stage → Prop
  | .running | .resting true | .deciding _ false => True
  | _ => False

theorem Calm.op (h : Calm ctx s lease) (op : Scheduler.Op) (hop : op.plain = true) :
    Calm ctx { s with core := Scheduler.step s.core op } lease :=
  ⟨h.inv.step op, h.job, h.inbox, h.ungranted.op h.inv op rfl hop⟩

theorem Calm.handlerFinished (h : Calm ctx s lease) :
    Calm ctx (s.onCore fun core => core.handlerFinished lease) lease :=
  h.op (.handlerFinished lease) rfl

/-- A decision that is sent together with the end of the handler. -/
theorem Calm.decides (h : Calm ctx s lease) {lost : Bool} {m : CoordinatorMessage}
    (hm : Stage.Decision lease lost m) (hl : m.leaseId = lease) (hjobs : s'.jobs = s.jobs)
    (hch : s'.channel = s.channel ++ [m, .handlerFinished lease]) (hp : s'.point = s.point)
    (hclock : s'.clock = s.clock) (hown : s'.owned.lookup lease = some d)
    (hd : (Stage.deciding lost false).Fits d) (hint : d.Intact s.clock)
    (hu : Ungranted ctx s' lease) :
    Turn ctx lease s (lossNotes lease lost) s' (.deciding lost false) where
  tally := by
    rw [tally_lossNotes]
    cases lost <;> rfl
  delivery := holds_of hown hd (hclock ▸ hint)
  inbox := by
    refine ⟨by rw [hjobs]; exact h.job, m, hm, ?_⟩
    rw [inbox_append hch, h.inbox]
    · rfl
    · intro m' hm'
      rcases List.mem_pair.1 hm' with rfl | rfl
      · exact hl
      · rfl
  point := hp
  clock := hclock
  ungranted := hu

theorem finishAttempt_some (h : s.finishAttempt ctx lease d result forwarded = some (notes, s')) :
    ∃ effects, (∀ token, d.token = some token → Decided lease token effects) ∧
      notes = ((s.put lease d.finished).perform ctx lease effects).1 ∧
      s' = ((s.put lease d.finished).perform ctx lease effects).2.send
        [.handlerFinished lease] := by
  obtain ⟨event, -, heq⟩ := Option.map_eq_some_iff.1 h
  cases heq
  refine ⟨_, fun token ht => ?_, rfl, rfl⟩
  rw [ht]
  cases result with
  | none => exact decided_settle ..
  | some directive => exact decided_finishFailedDelivery ..

/-- A delivery with a token that is finished is decided, one way or the other. -/
theorem turn_finishAttempt (he : ctx.durability = .ephemeral) (hc : Calm ctx s lease)
    (hd : (Stage.resting false).Fits d) (hint : d.Intact s.clock)
    (h : s.finishAttempt ctx lease d result forwarded = some (notes, s')) :
    ∃ lost, Turn ctx lease s notes s' (.deciding lost false) := by
  obtain ⟨hin, -, htok, hdue, hres, hrun, hset, hab⟩ := hd
  obtain ⟨token, htok⟩ := Option.isSome_iff_exists.1 htok
  obtain ⟨effects, hdec, rfl, rfl⟩ := finishAttempt_some h
  obtain ⟨lost, m, hn, hm, hl, ht⟩ := (hdec token htok).performs he (s.put lease d.finished)
  have hfit : (Stage.deciding lost false).Fits d.finished :=
    ⟨hin, Option.isSome_eq_false_iff.1 hdue |> Option.isNone_iff_eq_none.1, hres, hrun, hset,
      rfl, hab⟩
  have ht := ht.send [.handlerFinished lease]
  have hu : Ungranted ctx (s.put lease d.finished) lease := hc.ungranted
  refine ⟨lost, ?_⟩
  rw [hn]
  exact hc.decides hm hl ht.jobs ht.channel ht.point ht.clock (ht.owned ▸ put_lookup) hfit
    { hint with } (hu.told hc.inv ht)

theorem turn_submit (hc : Calm ctx s lease) (hd : (Stage.resting false).Fits d)
    (hint : d.Intact s.clock) (hh : d.handlerFinished = false) {attempt : Nat}
    (h : s.submit lease d attempt = some (notes, s')) : Turn ctx lease s notes s' .running := by
  obtain ⟨event, -, heq⟩ := Option.map_eq_some_iff.1 h
  cases heq
  obtain ⟨hin, hdel, htok, hdue, -, -, hset, hab⟩ := hd
  refine ⟨rfl, ?_, ⟨[], nofun, ?_⟩, rfl, rfl, hc.ungranted⟩
  · rw [put_lookup]
    exact ⟨⟨hin, hdel, htok, by simpa using hdue, rfl, hset, hh, hab⟩, hint.lifecycle, hint.first⟩
  · rw [Map.lookup_insert_eq, if_pos rfl]
    exact hc.inbox

theorem turn_startAttempt (he : ctx.durability = .ephemeral) (hc : Calm ctx s lease)
    (hd : (Stage.resting false).Fits d) (hint : d.Intact s.clock)
    (h : s.startAttempt ctx tick lease d = some (notes, s')) :
    ∃ stage : Stage, stage.Begun ∧ Turn ctx lease s notes s' stage := by
  unfold State.startAttempt at h
  split at h
  · split at h
    · exact ⟨.running, trivial, turn_submit hc
        (d := { d with retryPending := false, handlerFinished := false }) hd
        { hint with } rfl h⟩
    · cases h
      obtain ⟨hin, hdel, htok, -, hres, hrun, hset, hab⟩ := hd
      have hcalm := hc.op (.deferUnstartedRetry lease) rfl
      refine ⟨.resting true, trivial, rfl, ?_, ⟨hc.job, hc.inbox⟩, rfl, rfl, hcalm.ungranted⟩
      exact holds_put ⟨hin, hdel, htok, rfl, hres, hrun, hset, hab⟩ hint rfl rfl
    · obtain ⟨lost, ht⟩ := turn_finishAttempt he hc.handlerFinished
        (show (Stage.resting false).Fits { d with retryPending := false } from hd)
        { hint with } h
      exact ⟨.deciding lost false, trivial, { ht with }⟩
  · exact ⟨.running, trivial, turn_submit hc (d := { d with handlerFinished := false }) hd
      { hint with } rfl h⟩

/-- The filter's part of a grant: an excluded delivery is decided at once. -/
theorem turn_excluded (hc : Calm ctx s lease) (hd : Stage.fresh.Fits d) (hint : d.Intact s.clock)
    (he : ctx.durability = .ephemeral) (hdec : Decided lease token effects)
    (delivery : Option Event) (tok : Option SettlementToken) :
    ∃ lost, Turn ctx lease s (s.perform ctx lease effects).1
      ((((s.perform ctx lease effects).2.put lease { d with
        inbound := none, delivery := delivery, token := tok }).onCore fun core =>
        core.handlerFinished lease).send [.handlerFinished lease]) (.deciding lost false) := by
  obtain ⟨-, -, -, hdue, hres, hrun, hset, hh, hab⟩ := hd
  obtain ⟨lost, m, hn, hm, hl, ht⟩ := hdec.performs he s
  have hu : Ungranted ctx (s.perform ctx lease effects).2 lease := hc.ungranted.told hc.inv ht
  refine ⟨lost, ?_⟩
  rw [hn]
  refine hc.decides hm hl ht.jobs ?_ ht.point ht.clock put_lookup
    ⟨rfl, hdue, hres, hrun, hset, hh, hab⟩ { hint with } ?_
  · exact (ht.send [.handlerFinished lease]).channel
  · exact hu.op (ht.inv hc.inv) (.handlerFinished lease) rfl rfl

theorem turn_dispatch (he : ctx.durability = .ephemeral) (hc : Calm ctx s lease)
    (hd : stage = .fresh ∨ stage = .resting false) (hfit : stage.Fits d) (hint : d.Intact s.clock)
    (h : s.dispatch ctx tick lease d = some (notes, s')) :
    ∃ stage' : Stage, stage'.Begun ∧ Turn ctx lease s notes s' stage' := by
  unfold State.dispatch at h
  rcases hd with rfl | rfl
  · have hfresh := hfit
    obtain ⟨⟨message, payload, hin, htok⟩, -, -, hdue, hres, hrun, hset, -, hab⟩ := hfit
    obtain ⟨token, htok⟩ := Option.isSome_iff_exists.1 htok
    rw [hin] at h
    cases hfilter : tick.filter with
    | excludes =>
      simp only [prepareDelivery, hfilter, htok, Option.isNone_none, if_true] at h
      cases h
      obtain ⟨lost, ht⟩ := turn_excluded hc hfresh hint he
        (decided_settle ctx lease token .accept message.id ctx.topic) none none
      exact ⟨.deciding lost false, trivial, ht⟩
    | panics =>
      simp only [prepareDelivery, hfilter, htok, Option.isNone_none, if_true] at h
      cases h
      obtain ⟨lost, ht⟩ := turn_excluded hc hfresh hint he
        (decided_finishFailedDelivery ctx lease token _ _ _) none none
      exact ⟨.deciding lost false, trivial, ht⟩
    | passes =>
      simp only [prepareDelivery, hfilter, htok, Option.isNone_some, Bool.false_eq_true, if_false,
        perform_none he] at h
      have hready : (Stage.resting false).Fits { d with
          inbound := none, delivery := some ⟨message.id, ctx.topic, message.headers⟩
          token := some token } := ⟨rfl, rfl, rfl, by simp [hdue], hres, hrun, hset, hab⟩
      split at h
      · obtain ⟨⟨notes', s₁⟩, hf, heq⟩ := Option.map_eq_some_iff.1 h
        cases heq
        obtain ⟨lost, ht⟩ := turn_finishAttempt he hc.handlerFinished hready { hint with } hf
        exact ⟨.deciding lost false, trivial, { ht with }⟩
      · obtain ⟨⟨notes', s₁⟩, hf, heq⟩ := Option.map_eq_some_iff.1 h
        cases heq
        exact turn_startAttempt he hc (d := { d with
          inbound := none, delivery := some ⟨message.id, ctx.topic, message.headers⟩
          token := some token, session := ctx.retryEnabled }) hready { hint with } hf
  · rw [hfit.1] at h
    exact turn_startAttempt he hc hfit hint h

/-! ## Messages -/

/-- Owned, not counted, and nothing about it under way. -/
def Stage.idle : Stage → Bool
  | .fresh | .resting _ | .done => true
  | _ => false

theorem Lives.idle (h : Lives ctx notes s lease stage) (hs : stage.idle = true) :
    stage ≠ .unseen ∧ stage.tally = ⟨1, 1, 0, 0⟩ ∧ s.jobs.lookup lease = none ∧
    s.inbox lease = [] := by
  have hin := h.inbox
  cases stage with
  | fresh => exact ⟨nofun, rfl, hin⟩
  | resting due => exact ⟨nofun, rfl, hin⟩
  | done => exact ⟨nofun, rfl, hin⟩
  | _ => cases hs

/-- The owner's turn, seen from a state before it. -/
theorem Lives.turn (h : Lives ctx notes s lease stage) (hs : stage.idle = true)
    (hf : Frame ctx lease s notes' s') (hi : Inv s.core) {s₁ : State} {stage' : Stage}
    (ht : Turn ctx lease s₁ notes' s' stage') (hp : stage'.At s'.clock s'.point lease)
    (hfo : stage' ≠ .forgotten) : Lives ctx (notes ++ notes') s' lease stage' := by
  obtain ⟨hne, htal, -, -⟩ := h.idle hs
  exact h.become hf hi (htal ▸ ht.tally) ht.delivery ht.inbox hp (.inr ht.ungranted)
    (fun he => absurd he hfo) hne

/-- No call of the provider is out, and the owner has not left. -/
def Point.uncalled : Point → Bool
  | .receiving _ | .calling .. | .exited => false
  | _ => true

theorem at_point {p : Point} (hp : s.point = p) (ha : stage.AllowedAt p lease)
    (hs : stage ≠ .receiving) (hu : p.uncalled = true) : stage.At s.clock s.point lease := by
  rw [hp]
  refine ⟨?_, fun t ht => ?_, ha, fun he => ?_⟩
  · refine iff_of_false (fun hr => ?_) hs
    cases p <;> cases hr
    cases hu
  · cases p <;> cases ht
    cases hu
  · cases p <;> cases he
    cases hu

theorem frame_pop (hc : s.channel = message :: channel) :
    Frame ctx message.leaseId s [] { s with channel } :=
  { Frame.refl with
    inbox := fun l hl => by
      have : ¬ message.leaseId = l := Ne.symm hl
      simp [State.inbox, hc, this] }

theorem deliver_point (message : CoordinatorMessage) :
    (s.deliver ctx message).2.point = s.point := by
  cases message with
  | settlement l intent =>
    simp only [State.deliver]
    split
    · rfl
    · split
      · split <;> rfl
      · rfl
  | _ =>
    simp only [State.deliver]
    split <;> rfl

theorem Lives.exists_delivery (h : Lives ctx notes s lease stage) (ho : stage.owned = true) :
    ∃ d, s.owned.lookup lease = some d ∧ stage.Fits d ∧ d.Intact s.clock := by
  cases hd : s.owned.lookup lease with
  | none =>
    rw [h.unowned hd] at ho
    cases ho
  | some d => exact ⟨d, rfl, h.fits hd⟩

/-- The next message about `lease` leads it to its next stage. -/
theorem Lives.deliver (h : Lives ctx notes s lease stage) (hi : Inv s.core)
    (hp : s.point = .messages) (hc : s.channel = message :: channel)
    (hl : message.leaseId = lease) :
    ∃ stage', Lives ctx (notes ++ ({ s with channel }.deliver ctx message).1)
      ({ s with channel }.deliver ctx message).2 lease stage' := by
  have hf : Frame ctx lease s ({ s with channel }.deliver ctx message).1
      ({ s with channel }.deliver ctx message).2 :=
    (hl ▸ frame_pop hc).silent (frame_deliver message hl)
  have hin : s.inbox lease = message :: { s with channel }.inbox lease := by
    simp [State.inbox, hc, hl]
  have hbox := h.inbox
  rw [hin] at hbox
  cases stage with
  | running =>
    obtain ⟨d, hd, ⟨hnone, hdel, htok, hdue, hrun, hset, hh, hab⟩, hint⟩ := h.exists_delivery rfl
    obtain ⟨reports, hr, heq⟩ := hbox
    cases reports with
    | nil =>
      split at heq
      · cases heq
      · rename_i hjob
        obtain ⟨rfl, hrest⟩ := List.cons.inj heq
        simp only [State.deliver, hd] at hf ⊢
        have hjob : s.jobs.lookup lease = none := by simpa using hjob
        rcases Option.eq_none_or_eq_some d.result with hres | ⟨result, hres⟩
        · refine ⟨.resting false, h.become hf hi rfl (holds_put ?_ hint rfl rfl) ⟨hjob, hrest⟩
            (at_point hp trivial (by simp) rfl) (.inl rfl) (by simp) (by simp)⟩
          · exact ⟨hnone, hdel, htok, by simp [hdue], hres, rfl, hset, hab⟩
        · refine ⟨.done, h.become hf hi rfl (holds_put ?_ hint rfl rfl) ⟨hjob, hrest⟩
            (at_point hp trivial (by simp) rfl) (.inr (h.ungranted rfl)) (by simp) (by simp)⟩
          · exact ⟨hnone, hdel, htok, hdue, by simp [hres], rfl, hset, rfl, hab⟩
    | cons report reports =>
      obtain ⟨rfl, hrest⟩ := List.cons.inj heq
      obtain ⟨outcome, directive, rfl⟩ := hr message List.mem_cons_self
      simp only [State.deliver, hd] at hf ⊢
      refine ⟨.running, h.become hf hi rfl (holds_put ?_ hint rfl rfl)
        ⟨reports, fun m hm => hr m (List.mem_cons_of_mem _ hm), hrest⟩
        (at_point hp ⟨rfl, List.not_mem_nil⟩ (by simp) rfl) (.inr (h.ungranted rfl)) (by simp)
        (by simp)⟩
      · exact ⟨hnone, hdel, htok, hdue, hrun, hset, hh, hab⟩
  | deciding lost rejected =>
    obtain ⟨d, hd, ⟨hnone, hdue, hres, hrun, hset, hh, hab⟩, hint⟩ := h.exists_delivery rfl
    obtain ⟨hjob, m, hm, heq⟩ := hbox
    obtain ⟨rfl, hrest⟩ := List.cons.inj heq
    have hplace : (Stage.decided lost rejected).At s.clock s.point lease :=
      at_point hp (fun _ => ⟨rfl, List.not_mem_nil⟩) (by simp) rfl
    cases lost with
    | true =>
      cases hm
      simp only [State.deliver, hd] at hf ⊢
      refine ⟨.decided true rejected, h.become hf hi rfl (holds_put ?_ hint rfl rfl) ⟨hjob, hrest⟩
        hplace (.inr (h.ungranted rfl)) (by simp) (by simp)⟩
      · exact ⟨hnone, hdue, hres, hrun, by simp [hset], fun intent he => by simp [hset] at he,
          hh, rfl⟩
    | false =>
      obtain ⟨intent, rfl, htok⟩ := hm
      simp only [State.deliver, hd, hset] at hf ⊢
      refine ⟨.decided false rejected, h.become hf hi rfl (holds_put ?_ hint rfl rfl)
        ⟨hjob, hrest⟩ hplace (.inr (h.ungranted rfl)) (by simp) (by simp)⟩
      · exact ⟨hnone, hdue, hres, hrun, rfl, fun intent' he => Option.some.inj he ▸ htok, hh, hab⟩
  | decided lost finished =>
    obtain ⟨d, hd, ⟨hnone, hdue, hres, hrun, hset, hint', hh, hab⟩, hint⟩ := h.exists_delivery rfl
    obtain ⟨hjob, heq⟩ := hbox
    cases finished with
    | true => cases heq
    | false =>
      obtain ⟨rfl, hrest⟩ := List.cons.inj heq
      simp only [State.deliver, hd] at hf ⊢
      refine ⟨.decided lost true, h.become hf hi rfl (holds_put ?_ hint rfl rfl) ⟨hjob, hrest⟩
        (at_point hp Stage.decided_allowedAt (by simp) rfl) (.inr (h.ungranted rfl)) (by simp)
        (by simp)⟩
      · exact ⟨hnone, hdue, hres, rfl, hset, hint', rfl, hab⟩
  | _ => cases hbox.2

theorem Accounted.deliver (h : Accounted ctx notes s) (hp : s.point = .messages)
    (hc : s.channel = message :: channel) :
    After (Accounted ctx) notes ({ s with channel }.deliver ctx message) := by
  have hpoint : ({ s with channel }.deliver ctx message).2.point = s.point := deliver_point message
  refine h.about ((frame_pop hc).silent (frame_deliver message rfl))
    (fun stage hl => hl.deliver h.inv hp hc rfl) (fun l _ => by rw [hpoint]; exact .refl l _)
    fun todo ht => ?_
  rw [hpoint, hp] at ht
  cases ht

/-! ## What the other functions leave -/

theorem erase_lookup (s : State) (lease : Nat) :
    ({ s with owned := s.owned.erase lease } : State).owned.lookup lease = none :=
  (Map.lookup_erase_eq _ _ _).trans (if_pos rfl)

theorem prepareStopping_skip (hin : d.inbound = none)
    (h : d.delivery = none ∨ d.running = true ∨ d.abandoned = true ∨ d.result.isSome = true ∨
      d.settlement.isSome = true) : s.prepareStopping ctx lease d = ([], s) := by
  simp only [State.prepareStopping, hin]
  split
  · rfl
  · rename_i hd
    rw [hd] at h
    rw [if_pos (h.resolve_left nofun)]

theorem prepareStopping_point : (s.prepareStopping ctx lease d).2.point = s.point := by
  simp only [State.prepareStopping, State.countAbandoned]
  repeat' split
  all_goals rfl

/-- `d'` is `d` after its result was taken. -/
structure OwnedSyncDelivery.Resulted (d d' : OwnedSyncDelivery) (due : Option MonotonicInstant) :
    Prop where
  inbound : d'.inbound = d.inbound
  delivery : d'.delivery = d.delivery
  token : d'.token = d.token
  due : d'.due = due
  result : d'.result = none
  running : d'.running = d.running
  settlement : d'.settlement = d.settlement
  handlerFinished : d'.handlerFinished = d.handlerFinished
  abandoned : d'.abandoned = d.abandoned
  lifecycleFailed : d'.lifecycleFailed = d.lifecycleFailed
  firstAttempt : d'.firstAttempt = d.firstAttempt
  nextAttempt : d'.nextAttempt = d.nextAttempt
  retry : d'.retry = d.retry

/-- What `finishOne` does: it ends the attempts of a delivery with a result, or makes it wait for
its retry, or only looks whether a retry is due. -/
theorem finishOne_cases (h : s.finishOne ctx tick lease d = some (notes, s')) :
    (d.handlerFinished = true ∧ d.result.isSome ∧
      ((∃ d' result s₁, d.Resulted d' d.due ∧
        s.finishAttempt ctx lease d' result tick.forwarded = some (notes, s₁) ∧
        s' = s₁.wakeDue ctx lease d'.finished tick.retryCancelled) ∨
      ∃ d' due, d.Resulted d' (some due) ∧ notes = [] ∧
        s' = ((s.put lease d').onCore fun core =>
          core.finishAttemptWaiting lease).wakeDue ctx lease d'
          tick.retryCancelled)) ∨
    ((d.handlerFinished = false ∨ d.result = none) ∧ notes = [] ∧
      s' = s.wakeDue ctx lease d tick.retryCancelled) := by
  unfold State.finishOne at h
  split at h
  · rename_i outcome directive hh hres
    refine .inl ⟨hh, by simp [hres], ?_⟩
    dsimp only at h
    split at h
    · rename_i d' heq
      cases h
      refine .inr ⟨d', ?_⟩
      unfold State.attemptResult at heq
      split at heq
      · cases heq
      · split at heq
        · split at heq
          · cases heq
          · cases heq
          · cases heq
            exact ⟨_, ⟨rfl, rfl, rfl, rfl, rfl, rfl, rfl, rfl, rfl, rfl, rfl, rfl, rfl⟩, rfl, rfl⟩
        · cases heq
    · rename_i d' result heq
      obtain ⟨⟨notes', s₁⟩, hf, hsome⟩ := Option.map_eq_some_iff.1 h
      cases hsome
      refine .inl ⟨{ d' with retryPending := false }, result, s₁, ?_, hf, rfl⟩
      unfold State.attemptResult at heq
      split at heq
      · cases heq
        exact ⟨rfl, rfl, rfl, rfl, rfl, rfl, rfl, rfl, rfl, rfl, rfl, rfl, rfl⟩
      · split at heq
        · split at heq
          · cases heq
            exact ⟨rfl, rfl, rfl, rfl, rfl, rfl, rfl, rfl, rfl, rfl, rfl, rfl, rfl⟩
          · cases heq
            exact ⟨rfl, rfl, rfl, rfl, rfl, rfl, rfl, rfl, rfl, rfl, rfl, rfl, rfl⟩
          · cases heq
        · cases heq
          exact ⟨rfl, rfl, rfl, rfl, rfl, rfl, rfl, rfl, rfl, rfl, rfl, rfl, rfl⟩
  · rename_i hno
    cases h
    refine .inr ⟨?_, rfl, rfl⟩
    cases hh : d.handlerFinished with
    | false => exact .inl rfl
    | true =>
      rcases Option.eq_none_or_eq_some d.result with hres | ⟨⟨outcome, directive⟩, hres⟩
      · exact .inr hres
      · exact absurd hres (hno outcome directive hh)

theorem wakeDue_none (hdue : d.due = none) (retryCancelled : Bool) :
    s.wakeDue ctx lease d retryCancelled = s := by
  unfold State.wakeDue
  rw [hdue]

theorem wakeDue_point (retryCancelled : Bool) :
    (s.wakeDue ctx lease d retryCancelled).point = s.point := by
  unfold State.wakeDue
  repeat' split
  all_goals rfl

theorem finishOne_point (h : s.finishOne ctx tick lease d = some (notes, s')) :
    s'.point = s.point := by
  rcases finishOne_cases h with ⟨-, -, ⟨d', result, s₁, -, hfin, rfl⟩ | ⟨d', due, -, -, rfl⟩⟩ |
    ⟨-, -, rfl⟩
  · obtain ⟨effects, -, -, rfl⟩ := finishAttempt_some hfin
    rw [wakeDue_point]
    exact (told_perform effects).point
  · exact wakeDue_point _
  · exact wakeDue_point _

theorem receiveReturned_point (tick : Tick) :
    (s.receiveReturned ctx tick lease).2.point = .messages := by
  simp only [State.receiveReturned, State.perform, State.countAbandoned]
  repeat' split
  all_goals rfl

end

end EventBus.Delivery
