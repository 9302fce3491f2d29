import EventBus.Delivery.OwnerFrame

/-!
# The life of one delivery

A lease is claimed, receives a message or not, and is given back. In between, the message is a
delivery of the owner, and what the owner knows about it is spread over the delivery itself, the
messages about it that are still in the channel, and its job on the pool. `Stage` names the
combinations that occur, for an ephemeral provider whose messages carry tokens. `Lives` says
that a lease is in a stage: how often it has been counted (`Stage.tally`), what its delivery looks
like (`Stage.Fits`), what is in the channel and on the pool (`Stage.InboxOk`), and at which points
of the loop the owner can be (`Stage.At`).
-/

namespace EventBus.Delivery

open Lib Scheduler

variable {notes notes' : List Note} {ctx : OwnerContext} {p p' : Point} {lease : Nat}
  {s s' : State}

/-! ## Counts -/

/-- What the notes say about one lease. -/
structure Tally where
  claimed : Nat
  received : Nat
  /-- Times it was counted as completed or abandoned. -/
  counted : Nat
  released : Nat
deriving DecidableEq

instance : Add Tally where
  add a b := ⟨a.claimed + b.claimed, a.received + b.received, a.counted + b.counted,
    a.released + b.released⟩

/-- The note counts `lease`. -/
def Note.counts (lease : Nat) (note : Note) : Bool :=
  note = .completed lease ∨ note = .abandoned lease

def tally (notes : List Note) (lease : Nat) : Tally where
  claimed := notes.count (.claimed lease)
  received := notes.count (.received lease)
  counted := notes.countP (Note.counts lease)
  released := notes.count (.released lease)

theorem tally_append (notes notes' : List Note) (lease : Nat) :
    tally (notes ++ notes') lease = tally notes lease + tally notes' lease := by
  simp only [tally, List.count_append, List.countP_append]
  rfl

/-- Notes that count nothing about the lease do not change its tally. -/
theorem tally_other (h : ∀ note ∈ notes, tally [note] lease = ⟨0, 0, 0, 0⟩) :
    tally notes lease = ⟨0, 0, 0, 0⟩ := by
  induction notes with
  | nil => rfl
  | cons note notes ih =>
    have hn := h note List.mem_cons_self
    have := tally_append [note] notes lease
    rw [hn, ih fun n hn => h n (List.mem_cons_of_mem _ hn)] at this
    exact this

theorem tally_about_other {note : Note} (h : note.lease? ≠ some lease) :
    tally [note] lease = ⟨0, 0, 0, 0⟩ := by
  cases note <;> simp_all [tally, Note.counts, Note.lease?]

/-! ## Points -/

namespace Point

/-- The lease that the provider is settling, and the first reading of the clock for it. -/
def call : Point → Option (Nat × MonotonicInstant)
  | .calling lease _ started _ _ _ => some (lease, started)
  | _ => none

/-- The deliveries that are to be removed as completed. -/
def completing : Point → List Nat
  | .settling _ completed => completed
  | .calling _ _ _ _ _ completed => completed
  | .removing completed => completed
  | _ => []

/-- The owner is past its messages and has not prepared anything to send itself. -/
def quiet : Point → Bool
  | .sampling | .fencing | .cleaning _ => true
  | _ => false

/-- The owner is in `progress_owned_settlements`. -/
def progress : Point → Bool
  | .finishing _ | .granting | .settling _ _ | .calling _ _ _ _ _ _ => true
  | _ => false

/-- The loop has ended. -/
def closed : Point → Bool
  | .closing | .recovering | .exited => true
  | _ => false

def isMessages : Point → Bool
  | .messages => true
  | _ => false

def isExited : Point → Bool
  | .exited => true
  | _ => false

def isCleaning : Point → Bool
  | .cleaning _ => true
  | _ => false

/-- A move of the loop that no stage minds. -/
structure Leads (lease : Nat) (p p' : Point) : Prop where
  receives : p'.receives = some lease ↔ p.receives = some lease
  call : ∀ t, p'.call = some (lease, t) → p.call = some (lease, t)
  completing : lease ∈ p'.completing ↔ lease ∈ p.completing
  quiet : p.quiet = false → p'.quiet = false
  progress : p.progress = false → p'.progress = false
  closed : p.closed = false → p'.closed = false
  exited : p'.isExited = true → p.isExited = true
  messages : p.isMessages = true → p'.isMessages = true

theorem Leads.refl (lease : Nat) (p : Point) : p.Leads lease p :=
  ⟨.rfl, fun _ h => h, .rfl, id, id, id, id, id⟩

/-- `p'` allows every stage that `p` allows. -/
def follows (p p' : Point) : Bool :=
  (p.quiet || !p'.quiet) && (p.progress || !p'.progress) && (p.closed || !p'.closed) &&
    (p.isExited || !p'.isExited) && (p'.isMessages || !p.isMessages) &&
    (p.isCleaning || !p'.isCleaning)

/-- A move of the loop that concerns no lease. -/
structure Moves (p p' : Point) : Prop where
  receives : p'.receives = p.receives
  call : p'.call = p.call
  completing : p'.completing = p.completing
  follows : p.follows p' = true

theorem Moves.leads (h : p.Moves p') (lease : Nat) : p.Leads lease p' := by
  have hf := h.follows
  simp only [Point.follows, Bool.and_eq_true, Bool.or_eq_true, Bool.not_eq_true'] at hf
  obtain ⟨⟨⟨⟨⟨hq, hp⟩, hcl⟩, he⟩, hm⟩, -⟩ := hf
  refine ⟨by rw [h.receives], fun t => by rw [h.call]; exact id, by rw [h.completing],
    ?_, ?_, ?_, ?_, ?_⟩
  · exact fun h => hq.resolve_left (by simp [h])
  · exact fun h => hp.resolve_left (by simp [h])
  · exact fun h => hcl.resolve_left (by simp [h])
  · exact fun h => he.resolve_right (by simp [h])
  · exact fun h => hm.resolve_right (by simp [h])

theorem Moves.progress (h : p.Moves p') (hp : p'.progress = true) : p.progress = true := by
  have hf := h.follows
  simp only [Point.follows, Bool.and_eq_true, hp, Bool.not_true, Bool.or_false] at hf
  exact hf.1.1.1.1.2

theorem Moves.cleaning (h : p.Moves p') (hp : p'.isCleaning = true) :
    ∃ todo, p = .cleaning todo := by
  have hf := h.follows
  simp only [Point.follows, Bool.and_eq_true, hp, Bool.not_true, Bool.or_false] at hf
  cases p with
  | cleaning todo => exact ⟨todo, rfl⟩
  | _ => cases hf.2

end Point

/-! ## Stages -/

/-- `lost` says that the loss of the delivery has been counted. -/
inductive Stage where
  | unseen
  | receiving
  /-- The receive brought no message. -/
  | returned
  /-- Counted, and the lease given back. -/
  | gone
  /-- In a lane for the first time. -/
  | fresh
  /-- Prepared, and no attempt is going on; `due` if it waits for the time of a retry. -/
  | resting (due : Bool)
  | running
  /-- The job has ended with a result. -/
  | done
  /-- The decision is in the channel; `rejected` if there was no handler. -/
  | deciding (lost rejected : Bool)
  /-- The owner knows the decision; `finished` if nothing else is in the channel. -/
  | decided (lost finished : Bool)
  | settled
  /-- Dropped by a terminal failure before it was started. -/
  | forgotten
deriving DecidableEq

/-- The part of a delivery that no stage changes: its settlement has not failed halfway, and its
first attempt is in the past. -/
structure OwnedSyncDelivery.Intact (clock : MonotonicInstant) (d : OwnedSyncDelivery) : Prop where
  lifecycle : d.lifecycleFailed = false
  first : ∀ t, d.firstAttempt = some t → clock.NotBefore t

namespace Stage

/-- The owner has a delivery for the lease. -/
def owned : Stage → Bool
  | .unseen | .receiving | .returned | .gone => false
  | _ => true

def tally : Stage → Tally
  | .unseen => ⟨0, 0, 0, 0⟩
  | .receiving => ⟨1, 0, 0, 0⟩
  | .returned => ⟨1, 0, 0, 1⟩
  | .gone => ⟨1, 1, 1, 1⟩
  | .deciding lost _ | .decided lost _ => ⟨1, 1, lost.toNat, 0⟩
  | .forgotten => ⟨1, 1, 1, 0⟩
  | _ => ⟨1, 1, 0, 0⟩

/-- What the delivery looks like. -/
def Fits (d : OwnedSyncDelivery) : Stage → Prop
  | .fresh => (∃ m p, d.inbound = some (m, .ok p) ∧ m.settlement.isSome) ∧ d.delivery = none ∧
      d.token = none ∧ d.due = none ∧ d.result = none ∧ d.running = false ∧ d.settlement = none ∧
      d.handlerFinished = false ∧ d.abandoned = false
  | .resting due => d.inbound = none ∧ d.delivery.isSome ∧ d.token.isSome ∧ d.due.isSome = due ∧
      d.result = none ∧ d.running = false ∧ d.settlement = none ∧ d.abandoned = false
  | .running => d.inbound = none ∧ d.delivery.isSome ∧ d.token.isSome ∧ d.due = none ∧
      d.running = true ∧ d.settlement = none ∧ d.handlerFinished = false ∧ d.abandoned = false
  | .done => d.inbound = none ∧ d.delivery.isSome ∧ d.token.isSome ∧ d.due = none ∧
      d.result.isSome ∧ d.running = false ∧ d.settlement = none ∧ d.handlerFinished = true ∧
      d.abandoned = false
  | .deciding _ rejected => d.inbound = none ∧ d.due = none ∧ d.result = none ∧ d.running = false ∧
      d.settlement = none ∧ d.handlerFinished = rejected ∧ d.abandoned = false
  | .decided lost finished => d.inbound = none ∧ d.due = none ∧ d.result = none ∧
      d.running = false ∧ d.settlement.isNone = lost ∧
      (∀ intent, d.settlement = some intent → intent.token.isSome) ∧
      d.handlerFinished = finished ∧ d.abandoned = lost
  | .settled => d.settlement = none ∧ d.abandoned = false
  | .forgotten => d.inbound = none ∧ d.delivery = none ∧ d.token = none ∧ d.due = none ∧
      d.result = none ∧ d.settlement = none ∧ d.abandoned = false
  | _ => False

/-- The delivery, if there is one, is that of the stage. -/
def Holds (clock : MonotonicInstant) (stage : Stage) : Option OwnedSyncDelivery → Prop
  | none => stage.owned = false
  | some d => stage.Fits d ∧ d.Intact clock

/-- The message that brings the decision. -/
def Decision (lease : Nat) (lost : Bool) (message : CoordinatorMessage) : Prop :=
  if lost then message = .abandoned lease
  else ∃ intent, message = .settlement lease intent ∧ intent.token.isSome

/-- What is in the channel and on the pool. -/
def InboxOk (lease : Nat) (job : Option Job) (inbox : List CoordinatorMessage) : Stage → Prop
  | .running => ∃ reports,
      (∀ m ∈ reports, ∃ outcome directive, m = .attemptFinished lease outcome directive) ∧
      inbox = reports ++ if job.isSome then [] else [.handlerFinished lease]
  | .deciding lost rejected => job = none ∧ ∃ m, Decision lease lost m ∧
      inbox = m :: if rejected then [] else [.handlerFinished lease]
  | .decided _ finished => job = none ∧ inbox = if finished then [] else [.handlerFinished lease]
  | _ => job = none ∧ inbox = []

/-- Where the owner can be. -/
def AllowedAt (point : Point) (lease : Nat) : Stage → Prop
  | .fresh => point.closed = false
  | .running => point.closed = false ∧ lease ∉ point.completing
  | .deciding _ rejected => point.quiet = false ∧ point.closed = false ∧ lease ∉ point.completing ∧
      (rejected = true → point.isMessages = true)
  | .decided _ finished => finished = false → point.closed = false ∧ lease ∉ point.completing
  | .settled => lease ∈ point.completing
  | .forgotten => point.progress = false ∧ lease ∉ point.completing
  | _ => True

/-- A decided delivery may be anywhere. -/
theorem decided_allowedAt {lost : Bool} {point : Point} :
    (decided lost true).AllowedAt point lease := by
  rintro ⟨⟩

structure At (clock : MonotonicInstant) (point : Point) (lease : Nat) (stage : Stage) : Prop where
  receiving : point.receives = some lease ↔ stage = .receiving
  /-- The provider is settling a delivery whose settlement is decided. -/
  calling : ∀ t, point.call = some (lease, t) → stage = .decided false true ∧ clock.NotBefore t
  allowed : stage.AllowedAt point lease
  exited : point.isExited = true → stage.owned = false

/-- A handler may be granted for the lease. -/
def mayWait : Stage → Bool
  | .unseen | .returned | .gone | .fresh | .resting false => true
  | _ => false

variable {clock : MonotonicInstant} {stage : Stage}

theorem At.leads (h : stage.At clock p lease) (hl : p.Leads lease p') :
    stage.At clock p' lease where
  receiving := hl.receives.trans h.receiving
  calling t ht := h.calling t (hl.call t ht)
  exited he := h.exited (hl.exited he)
  allowed := by
    have ha := h.allowed
    have hn : lease ∉ p.completing → lease ∉ p'.completing := mt hl.completing.1
    cases stage with
    | fresh => exact hl.closed ha
    | running => exact ⟨hl.closed ha.1, hn ha.2⟩
    | deciding lost rejected =>
      exact ⟨hl.quiet ha.1, hl.closed ha.2.1, hn ha.2.2.1, fun hr => hl.messages (ha.2.2.2 hr)⟩
    | decided lost finished => exact fun hf => ⟨hl.closed (ha hf).1, hn (ha hf).2⟩
    | settled => exact hl.completing.2 ha
    | forgotten => exact ⟨hl.progress ha.1, hn ha.2⟩
    | _ => trivial

end Stage

/-! ## A lease in a stage -/

/-- `lease` is in `stage` (module doc). -/
structure Lives (ctx : OwnerContext) (notes : List Note) (s : State) (lease : Nat) (stage : Stage) :
    Prop where
  tally : tally notes lease = stage.tally
  delivery : stage.Holds s.clock (s.owned.lookup lease)
  inbox : stage.InboxOk lease (s.jobs.lookup lease) (s.inbox lease)
  place : stage.At s.clock s.point lease
  claimed : stage ≠ .unseen → Claimed s.core ctx.subscriptionId lease
  /-- The scheduler has the lease until it is given back. -/
  held : stage ≠ .unseen → Held s.core ctx.subscriptionId lease (stage.tally.released = 0)
  waiting : Waiting s.core lease → ¬ Stopped s.core ctx.subscriptionId → stage.mayWait = true
  forgotten : stage = .forgotten → s.terminalFailure.isSome

section
variable {l : Nat} {stage : Stage}
  {d : OwnedSyncDelivery}

theorem Lives.fits (h : Lives ctx notes s lease stage) (hd : s.owned.lookup lease = some d) :
    stage.Fits d ∧ d.Intact s.clock := by
  have := h.delivery
  rwa [hd] at this

theorem Lives.unowned (h : Lives ctx notes s lease stage) (hd : s.owned.lookup lease = none) :
    stage.owned = false := by
  have := h.delivery
  rwa [hd] at this

/-- **The frame rule**: a step about `lease` keeps the stages of the other leases, if its move
does. -/
theorem Lives.frame (h : Lives ctx notes s l stage) (hf : Frame ctx lease s notes' s')
    (hi : Inv s.core) (hl : l ≠ lease) (hp : stage.At s'.clock s'.point l) :
    Lives ctx (notes ++ notes') s' l stage where
  tally := by
    have hn : Delivery.tally notes' l = ⟨0, 0, 0, 0⟩ := tally_other fun note hn =>
      tally_about_other fun hnl => hl (hf.about note hn l hnl)
    rw [tally_append, hn]
    exact h.tally
  delivery := by
    rw [hf.owned l hl, hf.clock]
    exact h.delivery
  inbox := by
    rw [hf.jobs l hl, hf.inbox l hl]
    exact h.inbox
  place := hp
  claimed hs := (hf.core hi).claimed l (h.claimed hs)
  held hs := by
    have hno : .released l ∉ notes' := fun hm => hl (hf.about _ hm l rfl)
    simpa [hno] using hf.held hi l _ (h.claimed hs) (h.held hs)
  waiting hw hst := by
    have hc := hf.core hi
    rcases hc.waiting l hw with hw | hw
    · exact h.waiting hw fun hs => hst (hc.stopped hs)
    · exact absurd hw hl
  forgotten hs := hf.terminal (h.forgotten hs)

/-- No handler can be granted for `lease`. -/
def Ungranted (ctx : OwnerContext) (s : State) (lease : Nat) : Prop :=
  Waiting s.core lease → Stopped s.core ctx.subscriptionId

theorem Lives.ungranted (h : Lives ctx notes s lease stage) (hm : stage.mayWait = false) :
    Ungranted ctx s lease := by
  intro hw
  by_contra hst
  rw [h.waiting hw hst] at hm
  cases hm

theorem Ungranted.op (h : Ungranted ctx s lease) (hi : Inv s.core) (op : Scheduler.Op)
    (hc : s'.core = Scheduler.step s.core op) (hop : op.plain = true) : Ungranted ctx s' lease := by
  intro hw
  rw [hc] at hw ⊢
  have ht := hi.took op
  refine ht.stopped hi ((op.tame_of_plain hop lease).register _)
    (h ((ht.waiting hi hw).resolve_right fun hq => ?_))
  exact absurd ((op.tame_of_plain hop (lease + 1)).queues lease hq) (by omega)

/-- What is left to show for the step's own lease when it goes to `stage'`. -/
theorem Lives.become {stage' : Stage} (h : Lives ctx notes s lease stage)
    (hf : Frame ctx lease s notes' s') (hi : Inv s.core)
    (ht : stage.tally + Delivery.tally notes' lease = stage'.tally)
    (hd : stage'.Holds s'.clock (s'.owned.lookup lease))
    (hin : stage'.InboxOk lease (s'.jobs.lookup lease) (s'.inbox lease))
    (hp : stage'.At s'.clock s'.point lease)
    (hw : stage'.mayWait = true ∨ Ungranted ctx s' lease)
    (hfo : stage' = .forgotten → s'.terminalFailure.isSome) (hs : stage ≠ .unseen) :
    Lives ctx (notes ++ notes') s' lease stage' where
  tally := by rw [tally_append, h.tally, ht]
  delivery := hd
  inbox := hin
  place := hp
  claimed _ := (hf.core hi).claimed lease (h.claimed hs)
  held _ := by
    have hr : stage.tally.released + notes'.count (.released lease) = stage'.tally.released :=
      congrArg Tally.released ht
    rw [← hr]
    simpa [List.count_eq_zero] using hf.held hi lease _ (h.claimed hs) (h.held hs)
  waiting hw' hst := hw.resolve_right fun hu => hst (hu hw')
  forgotten := hfo

end

/-! ## The invariant -/

/-- Every lease is in a stage, and the counters are those of the notes. -/
structure Accounted (ctx : OwnerContext) (notes : List Note) (s : State) : Prop where
  inv : Inv s.core
  lives : ∀ lease, ∃ stage, Lives ctx notes s lease stage
  cleaning : ∀ todo, s.point = .cleaning todo → Stopped s.core ctx.subscriptionId
  completed : s.completed = notes.countP Note.isCompleted
  abandonedEphemeral : s.abandonedEphemeral = notes.countP Note.isAbandoned
  abandonedDeliveries : s.abandonedDeliveries = notes.countP Note.isAbandoned

/-- A step about `lease`. -/
theorem Accounted.about (h : Accounted ctx notes s) (hf : Frame ctx lease s notes' s')
    (hself : ∀ stage, Lives ctx notes s lease stage →
      ∃ stage', Lives ctx (notes ++ notes') s' lease stage')
    (hothers : ∀ l, l ≠ lease → s.point.Leads l s'.point)
    (hclean : ∀ todo, s'.point = .cleaning todo → Stopped s'.core ctx.subscriptionId) :
    Accounted ctx (notes ++ notes') s' where
  inv := (hf.core h.inv).inv
  lives l := by
    obtain ⟨stage, hl⟩ := h.lives l
    by_cases he : l = lease
    · subst he
      exact hself stage hl
    · exact ⟨stage, hl.frame hf h.inv he (hf.clock ▸ hl.place.leads (hothers l he))⟩
  cleaning := hclean
  completed := by rw [hf.completed, h.completed, List.countP_append]
  abandonedEphemeral := by rw [hf.abandonedEphemeral, h.abandonedEphemeral, List.countP_append]
  abandonedDeliveries := by rw [hf.abandonedDeliveries, h.abandonedDeliveries, List.countP_append]

/-- A step about no lease. -/
theorem Accounted.idle (h : Accounted ctx notes s) (hf : ∀ lease, Frame ctx lease s notes' s')
    (hplace : ∀ l stage, Lives ctx notes s l stage → stage.At s'.clock s'.point l)
    (hclean : ∀ todo, s'.point = .cleaning todo → Stopped s'.core ctx.subscriptionId) :
    Accounted ctx (notes ++ notes') s' where
  inv := ((hf 0).core h.inv).inv
  lives l := by
    obtain ⟨stage, hl⟩ := h.lives l
    exact ⟨stage, hl.frame (hf (l + 1)) h.inv (by omega) (hplace l stage hl)⟩
  cleaning := hclean
  completed := by rw [(hf 0).completed, h.completed, List.countP_append]
  abandonedEphemeral := by rw [(hf 0).abandonedEphemeral, h.abandonedEphemeral, List.countP_append]
  abandonedDeliveries := by
    rw [(hf 0).abandonedDeliveries, h.abandonedDeliveries, List.countP_append]

/-! ## Steps -/

/-- The clock goes forward, also for those who measure. -/
def Forward (s : State) : Action → Prop
  | .clock now => now.NotBefore s.clock
  | .measures started => s.clock.NotBefore started
  | _ => True

instance (s : State) : ∀ action, Decidable (Forward s action)
  | .clock now => inferInstanceAs (Decidable (now.NotBefore s.clock))
  | .measures started => inferInstanceAs (Decidable (s.clock.NotBefore started))
  | .owner _ | .jobStarts _ | .jobReports .. | .jobExits _ | .requestCancel | .cancelSubscription
  | .stopAdmission _ | .scheduler _ => .isTrue trivial

/-- `P` after a step. -/
abbrev After (P : List Note → State → Prop) (notes : List Note) (step : List Note × State) : Prop :=
  P (notes ++ step.1) step.2

/-- What a property has to survive to survive every step of a run, of the owner and of everybody
else; `ok` is what is assumed of the answers of the provider's receive. -/
structure Carried (ctx : OwnerContext) (ok : Tick → Prop) (P : List Note → State → Prop) :
    Prop where
  moves : ∀ {notes s p p'}, P notes s → s.point = p → p.Moves p' → P notes (s.goto p')
  op : ∀ {notes s} op, P notes s → op.plain = true →
    P notes { s with core := Scheduler.step s.core op }
  flags : ∀ {notes s} cancelled draining immediate receiveClosed stopPublished sampledDraining
    stopping, P notes s → P notes { s with
      cancelled := cancelled, draining := draining, immediate := immediate
      receiveClosed := receiveClosed, stopPublished := stopPublished
      sampledDraining := sampledDraining, stopping := stopping }
  deliver : ∀ {notes s message channel}, P notes s → s.point = .messages →
    s.channel = message :: channel → After P notes ({ s with channel }.deliver ctx message)
  sample : ∀ {notes s}, P notes s → s.point = .messages → s.channel = [] →
    P notes (s.goto .sampling)
  fence : ∀ {notes s}, P notes s → s.point = .fencing → P notes ({ s with
    receiveClosed := true, stopPublished := true
    point := .cleaning s.owned.keys }.cancelSubscription ctx)
  prepareStopping : ∀ {notes s todo lease d}, P notes s → s.point = .cleaning todo →
    s.owned.lookup lease = some d → After P notes (s.prepareStopping ctx lease d)
  check : ∀ {notes s}, P notes s → s.point = .checking → s.terminalFailure = none →
    P notes (s.goto (.finishing s.owned.keys))
  finishOne : ∀ {notes s todo lease d tick step}, P notes s → s.point = .finishing todo →
    s.owned.lookup lease = some d → s.finishOne ctx tick lease d = some step → After P notes step
  grant : ∀ {notes s lease d}, P notes s → s.point = .granting → s.owned.lookup lease = some d →
    P notes ({ s with core := (s.core.takeSettlementReady ctx.subscriptionId).2 }.put lease
      { d with settlementGranted := true })
  settleOne : ∀ {notes s lease d todo todo' completed step}, P notes s →
    s.point = .settling todo completed → s.owned.lookup lease = some d →
    s.settleOne ctx lease d todo' completed = some step → After P notes step
  settleReturned : ∀ {notes s lease d intent started attempt todo completed} result, P notes s →
    s.point = .calling lease intent started attempt todo completed → s.owned.lookup lease = some d →
    After P notes (s.settleReturned ctx lease d intent started attempt todo completed result)
  removeOne : ∀ {notes s lease completed}, P notes s → s.point = .removing (lease :: completed) →
    After P notes ((s.goto (.removing completed)).removeOne lease)
  close : ∀ {notes s}, P notes s → s.point = .removing [] →
    (∀ lease ∈ s.owned.keys, (s.owned.lookup lease).any (·.handlerFinished)) →
    P notes (s.goto .closing)
  dispatch : ∀ {notes s lease d tick step}, P notes s → s.point = .dispatching →
    (s.core.takeReady ctx.subscriptionId).1 = some lease → s.owned.lookup lease = some d →
    { s with core := (s.core.takeReady ctx.subscriptionId).2 }.dispatch ctx tick lease d =
      some step → After P notes step
  failReceive : ∀ {notes s} reason, P notes s → s.point.progress = false →
    After P notes (s.failReceive ctx reason)
  reserve : ∀ {notes s lease}, P notes s → s.point = .reserving →
    (s.core.takeReceiveReservation ctx.subscriptionId).1 = some lease →
    P (notes ++ [.claimed lease]) { s with
      core := ((s.core.takeReceiveReservation ctx.subscriptionId).2.recordOwnedStart lease
        s.clock).setDispatchActive ctx.subscriptionId false
      point := .receiving lease }
  receive : ∀ {notes s lease tick}, ok tick → P notes s → s.point = .receiving lease →
    After P notes (s.receiveReturned ctx tick lease)
  /-- The loop ends with nothing left to do. -/
  leave : ∀ {notes s p p'}, P notes s → s.point = p → s.owned.keys = ∅ →
    p = .dispatching ∧ p' = .closing ∨ p = .recovering ∧ p' = .exited → P notes (s.goto p')
  drainOne : ∀ {notes s lease d}, P notes s → s.point = .recovering →
    s.owned.lookup lease = some d → After P notes (s.drainOne ctx lease d)
  /-- A job of the pool goes on, and may report. -/
  jobReports : ∀ {notes s lease job messages} job', P notes s → s.jobs.lookup lease = some job →
    (∀ m ∈ messages, ∃ outcome directive, m = .attemptFinished lease outcome directive) →
    P notes ({ s with jobs := s.jobs.insert lease job' }.send messages)
  jobExits : ∀ {notes s lease job}, P notes s → s.jobs.lookup lease = some job →
    P notes ({ s with jobs := s.jobs.erase lease, core := s.core.handlerFinished lease }.send
      [.handlerFinished lease])
  cancelSubscription : ∀ {notes s}, P notes s → P notes (s.cancelSubscription ctx)
  tick : ∀ {notes s now}, P notes s → now.NotBefore s.clock → P notes { s with clock := now }
  /-- Another user of the scheduler. -/
  foreign : ∀ {notes s op}, P notes s → s.foreign ctx op = true →
    P notes { s with core := Scheduler.step s.core op }

section
variable {ok : Tick → Prop} {P : List Note → State → Prop} {tick : Tick} {todo : Finset Nat}
  {completed : List Nat}

/-- A step without notes. -/
theorem after_silent {t : State} (h : P notes t) (heq : some ([], t) = some (notes', s')) :
    P (notes ++ notes') s' := by
  cases heq
  rwa [List.append_nil]

theorem after_step {step : List Note × State} (h : After P notes step)
    (heq : some step = some (notes', s')) : P (notes ++ notes') s' := by
  obtain rfl := Option.some.inj heq
  exact h

theorem Carried.goto (hP : Carried ctx ok P) (h : P notes (s.goto p)) (hm : p.Moves p') :
    P notes (s.goto p') := by
  have h' := hP.moves h rfl hm
  exact h'

theorem Carried.goes (hP : Carried ctx ok P) (h : P notes (s.goto p))
    (hs : some ([], s.goto p') = some (notes', s')) (hm : p.Moves p') : P (notes ++ notes') s' :=
  after_silent (hP.goto h hm) hs

theorem Carried.dispatched (hP : Carried ctx ok P) (h : P notes s) (hp : s.point = .dispatching) :
    P notes s.dispatched := by
  unfold State.dispatched
  split
  · rename_i hk
    exact hP.leave h hp hk.2 (.inl ⟨rfl, rfl⟩)
  · exact hP.moves h hp ⟨rfl, rfl, rfl, rfl⟩

/-! ### Point by point -/

section
variable (hP : Carried ctx ok P) (h : P notes (s.goto p))
  (hs : (s.goto p).ownerStep ctx tick = some (notes', s'))
include hP h hs

theorem Carried.atMessages (hp : p = .messages) : P (notes ++ notes') s' := by
  subst hp
  dsimp only [State.ownerStep, State.goto] at hs
  split at hs
  · rename_i message channel hc
    exact after_step (hP.deliver h rfl hc) hs
  · rename_i hc
    exact after_silent (hP.flags _ _ _ _ _ _ _ (hP.sample h rfl hc)) hs

theorem Carried.atFencing (hp : p = .fencing) : P (notes ++ notes') s' := by
  subst hp
  let t : State := if s.cancelled then { s with receiveClosed := true, point := .fencing }
    else { s with point := .fencing }
  have ht : P notes t ∧ t.point = .fencing := by
    dsimp only [t]
    split
    · exact ⟨hP.flags _ _ _ _ _ _ _ h, rfl⟩
    · exact ⟨h, rfl⟩
  change (if t.stopping && !t.stopPublished then some ([], State.cancelSubscription ctx _)
    else some ([], t.goto .checking)) = _ at hs
  split at hs
  · exact after_silent (hP.fence ht.1 ht.2) hs
  · have hm : Point.fencing.Moves .checking := ⟨rfl, rfl, rfl, rfl⟩
    exact after_silent (hP.moves ht.1 ht.2 hm) hs

theorem Carried.atCleaning (hp : p = .cleaning todo) : P (notes ++ notes') s' := by
  subst hp
  dsimp only [State.ownerStep, State.goto] at hs
  split at hs
  · exact hP.goes h hs ⟨rfl, rfl, rfl, rfl⟩
  · split at hs
    · exact after_silent h hs
    · have h₁ : P notes (s.goto (.cleaning (todo.erase tick.pick))) :=
        hP.goto h ⟨rfl, rfl, rfl, rfl⟩
      split at hs
      · exact after_silent h₁ hs
      · rename_i d hd
        exact after_step (hP.prepareStopping h₁ rfl hd) hs

theorem Carried.atChecking (hp : p = .checking) : P (notes ++ notes') s' := by
  subst hp
  dsimp only [State.ownerStep, State.goto] at hs
  split at hs
  · exact hP.goes h hs ⟨rfl, rfl, rfl, rfl⟩
  · rename_i hno
    exact after_silent (hP.check h rfl (Option.not_isSome_iff_eq_none.1 hno)) hs

theorem Carried.atFinishing (hp : p = .finishing todo) : P (notes ++ notes') s' := by
  subst hp
  dsimp only [State.ownerStep, State.goto] at hs
  split at hs
  · refine after_silent (hP.moves h rfl ?_) hs
    split <;> exact ⟨rfl, rfl, rfl, rfl⟩
  · split at hs
    · exact after_silent h hs
    · have h₁ : P notes (s.goto (.finishing (todo.erase tick.pick))) :=
        hP.goto h ⟨rfl, rfl, rfl, rfl⟩
      split at hs
      · exact after_silent h₁ hs
      · rename_i d hd
        exact hP.finishOne h₁ rfl hd hs

theorem Carried.atGranting (hp : p = .granting) : P (notes ++ notes') s' := by
  subst hp
  have hcore : P notes (State.goto { s with
      core := (s.core.takeSettlementReady ctx.subscriptionId).2 } .granting) :=
    hP.op (.takeSettlementReady ctx.subscriptionId) h rfl
  dsimp only [State.ownerStep, State.goto] at hs
  split at hs
  · rename_i core heq
    obtain rfl : (s.core.takeSettlementReady ctx.subscriptionId).2 = core := by rw [heq]
    exact hP.goes hcore hs ⟨rfl, rfl, rfl, rfl⟩
  · rename_i lease core heq
    obtain rfl : (s.core.takeSettlementReady ctx.subscriptionId).2 = core := by rw [heq]
    split at hs
    · exact after_silent hcore hs
    · rename_i d hd
      exact after_silent (hP.grant h rfl hd) hs

theorem Carried.atSettling (hp : p = .settling todo completed) : P (notes ++ notes') s' := by
  subst hp
  dsimp only [State.ownerStep, State.goto] at hs
  split at hs
  · exact hP.goes h hs ⟨rfl, rfl, rfl, rfl⟩
  · split at hs
    · exact after_silent h hs
    · split at hs
      · exact hP.goes h hs ⟨rfl, rfl, rfl, rfl⟩
      · rename_i d hd
        exact hP.settleOne h rfl hd hs

/-- All that was completed is removed. -/
theorem Carried.atRemoved (hp : p = .removing []) : P (notes ++ notes') s' := by
  subst hp
  dsimp only [State.ownerStep, State.goto] at hs
  split at hs
  · split at hs
    · exact hP.goes h hs ⟨rfl, rfl, rfl, rfl⟩
    · split at hs
      · rename_i hall
        exact after_silent (hP.close h rfl hall) hs
      · exact hP.goes h hs ⟨rfl, rfl, rfl, rfl⟩
  · exact hP.goes h hs ⟨rfl, rfl, rfl, rfl⟩

theorem Carried.atDispatching (hp : p = .dispatching) : P (notes ++ notes') s' := by
  subst hp
  have hcore := hP.op (.takeReady ctx.subscriptionId) h rfl
  dsimp only [State.ownerStep, State.goto] at hs
  split at hs
  · rename_i core heq
    obtain rfl : (s.core.takeReady ctx.subscriptionId).2 = core := by rw [heq]
    exact after_silent (hP.dispatched hcore rfl) hs
  · rename_i lease core heq
    obtain rfl : (s.core.takeReady ctx.subscriptionId).2 = core := by rw [heq]
    split at hs
    · exact after_step (hP.dispatched (hP.failReceive _ hcore rfl) rfl) hs
    · rename_i d hd
      exact hP.dispatch h rfl (congrArg Prod.fst heq) hd hs

theorem Carried.atReserving (hp : p = .reserving) : P (notes ++ notes') s' := by
  subst hp
  dsimp only [State.ownerStep, State.goto] at hs
  split at hs
  · rename_i lease core heq
    obtain rfl : (s.core.takeReceiveReservation ctx.subscriptionId).2 = core := by rw [heq]
    exact after_step (hP.reserve h rfl (congrArg Prod.fst heq)) hs
  · rename_i core heq
    obtain rfl : (s.core.takeReceiveReservation ctx.subscriptionId).2 = core := by rw [heq]
    have hcore : P notes (State.goto { s with
        core := (s.core.takeReceiveReservation ctx.subscriptionId).2 } .messages) := by
      rw [takeReceiveReservation_none (congrArg Prod.fst heq)]
      exact hP.goto h ⟨rfl, rfl, rfl, rfl⟩
    split at hs
    · exact after_step (hP.failReceive _ hcore rfl) hs
    · exact after_silent hcore hs

theorem Carried.atRecovering (hp : p = .recovering) : P (notes ++ notes') s' := by
  subst hp
  dsimp only [State.ownerStep, State.goto] at hs
  split at hs
  · rename_i hk
    exact after_silent (hP.leave h rfl hk (.inr ⟨rfl, rfl⟩)) hs
  · split at hs
    · exact after_silent h hs
    · rename_i d hd
      exact after_step (hP.drainOne h rfl hd) hs

end

/-- **One step of the owner.** -/
theorem Carried.ownerStep (hP : Carried ctx ok P) (h : P notes s)
    (hok : s.point.receives.isSome → ok tick) (hs : s.ownerStep ctx tick = some (notes', s')) :
    P (notes ++ notes') s' := by
  have heta : s = s.goto s.point := rfl
  rw [heta] at h hs
  generalize s.point = p at h hs hok
  cases p with
  | attaching =>
    have hcore : P notes ((s.onCore fun core => core.setDispatchActive ctx.subscriptionId
        true).goto .attaching) := hP.op (.setDispatchActive ctx.subscriptionId true) h rfl
    exact hP.goes hcore hs ⟨rfl, rfl, rfl, rfl⟩
  | messages => exact hP.atMessages h hs rfl
  | sampling =>
    have h₁ : P notes (s.goto .fencing) := hP.goto h ⟨rfl, rfl, rfl, rfl⟩
    exact after_silent (hP.flags _ _ _ _ _ _ _ h₁) hs
  | fencing => exact hP.atFencing h hs rfl
  | cleaning todo => exact hP.atCleaning h hs rfl
  | checking => exact hP.atChecking h hs rfl
  | finishing todo => exact hP.atFinishing h hs rfl
  | granting => exact hP.atGranting h hs rfl
  | settling todo completed => exact hP.atSettling h hs rfl
  | calling lease intent started attempt todo completed =>
    dsimp only [State.ownerStep, State.goto] at hs
    split at hs
    · cases hs
    · rename_i d hd
      exact after_step (hP.settleReturned _ h rfl hd) hs
  | removing completed =>
    cases completed with
    | nil => exact hP.atRemoved h hs rfl
    | cons lease completed => exact after_step (hP.removeOne h rfl) hs
  | dispatching => exact hP.atDispatching h hs rfl
  | requesting =>
    dsimp only [State.ownerStep, State.goto] at hs
    split at hs
    · have hcore : P notes ((s.onCore fun core => core.requestReceive ctx.subscriptionId).goto
          .requesting) := hP.op (.requestReceive ctx.subscriptionId) h rfl
      exact hP.goes hcore hs ⟨rfl, rfl, rfl, rfl⟩
    · exact hP.goes h hs ⟨rfl, rfl, rfl, rfl⟩
  | reserving => exact hP.atReserving h hs rfl
  | receiving lease => exact after_step (hP.receive (hok rfl) h rfl) hs
  | closing => exact hP.goes h hs ⟨rfl, rfl, rfl, rfl⟩
  | recovering => exact hP.atRecovering h hs rfl
  | exited => exact after_silent h hs

/-- **One step of a run.** -/
theorem Carried.step (hP : Carried ctx ok P) (h : P notes s) {action : Action}
    (hok : ∀ tick, action = .owner tick → s.point.receives.isSome → ok tick) (hc : Forward s action)
    (hs : s.step ctx action = some (notes', s')) : P (notes ++ notes') s' := by
  cases action with
  | owner tick => exact hP.ownerStep h (hok tick rfl) hs
  | jobStarts lease =>
    simp only [State.step] at hs
    split at hs
    · rename_i hj
      have h₁ := hP.jobReports s.jobStarts h hj (List.forall_mem_nil _)
      simp only [State.send, List.append_nil] at h₁
      exact after_silent h₁ hs
    · exact after_silent h hs
  | jobReports lease answer answers =>
    have hreport {job : Job} (hj : s.jobs.lookup lease = some job) (outcome : DeliveryOutcome)
        (directive : FailureDirective) := hP.jobReports .reported h hj
      (List.forall_mem_singleton.2 ⟨outcome, directive, rfl⟩)
    simp only [State.step] at hs
    split at hs
    · exact after_silent (hreport ‹_› _ _) hs
    · exact after_silent (hreport ‹_› _ _) hs
    · exact after_silent (hreport ‹_› _ _) hs
    · exact after_silent (hreport ‹_› _ _) hs
    · exact after_silent h hs
  | jobExits lease =>
    simp only [State.step] at hs
    split at hs
    · exact after_silent (hP.jobExits h ‹_›) hs
    · exact after_silent h hs
  | requestCancel => exact after_silent (hP.flags _ _ _ _ _ _ _ h) hs
  | cancelSubscription => exact after_silent (hP.cancelSubscription h) hs
  | stopAdmission immediate => exact after_silent (hP.flags _ _ _ _ _ _ _ h) hs
  | clock now => exact after_silent (hP.tick h hc) hs
  | measures started =>
    simp only [State.step, ctx.clock.forward hc] at hs
    exact after_silent h hs
  | scheduler op =>
    simp only [State.step] at hs
    split at hs
    · exact after_silent (hP.foreign h ‹_›) hs
    · exact after_silent h hs

end

end EventBus.Delivery
