import EventBus.Delivery.Owner
import EventBus.Scheduler.Claim

/-!
# What a step about one delivery leaves alone

Every step of a run is about one delivery, or about none. `Frame` says what it does to everything
else: the other deliveries, their messages and their jobs stay; the scheduler's core goes on as its
operations allow; a subscription that was stopped or failed stays so; and the counters follow the
notes. The steps are composed from a few changes of the state, each of which has its frame here.
-/

namespace EventBus.Delivery

open Lib Scheduler

/-! ## The core of the scheduler -/

/-- What the owner of `id` can rely on when the core goes from `c` to `c'`, and only `lease` may
have been put into a lane. -/
structure CoreStep (id : Id) (lease : Nat) (c c' : DeliverySchedulerState) : Prop where
  inv : Inv c'
  stopped : Stopped c id → Stopped c' id
  waiting : ∀ l, Waiting c' l → Waiting c l ∨ l = lease
  claimed : ∀ l, Claimed c id l → Claimed c' id l

section
variable {id : Id} {lease : Nat} {c c' c'' : DeliverySchedulerState}

theorem CoreStep.refl (hi : Inv c) : CoreStep id lease c c :=
  ⟨hi, fun h => h, fun _ h => .inl h, fun _ h => h⟩

theorem CoreStep.trans (h : CoreStep id lease c c') (h' : CoreStep id lease c' c'') :
    CoreStep id lease c c'' := by
  refine ⟨h'.inv, fun hs => h'.stopped (h.stopped hs), fun l hl => ?_,
    fun l hl => h'.claimed l (h.claimed l hl)⟩
  rcases h'.waiting l hl with hl | hl
  · exact h.waiting l hl
  · exact .inr hl

theorem coreStep (hi : Inv c) (op : Scheduler.Op) (hreg : op ≠ .register id)
    (hq : ∀ l, op.queues l → l = lease) : CoreStep id lease c (Scheduler.step c op) := by
  have ht := hi.took op
  refine ⟨hi.step op, ht.stopped hi hreg, fun l hl => ?_, fun l hl => ht.claimed hi hl⟩
  exact (ht.waiting hi hl).imp_right (hq l)

end

/-! ## Notes and messages of one delivery -/

/-- The lease a note is about. -/
def Note.lease? : Note → Option Nat
  | .claimed lease | .received lease | .completed lease | .abandoned lease | .released lease
  | .calls lease _ | .failed lease _ _ _ | .waits lease _ _ => some lease
  | .terminates => none

def Note.isCompleted : Note → Bool
  | .completed _ => true
  | _ => false

def Note.isAbandoned : Note → Bool
  | .abandoned _ => true
  | _ => false

/-- The note neither counts a delivery nor gives back a lease. -/
def Note.neutral : Note → Bool
  | .completed _ | .abandoned _ | .released _ => false
  | _ => true

/-- The messages about `lease` that the owner has not received yet. -/
def State.inbox (s : State) (lease : Nat) : List CoordinatorMessage :=
  s.channel.filter fun message => message.leaseId = lease

/-! ## Frames -/

/-- What a step about `lease` may do (module doc). -/
structure Frame (ctx : OwnerContext) (lease : Nat) (s : State) (notes : List Note) (s' : State) :
    Prop where
  owned : ∀ l, l ≠ lease → s'.owned.lookup l = s.owned.lookup l
  inbox : ∀ l, l ≠ lease → s'.inbox l = s.inbox l
  jobs : ∀ l, l ≠ lease → s'.jobs.lookup l = s.jobs.lookup l
  about : ∀ note ∈ notes, ∀ l, note.lease? = some l → l = lease
  core : Inv s.core → CoreStep ctx.subscriptionId lease s.core s'.core
  held : Inv s.core → ∀ l held, Claimed s.core ctx.subscriptionId l →
    Held s.core ctx.subscriptionId l held →
    Held s'.core ctx.subscriptionId l (held && decide (.released l ∉ notes))
  taken : Inv s.core → ∀ l, Taken s'.core ctx.subscriptionId l →
    Taken s.core ctx.subscriptionId l ∨ .claimed l ∈ notes
  terminal : s.terminalFailure.isSome → s'.terminalFailure.isSome
  terminates : s'.terminalFailure.isSome → s.terminalFailure.isSome ∨ Note.terminates ∈ notes
  terminated : Note.terminates ∈ notes → s'.terminalFailure.isSome
  cancelled : s.cancelled = true → s'.cancelled = true
  fenced : s.fenced = true → s'.fenced = true
  stop : s'.stopPublished = s.stopPublished ∧ s'.sampledDraining = s.sampledDraining ∧
    s'.stopping = s.stopping
  clock : s'.clock = s.clock
  completed : s'.completed = s.completed + notes.countP Note.isCompleted
  abandonedEphemeral : s'.abandonedEphemeral = s.abandonedEphemeral + notes.countP Note.isAbandoned
  abandonedDeliveries :
    s'.abandonedDeliveries = s.abandonedDeliveries + notes.countP Note.isAbandoned

section
variable {d : OwnedSyncDelivery} {tick : Tick} {ctx : OwnerContext} {lease : Nat} {s s' s'' : State}
  {notes notes' : List Note}

theorem Frame.refl : Frame ctx lease s [] s where
  owned _ _ := rfl
  inbox _ _ := rfl
  jobs _ _ := rfl
  about _ h := nomatch h
  core hi := .refl hi
  held _ _ _ _ h := by simpa using h
  taken _ _ h := .inl h
  terminal h := h
  terminates h := .inl h
  terminated h := nomatch h
  cancelled h := h
  fenced h := h
  stop := ⟨rfl, rfl, rfl⟩
  clock := rfl
  completed := rfl
  abandonedEphemeral := rfl
  abandonedDeliveries := rfl

theorem Frame.trans (h : Frame ctx lease s notes s') (h' : Frame ctx lease s' notes' s'') :
    Frame ctx lease s (notes ++ notes') s'' where
  owned l hl := (h'.owned l hl).trans (h.owned l hl)
  inbox l hl := (h'.inbox l hl).trans (h.inbox l hl)
  jobs l hl := (h'.jobs l hl).trans (h.jobs l hl)
  about note hn := (List.mem_append.1 hn).elim (h.about note) (h'.about note)
  core hi := (h.core hi).trans (h'.core (h.core hi).inv)
  held hi l held hc hl := by
    have hc' := h.core hi
    simpa [Bool.and_assoc] using h'.held hc'.inv l _ (hc'.claimed l hc) (h.held hi l held hc hl)
  taken hi l ht := by
    rcases h'.taken (h.core hi).inv l ht with ht | hm
    · exact (h.taken hi l ht).imp_right (List.mem_append_left _)
    · exact .inr (List.mem_append_right _ hm)
  terminal ht := h'.terminal (h.terminal ht)
  terminates ht := by
    rcases h'.terminates ht with ht | hn
    · exact (h.terminates ht).imp_right (List.mem_append_left _)
    · exact .inr (List.mem_append_right _ hn)
  terminated hn := (List.mem_append.1 hn).elim (fun hn => h'.terminal (h.terminated hn))
    h'.terminated
  cancelled hc := h'.cancelled (h.cancelled hc)
  fenced hf := h'.fenced (h.fenced hf)
  stop := ⟨h'.stop.1.trans h.stop.1, h'.stop.2.1.trans h.stop.2.1, h'.stop.2.2.trans h.stop.2.2⟩
  clock := h'.clock.trans h.clock
  completed := by rw [h'.completed, h.completed, List.countP_append, Nat.add_assoc]
  abandonedEphemeral := by
    rw [h'.abandonedEphemeral, h.abandonedEphemeral, List.countP_append, Nat.add_assoc]
  abandonedDeliveries := by
    rw [h'.abandonedDeliveries, h.abandonedDeliveries, List.countP_append, Nat.add_assoc]

/-- A change without notes, and one after it. -/
theorem Frame.silent (h : Frame ctx lease s [] s') (h' : Frame ctx lease s' notes s'') :
    Frame ctx lease s notes s'' := h.trans h'

/-- A last change without notes. -/
theorem Frame.then (h : Frame ctx lease s notes s') (h' : Frame ctx lease s' [] s'') :
    Frame ctx lease s notes s'' := by
  have := h.trans h'
  rwa [List.append_nil] at this

/-- A note about the delivery that is not counted. -/
theorem Frame.noted {note : Note} (h : Frame ctx lease s notes s') (hl : note.lease? = some lease)
    (hn : note.neutral = true) : Frame ctx lease s (note :: notes) s' := by
  have hr : ∀ l, .released l ≠ note := by
    rintro l rfl
    cases hn
  have hc : note.isCompleted = false ∧ note.isAbandoned = false := by
    cases note <;> simp_all [Note.neutral, Note.isCompleted, Note.isAbandoned]
  exact { h with
    held := fun hi l held hc hl => by simpa [hr l] using h.held hi l held hc hl
    taken := fun hi l ht => (h.taken hi l ht).imp_right (List.mem_cons_of_mem _)
    about := fun n hn l hnl => by
      rcases List.mem_cons.1 hn with rfl | hn
      · exact Option.some.inj (hnl.symm.trans hl)
      · exact h.about n hn l hnl
    terminates := fun ht => (h.terminates ht).imp_right (List.mem_cons_of_mem _)
    terminated := fun hn => by
      rcases List.mem_cons.1 hn with rfl | hn
      · cases hl
      · exact h.terminated hn
    completed := by rw [h.completed, List.countP_cons_of_neg (by simp [hc.1])]
    abandonedEphemeral := by rw [h.abandonedEphemeral, List.countP_cons_of_neg (by simp [hc.2])]
    abandonedDeliveries := by rw [h.abandonedDeliveries, List.countP_cons_of_neg (by simp [hc.2])] }

/-! ## The parts of the steps -/

theorem frame_goto (point : Point) : Frame ctx lease s [] (s.goto point) :=
  { Frame.refl with }

theorem frame_put (d : OwnedSyncDelivery) : Frame ctx lease s [] (s.put lease d) :=
  { Frame.refl with owned := fun _ hl => (Map.lookup_insert_eq _ _ _ _).trans (if_neg hl) }

theorem frame_erase : Frame ctx lease s [] { s with owned := s.owned.erase lease } :=
  { Frame.refl with owned := fun _ hl => (Map.lookup_erase_eq _ _ _).trans (if_neg hl) }

theorem frame_send {messages : List CoordinatorMessage} (hm : ∀ m ∈ messages, m.leaseId = lease) :
    Frame ctx lease s [] (s.send messages) :=
  { Frame.refl with
    inbox := fun l hl => by
      have hnone : messages.filter (fun m => m.leaseId = l) = [] := by
        refine List.filter_eq_nil_iff.2 fun m hmem => ?_
        rw [hm m hmem]
        simpa using Ne.symm hl
      simp [State.inbox, State.send, List.filter_append, hnone] }

theorem frame_core (op : Scheduler.Op) (hop : op.Tame lease) :
    Frame ctx lease s [] { s with core := Scheduler.step s.core op } :=
  { (Frame.refl : Frame ctx lease s [] s) with
    core := fun hi => coreStep hi op (hop.register _) hop.queues
    held := fun hi l held hc hl => by simpa using (hi.took op).held hi hc hl (hop.complete l)
    taken := fun hi l ht => .inl ((hi.took op).taken hi (hop.claims _) (hop.unregister _) ht) }

theorem frame_plain (op : Scheduler.Op) (hop : op.plain = true) :
    Frame ctx lease s [] { s with core := Scheduler.step s.core op } :=
  frame_core op (op.tame_of_plain hop lease)

theorem frame_cancelSubscription : Frame ctx lease s [] (s.cancelSubscription ctx) :=
  { frame_plain (.stopSubscription ctx.subscriptionId) rfl with
    fenced := fun _ => rfl }

theorem frame_cancel : Frame ctx lease s [] { s with cancelled := true } :=
  { Frame.refl with cancelled := fun _ => rfl }

theorem frame_failReceive (reason : SubscriptionStopReason) :
    Frame ctx lease s (s.failReceive ctx reason).1 (s.failReceive ctx reason).2 :=
  { frame_cancelSubscription with
    about := fun note hn l hl => by
      rw [List.mem_singleton.1 hn] at hl
      cases hl
    held := fun hi l held hc hl => by
      show Held (Scheduler.step s.core (.stopSubscription ctx.subscriptionId)) _ l
        (held && decide (.released l ∉ [Note.terminates]))
      simpa using (hi.took (.stopSubscription ctx.subscriptionId)).held hi hc hl nofun
    taken := fun hi l ht => .inl ((hi.took (.stopSubscription ctx.subscriptionId)).taken hi
      (by simp) (by simp) ht)
    terminal := fun _ => rfl
    terminates := fun _ => .inr List.mem_cons_self
    terminated := fun _ => rfl
    cancelled := fun _ => rfl }

theorem frame_countAbandoned (times : Nat) :
    Frame ctx lease s (s.countAbandoned ctx lease times).1
      (s.countAbandoned ctx lease times).2 := by
  unfold State.countAbandoned
  split
  · exact { Frame.refl with
      about := fun note hn l hl => by
        rw [List.eq_of_mem_replicate hn] at hl
        cases hl
        rfl
      held := fun _ l held _ hl => by simpa using hl
      taken := fun _ _ ht => .inl ht
      terminates := fun h => .inl h
      terminated := fun hn => nomatch List.eq_of_mem_replicate hn
      completed := by simp [List.countP_replicate, Note.isCompleted]
      abandonedEphemeral := by simp [List.countP_replicate, Note.isAbandoned]
      abandonedDeliveries := by simp [List.countP_replicate, Note.isAbandoned] }
  · exact .refl

theorem frame_perform {effects : Effects} (hm : effects.About lease) :
    Frame ctx lease s (s.perform ctx lease effects).1 (s.perform ctx lease effects).2 := by
  have hc : Frame ctx lease s _ (s.countAbandoned ctx lease effects.abandoned).2 :=
    frame_countAbandoned effects.abandoned
  have h := hc.then (frame_send hm.sent)
  simp only [State.perform]
  split
  · exact h.then (frame_cancel.then frame_cancelSubscription)
  · exact h

theorem frame_release :
    Frame ctx lease s (s.release lease).1 (s.release lease).2 := by
  exact { (Frame.refl : Frame ctx lease s [] s) with
    core := fun hi => coreStep hi (.complete lease) nofun fun l hq => by
      rcases hq with ⟨_, hq⟩ | hq <;> cases hq
    held := fun hi l held hc hl => by
      show Held (Scheduler.step s.core (.complete lease)) _ l
        (held && decide (.released l ∉ [Note.released lease]))
      by_cases he : l = lease
      · subst he
        simpa using hl.complete hi hc
      · have := (hi.took (.complete lease)).held hi hc hl fun hop => he (Op.complete.inj hop).symm
        simpa [he] using this
    taken := fun hi l ht => .inl ((hi.took (.complete lease)).taken hi (by simp) (by simp) ht)
    about := fun note hn l hl => by
      rw [List.mem_singleton.1 hn] at hl
      cases hl
      rfl
    terminates := fun ht => .inl ht
    terminated := fun hn => nomatch List.mem_singleton.1 hn }

theorem frame_setDispatchActive (active : Bool) :
    Frame ctx lease s [] (s.onCore fun core => core.setDispatchActive ctx.subscriptionId active) :=
  frame_plain (.setDispatchActive ctx.subscriptionId active) rfl

theorem frame_handlerFinished :
    Frame ctx lease s [] (s.onCore fun core => core.handlerFinished lease) :=
  frame_plain (.handlerFinished lease) rfl

theorem frame_deferUnstartedRetry :
    Frame ctx lease s [] (s.onCore fun core => core.deferUnstartedRetry lease) :=
  frame_plain (.deferUnstartedRetry lease) rfl

theorem frame_finishAttemptWaiting :
    Frame ctx lease s [] (s.onCore fun core => core.finishAttemptWaiting lease) :=
  frame_plain (.finishAttemptWaiting lease) rfl

theorem frame_wakeRetry : Frame ctx lease s [] (s.onCore fun core => core.wakeRetry lease) :=
  frame_core (.wakeRetry lease) (Op.tame_of_queues (.inr rfl))

theorem frame_enqueue (lane : Option OrderingLaneKey) :
    Frame ctx lease s [] (s.onCore fun core => core.enqueue lease lane) :=
  frame_core (.enqueue lease lane) (Op.tame_of_queues (.inl ⟨lane, rfl⟩))

theorem frame_enqueueSettlement (lane : Option OrderingLaneKey) :
    Frame ctx lease s [] (s.onCore fun core => core.enqueueSettlement lease lane) :=
  frame_plain (.enqueueSettlement lease lane) rfl

/-- A job of `lease` goes on. -/
theorem frame_job (job : Job) : Frame ctx lease s [] { s with jobs := s.jobs.insert lease job } :=
  { Frame.refl with jobs := fun _ hl => (Map.lookup_insert_eq _ _ _ _).trans (if_neg hl) }

theorem frame_jobEnds : Frame ctx lease s [] { s with jobs := s.jobs.erase lease } :=
  { Frame.refl with jobs := fun _ hl => (Map.lookup_erase_eq _ _ _).trans (if_neg hl) }

/-! ## The steps -/

/-- A claimed lease is dated, and the owner is in the provider. -/
theorem frame_started (core : DeliverySchedulerState) :
    Frame ctx lease { s with core } [] { s with
      core := (core.recordOwnedStart lease s.clock).setDispatchActive ctx.subscriptionId false
      point := .receiving lease } := by
  have h : Frame ctx lease { s with core } []
      { s with core := core.recordOwnedStart lease s.clock } :=
    frame_plain (.recordOwnedStart lease s.clock) rfl
  exact (h.then (frame_setDispatchActive false)).then (frame_goto (.receiving lease))

/-- The lease of a reservation is claimed, dated, and the owner is in the provider. -/
theorem frame_reserve (h : (s.core.takeReceiveReservation ctx.subscriptionId).1 = some lease) :
    Frame ctx lease s [.claimed lease] { s with
    core := ((s.core.takeReceiveReservation ctx.subscriptionId).2.recordOwnedStart lease
      s.clock).setDispatchActive ctx.subscriptionId false
    point := .receiving lease } := by
  have hc : Frame ctx lease s [.claimed lease] { s with
      core := (s.core.takeReceiveReservation ctx.subscriptionId).2 } :=
    { (Frame.refl : Frame ctx lease s [] s) with
      about := fun note hn l hl => by
        rw [List.mem_singleton.1 hn] at hl
        cases hl
        rfl
      core := fun hi =>
        coreStep hi (.takeReceiveReservation ctx.subscriptionId) (by simp) fun l hq => by
        rcases hq with ⟨_, hq⟩ | hq <;> cases hq
      held := fun hi l held hc hl => by
        have := (hi.took (.takeReceiveReservation ctx.subscriptionId)).held hi hc hl (by simp)
        simpa [Scheduler.step, Scheduler.call] using this
      taken := fun hi l ht => by
        simpa using (takeReceiveReservation_some hi h).2.2.2.2 l ht
      terminates := fun ht => .inl ht
      terminated := fun hn => nomatch List.mem_singleton.1 hn }
  exact hc.then (frame_started _)

theorem frame_jobExits : Frame ctx lease s [] ({ s with
    jobs := s.jobs.erase lease
    core := s.core.handlerFinished lease }.send [.handlerFinished lease]) :=
  (frame_jobEnds.then frame_handlerFinished).then (frame_send (List.forall_mem_singleton.2 rfl))

theorem frame_deliver (message : CoordinatorMessage) (hm : message.leaseId = lease) :
    Frame ctx lease s (s.deliver ctx message).1 (s.deliver ctx message).2 := by
  subst hm
  cases message with
  | attemptFinished l outcome directive =>
    simp only [State.deliver]
    split
    · exact .refl
    · exact frame_put _
  | settlement l intent =>
    simp only [State.deliver]
    split
    · exact .refl
    · split
      · split
        · exact frame_failReceive _
        · exact .refl
      · exact frame_put _
  | abandoned l =>
    simp only [State.deliver]
    split
    · exact .refl
    · exact frame_put _
  | handlerFinished l =>
    simp only [State.deliver]
    split
    · exact .refl
    · exact frame_put _

theorem frame_prepareStopping (d : OwnedSyncDelivery) :
    Frame ctx lease s (s.prepareStopping ctx lease d).1 (s.prepareStopping ctx lease d).2 := by
  unfold State.prepareStopping
  split
  · dsimp only
    split
    · split
      · exact frame_put _
      · exact (frame_put _).silent (frame_countAbandoned 1)
    · exact (frame_put _).silent (frame_countAbandoned 1)
  · split
    · exact .refl
    · split
      · exact .refl
      · dsimp only
        split
        · exact frame_put _
        · exact (frame_put _).silent (frame_countAbandoned 1)

theorem frame_finishAttempt {result : Option FailureDirective} {forwarded : Bool}
    (h : s.finishAttempt ctx lease d result forwarded = some (notes, s')) :
    Frame ctx lease s notes s' := by
  obtain ⟨event, -, heq⟩ := Option.map_eq_some_iff.1 h
  cases heq
  refine (frame_put d.finished).silent (Frame.then ?_ (frame_send ?_))
  · refine frame_perform ?_
    cases result with
    | none => exact about_settleToken ..
    | some directive => exact about_finishFailedDelivery ..
  · intro m hm
    rw [List.mem_singleton.1 hm]
    rfl

theorem frame_wakeDue (d : OwnedSyncDelivery) (retryCancelled : Bool) :
    Frame ctx lease s [] (s.wakeDue ctx lease d retryCancelled) := by
  unfold State.wakeDue
  split
  · exact .refl
  · split
    · exact .refl
    · split
      · exact (frame_put _).then frame_wakeRetry
      · exact .refl

theorem frame_finishOne (h : s.finishOne ctx tick lease d = some (notes, s')) :
    Frame ctx lease s notes s' := by
  unfold State.finishOne at h
  split at h
  · dsimp only at h
    split at h
    · cases h
      exact ((frame_put _).then frame_finishAttemptWaiting).then (frame_wakeDue _ _)
    · obtain ⟨⟨notes', s₁⟩, hf, heq⟩ := Option.map_eq_some_iff.1 h
      cases heq
      exact (frame_finishAttempt hf).then (frame_wakeDue _ _)
  · cases h
    exact frame_wakeDue _ _

theorem frame_afterAttempt (todo : Finset Nat) (completed : List Nat) :
    Frame ctx lease s [] (s.afterAttempt lease todo completed) := frame_goto _

theorem frame_attemptSettlement {intent : SettlementIntent} {todo : Finset Nat}
    {completed : List Nat}
    (h : s.attemptSettlement ctx lease d intent todo completed = some (notes, s')) :
    Frame ctx lease s notes s' := by
  unfold State.attemptSettlement at h
  split at h
  · cases h
    exact (frame_put _).silent (frame_afterAttempt _ _)
  · split at h
    · cases h
      exact (frame_failReceive _).then (frame_afterAttempt _ _)
    · dsimp only at h
      split at h
      · cases h
        exact (frame_put _).silent ((frame_failReceive _).then (frame_afterAttempt _ _))
      · split at h
        · cases h
          exact ((frame_put _).then (frame_afterAttempt _ _)).noted rfl rfl
        · split at h
          · cases h
          · cases h
            refine Frame.then ?_ (frame_afterAttempt _ _)
            split
            · exact (frame_put _).silent (frame_failReceive _)
            · exact (frame_put _).silent (frame_failReceive _)
          · cases h
            exact (((frame_put _).then (frame_setDispatchActive false)).then (frame_goto _)).noted
              rfl rfl

theorem frame_settleOne {todo : Finset Nat} {completed : List Nat}
    (h : s.settleOne ctx lease d todo completed = some (notes, s')) :
    Frame ctx lease s notes s' := by
  unfold State.settleOne at h
  split at h
  · cases h
    exact frame_goto _
  · split at h
    · cases h
      exact frame_goto _
    · split at h
      · cases h
        exact frame_goto _
      · exact frame_attemptSettlement h

theorem frame_settleReturned (d : OwnedSyncDelivery) (intent : SettlementIntent)
    (started : MonotonicInstant) (attempt : Nat) (todo : Finset Nat) (completed : List Nat)
    (result : Except SpiError Unit) :
    Frame ctx lease s (s.settleReturned ctx lease d intent started attempt todo completed result).1
      (s.settleReturned ctx lease d intent started attempt todo completed result).2 := by
  unfold State.settleReturned
  dsimp only
  split
  · split
    · exact (((frame_setDispatchActive true).then (frame_put _)).silent (frame_failReceive _)).then
        (frame_afterAttempt _ _)
    · exact ((frame_setDispatchActive true).then (frame_put _)).then (frame_afterAttempt _ _)
  · split
    · exact ((frame_setDispatchActive true).silent (frame_failReceive _)).then
        (frame_afterAttempt _ _)
    · split
      · refine Frame.noted ?_ rfl rfl
        split
        · exact ((frame_setDispatchActive true).then (frame_put _)).then (frame_afterAttempt _ _)
        · exact (((frame_setDispatchActive true).then (frame_put _)).then
            (frame_afterAttempt _ _)).noted rfl rfl
      · refine Frame.noted ?_ rfl rfl
        exact (((frame_setDispatchActive true).then (frame_put _)).silent
          (frame_failReceive _)).then (frame_afterAttempt _ _)

theorem frame_removeOne : Frame ctx lease s (s.removeOne lease).1 (s.removeOne lease).2 := by
  unfold State.removeOne
  split
  · exact .refl
  · have h : Frame ctx lease s _ ({ s with owned := s.owned.erase lease }.release lease).2 :=
      frame_erase.silent frame_release
    dsimp only
    split
    · exact { h with
        about := fun note hn l hl => by
          rcases List.mem_cons.1 hn with rfl | hn
          · cases hl
            rfl
          · exact h.about note hn l hl
        held := fun hi l held hc hl => by simpa using h.held hi l held hc hl
        taken := fun hi l ht => (h.taken hi l ht).imp_right (List.mem_cons_of_mem _)
        terminates := fun ht => .inl ht
        terminated := fun hn => by
          rcases List.mem_cons.1 hn with hn | hn
          · cases hn
          · exact h.terminated hn
        completed := rfl }
    · exact h

theorem frame_submit {attempt : Nat} (h : s.submit lease d attempt = some (notes, s')) :
    Frame ctx lease s notes s' := by
  obtain ⟨event, -, heq⟩ := Option.map_eq_some_iff.1 h
  cases heq
  exact { frame_put _ with
    jobs := fun l hl => (Map.lookup_insert_eq _ _ _ _).trans (if_neg hl) }

theorem frame_startAttempt (h : s.startAttempt ctx tick lease d = some (notes, s')) :
    Frame ctx lease s notes s' := by
  unfold State.startAttempt at h
  split at h
  · split at h
    · exact frame_submit h
    · cases h
      exact (frame_put _).then frame_deferUnstartedRetry
    · exact frame_handlerFinished.silent (frame_finishAttempt h)
  · exact frame_submit h

theorem frame_dispatch (h : s.dispatch ctx tick lease d = some (notes, s')) :
    Frame ctx lease s notes s' := by
  unfold State.dispatch at h
  split at h
  · exact frame_startAttempt h
  · rename_i message decoded _
    have hp : Frame ctx lease s _ (s.perform ctx lease (prepareDelivery ctx lease message decoded
        tick.filter tick.answers tick.forwarded).2.2).2 := frame_perform (about_prepareDelivery ..)
    dsimp only at h
    split at h
    · cases h
      refine ((hp.then (frame_put _)).then frame_handlerFinished).then (frame_send ?_)
      intro m hm
      rw [List.mem_singleton.1 hm]
      rfl
    · split at h
      · obtain ⟨⟨notes', s₁⟩, hf, heq⟩ := Option.map_eq_some_iff.1 h
        cases heq
        exact hp.trans (frame_handlerFinished.silent (frame_finishAttempt hf))
      · obtain ⟨⟨notes', s₁⟩, hf, heq⟩ := Option.map_eq_some_iff.1 h
        cases heq
        exact hp.trans (frame_startAttempt hf)

theorem frame_receiveReturned (tick : Tick) :
    Frame ctx lease s (s.receiveReturned ctx tick lease).1
      (s.receiveReturned ctx tick lease).2 := by
  have h₀ : Frame ctx lease s [] ((s.onCore fun core =>
      core.setDispatchActive ctx.subscriptionId true).goto .messages) :=
    (frame_setDispatchActive true).then (frame_goto _)
  unfold State.receiveReturned
  dsimp only
  split
  · split
    · split
      · exact (h₀.silent (((frame_failReceive _).trans (frame_countAbandoned 1)).trans
          frame_release)).noted rfl rfl
      · exact ((h₀.silent ((frame_put _).silent (frame_perform (about_settleRejected ..)))).then
          (frame_enqueueSettlement _)).noted rfl rfl
    · exact (h₀.then ((frame_put _).then (frame_enqueue _))).noted rfl rfl
  · exact h₀.silent frame_release
  · have h : Frame ctx lease s _ _ := h₀.silent frame_release
    exact { h with }
  · split
    · exact h₀.silent (frame_release.trans (frame_failReceive _))
    · exact h₀.silent frame_release
  · exact h₀.silent (frame_release.trans (frame_failReceive _))

theorem frame_drainOne (d : OwnedSyncDelivery) :
    Frame ctx lease s (s.drainOne ctx lease d).1 (s.drainOne ctx lease d).2 := by
  unfold State.drainOne
  dsimp only
  split
  · exact frame_erase.silent ((frame_countAbandoned 1).trans frame_release)
  · exact frame_erase.silent frame_release

end

end EventBus.Delivery
