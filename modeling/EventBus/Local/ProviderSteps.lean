import EventBus.Local.Stages

/-!
# The steps of the providers

Every step of every call of the two providers returns, is one of the steps of its shape, and keeps
the accounts (`Call.step_ok`, `AsyncCall.step_ok`), whatever other threads have done before.
-/

namespace EventBus.Local

open Lib

variable {maxWeight : Option ℕ+} {maxCount : Nat}

/-! ## The synchronous provider -/

/-- The registry of the synchronous provider. -/
def BusState.roster (s : BusState) : Roster := ⟨s.closed, { q | ∃ topic, s.Files topic q }⟩

theorem BusState.Shrinks.roster {s s' : BusState} (h : s.Shrinks s') (hc : s'.closed = s.closed) :
    RosterStep [] s.roster s'.roster :=
  .shrink hc (fun _ ⟨topic, hq⟩ => ⟨topic, h topic _ hq⟩) ⟨fun h => (nomatch h), fun h => nomatch h⟩

namespace Call

variable {s : LocalSharedState} {call : Call}

def Weighed (maxWeight : Option ℕ+) : Call → Prop
  | admitting _ event _ _ _ => maxWeight = none → event.weightBytes = 0
  | _ => True

def stage : Call → Stage
  | admitting _ _ queues _ _ => .publishing queues
  | announcing (.graceful _) | look (.drain _) _ | busy (.drain _) _ _ _ | wait (.drain _) _ _ |
    cleanup (.graceful _) .timedOut => .draining
  | inspect (.drain _) _ _ seen queues => .watching true seen queues
  | inspect (.topicIdle _ _) _ _ seen queues => .watching false seen queues
  | cleanup (.graceful _) .complete => .drained
  | cleaning (.graceful _) .complete queues => .cleaning queues
  | cleaning (.graceful _) .timedOut _ | recorded .timedOut | ungate .timedOut => .late
  | _ => .calm

end Call

/-- The view of the synchronous provider. -/
def syncView : View LocalSharedState Call BusState where
  store := LocalSharedState.store
  registry := LocalSharedState.state
  roster := BusState.roster
  weighed := Call.Weighed
  stage := Call.stage

namespace Call

variable {s : LocalSharedState} {call : Call}

theorem route_ok (h : Accounted maxCount maxWeight s.store) (message : OutboundMessage)
    (event : LocalEvent) (payloadTypeId : TypeId) :
    StepOk syncView maxCount maxWeight s (publish message)
      (some (route s message event payloadTypeId)) := by
  have hpruned := (s.state.liveQueuesForTopic_shrinks s.live message.topic).roster
    (s.state.liveQueuesForTopic_closed s.live message.topic)
  simp only [route]
  split
  · exact .ends h rfl
  rename_i hopen
  split
  · exact .leaves h (.keep _) hpruned rfl
  split
  · exact .leaves h (.keep _) hpruned rfl
  · exact .tells h (.inl rfl) (h.stripped event) (.opened (eq_false_of_ne_true hopen) (by simp))
      (.route _) rfl

theorem subscribeIn_ok (h : Accounted maxCount maxWeight s.store) (request : SpiSubscriptionRequest)
    (x : Tick) :
    StepOk syncView maxCount maxWeight s (subscribe request) (some (subscribeIn s request x)) := by
  have hpruned := (s.state.liveQueuesForTopic_shrinks s.live request.topic).roster
    (s.state.liveQueuesForTopic_closed s.live request.topic)
  simp only [subscribeIn]
  split
  · exact .ends h rfl
  rename_i hopen
  split
  · exact .ends h rfl
  split
  · exact .leaves h (.keep _) hpruned rfl
  split
  · exact .leaves h (.keep _) hpruned rfl
  · exact ⟨_, _, _, rfl, .subscribed, h.subscribe _ _ _ _, .inr fun _ _ hm => (nomatch hm),
      fun _ heq => (nomatch heq), .opened (eq_false_of_ne_true hopen) (by simp), .keep _⟩

theorem lookAt_ok (h : Accounted maxCount maxWeight s.store) (hc : call.Weighed maxWeight)
    (hg : call.stage = .calm) (q : QueueRef) (timeout started : Nat) (x : Tick) :
    StepOk syncView maxCount maxWeight s call (lookAt s call q timeout started x) := by
  unfold lookAt
  refine StepOk.onQueue (v := syncView) h hc fun queue hq => ?_
  obtain ⟨received, l, heq, heffect, hacc⟩ := h.receive hq _ x.moment x.again _
  refine ⟨received, l, heq, ?_⟩
  have hkeep : ∀ r, StageStep r r (syncView.stage call) [] .calm := fun r => by
    show StageStep r r call.stage [] .calm
    rw [hg]
    exact .keep _
  unfold afterLook
  split <;> exact .locked heffect hacc (hkeep _) trivial (by simp) rfl

theorem finish_ok (h : Accounted maxCount maxWeight s.store) (queues : List QueueRef) {goal : Goal}
    {reached : Bool} (hg : ∀ r, StageStep r r call.stage []
      (syncView.stageOf (finish (s.disown queues) goal reached).2.1)) :
    StepOk syncView maxCount maxWeight s call (some (finish (s.disown queues) goal reached)) := by
  cases goal with
  | topicIdle => exact .leaves h (hg _) (.refl _) rfl
  | drain => exact .moves h trivial (hg _) (.refl _) rfl

section
variable (h : Accounted maxCount maxWeight s.store) {maxInstant foreign i : Nat} {x : Tick}
include h

theorem admitting_ok {topic : TopicAddress} {event : LocalEvent} {queues : List QueueRef}
    {admissions : List DestinationAdmission} {admittedAny : Bool}
    (hc : maxWeight = none → event.weightBytes = 0) :
    StepOk syncView maxCount maxWeight s (admitting topic event queues admissions admittedAny)
      (step maxInstant foreign s i (admitting topic event queues admissions admittedAny) x) := by
  cases queues with
  | nil =>
    simp only [step]
    split <;> exact .leaves h .published (.refl _) rfl
  | cons q queues =>
    simp only [step]
    split
    · exact .stays h hc rfl
    rename_i queue hq
    split
    · exact .moves h hc .skip (.refl _) rfl
    · obtain ⟨rejection, l, heq, heffect, hacc⟩ := h.publishTo hq hc x.moment
      rw [heq]
      exact .admitted heffect hacc hc rfl rfl rfl

theorem settle_ok (q : QueueRef) (token : SettlementToken) (disposition : DeliveryDisposition) :
    StepOk syncView maxCount maxWeight s (settle q token disposition)
      (step maxInstant foreign s i (settle q token disposition) x) := by
  simp only [step]
  refine StepOk.onQueue (v := syncView) (c := settle q token disposition) h trivial
    fun queue hq => ?_
  obtain ⟨result, l, heq, heffect, hacc⟩ := h.settle hq token disposition x.moment
  refine ⟨result, l, heq, ?_⟩
  split <;> exact .locked heffect hacc (.keep _) trivial (by simp) rfl

theorem close_ok (q : QueueRef) (dropped : Bool) :
    StepOk syncView maxCount maxWeight s (close q dropped)
      (step maxInstant foreign s i (close q dropped) x) := by
  simp only [step]
  refine StepOk.onQueue (v := syncView) (c := close q dropped) h trivial fun queue hq => ?_
  obtain ⟨events, l, heq, ⟨-, hheld⟩, hacc⟩ := h.close hq true
  refine ⟨events, l, heq, .locked (.moved hq ?_) hacc (.keep _) trivial (by simp) rfl⟩
  rw [hheld]
  exact Multiset.zero_le _

theorem closing_ok (mode : ShutdownMode) : StepOk syncView maxCount maxWeight s (closing mode)
    (step maxInstant foreign s i (closing mode) x) := by
  refine .tells h (.inr rfl) trivial ⟨fun _ => rfl, fun _ => Set.Subset.rfl,
    fun hm => by simp at hm, fun _ => rfl⟩ ?_ rfl
  cases mode with
  | graceful => exact .closeAndDrain
  | immediate => exact .close

theorem look_ok (goal : Goal) (started : Nat) : StepOk syncView maxCount maxWeight s
    (look goal started) (step maxInstant foreign s i (look goal started) x) := by
  cases goal with
  | topicIdle topic timeout =>
    have hpruned := (s.state.liveQueuesForTopic_shrinks s.live topic).roster
      (s.state.liveQueuesForTopic_closed s.live topic)
    exact .moves h trivial (.watchTopic _) hpruned rfl
  | drain timeout =>
    obtain ⟨hclosed, hshrink, hcover, -⟩ := s.state.liveQueues_spec s.live x.topics
    exact .moves h trivial (.watchAll fun q ⟨topic, hq⟩ => hcover topic q hq)
      (hshrink.roster hclosed) rfl

theorem inspect_ok (goal : Goal) (started version : Nat) (seen queues : List QueueRef) :
    StepOk syncView maxCount maxWeight s (inspect goal started version seen queues)
      (step maxInstant foreign s i (inspect goal started version seen queues) x) := by
  cases queues with
  | nil => cases goal <;> exact finish_ok h seen fun _ => .sawAll
  | cons q queues =>
    simp only [step]
    split
    · cases goal <;> exact .stays h trivial rfl
    rename_i queue hq
    split
    · cases goal <;> exact .moves h trivial .sawBusy (.refl _) rfl
    · rename_i hidle
      rw [Bool.not_eq_true, h.isBusy hq] at hidle
      cases goal <;> exact .locked (.idle hidle) h .sawIdle trivial (by simp) rfl

theorem cleanup_ok (mode : ShutdownMode) (outcome : ShutdownOutcome) :
    StepOk syncView maxCount maxWeight s (cleanup mode outcome)
      (step maxInstant foreign s i (cleanup mode outcome) x) := by
  obtain ⟨hclosed, hshrink, -, hfiled⟩ := s.state.liveQueues_spec s.live x.topics
  have hr := hshrink.roster hclosed
  cases mode with
  | immediate => exact .moves h trivial (.keep _) hr rfl
  | graceful timeout =>
    cases outcome with
    | complete => exact .moves h trivial (.clean hfiled) hr rfl
    | timedOut => exact .moves h trivial (.late _) hr rfl

theorem cleaning_ok (mode : ShutdownMode) (outcome : ShutdownOutcome) (queues : List QueueRef) :
    StepOk syncView maxCount maxWeight s (cleaning mode outcome queues)
      (step maxInstant foreign s i (cleaning mode outcome queues) x) := by
  cases queues with
  | nil =>
    cases mode with
    | immediate =>
      cases outcome with
      | complete => exact .stays h trivial rfl
      | timedOut => exact .moves h trivial (.late _) (.refl _) rfl
    | graceful timeout =>
      cases outcome with
      | complete => exact .moves h trivial .cleaned (.refl _) rfl
      | timedOut => exact .stays h trivial rfl
  | cons q queues =>
    simp only [step]
    refine StepOk.onQueue (v := syncView) (c := cleaning mode outcome (q :: queues)) h trivial
      fun queue hq => ?_
    obtain ⟨events, l, heq, ⟨rfl, hheld⟩, hacc⟩ := h.close hq false
    refine ⟨_, l, heq, .locked (.discarded hq hheld) hacc ?_ trivial (by simp) rfl⟩
    cases mode with
    | immediate => exact .discardNow q _
    | graceful timeout =>
      cases outcome with
      | complete => exact .discard _
      | timedOut => exact .discardLate _ q _

theorem step_ok (hc : call.Weighed maxWeight) :
    StepOk syncView maxCount maxWeight s call (step maxInstant foreign s i call x) := by
  cases call with
  | publish message =>
    simp only [step]
    split
    · exact .ends h rfl
    · exact route_ok h _ _ _
  | admitting => exact admitting_ok h hc
  | subscribe request => exact subscribeIn_ok h request x
  | receive q timeout => exact lookAt_ok h hc rfl q timeout _ x
  | receiving q timeout started =>
    simp only [step]
    split
    · split
      · exact .stays h hc rfl
      · exact .ends h rfl
    · exact lookAt_ok h hc rfl q timeout started x
  | delivered message => exact .ends h rfl
  | settle q token disposition => exact settle_ok h q token disposition
  | settled => exact .ends h rfl
  | close q dropped => exact close_ok h q dropped
  | unregister q dropped =>
    simp only [step]
    split
    · exact .stays h hc rfl
    · rename_i queue _
      obtain ⟨hclosed, hshrink⟩ := s.state.unregister_spec s.live queue.topic queue.id q
      exact .moves h trivial (.keep _) (hshrink.roster hclosed) rfl
  | unregistered q dropped =>
    simp only [step]
    split <;> exact .ends h rfl
  | shutdown mode =>
    simp only [step]
    split
    · exact .stays h hc rfl
    · exact .stays h trivial rfl
  | gated mode =>
    simp only [step]
    split
    · rename_i outcome _
      cases outcome with
      | complete => exact .ends h rfl
      | timedOut => exact .leaves h (.late _) (.refl _) rfl
    · exact .stays h trivial rfl
  | closing mode => exact closing_ok h mode
  | announcing mode => cases mode <;> exact .stays h trivial rfl
  | look goal started => exact look_ok h goal started
  | inspect goal started version seen queues => exact inspect_ok h goal started version seen queues
  | busy goal started version queues =>
    simp only [step]
    split
    · cases goal <;> exact finish_ok h queues fun _ => .keep _
    split <;> cases goal <;> exact .stays h trivial rfl
  | wait goal started queues =>
    simp only [step]
    split
    · cases goal <;> exact finish_ok h queues fun _ => .keep _
    · cases goal <;> exact .stays h trivial rfl
  | cleanup mode outcome => exact cleanup_ok h mode outcome
  | cleaning mode outcome queues => exact cleaning_ok h mode outcome queues
  | recorded outcome => cases outcome <;> exact .stays h trivial rfl
  | ungate outcome => cases outcome <;> exact .ends h rfl
  | waitForTopicIdle topic timeout => exact .stays h trivial rfl
  | foreign address disposition =>
    simp only [step]
    split
    · exact .locked .foreign (h.settleForeign address disposition) (.keep _) trivial (by simp) rfl
    · exact .ends h rfl

end

end Call

/-! ## The asynchronous provider -/

/-- The registry of the asynchronous provider. -/
def AsyncBusState.roster (s : AsyncBusState) : Roster :=
  ⟨s.closed, { q | ∃ id, s.mailboxes.lookup id = some q }⟩

namespace AsyncCall

def Weighed (maxWeight : Option ℕ+) : AsyncCall → Prop
  | admitting event _ _ => maxWeight = none → event.weightBytes = 0
  | _ => True

def stage : AsyncCall → Stage
  | admitting _ queues _ => .publishing queues
  | draining _ _ | busy _ _ | finalize (.graceful _) .timedOut => .draining
  | checking _ _ seen mailboxes => .watching true seen mailboxes
  | finalize (.graceful _) .complete => .drained
  | cleaning (.graceful _) .complete mailboxes => .cleaning mailboxes
  | cleaning (.graceful _) .timedOut _ => .late
  | _ => .calm

end AsyncCall

/-- The view of the asynchronous provider. -/
def asyncView : View AsyncLocalShared AsyncCall AsyncBusState where
  store := AsyncLocalShared.store
  registry := AsyncLocalShared.state
  roster := AsyncBusState.roster
  weighed := AsyncCall.Weighed
  stage := AsyncCall.stage

namespace AsyncCall

variable {s : AsyncLocalShared} {call : AsyncCall}

theorem route_ok (h : Accounted maxCount maxWeight s.store) (message : OutboundMessage)
    (event : LocalEvent) (payloadType : TypeId) :
    StepOk asyncView maxCount maxWeight s (publish message)
      (some (route s message event payloadType)) := by
  simp only [route]
  split
  · exact .ends h rfl
  rename_i hopen
  split
  · exact .ends h rfl
  split
  · exact .ends h rfl
  · exact .tells h (.inl rfl) (h.stripped event) (.opened (eq_false_of_ne_true hopen) (by simp))
      (.route _) rfl

theorem subscribeIn_ok (h : Accounted maxCount maxWeight s.store)
    (request : SpiSubscriptionRequest) :
    StepOk asyncView maxCount maxWeight s (subscribe request) (some (subscribeIn s request)) := by
  simp only [subscribeIn]
  split
  · exact .ends h rfl
  rename_i hopen
  split
  · exact .ends h rfl
  split
  · exact .ends h rfl
  · exact ⟨_, _, _, rfl, .subscribed, h.subscribe _ _ _ _, .inr fun _ _ hm => (nomatch hm),
      fun _ heq => (nomatch heq), .opened (eq_false_of_ne_true hopen) (by simp), .keep _⟩

theorem lookAt_ok (h : Accounted maxCount maxWeight s.store) (hc : call.Weighed maxWeight)
    (hg : call.stage = .calm) (maxDuration : Nat) (q : QueueRef) (timeout started : Nat)
    (x : AsyncTick) :
    StepOk asyncView maxCount maxWeight s call (lookAt maxDuration s call q timeout started x) := by
  unfold lookAt
  refine StepOk.onQueue (v := asyncView) h hc fun queue hq => ?_
  obtain ⟨received, l, heq, heffect, hacc⟩ := h.receive hq _ x.moment x.again _
  refine ⟨received, l, heq, ?_⟩
  have hkeep : ∀ r, StageStep r r (asyncView.stage call) [] .calm := fun r => by
    show StageStep r r call.stage [] .calm
    rw [hg]
    exact .keep _
  have hend : ∀ value, asyncView.stageOf (.returned value) = .calm →
      StepOk asyncView maxCount maxWeight s call
        (some ({ s with store := s.store.unlock q queue l }, .returned value, [])) :=
    fun value hv => .locked heffect hacc (hv ▸ hkeep _) trivial (by simp) rfl
  have hwait : StepOk asyncView maxCount maxWeight s call
      (some ({ s with store := s.store.unlock q queue l },
        .running (receiving q timeout started), [])) :=
    .locked heffect hacc (hkeep _) trivial (by simp) rfl
  unfold afterLook
  split
  · exact hend _ rfl
  · exact hend _ rfl
  · exact hend _ rfl
  · exact hend _ rfl
  -- nothing was ready: the receiver polls its timer
  split
  · split
    · exact hend _ rfl
    · exact hwait
  · exact hwait

theorem closeMailbox_ok (h : Accounted maxCount maxWeight s.store) (hc : call.Weighed maxWeight)
    (hg : call.stage = .calm) (q : QueueRef) :
    StepOk asyncView maxCount maxWeight s call (closeMailbox s call q) := by
  unfold closeMailbox
  refine StepOk.onQueue (v := asyncView) h hc fun queue hq => ?_
  obtain ⟨events, l, heq, ⟨-, hheld⟩, hacc⟩ := h.close hq false
  obtain ⟨hclosed, hsub⟩ := s.state.removeMailboxIfSame_spec queue.id queue.topic q
  refine ⟨events, l, heq, _, _, _, rfl, .moved hq ?_, hacc, .inr fun _ _ hm => (nomatch hm),
    fun _ heq => (nomatch heq), .shrink hclosed (fun p ⟨id, hp⟩ => ⟨id, hsub id p hp⟩)
      ⟨fun hm => (nomatch hm), fun hm => nomatch hm⟩, ?_⟩
  · rw [hheld]
    exact Multiset.zero_le _
  · show StageStep _ _ call.stage [] .calm
    rw [hg]
    exact .keep _

/-- A section of the registry waits, or is made. -/
theorem locking_ok (h : Accounted maxCount maxWeight s.store) (hc : call.Weighed maxWeight)
    {next : Option AsyncNext} (hn : StepOk asyncView maxCount maxWeight s call next) :
    StepOk asyncView maxCount maxWeight s call
      (if s.lock.isSome then some (s, .running call, []) else next) := by
  split
  · exact .stays h hc rfl
  · exact hn

section
variable (h : Accounted maxCount maxWeight s.store) {maxInstant maxDuration foreign i : Nat}
  {x : AsyncTick}
include h

theorem admitting_ok {event : LocalEvent} {mailboxes : List QueueRef}
    {admissions : List DestinationAdmission} (hc : maxWeight = none → event.weightBytes = 0) :
    StepOk asyncView maxCount maxWeight s (admitting event mailboxes admissions)
      (step maxInstant maxDuration foreign s i (admitting event mailboxes admissions) x) := by
  cases mailboxes with
  | nil => exact .leaves h .published (.refl _) rfl
  | cons q mailboxes =>
    simp only [step]
    refine StepOk.onQueue (v := asyncView) (c := admitting event (q :: mailboxes) admissions) h hc
      fun queue hq => ?_
    obtain ⟨rejection, l, heq, heffect, hacc⟩ := h.publishTo hq hc x.moment
    exact ⟨rejection, l, heq, .admitted heffect hacc hc rfl rfl rfl⟩

theorem shutdown_ok (mode : ShutdownMode) : StepOk asyncView maxCount maxWeight s (shutdown mode)
    (step maxInstant maxDuration foreign s i (shutdown mode) x) := by
  refine locking_ok h (by trivial) ?_
  have hr : RosterStep [.closing] s.state.roster { s.state with closed := true }.roster :=
    ⟨fun _ => rfl, fun _ => Set.Subset.rfl, fun hm => by simp at hm, fun _ => rfl⟩
  cases mode with
  | immediate => exact .tells h (.inr rfl) trivial hr .close rfl
  | graceful timeout => exact .tells h (.inr rfl) trivial hr .closeAndDrain rfl

theorem checking_ok (timeout started : Nat) (seen mailboxes : List QueueRef) :
    StepOk asyncView maxCount maxWeight s (checking timeout started seen mailboxes)
      (step maxInstant maxDuration foreign s i (checking timeout started seen mailboxes) x) := by
  cases mailboxes with
  | nil => exact .moves h trivial .sawAll (.refl _) rfl
  | cons q mailboxes =>
    simp only [step]
    split
    · exact .stays h trivial rfl
    rename_i queue hq
    split
    · exact .moves h trivial .sawBusy (.refl _) rfl
    · rename_i hidle
      rw [Bool.not_eq_true, h.isBusy hq] at hidle
      exact .locked (.idle hidle) h .sawIdle trivial (by simp) rfl

theorem finalize_ok (mode : ShutdownMode) (result : ShutdownOutcome) :
    StepOk asyncView maxCount maxWeight s (finalize mode result)
      (step maxInstant maxDuration foreign s i (finalize mode result) x) := by
  refine locking_ok h (by trivial) ?_
  split
  · rename_i previous _
    cases previous with
    | timedOut => exact .leaves h (.late _) (.refl _) rfl
    | complete =>
      cases mode with
      | immediate => exact .ends h rfl
      | graceful timeout =>
        cases result with
        | complete => exact .leaves h .leaveDrained (.refl _) rfl
        | timedOut => exact .leaves h .leaveDrain (.refl _) rfl
  · have hr : RosterStep [] s.state.roster
        ({ s.state with closed := true }.drainMailboxes x.mailboxes).2.roster :=
      ⟨fun _ => rfl, fun _ q ⟨id, hq⟩ => (nomatch hq), fun hm => (nomatch hm), fun hm => nomatch hm⟩
    cases mode with
    | immediate => exact .moves h trivial (.keep _) hr rfl
    | graceful timeout =>
      cases result with
      | complete =>
        exact .moves h trivial (.clean fun q hq => (s.state.mem_mailboxes x.mailboxes q).1 hq) hr
          rfl
      | timedOut => exact .moves h trivial (.late _) hr rfl

theorem cleaning_ok (mode : ShutdownMode) (result : ShutdownOutcome) (mailboxes : List QueueRef) :
    StepOk asyncView maxCount maxWeight s (cleaning mode result mailboxes)
      (step maxInstant maxDuration foreign s i (cleaning mode result mailboxes) x) := by
  cases mailboxes with
  | nil =>
    cases mode with
    | immediate =>
      cases result with
      | complete => exact .ends h rfl
      | timedOut => exact .leaves h (.late _) (.refl _) rfl
    | graceful timeout =>
      cases result with
      | complete => exact .leaves h .cleaned (.refl _) rfl
      | timedOut => exact .ends h rfl
  | cons q mailboxes =>
    simp only [step]
    refine StepOk.onQueue (v := asyncView) (c := cleaning mode result (q :: mailboxes)) h trivial
      fun queue hq => ?_
    obtain ⟨events, l, heq, ⟨rfl, hheld⟩, hacc⟩ := h.close hq false
    refine ⟨_, l, heq, .locked (.discarded hq hheld) hacc ?_ trivial (by simp) rfl⟩
    cases mode with
    | immediate => exact .discardNow q _
    | graceful timeout =>
      cases result with
      | complete => exact .discard _
      | timedOut => exact .discardLate _ q _

theorem step_ok (hc : call.Weighed maxWeight) : StepOk asyncView maxCount maxWeight s call
    (step maxInstant maxDuration foreign s i call x) := by
  cases call with
  | publish message =>
    simp only [step]
    split
    · exact .ends h rfl
    · exact locking_ok h hc (route_ok h _ _ _)
  | admitting => exact admitting_ok h hc
  | subscribe request =>
    simp only [step]
    split
    · exact .ends h rfl
    · exact locking_ok h hc (subscribeIn_ok h request)
  | receive q timeout => exact lookAt_ok h hc rfl maxDuration q timeout _ x
  | receiving q timeout started =>
    simp only [step]
    split
    · exact .ends h rfl
    · exact lookAt_ok h hc rfl maxDuration q timeout started x
  | settle q token disposition =>
    simp only [step]
    refine StepOk.onQueue (v := asyncView) h hc fun queue hq => ?_
    obtain ⟨result, l, heq, heffect, hacc⟩ := h.settle hq token disposition x.moment
    exact ⟨result, l, heq, .locked heffect hacc (.keep _) trivial (by simp) rfl⟩
  | close q => exact locking_ok h hc (closeMailbox_ok h hc rfl q)
  | shutdown mode => exact shutdown_ok h mode
  | draining timeout started =>
    simp only [step]
    split
    · exact .leaves h .leaveDrain (.refl _) rfl
    · refine locking_ok h hc (.moves h trivial (.watchAll fun q hq => ?_) (.refl _) rfl)
      exact (s.state.mem_mailboxes x.mailboxes q).2 hq
  | checking timeout started seen mailboxes => exact checking_ok h timeout started seen mailboxes
  | busy timeout started =>
    simp only [step]
    split
    · exact .stays h trivial rfl
    split
    · exact .stays h trivial rfl
    split
    · exact .stays h trivial rfl
    · exact .stays h trivial rfl
    · exact .leaves h .leaveDrain (.refl _) rfl
  | finalize mode result => exact finalize_ok h mode result
  | cleaning mode result mailboxes => exact cleaning_ok h mode result mailboxes
  | foreign address disposition =>
    simp only [step]
    split
    · exact .locked .foreign (h.settleForeign address disposition) (.keep _) trivial (by simp) rfl
    · exact .ends h rfl

end

end AsyncCall

/-! ## Both -/

theorem provider_staged (maxInstant foreign maxCount : Nat) (maxWeight : Option ℕ+) :
    Staged (provider maxInstant foreign) syncView maxCount maxWeight where
  enter request := by cases request <;> exact ⟨trivial, rfl⟩
  step _ _ _ _ h hc := Call.step_ok h hc

theorem asyncProvider_staged (maxInstant maxDuration foreign maxCount : Nat)
    (maxWeight : Option ℕ+) :
    Staged (asyncProvider maxInstant maxDuration foreign) asyncView maxCount maxWeight where
  enter request := by cases request <;> exact ⟨trivial, rfl⟩
  step _ _ _ _ h hc := AsyncCall.step_ok h hc

end EventBus.Local
