import EventBus.Delivery.Turns
import EventBus.Delivery.SettleStep
import EventBus.Lib.Trace

/-!
# The settlement budget of the owner

While the clock goes forward, every provider call that settles a delivery is within the delivery's
budget (`CallOk`), and so is every delay between them (`FailureOk`, `DelayOk`). `Budgeted` ties the
calls and failures that the notes record for one lease to the fields of its delivery, from which the
next call is decided.
-/

namespace EventBus.Delivery

open Lib Scheduler

variable {d d' : OwnedSyncDelivery} {ctx : OwnerContext} {s s' : State} {notes notes' : List Note}
  {note : Note} {lease : Nat}

/-! ## Calls and failures -/

/-- A failed call. -/
structure Failure where
  error : SpiError
  elapsed : Nat
  decision : SettlementRetryDecision

def Note.call? (lease : Nat) : Note → Option SettleCall
  | .calls l call => if l = lease then some call else none
  | _ => none

def Note.failure? (lease : Nat) : Note → Option Failure
  | .failed l error elapsed decision => if l = lease then some ⟨error, elapsed, decision⟩ else none
  | _ => none

/-- The provider calls for `lease`, in order. -/
def callsOf (notes : List Note) (lease : Nat) : List SettleCall :=
  notes.filterMap (Note.call? lease)

/-- The calls for `lease` that failed, in order. -/
def failuresOf (notes : List Note) (lease : Nat) : List Failure :=
  notes.filterMap (Note.failure? lease)

/-- The error of a failed call allowed a retry, which was granted. -/
def Failure.Retried (failure : Failure) : Prop :=
  MayRetry failure.error ∧ ∃ delay, failure.decision = .retryAfter delay

/-! ## What is allowed -/

/-- A call for `lease` after the notes `pre`. -/
structure CallOk (config : SettlementRetryConfig) (pre : List Note) (lease : Nat)
    (call : SettleCall) : Prop where
  attempts : (callsOf pre lease).length < config.maxAttempts.val
  same : ∀ c ∈ callsOf pre lease, c.token = call.token ∧ c.disposition = call.disposition
  /-- Every earlier call has failed, and may be repeated. -/
  retried : (failuresOf pre lease).length = (callsOf pre lease).length ∧
    ∀ failure ∈ failuresOf pre lease, failure.Retried
  /-- The times since the first call. -/
  deadline : ∀ first, (callsOf pre lease).head? = some first →
    call.startedAt.NotBefore first.startedAt ∧
      call.startedAt.elapsed - first.startedAt.elapsed < config.maxElapsed.val
  pause : ∀ first failure delay, (callsOf pre lease).head? = some first →
    (failuresOf pre lease).getLast? = some failure → failure.decision = .retryAfter delay →
      failure.elapsed + delay ≤ call.startedAt.elapsed - first.startedAt.elapsed
  stopping : call.stopping = true → callsOf pre lease = []
  running : .terminates ∉ pre

/-- A retry that is granted for `lease` after the notes `pre`: the delay is the exponential backoff,
within the limits, and no operation on the way to it wraps around or loses a bit. -/
structure FailureOk (config : SettlementRetryConfig) (pre : List Note) (lease : Nat)
    (error : SpiError) (elapsed delay : Nat) : Prop where
  retryable : MayRetry error
  limits : DelayOk config elapsed delay
  backoff : delay = min
    (min (config.initialBackoff.val * 2 ^ min ((callsOf pre lease).length - 1) 31)
      config.maxBackoff.val) (config.maxElapsed.val - elapsed)
  exact : saturatingAdd elapsed delay = elapsed + delay

/-- The notes of a run within the budget. -/
structure WithinBudget (config : SettlementRetryConfig) (notes : List Note) : Prop where
  attempts : ∀ lease, (callsOf notes lease).length ≤ config.maxAttempts.val
  calls : ∀ pre lease call post, notes = pre ++ .calls lease call :: post →
    CallOk config pre lease call
  failed : ∀ pre lease error elapsed delay post,
    notes = pre ++ .failed lease error elapsed (.retryAfter delay) :: post →
      FailureOk config pre lease error elapsed delay
  waits : ∀ lease elapsed delay, .waits lease elapsed delay ∈ notes → DelayOk config elapsed delay

theorem callsOf_append (notes notes' : List Note) (lease : Nat) :
    callsOf (notes ++ notes') lease = callsOf notes lease ++ callsOf notes' lease :=
  List.filterMap_append

theorem failuresOf_append (notes notes' : List Note) (lease : Nat) :
    failuresOf (notes ++ notes') lease = failuresOf notes lease ++ failuresOf notes' lease :=
  List.filterMap_append

/-- The note is neither a call for `lease` nor a failure of one. -/
def Note.Silent (lease : Nat) (note : Note) : Prop :=
  note.call? lease = none ∧ note.failure? lease = none

theorem Note.silent_of_other (h : note.lease? ≠ some lease) : note.Silent lease := by
  cases note with
  | calls l call => exact ⟨if_neg fun he => h (congrArg some he), rfl⟩
  | failed l error elapsed decision => exact ⟨rfl, if_neg fun he => h (congrArg some he)⟩
  | _ => exact ⟨rfl, rfl⟩

theorem callsOf_silent (h : ∀ note ∈ notes', note.Silent lease) :
    callsOf (notes ++ notes') lease = callsOf notes lease := by
  rw [callsOf_append, show callsOf notes' lease = [] from
    List.filterMap_eq_nil_iff.2 fun note hn => (h note hn).1, List.append_nil]

theorem failuresOf_silent (h : ∀ note ∈ notes', note.Silent lease) :
    failuresOf (notes ++ notes') lease = failuresOf notes lease := by
  rw [failuresOf_append, show failuresOf notes' lease = [] from
    List.filterMap_eq_nil_iff.2 fun note hn => (h note hn).2, List.append_nil]

/-! ## One lease -/

/-- The fields of a delivery that the calls for it have left. -/
structure Attempting (config : SettlementRetryConfig) (clock : MonotonicInstant)
    (calls : List SettleCall) (d : OwnedSyncDelivery) : Prop where
  config : d.retry.config = config
  attempts : d.retry.attempts = calls.length
  untouched : calls = [] → d.firstAttempt = none ∧ d.nextAttempt = 0
  first : ∀ c, calls.head? = some c → d.firstAttempt = some c.startedAt
  past : ∀ t, d.firstAttempt = some t → clock.NotBefore t
  same : ∀ c ∈ calls, ∀ intent, d.settlement = some intent →
    intent.token = some c.token ∧ intent.disposition = c.disposition

/-- The delivery has no settlement any more. -/
theorem Attempting.unsettle {config : SettlementRetryConfig} {clock : MonotonicInstant}
    {calls : List SettleCall} {d : OwnedSyncDelivery} (h : Attempting config clock calls d) :
    Attempting config clock calls { d with settlement := none } :=
  { h with same := fun _ _ _ hs => by cases hs }

/-- The delivery waits for its next call: the last failure says when. -/
structure Due (config : SettlementRetryConfig) (clock : MonotonicInstant) (calls : List SettleCall)
    (failures : List Failure) (d : OwnedSyncDelivery) : Prop where
  failed : failures.length = calls.length
  last : ∀ failure, failures.getLast? = some failure → ∃ delay,
    failure.decision = .retryAfter delay ∧ DelayOk config failure.elapsed delay ∧
    d.nextAttempt = failure.elapsed + delay ∧
    ∀ t, d.firstAttempt = some t → failure.elapsed ≤ clock.elapsed - t.elapsed

/-- What the notes and the state say about the settlement of `lease`. -/
structure Budgeted (ctx : OwnerContext) (notes : List Note) (s : State) (lease : Nat) : Prop where
  claimed : callsOf notes lease ≠ [] ∨ s.owned.lookup lease ≠ none ∨ s.inbox lease ≠ [] ∨
    s.jobs.lookup lease ≠ none → Claimed s.core ctx.subscriptionId lease
  receiving : s.point.receives = some lease → Claimed s.core ctx.subscriptionId lease ∧
    callsOf notes lease = [] ∧ s.owned.lookup lease = none ∧ s.inbox lease = [] ∧
    s.jobs.lookup lease = none
  balanced : (failuresOf notes lease).length ≤ (callsOf notes lease).length
  attempting : ∀ d, s.owned.lookup lease = some d →
    Attempting ctx.settlementRetry s.clock (callsOf notes lease) d
  kept : ∀ d, s.owned.lookup lease = some d → callsOf notes lease ≠ [] →
    d.settlement.isSome ∨ lease ∈ s.point.completing
  done : ∀ d, s.owned.lookup lease = some d → lease ∈ s.point.completing → d.settlement = none
  due : ∀ d, s.owned.lookup lease = some d → (∀ t, s.point.call ≠ some (lease, t)) →
    d.settlement.isSome → s.terminalFailure = none →
      Due ctx.settlementRetry s.clock (callsOf notes lease) (failuresOf notes lease) d ∧
        ∀ failure ∈ failuresOf notes lease, failure.Retried
  calling : ∀ t, s.point.call = some (lease, t) → ∃ d, s.owned.lookup lease = some d ∧
    d.firstAttempt = some t ∧ d.settlement.isSome ∧
    (failuresOf notes lease).length + 1 = (callsOf notes lease).length ∧
    ∀ failure ∈ failuresOf notes lease, failure.Retried
  /-- A delivery that has not been looked at yet has nothing on its way. -/
  fresh : ∀ d, s.owned.lookup lease = some d → d.inbound.isSome → d.settlement = none ∧
    d.result = none ∧ s.inbox lease = [] ∧ s.jobs.lookup lease = none

/-- A move of the loop that the settlement of `lease` does not notice. -/
structure Point.Keeps (lease : Nat) (p p' : Point) : Prop where
  receives : p'.receives = some lease ↔ p.receives = some lease
  call : ∀ t, p'.call = some (lease, t) ↔ p.call = some (lease, t)
  completing : lease ∈ p'.completing ↔ lease ∈ p.completing

theorem Point.Keeps.refl (lease : Nat) (p : Point) : p.Keeps lease p := ⟨.rfl, fun _ => .rfl, .rfl⟩

section
variable {config : SettlementRetryConfig} {tick : Tick}
  {l : Nat}

/-- A step about another lease. -/
theorem Budgeted.frame (h : Budgeted ctx notes s l) (hf : Frame ctx lease s notes' s')
    (hi : Inv s.core) (hl : l ≠ lease) (hp : s.point.Keeps l s'.point) :
    Budgeted ctx (notes ++ notes') s' l := by
  have hsilent : ∀ note ∈ notes', note.Silent l := fun note hn =>
    Note.silent_of_other fun hnl => hl (hf.about note hn l hnl)
  have hcalls : callsOf (notes ++ notes') l = callsOf notes l := callsOf_silent hsilent
  have hfails : failuresOf (notes ++ notes') l = failuresOf notes l := failuresOf_silent hsilent
  have hterm : s'.terminalFailure = none → s.terminalFailure = none := by
    intro hn
    by_contra hs
    have := hf.terminal (Option.isSome_iff_ne_none.2 hs)
    rw [hn] at this
    cases this
  have hclaim := (hf.core hi).claimed l
  constructor
  · rw [hcalls, hf.owned l hl, hf.inbox l hl, hf.jobs l hl]
    exact fun hc => hclaim (h.claimed hc)
  · rw [hcalls, hf.owned l hl, hf.inbox l hl, hf.jobs l hl, hp.receives]
    exact fun hr => ⟨hclaim (h.receiving hr).1, (h.receiving hr).2⟩
  · rw [hcalls, hfails]
    exact h.balanced
  · rw [hcalls, hf.owned l hl, hf.clock]
    exact h.attempting
  · rw [hcalls, hf.owned l hl, hp.completing]
    exact h.kept
  · rw [hf.owned l hl, hp.completing]
    exact h.done
  · rw [hcalls, hfails, hf.owned l hl, hf.clock]
    exact fun d hd hc hs ht => h.due d hd (fun t => mt (hp.call t).2 (hc t)) hs (hterm ht)
  · rw [hcalls, hfails, hf.owned l hl]
    exact fun t ht => h.calling t ((hp.call t).1 ht)
  · rw [hf.owned l hl, hf.inbox l hl, hf.jobs l hl]
    exact h.fresh

/-- What a step may do to a delivery without touching its settlement: it may only set the intent, if
there was none. -/
structure OwnedSyncDelivery.Untouched (d d' : OwnedSyncDelivery) : Prop where
  retry : d'.retry = d.retry
  firstAttempt : d'.firstAttempt = d.firstAttempt
  nextAttempt : d'.nextAttempt = d.nextAttempt
  settlement : d'.settlement = d.settlement ∨ d.settlement = none

theorem Due.untouched {clock : MonotonicInstant} {calls : List SettleCall} {failures : List Failure}
    (h : Due config clock calls failures d) (hu : d.Untouched d') :
    Due config clock calls failures d' := by
  refine ⟨h.failed, fun failure hf => ?_⟩
  obtain ⟨delay, hd, hok, hn, ht⟩ := h.last failure hf
  exact ⟨delay, hd, hok, hu.nextAttempt.trans hn, hu.firstAttempt ▸ ht⟩

/-- A step about the delivery of `lease` that makes no call. -/
theorem Budgeted.untouched (h : Budgeted ctx notes s lease) (hf : Frame ctx lease s notes' s')
    (hi : Inv s.core) (hn : ∀ note ∈ notes', note.Silent lease) (hp : s.point.Keeps lease s'.point)
    (hc : lease ∉ s.point.completing ∨ d'.settlement = d.settlement)
    (hd : s.owned.lookup lease = some d) (hd' : s'.owned.lookup lease = some d')
    (hu : d.Untouched d')
    (hfresh : d'.inbound.isSome → d'.settlement = none ∧ d'.result = none ∧ s'.inbox lease = [] ∧
      s'.jobs.lookup lease = none) : Budgeted ctx (notes ++ notes') s' lease := by
  have hcalls : callsOf (notes ++ notes') lease = callsOf notes lease := callsOf_silent hn
  have hfails : failuresOf (notes ++ notes') lease = failuresOf notes lease := failuresOf_silent hn
  have ha := h.attempting d hd
  -- a delivery that had no intent had no call
  have hset : d'.settlement = d.settlement ∨ callsOf notes lease = [] := by
    rcases hc with hc | hc
    · rcases hu.settlement with hs | hs
      · exact .inl hs
      · by_cases hno : callsOf notes lease = []
        · exact .inr hno
        · have := (h.kept d hd hno).resolve_right hc
          rw [hs] at this
          cases this
    · exact .inl hc
  have hown (d₁ : OwnedSyncDelivery) (h₁ : s'.owned.lookup lease = some d₁) : d₁ = d' := by
    rw [hd'] at h₁
    exact (Option.some.inj h₁).symm
  constructor
  · exact fun _ => (hf.core hi).claimed lease (h.claimed (.inr (.inl (by rw [hd]; nofun))))
  · intro hr
    have := (h.receiving (hp.receives.1 hr)).2.2.1
    rw [hd] at this
    cases this
  · rw [hcalls, hfails]
    exact h.balanced
  · intro d₁ h₁
    obtain rfl := hown d₁ h₁
    rw [hcalls, hf.clock]
    refine ⟨hu.retry ▸ ha.config, hu.retry ▸ ha.attempts, ?_, ?_, hu.firstAttempt ▸ ha.past, ?_⟩
    · rw [hu.firstAttempt, hu.nextAttempt]
      exact ha.untouched
    · rw [hu.firstAttempt]
      exact ha.first
    · rcases hset with hs | hno
      · rw [hs]
        exact ha.same
      · rw [hno]
        exact fun _ hm => nomatch hm
  · intro d₁ h₁ hne
    obtain rfl := hown d₁ h₁
    rw [hcalls] at hne
    rw [hset.resolve_right hne, hp.completing]
    exact h.kept d hd hne
  · intro d₁ h₁ hm
    obtain rfl := hown d₁ h₁
    have hm := hp.completing.1 hm
    rw [hc.resolve_left (not_not.2 hm)]
    exact h.done d hd hm
  · intro d₁ h₁ hcall hs ht
    obtain rfl := hown d₁ h₁
    rw [hcalls, hfails, hf.clock]
    have hterm : s.terminalFailure = none := by
      by_contra hsome
      have := hf.terminal (Option.isSome_iff_ne_none.2 hsome)
      rw [ht] at this
      cases this
    rcases hset with heq | hno
    · rw [heq] at hs
      obtain ⟨hdue, hr⟩ := h.due d hd (fun t => mt (hp.call t).2 (hcall t)) hs hterm
      exact ⟨hdue.untouched hu, hr⟩
    · have hnil : failuresOf notes lease = [] := by
        have := h.balanced
        rw [hno] at this
        exact List.length_eq_zero_iff.1 (Nat.le_zero.1 this)
      rw [hno, hnil]
      exact ⟨⟨rfl, nofun⟩, nofun⟩
  · intro t ht
    obtain ⟨d₁, h₁, hfirst, hsome, hfc⟩ := h.calling t ((hp.call t).1 ht)
    obtain rfl : d₁ = d := Option.some.inj (h₁.symm.trans hd)
    rw [hcalls, hfails]
    have hne : callsOf notes lease ≠ [] := by
      intro hnil
      have := hfc.1
      rw [hnil] at this
      cases this
    exact ⟨d', hd', hu.firstAttempt.trans hfirst, by rw [hset.resolve_right hne]; exact hsome, hfc⟩
  · intro d₁ h₁ hin
    obtain rfl := hown d₁ h₁
    exact hfresh hin

/-- A lease without a delivery. -/
theorem Budgeted.unowned (h : Budgeted ctx notes s lease) (hf : Frame ctx lease s notes' s')
    (hi : Inv s.core) (hn : ∀ note ∈ notes', note.Silent lease) (hd' : s'.owned.lookup lease = none)
    (hc : s'.inbox lease ≠ [] ∨ s'.jobs.lookup lease ≠ none →
      s.inbox lease ≠ [] ∨ s.jobs.lookup lease ≠ none)
    (hr : s'.point.receives ≠ some lease) (hcall : ∀ t, s'.point.call ≠ some (lease, t)) :
    Budgeted ctx (notes ++ notes') s' lease := by
  have hnone : ∀ d, s'.owned.lookup lease ≠ some d := by
    intro d hd₁
    rw [hd'] at hd₁
    cases hd₁
  refine ⟨fun hcl => (hf.core hi).claimed lease (h.claimed ?_), fun hr' => absurd hr' hr, ?_,
    fun d hd₁ => absurd hd₁ (hnone d), fun d hd₁ => absurd hd₁ (hnone d),
    fun d hd₁ => absurd hd₁ (hnone d), fun d hd₁ => absurd hd₁ (hnone d),
    fun t ht => absurd ht (hcall t), fun d hd₁ => absurd hd₁ (hnone d)⟩
  · rw [callsOf_silent hn] at hcl
    rcases hcl with hcl | hcl | hcl
    · exact .inl hcl
    · exact absurd hd' hcl
    · exact .inr (.inr (hc hcl))
  · rw [callsOf_silent hn, failuresOf_silent hn]
    exact h.balanced

/-! ## Plain notes -/

/-- The note is about an attempt to settle. -/
def Note.settles : Note → Bool
  | .calls .. | .failed .. | .waits .. => true
  | _ => false

/-- No note is about an attempt to settle. -/
def Plain (notes : List Note) : Prop := ∀ note ∈ notes, note.settles = false

theorem plain_nil : Plain [] := nofun

theorem Plain.append (h : Plain notes) (h' : Plain notes') : Plain (notes ++ notes') :=
  fun note hn => (List.mem_append.1 hn).elim (h note) (h' note)

theorem Plain.cons (hn : note.settles = false) (h : Plain notes) : Plain (note :: notes) :=
  fun n hm => (List.mem_cons.1 hm).elim (fun he => he ▸ hn) (h n)

theorem Plain.silent (h : Plain notes) (lease : Nat) : ∀ note ∈ notes, note.Silent lease := by
  intro note hn
  have := h note hn
  cases note with
  | calls => cases this
  | failed => cases this
  | waits => cases this
  | _ => exact ⟨rfl, rfl⟩

theorem plain_failReceive (reason : SubscriptionStopReason) : Plain (s.failReceive ctx reason).1 :=
  plain_nil.cons rfl

theorem plain_countAbandoned (times : Nat) : Plain (s.countAbandoned ctx lease times).1 := by
  obtain ⟨notes, deliveries, ephemeral, heq, hn⟩ := countAbandoned_cases ctx s lease times
  rw [heq]
  intro note hm
  rw [hn note hm]
  rfl

theorem plain_perform (effects : Effects) : Plain (s.perform ctx lease effects).1 :=
  plain_countAbandoned _

theorem plain_release : Plain (s.release lease).1 := plain_nil.cons rfl

theorem plain_prepareStopping : Plain (s.prepareStopping ctx lease d).1 := by
  unfold State.prepareStopping
  dsimp only
  split
  · split
    · split
      · exact plain_nil
      · exact plain_countAbandoned 1
    · exact plain_countAbandoned 1
  · split
    · exact plain_nil
    · split
      · exact plain_nil
      · split
        · exact plain_nil
        · exact plain_countAbandoned 1

theorem plain_finishAttempt {result : Option FailureDirective} {forwarded : Bool}
    (h : s.finishAttempt ctx lease d result forwarded = some (notes, s')) : Plain notes := by
  obtain ⟨effects, -, rfl, -⟩ := finishAttempt_some h
  exact plain_perform effects

theorem plain_finishOne (h : s.finishOne ctx tick lease d = some (notes, s')) : Plain notes := by
  rcases finishOne_cases h with ⟨-, -, ⟨d', result, s₁, -, hfin, -⟩ | ⟨d', due, -, rfl, -⟩⟩ |
    ⟨-, rfl, -⟩
  · exact plain_finishAttempt hfin
  · exact plain_nil
  · exact plain_nil

theorem plain_submit {attempt : Nat} (h : s.submit lease d attempt = some (notes, s')) :
    Plain notes := by
  obtain ⟨event, -, heq⟩ := Option.map_eq_some_iff.1 h
  cases heq
  exact plain_nil

theorem plain_startAttempt (h : s.startAttempt ctx tick lease d = some (notes, s')) :
    Plain notes := by
  unfold State.startAttempt at h
  split at h
  · split at h
    · exact plain_submit h
    · cases h
      exact plain_nil
    · exact plain_finishAttempt h
  · exact plain_submit h

theorem plain_dispatch (h : s.dispatch ctx tick lease d = some (notes, s')) : Plain notes := by
  unfold State.dispatch at h
  split at h
  · exact plain_startAttempt h
  · dsimp only at h
    split at h
    · cases h
      exact plain_perform _
    · split at h
      · obtain ⟨⟨notes', s₁⟩, hf, heq⟩ := Option.map_eq_some_iff.1 h
        cases heq
        exact (plain_perform _).append (plain_finishAttempt hf)
      · obtain ⟨⟨notes', s₁⟩, hf, heq⟩ := Option.map_eq_some_iff.1 h
        cases heq
        exact (plain_perform _).append (plain_startAttempt hf)

theorem plain_removeOne : Plain (s.removeOne lease).1 := by
  unfold State.removeOne
  split
  · exact plain_nil
  · dsimp only
    split
    · exact plain_release.cons rfl
    · exact plain_release

theorem plain_drainOne : Plain (s.drainOne ctx lease d).1 := by
  unfold State.drainOne
  dsimp only
  refine Plain.append ?_ plain_release
  split
  · exact plain_countAbandoned 1
  · exact plain_nil

theorem plain_receiveReturned (tick : Tick) : Plain (s.receiveReturned ctx tick lease).1 := by
  unfold State.receiveReturned
  dsimp only
  split
  · split
    · split
      · exact (((plain_failReceive _).append (plain_countAbandoned 1)).append plain_release).cons
          rfl
      · exact (plain_perform _).cons rfl
    · exact plain_nil.cons rfl
  · exact plain_release
  · exact plain_nil.cons rfl
  · split
    · exact plain_release.append (plain_failReceive _)
    · exact plain_release
  · exact plain_release.append (plain_failReceive _)

theorem singleton_eq_append_cons {A : Type} {x y : A} {pre post : List A}
    (h : [x] = pre ++ y :: post) : pre = [] ∧ x = y := by
  cases pre with
  | nil => exact ⟨rfl, (List.cons.inj h).1⟩
  | cons z pre => simpa using (List.cons.inj h).2

/-- One more note. -/
theorem WithinBudget.snoc (h : WithinBudget config notes)
    (hcall : ∀ lease call, note = .calls lease call → CallOk config notes lease call)
    (hfail : ∀ lease error elapsed delay, note = .failed lease error elapsed (.retryAfter delay) →
      FailureOk config notes lease error elapsed delay)
    (hwait : ∀ lease elapsed delay, note = .waits lease elapsed delay →
      DelayOk config elapsed delay) :
    WithinBudget config (notes ++ [note]) := by
  refine ⟨fun lease => ?_, fun pre lease call post heq => ?_,
    fun pre lease error elapsed delay post heq => ?_, fun lease elapsed delay hm => ?_⟩
  · by_cases hs : note.call? lease = none
    · have : callsOf [note] lease = [] :=
        List.filterMap_eq_nil_iff.2 (List.forall_mem_singleton.2 hs)
      rw [callsOf_append, this, List.append_nil]
      exact h.attempts lease
    · cases note with
      | calls l call =>
        obtain rfl : l = lease := by
          by_contra hl
          exact hs (if_neg hl)
        have hlt := (hcall l call rfl).attempts
        have hone : callsOf [.calls l call] l = [call] := by simp [callsOf, Note.call?]
        rw [callsOf_append, hone, List.length_append]
        exact hlt
      | _ => exact absurd rfl hs
  · rcases append_eq_append_cons heq with ⟨post', heq', -⟩ | ⟨pre', rfl, heq'⟩
    · exact h.calls pre lease call post' heq'
    · obtain ⟨rfl, hn⟩ := singleton_eq_append_cons heq'
      rw [List.append_nil]
      exact hcall lease call hn
  · rcases append_eq_append_cons heq with ⟨post', heq', -⟩ | ⟨pre', rfl, heq'⟩
    · exact h.failed pre lease error elapsed delay post' heq'
    · obtain ⟨rfl, hn⟩ := singleton_eq_append_cons heq'
      rw [List.append_nil]
      exact hfail lease error elapsed delay hn
  · rcases List.mem_append.1 hm with hm | hm
    · exact h.waits lease elapsed delay hm
    · exact hwait lease elapsed delay (List.mem_singleton.1 hm).symm

/-- Plain notes leave the run within its budget. -/
theorem WithinBudget.plain (h : WithinBudget config notes) (hn : Plain notes') :
    WithinBudget config (notes ++ notes') := by
  induction notes' generalizing notes with
  | nil => rwa [List.append_nil]
  | cons note notes' ih =>
    have hnote : note.settles = false := hn note List.mem_cons_self
    rw [← List.singleton_append, ← List.append_assoc]
    refine ih (h.snoc ?_ ?_ ?_) fun n hm => hn n (List.mem_cons_of_mem _ hm)
    · rintro lease call rfl
      cases hnote
    · rintro lease error elapsed delay rfl
      cases hnote
    · rintro lease elapsed delay rfl
      cases hnote

end

/-! ## All leases -/

structure Budgets (ctx : OwnerContext) (notes : List Note) (s : State) : Prop where
  inv : Inv s.core
  leases : ∀ lease, Budgeted ctx notes s lease
  /-- The owner makes no progress after a terminal failure. -/
  progress : s.point.progress = true → s.terminalFailure = none
  terminated : .terminates ∈ notes → s.terminalFailure.isSome
  within : WithinBudget ctx.settlementRetry notes

theorem Frame.terminated_append (hf : Frame ctx lease s notes' s')
    (h : .terminates ∈ notes → s.terminalFailure.isSome) :
    .terminates ∈ notes ++ notes' → s'.terminalFailure.isSome := fun hn =>
  (List.mem_append.1 hn).elim (fun hn => hf.terminal (h hn)) hf.terminated

/-- A step about `lease`. -/
theorem Budgets.about (h : Budgets ctx notes s) (hf : Frame ctx lease s notes' s')
    (hself : Budgeted ctx (notes ++ notes') s' lease)
    (hothers : ∀ l, l ≠ lease → s.point.Keeps l s'.point)
    (hprog : s'.point.progress = true → s'.terminalFailure = none)
    (hwithin : WithinBudget ctx.settlementRetry (notes ++ notes')) :
    Budgets ctx (notes ++ notes') s' where
  inv := (hf.core h.inv).inv
  leases l := by
    by_cases he : l = lease
    · exact he ▸ hself
    · exact (h.leases l).frame hf h.inv he (hothers l he)
  progress := hprog
  terminated := hf.terminated_append h.terminated
  within := hwithin

/-- A step about no lease. -/
theorem Budgets.idle (h : Budgets ctx notes s) (hf : ∀ lease, Frame ctx lease s notes' s')
    (hn : Plain notes') (hp : ∀ l, s.point.Keeps l s'.point)
    (hprog : s'.point.progress = true → s'.terminalFailure = none) :
    Budgets ctx (notes ++ notes') s' where
  inv := ((hf 0).core h.inv).inv
  leases l := (h.leases l).frame (hf (l + 1)) h.inv (by omega) (hp l)
  progress := hprog
  terminated := (hf 0).terminated_append h.terminated
  within := h.within.plain hn

/-- The loop goes on to another point. -/
theorem Budgets.goto (h : Budgets ctx notes s) (p : Point) (hp : ∀ l, s.point.Keeps l p)
    (hprog : p.progress = true → s.terminalFailure = none) : Budgets ctx notes (s.goto p) := by
  have hf (lease : Nat) : Frame ctx lease s [] (s.goto p) := frame_goto p
  have := h.idle hf plain_nil hp hprog
  rwa [List.append_nil] at this

theorem Budgets.op (h : Budgets ctx notes s) (op : Scheduler.Op)
    (hop : op.plain = true) :
    Budgets ctx notes { s with core := Scheduler.step s.core op } := by
  have hf (lease : Nat) : Frame ctx lease s [] { s with core := Scheduler.step s.core op } :=
    frame_plain op hop
  have := h.idle hf plain_nil (fun l => .refl l _) h.progress
  rwa [List.append_nil] at this

/-- The flags that no settlement depends on. -/
theorem Budgets.flags (h : Budgets ctx notes s)
    (cancelled draining immediate receiveClosed stopPublished sampledDraining stopping : Bool) :
    Budgets ctx notes { s with
      cancelled := cancelled, draining := draining, immediate := immediate
      receiveClosed := receiveClosed, stopPublished := stopPublished
      sampledDraining := sampledDraining, stopping := stopping } :=
  { h with leases := fun l => { h.leases l with } }

theorem Budgets.failReceive (h : Budgets ctx notes s) (reason : SubscriptionStopReason)
    (hp : s.point.progress = false) :
    After (Budgets ctx) notes (s.failReceive ctx reason) :=
  h.idle (fun _ => frame_failReceive reason) (plain_failReceive reason) (fun l => .refl l _) <|
    fun hg => by
    have hg : s.point.progress = true := hg
    rw [hp] at hg
    cases hg

/-- A step about the delivery of `lease` that does not touch its settlement, at a point where
nothing is marked as done. -/
theorem Budgets.untouched (h : Budgets ctx notes s) (hf : Frame ctx lease s notes' s')
    (hn : Plain notes') (hp : s'.point = s.point) (hc : s.point.completing = [])
    (hprog : s.point.progress = true → s'.terminalFailure = none)
    (hd : s.owned.lookup lease = some d) (hd' : s'.owned.lookup lease = some d')
    (hu : d.Untouched d') (hfresh : d'.inbound.isSome → d'.settlement = none ∧ d'.result = none ∧
      s'.inbox lease = [] ∧ s'.jobs.lookup lease = none) : Budgets ctx (notes ++ notes') s' := by
  have hkeep (l : Nat) : s.point.Keeps l s'.point := by
    rw [hp]
    exact .refl l _
  refine h.about hf ?_ (fun l _ => hkeep l) (by rw [hp]; exact hprog) (h.within.plain hn)
  exact (h.leases lease).untouched hf h.inv (hn.silent lease) (hkeep lease)
    (.inl (by rw [hc]; exact List.not_mem_nil)) hd hd' hu hfresh

end EventBus.Delivery
