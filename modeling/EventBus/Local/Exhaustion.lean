import EventBus.Local.Conserved
import EventBus.Local.QueueRefine

/-!
# Receiving without a token left

A queue numbers its deliveries with a `u64`. When the last number has been used, a receiver that
finds a ready event puts it back and fails. Taking the event may remove its lane, move the head of
the lane on and compact the heap, and putting it back may create the lane again; but the contents of
the lanes come out as they were (`Put.back`), so nothing is lost however often a receiver tries.
-/

namespace EventBus.Local

open Lib

variable {s : LocalSharedState} {maxInstant foreign i : Nat} {queue : LocalQueue} {q : QueueRef}

/-- The answer to a receive when no token is left. -/
def exhaustedError (topic : TopicAddress) : SpiError :=
  operationError "receive" (some topic.value) "settlement_token_exhausted"

/-- What a look at the queue depends on: the two readings of the clock and the time for the next
delay, of a receiver that waits. -/
structure Look where
  moment : Moment
  again : Moment
  waits : Option Nat

/-- A receiver of `queue` looks at it. -/
def look (queue : LocalQueue) (resource : LocalQueue → LocalEvent → TopicAddress) (l : Locked)
    (x : Look) : Option (Received × Locked) :=
  receive queue resource x.moment x.again x.waits l

/-- What the queue contains, the budget and the cells are as before. -/
structure Untouched (l l' : Locked) : Prop where
  lanes : ∀ k, l'.state.events k = l.state.events k
  pendingCount : l'.state.pendingCount = l.state.pendingCount
  inFlight : l'.state.inFlight = l.state.inFlight
  nextDeliveryToken : l'.state.nextDeliveryToken = l.state.nextDeliveryToken
  closed : l'.state.closed = l.state.closed
  outstanding : l'.outstanding = l.outstanding
  cells : l'.cells = l.cells

/-- In the plain model of the queue, `e` may be received at every time from `now` on. -/
def Receivable (l : Locked) (e : LocalEvent) (now : Nat) : Prop :=
  ∀ (m : PlainQueue) (later : Nat) (iter : IterOrder), (∀ k, m.queue k = l.state.events k) →
    now ≤ later → ∃ m', PlainStep m (.popReady later iter) (.event (some e)) m'

/-! ## One look -/

section
variable {state : LocalQueueState} {now : Nat} {e : LocalEvent} (queue : LocalQueue)
  (resource : LocalQueue → LocalEvent → TopicAddress) {l l' : Locked}

theorem Untouched.refl (l : Locked) : Untouched l l := ⟨fun _ => rfl, rfl, rfl, rfl, rfl, rfl, rfl⟩

theorem Untouched.trans {l₁ : Locked} (h : Untouched l l₁) (h' : Untouched l₁ l') :
    Untouched l l' where
  lanes k := (h'.lanes k).trans (h.lanes k)
  pendingCount := h'.pendingCount.trans h.pendingCount
  inFlight := h'.inFlight.trans h.inFlight
  nextDeliveryToken := h'.nextDeliveryToken.trans h.nextDeliveryToken
  closed := h'.closed.trans h.closed
  outstanding := h'.outstanding.trans h.outstanding
  cells := h'.cells.trans h.cells

theorem LocalQueueState.Same.untouched (h : l.state.Same state) : Untouched l { l with state } :=
  ⟨h.events, h.pendingCount, h.inFlight, h.nextDeliveryToken, h.closed, rfl, rfl⟩

theorem checkedSucc_max {n : Nat} (h : n = 2 ^ 64 - 1) : checkedSucc n = none := by
  rw [h]
  decide

/-- With no token left no look delivers anything, and none changes anything. -/
theorem look_untouched (hb : l.state.Balanced) (hmax : l.state.nextDeliveryToken = 2 ^ 64 - 1)
    (x : Look) :
    ∃ r l', look queue resource l x = some (r, l') ∧ Untouched l l' ∧ l'.state.Balanced := by
  obtain ⟨r, l', heq, hstep⟩ : ∃ r l', receive queue resource x.moment x.again x.waits l =
      some (r, l') ∧ ReceiveStep queue resource l r l' :=
    receive_spec hb resource x.moment x.again x.waits
  refine ⟨r, l', heq, ?_⟩
  cases hstep with
  | closed => exact ⟨.refl l, hb⟩
  | nothing _ hb' hsame => exact ⟨hsame.untouched, hb'⟩
  | exhausted _ _ _ hb' hsame => exact ⟨hsame.untouched, hb'⟩
  | message _ hs =>
    rw [checkedSucc_max hmax] at hs
    cases hs

/-- A look that finds an event fails, and the event is still where it was. -/
theorem look_exhausted (hb : l.state.Balanced) (hmax : l.state.nextDeliveryToken = 2 ^ 64 - 1)
    (hopen : l.state.closed = false) (x : Look)
    (hpop : l.state.popReady x.moment.iter x.moment.now = some (some e, state)) :
    ∃ l', look queue resource l x = some (.failed (exhaustedError (resource queue e)), l') ∧
      e.Due x.moment.now ∧ ∃ events, l.state.events e.orderingKey = e :: events := by
  obtain ⟨r, state₁, hpop₁, htook⟩ :=
    LocalQueueState.popReady_balanced x.moment.iter x.moment.now hb
  rw [hpop] at hpop₁
  obtain ⟨rfl, rfl⟩ := Prod.mk.inj (Option.some.inj hpop₁)
  cases htook with
  | taken hdue he hput =>
    obtain ⟨state', hback, -⟩ :=
      LocalQueueState.enqueueFrontAt_balanced x.again.iter x.again.now hput.balanced e
    refine ⟨{ l with state := state' }, ?_, hdue, _, he⟩
    have hnone : checkedSucc state.nextDeliveryToken = none :=
      checkedSucc_max (hput.nextDeliveryToken.trans hmax)
    simp only [look, receive, hopen, Bool.false_eq_true, if_false, hpop, Option.bind_some, hnone,
      hback, Option.map_some, exhaustedError]

theorem receivable_of_head {events : List LocalEvent} (hdue : e.Due now)
    (he : l.state.events e.orderingKey = e :: events) : Receivable l e now := by
  intro m later iter hm hle
  have hlater : e.Due later := fun deadline hd => (hdue deadline hd).trans hle
  exact ⟨_, .popSome hlater ((hm _).trans he)⟩

theorem Untouched.receivable (h : Untouched l l') (he : Receivable l e now) : Receivable l' e now :=
  fun m later iter hm hle => he m later iter (fun k => (hm k).trans (h.lanes k)) hle

/-! ## Any number of looks -/

/-- However often receivers look at the queue, nothing changes. A look that finds an event fails,
and the event stays receivable however often they look after that. -/
def SurvivesExhaustion (queue : LocalQueue) (resource : LocalQueue → LocalEvent → TopicAddress)
    (l : Locked) : Prop :=
  ∀ looks, ∃ rs l₁, trace (look queue resource) l looks = some (rs, l₁) ∧ Untouched l l₁ ∧
    ∀ x e state, l₁.state.closed = false →
      l₁.state.popReady x.moment.iter x.moment.now = some (some e, state) →
      ∃ l₂, look queue resource l₁ x = some (.failed (exhaustedError (resource queue e)), l₂) ∧
        Untouched l l₂ ∧
        ∀ more, ∃ rs l₃, trace (look queue resource) l₂ more = some (rs, l₃) ∧ Untouched l l₃ ∧
          Receivable l₃ e x.moment.now

theorem looks_untouched (hb : l.state.Balanced) (hmax : l.state.nextDeliveryToken = 2 ^ 64 - 1)
    (looks : List Look) :
    ∃ rs l', trace (look queue resource) l looks = some (rs, l') ∧ Untouched l l' ∧
      l'.state.Balanced := by
  refine trace_invariant (I := fun l' => Untouched l l' ∧ l'.state.Balanced) (C := fun _ => True)
    (fun l₁ x h _ => ?_) ⟨.refl l, hb⟩ fun _ _ => trivial
  obtain ⟨r, l₂, heq, huntouched, hb₂⟩ :=
    look_untouched queue resource h.2
      (h.1.nextDeliveryToken.trans hmax) x
  exact ⟨r, l₂, heq, h.1.trans huntouched, hb₂⟩

theorem survivesExhaustion (hb : l.state.Balanced)
    (hmax : l.state.nextDeliveryToken = 2 ^ 64 - 1) : SurvivesExhaustion queue resource l := by
  intro looks
  obtain ⟨rs, l₁, htrace, h₁, hb₁⟩ := looks_untouched queue resource hb hmax looks
  refine ⟨rs, l₁, htrace, h₁, fun x e state hopen hpop => ?_⟩
  have hmax₁ := h₁.nextDeliveryToken.trans hmax
  obtain ⟨r, l₂, heq, h₂, hb₂⟩ :=
    look_untouched queue resource hb₁ hmax₁ x
  obtain ⟨l₂', heq', hdue, events, he⟩ :=
    look_exhausted queue resource hb₁ hmax₁ hopen x hpop
  obtain ⟨rfl, rfl⟩ := Prod.mk.inj (Option.some.inj (heq.symm.trans heq'))
  refine ⟨l₂, heq, h₁.trans h₂, fun more => ?_⟩
  obtain ⟨rs₃, l₃, htrace₃, h₃, -⟩ := looks_untouched queue resource hb₂
    (h₂.nextDeliveryToken.trans hmax₁) more
  exact ⟨rs₃, l₃, htrace₃, (h₁.trans h₂).trans h₃,
    (h₂.trans h₃).receivable (receivable_of_head hdue he)⟩

end

/-! ## The providers -/

/-- In this step the call is a receive on `q` that looks at its queue: at its start, or after a wait
that has not timed out. -/
def Call.Looks (q : QueueRef) (x : Tick) : Call → Prop
  | .receive q' _ => q' = q
  | .receiving q' timeout started => q' = q ∧ ¬ (x.timedOut ∧ timeout < x.moment.now - started)
  | _ => False

/-- The same of a future that is polled. -/
def AsyncCall.Looks (q : QueueRef) (x : AsyncTick) : AsyncCall → Prop
  | .receive q' _ => q' = q
  | .receiving q' _ _ => q' = q ∧ x.dropped = false
  | _ => False

/-- In every state that a run can reach, a queue whose tokens are used up survives all receives, and
a receive that finds an event in it returns the error and changes nothing. -/
def KeepsExhausted {S Q C X : Type} (m : Machine S Q C Response X ProviderNote) (store : S → Store)
    (resource : LocalQueue → LocalEvent → TopicAddress) (moment : X → Moment)
    (looks : QueueRef → X → C → Prop) (s : S) : Prop :=
  ∀ moves, ∃ rs w, trace m.move (Machine.start s) moves = some (rs, w) ∧
    ∀ q queue, (store w.shared).queues[q]? = some queue →
      queue.state.nextDeliveryToken = 2 ^ 64 - 1 →
      SurvivesExhaustion queue resource ((store w.shared).lock queue) ∧
      ∀ i call x e state, looks q x call → queue.state.closed = false →
        queue.state.popReady (moment x).iter (moment x).now = some (some e, state) →
        ∃ s' l', m.step w.shared i call x =
            some (s', .returned (.received (.error (exhaustedError (resource queue e)))), []) ∧
          store s' = (store w.shared).unlock q queue l' ∧
          Untouched ((store w.shared).lock queue) l'

/-- A machine whose receives are looks at their queues. -/
theorem Staged.keepsExhausted {S Q C X B : Type} {m : Machine S Q C Response X ProviderNote}
    {v : View S C B} {maxCount : Nat} {maxWeight : Option ℕ+} (hm : Staged m v maxCount maxWeight)
    {s : S} (h : Accounted maxCount maxWeight (v.store s))
    {resource : LocalQueue → LocalEvent → TopicAddress} {moment : X → Moment}
    {looks : QueueRef → X → C → Prop}
    (hlook : ∀ s i call x q queue, looks q x call → (v.store s).queues[q]? = some queue →
      ∃ again waits, ∀ error l',
        look queue resource ((v.store s).lock queue) ⟨moment x, again, waits⟩ =
          some (.failed error, l') →
        ∃ s', m.step s i call x = some (s', .returned (.received (.error error)), []) ∧
          v.store s' = (v.store s).unlock q queue l') :
    KeepsExhausted m v.store resource moment looks s := by
  intro moves
  obtain ⟨rs, w, hrun, haccounted, -⟩ := hm.holds h moves
  refine ⟨rs, w, hrun, fun q queue hq hmax => ?_⟩
  have hb : queue.state.Balanced :=
    (haccounted.queues queue (List.mem_of_getElem? hq)).balanced
  refine ⟨survivesExhaustion queue resource hb hmax, fun i call x e state hlooks hopen hpop => ?_⟩
  obtain ⟨again, waits, hstep⟩ := hlook w.shared i call x q queue hlooks hq
  obtain ⟨r, l', heq, huntouched, -⟩ :=
    look_untouched (l := (v.store w.shared).lock queue) queue resource hb hmax
      ⟨moment x, again, waits⟩
  obtain ⟨l'', heq', -⟩ := look_exhausted (l := (v.store w.shared).lock queue) queue resource hb
    hmax hopen ⟨moment x, again, waits⟩ hpop
  obtain ⟨rfl, rfl⟩ := Prod.mk.inj (Option.some.inj (heq.symm.trans heq'))
  obtain ⟨s', hs', hstore⟩ := hstep _ l' heq
  exact ⟨s', l', hs', hstore, huntouched⟩

/-- A failed look is the whole step. -/
theorem Call.lookAt_fails (hq : s.store.queues[q]? = some queue) (call : Call)
    (timeout started : Nat) (x : Tick) :
    ∃ again waits, ∀ error l',
      Local.look queue (fun queue _ => queue.topic) (s.store.lock queue)
        ⟨x.moment, again, waits⟩ = some (.failed error, l') →
      Call.lookAt s call q timeout started x = some ({ s with store := s.store.unlock q queue l' },
        .returned (.received (.error error)), []) := by
  refine ⟨x.again,
    if timeout = 0 ∨ timeout ≤ x.again.now - started then none else some x.moment.now, ?_⟩
  intro error l' heq
  unfold Local.look at heq
  simp only [Call.lookAt, Store.onQueue, hq, heq]
  rfl

theorem provider_looks_fail {call : Call} {x : Tick} (hlooks : call.Looks q x)
    (hq : s.store.queues[q]? = some queue) :
    ∃ again waits, ∀ error l',
      look queue (fun queue _ => queue.topic) (s.store.lock queue) ⟨x.moment, again, waits⟩ =
        some (.failed error, l') →
      ∃ s', Call.step maxInstant foreign s i call x =
          some (s', .returned (.received (.error error)), []) ∧
        s'.store = s.store.unlock q queue l' := by
  cases call with
  | receive q' timeout =>
    obtain rfl : q' = q := hlooks
    obtain ⟨again, waits, hlook⟩ :=
      Call.lookAt_fails hq (.receive q' timeout) timeout x.moment.now x
    refine ⟨again, waits, fun error l' heq => ⟨_, hlook error l' heq, rfl⟩⟩
  | receiving q' timeout started =>
    obtain ⟨rfl, hwaits⟩ := hlooks
    obtain ⟨again, waits, hlook⟩ :=
      Call.lookAt_fails hq (.receiving q' timeout started) timeout started x
    refine ⟨again, waits, fun error l' heq =>
      ⟨{ s with store := s.store.unlock q' queue l' }, ?_, rfl⟩⟩
    exact (if_neg hwaits).trans (hlook error l' heq)
  | _ => cases hlooks

theorem AsyncCall.lookAt_fails {s : AsyncLocalShared} (hq : s.store.queues[q]? = some queue)
    (maxDuration : Nat) (call : AsyncCall) (timeout started : Nat) (x : AsyncTick) :
    ∃ again waits, ∀ error l',
      Local.look queue (fun _ event => event.topic) (s.store.lock queue)
        ⟨x.moment, again, waits⟩ = some (.failed error, l') →
      AsyncCall.lookAt maxDuration s call q timeout started x =
        some ({ s with store := s.store.unlock q queue l' },
          .returned (.received (.error error)), []) := by
  refine ⟨x.again, if timeout = 0 ∨ timeout ≠ maxDuration ∧ timeout ≤ x.clock - started then none
    else some x.again.now, ?_⟩
  intro error l' heq
  unfold Local.look at heq
  simp only [AsyncCall.lookAt, Store.onQueue, hq, heq]
  rfl

theorem asyncProvider_looks_fail {maxDuration : Nat} {s : AsyncLocalShared} {call : AsyncCall}
    {x : AsyncTick} (hlooks : call.Looks q x) (hq : s.store.queues[q]? = some queue) :
    ∃ again waits, ∀ error l',
      look queue (fun _ event => event.topic) (s.store.lock queue) ⟨x.moment, again, waits⟩ =
        some (.failed error, l') →
      ∃ s', AsyncCall.step maxInstant maxDuration foreign s i call x =
          some (s', .returned (.received (.error error)), []) ∧
        s'.store = s.store.unlock q queue l' := by
  cases call with
  | receive q' timeout =>
    obtain rfl : q' = q := hlooks
    obtain ⟨again, waits, hlook⟩ :=
      AsyncCall.lookAt_fails hq maxDuration (.receive q' timeout) timeout x.clock x
    refine ⟨again, waits, fun error l' heq => ⟨_, hlook error l' heq, rfl⟩⟩
  | receiving q' timeout started =>
    obtain ⟨rfl, hdropped⟩ := hlooks
    obtain ⟨again, waits, hlook⟩ :=
      AsyncCall.lookAt_fails hq maxDuration (.receiving q' timeout started) timeout started x
    refine ⟨again, waits, fun error l' heq =>
      ⟨{ s with store := s.store.unlock q' queue l' }, ?_, rfl⟩⟩
    exact (if_neg (by simp [hdropped])).trans (hlook error l' heq)
  | _ => cases hlooks

/-- **Token exhaustion loses nothing**, in both providers and in every state a run can reach. -/
theorem providers_keep_exhausted (maxInstant maxDuration foreign capacity maxCount : Nat)
    (maxWeight : Option ℕ+) (cells : List LocalSettlementState) :
    KeepsExhausted (provider maxInstant foreign) LocalSharedState.store
      (fun queue _ => queue.topic) Tick.moment Call.Looks
      (.new capacity maxCount maxWeight cells) ∧
    KeepsExhausted (asyncProvider maxInstant maxDuration foreign) AsyncLocalShared.store
      (fun _ event => event.topic) AsyncTick.moment AsyncCall.Looks
      (.new capacity maxCount maxWeight cells) := by
  constructor
  · exact (provider_staged maxInstant foreign maxCount maxWeight).keepsExhausted
      (Accounted.new cells) fun _ _ _ _ _ _ hlooks hq => provider_looks_fail hlooks hq
  · exact (asyncProvider_staged maxInstant maxDuration foreign maxCount maxWeight).keepsExhausted
      (Accounted.new cells) fun _ _ _ _ _ _ hlooks hq => asyncProvider_looks_fail hlooks hq

end EventBus.Local
