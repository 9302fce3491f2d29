import EventBus.Local.ProviderSteps
import EventBus.Local.Waking

/-!
# No lost wakeup in the asynchronous local provider

A queue with neither a ready nor a delayed lane is dormant: no look at it finds an event until it is
changed. A poll without a timer leaves the queue dormant, and whoever ends that owes a notification
(`AsyncCall.step_owes`). So a waker that such a poll has left is woken, or held by a `notify_all`,
or in the table, and then the queue is dormant or a `notify_all` of it is still to run (`Waits`).

What the threads hold is a multiset of `WakeToken`s. A receiver is borrowed by at most one future,
so the entry of a future in the table of its queue is touched by nobody else, and all entries of a
table are those of one live future.
-/

namespace EventBus.Local

open Lib

variable {call : AsyncCall} {k : Nat} {q p : QueueRef} {future : ReceiveFuture} {id i : Nat}

/-! ## Dormant queues -/

namespace LocalQueueState

variable {iter : IterOrder} {now : Nat} {s s' : LocalQueueState}

/-- A look at the queue may find something. -/
def Ready (s : LocalQueueState) : Prop :=
  s.closed = true ∨ ∃ iter now event s', s.popReady iter now = some (some event, s')

structure Dormant (s : LocalQueueState) : Prop where
  opened : s.closed = false
  ready : s.readyLanes = []
  delayed : s.delayedLanes = []

theorem Dormant.discard (h : s.Dormant) : s.discardStaleDelayedHeads = some s := by
  have hdelayed := h.delayed
  unfold discardStaleDelayedHeads
  rw [hdelayed, discardLoop]
  cases s
  cases hdelayed
  rfl

theorem Dormant.popReady (h : s.Dormant) (iter : IterOrder) (now : Nat) :
    s.popReady iter now = some (none, s) := by
  have hready := h.ready
  unfold LocalQueueState.popReady promoteDueHeads
  rw [h.discard, Option.bind_some, h.delayed, List.length_nil, promoteLoop, Option.bind_some,
    hready, popLoop]
  cases s
  cases hready
  rfl

theorem Dormant.nextReadyDelay (h : s.Dormant) (now : Nat) :
    s.nextReadyDelay now = some (none, s) := by
  unfold LocalQueueState.nextReadyDelay
  rw [h.discard, Option.map_some, h.delayed]
  rfl

theorem Dormant.not_ready (h : s.Dormant) : ¬ s.Ready := by
  rintro (hclosed | ⟨iter, now, event, s', heq⟩)
  · rw [h.opened] at hclosed
    cases hclosed
  · rw [h.popReady] at heq
    cases heq

/-- The loop of `pop_ready` ends without an event when no ready lane is left. -/
theorem popLoop_none {ready : List (QueueKey × Nat)}
    (h : popLoop iter now ready s = some (none, s')) : s'.readyLanes = [] := by
  cases popLoop_some h with
  | nothing hno => rfl

/-- A receiver that finds nothing and no delay leaves a dormant queue. -/
theorem dormant_of_nothing {now' : Nat} {s₁ : LocalQueueState} (hopen : s₁.closed = false)
    (hpop : s.popReady iter now = some (none, s₁))
    (hdelay : s₁.nextReadyDelay now' = some (none, s')) : s'.Dormant := by
  obtain ⟨s₀, -, hloop⟩ := Option.bind_eq_some_iff.1 hpop
  obtain ⟨s₂, hdiscard, heq⟩ := Option.map_eq_some_iff.1 hdelay
  obtain ⟨heap, stale, rfl, -⟩ := discardLoop_some hdiscard
  obtain ⟨hnone, rfl⟩ := Prod.mk.inj heq
  have hready := popLoop_none hloop
  refine ⟨hopen, hready, ?_⟩
  rw [Option.map_eq_none_iff] at hnone
  exact List.head?_eq_none_iff.1 hnone

end LocalQueueState

/-! ## Who wakes a queue up -/

/-- The queue `q`, if it exists, is dormant. -/
def Store.DormantAt (s : Store) (q : QueueRef) : Prop :=
  ∀ queue, s.queues[q]? = some queue → queue.state.Dormant

section
variable {resource : LocalQueue → LocalEvent → TopicAddress} {waits : Option Nat} {again : Moment}
  {l l' : Locked} {s : Store} {queue : LocalQueue}

theorem Store.DormantAt.unlock (hq : s.queues[q]? = some queue) (h : s.DormantAt p)
    (hl : p = q → queue.state.Dormant → l.state.Dormant) : (s.unlock q queue l).DormantAt p := by
  intro queue' hqueue'
  unfold Store.unlock at hqueue'
  by_cases hp : p = q
  · subst hp
    rw [List.getElem?_set_self (List.getElem?_eq_some_iff.1 hq).1] at hqueue'
    cases hqueue'
    exact hl rfl (h queue hq)
  · rw [List.getElem?_set_ne (Ne.symm hp)] at hqueue'
    exact h queue' hqueue'

/-- A new queue is dormant. -/
theorem Store.DormantAt.subscribe (h : s.DormantAt p) (id : Id) (topic : TopicAddress)
    (subscriberId : SubscriberId) (capacity : Nat) :
    (s.subscribe id topic subscriberId capacity).DormantAt p := by
  intro queue' hqueue'
  unfold Store.subscribe at hqueue'
  rw [List.getElem?_append] at hqueue'
  split at hqueue'
  · exact h queue' hqueue'
  · rw [List.getElem?_singleton] at hqueue'
    split at hqueue'
    · cases hqueue'
      exact ⟨rfl, rfl, rfl⟩
    · cases hqueue'

/-- A look leaves a dormant queue as it is. -/
theorem receive_dormant {m : Moment} {received : Received} (h : l.state.Dormant)
    (heq : receive queue resource m again waits l = some (received, l')) : l'.state.Dormant := by
  unfold receive at heq
  rw [h.opened, if_neg Bool.false_ne_true, h.popReady, Option.bind_some] at heq
  cases waits with
  | none =>
    cases heq
    exact h
  | some now =>
    simp only [h.nextReadyDelay, Option.map_some, Option.some.injEq, Prod.mk.injEq] at heq
    rw [← heq.2]
    exact h

/-- A receiver that finds nothing was ready to wait, and if no delay is ahead, the queue is
dormant. -/
theorem receive_waits {m : Moment} {delay : Option Nat} (hb : l.state.Balanced)
    (heq : receive queue resource m again waits l = some (.nothing (some delay), l')) :
    waits ≠ none ∧ (delay = none → l'.state.Dormant) := by
  unfold receive at heq
  split at heq
  · cases heq
  next hopen =>
  obtain ⟨r, state, hpop, htook⟩ := LocalQueueState.popReady_balanced m.iter m.now hb
  rw [hpop, Option.bind_some] at heq
  cases htook with
  | taken hdue hevents hput =>
    simp only at heq
    split at heq
    · obtain ⟨state', -, h⟩ := Option.map_eq_some_iff.1 heq
      cases h
    · cases heq
  | idle hb' hsame =>
    cases waits with
    | none => cases heq
    | some now =>
      obtain ⟨⟨delay', state'⟩, hdelay, h⟩ := Option.map_eq_some_iff.1 heq
      cases h
      refine ⟨nofun, ?_⟩
      rintro rfl
      refine LocalQueueState.dormant_of_nothing ?_ hpop hdelay
      rw [hsame.closed]
      exact eq_false_of_ne_true hopen

/-- A rejected publication does not touch the queue. -/
theorem publishTo_rejected {event : LocalEvent} {m : Moment}
    {rejection : AdmissionRejectionKind × String}
    (heq : publishTo queue event m l = some (some rejection, l')) : l'.state = l.state := by
  unfold publishTo at heq
  simp only at heq
  split at heq
  · cases heq
    rfl
  · obtain ⟨state, -, h⟩ := Option.map_eq_some_iff.1 heq
    cases h

/-- Only the first settlement of a delivery touches the queue. -/
theorem settle_changes {token : SettlementToken} {disposition : DeliveryDisposition} {m : Moment}
    {result : Except SpiError Unit}
    (heq : settle queue token disposition m (s.lock queue) = some (result, l)) :
    l.state = queue.state ∨ result = .ok () ∧ s.isUnsettled token = true := by
  unfold settle at heq
  simp only at heq
  split at heq
  · cases heq
    exact .inl rfl
  split at heq
  · cases heq
    exact .inl rfl
  next handle hhandle =>
  split at heq
  · cases heq
    exact .inl rfl
  next cell hcell =>
  split at heq
  · split at heq <;> cases heq <;> exact .inl rfl
  next hnone =>
  split at heq
  · cases heq
    exact .inl rfl
  split at heq
  · cases heq
    exact .inl rfl
  · obtain ⟨l', -, h⟩ := Option.map_eq_some_iff.1 heq
    cases h
    refine .inr ⟨rfl, ?_⟩
    have hcell : s.cells[handle.address]? = some cell := hcell
    simp [Store.isUnsettled, hhandle, hcell, hnone]

end

namespace AsyncCall

theorem route_store (s : AsyncLocalShared) (message : OutboundMessage) (event : LocalEvent)
    (payloadType : TypeId) : (route s message event payloadType).1.store = s.store := by
  simp only [route]
  split
  · rfl
  split
  · rfl
  split <;> rfl

theorem subscribeIn_dormantAt {s : AsyncLocalShared} (h : s.store.DormantAt p)
    (request : SpiSubscriptionRequest) : (subscribeIn s request).1.store.DormantAt p := by
  simp only [subscribeIn]
  split
  · exact h
  split
  · exact h
  split
  · exact h
  · exact h.subscribe _ _ _ _

variable {maxInstant maxDuration foreign : Nat} {s s' : AsyncLocalShared}
  {x : AsyncTick} {t : Thread AsyncCall Response} {notes : List ProviderNote}

theorem afterLook_store (maxDuration : Nat) (q : QueueRef) (timeout started : Nat)
    (timer : TimerPoll) (queue : LocalQueue) (received : Received) (s : AsyncLocalShared) :
    (afterLook maxDuration q timeout started timer queue received s).1 = s := by
  cases received with
  | nothing delay =>
    cases delay with
    | none => rfl
    | some delay =>
      cases timer with
      | failed error =>
        simp only [afterLook]
        split <;> rfl
      | pending => rfl
      | fired => rfl
  | closed => rfl
  | message message => rfl
  | failed error => rfl

/-- After a step of `call` with this result the queue `p` is dormant, or the call owes a
notification of it. -/
def Owing (s : AsyncLocalShared) (call : AsyncCall) (p : QueueRef) (result : Option AsyncNext) :
    Prop :=
  ∀ next, result = some next → next.1.store.DormantAt p ∨ p ∈ call.owes s next.2.1 next.2.2

theorem Owing.dormant {next : AsyncNext} (h : next.1.store.DormantAt p) :
    Owing s call p (some next) := by
  rintro _ ⟨⟩
  exact .inl h

/-- A section of the registry waits for its lock, or is made. -/
theorem Owing.locking {next : Option AsyncNext} (h : s.store.DormantAt p)
    (hnext : Owing s call p next) :
    Owing s call p (if s.lock.isSome then some (s, .running call, []) else next) := by
  split
  · exact .dormant h
  · exact hnext

/-- A step inside a queue owes a notification of it if it ends the dormancy of the queue. -/
theorem Owing.onQueue {R : Type} {body : LocalQueue → Locked → Option (R × Locked)}
    {next : LocalQueue → R → Store → AsyncNext} (h : s.store.DormantAt p)
    (hstore : ∀ queue r store, (next queue r store).1.store = store)
    (hbody : ∀ queue r l store, p = q → body queue (s.store.lock queue) = some (r, l) →
      (queue.state.Dormant → l.state.Dormant) ∨
        p ∈ call.owes s (next queue r store).2.1 (next queue r store).2.2) :
    Owing s call p (s.store.onQueue q (s, .running call, []) body next) := by
  unfold Store.onQueue
  split
  · exact .dormant h
  next queue hq =>
  intro a ha
  obtain ⟨⟨r, l⟩, heq, rfl⟩ := Option.map_eq_some_iff.1 ha
  rw [hstore]
  by_cases hp : p = q
  · exact (hbody queue r l _ hp heq).imp_left fun hl => h.unlock hq fun _ => hl
  · exact .inl (h.unlock hq fun hpq => absurd hpq hp)

/-! One lemma for each step that goes into a queue. -/

theorem lookAt_owing (h : s.store.DormantAt p) (maxDuration timeout started : Nat) (x : AsyncTick) :
    Owing s call p (lookAt maxDuration s call q timeout started x) := by
  unfold lookAt
  refine .onQueue h (fun queue received store => ?_) fun _ _ _ _ _ hbody => .inl fun hdormant => ?_
  · rw [afterLook_store]
  · exact receive_dormant hdormant hbody

theorem admitting_owing (h : s.store.DormantAt p) {event : LocalEvent} {mailboxes : List QueueRef}
    {admissions : List DestinationAdmission} :
    Owing s (.admitting event (q :: mailboxes) admissions) p
      (step maxInstant maxDuration foreign s i
        (.admitting event (q :: mailboxes) admissions) x) := by
  simp only [step]
  refine .onQueue h (fun _ _ _ => rfl) fun queue rejection l _ hp hbody => ?_
  cases rejection with
  | some rejection =>
    rw [publishTo_rejected hbody]
    exact .inl id
  | none => exact .inr (by simp [owes, admissionNote, hp])

theorem settle_owing (h : s.store.DormantAt p) {token : SettlementToken}
    {disposition : DeliveryDisposition} : Owing s (.settle q token disposition) p
      (step maxInstant maxDuration foreign s i (.settle q token disposition) x) := by
  simp only [step]
  refine .onQueue h (fun _ _ _ => rfl) fun queue result l _ hp hbody => ?_
  rcases settle_changes hbody with hsame | ⟨rfl, hunsettled⟩
  · rw [hsame]
    exact .inl id
  · exact .inr (by simp [owes, hunsettled, hp])

theorem close_owing (h : s.store.DormantAt p) :
    Owing s (.close q) p (step maxInstant maxDuration foreign s i (.close q) x) := by
  simp only [step, closeMailbox]
  exact .locking h (.onQueue h (fun _ _ _ => rfl) fun _ _ _ _ hp _ => .inr (by simp [owes, hp]))

theorem cleaning_owing (h : s.store.DormantAt p) {mode : ShutdownMode} {result : ShutdownOutcome}
    {mailboxes : List QueueRef} : Owing s (.cleaning mode result (q :: mailboxes)) p
      (step maxInstant maxDuration foreign s i (.cleaning mode result (q :: mailboxes)) x) := by
  simp only [step]
  exact .onQueue h (fun _ _ _ => rfl) fun _ _ _ _ hp _ => .inr (by simp [owes, hp])

/-- **Whoever ends the dormancy of a queue owes a notification of it.** -/
theorem step_owes (h : s.store.DormantAt p) :
    Owing s call p (step maxInstant maxDuration foreign s i call x) := by
  cases call with
  | publish message =>
    simp only [step]
    split
    · exact .dormant h
    · exact .locking h (.dormant (by rwa [route_store]))
  | admitting event mailboxes admissions =>
    cases mailboxes with
    | nil => exact .dormant h
    | cons q mailboxes => exact admitting_owing h
  | subscribe request =>
    simp only [step]
    split
    · exact .dormant h
    · exact .locking h (.dormant (subscribeIn_dormantAt h request))
  | receive q timeout => exact lookAt_owing h _ _ _ _
  | receiving q timeout started =>
    simp only [step]
    split
    · exact .dormant h
    · exact lookAt_owing h _ _ _ _
  | settle q token disposition => exact settle_owing h
  | close q => exact close_owing h
  | shutdown mode => cases mode <;> exact .locking h (.dormant h)
  | draining timeout started =>
    simp only [step]
    split
    · exact .dormant h
    · exact .locking h (.dormant h)
  | checking timeout started seen mailboxes =>
    cases mailboxes with
    | nil => exact .dormant h
    | cons q mailboxes =>
      simp only [step]
      split
      · exact .dormant h
      · split <;> exact .dormant h
  | busy timeout started =>
    simp only [step]
    split
    · exact .dormant h
    split
    · exact .dormant h
    split <;> exact .dormant h
  | finalize mode result =>
    refine .locking h ?_
    split <;> exact .dormant h
  | cleaning mode result mailboxes =>
    cases mailboxes with
    | nil => exact .dormant h
    | cons q mailboxes => exact cleaning_owing h
  | foreign address disposition =>
    refine .dormant fun queue hqueue => h queue ?_
    split at hqueue
    · rw [← (settleForeign_queues s.store address disposition).1]
      exact hqueue
    · exact hqueue

end AsyncCall

/-! ## What the threads hold -/

inductive WakeToken (W : Type) where
  | receiver (q : QueueRef)
  | waiter (q : QueueRef) (id : Nat)
  /-- A notification of the queue is still to run. -/
  | owed (q : QueueRef)
  /-- A notification of the queue has still to wake this waker. -/
  | held (q : QueueRef) (waker : W)
deriving DecidableEq

variable {W : Type}

def ReceiveFuture.tokens (future : ReceiveFuture) : Multiset (WakeToken W) :=
  .receiver future.q ::ₘ (future.waiter.elim 0 fun id => {.waiter future.q id})

def WakingCall.tokens : WakingCall W → Multiset (WakeToken W)
  | calling _ owed => (owed.map .owed : List (WakeToken W))
  | waking _ owed q wakers =>
    (owed.map .owed : List (WakeToken W)) + wakers.total fun waker => {.held q waker}
  | opening .. => 0
  | resting future _ | registering future _ | looking future _ | leaving future _ => future.tokens

def WakingThread.tokens : Thread (WakingCall W) Response → Multiset (WakeToken W)
  | .running call => call.tokens
  | .returned _ => 0

/-- The future of thread `i` has been polled with the waker `w`, and will hear of a change of its
queue that it may not have seen. -/
structure Waits (j : List (Nat × WakingNote W)) (m : Multiset (WakeToken W)) (s : WakingShared W)
    (i : Nat) (future : ReceiveFuture) (w : W) (seen : Bool) : Prop where
  polled : (i, .polled) ∈ j
  heard : ∃ id, future.waiter = some id ∧ (s.signals future.q).Safe id w
    (Since (i, .polled) (fun e => e.2 = .woken w) j) (.held future.q w ∈ m)
    (seen = true → ¬ s.provider.store.DormantAt future.q → .owed future.q ∈ m)

section
variable {j : List (Nat × WakingNote W)} {m m' : Multiset (WakeToken W)} {s s' : WakingShared W}
  {es : List (WakingNote W)} {w : W} {seen : Bool}

/-- A step of another thread. -/
theorem Waits.step (h : Waits j m s k future w seen) (hk : k ≠ i)
    (hheld : .held future.q w ∈ m → .held future.q w ∈ m' ∨ .woken w ∈ es)
    (htable : ∀ id, (s.signals future.q).waiters.lookup id = some w →
      (s'.signals future.q).waiters.lookup id = some w ∧
        ((¬ s.provider.store.DormantAt future.q → .owed future.q ∈ m) →
          ¬ s'.provider.store.DormantAt future.q → .owed future.q ∈ m') ∨ .held future.q w ∈ m') :
    Waits (j ++ es.map (i, ·)) m' s' k future w seen := by
  have hmark : (k, WakingNote.polled) ∉ es.map (i, ·) := by
    intro hmem
    obtain ⟨note, -, heq⟩ := List.mem_map.1 hmem
    exact hk (congrArg Prod.fst heq).symm
  obtain ⟨id, hid, hsafe⟩ := h.heard
  refine ⟨List.mem_append_left _ h.polled, id, hid, hsafe.step (fun hs => hs.append hmark)
    (fun hm => ?_) (fun hw howed => ?_)⟩
  · rcases hheld hm with hm | hm
    · exact .inr hm
    · exact .inl (since_of_mem h.polled hmark (List.mem_map.2 ⟨_, hm, rfl⟩) rfl)
  · exact (htable id hw).imp_left fun ⟨hlookup, hdormant⟩ =>
      ⟨hlookup, fun hseen => hdormant (howed hseen)⟩

/-- The table has the waker of the poll. -/
theorem Waits.start (hpolled : (i, .polled) ∈ j) (hid : future.waiter = some id)
    (hlookup : (s.signals future.q).waiters.lookup id = some w) : Waits j m s i future w false :=
  ⟨hpolled, id, hid, .inr (.inr ⟨hlookup, nofun⟩)⟩

/-- The look leaves the queue dormant. -/
theorem Waits.look (h : Waits j m s i future w false) (hsignals : s'.signals = s.signals)
    (hdormant : s'.provider.store.DormantAt future.q) : Waits j m s' i future w true := by
  obtain ⟨id, hid, hsafe⟩ := h.heard
  refine ⟨h.polled, id, hid, ?_⟩
  rw [hsignals]
  exact hsafe.step (fun h => h) .inr fun hw _ => .inl ⟨hw, fun _ hnot => absurd hdormant hnot⟩

end

variable [DecidableEq W]

/-- A receiver is borrowed once, and the entries of the tables are those of live futures. -/
structure Tabled (m : Multiset (WakeToken W)) (s : WakingShared W) : Prop where
  receivers : ∀ q, m.count (.receiver q) = if q ∈ s.borrowed then 1 else 0
  entries : ∀ q id w, (s.signals q).waiters.lookup id = some w → .waiter q id ∈ m

section
variable {rest before after : Multiset (WakeToken W)} {s s' : WakingShared W}

theorem tabled_new (provider : AsyncLocalShared) : Tabled (W := W) 0 (.new provider) := by
  refine ⟨fun q => ?_, fun q id waker hlookup => ?_⟩
  · simp [WakingShared.new]
  · simp [WakingShared.new, Signal.new] at hlookup

theorem Tabled.step (h : Tabled (rest + before) s) (hborrowed : s'.borrowed = s.borrowed)
    (hreceiver : ∀ q, after.count (.receiver q) = before.count (.receiver q))
    (hwaiter : ∀ q id, .waiter q id ∈ before → .waiter q id ∈ after)
    (hentry : ∀ q id w, (s'.signals q).waiters.lookup id = some w →
      (∃ w', (s.signals q).waiters.lookup id = some w') ∨ .waiter q id ∈ after) :
    Tabled (rest + after) s' := by
  refine ⟨fun q => ?_, fun q id w hlookup => ?_⟩
  · have hcount := h.receivers q
    rw [Multiset.count_add] at hcount ⊢
    rw [hreceiver q, hborrowed]
    exact hcount
  · rw [Multiset.mem_add]
    rcases hentry q id w hlookup with ⟨w', hold⟩ | hmem
    · exact (Multiset.mem_add.1 (h.entries q id w' hold)).imp_right (hwaiter q id)
    · exact .inr hmem

/-- Another future has another receiver. -/
theorem Tabled.other (h : Tabled (rest + before) s) (hown : .receiver q ∈ before)
    (hother : .receiver future.q ∈ rest) : future.q ≠ q := by
  rintro rfl
  have hcount := h.receivers future.q
  rw [Multiset.count_add] at hcount
  have h₁ := Multiset.one_le_count_iff_mem.2 hown
  have h₂ := Multiset.one_le_count_iff_mem.2 hother
  split at hcount <;> omega

end

/-! ## Steps -/

variable {maxCount : Nat} {maxWeight : Option ℕ+}

/-- What is known of a thread. -/
def Aware (maxWeight : Option ℕ+) (j : List (Nat × WakingNote W)) (m : Multiset (WakeToken W))
    (s : WakingShared W) (i : Nat) : Thread (WakingCall W) Response → Prop
  | .running (.calling inner _) | .running (.waking inner _ _ _) =>
    ∀ call, inner = .running call → call.Weighed maxWeight
  | .running (.resting future (some ⟨w, false⟩)) => Waits j m s i future w true
  | .running (.registering future _) => (i, .polled) ∈ j ∧ future.waiter.isSome = true
  | .running (.looking future w) => future.timeout = 0 ∨ Waits j m s i future w false
  | _ => True

/-- What a step of thread `i` from a call with the tokens `before` leaves. -/
structure Kept (maxCount : Nat) (maxWeight : Option ℕ+) (j : List (Nat × WakingNote W))
    (rest before : Multiset (WakeToken W)) (s : WakingShared W) (i : Nat) (next : WakingNext W) :
    Prop where
  accounted : Accounted maxCount maxWeight next.1.provider.store
  tabled : Tabled (rest + WakingThread.tokens next.2.1) next.1
  aware : Aware maxWeight (j ++ next.2.2.map (i, ·)) (rest + WakingThread.tokens next.2.1) next.1 i
    next.2.1
  heeds : ∀ k future w seen, k ≠ i → .receiver future.q ∈ rest →
    Waits j (rest + before) s k future w seen →
    Waits (j ++ next.2.2.map (i, ·)) (rest + WakingThread.tokens next.2.1) next.1 k future w seen

section
variable {wakers : Map Nat W} {inner : Thread AsyncCall Response} {owed : List QueueRef}
  {j : List (Nat × WakingNote W)} {rest : Multiset (WakeToken W)} {s s' : WakingShared W}
  {t : Thread (WakingCall W) Response} {es : List (WakingNote W)}

namespace ReceiveFuture

theorem count_receiver (future : ReceiveFuture) (q : QueueRef) :
    (future.tokens : Multiset (WakeToken W)).count (.receiver q) =
      if q = future.q then 1 else 0 := by
  unfold ReceiveFuture.tokens
  cases future.waiter <;> simp [Multiset.count_cons, Multiset.count_singleton]

omit [DecidableEq W] in
@[simp] theorem receiver_mem (future : ReceiveFuture) :
    .receiver future.q ∈ (future.tokens : Multiset (WakeToken W)) := by
  simp [ReceiveFuture.tokens]

omit [DecidableEq W] in
@[simp] theorem waiter_mem :
    .waiter q id ∈ (future.tokens : Multiset (WakeToken W)) ↔
      q = future.q ∧ future.waiter = some id := by
  unfold ReceiveFuture.tokens
  cases hwaiter : future.waiter <;> simp [eq_comm]

omit [DecidableEq W] in
@[simp] theorem held_notMem (future : ReceiveFuture) (q : QueueRef) (w : W) :
    .held q w ∉ (future.tokens : Multiset (WakeToken W)) := by
  unfold ReceiveFuture.tokens
  cases future.waiter <;> simp

omit [DecidableEq W] in
@[simp] theorem owed_notMem (future : ReceiveFuture) (q : QueueRef) :
    .owed q ∉ (future.tokens : Multiset (WakeToken W)) := by
  unfold ReceiveFuture.tokens
  cases future.waiter <;> simp

end ReceiveFuture

/-- A step of a future that stays alive. -/
theorem kept_future (future' : ReceiveFuture)
    (haccounted : Accounted maxCount maxWeight s'.provider.store)
    (h : Tabled (rest + future.tokens) s) (hborrowed : s'.borrowed = s.borrowed)
    (hdormant : ∀ p, s.provider.store.DormantAt p → s'.provider.store.DormantAt p)
    (hsignals : ∀ p, p ≠ future.q → s'.signals p = s.signals p)
    (htokens : WakingThread.tokens t = future'.tokens) (hq : future'.q = future.q)
    (hwaiter : ∀ id, future.waiter = some id → future'.waiter = some id)
    (hentry : ∀ id w, (s'.signals future.q).waiters.lookup id = some w →
      (∃ w', (s.signals future.q).waiters.lookup id = some w') ∨ future'.waiter = some id)
    (haware : Aware maxWeight (j ++ es.map (i, ·)) (rest + future'.tokens) s' i t) :
    Kept maxCount maxWeight j rest future.tokens s i (s', t, es) := by
  refine ⟨haccounted, ?_, by rw [htokens]; exact haware, fun k other w seen hk hother hw => ?_⟩
  · rw [htokens]
    refine h.step hborrowed (fun q => ?_) (fun q id hmem => ?_) (fun q id w hlookup => ?_)
    · rw [future.count_receiver, future'.count_receiver, hq]
    · rw [ReceiveFuture.waiter_mem] at hmem ⊢
      exact ⟨hmem.1.trans hq.symm, hwaiter id hmem.2⟩
    · by_cases hqq : q = future.q
      · subst hqq
        exact (hentry id w hlookup).imp_right fun hid => by simp [hid, hq]
      · rw [hsignals q hqq] at hlookup
        exact .inl ⟨w, hlookup⟩
  · have hne : other.q ≠ future.q := h.other future.receiver_mem hother
    rw [htokens]
    refine hw.step hk (fun hm => ?_) (fun id hlookup => .inl ⟨?_, fun ho hnot => ?_⟩)
    · exact .inl (Multiset.mem_add.2 (.inl ((Multiset.mem_add.1 hm).resolve_right (by simp))))
    · show (s'.signals other.q).waiters.lookup id = some w
      rw [hsignals other.q hne]
      exact hlookup
    · have hm := ho fun hd => hnot (hdormant _ hd)
      exact Multiset.mem_add.2 (.inl ((Multiset.mem_add.1 hm).resolve_right (by simp)))

/-- A call of `receive` borrows the receiver. -/
theorem opening_kept (haccounted : Accounted maxCount maxWeight s.provider.store)
    (h : Tabled (rest + 0) s) (hfree : q ∉ s.borrowed) (timeout : Nat) :
    Kept maxCount maxWeight j rest 0 s i ({ s with borrowed := insert q s.borrowed },
      .running (.resting ⟨q, timeout, none, none⟩ none), []) := by
  refine ⟨haccounted, ⟨fun p => ?_, fun p id w hlookup => ?_⟩, trivial,
    fun k other w seen hk _ hw => ?_⟩
  · have hcount := h.receivers p
    rw [add_zero] at hcount
    simp only [WakingThread.tokens, WakingCall.tokens]
    rw [Multiset.count_add, ReceiveFuture.count_receiver, hcount]
    by_cases hp : p = q
    · simp [hp, hfree]
    · simp [hp]
  · have hmem := h.entries p id w hlookup
    rw [add_zero] at hmem
    exact Multiset.mem_add.2 (.inl hmem)
  · refine hw.step hk (fun hm => ?_) (fun id hlookup => .inl ⟨hlookup, fun ho hnot => ?_⟩)
    · rw [add_zero] at hm
      exact .inl (Multiset.mem_add.2 (.inl hm))
    · have hm := ho hnot
      rw [add_zero] at hm
      exact Multiset.mem_add.2 (.inl hm)

/-- The end of a future, which has left the table of its queue. -/
theorem leaving_kept (haccounted : Accounted maxCount maxWeight s.provider.store)
    (h : Tabled (rest + future.tokens) s) (hprovider : s'.provider = s.provider)
    (hborrowed : s'.borrowed = s.borrowed.erase future.q)
    (hsignals : ∀ p, p ≠ future.q → s'.signals p = s.signals p)
    (hentry : ∀ id w, (s'.signals future.q).waiters.lookup id = some w →
      (s.signals future.q).waiters.lookup id = some w ∧ future.waiter ≠ some id)
    (response : Response) :
    Kept maxCount maxWeight j rest future.tokens s i (s', .returned response, []) := by
  refine ⟨by rw [hprovider]; exact haccounted, ⟨fun p => ?_, fun p id w hlookup => ?_⟩, trivial,
    fun k other w seen hk hother hw => ?_⟩
  · have hcount := h.receivers p
    rw [Multiset.count_add, ReceiveFuture.count_receiver] at hcount
    simp only [WakingThread.tokens, add_zero, hborrowed, Finset.mem_erase]
    by_cases hp : p = future.q
    · rw [if_pos hp] at hcount
      rw [if_neg (by simp [hp])]
      split at hcount <;> omega
    · simpa [hp] using hcount
  · simp only [WakingThread.tokens, add_zero]
    by_cases hp : p = future.q
    · subst hp
      obtain ⟨hold, hne⟩ := hentry id w hlookup
      exact (Multiset.mem_add.1 (h.entries _ id w hold)).resolve_right (by simp [hne])
    · simp only at hlookup
      rw [hsignals p hp] at hlookup
      exact (Multiset.mem_add.1 (h.entries p id w hlookup)).resolve_right (by simp [hp])
  · have hne : other.q ≠ future.q := h.other future.receiver_mem hother
    simp only [WakingThread.tokens, add_zero]
    refine hw.step hk (fun hm => ?_) (fun id hlookup => .inl ⟨?_, fun ho hnot => ?_⟩)
    · exact .inl ((Multiset.mem_add.1 hm).resolve_right (by simp))
    · rw [hsignals other.q hne]
      exact hlookup
    · rw [hprovider] at hnot
      exact (Multiset.mem_add.1 (ho hnot)).resolve_right (by simp)

/-! ### Calls that notify -/

omit [DecidableEq W] in
@[simp] theorem owed_mem :
    WakeToken.owed q ∈ (owed.map .owed : List (WakeToken W)) ↔ q ∈ owed := by
  simp

omit [DecidableEq W] in
theorem mem_waking {token : WakeToken W} :
    token ∈ WakingCall.tokens (.waking inner owed q wakers) ↔
      token ∈ (owed.map .owed : List (WakeToken W)) ∨
        ∃ id w, wakers.lookup id = some w ∧ token = .held q w := by
  simp [WakingCall.tokens, Map.mem_total]

/-- The tokens of calls that notify: neither receivers nor ids. -/
def Announces (tokens : Multiset (WakeToken W)) : Prop :=
  ∀ token ∈ tokens, (∃ q, token = .owed q) ∨ ∃ q w, token = .held q w

omit [DecidableEq W] in
theorem announces_calling (inner : Thread AsyncCall Response) (owed : List QueueRef) :
    Announces (WakingCall.tokens (.calling inner owed : WakingCall W)) := by
  intro token hmem
  obtain ⟨q, -, rfl⟩ := List.mem_map.1 (Multiset.mem_coe.1 hmem)
  exact .inl ⟨q, rfl⟩

omit [DecidableEq W] in
theorem announces_waking (inner : Thread AsyncCall Response) (owed : List QueueRef) (q : QueueRef)
    (wakers : Map Nat W) : Announces (WakingCall.tokens (.waking inner owed q wakers)) := by
  intro token hmem
  rcases mem_waking.1 hmem with hmem | ⟨id, w, -, rfl⟩
  · obtain ⟨q, -, rfl⟩ := List.mem_map.1 hmem
    exact .inl ⟨q, rfl⟩
  · exact .inr ⟨q, w, rfl⟩

theorem Announces.count_receiver {tokens : Multiset (WakeToken W)} (h : Announces tokens)
    (q : QueueRef) : tokens.count (.receiver q) = 0 := by
  rw [Multiset.count_eq_zero]
  intro hmem
  rcases h _ hmem with ⟨p, heq⟩ | ⟨p, w, heq⟩ <;> cases heq

/-- A step of a call that notifies. -/
theorem Tabled.notifies {before after : Multiset (WakeToken W)} (h : Tabled (rest + before) s)
    (hbefore : Announces before) (hafter : Announces after)
    (hborrowed : s'.borrowed = s.borrowed)
    (hentry : ∀ q id w, (s'.signals q).waiters.lookup id = some w →
      (s.signals q).waiters.lookup id = some w) : Tabled (rest + after) s' := by
  refine h.step hborrowed (fun q => ?_) (fun q id hmem => ?_) fun q id w hlookup =>
    .inl ⟨w, hentry q id w hlookup⟩
  · rw [hbefore.count_receiver, hafter.count_receiver]
  · rcases hbefore _ hmem with ⟨p, heq⟩ | ⟨p, w, heq⟩ <;> cases heq

/-- `notify_all` drains the table. -/
theorem notify_kept (haccounted : Accounted maxCount maxWeight s.provider.store)
    (h : Tabled (rest + WakingCall.tokens (.calling inner (q :: owed))) s)
    (hweighed : ∀ call, inner = .running call → call.Weighed maxWeight) :
    Kept maxCount maxWeight j rest (WakingCall.tokens (.calling inner (q :: owed))) s i
      (WakingCall.notify s inner q owed) := by
  refine ⟨haccounted, ?_, hweighed, fun k future w seen hk _ hw => ?_⟩
  · refine h.notifies (announces_calling _ _) (announces_waking inner _ _ _) rfl
      fun p id w hlookup => ?_
    by_cases hp : p = q
    · subst hp
      simp [WakingCall.notify, WakingShared.setSignal, Signal.drain] at hlookup
    · simpa [WakingCall.notify, WakingShared.setSignal, hp] using hlookup
  · simp only [WakingCall.notify, WakingThread.tokens]
    refine hw.step hk (fun hm => ?_) (fun id hlookup => ?_)
    · refine .inl (Multiset.mem_add.2 (.inl ((Multiset.mem_add.1 hm).resolve_right ?_)))
      simp [WakingCall.tokens]
    · by_cases hq : future.q = q
      · subst hq
        exact .inr (Multiset.mem_add.2 (.inr (mem_waking.2 (.inr ⟨id, w, hlookup, rfl⟩))))
      · refine .inl ⟨?_, fun ho hnot => ?_⟩
        · simpa [WakingShared.setSignal, hq] using hlookup
        · rcases Multiset.mem_add.1 (ho hnot) with hm | hm
          · exact Multiset.mem_add.2 (.inl hm)
          · have hmem : future.q ∈ owed := by simpa [WakingCall.tokens, hq] using hm
            exact Multiset.mem_add.2 (.inr (mem_waking.2 (.inl (by simpa using hmem))))

/-- It wakes one waker after the other. -/
theorem waking_kept (haccounted : Accounted maxCount maxWeight s.provider.store)
    (h : Tabled (rest + WakingCall.tokens (.waking inner owed q wakers)) s)
    (hweighed : ∀ call, inner = .running call → call.Weighed maxWeight)
    (maxInstant maxDuration foreign : Nat) (x : WakingTick W) :
    ∃ next, WakingCall.step maxInstant maxDuration foreign s i (.waking inner owed q wakers) x =
      some next ∧
      Kept maxCount maxWeight j rest (WakingCall.tokens (.waking inner owed q wakers)) s i
        next := by
  simp only [WakingCall.step]
  split
  · next hempty =>
    refine ⟨_, rfl, haccounted, h.notifies (announces_waking _ _ _ _) (announces_calling inner _)
      rfl fun _ _ _ h => h, hweighed, fun k future w seen hk _ hw => ?_⟩
    have htokens : WakingCall.tokens (.waking inner owed q wakers) =
        WakingCall.tokens (.calling inner owed : WakingCall W) := by
      rw [Map.eq_empty_of_keys hempty]
      simp [WakingCall.tokens]
    rw [htokens] at hw
    exact hw.step hk .inl fun id hlookup => .inl ⟨hlookup, fun ho => ho⟩
  · split
    · next waker hlookup =>
      refine ⟨_, rfl, haccounted, h.notifies (announces_waking _ _ _ _)
        (announces_waking inner _ _ _) rfl fun _ _ _ h => h, hweighed,
        fun k future w seen hk _ hw => ?_⟩
      have htokens : WakingCall.tokens (.waking inner owed q wakers) =
          {.held q waker} + WakingCall.tokens (.waking inner owed q (wakers.erase x.next)) := by
        simp only [WakingCall.tokens]
        rw [Map.total_erase (fun w => ({.held q w} : Multiset (WakeToken W))) hlookup]
        ac_rfl
      rw [htokens] at hw
      refine hw.step hk (fun hm => ?_) (fun id hlookup => .inl ⟨hlookup, fun ho hnot => ?_⟩)
      · rcases Multiset.mem_add.1 hm with hm | hm
        · exact .inl (Multiset.mem_add.2 (.inl hm))
        · rcases Multiset.mem_add.1 hm with hm | hm
          · obtain ⟨-, rfl⟩ : future.q = q ∧ w = waker := by simpa using hm
            exact .inr (by simp)
          · exact .inl (Multiset.mem_add.2 (.inr hm))
      · rcases Multiset.mem_add.1 (ho hnot) with hm | hm
        · exact Multiset.mem_add.2 (.inl hm)
        · rcases Multiset.mem_add.1 hm with hm | hm
          · simp at hm
          · exact Multiset.mem_add.2 (.inr hm)
    · refine ⟨_, rfl, haccounted, h, hweighed, fun k future w seen hk _ hw => ?_⟩
      exact hw.step hk .inl fun id hlookup => .inl ⟨hlookup, fun ho => ho⟩

/-- A step of the call itself. -/
theorem calling_kept (haccounted : Accounted maxCount maxWeight s.provider.store)
    (h : Tabled (rest + WakingCall.tokens (.calling (.running call) owed)) s)
    (hweighed : call.Weighed maxWeight) (maxInstant maxDuration foreign : Nat) (x : AsyncTick) :
    ∃ provider t notes,
      AsyncCall.step maxInstant maxDuration foreign s.provider i call x =
        some (provider, t, notes) ∧
      Kept maxCount maxWeight j rest (WakingCall.tokens (.calling (.running call) owed)) s i
        ({ s with provider },
          .running (.calling t (owed ++ call.owes s.provider t notes)), []) := by
  obtain ⟨provider, t, notes, heq, hstep⟩ :=
    (asyncProvider_staged maxInstant maxDuration foreign maxCount maxWeight).step s.provider
      i call x haccounted hweighed
  refine ⟨provider, t, notes, heq, hstep.accounted, h.notifies (announces_calling _ _)
    (announces_calling t _) rfl fun _ _ _ h => h, hstep.weighed, fun k future w seen hk _ hw => ?_⟩
  refine hw.step hk (fun hm => ?_) (fun id hlookup => .inl ⟨hlookup, fun ho hnot => ?_⟩)
  · refine .inl (Multiset.mem_add.2 (.inl ((Multiset.mem_add.1 hm).resolve_right ?_)))
    simp [WakingCall.tokens]
  · by_cases hdormant : s.provider.store.DormantAt future.q
    · have howes := (AsyncCall.step_owes hdormant _ heq).resolve_left hnot
      refine Multiset.mem_add.2 (.inr ?_)
      simp [WakingThread.tokens, WakingCall.tokens, howes]
    · rcases Multiset.mem_add.1 (ho hdormant) with hm | hm
      · exact Multiset.mem_add.2 (.inl hm)
      · have hmem : future.q ∈ owed := by simpa [WakingCall.tokens] using hm
        refine Multiset.mem_add.2 (.inr ?_)
        simp [WakingThread.tokens, WakingCall.tokens, hmem]

/-! ### Polls -/

/-- `register_or_update`, up to the insertion. -/
theorem poll_kept (haccounted : Accounted maxCount maxWeight s.provider.store)
    (h : Tabled (rest + future.tokens) s) (waker : W) (clock : Nat) :
    Kept maxCount maxWeight j rest future.tokens s i (WakingCall.poll s future waker clock) := by
  have hpolled : (i, WakingNote.polled) ∈ j ++ [WakingNote.polled].map (i, ·) := by simp
  simp only [WakingCall.poll]
  split
  · next hzero =>
    exact kept_future _ haccounted h rfl (fun _ hd => hd) (fun _ _ => rfl) rfl rfl
      (fun _ hid => hid) (fun id w hlookup => .inl ⟨w, hlookup⟩) (.inl hzero)
  split
  · next hnone =>
    refine kept_future { future with
        started := some (future.started.getD clock)
        waiter := some (s.signals future.q).allocate.1 } haccounted h rfl (fun _ hd => hd)
      (fun p hp => ?_) rfl rfl (fun id hid => ?_) (fun id w hlookup => ?_) ⟨hpolled, rfl⟩
    · simp [WakingShared.setSignal, hp]
    · rw [hnone] at hid
      cases hid
    · simp only [WakingShared.setSignal, Function.update_self] at hlookup
      exact .inl ⟨w, hlookup⟩
  · next id hid =>
    split
    · next hlookup =>
      exact kept_future _ haccounted h rfl (fun _ hd => hd) (fun _ _ => rfl) rfl rfl
        (fun _ hid => hid) (fun id w hlookup => .inl ⟨w, hlookup⟩)
        (.inr (Waits.start hpolled hid hlookup))
    · exact kept_future _ haccounted h rfl (fun _ hd => hd) (fun _ _ => rfl) rfl rfl
        (fun _ hid => hid) (fun id w hlookup => .inl ⟨w, hlookup⟩) ⟨hpolled, by simp [hid]⟩

/-- The insertion. -/
theorem registering_kept (haccounted : Accounted maxCount maxWeight s.provider.store)
    (h : Tabled (rest + future.tokens) s) (hid : future.waiter = some id)
    (hpolled : (i, .polled) ∈ j) (waker : W) :
    Kept maxCount maxWeight j rest future.tokens s i
      (s.setSignal future.q ((s.signals future.q).insert id waker),
        .running (.looking future waker), []) := by
  refine kept_future _ haccounted h rfl (fun _ hd => hd) (fun p hp => ?_) rfl rfl (fun _ hid => hid)
    (fun id' w hlookup => ?_) (.inr (Waits.start (by simpa using hpolled) hid ?_))
  · simp [WakingShared.setSignal, hp]
  · simp only [WakingShared.setSignal, Function.update_self, Signal.lookup_insert] at hlookup
    split at hlookup
    · next heq => exact .inr (by rw [hid, heq])
    · exact .inl ⟨w, hlookup⟩
  · simp [WakingShared.setSignal]

/-- The look at the queue. -/
theorem looking_kept (haccounted : Accounted maxCount maxWeight s.provider.store)
    (h : Tabled (rest + future.tokens) s) {waker : W}
    (haware : future.timeout = 0 ∨ Waits j (rest + future.tokens) s i future waker false)
    (maxDuration : Nat) (x : AsyncTick) :
    ∃ next, WakingCall.look maxDuration s future waker x = some next ∧
      Kept maxCount maxWeight j rest future.tokens s i next := by
  unfold WakingCall.look Store.onQueue
  simp only
  split
  · refine ⟨_, rfl, kept_future _ haccounted h rfl (fun _ hd => hd) (fun _ _ => rfl) rfl rfl
      (fun _ hid => hid) (fun id w hlookup => .inl ⟨w, hlookup⟩) ?_⟩
    simpa [Aware] using haware
  next queue hq =>
  obtain ⟨received, l, hreceive, -, hacc⟩ := haccounted.receive hq (fun _ event => event.topic)
    x.moment x.again (if future.timeout = 0 ∨ future.timeout ≠ maxDuration ∧
      future.timeout ≤ x.clock - future.started.getD x.clock then none else some x.again.now)
  rw [hreceive, Option.map_some]
  refine ⟨_, rfl, ?_⟩
  have hdormant : ∀ p, s.provider.store.DormantAt p →
      (s.provider.store.unlock future.q queue l).DormantAt p :=
    fun p hp => hp.unlock hq fun _ hd => receive_dormant hd hreceive
  -- the poll is ready
  have hready : ∀ response, Kept maxCount maxWeight j rest future.tokens s i
      ({ s with provider := { s.provider with store := s.provider.store.unlock future.q queue l } },
        .running (.leaving future response), []) := by
    intro response
    exact kept_future _ hacc h rfl hdormant (fun _ _ => rfl) rfl rfl (fun _ hid => hid)
      (fun id w hlookup => .inl ⟨w, hlookup⟩) trivial
  cases received with
  | closed => exact hready _
  | message message => exact hready _
  | failed error => exact hready _
  | nothing delay =>
    cases delay with
    | none => exact hready _
    | some delay =>
      have hbalanced := (haccounted.queues queue (List.mem_of_getElem? hq)).balanced
      obtain ⟨hwaits, hidle⟩ := receive_waits (l := s.provider.store.lock queue) hbalanced hreceive
      -- the poll is pending
      have hpending : ∀ es : List (WakingNote W),
          (WakingCall.isTimed maxDuration future.timeout (.nothing (some delay)) = false →
            es = []) →
          Kept maxCount maxWeight j rest future.tokens s i
            ({ s with
              provider := { s.provider with store := s.provider.store.unlock future.q queue l } },
                .running (.resting future (some ⟨waker, WakingCall.isTimed maxDuration
                  future.timeout (.nothing (some delay))⟩)), es) := by
        intro es hes
        refine kept_future _ hacc h rfl hdormant (fun _ _ => rfl) rfl rfl (fun _ hid => hid)
          (fun id w hlookup => .inl ⟨w, hlookup⟩) ?_
        cases htimed : WakingCall.isTimed maxDuration future.timeout (.nothing (some delay)) with
        | true => trivial
        | false =>
          have hnone : delay = none := by
            cases delay with
            | none => rfl
            | some delay => simp [WakingCall.isTimed] at htimed
          rw [hes htimed, List.map_nil, List.append_nil]
          rcases haware with hzero | hwait
          · exact absurd (if_pos (.inl hzero)) hwaits
          · refine hwait.look rfl fun queue' hqueue' => ?_
            simp only [Store.unlock] at hqueue'
            rw [List.getElem?_set_self (List.getElem?_eq_some_iff.1 hq).1] at hqueue'
            cases hqueue'
            exact hidle hnone
      cases htimer : x.timer with
      | pending => exact hpending _ (by simp)
      | fired => exact hpending _ (by simp +contextual)
      | failed error =>
        simp only [AsyncCall.afterLook]
        by_cases hwake : (delay.isSome || decide (future.timeout ≠ maxDuration)) = true
        · simp only [if_pos hwake]
          exact hready _
        · simp only [if_neg hwake]
          exact hpending _ (by simp)

/-- A step that only moves on. -/
theorem stays_kept {before : Multiset (WakeToken W)}
    (haccounted : Accounted maxCount maxWeight s.provider.store) (h : Tabled (rest + before) s)
    (htokens : WakingThread.tokens t = before) (haware : Aware maxWeight j (rest + before) s i t) :
    Kept maxCount maxWeight j rest before s i (s, t, []) := by
  subst htokens
  refine ⟨haccounted, h, ?_, fun k future w seen _ _ hw => ?_⟩
  · simpa using haware
  · simpa using hw

theorem calling_step_kept (haccounted : Accounted maxCount maxWeight s.provider.store)
    (inner : Thread AsyncCall Response) (owed : List QueueRef)
    (h : Tabled (rest + WakingCall.tokens (.calling inner owed)) s)
    (hweighed : ∀ call, inner = .running call → call.Weighed maxWeight)
    (maxInstant maxDuration foreign : Nat) (x : AsyncTick) :
    ∃ next, WakingCall.stepCalling maxInstant maxDuration foreign s i x inner owed = some next ∧
      Kept maxCount maxWeight j rest (WakingCall.tokens (.calling inner owed)) s i next := by
  cases inner with
  | returned response =>
    cases owed with
    | nil =>
      exact ⟨_, rfl, stays_kept haccounted h
        (by simp [WakingThread.tokens, WakingCall.tokens]) trivial⟩
    | cons q owed => exact ⟨_, rfl, notify_kept haccounted h hweighed⟩
  | running call =>
    obtain ⟨provider, t, notes, heq, hkept⟩ :=
      calling_kept (j := j) (i := i) haccounted h (hweighed call rfl) maxInstant
        maxDuration foreign x
    simp only [WakingCall.stepCalling, heq, Option.map_some]
    split
    · exact ⟨_, rfl, notify_kept haccounted h hweighed⟩
    · exact ⟨_, rfl, hkept⟩

/-- **The step lemma.** -/
theorem waking_step_kept (haccounted : Accounted maxCount maxWeight s.provider.store)
    (call : WakingCall W) (h : Tabled (rest + call.tokens) s)
    (haware : Aware maxWeight j (rest + call.tokens) s i (.running call))
    (maxInstant maxDuration foreign : Nat) (x : WakingTick W) :
    ∃ next, WakingCall.step maxInstant maxDuration foreign s i call x = some next ∧
      Kept maxCount maxWeight j rest call.tokens s i next := by
  cases call with
  | calling inner owed =>
    exact calling_step_kept haccounted inner owed h haware maxInstant maxDuration foreign x.tick
  | waking inner owed q wakers =>
    exact waking_kept haccounted h haware maxInstant maxDuration foreign x
  | opening q timeout =>
    simp only [WakingCall.step]
    split
    · exact ⟨_, rfl, stays_kept haccounted h rfl trivial⟩
    · next hfree => exact ⟨_, rfl, opening_kept haccounted h hfree timeout⟩
  | resting future last =>
    simp only [WakingCall.step]
    split
    · exact ⟨_, rfl, kept_future _ haccounted h rfl (fun _ hd => hd) (fun _ _ => rfl) rfl rfl
        (fun _ hid => hid) (fun id w hlookup => .inl ⟨w, hlookup⟩) trivial⟩
    · exact ⟨_, rfl, poll_kept haccounted h x.waker x.tick.clock⟩
  | registering future waker =>
    obtain ⟨hpolled, hsome⟩ := haware
    obtain ⟨id, hid⟩ := Option.isSome_iff_exists.1 hsome
    simp only [WakingCall.step, hid]
    exact ⟨_, rfl, registering_kept haccounted h hid hpolled waker⟩
  | looking future waker => exact looking_kept haccounted h haware maxDuration x.tick
  | leaving future response =>
    simp only [WakingCall.step]
    refine ⟨_, rfl, ?_⟩
    cases hwaiter : future.waiter with
    | none =>
      refine leaving_kept haccounted h ?_ ?_ ?_ ?_ response
      · rfl
      · rfl
      · exact fun _ _ => rfl
      · exact fun id w hlookup => ⟨hlookup, by simp [hwaiter]⟩
    | some id =>
      refine leaving_kept haccounted h (by rfl) (by rfl) (fun p hp => ?_) (fun id' w hlookup => ?_)
        response
      · simp [WakingShared.setSignal, hp]
      · simp only [WakingShared.setSignal, Function.update_self, Signal.lookup_remove] at hlookup
        split at hlookup
        · cases hlookup
        · next hne => exact ⟨hlookup, by simpa [hwaiter] using Ne.symm hne⟩

theorem Kept.other {before : Multiset (WakeToken W)} {next : WakingNext W}
    (h : Kept maxCount maxWeight j rest before s i next) {u : Thread (WakingCall W) Response}
    (hk : k ≠ i) (hrest : ∃ others, rest = others + WakingThread.tokens u)
    (hu : Aware maxWeight j (rest + before) s k u) :
    Aware maxWeight (j ++ next.2.2.map (i, ·)) (rest + WakingThread.tokens next.2.1)
      next.1 k u := by
  obtain ⟨others, hrest⟩ := hrest
  have hmem : ∀ token ∈ WakingThread.tokens u, token ∈ rest := by
    intro token htoken
    rw [hrest]
    exact Multiset.mem_add.2 (.inr htoken)
  cases u with
  | returned response => trivial
  | running call =>
    cases call with
    | calling inner owed => exact hu
    | waking inner owed q wakers => exact hu
    | opening q timeout => trivial
    | resting future last =>
      rcases last with - | ⟨w, timed⟩
      · trivial
      · cases timed with
        | true => trivial
        | false => exact h.heeds k future w true hk (hmem _ future.receiver_mem) hu
    | registering future w => exact ⟨List.mem_append_left _ hu.1, hu.2⟩
    | looking future w =>
      exact hu.imp_right (h.heeds k future w false hk (hmem _ future.receiver_mem))
    | leaving future response => trivial

end

/-- **No wakeup is lost.** In every run, whenever a poll without a timer has returned `Pending` and
the queue is ready or closed, the waker of that poll has been woken since the poll began, or a
running `notify_all` has taken it out of the table and will wake it, or it is in the table and a
`notify_all` of the queue is still to run. Every entry of a table is that of a future that is
alive. -/
theorem no_lost_wakeup (maxInstant maxDuration foreign capacity maxCount : Nat)
    (maxWeight : Option ℕ+) (cells : List LocalSettlementState) {W : Type} [DecidableEq W]
    (moves : List (Move AsyncRequest (WakingTick W))) :
    ∃ w, (wakingProvider maxInstant maxDuration foreign W).reached
        (Machine.start (.new (.new capacity maxCount maxWeight cells))) moves = some w ∧
      let notes := (wakingProvider maxInstant maxDuration foreign W).notes
        (Machine.start (.new (.new capacity maxCount maxWeight cells))) moves
      let tokens := Machine.total WakingThread.tokens w.threads
      (∀ (i : Nat) future waker queue,
        w.threads[i]? = some (.running (.resting future (some ⟨waker, false⟩))) →
        w.shared.provider.store.queues[future.q]? = some queue → queue.state.Ready →
        Since (i, .polled) (fun e => e.2 = .woken waker) notes ∨ .held future.q waker ∈ tokens ∨
          ∃ id, future.waiter = some id ∧
            (w.shared.signals future.q).waiters.lookup id = some waker ∧ .owed future.q ∈ tokens) ∧
      ∀ q id waker, (w.shared.signals q).waiters.lookup id = some waker →
        ∃ (i : Nat) (t : Thread (WakingCall W) Response),
          w.threads[i]? = some t ∧ .waiter q id ∈ WakingThread.tokens t := by
  obtain ⟨rs, w, htrace, hw⟩ := Machine.run_tallies
    (m := wakingProvider maxInstant maxDuration foreign W) (f := WakingThread.tokens)
    (G := fun _ m s => Accounted maxCount maxWeight s.provider.store ∧ Tabled m s)
    (L := Aware maxWeight) (D := fun _ _ => True)
    (fun j w q hs _ => by
      cases q with
      | receive q timeout => exact ⟨rfl, trivial⟩
      | _ =>
        refine ⟨rfl, fun call hcall => ?_⟩
        cases hcall
        trivial)
    (fun j w i c x rest hs hc _ hrest hothers => by
      obtain ⟨haccounted, htabled⟩ := hs.shared
      have haware := hs.threads i _ hc
      rw [hrest] at htabled haware
      obtain ⟨next, hnext, hkept⟩ :=
        waking_step_kept haccounted c htabled haware maxInstant maxDuration foreign x
      exact ⟨_, _, _, hnext, ⟨hkept.accounted, hkept.tabled⟩, hkept.aware,
        fun k u hk hu => hkept.other hk (hothers k u hk hu)⟩)
    (s := WakingShared.new (.new capacity maxCount maxWeight cells))
    ⟨Accounted.new cells, tabled_new _⟩
    (meets_of_forall _ fun _ _ => trivial)
  refine ⟨w, ?_, ?_, ?_⟩
  · rw [Machine.reached, htrace]
    rfl
  · intro i future waker queue hi hq hready
    have hwaits : Waits _ _ _ _ _ _ _ := hw.threads i _ hi
    obtain ⟨id, hid, hsafe⟩ := hwaits.heard
    have hnot : ¬ w.shared.provider.store.DormantAt future.q :=
      fun hd => (hd queue hq).not_ready hready
    rcases hsafe with hwoken | hheld | ⟨hlookup, howed⟩
    · exact .inl hwoken
    · exact .inr (.inl hheld)
    · exact .inr (.inr ⟨id, hid, hlookup, howed rfl hnot⟩)
  · intro q id waker hlookup
    exact Machine.mem_total (hw.shared.2.entries q id waker hlookup)

end EventBus.Local
