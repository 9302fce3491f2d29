import EventBus.Local.ProviderSteps
import EventBus.Local.RegistryNotes
import EventBus.Local.Plain
import EventBus.Lib.Script

/-!
# Both local providers answer alike

A script of calls, one after the other, without delays and waits, gets the same answers from the
synchronous and the asynchronous provider; only errors may differ. The two keep equal stores, and
registries that show one directory (`Twins`), though the one holds its queues weakly under their
topics and the other owns mailboxes with an index beside them.
-/

namespace EventBus.Local

open Lib

/-! ## Scripts -/

/-- What a script may do. -/
inductive Op where
  | subscribe (request : SpiSubscriptionRequest)
  /-- Without a delay. -/
  | publish (message : OutboundMessage)
  /-- With timeout zero. -/
  | receive (q : QueueRef)
  | settle (q : QueueRef) (token : SettlementToken) (disposition : DeliveryDisposition)
  | close (q : QueueRef)
  | drop (q : QueueRef)
  /-- An immediate one. -/
  | shutdown

namespace Op

def sync : Op → Request
  | subscribe request => .subscribe request
  | publish message => .publish { message with delay := none }
  | receive q => .receive q 0
  | settle q token disposition => .settle q token disposition
  | close q => .close q
  | drop q => .drop q
  | shutdown => .shutdown .immediate

/-- The drop of a receiver closes its mailbox. -/
def async : Op → AsyncRequest
  | subscribe request => .subscribe request
  | publish message => .publish { message with delay := none }
  | receive q => .receive q 0
  | settle q token disposition => .settle q token disposition
  | close q => .close q
  | drop q => .close q
  | shutdown => .shutdown .immediate

end Op

/-- The queue of the receiver on which a call is made. -/
def Request.receiver : Request → Option QueueRef
  | .receive q _ | .settle q _ _ | .close q | .drop q => some q
  | _ => none

def AsyncRequest.receiver : AsyncRequest → Option QueueRef
  | .receive q _ | .settle q _ _ | .close q => some q
  | _ => none

/-- There is such a receiver. -/
def Store.Knows (store : Store) (receiver : Option QueueRef) : Prop :=
  ∀ q, receiver = some q → q < store.queues.length

/-- The answers are the same, or both are errors. -/
inductive Agree : Response → Response → Prop where
  | same (response : Response) : Agree response response
  | published (e e' : SpiError) : Agree (.published (.error e)) (.published (.error e'))
  | subscribed (e e' : SpiError) : Agree (.subscribed (.error e)) (.subscribed (.error e'))
  | received (e e' : SpiError) : Agree (.received (.error e)) (.received (.error e'))

/-! ## Twins -/

/-- Both registries are open and show the directory. -/
structure Opened (s : LocalSharedState) (a : AsyncLocalShared) (d : Directory) : Prop where
  sync : s.state.closed = false ∧ s.state.shutdownOutcome = none
  async : a.state.closed = false ∧ a.state.outcome = none
  shows : s.state.Shows d
  asyncShows : a.state.Shows d
  types : a.state.Types d
  live : ∀ topic, ∀ e ∈ d.members topic, e.2 ∈ s.owners
  filed : ∀ topic, ∀ e ∈ d.members topic, s.store.filed e.2 = some (e.1, topic)
  /-- A queue that is not listed has been closed. -/
  listed : ∀ (q : QueueRef) queue, s.store.queues[q]? = some queue → queue.state.closed = false →
    (queue.id, q) ∈ d.members queue.topic

/-- Both have been shut down. -/
structure Shut (s : LocalSharedState) (a : AsyncLocalShared) : Prop where
  sync : s.state.closed = true ∧ s.state.shutdownOutcome = some .complete
  async : a.state.closed = true ∧ a.state.outcome = some .complete
  closed : ∀ queue ∈ s.store.queues, queue.state.closed = true

/-- The two providers after the same script. -/
structure Twins (maxCount : Nat) (maxWeight : Option ℕ+) (s : LocalSharedState)
    (a : AsyncLocalShared) : Prop where
  store : a.store = s.store
  capacity : a.capacity = s.capacity
  accounted : Accounted maxCount maxWeight s.store
  plain : ∀ queue ∈ s.store.queues, queue.state.Plain
  gate : s.shutdownGate = none
  lock : a.lock = none
  registries : (∃ d, Opened s a d) ∨ Shut s a

section
variable {queues : List QueueRef} {queue : LocalQueue} {topic : TopicAddress} {q : QueueRef}
  {store : Store} {l : Locked} {maxCount : Nat} {maxWeight : Option ℕ+} {s s' : LocalSharedState}
  {a a' : AsyncLocalShared} {d : Directory}

/-- Queues keep their places, and are not opened again. -/
structure Persists (store store' : Store) : Prop where
  filed : ∀ q place, store.filed q = some place → store'.filed q = some place
  closed : ∀ (q : QueueRef) queue', store'.queues[q]? = some queue' → queue'.state.closed = false →
    ∃ queue, store.queues[q]? = some queue ∧ queue.state.closed = false ∧ queue.id = queue'.id ∧
      queue.topic = queue'.topic

theorem Persists.refl (store : Store) : Persists store store :=
  ⟨fun _ _ h => h, fun _ queue h hc => ⟨queue, h, hc, rfl, rfl⟩⟩

theorem Persists.unlock (hq : store.queues[q]? = some queue)
    (hl : l.state.closed = false → queue.state.closed = false) :
    Persists store (store.unlock q queue l) := by
  refine ⟨fun p place hp => by rwa [Store.filed_unlock hq], fun p queue' hp hc => ?_⟩
  by_cases hpq : q = p
  · subst hpq
    rw [Store.unlock, List.getElem?_set_self (List.getElem?_eq_some_iff.1 hq).1] at hp
    cases hp
    exact ⟨queue, hq, hl hc, rfl, rfl⟩
  · rw [Store.unlock, List.getElem?_set_ne hpq] at hp
    exact ⟨queue', hp, hc, rfl, rfl⟩

theorem plain_unlock (h : ∀ queue ∈ store.queues, queue.state.Plain) (hl : l.state.Plain) :
    ∀ queue' ∈ (store.unlock q queue l).queues, queue'.state.Plain := by
  intro queue' hm
  obtain hm | rfl := List.mem_or_eq_of_mem_set hm
  · exact h queue' hm
  · exact hl

/-- The registries stay as they are, up to the version that counts changes. -/
theorem Opened.keep (h : Opened s a d) (ht : s'.state.topics = s.state.topics)
    (hi : s'.state.subscriptionIds = s.state.subscriptionIds)
    (hc : s'.state.closed = s.state.closed)
    (ho : s'.state.shutdownOutcome = s.state.shutdownOutcome) (hown : ∀ q ∈ s.owners, q ∈ s'.owners)
    (ha : a'.state = a.state) (hs : Persists s.store s'.store) : Opened s' a' d where
  sync := by rw [hc, ho]; exact h.sync
  async := by rw [ha]; exact h.async
  shows := ⟨fun topic => ht ▸ h.shows.topics topic, fun id => hi ▸ h.shows.ids id⟩
  asyncShows := by rw [ha]; exact h.asyncShows
  types := by rw [ha]; exact h.types
  live topic e he := hown e.2 (h.live topic e he)
  filed topic e he := hs.filed e.2 _ (h.filed topic e he)
  listed q queue' hq hclosed := by
    obtain ⟨queue, hq₀, hc₀, hid, htopic⟩ := hs.closed q queue' hq hclosed
    have := h.listed q queue hq₀ hc₀
    rwa [hid, htopic] at this

theorem Shut.keep (h : Shut s a) (hc : s'.state.closed = s.state.closed)
    (ho : s'.state.shutdownOutcome = s.state.shutdownOutcome)
    (hac : a'.state.closed = a.state.closed) (hao : a'.state.outcome = a.state.outcome)
    (hs : Persists s.store s'.store) : Shut s' a' where
  sync := by rw [hc, ho]; exact h.sync
  async := by rw [hac, hao]; exact h.async
  closed queue' hm := by
    obtain ⟨q, hq⟩ := List.getElem?_of_mem hm
    by_contra hopen
    rw [Bool.not_eq_true] at hopen
    obtain ⟨queue, hq₀, hc₀, -⟩ := hs.closed q queue' hq hopen
    rw [h.closed queue (List.mem_of_getElem? hq₀)] at hc₀
    cases hc₀

/-- A section on a queue of both, by calls that leave the registries alone. -/
theorem Twins.keep (h : Twins maxCount maxWeight s a) (hstore : a'.store = s'.store)
    (hcap : s'.capacity = s.capacity) (hacap : a'.capacity = a.capacity)
    (hacc : Accounted maxCount maxWeight s'.store)
    (hplain : ∀ queue ∈ s'.store.queues, queue.state.Plain)
    (hgate : s'.shutdownGate = s.shutdownGate) (hlock : a'.lock = a.lock)
    (ht : s'.state.topics = s.state.topics)
    (hi : s'.state.subscriptionIds = s.state.subscriptionIds)
    (hc : s'.state.closed = s.state.closed)
    (ho : s'.state.shutdownOutcome = s.state.shutdownOutcome) (hown : ∀ q ∈ s.owners, q ∈ s'.owners)
    (ha : a'.state = a.state) (hs : Persists s.store s'.store) :
    Twins maxCount maxWeight s' a' where
  store := hstore
  capacity := by rw [hacap, hcap, h.capacity]
  accounted := hacc
  plain := hplain
  gate := hgate.trans h.gate
  lock := hlock.trans h.lock
  registries := by
    obtain ⟨d, hd⟩ | hshut := h.registries
    · exact .inl ⟨d, hd.keep ht hi hc ho hown ha hs⟩
    · exact .inr (hshut.keep hc ho (by rw [ha]) (by rw [ha]) hs)

theorem twins_new (capacity : Nat) (cells : List LocalSettlementState) :
    Twins maxCount maxWeight (.new capacity maxCount maxWeight cells)
      (.new capacity maxCount maxWeight cells) where
  store := rfl
  capacity := rfl
  accounted := .new cells
  plain _ h := nomatch h
  gate := rfl
  lock := rfl
  registries := .inl ⟨.empty, ⟨rfl, rfl⟩, ⟨rfl, rfl⟩, BusState.shows_default,
    AsyncBusState.shows_default, fun _ => rfl, fun _ _ he => (nomatch he),
    fun _ _ he => (nomatch he), fun _ _ hq => nomatch hq⟩

/-- The synchronous provider announces a change. -/
theorem Twins.signal (h : Twins maxCount maxWeight s a) :
    Twins maxCount maxWeight s.signalChanged a :=
  h.keep h.store rfl rfl h.accounted h.plain rfl rfl rfl rfl rfl rfl (fun _ hq => hq) rfl (.refl _)

/-- Both have been in a section of the queue, and have left it alike. -/
theorem Twins.inSection (h : Twins maxCount maxWeight s a) (hq : s.store.queues[q]? = some queue)
    (hacc : Accounted maxCount maxWeight (s.store.unlock q queue l))
    (hl : l.state.Plain ∧ l.state.closed = queue.state.closed) :
    Twins maxCount maxWeight { s with store := s.store.unlock q queue l }
      { a with store := a.store.unlock q queue l } :=
  h.keep (by rw [h.store]) rfl rfl hacc (plain_unlock h.plain hl.1) rfl rfl rfl rfl rfl rfl
    (fun _ hp => hp) rfl (.unlock hq fun hc => hl.2 ▸ hc)

/-! ## Calls -/

/-- Both calls return, with answers that agree, and leave twins. -/
def Alike (maxCount : Nat) (maxWeight : Option ℕ+) (maxInstant maxDuration foreign : Nat)
    (s : LocalSharedState) (a : AsyncLocalShared) (c : Call) (c' : AsyncCall) (x : Nat → Tick)
    (y : Nat → AsyncTick) : Prop :=
  ∃ s₁ r a₁ r', (provider maxInstant foreign).Returns s c x s₁ r ∧
    (asyncProvider maxInstant maxDuration foreign).Returns a c' y a₁ r' ∧ Agree r r' ∧
    Twins maxCount maxWeight s₁ a₁

variable {maxInstant maxDuration foreign : Nat} {x : Nat → Tick} {y : Nat → AsyncTick}

theorem Twins.settle (h : Twins maxCount maxWeight s a) (hq : s.store.queues[q]? = some queue)
    (token : SettlementToken) (disposition : DeliveryDisposition) :
    Alike maxCount maxWeight maxInstant maxDuration foreign s a (.settle q token disposition)
      (.settle q token disposition) x y := by
  have hqueue := h.plain queue (List.mem_of_getElem? hq)
  obtain ⟨r, hr, hspec⟩ := settle_plain (l := s.store.lock queue) queue hqueue token disposition
  obtain ⟨result, l, heq, -, hacc⟩ := h.accounted.settle hq token disposition (x 0).moment
  rw [hr] at heq
  have htwins := h.inSection hq hacc (hspec result l heq)
  have hasync :
      AsyncCall.step maxInstant maxDuration foreign a 0 (.settle q token disposition) (y 0) =
      some ({ a with store := a.store.unlock q queue l }, .returned (.settled result), []) := by
    simp only [AsyncCall.step, Store.onQueue, h.store, hq, hr, heq, Option.map_some]
  cases hann : result.isOk && s.store.isUnsettled token with
  | true =>
    have hsync : Call.step maxInstant foreign s 0 (.settle q token disposition) (x 0) =
        some ({ s with store := s.store.unlock q queue l }, .running .settled, []) := by
      simp only [Call.step, Store.onQueue, hq, hr, heq, Option.map_some, hann, if_true]
    have hok : result = .ok () := by
      cases result with
      | ok => rfl
      | error e => cases hann
    subst hok
    exact ⟨_, _, _, _, .next hsync (.done rfl), .done hasync, .same _, htwins.signal⟩
  | false =>
    have hsync : Call.step maxInstant foreign s 0 (.settle q token disposition) (x 0) =
        some ({ s with store := s.store.unlock q queue l }, .returned (.settled result), []) := by
      simp only [Call.step, Store.onQueue, hq, hr, heq, Option.map_some, hann, Bool.false_eq_true,
        if_false]
    exact ⟨_, _, _, _, .done hsync, .done hasync, .same _, htwins⟩

theorem Twins.receive (h : Twins maxCount maxWeight s a) (hq : s.store.queues[q]? = some queue) :
    Alike maxCount maxWeight maxInstant maxDuration foreign s a (.receive q 0)
      (.receive q 0) x y := by
  have hqueue := h.plain queue (List.mem_of_getElem? hq)
  obtain ⟨r, r', hr, hr', hsame, hspec⟩ := receive_plain (l := s.store.lock queue) queue hqueue
    (fun queue _ => queue.topic) (fun _ event => event.topic)
  obtain ⟨received, l, heq, -, hacc⟩ :=
    h.accounted.receive hq (fun queue _ => queue.topic) (x 0).moment (x 0).again none
  rw [hr] at heq
  have htwins := h.inSection hq hacc (hspec received l heq)
  have hsync : Call.step maxInstant foreign s 0 (.receive q 0) (x 0) =
      some (Call.afterLook q 0 (x 0).moment.now received
        { s with store := s.store.unlock q queue l }) := by
    simp only [Call.step, Call.lookAt, Store.onQueue, hq, true_or, if_true, hr, heq,
      Option.map_some]
  have hasync : ∀ received', r' = some (received', l) →
      AsyncCall.step maxInstant maxDuration foreign a 0 (.receive q 0) (y 0) =
        some (AsyncCall.afterLook maxDuration q 0 (y 0).clock (y 0).timer queue received'
          { a with store := a.store.unlock q queue l }) := by
    intro received' heq'
    simp only [AsyncCall.step, AsyncCall.lookAt, Store.onQueue, h.store, hq, true_or, if_true,
      hr', heq', Option.map_some]
  obtain ⟨e, e', l', he, he'⟩ | hrr := hsame
  · rw [heq] at he
    cases he
    exact ⟨_, _, _, _, .done hsync, .done (hasync _ he'), .received e e', htwins⟩
  · have hasync := hasync received (hrr ▸ heq)
    cases received with
    | closed => exact ⟨_, _, _, _, .done hsync, .done hasync, .same _, htwins⟩
    | message message =>
      exact ⟨_, _, _, _, .next hsync (.done rfl), .done hasync, .same _, htwins.signal⟩
    | failed e => exact ⟨_, _, _, _, .done hsync, .done hasync, .received e e, htwins⟩
    | nothing delay =>
      rw [← hr (x 0).moment (x 0).again] at heq
      cases receive_nothing heq
      exact ⟨_, _, _, _, .done hsync, .done hasync, .same _, htwins⟩

/-! ### Close and drop -/

/-- The entry that goes is the one of the queue. -/
theorem Opened.others_eq (h : Opened s a d) (queue : LocalQueue) :
    d.keep queue.topic (BusState.others s.live queue.id q) =
      d.keep queue.topic fun e => decide (e ≠ (queue.id, q)) := by
  refine Directory.keep_congr fun e he => ?_
  obtain ⟨r, hr, hm⟩ := Directory.mem_members.1 he
  by_cases hf : (queue.id, q) ∈ r.members ∧ s.live q = true
  · rw [BusState.others_of_mem hf hm]
    congr 1
    refine propext (not_congr ⟨fun hid => r.ascending.eq_of_fst hm hf.1 hid,
      fun heq => by rw [heq]⟩)
  · have hne : e ≠ (queue.id, q) := by
      intro heq
      subst heq
      exact hf ⟨hm, decide_eq_true (h.live _ _ he)⟩
    rw [BusState.others_of_not hf hm, decide_eq_true hne]

/-- The synchronous provider after the close of a queue. -/
def closedBy (s : LocalSharedState) (q : QueueRef) (queue : LocalQueue) (l : Locked)
    (dropped : Bool) : LocalSharedState :=
  let s := { s with
    store := s.store.unlock q queue l
    state := (s.state.unregister s.live queue.topic queue.id q).signalChanged }
  if dropped then s.disown [q] else s

/-- The asynchronous provider after the close of a mailbox. -/
def closedMailbox (a : AsyncLocalShared) (q : QueueRef) (queue : LocalQueue) (l : Locked) :
    AsyncLocalShared :=
  let r := a.state.removeMailboxIfSame queue.id queue.topic q
  { a with
    store := a.store.unlock q queue l
    state := { r.2 with payloadTypes := if r.1 && !r.2.hasTopic queue.topic
      then r.2.payloadTypes.erase queue.topic else r.2.payloadTypes } }

theorem Opened.close (h : Opened s a d) (hq : s.store.queues[q]? = some queue)
    (hl : l.state.closed = true) (dropped : Bool) :
    Opened (closedBy s q queue l dropped) (closedMailbox a q queue l)
      (d.keep queue.topic fun e => decide (e ≠ (queue.id, q))) := by
  have hplace : ∀ t, (queue.id, q) ∈ d.members t → t = queue.topic := by
    intro t he
    have hf := h.filed t _ he
    simp only [Store.filed, hq, Option.map_some, Option.some.injEq, Prod.mk.injEq] at hf
    exact hf.2.symm
  have hshow := (AsyncBusState.removeMailboxIfSame_shows h.asyncShows hplace).1
  have hunregistered := BusState.unregister_shows h.shows s.live queue.topic queue.id q
  rw [h.others_eq] at hunregistered
  -- who is left is another queue than the closed one
  have hleft : ∀ topic,
      ∀ e ∈ (d.keep queue.topic fun e => decide (e ≠ (queue.id, q))).members topic,
      e ∈ d.members topic ∧ e.2 ≠ q := by
    intro topic e he
    have hmem := ((d.keep_shrunk queue.topic _).members topic).subset he
    refine ⟨hmem, fun heq => ?_⟩
    subst heq
    have hf := h.filed topic e hmem
    simp only [Store.filed, hq, Option.map_some, Option.some.injEq, Prod.mk.injEq] at hf
    rw [Directory.keep_members, if_pos hf.2.symm, List.mem_filter, decide_eq_true_eq, hf.1] at he
    exact he.2 rfl
  have hstate : (closedBy s q queue l dropped).state =
      (s.state.unregister s.live queue.topic queue.id q).signalChanged := by
    cases dropped <;> rfl
  have hstore : (closedBy s q queue l dropped).store = s.store.unlock q queue l := by
    cases dropped <;> rfl
  refine ⟨?_, ?_, ?_, ⟨hshow.members, hshow.mailboxes, hshow.starts⟩,
    h.types.leave h.asyncShows hplace, fun topic e he => ?_, fun topic e he => ?_, ?_⟩
  · rw [hstate]
    exact ⟨(s.state.unregister_spec s.live queue.topic queue.id q).1.trans h.sync.1,
      (s.state.unregister_outcome s.live queue.topic queue.id q).trans h.sync.2⟩
  · exact ⟨(a.state.removeMailboxIfSame_spec queue.id queue.topic q).1.trans h.async.1,
      (a.state.removeMailboxIfSame_outcome queue.id queue.topic q).trans h.async.2⟩
  · rw [hstate]
    exact { hunregistered with }
  · obtain ⟨hmem, hne⟩ := hleft topic e he
    have hown := h.live topic e hmem
    cases dropped with
    | false => exact hown
    | true =>
      show e.2 ∈ s.owners.diff [q]
      rw [List.diff_cons, List.diff_nil]
      exact (List.mem_erase_of_ne hne).2 hown
  · rw [hstore, Store.filed_unlock hq]
    exact h.filed topic e (hleft topic e he).1
  · intro p queue' hp hopen
    rw [hstore] at hp
    by_cases hpq : q = p
    · subst hpq
      rw [Store.unlock, List.getElem?_set_self (List.getElem?_eq_some_iff.1 hq).1] at hp
      cases hp
      rw [hl] at hopen
      cases hopen
    · rw [Store.unlock, List.getElem?_set_ne hpq] at hp
      have hmem := h.listed p queue' hp hopen
      rw [Directory.keep_members]
      split
      · exact List.mem_filter.2 ⟨hmem, decide_eq_true fun heq => hpq (Prod.mk.inj heq).2.symm⟩
      · exact hmem

theorem Twins.close (h : Twins maxCount maxWeight s a) (hq : s.store.queues[q]? = some queue)
    (dropped : Bool) :
    Alike maxCount maxWeight maxInstant maxDuration foreign s a (.close q dropped)
      (.close q) x y := by
  have hqueue := h.plain queue (List.mem_of_getElem? hq)
  obtain ⟨events, l, heq, -, hacc⟩ := h.accounted.close hq false
  obtain ⟨honce, hspec⟩ := close_plain (l := s.store.lock queue) hqueue true
  obtain ⟨hplain, hclosed⟩ := hspec events l heq
  obtain ⟨events', hsync⟩ :
      ∃ events', Local.close true (s.store.lock queue) = some (events', l) := by
    rw [heq, Option.map_some, Option.map_eq_some_iff] at honce
    obtain ⟨⟨events', l'⟩, hr, rfl⟩ := honce
    exact ⟨events', hr⟩
  have hget : (s.store.unlock q queue l).queues[q]? = some { queue with state := l.state } :=
    List.getElem?_set_self (List.getElem?_eq_some_iff.1 hq).1
  -- the three sections of the one, and the one of the other
  have hclose : Call.step maxInstant foreign s 0 (.close q dropped) (x 0) =
      some ({ s with store := s.store.unlock q queue l },
        .running (.unregister q dropped), []) := by
    simp only [Call.step, Store.onQueue, hq, hsync, Option.map_some]
  have hunregister : Call.step maxInstant foreign { s with store := s.store.unlock q queue l } 0
      (.unregister q dropped) (x 1) =
      some ({ s with
        store := s.store.unlock q queue l
        state := s.state.unregister s.live queue.topic queue.id q },
        .running (.unregistered q dropped), []) := by
    simp only [Call.step, hget]
    rfl
  have hreturn : Call.step maxInstant foreign { s with
      store := s.store.unlock q queue l
      state := s.state.unregister s.live queue.topic queue.id q } 0
        (.unregistered q dropped) (x 2) =
      some (closedBy s q queue l dropped, .returned .done, []) := by
    cases dropped <;> rfl
  have hasync : AsyncCall.step maxInstant maxDuration foreign a 0 (.close q) (y 0) =
      some (closedMailbox a q queue l, .returned .done, []) := by
    simp only [AsyncCall.step, h.lock, Option.isSome_none, Bool.false_eq_true, if_false,
      AsyncCall.closeMailbox, Store.onQueue, h.store, hq, heq, Option.map_some, closedMailbox]
  refine ⟨_, _, _, _, .next hclose (.next hunregister (.done hreturn)), .done hasync, .same _, ?_⟩
  have hstore : (closedBy s q queue l dropped).store = s.store.unlock q queue l := by
    cases dropped <;> rfl
  have hstate : (closedBy s q queue l dropped).state =
      (s.state.unregister s.live queue.topic queue.id q).signalChanged := by
    cases dropped <;> rfl
  refine ⟨?_, ?_, hstore ▸ hacc, hstore ▸ plain_unlock h.plain hplain, ?_, h.lock, ?_⟩
  · rw [hstore, ← h.store]
    rfl
  · cases dropped <;> exact h.capacity
  · cases dropped <;> exact h.gate
  · obtain ⟨d, hd⟩ | hshut := h.registries
    · exact .inl ⟨_, hd.close hq hclosed dropped⟩
    · refine .inr (hshut.keep ?_ ?_ ?_ ?_ ?_)
      · rw [hstate]
        exact (s.state.unregister_spec s.live queue.topic queue.id q).1
      · rw [hstate]
        exact s.state.unregister_outcome s.live queue.topic queue.id q
      · exact (a.state.removeMailboxIfSame_spec queue.id queue.topic q).1
      · exact a.state.removeMailboxIfSame_outcome queue.id queue.topic q
      · rw [hstore]
        exact .unlock hq fun hopen => by rw [hclosed] at hopen; cases hopen

/-! ### Subscribe -/

/-- Pruning finds nothing to prune. -/
theorem Opened.prune (h : Opened s a d) (topic : TopicAddress) :
    (s.state.liveQueuesForTopic s.live topic).1 = d.members topic ∧
      Opened { s with state := (s.state.liveQueuesForTopic s.live topic).2 } a d := by
  obtain ⟨hshows, hqueues⟩ := BusState.liveQueuesForTopic_shows h.shows s.live topic
  have hlive : ∀ e ∈ d.members topic, s.live e.2 = true := fun e he =>
    decide_eq_true (h.live topic e he)
  rw [Directory.keep_all hlive] at hshows
  rw [List.filter_eq_self.2 hlive] at hqueues
  refine ⟨hqueues, ?_, h.async, hshows, h.asyncShows, h.types, h.live, h.filed, h.listed⟩
  rw [BusState.liveQueuesForTopic_closed, BusState.liveQueuesForTopic_outcome]
  exact h.sync

/-- Both know the type of a topic. -/
theorem Opened.type (h : Opened s a d) (topic : TopicAddress) :
    (s.state.topics.lookup topic).bind TopicSubscriptions.payloadTypeId =
      a.state.payloadTypes.lookup topic := by
  rw [h.shows.topics topic, h.types topic]
  cases d.ring topic <;> rfl

theorem Opened.twins (hd : Opened s a d) (hstore : a.store = s.store)
    (hcap : a.capacity = s.capacity) (hacc : Accounted maxCount maxWeight s.store)
    (hplain : ∀ queue ∈ s.store.queues, queue.state.Plain) (hgate : s.shutdownGate = none)
    (hlock : a.lock = none) : Twins maxCount maxWeight s a :=
  ⟨hstore, hcap, hacc, hplain, hgate, hlock, .inl ⟨d, hd⟩⟩

theorem Opened.subscribe (h : Opened s a d)
    (request : SpiSubscriptionRequest) (hid : ¬ d.Has request.subscriptionId)
    {state' : AsyncBusState}
    (hinsert : a.state.insertMailbox request.subscriptionId request.topic s.store.queues.length =
      some state')
    (ha : a'.state = { state' with
      payloadTypes := state'.payloadTypes.insert request.topic request.payloadTypeId }) :
    Opened { s with
        state := s.state.register request.topic request.subscriptionId s.store.queues.length
          request.payloadTypeId
        store := s.store.subscribe request.subscriptionId request.topic
          request.subscriberId s.capacity
        owners := s.store.queues.length :: s.owners }
      a' (d.join request.topic request.subscriptionId s.store.queues.length
        request.payloadTypeId hid) := by
  obtain ⟨s'', heq, hshow, hkept⟩ :=
    AsyncBusState.insertMailbox_shows h.asyncShows s.store.queues.length request.payloadTypeId hid
  rw [hinsert] at heq
  cases heq
  have hframe : state'.closed = a.state.closed ∧ state'.outcome = a.state.outcome := by
    unfold AsyncBusState.insertMailbox at hinsert
    split at hinsert <;> cases hinsert
    exact ⟨rfl, rfl⟩
  refine ⟨h.sync, by rw [ha]; exact ⟨hframe.1.trans h.async.1, hframe.2.trans h.async.2⟩,
    BusState.register_shows h.shows hid,
    by rw [ha]; exact ⟨hshow.members, hshow.mailboxes, hshow.starts⟩,
    by rw [ha]; exact h.types.join hkept hid, fun topic e he => ?_, fun topic e he => ?_,
    fun p queue hp hopen => ?_⟩
  · obtain ⟨-, rfl⟩ | he := (Directory.mem_join hid).1 he
    · exact List.mem_cons_self
    · exact List.mem_cons_of_mem _ (h.live topic e he)
  · obtain ⟨rfl, rfl⟩ | he := (Directory.mem_join hid).1 he
    · simp [Store.filed, Store.subscribe]
    · exact StoreEffect.subscribed.filed (h.filed topic e he)
  · refine (Directory.mem_join hid).2 ?_
    simp only [Store.subscribe] at hp
    obtain hlt | heq | hgt := Nat.lt_trichotomy p s.store.queues.length
    · rw [List.getElem?_append_left hlt] at hp
      exact .inr (h.listed p queue hp hopen)
    · subst heq
      rw [List.getElem?_concat_length] at hp
      cases hp
      exact .inl ⟨rfl, rfl⟩
    · rw [List.getElem?_eq_none (by simp; omega)] at hp
      cases hp

/-- In an open registry the two come to the same. -/
theorem Twins.subscribeIn (h : Twins maxCount maxWeight s a) (hd : Opened s a d)
    {request : SpiSubscriptionRequest} (hsupported : supported request = true) (t : Tick) :
    ∃ s' a' r, Call.subscribeIn s request t = (s', .returned r, []) ∧
      AsyncCall.subscribeIn a request = (a', .returned r, []) ∧ Twins maxCount maxWeight s' a' := by
  have hpruned := (hd.prune request.topic).2
  have htype := hpruned.type request.topic
  simp only [Call.subscribeIn, AsyncCall.subscribeIn, hd.sync.1, hd.async.1, hsupported,
    Bool.false_eq_true, if_false, Bool.not_true]
  generalize (s.state.liveQueuesForTopic s.live request.topic).2 = state at *
  simp only at htype
  have htwins : Twins maxCount maxWeight { s with state } a :=
    hpruned.twins h.store h.capacity h.accounted h.plain h.gate h.lock
  rw [htype]
  split
  · exact ⟨_, _, _, rfl, rfl, htwins⟩
  by_cases hid : d.Has request.subscriptionId
  · -- the queue that has the id is live
    have hmem : request.subscriptionId ∈ state.subscriptionIds := (hpruned.shows.ids _).2 hid
    have hlive : ((t.topics.keys state.topics.keys).any fun topic =>
        (state.topics.lookup topic).any fun bucket =>
          (bucket.get request.subscriptionId).any { s with state }.live) = true := by
      obtain ⟨topic, e, he, heq⟩ := hid
      have hget := (hpruned.shows.any_get topic request.subscriptionId { s with state }.live).2
        ⟨e.2, heq ▸ he, decide_eq_true (hpruned.live topic e he)⟩
      refine List.any_eq_true.2 ⟨topic, (t.topics.mem_keys _ _).2 ?_, hget⟩
      cases hbucket : state.topics.lookup topic with
      | none =>
        rw [hbucket] at hget
        cases hget
      | some bucket => exact Finmap.mem_keys.2 (Map.mem_of_lookup hbucket)
    rw [if_pos ⟨hmem, hlive⟩, AsyncBusState.insertMailbox_taken hd.asyncShows _ hid]
    exact ⟨_, _, _, rfl, rfl, htwins⟩
  · have hmem : request.subscriptionId ∉ state.subscriptionIds :=
      fun hm => hid ((hpruned.shows.ids _).1 hm)
    obtain ⟨state', hinsert, -⟩ := AsyncBusState.insertMailbox_shows hd.asyncShows
      s.store.queues.length request.payloadTypeId hid
    rw [if_neg fun hm => hmem hm.1, if_neg hmem, h.store, hinsert]
    refine ⟨_, _, _, rfl, rfl, (hpruned.subscribe request hid hinsert rfl).twins ?_ h.capacity
      (h.accounted.subscribe _ _ _ _) (fun queue hm => ?_) h.gate h.lock⟩
    · rw [h.capacity]
    · obtain hm | hm := List.mem_append.1 hm
      · exact h.plain queue hm
      · rw [List.mem_singleton.1 hm]
        exact LocalQueueState.plain_default

theorem Twins.subscribe (h : Twins maxCount maxWeight s a) (request : SpiSubscriptionRequest) :
    Alike maxCount maxWeight maxInstant maxDuration foreign s a (.subscribe request)
      (.subscribe request) x y := by
  -- both refuse
  have hrefuse : ∀ kind kind' : String,
      Call.subscribeIn s request (x 0) = (s, .returned (subscribeError request kind), []) →
      AsyncCall.step maxInstant maxDuration foreign a 0 (.subscribe request) (y 0) =
        some (a, .returned (subscribeError request kind'), []) →
      Alike maxCount maxWeight maxInstant maxDuration foreign s a (.subscribe request)
        (.subscribe request) x y := fun _ _ h₁ h₂ =>
    ⟨_, _, _, _, .done (congrArg some h₁), .done h₂, .subscribed _ _, h⟩
  have hasync : AsyncCall.step maxInstant maxDuration foreign a 0 (.subscribe request) (y 0) =
      if !supported request then
        some (a, .returned (subscribeError request "unsupported_subscription_options"), [])
      else some (AsyncCall.subscribeIn a request) := by
    simp only [AsyncCall.step, h.lock, Option.isSome_none, Bool.false_eq_true, if_false]
  obtain ⟨d, hd⟩ | hshut := h.registries
  · cases hsupported : supported request with
    | false =>
      refine hrefuse "unsupported_subscription_options" "unsupported_subscription_options" ?_
        (hasync.trans ?_)
      · simp only [Call.subscribeIn, hd.sync.1, hsupported, Bool.false_eq_true, if_false,
          Bool.not_false, if_true]
      · simp only [hsupported, Bool.not_false, if_true]
    | true =>
      obtain ⟨s', a', r, h₁, h₂, htwins⟩ := h.subscribeIn hd hsupported (x 0)
      have hsame : AsyncCall.step maxInstant maxDuration foreign a 0 (.subscribe request) (y 0) =
          some (a', .returned r, []) := by
        rw [hasync, hsupported, if_neg (by simp), h₂]
      exact ⟨_, _, _, _, .done (congrArg some h₁), .done hsame, .same r, htwins⟩
  · -- which of the two reasons is given is not the same
    have hclosed := hshut.async.1
    cases hsupported : supported request with
    | false =>
      refine hrefuse "provider_closed" "unsupported_subscription_options" ?_ (hasync.trans ?_)
      · simp only [Call.subscribeIn, hshut.sync.1, if_true]
      · simp only [hsupported, Bool.not_false, if_true]
    | true =>
      refine hrefuse "provider_closed" "provider_closed" ?_ (hasync.trans ?_)
      · simp only [Call.subscribeIn, hshut.sync.1, if_true]
      · simp only [hsupported, Bool.not_true, Bool.false_eq_true, if_false, AsyncCall.subscribeIn,
          hclosed, if_true]

/-! ### Publish -/

/-- Without a delay the event does not depend on the clock. -/
theorem outboundEvent_plain (maxInstant : Nat) (message : OutboundMessage) :
    ∃ r, (∀ now, outboundEvent maxInstant now { message with delay := none } = r) ∧
      ∀ event type, r = .ok (event, type) → event.notBefore = none := by
  cases hp : message.payload with
  | encoded _ _ _ =>
    refine ⟨_, fun now => by simp only [outboundEvent]; rfl, fun event type heq => ?_⟩
    cases heq
  | native payload =>
    refine ⟨_, fun now => by simp only [outboundEvent, LocalEvent.transport]; rfl,
      fun event type heq => ?_⟩
    cases heq
    rfl

/-- The ring of the topic turns. -/
theorem Opened.turn (h : Opened s a d) {topics : Map TopicAddress TopicSubscriptions}
    (hshow : { s.state with topics }.Shows (d.turn topic))
    (ha : a'.state = (a.state.publishMailboxesForTopic topic).2) :
    Opened { s with state := { s.state with topics } } a' (d.turn topic) where
  sync := h.sync
  async := by
    rw [ha]
    exact ⟨(a.state.publishMailboxesForTopic_spec topic).1.trans h.async.1,
      (a.state.publishMailboxesForTopic_outcome topic).trans h.async.2⟩
  shows := hshow
  asyncShows := by
    rw [ha]
    exact (AsyncBusState.publishMailboxesForTopic_shows h.asyncShows topic).2
  types := by rw [ha]; exact h.types.turn topic
  live t e he := h.live t e (by rwa [Directory.turn_members] at he)
  filed t e he := h.filed t e (by rwa [Directory.turn_members] at he)
  listed q queue hq hopen := by
    rw [Directory.turn_members]
    exact h.listed q queue hq hopen

/-- A publisher that has been routed alike by both. -/
structure Routes (maxCount : Nat) (maxWeight : Option ℕ+) (s : LocalSharedState)
    (a : AsyncLocalShared) (topic : TopicAddress) (event : LocalEvent) (queues : List QueueRef) :
    Prop where
  twins : Twins maxCount maxWeight s a
  plain : event.notBefore = none
  weighed : maxWeight = none → event.weightBytes = 0
  filed : ∀ q ∈ queues, ∃ queue, s.store.queues[q]? = some queue ∧ queue.topic = topic

theorem Twins.route (h : Twins maxCount maxWeight s a)
    (message : OutboundMessage) {event : LocalEvent} (hevent : event.notBefore = none)
    (type : TypeId) :
    (∃ e s', Call.route s message event type = (s', .returned (.published (.error e)), []) ∧
      AsyncCall.route a message event type = (a, .returned (.published (.error e)), []) ∧
      Twins maxCount maxWeight s' a) ∨
    ∃ s' a' event' queues,
      Call.route s message event type =
        (s'.own queues, .running (.admitting message.topic event' queues [] false), [.routed]) ∧
      AsyncCall.route a message event type =
        (a', .running (.admitting event' queues []), [.routed]) ∧
      Routes maxCount maxWeight s' a' message.topic event' queues := by
  obtain ⟨d, hd⟩ | hshut := h.registries
  · obtain ⟨hqueues, hpruned⟩ := hd.prune message.topic
    have htype := hpruned.type message.topic
    have htopics := hpruned.shows.topics message.topic
    simp only [Call.route, AsyncCall.route, hd.sync.1, hd.async.1, Bool.false_eq_true, if_false,
      h.store]
    generalize (s.state.liveQueuesForTopic s.live message.topic).2 = state at *
    simp only at htype htopics
    have htwins : Twins maxCount maxWeight { s with state } a :=
      hpruned.twins h.store h.capacity h.accounted h.plain h.gate h.lock
    have hconflict : ((state.topics.lookup message.topic).any fun bucket =>
        bucket.payloadTypeId.any (· ≠ type)) =
        (a.state.payloadTypes.lookup message.topic).any (· ≠ type) := by
      rw [← htype]
      cases state.topics.lookup message.topic <;> rfl
    rw [hconflict, hqueues]
    split
    · exact .inl ⟨_, _, rfl, rfl, htwins⟩
    split
    · exact .inl ⟨_, _, rfl, rfl, htwins⟩
    obtain ⟨horder, -⟩ := AsyncBusState.publishMailboxesForTopic_shows hd.asyncShows message.topic
    rw [horder]
    have hroutes : ∀ topics : Map TopicAddress TopicSubscriptions,
        { state with topics }.Shows (d.turn message.topic) →
        Routes maxCount maxWeight { s with state := { state with topics } }
          { a with
            state := (a.state.publishMailboxesForTopic message.topic).2
            store := s.store } message.topic
          (if s.store.outstanding.requiresWeight then event else { event with weightBytes := 0 })
          ((d.order message.topic).map Prod.snd) := by
      intro topics hshow
      refine ⟨(hpruned.turn hshow rfl).twins rfl h.capacity h.accounted h.plain h.gate h.lock, ?_,
        h.accounted.stripped event, fun q hq => ?_⟩
      · split <;> exact hevent
      · obtain ⟨e, he, rfl⟩ := List.mem_map.1 hq
        have hf := hpruned.filed message.topic e ((d.order_perm message.topic).mem_iff.1 he)
        obtain ⟨queue, hqueue, heq⟩ := Option.map_eq_some_iff.1 hf
        exact ⟨queue, hqueue, (Prod.mk.inj heq).2⟩
    cases hr : d.ring message.topic with
    | none =>
      rw [hr, Option.map_none] at htopics
      have hshow : state.Shows (d.turn message.topic) := by
        rw [Directory.turn_none hr]
        exact hpruned.shows
      have hnil : d.members message.topic = [] ∧ d.order message.topic = [] := by
        simp [Directory.members, Directory.order, hr]
      simp only [htopics, hnil.1]
      refine .inr ⟨_, _, _, _, ?_, rfl, hroutes state.topics hshow⟩
      rw [hnil.2]
    | some r =>
      rw [hr, Option.map_some] at htopics
      obtain ⟨horder, hshow⟩ := BusState.rotate_shows hpruned.shows hr
      simp only [htopics, Directory.members_of_ring hr]
      exact .inr ⟨_, _, _, _, by rw [horder], rfl, hroutes _ hshow⟩
  · left
    refine ⟨preAdmissionPublishError (some message.topic.value) "provider_closed", s, ?_, ?_, h⟩
    · simp only [Call.route, hshut.sync.1, if_true]
    · simp only [AsyncCall.route, hshut.async.1, if_true]

theorem Routes.admitting (maxInstant maxDuration foreign : Nat) {event : LocalEvent}
    (h : Routes maxCount maxWeight s a topic event queues) (admissions : List DestinationAdmission)
    (admittedAny : Bool) :
    Alike maxCount maxWeight maxInstant maxDuration foreign (s.own queues) a
      (.admitting topic event queues admissions admittedAny)
      (.admitting event queues admissions) x y := by
  induction queues generalizing s a admissions admittedAny x y with
  | nil =>
    cases admittedAny with
    | true => exact ⟨_, _, _, _, .done rfl, .done rfl, .same _, h.twins.signal⟩
    | false => exact ⟨_, _, _, _, .done rfl, .done rfl, .same _, h.twins⟩
  | cons q queues ih =>
    obtain ⟨queue, hq, htopic⟩ := h.filed q List.mem_cons_self
    have hqueue := h.twins.plain queue (List.mem_of_getElem? hq)
    obtain ⟨r, hr, hspec⟩ := publishTo_plain (l := s.store.lock queue) queue hqueue h.plain
    obtain ⟨rejection, l, heq, -, hacc⟩ := h.twins.accounted.publishTo hq h.weighed (x 0).moment
    rw [hr] at heq
    have htwins := h.twins.inSection hq hacc (hspec rejection l heq)
    have hsync : Call.step maxInstant foreign (s.own (q :: queues)) 0
        (.admitting topic event (q :: queues) admissions admittedAny) (x 0) =
        some ({ s with store := s.store.unlock q queue l }.own queues,
          .running (.admitting topic event queues
            (admissions ++ [destinationAdmission queue rejection])
            (admittedAny || rejection.isNone)), [admissionNote q event rejection]) := by
      have howned : (s.own (q :: queues)).store = s.store := rfl
      simp only [Call.step, howned, hq, htopic, ne_eq, not_true_eq_false, if_false, hr, heq,
        Option.map_some]
      simp [LocalSharedState.own, LocalSharedState.disown]
    have hasync : AsyncCall.step maxInstant maxDuration foreign a 0
        (.admitting event (q :: queues) admissions) (y 0) =
        some ({ a with store := a.store.unlock q queue l },
          .running (.admitting event queues (admissions ++ [destinationAdmission queue rejection])),
          [admissionNote q event rejection]) := by
      simp only [AsyncCall.step, Store.onQueue, h.twins.store, hq, hr, heq, Option.map_some]
    have hrest : Routes maxCount maxWeight { s with store := s.store.unlock q queue l }
        { a with store := a.store.unlock q queue l } topic event queues := by
      refine ⟨htwins, h.plain, h.weighed, fun p hp => ?_⟩
      obtain ⟨queue', hp, ht⟩ := h.filed p (List.mem_cons_of_mem q hp)
      by_cases hpq : q = p
      · subst hpq
        exact ⟨_, List.getElem?_set_self (List.getElem?_eq_some_iff.1 hq).1, htopic⟩
      · exact ⟨queue', by rw [Store.unlock, List.getElem?_set_ne hpq]; exact hp, ht⟩
    obtain ⟨s', r', a', r'', h₁, h₂, hagree, htwins⟩ := ih hrest
      (admissions ++ [destinationAdmission queue rejection]) (admittedAny || rejection.isNone)
    exact ⟨s', r', a', r'', .next hsync h₁, .next hasync h₂, hagree, htwins⟩

theorem Twins.publish (h : Twins maxCount maxWeight s a) (message : OutboundMessage) :
    Alike maxCount maxWeight maxInstant maxDuration foreign s a
      (.publish { message with delay := none }) (.publish { message with delay := none }) x y := by
  obtain ⟨r, hr, hspec⟩ := outboundEvent_plain maxInstant message
  cases r with
  | error e =>
    have hsync : Call.step maxInstant foreign s 0 (.publish { message with delay := none }) (x 0) =
        some (s, .returned (.published (.error e)), []) := by
      simp only [Call.step, hr]
    have hasync : AsyncCall.step maxInstant maxDuration foreign a 0
        (.publish { message with delay := none }) (y 0) =
        some (a, .returned (.published (.error e)), []) := by
      simp only [AsyncCall.step, hr]
    exact ⟨_, _, _, _, .done hsync, .done hasync, .same _, h⟩
  | ok r =>
    obtain ⟨event, type⟩ := r
    have hsync : Call.step maxInstant foreign s 0 (.publish { message with delay := none }) (x 0) =
        some (Call.route s { message with delay := none } event type) := by
      simp only [Call.step, hr]
    have hasync : AsyncCall.step maxInstant maxDuration foreign a 0
        (.publish { message with delay := none }) (y 0) =
        some (AsyncCall.route a { message with delay := none } event type) := by
      simp only [AsyncCall.step, hr, h.lock, Option.isSome_none, Bool.false_eq_true, if_false]
    obtain ⟨e, s', h₁, h₂, htwins⟩ | ⟨s', a', event', queues, h₁, h₂, hroutes⟩ :=
      h.route { message with delay := none } (hspec event type rfl) type
    · exact ⟨_, _, _, _, .done (hsync.trans (congrArg some h₁)),
        .done (hasync.trans (congrArg some h₂)), .same _, htwins⟩
    · obtain ⟨s'', r, a'', r', hrest, hrest', hagree, htwins⟩ :=
        hroutes.admitting maxInstant maxDuration foreign (x := fun k => x (k + 1))
          (y := fun k => y (k + 1)) [] false
      exact ⟨_, _, _, _, .next (hsync.trans (congrArg some h₁)) hrest,
        .next (hasync.trans (congrArg some h₂)) hrest', hagree, htwins⟩

/-! ### Shutdown -/

/-- The queue, closed and emptied. -/
def LocalQueue.shut (queue : LocalQueue) : LocalQueue :=
  { queue with state := (LocalQueueState.clearPending { queue.state with closed := true }).2 }

theorem shut_eq_self (hp : queue.state.Plain) (hc : queue.state.closed = true) :
    queue.shut = queue := by
  obtain ⟨hlanes, hflight, hready, hpending⟩ := hp.closed hc
  have hheap := hp.heap
  have hlive := hp.liveCount
  have hstale := hp.staleCount
  obtain ⟨id, topic, subscriber, capacity, state⟩ := queue
  cases state
  simp only at hlanes hflight hready hpending hheap hlive hstale hc
  subst_vars
  rfl

/-- The queues have been closed, one after the other. -/
structure Cleaned (maxCount : Nat) (maxWeight : Option ℕ+) (queues : List QueueRef)
    (store store' : Store) : Prop where
  accounted : Accounted maxCount maxWeight store'
  plain : ∀ queue ∈ store'.queues, queue.state.Plain
  shut : store'.queues.map LocalQueue.shut = store.queues.map LocalQueue.shut
  cells : store'.cells = store.cells
  /-- Only what is in use has changed. -/
  budget : ∃ countUsed weightUsed, store'.outstanding = { store.outstanding with
    state := { store.outstanding.state with countUsed, weightUsed } }
  persists : Persists store store'
  closed : ∀ q ∈ queues, ∀ queue, store'.queues[q]? = some queue → queue.state.closed = true

theorem Cleaned.nil (hacc : Accounted maxCount maxWeight store)
    (hplain : ∀ queue ∈ store.queues, queue.state.Plain) :
    Cleaned maxCount maxWeight [] store store :=
  ⟨hacc, hplain, rfl, rfl, ⟨_, _, rfl⟩, .refl _, nofun⟩

theorem Persists.trans {store₁ store₂ store₃ : Store} (h : Persists store₁ store₂)
    (h' : Persists store₂ store₃) : Persists store₁ store₃ := by
  refine ⟨fun q place hq => h'.filed q place (h.filed q place hq), fun q queue₃ hq hc => ?_⟩
  obtain ⟨queue₂, hq₂, hc₂, hid₂, ht₂⟩ := h'.closed q queue₃ hq hc
  obtain ⟨queue₁, hq₁, hc₁, hid₁, ht₁⟩ := h.closed q queue₂ hq₂ hc₂
  exact ⟨queue₁, hq₁, hc₁, hid₁.trans hid₂, ht₁.trans ht₂⟩

theorem Cleaned.cons {store' : Store} {events : Multiset LocalEvent}
    (hq : store.queues[q]? = some queue)
    (hl : Local.close false (store.lock queue) = some (events, l))
    (h : Cleaned maxCount maxWeight queues (store.unlock q queue l) store') :
    Cleaned maxCount maxWeight (q :: queues) store store' := by
  obtain ⟨hstate, hcells, count, weight, hout⟩ := close_false_eq hl
  obtain ⟨count', weight', hout'⟩ := h.budget
  have hget : (store.unlock q queue l).queues[q]? = some { queue with state := l.state } :=
    List.getElem?_set_self (List.getElem?_eq_some_iff.1 hq).1
  have hclosed : l.state.closed = true := by
    rw [hstate]
    rfl
  refine ⟨h.accounted, h.plain, h.shut.trans ?_, h.cells.trans hcells,
    ⟨count', weight', hout'.trans ?_⟩, Persists.trans (.unlock hq fun hopen => ?_) h.persists,
    fun p hp queue' hp' => ?_⟩
  · have hshut : LocalQueue.shut { queue with state := l.state } = queue.shut := by
      rw [hstate]
      rfl
    refine List.ext_getElem? fun i => ?_
    rw [List.getElem?_map, List.getElem?_map, Store.unlock, List.getElem?_set]
    split
    · rename_i hi
      subst hi
      rw [if_pos (List.getElem?_eq_some_iff.1 hq).1, hq, Option.map_some, hshut, Option.map_some]
    · rfl
  · show _ = _
    have houtstanding : (store.unlock q queue l).outstanding = l.outstanding := rfl
    rw [houtstanding, hout]
    rfl
  · rw [hclosed] at hopen
    cases hopen
  · obtain rfl | hp := List.mem_cons.1 hp
    · by_contra hopen
      obtain ⟨queue₁, hp₁, hopen₁, -⟩ := h.persists.closed p queue' hp' (eq_false_of_ne_true hopen)
      rw [hget] at hp₁
      cases hp₁
      rw [hclosed] at hopen₁
      cases hopen₁
    · exact h.closed p hp queue' hp'

/-- The order in which they have been closed cannot be seen. -/
theorem Cleaned.eq {store₁ store₂ : Store} {queues₁ queues₂ : List QueueRef}
    (h₁ : Cleaned maxCount maxWeight queues₁ store store₁)
    (h₂ : Cleaned maxCount maxWeight queues₂ store store₂)
    (hc₁ : ∀ queue ∈ store₁.queues, queue.state.closed = true)
    (hc₂ : ∀ queue ∈ store₂.queues, queue.state.closed = true) : store₂ = store₁ := by
  have hself : ∀ {store : Store}, (∀ queue ∈ store.queues, queue.state.Plain) →
      (∀ queue ∈ store.queues, queue.state.closed = true) →
      store.queues.map LocalQueue.shut = store.queues := fun hp hc =>
    (List.map_congr_left fun queue hm => shut_eq_self (hp queue hm) (hc queue hm)).trans
      (List.map_id _)
  have hqueues : store₂.queues = store₁.queues := by
    rw [← hself h₁.plain hc₁, ← hself h₂.plain hc₂, h₁.shut, h₂.shut]
  obtain ⟨count₁, weight₁, hout₁⟩ := h₁.budget
  obtain ⟨count₂, weight₂, hout₂⟩ := h₂.budget
  have hcount : count₂ = count₁ := by
    have e₁ := h₁.accounted.count
    have e₂ := h₂.accounted.count
    rw [hout₁] at e₁
    rw [hout₂, hqueues] at e₂
    exact e₂.trans e₁.symm
  have hweight : weight₂ = weight₁ := by
    have e₁ := h₁.accounted.weight
    have e₂ := h₂.accounted.weight
    rw [hout₁] at e₁
    rw [hout₂, hqueues] at e₂
    exact e₂.trans e₁.symm
  have hcells := h₂.cells.trans h₁.cells.symm
  subst hcount hweight
  obtain ⟨queues₁, outstanding₁, cells₁⟩ := store₁
  obtain ⟨queues₂, outstanding₂, cells₂⟩ := store₂
  simp only at hqueues hout₁ hout₂ hcells
  rw [hqueues, hout₁, hout₂, hcells]

/-- The cleanup of the synchronous provider, to its end. -/
theorem clean_returns (maxInstant foreign : Nat) (hacc : Accounted maxCount maxWeight s.store)
    (hplain : ∀ queue ∈ s.store.queues, queue.state.Plain)
    (hknown : ∀ q ∈ queues, q < s.store.queues.length) (mode : ShutdownMode)
    (outcome : ShutdownOutcome) :
    ∃ s', (provider maxInstant foreign).Returns s (.cleaning mode outcome queues) x s'
        (.shutdown (.ok outcome)) ∧
      Cleaned maxCount maxWeight queues s.store s'.store ∧ s'.state.closed = s.state.closed ∧
      s'.state.shutdownOutcome = some outcome ∧ s'.shutdownGate = none ∧
      s'.capacity = s.capacity := by
  induction queues generalizing s x with
  | nil =>
    exact ⟨_, .next rfl (.next rfl (.done rfl)), .nil hacc hplain, rfl, rfl, rfl, rfl⟩
  | cons q queues ih =>
    obtain ⟨queue, hq⟩ : ∃ queue, s.store.queues[q]? = some queue :=
      ⟨_, List.getElem?_eq_getElem (hknown q List.mem_cons_self)⟩
    obtain ⟨events, l, heq, -, hacc'⟩ := hacc.close hq false
    have hpl := ((close_plain (l := s.store.lock queue) (hplain queue (List.mem_of_getElem? hq))
      false).2 events l heq).1
    have hstep : Call.step maxInstant foreign s 0 (.cleaning mode outcome (q :: queues)) (x 0) =
        some ({ s with store := s.store.unlock q queue l }.disown [q],
          .running (.cleaning mode outcome queues), [.discarded mode q events]) := by
      simp only [Call.step, Store.onQueue, hq, heq, Option.map_some]
    have hlen : (s.store.unlock q queue l).queues.length = s.store.queues.length := List.length_set
    obtain ⟨s', hreturns, hclean, hclosed, hout, hgate, hcap⟩ := ih
      (s := { s with store := s.store.unlock q queue l }.disown [q]) (x := fun k => x (k + 1)) hacc'
      (plain_unlock hplain hpl) fun p hp => by
        show p < (s.store.unlock q queue l).queues.length
        rw [hlen]
        exact hknown p (List.mem_cons_of_mem q hp)
    exact ⟨s', .next hstep hreturns, .cons hq heq hclean, hclosed, hout, hgate, hcap⟩

/-- The cleanup of the asynchronous provider, to its end. -/
theorem clean_returns_async (maxInstant maxDuration foreign : Nat)
    (hacc : Accounted maxCount maxWeight a.store)
    (hplain : ∀ queue ∈ a.store.queues, queue.state.Plain)
    (hknown : ∀ q ∈ queues, q < a.store.queues.length) (mode : ShutdownMode)
    (outcome : ShutdownOutcome) :
    ∃ a', (asyncProvider maxInstant maxDuration foreign).Returns a
        (.cleaning mode outcome queues) y a' (.shutdown (.ok outcome)) ∧
      Cleaned maxCount maxWeight queues a.store a'.store ∧ a'.state.closed = a.state.closed ∧
      a'.state.outcome = some outcome ∧ a'.lock = none ∧ a'.capacity = a.capacity := by
  induction queues generalizing a y with
  | nil => exact ⟨_, .done rfl, .nil hacc hplain, rfl, rfl, rfl, rfl⟩
  | cons q queues ih =>
    obtain ⟨queue, hq⟩ : ∃ queue, a.store.queues[q]? = some queue :=
      ⟨_, List.getElem?_eq_getElem (hknown q List.mem_cons_self)⟩
    obtain ⟨events, l, heq, -, hacc'⟩ := hacc.close hq false
    have hpl := ((close_plain (l := a.store.lock queue) (hplain queue (List.mem_of_getElem? hq))
      false).2 events l heq).1
    have hstep : AsyncCall.step maxInstant maxDuration foreign a 0
        (.cleaning mode outcome (q :: queues)) (y 0) =
        some ({ a with store := a.store.unlock q queue l },
          .running (.cleaning mode outcome queues), [.discarded mode q events]) := by
      simp only [AsyncCall.step, Store.onQueue, hq, heq, Option.map_some]
    have hlen : (a.store.unlock q queue l).queues.length = a.store.queues.length := List.length_set
    obtain ⟨a', hreturns, hclean, hclosed, hout, hlock, hcap⟩ := ih
      (a := { a with store := a.store.unlock q queue l }) (y := fun k => y (k + 1)) hacc'
      (plain_unlock hplain hpl) fun p hp => by
        show p < (a.store.unlock q queue l).queues.length
        rw [hlen]
        exact hknown p (List.mem_cons_of_mem q hp)
    exact ⟨a', .next hstep hreturns, .cons hq heq hclean, hclosed, hout, hlock, hcap⟩

/-- Both cleanups have every queue that is open. -/
theorem Opened.all_closed (h : Opened s a d)
    (hqueues : ∀ topic, ∀ e ∈ d.members topic, e.2 ∈ queues)
    (hclean : Cleaned maxCount maxWeight queues s.store store) :
    ∀ queue ∈ store.queues, queue.state.closed = true := by
  intro queue' hm
  obtain ⟨q, hq⟩ := List.getElem?_of_mem hm
  by_contra hopen
  obtain ⟨queue, hq₀, hc₀, -⟩ := hclean.persists.closed q queue' hq (eq_false_of_ne_true hopen)
  exact hopen (hclean.closed q (hqueues _ _ (h.listed q queue hq₀ hc₀)) queue' hq)

theorem Opened.lt_length (h : Opened s a d) {e : Id × QueueRef} (he : e ∈ d.members topic) :
    e.2 < s.store.queues.length := by
  obtain ⟨queue, hq, -⟩ := Option.map_eq_some_iff.1 (h.filed topic e he)
  exact (List.getElem?_eq_some_iff.1 hq).1

theorem Twins.shutdown (h : Twins maxCount maxWeight s a) :
    Alike maxCount maxWeight maxInstant maxDuration foreign s a (.shutdown .immediate)
      (.shutdown .immediate) x y := by
  -- the gate is free, and so is the lock
  have hgate : Call.step maxInstant foreign s 0 (.shutdown .immediate) (x 0) =
      some ({ s with shutdownGate := some 0 }, .running (.gated .immediate), []) := by
    simp only [Call.step, h.gate]
  have hlock : AsyncCall.step maxInstant maxDuration foreign a 0 (.shutdown .immediate) (y 0) =
      some ({ a with state := { a.state with closed := true } },
        .running (.finalize .immediate .complete), [.closing]) := by
    simp only [AsyncCall.step, h.lock, Option.isSome_none, Bool.false_eq_true, if_false]
  obtain ⟨d, hd⟩ | hshut := h.registries
  · have hlive : ∀ topic, ∀ e ∈ d.members topic, s.live e.2 = true := fun topic e he =>
      decide_eq_true (hd.live topic e he)
    -- the snapshot of the one
    generalize hs₁ : { s.state with closed := true }.signalChanged = s₁
    have hclosed₁ : s₁.closed = true := by
      rw [← hs₁]
      rfl
    have hshow₁ : s₁.Shows d := by
      rw [← hs₁]
      exact { hd.shows with }
    have hmem := fun q => BusState.liveQueues_mem (q := q) hlive (x 4).topics hshow₁
    have hclosed₂ := (s₁.liveQueues_spec s.live (x 4).topics).1.trans hclosed₁
    have hcleanup : Call.step maxInstant foreign { s with shutdownGate := some 0, state := s₁ } 0
        (.cleanup .immediate .complete) (x 4) =
        some ({ s with shutdownGate := some 0, state := (s₁.liveQueues s.live (x 4).topics).2 }.own
            ((s₁.liveQueues s.live (x 4).topics).1.map Prod.snd),
          .running (.cleaning .immediate .complete
            ((s₁.liveQueues s.live (x 4).topics).1.map Prod.snd)), []) := rfl
    generalize s₁.liveQueues s.live (x 4).topics = snapshot at *
    have hgated : Call.step maxInstant foreign { s with shutdownGate := some 0 } 0
        (.gated .immediate) (x 1) =
        some ({ s with shutdownGate := some 0 }, .running (.closing .immediate), []) := by
      simp only [Call.step, hd.sync.2]
    have hannounce : Call.step maxInstant foreign
        { s with shutdownGate := some 0, state := { s.state with closed := true } } 0
        (.announcing .immediate) (x 3) =
        some ({ s with shutdownGate := some 0, state := s₁ },
          .running (.cleanup .immediate .complete), []) := by
      rw [← hs₁]
      rfl
    obtain ⟨s', hreturns, hclean, hc, ho, hg, hcap⟩ := clean_returns maxInstant foreign
      (x := fun k => x (k + 5))
      (s := { s with shutdownGate := some 0, state := snapshot.2 }.own (snapshot.1.map Prod.snd))
      h.accounted h.plain (fun q hq => by
        obtain ⟨topic, id, he⟩ := (hmem q).1 hq
        exact hd.lt_length he) .immediate .complete
    -- the mailboxes of the other
    have hmem' : ∀ q, q ∈ ({ a.state with closed := true }.drainMailboxes (y 1).mailboxes).1 ↔
        ∃ topic id, (id, q) ∈ d.members topic := fun q => by
      refine (AsyncBusState.mem_mailboxes a.state (y 1).mailboxes q).trans ?_
      simp only [hd.asyncShows.mailboxes]
      exact exists_comm
    have hfinalize : AsyncCall.step maxInstant maxDuration foreign
        { a with state := { a.state with closed := true } } 0 (.finalize .immediate .complete)
        (y 1) = some ({ a with
            state := ({ a.state with closed := true }.drainMailboxes (y 1).mailboxes).2
            lock := some 0 },
          .running (.cleaning .immediate .complete
            ({ a.state with closed := true }.drainMailboxes (y 1).mailboxes).1), []) := by
      simp only [AsyncCall.step, h.lock, Option.isSome_none, Bool.false_eq_true, if_false,
        hd.async.2]
    obtain ⟨a', hreturns', hclean', hc', ho', hl', hcap'⟩ := clean_returns_async maxInstant
      maxDuration foreign (y := fun k => y (k + 2))
      (a := { a with
        state := ({ a.state with closed := true }.drainMailboxes (y 1).mailboxes).2
        lock := some 0 })
      (h.store ▸ h.accounted) (h.store ▸ h.plain) (fun q hq => by
        obtain ⟨topic, id, he⟩ := (hmem' q).1 hq
        show q < a.store.queues.length
        rw [h.store]
        exact hd.lt_length he) .immediate .complete
    have hclean' : Cleaned maxCount maxWeight _ s.store a'.store := h.store ▸ hclean'
    have hall := hd.all_closed (fun topic e he => (hmem e.2).2 ⟨topic, e.1, he⟩) hclean
    have hall' := hd.all_closed (fun topic e he => (hmem' e.2).2 ⟨topic, e.1, he⟩) hclean'
    exact ⟨s', _, a', _, .next hgate (.next hgated
      (.next rfl (.next hannounce (.next hcleanup hreturns)))),
      .next hlock (.next hfinalize hreturns'), .same _, hclean.eq hclean' hall hall',
      hcap'.trans (h.capacity.trans hcap.symm), hclean.accounted, hclean.plain, hg, hl',
      .inr ⟨⟨hc.trans hclosed₂, ho⟩, ⟨hc', ho'⟩, hall⟩⟩
  · have hagain : Call.step maxInstant foreign { s with shutdownGate := some 0 } 0
        (.gated .immediate) (x 1) =
        some ({ s with shutdownGate := none }, .returned (.shutdown (.ok .complete)), []) := by
      simp only [Call.step, hshut.sync.2]
    have hagain' : AsyncCall.step maxInstant maxDuration foreign
        { a with state := { a.state with closed := true } } 0 (.finalize .immediate .complete)
        (y 1) = some ({ a with state := { a.state with closed := true } },
          .returned (.shutdown (.ok .complete)), []) := by
      simp only [AsyncCall.step, h.lock, Option.isSome_none, Bool.false_eq_true, if_false,
        hshut.async.2]
    exact ⟨_, _, _, _, .next hgate (.done hagain), .next hlock (.done hagain'), .same _, h.store,
      h.capacity, h.accounted, h.plain, rfl, h.lock,
      .inr ⟨hshut.sync, ⟨rfl, hshut.async.2⟩, hshut.closed⟩⟩

/-! ## Scripts on both -/

theorem Twins.call (h : Twins maxCount maxWeight s a) (op : Op)
    (hop : s.store.Knows op.sync.receiver) (x : Nat → Tick) (y : Nat → AsyncTick) :
    Alike maxCount maxWeight maxInstant maxDuration foreign s a (Call.enter op.sync)
      (AsyncCall.enter op.async) x y := by
  have hknown : ∀ {q : QueueRef}, op.sync.receiver = some q →
      ∃ queue, s.store.queues[q]? = some queue :=
    fun hq => ⟨_, List.getElem?_eq_getElem (hop _ hq)⟩
  cases op with
  | subscribe request => exact h.subscribe request
  | publish message => exact h.publish message
  | receive q =>
    obtain ⟨queue, hq⟩ := hknown rfl
    exact h.receive hq
  | settle q token disposition =>
    obtain ⟨queue, hq⟩ := hknown rfl
    exact h.settle hq token disposition
  | close q =>
    obtain ⟨queue, hq⟩ := hknown rfl
    exact h.close hq false
  | drop q =>
    obtain ⟨queue, hq⟩ := hknown rfl
    exact h.close hq true
  | shutdown => exact h.shutdown

end

/-- **Both local providers give the same answers to every script.** Whatever the clock says and in
whichever order hash maps are visited, every call of the script returns on both, and the answers are
the same up to the errors. Calls on receivers that do not exist are left out on both sides. -/
theorem providers_agree (maxInstant maxDuration foreign capacity maxCount : Nat)
    (maxWeight : Option ℕ+) (cells : List LocalSettlementState)
    (script : List (Op × (Nat → Tick) × (Nat → AsyncTick))) :
    let sync := (provider maxInstant foreign).Plays
      (fun s request => s.store.Knows request.receiver)
      (.new capacity maxCount maxWeight cells) (script.map fun t => (t.1.sync, t.2.1))
    let async := (asyncProvider maxInstant maxDuration foreign).Plays
      (fun a request => a.store.Knows request.receiver) (.new capacity maxCount maxWeight cells)
      (script.map fun t => (t.1.async, t.2.2))
    (∃ rs s, sync rs s) ∧ (∃ rs a, async rs a) ∧
      ∀ rs s rs' a, sync rs s → async rs' a → List.Forall₂ Agree rs rs' := by
  intro sync async
  obtain ⟨rs, s, rs', a, hplays, hplays', hagree⟩ := Machine.simulate_plays
    (provider maxInstant foreign) (asyncProvider maxInstant maxDuration foreign)
    (fun s request => s.store.Knows request.receiver)
    (fun a request => a.store.Knows request.receiver) Op.sync Op.async
    (W := Twins maxCount maxWeight) (K := Agree)
    (fun s a op h => by
      have hreceiver : op.async.receiver = op.sync.receiver := by cases op <;> rfl
      rw [hreceiver, h.store])
    (fun s a op x y h hop => h.call op hop x y)
    (twins_new capacity cells) script
  refine ⟨⟨rs, s, hplays⟩, ⟨rs', a, hplays'⟩, fun rs₁ s₁ rs₂ a₂ h₁ h₂ => ?_⟩
  rw [hplays.unique h₁, hplays'.unique h₂] at hagree
  exact hagree

end EventBus.Local
