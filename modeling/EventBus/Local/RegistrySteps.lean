import EventBus.Local.RegistryNotes

/-!
# The steps of the registries

Every step of every call of the two providers does to the directory what `Shown` says.
-/

namespace EventBus.Local

open Lib

variable {notes : List ProviderNote} {message : OutboundMessage} {event : LocalEvent}
  {d : Directory} {type : TypeId} {maxInstant now : Nat}

section
variable {S C B : Type} {v : RegistryView S C B} {s : S} {c : C}

/-- Whatever the result of the step is, the registry shows a directory after it. -/
def ShownBy (v : RegistryView S C B) (s : S) (c : C) (d : Directory)
    (result : Option (S × Thread C Response × List ProviderNote)) : Prop :=
  ∀ s' t notes, result = some (s', t, notes) →
    ∃ d', v.shows s' d' ∧ Shown v s c d s' t notes d'

theorem ShownBy.of {s' : S} {t : Thread C Response} {d' : Directory} (hd : v.shows s' d')
    (h : Shown v s c d s' t notes d') : ShownBy v s c d (some (s', t, notes)) := by
  rintro _ _ _ ⟨⟩
  exact ⟨d', hd, h⟩

/-- The directory is as it was, and nothing of interest is seen. -/
theorem ShownBy.aside {s' : S} {t : Thread C Response} (hd : v.shows s' d) (ht : Aside v c t)
    (hr : v.registration c t = []) (hn : notes.filterMap attempt = []) :
    ShownBy v s c d (some (s', t, notes)) :=
  .of hd (.aside (.refl d) ht hr hn fun _ _ _ _ he _ => he)

/-- Members leave. -/
theorem ShownBy.leaving {s' : S} {t : Thread C Response} {d' : Directory} (hd : v.shows s' d')
    (hl : d.Shrunk d') (ht : Aside v c t) (hr : v.registration c t = []) (hc : v.closes c = none) :
    ShownBy v s c d (some (s', t, [])) := by
  refine .of hd (.aside hl ht hr rfl fun q hq => ?_)
  rw [hc] at hq
  cases hq

/-- The receipt of a publish. -/
def Response.receipt : Response → Bool
  | .published (.ok _) => true
  | _ => false

theorem aside_returned {value : Response} (hc : v.admits c = none) (hv : value.receipt = false) :
    Aside v c (.returned value) := by
  refine ⟨hc, by simp, ?_⟩
  rintro acknowledgement ⟨⟩
  cases hv

theorem aside_running {c' : C} (hc : v.admits c = none) (hc' : v.admits c' = none) :
    Aside v c (.running c') := by
  refine ⟨hc, ?_, by simp⟩
  rintro _ ⟨⟩
  exact hc'

/-- A call that has nothing to do with the directory. -/
theorem ShownBy.goes {s' : S} {c' : C} (hd : v.shows s' d) (hc : v.admits c = none)
    (hc' : v.admits c' = none) (hn : notes.filterMap attempt = []) :
    ShownBy v s c d (some (s', .running c', notes)) :=
  .aside hd (aside_running hc hc') (v.registration_running c c') hn

/-- It returns neither an acknowledgement nor a receiver. -/
theorem ShownBy.returns {s' : S} {value : Response} (hd : v.shows s' d)
    (hc : v.admits c = none) (ha : v.asks c = none) (hv : value.receipt = false) :
    ShownBy v s c d (some (s', .returned value, [])) :=
  .aside hd (aside_returned hc hv) (v.registration_of_asks ha _) rfl

/-- A section on a queue that a call makes. -/
theorem ShownBy.onQueue {A : Type} {store : Store} {q : QueueRef}
    {body : LocalQueue → Locked → Option (A × Locked)}
    {next : LocalQueue → A → Store → S × Thread C Response × List ProviderNote}
    (hd : v.shows s d)
    (hnext : ∀ queue r l, store.queues[q]? = some queue →
      body queue (store.lock queue) = some (r, l) →
      ShownBy v s c d (some (next queue r (store.unlock q queue l)))) :
    ShownBy v s c d (store.onQueue q (s, .running c, []) body next) := by
  unfold Store.onQueue
  split
  · exact .of hd .stays
  · rename_i queue hq
    cases hb : body queue (store.lock queue) with
    | none =>
      rintro _ _ _ hnone
      cases hnone
    | some r => exact hnext queue r.1 r.2 hq hb

end

/-- The event of a message has its topic and payload. -/
theorem outboundEvent_spec (h : outboundEvent maxInstant now message = .ok (event, type)) :
    event.payload.typeId = type ∧ event.topic = message.topic := by
  unfold outboundEvent at h
  split at h
  · cases h
  · rename_i payload _
    split at h
    · cases h
    · rename_i hevent
      cases h
      unfold LocalEvent.transport at hevent
      split at hevent
      · cases hevent
        exact ⟨rfl, rfl⟩
      · split at hevent
        · cases hevent
          exact ⟨rfl, rfl⟩
        · cases hevent

/-! ## The synchronous provider -/

namespace Call

def asks : Call → Option SpiSubscriptionRequest
  | subscribe request => some request
  | _ => none

def publishes : Call → Option OutboundMessage
  | publish message => some message
  | _ => none

def admits : Call → Option Itinerary
  | admitting topic event queues admissions _ => some ⟨topic, event, queues, admissions⟩
  | _ => none

def closes : Call → Option QueueRef
  | close q _ | unregister q _ | unregistered q _ => some q
  | _ => none

end Call

/-- The registry of the synchronous provider, as it is seen. -/
def syncRegistry : RegistryView LocalSharedState Call BusState where
  toView := syncView
  topics s := s.state.topics.keys
  members s topic := (s.state.topics.lookup topic).elim [] TopicSubscriptions.queues
  live := LocalSharedState.live
  asks := Call.asks
  publishes := Call.publishes
  admits := Call.admits
  closes := Call.closes
  shows s d := s.state.Shows d
  own _ _ _ := True

namespace Call

variable {s : LocalSharedState} {call : Call}

theorem route_shown (hd : s.state.Shows d)
    (he : outboundEvent maxInstant now message = .ok (event, type)) :
    ShownBy syncRegistry s (publish message) d (some (route s message event type)) := by
  obtain ⟨hshow, hlive⟩ := BusState.liveQueuesForTopic_shows hd s.live message.topic
  have hleave := d.keep_shrunk message.topic fun e => s.live e.2
  obtain ⟨htype, -⟩ := outboundEvent_spec he
  simp only [route]
  split
  · exact .aside hd (aside_returned rfl rfl) rfl rfl
  split
  · exact .leaving hshow hleave (aside_returned rfl rfl) rfl rfl
  rename_i hconflict
  split
  · exact .leaving hshow hleave (aside_returned rfl rfl) rfl rfl
  -- the ring of the topic turns, if there is one
  have hmembers : (d.keep message.topic fun e => s.live e.2).members message.topic =
      (d.members message.topic).filter fun e => s.live e.2 := by
    rw [Directory.keep_members, if_pos rfl]
  generalize (d.keep message.topic fun e => s.live e.2) = d₁ at hshow hleave hmembers
  generalize (s.state.liveQueuesForTopic s.live message.topic).2 = state at hshow hconflict ⊢
  rw [hlive, ← hmembers]
  have hpayload : ∀ e : LocalEvent, (if s.store.outstanding.requiresWeight = true then event
      else { event with weightBytes := 0 }).payload = event.payload := by
    intro _
    split <;> rfl
  have htopics := hshow.topics message.topic
  cases hr : d₁.ring message.topic with
  | none =>
    rw [hr, Option.map_none] at htopics
    have horder : d₁.order message.topic = [] := by simp [Directory.order, hr]
    have hnil : d₁.members message.topic = [] := by simp [Directory.members, hr]
    have hturned : state.Shows (d₁.turn message.topic) := by
      rw [Directory.turn_none hr]
      exact hshow
    simp only [htopics, hnil]
    refine ShownBy.of hturned
      (.routes rfl rfl rfl rfl (by rw [horder]; rfl) hleave hmembers (fun r h => ?_) rfl)
    rw [hr] at h
    cases h
  | some r =>
    rw [hr, Option.map_some] at htopics
    obtain ⟨horder, hturned⟩ := BusState.rotate_shows hshow hr
    simp only [htopics, Directory.members_of_ring hr]
    refine ShownBy.of hturned
      (.routes rfl rfl rfl rfl (by rw [← horder]; rfl) hleave hmembers (fun r' h => ?_) rfl)
    rw [hr] at h
    cases h
    rw [hpayload event, htype]
    simpa [htopics, Ring.bucket] using hconflict

theorem subscribeIn_shown (hd : s.state.Shows d) (request : SpiSubscriptionRequest) (x : Tick) :
    ShownBy syncRegistry s (subscribe request) d (some (subscribeIn s request x)) := by
  obtain ⟨hshow, -⟩ := BusState.liveQueuesForTopic_shows hd s.live request.topic
  have hleave := d.keep_shrunk request.topic fun e => s.live e.2
  have hrefused : ∀ kind, Aside syncRegistry (subscribe request)
      (.returned (subscribeError request kind)) :=
    fun kind => aside_returned rfl rfl
  simp only [subscribeIn]
  split
  · exact .aside hd (hrefused _) rfl rfl
  split
  · exact .aside hd (hrefused _) rfl rfl
  generalize (d.keep request.topic fun e => s.live e.2) = d₁ at hshow hleave
  generalize (s.state.liveQueuesForTopic s.live request.topic).2 = state at hshow ⊢
  split
  · exact .leaving hshow hleave (hrefused _) rfl rfl
  rename_i htypes
  split
  · exact .leaving hshow hleave (hrefused _) rfl rfl
  rename_i hduplicate
  have htype : ∀ r, d₁.ring request.topic = some r → r.payloadType = request.payloadTypeId := by
    intro r hr
    rw [hshow.topics request.topic, hr] at htypes
    simpa [Ring.bucket] using htypes
  have hfiled : (s.store.subscribe request.subscriptionId request.topic request.subscriberId
      s.capacity).filed s.store.queues.length = some (request.subscriptionId, request.topic) := by
    simp [Store.filed, Store.subscribe]
  -- a stale entry of the id goes first
  obtain ⟨d₂, hshow₂, hleave₂, hid⟩ : ∃ d₂, (if request.subscriptionId ∈ state.subscriptionIds
      then state.removeStaleId s.live x.topics request.subscriptionId else state).Shows d₂ ∧
      d₁.Shrunk d₂ ∧ ¬ d₂.Has request.subscriptionId := by
    split
    · rename_i hin
      refine BusState.removeStaleId_shows hshow s.live x.topics ((hshow.ids _).1 hin)
        fun t q hq => ?_
      by_contra hlive
      refine hduplicate ⟨hin, List.any_eq_true.2 ⟨t, ?_, ?_⟩⟩
      · obtain ⟨r, hr, -⟩ := Directory.mem_members.1 hq
        have hlookup : state.topics.lookup t = some r.bucket := by
          rw [hshow.topics t, hr, Option.map_some]
        exact (x.topics.mem_keys _ _).2 (Finmap.mem_keys.2 (Map.mem_of_lookup hlookup))
      · have hlive : s.live q = true := by simpa using hlive
        exact (hshow.any_get t _ _).2 ⟨q, hq, hlive⟩
    · rename_i hin
      exact ⟨d₁, hshow, .refl d₁, fun h => hin ((hshow.ids _).2 h)⟩
  refine ShownBy.of (BusState.register_shows hshow₂ hid)
    (.joins hid rfl rfl rfl (hleave.trans hleave₂) (fun r hr => ?_) hfiled)
  obtain ⟨r₁, hr₁, -, ht, -⟩ := hleave₂ _ r hr
  rw [ht, htype r₁ hr₁]

theorem lookAt_shown (hd : s.state.Shows d) (hc : call.admits = none) (hasks : call.asks = none)
    (q : QueueRef) (timeout started : Nat) (x : Tick) :
    ShownBy syncRegistry s call d (lookAt s call q timeout started x) := by
  unfold lookAt
  refine ShownBy.onQueue (v := syncRegistry) hd fun queue received l _ _ => ?_
  unfold afterLook
  split
  · exact .returns hd hc hasks rfl
  · exact .goes hd hc rfl rfl
  · exact .returns hd hc hasks rfl
  · exact .returns hd hc hasks rfl
  · exact .goes hd hc rfl rfl

/-- Members leave at a snapshot of all topics. -/
theorem leaves (hd : s.state.Shows d) (x : Tick) {s' : LocalSharedState} {call' : Call}
    (hs : s'.state = (s.state.liveQueues s.live x.topics).2) (hc : call.admits = none)
    (hc' : call'.admits = none) (hcloses : call.closes = none) :
    ShownBy syncRegistry s call d (some (s', .running call', [])) := by
  obtain ⟨d', hshow, hleave⟩ := BusState.liveQueues_shows hd s.live x.topics
  have hshow' : s'.state.Shows d' := hs ▸ hshow
  exact .leaving hshow' hleave (aside_running hc hc') (syncRegistry.registration_running _ _)
    hcloses

theorem finish_shown (hd : s.state.Shows d) (queues : List QueueRef) (goal : Goal) (reached : Bool)
    (hc : call.admits = none) (hasks : call.asks = none) :
    ShownBy syncRegistry s call d (some (finish (s.disown queues) goal reached)) := by
  cases goal with
  | topicIdle => exact .returns { hd with } hc hasks rfl
  | drain => exact .goes { hd with } hc rfl rfl

theorem step_shown (hd : s.state.Shows d) (maxInstant foreign i : Nat) (x : Tick) :
    ShownBy syncRegistry s call d (step maxInstant foreign s i call x) := by
  have hstays : ShownBy syncRegistry s call d (some (s, .running call, [])) := .of hd .stays
  cases call with
  | publish message =>
    simp only [step]
    split
    · exact .returns { hd with } rfl rfl rfl
    · rename_i he
      exact route_shown hd he
  | admitting topic event queues admissions admittedAny =>
    cases queues with
    | nil =>
      simp only [step]
      refine .of (v := syncRegistry) ?_
        (.acknowledges (a := ⟨topic, event, [], admissions⟩) rfl rfl rfl)
      split
      · exact { hd with }
      · exact hd
    | cons q queues =>
      simp only [step]
      split
      · exact hstays
      rename_i queue hq
      split
      · rename_i htopic
        exact .of (v := syncRegistry) { hd with } (.skips rfl rfl rfl hq htopic rfl)
      · cases hp : publishTo queue event x.moment (s.store.lock queue) with
        | none =>
          rintro _ _ _ hnone
          cases hnone
        | some r =>
          exact .of (v := syncRegistry) { hd with }
            (.attempts (a := ⟨topic, event, q :: queues, admissions⟩) rfl rfl rfl hq rfl)
  | subscribe request => exact subscribeIn_shown hd request x
  | receive q timeout => exact lookAt_shown hd rfl rfl q timeout _ x
  | receiving q timeout started =>
    simp only [step]
    split
    · split
      · exact hstays
      · exact .returns { hd with } rfl rfl rfl
    · exact lookAt_shown hd rfl rfl q timeout started x
  | delivered message => exact .returns { hd with } rfl rfl rfl
  | settle q token disposition =>
    simp only [step]
    refine ShownBy.onQueue (v := syncRegistry) hd fun queue result l _ _ => ?_
    split
    · exact .goes { hd with } rfl rfl rfl
    · exact .returns { hd with } rfl rfl rfl
  | settled => exact .returns { hd with } rfl rfl rfl
  | close q dropped =>
    simp only [step]
    exact ShownBy.onQueue (v := syncRegistry) hd fun _ _ _ _ _ => .goes { hd with } rfl rfl rfl
  | unregister q dropped =>
    simp only [step]
    split
    · exact hstays
    · rename_i queue _
      have hshow := BusState.unregister_shows hd s.live queue.topic queue.id q
      refine .of (v := syncRegistry) hshow (.aside (d.keep_shrunk _ _) (aside_running rfl rfl)
        rfl rfl fun p hp t e he hne => ?_)
      cases hp
      rw [Directory.keep_members]
      split
      · refine List.mem_filter.2 ⟨he, ?_⟩
        have hother : e ≠ (queue.id, q) := fun heq => hne (by rw [heq])
        simp [BusState.others, hother]
      · exact he
  | unregistered q dropped =>
    simp only [step]
    split <;> exact .returns { hd with } rfl rfl rfl
  | shutdown mode =>
    simp only [step]
    split
    · exact hstays
    · exact .goes { hd with } rfl rfl rfl
  | gated mode =>
    simp only [step]
    split
    · exact .returns { hd with } rfl rfl rfl
    · exact .goes { hd with } rfl rfl rfl
  | closing mode => exact .goes { hd with } rfl rfl rfl
  | announcing mode => cases mode <;> exact .goes { hd with } rfl rfl rfl
  | look goal started =>
    cases goal with
    | topicIdle topic timeout =>
      obtain ⟨hshow, -⟩ := BusState.liveQueuesForTopic_shows hd s.live topic
      exact .leaving (v := syncRegistry) hshow (d.keep_shrunk _ _) (aside_running rfl rfl) rfl rfl
    | drain timeout => exact leaves hd x rfl rfl rfl rfl
  | inspect goal started version seen queues =>
    cases queues with
    | nil => exact finish_shown hd seen goal true rfl rfl
    | cons q queues =>
      simp only [step]
      split
      · exact hstays
      split <;> exact .goes { hd with } rfl rfl rfl
  | busy goal started version queues =>
    simp only [step]
    split
    · exact finish_shown hd queues goal false rfl rfl
    split <;> exact .goes { hd with } rfl rfl rfl
  | wait goal started queues =>
    simp only [step]
    split
    · exact finish_shown hd queues goal false rfl rfl
    · exact .goes { hd with } rfl rfl rfl
  | cleanup mode outcome => exact leaves hd x rfl rfl rfl rfl
  | cleaning mode outcome queues =>
    cases queues with
    | nil => exact .goes { hd with } rfl rfl rfl
    | cons q queues =>
      simp only [step]
      exact ShownBy.onQueue (v := syncRegistry) hd fun _ _ _ _ _ => .goes { hd with } rfl rfl rfl
  | recorded outcome => exact .goes { hd with } rfl rfl rfl
  | ungate outcome => exact .returns { hd with } rfl rfl rfl
  | waitForTopicIdle topic timeout => exact .goes { hd with } rfl rfl rfl
  | foreign address disposition =>
    simp only [step]
    split <;> exact .returns { hd with } rfl rfl rfl

end Call

theorem provider_routed (maxInstant foreign : Nat) :
    Routed (provider maxInstant foreign) syncRegistry where
  members s d topic h := by
    show (s.state.topics.lookup topic).elim [] TopicSubscriptions.queues = _
    rw [BusState.Shows.topics h topic, Directory.members]
    cases d.ring topic <;> rfl
  topics s d topic h := by
    show topic ∈ s.state.topics.keys ↔ _
    rw [Finmap.mem_keys, ← Finmap.lookup_isSome, BusState.Shows.topics h topic, Option.isSome_map]
  admits c a h := by
    cases c <;> first | exact ⟨rfl, rfl⟩ | cases h
  enter request := by cases request <;> exact ⟨rfl, fun _ _ => trivial⟩
  step s i c x d s' t notes hd _ _ h :=
    ⟨Call.step_shown hd maxInstant foreign i x s' t notes h, fun _ _ => trivial,
      fun _ _ _ _ => trivial⟩

/-! ## The asynchronous provider -/

namespace AsyncCall

def asks : AsyncCall → Option SpiSubscriptionRequest
  | subscribe request => some request
  | _ => none

def publishes : AsyncCall → Option OutboundMessage
  | publish message => some message
  | _ => none

def admits : AsyncCall → Option Itinerary
  | admitting event mailboxes admissions => some ⟨event.topic, event, mailboxes, admissions⟩
  | _ => none

def closes : AsyncCall → Option QueueRef
  | close q => some q
  | _ => none

/-- What the holder of the lock knows. A check finds the payload types in order; the cleanup has
emptied the index. -/
def Owns (s : AsyncLocalShared) (i : Nat) : AsyncCall → Prop
  | checking _ _ _ _ => s.lock = some i ∧
    ∀ topic, s.state.topicMembers.lookup topic = none → s.state.payloadTypes.lookup topic = none
  | cleaning _ _ _ => s.lock = some i ∧ ∀ topic, s.state.topicMembers.lookup topic = none
  | _ => True

end AsyncCall

/-- The registry of the asynchronous provider, as it is seen. Between the two ends of a cleanup the
payload types are those of before. -/
def asyncRegistry : RegistryView AsyncLocalShared AsyncCall AsyncBusState where
  toView := asyncView
  topics s := s.state.topicMembers.keys
  members s := s.state.mailboxesForTopic
  live _ _ := true
  asks := AsyncCall.asks
  publishes := AsyncCall.publishes
  admits := AsyncCall.admits
  closes := AsyncCall.closes
  shows s d := s.state.Shows d ∧ (s.state.Types d ∨ d = .empty ∧ s.lock.isSome)
  own := AsyncCall.Owns

namespace AsyncCall

variable {i : Nat} {s : AsyncLocalShared} {call : AsyncCall}

theorem route_shown (hd : s.state.Shows d) (ht : s.state.Types d)
    (he : outboundEvent maxInstant now message = .ok (event, type)) :
    ShownBy asyncRegistry s (publish message) d (some (route s message event type)) := by
  have hshow : asyncRegistry.shows s d := ⟨hd, .inl ht⟩
  obtain ⟨htype, htopic⟩ := outboundEvent_spec he
  simp only [route]
  split
  · exact .returns hshow rfl rfl rfl
  split
  · exact .returns hshow rfl rfl rfl
  rename_i hconflict
  split
  · exact .returns hshow rfl rfl rfl
  obtain ⟨horder, hturned⟩ := AsyncBusState.publishMailboxesForTopic_shows hd message.topic
  have hall : d.members message.topic =
      (d.members message.topic).filter fun e => asyncRegistry.live s e.2 :=
    (List.filter_eq_self.2 fun _ _ => rfl).symm
  generalize hevent : (if s.store.outstanding.requiresWeight = true then event
    else { event with weightBytes := 0 }) = stripped
  have hsame : stripped.topic = message.topic ∧ stripped.payload = event.payload := by
    rw [← hevent, ← htopic]
    split <;> exact ⟨rfl, rfl⟩
  have hadmits : asyncRegistry.admits (admitting stripped
      ((s.state.publishMailboxesForTopic message.topic).1.map Prod.snd) []) =
      some ⟨message.topic, stripped, (d.order message.topic).map Prod.snd, []⟩ := by
    show some (Itinerary.mk stripped.topic stripped _ _) = _
    rw [hsame.1, horder]
  refine .of (v := asyncRegistry) ⟨hturned, .inl (ht.turn message.topic)⟩
    (.routes rfl rfl rfl rfl hadmits (.refl d) hall (fun r hr => ?_) rfl)
  rw [hsame.2, htype]
  simpa [ht message.topic, hr] using hconflict

theorem subscribeIn_shown (hd : s.state.Shows d) (ht : s.state.Types d)
    (request : SpiSubscriptionRequest) :
    ShownBy asyncRegistry s (subscribe request) d (some (subscribeIn s request)) := by
  have hshow : asyncRegistry.shows s d := ⟨hd, .inl ht⟩
  have hrefused : ∀ kind, ShownBy asyncRegistry s (subscribe request) d
      (some (s, .returned (subscribeError request kind), [])) :=
    fun kind => .aside hshow (aside_returned rfl rfl) rfl rfl
  simp only [subscribeIn]
  split
  · exact hrefused _
  split
  · exact hrefused _
  rename_i htypes
  have htype : ∀ r, d.ring request.topic = some r → r.payloadType = request.payloadTypeId := by
    intro r hr
    simpa [ht request.topic, hr] using htypes
  have hfiled : (s.store.subscribe request.subscriptionId request.topic request.subscriberId
      s.capacity).filed s.store.queues.length = some (request.subscriptionId, request.topic) := by
    simp [Store.filed, Store.subscribe]
  by_cases hid : d.Has request.subscriptionId
  · rw [AsyncBusState.insertMailbox_taken hd _ hid]
    exact hrefused _
  · obtain ⟨state, hinsert, hshow', hkept⟩ :=
      AsyncBusState.insertMailbox_shows hd s.store.queues.length request.payloadTypeId hid
    rw [hinsert]
    exact .of (v := asyncRegistry)
      ⟨⟨hshow'.members, hshow'.mailboxes, hshow'.starts⟩, .inl (ht.join hkept hid)⟩
      (.joins hid rfl rfl rfl (.refl d) htype hfiled)

theorem lookAt_shown (hd : asyncRegistry.shows s d) (hc : call.admits = none)
    (hasks : call.asks = none) (maxDuration : Nat) (q : QueueRef) (timeout started : Nat)
    (x : AsyncTick) :
    ShownBy asyncRegistry s call d (lookAt maxDuration s call q timeout started x) := by
  unfold lookAt
  refine ShownBy.onQueue (v := asyncRegistry) hd fun queue received l _ _ => ?_
  unfold afterLook
  split
  · exact .returns hd hc hasks rfl
  · exact .returns hd hc hasks rfl
  · exact .returns hd hc hasks rfl
  · exact .returns hd hc hasks rfl
  split
  · split
    · exact .returns hd hc hasks rfl
    · exact .goes hd hc rfl rfl
  · exact .goes hd hc rfl rfl

theorem closeMailbox_shown (hd : s.state.Shows d) (ht : s.state.Types d)
    (hfiled : ∀ topic, ∀ e ∈ d.members topic, s.store.filed e.2 = some (e.1, topic))
    (q : QueueRef) :
    ShownBy asyncRegistry s (close q) d (closeMailbox s (close q) q) := by
  unfold closeMailbox
  refine ShownBy.onQueue (v := asyncRegistry) ⟨hd, .inl ht⟩ fun queue events l hq _ => ?_
  have hplace : ∀ t, (queue.id, q) ∈ d.members t → t = queue.topic := by
    intro t he
    have hf := hfiled t _ he
    simp only [Store.filed, hq, Option.map_some, Option.some.injEq, Prod.mk.injEq] at hf
    exact hf.2.symm
  have hshow := (AsyncBusState.removeMailboxIfSame_shows hd hplace).1
  have hleave := d.keep_shrunk queue.topic fun e => decide (e ≠ (queue.id, q))
  refine .of (v := asyncRegistry)
    ⟨⟨hshow.members, hshow.mailboxes, hshow.starts⟩, .inl (ht.leave hd hplace)⟩
    (.aside hleave (aside_returned rfl rfl) rfl rfl fun p hp t e he hne => ?_)
  cases hp
  rw [Directory.keep_members]
  split
  · exact List.mem_filter.2 ⟨he, decide_eq_true fun heq => hne (by rw [heq])⟩
  · exact he

theorem step_shown (hd : asyncRegistry.shows s d) (ho : call.Owns s i)
    (hfiled : ∀ topic, ∀ e ∈ d.members topic, s.store.filed e.2 = some (e.1, topic))
    (maxInstant maxDuration foreign : Nat) (x : AsyncTick) :
    ShownBy asyncRegistry s call d (step maxInstant maxDuration foreign s i call x) := by
  have hstays : ShownBy asyncRegistry s call d (some (s, .running call, [])) := .of hd .stays
  -- a section of the registry is entered only if nobody cleans it up
  have hlocking : ∀ {next : Option AsyncNext},
      (s.state.Shows d → s.state.Types d → ShownBy asyncRegistry s call d next) →
      ShownBy asyncRegistry s call d
        (if s.lock.isSome then some (s, .running call, []) else next) := by
    intro next hnext
    split
    · exact hstays
    · rename_i hfree
      exact hnext hd.1 (hd.2.resolve_right fun h => hfree h.2)
  cases call with
  | publish message =>
    simp only [step]
    split
    · exact .returns hd rfl rfl rfl
    · rename_i he
      exact hlocking fun hs ht => route_shown hs ht he
  | admitting event mailboxes admissions =>
    cases mailboxes with
    | nil =>
      exact .of (v := asyncRegistry) hd
        (.acknowledges (a := ⟨event.topic, event, [], admissions⟩) rfl rfl rfl)
    | cons q mailboxes =>
      simp only [step]
      refine ShownBy.onQueue (v := asyncRegistry) hd fun queue rejection l hq _ => ?_
      exact .of (v := asyncRegistry) hd
        (.attempts (a := ⟨event.topic, event, q :: mailboxes, admissions⟩) rfl rfl rfl hq rfl)
  | subscribe request =>
    simp only [step]
    split
    · exact .aside hd (aside_returned rfl rfl) rfl rfl
    · exact hlocking fun hs ht => subscribeIn_shown hs ht request
  | receive q timeout => exact lookAt_shown hd rfl rfl maxDuration q timeout _ x
  | receiving q timeout started =>
    simp only [step]
    split
    · exact .returns hd rfl rfl rfl
    · exact lookAt_shown hd rfl rfl maxDuration q timeout started x
  | settle q token disposition =>
    simp only [step]
    exact ShownBy.onQueue (v := asyncRegistry) hd fun _ _ _ _ _ =>
      .returns hd rfl rfl rfl
  | close q => exact hlocking fun hs ht => closeMailbox_shown hs ht hfiled q
  | shutdown mode =>
    refine hlocking fun hs ht => ?_
    have hclosed : asyncRegistry.shows { s with state := { s.state with closed := true } } d :=
      ⟨⟨hs.members, hs.mailboxes, hs.starts⟩, .inl ht⟩
    cases mode with
    | immediate => exact .goes hclosed rfl rfl rfl
    | graceful timeout => exact .goes hclosed rfl rfl rfl
  | draining timeout started =>
    simp only [step]
    split
    · exact .returns hd rfl rfl rfl
    · exact hlocking fun hs ht => .goes ⟨hs, .inl ht⟩ rfl rfl rfl
  | checking timeout started seen mailboxes =>
    -- the types are in order, whatever the registry shows
    have htypes : s.state.Types d := by
      obtain ht | ⟨rfl, -⟩ := hd.2
      · exact ht
      · exact fun t => ho.2 t (hd.1.members t)
    cases mailboxes with
    | nil => exact .goes ⟨hd.1, .inl htypes⟩ rfl rfl rfl
    | cons q mailboxes =>
      simp only [step]
      split
      · exact hstays
      split
      · exact .goes ⟨hd.1, .inl htypes⟩ rfl rfl rfl
      · exact .goes hd rfl rfl rfl
  | busy timeout started =>
    simp only [step]
    split
    · exact .goes hd rfl rfl rfl
    split
    · exact .goes hd rfl rfl rfl
    split
    · exact .goes hd rfl rfl rfl
    · exact .goes hd rfl rfl rfl
    · exact .returns hd rfl rfl rfl
  | finalize mode result =>
    refine hlocking fun hs ht => ?_
    split
    · exact .returns ⟨hs, .inl ht⟩ rfl rfl rfl
    · have hshow :=
        AsyncBusState.drainMailboxes_shows (s := { s.state with closed := true }) x.mailboxes
      exact .leaving (v := asyncRegistry) ⟨hshow, .inr ⟨rfl, rfl⟩⟩ d.empty_shrunk
        (aside_running rfl rfl) rfl rfl
  | cleaning mode result mailboxes =>
    cases mailboxes with
    | nil =>
      have htypes : ∀ t, (d.ring t).map Ring.payloadType = none := fun t => by
        have hm := hd.1.members t
        rw [ho.2 t, eq_comm, Option.map_eq_none_iff] at hm
        rw [hm]
        rfl
      exact .returns (v := asyncRegistry)
        ⟨⟨hd.1.members, hd.1.mailboxes, hd.1.starts⟩, .inl fun t => (htypes t).symm⟩ rfl rfl rfl
    | cons q mailboxes =>
      simp only [step]
      exact ShownBy.onQueue (v := asyncRegistry) hd fun _ _ _ _ _ => .goes hd rfl rfl rfl
  | foreign address disposition =>
    simp only [step]
    split <;> exact .returns hd rfl rfl rfl

/-! ### The holder of the lock -/

/-- What the thread knows after its step. -/
def OwnsNext (s : AsyncLocalShared) (i : Nat) : Thread AsyncCall Response → Prop
  | .running call => call.Owns s i
  | .returned _ => True

/-- Whatever the result of the step is, its thread knows then what it should, and the others still
do. -/
def OwnedBy (s : AsyncLocalShared) (i : Nat) (result : Option AsyncNext) : Prop :=
  ∀ s' t notes, result = some (s', t, notes) →
    OwnsNext s' i t ∧ ∀ k (c : AsyncCall), k ≠ i → c.Owns s k → c.Owns s' k

section
variable {s' : AsyncLocalShared} {t : Thread AsyncCall Response}

/-- Lock and registry are as they were. -/
theorem OwnedBy.same (hl : s'.lock = s.lock) (hs : s'.state = s.state) (ht : OwnsNext s' i t) :
    OwnedBy s i (some (s', t, notes)) := by
  rintro _ _ _ ⟨⟩
  refine ⟨ht, fun k c _ hc => ?_⟩
  unfold Owns at hc ⊢
  rwa [hl, hs]

/-- No other thread holds the lock. -/
theorem OwnedBy.alone (hl : ∀ k, s.lock = some k → k = i) (ht : OwnsNext s' i t) :
    OwnedBy s i (some (s', t, notes)) := by
  rintro _ _ _ ⟨⟩
  refine ⟨ht, fun k c hk hc => ?_⟩
  cases c with
  | checking | cleaning => exact absurd (hl k hc.1) hk
  | _ => exact trivial

theorem OwnedBy.onQueue (ho : call.Owns s i) {A : Type} {q : QueueRef}
    {body : LocalQueue → Locked → Option (A × Locked)} {next : LocalQueue → A → Store → AsyncNext}
    (hnext : ∀ queue r store, OwnedBy s i (some (next queue r store))) :
    OwnedBy s i (s.store.onQueue q (s, .running call, []) body next) := by
  unfold Store.onQueue
  split
  · exact .same rfl rfl ho
  · rename_i queue _
    cases body queue (s.store.lock queue) with
    | none =>
      rintro _ _ _ hnone
      cases hnone
    | some r => exact hnext queue r.1 _

/-- A section of the registry waits, or is made while nobody holds the lock. -/
theorem OwnedBy.locking (ho : call.Owns s i) {next : Option AsyncNext}
    (hnext : (∀ k, s.lock = some k → k = i) → s.lock.isSome = false → OwnedBy s i next) :
    OwnedBy s i (if s.lock.isSome then some (s, .running call, []) else next) := by
  split
  · exact .same rfl rfl ho
  · rename_i hfree
    refine hnext (fun k hk => ?_) (eq_false_of_ne_true hfree)
    rw [hk] at hfree
    exact absurd rfl hfree

theorem lookAt_owned (ho : call.Owns s i) (maxDuration : Nat) (q : QueueRef) (timeout started : Nat)
    (x : AsyncTick) : OwnedBy s i (lookAt maxDuration s call q timeout started x) := by
  unfold lookAt
  refine .onQueue ho fun queue received store => ?_
  unfold afterLook
  split
  · exact .same rfl rfl trivial
  · exact .same rfl rfl trivial
  · exact .same rfl rfl trivial
  · exact .same rfl rfl trivial
  split
  · split <;> exact .same rfl rfl trivial
  · exact .same rfl rfl trivial

end

theorem step_owned (hd : asyncRegistry.shows s d) (ho : call.Owns s i)
    (maxInstant maxDuration foreign : Nat) (x : AsyncTick) :
    OwnedBy s i (step maxInstant maxDuration foreign s i call x) := by
  cases call with
  | publish message =>
    simp only [step]
    split
    · exact .same rfl rfl trivial
    refine .locking ho fun halone _ => ?_
    simp only [route]
    split
    · exact .same rfl rfl trivial
    split
    · exact .same rfl rfl trivial
    split
    · exact .same rfl rfl trivial
    · exact .alone halone trivial
  | admitting event mailboxes admissions =>
    cases mailboxes with
    | nil => exact .same rfl rfl trivial
    | cons q mailboxes =>
      simp only [step]
      exact .onQueue ho fun _ _ _ => .same rfl rfl trivial
  | subscribe request =>
    simp only [step]
    split
    · exact .same rfl rfl trivial
    refine .locking ho fun halone _ => ?_
    simp only [subscribeIn]
    split
    · exact .same rfl rfl trivial
    split
    · exact .same rfl rfl trivial
    split <;> exact .alone halone trivial
  | receive q timeout => exact lookAt_owned ho maxDuration q timeout _ x
  | receiving q timeout started =>
    simp only [step]
    split
    · exact .same rfl rfl trivial
    · exact lookAt_owned ho maxDuration q timeout started x
  | settle q token disposition =>
    simp only [step]
    exact .onQueue ho fun _ _ _ => .same rfl rfl trivial
  | close q => exact .locking ho fun halone _ => .onQueue ho fun _ _ _ => .alone halone trivial
  | shutdown mode =>
    refine .locking ho fun halone _ => ?_
    cases mode <;> exact .alone halone trivial
  | draining timeout started =>
    simp only [step]
    split
    · exact .same rfl rfl trivial
    refine .locking ho fun halone hfree => .alone halone ⟨rfl, fun topic hnone => ?_⟩
    have htypes := hd.2.resolve_right fun hempty => by simp [hfree] at hempty
    have hm := hd.1.members topic
    rw [show s.state.topicMembers.lookup topic = none from hnone, eq_comm,
      Option.map_eq_none_iff] at hm
    show s.state.payloadTypes.lookup topic = none
    rw [htypes topic, hm]
    rfl
  | checking timeout started seen mailboxes =>
    have halone : ∀ k, s.lock = some k → k = i := fun k hk => Option.some.inj (hk.symm.trans ho.1)
    cases mailboxes with
    | nil => exact .alone halone trivial
    | cons q mailboxes =>
      simp only [step]
      split
      · exact .same rfl rfl ho
      split
      · exact .alone halone trivial
      · exact .same rfl rfl ho
  | busy timeout started =>
    simp only [step]
    split
    · exact .same rfl rfl trivial
    split
    · exact .same rfl rfl trivial
    split <;> exact .same rfl rfl trivial
  | finalize mode result =>
    refine .locking ho fun halone _ => ?_
    split
    · exact .same rfl rfl trivial
    · exact .alone halone ⟨rfl, fun _ => rfl⟩
  | cleaning mode result mailboxes =>
    cases mailboxes with
    | nil => exact .alone (fun k hk => Option.some.inj (hk.symm.trans ho.1)) trivial
    | cons q mailboxes =>
      simp only [step]
      exact .onQueue ho fun _ _ _ => .same rfl rfl ho
  | foreign address disposition =>
    simp only [step]
    split <;> exact .same rfl rfl trivial

end AsyncCall

theorem asyncProvider_routed (maxInstant maxDuration foreign : Nat) :
    Routed (asyncProvider maxInstant maxDuration foreign) asyncRegistry where
  members s d topic h := AsyncBusState.mailboxesForTopic_eq h.1 topic
  topics s d topic h := by
    show topic ∈ s.state.topicMembers.keys ↔ _
    rw [Finmap.mem_keys, ← Finmap.lookup_isSome, h.1.members topic, Option.isSome_map]
  admits c a h := by
    cases c <;> first | exact ⟨rfl, rfl⟩ | cases h
  enter request := by cases request <;> exact ⟨rfl, fun _ _ => trivial⟩
  step s i c x d s' t notes hd ho hfiled h := by
    obtain ⟨hown, hothers⟩ :=
      AsyncCall.step_owned hd ho maxInstant maxDuration foreign x s' t notes h
    refine ⟨AsyncCall.step_shown hd ho hfiled maxInstant maxDuration foreign x s' t notes h, ?_,
      hothers⟩
    rintro c' rfl
    exact hown

end EventBus.Local
