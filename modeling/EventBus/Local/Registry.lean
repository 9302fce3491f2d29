import EventBus.Local.Store

/-!
# Routing tables of the local providers

The synchronous provider files its queues by topic (`bus_state.rs`, `topic_subscriptions.rs`) and
holds them weakly: a queue is live while somebody owns it, and entries of dead queues are pruned
on the way. The asynchronous provider (`async_bus_state.rs`) owns its mailboxes until they are
closed and keeps the ids of each topic beside them. Both rotate the destinations of successive
publications to a topic.

A `BTreeMap` is the list of its entries in the order of their keys. A hash map is a `Map`, and what
iterates over one is given an order of its keys (`KeyOrder`).
-/

namespace EventBus.Local

open Lib

/-- The order in which an iteration visits the keys of a hash map: each key once, and otherwise
unspecified. -/
structure KeyOrder (K : Type) where
  keys : Finset K → List K
  nodup : ∀ s, (keys s).Nodup
  mem_keys : ∀ s k, k ∈ keys s ↔ k ∈ s

noncomputable def KeyOrder.some (K : Type) : KeyOrder K :=
  ⟨Finset.toList, Finset.nodup_toList, fun _ _ => Finset.mem_toList⟩

/-- `BTreeMap::insert` for a map keyed by ids. -/
def insertById {V : Type} (id : Id) (value : V) : List (Id × V) → List (Id × V)
  | [] => [(id, value)]
  | entry :: entries =>
    if id.value < entry.1.value then (id, value) :: entry :: entries
    else if id = entry.1 then (id, value) :: entries
    else entry :: insertById id value entries

/-- The start of a rotation that follows one which began at `last`: the first id after it, and
the first of all if there is none. -/
def rotationStart {V : Type} (last : Option Id) (entries : List (Id × V)) : Nat :=
  (last.bind fun last => entries.findIdx? fun entry => last.value < entry.1.value).getD 0

/-! ## The synchronous provider -/

/-- The subscriptions of one topic. An entry is filed under the id of its queue. -/
structure TopicSubscriptions where
  queues : List (Id × QueueRef)
  payloadTypeId : Option TypeId
  lastAdmissionStart : Option Id
deriving DecidableEq

namespace TopicSubscriptions

/-- `TopicSubscriptions::default`. -/
def default : TopicSubscriptions := ⟨[], none, none⟩

/-- `BTreeMap::get`. -/
def get (bucket : TopicSubscriptions) (id : Id) : Option QueueRef :=
  (bucket.queues.find? fun entry => entry.1 = id).map Prod.snd

section
variable (live : QueueRef → Bool)

def liveQueues (bucket : TopicSubscriptions) : List (Id × QueueRef) × TopicSubscriptions :=
  let queues := bucket.queues.filter fun entry => live entry.2
  (queues, { bucket with
    queues
    payloadTypeId := if queues.isEmpty then none else bucket.payloadTypeId })

def rotatePublishQueues (bucket : TopicSubscriptions) (queues : List (Id × QueueRef)) :
    List (Id × QueueRef) × TopicSubscriptions :=
  if queues.isEmpty then (queues, bucket)
  else
    let queues := queues.rotateLeft (rotationStart bucket.lastAdmissionStart queues)
    (queues, { bucket with lastAdmissionStart := queues.head?.map Prod.fst })

/-- The entry goes only if it still points to the closing queue. -/
def remove (bucket : TopicSubscriptions) (id : Id) (q : QueueRef) : Bool × TopicSubscriptions :=
  let found := (bucket.get id).any fun current => live current && current == q
  let queues := if found then bucket.queues.filter fun entry => entry.1 ≠ id else bucket.queues
  (found, { bucket with
    queues
    payloadTypeId := if queues.isEmpty then none else bucket.payloadTypeId })

end

end TopicSubscriptions

structure BusState where
  topics : Map TopicAddress TopicSubscriptions
  subscriptionIds : Finset Id
  closed : Bool
  shutdownOutcome : Option ShutdownOutcome
  changeVersion : Nat

namespace BusState

/-- `BusState::default`. -/
def default : BusState := ⟨∅, ∅, false, none, 0⟩

/-- The section of `signal_changed`. -/
def signalChanged (s : BusState) : BusState :=
  { s with changeVersion := wrappingSucc s.changeVersion }

section
variable (live : QueueRef → Bool)

def liveQueuesForTopic (s : BusState) (topic : TopicAddress) :
    List (Id × QueueRef) × BusState :=
  match s.topics.lookup topic with
  | none => ([], s)
  | some bucket =>
    let deadIds := (bucket.queues.filter fun entry => !live entry.2).map Prod.fst
    let (queues, bucket) := bucket.liveQueues live
    (queues, { s with
      subscriptionIds := s.subscriptionIds \ deadIds.toFinset
      topics := if bucket.queues.isEmpty then s.topics.erase topic
        else s.topics.insert topic bucket })

/-- The loop of `live_queues`, over the topics still to be visited. -/
def liveQueuesLoop : List TopicAddress → List (Id × QueueRef) → BusState →
    List (Id × QueueRef) × BusState
  | [], queues, s => (queues, s)
  | topic :: topics, queues, s =>
    let (more, s) := s.liveQueuesForTopic live topic
    liveQueuesLoop topics (queues ++ more) s

def liveQueues (order : KeyOrder TopicAddress) (s : BusState) : List (Id × QueueRef) × BusState :=
  liveQueuesLoop live (order.keys s.topics.keys) [] s

/-- The bucket has an entry for `id` whose queue is dead. -/
def isStaleIn (bucket : TopicSubscriptions) (id : Id) : Bool :=
  (bucket.get id).any fun q => !live q

/-- The first bucket with a stale entry loses it; then all empty buckets go. -/
def removeStaleId (order : KeyOrder TopicAddress) (s : BusState) (id : Id) : BusState :=
  let stale := (order.keys s.topics.keys).find? fun topic =>
    (s.topics.lookup topic).any fun bucket => isStaleIn live bucket id
  let topics : Map TopicAddress TopicSubscriptions := match stale with
    | none => s.topics
    | some topic =>
      match s.topics.lookup topic with
      | none => s.topics
      | some bucket =>
        let queues := bucket.queues.filter fun entry => entry.1 ≠ id
        s.topics.insert topic { bucket with
          queues
          payloadTypeId := if queues.isEmpty then none else bucket.payloadTypeId }
  { s with
    subscriptionIds := s.subscriptionIds.erase id
    topics := topics.retain fun bucket => !bucket.queues.isEmpty }

/-- The section of a receiver's `close`. -/
def unregister (s : BusState) (topic : TopicAddress) (id : Id) (q : QueueRef) : BusState :=
  match s.topics.lookup topic with
  | none => s
  | some bucket =>
    let (removed, bucket) := bucket.remove live id q
    { s with
      subscriptionIds := if removed then s.subscriptionIds.erase id else s.subscriptionIds
      topics := if bucket.queues.isEmpty then s.topics.erase topic
        else s.topics.insert topic bucket }

/-- A new subscription is filed. -/
def register (s : BusState) (topic : TopicAddress) (id : Id) (q : QueueRef)
    (payloadTypeId : TypeId) : BusState :=
  let bucket := (s.topics.lookup topic).getD .default
  { s with
    topics := s.topics.insert topic { bucket with
      queues := insertById id q bucket.queues
      payloadTypeId := some payloadTypeId }
    subscriptionIds := insert id s.subscriptionIds }

end

/-! ### What is registered -/

/-- The queue is filed under the topic. -/
def Files (s : BusState) (topic : TopicAddress) (q : QueueRef) : Prop :=
  ∃ bucket id, s.topics.lookup topic = some bucket ∧ (id, q) ∈ bucket.queues

/-- Every queue filed in `s'` was filed in `s`, under the same topic. -/
def Shrinks (s s' : BusState) : Prop := ∀ topic q, s'.Files topic q → s.Files topic q

section
variable {s s' : BusState} {topic : TopicAddress}

theorem Shrinks.refl (s : BusState) : s.Shrinks s := fun _ _ h => h

theorem Shrinks.trans {s₁ s₂ s₃ : BusState} (h : s₁.Shrinks s₂) (h' : s₂.Shrinks s₃) :
    s₁.Shrinks s₃ := fun topic q hq => h topic q (h' topic q hq)

/-- A bucket that has lost entries is put back, or goes if it is empty. -/
theorem shrinks_of_bucket {bucket bucket' : TopicSubscriptions}
    (hb : s.topics.lookup topic = some bucket) (hq : bucket'.queues ⊆ bucket.queues)
    (hs : s'.topics = if bucket'.queues.isEmpty then s.topics.erase topic
      else s.topics.insert topic bucket') : s.Shrinks s' := by
  rintro topic' q ⟨bucket₁, id, hlookup, hm⟩
  by_cases htopic : topic' = topic
  · subst htopic
    rw [hs] at hlookup
    split at hlookup
    · rw [Finmap.lookup_erase] at hlookup
      cases hlookup
    · rw [Finmap.lookup_insert] at hlookup
      cases hlookup
      exact ⟨bucket, id, hb, hq hm⟩
  · refine ⟨bucket₁, id, ?_, hm⟩
    rw [hs] at hlookup
    split at hlookup
    · rwa [Finmap.lookup_erase_ne htopic] at hlookup
    · rwa [Finmap.lookup_insert_of_ne _ htopic] at hlookup

variable (live : QueueRef → Bool) (s)

theorem liveQueuesForTopic_closed (topic : TopicAddress) :
    (s.liveQueuesForTopic live topic).2.closed = s.closed := by
  unfold liveQueuesForTopic
  split <;> rfl

theorem liveQueuesForTopic_outcome (topic : TopicAddress) :
    (s.liveQueuesForTopic live topic).2.shutdownOutcome = s.shutdownOutcome := by
  unfold liveQueuesForTopic
  split <;> rfl

theorem liveQueuesForTopic_shrinks (topic : TopicAddress) :
    s.Shrinks (s.liveQueuesForTopic live topic).2 := by
  unfold liveQueuesForTopic
  split
  · exact .refl s
  · rename_i bucket hb
    exact shrinks_of_bucket hb (List.filter_subset_self _) rfl

/-- The snapshot of a topic has all that is left under it. -/
theorem liveQueuesForTopic_covers (topic : TopicAddress) (q : QueueRef)
    (h : (s.liveQueuesForTopic live topic).2.Files topic q) :
    q ∈ (s.liveQueuesForTopic live topic).1.map Prod.snd := by
  revert h
  unfold liveQueuesForTopic
  split
  · rename_i hnone
    rintro ⟨bucket, id, hlookup, -⟩
    rw [hnone] at hlookup
    cases hlookup
  · rename_i bucket hb
    rintro ⟨bucket', id, hlookup, hm⟩
    simp only at hlookup
    split at hlookup
    · rw [Finmap.lookup_erase] at hlookup
      cases hlookup
    · rw [Finmap.lookup_insert] at hlookup
      cases hlookup
      exact List.mem_map.2 ⟨(id, q), hm, rfl⟩

theorem liveQueuesForTopic_files (topic : TopicAddress) (q : QueueRef)
    (h : q ∈ (s.liveQueuesForTopic live topic).1.map Prod.snd) : s.Files topic q := by
  revert h
  unfold liveQueuesForTopic
  split
  · exact fun h => nomatch h
  · rename_i bucket hb
    intro h
    obtain ⟨⟨id, q⟩, hm, rfl⟩ := List.mem_map.1 h
    exact ⟨bucket, id, hb, List.filter_subset_self _ hm⟩

/-- What the loop over topics collects: all that is left under them, and nothing that was not
filed. -/
theorem liveQueuesLoop_spec (topics : List TopicAddress) (queues : List (Id × QueueRef)) :
    let r := liveQueuesLoop live topics queues s
    r.2.closed = s.closed ∧ s.Shrinks r.2 ∧ queues ⊆ r.1 ∧
      (∀ topic ∈ topics, ∀ q, r.2.Files topic q → q ∈ r.1.map Prod.snd) ∧
      ∀ q ∈ r.1.map Prod.snd, q ∈ queues.map Prod.snd ∨ ∃ topic, s.Files topic q := by
  induction topics generalizing queues s with
  | nil => exact ⟨rfl, .refl s, fun _ h => h, fun _ h => (nomatch h), fun _ h => .inl h⟩
  | cons topic topics ih =>
    have hshrink := liveQueuesForTopic_shrinks s live topic
    obtain ⟨hclosed, hrest, hsub, hcover, hfiled⟩ :=
      ih (s.liveQueuesForTopic live topic).2 (queues ++ (s.liveQueuesForTopic live topic).1)
    refine ⟨hclosed.trans (liveQueuesForTopic_closed s live topic), hshrink.trans hrest,
      fun e he => hsub (List.mem_append_left _ he), fun t ht q hq => ?_, fun q hq => ?_⟩
    · obtain rfl | ht := List.mem_cons.1 ht
      · obtain ⟨e, he, rfl⟩ :=
          List.mem_map.1 (liveQueuesForTopic_covers s live t q (hrest t q hq))
        exact List.mem_map_of_mem (hsub (List.mem_append_right _ he))
      · exact hcover t ht q hq
    · obtain hq | ⟨t, hq⟩ := hfiled q hq
      · rw [List.map_append, List.mem_append] at hq
        obtain hq | hq := hq
        · exact .inl hq
        · exact .inr ⟨topic, liveQueuesForTopic_files s live topic q hq⟩
      · exact .inr ⟨t, hshrink t q hq⟩

/-- A snapshot of all topics has exactly the registered queues that are left. -/
theorem liveQueues_spec (order : KeyOrder TopicAddress) :
    let r := s.liveQueues live order
    r.2.closed = s.closed ∧ s.Shrinks r.2 ∧
      (∀ topic q, r.2.Files topic q → q ∈ r.1.map Prod.snd) ∧
      ∀ q ∈ r.1.map Prod.snd, ∃ topic, s.Files topic q := by
  obtain ⟨hclosed, hshrink, -, hcover, hfiled⟩ :=
    liveQueuesLoop_spec s live (order.keys s.topics.keys) []
  refine ⟨hclosed, hshrink, fun topic q hq => hcover topic ?_ q hq, fun q hq =>
    (hfiled q hq).resolve_left fun h => nomatch h⟩
  obtain ⟨bucket, id, hlookup, -⟩ := hshrink topic q hq
  exact (order.mem_keys _ _).2 (Finmap.mem_keys.2 (Map.mem_of_lookup hlookup))

theorem unregister_outcome (topic : TopicAddress) (id : Id) (q : QueueRef) :
    (s.unregister live topic id q).shutdownOutcome = s.shutdownOutcome := by
  unfold unregister
  split <;> rfl

theorem unregister_spec (topic : TopicAddress) (id : Id) (q : QueueRef) :
    (s.unregister live topic id q).closed = s.closed ∧
      s.Shrinks (s.unregister live topic id q) := by
  unfold unregister
  split
  · exact ⟨rfl, .refl s⟩
  · rename_i bucket hb
    refine ⟨rfl, shrinks_of_bucket hb ?_ rfl⟩
    simp only [TopicSubscriptions.remove]
    split
    · exact List.filter_subset_self _
    · exact List.Subset.refl _

end

end BusState

/-! ## The asynchronous provider -/

structure AsyncBusState where
  closed : Bool
  outcome : Option ShutdownOutcome
  /-- The mailboxes by subscription id (`MailboxKey`). -/
  mailboxes : Map Id QueueRef
  /-- The ids of a topic in ascending order (`BTreeSet`). -/
  topicMembers : Map TopicAddress (List (Id × Unit))
  admissionStarts : Map TopicAddress Id
  payloadTypes : Map TopicAddress TypeId

namespace AsyncBusState

/-- `AsyncBusState::default`. -/
def default : AsyncBusState := ⟨false, none, ∅, ∅, ∅, ∅⟩

def mailboxesForTopic (s : AsyncBusState) (topic : TopicAddress) : List (Id × QueueRef) :=
  ((s.topicMembers.lookup topic).getD []).filterMap fun (id, _) =>
    (s.mailboxes.lookup id).map fun mailbox => (id, mailbox)

def publishMailboxesForTopic (s : AsyncBusState) (topic : TopicAddress) :
    List (Id × QueueRef) × AsyncBusState :=
  match s.mailboxesForTopic topic with
  | [] => ([], s)
  | mailbox :: mailboxes =>
    let mailboxes := mailbox :: mailboxes
    let mailboxes := mailboxes.rotateLeft (rotationStart (s.admissionStarts.lookup topic) mailboxes)
    (mailboxes, { s with admissionStarts :=
      mailboxes.head?.elim s.admissionStarts fun first => s.admissionStarts.insert topic first.1 })

def hasTopic (s : AsyncBusState) (topic : TopicAddress) : Bool :=
  (s.topicMembers.lookup topic).any fun members => !members.isEmpty

/-- `none` if the key is taken. -/
def insertMailbox (s : AsyncBusState) (id : Id) (topic : TopicAddress) (mailbox : QueueRef) :
    Option AsyncBusState :=
  match s.mailboxes.lookup id with
  | some _ => none
  | none =>
    let members := (s.topicMembers.lookup topic).getD []
    some { s with
      mailboxes := s.mailboxes.insert id mailbox
      topicMembers := s.topicMembers.insert topic (insertById id () members) }

/-- The mailbox goes only if the key still belongs to it. -/
def removeMailboxIfSame (s : AsyncBusState) (id : Id) (topic : TopicAddress)
    (mailbox : QueueRef) : Bool × AsyncBusState :=
  if s.mailboxes.lookup id = some mailbox then
    let s := { s with mailboxes := s.mailboxes.erase id }
    match s.topicMembers.lookup topic with
    | none => (true, s)
    | some members =>
      let members := members.filter fun member => member.1 ≠ id
      if members.isEmpty then
        (true, { s with
          topicMembers := s.topicMembers.erase topic
          admissionStarts := s.admissionStarts.erase topic })
      else (true, { s with topicMembers := s.topicMembers.insert topic members })
  else (false, s)

/-- The mailboxes come in the order of a hash map. -/
def drainMailboxes (order : KeyOrder Id) (s : AsyncBusState) : List QueueRef × AsyncBusState :=
  ((order.keys s.mailboxes.keys).filterMap s.mailboxes.lookup,
    { s with topicMembers := ∅, admissionStarts := ∅, mailboxes := ∅ })

/-! ### What is registered -/

theorem removeMailboxIfSame_spec (s : AsyncBusState) (id : Id) (topic : TopicAddress)
    (mailbox : QueueRef) :
    (s.removeMailboxIfSame id topic mailbox).2.closed = s.closed ∧
      ∀ id' q, (s.removeMailboxIfSame id topic mailbox).2.mailboxes.lookup id' = some q →
        s.mailboxes.lookup id' = some q := by
  have herase : ∀ id' q, (s.mailboxes.erase id).lookup id' = some q →
      s.mailboxes.lookup id' = some q := by
    intro id' q h
    rw [Map.lookup_erase_eq] at h
    split at h
    · cases h
    · exact h
  simp only [removeMailboxIfSame]
  split
  · split
    · exact ⟨rfl, herase⟩
    · split <;> exact ⟨rfl, herase⟩
  · exact ⟨rfl, fun _ _ h => h⟩

theorem removeMailboxIfSame_outcome (s : AsyncBusState) (id : Id) (topic : TopicAddress)
    (mailbox : QueueRef) : (s.removeMailboxIfSame id topic mailbox).2.outcome = s.outcome := by
  simp only [removeMailboxIfSame]
  split
  · split
    · rfl
    · split <;> rfl
  · rfl

theorem publishMailboxesForTopic_spec (s : AsyncBusState) (topic : TopicAddress) :
    (s.publishMailboxesForTopic topic).2.closed = s.closed ∧
      (s.publishMailboxesForTopic topic).2.mailboxes = s.mailboxes := by
  unfold publishMailboxesForTopic
  split <;> exact ⟨rfl, rfl⟩

theorem publishMailboxesForTopic_outcome (s : AsyncBusState) (topic : TopicAddress) :
    (s.publishMailboxesForTopic topic).2.outcome = s.outcome := by
  unfold publishMailboxesForTopic
  split <;> rfl

/-- An iteration over the mailboxes visits the registered ones. -/
theorem mem_mailboxes (s : AsyncBusState) (order : KeyOrder Id) (q : QueueRef) :
    q ∈ (order.keys s.mailboxes.keys).filterMap s.mailboxes.lookup ↔
      ∃ id, s.mailboxes.lookup id = some q := by
  rw [List.mem_filterMap]
  constructor
  · rintro ⟨id, -, h⟩
    exact ⟨id, h⟩
  · rintro ⟨id, h⟩
    exact ⟨id, (order.mem_keys _ _).2 (Finmap.mem_keys.2 (Map.mem_of_lookup h)), h⟩

end AsyncBusState

end EventBus.Local
