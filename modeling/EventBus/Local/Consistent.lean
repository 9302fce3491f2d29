import EventBus.Local.RegistryRun

/-!
# The registries are consistent

In every interleaving of calls the tables of a registry agree with each other, a close takes nothing
but its own registration, and a queue gets only events of the type for which it was registered,
though ids are used again, dead entries stay behind, and publishers work with snapshots taken
earlier.

A cleanup of the asynchronous provider empties the index first and forgets the payload types at the
end. It holds the lock in between, so nobody can tell.
-/

namespace EventBus.Local

open Lib

/-- The table of the synchronous provider. -/
structure BusState.Consistent (s : BusState) : Prop where
  /-- The ids in use are the keys of the buckets. -/
  ids : ∀ id, id ∈ s.subscriptionIds ↔
    ∃ topic bucket, s.topics.lookup topic = some bucket ∧ ∃ q, (id, q) ∈ bucket.queues
  /-- An id is in one bucket, once. -/
  once : ∀ topic topic' bucket bucket' id q q', s.topics.lookup topic = some bucket →
    s.topics.lookup topic' = some bucket' → (id, q) ∈ bucket.queues → (id, q') ∈ bucket'.queues →
    topic = topic' ∧ q = q'
  typed : ∀ topic bucket, s.topics.lookup topic = some bucket →
    (bucket.payloadTypeId.isSome ↔ bucket.queues ≠ [])

/-- The tables of the asynchronous provider. -/
structure AsyncLocalShared.Consistent (s : AsyncLocalShared) : Prop where
  /-- The mailboxes are those of the ids in the index. -/
  indexed : ∀ id, (∃ q, s.state.mailboxes.lookup id = some q) ↔
    ∃ topic members, s.state.topicMembers.lookup topic = some members ∧ (id, ()) ∈ members
  /-- An id is in the index once. -/
  once : ∀ topic topic' members members' id, s.state.topicMembers.lookup topic = some members →
    s.state.topicMembers.lookup topic' = some members' → (id, ()) ∈ members → (id, ()) ∈ members' →
    topic = topic'
  nodup : ∀ topic members, s.state.topicMembers.lookup topic = some members → members.Nodup
  /-- It is there under the topic of its mailbox. -/
  filed : ∀ topic members id q, s.state.topicMembers.lookup topic = some members →
    (id, ()) ∈ members → s.state.mailboxes.lookup id = some q → s.store.filed q = some (id, topic)
  starts : ∀ topic id, s.state.admissionStarts.lookup topic = some id →
    ∃ members, s.state.topicMembers.lookup topic = some members ∧ members ≠ []
  /-- Whenever the registry is not locked. -/
  types : s.lock = none → ∀ topic type, s.state.payloadTypes.lookup topic = some type →
    ∃ members, s.state.topicMembers.lookup topic = some members ∧ members ≠ []

/-- A queue is registered once, and whatever was placed in it or is held by it has the type for
which it was registered. -/
structure TypeSafe (j : History) (store : Store) : Prop where
  once : ∀ i k q request request', (i, .registered q request) ∈ j →
    (k, .registered q request') ∈ j → request = request'
  placed : ∀ i q event, (i, .attempted q (some event)) ∈ j → Registered j q event.payload.typeId
  held : ∀ q, ∀ event ∈ store.heldAt q, Registered j q event.payload.typeId

section
variable {S Q C X B : Type}

/-- No step of a call that closes a receiver takes another queue from the registry, whatever its
id. -/
def ClosesOnlyItself (m : Machine S Q C Response X ProviderNote) (v : RegistryView S C B)
    (w : World S C Response) : Prop :=
  ∀ i x c q notes w', w.threads[i]? = some (.running c) → v.closes c = some q →
    m.move w (.step i x) = some (notes, w') →
    ∀ topic, ∀ e ∈ v.members w.shared topic, e.2 ≠ q → e ∈ v.members w'.shared topic

theorem Keeps.typeSafe {j : History} {store : Store} {d : Directory} (h : Keeps j store d) :
    TypeSafe j store := ⟨h.unique, h.placed, h.held⟩

theorem Shown.closes {v : RegistryView S C B} {s s' : S} {c : C} {d d' : Directory}
    {t : Thread C Response} {notes : List ProviderNote} (h : Shown v s c d s' t notes d')
    {q : QueueRef} (hq : v.closes c = some q) {topic : TopicAddress} {e : Id × QueueRef}
    (he : e ∈ d.members topic) (hne : e.2 ≠ q) : e ∈ d'.members topic := by
  cases h with
  | aside _ _ _ _ hcloses => exact hcloses q hq topic e he hne
  | stays => exact he
  | joins _ _ _ hnone =>
    rw [hnone] at hq
    cases hq
  | routes _ _ _ hnone =>
    rw [hnone] at hq
    cases hq
  | attempts | skips | acknowledges => exact he

/-- In every run the table agrees with itself as `consistent` says, if it does so whenever it shows
a directory. -/
theorem Routed.consistent {m : Machine S Q C Response X ProviderNote} {v : RegistryView S C B}
    (hm : Routed m v) {maxCount : Nat} {maxWeight : Option ℕ+}
    (hs : Staged m v.toView maxCount maxWeight) {s : S}
    (hacc : Accounted maxCount maxWeight (v.store s)) (hheld : ∀ q, (v.store s).heldAt q = 0)
    (hshow : v.shows s .empty) {consistent : S → Prop}
    (hcons : ∀ s d, v.shows s d →
      (∀ topic, ∀ e ∈ d.members topic, (v.store s).filed e.2 = some (e.1, topic)) → consistent s)
    (moves : List (Move Q X)) :
    ∃ w, m.reached (Machine.start s) moves = some w ∧ consistent w.shared ∧
      TypeSafe (history m v s moves) (v.store w.shared) ∧ ClosesOnlyItself m v w := by
  obtain ⟨w, d, hw, hacc, hd, hk, hthreads, -⟩ := hm.run hs hacc hheld hshow moves
  refine ⟨w, hw, hcons _ d hd hk.filed, hk.typeSafe, ?_⟩
  intro i x c q notes w' hc hq hmove topic e he hne
  obtain ⟨hrunning, -⟩ := hthreads i _ hc
  obtain ⟨hweighed, hown⟩ := hrunning c rfl
  obtain ⟨s', t, ns, heq, -⟩ := hs.step w.shared i c x hacc hweighed
  obtain ⟨⟨d', hd', hshown⟩, -, -⟩ := hm.step w.shared i c x d s' t ns hd hown hk.filed heq
  simp only [Machine.move, hc, heq, Option.map_some, Option.some.injEq, Prod.mk.injEq] at hmove
  obtain ⟨-, rfl⟩ := hmove
  rw [hm.members _ d topic hd] at he
  rw [hm.members _ d' topic hd']
  exact hshown.closes hq he hne

end

theorem BusState.Shows.consistent {s : BusState} {d : Directory} (h : s.Shows d) :
    s.Consistent := by
  have hbucket : ∀ {topic bucket}, s.topics.lookup topic = some bucket →
      ∃ r, d.ring topic = some r ∧ bucket = r.bucket := by
    intro topic bucket hb
    rw [h.topics topic] at hb
    obtain ⟨r, hr, rfl⟩ := Option.map_eq_some_iff.1 hb
    exact ⟨r, hr, rfl⟩
  refine ⟨fun id => ?_, fun topic topic' bucket bucket' id q q' hb hb' hq hq' => ?_,
    fun topic bucket hb => ?_⟩
  · rw [h.ids id]
    constructor
    · rintro ⟨topic, ⟨_, q⟩, he, rfl⟩
      obtain ⟨r, hr, he⟩ := Directory.mem_members.1 he
      exact ⟨topic, r.bucket, by rw [h.topics, hr, Option.map_some], q, he⟩
    · rintro ⟨topic, bucket, hb, q, hq⟩
      obtain ⟨r, hr, rfl⟩ := hbucket hb
      exact ⟨topic, (id, q), Directory.mem_members.2 ⟨r, hr, hq⟩, rfl⟩
  · obtain ⟨r, hr, rfl⟩ := hbucket hb
    obtain ⟨r', hr', rfl⟩ := hbucket hb'
    have ht : topic = topic' := d.once hr hr' hq hq' rfl
    subst ht
    rw [hr] at hr'
    cases hr'
    exact ⟨rfl, congrArg Prod.snd (r.ascending.eq_of_fst hq hq' rfl)⟩
  · obtain ⟨r, -, rfl⟩ := hbucket hb
    exact ⟨fun _ => r.nonempty, fun _ => rfl⟩

theorem AsyncLocalShared.consistent_of_shows {s : AsyncLocalShared} {d : Directory}
    (h : asyncRegistry.shows s d)
    (hfiled : ∀ topic, ∀ e ∈ d.members topic, s.store.filed e.2 = some (e.1, topic)) :
    s.Consistent := by
  obtain ⟨hs, htypes⟩ := h
  -- a list of the index comes from a ring
  have hmembers : ∀ {topic members}, s.state.topicMembers.lookup topic = some members →
      ∃ r, d.ring topic = some r ∧ members = r.members.map fun e => (e.1, ()) := by
    intro topic members hm
    rw [hs.members topic] at hm
    obtain ⟨r, hr, rfl⟩ := Option.map_eq_some_iff.1 hm
    exact ⟨r, hr, rfl⟩
  have hid : ∀ {id : Id} {r : Ring}, (id, ()) ∈ r.members.map (fun e => (e.1, ())) →
      ∃ q, (id, q) ∈ r.members := by
    intro id r hm
    obtain ⟨e, he, heq⟩ := List.mem_map.1 hm
    cases heq
    exact ⟨e.2, he⟩
  have hring : ∀ {topic r}, d.ring topic = some r →
      ∃ members, s.state.topicMembers.lookup topic = some members ∧ members ≠ [] := by
    intro topic r hr
    refine ⟨_, by rw [hs.members, hr, Option.map_some], ?_⟩
    rw [Ne, List.map_eq_nil_iff]
    exact r.nonempty
  refine ⟨fun id => ?_, fun topic topic' ms ms' id hm hm' hi hi' => ?_, fun topic ms hm => ?_,
    fun topic ms id q hm hi hq => ?_, fun topic id hstart => ?_, fun hfree topic type htype => ?_⟩
  · constructor
    · rintro ⟨q, hq⟩
      obtain ⟨topic, he⟩ := (hs.mailboxes id q).1 hq
      obtain ⟨r, hr, he⟩ := Directory.mem_members.1 he
      exact ⟨topic, _, by rw [hs.members, hr, Option.map_some], List.mem_map.2 ⟨_, he, rfl⟩⟩
    · rintro ⟨topic, ms, hm, hi⟩
      obtain ⟨r, hr, rfl⟩ := hmembers hm
      obtain ⟨q, hq⟩ := hid hi
      exact ⟨q, (hs.mailboxes id q).2 ⟨topic, Directory.mem_members.2 ⟨r, hr, hq⟩⟩⟩
  · obtain ⟨r, hr, rfl⟩ := hmembers hm
    obtain ⟨r', hr', rfl⟩ := hmembers hm'
    obtain ⟨q, hq⟩ := hid hi
    obtain ⟨q', hq'⟩ := hid hi'
    exact d.once hr hr' hq hq' rfl
  · obtain ⟨r, -, rfl⟩ := hmembers hm
    refine List.pairwise_map.2 (r.ascending.imp fun hlt heq => ?_)
    rw [(Prod.mk.inj heq).1] at hlt
    omega
  · obtain ⟨r, hr, rfl⟩ := hmembers hm
    obtain ⟨p, hp⟩ := hid hi
    have hlookup := (hs.mailboxes id p).2 ⟨topic, Directory.mem_members.2 ⟨r, hr, hp⟩⟩
    rw [hq] at hlookup
    cases hlookup
    exact hfiled topic _ (Directory.mem_members.2 ⟨r, hr, hp⟩)
  · rw [hs.starts topic] at hstart
    obtain ⟨r, hr, -⟩ := Option.bind_eq_some_iff.1 hstart
    exact hring hr
  · have ht := htypes.resolve_right fun hbad => by simp [hfree] at hbad
    rw [ht topic] at htype
    obtain ⟨r, hr, -⟩ := Option.map_eq_some_iff.1 htype
    exact hring hr

/-- **The registries are consistent** and the payloads safe, in all interleavings of calls. -/
theorem registries_consistent (maxInstant maxDuration foreign capacity maxCount : Nat)
    (maxWeight : Option ℕ+) (cells : List LocalSettlementState) :
    (∀ moves, ∃ w, (provider maxInstant foreign).reached
        (Machine.start (.new capacity maxCount maxWeight cells)) moves = some w ∧
      w.shared.state.Consistent ∧
      TypeSafe (history (provider maxInstant foreign) syncRegistry
        (.new capacity maxCount maxWeight cells) moves) w.shared.store ∧
      ClosesOnlyItself (provider maxInstant foreign) syncRegistry w) ∧
    ∀ moves, ∃ w, (asyncProvider maxInstant maxDuration foreign).reached
        (Machine.start (.new capacity maxCount maxWeight cells)) moves = some w ∧
      w.shared.Consistent ∧
      TypeSafe (history (asyncProvider maxInstant maxDuration foreign) asyncRegistry
        (.new capacity maxCount maxWeight cells) moves) w.shared.store ∧
      ClosesOnlyItself (asyncProvider maxInstant maxDuration foreign) asyncRegistry w := by
  constructor
  · exact (provider_routed maxInstant foreign).consistent
      (provider_staged maxInstant foreign maxCount maxWeight) (Accounted.new cells) (fun _ => rfl)
      (by exact BusState.shows_default) (fun _ _ h _ => BusState.Shows.consistent h)
  · exact (asyncProvider_routed maxInstant maxDuration foreign).consistent
      (asyncProvider_staged maxInstant maxDuration foreign maxCount maxWeight) (Accounted.new cells)
      (fun _ => rfl) ⟨AsyncBusState.shows_default, .inl fun _ => rfl⟩
      fun _ _ h hfiled => AsyncLocalShared.consistent_of_shows h hfiled

end EventBus.Local
