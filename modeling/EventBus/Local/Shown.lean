import EventBus.Local.Directory

/-!
# The routing tables show directories

`BusState.Shows` and `AsyncBusState.Shows` relate the tables of the two providers to the directory
they stand for. Each operation on a table is shown to be one on the directory.
-/

namespace EventBus.Local

open Lib

variable {topic : TopicAddress} {q : QueueRef} {id : Id}

/-! ## The synchronous provider -/

def Ring.bucket (r : Ring) : TopicSubscriptions := ⟨r.members, some r.payloadType, r.cursor⟩

namespace BusState

variable {live : QueueRef → Bool} {r : Ring}

/-- The buckets are the rings of the directory, and the ids those that are in use. -/
structure Shows (s : BusState) (d : Directory) : Prop where
  topics : ∀ topic, s.topics.lookup topic = (d.ring topic).map Ring.bucket
  ids : ∀ id, id ∈ s.subscriptionIds ↔ d.Has id

theorem shows_default : Shows .default .empty :=
  ⟨fun _ => rfl, fun _ => ⟨fun h => absurd h (Finset.notMem_empty _),
    fun ⟨_, _, h, _⟩ => nomatch h⟩⟩

variable {s : BusState} {d : Directory}

/-- A bucket is put back, or goes if it is empty. -/
def putBack (topics : Map TopicAddress TopicSubscriptions) (topic : TopicAddress)
    (b : TopicSubscriptions) : Map TopicAddress TopicSubscriptions :=
  if b.queues.isEmpty then topics.erase topic else topics.insert topic b

theorem lookup_putBack_ne {topics : Map TopicAddress TopicSubscriptions} {t : TopicAddress}
    (h : t ≠ topic) (b : TopicSubscriptions) :
    (putBack topics topic b).lookup t = topics.lookup t := by
  unfold putBack
  split
  · exact Finmap.lookup_erase_ne h
  · exact Finmap.lookup_insert_of_ne _ h

/-- Members have left the bucket that is put back. -/
theorem Shows.put_back (h : s.Shows d) (hr : d.ring topic = some r) {p : Id × QueueRef → Bool}
    {b : TopicSubscriptions} (hq : b.queues = r.members.filter p)
    (ht : b.queues.isEmpty = false → b.payloadTypeId = some r.payloadType)
    (hc : b.lastAdmissionStart = r.cursor) (t : TopicAddress) :
    (putBack s.topics topic b).lookup t = ((d.keep topic p).ring t).map Ring.bucket := by
  simp only [Directory.keep]
  by_cases htopic : t = topic
  · subst htopic
    rw [if_pos rfl, hr, Option.bind_some]
    unfold putBack
    cases hk : r.keep p with
    | none =>
      have hempty : b.queues.isEmpty = true := by simp [hq, Ring.keep_eq_none.1 hk]
      rw [if_pos hempty, Finmap.lookup_erase, Option.map_none]
    | some r' =>
      obtain ⟨hm', ht', hc'⟩ := Ring.keep_eq_some hk
      have hne : b.queues.isEmpty = false := List.isEmpty_eq_false_iff.2 (hq ▸ hm' ▸ r'.nonempty)
      rw [hne, if_neg Bool.false_ne_true, Finmap.lookup_insert, Option.map_some]
      have hb : b = ⟨b.queues, b.payloadTypeId, b.lastAdmissionStart⟩ := rfl
      rw [hb, ht hne, hq, hc, Ring.bucket, hm', ht', hc']
  · rw [if_neg htopic, ← h.topics t, lookup_putBack_ne htopic]

/-- A topic without a ring has nobody who could leave. -/
theorem Shows.keep_none (h : s.Shows d) (hr : d.ring topic = none) (p : Id × QueueRef → Bool) :
    s.Shows (d.keep topic p) := by
  have hring : (d.keep topic p).ring = d.ring := by
    funext t
    simp only [Directory.keep]
    split
    · rename_i ht
      rw [ht, hr]
      rfl
    · rfl
  have hmembers : ∀ t, (d.keep topic p).members t = d.members t := fun t => by
    simp only [Directory.members, hring]
  refine ⟨fun t => ?_, fun id => ?_⟩
  · rw [hring]
    exact h.topics t
  · simp only [Directory.Has, hmembers]
    exact h.ids id

theorem liveQueuesForTopic_shows (h : s.Shows d) (live : QueueRef → Bool) (topic : TopicAddress) :
    (s.liveQueuesForTopic live topic).2.Shows (d.keep topic fun e => live e.2) ∧
      (s.liveQueuesForTopic live topic).1 = (d.members topic).filter fun e => live e.2 := by
  have htopic := h.topics topic
  unfold liveQueuesForTopic
  cases hr : d.ring topic with
  | none =>
    rw [hr, Option.map_none] at htopic
    rw [htopic]
    exact ⟨h.keep_none hr _, by simp [Directory.members, hr]⟩
  | some r =>
    rw [hr, Option.map_some] at htopic
    rw [htopic]
    have hm := Directory.members_of_ring hr
    refine ⟨⟨h.put_back hr rfl (fun hne => ?_) rfl, fun id => ?_⟩, by rw [hm]; rfl⟩
    · simp only [TopicSubscriptions.liveQueues] at hne ⊢
      rw [hne, if_neg Bool.false_ne_true]
      rfl
    · simp only [Finset.mem_sdiff, List.mem_toFinset, List.mem_map, List.mem_filter, h.ids id,
        Ring.bucket]
      constructor
      · rintro ⟨⟨t, e, he, rfl⟩, hdead⟩
        refine ⟨t, e, ?_, rfl⟩
        rw [Directory.keep_members]
        split
        · rename_i ht
          subst ht
          refine List.mem_filter.2 ⟨he, ?_⟩
          by_contra hnot
          exact hdead ⟨e, ⟨hm ▸ he, by simpa using hnot⟩, rfl⟩
        · exact he
      · rintro ⟨t, e, he, rfl⟩
        have he₀ := ((d.keep_shrunk topic _).members t).subset he
        refine ⟨⟨t, e, he₀, rfl⟩, ?_⟩
        -- a dead member of the same id would be this one
        rintro ⟨e', ⟨he', hdead⟩, hid⟩
        have ht := Directory.topic_eq he₀ (hm ▸ he' : e' ∈ d.members topic) hid.symm
        subst ht
        have heq := r.ascending.eq_of_fst he' (hm ▸ he₀) hid
        subst heq
        rw [Directory.keep_members, if_pos rfl] at he
        have hlive := (List.mem_filter.1 he).2
        rw [hlive] at hdead
        cases hdead

/-- A snapshot of all topics. -/
theorem liveQueues_shows (h : s.Shows d) (live : QueueRef → Bool) (order : KeyOrder TopicAddress) :
    ∃ d', (s.liveQueues live order).2.Shows d' ∧ d.Shrunk d' := by
  unfold liveQueues
  generalize order.keys s.topics.keys = topics
  generalize ([] : List (Id × QueueRef)) = queues
  induction topics generalizing queues s d with
  | nil => exact ⟨d, h, .refl d⟩
  | cons topic topics ih =>
    obtain ⟨d', h', hs⟩ := ih (liveQueuesForTopic_shows h live topic).1
      (queues ++ (s.liveQueuesForTopic live topic).1)
    exact ⟨d', h', (d.keep_shrunk topic _).trans hs⟩

theorem Shows.files (h : s.Shows d) : s.Files topic q ↔ ∃ id, (id, q) ∈ d.members topic := by
  simp only [Files, h.topics topic, Directory.mem_members]
  cases hr : d.ring topic with
  | none => simp
  | some r => simp [Ring.bucket]

/-- A snapshot of all topics prunes nothing. -/
theorem liveQueuesLoop_live (hlive : ∀ topic, ∀ e ∈ d.members topic, live e.2 = true)
    (topics : List TopicAddress) (queues : List (Id × QueueRef)) (h : s.Shows d) :
    (liveQueuesLoop live topics queues s).2.Shows d := by
  induction topics generalizing queues s with
  | nil => exact h
  | cons topic topics ih =>
    have hshow := (liveQueuesForTopic_shows h live topic).1
    rw [Directory.keep_all (hlive topic)] at hshow
    exact ih _ hshow

theorem liveQueues_mem (hlive : ∀ topic, ∀ e ∈ d.members topic, live e.2 = true)
    (order : KeyOrder TopicAddress) (h : s.Shows d) :
    q ∈ (s.liveQueues live order).1.map Prod.snd ↔ ∃ topic id, (id, q) ∈ d.members topic := by
  obtain ⟨-, -, hcovers, hfiled⟩ := s.liveQueues_spec live order
  constructor
  · intro hq
    obtain ⟨topic, hf⟩ := hfiled q hq
    exact ⟨topic, h.files.1 hf⟩
  · rintro ⟨topic, hm⟩
    exact hcovers topic q ((liveQueuesLoop_live hlive _ _ h).files.2 hm)

theorem get_bucket :
    r.bucket.get id = some q ↔ (id, q) ∈ r.members := by
  unfold TopicSubscriptions.get Ring.bucket
  rw [Option.map_eq_some_iff]
  constructor
  · rintro ⟨e, he, rfl⟩
    obtain rfl : e.1 = id := by simpa using List.find?_some he
    exact List.mem_of_find?_eq_some he
  · intro hm
    cases hf : r.members.find? fun e => decide (e.1 = id) with
    | none => exact absurd (List.find?_eq_none.1 hf _ hm) (by simp)
    | some e =>
      have hid : e.1 = id := by simpa using List.find?_some hf
      have heq := r.ascending.eq_of_fst (List.mem_of_find?_eq_some hf) hm hid
      exact ⟨e, rfl, by rw [heq]⟩

/-- What a look at the bucket of a topic finds under an id. -/
theorem Shows.any_get (h : s.Shows d) (topic : TopicAddress) (id : Id) (p : QueueRef → Bool) :
    ((s.topics.lookup topic).any fun bucket => (bucket.get id).any p) = true ↔
      ∃ q, (id, q) ∈ d.members topic ∧ p q = true := by
  rw [h.topics topic]
  cases hr : d.ring topic with
  | none => simp [Directory.members, hr]
  | some r =>
    rw [Option.map_some, Option.any_some, Directory.members_of_ring hr]
    cases hg : r.bucket.get id with
    | none =>
      refine iff_of_false (by simp) ?_
      rintro ⟨q, hq, -⟩
      rw [get_bucket.2 hq] at hg
      cases hg
    | some q =>
      rw [Option.any_some]
      constructor
      · exact fun hp => ⟨q, get_bucket.1 hg, hp⟩
      · rintro ⟨q', hq', hp⟩
        rw [get_bucket.2 hq'] at hg
        cases hg
        exact hp

/-- The ids in use when those with the id `id` leave a topic that has it. -/
theorem has_keep_ne (hid : ∃ q, (id, q) ∈ d.members topic) (i : Id) :
    (d.keep topic fun e => decide (e.1 ≠ id)).Has i ↔ i ≠ id ∧ d.Has i := by
  obtain ⟨q, hq⟩ := hid
  constructor
  · rintro ⟨t, e, he, rfl⟩
    have he₀ := ((d.keep_shrunk topic _).members t).subset he
    refine ⟨fun heq => ?_, t, e, he₀, rfl⟩
    have ht : t = topic := Directory.topic_eq he₀ hq heq
    rw [Directory.keep_members, if_pos ht] at he
    simpa [heq] using (List.mem_filter.1 he).2
  · rintro ⟨hne, t, e, he, rfl⟩
    refine ⟨t, e, ?_, rfl⟩
    rw [Directory.keep_members]
    split
    · exact List.mem_filter.2 ⟨he, by simpa using hne⟩
    · exact he

theorem removeStaleId_shows (h : s.Shows d) (live : QueueRef → Bool) (order : KeyOrder TopicAddress)
    (hhas : d.Has id) (hdead : ∀ topic q, (id, q) ∈ d.members topic → live q = false) :
    ∃ d', (s.removeStaleId live order id).Shows d' ∧ d.Shrunk d' ∧ ¬ d'.Has id := by
  obtain ⟨topic, ⟨_, q⟩, hq, rfl⟩ := hhas
  rename_i id
  change (id, q) ∈ d.members topic at hq
  obtain ⟨r, hr, hqr⟩ := Directory.mem_members.1 hq
  have hstale : ∀ t, ((s.topics.lookup t).any fun bucket => isStaleIn live bucket id) = true ↔
      t = topic := by
    intro t
    unfold isStaleIn
    rw [h.any_get]
    constructor
    · rintro ⟨q', hq', -⟩
      exact Directory.topic_eq hq' hq rfl
    · rintro rfl
      exact ⟨q, hq, by rw [hdead t q hq]; rfl⟩
  have htopic : s.topics.lookup topic = some r.bucket := by rw [h.topics, hr, Option.map_some]
  -- only the bucket of the id is found
  have hfind : ((order.keys s.topics.keys).find? fun t =>
      (s.topics.lookup t).any fun bucket => isStaleIn live bucket id) = some topic := by
    cases hf : (order.keys s.topics.keys).find? fun t =>
        (s.topics.lookup t).any fun bucket => isStaleIn live bucket id with
    | none =>
      have hmem : topic ∈ order.keys s.topics.keys :=
        (order.mem_keys _ _).2 (Finmap.mem_keys.2 (Map.mem_of_lookup htopic))
      exact absurd ((hstale topic).2 rfl) (List.find?_eq_none.1 hf topic hmem)
    | some t =>
      have hp := List.find?_some hf
      rw [(hstale t).1 hp]
  refine ⟨d.keep topic fun e => decide (e.1 ≠ id), ⟨fun t => ?_, fun i => ?_⟩, d.keep_shrunk _ _,
    fun hhas => ((has_keep_ne ⟨q, hq⟩ id).1 hhas).1 rfl⟩
  · simp only [removeStaleId, hfind, htopic]
    generalize hb : ({ r.bucket with
      queues := r.bucket.queues.filter fun entry => decide (entry.1 ≠ id)
      payloadTypeId := if (r.bucket.queues.filter fun entry => decide (entry.1 ≠ id)).isEmpty
        then none else r.bucket.payloadTypeId } : TopicSubscriptions) = b
    have hq : b.queues = r.members.filter fun e => decide (e.1 ≠ id) := by rw [← hb]; rfl
    have hback := h.put_back hr hq (fun hne => by
      rw [hq] at hne
      rw [← hb]
      simp only [Ring.bucket, hne, Bool.false_eq_true, if_false]) (by rw [← hb]; rfl) t
    rw [← hback]
    -- empty buckets go, and the others are not empty
    refine Option.ext fun b' => ?_
    rw [Map.lookup_retain, Map.lookup_insert_eq]
    by_cases ht : t = topic
    · subst ht
      rw [if_pos rfl]
      unfold putBack
      cases hempty : b.queues.isEmpty with
      | true =>
        rw [if_pos rfl, Finmap.lookup_erase]
        refine ⟨fun ⟨heq, hne⟩ => ?_, fun hf => nomatch hf⟩
        cases heq
        rw [hempty] at hne
        cases hne
      | false =>
        rw [if_neg Bool.false_ne_true, Finmap.lookup_insert]
        refine ⟨fun hb' => hb'.1, fun hb' => ⟨hb', ?_⟩⟩
        cases hb'
        rw [hempty]
        rfl
    · rw [if_neg ht, lookup_putBack_ne ht]
      refine ⟨fun hb' => hb'.1, fun hb' => ⟨hb', ?_⟩⟩
      rw [h.topics t] at hb'
      obtain ⟨r', -, rfl⟩ := Option.map_eq_some_iff.1 hb'
      simpa [Ring.bucket] using r'.nonempty
  · simp only [removeStaleId, Finset.mem_erase, h.ids i]
    exact (has_keep_ne ⟨q, hq⟩ i).symm

theorem register_shows (h : s.Shows d) {type : TypeId} (hid : ¬ d.Has id) :
    (s.register topic id q type).Shows (d.join topic id q type hid) := by
  refine ⟨fun t => ?_, fun i => ?_⟩
  · simp only [register, Directory.join, Map.lookup_insert_eq]
    split
    · rw [h.topics topic, Option.map_some]
      have hold : (((d.ring topic).map Ring.bucket).getD .default).queues = d.members topic ∧
          (((d.ring topic).map Ring.bucket).getD .default).lastAdmissionStart =
            (d.ring topic).bind Ring.cursor := by
        unfold Directory.members
        cases d.ring topic <;> exact ⟨rfl, rfl⟩
      rw [hold.1, hold.2]
      rfl
    · exact h.topics t
  · simp only [register, Finset.mem_insert, h.ids i]
    constructor
    · rintro (rfl | ⟨t, e, he, rfl⟩)
      · exact ⟨topic, (i, q), (Directory.mem_join hid).2 (.inl ⟨rfl, rfl⟩), rfl⟩
      · exact ⟨t, e, (Directory.mem_join hid).2 (.inr he), rfl⟩
    · rintro ⟨t, e, he, rfl⟩
      obtain ⟨-, rfl⟩ | he := (Directory.mem_join hid).1 he
      · exact .inl rfl
      · exact .inr ⟨t, e, he, rfl⟩

/-- The property of all members but a queue that closes. -/
def others (live : QueueRef → Bool) (id : Id) (q : QueueRef) (e : Id × QueueRef) : Bool :=
  !(decide (e = (id, q)) && live q)

theorem others_of_mem (hf : (id, q) ∈ r.members ∧ live q = true) {e : Id × QueueRef}
    (he : e ∈ r.members) : others live id q e = decide (e.1 ≠ id) := by
  rw [others, hf.2, Bool.and_true, ← decide_not, decide_eq_decide]
  -- the id is in the ring once
  exact not_congr ⟨fun heq => by rw [heq], fun heq => r.ascending.eq_of_fst he hf.1 heq⟩

theorem others_of_not (hf : ¬ ((id, q) ∈ r.members ∧ live q = true)) {e : Id × QueueRef}
    (he : e ∈ r.members) : others live id q e = true := by
  rw [others, Bool.not_eq_true', Bool.and_eq_false_iff, decide_eq_false_iff_not]
  by_contra hcon
  push Not at hcon
  exact hf ⟨hcon.1 ▸ he, by simpa using hcon.2⟩

theorem remove_bucket (r : Ring) (live : QueueRef → Bool) (id : Id) (q : QueueRef) :
    ((r.bucket.remove live id q).1 = true ↔ (id, q) ∈ r.members ∧ live q = true) ∧
      (r.bucket.remove live id q).2.queues = r.members.filter (others live id q) := by
  have hfound : ((r.bucket.get id).any fun current => live current && current == q) = true ↔
      (id, q) ∈ r.members ∧ live q = true := by
    rw [Option.any_eq_true]
    constructor
    · rintro ⟨current, hg, hc⟩
      rw [Bool.and_eq_true] at hc
      obtain rfl := eq_of_beq hc.2
      exact ⟨get_bucket.1 hg, hc.1⟩
    · rintro ⟨hm, hl⟩
      exact ⟨q, get_bucket.2 hm, by simp [hl]⟩
  refine ⟨hfound, ?_⟩
  simp only [TopicSubscriptions.remove]
  by_cases hf : (id, q) ∈ r.members ∧ live q = true
  · rw [if_pos (hfound.2 hf)]
    exact List.filter_congr fun e he => (others_of_mem hf he).symm
  · rw [if_neg fun hc => hf (hfound.1 hc)]
    exact (List.filter_eq_self.2 fun e he => others_of_not hf he).symm

/-- A closing queue leaves, and nobody else. -/
theorem unregister_shows (h : s.Shows d) (live : QueueRef → Bool) (topic : TopicAddress) (id : Id)
    (q : QueueRef) :
    (s.unregister live topic id q).Shows (d.keep topic (others live id q)) := by
  have htopic := h.topics topic
  unfold unregister
  cases hr : d.ring topic with
  | none =>
    rw [hr, Option.map_none] at htopic
    rw [htopic]
    exact h.keep_none hr _
  | some r =>
    rw [hr, Option.map_some] at htopic
    obtain ⟨hfound, hq⟩ := remove_bucket r live id q
    have hm := Directory.members_of_ring hr
    rw [htopic]
    refine ⟨h.put_back hr hq (fun hne => ?_) rfl, fun i => ?_⟩
    · simp only [TopicSubscriptions.remove] at hne ⊢
      rw [hne, if_neg Bool.false_ne_true]
      rfl
    · simp only
      by_cases hf : (id, q) ∈ r.members ∧ live q = true
      · have hsame : ∀ t, (d.keep topic (others live id q)).members t =
            (d.keep topic fun e => decide (e.1 ≠ id)).members t := by
          intro t
          rw [Directory.keep_members, Directory.keep_members]
          split
          · rename_i ht
            rw [ht, hm]
            exact List.filter_congr fun e he => others_of_mem hf he
          · rfl
        rw [if_pos (hfound.2 hf), Finset.mem_erase, h.ids i]
        simp only [Directory.Has, hsame]
        exact (has_keep_ne ⟨q, Directory.mem_members.2 ⟨r, hr, hf.1⟩⟩ i).symm
      · have hsame : ∀ t, (d.keep topic (others live id q)).members t = d.members t := by
          intro t
          rw [Directory.keep_members]
          split
          · rename_i ht
            rw [ht, hm]
            exact List.filter_eq_self.2 fun e he => others_of_not hf he
          · rfl
        rw [if_neg fun hc => hf (hfound.1 hc), h.ids i]
        simp only [Directory.Has, hsame]

/-- The rotation of a publication. -/
theorem rotate_shows (h : s.Shows d) (hr : d.ring topic = some r) :
    (r.bucket.rotatePublishQueues r.members).1 = d.order topic ∧
      { s with topics :=
        s.topics.insert topic (r.bucket.rotatePublishQueues r.members).2 }.Shows
          (d.turn topic) := by
  have hne : r.members.isEmpty = false := List.isEmpty_eq_false_iff.2 r.nonempty
  unfold TopicSubscriptions.rotatePublishQueues
  rw [hne, if_neg Bool.false_ne_true]
  refine ⟨by rw [Directory.order, hr]; rfl, fun t => ?_, fun id => ?_⟩
  · simp only [Map.lookup_insert_eq, Directory.turn]
    split
    · rename_i ht
      rw [ht, hr]
      rfl
    · exact h.topics t
  · simp only [Directory.Has, Directory.turn_members]
    exact h.ids id

end BusState

/-! ## The asynchronous provider -/

namespace AsyncBusState

/-- The index has the ids of the rings, the mailboxes are their members, and the starts their
cursors. -/
structure Shows (s : AsyncBusState) (d : Directory) : Prop where
  members : ∀ topic, s.topicMembers.lookup topic =
    (d.ring topic).map fun r => r.members.map fun e => (e.1, ())
  mailboxes : ∀ id q, s.mailboxes.lookup id = some q ↔ ∃ topic, (id, q) ∈ d.members topic
  starts : ∀ topic, s.admissionStarts.lookup topic = (d.ring topic).bind Ring.cursor

/-- The payload types are those of the rings. This is so whenever the registry is not locked. -/
def Types (s : AsyncBusState) (d : Directory) : Prop :=
  ∀ topic, s.payloadTypes.lookup topic = (d.ring topic).map Ring.payloadType

theorem shows_default : Shows .default .empty :=
  ⟨fun _ => rfl, fun _ _ => ⟨fun h => (nomatch h), fun ⟨_, h⟩ => nomatch h⟩, fun _ => rfl⟩

variable {s : AsyncBusState} {d : Directory}

theorem Shows.lookup_eq_none (h : s.Shows d) : s.mailboxes.lookup id = none ↔ ¬ d.Has id := by
  rw [Option.eq_none_iff_forall_ne_some]
  constructor
  · rintro hnone ⟨topic, ⟨_, q⟩, he, rfl⟩
    exact hnone q ((h.mailboxes _ q).2 ⟨topic, he⟩)
  · intro hnot q hq
    obtain ⟨topic, he⟩ := (h.mailboxes id q).1 hq
    exact hnot ⟨topic, _, he, rfl⟩

theorem mailboxesForTopic_eq (h : s.Shows d) (topic : TopicAddress) :
    s.mailboxesForTopic topic = d.members topic := by
  unfold mailboxesForTopic
  rw [h.members topic]
  cases hr : d.ring topic with
  | none => simp [Directory.members, hr]
  | some r =>
    rw [Option.map_some, Option.getD_some, List.filterMap_map, Directory.members_of_ring hr]
    -- each member of the ring has its mailbox
    refine (List.filterMap_congr fun e he => ?_).trans List.filterMap_some
    have hlookup : s.mailboxes.lookup e.1 = some e.2 :=
      (h.mailboxes e.1 e.2).2 ⟨topic, Directory.mem_members.2 ⟨r, hr, he⟩⟩
    simp [hlookup]

theorem publishMailboxesForTopic_shows (h : s.Shows d) (topic : TopicAddress) :
    (s.publishMailboxesForTopic topic).1 = d.order topic ∧
      (s.publishMailboxesForTopic topic).2.Shows (d.turn topic) := by
  have hm := mailboxesForTopic_eq h topic
  unfold publishMailboxesForTopic
  cases hr : d.ring topic with
  | none =>
    have hnil : d.members topic = [] := by simp [Directory.members, hr]
    rw [hm, hnil]
    have hring : (d.turn topic).ring = d.ring := by
      funext t
      simp only [Directory.turn]
      split
      · rename_i ht
        rw [ht, hr]
        rfl
      · rfl
    refine ⟨by simp [Directory.order, hr], fun t => ?_, fun id q => ?_, fun t => ?_⟩
    · rw [hring]
      exact h.members t
    · simp only [Directory.turn_members]
      exact h.mailboxes id q
    · rw [hring]
      exact h.starts t
  | some r =>
    rw [hm, Directory.members_of_ring hr]
    have hne := r.nonempty
    have hstart :
        s.admissionStarts.lookup topic = r.cursor := by rw [h.starts, hr, Option.bind_some]
    have horder : d.order topic = r.order := by rw [Directory.order, hr, Option.elim_some]
    obtain ⟨first, hfirst⟩ : ∃ first, r.order.head? = some first := by
      cases ho : r.order with
      | nil => exact absurd (List.Perm.nil_eq (ho ▸ r.order_turned.perm)).symm hne
      | cons first rest => exact ⟨first, rfl⟩
    split
    · rename_i hnil
      exact absurd hnil hne
    · rename_i e es hes
      simp only [← hes, hstart]
      rw [horder]
      refine ⟨rfl, fun t => ?_, fun id q => ?_, fun t => ?_⟩
      · simp only [h.members t, Directory.turn]
        split
        · rename_i ht
          rw [ht, hr]
          rfl
        · rfl
      · simp only [Directory.turn_members]
        exact h.mailboxes id q
      · have hhead : (r.members.rotateLeft (rotationStart r.cursor r.members)).head? = some first :=
          hfirst
        simp only [hhead, Option.elim_some, Map.lookup_insert_eq, Directory.turn]
        split
        · rename_i ht
          rw [ht, hr, Option.map_some, Option.bind_some, Ring.turn, hfirst, Option.map_some]
        · exact h.starts t

theorem insertMailbox_shows (h : s.Shows d) (q : QueueRef) (type : TypeId) (hid : ¬ d.Has id) :
    ∃ s', s.insertMailbox id topic q = some s' ∧ s'.Shows (d.join topic id q type hid) ∧
      s'.payloadTypes = s.payloadTypes := by
  unfold insertMailbox
  rw [h.lookup_eq_none.2 hid]
  refine ⟨_, rfl, ⟨fun t => ?_, fun i p => ?_, fun t => ?_⟩, rfl⟩
  · simp only [Map.lookup_insert_eq, Directory.join]
    split
    · rename_i ht
      -- inserting an id commutes with forgetting the queues
      have hmap : ∀ entries : List (Id × QueueRef),
          insertById id () (entries.map fun e => (e.1, ())) =
            (insertById id q entries).map fun e => (e.1, ()) := by
        intro entries
        induction entries with
        | nil => rfl
        | cons e entries ih =>
          simp only [insertById, List.map_cons, ih]
          split
          · rfl
          · split <;> rfl
      rw [h.members topic, Option.map_some]
      congr 1
      unfold Directory.joined Directory.members
      simp only [← hmap]
      cases d.ring topic <;> rfl
    · exact h.members t
  · simp only [Map.lookup_insert_eq, Directory.mem_join hid]
    split
    · rename_i hi
      subst hi
      constructor
      · intro heq
        cases heq
        exact ⟨topic, .inl ⟨rfl, rfl⟩⟩
      · rintro ⟨t, ⟨-, heq⟩ | he⟩
        · rw [(Prod.mk.inj heq).2]
        · exact absurd ⟨t, _, he, rfl⟩ hid
    · rename_i hi
      rw [h.mailboxes i p]
      constructor
      · rintro ⟨t, he⟩
        exact ⟨t, .inr he⟩
      · rintro ⟨t, ⟨-, heq⟩ | he⟩
        · exact absurd (Prod.mk.inj heq).1 hi
        · exact ⟨t, he⟩
  · simp only [Directory.join]
    rw [h.starts t]
    split
    · rename_i ht
      rw [ht]
      rfl
    · rfl

theorem insertMailbox_taken (h : s.Shows d) (q : QueueRef) (hid : d.Has id) :
    s.insertMailbox id topic q = none := by
  unfold insertMailbox
  cases hl : s.mailboxes.lookup id with
  | none => exact absurd hid (h.lookup_eq_none.1 hl)
  | some q => rfl

/-- A closing mailbox leaves, and nobody else. -/
theorem removeMailboxIfSame_shows (h : s.Shows d) (hq : ∀ t, (id, q) ∈ d.members t → t = topic) :
    (s.removeMailboxIfSame id topic q).2.Shows (d.keep topic fun e => decide (e ≠ (id, q))) ∧
      ((s.removeMailboxIfSame id topic q).1 = true ↔ (id, q) ∈ d.members topic) ∧
      (s.removeMailboxIfSame id topic q).2.payloadTypes = s.payloadTypes := by
  have hlookup : s.mailboxes.lookup id = some q ↔ (id, q) ∈ d.members topic := by
    rw [h.mailboxes id q]
    refine ⟨?_, fun he => ⟨topic, he⟩⟩
    rintro ⟨t, he⟩
    exact hq t he ▸ he
  unfold removeMailboxIfSame
  by_cases hf : (id, q) ∈ d.members topic
  · rw [if_pos (hlookup.2 hf)]
    obtain ⟨r, hr, hqr⟩ := Directory.mem_members.1 hf
    have htopic : s.topicMembers.lookup topic = some (r.members.map fun e => (e.1, ())) := by
      rw [h.members, hr, Option.map_some]
    -- the members that stay, without their queues
    have hfilter : (r.members.map fun e => (e.1, ())).filter (fun e => decide (e.1 ≠ id)) =
        (r.members.filter fun e => decide (e ≠ (id, q))).map fun e => (e.1, ()) := by
      rw [List.filter_map]
      congr 1
      refine List.filter_congr fun e he => decide_eq_decide.2 (not_congr ?_)
      exact ⟨fun heq => r.ascending.eq_of_fst he hqr heq, fun heq => by rw [heq]⟩
    have hboxes : ∀ i p, (s.mailboxes.erase id).lookup i = some p ↔
        ∃ t, (i, p) ∈ (d.keep topic fun e => decide (e ≠ (id, q))).members t := by
      intro i p
      rw [Map.lookup_erase_eq]
      split
      · rename_i hi
        subst hi
        refine iff_of_false (by simp) ?_
        rintro ⟨t, he⟩
        have he₀ := ((d.keep_shrunk topic _).members t).subset he
        have ht := Directory.topic_eq he₀ hf rfl
        rw [Directory.keep_members, if_pos ht] at he
        rw [ht] at he₀
        have heq := (d.members_ascending topic).eq_of_fst he₀ hf rfl
        simp [heq] at he
      · rename_i hi
        rw [h.mailboxes i p]
        constructor
        · rintro ⟨t, he⟩
          refine ⟨t, ?_⟩
          rw [Directory.keep_members]
          split
          · exact List.mem_filter.2 ⟨he, by simp [hi]⟩
          · exact he
        · rintro ⟨t, he⟩
          exact ⟨t, ((d.keep_shrunk topic _).members t).subset he⟩
    simp only [htopic, hfilter]
    cases hk : r.keep fun e => decide (e ≠ (id, q)) with
    | none =>
      rw [Ring.keep_eq_none.1 hk, List.map_nil, List.isEmpty_nil, if_pos rfl]
      refine ⟨⟨fun t => ?_, hboxes, fun t => ?_⟩, ⟨fun _ => hf, fun _ => rfl⟩, rfl⟩ <;>
      · simp only [Map.lookup_erase_eq, Directory.keep]
        split
        · rename_i ht
          rw [ht, hr, Option.bind_some, hk]
          rfl
        · first | exact h.members t | exact h.starts t
    | some r' =>
      obtain ⟨hm', ht', hc'⟩ := Ring.keep_eq_some hk
      have hne : ((r.members.filter fun e => decide (e ≠ (id, q))).map
          fun e => (e.1, ())).isEmpty = false := by
        rw [List.isEmpty_eq_false_iff, Ne, List.map_eq_nil_iff, ← hm']
        exact r'.nonempty
      rw [hne, if_neg Bool.false_ne_true]
      refine ⟨⟨fun t => ?_, hboxes, fun t => ?_⟩, ⟨fun _ => hf, fun _ => rfl⟩, rfl⟩
      · simp only [Map.lookup_insert_eq, Directory.keep]
        split
        · rename_i ht
          rw [ht, hr, Option.bind_some, hk, Option.map_some, hm']
        · exact h.members t
      · simp only [Directory.keep]
        rw [h.starts t]
        split
        · rename_i ht
          rw [ht, hr, Option.bind_some, Option.bind_some, hk, Option.bind_some, hc']
        · rfl
  · rw [if_neg fun hc => hf (hlookup.1 hc)]
    -- nobody leaves
    have hring : ∀ t, (d.keep topic fun e => decide (e ≠ (id, q))).ring t = d.ring t := by
      intro t
      simp only [Directory.keep]
      split
      · rename_i ht
        rw [ht]
        cases hr : d.ring topic with
        | none => rfl
        | some r =>
          refine Ring.keep_all fun e he => ?_
          rw [decide_eq_true_eq]
          exact fun heq => hf (Directory.mem_members.2 ⟨r, hr, heq ▸ he⟩)
      · rfl
    have hmembers : ∀ t, (d.keep topic fun e => decide (e ≠ (id, q))).members t = d.members t :=
      fun t => by simp only [Directory.members, hring]
    refine ⟨⟨fun t => hring t ▸ h.members t, fun i p => ?_, fun t => hring t ▸ h.starts t⟩,
      iff_of_false (by simp) hf, rfl⟩
    simp only [hmembers]
    exact h.mailboxes i p

theorem Shows.hasTopic (h : s.Shows d) (topic : TopicAddress) :
    s.hasTopic topic = (d.ring topic).isSome := by
  unfold AsyncBusState.hasTopic
  rw [h.members topic]
  cases hr : d.ring topic with
  | none => rfl
  | some r =>
    have hne : (r.members.map fun e => (e.1, ())).isEmpty = false := by
      rw [List.isEmpty_eq_false_iff, Ne, List.map_eq_nil_iff]
      exact r.nonempty
    rw [Option.map_some, Option.any_some, hne]
    rfl

/-! ### The types of the topics -/

theorem Types.turn (h : s.Types d) (topic : TopicAddress) :
    (s.publishMailboxesForTopic topic).2.Types (d.turn topic) := by
  intro t
  have hsame : (s.publishMailboxesForTopic topic).2.payloadTypes = s.payloadTypes := by
    unfold publishMailboxesForTopic
    split <;> rfl
  rw [hsame, h t]
  simp only [Directory.turn]
  split
  · cases d.ring t <;> rfl
  · rfl

theorem Types.join (h : s.Types d) {s' : AsyncBusState} (hs : s'.payloadTypes = s.payloadTypes)
    {type : TypeId} (hid : ¬ d.Has id) :
    { s' with payloadTypes := s'.payloadTypes.insert topic type }.Types
      (d.join topic id q type hid) := by
  intro t
  rw [hs, Map.lookup_insert_eq, h t]
  simp only [Directory.join]
  split <;> rfl

/-- The topic loses its type with its last member. -/
theorem Types.leave (ht : s.Types d) (hd : s.Shows d)
    (hq : ∀ t, (id, q) ∈ d.members t → t = topic) :
    let r := s.removeMailboxIfSame id topic q
    { r.2 with payloadTypes := if r.1 && !r.2.hasTopic topic then r.2.payloadTypes.erase topic
      else r.2.payloadTypes }.Types (d.keep topic fun e => decide (e ≠ (id, q))) := by
  obtain ⟨hshow, hremoved, hkept⟩ := removeMailboxIfSame_shows hd hq
  generalize hd' : (d.keep topic fun e => decide (e ≠ (id, q))) = d' at hshow
  have hleave : d.Shrunk d' := hd' ▸ d.keep_shrunk _ _
  intro r t
  have hring : (d'.ring t).map Ring.payloadType =
      if t = topic ∧ (d'.ring topic).isNone then none else (d.ring t).map Ring.payloadType := by
    by_cases htopic : t = topic
    · subst htopic
      cases hr' : d'.ring t with
      | none => simp
      | some r' =>
        obtain ⟨r, hr, -, htype, -⟩ := hleave _ r' hr'
        simp [hr, htype]
    · rw [if_neg fun h => htopic h.1, ← hd']
      simp only [Directory.keep, if_neg htopic]
  rw [hring, hshow.hasTopic]
  simp only [r, hkept]
  cases hr' : d'.ring topic with
  | some r' => simp [ht t]
  | none =>
    by_cases hmem : (id, q) ∈ d.members topic
    · simp only [hremoved.2 hmem, Option.isSome_none, Bool.not_false, Bool.and_self, if_true,
        Map.lookup_erase_eq, Option.isNone_none, and_true]
      split
      · rfl
      · exact ht t
    · -- nobody has left, so the topic had no member before
      have hnone : d.ring topic = none := by
        cases hr : d.ring topic with
        | none => rfl
        | some r =>
          have hkeep : r.keep (fun e => decide (e ≠ (id, q))) = some r :=
            Ring.keep_all fun e he => by
              rw [decide_eq_true_eq]
              exact fun heq => hmem (Directory.mem_members.2 ⟨r, hr, heq ▸ he⟩)
          rw [← hd'] at hr'
          simp only [Directory.keep, if_true, hr, Option.bind_some, hkeep] at hr'
          cases hr'
      have hfalse : (s.removeMailboxIfSame id topic q).1 = false :=
        Bool.eq_false_iff.2 fun h => hmem (hremoved.1 h)
      rw [hfalse, Bool.false_and, if_neg Bool.false_ne_true, ht t]
      split
      · rename_i hboth
        rw [hboth.1, hnone]
        rfl
      · rfl

theorem drainMailboxes_shows (order : KeyOrder Id) :
    (s.drainMailboxes order).2.Shows .empty :=
  ⟨fun _ => rfl, fun _ _ => ⟨fun h => (nomatch h), fun ⟨_, h⟩ => nomatch h⟩, fun _ => rfl⟩

end AsyncBusState

end EventBus.Local
