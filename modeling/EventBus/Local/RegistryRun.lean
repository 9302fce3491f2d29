import EventBus.Local.RegistrySteps

/-!
# Histories of the registries

What the observer of the registry has seen in a run, and what it says about the directory shown at
the end of it (`Keeps`): where the next publication to a topic begins, which queue was registered
for which type of payload, and that a subscription that is still there has been there since it was
first seen.
-/

namespace EventBus.Local

open Lib

variable {live : List (Id × QueueRef)} {q : QueueRef} {topic : TopicAddress} {store store' : Store}
  {queues : List QueueRef} {n : RegistryNote} {a : Itinerary} {d : Directory} {i k : Nat}

abbrev History := List (Nat × RegistryNote)

/-! ## Reading a history -/

/-- The subscription at which a publication began. -/
def startOf (live : List (Id × QueueRef)) (queues : List QueueRef) : Option (Id × QueueRef) :=
  queues.head?.bind fun q => live.find? fun e => e.2 = q

/-- Where the last valid publication to the topic began, if the topic has had subscriptions
since. -/
def previousStart (topic : TopicAddress) (j : History) : Option Id :=
  j.foldl (fun last n => match n.2 with
    | .vacated topics => if topic ∈ topics then none else last
    | .routed t live queues =>
      if t = topic then ((startOf live queues).map Prod.fst).or last else last
    | _ => last) none

/-- The queues the thread has come to, in order. -/
def attemptsOf (i : Nat) (j : History) : List QueueRef :=
  j.filterMap fun
    | (k, .attempted q _) => if k = i then some q else none
    | _ => none

/-- The subscription has been seen by every publication to its topic, which has not been without
subscriptions. -/
def Present (topic : TopicAddress) (e : Id × QueueRef) (j : History) : Prop :=
  ∀ n ∈ j, match n.2 with
    | .vacated topics => topic ∉ topics
    | .routed t live _ => t = topic → e ∈ live
    | _ => True

/-- Every publication comes to its destinations in a rotation of their order, which begins at the
one after its predecessor. -/
def Rotated (previous : TopicAddress → History → Option Id) (j : History) : Prop :=
  ∀ j₁ i topic live queues j₂, j = j₁ ++ (i, .routed topic live queues) :: j₂ →
    Ascending live ∧ ∃ order, TurnedTo (successor (previous topic j₁) live) live order ∧
      queues = order.map Prod.snd

/-- Whoever two publications to a topic have seen was there all the time between them. -/
def Steady (j : History) : Prop :=
  ∀ j₁ i topic live queues j₂ k live' queues' j₃,
    j = j₁ ++ (i, .routed topic live queues) :: (j₂ ++ (k, .routed topic live' queues') :: j₃) →
    ∀ e ∈ live, e ∈ live' → Present topic e j₂

variable {j : History}

theorem previousStart_append (j j' : History) :
    previousStart topic (j ++ j') = j'.foldl (fun last n => match n.2 with
      | .vacated topics => if topic ∈ topics then none else last
      | .routed t live queues =>
        if t = topic then ((startOf live queues).map Prod.fst).or last else last
      | _ => last) (previousStart topic j) := by
  unfold previousStart
  rw [List.foldl_append]

theorem attemptsOf_append (i : Nat) (j j' : History) :
    attemptsOf i (j ++ j') = attemptsOf i j ++ attemptsOf i j' := List.filterMap_append

/-- What another thread is seen to do. -/
theorem attemptsOf_others (h : k ≠ i) (notes : List RegistryNote) :
    attemptsOf i (notes.map (k, ·)) = [] := by
  unfold attemptsOf
  rw [List.filterMap_eq_nil_iff]
  intro n hn
  obtain ⟨note, -, rfl⟩ := List.mem_map.1 hn
  cases note <;> simp [h]

theorem Present.append {e : Id × QueueRef} {j' : History} (h : Present topic e j)
    (h' : Present topic e j') : Present topic e (j ++ j') := by
  intro n hn
  obtain hn | hn := List.mem_append.1 hn
  · exact h n hn
  · exact h' n hn

theorem Rotated.append {previous : TopicAddress → History → Option Id} (h : Rotated previous j)
    {n : Nat × RegistryNote}
    (hn : ∀ i topic live queues, n = (i, .routed topic live queues) →
      Ascending live ∧ ∃ order, TurnedTo (successor (previous topic j) live) live order ∧
        queues = order.map Prod.snd) : Rotated previous (j ++ [n]) := by
  intro j₁ i topic live queues j₂ heq
  obtain ⟨b, hj, -⟩ | ⟨a, rfl, hcons⟩ := append_eq_append_cons heq
  · exact h j₁ i topic live queues b hj
  · cases a with
    | nil =>
      rw [List.nil_append, List.cons.injEq] at hcons
      rw [List.append_nil]
      exact hn i topic live queues hcons.1
    | cons m a => simp at hcons

theorem Steady.append (h : Steady j) {n : Nat × RegistryNote}
    (hn : ∀ k topic live', (∃ queues', n = (k, .routed topic live' queues')) →
      ∀ j₁ i live queues j₂, j = j₁ ++ (i, .routed topic live queues) :: j₂ →
        ∀ e ∈ live, e ∈ live' → Present topic e j₂) : Steady (j ++ [n]) := by
  intro j₁ i topic live queues j₂ k live' queues' j₃ heq e he he'
  rw [← List.cons_append, ← List.append_assoc] at heq
  obtain ⟨b, hj, -⟩ | ⟨a, ha, hcons⟩ := append_eq_append_cons heq
  · refine h j₁ i topic live queues j₂ k live' queues' b ?_ e he he'
    rw [hj, List.append_assoc, List.cons_append]
  · cases a with
    | nil =>
      rw [List.nil_append, List.cons.injEq] at hcons
      rw [List.append_nil] at ha
      exact hn k topic live' ⟨queues', hcons.1⟩ j₁ i live queues j₂ ha.symm e he he'
    | cons m a => simp at hcons

/-- The queue was registered for payloads of the type. -/
def Registered (j : History) (q : QueueRef) (type : TypeId) : Prop :=
  ∃ i request, (i, .registered q request) ∈ j ∧ request.payloadTypeId = type

theorem Registered.append {type : TypeId} (h : Registered j q type) (j' : History) :
    Registered (j ++ j') q type := by
  obtain ⟨i, request, hm, ht⟩ := h
  exact ⟨i, request, List.mem_append_left _ hm, ht⟩

/-! ## What a history says about the directory -/

structure Keeps (j : History) (store : Store) (d : Directory) : Prop where
  filed : ∀ topic, ∀ e ∈ d.members topic, store.filed e.2 = some (e.1, topic)
  cursor : ∀ topic, (d.ring topic).bind Ring.cursor = previousStart topic j
  known : ∀ i q request, (i, .registered q request) ∈ j → q < store.queues.length
  unique : ∀ i k q request request', (i, .registered q request) ∈ j →
    (k, .registered q request') ∈ j → request = request'
  typed : ∀ topic r, d.ring topic = some r → ∀ e ∈ r.members, Registered j e.2 r.payloadType
  held : ∀ q, ∀ event ∈ store.heldAt q, Registered j q event.payload.typeId
  placed : ∀ i q event, (i, .attempted q (some event)) ∈ j → Registered j q event.payload.typeId
  seen : ∀ i topic live queues, (i, .routed topic live queues) ∈ j →
    ∀ e ∈ live, store.filed e.2 = some (e.1, topic)
  /-- What is still there has been there since it was seen. -/
  present : ∀ j₁ i topic live queues j₂, j = j₁ ++ (i, .routed topic live queues) :: j₂ →
    ∀ e ∈ live, e ∈ d.members topic → Present topic e j₂
  rotated : Rotated previousStart j
  steady : Steady j

namespace Keeps

variable {d₁ : Directory}

theorem filed_lt {place : Id × TopicAddress} (h : store.filed q = some place) :
    q < store.queues.length := by
  obtain ⟨queue, hq, -⟩ := Option.map_eq_some_iff.1 h
  exact (List.getElem?_eq_some_iff.1 hq).1

/-- The store changes, and a queue gets only events of its type. -/
theorem effect (h : Keeps j store d) {notes : List ProviderNote}
    (he : StoreEffect store notes store') (hlen : store.queues.length ≤ store'.queues.length)
    (hn : ∀ q, ∀ event ∈ admitted q notes, Registered j q event.payload.typeId) :
    Keeps j store' d where
  filed topic e hm := he.filed (h.filed topic e hm)
  cursor := h.cursor
  known i q request hm := lt_of_lt_of_le (h.known i q request hm) hlen
  unique := h.unique
  typed := h.typed
  held q event hm := by
    obtain hm | hm := Multiset.mem_add.1 (Multiset.mem_of_le (he.heldAt q) hm)
    · exact h.held q event hm
    · exact hn q event hm
  placed := h.placed
  seen i topic live queues hm e hl := he.filed (h.seen i topic live queues hm e hl)
  present := h.present
  rotated := h.rotated
  steady := h.steady

/-- One more note. What is said of it is what it adds to the history. -/
theorem snoc (h : Keeps j store d)
    (hplace : ∀ {q place}, store.filed q = some place → store'.filed q = some place)
    (hlen : store.queues.length ≤ store'.queues.length)
    (hheld : ∀ q, ∀ event ∈ store'.heldAt q, event ∈ store.heldAt q)
    (hreg : ∀ q request, n = .registered q request →
      store.queues.length ≤ q ∧ q < store'.queues.length)
    (hplaced : ∀ q event, n = .attempted q (some event) → Registered j q event.payload.typeId)
    (hrouted : ∀ topic live queues, n = .routed topic live queues → live = d.members topic ∧
      ∃ order, TurnedTo (successor (previousStart topic j) live) live order ∧
        queues = order.map Prod.snd)
    (hfiled : ∀ topic, ∀ e ∈ d₁.members topic, store'.filed e.2 = some (e.1, topic))
    (hcursor : ∀ topic, (d₁.ring topic).bind Ring.cursor = previousStart topic (j ++ [(i, n)]))
    (htyped : ∀ topic r, d₁.ring topic = some r → ∀ e ∈ r.members,
      Registered (j ++ [(i, n)]) e.2 r.payloadType)
    (hpresent : ∀ topic, ∀ e ∈ d₁.members topic, e.2 < store.queues.length →
      e ∈ d.members topic ∧ Present topic e [(i, n)]) : Keeps (j ++ [(i, n)]) store' d₁ := by
  have hmem : ∀ {m}, m ∈ j ++ [(i, n)] → m ∈ j ∨ m = (i, n) := fun hm => by simpa using hm
  have hseen : ∀ {k topic live queues}, (k, .routed topic live queues) ∈ j ++ [(i, n)] →
      ∀ e ∈ live, store.filed e.2 = some (e.1, topic) := by
    intro k topic live queues hm e he
    obtain hm | hm := hmem hm
    · exact h.seen k topic live queues hm e he
    · rw [(hrouted topic live queues (Prod.mk.inj hm).2.symm).1] at he
      exact h.filed topic e he
  refine ⟨hfiled, hcursor, fun k q request hm => ?_, fun k l q r r' hm hm' => ?_, htyped,
    fun q event he => (h.held q event (hheld q event he)).append _, fun k q event hm => ?_,
    fun k topic live queues hm e he => hplace (hseen hm e he),
    fun j₁ k topic live queues j₂ heq e he hd => ?_,
    h.rotated.append fun k topic live queues heq => ?_, h.steady.append ?_⟩
  · obtain hm | hm := hmem hm
    · exact lt_of_lt_of_le (h.known k q request hm) hlen
    · exact (hreg q request (Prod.mk.inj hm).2.symm).2
  · -- nobody has seen a queue that is registered now
    have hnew : ∀ {k r r'}, (k, .registered q r) ∈ j → n ≠ .registered q r' := fun hm heq =>
      absurd (h.known _ q _ hm) (Nat.not_lt.2 (hreg q _ heq).1)
    obtain hm | hm := hmem hm <;> obtain hm' | hm' := hmem hm'
    · exact h.unique k l q r r' hm hm'
    · exact absurd (Prod.mk.inj hm').2.symm (hnew hm)
    · exact absurd (Prod.mk.inj hm).2.symm (hnew hm')
    · have := (Prod.mk.inj hm).2.trans (Prod.mk.inj hm').2.symm
      exact (RegistryNote.registered.inj this).2
  · obtain hm | hm := hmem hm
    · exact (h.placed k q event hm).append _
    · exact (hplaced q event (Prod.mk.inj hm).2.symm).append _
  · have hin : (k, .routed topic live queues) ∈ j ++ [(i, n)] := by
      rw [heq]
      simp
    have hlt := filed_lt (hseen hin e he)
    obtain ⟨hd, hnow⟩ := hpresent topic e hd hlt
    obtain ⟨b, hj, rfl⟩ | ⟨a, -, hcons⟩ := append_eq_append_cons heq
    · exact (h.present j₁ k topic live queues b hj e he hd).append hnow
    · cases a with
      | nil =>
        simp only [List.nil_append, List.cons.injEq] at hcons
        rw [← hcons.2]
        rintro n ⟨⟩
      | cons m a => simp at hcons
  · obtain ⟨rfl, hturned⟩ := hrouted topic live queues (Prod.mk.inj heq).2
    exact ⟨d.members_ascending topic, hturned⟩
  · rintro k topic live' ⟨queues', heq⟩ j₁ l live queues j₂ hj e he he'
    rw [(hrouted topic live' queues' (Prod.mk.inj heq).2).1] at he'
    exact h.present j₁ l topic live queues j₂ hj e he he'

/-- The first half of every step: members leave. -/
theorem leave (h : Keeps j store d) (hs : d.Shrunk d₁) {topics : Finset TopicAddress}
    (ht : ∀ topic, topic ∈ topics ↔ (d.ring topic).isSome ∧ (d₁.ring topic).isNone) :
    Keeps (j ++ [(i, .vacated topics)]) store d₁ := by
  refine h.snoc id le_rfl (fun _ _ => id) (by simp) (by simp) (by simp)
    (fun topic e he => h.filed topic e ((hs.members topic).subset he)) (fun topic => ?_)
    (fun topic r hr e he => ?_) fun topic e he _ => ⟨(hs.members topic).subset he, fun n hn => ?_⟩
  · -- the cursor of a ring stays with it
    rw [previousStart_append, ← h.cursor topic]
    simp only [List.foldl_cons, List.foldl_nil, ht topic]
    cases hr₁ : d₁.ring topic with
    | none =>
      cases d.ring topic <;> simp
    | some r₁ =>
      obtain ⟨r, hr, -, -, hc⟩ := hs topic r₁ hr₁
      simp [hr, hc]
  · obtain ⟨r₀, hr₀, hsub, htype, -⟩ := hs topic r hr
    rw [htype]
    exact (h.typed topic r₀ hr₀ e (hsub.subset he)).append _
  · cases List.mem_singleton.1 hn
    -- a topic with a member left is not vacated
    show topic ∉ topics
    rw [ht topic]
    obtain ⟨r₁, hr₁, -⟩ := Directory.mem_members.1 he
    simp [hr₁]

/-- A publisher has come to a queue. -/
theorem attempted (h : Keeps j store d) {placed : Option LocalEvent}
    (ha : ∀ event, placed = some event → Registered j q event.payload.typeId) :
    Keeps (j ++ [(i, .attempted q placed)]) store d := by
  refine h.snoc id le_rfl (fun _ _ => id) (by simp) (fun p event heq => ?_) (by simp) h.filed
    (fun topic => ?_) (fun topic r hr e he => (h.typed topic r hr e he).append _)
    fun topic e he _ => ⟨he, fun n hn => ?_⟩
  · obtain ⟨rfl, rfl⟩ := RegistryNote.attempted.inj heq
    exact ha event rfl
  · rw [previousStart_append, ← h.cursor topic]
    rfl
  · cases List.mem_singleton.1 hn
    exact trivial

/-- A subscription joins. -/
theorem join (h : Keeps j store d) {request : SpiSubscriptionRequest} (hq : store.queues.length ≤ q)
    (hid : ¬ d.Has request.subscriptionId)
    (htype : ∀ r, d.ring request.topic = some r → r.payloadType = request.payloadTypeId)
    (he : StoreEffect store [] store') (hlen : store.queues.length ≤ store'.queues.length)
    (hfiled : store'.filed q = some (request.subscriptionId, request.topic)) :
    Keeps (j ++ [(i, .registered q request)]) store'
      (d.join request.topic request.subscriptionId q request.payloadTypeId hid) := by
  refine h.snoc he.filed hlen (fun p event hm => ?_) (fun p request' heq => ?_) (by simp) (by simp)
    (fun topic e hm => ?_) (fun topic => ?_) (fun topic r hr e hm => ?_) fun topic e hm hlt => ?_
  · simpa using Multiset.mem_of_le (he.heldAt p) hm
  · obtain ⟨rfl, -⟩ := RegistryNote.registered.inj heq
    exact ⟨hq, filed_lt hfiled⟩
  · obtain ⟨rfl, rfl⟩ | hm := (Directory.mem_join hid).1 hm
    · exact hfiled
    · exact he.filed (h.filed topic e hm)
  · rw [previousStart_append]
    simp only [List.foldl_cons, List.foldl_nil, ← h.cursor topic, Directory.join]
    split
    · rename_i ht
      rw [ht]
      rfl
    · rfl
  · have hm' : e ∈ (d.join request.topic request.subscriptionId q request.payloadTypeId hid).members
        topic := Directory.mem_members.2 ⟨r, hr, hm⟩
    have hring : r.payloadType = if topic = request.topic then request.payloadTypeId
        else r.payloadType := by
      split
      · rename_i ht
        simp only [Directory.join, if_pos ht] at hr
        cases hr
        rfl
      · rfl
    obtain ⟨rfl, rfl⟩ | hold := (Directory.mem_join hid).1 hm'
    · rw [hring, if_pos rfl]
      exact ⟨i, request, List.mem_append_right _ List.mem_cons_self, rfl⟩
    · obtain ⟨r₀, hr₀, he₀⟩ := Directory.mem_members.1 hold
      have hsame := (h.typed topic r₀ hr₀ e he₀).append [(i, .registered q request)]
      by_cases ht : topic = request.topic
      · rw [hring, if_pos ht, ← htype r₀ (ht ▸ hr₀)]
        exact hsame
      · simp only [Directory.join, if_neg ht, hr₀] at hr
        cases hr
        exact hsame
  · -- the new queue has been seen by nobody
    obtain ⟨-, rfl⟩ | hm := (Directory.mem_join hid).1 hm
    · exact absurd hlt (Nat.not_lt.2 hq)
    · refine ⟨hm, fun n hn => ?_⟩
      cases List.mem_singleton.1 hn
      exact trivial

theorem startOf_order {order : List (Id × QueueRef)} {first : Option (Id × QueueRef)}
    (ht : TurnedTo first live order) (hinj : ∀ e ∈ live, ∀ e' ∈ live, e.2 = e'.2 → e = e') :
    startOf live (order.map Prod.snd) = first := by
  have hperm := ht.perm
  obtain ⟨before, after, -, -, hhead⟩ := ht
  unfold startOf
  rw [List.head?_map]
  cases horder : order with
  | nil =>
    rw [horder] at hhead
    exact hhead
  | cons e rest =>
    rw [horder, List.head?_cons] at hhead
    have hmem : e ∈ live := hperm.subset (horder ▸ List.mem_cons_self)
    rw [← hhead]
    cases hf : live.find? fun e' => decide (e'.2 = e.2) with
    | none => exact absurd (List.find?_eq_none.1 hf e hmem) (by simp)
    | some e' =>
      have heq : e'.2 = e.2 := by simpa using List.find?_some hf
      have hsame := hinj e' (List.mem_of_find?_eq_some hf) e hmem heq
      simp [hf, hsame]

/-- A publication takes its turn. -/
theorem turn (h : Keeps j store d) (topic : TopicAddress) :
    Keeps (j ++ [(i, .routed topic (d.members topic) ((d.order topic).map Prod.snd))]) store
      (d.turn topic) := by
  have hturned : TurnedTo (successor (previousStart topic j) (d.members topic)) (d.members topic)
      (d.order topic) := by
    rw [← h.cursor topic]
    unfold Directory.members Directory.order
    cases d.ring topic with
    | none => exact ⟨[], [], rfl, rfl, rfl⟩
    | some r => exact r.order_turned
  have hinj : ∀ e ∈ d.members topic, ∀ e' ∈ d.members topic, e.2 = e'.2 → e = e' := by
    intro e he e' he' heq
    have hf := h.filed topic e he
    rw [heq, h.filed topic e' he', Option.some.injEq, Prod.mk.injEq] at hf
    exact Prod.ext hf.1.symm heq
  refine h.snoc id le_rfl (fun _ _ => id) (by simp) (by simp) (fun t live queues heq => ?_)
    (fun t e he => h.filed t e (d.turn_members topic t ▸ he)) (fun t => ?_) (fun t r hr e he => ?_)
    fun t e he _ => ?_
  · obtain ⟨rfl, rfl, rfl⟩ := RegistryNote.routed.inj heq
    exact ⟨rfl, d.order topic, hturned, rfl⟩
  · rw [previousStart_append]
    simp only [List.foldl_cons, List.foldl_nil, ← h.cursor t, Directory.turn]
    by_cases ht : topic = t
    · subst ht
      rw [if_pos rfl, if_pos rfl, startOf_order hturned hinj]
      cases hr : d.ring topic with
      | none => simp [successor, Directory.members, hr]
      | some r =>
        obtain ⟨before, after, -, -, hhead⟩ := hturned
        have horder : d.order topic = r.order := by rw [Directory.order, hr, Option.elim_some]
        rw [← hhead, horder, Option.map_some, Option.bind_some]
        obtain ⟨e, rest, hcons⟩ : ∃ e rest, r.order = e :: rest := by
          cases ho : r.order with
          | nil => exact absurd (List.Perm.nil_eq (ho ▸ r.order_turned.perm)).symm r.nonempty
          | cons e rest => exact ⟨e, rest, rfl⟩
        simp [Ring.turn, hcons]
    · rw [if_neg (Ne.symm ht), if_neg ht]
  · have hring : ∃ r₀, d.ring t = some r₀ ∧ r₀.members = r.members ∧
        r₀.payloadType = r.payloadType := by
      simp only [Directory.turn] at hr
      split at hr
      · obtain ⟨r₀, hr₀, rfl⟩ := Option.map_eq_some_iff.1 hr
        exact ⟨r₀, hr₀, rfl, rfl⟩
      · exact ⟨r, hr, rfl, rfl⟩
    obtain ⟨r₀, hr₀, hmembers, htype⟩ := hring
    rw [← htype]
    exact (h.typed t r₀ hr₀ e (hmembers ▸ he)).append _
  · rw [Directory.turn_members] at he
    refine ⟨he, fun n hn => ?_⟩
    cases List.mem_singleton.1 hn
    show topic = t → e ∈ d.members topic
    rintro rfl
    exact he

end Keeps

/-! ## Publishers -/

/-- The thread has taken no routes. -/
def Unrouted (i : Nat) (j : History) : Prop :=
  attemptsOf i j = [] ∧ ∀ topic live queues, (i, .routed topic live queues) ∉ j

/-- The thread has taken these routes, and no others. -/
structure OnRoute (i : Nat) (j : History) (topic : TopicAddress) (live : List (Id × QueueRef))
    (queues : List QueueRef) : Prop where
  taken : (i, .routed topic live queues) ∈ j
  only : ∀ t l qs, (i, .routed t l qs) ∈ j → t = topic ∧ l = live ∧ qs = queues

/-- A publisher has come to some of its destinations, and has an answer from each. All
destinations are for its type of payload. -/
def Underway (i : Nat) (j : History) (store : Store) (a : Itinerary) : Prop :=
  ∃ live, OnRoute i j a.topic live (attemptsOf i j ++ a.queues) ∧
    a.admissions.map (fun x => some x.subscriptionId) =
      (attemptsOf i j).map (fun q => (store.filed q).map Prod.fst) ∧
    ∀ q ∈ a.queues, Registered j q a.event.payload.typeId

/-- It has come to all of them, and the acknowledgement lists them in the order of their ids. -/
def Arrived (i : Nat) (j : History) (admissions : List DestinationAdmission) : Prop :=
  ∃ topic live, OnRoute i j topic live (attemptsOf i j) ∧
    admissions.map DestinationAdmission.subscriptionId = live.map Prod.fst

section
variable {S C B : Type} (v : RegistryView S C B)

def Journey (i : Nat) (j : History) (store : Store) : Thread C Response → Prop
  | .running c =>
    match v.admits c with
    | none => Unrouted i j
    | some a => Underway i j store a
  | .returned (.published (.ok (.destinationAdmissions admissions))) => Arrived i j admissions
  | .returned _ => Unrouted i j

variable {v}

theorem journey_none {c : C} (h : v.admits c = none) :
    Journey v i j store (.running c) ↔ Unrouted i j := by
  simp only [Journey, h]

theorem journey_some {c : C} (h : v.admits c = some a) :
    Journey v i j store (.running c) ↔ Underway i j store a := by
  simp only [Journey, h]

theorem Journey.of_aside {c : C} {t : Thread C Response} (h : Aside v c t) (hu : Unrouted i j) :
    Journey v i j store t := by
  obtain ⟨-, hrun, hret⟩ := h
  unfold Journey
  split
  · rw [hrun _ rfl]
    exact hu
  · exact absurd rfl (hret _)
  · exact hu

end

section
variable {notes : List RegistryNote}

theorem Unrouted.others (h : Unrouted i j) (hk : k ≠ i) : Unrouted i (j ++ notes.map (k, ·)) := by
  refine ⟨by rw [attemptsOf_append, h.1, attemptsOf_others hk]; rfl, fun topic live queues hm => ?_⟩
  obtain hm | hm := List.mem_append.1 hm
  · exact h.2 topic live queues hm
  · obtain ⟨n, -, heq⟩ := List.mem_map.1 hm
    exact hk (Prod.mk.inj heq).1

theorem OnRoute.others (h : OnRoute i j topic live queues) (hk : k ≠ i) :
    OnRoute i (j ++ notes.map (k, ·)) topic live queues := by
  refine ⟨List.mem_append_left _ h.taken, fun t l qs hm => ?_⟩
  obtain hm | hm := List.mem_append.1 hm
  · exact h.only t l qs hm
  · obtain ⟨n, -, heq⟩ := List.mem_map.1 hm
    exact absurd (Prod.mk.inj heq).1 hk

/-- The destinations of a publisher are queues of its topic. -/
theorem Keeps.destination (h : Keeps j store d) (hr : (i, .routed topic live queues) ∈ j)
    (hq : q ∈ queues) : ∃ id, store.filed q = some (id, topic) := by
  obtain ⟨j₁, j₂, hj⟩ := List.append_of_mem hr
  obtain ⟨-, order, hturned, rfl⟩ := h.rotated j₁ i topic live queues j₂ hj
  obtain ⟨e, he, rfl⟩ := List.mem_map.1 hq
  exact ⟨e.1, h.seen i topic live _ hr e (hturned.perm.subset he)⟩

/-- Queues keep their places. -/
theorem Underway.restore (h : Underway i j store a) (hkeeps : Keeps j store d)
    (hfiled : ∀ q place, store.filed q = some place → store'.filed q = some place) :
    Underway i j store' a := by
  obtain ⟨live, hroute, hadmissions, htypes⟩ := h
  refine ⟨live, hroute, ?_, htypes⟩
  rw [hadmissions]
  refine List.map_congr_left fun q hq => ?_
  obtain ⟨id, hid⟩ := hkeeps.destination hroute.taken (List.mem_append_left _ hq)
  rw [hid, hfiled q _ hid]

/-- What others do does not concern a publisher. -/
theorem Underway.others (h : Underway i j store a) (hk : k ≠ i) :
    Underway i (j ++ notes.map (k, ·)) store a := by
  obtain ⟨live, hroute, hadmissions, htypes⟩ := h
  have hattempts : attemptsOf i (j ++ notes.map (k, ·)) = attemptsOf i j := by
    rw [attemptsOf_append, attemptsOf_others hk, List.append_nil]
  exact ⟨live, by rw [hattempts]; exact hroute.others hk, by rw [hattempts]; exact hadmissions,
    fun q hq => (htypes q hq).append _⟩

end

/-! ## Steps -/

section
variable {S Q C X B : Type} {m : Machine S Q C Response X ProviderNote} {v : RegistryView S C B}
  {s s' : S} {c : C} {t : Thread C Response} {notes : List ProviderNote} {d' d₁ : Directory}

theorem StoreEffect.length_le (h : StoreEffect store notes store') :
    store.queues.length ≤ store'.queues.length := by
  cases h with
  | quiet | idle | rejected => exact le_rfl
  | subscribed => simp [Store.subscribe]
  | @foreign address disposition => rw [(settleForeign_queues store address disposition).1]
  | accepted | moved | discarded => simp [Store.unlock]

/-- The topics that are seen to be vacated have lost their rings. -/
theorem Routed.mem_vacated (hm : Routed m v) (hd : v.shows s d) (hd' : v.shows s' d')
    (hs : d.Shrunk d₁)
    (hsame : ∀ topic, ∀ e ∈ d.members topic, e ∈ d'.members topic ↔ e ∈ d₁.members topic)
    (topic : TopicAddress) :
    topic ∈ v.vacated s s' ↔ (d.ring topic).isSome ∧ (d₁.ring topic).isNone := by
  unfold RegistryView.vacated
  rw [Finset.mem_filter, hm.topics s d topic hd, hm.members s d topic hd,
    hm.members s' d' topic hd']
  refine and_congr_right fun _ => ?_
  cases hr : d₁.ring topic with
  | none =>
    simp only [Option.isNone_none, iff_true]
    intro e he hcon
    have := (hsame topic e he).1 hcon
    simp [Directory.members, hr] at this
  | some r =>
    simp only [Option.isNone_some, Bool.false_eq_true, iff_false, not_forall]
    obtain ⟨e, he⟩ := List.exists_mem_of_ne_nil _ r.nonempty
    have he₁ : e ∈ d₁.members topic := Directory.mem_members.2 ⟨r, hr, he⟩
    have he₀ := (hs.members topic).subset he₁
    exact ⟨e, he₀, fun hnot => hnot ((hsame topic e he₀).2 he₁)⟩

theorem RegistryView.routing_of_admits (h : ∀ c', t = .running c' → v.admits c' = none) :
    v.routing s c t = [] := by
  unfold RegistryView.routing
  split
  · rw [h _ rfl]
  · rfl

theorem RegistryView.routing_of_publishes (h : v.publishes c = none) : v.routing s c t = [] := by
  unfold RegistryView.routing
  rw [h]

theorem Unrouted.snoc (h : Unrouted i j) (hr : ∀ topic live queues, n ≠ .routed topic live queues)
    (ha : ∀ q placed, n ≠ .attempted q placed) : Unrouted i (j ++ [(i, n)]) := by
  refine ⟨?_, fun topic live queues hm => ?_⟩
  · rw [attemptsOf_append, h.1]
    cases n with
    | attempted q placed => exact absurd rfl (ha q placed)
    | vacated | registered | routed => rfl
  · obtain hm | hm := List.mem_append.1 hm
    · exact h.2 topic live queues hm
    · simp only [List.mem_singleton, Prod.mk.injEq] at hm
      exact hr topic live queues hm.2.symm

theorem attempted_of_admitted {event : LocalEvent} (h : event ∈ admitted q notes) :
    .attempted q (some event) ∈ notes.filterMap attempt := by
  unfold admitted at h
  obtain ⟨n, hn, heq⟩ := List.mem_filterMap.1 (Multiset.mem_coe.1 h)
  refine List.mem_filterMap.2 ⟨n, hn, ?_⟩
  cases n with
  | accepted p event' =>
    simp only at heq
    split at heq
    · rename_i hp
      cases heq
      rw [hp]
      rfl
    · cases heq
  | _ => cases heq

/-- The ids of an acknowledgement are in the order in which the destinations stand. -/
theorem sorted_ids {admissions : List DestinationAdmission} {order : List (Id × QueueRef)}
    (hl : Ascending live) (hp : order.Perm live)
    (hids : admissions.map DestinationAdmission.subscriptionId = order.map Prod.fst) :
    (admissions.insertionSort fun a b => a.subscriptionId.value ≤ b.subscriptionId.value).map
      DestinationAdmission.subscriptionId = live.map Prod.fst := by
  have hperm : ((admissions.insertionSort fun a b => a.subscriptionId.value ≤
      b.subscriptionId.value).map DestinationAdmission.subscriptionId).Perm
      (live.map Prod.fst) := by
    refine ((List.perm_insertionSort _ admissions).map _).trans ?_
    rw [hids]
    exact hp.map _
  have hsorted : ((admissions.insertionSort fun a b => a.subscriptionId.value ≤
      b.subscriptionId.value).map DestinationAdmission.subscriptionId).Pairwise
      fun a b => a.value ≤ b.value := by
    rw [List.pairwise_map]
    have := @List.pairwise_insertionSort DestinationAdmission
      (fun a b => a.subscriptionId.value ≤ b.subscriptionId.value) _
      ⟨fun a b => Nat.le_total _ _⟩ ⟨fun a b c => Nat.le_trans⟩ admissions
    exact this
  have hlive : (live.map Prod.fst).Pairwise fun a b => a.value ≤ b.value :=
    List.pairwise_map.2 (hl.imp Nat.le_of_lt)
  refine List.Perm.eq_of_pairwise (fun a b _ _ h h' => ?_) hsorted hlive hperm
  cases a
  cases b
  exact congrArg Id.mk (Nat.le_antisymm h h')

/-- The thread stays on its route while it only makes other notes. -/
theorem OnRoute.snoc (h : OnRoute i j topic live queues) (hr : ∀ t l qs, n ≠ .routed t l qs) :
    OnRoute i (j ++ [(i, n)]) topic live queues := by
  refine ⟨List.mem_append_left _ h.taken, fun t l qs hm => ?_⟩
  obtain hm | hm := List.mem_append.1 hm
  · exact h.only t l qs hm
  · simp only [List.mem_singleton, Prod.mk.injEq] at hm
    exact absurd hm.2.symm (hr t l qs)

theorem Underway.vacated (h : Underway i j store a) (topics : Finset TopicAddress) :
    Underway i (j ++ [(i, .vacated topics)]) store a := by
  obtain ⟨live, hroute, hadmissions, htypes⟩ := h
  have hattempts : attemptsOf i (j ++ [(i, .vacated topics)]) = attemptsOf i j := by
    rw [attemptsOf_append]
    exact List.append_nil _
  refine ⟨live, ?_, by rw [hattempts]; exact hadmissions, fun q hq => (htypes q hq).append _⟩
  rw [hattempts]
  exact hroute.snoc fun _ _ _ h => nomatch h

/-- The publication begins: its destinations are for its type of payload. -/
theorem Unrouted.routed (h : Unrouted i j) (hk : Keeps j store d) {event : LocalEvent}
    (htype : ∀ r, d.ring topic = some r → r.payloadType = event.payload.typeId) :
    Underway i (j ++ [(i, .routed topic (d.members topic) ((d.order topic).map Prod.snd))]) store
      ⟨topic, event, (d.order topic).map Prod.snd, []⟩ := by
  unfold Underway
  rw [attemptsOf_append, h.1]
  refine ⟨d.members topic, ⟨List.mem_append_right _ List.mem_cons_self, fun t l qs hmem => ?_⟩, rfl,
    fun q hq => ?_⟩
  · obtain hmem | hmem := List.mem_append.1 hmem
    · exact absurd hmem (h.2 t l qs)
    · simp only [List.mem_singleton, Prod.mk.injEq, RegistryNote.routed.injEq, true_and] at hmem
      exact hmem
  · obtain ⟨e, he, rfl⟩ := List.mem_map.1 hq
    cases hr : d.ring topic with
    | none => simp [Directory.order, hr] at he
    | some r =>
      rw [Directory.order, hr, Option.elim_some] at he
      rw [← htype r hr]
      exact (hk.typed _ r hr e (r.order_turned.perm.subset he)).append _

/-- It has an answer from its next destination. -/
theorem Underway.attempted (h : Underway i j store a) (hqueues : a.queues = q :: queues)
    {queue : LocalQueue} (hq : (store.filed q).map Prod.fst = some queue.id)
    (rejection : Option (AdmissionRejectionKind × String)) (placed : Option LocalEvent) :
    Underway i (j ++ [(i, .attempted q placed)]) store { a with
      queues, admissions := a.admissions ++ [destinationAdmission queue rejection] } := by
  obtain ⟨live, hroute, hadmissions, htypes⟩ := h
  have hattempts : attemptsOf i (j ++ [(i, .attempted q placed)]) = attemptsOf i j ++ [q] := by
    simp [attemptsOf]
  refine ⟨live, ?_, ?_, fun p hp => ?_⟩
  · have hwhole : attemptsOf i j ++ [q] ++ queues = attemptsOf i j ++ a.queues := by simp [hqueues]
    rw [hattempts, hwhole]
    exact hroute.snoc (by simp)
  · rw [hattempts, List.map_append, List.map_append, hadmissions, List.map_singleton,
      List.map_singleton, hq]
    cases rejection <;> rfl
  · exact (htypes p (by rw [hqueues]; exact List.mem_cons_of_mem _ hp)).append _

/-- It has an answer from every destination. -/
theorem Underway.acknowledged (h : Underway i j store a) (hk : Keeps j store d)
    (hqueues : a.queues = []) : Arrived i j
      (a.admissions.insertionSort fun a b => a.subscriptionId.value ≤ b.subscriptionId.value) := by
  obtain ⟨live, hroute, hadmissions, -⟩ := h
  rw [hqueues, List.append_nil] at hroute
  refine ⟨a.topic, live, hroute, ?_⟩
  obtain ⟨j₁, j₂, hsplit⟩ := List.append_of_mem hroute.taken
  obtain ⟨hasc, order, hturned, horder⟩ := hk.rotated j₁ i a.topic live _ j₂ hsplit
  refine sorted_ids hasc hturned.perm ?_
  -- the destinations are filed under their ids
  have hids : a.admissions.map (fun x => some x.subscriptionId) = order.map fun e => some e.1 := by
    rw [hadmissions, horder, List.map_map]
    refine List.map_congr_left fun e hmem => ?_
    simp [hk.seen i a.topic live _ hroute.taken e (hturned.perm.subset hmem)]
  have := congrArg (List.filterMap id) hids
  simpa [List.filterMap_map, Function.comp_def] using this

theorem RegistryView.sees_aside (hreg : v.registration c t = []) (hroute : v.routing s c t = []) :
    v.sees s c s' t notes = .vacated (v.vacated s s') :: notes.filterMap attempt := by
  unfold RegistryView.sees
  rw [hreg, hroute]
  rfl

theorem RegistryView.sees_joins {request : SpiSubscriptionRequest} (h : v.asks c = some request) :
    v.sees s c s' (.returned (.subscribed (.ok q))) [] =
      [.vacated (v.vacated s s'), .registered q request] := by
  have hroute : v.routing s c (.returned (.subscribed (.ok q))) = [] :=
    RegistryView.routing_of_admits fun _ heq => by cases heq
  unfold RegistryView.sees RegistryView.registration
  rw [hroute, h]
  rfl

theorem RegistryView.sees_routes {message : OutboundMessage} {c' : C}
    (h : v.publishes c = some message) (ha : v.admits c' = some a)
    (hlive : live = (v.members s message.topic).filter fun e => v.live s e.2)
    (hnotes : notes.filterMap attempt = []) :
    v.sees s c s' (.running c') notes =
      [.vacated (v.vacated s s'), .routed message.topic live a.queues] := by
  unfold RegistryView.sees RegistryView.routing
  rw [v.registration_running, h, hnotes]
  simp only [ha, ← hlive]
  rfl

theorem registered_of_silent (h : notes.filterMap attempt = []) (q : QueueRef) (event : LocalEvent)
    (hevent : event ∈ admitted q notes) : Registered j q event.payload.typeId := by
  have hnote := attempted_of_admitted hevent
  rw [h] at hnote
  cases hnote

/-- What is known when the members that leave have left. -/
theorem Routed.leave (hm : Routed m v) (hd : v.shows s d) (hd' : v.shows s' d')
    (he : StoreEffect (v.store s) notes (v.store s')) (hk : Keeps j (v.store s) d)
    (hs : d.Shrunk d₁)
    (hsame : ∀ topic, ∀ e ∈ d.members topic, e ∈ d'.members topic ↔ e ∈ d₁.members topic)
    (hnew : ∀ q, ∀ event ∈ admitted q notes, Registered j q event.payload.typeId) :
    Keeps (j ++ [(i, .vacated (v.vacated s s'))]) (v.store s') d₁ :=
  (hk.effect he he.length_le hnew).leave hs (hm.mem_vacated hd hd' hs hsame)

/-- **A step keeps what the history says.** -/
theorem Shown.tracks (hm : Routed m v) (hd : v.shows s d) (hd' : v.shows s' d')
    (h : Shown v s c d s' t notes d') (he : StoreEffect (v.store s) notes (v.store s'))
    (hk : Keeps j (v.store s) d) (hj : Journey v i j (v.store s) (.running c)) :
    Keeps (j ++ (v.sees s c s' t notes).map (i, ·)) (v.store s') d' ∧
      Journey v i (j ++ (v.sees s c s' t notes).map (i, ·)) (v.store s') t := by
  have hsame : ∀ topic, ∀ e ∈ d.members topic, e ∈ d'.members topic ↔ e ∈ d'.members topic :=
    fun _ _ _ => Iff.rfl
  have hvacated : ∀ {a}, v.admits c = some a →
      Underway i (j ++ [(i, .vacated (v.vacated s s'))]) (v.store s') a := fun ha =>
    (((journey_some ha).1 hj).restore hk fun q place hq => he.filed hq).vacated _
  cases h with
  | aside hs haside hreg hattempt hcloses =>
    have hunrouted := (journey_none haside.1).1 hj
    rw [RegistryView.sees_aside hreg (RegistryView.routing_of_admits haside.2.1), hattempt]
    exact ⟨hm.leave hd hd' he hk hs hsame (registered_of_silent hattempt),
      .of_aside haside (hunrouted.snoc (by simp) (by simp))⟩
  | stays =>
    have hroute : v.routing s c (.running c) = [] := by
      cases ha : v.admits c with
      | none => exact RegistryView.routing_of_admits fun c' heq => by cases heq; exact ha
      | some a => exact RegistryView.routing_of_publishes (hm.admits c a ha).2
    rw [RegistryView.sees_aside (v.registration_running c c) hroute]
    refine ⟨hm.leave hd hd' he hk (.refl d) hsame (registered_of_silent rfl), ?_⟩
    cases ha : v.admits c with
    | none => exact (journey_none ha).2 (((journey_none ha).1 hj).snoc (by simp) (by simp))
    | some a => exact (journey_some ha).2 (hvacated ha)
  | @joins request d₁ hid hasks hadmits hcloses hs htype hfiled =>
    have hunrouted := (journey_none hadmits).1 hj
    -- the new queue was in no ring before
    have hgone := hm.mem_vacated hd hd' hs fun topic e hm => by
      rw [Directory.mem_join hid]
      refine ⟨fun h => h.resolve_left fun ⟨_, heq⟩ => ?_, .inr⟩
      have hlt := Keeps.filed_lt (hk.filed topic e hm)
      rw [heq] at hlt
      exact Nat.lt_irrefl _ hlt
    rw [RegistryView.sees_joins hasks, List.map_cons, List.map_singleton, List.append_cons]
    refine ⟨(hk.leave hs hgone).join le_rfl hid htype he he.length_le hfiled, ?_⟩
    exact (hunrouted.snoc (by simp) (by simp)).snoc (by simp) (by simp)
  | @routes message c' event notes d₁ hpub hasks hadmits hcloses hadmits' hs hlive htype hattempt =>
    have hunrouted := (journey_none hadmits).1 hj
    have hleft := hm.leave (i := i) hd hd' he hk hs
      (fun topic e _ => by rw [Directory.turn_members]) (registered_of_silent hattempt)
    rw [← hm.members s d message.topic hd] at hlive
    rw [RegistryView.sees_routes hpub hadmits' hlive hattempt, List.map_cons, List.map_singleton,
      List.append_cons, journey_some hadmits']
    exact ⟨hleft.turn message.topic, (hunrouted.snoc (by simp) (by simp)).routed hleft htype⟩
  | @attempts a c' q queues queue rejection ha hqueues hcloses hq ha' =>
    obtain ⟨live, hroute, -, htypes⟩ := (journey_some ha).1 hj
    have hfirst : q ∈ a.queues := by rw [hqueues]; exact List.mem_cons_self
    have hplace : (v.store s).filed q = some (queue.id, queue.topic) := by simp [Store.filed, hq]
    have hfiled : ((v.store s').filed q).map Prod.fst = some queue.id := by
      rw [he.filed hplace]
      rfl
    rw [RegistryView.sees_aside (v.registration_running c c')
      (RegistryView.routing_of_publishes (hm.admits c a ha).2), List.filterMap_cons,
      attempt_admissionNote, List.filterMap_nil, List.map_cons, List.map_singleton,
      List.append_cons, journey_some ha']
    refine ⟨(hm.leave hd hd' he hk (.refl d) hsame fun p event hmem => ?_).attempted
      fun event hsome => ?_, (hvacated ha).attempted hqueues hfiled rejection _⟩
    · have hone := attempted_of_admitted hmem
      rw [List.filterMap_cons, attempt_admissionNote] at hone
      simp only [List.filterMap_nil, List.mem_singleton, RegistryNote.attempted.injEq] at hone
      obtain ⟨rfl, hsome⟩ := hone
      split at hsome <;> cases hsome
      exact htypes p hfirst
    · split at hsome <;> cases hsome
      exact (htypes q hfirst).append _
  | @skips a c' q queues queue ha hqueues hcloses hq htopic ha' =>
    -- all destinations are of the topic
    obtain ⟨live, hroute, -, -⟩ := (journey_some ha).1 hj
    obtain ⟨id, hid⟩ := hk.destination hroute.taken (q := q)
      (List.mem_append_right _ (by rw [hqueues]; exact List.mem_cons_self))
    simp only [Store.filed, hq, Option.map_some, Option.some.injEq, Prod.mk.injEq] at hid
    exact absurd hid.2 htopic
  | @acknowledges a ha hqueues hcloses =>
    rw [RegistryView.sees_aside (v.registration_of_asks (hm.admits c a ha).1 _)
      (RegistryView.routing_of_publishes (hm.admits c a ha).2)]
    have hleft := hm.leave (i := i) hd hd' he hk (.refl d) hsame (registered_of_silent rfl)
    exact ⟨hleft, (hvacated ha).acknowledged hleft hqueues⟩

/-- What others do does not concern a thread. -/
theorem Journey.others {u : Thread C Response} {seen : List RegistryNote}
    (h : Journey v k j store u) (hk : i ≠ k) (hkeeps : Keeps j store d)
    (hfiled : ∀ q place, store.filed q = some place → store'.filed q = some place) :
    Journey v k (j ++ seen.map (i, ·)) store' u := by
  cases u with
  | running c =>
    cases ha : v.admits c with
    | none => exact (journey_none ha).2 (((journey_none ha).1 h).others hk)
    | some a =>
      have hunder := ((journey_some ha).1 h).restore hkeeps hfiled
      exact (journey_some ha).2 (hunder.others hk)
  | returned value =>
    unfold Journey at h ⊢
    split at h
    · rename_i heq
      cases heq
    · rename_i admissions heq
      cases heq
      obtain ⟨topic, live, hroute, hids⟩ := h
      have hattempts : attemptsOf k (j ++ seen.map (i, ·)) = attemptsOf k j := by
        rw [attemptsOf_append, attemptsOf_others hk, List.append_nil]
      exact ⟨topic, live, by rw [hattempts]; exact hroute.others hk, hids⟩
    · rename_i heq
      cases heq
      exact h.others hk

/-! ## Runs -/

/-- What the observer has seen in a run from `s`. -/
def history (m : Machine S Q C Response X ProviderNote) (v : RegistryView S C B) (s : S)
    (moves : List (Move Q X)) : History :=
  (m.relabel v.sees).notes (Machine.start s) moves

theorem keeps_start {s : Store} (h : ∀ q, s.heldAt q = 0) : Keeps [] s .empty where
  filed _ _ he := nomatch he
  cursor _ := rfl
  known _ _ _ h := nomatch h
  unique _ _ _ _ _ h := nomatch h
  typed _ _ h := nomatch h
  held q event he := absurd (h q ▸ he) (Multiset.notMem_zero event)
  placed _ _ _ h := nomatch h
  seen _ _ _ _ h := nomatch h
  present _ _ _ _ _ _ h := by simp at h
  rotated _ _ _ _ _ _ h := by simp at h
  steady _ _ _ _ _ _ _ _ _ _ h := by simp at h

/-- **Every run keeps what its history says**, and no step of it stops. -/
theorem Routed.run (hm : Routed m v) {maxCount : Nat} {maxWeight : Option ℕ+}
    (hs : Staged m v.toView maxCount maxWeight) {s : S}
    (hacc : Accounted maxCount maxWeight (v.store s)) (hheld : ∀ q, (v.store s).heldAt q = 0)
    (hshow : v.shows s .empty) (moves : List (Move Q X)) :
    ∃ w d, m.reached (Machine.start s) moves = some w ∧
      Accounted maxCount maxWeight (v.store w.shared) ∧
      v.shows w.shared d ∧ Keeps (history m v s moves) (v.store w.shared) d ∧
      (∀ i t, w.threads[i]? = some t →
        (∀ c, t = .running c → v.weighed maxWeight c ∧ v.own w.shared i c) ∧
        Journey v i (history m v s moves) (v.store w.shared) t) ∧
      ∀ n ∈ history m v s moves, n.1 < w.threads.length := by
  obtain ⟨rs, w, hrun, hw⟩ := Machine.run_holds (m := m.relabel v.sees)
    (G := fun j s => Accounted maxCount maxWeight (v.store s) ∧
      ∃ d, v.shows s d ∧ Keeps j (v.store s) d)
    (L := fun j s i t => (∀ c, t = .running c → v.weighed maxWeight c ∧ v.own s i c) ∧
      Journey v i j (v.store s) t)
    (D := fun _ _ => True)
    (fun j w request hw _ => by
      obtain ⟨hadmits, hown⟩ := hm.enter request
      refine ⟨fun c heq => by cases heq; exact ⟨(hs.enter request).1, hown _ _⟩,
        (journey_none hadmits).2 ⟨?_, fun topic live queues hmem => ?_⟩⟩
      · -- a thread that is just called has been seen nowhere
        unfold attemptsOf
        rw [List.filterMap_eq_nil_iff]
        rintro ⟨k, n⟩ hn
        have hlt := hw.numbered _ hn
        simp only at hlt
        cases n with
        | attempted q placed => simp [Nat.ne_of_lt hlt]
        | _ => rfl
      · exact Nat.lt_irrefl _ (hw.numbered _ hmem))
    (fun j w i c x hw hc _ => by
      obtain ⟨hacc, d, hd, hk⟩ := hw.shared
      obtain ⟨hrunning, hj⟩ := hw.threads i _ hc
      obtain ⟨hweighed, hown⟩ := hrunning c rfl
      obtain ⟨s', t, notes, heq, hstep⟩ := hs.step w.shared i c x hacc hweighed
      obtain ⟨⟨d', hd', hshown⟩, hown', hothers⟩ :=
        hm.step w.shared i c x d s' t notes hd hown hk.filed heq
      obtain ⟨hk', hj'⟩ := hshown.tracks hm hd hd' hstep.effect hk hj
      refine ⟨s', t, v.sees w.shared c s' t notes, ?_, ⟨hstep.accounted, d', hd', hk'⟩,
        ⟨fun c' hc' => ⟨hstep.weighed c' hc', hown' c' hc'⟩, hj'⟩, fun k u hki hu hl => ?_⟩
      · show (m.step w.shared i c x).map _ = _
        rw [heq]
        rfl
      · refine ⟨fun c' hc' => ⟨(hl.1 c' hc').1, hothers k c' hki (hl.1 c' hc').2⟩, ?_⟩
        exact hl.2.others (Ne.symm hki) hk fun q place hq => hstep.effect.filed hq)
    ⟨hacc, .empty, hshow, keeps_start hheld⟩ (meets_of_forall _ fun _ _ => trivial)
  obtain ⟨hacc, d, hd, hk⟩ := hw.shared
  refine ⟨w, d, ?_, hacc, hd, hk, hw.threads, hw.numbered⟩
  rw [← Machine.reached_relabel v.sees, Machine.reached, hrun]
  rfl

end

end EventBus.Local
