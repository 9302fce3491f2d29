import EventBus.Local.RegistryRun
import EventBus.Local.IdleWait
import EventBus.Lib.Cycle

/-!
# Publications take turns

A publication comes to each live subscription of its topic once, in a rotation of the order of their
ids that begins after the subscription at which the last one began. So between two publications that
begin at one subscription, all others that are there have been first once.

The cursor of a topic goes with its last subscription (`routing_restarts`): "last" is since the
topic had none.
-/

namespace EventBus.Local

open Lib

variable {queues : List QueueRef} {topic : TopicAddress} {j : History} {store : Store} {i : Nat}

/-- The note is a publication to the topic that begins at the subscription. -/
def startsAt (topic : TopicAddress) (e : Id × QueueRef) : RegistryNote → Bool
  | .routed t live queues => t = topic ∧ startOf live queues = some e
  | _ => false

/-- How publications find their way, as seen in a run that has ended with these threads. -/
structure RoutesInTurn {C : Type} (previous : TopicAddress → History → Option Id) (j : History)
    (threads : List (Thread C Response)) : Prop where
  rotated : Rotated previous j
  /-- A call takes routes once, -/
  once : ∀ i topic live queues, (i, .routed topic live queues) ∈ j →
    queues.Nodup ∧ OnRoute i j topic live queues
  /-- comes to no other queues, -/
  follows : ∀ i topic live queues, (i, .routed topic live queues) ∈ j → attemptsOf i j <+: queues
  /-- and to none without routes. -/
  strays : ∀ i, (∀ topic live queues, (i, .routed topic live queues) ∉ j) → attemptsOf i j = []
  /-- The receipt lists the live subscriptions, and the call has come to all of them. -/
  receipt : ∀ i admissions,
    threads[i]? = some (.returned (.published (.ok (.destinationAdmissions admissions)))) →
    ∃ topic live, (i, .routed topic live (attemptsOf i j)) ∈ j ∧ (attemptsOf i j).Nodup ∧
      (attemptsOf i j).Perm (live.map Prod.snd) ∧
      admissions.map DestinationAdmission.subscriptionId = live.map Prod.fst ∧
      (admissions.map fun a => a.subscriptionId.value).Pairwise (· < ·)
  /-- A call that returned anything else has taken no turn. -/
  failed : ∀ i response, threads[i]? = some (.returned response) →
    (∀ admissions, response ≠ .published (.ok (.destinationAdmissions admissions))) →
    ∀ topic live queues, (i, .routed topic live queues) ∉ j
  /-- Between two turns of one subscription, everyone else has one. -/
  between : ∀ j₁ i topic live queues j₂ k live' queues' j₃ x y,
    j = j₁ ++ (i, .routed topic live queues) :: (j₂ ++ (k, .routed topic live' queues') :: j₃) →
    startOf live queues = some x → startOf live' queues' = some x →
    (∀ n ∈ j₂, startsAt topic x n.2 = false) → y ∈ live → y ∈ live' → y ≠ x →
    j₂.countP (fun n => startsAt topic y n.2) = 1

/-! ## Rounds -/

section
variable {live : List (Id × QueueRef)}

theorem startOf_mem {e : Id × QueueRef} (h : startOf live queues = some e) : e ∈ live := by
  obtain ⟨q, -, hf⟩ := Option.bind_eq_some_iff.1 h
  exact List.mem_of_find?_eq_some hf

/-- The successor in a list in ascending order is the next one in the circle. -/
theorem isNext_successor (last : Id) (hl : Ascending live) (hne : live ≠ []) :
    ∃ e ∈ live, successor (some last) live = some e ∧
      IsNext (live.map fun e => e.1.value) last.value e.1.value := by
  have hmem : ∀ {c : Nat}, c ∈ live.map (fun e => e.1.value) → ∃ e ∈ live, e.1.value = c :=
    fun hc => List.mem_map.1 hc
  unfold successor
  rw [Option.bind_some]
  cases hf : live.find? fun e => decide (last.value < e.1.value) with
  | some e =>
    have he := List.mem_of_find?_eq_some hf
    have hlt : last.value < e.1.value := by simpa using List.find?_some hf
    refine ⟨e, he, rfl, List.mem_map.2 ⟨e, he, rfl⟩, .inl ⟨hlt, fun c hc hac => ?_⟩⟩
    obtain ⟨e', he', rfl⟩ := hmem hc
    -- whoever stands before `e` is not above the last one
    obtain ⟨-, before, after, rfl, hbefore⟩ := List.find?_eq_some_iff_append.1 hf
    obtain hb | ha := List.mem_append.1 he'
    · have := hbefore e' hb
      simp only [Bool.not_eq_eq_eq_not, Bool.not_true, decide_eq_false_iff_not] at this
      omega
    · obtain rfl | ha := List.mem_cons.1 ha
      · exact le_rfl
      · exact Nat.le_of_lt ((List.pairwise_cons.1 (List.pairwise_append.1 hl).2.1).1 e' ha)
  | none =>
    obtain ⟨e, rest, rfl⟩ := List.exists_cons_of_ne_nil hne
    refine ⟨e, List.mem_cons_self, rfl, List.mem_map.2 ⟨e, List.mem_cons_self, rfl⟩,
      .inr ⟨fun c hc => ?_, fun c hc => ?_⟩⟩
    · obtain ⟨e', he', rfl⟩ := hmem hc
      have := List.find?_eq_none.1 hf e' he'
      simp only [decide_eq_true_eq] at this
      omega
    · obtain ⟨e', he', rfl⟩ := hmem hc
      obtain rfl | ht := List.mem_cons.1 he'
      · exact le_rfl
      · exact Nat.le_of_lt ((List.pairwise_cons.1 hl).1 e' ht)

end

/-- The turns of a topic: who was there, and whose turn it was. -/
def turnsOf (topic : TopicAddress) (j : History) : List (List Nat × Nat) :=
  j.filterMap fun n => match n.2 with
    | .routed t live queues =>
      if t = topic then
        (startOf live queues).map fun e => (live.map fun e => e.1.value, e.1.value)
      else none
    | _ => none

theorem turnsOf_append (topic : TopicAddress) (j j' : History) :
    turnsOf topic (j ++ j') = turnsOf topic j ++ turnsOf topic j' := List.filterMap_append

section
variable {j₁ j₂ j₃ : History} {d : Directory}

/-- Where a publication begins. -/
theorem Keeps.startOf_eq (h : Keeps j store d) {live : List (Id × QueueRef)}
    (hj : j = j₁ ++ (i, .routed topic live queues) :: j₂) :
    Ascending live ∧ startOf live queues = successor (previousStart topic j₁) live := by
  obtain ⟨hasc, order, hturned, rfl⟩ := h.rotated j₁ i topic live queues j₂ hj
  refine ⟨hasc, Keeps.startOf_order hturned fun e he e' he' heq => ?_⟩
  have hseen := h.seen i topic live (order.map Prod.snd) (by rw [hj]; simp)
  have hfiled := hseen e he
  rw [heq, hseen e' he', Option.some.injEq, Prod.mk.injEq] at hfiled
  exact Prod.ext hfiled.1.symm heq

/-- While somebody is there, turns follow each other in the circle. -/
theorem Keeps.turning (h : Keeps j store d) {x : Id × QueueRef} {last : Id}
    (hj : j = j₁ ++ (j₂ ++ j₃)) (hlast : previousStart topic j₁ = some last)
    (hx : Present topic x j₂) : Turning last.value (turnsOf topic j₂) := by
  induction j₂ generalizing j₁ last with
  | nil => exact trivial
  | cons n j₂ ih =>
    have hrest : Present topic x j₂ := fun m hm => hx m (List.mem_cons_of_mem _ hm)
    have hhere := hx n List.mem_cons_self
    have hj' : j = (j₁ ++ [n]) ++ (j₂ ++ j₃) := by rw [hj]; simp
    have hstart : previousStart topic (j₁ ++ [n]) = _ := previousStart_append j₁ [n]
    simp only [List.foldl_cons, List.foldl_nil, hlast] at hstart
    obtain ⟨i, note⟩ := n
    cases note with
    | registered | attempted => exact ih hj' hstart hrest
    | vacated topics =>
      simp only [if_neg (show topic ∉ topics from hhere)] at hstart
      exact ih hj' hstart hrest
    | routed t live queues =>
      by_cases ht : t = topic
      · subst ht
        obtain ⟨hasc, heq⟩ := h.startOf_eq hj
        obtain ⟨e, -, hsucc, hnext⟩ := isNext_successor last hasc
          (List.ne_nil_of_mem (hhere rfl))
        rw [hlast, hsucc] at heq
        simp only [if_true, heq, Option.map_some, Option.some_or] at hstart
        have hturns : turnsOf t ((i, .routed t live queues) :: j₂) =
            (live.map fun e => e.1.value, e.1.value) :: turnsOf t j₂ := by
          simp [turnsOf, heq]
        rw [hturns]
        exact ⟨hnext, ih hj' hstart hrest⟩
      · simp only [if_neg ht] at hstart
        have hturns : turnsOf topic ((i, .routed t live queues) :: j₂) = turnsOf topic j₂ := by
          simp [turnsOf, ht]
        rw [hturns]
        exact ih hj' hstart hrest

/-- A turn is known by the id. -/
theorem Keeps.countP_turnsOf (h : Keeps j store d) {y : Id × QueueRef} (hj : j = j₁ ++ (j₂ ++ j₃))
    (hy : Present topic y j₂) :
    (turnsOf topic j₂).countP (·.2 = y.1.value) =
      j₂.countP (fun n => startsAt topic y n.2) := by
  induction j₂ generalizing j₁ with
  | nil => rfl
  | cons n j₂ ih =>
    have hrest := ih (show j = (j₁ ++ [n]) ++ (j₂ ++ j₃) by rw [hj]; simp)
      fun m hm => hy m (List.mem_cons_of_mem _ hm)
    have hhere := hy n List.mem_cons_self
    rw [List.countP_cons, ← hrest]
    obtain ⟨i, note⟩ := n
    cases note with
    | registered | attempted | vacated => simp [turnsOf, startsAt]
    | routed t live queues =>
      by_cases ht : t = topic
      · subst ht
        have hasc := (h.startOf_eq hj).1
        cases hs : startOf live queues with
        | none => simp [turnsOf, startsAt, hs]
        | some e =>
          have hiff : e.1.value = y.1.value ↔ e = y := by
            refine ⟨fun heq => hasc.eq_of_fst (startOf_mem hs) (hhere rfl) ?_,
              fun heq => by rw [heq]⟩
            exact congrArg Id.mk heq
          simp [turnsOf, startsAt, hs, List.countP_cons, hiff]
      · simp [turnsOf, startsAt, ht]

/-- **Everyone else is first once** between two publications that begin at one subscription. -/
theorem Keeps.first_once (h : Keeps j store d) {k : Nat} {live live' : List (Id × QueueRef)}
    {queues' : List QueueRef} {x y : Id × QueueRef}
    (hj : j = j₁ ++ (i, .routed topic live queues) ::
      (j₂ ++ (k, .routed topic live' queues') :: j₃))
    (hx : startOf live queues = some x) (hx' : startOf live' queues' = some x)
    (hnone : ∀ n ∈ j₂, startsAt topic x n.2 = false) (hy : y ∈ live) (hy' : y ∈ live')
    (hne : y ≠ x) : j₂.countP (fun n => startsAt topic y n.2) = 1 := by
  have hsteady := h.steady j₁ i topic live queues j₂ k live' queues' j₃ hj
  have hpx : Present topic x j₂ := hsteady x (startOf_mem hx) (startOf_mem hx')
  have hpy : Present topic y j₂ := hsteady y hy hy'
  have hasc := (h.startOf_eq hj).1
  -- the ids of the two differ
  have hids : x.1.value ≠ y.1.value := fun heq => hne
    (hasc.eq_of_fst hy (startOf_mem hx) (congrArg Id.mk heq.symm))
  have hprev : previousStart topic (j₁ ++ [(i, .routed topic live queues)]) = some x.1 := by
    rw [previousStart_append]
    simp [hx]
  have hj' : j = (j₁ ++ [(i, .routed topic live queues)]) ++
      (j₂ ++ (k, .routed topic live' queues') :: j₃) := by rw [hj]; simp
  have hlast : Turning x.1.value (turnsOf topic (j₂ ++ [(k, .routed topic live' queues')])) := by
    refine h.turning (show j = _ ++ (_ ++ j₃) by rw [hj']; simp) hprev (hpx.append fun n hn => ?_)
    cases List.mem_singleton.1 hn
    exact fun _ => startOf_mem hx'
  have hturn : turnsOf topic [(k, .routed topic live' queues')] =
      [(live'.map fun e => e.1.value, x.1.value)] := by simp [turnsOf, hx']
  rw [turnsOf_append, hturn] at hlast
  -- both were there at every turn
  have hthere : ∀ t ∈ turnsOf topic j₂, x.1.value ∈ t.1 ∧ y.1.value ∈ t.1 := by
    intro t ht
    obtain ⟨n, hn, heq⟩ := List.mem_filterMap.1 ht
    have hxn := hpx n hn
    have hyn := hpy n hn
    split at heq
    · rename_i t' l qs hnote
      rw [hnote] at hxn hyn
      split at heq
      · rename_i htopic
        obtain ⟨e, -, rfl⟩ := Option.map_eq_some_iff.1 heq
        exact ⟨List.mem_map.2 ⟨x, hxn htopic, rfl⟩, List.mem_map.2 ⟨y, hyn htopic, rfl⟩⟩
      · cases heq
    · cases heq
  have hnever : ∀ t ∈ turnsOf topic j₂, t.2 ≠ x.1.value := by
    have hzero : (turnsOf topic j₂).countP (·.2 = x.1.value) = 0 := by
      rw [h.countP_turnsOf hj' hpx, List.countP_eq_zero]
      simpa using hnone
    simpa using List.countP_eq_zero.1 hzero
  rw [← h.countP_turnsOf hj' hpy]
  exact (hlast.count_between hids hthere (List.mem_map.2 ⟨y, hy', rfl⟩) hnever).1 (owed_self hids)

end

/-! ## Runs -/

section
variable {S Q C X B : Type} {m : Machine S Q C Response X ProviderNote} {v : RegistryView S C B}

/-- A publisher comes to different queues. -/
theorem Keeps.nodup {d : Directory} (h : Keeps j store d) {live : List (Id × QueueRef)}
    (hr : (i, .routed topic live queues) ∈ j) :
    Ascending live ∧ queues.Nodup ∧ queues.Perm (live.map Prod.snd) := by
  obtain ⟨j₁, j₂, hj⟩ := List.append_of_mem hr
  obtain ⟨hasc, order, hturned, rfl⟩ := h.rotated j₁ i topic live queues j₂ hj
  have hperm := hturned.perm.map Prod.snd
  refine ⟨hasc, hperm.nodup_iff.2 ?_, hperm⟩
  have hpairs : live.Pairwise fun e e' => e.2 ≠ e'.2 := by
    refine hasc.imp_of_mem fun {e e'} he he' hlt heq => ?_
    have hseen := h.seen i topic live _ hr
    have hfiled := hseen e he
    rw [heq, hseen e' he', Option.some.injEq, Prod.mk.injEq] at hfiled
    rw [hfiled.1] at hlt
    exact Nat.lt_irrefl _ hlt
  exact List.pairwise_map.2 hpairs

/-- Where a thread stands says what it has been seen to do. -/
theorem Journey.route {t : Thread C Response} (h : Journey v i j store t) :
    Unrouted i j ∨
      ∃ topic live queues, OnRoute i j topic live queues ∧ attemptsOf i j <+: queues := by
  unfold Journey at h
  split at h
  · split at h
    · exact .inl h
    · obtain ⟨live, hroute, -⟩ := h
      exact .inr ⟨_, live, _, hroute, List.prefix_append _ _⟩
  · obtain ⟨topic, live, hroute, -⟩ := h
    exact .inr ⟨topic, live, _, hroute, List.prefix_rfl⟩
  · exact .inl h

theorem Journey.unrouted {response : Response} (h : Journey v i j store (.returned response))
    (hr : ∀ admissions, response ≠ .published (.ok (.destinationAdmissions admissions))) :
    Unrouted i j := by
  unfold Journey at h
  split at h
  · rename_i heq
    cases heq
  · rename_i admissions heq
    cases heq
    exact absurd rfl (hr admissions)
  · exact h

/-- **Publications take turns** in every run. -/
theorem Routed.takes_turns (hm : Routed m v) {maxCount : Nat} {maxWeight : Option ℕ+}
    (hs : Staged m v.toView maxCount maxWeight) {s : S}
    (hacc : Accounted maxCount maxWeight (v.store s)) (hheld : ∀ q, (v.store s).heldAt q = 0)
    (hshow : v.shows s .empty) (moves : List (Move Q X)) :
    ∃ w, m.reached (Machine.start s) moves = some w ∧
      RoutesInTurn previousStart (history m v s moves) w.threads := by
  obtain ⟨w, d, hw, -, -, hk, hthreads, hnumbered⟩ := hm.run hs hacc hheld hshow moves
  generalize history m v s moves = j at hk hthreads hnumbered
  -- a thread that was seen to do something exists
  have hroute : ∀ {i topic live queues}, (i, .routed topic live queues) ∈ j →
      OnRoute i j topic live queues ∧ attemptsOf i j <+: queues := by
    intro i topic live queues hr
    have hlt := hnumbered _ hr
    obtain hu | ⟨topic', live', queues', honly, hpre⟩ :=
      (hthreads i _ (List.getElem?_eq_getElem hlt)).2.route
    · exact absurd hr (hu.2 topic live queues)
    · obtain ⟨rfl, rfl, rfl⟩ := honly.only topic live queues hr
      exact ⟨honly, hpre⟩
  refine ⟨w, hw, hk.rotated, fun i topic live queues hr => ⟨(hk.nodup hr).2.1, (hroute hr).1⟩,
    fun i topic live queues hr => (hroute hr).2, fun i hnone => ?_, fun i admissions ht => ?_,
    fun i response ht hr => ((hthreads i _ ht).2.unrouted hr).2, ?_⟩
  · by_cases hi : i < w.threads.length
    · obtain hu | ⟨topic, live, queues, honly, -⟩ :=
        (hthreads i _ (List.getElem?_eq_getElem hi)).2.route
      · exact hu.1
      · exact absurd honly.taken (hnone topic live queues)
    · unfold attemptsOf
      rw [List.filterMap_eq_nil_iff]
      intro n hn
      have hne : n.1 ≠ i := fun heq => hi (heq ▸ hnumbered n hn)
      obtain ⟨k, note⟩ := n
      cases note <;> simp [hne]
  · obtain ⟨topic, live, honly, hids⟩ := (hthreads i _ ht).2
    obtain ⟨hasc, hnodup, hperm⟩ := hk.nodup honly.taken
    refine ⟨topic, live, honly.taken, hnodup, hperm, hids, ?_⟩
    have hvalues : (admissions.map fun a => a.subscriptionId.value) =
        live.map fun e => e.1.value := by
      simpa [Function.comp_def] using congrArg (List.map Id.value) hids
    rw [hvalues]
    exact List.pairwise_map.2 hasc
  · intro j₁ i topic live queues j₂ k live' queues' j₃ x y hj hx hx' hnone hy hy' hne
    exact hk.first_once hj hx hx' hnone hy hy' hne

end

/-- **Publications take turns** at both providers, in all interleavings of calls. -/
theorem publications_take_turns (maxInstant maxDuration foreign capacity maxCount : Nat)
    (maxWeight : Option ℕ+) (cells : List LocalSettlementState) :
    (∀ moves, ∃ w, (provider maxInstant foreign).reached
        (Machine.start (.new capacity maxCount maxWeight cells)) moves = some w ∧
      RoutesInTurn previousStart (history (provider maxInstant foreign) syncRegistry
        (.new capacity maxCount maxWeight cells) moves) w.threads) ∧
    ∀ moves, ∃ w, (asyncProvider maxInstant maxDuration foreign).reached
        (Machine.start (.new capacity maxCount maxWeight cells)) moves = some w ∧
      RoutesInTurn previousStart (history (asyncProvider maxInstant maxDuration foreign)
        asyncRegistry (.new capacity maxCount maxWeight cells) moves) w.threads := by
  constructor
  · exact (provider_routed maxInstant foreign).takes_turns
      (provider_staged maxInstant foreign maxCount maxWeight) (Accounted.new cells) (fun _ => rfl)
      (by exact BusState.shows_default)
  · exact (asyncProvider_routed maxInstant maxDuration foreign).takes_turns
      (asyncProvider_staged maxInstant maxDuration foreign maxCount maxWeight) (Accounted.new cells)
      (fun _ => rfl) ⟨AsyncBusState.shows_default, .inl fun _ => rfl⟩

/-! ## A topic that was left by all -/

/-- The routes taken in a run. -/
def routesOf (j : History) : List (TopicAddress × List (Id × QueueRef) × List QueueRef) :=
  j.filterMap fun n => match n.2 with
    | .routed topic live queues => some (topic, live, queues)
    | _ => none

/-- Where the last publication to the topic began, whatever has become of the topic since. -/
def lastStart (topic : TopicAddress) (j : History) : Option Id :=
  ((routesOf j).filterMap fun (t, live, queues) =>
    if t = topic then (startOf live queues).map Prod.fst else none).getLast?

/-- Two subscriptions get a message, are closed, and come back with their ids; then there is another
message. -/
def reopened {Q X : Type} (subscribe : Nat → Q) (publish : Q) (close : QueueRef → Q) (x : X) :
    List (Move Q X) :=
  let go (i : Nat) (request : Q) : List (Move Q X) := .call request :: List.replicate 6 (.step i x)
  go 0 (subscribe 1) ++ go 1 (subscribe 2) ++ go 2 publish ++ go 3 (close 0) ++ go 4 (close 1) ++
    go 5 (subscribe 1) ++ go 6 (subscribe 2) ++ go 7 publish

/-- The routes of both messages begin at the first subscription. -/
theorem not_rotated_of_routes (h : routesOf j = [(⟨"orders"⟩, [(⟨1⟩, 0), (⟨2⟩, 1)], [0, 1]),
      (⟨"orders"⟩, [(⟨1⟩, 2), (⟨2⟩, 3)], [2, 3])]) : ¬ Rotated lastStart j := by
  intro hr
  obtain ⟨j₁, j₂, rfl, hj₁, hj₂⟩ := List.filterMap_eq_append_iff.1
    (show routesOf j = [_] ++ [_] from h)
  obtain ⟨j₃, ⟨i, note⟩, j₄, rfl, hj₃, hnote, -⟩ := List.filterMap_eq_cons_iff.1 hj₂
  obtain ⟨topic, live, queues, rfl⟩ : ∃ topic live queues, note = .routed topic live queues := by
    cases note with
    | routed topic live queues => exact ⟨topic, live, queues, rfl⟩
    | vacated | registered | attempted => cases hnote
  simp only [Option.some.injEq, Prod.mk.injEq] at hnote
  obtain ⟨rfl, rfl, rfl⟩ := hnote
  have hlast : lastStart ⟨"orders"⟩ (j₁ ++ j₃) = some ⟨1⟩ := by
    have hroutes : routesOf (j₁ ++ j₃) = [(⟨"orders"⟩, [(⟨1⟩, 0), (⟨2⟩, 1)], [0, 1])] := by
      unfold routesOf
      rw [List.filterMap_append, hj₁, List.filterMap_eq_nil_iff.2 hj₃]
      rfl
    unfold lastStart
    rw [hroutes]
    decide
  obtain ⟨-, order, ⟨before, after, -, -, hhead⟩, heq⟩ := hr (j₁ ++ j₃) i ⟨"orders"⟩
    [(⟨1⟩, 2), (⟨2⟩, 3)] [2, 3] j₄ (by simp)
  -- the second subscription should be the first
  rw [hlast] at hhead
  have hfirst := congrArg List.head? heq
  rw [List.head?_map (l := order), hhead] at hfirst
  exact absurd hfirst (by decide)

/-- **A topic that everyone has left begins again** at the smallest id, with both providers. -/
theorem routing_restarts :
    (¬ ∀ moves, ∃ w, (provider 100 0).reached (Machine.start (.new 4 10 none [])) moves = some w ∧
      RoutesInTurn lastStart (history (provider 100 0) syncRegistry (.new 4 10 none []) moves)
        w.threads) ∧
    ¬ ∀ moves, ∃ w,
      (asyncProvider 100 100 0).reached (Machine.start (.new 4 10 none [])) moves = some w ∧
      RoutesInTurn lastStart
        (history (asyncProvider 100 100 0) asyncRegistry (.new 4 10 none []) moves)
        w.threads := by
  constructor
  · intro h
    obtain ⟨w, -, hw⟩ := h (reopened (fun id => .subscribe (ordersRequest id))
      (.publish (ordersMessage "a")) .close earlyTick)
    exact not_rotated_of_routes (by decide +kernel) hw.rotated
  · intro h
    obtain ⟨w, -, hw⟩ := h (reopened (fun id => .subscribe (ordersRequest id))
      (.publish (ordersMessage "a")) .close ⟨earlyMoment, earlyMoment, 0, .some _, .pending, false⟩)
    exact not_rotated_of_routes (by decide +kernel) hw.rotated

end EventBus.Local
