import EventBus.Local.IdleWait

/-!
# What a graceful shutdown discards

A graceful shutdown closes the registry, waits until a pass over all queues finds each of them idle,
and then closes the queues, discarding what they hold. A publisher that took its routes before the
registry was closed may come to a queue between the two, be told that its event was accepted, and
lose it to the cleanup of a shutdown that reports `Complete` (`drain_discards_accepted`). This is
all that can get lost (`Explained`): the shutdown has found the queue idle since it closed the
registry, and a delivery that its cleanup discards came after each such look, the last one included,
and from a publisher that had its routes before the registry was closed.
-/

namespace EventBus.Local

open Lib

/-- What is seen in a run: which thread did what. -/
abbrev Journal := List (Nat × ProviderNote)

/-! ## What holds of the journal -/

/-- Thread `k` had its routes before thread `i` closed the registry. -/
def RoutedBefore (j : Journal) (i k : Nat) : Prop :=
  ∃ a b, j = a ++ (i, .closing) :: b ∧ (k, .routed) ∈ a

/-- After closing the registry, thread `i` has found the queue `q` idle. -/
def Found (j : Journal) (i : Nat) (q : QueueRef) : Prop :=
  ∃ a b, j = a ++ (i, .idle q) :: b ∧ (i, .closing) ∈ a

/-- Thread `i` has found the queue `q` idle, and each time that it did, all of `events` came to the
queue after that, from publishers that had their routes before `i` closed the registry. -/
def Explained (j : Journal) (i : Nat) (q : QueueRef) (events : Multiset LocalEvent) : Prop :=
  Found j i q ∧ ∀ a b, j = a ++ (i, .idle q) :: b → (i, .closing) ∈ a →
    events ≤ admitted q (b.map Prod.snd) ∧
      ∀ k event, (k, .accepted q event) ∈ b → RoutedBefore a i k

/-- Whatever a graceful shutdown by thread `i` has discarded is explained by what came before. -/
def DiscardsExplained (j : Journal) (i : Nat) : Prop :=
  ∀ a b timeout q events, j = a ++ (i, .discarded (.graceful timeout) q events) :: b →
    Explained a i q events

/-- What holds of the journal and the shared state. -/
structure Drains (j : Journal) (store : Store) (r : Roster) : Prop where
  /-- Since a queue was found idle, it holds at most what it has been seen to be given. -/
  covered : ∀ a b i q, j = a ++ (i, .idle q) :: b → store.heldAt q ≤ admitted q (b.map Prod.snd)
  closed : ∀ i, (i, .closing) ∈ j → r.closed = true
  routes : ∀ a b i k, j = a ++ (i, .closing) :: b → (k, .routed) ∉ b
  accepts : ∀ a b k q event, j = a ++ (k, .accepted q event) :: b → (k, .routed) ∈ a

/-- What a call knows at its stage. -/
def Knows (j : Journal) (r : Roster) (i : Nat) : Stage → Prop
  | .publishing _ => (i, .routed) ∈ j
  | .draining => (i, .closing) ∈ j
  | .watching true seen queues => (i, .closing) ∈ j ∧ (∀ q ∈ r.members, q ∈ seen ∨ q ∈ queues) ∧
      ∀ q ∈ seen, Found j i q
  | .drained => (i, .closing) ∈ j ∧ ∀ q ∈ r.members, Found j i q
  | .cleaning queues => ∀ q ∈ queues, Found j i q
  | _ => True

/-- What holds of a call. -/
structure Reports (j : Journal) (r : Roster) (i : Nat) (g : Stage) : Prop where
  explained : g ≠ .late → DiscardsExplained j i
  knows : Knows j r i g

section
variable {j ns : Journal} {i : Nat} {q : QueueRef}

theorem Found.append (h : Found j i q) (ns : Journal) : Found (j ++ ns) i q := by
  obtain ⟨a, b, rfl, hc⟩ := h
  exact ⟨a, b ++ ns, by simp, hc⟩

/-- Other notes need no explanation. -/
theorem DiscardsExplained.append (h : DiscardsExplained j i)
    (hns : ∀ timeout q events, (i, .discarded (.graceful timeout) q events) ∉ ns) :
    DiscardsExplained (j ++ ns) i := by
  intro a b timeout q events heq
  rcases append_eq_append_cons heq with ⟨b', hj, -⟩ | ⟨a', -, hns'⟩
  · exact h a b' timeout q events hj
  · exact absurd (hns' ▸ by simp) (hns timeout q events)

theorem DiscardsExplained.snoc (h : DiscardsExplained j i) {timeout : Nat}
    {events : Multiset LocalEvent} (he : Explained j i q events) :
    DiscardsExplained (j ++ [(i, .discarded (.graceful timeout) q events)]) i := by
  intro a b timeout' p events' heq
  rcases append_eq_append_cons heq with ⟨b', hj, -⟩ | ⟨a', rfl, hns⟩
  · exact h a b' timeout' p events' hj
  · cases a' with
    | nil =>
      cases hns
      rwa [List.append_nil]
    | cons y a' => simp at hns

/-- What a queue holds is explained once it has been found idle. -/
theorem Drains.explained {store : Store} {r : Roster} (h : Drains j store r) (hf : Found j i q) :
    Explained j i q (store.heldAt q) := by
  refine ⟨hf, fun a b hj hc => ?_⟩
  subst hj
  refine ⟨h.covered a b i q rfl, fun k event hk => ?_⟩
  obtain ⟨a₁, a₂, rfl⟩ := List.append_of_mem hc
  obtain ⟨b₁, b₂, rfl⟩ := List.append_of_mem hk
  refine ⟨a₁, a₂, rfl, ?_⟩
  -- the route is before the admission, and not after the closing
  have hbefore := h.accepts (a₁ ++ (i, .closing) :: a₂ ++ (i, .idle q) :: b₁) b₂ k q event (by simp)
  have hnot := h.routes a₁ (a₂ ++ (i, .idle q) :: (b₁ ++ (k, .accepted q event) :: b₂)) i k
    (by simp)
  simp only [List.mem_append, List.mem_cons, Prod.mk.injEq, reduceCtorEq, and_false, false_or,
    not_or] at hbefore hnot
  rcases hbefore with (hm | hm) | hm
  · exact hm
  · exact absurd hm hnot.1
  · exact absurd hm hnot.2.1

end

/-! ## Steps -/

section
variable {j : Journal} {r r' : Roster} {store store' : Store} {g g' : Stage} {i : Nat}
  {notes : List ProviderNote}

theorem mem_tagged {i k : Nat} {n : ProviderNote} {notes : List ProviderNote} :
    (k, n) ∈ notes.map (i, ·) ↔ k = i ∧ n ∈ notes := by
  simp [eq_comm, and_comm]

/-- A step is seen once at most. -/
theorem StageStep.single (hs : StageStep r r' g notes g') {a b : Journal} {k : Nat}
    {n : ProviderNote} (h : notes.map (i, ·) = a ++ (k, n) :: b) :
    a = [] ∧ b = [] ∧ k = i ∧ notes = [n] := by
  have hlen : notes.length ≤ 1 := by cases hs <;> simp
  have heq := congrArg List.length h
  simp only [List.length_map, List.length_append, List.length_cons] at heq
  obtain rfl : a = [] := List.eq_nil_of_length_eq_zero (by omega)
  obtain rfl : b = [] := List.eq_nil_of_length_eq_zero (by omega)
  obtain ⟨n', rfl⟩ := List.length_eq_one_iff.1 (show notes.length = 1 by simpa using heq)
  cases h
  exact ⟨rfl, rfl, rfl, rfl⟩

theorem drains_step (h : Drains j store r) (hg : Knows j r i g) (hs : StageStep r r' g notes g')
    (hr : RosterStep notes r r') (he : StoreEffect store notes store') :
    Drains (j ++ notes.map (i, ·)) store' r' where
  covered a b k q heq := by
    rcases append_eq_append_cons heq with ⟨b', hj, rfl⟩ | ⟨a', -, hns⟩
    · rw [List.map_append, admitted_append, List.map_map]
      have hid : (Prod.snd ∘ fun n : ProviderNote => (i, n)) = id := rfl
      rw [hid, List.map_id]
      exact le_trans (he.heldAt q) (by gcongr; exact h.covered a b' k q hj)
    · -- the queue has just been found idle
      obtain ⟨-, rfl, -, rfl⟩ := hs.single hns
      cases he with
      | quiet hn => obtain h | h := hn _ List.mem_cons_self <;> cases h
      | idle hidle =>
        rw [hidle]
        exact Multiset.zero_le _
  closed k hk := by
    rcases List.mem_append.1 hk with hk | hk
    · exact hr.closed (h.closed k hk)
    · exact hr.closing (mem_tagged.1 hk).2
  routes a b k k' heq hm := by
    rcases append_eq_append_cons heq with ⟨b', hj, rfl⟩ | ⟨a', -, hns⟩
    · rcases List.mem_append.1 hm with hm | hm
      · exact h.routes a b' k k' hj hm
      · -- the registry was closed by then
        have hopen := hr.routed (mem_tagged.1 hm).2
        rw [h.closed k (hj ▸ by simp)] at hopen
        cases hopen
    · obtain ⟨-, rfl, -⟩ := hs.single hns
      cases hm
  accepts a b k q event heq := by
    rcases append_eq_append_cons heq with ⟨b', hj, -⟩ | ⟨a', rfl, hns⟩
    · exact h.accepts a b' k q event hj
    · obtain ⟨rfl, -, rfl, rfl⟩ := hs.single hns
      cases hs with
      | accept => exact List.mem_append_left _ hg

theorem knows_append (hg : Knows j r i g) (hdrains : Drains j store r) (ns : Journal)
    (hr : RosterStep notes r r') : Knows (j ++ ns) r' i g := by
  have hmem : ∀ n : Nat × ProviderNote, n ∈ j → n ∈ j ++ ns := fun n => List.mem_append_left _
  match g, hg with
  | .publishing _, hg | .draining, hg => exact hmem _ hg
  | .watching true seen queues, ⟨hc, hcover, hfound⟩ =>
    exact ⟨hmem _ hc, fun q hq => hcover q (hr.members (hdrains.closed i hc) hq),
      fun q hq => (hfound q hq).append ns⟩
  | .drained, ⟨hc, hfound⟩ =>
    exact ⟨hmem _ hc, fun q hq => (hfound q (hr.members (hdrains.closed i hc) hq)).append ns⟩
  | .cleaning queues, hg => exact fun q hq => (hg q hq).append ns
  | .calm, _ | .watching false _ _, _ | .found, _ | .late, _ => trivial

/-- What a call knows after a step of its own. -/
theorem knows_step (hg : Knows j r i g) (hdrains : Drains j store r)
    (hs : StageStep r r' g notes g') (hr : RosterStep notes r r') :
    Knows (j ++ notes.map (i, ·)) r' i g' := by
  have hkeep := knows_append hg hdrains (notes.map (i, ·)) hr
  cases hs with
  | keep => exact hkeep
  | route | closeAndDrain => exact List.mem_append_right _ List.mem_cons_self
  | accept | reject | skip => exact hkeep
  | watchAll hall => exact ⟨hkeep, fun q hq => .inr (hall q hq), fun q hq => nomatch hq⟩
  | @sawIdle drain q seen queues =>
    cases drain with
    | false => trivial
    | true =>
      obtain ⟨hc, hcover, hfound⟩ := hkeep
      refine ⟨hc, fun p hp => ?_, fun p hp => ?_⟩
      · rcases hcover p hp with hp | hp
        · exact .inl (List.mem_append_left _ hp)
        · rcases List.mem_cons.1 hp with rfl | hp
          · exact .inl (List.mem_append_right _ List.mem_cons_self)
          · exact .inr hp
      · rcases List.mem_append.1 hp with hp | hp
        · exact hfound p hp
        · obtain rfl := List.mem_singleton.1 hp
          exact ⟨j, [], rfl, hg.1⟩
  | @sawBusy drain seen queues =>
    cases drain with
    | false => trivial
    | true => exact hkeep.1
  | @sawAll drain seen =>
    cases drain with
    | false => trivial
    | true =>
      obtain ⟨hc, hcover, hfound⟩ := hkeep
      exact ⟨hc, fun q hq => hfound q ((hcover q hq).resolve_right fun h => nomatch h)⟩
  | clean hqueues => exact fun q hq => (hg.2 q (hqueues q hq)).append _
  | discard => exact fun q hq => hkeep q (List.mem_cons_of_mem _ hq)
  | published | close | watchTopic | cleaned | discardNow | discardLate | late | leaveDrain
  | leaveDrained => trivial

/-- What the step discards is explained. -/
theorem explained_step (hg : Reports j r i g) (hdrains : Drains j store r)
    (hs : StageStep r r' g notes g') (he : StoreEffect store notes store') (hl : g' ≠ .late) :
    DiscardsExplained (j ++ notes.map (i, ·)) i := by
  cases hs with
  | @discard timeout q queues events =>
    have hevents : events = store.heldAt q := by
      cases he with
      | quiet hn => obtain h | h := hn _ List.mem_cons_self <;> cases h
      | discarded hq => exact (Store.heldAt_eq hq).symm
    rw [hevents]
    exact (hg.explained (fun h => nomatch h)).snoc
      (hdrains.explained (hg.knows q List.mem_cons_self))
  | keep => exact (hg.explained hl).append (by simp)
  | discardLate | late => exact absurd rfl hl
  | _ => exact (hg.explained (fun h => nomatch h)).append (by simp)

end

section
variable {S Q C X B : Type}

/-- In every run from `s`, whatever a graceful shutdown that has reported `Complete` discarded is
explained by what came before. -/
def CompletesSoundly (m : Machine S Q C Response X ProviderNote) (s : S) : Prop :=
  ∀ moves, ∃ rs w, trace m.move (Machine.start s) moves = some (rs, w) ∧
    ∀ i, w.threads[i]? = some (.returned (.shutdown (.ok .complete))) →
      DiscardsExplained (m.notes (Machine.start s) moves) i

theorem Staged.completesSoundly {m : Machine S Q C Response X ProviderNote} {v : View S C B}
    {maxCount : Nat} {maxWeight : Option ℕ+} (hm : Staged m v maxCount maxWeight) {s : S}
    (h : Accounted maxCount maxWeight (v.store s)) : CompletesSoundly m s := by
  intro moves
  have hmoves : Meets m.move (fun _ _ => True) (Machine.start s) moves :=
    meets_of_forall _ fun _ _ => trivial
  obtain ⟨rs, w, hrun, hw⟩ := Machine.run_holds (m := m)
    (G := fun j s => Accounted maxCount maxWeight (v.store s) ∧ Drains j (v.store s) (v.rosterOf s))
    (L := fun j s i t => (∀ c, t = .running c → v.weighed maxWeight c) ∧
      Reports j (v.rosterOf s) i (v.stageOf t))
    (fun j w request hw _ => by
      obtain ⟨hweighed, hcalm⟩ := hm.enter request
      refine ⟨fun c heq => by cases heq; exact hweighed, fun _ a b timeout q events hj => ?_, ?_⟩
      · -- a thread that does not exist yet has discarded nothing
        have hlt := hw.numbered (w.threads.length, .discarded (.graceful timeout) q events)
          (hj ▸ by simp)
        exact absurd hlt (Nat.lt_irrefl _)
      · show Knows j _ _ (v.stage (m.enter request))
        rw [hcalm]
        trivial)
    (fun j w i c x hw hc _ => by
      obtain ⟨haccounted, hdrains⟩ := hw.shared
      obtain ⟨hweighed, hreports⟩ := hw.threads i _ hc
      obtain ⟨s', t, notes, heq, hstep⟩ := hm.step w.shared i c x haccounted (hweighed c rfl)
      refine ⟨s', t, notes, heq, ⟨hstep.accounted, ?_⟩, ⟨hstep.weighed, ?_, ?_⟩, ?_⟩
      · exact drains_step hdrains hreports.knows hstep.stage hstep.roster hstep.effect
      · exact explained_step hreports hdrains hstep.stage hstep.effect
      · exact knows_step hreports.knows hdrains hstep.stage hstep.roster
      · intro k u hk _ hl
        refine ⟨hl.1, fun hlate => (hl.2.explained hlate).append fun _ _ _ hm => ?_, ?_⟩
        · exact hk (mem_tagged.1 hm).1
        · exact knows_append hl.2.knows hdrains _ hstep.roster)
    ⟨h, fun a b i q hj => by simp at hj, fun _ hm => (nomatch hm), fun a b i k hj => by simp at hj,
      fun a b k q event hj => by simp at hj⟩
    hmoves
  exact ⟨rs, w, hrun, fun i hi => (hw.threads i _ hi).2.explained fun h => nomatch h⟩

end

/-- **What a graceful shutdown can lose.** -/
theorem shutdown_completes_soundly (maxInstant maxDuration foreign capacity maxCount : Nat)
    (maxWeight : Option ℕ+) (cells : List LocalSettlementState) :
    CompletesSoundly (provider maxInstant foreign)
      (LocalSharedState.new capacity maxCount maxWeight cells) ∧
    CompletesSoundly (asyncProvider maxInstant maxDuration foreign)
      (AsyncLocalShared.new capacity maxCount maxWeight cells) := by
  constructor
  · exact (provider_staged maxInstant foreign maxCount maxWeight).completesSoundly
      (Accounted.new cells)
  · exact (asyncProvider_staged maxInstant maxDuration foreign maxCount maxWeight).completesSoundly
      (Accounted.new cells)

/-! ## A loss -/

/-- No graceful shutdown that reports `Complete` has discarded what a publisher saw accepted. -/
def DiscardsNothingAccepted {S Q C X : Type} (m : Machine S Q C Response X ProviderNote) (s : S) :
    Prop :=
  ∀ moves w i k timeout q event events, m.reached (Machine.start s) moves = some w →
    w.threads[i]? = some (.returned (.shutdown (.ok .complete))) →
    (k, .accepted q event) ∈ m.notes (Machine.start s) moves →
    (i, .discarded (.graceful timeout) q events) ∈ m.notes (Machine.start s) moves →
    event ∉ events

/-- An order for maps with the one key `k`. -/
noncomputable def KeyOrder.single {K : Type} [DecidableEq K] (k : K) : KeyOrder K where
  keys s := if s = {k} then [k] else s.toList
  nodup s := by
    split
    · exact List.nodup_singleton k
    · exact s.nodup_toList
  mem_keys s k' := by
    split
    · subst_vars
      simp
    · exact Finset.mem_toList

/-- Threads 0 to 2 subscribe, publish and shut down. The publisher has its route when the shutdown
closes the registry; it gets to the queue, and returns, between the look and the cleanup. -/
def losing {Q X : Type} (subscribe publish shutdown : Q) (x : X) (look cleanup : Nat) :
    List (Move Q X) :=
  let go (i n : Nat) : List (Move Q X) := List.replicate n (.step i x)
  [.call subscribe] ++ go 0 1 ++ [.call publish] ++ go 1 1 ++ [.call shutdown] ++ go 2 look ++
    go 1 3 ++ go 2 cleanup

noncomputable def losingSync : List (Move Request Tick) :=
  losing (.subscribe (ordersRequest 1)) (.publish (ordersMessage "a")) (.shutdown (.graceful 5))
    ⟨earlyMoment, earlyMoment, .single ⟨"orders"⟩, false⟩ 7 5

noncomputable def losingAsync : List (Move AsyncRequest AsyncTick) :=
  losing (.subscribe (ordersRequest 1)) (.publish (ordersMessage "a")) (.shutdown (.graceful 5))
    ⟨earlyMoment, earlyMoment, 0, .single ⟨1⟩, .pending, false⟩ 4 3

/-- Message `a` in a queue. -/
def ordersEvent : LocalEvent :=
  ⟨⟨"orders"⟩, ⟨"a"⟩, 0, ∅, none, 0, ⟨⟨0⟩, 0⟩, none⟩

/-- What is seen of both runs. -/
def lost : Journal :=
  [(1, .routed), (2, .closing), (2, .idle 0), (1, .accepted 0 ordersEvent),
    (2, .discarded (.graceful 5) 0 {ordersEvent})]

/-- The thread has reported that the shutdown is complete. -/
def saysComplete {C : Type} : Thread C Response → Bool
  | .returned (.shutdown (.ok .complete)) => true
  | _ => false

theorem eq_of_saysComplete {C : Type} {t : Thread C Response} (h : saysComplete t = true) :
    t = .returned (.shutdown (.ok .complete)) := by
  unfold saysComplete at h
  split at h
  · rfl
  · cases h

theorem not_discardsNothingAccepted {S Q C X : Type} {m : Machine S Q C Response X ProviderNote}
    {s : S} (moves : List (Move Q X)) (hnotes : m.notes (Machine.start s) moves = lost)
    (hdone : ((m.reached (Machine.start s) moves).bind fun w => (w.threads[2]?).map saysComplete) =
      some true) :
    ¬ DiscardsNothingAccepted m s := by
  intro h
  obtain ⟨w, hw, ht⟩ := Option.bind_eq_some_iff.1 hdone
  obtain ⟨t, ht, hcomplete⟩ := Option.map_eq_some_iff.1 ht
  rw [eq_of_saysComplete hcomplete] at ht
  refine h moves w 2 1 5 0 ordersEvent {ordersEvent} hw ht ?_ ?_ (Multiset.mem_singleton_self _)
  · rw [hnotes]
    simp [lost]
  · rw [hnotes]
    simp [lost]

/-- **An accepted delivery can get lost** with both providers. -/
theorem drain_discards_accepted :
    ¬ DiscardsNothingAccepted (provider 100 0) (LocalSharedState.new 4 10 none []) ∧
    ¬ DiscardsNothingAccepted (asyncProvider 100 100 0) (AsyncLocalShared.new 4 10 none []) := by
  constructor
  · exact not_discardsNothingAccepted losingSync (by decide +kernel) (by decide +kernel)
  · exact not_discardsNothingAccepted losingAsync (by decide +kernel) (by decide +kernel)

end EventBus.Local
