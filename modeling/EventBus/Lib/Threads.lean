import EventBus.Lib.Trace
import Mathlib.Data.Multiset.Bind
import Mathlib.Algebra.BigOperators.Group.List.Basic

/-!
# Threads that share a state

A `Machine` is the code of calls that threads make on a shared state. A call in progress is a
value: where it stands and what its local variables are. A step takes one call on to the end of
its next critical section, so a loop of the code needs no fuel: each round is a step of its own. A
step reads the shared state, the number of its thread (for locks that know their holder) and
an input `X`, which stands for the clock and for all the code leaves open. A call that waits for a
lock has a step that changes nothing.

A `World` is a shared state with any number of threads. A run is a list of moves, each of which
starts a call or takes one step of one thread, so a theorem about all runs is about all
interleavings. Steps are labelled with what an observer of the sections sees, and a run's labels,
with the threads they come from, are its `notes`.

`Machine.run_tallies` is the invariant rule: an invariant has a part about the shared state and one
part for each thread, and a step has to keep the parts of all other threads too. Both may speak of a
sum over the threads, such as what they hold together. In `Machine.run_sums` only the shared part
does, and `Machine.run_holds` is the rule without a sum.
-/

namespace EventBus.Lib

/-- A call in progress, or the value it returned. -/
inductive Thread (C R : Type) where
  | running (call : C)
  | returned (value : R)
deriving DecidableEq

/-- The code of calls `Q` on a shared state `S`; `none` is a panic. -/
structure Machine (S Q C R X E : Type) where
  enter : Q → C
  step : S → Nat → C → X → Option (S × Thread C R × List E)

structure World (S C R : Type) where
  shared : S
  threads : List (Thread C R)

inductive Move (Q X : Type) where
  | call (q : Q)
  | step (i : Nat) (x : X)

namespace Machine

variable {S Q C R X E : Type} (m : Machine S Q C R X E) {moves : List (Move Q X)}
  {D : World S C R → Move Q X → Prop} {w w' : World S C R} {s : S}

/-- One move. A thread that does not exist or has returned does nothing. -/
def move (w : World S C R) : Move Q X → Option (List (Nat × E) × World S C R)
  | .call q => some ([], { w with threads := w.threads ++ [.running (m.enter q)] })
  | .step i x =>
    match w.threads[i]? with
    | some (.running c) =>
      (m.step w.shared i c x).map fun (s, t, es) => (es.map (i, ·), ⟨s, w.threads.set i t⟩)
    | _ => some ([], w)

/-- The labels of a run, in order. -/
def notes (w : World S C R) (moves : List (Move Q X)) : List (Nat × E) :=
  journal m.move (fun _ _ es _ => es) w moves

/-- A world without calls. -/
def start (s : S) : World S C R := ⟨s, []⟩

/-- The world after a run; `none` after a panic. -/
def reached (w : World S C R) (moves : List (Move Q X)) : Option (World S C R) :=
  (trace m.move w moves).map Prod.snd

variable {m}

theorem reached_take_succ {n : Nat} (hn : n < moves.length)
    (h : m.reached w (moves.take n) = some w') :
    m.reached w (moves.take (n + 1)) = (m.move w' moves[n]).map Prod.snd := by
  obtain ⟨⟨es, w'⟩, ht, rfl⟩ := Option.map_eq_some_iff.1 h
  rw [reached, List.take_succ_eq_append_getElem hn, trace_append, ht, Option.bind_some]
  cases hm : m.move w' moves[n] with
  | none => simp [trace, hm]
  | some r => simp [trace, hm]

theorem reached_cons (w : World S C R) (a : Move Q X) (moves : List (Move Q X)) :
    m.reached w (a :: moves) = (m.move w a).bind fun r => m.reached r.2 moves := by
  unfold reached
  cases h : m.move w a with
  | none => simp [trace, h]
  | some r => rw [trace_cons h, Option.bind_some, Option.map_map]; rfl

theorem reached_append (w : World S C R) (moves moves' : List (Move Q X)) :
    m.reached w (moves ++ moves') = (m.reached w moves).bind fun v => m.reached v moves' := by
  induction moves generalizing w with
  | nil => rfl
  | cons a moves ih =>
    rw [List.cons_append, reached_cons, reached_cons, Option.bind_assoc]
    simp only [ih]

/-- What every move keeps, a run keeps from any of its worlds on. -/
theorem reached_keeps {I : World S C R → Prop}
    (hmove : ∀ w a es w', I w → m.move w a = some (es, w') → I w') {v : World S C R} {n : Nat}
    (hv : m.reached w (moves.take n) = some v) (hw : m.reached w moves = some w') (h : I v) :
    I w' := by
  rw [← List.take_append_drop n moves, reached_append, hv, Option.bind_some] at hw
  generalize moves.drop n = later at hw
  clear hv
  induction later generalizing v with
  | nil =>
    cases hw
    exact h
  | cons a later ih =>
    rw [reached_cons] at hw
    obtain ⟨⟨es, v₁⟩, hmv, hw⟩ := Option.bind_eq_some_iff.1 hw
    exact ih (hmove v a es v₁ h hmv) hw

/-- The same machine for another observer, who may also look at the state and the call. -/
def relabel {E' : Type} (m : Machine S Q C R X E)
    (see : S → C → S → Thread C R → List E → List E') : Machine S Q C R X E' where
  enter := m.enter
  step s i c x := (m.step s i c x).map fun (s', t, es) => (s', t, see s c s' t es)

/-- It goes through the same worlds. -/
theorem reached_relabel {E' : Type} (see : S → C → S → Thread C R → List E → List E')
    (w : World S C R) (moves : List (Move Q X)) :
    (m.relabel see).reached w moves = m.reached w moves := by
  induction moves generalizing w with
  | nil => rfl
  | cons a moves ih =>
    have hmove : ((m.relabel see).move w a).map Prod.snd = (m.move w a).map Prod.snd := by
      cases a with
      | call q => rfl
      | step i x =>
        simp only [move, relabel]
        split
        · rw [Option.map_map, Option.map_map, Option.map_map]
          rfl
        · rfl
    rw [reached_cons, reached_cons]
    cases h : (m.relabel see).move w a with
    | none =>
      rw [h, Option.map_none, eq_comm, Option.map_eq_none_iff] at hmove
      rw [hmove]
      rfl
    | some r =>
      rw [h, Option.map_some, eq_comm, Option.map_eq_some_iff] at hmove
      obtain ⟨r', hr', heq⟩ := hmove
      rw [hr', Option.bind_some, Option.bind_some, heq, ih]

/-- A call in progress is where it was, or the move was a step of it. -/
theorem move_running {a : Move Q X} {es : List (Nat × E)} {i : Nat} {c : C}
    (hc : w.threads[i]? = some (.running c)) (h : m.move w a = some (es, w')) :
    w'.threads[i]? = some (.running c) ∨
      ∃ x t notes, a = .step i x ∧ m.step w.shared i c x = some (w'.shared, t, notes) ∧
        w'.threads[i]? = some t := by
  have hi := (List.getElem?_eq_some_iff.1 hc).1
  cases a with
  | call q =>
    cases h
    exact .inl (by rw [List.getElem?_append_left hi, hc])
  | step k x =>
    simp only [move] at h
    split at h
    · rename_i d hd
      obtain ⟨⟨s, t, notes⟩, hs, heq⟩ := Option.map_eq_some_iff.1 h
      cases heq
      by_cases hk : k = i
      · subst hk
        rw [hc] at hd
        cases hd
        exact .inr ⟨x, t, notes, rfl, hs, List.getElem?_set_self hi⟩
      · exact .inl (by rw [List.getElem?_set_ne hk, hc])
    · cases h
      exact .inl hc

/-! ## Requests -/

/-- The calls of a run, in order: the one with number `i` is thread `i`. -/
def requests (moves : List (Move Q X)) : List Q :=
  moves.filterMap fun
    | .call q => some q
    | .step _ _ => none

/-- What every thread keeps of its request. -/
theorem reached_answers {K : Q → Thread C R → Prop} (hcall : ∀ q, K q (.running (m.enter q)))
    (hstep : ∀ q s i c x s' t es, K q (.running c) → m.step s i c x = some (s', t, es) → K q t)
    {asked : List Q} (h : List.Forall₂ K asked w.threads) (hw : m.reached w moves = some w') :
    List.Forall₂ K (asked ++ requests moves) w'.threads := by
  induction moves generalizing w asked with
  | nil =>
    cases hw
    simpa [requests] using h
  | cons a moves ih =>
    rw [reached_cons] at hw
    obtain ⟨⟨es, w₁⟩, hmove, hreached⟩ := Option.bind_eq_some_iff.1 hw
    cases a with
    | call q =>
      cases hmove
      have hnext := ih (List.rel_append h (.cons (hcall q) .nil)) hreached
      simpa [requests] using hnext
    | step i x =>
      refine ih ?_ hreached
      simp only [move] at hmove
      split at hmove
      · rename_i c hc
        obtain ⟨⟨s, t, es'⟩, heq, hpair⟩ := Option.map_eq_some_iff.1 hmove
        cases hpair
        refine List.forall₂_iff_get.2 ⟨by simpa using h.length_eq, fun k hk hk' => ?_⟩
        obtain ⟨-, hget⟩ := List.forall₂_iff_get.1 h
        have hk₀ : k < w.threads.length := by simpa using hk'
        have hold := hget k hk hk₀
        rw [List.get_eq_getElem, List.get_eq_getElem] at hold ⊢
        by_cases hki : i = k
        · subst hki
          rw [(List.getElem?_eq_some_iff.1 hc).2] at hold
          rw [List.getElem_set_self]
          exact hstep _ _ _ _ _ _ _ _ hold heq
        · rw [List.getElem_set_ne hki]
          exact hold
      · cases hmove
        exact h

/-! ## Sums over the threads -/

section
variable {M : Type} [AddCommMonoid M]

def total (f : Thread C R → M) (threads : List (Thread C R)) : M := (threads.map f).sum

variable {threads : List (Thread C R)}

/-- A step changes one term of the sum; the terms of the other threads are in the rest. -/
theorem total_set (f : Thread C R → M) {i : Nat} {t : Thread C R} (h : threads[i]? = some t) :
    ∃ rest, total f threads = rest + f t ∧ (∀ t', total f (threads.set i t') = rest + f t') ∧
      ∀ k u, k ≠ i → threads[k]? = some u → ∃ others, rest = others + f u := by
  obtain ⟨hi, rfl⟩ := List.getElem?_eq_some_iff.1 h
  refine ⟨total f (threads.eraseIdx i), ?_, fun t' => ?_, fun k u hk hu => ?_⟩
  · conv_lhs => rw [total, ← List.take_append_drop i threads, List.drop_eq_getElem_cons hi]
    simp only [total, List.eraseIdx_eq_take_drop_succ, List.map_append, List.map_cons,
      List.sum_append, List.sum_cons]
    ac_rfl
  · rw [total, List.set_eq_take_append_cons_drop, if_pos hi]
    simp only [total, List.eraseIdx_eq_take_drop_succ, List.map_append, List.map_cons,
      List.sum_append, List.sum_cons]
    ac_rfl
  · have hmem : u ∈ threads.eraseIdx i := List.mem_eraseIdx_iff_getElem?.2 ⟨k, hk, hu⟩
    obtain ⟨before, after, heq⟩ := List.append_of_mem hmem
    refine ⟨total f before + total f after, ?_⟩
    rw [heq]
    simp only [total, List.map_append, List.map_cons, List.sum_append, List.sum_cons]
    ac_rfl

theorem total_eq_zero {f : Thread C R → M} (h : ∀ (i : Nat) t, threads[i]? = some t → f t = 0) :
    total f threads = 0 := by
  refine List.sum_eq_zero fun x hx => ?_
  obtain ⟨t, ht, rfl⟩ := List.mem_map.1 hx
  obtain ⟨i, hi⟩ := List.getElem?_of_mem ht
  exact h i t hi

theorem mem_total {A : Type} {f : Thread C R → Multiset A} {a : A} (h : a ∈ total f threads) :
    ∃ (i : Nat) (t : Thread C R), threads[i]? = some t ∧ a ∈ f t := by
  rw [total, ← Multiset.sum_coe] at h
  obtain ⟨held, hheld, ha⟩ := Multiset.mem_join.1 h
  obtain ⟨t, ht, rfl⟩ := List.mem_map.1 (Multiset.mem_coe.1 hheld)
  obtain ⟨i, hi⟩ := List.getElem?_of_mem ht
  exact ⟨i, t, hi, ha⟩

end

/-! ## Invariants -/

/-- `G` holds of the shared state and the sum of `f` over the threads, and `L` of these and every
thread; both may speak of the past. Only threads that exist are seen in it. -/
structure Tallies {M : Type} [AddCommMonoid M] (f : Thread C R → M)
    (G : List (Nat × E) → M → S → Prop) (L : List (Nat × E) → M → S → Nat → Thread C R → Prop)
    (j : List (Nat × E)) (w : World S C R) : Prop where
  shared : G j (total f w.threads) w.shared
  threads : ∀ i t, w.threads[i]? = some t → L j (total f w.threads) w.shared i t
  numbered : ∀ e ∈ j, e.1 < w.threads.length

section
variable {M : Type} [AddCommMonoid M] {f : Thread C R → M} {G : List (Nat × E) → M → S → Prop}
  {L : List (Nat × E) → M → S → Nat → Thread C R → Prop}

theorem tallies_start (h : G [] 0 s) : Tallies f G L [] (start s) :=
  ⟨h, fun _ _ ht => (nomatch ht), fun _ he => nomatch he⟩

variable
  (hcall : ∀ j w q, Tallies f G L j w → D w (.call q) → f (.running (m.enter q)) = 0 ∧
    L j (total f w.threads) w.shared w.threads.length (.running (m.enter q)))
  (hstep : ∀ j w i c x rest, Tallies f G L j w → w.threads[i]? = some (.running c) →
    D w (.step i x) → total f w.threads = rest + f (.running c) →
    (∀ k u, k ≠ i → w.threads[k]? = some u → ∃ others, rest = others + f u) →
    ∃ s t es, m.step w.shared i c x = some (s, t, es) ∧ G (j ++ es.map (i, ·)) (rest + f t) s ∧
      L (j ++ es.map (i, ·)) (rest + f t) s i t ∧
      ∀ k u, k ≠ i → w.threads[k]? = some u → L j (rest + f (.running c)) w.shared k u →
        L (j ++ es.map (i, ·)) (rest + f t) s k u)
include hcall hstep

/-- **The step rule.** The thread that moves shows its own part and that the others keep
theirs; the others' share of the sum is `rest`, and what one of them holds is in it. -/
theorem move_tallies {j : List (Nat × E)} {a : Move Q X} (h : Tallies f G L j w) (ha : D w a) :
    ∃ es w', m.move w a = some (es, w') ∧ Tallies f G L (j ++ es) w' := by
  cases a with
  | call q =>
    obtain ⟨hzero, hl⟩ := hcall j w q h ha
    have hsame : total f (w.threads ++ [.running (m.enter q)]) = total f w.threads := by
      simp [total, hzero]
    refine ⟨_, _, rfl, ?_⟩
    rw [List.append_nil]
    refine ⟨?_, fun i t ht => ?_, fun e he => ?_⟩
    case refine_1 =>
      rw [hsame]
      exact h.shared
    case refine_3 =>
      have hlt := h.numbered e he
      simp only [List.length_append, List.length_singleton]
      omega
    obtain hi | ⟨hi, rfl⟩ : w.threads[i]? = some t ∨
        i = w.threads.length ∧ t = .running (m.enter q) := by
      rw [List.getElem?_append] at ht
      split at ht
      · exact .inl ht
      · rename_i hlt
        rw [List.getElem?_singleton] at ht
        split at ht
        · exact .inr ⟨by omega, (Option.some.inj ht).symm⟩
        · cases ht
    · rw [hsame]
      exact h.threads i t hi
    · rw [hsame]
      exact hi ▸ hl
  | step i x =>
    simp only [move]
    split
    · rename_i c hc
      obtain ⟨rest, hrest, hset, hothers⟩ := total_set f hc
      obtain ⟨s, t, es, heq, hg, hl, hkeep⟩ := hstep j w i c x rest h hc ha hrest hothers
      have hi := (List.getElem?_eq_some_iff.1 hc).1
      refine ⟨_, _, by rw [heq]; rfl, by rw [hset]; exact hg, fun k u hu => ?_, fun e he => ?_⟩
      case refine_2 =>
        rw [List.length_set]
        obtain he | he := List.mem_append.1 he
        · exact h.numbered e he
        · obtain ⟨n, -, rfl⟩ := List.mem_map.1 he
          exact hi
      rw [hset]
      by_cases hk : k = i
      · subst hk
        rw [List.getElem?_set_self hi] at hu
        cases hu
        exact hl
      · rw [List.getElem?_set_ne (Ne.symm hk)] at hu
        exact hkeep k u hk hu (hrest ▸ h.threads k u hu)
    · exact ⟨[], w, rfl, by rwa [List.append_nil]⟩

/-- **The run rule.** -/
theorem run_tallies (h : G [] 0 s) (hmoves : Meets m.move D (start s) moves) :
    ∃ rs w, trace m.move (start s) moves = some (rs, w) ∧
      Tallies f G L (m.notes (start s) moves) w :=
  journal_meets (fun _ _ es _ => es) (fun _ _ _ => move_tallies hcall hstep) (tallies_start h)
    hmoves

end

/-- `G` holds of the shared state and the sum of `f` over the threads, and `L` of every thread. -/
structure Sums {M : Type} [AddCommMonoid M] (f : Thread C R → M)
    (G : List (Nat × E) → M → S → Prop) (L : List (Nat × E) → S → Nat → Thread C R → Prop)
    (j : List (Nat × E)) (w : World S C R) : Prop where
  shared : G j (total f w.threads) w.shared
  threads : ∀ i t, w.threads[i]? = some t → L j w.shared i t
  numbered : ∀ e ∈ j, e.1 < w.threads.length

section
variable {M : Type} [AddCommMonoid M] {f : Thread C R → M} {G : List (Nat × E) → M → S → Prop}
  {L : List (Nat × E) → S → Nat → Thread C R → Prop}

/-- **The run rule** when the threads' parts do not speak of the sum. -/
theorem run_sums (hcall : ∀ j w q, Sums f G L j w → D w (.call q) →
      f (.running (m.enter q)) = 0 ∧ L j w.shared w.threads.length (.running (m.enter q)))
    (hstep : ∀ j w i c x rest, Sums f G L j w → w.threads[i]? = some (.running c) →
      D w (.step i x) → total f w.threads = rest + f (.running c) →
      ∃ s t es, m.step w.shared i c x = some (s, t, es) ∧ G (j ++ es.map (i, ·)) (rest + f t) s ∧
        L (j ++ es.map (i, ·)) s i t ∧
        ∀ k u, k ≠ i → w.threads[k]? = some u → L j w.shared k u → L (j ++ es.map (i, ·)) s k u)
    (h : G [] 0 s) (hmoves : Meets m.move D (start s) moves) :
    ∃ rs w, trace m.move (start s) moves = some (rs, w) ∧
      Sums f G L (m.notes (start s) moves) w := by
  obtain ⟨rs, w, htrace, hw⟩ := run_tallies (f := f) (G := G) (L := fun j _ s i t => L j s i t)
    (fun j w q hs hd => hcall j w q ⟨hs.shared, hs.threads, hs.numbered⟩ hd)
    (fun j w i c x rest hs hc hd hrest _ =>
      hstep j w i c x rest ⟨hs.shared, hs.threads, hs.numbered⟩ hc hd hrest)
    h hmoves
  exact ⟨rs, w, htrace, hw.shared, hw.threads, hw.numbered⟩

end

/-- `G` holds of the shared state and `L` of every thread. -/
structure Holds (G : List (Nat × E) → S → Prop)
    (L : List (Nat × E) → S → Nat → Thread C R → Prop) (j : List (Nat × E)) (w : World S C R) :
    Prop where
  shared : G j w.shared
  threads : ∀ i t, w.threads[i]? = some t → L j w.shared i t
  numbered : ∀ e ∈ j, e.1 < w.threads.length

section
variable {G : List (Nat × E) → S → Prop} {L : List (Nat × E) → S → Nat → Thread C R → Prop}

/-- **The run rule** without a sum. -/
theorem run_holds (hcall : ∀ j w q, Holds G L j w → D w (.call q) →
      L j w.shared w.threads.length (.running (m.enter q)))
    (hstep : ∀ j w i c x, Holds G L j w → w.threads[i]? = some (.running c) → D w (.step i x) →
      ∃ s t es, m.step w.shared i c x = some (s, t, es) ∧ G (j ++ es.map (i, ·)) s ∧
        L (j ++ es.map (i, ·)) s i t ∧
        ∀ k u, k ≠ i → w.threads[k]? = some u → L j w.shared k u → L (j ++ es.map (i, ·)) s k u)
    (h : G [] s) (hmoves : Meets m.move D (start s) moves) :
    ∃ rs w, trace m.move (start s) moves = some (rs, w) ∧
      Holds G L (m.notes (start s) moves) w := by
  obtain ⟨rs, w, htrace, hw⟩ := run_sums (M := ℕ) (f := fun _ => 0) (G := fun j _ s => G j s)
    (fun j w q hs hd => ⟨rfl, hcall j w q ⟨hs.shared, hs.threads, hs.numbered⟩ hd⟩)
    (fun j w i c x _ hs hc hd _ => hstep j w i c x ⟨hs.shared, hs.threads, hs.numbered⟩ hc hd)
    h hmoves
  exact ⟨rs, w, htrace, hw.shared, hw.threads, hw.numbered⟩

end

end Machine

end EventBus.Lib
