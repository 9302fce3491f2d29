import EventBus.Local.ProviderSteps

/-!
# Capacity is conserved

In every interleaving of calls the budget has in use what the open queues hold, and all limits hold.
No thread has to remember anything for this but that a publisher strips its event of its weight if
there is no limit on weights.
-/

namespace EventBus.Local

open Lib

variable {maxWeight : Option ℕ+} {maxCount : Nat}

/-- The budget has in use what the open queues hold, and nothing is over a limit. -/
structure Conserved (maxCount : Nat) (maxWeight : Option ℕ+) (s : Store) : Prop where
  count : s.outstanding.state.countUsed = ((s.queues.filter fun queue => !queue.state.closed).map
    fun queue => queue.state.pendingCount + queue.state.inFlight.size).sum
  weight : s.outstanding.state.weightUsed =
    ((s.queues.filter fun queue => !queue.state.closed).map (·.state.heldWeight)).sum
  weightless : maxWeight = none → s.outstanding.state.weightUsed = 0
  maxCount : s.outstanding.state.countUsed ≤ maxCount
  maxWeight : ∀ limit, maxWeight = some limit → s.outstanding.state.weightUsed ≤ limit.val
  capacity : ∀ queue ∈ s.queues,
    queue.state.pendingCount + queue.state.inFlight.size ≤ queue.capacity

/-- What is zero on the queues left out can be summed over all. -/
theorem sum_map_filter {α : Type} (p : α → Bool) (g : α → Nat) (l : List α)
    (h : ∀ a ∈ l, p a = false → g a = 0) : ((l.filter p).map g).sum = (l.map g).sum := by
  induction l with
  | nil => rfl
  | cons a l ih =>
    have hl := ih fun b hb => h b (List.mem_cons_of_mem _ hb)
    rw [List.filter_cons]
    split
    · simp only [List.map_cons, List.sum_cons, hl]
    · rename_i ha
      have h0 := h a List.mem_cons_self (Bool.not_eq_true _ ▸ ha)
      simp only [List.map_cons, List.sum_cons, hl, h0, Nat.zero_add]

theorem Accounted.conserved {s : Store} (h : Accounted maxCount maxWeight s) :
    Conserved maxCount maxWeight s := by
  have hcard : ∀ queue ∈ s.queues,
      queue.state.pendingCount + queue.state.inFlight.size = queue.state.held.card :=
    fun queue hq => (h.queues queue hq).balanced.tallied.card_held
  have hclosed : ∀ queue ∈ s.queues, (!queue.state.closed) = false → queue.state.held = 0 :=
    fun queue hq hc => (h.queues queue hq).closed (by simpa using hc)
  refine ⟨?_, ?_, fun hnone => ?_, h.within.count, h.within.weight, fun queue hq => ?_⟩
  · rw [sum_map_filter, h.count, List.map_congr_left hcard]
    intro queue hq hc
    rw [hcard queue hq, hclosed queue hq hc, Multiset.card_zero]
  · rw [sum_map_filter, h.weight]
    intro queue hq hc
    rw [LocalQueueState.heldWeight, hclosed queue hq hc, Multiset.map_zero, Multiset.sum_zero]
  · rw [h.weight]
    refine List.sum_eq_zero fun w hw => ?_
    obtain ⟨queue, hq, rfl⟩ := List.mem_map.1 hw
    refine Multiset.sum_eq_zero fun w hw => ?_
    obtain ⟨e, he, rfl⟩ := Multiset.mem_map.1 hw
    exact (h.queues queue hq).weightless hnone e he
  · rw [hcard queue hq]
    exact (h.queues queue hq).capacity

section
variable {S Q C X B : Type}

/-- In every run from `s` no assertion and no sum fails, capacity is conserved in the state the run
has reached, and a destination that rejects in the next step counts the rejection and does nothing
else. -/
def ConservesCapacity (m : Machine S Q C Response X ProviderNote) (store : S → Store)
    (registry : S → B) (maxCount : Nat) (maxWeight : Option ℕ+) (s : S) : Prop :=
  ∀ moves, ∃ rs w, trace m.move (Machine.start s) moves = some (rs, w) ∧
    Conserved maxCount maxWeight (store w.shared) ∧
    ∀ move notes w', m.move w move = some (notes, w') →
      ∀ i q kind, (i, ProviderNote.rejected q kind) ∈ notes →
        store w'.shared = { store w.shared with
          outstanding := (store w.shared).outstanding.reject kind } ∧
        registry w'.shared = registry w.shared

theorem StoreEffect.reject {s s' : Store} {notes : List ProviderNote} (h : StoreEffect s notes s')
    {q : QueueRef} {kind : AdmissionRejectionKind} (hn : .rejected q kind ∈ notes) :
    s' = { s with outstanding := s.outstanding.reject kind } := by
  cases h with
  | rejected => cases List.mem_singleton.1 hn; rfl
  | quiet hq => obtain heq | heq := hq _ hn <;> cases heq
  | idle | accepted | discarded => cases List.mem_singleton.1 hn
  | subscribed | foreign | moved => cases hn

/-- A machine whose steps are in order keeps the budget in order in every run. -/
theorem Staged.holds {m : Machine S Q C Response X ProviderNote} {v : View S C B}
    (hm : Staged m v maxCount maxWeight) {s : S} (h : Accounted maxCount maxWeight (v.store s))
    (moves : List (Move Q X)) :
    ∃ rs w, trace m.move (Machine.start s) moves = some (rs, w) ∧
      Accounted maxCount maxWeight (v.store w.shared) ∧
      ∀ (i : Nat) c, w.threads[i]? = some (Thread.running c) → v.weighed maxWeight c := by
  have hmoves : Meets m.move (fun _ _ => True) (Machine.start s) moves :=
    meets_of_forall _ fun _ _ => trivial
  obtain ⟨rs, w, hrun, hw⟩ := Machine.run_holds (m := m)
    (G := fun _ s => Accounted maxCount maxWeight (v.store s))
    (L := fun _ _ _ t => ∀ c, t = .running c → v.weighed maxWeight c)
    (fun _ _ request _ _ c heq => by cases heq; exact (hm.enter request).1)
    (fun j w i c x hw hc _ => by
      obtain ⟨s', t, notes, heq, hstep⟩ :=
        hm.step w.shared i c x hw.shared (hw.threads i _ hc c rfl)
      exact ⟨s', t, notes, heq, hstep.accounted, hstep.weighed, fun _ _ _ _ hl => hl⟩)
    h hmoves
  exact ⟨rs, w, hrun, hw.shared, fun i c hc => hw.threads i _ hc c rfl⟩

/-- A machine whose steps are in order conserves capacity. -/
theorem Staged.conservesCapacity {m : Machine S Q C Response X ProviderNote} {v : View S C B}
    (hm : Staged m v maxCount maxWeight) {s : S} (h : Accounted maxCount maxWeight (v.store s)) :
    ConservesCapacity m v.store v.registry maxCount maxWeight s := by
  intro moves
  obtain ⟨rs, w, hrun, haccounted, hweighed⟩ := hm.holds h moves
  refine ⟨rs, w, hrun, haccounted.conserved, fun move notes w' hmove i q kind hn => ?_⟩
  cases move with
  | call request => cases hmove; cases hn
  | step k x =>
    simp only [Machine.move] at hmove
    split at hmove
    · rename_i c hc
      obtain ⟨s', t, es, heq, hstep⟩ :=
        hm.step w.shared k c x haccounted (hweighed k c hc)
      rw [heq] at hmove
      cases hmove
      obtain ⟨n, hn, heq⟩ := List.mem_map.1 hn
      cases heq
      exact ⟨hstep.effect.reject hn, hstep.rejected.resolve_right fun hne => hne q kind hn⟩
    · cases hmove
      cases hn

end

/-- **Capacity is conserved** by both providers, for all limits, in all interleavings of calls. -/
theorem providers_conserve_capacity (maxInstant maxDuration foreign capacity maxCount : Nat)
    (maxWeight : Option ℕ+) (cells : List LocalSettlementState) :
    ConservesCapacity (provider maxInstant foreign) LocalSharedState.store LocalSharedState.state
      maxCount maxWeight (.new capacity maxCount maxWeight cells) ∧
    ConservesCapacity (asyncProvider maxInstant maxDuration foreign) AsyncLocalShared.store
      AsyncLocalShared.state maxCount maxWeight (.new capacity maxCount maxWeight cells) := by
  constructor
  · exact (provider_staged maxInstant foreign maxCount maxWeight).conservesCapacity
      (Accounted.new cells)
  · exact (asyncProvider_staged maxInstant maxDuration foreign maxCount maxWeight).conservesCapacity
      (Accounted.new cells)

end EventBus.Local
