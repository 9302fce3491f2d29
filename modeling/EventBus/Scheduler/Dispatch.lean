import EventBus.Scheduler.Wakeup

/-!
# One dispatcher at a time

`ready` is updated by the operations that change a subscription, but whether a queued handler can
be granted also depends on the handler slots of all subscriptions, which change without a refresh.
`ready` therefore lists who could be granted with a free slot (`Ready.mem`), and the selection skips
those who cannot be granted now. So a subscription with something to grant is never missed
(`Inv.selected_iff`), and the one selected subscription, asking for the kind of its lane head, is
the only caller that gets a grant.
-/

namespace EventBus.Scheduler

open Lib OwnedDeliveryPhase DeliverySchedulerState

/-- A delivery of `id` can be granted now: `id` is registered, active and not stopped, and the head
of one of its unlocked lanes waits for its settlement, or for a handler while one is available. -/
def Dispatchable (s : DeliverySchedulerState) (id : Id) : Prop :=
  ∃ sub lane lease queue r, s.subscriptions.lookup id = some sub ∧ sub.stopped = false ∧
    sub.dispatchActive = true ∧ (lane, lease :: queue) ∈ sub.lanes ∧
    (∀ key, lane = some key → key ∉ sub.lockedLanes) ∧ s.owned.lookup lease = some r ∧
    (r.phase = .queuedSettlement ∨
      r.phase = .queued ∧ s.running < s.config.maxRunningHandlers)

section
variable {lane : Option OrderingLaneKey × List Nat} {owned : Map Nat OwnedDeliveryRecord}
  {sub : SubscriptionScheduleState} {available : Bool} {s : DeliverySchedulerState} {id : Id}

/-! ## The selection misses nobody -/

theorem sub_eligibleLane_isSome (hstop : sub.stopped = false) (hactive : sub.dispatchActive = true)
    (hm : lane ∈ sub.lanes) (he : sub.laneEligible owned available lane = true) :
    (sub.eligibleLane owned available).isSome := by
  simp only [SubscriptionScheduleState.eligibleLane, hstop, hactive, Bool.not_true, Bool.or_self,
    Bool.false_eq_true, if_false, List.findIdx?_isSome, List.any_eq_true]
  exact ⟨lane, hm, he⟩

/-- With a handler slot free, at least the same lanes are eligible. -/
theorem laneEligible_true (he : sub.laneEligible owned available lane = true) :
    sub.laneEligible owned true lane = true := by
  cases available with
  | true => exact he
  | false =>
    simp only [SubscriptionScheduleState.laneEligible, Bool.and_eq_true, Option.any_eq_true] at he ⊢
    obtain ⟨hunlocked, r, hr, hphase⟩ := he
    refine ⟨hunlocked, r, hr, ?_⟩
    simp only [Bool.false_and, Bool.or_false] at hphase
    simp [hphase]

theorem dispatchable_iff : Dispatchable s id ↔ (s.eligibleLane id s.handlerAvailable).isSome := by
  constructor
  · rintro ⟨sub, lane, lease, queue, r, hs, hstop, hactive, hm, hunlocked, hr, hphase⟩
    rw [eligibleLane, hs, Option.bind_some]
    apply sub_eligibleLane_isSome hstop hactive hm
    simp only [SubscriptionScheduleState.laneEligible, List.head?_cons, Option.bind_some, hr,
      Option.any_some, Bool.and_eq_true, Option.all_eq_true, decide_eq_true_eq, Bool.or_eq_true,
      handlerAvailable]
    exact ⟨hunlocked, hphase.imp_right And.symm⟩
  · intro h
    obtain ⟨index, he⟩ := Option.isSome_iff_exists.1 h
    obtain ⟨sub, hs, he⟩ := Option.bind_eq_some_iff.1 he
    obtain ⟨hstop, hactive, lane, lease, queue, r, hi, hunlocked, hr, hphase⟩ :=
      sub_eligibleLane_some he
    refine ⟨sub, lane, lease, queue, r, hs, hstop, hactive, List.mem_of_getElem? hi, hunlocked, hr,
      ?_⟩
    rcases hphase with hp | ⟨havailable, hp⟩
    · exact .inl hp
    · exact .inr ⟨hp, of_decide_eq_true havailable⟩

theorem Dispatchable.mem_ready (hi : Inv s) (h : Dispatchable s id) : id ∈ s.ready := by
  apply (hi.ready.mem id).2
  obtain ⟨index, he⟩ := Option.isSome_iff_exists.1 (dispatchable_iff.1 h)
  obtain ⟨sub, hs, he⟩ := Option.bind_eq_some_iff.1 he
  obtain ⟨hstop, hactive, -⟩ := sub_eligibleLane_some he
  unfold SubscriptionScheduleState.eligibleLane at he
  rw [if_neg (by simp [hstop, hactive])] at he
  obtain ⟨hlt, hp, -⟩ := List.findIdx?_eq_some_iff_getElem.1 he
  rw [eligibleLane, hs, Option.bind_some]
  exact sub_eligibleLane_isSome hstop hactive (List.getElem_mem hlt) (laneEligible_true hp)

theorem Inv.selected_iff (hi : Inv s) : s.selectedReady.isSome ↔ ∃ id, Dispatchable s id := by
  constructor
  · intro h
    obtain ⟨⟨id, index⟩, hsel⟩ := Option.isSome_iff_exists.1 h
    refine ⟨id, dispatchable_iff.2 ?_⟩
    rw [(selectedReady_some hsel).2]
    rfl
  · rintro ⟨id, h⟩
    apply List.findSome?_isSome_iff.2
    refine ⟨id, h.mem_ready hi, ?_⟩
    rw [Option.isSome_map]
    exact dispatchable_iff.1 h

/-! ## Who gets a grant -/

/-- Nothing changed, except that the selected subscription may be notified. -/
def OnlyNotifies (s s' : DeliverySchedulerState) : Prop :=
  s' = s ∨ ∃ id, Selects s id ∧ s' = { s with notifications := insert id s.notifications }

/-- At most one caller can take a grant, and one can whenever there is something to grant. -/
structure OneDispatcher (s : DeliverySchedulerState) : Prop where
  granted : (∃ id, Dispatchable s id) → ∃ id,
    ((s.takeReady id).1.isSome ∧ (s.takeSettlementReady id).1 = none ∨
      (s.takeReady id).1 = none ∧ (s.takeSettlementReady id).1.isSome) ∧
    ∀ other, other ≠ id → (s.takeReady other).1 = none ∧ (s.takeSettlementReady other).1 = none
  idle : (¬ ∃ id, Dispatchable s id) →
    ∀ id, (s.takeReady id).1 = none ∧ (s.takeSettlementReady id).1 = none
  /-- A take without a grant at most notifies. -/
  ready : ∀ id, (s.takeReady id).1 = none → OnlyNotifies s (s.takeReady id).2
  settlementReady : ∀ id, (s.takeSettlementReady id).1 = none →
    OnlyNotifies s (s.takeSettlementReady id).2

theorem onlyNotifies_notifyReady (s : DeliverySchedulerState) : OnlyNotifies s s.notifyReady := by
  unfold notifyReady
  split
  · exact .inl rfl
  · rename_i id index hsel
    exact .inr ⟨id, ⟨index, hsel⟩, rfl⟩

theorem Wf.takeGrant_onlyNotifies (hw : Wf s) {expected : OwnedDeliveryPhase}
    (hn : (s.takeGrant id expected).1 = none) : OnlyNotifies s (s.takeGrant id expected).2 := by
  rcases hw.takeGrant_cases id expected with he | he | ⟨g, -, -, he⟩
  · rw [he]
    exact .inl rfl
  · rw [he]
    exact onlyNotifies_notifyReady s
  · rw [he] at hn
    cases hn

/-- With nothing selected there is no grant. -/
theorem takeGrant_of_not_selected (hsel : s.selectedReady = none) (expected : OwnedDeliveryPhase) :
    (s.takeGrant id expected).1 = none := by
  simp only [takeGrant, hsel]

theorem Inv.oneDispatcher (hi : Inv s) : OneDispatcher s where
  granted h := by
    obtain ⟨⟨id, index⟩, hsel⟩ := Option.isSome_iff_exists.1 (hi.selected_iff.2 h)
    obtain ⟨g, hg, -⟩ := hi.wf.selected hsel
    refine ⟨id, ?_, fun other hother => ⟨?_, ?_⟩⟩
    · -- the kind of the grant is the phase of the lane head
      rcases hg.phase with hp | ⟨-, hp⟩
      · refine .inr ⟨?_, ?_⟩
        · rw [takeReady, hg.takeGrant_none (.inr (by simp [hp]))]
        · rw [takeSettlementReady, ← hp, hg.takeGrant]
          rfl
      · refine .inl ⟨?_, ?_⟩
        · rw [takeReady, ← hp, hg.takeGrant]
          rfl
        · rw [takeSettlementReady, hg.takeGrant_none (.inr (by simp [hp]))]
    · rw [takeReady, hg.takeGrant_none (.inl hother.symm)]
    · rw [takeSettlementReady, hg.takeGrant_none (.inl hother.symm)]
  idle h id := by
    have hsel : s.selectedReady = none := by
      rw [← Option.not_isSome_iff_eq_none, hi.selected_iff]
      exact h
    exact ⟨takeGrant_of_not_selected hsel _, takeGrant_of_not_selected hsel _⟩
  ready _ hn := hi.wf.takeGrant_onlyNotifies hn
  settlementReady _ hn := hi.wf.takeGrant_onlyNotifies hn

end

/-- **One dispatcher.** After any operations on a new scheduler: while something can be granted,
exactly one subscription gets a grant, and of one kind; otherwise nobody does. A take that
returns nothing changes nothing but the notification of the selected subscription. -/
theorem exec_new_oneDispatcher (config : DeliverySchedulingConfig) (ops : List Op) :
    OneDispatcher (exec step (.new config) ops) :=
  (exec_inv (inv_new config) ops).oneDispatcher

end EventBus.Scheduler
