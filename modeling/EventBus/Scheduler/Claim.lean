import EventBus.Scheduler.Stop

/-!
# Claimed leases

What the owner of a receiver can rely on, whatever the other users of the scheduler do: a lease it
has claimed is not handed out to it again (`Claimed`), it has taken only what it claimed (`Taken`),
a lease waits for a handler only if it was put into a lane or woken (`Waiting`), and a handler is
granted for waiting leases of subscriptions that are not stopped (`takeReady_some`).
-/

namespace EventBus.Scheduler

open Lib OwnedDeliveryPhase DeliverySchedulerState

/-- `lease` waits for a handler. -/
def Waiting (s : DeliverySchedulerState) (lease : Nat) : Prop :=
  ∃ r, s.owned.lookup lease = some r ∧ r.phase = .queued

/-- `lease` is used, and `id` has no reservation of it that is still to be claimed. -/
structure Claimed (s : DeliverySchedulerState) (id : Id) (lease : Nat) : Prop where
  used : ∀ n, s.nextLease = some n → lease < n
  taken : ∀ sub, s.subscriptions.lookup id = some sub → sub.receiveReservation = some lease →
    sub.receiveTaken = true

section
variable {r : OwnedDeliveryRecord} {op : Op} {l : Nat} {s s' t : DeliverySchedulerState} {id : Id}
  {lease : Nat} {sub : SubscriptionScheduleState}

/-! ## Waiting for a handler -/

/-- `op` registers and unregisters nobody, claims nothing, makes no lease wait and completes
none. -/
def Op.plain : Op → Bool
  | .register _ | .unregister _ | .takeReceiveReservation _ | .enqueue .. | .wakeRetry _
  | .complete _ => false
  | _ => true

/-- What an owner can rely on when `op` is plain or about `lease`. -/
structure Op.Tame (op : Op) (lease : Nat) : Prop where
  register : ∀ id, op ≠ .register id
  unregister : ∀ id, op ≠ .unregister id
  claims : ∀ id, op ≠ .takeReceiveReservation id
  complete : ∀ l, op ≠ .complete l
  queues : ∀ l, op.queues l → l = lease

theorem Op.tame_of_plain (h : op.plain = true) (lease : Nat) : op.Tame lease := by
  cases op <;> cases h <;> exact ⟨by simp, by simp, by simp, by simp, by simp [Op.queues]⟩

theorem Op.tame_of_queues (h : op.queues lease) : op.Tame lease := by
  rcases h with ⟨lane, rfl⟩ | rfl <;>
    exact ⟨by simp, by simp, by simp, by simp, by simp [Op.queues, eq_comm]⟩

/-- A lease waits for a handler only after it was put into a lane or woken. -/
theorem Took.waiting (ht : Took s op s') (hi : Inv s) (hq : Waiting s' lease) :
    Waiting s lease ∨ op.queues lease := by
  revert hq
  refine ht.carry hi (P := fun t => Waiting t lease → Waiting s lease ∨ op.queues lease)
    ⟨fun h ho _ _ hq => h (by rwa [Waiting, ← ho]), ?_, ?_⟩ fun t he => ?_
  · rintro t l h - ⟨r, hl, hp⟩
    exact h ⟨r, release_owned l lease r hl, hp⟩
  · rintro t j waiters sub l h - - - ⟨r, hl, hp⟩
    rw [show (grantFirst t j waiters sub l).owned.lookup lease = _ from
      Map.lookup_insert_eq _ _ _ _] at hl
    split at hl
    · cases hl
      cases hp
    · exact h ⟨r, hl, hp⟩
  · rintro ⟨r, hl, hp⟩
    cases he.owned with
    | same heq => exact .inl ⟨r, heq ▸ hl, hp⟩
    | change heq _ hr =>
      rw [heq, Map.lookup_insert_eq] at hl
      split at hl
      · rename_i hlease
        cases hl
        exact .inr (hlease ▸ hr.queued hp)
      · exact .inl ⟨r, hl, hp⟩

/-! ## Claimed leases -/

/-- A claimed lease goes by `complete` only. -/
theorem Claimed.apart (h : Claimed s id lease) : Apart s id lease := by
  refine ⟨fun sub hs hu => ?_, .inr h.used⟩
  obtain ⟨ht, hres⟩ := unclaimed_some hu
  rw [h.taken sub hs hres] at ht
  cases ht

/-- What `Claimed` reads is the same. -/
theorem Claimed.of_eq (h : Claimed s id lease) (hn : s'.nextLease = s.nextLease)
    (hs : s'.subscriptions = s.subscriptions) : Claimed s' id lease :=
  ⟨fun n hn' => h.used n (hn ▸ hn'), fun sub hs' => h.taken sub (hs ▸ hs')⟩

/-- One subscription changes and does not lose a claim of `lease`. -/
theorem Claimed.insert {j : Id} {sub' : SubscriptionScheduleState} (h : Claimed s id lease)
    (hn : s'.nextLease = s.nextLease) (hs' : s'.subscriptions = s.subscriptions.insert j sub')
    (hk : sub'.receiveReservation = some lease → sub'.receiveTaken = true ∨
      ∃ sub, s.subscriptions.lookup j = some sub ∧ sub.receiveReservation = some lease ∧
        sub'.receiveTaken = sub.receiveTaken) : Claimed s' id lease := by
  refine ⟨fun n hn' => h.used n (hn ▸ hn'), fun subi hi hres => ?_⟩
  rw [hs', Map.lookup_insert_eq] at hi
  split at hi
  · rename_i he
    cases hi
    rcases hk hres with ht | ⟨sub, hs, hr, ht⟩
    · exact ht
    · rw [ht]
      exact h.taken sub (he ▸ hs) hr
  · exact h.taken subi hi hres

theorem Claimed.release (h : Claimed s id lease) (l : Nat) : Claimed (s.release l) id lease := by
  rcases release_subscriptions s l with hs | ⟨record, sub, hsub, hs⟩
  · exact h.of_eq (release_nextLease l) hs
  · refine h.insert (release_nextLease l) hs fun hres => .inr ⟨sub, hsub, ?_⟩
    rw [releaseSub_receiveReservation] at hres
    rw [releaseSub_receiveTaken]
    split at hres
    · cases hres
    · rename_i hne
      exact ⟨hres, if_neg hne⟩

theorem Claimed.grant {j : Id} {waiters : List Id} (h : Claimed s id lease)
    (hn : s.nextLease = some l) : Claimed (grantFirst s j waiters sub l) id lease := by
  have hlt := h.used l hn
  refine ⟨fun m hm => ?_, fun subi hi hres => ?_⟩
  · obtain ⟨rfl, -⟩ := checkedSucc_some hm
    omega
  · rw [show (grantFirst s j waiters sub l).subscriptions.lookup id = _ from
      Map.lookup_insert_eq _ _ _ _] at hi
    split at hi
    · cases hi
      cases hres
      omega
    · exact h.taken subi hi hres

/-- A claimed lease is not handed out again. -/
theorem Took.claimed (ht : Took s op s') (hi : Inv s) (h : Claimed s id lease) :
    Claimed s' id lease := by
  refine ht.carry hi (P := fun t => Claimed t id lease)
    ⟨fun h _ hs hn => h.of_eq hn hs, fun h _ => h.release _, fun h _ _ hn => h.grant hn⟩
    fun t he => ?_
  cases he.subscriptions with
  | same heq => exact h.of_eq he.next heq
  | register heq => exact h.insert he.next heq fun hres => by cases hres
  | change heq hs hsub =>
    refine h.insert he.next heq fun hres => ?_
    rcases hsub.reservation with ⟨hsame, htaken⟩ | ⟨-, htaken⟩ | ⟨-, -, hnone⟩
    · exact .inr ⟨_, hs, hsame ▸ hres, htaken⟩
    · exact .inl htaken
    · rw [hnone] at hres
      cases hres
  | unregister heq =>
    refine ⟨fun n hn => h.used n (he.next ▸ hn), fun sub hs => ?_⟩
    rw [heq, Map.lookup_erase_eq] at hs
    split at hs
    · cases hs
    · exact h.taken sub hs

/-- `lease` is in the scheduler as one of `id`, or not at all. -/
def Held (s : DeliverySchedulerState) (id : Id) (lease : Nat) (held : Bool) : Prop :=
  (s.owned.lookup lease).map (·.subscriptionId) = if held then some id else none

theorem Held.apart {held : Bool} (h : Held s id lease held) (hi : Inv s) (hc : Claimed s id lease)
    (j : Id) : Apart s j lease := by
  refine ⟨fun sub hs hu => ?_, .inr hc.used⟩
  have ho := hi.unclaimed_ownedBy hs hu
  cases held with
  | false => cases h.symm.trans ho
  | true =>
    obtain rfl := OwnedBy.unique h ho
    exact hc.apart.claimed sub hs hu

theorem held_false (h : ∀ j, ¬ OwnedBy s j lease) : Held s id lease false := by
  cases hl : s.owned.lookup lease with
  | none => rw [Held, hl]; rfl
  | some r => exact absurd (ownedBy_iff.2 ⟨r, hl, rfl⟩) (h r.subscriptionId)

theorem Took.held (ht : Took s op s') (hi : Inv s) (hc : Claimed s id lease) {held : Bool}
    (h : Held s id lease held) (hop : op ≠ .complete lease) : Held s' id lease held := by
  cases held with
  | false =>
    refine held_false fun j hj => ?_
    cases h.symm.trans ((ht.ownedBy hi (h.apart hi hc j) hop).1 hj)
  | true => exact (ht.ownedBy hi hc.apart hop).2 h

theorem Held.complete {held : Bool} (h : Held s id lease held) (hi : Inv s)
    (hc : Claimed s id lease) : Held (step s (.complete lease)) id lease false :=
  held_false fun j hj => (((h.apart hi hc j).complete hi lease).1 hj).2 rfl

/-! ## Taken leases -/

/-- `id` owns `lease`, and it is not a reservation that is still to be claimed. -/
def Taken (s : DeliverySchedulerState) (id : Id) (lease : Nat) : Prop :=
  OwnedBy s id lease ∧ unclaimedOf s id ≠ some lease

/-- The owner of `id` has completed every lease that it took: what is left is the reservation that
it has not claimed. -/
def GaveBack (s : DeliverySchedulerState) (id : Id) : Prop :=
  ∀ lease ∈ s.owned.keys, OwnedBy s id lease → unclaimedOf s id = some lease

instance (s : DeliverySchedulerState) (id : Id) (lease : Nat) : Decidable (OwnedBy s id lease) :=
  inferInstanceAs (Decidable (_ = _))

instance (s : DeliverySchedulerState) (id : Id) : Decidable (GaveBack s id) :=
  inferInstanceAs (Decidable (∀ lease ∈ s.owned.keys, _))

theorem gaveBack_iff : GaveBack s id ↔ ∀ lease, ¬ Taken s id lease := by
  refine ⟨fun h lease ht => ht.2 (h lease ?_ ht.1), fun h lease _ ho => ?_⟩
  · obtain ⟨r, hl, -⟩ := ownedBy_iff.1 ht.1
    exact Finmap.mem_keys.2 (Map.mem_of_lookup hl)
  · by_contra hu
    exact h lease ⟨ho, hu⟩

theorem Edit.unclaimedOf (h : Edit s op t) (htake : op ≠ .takeReceiveReservation id)
    (hun : op ≠ .unregister id) : unclaimedOf t id = unclaimedOf s id := by
  unfold Scheduler.unclaimedOf
  cases h.subscriptions with
  | same heq => rw [heq]
  | @register j heq _ hs =>
    rw [heq, Map.lookup_insert_eq]
    split
    · rename_i hj
      rw [hj, hs]
      rfl
    · rfl
  | @change j sub sub' heq hs hsub =>
    rw [heq, Map.lookup_insert_eq]
    split
    · rename_i hj
      subst hj
      rw [hs, Option.bind_some, Option.bind_some, SubscriptionScheduleState.unclaimed,
        SubscriptionScheduleState.unclaimed]
      rcases hsub.reservation with ⟨hres, htaken⟩ | ⟨hop, -⟩ | ⟨-, htaken, hnone⟩
      · rw [hres, htaken]
      · exact absurd hop htake
      · rw [hnone, htaken, if_pos rfl, ite_self]
    · rfl
  | unregister heq hop =>
    rw [heq, Map.lookup_erase_eq, if_neg]
    rintro rfl
    exact hun hop

theorem unclaimedOf_release (hl : lease ≠ l) (h : unclaimedOf s id = some lease) :
    unclaimedOf (s.release l) id = some lease := by
  rcases release_subscriptions s l with hs | ⟨record, sub, hsub, hs⟩
  · rwa [unclaimedOf, hs]
  · rw [unclaimedOf, hs, Map.lookup_insert_eq]
    split
    · rename_i hid
      rw [unclaimedOf, hid, hsub] at h
      obtain ⟨ht, hres⟩ := unclaimed_some h
      have hne : sub.receiveReservation ≠ some l := by
        rw [hres]
        exact fun he => hl (Option.some.inj he)
      rw [Option.bind_some, SubscriptionScheduleState.unclaimed, releaseSub_receiveTaken,
        releaseSub_receiveReservation, if_neg hne, if_neg hne, ht, if_neg Bool.false_ne_true, hres]
    · exact h

/-- A lease is taken only by claiming it. -/
theorem Took.taken (ht : Took s op s') (hi : Inv s) (htake : op ≠ .takeReceiveReservation id)
    (hun : op ≠ .unregister id) (h : Taken s' id lease) : Taken s id lease := by
  revert h
  refine ht.carry hi (P := fun t => Taken t id lease → Taken s id lease) ⟨?_, ?_, ?_⟩ fun t he => ?_
  · rintro t t' h ho hs - ⟨hown, hu⟩
    refine h ⟨(ownedBy_congr ho).1 hown, ?_⟩
    rwa [unclaimedOf, ← hs]
  · rintro t l h - ⟨hown, hu⟩
    obtain ⟨hown, hl⟩ := ownedBy_release.1 hown
    exact h ⟨hown, fun hu' => hu (unclaimedOf_release hl hu')⟩
  · rintro t j waiters sub l h hw hf - ⟨hown, hu⟩
    -- a waiter has no reservation, and gets one that is still to be claimed
    have hnone := (hw.sub j sub hf.lookup).inv.waiting hf.waiting
    rw [unclaimedOf, show (grantFirst t j waiters sub l).subscriptions.lookup id = _ from
      Map.lookup_insert_eq _ _ _ _] at hu
    rw [OwnedBy, show (grantFirst t j waiters sub l).owned.lookup lease = _ from
      Map.lookup_insert_eq _ _ _ _] at hown
    refine h ?_
    by_cases hj : id = j
    · subst hj
      rw [if_pos rfl] at hu
      rw [if_neg fun hl => hu (congrArg some hl.symm)] at hown
      refine ⟨hown, ?_⟩
      rw [unclaimedOf, hf.lookup, Option.bind_some, SubscriptionScheduleState.unclaimed, hnone,
        ite_self]
      simp
    · rw [if_neg hj] at hu
      refine ⟨?_, hu⟩
      split at hown
      · exact absurd (Option.some.inj hown).symm hj
      · exact hown
  · rintro ⟨hown, hu⟩
    rw [he.unclaimedOf htake hun] at hu
    refine ⟨?_, hu⟩
    cases he.owned with
    | same heq => exact (ownedBy_congr heq).1 hown
    | change heq hl hr => exact (ownedBy_insert heq hl hr.owner).1 hown

/-! ## Grants and stops -/

theorem takeReceiveReservation_cases (s : DeliverySchedulerState) (id : Id) :
    s.takeReceiveReservation id = (none, s) ∨
      ∃ sub lease, s.subscriptions.lookup id = some sub ∧ sub.receiveTaken = false ∧
        sub.receiveReservation = some lease ∧ s.takeReceiveReservation id = (some lease, { s with
          subscriptions := s.subscriptions.insert id { sub with receiveTaken := true } }) := by
  unfold DeliverySchedulerState.takeReceiveReservation
  split
  · exact .inl rfl
  · rename_i sub hs
    split
    · exact .inl rfl
    · rename_i hopen
      simp only [Bool.or_eq_true, not_or, Bool.not_eq_true] at hopen
      split
      · exact .inl rfl
      · rename_i lease hres
        exact .inr ⟨sub, lease, hs, hopen.2, hres, rfl⟩

theorem takeReceiveReservation_none (h : (s.takeReceiveReservation id).1 = none) :
    (s.takeReceiveReservation id).2 = s := by
  obtain heq | ⟨sub, lease, -, -, -, heq⟩ := takeReceiveReservation_cases s id
  · rw [heq]
  · rw [heq] at h
    cases h

/-- The lease of a reservation was not claimed before, and is now. It belongs to `id` and does not
wait for a handler, and no other lease is taken. -/
theorem takeReceiveReservation_some (hi : Inv s)
    (h : (s.takeReceiveReservation id).1 = some lease) :
    ¬ Claimed s id lease ∧ Claimed (s.takeReceiveReservation id).2 id lease ∧
      OwnedBy (s.takeReceiveReservation id).2 id lease ∧
      ¬ Waiting (s.takeReceiveReservation id).2 lease ∧
      ∀ l, Taken (s.takeReceiveReservation id).2 id l → Taken s id l ∨ l = lease := by
  obtain heq | ⟨sub, l, hs, htaken, hres, heq⟩ := takeReceiveReservation_cases s id
  · rw [heq] at h
    cases h
  rw [heq] at h ⊢
  cases h
  obtain ⟨r, hown, hid, hp⟩ := (hi.wf.sub id sub hs).inv.reserved_owns hres
  refine ⟨fun hc => ?_, ⟨fun n hn => hi.wf.fresh n hn lease r hown, fun subi hi' _ => ?_⟩,
    ownedBy_iff.2 ⟨r, hown, hid⟩, ?_, fun l ht => ?_⟩
  · have := hc.taken sub hs hres
    rw [htaken] at this
    cases this
  · rw [Map.lookup_insert_eq, if_pos rfl] at hi'
    cases hi'
    rfl
  · rintro ⟨r', hown', hq⟩
    cases hown.symm.trans hown'
    rw [hp] at hq
    cases hq
  · refine (em (l = lease)).symm.imp_left fun hl => ⟨ht.1, ?_⟩
    rw [unclaimedOf, hs, Option.bind_some, SubscriptionScheduleState.unclaimed, htaken, hres]
    exact fun he => hl (Option.some.inj he).symm

/-- A handler is granted for a lease that waits, of a subscription that is not stopped. -/
theorem takeReady_some (hi : Inv s) (h : (s.takeReady id).1 = some lease) :
    Waiting s lease ∧ ¬ Stopped s id ∧ ¬ Waiting (s.takeReady id).2 lease := by
  rcases hi.wf.takeGrant_cases id .queued with he | he | ⟨g, hg, hp, he⟩
  · rw [takeReady, he] at h
    cases h
  · rw [takeReady, he] at h
    cases h
  · rw [takeReady, he] at h ⊢
    cases h
    refine ⟨⟨g.record, hg.owns.1, hp⟩, fun hst => ?_, ?_⟩
    · obtain ⟨sub, hs, hel⟩ := Option.bind_eq_some_iff.1 (selectedReady_some hg.selected).2
      have := (sub_eligibleLane_some hel).1
      rw [hst sub hs] at this
      cases this
    · rintro ⟨r, hl, hq⟩
      rw [notifyReady_owned, granted, refreshReady_owned, Map.lookup_insert_eq, if_pos rfl] at hl
      cases hl
      rw [grantPhase, if_pos hp] at hq
      cases hq

/-- A stop stays until the subscription is registered again. -/
theorem Took.stopped (ht : Took s op s') (hi : Inv s) (hop : op ≠ .register id) (h : Stopped s id) :
    Stopped s' id := by
  intro sub' hs'
  by_cases hreg : ∃ j, op = .register j ∧ s.subscriptions.lookup j = none
  · obtain ⟨j, rfl, hj⟩ := hreg
    have hne : id ≠ j := fun he => hop (he ▸ rfl)
    refine h sub' ?_
    cases ht with
    | skip => exact hs'
    | notify => rwa [notifyReady_subscriptions] at hs'
    | register => rwa [Map.lookup_insert_eq, if_neg hne] at hs'
    | grant hret => cases hret
    | enqueue hop => rcases hop with ⟨he, -⟩ | ⟨he, -⟩ <;> cases he
    | leaveRunning hop => rcases hop with ⟨he, -⟩ | ⟨he, -⟩ <;> cases he
  · have hk := ht.subsKeep hi fun j hj hn => hreg ⟨j, hj, hn⟩
    obtain ⟨sub, hs, hkeep⟩ := hk id sub' hs'
    exact hkeep.stopped (h sub hs)

theorem stopSubscription_stopped (hi : Inv s) (id : Id) : Stopped (s.stopSubscription id) id :=
  (fenced_stop hi id).stopped

end

end EventBus.Scheduler
