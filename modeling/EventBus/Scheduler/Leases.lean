import EventBus.Scheduler.Wakeup

/-!
# Lease numbers and repeated calls

A lease is a number from a counter that only moves forward, so the leases handed out over a whole
run are the successive values of that counter (`Counts`), whatever is released, unregistered or
registered again in between. `grantedLeases` follows `grantLoop` and lists what it hands out.

Calls that release or move a lease can be repeated. For `complete` this is not obvious, since it
scans the receive rotation again: the first scan leaves the rotation at rest (`Resting`), and a
scan from there turns the rotation once around, back to where it was.
-/

namespace EventBus.Scheduler

open Lib OwnedDeliveryPhase DeliverySchedulerState

variable {next' next : Option Nat} {values : List Nat} {lease : Nat}

/-! ## A counter and the values it gives out -/

/-- A counter that stood at `next` and now stands at `next'` gave out `values`, in this order. -/
def Counts : Option Nat → List Nat → Option Nat → Prop
  | next, [], next' => next' = next
  | next, value :: values, next' => next = some value ∧ Counts (checkedSucc value) values next'

theorem Counts.append {mid : Option Nat} {values' : List Nat} (h : Counts next values mid)
    (h' : Counts mid values' next') : Counts next (values ++ values') next' := by
  induction values generalizing next with
  | nil =>
    rw [show mid = next from h] at h'
    exact h'
  | cons value values ih => exact ⟨h.1, ih h.2⟩

theorem counts_none (h : Counts none values next') : values = [] := by
  cases values with
  | nil => rfl
  | cons value values => cases h.1

theorem Counts.le_of_mem {n value : Nat} (h : Counts (some n) values next') (hm : value ∈ values) :
    n ≤ value := by
  induction values generalizing n with
  | nil => cases hm
  | cons first values ih =>
    obtain ⟨hn, h⟩ := h
    obtain rfl : n = first := Option.some.inj hn
    rcases List.mem_cons.1 hm with rfl | hm
    · exact Nat.le_refl _
    · cases hnext : checkedSucc n with
      | none =>
        rw [hnext] at h
        rw [counts_none h] at hm
        cases hm
      | some m =>
        rw [hnext] at h
        have hle := ih h hm
        obtain ⟨rfl, -⟩ := checkedSucc_some hnext
        omega

theorem Counts.pairwise (h : Counts next values next') : values.Pairwise (· < ·) := by
  induction values generalizing next with
  | nil => exact .nil
  | cons value values ih =>
    refine List.pairwise_cons.2 ⟨fun later hm => ?_, ih h.2⟩
    cases hnext : checkedSucc value with
    | none =>
      have h := h.2
      rw [hnext] at h
      rw [counts_none h] at hm
      cases hm
    | some m =>
      have h := h.2
      rw [hnext] at h
      have hle := h.le_of_mem hm
      obtain ⟨rfl, -⟩ := checkedSucc_some hnext
      omega

/-- A counter of 64 bits gives out only numbers of 64 bits. -/
theorem Counts.lt_of_mem (h : Counts next values next') (hnext : ∀ n, next = some n → n < 2 ^ 64)
    {value : Nat} (hm : value ∈ values) : value < 2 ^ 64 := by
  induction values generalizing next with
  | nil => cases hm
  | cons first values ih =>
    rcases List.mem_cons.1 hm with rfl | hm
    · exact hnext value h.1
    · exact ih h.2 (fun n hn => (checkedSucc_some hn).2) hm

/-! ## The leases a scan hands out, in order -/

/-- The leases of the grants of `grantLoop`, in their order. -/
def grantedLeases : Nat → DeliverySchedulerState → List Nat
  | 0, _ => []
  | candidates + 1, s =>
    if s.config.maxOwnedDeliveries ≤ s.owned.size then []
    else
      match s.receiveWaiters with
      | [] => []
      | id :: waiters =>
        match s.subscriptions.lookup id with
        | none => grantedLeases candidates { s with receiveWaiters := waiters }
        | some sub =>
          if sub.stopped || !sub.receiveWaiting then
            grantedLeases candidates { s with receiveWaiters := waiters }
          else if s.config.maxOwnedPerSubscription ≤ sub.owned then
            grantedLeases candidates { s with receiveWaiters := waiters ++ [id] }
          else
            match s.nextLease with
            | none => []
            | some lease =>
              lease :: grantedLeases candidates
                (grantReceive { s with receiveWaiters := waiters } id sub lease)

/-- The leases one operation hands out. -/
def handedOut (s : DeliverySchedulerState) : Op → List Nat
  | .requestReceive id =>
    match s.subscriptions.lookup id with
    | none => []
    | some sub =>
      if sub.stopped || sub.receiveWaiting || sub.receiveReservation.isSome then []
      else scan (demanded s id sub)
  | .cancelReceive id =>
    match s.subscriptions.lookup id with
    | none => []
    | some sub => scan ((withdrawn s id sub).releaseUnclaimed sub.unclaimed)
  | .complete lease => scan (s.release lease)
  | .stopSubscription id =>
    match s.subscriptions.lookup id with
    | none => []
    | some sub =>
      let s := ((fenced s id sub).releaseUnclaimed sub.unclaimed).refreshReady id
      scan { s with notifications := insert id s.notifications }
  | _ => []
where
  /-- What `grantReceives` hands out. -/
  scan (s : DeliverySchedulerState) : List Nat := grantedLeases s.receiveWaiters.length s

/-- The leases a run hands out. -/
def leasesOf : DeliverySchedulerState → List Op → List Nat
  | _, [] => []
  | s, op :: ops => handedOut s op ++ leasesOf (step s op) ops

section
variable {s : DeliverySchedulerState} {id : Id} {waiters : List Id}
  {sub : SubscriptionScheduleState}

theorem grantedLeases_done {n : Nat}
    (h : s.config.maxOwnedDeliveries ≤ s.owned.size ∨ s.receiveWaiters = []) :
    grantedLeases n s = [] := by
  cases n with
  | zero => rfl
  | succ n =>
    unfold grantedLeases
    split_ifs with hmax
    · rfl
    · rw [h.resolve_left hmax]

theorem FirstWaiter.grantedLeases_rotate (hw : Wf s) (hf : FirstWaiter s id waiters sub)
    (hlim : s.config.maxOwnedPerSubscription ≤ sub.owned) (n : Nat) :
    grantedLeases (n + 1) s = grantedLeases n (rotate s id waiters) := by
  simp only [grantedLeases, hf.room, hf.waiters, hf.lookup, hf.waiting, hf.not_stopped hw, hlim,
    Bool.not_true, Bool.or_self, Bool.false_eq_true, if_false, if_true, rotate]

theorem FirstWaiter.grantedLeases_tell (hw : Wf s) (hf : FirstWaiter s id waiters sub)
    (hlim : sub.owned < s.config.maxOwnedPerSubscription) (hn : s.nextLease = none) (n : Nat) :
    grantedLeases (n + 1) s = [] := by
  simp only [grantedLeases, hf.room, hf.waiters, hf.lookup, hf.waiting, hf.not_stopped hw,
    Nat.not_le.2 hlim, hn, Bool.not_true, Bool.or_self, Bool.false_eq_true, if_false]

theorem FirstWaiter.grantedLeases_grant (hw : Wf s) (hf : FirstWaiter s id waiters sub)
    (hlim : sub.owned < s.config.maxOwnedPerSubscription) (hn : s.nextLease = some lease)
    (n : Nat) :
    grantedLeases (n + 1) s = lease :: grantedLeases n (grantFirst s id waiters sub lease) := by
  simp only [grantedLeases, hf.room, hf.waiters, hf.lookup, hf.waiting, hf.not_stopped hw,
    Nat.not_le.2 hlim, hn, Bool.not_true, Bool.or_self, Bool.false_eq_true, if_false, grantFirst]

/-- What a scan hands out: the next values of the counter, and exactly the leases it adds. -/
structure HandsOut (s t : DeliverySchedulerState) (leases : List Nat) : Prop where
  counts : Counts s.nextLease leases t.nextLease
  mem : ∀ lease, lease ∈ leases ↔ ∃ id, NewLease s t id lease

theorem HandsOut.nothing {t : DeliverySchedulerState} (hnext : t.nextLease = s.nextLease)
    (hn : ∀ id lease, ¬ NewLease s t id lease) : HandsOut s t [] := by
  refine ⟨hnext, fun lease => ⟨fun hm => ?_, fun ⟨id, h⟩ => absurd h (hn id lease)⟩⟩
  cases hm

theorem not_newLease_self (s : DeliverySchedulerState) (id : Id) (lease : Nat) :
    ¬ NewLease s s id lease := (Quiet.refl s).not_newLease id lease

/-- What is new after a grant and the rest of its scan. -/
theorem newLease_through {u : DeliverySchedulerState} (hw : Wf s) (hn : s.nextLease = some lease)
    (hkeep : ∀ l r, (grantFirst s id waiters sub lease).owned.lookup l = some r →
      u.owned.lookup l = some r) (j : Id) (l : Nat) :
    NewLease s u j l ↔
      NewLease (grantFirst s id waiters sub lease) u j l ∨ (j = id ∧ l = lease) := by
  unfold NewLease
  rw [grantFirst_lookup]
  by_cases hl : l = lease
  · subst hl
    have hu := hkeep l _ ((grantFirst_lookup l).trans (if_pos rfl))
    simp [hw.unused hn, hu, eq_comm]
  · simp [hl]

theorem grantLoop_handsOut (hw : Wf s) (n : Nat) :
    HandsOut s (grantLoop n s) (grantedLeases n s) := by
  induction n generalizing s with
  | zero => exact .nothing rfl (not_newLease_self s)
  | succ n ih =>
    by_cases hend : s.config.maxOwnedDeliveries ≤ s.owned.size ∨ s.receiveWaiters = []
    · rw [grantLoop_done hend, grantedLeases_done hend]
      exact .nothing rfl (not_newLease_self s)
    · rw [not_or] at hend
      obtain ⟨id, waiters, hws⟩ := List.exists_cons_of_ne_nil hend.2
      obtain ⟨sub, hf⟩ := hw.firstWaiter hend.1 hws
      rcases Nat.lt_or_ge sub.owned s.config.maxOwnedPerSubscription with hlim | hlim
      · cases hnext : s.nextLease with
        | none =>
          rw [hf.grantLoop_tell hw hlim hnext, hf.grantedLeases_tell hw hlim hnext]
          exact .nothing rfl (not_newLease_self s)
        | some lease =>
          rw [hf.grantLoop_grant hw hlim hnext, hf.grantedLeases_grant hw hlim hnext]
          have hw' : Wf (grantFirst s id waiters sub lease) :=
            hw.grantReceive hws hf.lookup (Nat.not_le.2 hlim) hend.1 hnext
          have h := ih hw'
          have hkeep := (scan_grantLoop hw' n).old
          refine ⟨⟨hnext, h.counts⟩, fun l => ?_⟩
          have hiff := fun j => newLease_through hw hnext hkeep j l
          rw [List.mem_cons, h.mem l]
          simp only [hiff, exists_or]
          rw [or_comm]
          exact or_congr Iff.rfl ⟨fun h => ⟨id, rfl, h⟩, fun ⟨_, _, h⟩ => h⟩
      · rw [hf.grantLoop_rotate hw hlim, hf.grantedLeases_rotate hw hlim]
        have h := ih (hw.rotate hws)
        exact ⟨h.counts, h.mem⟩

/-! ## The leases of a run -/

theorem HandsOut.notifyReady {t : DeliverySchedulerState} {leases : List Nat}
    (h : HandsOut s t leases) : HandsOut s t.notifyReady leases := by
  refine ⟨by simpa using h.counts, fun lease => ?_⟩
  simpa only [NewLease, notifyReady_owned] using h.mem lease

/-- What a scan hands out is what the operation around it does. -/
theorem Prepared.handsOut {s₀ : DeliverySchedulerState} (hp : Prepared s s₀) (hw : Wf s)
    (hw₀ : Wf s₀) : HandsOut s s₀.grantReceives (handedOut.scan s₀) := by
  have h := grantLoop_handsOut hw₀ s₀.receiveWaiters.length
  refine ⟨hp.next ▸ h.counts, fun lease => (h.mem lease).trans ?_⟩
  simp only [hp.newLease hw (scan_grantReceives hw₀)]
  rfl

theorem step_handsOut (hi : Inv s) (op : Op) : HandsOut s (step s op) (handedOut s op) := by
  have hreceive := (hi.took op).receive hi
  cases op with
  | requestReceive id =>
    show HandsOut s (s.requestReceive id) _
    simp only [requestReceive, handedOut]
    cases hs : s.subscriptions.lookup id with
    | none => exact .nothing rfl (not_newLease_self s)
    | some sub =>
      simp only
      split_ifs with hg
      · exact .nothing rfl (not_newLease_self s)
      · simp only [Bool.or_eq_true, not_or, Bool.not_eq_true, Option.isSome_eq_false_iff,
          Option.isNone_iff_eq_none] at hg
        have hi₀ := hi.demanded hs hg.1.1 hg.1.2 hg.2
        exact Prepared.handsOut ⟨rfl, rfl, .inl ⟨id, rfl⟩, fun _ _ hl => hl⟩ hi.wf hi₀.wf
  | cancelReceive id =>
    show HandsOut s (s.cancelReceive id) _
    simp only [cancelReceive, handedOut]
    cases hs : s.subscriptions.lookup id with
    | none => exact .nothing rfl (not_newLease_self s)
    | some sub =>
      have hp : Prepared s (withdrawn s id sub) :=
        ⟨rfl, rfl, .inr List.filter_sublist, fun _ _ hl => hl⟩
      exact (hp.releaseUnclaimed.handsOut hi.wf
        ((hi.withdrawn hs).releaseUnclaimed _).wf).notifyReady
  | complete lease =>
    have hp : Prepared s s := ⟨rfl, rfl, .inr (List.Sublist.refl _), fun _ _ hl => hl⟩
    have hp : Prepared s (s.releaseUnclaimed (some lease)) := hp.releaseUnclaimed
    exact (hp.handsOut hi.wf (hi.release lease).wf).notifyReady
  | stopSubscription id =>
    show HandsOut s (s.stopSubscription id) _
    simp only [stopSubscription, handedOut]
    cases hs : s.subscriptions.lookup id with
    | none => exact .nothing rfl (not_newLease_self s)
    | some sub =>
      have hf : Prepared s (fenced s id sub) :=
        ⟨rfl, rfl, .inr List.filter_sublist, fun _ _ hl => hl⟩
      have hp : Prepared s (((fenced s id sub).releaseUnclaimed sub.unclaimed).refreshReady id) :=
        hf.releaseUnclaimed.refreshReady
      refine HandsOut.notifyReady (Prepared.handsOut { hp with } hi.wf ?_)
      exact ((hi.fenced hs).setNotifications _).wf
  | _ =>
    rcases hreceive with hq | ⟨hscan, -⟩
    · exact .nothing hq.next hq.not_newLease
    · cases hscan

theorem leasesOf_counts (hi : Inv s) (ops : List Op) :
    Counts s.nextLease (leasesOf s ops) (exec step s ops).nextLease := by
  induction ops generalizing s with
  | nil => rfl
  | cons op ops ih => exact (step_handsOut hi op).counts.append (ih (hi.step op))

theorem leasesOf_append (s : DeliverySchedulerState) (ops ops' : List Op) :
    leasesOf s (ops ++ ops') = leasesOf s ops ++ leasesOf (exec step s ops) ops' := by
  induction ops generalizing s with
  | nil => rfl
  | cons op ops ih => simp [leasesOf, ih]

/-! ## A rotation at rest -/

/-- `id` is at its own limit. -/
def Capped (s : DeliverySchedulerState) (id : Id) : Prop :=
  ∀ sub, s.subscriptions.lookup id = some sub → s.config.maxOwnedPerSubscription ≤ sub.owned

/-- A scan finds nothing to change: no credit is left, every waiter is at its own limit, or the
first waiter wants a lease, none is left, and all waiters know. -/
def Resting (s : DeliverySchedulerState) : Prop :=
  s.config.maxOwnedDeliveries ≤ s.owned.size ∨ (∀ id ∈ s.receiveWaiters, Capped s id) ∨
    ∃ id waiters sub, FirstWaiter s id waiters sub ∧
      sub.owned < s.config.maxOwnedPerSubscription ∧ s.nextLease = none ∧
      s.receiveWaiters.toFinset ⊆ s.notifications

theorem resting_grantReceives (hw : Wf s) : Resting s.grantReceives := by
  refine grantLoop_rule (P := Scanned) ?_ ?_ ?_ ?_ hw (scanned_start s)
  · intro n s _ h hend
    rcases hend with rfl | hfull | hnil
    · obtain ⟨front, back, hws, hlen, hback⟩ := h
      rw [List.length_eq_zero_iff.1 hlen, List.nil_append] at hws
      exact .inr (.inl fun id hm => hback id (hws ▸ hm))
    · exact .inl hfull
    · refine .inr (.inl fun id hm => ?_)
      rw [hnil] at hm
      cases hm
  · intro n s id waiters sub _ h hf hlim
    exact h.rotate hf hlim
  · intro n s id waiters sub hw _ hf hlim hnext
    refine .inr (.inr ⟨id, waiters, sub, ?_, hlim, hnext, Finset.subset_union_right⟩)
    exact { hf with }
  · intro n s id waiters sub lease hw h hf _ _
    exact h.grant hw hf

/-- The waiters `front` are at their limits: the scan moves them behind the others. -/
theorem grantLoop_capped (hw : Wf s) (hroom : ¬ s.config.maxOwnedDeliveries ≤ s.owned.size)
    (front back : List Id) (hws : s.receiveWaiters = front ++ back)
    (hcap : ∀ id ∈ front, Capped s id) :
    grantLoop front.length s = { s with receiveWaiters := back ++ front } := by
  induction front generalizing s back with
  | nil =>
    obtain rfl : s.receiveWaiters = back := hws
    simp only [List.length_nil, grantLoop, List.append_nil]
  | cons id front ih =>
    obtain ⟨sub, hf⟩ := hw.firstWaiter hroom hws
    have hlim := hcap id List.mem_cons_self sub hf.lookup
    rw [List.length_cons, hf.grantLoop_rotate hw hlim]
    rw [ih (hw.rotate hf.waiters) hroom (back ++ [id]) (by simp [rotate])
      fun j hj => hcap j (List.mem_cons_of_mem _ hj)]
    simp [rotate]

/-- A rotation at rest comes back to itself. -/
theorem Resting.grantReceives (hw : Wf s) (h : Resting s) : s.grantReceives = s := by
  unfold DeliverySchedulerState.grantReceives
  by_cases hroom : s.config.maxOwnedDeliveries ≤ s.owned.size
  · exact grantLoop_done (.inl hroom)
  · rcases h with hfull | hcap | ⟨id, waiters, sub, hf, hlim, hnext, htold⟩
    · exact absurd hfull hroom
    · rw [grantLoop_capped hw hroom s.receiveWaiters [] (List.append_nil _).symm hcap]
      rfl
    · rw [hf.waiters, List.length_cons, hf.grantLoop_tell hw hlim hnext, tellWaiters,
        Finset.union_eq_left.2 htold]

theorem Resting.notifyReady (h : Resting s) : Resting s.notifyReady := by
  rcases h with hfull | hcap | ⟨id, waiters, sub, hf, hlim, hnext, htold⟩
  · exact .inl (by simpa using hfull)
  · refine .inr (.inl fun id hm => ?_)
    simp only [Capped, notifyReady_subscriptions, notifyReady_config]
    exact hcap id (by simpa using hm)
  · refine .inr (.inr ⟨id, waiters, sub, ⟨?_, ?_, hf.waiting, ?_⟩, ?_, ?_, ?_⟩)
    · simpa using hf.waiters
    · simpa using hf.lookup
    · simpa using hf.room
    · simpa using hlim
    · simpa using hnext
    · rw [notifyReady_receiveWaiters]
      exact htold.trans (notifyReady_notifications _)

theorem notifyReady_notifyReady (s : DeliverySchedulerState) :
    s.notifyReady.notifyReady = s.notifyReady := by
  cases hsel : s.selectedReady with
  | none =>
    have he : s.notifyReady = s := by simp only [DeliverySchedulerState.notifyReady, hsel]
    rw [he, he]
  | some p =>
    rw [DeliverySchedulerState.notifyReady, notifyReady_selectedReady, hsel]
    have hm : p.1 ∈ s.notifyReady.notifications :=
      selects_notified ⟨p.2, by rw [notifyReady_selectedReady, hsel]⟩
    simp only [Finset.insert_eq_of_mem hm]

/-! ## Repeated calls -/

theorem release_not_owned (hl : s.owned.lookup lease = none) : s.release lease = s := by
  simp only [release, hl]

/-- With no grantable demand left unserved, a scan grants nothing. -/
theorem Conserving.grantReceives_owned (hw : Wf s) (hc : Conserving s) :
    s.grantReceives.owned = s.owned := by
  refine (grantLoop_rule (P := fun _ t => Conserving t ∧ t.owned = s.owned)
    (Q := fun t => t.owned = s.owned) (fun _ _ _ h _ => h.2) ?_ ?_ ?_ hw ⟨hc, rfl⟩)
  · intro n t id waiters sub _ h hf _
    refine ⟨fun j hg => h.1 j ⟨?_, hg.2⟩, h.2⟩
    rw [hf.waiters]
    exact (List.perm_append_singleton id waiters).mem_iff.1 hg.1
  · intro n t id waiters sub _ h _ _ _
    exact h.2
  · intro n t id waiters sub lease _ h hf hlim hnext
    have hg : Grantable t id := ⟨by rw [hf.waiters]; exact List.mem_cons_self, sub, hf.lookup, hlim⟩
    rcases h.1 id hg with hfull | hnone
    · exact absurd hfull hf.room
    · rw [hnext] at hnone
      cases hnone

/-- A completed lease is gone, and the scan that follows does not give it out again. -/
theorem complete_gone (hi : Inv s) (hc : Conserving s) (lease : Nat) :
    (s.complete lease).owned.lookup lease = none := by
  rw [complete, notifyReady_owned]
  cases hl : s.owned.lookup lease with
  | none =>
    rw [release_not_owned hl, hc.grantReceives_owned hi.wf]
    exact hl
  | some record =>
    have hgone : (s.release lease).owned.lookup lease = none := by
      obtain ⟨sub, hs⟩ := hi.wf.registered lease record hl
      simp only [release, hl, hs, refreshReady_owned]
      exact (Map.lookup_erase_eq _ _ _).trans (if_pos rfl)
    cases hl' : (s.release lease).grantReceives.owned.lookup lease with
    | none => rfl
    | some r =>
      obtain ⟨-, -, n, hnext, hle⟩ :=
        (scan_grantReceives (hi.release lease).wf).new r.subscriptionId lease ⟨hgone, r, hl', rfl⟩
      rw [release_nextLease] at hnext
      exact absurd (hi.wf.fresh n hnext lease record hl) (Nat.not_lt.2 hle)

theorem complete_complete (hi : Inv s) (hc : Conserving s) (lease : Nat) :
    (s.complete lease).complete lease = s.complete lease := by
  have hrest : Resting (s.complete lease) :=
    (resting_grantReceives (hi.release lease).wf).notifyReady
  have hi' : Inv (s.complete lease) := hi.step (.complete lease)
  rw [complete, release_not_owned (complete_gone hi hc lease), hrest.grantReceives hi'.wf]
  exact notifyReady_notifyReady _

theorem leaveRunning_leaveRunning (s : DeliverySchedulerState) (lease : Nat)
    {next : OwnedDeliveryPhase} (hnext : next ≠ .running) :
    (s.leaveRunning lease next).leaveRunning lease next = s.leaveRunning lease next := by
  cases hl : s.owned.lookup lease with
  | none => simp only [leaveRunning, hl]
  | some record =>
    by_cases hp : record.phase = .running
    · have hlk : (s.leaveRunning lease next).owned.lookup lease =
          some { record with phase := next } := by
        simp only [leaveRunning, hl, hp, ne_eq, not_true_eq_false, if_false, notifyReady_owned,
          Map.lookup_insert_eq, if_true]
      rw [leaveRunning, hlk]
      exact if_pos hnext
    · simp only [leaveRunning, hl, hp, ne_eq, not_false_eq_true, if_true]

theorem finishAttemptWaiting_twice (s : DeliverySchedulerState) (lease : Nat) :
    (s.finishAttemptWaiting lease).finishAttemptWaiting lease = s.finishAttemptWaiting lease := by
  cases hl : s.owned.lookup lease with
  | none => simp only [finishAttemptWaiting, hl]
  | some record =>
    by_cases hp : record.phase = .settling
    · have hlk : (s.finishAttemptWaiting lease).owned.lookup lease =
          some { record with phase := .waitingRetry } := by
        simp only [finishAttemptWaiting, hl, hp, if_true, Map.lookup_insert_eq]
      rw [finishAttemptWaiting, hlk]
      rfl
    · simp only [finishAttemptWaiting, hl, hp, if_false]

theorem wakeRetry_twice (s : DeliverySchedulerState) (lease : Nat) :
    (s.wakeRetry lease).wakeRetry lease = s.wakeRetry lease := by
  cases hl : s.owned.lookup lease with
  | none => simp only [wakeRetry, hl]
  | some record =>
    by_cases hp : record.phase = .waitingRetry
    · cases hs : s.subscriptions.lookup record.subscriptionId with
      | none => simp only [wakeRetry, hl, hp, hs, ne_eq, not_true_eq_false, if_false]
      | some sub =>
        by_cases hstop : sub.stopped = true
        · simp only [wakeRetry, hl, hp, hs, hstop, ne_eq, not_true_eq_false, if_false, if_true]
        · have hlk : (s.wakeRetry lease).owned.lookup lease =
              some { record with phase := .queued } := by
            simp only [wakeRetry, hl, hp, hs, hstop, ne_eq, not_true_eq_false, if_false,
              Bool.false_eq_true, notifyReady_owned, refreshReady_owned, Map.lookup_insert_eq,
              if_true]
          rw [wakeRetry, hlk]
          rfl
    · simp only [wakeRetry, hl, hp, ne_eq, not_false_eq_true, if_true]

end

/-- What can be said of lease numbers and repeated calls after the operations `ops`. -/
structure LeasesSound (config : DeliverySchedulingConfig) (ops : List Op)
    (s : DeliverySchedulerState) : Prop where
  /-- An operation hands out exactly the leases it adds. -/
  handed : ∀ op lease, lease ∈ handedOut s op ↔ ∃ id, NewLease s (step s op) id lease
  /-- Over the whole run the leases strictly increase, so none is given out twice. -/
  increasing : (leasesOf (.new config) ops).Pairwise (· < ·)
  bounded : ∀ lease ∈ leasesOf (.new config) ops, lease < 2 ^ 64
  /-- Nothing follows the last number of 64 bits. -/
  exhausted : 2 ^ 64 - 1 ∈ leasesOf (.new config) ops →
    ∀ later, leasesOf (.new config) (ops ++ later) = leasesOf (.new config) ops
  complete : ∀ lease, (s.complete lease).complete lease = s.complete lease
  handlerFinished : ∀ lease,
    (s.handlerFinished lease).handlerFinished lease = s.handlerFinished lease
  deferUnstartedRetry : ∀ lease,
    (s.deferUnstartedRetry lease).deferUnstartedRetry lease = s.deferUnstartedRetry lease
  finishAttemptWaiting : ∀ lease,
    (s.finishAttemptWaiting lease).finishAttemptWaiting lease = s.finishAttemptWaiting lease
  wakeRetry : ∀ lease, (s.wakeRetry lease).wakeRetry lease = s.wakeRetry lease

theorem leasesOf_new_counts (config : DeliverySchedulingConfig) (ops : List Op) :
    Counts (some 1) (leasesOf (.new config) ops) (exec step (.new config) ops).nextLease :=
  leasesOf_counts (inv_new config) ops

theorem leasesOf_new_lt (config : DeliverySchedulingConfig) (ops : List Op)
    (hm : lease ∈ leasesOf (.new config) ops) : lease < 2 ^ 64 := by
  refine (leasesOf_new_counts config ops).lt_of_mem (fun n hn => ?_) hm
  obtain rfl := Option.some.inj hn
  decide

/-- Once the greatest number is given out, a later run gives out nothing. -/
theorem leasesOf_new_exhausted (config : DeliverySchedulingConfig) (ops later : List Op)
    (hmax : 2 ^ 64 - 1 ∈ leasesOf (.new config) ops) :
    leasesOf (.new config) (ops ++ later) = leasesOf (.new config) ops := by
  have hsorted := (leasesOf_new_counts config (ops ++ later)).pairwise
  have hlt : ∀ lease ∈ leasesOf (.new config) (ops ++ later), lease < 2 ^ 64 :=
    fun lease hm => leasesOf_new_lt config _ hm
  rw [leasesOf_append] at hsorted hlt ⊢
  cases hmore : leasesOf (exec step (.new config) ops) later with
  | nil => exact List.append_nil _
  | cons lease more =>
    rw [hmore] at hsorted hlt
    have h1 := (List.pairwise_append.1 hsorted).2.2 _ hmax lease List.mem_cons_self
    have h2 := hlt lease (List.mem_append_right _ List.mem_cons_self)
    omega

/-- **Lease identity and repeated calls.** Over any run the leases handed out strictly increase up
to `u64::MAX`, after which none is handed out; and in the state a run leads to, releasing a lease
or moving it on a second time changes nothing at all. -/
theorem exec_new_leasesSound (config : DeliverySchedulingConfig) (ops : List Op) :
    LeasesSound config ops (exec step (.new config) ops) := by
  obtain ⟨hi, hc⟩ := exec_new_inv_conserving config ops
  exact
    { handed := fun op lease => (step_handsOut hi op).mem lease
      increasing := (leasesOf_new_counts config ops).pairwise
      bounded := fun lease hm => leasesOf_new_lt config ops hm
      exhausted := fun hmax later => leasesOf_new_exhausted config ops later hmax
      complete := complete_complete hi hc
      handlerFinished := fun lease => leaveRunning_leaveRunning _ lease (by decide)
      deferUnstartedRetry := fun lease => leaveRunning_leaveRunning _ lease (by decide)
      finishAttemptWaiting := finishAttemptWaiting_twice _
      wakeRetry := wakeRetry_twice _ }

end EventBus.Scheduler
