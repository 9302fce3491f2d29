import EventBus.Lib.Rotation
import EventBus.Scheduler.Preserve

/-!
# Receive admission

A receive demand waits in `receiveWaiters` until a scan (`grantReceives`) reserves a lease for it.
An operation either is `Quiet`, which means that it neither frees a credit nor adds a demand nor
touches a lease's owner, or it ends with a scan (`Took.receive`). From this and one statement about
the scan follows that no grantable demand is ever left waiting (`exec_new_conserving`).
-/

namespace EventBus.Scheduler

open Lib OwnedDeliveryPhase DeliverySchedulerState

variable {s s' : DeliverySchedulerState} {sub : SubscriptionScheduleState} {waiters : List Id}
  {id : Id} {lease n : Nat}

/-! ## Frames -/

section
variable (s : DeliverySchedulerState) (id : Id)

@[simp] theorem refreshReady_owned : (s.refreshReady id).owned = s.owned := by
  unfold refreshReady
  split_ifs <;> rfl

@[simp] theorem refreshReady_receiveWaiters :
    (s.refreshReady id).receiveWaiters = s.receiveWaiters := by
  unfold refreshReady
  split_ifs <;> rfl

@[simp] theorem refreshReady_subscriptions :
    (s.refreshReady id).subscriptions = s.subscriptions := by
  unfold refreshReady
  split_ifs <;> rfl

@[simp] theorem refreshReady_nextLease : (s.refreshReady id).nextLease = s.nextLease := by
  unfold refreshReady
  split_ifs <;> rfl

@[simp] theorem refreshReady_notifications :
    (s.refreshReady id).notifications = s.notifications := by
  unfold refreshReady
  split_ifs <;> rfl

@[simp] theorem notifyReady_owned : s.notifyReady.owned = s.owned := by
  unfold notifyReady
  split <;> rfl

@[simp] theorem notifyReady_receiveWaiters :
    s.notifyReady.receiveWaiters = s.receiveWaiters := by
  unfold notifyReady
  split <;> rfl

@[simp] theorem notifyReady_subscriptions : s.notifyReady.subscriptions = s.subscriptions := by
  unfold notifyReady
  split <;> rfl

@[simp] theorem notifyReady_nextLease : s.notifyReady.nextLease = s.nextLease := by
  unfold notifyReady
  split <;> rfl

/-- Notifications are only added. -/
theorem notifyReady_notifications : s.notifications ⊆ s.notifyReady.notifications := by
  unfold notifyReady
  split
  · exact Finset.Subset.refl _
  · exact Finset.subset_insert _ _

end

/-! ## Operations without a scan -/

/-- No credit is freed, no demand is added, and every lease stays with its owner. -/
structure Quiet (s s' : DeliverySchedulerState) : Prop where
  config : s'.config = s.config
  next : s'.nextLease = s.nextLease
  waiters : s'.receiveWaiters.Sublist s.receiveWaiters
  owner : ∀ lease, (s'.owned.lookup lease).map (·.subscriptionId) =
    (s.owned.lookup lease).map (·.subscriptionId)

/-- What an operation does before its scan: it may add one demand, drop some, and release. -/
structure Prepared (s s₀ : DeliverySchedulerState) : Prop where
  config : s₀.config = s.config
  next : s₀.nextLease = s.nextLease
  waiters : (∃ id, s₀.receiveWaiters = s.receiveWaiters ++ [id]) ∨
    s₀.receiveWaiters.Sublist s.receiveWaiters
  owner : ∀ lease r, s₀.owned.lookup lease = some r → s.owned.lookup lease = some r

theorem Quiet.refl (s : DeliverySchedulerState) : Quiet s s :=
  ⟨rfl, rfl, List.Sublist.refl _, fun _ => rfl⟩

theorem Quiet.notifyReady (h : Quiet s s') : Quiet s s'.notifyReady :=
  ⟨by simpa using h.config, by simpa using h.next, by simpa using h.waiters,
    by simpa using h.owner⟩

theorem Quiet.refreshReady (h : Quiet s s') : Quiet s (s'.refreshReady id) :=
  ⟨by simpa using h.config, by simpa using h.next, by simpa using h.waiters,
    by simpa using h.owner⟩

/-- A record changes, but not its owner. -/
theorem owner_insert {owned : Map Nat OwnedDeliveryRecord} {r r' : OwnedDeliveryRecord}
    (hl : owned.lookup lease = some r) (hid : r'.subscriptionId = r.subscriptionId) (l : Nat) :
    ((owned.insert lease r').lookup l).map (·.subscriptionId) =
      (owned.lookup l).map (·.subscriptionId) := by
  rw [Map.lookup_insert_eq]
  split
  · rename_i he
    rw [he, hl, Option.map_some, Option.map_some, hid]
  · rfl

theorem release_owned (lease l : Nat) (r : OwnedDeliveryRecord)
    (h : (s.release lease).owned.lookup l = some r) : s.owned.lookup l = some r := by
  have herase : ((s.owned.erase lease).lookup l) = some r → s.owned.lookup l = some r := by
    intro h
    rw [Map.lookup_erase_eq] at h
    split at h
    · cases h
    · exact h
  unfold DeliverySchedulerState.release at h
  split at h
  · exact h
  · dsimp only at h
    split at h
    · exact herase h
    · rw [refreshReady_owned] at h
      exact herase h

@[simp] theorem release_receiveWaiters (lease : Nat) :
    (s.release lease).receiveWaiters = s.receiveWaiters := by
  unfold DeliverySchedulerState.release
  split
  · rfl
  · dsimp only
    split
    · rfl
    · rw [refreshReady_receiveWaiters]

@[simp] theorem release_nextLease (lease : Nat) : (s.release lease).nextLease = s.nextLease := by
  unfold DeliverySchedulerState.release
  split
  · rfl
  · dsimp only
    split
    · rfl
    · rw [refreshReady_nextLease]

theorem Prepared.releaseUnclaimed (h : Prepared s s') {unclaimed : Option Nat} :
    Prepared s (s'.releaseUnclaimed unclaimed) := by
  cases unclaimed with
  | none => exact h
  | some lease =>
    refine ⟨(release_config s' lease).trans h.config, (release_nextLease lease).trans h.next, ?_,
      fun l r hl => h.owner l r (release_owned lease l r hl)⟩
    show (∃ id, (s'.release lease).receiveWaiters = _) ∨ (s'.release lease).receiveWaiters.Sublist _
    rw [release_receiveWaiters]
    exact h.waiters

theorem Prepared.refreshReady (h : Prepared s s') : Prepared s (s'.refreshReady id) :=
  ⟨by simpa using h.config, by simpa using h.next, by simpa using h.waiters,
    by simpa using h.owner⟩

/-- The operations that may end with a scan of the waiting receivers. -/
def Op.mayScan : Op → Bool
  | .requestReceive _ | .cancelReceive _ | .complete _ | .stopSubscription _ => true
  | _ => false

/-- Every operation is quiet or ends with a scan. -/
theorem Took.receive {op : Op} (ht : Took s op s') (h : Inv s) :
    Quiet s s' ∨ op.mayScan = true ∧ ∃ s₀, Inv s₀ ∧ Prepared s s₀ ∧
      (s' = s₀.grantReceives ∨ s' = s₀.grantReceives.notifyReady) := by
  cases ht with
  | skip => exact .inl (.refl s)
  | notify => exact .inl (Quiet.refl s).notifyReady
  | register hs hlt => exact .inl { Quiet.refl s with }
  | setDispatchActive active hs =>
    refine .inl (Quiet.notifyReady (Quiet.refreshReady ?_))
    exact { Quiet.refl s with }
  | requestReceive hs hstop hwait hres =>
    exact .inr ⟨rfl, _, h.demanded hs hstop hwait hres, ⟨rfl, rfl, .inl ⟨_, rfl⟩, fun _ _ hl => hl⟩,
      .inl rfl⟩
  | cancelReceive hs =>
    refine .inr ⟨rfl, _, (h.withdrawn hs).releaseUnclaimed _, Prepared.releaseUnclaimed ?_,
      .inr rfl⟩
    exact ⟨rfl, rfl, .inr List.filter_sublist, fun _ _ hl => hl⟩
  | takeReceiveReservation hs => exact .inl { Quiet.refl s with }
  | enqueue hop hl hs hp =>
    refine .inl (Quiet.notifyReady (Quiet.refreshReady ?_))
    exact { Quiet.refl s with owner := owner_insert hl rfl }
  | grant hop hg => 
    refine .inl (Quiet.notifyReady (Quiet.refreshReady ?_))
    exact { Quiet.refl s with owner := owner_insert hg.owns.1 rfl }
  | leaveRunning hop hl hp =>
    refine .inl (Quiet.notifyReady ?_)
    exact { Quiet.refl s with owner := owner_insert hl rfl }
  | finishAttemptWaiting hl hp =>
    exact .inl { Quiet.refl s with owner := owner_insert hl rfl }
  | wakeRetry hl hs hp =>
    refine .inl (Quiet.notifyReady (Quiet.refreshReady ?_))
    exact { Quiet.refl s with owner := owner_insert hl rfl }
  | complete lease =>
    have hp : Prepared s s := ⟨rfl, rfl, .inr (List.Sublist.refl _), fun _ _ hl => hl⟩
    have hp : Prepared s (s.releaseUnclaimed (some lease)) := hp.releaseUnclaimed
    exact .inr ⟨rfl, _, h.release lease, hp, .inr rfl⟩
  | stopSubscription hs h₁ =>
    rename_i id sub s₁
    have hf : Prepared s (fenced s id sub) := ⟨rfl, rfl, .inr List.filter_sublist, fun _ _ hl => hl⟩
    have hp : Prepared s s₁ := h₁ ▸ hf.releaseUnclaimed.refreshReady
    have hi : Inv s₁ := h₁ ▸ h.fenced hs
    exact .inr ⟨rfl, { s₁ with notifications := insert id s₁.notifications }, hi.setNotifications _,
      { hp with }, .inr rfl⟩
  | unregister hs hz =>
    refine .inl (Quiet.notifyReady ?_)
    exact { Quiet.refl s with waiters := List.filter_sublist }
  | takeNotifications => exact .inl { Quiet.refl s with }
  | recordOwnedStart createdAt hl hp =>
    exact .inl { Quiet.refl s with owner := owner_insert hl rfl }

/-! ## What a scan achieves -/

/-- `id` waits for a receive and is below its own limit. -/
def Grantable (s : DeliverySchedulerState) (id : Id) : Prop :=
  id ∈ s.receiveWaiters ∧
    ∃ sub, s.subscriptions.lookup id = some sub ∧ sub.owned < s.config.maxOwnedPerSubscription

/-- The rotation in the middle of a scan: `n` waiters are still to be looked at, the others are at
their own limit. -/
def Scanned (n : Nat) (s : DeliverySchedulerState) : Prop :=
  ∃ front back, s.receiveWaiters = front ++ back ∧ front.length = n ∧
    ∀ id ∈ back, ∀ sub, s.subscriptions.lookup id = some sub →
      s.config.maxOwnedPerSubscription ≤ sub.owned

/-- A scan leaves a grantable demand only if no credit or no lease is left; in the second case it
tells all waiters. -/
def ScanDone (s : DeliverySchedulerState) : Prop :=
  ∀ id, Grantable s id → s.owned.size < s.config.maxOwnedDeliveries →
    s.nextLease = none ∧ ∀ j ∈ s.receiveWaiters, j ∈ s.notifications

theorem scanned_start (s : DeliverySchedulerState) : Scanned s.receiveWaiters.length s :=
  ⟨s.receiveWaiters, [], (List.append_nil _).symm, rfl, by simp⟩

theorem Scanned.done (h : Scanned n s)
    (hend : n = 0 ∨ s.config.maxOwnedDeliveries ≤ s.owned.size ∨ s.receiveWaiters = []) :
    ScanDone s := by
  intro id hg hroom
  obtain ⟨hm, sub, hs, hlt⟩ := hg
  rcases hend with rfl | hfull | hnil
  · obtain ⟨front, back, hw, hlen, hback⟩ := h
    rw [List.length_eq_zero_iff.1 hlen, List.nil_append] at hw
    exact absurd (hback id (hw ▸ hm) sub hs) (Nat.not_le.2 hlt)
  · exact absurd hfull (Nat.not_le.2 hroom)
  · rw [hnil] at hm
    cases hm

/-- The first waiter is at its limit and joins the back. -/
theorem Scanned.rotate (h : Scanned (n + 1) s) (hf : FirstWaiter s id waiters sub)
    (hlim : s.config.maxOwnedPerSubscription ≤ sub.owned) : Scanned n (rotate s id waiters) := by
  obtain ⟨front, back, hws, hlen, hback⟩ := h
  cases front with
  | nil => cases hlen
  | cons a front =>
    rw [hf.waiters] at hws
    obtain ⟨rfl, rfl⟩ := List.cons.inj hws
    refine ⟨front, back ++ [id], by simp [Scheduler.rotate], Nat.succ.inj hlen,
      fun j hj subj hsj => ?_⟩
    rcases List.mem_append.1 hj with hj | hj
    · exact hback j hj subj hsj
    · rw [List.mem_singleton.1 hj] at hsj
      have : some sub = some subj := hf.lookup.symm.trans hsj
      exact Option.some.inj this ▸ hlim

/-- The first waiter leaves the rotation with a lease; the others keep their state. -/
theorem Scanned.grant (h : Scanned (n + 1) s) (hw : Wf s) (hf : FirstWaiter s id waiters sub) :
    Scanned n (grantFirst s id waiters sub lease) := by
  obtain ⟨front, back, hws, hlen, hback⟩ := h
  cases front with
  | nil => cases hlen
  | cons a front =>
    have hnd := hw.waitersNodup
    rw [hf.waiters] at hws
    rw [hf.waiters, List.nodup_cons] at hnd
    obtain ⟨rfl, rfl⟩ := List.cons.inj hws
    refine ⟨front, back, rfl, Nat.succ.inj hlen, fun j hj subj hsj => hback j hj subj ?_⟩
    have hne : j ≠ id := fun he => hnd.1 (he ▸ List.mem_append_right _ hj)
    have : (s.subscriptions.insert id _).lookup j = some subj := hsj
    rw [Map.lookup_insert_eq, if_neg hne] at this
    exact this

theorem scanDone_grantReceives (hw : Wf s) : ScanDone s.grantReceives := by
  refine grantLoop_rule (fun n s _ h hend => h.done hend) ?_ ?_ ?_ hw (scanned_start s)
  · intro n s id waiters sub _ h hf hlim
    exact h.rotate hf hlim
  · intro n s id waiters sub _ _ _ _ hnext j _ _
    exact ⟨hnext, fun i hi => Finset.mem_union_right _ (List.mem_toFinset.2 hi)⟩
  · intro n s id waiters sub lease hw h hf _ _
    exact h.grant hw hf

/-! ## No grantable demand is left waiting -/

/-- A waiter below its own limit waits because no credit or no lease is left. -/
def Conserving (s : DeliverySchedulerState) : Prop :=
  ∀ id, Grantable s id → s.config.maxOwnedDeliveries ≤ s.owned.size ∨ s.nextLease = none

theorem ScanDone.conserving (h : ScanDone s) : Conserving s := by
  intro id hg
  by_cases hroom : s.config.maxOwnedDeliveries ≤ s.owned.size
  · exact .inl hroom
  · exact .inr (h id hg (Nat.lt_of_not_le hroom)).1

theorem Quiet.size_eq (h : Quiet s s') : s'.owned.size = s.owned.size := by
  rw [Map.size_eq_total, Map.size_eq_total]
  refine Map.total_eq_total _ _ fun lease => ?_
  have := congrArg (Option.map fun _ => 1) (h.owner lease)
  rw [Option.map_map, Option.map_map] at this
  exact this

theorem Quiet.count_eq (h : Quiet s s') (id : Id) :
    s'.owned.count (·.subscriptionId = id) = s.owned.count (·.subscriptionId = id) := by
  refine Map.total_eq_total _ _ fun lease => ?_
  have := congrArg (Option.map fun j : Id => if j = id then 1 else 0) (h.owner lease)
  rw [Option.map_map, Option.map_map] at this
  exact this

/-- A quiet operation makes no demand grantable. -/
theorem Quiet.grantable (h : Quiet s s') (hi : Inv s) (hi' : Inv s') (hg : Grantable s' id) :
    Grantable s id := by
  obtain ⟨hm, sub', hs', hlt⟩ := hg
  have hm := h.waiters.subset hm
  obtain ⟨sub, hs, -⟩ := (hi.wf.waiters id).1 hm
  refine ⟨hm, sub, hs, ?_⟩
  rw [(hi.wf.sub id sub hs).ownedEq, ← h.count_eq id, ← (hi'.wf.sub id sub' hs').ownedEq]
  exact h.config ▸ hlt

theorem Took.conserving {op : Op} (ht : Took s op s') (hi : Inv s) (hc : Conserving s) :
    Conserving s' := by
  rcases ht.receive hi with h | ⟨-, s₀, hi₀, -, rfl | rfl⟩
  · intro id hg
    rw [h.size_eq, h.config, h.next]
    exact hc id (h.grantable hi (ht.inv hi) hg)
  · exact (scanDone_grantReceives hi₀.wf).conserving
  · have h := (scanDone_grantReceives hi₀.wf).conserving
    simpa only [Conserving, Grantable, notifyReady_receiveWaiters, notifyReady_subscriptions,
      notifyReady_config, notifyReady_owned, notifyReady_nextLease] using h

theorem exec_new_inv_conserving (config : DeliverySchedulingConfig) (ops : List Op) :
    Inv (exec step (.new config) ops) ∧ Conserving (exec step (.new config) ops) := by
  refine exec_induct (P := fun s => Inv s ∧ Conserving s) (fun s op h => ?_) ⟨inv_new config, ?_⟩
    ops
  · exact ⟨h.1.step op, (h.1.took op).conserving h.1 h.2⟩
  · intro id hg
    cases hg.1

/-- After any operations, a registered receive waiter below its own limit waits only because the
owned leases have reached their global limit or the lease numbers are exhausted. -/
theorem exec_new_conserving (config : DeliverySchedulingConfig) (ops : List Op) :
    Conserving (exec step (.new config) ops) := (exec_new_inv_conserving config ops).2

/-! ## The leases a scan hands out -/

/-- `lease` is a lease of `id` in `s'` that `s` does not have: a reservation granted between. -/
def NewLease (s s' : DeliverySchedulerState) (id : Id) (lease : Nat) : Prop :=
  s.owned.lookup lease = none ∧
    ∃ r, s'.owned.lookup lease = some r ∧ r.subscriptionId = id

theorem not_newLease_of_owner
    (h : ∀ lease r, s'.owned.lookup lease = some r → (s.owned.lookup lease).isSome) (id : Id)
    (lease : Nat) : ¬ NewLease s s' id lease := by
  intro hn
  obtain ⟨h0, r, hr, -⟩ := hn
  have := h lease r hr
  rw [h0] at this
  cases this

theorem grantFirst_lookup (l : Nat) : (grantFirst s id waiters sub lease).owned.lookup l =
    if l = lease then some ⟨id, .reservedReceive, none, none⟩ else s.owned.lookup l :=
  Map.lookup_insert_eq _ _ _ _

/-- A grant in the middle of a scan that started at `s₀` and has kept its leases. -/
theorem newLease_grantFirst {s₀ : DeliverySchedulerState} (hw : Wf s)
    (hn : s.nextLease = some lease)
    (hold : ∀ l r, s₀.owned.lookup l = some r → s.owned.lookup l = some r) (j : Id) (l : Nat) :
    NewLease s₀ (grantFirst s id waiters sub lease) j l ↔
      NewLease s₀ s j l ∨ (j = id ∧ l = lease) := by
  have hfresh := hw.unused hn
  have hfresh₀ : s₀.owned.lookup lease = none := by
    cases hl : s₀.owned.lookup lease with
    | none => rfl
    | some r =>
      rw [hold lease r hl] at hfresh
      cases hfresh
  unfold NewLease
  rw [grantFirst_lookup]
  by_cases hl : l = lease
  · subst hl
    simp [hfresh, hfresh₀, eq_comm]
  · simp [hl]

/-- What a scan that started at `s` has done when it is at `t`. -/
structure Scan (s t : DeliverySchedulerState) : Prop where
  /-- It keeps the leases there are, ... -/
  old : ∀ l r, s.owned.lookup l = some r → t.owned.lookup l = some r
  waiters : ∀ j ∈ t.receiveWaiters, j ∈ s.receiveWaiters
  next : ∀ m, t.nextLease = some m → ∃ n, s.nextLease = some n ∧ n ≤ m
  /-- ... and hands out unused ones, to waiters it notifies. -/
  new : ∀ j l, NewLease s t j l →
    j ∈ s.receiveWaiters ∧ j ∈ t.notifications ∧ ∃ n, s.nextLease = some n ∧ n ≤ l
  notifications : s.notifications ⊆ t.notifications

theorem Scan.refl (s : DeliverySchedulerState) : Scan s s :=
  ⟨fun _ _ hl => hl, fun _ hj => hj, fun m hm => ⟨m, hm, Nat.le_refl _⟩,
    fun j l hn => absurd hn (not_newLease_of_owner (fun l r hl => by rw [hl]; rfl) j l),
    Finset.Subset.refl _⟩

theorem Scan.grant {t : DeliverySchedulerState} (h : Scan s t) (hw : Wf t)
    (hf : FirstWaiter t id waiters sub) (hn : t.nextLease = some lease) :
    Scan s (grantFirst t id waiters sub lease) := by
  have hid : id ∈ t.receiveWaiters := by
    rw [hf.waiters]
    exact List.mem_cons_self
  obtain ⟨n, hn₀, hle⟩ := h.next lease hn
  refine ⟨fun l r hl => grantFirst_keeps hw hn (h.old l r hl), fun j hj => h.waiters j ?_,
    fun m hm => ⟨n, hn₀, ?_⟩, fun j l hj => ?_, h.notifications.trans (Finset.subset_insert _ _)⟩
  · rw [hf.waiters]
    exact List.mem_cons_of_mem _ hj
  · obtain ⟨rfl, -⟩ := checkedSucc_some hm
    omega
  · rcases (newLease_grantFirst hw hn h.old j l).1 hj with hj | ⟨rfl, rfl⟩
    · obtain ⟨h1, h2, h3⟩ := h.new j l hj
      exact ⟨h1, Finset.mem_insert_of_mem h2, h3⟩
    · exact ⟨h.waiters j hid, Finset.mem_insert_self _ _, n, hn₀, hle⟩

theorem scan_grantLoop (hw : Wf s) (n : Nat) : Scan s (grantLoop n s) := by
  refine grantLoop_rule (P := fun _ t => Scan s t) (fun _ _ _ h _ => h) ?_ ?_ ?_ hw (.refl s)
  · intro n t id waiters sub _ h hf _
    refine ⟨h.old, fun j hj => h.waiters j ?_, h.next, h.new, h.notifications⟩
    rw [hf.waiters]
    exact (List.perm_append_singleton id waiters).mem_iff.1 hj
  · intro n t id waiters sub _ h _ _ _
    refine ⟨h.old, h.waiters, h.next, fun j l hj => ?_,
      h.notifications.trans Finset.subset_union_left⟩
    obtain ⟨h1, h2, h3⟩ := h.new j l hj
    exact ⟨h1, Finset.mem_union_left _ h2, h3⟩
  · intro n t id waiters sub lease hw h hf _ hn
    exact h.grant hw hf hn

theorem scan_grantReceives (hw : Wf s) : Scan s s.grantReceives :=
  scan_grantLoop hw _

/-- A quiet operation hands out nothing. -/
theorem Quiet.not_newLease (h : Quiet s s') (id : Id) (lease : Nat) : ¬ NewLease s s' id lease := by
  refine not_newLease_of_owner (fun l r hl => ?_) id lease
  have := h.owner l
  rw [hl] at this
  cases hs : s.owned.lookup l with
  | none =>
    rw [hs] at this
    cases this
  | some r => rfl

/-- What is new after the operation is what its scan handed out. -/
theorem Prepared.newLease {s₀ : DeliverySchedulerState} (h : Prepared s s₀) (hw : Wf s)
    (hs : Scan s₀ s') : NewLease s s' id lease ↔ NewLease s₀ s' id lease := by
  refine ⟨fun hn => ⟨?_, hn.2⟩, fun hn => ⟨?_, hn.2⟩⟩
  · cases hl : s₀.owned.lookup lease with
    | none => rfl
    | some r =>
      have := hn.1
      rw [h.owner lease r hl] at this
      cases this
  · obtain ⟨-, -, n, hnext, hle⟩ := hs.new id lease hn
    cases hl : s.owned.lookup lease with
    | none => rfl
    | some r => exact absurd (hw.fresh n (h.next ▸ hnext) lease r hl) (Nat.not_lt.2 hle)

end EventBus.Scheduler
