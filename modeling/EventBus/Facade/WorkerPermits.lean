import EventBus.Facade.Subscribing

/-!
# A permit guarantees a registration

What the calls and workers of a bus hold together is a sum over the threads (`Tally`): the permits,
those of them that have no registration yet or any more, and the subscriptions with whether they are
registered. As long as no spawn fails, every registration has a permit, so the permits without one
are the room that is left for registrations (`Balanced`). The step lemma is `Stage.step_sound`; the
scheduler's part of it is that a worker which gave back its leases can be unregistered.
-/

namespace EventBus.Facade

open Lib Scheduler

/-- Permits, permits without a registration, and subscriptions with whether they are registered. -/
abbrev Tally := Nat × Nat × Multiset (Id × Bool)

def Stage.tally : Stage → Tally
  | .entering | .reserving _ | .untracking .. => (0, 0, 0)
  | .validating | .numbering | .failing _ | .leaving _ | .releasing => (1, 1, 0)
  | .opening id | .starting id | .registering id => (1, 1, {(id, false)})
  | .tracking id | .spawning id | .working id | .finishing id => (1, 0, {(id, true)})
  | .stopping id _ | .unregistering id _ => (0, 0, {(id, true)})

def Thread.tally : Thread Call Outcome → Tally
  | .running (.subscribe _ stage) => stage.tally
  | _ => (0, 0, 0)

/-- The registered ones. -/
def registered (ids : Multiset (Id × Bool)) : Multiset Id :=
  (ids.filter fun p => p.2 = true).map Prod.fst

@[simp] theorem registered_zero : registered 0 = 0 := rfl

@[simp] theorem registered_add (a b : Multiset (Id × Bool)) :
    registered (a + b) = registered a + registered b := by
  simp [registered]

@[simp] theorem registered_true (id : Id) : registered {(id, true)} = {id} := rfl

@[simp] theorem registered_false (id : Id) : registered {(id, false)} = 0 := rfl

/-- What holds between the shared state and the sum over the threads. -/
structure Balanced (m : Tally) (s : EventBusInner) : Prop where
  inv : Inv s.core
  limit : s.limit = s.core.config.maxSubscriptions
  active : s.active = m.1
  active_le : s.active ≤ s.limit
  spare : m.1 = m.2.1 + (registered m.2.2).card
  named : (m.2.2.map Prod.fst).Nodup
  fresh : ∀ p ∈ m.2.2, p.1.value < s.nextSubscriptionId
  keys : s.core.subscriptions.keys.val = registered m.2.2

section
variable {m rest : Tally} {s : EventBusInner} {id : Id}

theorem Balanced.size (h : Balanced m s) : s.core.subscriptions.size = (registered m.2.2).card := by
  rw [← h.keys]
  simp [Map.size, Finmap.keys, Multiset.keys]

theorem Balanced.mem (h : Balanced m s) (hid : id ∈ registered m.2.2) :
    id ∈ s.core.subscriptions := by
  rw [← h.keys] at hid
  exact Finmap.mem_keys.1 hid

theorem registered_subset {ids : Multiset (Id × Bool)} (h : id ∈ registered ids) :
    id ∈ ids.map Prod.fst := by
  obtain ⟨p, hp, rfl⟩ := Multiset.mem_map.1 h
  exact Multiset.mem_map_of_mem _ (Multiset.mem_filter.1 hp).1

/-! ## Permits -/

theorem Balanced.reserve (h : Balanced (rest + (0, 0, 0)) s) (hroom : s.active < s.limit) :
    Balanced (rest + (1, 1, 0)) { s with active := s.active + 1 } := by
  have hspare := h.spare
  have hactive := h.active
  simp only [Prod.fst_add, Prod.snd_add, add_zero] at hspare hactive
  refine { h with active := ?_, active_le := hroom, spare := ?_ }
  · simp [hactive]
  · simp [hspare]
    omega

theorem Balanced.release (h : Balanced (rest + (1, 1, 0)) s) :
    Balanced (rest + (0, 0, 0)) { s with active := s.active - 1 } := by
  have hspare := h.spare
  have hactive := h.active
  have hle := h.active_le
  simp only [Prod.fst_add, Prod.snd_add, add_zero] at hspare hactive
  refine { h with active := ?_, active_le := ?_, spare := ?_ }
  · simp [hactive]
  · show s.active - 1 ≤ s.limit
    omega
  · simp only [Prod.fst_add, Prod.snd_add, add_zero]
    omega

/-! ## Numbers -/

theorem Balanced.number (h : Balanced (rest + (1, 1, 0)) s) :
    Balanced (rest + (1, 1, {(⟨s.nextSubscriptionId⟩, false)}))
      { s with nextSubscriptionId := s.nextSubscriptionId + 1 } := by
  have hfresh : ∀ p ∈ rest.2.2, p.1.value < s.nextSubscriptionId := by
    simpa using h.fresh
  refine { h with spare := ?_, named := ?_, fresh := ?_, keys := ?_ }
  · simpa using h.spare
  · have hnamed : (rest.2.2.map Prod.fst).Nodup := by simpa using h.named
    simp only [Prod.snd_add, Multiset.map_add, Multiset.map_singleton]
    refine Multiset.nodup_add.2 ⟨hnamed, Multiset.nodup_singleton _, ?_⟩
    rw [Multiset.disjoint_singleton]
    intro hmem
    obtain ⟨p, hp, heq⟩ := Multiset.mem_map.1 hmem
    have hlt := hfresh p hp
    rw [heq] at hlt
    exact Nat.lt_irrefl _ hlt
  · intro p hp
    rcases Multiset.mem_add.1 hp with hp | hp
    · exact Nat.lt_succ_of_lt (hfresh p hp)
    · rw [Multiset.mem_singleton.1 hp]
      exact Nat.lt_succ_self _
  · simpa using h.keys

/-- A call that has not registered gives its number up. -/
theorem Balanced.forget (h : Balanced (rest + (1, 1, {(id, false)})) s) :
    Balanced (rest + (1, 1, 0)) s := by
  refine { h with spare := ?_, named := ?_, fresh := ?_, keys := ?_ }
  · simpa using h.spare
  · have := h.named
    simp only [Prod.snd_add, Multiset.map_add] at this
    simpa using (Multiset.nodup_add.1 this).1
  · intro p hp
    rw [Prod.snd_add, Prod.snd_add, add_zero] at hp
    exact h.fresh p (Multiset.mem_add.2 (.inl hp))
  · simpa using h.keys

/-! ## Registrations -/

/-- An operation that keeps the registrations. -/
theorem Balanced.onCore (h : Balanced m s) (op : Op)
    (hkeys : (Scheduler.step s.core op).subscriptions.keys = s.core.subscriptions.keys) :
    Balanced m { s with core := Scheduler.step s.core op } where
  inv := h.inv.step op
  limit := h.limit.trans (congrArg (fun config => (config.maxSubscriptions : Nat))
    (step_config s.core op).symm)
  active := h.active
  active_le := h.active_le
  spare := h.spare
  named := h.named
  fresh := h.fresh
  keys := (congrArg Finset.val hkeys).trans h.keys

/-- A call with a permit and no registration finds room, and its number is new. -/
theorem Balanced.canRegister (h : Balanced (rest + (1, 1, {(id, false)})) s) :
    id ∉ s.core.subscriptions ∧ s.core.subscriptions.size < s.core.config.maxSubscriptions := by
  constructor
  · intro hmem
    have hin : id ∈ registered rest.2.2 := by
      have := Finmap.mem_keys.2 hmem
      rw [← Finset.mem_val, h.keys] at this
      simpa using this
    have hnamed := h.named
    rw [Prod.snd_add, Prod.snd_add, Multiset.map_add, Multiset.nodup_add] at hnamed
    exact Multiset.disjoint_left.1 hnamed.2.2 (registered_subset hin) (by simp)
  · have hspare := h.spare
    have hactive := h.active
    have hle := h.active_le
    rw [h.size, ← h.limit]
    simp only [Prod.fst_add, Prod.snd_add] at hspare hactive ⊢
    omega

theorem Balanced.register (h : Balanced (rest + (1, 1, {(id, false)})) s) :
    (s.core.register id).1 = true ∧
      Balanced (rest + (1, 0, {(id, true)})) { s with core := (s.core.register id).2 } := by
  obtain ⟨hnew, hroom⟩ := h.canRegister
  obtain ⟨htrue, hkeys⟩ := step_register_keys hnew hroom
  refine ⟨htrue, { h with
    inv := ?_, limit := ?_, spare := ?_, named := ?_, fresh := ?_, keys := ?_ }⟩
  · exact h.inv.step (.register id)
  · exact h.limit.trans (congrArg (fun config => (config.maxSubscriptions : Nat))
      (step_config s.core (.register id)).symm)
  · have hspare := h.spare
    simp at hspare ⊢
    omega
  · have hnamed := h.named
    simpa using hnamed
  · intro p hp
    rcases Multiset.mem_add.1 hp with hp | hp
    · exact h.fresh p (Multiset.mem_add.2 (.inl hp))
    · rw [Multiset.mem_singleton.1 hp]
      exact h.fresh (id, false) (Multiset.mem_add.2 (.inr (Multiset.mem_singleton_self _)))
  · have hval := congrArg Finset.val hkeys
    rw [Finset.insert_val_of_notMem (fun hin => hnew (Finmap.mem_keys.1 hin)), h.keys] at hval
    refine hval.trans ?_
    simp [← Multiset.singleton_add, add_comm]

theorem Balanced.unregister (h : Balanced (rest + (1, 0, {(id, true)})) s)
    (hown : ∀ lease, ¬ OwnedBy s.core id lease) :
    Balanced (rest + (1, 1, 0)) { s with core := (s.core.unregister id).2 } := by
  have hmem : id ∈ s.core.subscriptions := h.mem (by simp)
  have hkeys := step_unregister_keys h.inv hmem hown
  refine { h with inv := ?_, limit := ?_, spare := ?_, named := ?_, fresh := ?_, keys := ?_ }
  · exact h.inv.step (.unregister id)
  · exact h.limit.trans (congrArg (fun config => (config.maxSubscriptions : Nat))
      (step_config s.core (.unregister id)).symm)
  · have hspare := h.spare
    simp at hspare ⊢
    omega
  · have hnamed := h.named
    rw [Prod.snd_add, Prod.snd_add, Multiset.map_add] at hnamed
    simpa using (Multiset.nodup_add.1 hnamed).1
  · intro p hp
    rw [Prod.snd_add, Prod.snd_add, add_zero] at hp
    exact h.fresh p (Multiset.mem_add.2 (.inl hp))
  · have hval := congrArg Finset.val hkeys
    rw [Finset.erase_val, h.keys] at hval
    refine hval.trans ?_
    simp [add_comm, Multiset.singleton_add]

/-! ## Steps -/

/-- A worker that leaves owns nothing; and no spawn has failed. -/
def Thread.Quiet (s : EventBusInner) : Thread Call Outcome → Prop
  | .running (.subscribe _ (.finishing id)) =>
    Fenced s.core id ∧ ∀ lease, ¬ OwnedBy s.core id lease
  | .running (.subscribe _ (.stopping ..)) | .running (.subscribe _ (.unregistering ..))
  | .running (.subscribe _ (.untracking ..)) => False
  | _ => True

/-- A step of the scheduler, if the core changes at all. -/
def Steps (core core' : DeliverySchedulerState) : Prop :=
  core' = core ∨ ∃ op, core' = Scheduler.step core op

/-- What a step of a call or worker leaves behind. -/
structure Sound (rest : Tally) (s : EventBusInner) (n : Next) : Prop where
  balanced : Balanced (rest + Thread.tally n.2.1) n.1
  quiet : Thread.Quiet n.1 n.2.1
  steps : Steps s.core n.1.core

theorem gaveBack_stop (hi : Inv s.core) (h : GaveBack s.core id) (lease : Nat) :
    ¬ OwnedBy (Scheduler.step s.core (.stopSubscription id)) id lease := by
  rw [ownedBy_stop hi id lease]
  rintro ⟨hown, hne⟩
  obtain ⟨r, hl, -⟩ := ownedBy_iff.1 hown
  exact hne (h lease (Finmap.mem_keys.2 (Map.mem_of_lookup hl)) hown)

/-- The step lemma: every stage keeps the balance, if no spawn fails. -/
theorem Stage.step_sound {stage : Stage} {subscriber : SubscriberId} {x : Tick}
    (h : Balanced (rest + stage.tally) s)
    (hq : Thread.Quiet s (.running (.subscribe subscriber stage))) (hx : x.spawnError = none) :
    Sound rest s (stage.step s subscriber x) := by
  cases stage with
  | entering =>
    simp only [Stage.step]
    split
    · exact ⟨h, trivial, .inl rfl⟩
    split
    · exact ⟨h, trivial, .inl rfl⟩
    · exact ⟨h, trivial, .inl rfl⟩
  | reserving observed =>
    simp only [Stage.step]
    split
    · exact ⟨h, trivial, .inl rfl⟩
    split
    · next hlimit hcas => exact ⟨h.reserve (by omega), trivial, .inl rfl⟩
    · exact ⟨h, trivial, .inl rfl⟩
  | validating =>
    simp only [Stage.step]
    split
    · exact ⟨h, trivial, .inl rfl⟩
    · exact ⟨h, trivial, .inl rfl⟩
  | numbering =>
    simp only [Stage.step]
    split
    · exact ⟨h, trivial, .inl rfl⟩
    · next next hnext =>
      obtain ⟨rfl, -⟩ := checkedSucc_some hnext
      exact ⟨h.number, trivial, .inl rfl⟩
  | opening id =>
    simp only [Stage.step]
    split
    · exact ⟨h.forget, trivial, .inl rfl⟩
    · exact ⟨h, trivial, .inl rfl⟩
  | starting id =>
    simp only [Stage.step]
    split
    · exact ⟨h.forget, trivial, .inl rfl⟩
    · exact ⟨h, trivial, .inl rfl⟩
  | registering id =>
    obtain ⟨htrue, hbalanced⟩ := h.register
    simp only [Stage.step, htrue, if_true]
    exact ⟨hbalanced, trivial, .inr ⟨.register id, rfl⟩⟩
  | tracking id => exact ⟨{ h with }, trivial, .inl rfl⟩
  | spawning id =>
    simp only [Stage.step, hx]
    exact ⟨h, trivial, .inl rfl⟩
  | failing error => exact ⟨h.release, trivial, .inl rfl⟩
  | stopping => exact hq.elim
  | unregistering => exact hq.elim
  | untracking => exact hq.elim
  | working id =>
    simp only [Stage.step]
    split
    · next hgave =>
      refine ⟨h.onCore (.stopSubscription id) (step_keys h.inv nofun nofun), ?_,
        .inr ⟨.stopSubscription id, rfl⟩⟩
      exact ⟨fenced_stop h.inv id, gaveBack_stop h.inv hgave⟩
    · exact ⟨h, trivial, .inl rfl⟩
  | finishing id => exact ⟨h.unregister hq.2, trivial, .inr ⟨.unregister id, rfl⟩⟩
  | leaving id => exact ⟨{ h with }, trivial, .inl rfl⟩
  | releasing => exact ⟨h.release, trivial, .inl rfl⟩

/-- The scheduler leaves a worker alone that has been stopped and owns nothing. -/
theorem quiet_step {core core' : DeliverySchedulerState} (hi : Inv core)
    (hid : id ∈ core.subscriptions) (hsteps : Steps core core')
    (h : Fenced core id ∧ ∀ lease, ¬ OwnedBy core id lease) :
    Fenced core' id ∧ ∀ lease, ¬ OwnedBy core' id lease := by
  rcases hsteps with rfl | ⟨op, rfl⟩
  · exact h
  · refine ⟨fenced_step hi h.1 (keepsOut_of_mem hid op), fun lease => ?_⟩
    by_cases hop : op = .complete lease
    · rw [hop]
      exact fun ho => (((h.1.apart lease).complete hi lease).1 ho).2 rfl
    · rw [(hi.took op).ownedBy hi (h.1.apart lease) hop]
      exact h.2 lease

/-- A step of one thread keeps what holds of the others. -/
theorem Thread.Quiet.other {s' : EventBusInner} {threads : List (Thread Call Outcome)}
    (h : Balanced (Machine.total Thread.tally threads) s) {k : Nat} {u : Thread Call Outcome}
    (hu : threads[k]? = some u) (hq : Thread.Quiet s u) (hsteps : Steps s.core s'.core) :
    Thread.Quiet s' u := by
  cases u with
  | returned => exact trivial
  | running call =>
    cases call with
    | scheduler => exact trivial
    | subscribe subscriber stage =>
      cases stage with
      | finishing id =>
        obtain ⟨rest, hrest, -⟩ := Machine.total_set Thread.tally hu
        rw [hrest] at h
        exact quiet_step h.inv (h.mem (by simp [Thread.tally, Stage.tally])) hsteps hq
      | stopping => exact hq.elim
      | unregistering => exact hq.elim
      | untracking => exact hq.elim
      | _ => exact trivial

theorem Call.step_sound {call : Call} {i : Nat} {x : Tick}
    (h : Balanced (rest + Thread.tally (.running call)) s) (hq : Thread.Quiet s (.running call))
    (hx : x.spawnError = none) : ∃ n, call.step s i x = some n ∧ Sound rest s n := by
  cases call with
  | subscribe subscriber stage => exact ⟨_, rfl, Stage.step_sound h hq hx⟩
  | scheduler op =>
    by_cases hop : registers op = true
    · refine ⟨(s, .returned .done, []), by simp [Call.step, hop], h, trivial, .inl rfl⟩
    · have hkeys : (Scheduler.step s.core op).subscriptions.keys = s.core.subscriptions.keys := by
        apply step_keys h.inv
        · rintro id rfl
          exact hop rfl
        · rintro id rfl
          exact hop rfl
      exact ⟨({ s with core := Scheduler.step s.core op }, .returned .done, []),
        by simp [Call.step, hop], h.onCore op hkeys, trivial, .inr ⟨op, rfl⟩⟩

end

theorem balanced_new (providerId : String) (config : DeliverySchedulingConfig) :
    Balanced 0 (.new providerId config) where
  inv := inv_new config
  limit := rfl
  active := rfl
  active_le := Nat.zero_le _
  spare := rfl
  named := Multiset.nodup_zero
  fresh := nofun
  keys := rfl

theorem total_tally_fst (threads : List (Thread Call Outcome)) :
    (Machine.total Thread.tally threads).1 = permits threads := by
  have hfst : ∀ t : Thread Call Outcome, (Thread.tally t).1 = Thread.permits t := by
    rintro ((_ | _) | _)
    · rename_i stage
      cases stage <;> rfl
    · rfl
    · rfl
  unfold permits Machine.total
  induction threads with
  | nil => rfl
  | cons t threads ih => simp [← hfst, ih]

/-- **A worker permit guarantees a registration**, in every interleaving of subscribing calls,
workers and users of the scheduler in which no worker thread fails to spawn: the registrations never
exceed the live permits, and a call that has got its permit is registered. -/
theorem subscribe_permits (providerId : String) (config : DeliverySchedulingConfig)
    (moves : List (Move Request Tick))
    (hspawn : ∀ i x, Move.step i x ∈ moves → x.spawnError = none) :
    ∃ rs w, trace subscribing.move (Machine.start (.new providerId config)) moves = some (rs, w) ∧
      w.shared.core.subscriptions.size ≤ permits w.threads ∧
      ∀ (i : Nat) subscriber id,
        w.threads[i]? = some (.running (.subscribe subscriber (.registering id))) →
        (w.shared.core.register id).1 = true := by
  have hmoves : Meets subscribing.move (fun _ a => ∀ i x, a = .step i x → x.spawnError = none)
      (Machine.start (.new providerId config)) moves :=
    meets_of_forall _ fun a ha i x heq => hspawn i x (heq ▸ ha)
  obtain ⟨rs, w, htrace, hw⟩ := Machine.run_sums (f := Thread.tally)
    (G := fun _ m s => Balanced m s) (L := fun _ s _ t => Thread.Quiet s t)
    (fun j w q hs _ => by cases q <;> exact ⟨rfl, trivial⟩)
    (fun j w i c x rest hs hc hd hrest => by
      have hbalanced := hs.shared
      rw [hrest] at hbalanced
      obtain ⟨⟨s', t, es⟩, heq, hsound⟩ :=
        Call.step_sound (i := i) hbalanced (hs.threads i _ hc) (hd i x rfl)
      exact ⟨s', t, es, heq, hsound.balanced, hsound.quiet,
        fun k u _ hu hq => hq.other hs.shared hu hsound.steps⟩)
    (balanced_new providerId config) hmoves
  refine ⟨rs, w, htrace, ?_, fun i subscriber id hi => ?_⟩
  · have hspare := hw.shared.spare
    rw [total_tally_fst] at hspare
    rw [hw.shared.size]
    omega
  · obtain ⟨rest, hrest, -⟩ := Machine.total_set Thread.tally hi
    have hbalanced := hw.shared
    rw [hrest] at hbalanced
    exact hbalanced.register.1

/-- Two callers compete for one permit. The loser reads a stale budget, is refused, and subscribes
when the worker of the winner has left. -/
theorem subscribe_permits_reused :
    let moves : List (Move Request Tick) := [.call (.subscribe ⟨"first"⟩),
      .call (.subscribe ⟨"second"⟩), .step 1 {}, .call (.subscribe ⟨"third"⟩)] ++
      List.replicate 9 (.step 0 {}) ++ [.step 1 {}, .step 1 {}] ++
      List.replicate 4 (.step 0 {}) ++ List.replicate 6 (.step 2 {})
    ∃ rs w, trace subscribing.move
    (Machine.start (.new "local" { DeliverySchedulingConfig.default with
        maxSubscriptions := 1 })) moves = some (rs, w) ∧
      w.threads = [.returned .exited, .returned (.failed (.resourceLimit "subscriptions" 1)),
        .running (.subscribe ⟨"third"⟩ (.registering ⟨2⟩))] ∧
      (w.shared.core.register ⟨2⟩).1 = true := by
  intro moves
  have hspawn : ∀ i x, .step i x ∈ moves → x.spawnError = none := by
    intro i x hx
    have hx : x = {} := by
      simp [moves] at hx
      grind
    rw [hx]
  obtain ⟨rs, w, htrace, -, hregister⟩ := subscribe_permits "local"
    { DeliverySchedulingConfig.default with maxSubscriptions := 1 } moves hspawn
  have hthreads : (subscribing.reached (Machine.start (.new "local"
      { DeliverySchedulingConfig.default with maxSubscriptions := 1 })) moves).map (·.threads) =
      some [.returned .exited, .returned (.failed (.resourceLimit "subscriptions" 1)),
        .running (.subscribe ⟨"third"⟩ (.registering ⟨2⟩))] := by decide +kernel
  unfold Machine.reached at hthreads
  rw [htrace] at hthreads
  have heq := Option.some.inj hthreads
  refine ⟨rs, w, htrace, heq, hregister 2 ⟨"third"⟩ ⟨2⟩ ?_⟩
  rw [show w.threads = _ from heq]
  rfl

end EventBus.Facade
