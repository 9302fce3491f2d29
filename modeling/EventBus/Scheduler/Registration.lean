import EventBus.Scheduler.Reclaim

/-!
# Who is registered

Only `register` and `unregister` change which subscriptions there are; every other operation keeps
the keys of the map (`step_keys`), although it may change the subscription of any key while it
grants receives. `step_register_keys` and `step_unregister_keys` are the two that do.
-/

namespace EventBus.Scheduler

open Lib DeliverySchedulerState

section
variable {s s' t : DeliverySchedulerState} {id : Id} {op : Op}

/-- Every registration stays. -/
def Stays (s s' : DeliverySchedulerState) : Prop := ∀ j ∈ s.subscriptions, j ∈ s'.subscriptions

theorem Stays.of_eq (h : s'.subscriptions = s.subscriptions) : Stays s s' := by
  intro j hj
  rwa [h]

theorem Stays.trans (h : Stays s s') (h' : Stays s' t) : Stays s t := fun j hj => h' j (h j hj)

theorem Stays.insert {sub : SubscriptionScheduleState}
    (h : s'.subscriptions = s.subscriptions.insert id sub) : Stays s s' := by
  intro j hj
  rw [h]
  exact Finmap.mem_insert.2 (.inr hj)

theorem Took.stays (ht : Took s op s') (hi : Inv s) (hop : ∀ id, op ≠ .unregister id) :
    Stays s s' := by
  refine ht.carry hi (P := Stays s) ⟨fun h _ hs _ => h.trans (.of_eq hs), fun {t lease} h _ => ?_,
    fun h _ _ _ => h.trans (.insert rfl)⟩ fun t he => ?_
  · exact h.trans fun _ hj => mem_release t lease hj
  · cases he.subscriptions with
    | same heq => exact .of_eq heq
    | register heq => exact .insert heq
    | change heq => exact .insert heq
    | unregister _ hun => exact absurd hun (hop _)

/-- The other operations keep the registrations. -/
theorem step_keys (hi : Inv s) (hreg : ∀ id, op ≠ .register id)
    (hunreg : ∀ id, op ≠ .unregister id) :
    (step s op).subscriptions.keys = s.subscriptions.keys := by
  ext j
  rw [Finmap.mem_keys, Finmap.mem_keys]
  constructor
  · intro hj
    obtain ⟨sub', hs'⟩ := Finmap.mem_iff.1 hj
    obtain ⟨sub, hs, -⟩ := (hi.took op).subsKeep hi (fun id hop => absurd hop (hreg id)) j sub' hs'
    exact Map.mem_of_lookup hs
  · exact (hi.took op).stays hi hunreg j

theorem step_register_keys (hid : id ∉ s.subscriptions)
    (hroom : s.subscriptions.size < s.config.maxSubscriptions) :
    (s.register id).1 = true ∧
      (step s (.register id)).subscriptions.keys = insert id s.subscriptions.keys := by
  have hregister : s.register id =
      (true, { s with subscriptions := s.subscriptions.insert id {} }) := by
    unfold register
    rw [if_neg]
    rintro (hsome | hfull)
    · obtain ⟨sub, hs⟩ := Option.isSome_iff_exists.1 hsome
      exact hid (Map.mem_of_lookup hs)
    · omega
  refine ⟨by rw [hregister], ?_⟩
  show (s.register id).2.subscriptions.keys = _
  rw [hregister]
  ext j
  simp [Finmap.mem_keys]

theorem unregister_subscriptions (h : (s.unregister id).1 = true) :
    (s.unregister id).2.subscriptions = s.subscriptions.erase id := by
  unfold unregister at h ⊢
  split at h
  · cases h
  · split at h
    · cases h
    · next hz =>
      rw [if_neg hz]
      exact notifyReady_subscriptions _

/-- A subscription that owns no lease is unregistered. -/
theorem step_unregister_keys (hi : Inv s) (hid : id ∈ s.subscriptions)
    (hown : ∀ lease, ¬ OwnedBy s id lease) :
    (step s (.unregister id)).subscriptions.keys = s.subscriptions.keys.erase id := by
  have hcall : (s.unregister id).1 = true := by
    have := (hi.call_unregister hid hown).1
    simpa [call] using this
  show (s.unregister id).2.subscriptions.keys = _
  rw [unregister_subscriptions hcall]
  ext j
  simp [Finmap.mem_keys]

/-- What is registered is not registered again. -/
theorem keepsOut_of_mem (hid : id ∈ s.subscriptions) (op : Op) : KeepsOut id s op := by
  rintro rfl
  obtain ⟨sub, hs⟩ := Finmap.mem_iff.1 hid
  simp [call, register, hs]

end

end EventBus.Scheduler
