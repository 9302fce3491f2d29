import EventBus.Lib.Threads
import EventBus.Spi

/-!
# The gate of the synchronous bus and its shutdown

`operation_gate.rs`, `lifecycle_tracker.rs` and `perform_shutdown`. A publish or subscribe call
holds a permit of the gate, and a subscribe call leaves a worker behind that the tracker counts. A
shutdown closes the gate. Its coordinator thread waits until the permits and then the workers are
gone, and calls the provider. Any number of shutdowns may run at once; how they follow each other
(`Coordinator.lean`) does not matter.
-/

namespace EventBus.Shutdown

open Lib

/-- What the calls, the workers and the coordinator threads of a bus share. -/
structure EventBusInner where
  closing : Bool
  /-- The permits of the gate. -/
  active : Nat
  /-- Who sleeps in `wait_for_idle`. -/
  atGate : Finset Nat
  activeWorkers : Nat
  /-- Who sleeps in `wait_for_workers`. -/
  atTracker : Finset Nat

inductive BusRequest where
  | publish
  | subscribe
  | shutdown

inductive BusCall where
  | enter (subscribes : Bool)
  /-- With a permit; a subscribe call may still start its worker. -/
  | operating (subscribes : Bool)
  /-- The worker is counted, and its thread is spawned next. -/
  | spawning
  /-- The worker, and the call beside it until that drops its permit. -/
  | worker (permit : Bool)
  | closeAdmission
  | waitForIdle
  | waitForWorkers
  /-- In the provider's `shutdown`. -/
  | provider

inductive BusAnswer where
  | refused
  | done

inductive BusNote where
  | admitted
  | closed

namespace EventBusInner

def new : EventBusInner := ⟨false, 0, ∅, 0, ∅⟩

/-- The drop of a permit; the last one wakes. -/
def release (s : EventBusInner) : EventBusInner :=
  let active := s.active - 1
  { s with active, atGate := if active = 0 then ∅ else s.atGate }

def workerFinished (s : EventBusInner) : EventBusInner :=
  { s with activeWorkers := s.activeWorkers - 1, atTracker := ∅ }

/-- One step of thread `i`. `ok` decides what is open: whether a subscribe call and a spawn succeed,
which of the worker and the call beside it moves, whether a request starts a coordinator, spurious
wakeups. -/
def step (s : EventBusInner) (i : Nat) (call : BusCall) (ok : Bool) :
    EventBusInner × Thread BusCall BusAnswer × List BusNote :=
  match call with
  | .enter subscribes =>
    if s.closing then (s, .returned .refused, [])
    else ({ s with active := s.active + 1 }, .running (.operating subscribes), [.admitted])
  | .operating subscribes =>
    if subscribes ∧ ok then
      ({ s with activeWorkers := s.activeWorkers + 1 }, .running .spawning, [])
    else (s.release, .returned .done, [])
  | .spawning =>
    if ok then (s, .running (.worker true), [])
    else (s.workerFinished, .running (.operating false), [])
  | .worker permit =>
    if permit ∧ ok then (s.release, .running (.worker false), [])
    else (s.workerFinished, if permit then .running (.operating false) else .returned .done, [])
  | .closeAdmission =>
    ({ s with closing := true, atGate := ∅ },
      if ok then .running .waitForIdle else .returned .done, [.closed])
  | .waitForIdle =>
    if i ∈ s.atGate ∧ !ok then (s, .running call, [])
    else if s.active ≠ 0 then ({ s with atGate := insert i s.atGate }, .running call, [])
    else (s, .running .waitForWorkers, [])
  | .waitForWorkers =>
    if i ∈ s.atTracker ∧ !ok then (s, .running call, [])
    else if s.activeWorkers ≠ 0 then
      ({ s with atTracker := insert i s.atTracker }, .running call, [])
    else (s, .running .provider, [])
  | .provider => (s, .returned .done, [])

end EventBusInner

def busGate : Machine EventBusInner BusRequest BusCall BusAnswer Bool BusNote where
  enter
    | .publish => .enter false
    | .subscribe => .enter true
    | .shutdown => .closeAdmission
  step s i call ok := some (s.step i call ok)

/-- The permits and the workers of a thread. -/
def held : Thread BusCall BusAnswer → ℕ × ℕ
  | .running (.operating _) => (1, 0)
  | .running .spawning => (1, 1)
  | .running (.worker permit) => (permit.toNat, 1)
  | _ => 0

/-- What a coordinator thread has waited for. -/
def Awaited (s : EventBusInner) : Thread BusCall BusAnswer → Prop
  | .running .waitForIdle => s.closing = true
  | .running .waitForWorkers => s.closing = true ∧ s.active = 0
  | .running .provider => (s.closing = true ∧ s.active = 0) ∧ s.activeWorkers = 0
  | _ => True

/-- A closed gate stays closed, then idle, and then the tracker does. -/
structure Settles (s s' : EventBusInner) : Prop where
  closed : s.closing = true → s'.closing = true
  idle : s.closing = true ∧ s.active = 0 → s'.active = 0
  still : s.closing = true ∧ s.active = 0 → s.activeWorkers = 0 → s'.activeWorkers = 0

/-- Every permit and every worker is somebody's, and nobody sleeps without reason. -/
structure Counted (j : List (Nat × BusNote)) (n : ℕ × ℕ) (s : EventBusInner) : Prop where
  permits : n.1 = s.active
  workers : n.2 = s.activeWorkers
  atGate : s.atGate.Nonempty → s.active ≠ 0
  atTracker : s.atTracker.Nonempty → s.activeWorkers ≠ 0
  closed : ∀ i, (i, .closed) ∈ j → s.closing = true
  fence : j.Pairwise fun a b => a.2 = .closed → b.2 ≠ .admitted

section
variable {j : List (Nat × BusNote)} {rest : ℕ × ℕ} {s s' : EventBusInner} {i k : Nat}

theorem Awaited.settles {t : Thread BusCall BusAnswer} (h : Awaited s t) (hs : Settles s s') :
    Awaited s' t := by
  unfold Awaited at h ⊢
  split at h
  · exact hs.closed h
  · exact ⟨hs.closed h.1, hs.idle h⟩
  · exact ⟨⟨hs.closed h.1.1, hs.idle h.1⟩, hs.still h.1 h.2⟩
  · trivial

theorem Settles.refl : Settles s s := ⟨id, And.right, fun _ => id⟩

theorem Counted.quiet {n : ℕ × ℕ} (h : Counted j n s) : Counted (j ++ List.map (i, ·) []) n s := by
  simpa using h

theorem Counted.release (h : Counted j (rest + (1, k)) s) :
    Counted j (rest + (0, k)) s.release ∧ Settles s s.release := by
  have hp := h.permits
  refine ⟨⟨?_, h.workers, fun hne => ?_, h.atTracker, h.closed, h.fence⟩, id, fun hidle => ?_,
    fun _ => id⟩
  · simp only [EventBusInner.release, Prod.fst_add] at hp ⊢
    omega
  · simp only [EventBusInner.release] at hne ⊢
    split at hne
    · simp at hne
    · assumption
  · simp [EventBusInner.release, hidle.2]

theorem Counted.workerFinished (h : Counted j (rest + (k, 1)) s) :
    Counted j (rest + (k, 0)) s.workerFinished ∧ Settles s s.workerFinished := by
  have hw := h.workers
  refine ⟨⟨h.permits, ?_, h.atGate, by simp [EventBusInner.workerFinished], h.closed, h.fence⟩, id,
    And.right, fun _ hstill => ?_⟩
  · simp only [EventBusInner.workerFinished, Prod.snd_add] at hw ⊢
    omega
  · simp [EventBusInner.workerFinished, hstill]

theorem Counted.step {c : BusCall} (h : Counted j (rest + held (.running c)) s)
    (hc : Awaited s (.running c)) (ok : Bool) :
    Counted (j ++ (s.step i c ok).2.2.map (i, ·)) (rest + held (s.step i c ok).2.1)
        (s.step i c ok).1 ∧
      Awaited (s.step i c ok).1 (s.step i c ok).2.1 ∧ Settles s (s.step i c ok).1 := by
  have hp := h.permits
  have hw := h.workers
  cases c with
  | enter subscribes =>
    simp only [EventBusInner.step]
    split
    · exact ⟨h.quiet, trivial, .refl⟩
    · rename_i hopen
      refine ⟨⟨?_, hw, fun _ => Nat.succ_ne_zero _, h.atTracker, fun k hk => ?_, ?_⟩, trivial,
        fun hc => absurd hc hopen, fun hc => absurd hc.1 hopen, fun hc => absurd hc.1 hopen⟩
      · simp [held] at hp ⊢
        omega
      · exact absurd (h.closed k (by simpa using hk)) hopen
      · refine List.pairwise_append.2 ⟨h.fence, List.pairwise_singleton _ _, fun a ha b _ hc => ?_⟩
        exact absurd (h.closed a.1 (hc ▸ ha)) hopen
  | operating subscribes =>
    simp only [EventBusInner.step]
    split
    · -- the permit is still held, so a gate that is closed is not idle
      have hbusy : s.active ≠ 0 := by
        rw [← hp]
        simp [held]
      refine ⟨.quiet ⟨hp, ?_, h.atGate, fun _ => Nat.succ_ne_zero _, h.closed, h.fence⟩,
        trivial, id, And.right, fun hidle => (hbusy hidle.2).elim⟩
      simp [held] at hw ⊢
      omega
    · exact ⟨h.release.1.quiet, trivial, h.release.2⟩
  | spawning =>
    simp only [EventBusInner.step]
    split
    · exact ⟨h.quiet, trivial, .refl⟩
    · exact ⟨h.workerFinished.1.quiet, trivial, h.workerFinished.2⟩
  | worker permit =>
    simp only [EventBusInner.step]
    split
    · rename_i hpermit
      rw [hpermit.1] at h
      exact ⟨h.release.1.quiet, trivial, h.release.2⟩
    · cases permit <;> exact ⟨h.workerFinished.1.quiet, trivial, h.workerFinished.2⟩
  | closeAdmission =>
    refine ⟨⟨?_, ?_, by simp [EventBusInner.step], h.atTracker, fun _ _ => rfl, ?_⟩, ?_,
      fun _ => rfl, And.right, fun _ => id⟩
    · cases ok <;> exact hp
    · cases ok <;> exact hw
    · exact List.pairwise_append.2
        ⟨h.fence, List.pairwise_singleton _ _, by simp [EventBusInner.step]⟩
    · cases ok <;> trivial
  | waitForIdle =>
    simp only [EventBusInner.step]
    split
    · exact ⟨h.quiet, hc, .refl⟩
    split
    · rename_i hbusy
      exact ⟨.quiet { h with atGate := fun _ => hbusy }, hc, id, And.right, fun _ => id⟩
    · rename_i hidle
      exact ⟨h.quiet, ⟨hc, not_not.1 hidle⟩, .refl⟩
  | waitForWorkers =>
    simp only [EventBusInner.step]
    split
    · exact ⟨h.quiet, hc, .refl⟩
    split
    · rename_i hbusy
      exact ⟨.quiet { h with atTracker := fun _ => hbusy }, hc, id, And.right, fun _ => id⟩
    · rename_i hstill
      exact ⟨h.quiet, ⟨hc, not_not.1 hstill⟩, .refl⟩
  | provider => exact ⟨h.quiet, trivial, .refl⟩

end

/-- However the calls, the workers and the shutdowns of a bus interleave, it counts the permits and
workers alive, admits nothing once its gate is closed, calls the provider when all of them are gone,
and lets nobody sleep on. -/
theorem shutdown_isolated (moves : List (Move BusRequest Bool)) :
    ∃ w, busGate.reached (Machine.start .new) moves = some w ∧
      Machine.total held w.threads = (w.shared.active, w.shared.activeWorkers) ∧
      (busGate.notes (Machine.start .new) moves).Pairwise
        (fun a b => a.2 = .closed → b.2 ≠ .admitted) ∧
      (.running .provider ∈ w.threads → w.shared.closing = true ∧ ∀ t ∈ w.threads, held t = 0) ∧
      (w.shared.atGate.Nonempty → w.shared.active ≠ 0) ∧
      (w.shared.atTracker.Nonempty → w.shared.activeWorkers ≠ 0) := by
  have hmoves : Meets busGate.move (fun _ _ => True) (Machine.start .new) moves :=
    meets_of_forall _ fun _ _ => trivial
  obtain ⟨rs, w, htrace, hw⟩ := Machine.run_sums (f := held) (G := Counted)
    (L := fun _ s _ t => Awaited s t)
    (fun j w q _ _ => by cases q <;> exact ⟨rfl, trivial⟩)
    (fun j w i c ok rest hs hc _ hrest => by
      have hcounted := hs.shared
      rw [hrest] at hcounted
      obtain ⟨hcounted', hawaited, hsettles⟩ := hcounted.step (i := i) (hs.threads i _ hc) ok
      exact ⟨_, _, _, rfl, hcounted', hawaited, fun k u _ _ hu => hu.settles hsettles⟩)
    ⟨rfl, rfl, by simp [EventBusInner.new], by simp [EventBusInner.new], by simp, .nil⟩ hmoves
  have htotal : Machine.total held w.threads = (w.shared.active, w.shared.activeWorkers) :=
    Prod.ext hw.shared.permits hw.shared.workers
  refine ⟨w, by rw [Machine.reached, htrace]; rfl, htotal, hw.shared.fence, fun hprovider => ?_,
    hw.shared.atGate, hw.shared.atTracker⟩
  obtain ⟨i, hi⟩ := List.mem_iff_getElem?.1 hprovider
  obtain ⟨⟨hclosing, hactive⟩, hworkers⟩ := hw.threads i _ hi
  refine ⟨hclosing, fun t ht => ?_⟩
  obtain ⟨k, hk⟩ := List.mem_iff_getElem?.1 ht
  obtain ⟨rest, hrest, -⟩ := Machine.total_set held hk
  rw [htotal, hactive, hworkers, Prod.ext_iff] at hrest
  exact Prod.ext (Nat.add_eq_zero_iff.1 hrest.1.symm).2 (Nat.add_eq_zero_iff.1 hrest.2.symm).2

end EventBus.Shutdown
