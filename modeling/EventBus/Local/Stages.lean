import EventBus.Local.Effects

/-!
# The shape of the calls

An abstract view of both providers. Of the registry it keeps whether it is closed and which queues
are registered (`Roster`); of a call, only how far it is with publishing to its destinations, with
looking at queues or with the cleanup of a shutdown (`Stage`). `StageStep` and `RosterStep` say what
can happen. The steps of both providers are shown to be such steps (`Stepped`), and what is proved
about the interleavings of calls rests on nothing else.
-/

namespace EventBus.Local

open Lib

/-! ## The registry -/

structure Roster where
  closed : Bool
  members : Set QueueRef

/-- Once closed, the registry stays closed and takes nobody in. Routes are only given out before. -/
structure RosterStep (notes : List ProviderNote) (r r' : Roster) : Prop where
  closed : r.closed = true → r'.closed = true
  members : r.closed = true → r'.members ⊆ r.members
  routed : .routed ∈ notes → r.closed = false
  closing : .closing ∈ notes → r'.closed = true

theorem RosterStep.shrink {r r' : Roster} {notes : List ProviderNote} (hc : r'.closed = r.closed)
    (hm : r'.members ⊆ r.members) (hn : .routed ∉ notes ∧ .closing ∉ notes) :
    RosterStep notes r r' :=
  ⟨fun h => hc.trans h, fun _ => hm, fun h => absurd h hn.1, fun h => absurd h hn.2⟩

theorem RosterStep.refl (r : Roster) : RosterStep [] r r :=
  .shrink rfl Set.Subset.rfl ⟨fun h => (nomatch h), fun h => nomatch h⟩

/-- Anything may happen to an open registry. -/
theorem RosterStep.opened {r r' : Roster} {notes : List ProviderNote} (h : r.closed = false)
    (hn : .closing ∉ notes) : RosterStep notes r r' :=
  ⟨fun hc => (by rw [h] at hc; cases hc), fun hc => (by rw [h] at hc; cases hc), fun _ => h,
    fun hm => absurd hm hn⟩

/-! ## Calls -/

/-- How far a call is. -/
inductive Stage where
  /-- Nothing of interest is under way. -/
  | calm
  /-- A publisher with the destinations that are left. -/
  | publishing (queues : List QueueRef)
  /-- A graceful shutdown has closed the registry and has not found all queues idle. -/
  | draining
  /-- A pass over a snapshot: the queues found idle and those still to be looked at. It belongs to
  the drain of a shutdown or to an idle wait. -/
  | watching (drain : Bool) (seen queues : List QueueRef)
  /-- An idle wait has found its topic idle. -/
  | found
  /-- The drain has found all queues idle. -/
  | drained
  /-- The cleanup after that, with the queues that are left. -/
  | cleaning (queues : List QueueRef)
  /-- A shutdown that timed out, or whose outcome is that of one that did. -/
  | late

/-- What a call can do next. -/
inductive StageStep (r r' : Roster) : Stage → List ProviderNote → Stage → Prop where
  | keep (g : Stage) : StageStep r r' g [] g
  | route (queues : List QueueRef) : StageStep r r' .calm [.routed] (.publishing queues)
  | accept {q : QueueRef} {queues : List QueueRef} (event : LocalEvent) :
    StageStep r r' (.publishing (q :: queues)) [.accepted q event] (.publishing queues)
  | reject {q : QueueRef} {queues : List QueueRef} (kind : AdmissionRejectionKind) :
    StageStep r r' (.publishing (q :: queues)) [.rejected q kind] (.publishing queues)
  | skip {q : QueueRef} {queues : List QueueRef} :
    StageStep r r' (.publishing (q :: queues)) [] (.publishing queues)
  | published : StageStep r r' (.publishing []) [] .calm
  | close : StageStep r r' .calm [.closing] .calm
  | closeAndDrain : StageStep r r' .calm [.closing] .draining
  | watchTopic (queues : List QueueRef) : StageStep r r' .calm [] (.watching false [] queues)
  | watchAll {queues : List QueueRef} : (∀ q ∈ r'.members, q ∈ queues) →
    StageStep r r' .draining [] (.watching true [] queues)
  | sawIdle {drain : Bool} {q : QueueRef} {seen queues : List QueueRef} :
    StageStep r r' (.watching drain seen (q :: queues)) [.idle q]
      (.watching drain (seen ++ [q]) queues)
  | sawBusy {drain : Bool} {seen queues : List QueueRef} :
    StageStep r r' (.watching drain seen queues) [] (if drain then .draining else .calm)
  | sawAll {drain : Bool} {seen : List QueueRef} :
    StageStep r r' (.watching drain seen []) [] (if drain then .drained else .found)
  | clean {queues : List QueueRef} : (∀ q ∈ queues, q ∈ r.members) →
    StageStep r r' .drained [] (.cleaning queues)
  | discard {timeout : Nat} {q : QueueRef} {queues : List QueueRef} (events : Multiset LocalEvent) :
    StageStep r r' (.cleaning (q :: queues)) [.discarded (.graceful timeout) q events]
      (.cleaning queues)
  | cleaned : StageStep r r' (.cleaning []) [] .calm
  /-- An immediate shutdown, or one that timed out, discards what it finds. -/
  | discardNow (q : QueueRef) (events : Multiset LocalEvent) :
    StageStep r r' .calm [.discarded .immediate q events] .calm
  | discardLate (mode : ShutdownMode) (q : QueueRef) (events : Multiset LocalEvent) :
    StageStep r r' .late [.discarded mode q events] .late
  | late (g : Stage) : StageStep r r' g [] .late
  /-- The future is dropped or fails, or another shutdown has been faster. -/
  | leaveDrain : StageStep r r' .draining [] .calm
  | leaveDrained : StageStep r r' .drained [] .calm

/-! ## Providers -/

/-- What of a provider takes part in the shape: `S` is its shared state, `C` its calls, and `B` its
registry. -/
structure View (S C B : Type) where
  store : S → Store
  registry : S → B
  roster : B → Roster
  /-- Without a weight limit, a publisher has stripped its event of its weight. -/
  weighed : Option ℕ+ → C → Prop
  stage : C → Stage

namespace View

variable {S C B : Type}

/-- The roster of a state. -/
abbrev rosterOf (v : View S C B) (s : S) : Roster := v.roster (v.registry s)

/-- The stage of a thread; what it returned may tell. -/
def stageOf (v : View S C B) : Thread C Response → Stage
  | .running c => v.stage c
  | .returned (.topicIdle true) => .found
  | .returned (.shutdown (.ok .timedOut)) => .late
  | .returned _ => .calm

/-- A thread that goes on is in a call that is weighed. -/
def weighedOf (v : View S C B) (maxWeight : Option ℕ+) : Thread C Response → Prop
  | .running c => v.weighed maxWeight c
  | .returned _ => True

theorem stageOf_returned (v : View S C B) (value : Response) :
    v.stageOf (.returned value) = .found ∨ v.stageOf (.returned value) = .late ∨
      v.stageOf (.returned value) = .calm := by
  cases value with
  | topicIdle idle => cases idle <;> simp [stageOf]
  | shutdown result =>
    cases result with
    | error => simp [stageOf]
    | ok outcome => cases outcome <;> simp [stageOf]
  | _ => exact .inr (.inr rfl)

/-- What the steps are described by. -/
def shape (v : View S C B) (s : S) (t : Thread C Response) : Store × Roster × Stage :=
  (v.store s, v.rosterOf s, v.stageOf t)

theorem shape_eq (v : View S C B) {s s' : S} {t t' : Thread C Response}
    (h : v.shape s' t' = v.shape s t) :
    StageStep (v.rosterOf s) (v.rosterOf s') (v.stageOf t) [] (v.stageOf t') ∧
      RosterStep [] (v.rosterOf s) (v.rosterOf s') ∧ v.store s' = v.store s := by
  simp only [shape, Prod.mk.injEq] at h
  rw [h.2.1, h.2.2]
  exact ⟨.keep _, .refl _, h.1⟩

end View

/-- What is shown of every step: its effect on the store is one of those, it keeps the accounts, and
registry and call change as described. A rejection leaves the registry alone. -/
structure Stepped {S C B : Type} (v : View S C B) (maxCount : Nat) (maxWeight : Option ℕ+) (s : S)
    (c : C) (s' : S) (t : Thread C Response) (notes : List ProviderNote) : Prop where
  effect : StoreEffect (v.store s) notes (v.store s')
  accounted : Accounted maxCount maxWeight (v.store s')
  rejected : v.registry s' = v.registry s ∨ ∀ q kind, .rejected q kind ∉ notes
  weighed : ∀ c', t = .running c' → v.weighed maxWeight c'
  roster : RosterStep notes (v.rosterOf s) (v.rosterOf s')
  stage : StageStep (v.rosterOf s) (v.rosterOf s') (v.stage c) notes (v.stageOf t)

/-- The step returns. -/
def StepOk {S C B : Type} (v : View S C B) (maxCount : Nat) (maxWeight : Option ℕ+) (s : S) (c : C)
    (result : Option (S × Thread C Response × List ProviderNote)) : Prop :=
  ∃ s' t notes, result = some (s', t, notes) ∧ Stepped v maxCount maxWeight s c s' t notes

/-- The calls of a provider keep the accounts and go on in stages. -/
structure Staged {S Q C X B : Type} (m : Machine S Q C Response X ProviderNote) (v : View S C B)
    (maxCount : Nat) (maxWeight : Option ℕ+) : Prop where
  enter : ∀ request, v.weighed maxWeight (m.enter request) ∧ v.stage (m.enter request) = .calm
  step : ∀ s i c x, Accounted maxCount maxWeight (v.store s) → v.weighed maxWeight c →
    StepOk v maxCount maxWeight s c (m.step s i c x)

section
variable {S C B : Type} {v : View S C B} {maxCount : Nat} {maxWeight : Option ℕ+} {s s' : S}
  {c c' : C} {value : Response} {notes : List ProviderNote}

/-- The call goes on, without a change of the store. -/
theorem StepOk.moves (h : Accounted maxCount maxWeight (v.store s)) (hc : v.weighed maxWeight c')
    (hg : StageStep (v.rosterOf s) (v.rosterOf s') (v.stage c) [] (v.stage c'))
    (hr : RosterStep [] (v.rosterOf s) (v.rosterOf s')) (hs : v.store s' = v.store s) :
    StepOk v maxCount maxWeight s c (some (s', .running c', [])) :=
  ⟨s', _, _, rfl, hs ▸ .refl _, hs ▸ h, .inr fun _ _ hm => (nomatch hm),
    fun _ heq => by cases heq; exact hc, hr, hg⟩

/-- It goes on, and nothing of the shape changes. -/
theorem StepOk.stays (h : Accounted maxCount maxWeight (v.store s)) (hc : v.weighed maxWeight c')
    (hs : v.shape s' (.running c') = v.shape s (.running c)) :
    StepOk v maxCount maxWeight s c (some (s', .running c', [])) := by
  obtain ⟨hg, hr, hs⟩ := v.shape_eq hs
  exact .moves h hc hg hr hs

/-- The call returns, without a change of the store. -/
theorem StepOk.leaves (h : Accounted maxCount maxWeight (v.store s))
    (hg : StageStep (v.rosterOf s) (v.rosterOf s') (v.stage c) [] (v.stageOf (.returned value)))
    (hr : RosterStep [] (v.rosterOf s) (v.rosterOf s')) (hs : v.store s' = v.store s) :
    StepOk v maxCount maxWeight s c (some (s', .returned value, [])) :=
  ⟨s', _, _, rfl, hs ▸ .refl _, hs ▸ h, .inr fun _ _ hm => (nomatch hm), fun _ heq => (nomatch heq),
    hr, hg⟩

theorem StepOk.ends (h : Accounted maxCount maxWeight (v.store s))
    (hs : v.shape s' (.returned value) = v.shape s (.running c)) :
    StepOk v maxCount maxWeight s c (some (s', .returned value, [])) := by
  obtain ⟨hg, hr, hs⟩ := v.shape_eq hs
  exact .leaves h hg hr hs

/-- Routes are given out, or the registry is closed. -/
theorem StepOk.tells {n : ProviderNote} (h : Accounted maxCount maxWeight (v.store s))
    (hn : n = .routed ∨ n = .closing) (hc : v.weighed maxWeight c')
    (hr : RosterStep [n] (v.rosterOf s) (v.rosterOf s'))
    (hg : StageStep (v.rosterOf s) (v.rosterOf s') (v.stage c) [n] (v.stage c'))
    (hs : v.store s' = v.store s) :
    StepOk v maxCount maxWeight s c (some (s', .running c', [n])) := by
  refine ⟨s', _, _, rfl, ?_, hs ▸ h, .inr fun q kind hm => ?_, fun _ heq => by cases heq; exact hc,
    hr, hg⟩
  · rw [hs]
    exact .quiet fun m hm => List.mem_singleton.1 hm ▸ hn
  · rcases hn with rfl | rfl <;> simp at hm

/-- A section that leaves the registry alone. -/
theorem StepOk.locked {t : Thread C Response} (he : StoreEffect (v.store s) notes (v.store s'))
    (h : Accounted maxCount maxWeight (v.store s'))
    (hg : StageStep (v.rosterOf s) (v.rosterOf s') (v.stage c) notes (v.stageOf t))
    (hc : v.weighedOf maxWeight t) (hn : .routed ∉ notes ∧ .closing ∉ notes)
    (hr : v.registry s' = v.registry s) :
    StepOk v maxCount maxWeight s c (some (s', t, notes)) := by
  refine ⟨s', t, notes, rfl, he, h, .inl hr, fun _ heq => by subst heq; exact hc, ?_, hg⟩
  show RosterStep notes (v.roster (v.registry s)) (v.roster (v.registry s'))
  rw [hr]
  exact .shrink rfl Set.Subset.rfl hn

/-- A publisher at one of its destinations. -/
theorem StepOk.admitted {event : LocalEvent} {q : QueueRef} {queues : List QueueRef}
    {rejection : Option (AdmissionRejectionKind × String)}
    (he : StoreEffect (v.store s) [admissionNote q event rejection] (v.store s'))
    (h : Accounted maxCount maxWeight (v.store s')) (hc : v.weighed maxWeight c')
    (hg : v.stage c = .publishing (q :: queues)) (hg' : v.stage c' = .publishing queues)
    (hr : v.registry s' = v.registry s) :
    StepOk v maxCount maxWeight s c
      (some (s', .running c', [admissionNote q event rejection])) := by
  refine .locked he h ?_ hc (by cases rejection <;> simp [admissionNote]) hr
  rw [hg, View.stageOf, hg']
  cases rejection with
  | none => exact .accept event
  | some rejection => exact .reject rejection.1

/-- A section on a queue that a call makes. -/
theorem StepOk.onQueue {A : Type} {q : QueueRef}
    {body : LocalQueue → Locked → Option (A × Locked)}
    {next : LocalQueue → A → Store → S × Thread C Response × List ProviderNote}
    (h : Accounted maxCount maxWeight (v.store s)) (hc : v.weighed maxWeight c)
    (hbody : ∀ queue, (v.store s).queues[q]? = some queue → ∃ r l,
      body queue ((v.store s).lock queue) = some (r, l) ∧
      StepOk v maxCount maxWeight s c (some (next queue r ((v.store s).unlock q queue l)))) :
    StepOk v maxCount maxWeight s c ((v.store s).onQueue q (s, .running c, []) body next) := by
  unfold Store.onQueue
  split
  · exact .stays h hc rfl
  · rename_i queue hq
    obtain ⟨r, l, heq, hok⟩ := hbody queue hq
    rw [heq]
    exact hok

/-- Without a limit, the event of a publication has no weight. -/
theorem Accounted.stripped {store : Store} (h : Accounted maxCount maxWeight store)
    (event : LocalEvent) (hnone : maxWeight = none) :
    (if store.outstanding.requiresWeight then event
      else { event with weightBytes := 0 }).weightBytes = 0 := by
  have hmax := h.within.maxWeight_eq
  rw [hnone] at hmax
  simp [OutstandingBudget.requiresWeight, hmax]

end

end EventBus.Local
