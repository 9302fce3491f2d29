import EventBus.Shutdown.Coordinator
import EventBus.Lib.Trace

/-!
# The ticket protocol

What callers can rely on (`TicketProtocol`) is said about the history of a run: their calls and the
answers to them. Each `begin` hands out a ticket of the generation that it returns. Of callers it is
only assumed that they observe and release tickets they hold, and that they poll without a token or
with one that they were given for the generation.
-/

namespace EventBus.Shutdown

open Lib

/-! ## Histories -/

inductive Op where
  | begin (mode : ShutdownMode)
  | mode (generation : Nat)
  | finish (generation : Nat) (result : Except SpiError ShutdownOutcome)
  | abortStart (generation : Nat) (error : String)
  | wait (generation : Nat) (expired : Bool)
  | pollResult (generation : Nat) (token : Option Nat) (waker : Waker)
  | unregister (generation token : Nat)
  | release (generation : Nat)

inductive Answer where
  | began (start : Bool) (generation : Nat)
  | mode (mode : ShutdownMode)
  | completed (woken : Option (Map Nat Waker))
  | waited (outcome : Option (Bool × Option ShutdownResult))
  | polled (poll : Poll (Option ShutdownResult)) (token : Option Nat) (retired : Option Waker)
  | unregistered (retired : Option Waker)
  | released (retired : Option (Option ShutdownResult × Option (Map Nat Waker)))

namespace ShutdownCoordinatorState

def exec (s : ShutdownCoordinatorState) : Op → Answer × ShutdownCoordinatorState
  | .begin mode => (s.begin mode).map (fun a => .began a.1 a.2) id
  | .mode generation => (.mode (s.modeOf generation), s)
  | .finish generation result => (s.finish generation result).map .completed id
  | .abortStart generation error => (s.abortStart generation error).map .completed id
  | .wait generation expired => (.waited (s.wait generation expired), s)
  | .pollResult generation token waker =>
    (s.pollResult generation token waker).map (fun a => .polled a.1 a.2.1 a.2.2) id
  | .unregister generation token => (s.unregister generation token).map .unregistered id
  | .release generation => (s.release generation).map .released id

/-- The waker that is registered in a slot. -/
def slot (s : ShutdownCoordinatorState) (generation token : Nat) : Option Waker :=
  (s.wakers.lookup generation).bind (·.lookup token)

end ShutdownCoordinatorState

abbrev Entry := Op × Answer

abbrev History := List Entry

/-- The generation that the call started. -/
def startOf : Entry → Option Nat
  | (_, .began true generation) => some generation
  | _ => none

/-- The mode that a caller asked for when it got a ticket of `g`. -/
def askedOf (g : Nat) : Entry → Option ShutdownMode
  | (.begin mode, .began _ generation) => if generation = g then some mode else none
  | _ => none

/-- The generation that the call completed, and its result. -/
def completionOf : Entry → Option (Nat × ShutdownResult)
  | (.finish generation result, .completed (some _)) => some (generation, .provider result)
  | (.abortStart generation error, .completed (some _)) => some (generation, .startFailed error)
  | _ => none

def releases (g : Nat) : Entry → Bool
  | (.release generation, _) => generation = g
  | _ => false

/-- The token that the call handed out for `g`. -/
def tokenOf (g : Nat) : Entry → Option Nat
  | (.pollResult generation none _, .polled .pending (some token) _) =>
    if generation = g then some token else none
  | _ => none

/-- The waker that the call left in the slot of `t`. -/
def wakerOf (g t : Nat) : Entry → Option Waker
  | (.pollResult generation _ waker, .polled .pending (some token) _) =>
    if generation = g ∧ token = t then some waker else none
  | _ => none

/-- The call has put a waker into the slot of `t`, which was empty. -/
def installs (g t : Nat) : Entry → Bool
  | (.pollResult generation _ _, .polled .pending (some token) none) =>
    generation = g ∧ token = t
  | _ => false

/-- The call has emptied the slot of `t`: it was a completion, which wakes the waker, it took back
the registration, or it released the last ticket. -/
def removes (g t : Nat) : Entry → Bool
  | (.finish generation _, .completed (some woken)) => generation = g ∧ t ∈ woken
  | (.abortStart generation _, .completed (some woken)) => generation = g ∧ t ∈ woken
  | (.unregister generation token, .unregistered (some _)) => generation = g ∧ token = t
  | (.release generation, .released (some (_, some wakers))) => generation = g ∧ t ∈ wakers
  | _ => false

namespace History

/-- The generations that were started, in order. -/
def started (h : History) : List Nat := h.filterMap startOf

/-- The modes that were asked for in `g`, one for each ticket. -/
def asked (h : History) (g : Nat) : List ShutdownMode := h.filterMap (askedOf g)

def completions (h : History) : List (Nat × ShutdownResult) := h.filterMap completionOf

/-- The generation was started and not completed. -/
def Active (h : History) (g : Nat) : Prop := g ∈ h.started ∧ g ∉ h.completions.map Prod.fst

/-- The number of tickets of `g` that are held. -/
def live (h : History) (g : Nat) : Nat := (h.asked g).length - h.countP (releases g)

/-- The tokens handed out for `g`. -/
def tokens (h : History) (g : Nat) : List Nat := h.filterMap (tokenOf g)

/-- The wakers that were left in the slot of `t`, one after the other. -/
def registered (h : History) (g t : Nat) : List Waker := h.filterMap (wakerOf g t)

end History

/-- A ticket of `g` sees nothing until `g` is completed, and then its result. -/
def Observes (g : Nat) (result : Option ShutdownResult) : Entry → Prop
  | (.pollResult generation _ _, .polled poll _ _) => generation = g →
    poll = match result with
      | none => .pending
      | some result => .ready (some result)
  | (.wait generation expired, .waited outcome) => generation = g →
    outcome = match result with
      | none => if expired then some (true, none) else none
      | some result => some (false, some result)
  | _ => True

/-! ## The protocol -/

/-- A run: the state and what has happened. -/
structure Watched where
  state : ShutdownCoordinatorState
  past : History

namespace Watched

def new : Watched := ⟨.new, []⟩

def step (w : Watched) (op : Op) : Option (Answer × Watched) :=
  let (answer, state) := w.state.exec op
  some (answer, ⟨state, w.past ++ [(op, answer)]⟩)

/-- Observing and releasing takes a ticket. A poll passes on the token of its registration. Counters
do not wrap. -/
def Allowed (w : Watched) : Op → Prop
  | .begin _ => w.state.active = true ∨ w.state.generation + 1 < 2 ^ 64
  | .wait generation _ => 0 < w.past.live generation
  | .pollResult generation none _ =>
    0 < w.past.live generation ∧ w.state.nextRegistration + 1 < 2 ^ 64
  | .pollResult generation (some token) _ =>
    0 < w.past.live generation ∧ token ∈ w.past.tokens generation
  | .release generation => 0 < w.past.live generation
  | _ => True

instance (w : Watched) : ∀ op, Decidable (w.Allowed op)
  | .begin _ => inferInstanceAs (Decidable (_ ∨ _))
  | .wait _ _ => inferInstanceAs (Decidable (_ < _))
  | .pollResult _ none _ => inferInstanceAs (Decidable (_ ∧ _))
  | .pollResult _ (some _) _ => inferInstanceAs (Decidable (_ ∧ _))
  | .release _ => inferInstanceAs (Decidable (_ < _))
  | .mode _ | .finish _ _ | .abortStart _ _ | .unregister _ _ => .isTrue trivial

end Watched

/-- **The ticket protocol.** -/
structure TicketProtocol (h : History) (s : ShutdownCoordinatorState) : Prop where
  /-- At most one generation is active, and the state knows which. -/
  active : ∀ g, h.Active g ↔ s.active = true ∧ g = s.generation
  /-- Of the callers of a generation exactly one starts it. -/
  start : ∀ g, h.asked g ≠ [] → h.started.count g = 1
  /-- A generation is completed once at most. -/
  complete : (h.completions.map Prod.fst).Nodup
  observed : ∀ a e b, h = a ++ e :: b → ∀ g, Observes g ((History.completions a).lookup g) e
  /-- To complete a generation that is not active changes nothing. -/
  stale : ∀ g result, ¬ h.Active g → s.complete g result = (none, s)
  /-- To complete the active one wakes exactly what its slots hold. -/
  wakes : ∀ g result, h.Active g → ∃ woken, (s.complete g result).1 = some woken ∧
    ∀ t, woken.lookup t = s.slot g t
  mode : ∀ g, h.Active g → (s.modeOf g = .immediate ↔ .immediate ∈ h.asked g) ∧
    (.immediate ∉ h.asked g → (h.asked g).head? = some (s.modeOf g))
  /-- A poll while the generation is active leaves its waker in a slot. -/
  polls : ∀ g token w, h.Active g → ∃ t, (s.pollResult g token w).1.2.1 = some t ∧
    (s.pollResult g token w).2.slot g t = some w
  /-- A waker that was put into a slot has been removed once, or is there. -/
  removed : ∀ g t, h.countP (installs g t) = h.countP (removes g t) + (s.slot g t).isSome.toNat
  /-- There it is the one that was left last. -/
  current : ∀ g t, (s.slot g t).isSome → s.slot g t = (h.registered g t).getLast?
  /-- To take a registration back empties its slot. -/
  unregistered : ∀ g t, (s.unregister g t).1 = s.slot g t ∧ (s.unregister g t).2.slot g t = none
  /-- No two registrations of a generation share a slot. -/
  fresh : ∀ g, (h.tokens g).Nodup
  /-- Only a ticket of an active generation can have a waker. -/
  waits : ∀ g, ¬ h.Active g → s.wakers.lookup g = none
  /-- Nothing is kept for a generation without tickets. -/
  reclaimed : ∀ g, h.live g = 0 →
    s.waiters.lookup g = none ∧ s.results.lookup g = none ∧ s.wakers.lookup g = none

/-! ## The invariant -/

/-- Generations are numbered in the order of their starts, and all but an active one are
completed. -/
structure Generations (h : History) (s : ShutdownCoordinatorState) : Prop where
  started : h.started = List.range' 1 s.generation
  completed : h.completions.map Prod.fst = List.range' 1 (s.generation - s.active.toNat)
  busy : s.active = true → 0 < s.generation
  asked : ∀ g, h.asked g ≠ [] → g ∈ h.started
  mode : s.active = true → (s.mode = .immediate ↔ .immediate ∈ h.asked s.generation) ∧
    (.immediate ∉ h.asked s.generation → (h.asked s.generation).head? = some s.mode)

/-- What is kept for the tickets. -/
structure Retains (h : History) (s : ShutdownCoordinatorState) : Prop where
  ticketed : ∀ g, h.countP (releases g) ≤ (h.asked g).length
  waiters : ∀ g, s.waiters.lookup g = if h.live g = 0 then none else some (h.live g)
  results : ∀ g, s.results.lookup g = if h.live g = 0 then none else h.completions.lookup g

/-- What is kept for the registrations. -/
structure Registers (h : History) (s : ShutdownCoordinatorState) : Prop where
  waits : ∀ g, s.wakers.lookup g ≠ none → (s.active = true ∧ g = s.generation) ∧ 0 < h.live g
  removed : ∀ g t, h.countP (installs g t) = h.countP (removes g t) + (s.slot g t).isSome.toNat
  current : ∀ g t, (s.slot g t).isSome → s.slot g t = (h.registered g t).getLast?
  tokens : ∀ g t, t ∈ h.tokens g → t ≤ s.nextRegistration
  slots : ∀ g t, (s.slot g t).isSome → t ∈ h.tokens g
  fresh : ∀ g, (h.tokens g).Nodup

structure Coordinated (h : History) (s : ShutdownCoordinatorState) : Prop where
  generations : Generations h s
  retains : Retains h s
  registers : Registers h s
  observed : ∀ a e b, h = a ++ e :: b → ∀ g, Observes g ((History.completions a).lookup g) e

section
variable {result : ShutdownResult} {mode : ShutdownMode} {n : Nat} {h : History}
  {s s' : ShutdownCoordinatorState} {e : Entry}

theorem filterMap_snoc {A B : Type} (f : A → Option B) (l : List A) (a : A) :
    (l ++ [a]).filterMap f = l.filterMap f ++ (f a).toList := by
  rw [List.filterMap_append]
  cases ha : f a <;> simp [ha]

theorem countP_snoc {A : Type} (p : A → Bool) (l : List A) (a : A) :
    (l ++ [a]).countP p = l.countP p + (p a).toNat := by
  rw [List.countP_append]
  cases ha : p a <;> simp [ha]

theorem started_snoc (h : History) (e : Entry) :
    History.started (h ++ [e]) = h.started ++ (startOf e).toList := filterMap_snoc _ _ _

theorem asked_snoc (h : History) (e : Entry) (g : Nat) :
    History.asked (h ++ [e]) g = h.asked g ++ (askedOf g e).toList := filterMap_snoc _ _ _

theorem completions_snoc (h : History) (e : Entry) :
    History.completions (h ++ [e]) = h.completions ++ (completionOf e).toList :=
  filterMap_snoc _ _ _

theorem tokens_snoc (h : History) (e : Entry) (g : Nat) :
    History.tokens (h ++ [e]) g = h.tokens g ++ (tokenOf g e).toList := filterMap_snoc _ _ _

theorem registered_snoc (h : History) (e : Entry) (g t : Nat) :
    History.registered (h ++ [e]) g t = h.registered g t ++ (wakerOf g t e).toList :=
  filterMap_snoc _ _ _

theorem live_snoc (h : History) (e : Entry) (g : Nat) : History.live (h ++ [e]) g =
    (h.asked g).length + (askedOf g e).toList.length -
      (h.countP (releases g) + (releases g e).toNat) := by
  rw [History.live, asked_snoc, List.length_append, countP_snoc]

/-! ### Generations -/

theorem lookup_completions {g : Nat} (hg : g ∉ h.completions.map Prod.fst) :
    h.completions.lookup g = none := by
  rw [List.lookup_eq_none_iff]
  intro p hp
  have hne : p.1 ≠ g := fun heq => hg (heq ▸ List.mem_map_of_mem hp)
  simpa using Ne.symm hne

namespace Generations

theorem active_iff (hs : Generations h s) (g : Nat) :
    h.Active g ↔ s.active = true ∧ g = s.generation := by
  have hbusy := hs.busy
  rw [History.Active, hs.started, hs.completed, List.mem_range'_1, List.mem_range'_1]
  cases hactive : s.active with
  | false => simp
  | true =>
    have := hbusy hactive
    simp only [Bool.toNat_true, true_and]
    omega

/-- A generation with tickets is active or has a result. -/
theorem completed_or_active (hs : Generations h s) {g : Nat} (hg : 0 < h.live g) :
    h.Active g ∨ (h.completions.lookup g).isSome := by
  have hasked : h.asked g ≠ [] := by
    intro hnil
    rw [History.live, hnil, List.length_nil] at hg
    omega
  by_cases hc : g ∈ h.completions.map Prod.fst
  · right
    rw [Option.isSome_iff_ne_none]
    intro hnone
    obtain ⟨p, hp, rfl⟩ := List.mem_map.1 hc
    simpa using List.lookup_eq_none_iff.1 hnone p hp
  · exact .inl ⟨hs.asked g hasked, hc⟩

/-- The call is none of those that count here. -/
theorem frame (hs : Generations h s) (hstart : startOf e = none) (hasked : ∀ g, askedOf g e = none)
    (hcompleted : completionOf e = none) (ha : s'.active = s.active)
    (hg : s'.generation = s.generation) (hm : s'.mode = s.mode) : Generations (h ++ [e]) s' := by
  constructor <;>
    simp only [started_snoc, asked_snoc, completions_snoc, hstart, hasked, hcompleted,
      Option.toList_none, List.append_nil, ha, hg, hm]
  · exact hs.started
  · exact hs.completed
  · exact hs.busy
  · exact hs.asked
  · exact hs.mode

theorem start (hs : Generations h s) (ha : s.active = false) (ha' : s'.active = true)
    (hg' : s'.generation = s.generation + 1) (hm' : s'.mode = mode) :
    Generations (h ++ [(.begin mode, .began true (s.generation + 1))]) s' := by
  have hnew : h.asked (s.generation + 1) = [] := by
    by_contra hne
    have hmem := hs.asked _ hne
    rw [hs.started, List.mem_range'_1] at hmem
    omega
  have hcompleted := hs.completed
  rw [ha] at hcompleted
  constructor <;> simp only [started_snoc, asked_snoc, completions_snoc, startOf, askedOf,
    completionOf, Option.toList_none, Option.toList_some, List.append_nil, ha', hg', hm']
  · rw [hs.started, List.range'_1_concat, Nat.add_comm 1]
  · exact hcompleted
  · exact fun _ => Nat.succ_pos _
  · intro g hg
    by_cases heq : s.generation + 1 = g
    · exact List.mem_append_right _ (heq ▸ List.mem_singleton_self _)
    · rw [if_neg heq, Option.toList_none, List.append_nil] at hg
      exact List.mem_append_left _ (hs.asked g hg)
  · intro _
    rw [hnew]
    simp [eq_comm]

/-- A caller that joins makes the mode stronger, or leaves it. -/
theorem join (hs : Generations h s) (ha : s.active = true) (ha' : s'.active = s.active)
    (hg' : s'.generation = s.generation)
    (hm' : s'.mode = if mode = .immediate then .immediate else s.mode) :
    Generations (h ++ [(.begin mode, .began false s.generation)]) s' := by
  obtain ⟨himm, hhead⟩ := hs.mode ha
  have hgen : s.generation ∈ h.started := ((hs.active_iff s.generation).2 ⟨ha, rfl⟩).1
  constructor <;> simp only [started_snoc, asked_snoc, completions_snoc, startOf, askedOf,
    completionOf, Option.toList_none, List.append_nil, ha', hg', hm']
  · exact hs.started
  · exact hs.completed
  · exact hs.busy
  · intro g hg
    by_cases heq : s.generation = g
    · exact heq ▸ hgen
    · rw [if_neg heq, Option.toList_none, List.append_nil] at hg
      exact hs.asked g hg
  · intro _
    rw [if_pos trivial, Option.toList_some]
    by_cases hmode : mode = .immediate
    · simp [hmode]
    · refine ⟨by simp [hmode, himm, Ne.symm hmode], fun hnot => ?_⟩
      have hnot' : .immediate ∉ h.asked s.generation := fun hm => hnot (List.mem_append_left _ hm)
      rw [if_neg hmode, List.head?_append, hhead hnot']
      rfl

theorem complete (hs : Generations h s) (ha : s.active = true) (hstart : startOf e = none)
    (hasked : ∀ g, askedOf g e = none) (hcompleted : completionOf e = some (s.generation, result))
    (ha' : s'.active = false) (hg : s'.generation = s.generation) : Generations (h ++ [e]) s' := by
  have hbusy := hs.busy ha
  have hbefore := hs.completed
  rw [ha] at hbefore
  constructor <;> simp only [started_snoc, asked_snoc, completions_snoc, hstart, hasked, hcompleted,
    Option.toList_none, Option.toList_some, List.append_nil, ha', hg]
  · exact hs.started
  · obtain ⟨n, hn⟩ : ∃ n, s.generation = n + 1 := ⟨s.generation - 1, by omega⟩
    rw [List.map_append, hbefore, hn]
    simp [List.range'_1_concat, Nat.add_comm]
  · exact fun hfalse => nomatch hfalse
  · exact hs.asked
  · exact fun hfalse => nomatch hfalse

end Generations

/-! ### Tickets -/

theorem live_same (hasked : ∀ g, askedOf g e = none) (hreleases : ∀ g, releases g e = false)
    (g : Nat) : History.live (h ++ [e]) g = h.live g := by
  rw [live_snoc, hasked, hreleases]
  rfl

namespace Retains

theorem live_begin (hs : Retains h s) (mode : ShutdownMode) (start : Bool) (n g : Nat) :
    History.live (h ++ [(.begin mode, .began start n)]) g = h.live g + if g = n then 1 else 0 := by
  have hticketed := hs.ticketed g
  rw [live_snoc, History.live]
  simp only [askedOf, releases, Bool.toNat_false]
  by_cases hg : n = g
  · simp only [hg, if_true, Option.toList_some, List.length_singleton]
    omega
  · simp [hg, Ne.symm hg]

theorem live_release (h : History) (n : Nat) (answer : Answer) (g : Nat) :
    History.live (h ++ [(.release n, answer)]) g = h.live g - if g = n then 1 else 0 := by
  rw [live_snoc, History.live]
  simp only [askedOf, releases, Option.toList_none, List.length_nil]
  by_cases hg : n = g
  · simp only [hg, decide_true, Bool.toNat_true, if_true]
    omega
  · simp only [hg, Ne.symm hg, decide_false, Bool.toNat_false, if_false]
    omega

theorem frame (hs : Retains h s) (hasked : ∀ g, askedOf g e = none)
    (hreleases : ∀ g, releases g e = false) (hcompleted : completionOf e = none)
    (hw : s'.waiters = s.waiters) (hr : s'.results = s.results) : Retains (h ++ [e]) s' := by
  have hlive := live_same (h := h) hasked hreleases
  constructor <;> simp only [asked_snoc, completions_snoc, countP_snoc, hasked, hreleases,
    hcompleted, hlive, hw, hr, Option.toList_none, List.append_nil, Bool.toNat_false, Nat.add_zero]
  · exact hs.ticketed
  · exact hs.waiters
  · exact hs.results

/-- A caller gets a ticket of a generation that is not completed. -/
theorem begin (hs : Retains h s) {start : Bool} (hn : h.completions.lookup n = none)
    (hw : s'.waiters = s.waiters.insert n ((s.waiters.lookup n).getD 0 + 1))
    (hr : s'.results = s.results) : Retains (h ++ [(.begin mode, .began start n)]) s' := by
  constructor <;> intro g <;> simp only [asked_snoc, completions_snoc, countP_snoc, releases,
    completionOf, hs.live_begin, hw, hr, Option.toList_none, List.append_nil, Bool.toNat_false,
    Nat.add_zero, List.length_append]
  · exact le_trans (hs.ticketed g) (Nat.le_add_right _ _)
  · rw [Map.lookup_insert_eq]
    by_cases hg : g = n
    · subst hg
      rw [if_pos rfl, if_pos rfl, if_neg (Nat.succ_ne_zero _), hs.waiters]
      by_cases h0 : h.live g = 0 <;> simp [h0]
    · rw [if_neg hg, if_neg hg, Nat.add_zero, hs.waiters]
  · rw [hs.results]
    by_cases hg : g = n
    · subst hg
      rw [hn, ite_self, ite_self]
    · rw [if_neg hg, Nat.add_zero]

theorem complete (hs : Retains h s) (hasked : ∀ g, askedOf g e = none)
    (hreleases : ∀ g, releases g e = false) (hcompleted : completionOf e = some (n, result))
    (hn : h.completions.lookup n = none) (hw : s'.waiters = s.waiters)
    (hr : s'.results =
      if (s.waiters.lookup n).isSome then s.results.insert n result else s.results) :
    Retains (h ++ [e]) s' := by
  have hlive := live_same (h := h) hasked hreleases
  constructor <;> intro g <;> simp only [asked_snoc, completions_snoc, countP_snoc, hasked,
    hreleases, hcompleted, hlive, hw, Option.toList_none, Option.toList_some, List.append_nil,
    Bool.toNat_false, Nat.add_zero]
  · exact hs.ticketed g
  · exact hs.waiters g
  · have hresults := hs.results g
    rw [hr, List.lookup_append]
    by_cases hg : g = n
    · subst hg
      rw [hn, hs.waiters]
      by_cases h0 : h.live g = 0
      · simpa [h0] using hresults
      · simp [h0]
    · have hother : List.lookup g [(n, result)] = none := by
        rw [List.lookup_eq_none_iff]
        simpa using hg
      rw [hother, Option.or_none, ← hresults]
      split
      · rw [Map.lookup_insert_eq, if_neg hg]
      · rfl

theorem release (hs : Retains h s) {answer : Answer} (hlive : 0 < h.live n)
    (hw : ∀ g, s'.waiters.lookup g = if g = n then
      if h.live n - 1 = 0 then none else some (h.live n - 1) else s.waiters.lookup g)
    (hr : ∀ g, s'.results.lookup g =
      if g = n ∧ h.live n - 1 = 0 then none else s.results.lookup g) :
    Retains (h ++ [(.release n, answer)]) s' := by
  constructor <;> intro g <;> simp only [asked_snoc, completions_snoc, countP_snoc, askedOf,
    completionOf, live_release, hw, hr, Option.toList_none, List.append_nil]
  · have hticketed := hs.ticketed g
    simp only [releases]
    by_cases hg : n = g
    · subst hg
      rw [History.live] at hlive
      simp only [decide_true, Bool.toNat_true]
      omega
    · simpa [hg] using hticketed
  · by_cases hg : g = n
    · subst hg
      rw [if_pos rfl, if_pos rfl]
    · rw [if_neg hg, if_neg hg, Nat.sub_zero, hs.waiters]
  · by_cases hg : g = n
    · subst hg
      have hne : h.live g ≠ 0 := by omega
      rw [if_pos rfl, hs.results, if_neg hne]
      simp
    · rw [if_neg fun hh => hg hh.1, if_neg hg, Nat.sub_zero, hs.results]

end Retains

/-! ### Registrations -/

theorem slot_erase (s : ShutdownCoordinatorState) (n : Nat) (hw : s'.wakers = s.wakers.erase n)
    (g t : Nat) : s'.slot g t = if g = n then none else s.slot g t := by
  rw [ShutdownCoordinatorState.slot, ShutdownCoordinatorState.slot, hw, Map.lookup_erase_eq]
  split <;> rfl

/-- What was removed with a generation is what its slots held. -/
theorem lookup_getD (s : ShutdownCoordinatorState) (n t : Nat) :
    ((s.wakers.lookup n).getD ∅).lookup t = s.slot n t := by
  rw [ShutdownCoordinatorState.slot]
  cases s.wakers.lookup n <;> rfl

theorem mem_getD_iff (s : ShutdownCoordinatorState) (n t : Nat) :
    t ∈ (s.wakers.lookup n).getD ∅ ↔ (s.slot n t).isSome := by
  rw [← lookup_getD, Finmap.mem_iff, Option.isSome_iff_exists]

/-- To take back a registration empties its slot and changes nothing else. -/
theorem unregister_spec (s : ShutdownCoordinatorState) (n u : Nat) : ∃ wakers,
    s.unregister n u = (s.slot n u, { s with wakers }) ∧
      (∀ g, wakers.lookup g ≠ none → s.wakers.lookup g ≠ none) ∧
      ∀ g t, (wakers.lookup g).bind (·.lookup t) = if g = n ∧ t = u then none else s.slot g t := by
  simp only [ShutdownCoordinatorState.unregister, ShutdownCoordinatorState.slot]
  cases hslots : s.wakers.lookup n with
  | none =>
    refine ⟨s.wakers, rfl, fun _ => id, fun g t => ?_⟩
    split
    · rename_i hgt
      rw [hgt.1, hslots, Option.bind_none]
    · rfl
  | some slots =>
    have hlookup : ∀ g, (if slots.erase u = ∅ then s.wakers.erase n
        else s.wakers.insert n (slots.erase u)).lookup g =
          if g = n then if slots.erase u = ∅ then none else some (slots.erase u)
          else s.wakers.lookup g := by
      intro g
      split
      · rw [Map.lookup_erase_eq]
      · rw [Map.lookup_insert_eq]
    refine ⟨_, rfl, fun g hg => ?_, fun g t => ?_⟩
    · by_cases hgn : g = n
      · rw [hgn, hslots]
        exact Option.some_ne_none slots
      · rwa [hlookup, if_neg hgn] at hg
    · rw [hlookup]
      by_cases hgn : g = n
      · subst hgn
        -- an empty map of slots is as good as none
        have hempty : (if slots.erase u = ∅ then none else some (slots.erase u)).bind (·.lookup t) =
            (slots.erase u).lookup t := by
          split
          · rename_i hempty
            rw [hempty]
            rfl
          · rfl
        rw [if_pos rfl, hempty, Map.lookup_erase_eq, hslots, Option.bind_some]
        simp
      · rw [if_neg hgn, if_neg fun hgt => hgn hgt.1]

namespace Registers

/-- A call that registers nothing, and empties the slots that it says. -/
theorem remove (hs : Registers h s) (htoken : ∀ g, tokenOf g e = none)
    (hwaker : ∀ g t, wakerOf g t e = none) (hinstalls : ∀ g t, installs g t e = false)
    (hslot : ∀ g t, s'.slot g t = if removes g t e then none else s.slot g t)
    (hheld : ∀ g t, removes g t e = true → (s.slot g t).isSome)
    (hwaits : ∀ g, s'.wakers.lookup g ≠ none → (s'.active = true ∧ g = s'.generation) ∧
      0 < History.live (h ++ [e]) g)
    (hnext : s'.nextRegistration = s.nextRegistration) : Registers (h ++ [e]) s' := by
  refine ⟨hwaits, fun g t => ?_, fun g t => ?_, ?_, fun g t => ?_, ?_⟩ <;>
    simp only [countP_snoc, registered_snoc, tokens_snoc, htoken, hwaker, hinstalls, hslot, hnext,
      Option.toList_none, List.append_nil, Bool.toNat_false, Nat.add_zero]
  · rw [hs.removed]
    cases hr : removes g t e with
    | false => rfl
    | true => simp [hheld g t hr]
  · split
    · exact fun hfalse => nomatch hfalse
    · exact hs.current g t
  · exact hs.tokens
  · split
    · exact fun hfalse => nomatch hfalse
    · exact hs.slots g t
  · exact hs.fresh

/-- A call that leaves all registrations. -/
theorem frame (hs : Registers h s) (htoken : ∀ g, tokenOf g e = none)
    (hwaker : ∀ g t, wakerOf g t e = none) (hinstalls : ∀ g t, installs g t e = false)
    (hremoves : ∀ g t, removes g t e = false) (hwakers : s'.wakers = s.wakers)
    (hactive : s.active = true → s'.active = true ∧ s'.generation = s.generation)
    (hlive : ∀ g, h.live g ≤ History.live (h ++ [e]) g)
    (hnext : s'.nextRegistration = s.nextRegistration) : Registers (h ++ [e]) s' := by
  refine hs.remove htoken hwaker hinstalls (fun g t => ?_) (fun g t hr => ?_) (fun g hg => ?_) hnext
  · rw [hremoves, ShutdownCoordinatorState.slot, hwakers]
    rfl
  · rw [hremoves] at hr
    cases hr
  · rw [hwakers] at hg
    obtain ⟨⟨ha, rfl⟩, hpos⟩ := hs.waits g hg
    obtain ⟨ha', hg'⟩ := hactive ha
    exact ⟨⟨ha', hg'.symm⟩, lt_of_lt_of_le hpos (hlive _)⟩

/-- A call that takes all wakers of `n`. -/
theorem erase (hs : Registers h s) (htoken : ∀ g, tokenOf g e = none)
    (hwaker : ∀ g t, wakerOf g t e = none) (hinstalls : ∀ g t, installs g t e = false)
    (hremoves : ∀ g t, removes g t e = decide (n = g ∧ t ∈ (s.wakers.lookup n).getD ∅))
    (hwakers : s'.wakers = s.wakers.erase n)
    (hwaits : ∀ g, g ≠ n → s.wakers.lookup g ≠ none → (s'.active = true ∧ g = s'.generation) ∧
      0 < History.live (h ++ [e]) g) (hnext : s'.nextRegistration = s.nextRegistration) :
    Registers (h ++ [e]) s' := by
  refine hs.remove htoken hwaker hinstalls (fun g t => ?_) (fun g t hr => ?_) (fun g hg => ?_) hnext
  · rw [slot_erase s n hwakers, hremoves]
    by_cases hg : g = n
    · subst hg
      rw [if_pos rfl]
      by_cases ht : t ∈ (s.wakers.lookup g).getD ∅
      · simp [ht]
      · rw [mem_getD_iff, Option.not_isSome_iff_eq_none] at ht
        simp [ht]
    · simp [hg, Ne.symm hg]
  · rw [hremoves] at hr
    obtain ⟨rfl, ht⟩ := of_decide_eq_true hr
    exact (mem_getD_iff s _ t).1 ht
  · rw [hwakers, Map.lookup_erase_eq] at hg
    split at hg
    · exact absurd rfl hg
    · rename_i hne
      exact hwaits g hne hg

/-- A poll of a pending generation: the slot of `t` has the waker `w` now. -/
theorem poll (hs : Registers h s) {t : Nat} {token : Option Nat} {w : Waker} (ha : s.active = true)
    (hn : n = s.generation) (hlive : 0 < h.live n)
    (htoken : token = none ∧ t = s.nextRegistration + 1 ∧ s'.nextRegistration = t ∨
      token = some t ∧ t ∈ h.tokens n ∧ s'.nextRegistration = s.nextRegistration)
    (hactive : s'.active = s.active) (hgen : s'.generation = s.generation)
    (hwakers : s'.wakers = s.wakers.insert n (((s.wakers.lookup n).getD ∅).insert t w)) :
    Registers (h ++ [(.pollResult n token w, .polled .pending (some t) (s.slot n t))]) s' := by
  have hslot : ∀ g u, s'.slot g u = if g = n ∧ u = t then some w else s.slot g u := by
    intro g u
    rw [ShutdownCoordinatorState.slot, ShutdownCoordinatorState.slot, hwakers, Map.lookup_insert_eq]
    by_cases hg : g = n
    · subst hg
      rw [if_pos rfl, Option.bind_some, Map.lookup_insert_eq]
      by_cases hu : u = t
      · simp [hu]
      · rw [if_neg hu, if_neg fun hh => hu hh.2]
        cases s.wakers.lookup g <;> rfl
    · rw [if_neg hg, if_neg fun hh => hg hh.1]
  have hlive' := live_same (h := h)
    (e := (.pollResult n token w, .polled .pending (some t) (s.slot n t)))
    (fun _ => rfl) fun _ => rfl
  -- the tokens after the poll are those before it, and `t`, if it is new
  have htokens : ∀ g, History.tokens
      (h ++ [(.pollResult n token w, .polled .pending (some t) (s.slot n t))]) g =
        h.tokens g ++ if token = none ∧ n = g then [t] else [] := by
    intro g
    rw [tokens_snoc]
    rcases htoken with ⟨rfl, -⟩ | ⟨rfl, -⟩
    · by_cases hg : n = g <;> simp [tokenOf, hg]
    · simp [tokenOf]
  refine ⟨fun g hg => ?_, fun g u => ?_, fun g u hu => ?_, fun g u hu => ?_, fun g u hu => ?_,
    fun g => ?_⟩
  · rw [hactive, hgen, hlive']
    by_cases heq : g = n
    · subst heq
      exact ⟨⟨ha, hn⟩, hlive⟩
    · rw [hwakers, Map.lookup_insert_eq, if_neg heq] at hg
      exact hs.waits g hg
  · have hremoved := hs.removed g u
    rw [countP_snoc, countP_snoc, hslot]
    simp only [removes, Bool.toNat_false, Nat.add_zero]
    by_cases heq : g = n ∧ u = t
    · obtain ⟨rfl, rfl⟩ := heq
      cases hbefore : s.slot g u <;> simp_all [installs]
    · have heq' : ¬ (n = g ∧ t = u) := fun hh => heq ⟨hh.1.symm, hh.2.symm⟩
      have hno :
          installs g u (.pollResult n token w, .polled .pending (some t) (s.slot n t)) = false := by
        cases s.slot n t with
        | none => exact decide_eq_false heq'
        | some w' => rfl
      rw [hno, if_neg heq]
      exact hremoved
  · rw [hslot] at hu ⊢
    rw [registered_snoc]
    by_cases heq : g = n ∧ u = t
    · obtain ⟨rfl, rfl⟩ := heq
      simp [wakerOf]
    · have hno :
          wakerOf g u (.pollResult n token w, .polled .pending (some t) (s.slot n t)) = none :=
        if_neg fun hh => heq ⟨hh.1.symm, hh.2.symm⟩
      rw [if_neg heq] at hu ⊢
      rw [hno, Option.toList_none, List.append_nil]
      exact hs.current g u hu
  · rw [htokens] at hu
    rcases htoken with ⟨rfl, ht, hnext⟩ | ⟨rfl, -, hnext⟩
    · rcases List.mem_append.1 hu with hu | hu
      · have hle := hs.tokens g u hu
        omega
      · split at hu
        · cases List.mem_singleton.1 hu
          omega
        · cases hu
    · simp only [reduceCtorEq, false_and, if_false, List.append_nil] at hu
      rw [hnext]
      exact hs.tokens g u hu
  · rw [htokens]
    rw [hslot] at hu
    split at hu
    · rename_i heq
      obtain ⟨rfl, rfl⟩ := heq
      rcases htoken with ⟨rfl, -⟩ | ⟨-, hmem, -⟩
      · exact List.mem_append_right _ (by simp)
      · exact List.mem_append_left _ hmem
    · exact List.mem_append_left _ (hs.slots g u hu)
  · rw [htokens]
    split
    · rename_i heq
      obtain ⟨rfl, rfl⟩ := heq
      refine (hs.fresh n).append (List.nodup_singleton t) ?_
      intro u hu hut
      cases List.mem_singleton.1 hut
      have hle := hs.tokens n t hu
      rcases htoken with ⟨-, ht, -⟩ | ⟨hsome, -⟩
      · omega
      · cases hsome
    · rw [List.append_nil]
      exact hs.fresh g

end Registers

/-! ### Steps -/

/-- An entry that changes nothing of what the history says. -/
structure Neutral (e : Entry) : Prop where
  start : startOf e = none := by rfl
  asked : ∀ g, askedOf g e = none := by intros; rfl
  completed : completionOf e = none := by rfl
  releases : ∀ g, releases g e = false := by intros; rfl
  token : ∀ g, tokenOf g e = none := by intros; rfl
  waker : ∀ g t, wakerOf g t e = none := by intros; rfl
  installs : ∀ g t, installs g t e = false := by intros; rfl
  removes : ∀ g t, removes g t e = false := by intros; rfl

/-- An entry that completes `n` and wakes `woken`. -/
structure Completes (n : Nat) (result : ShutdownResult) (woken : Map Nat Waker) (e : Entry) :
    Prop where
  start : startOf e = none := by rfl
  asked : ∀ g, askedOf g e = none := by intros; rfl
  completed : completionOf e = some (n, result) := by rfl
  releases : ∀ g, releases g e = false := by intros; rfl
  token : ∀ g, tokenOf g e = none := by intros; rfl
  waker : ∀ g t, wakerOf g t e = none := by intros; rfl
  installs : ∀ g t, installs g t e = false := by intros; rfl
  removes : ∀ g t, removes g t e = decide (n = g ∧ t ∈ woken) := by intros; rfl

theorem observed_snoc
    (hs : ∀ a e b, h = a ++ e :: b → ∀ g, Observes g ((History.completions a).lookup g) e)
    (he : ∀ g, Observes g (h.completions.lookup g) e) :
    ∀ a e' b, h ++ [e] = a ++ e' :: b → ∀ g, Observes g ((History.completions a).lookup g) e' := by
  intro a e' b heq g
  rcases append_eq_append_cons heq with ⟨b', hh, -⟩ | ⟨a', rfl, hh⟩
  · exact hs a e' b' hh g
  · cases a' with
    | nil =>
      cases hh
      rw [List.append_nil]
      exact he g
    | cons y a' => simp at hh

open ShutdownCoordinatorState (slot)

namespace Coordinated

/-- A call that changes nothing. -/
theorem neutral (hs : Coordinated h s) (he : Neutral e)
    (ho : ∀ g, Observes g (h.completions.lookup g) e) : Coordinated (h ++ [e]) s where
  generations := hs.generations.frame he.start he.asked he.completed rfl rfl rfl
  retains := hs.retains.frame he.asked he.releases he.completed rfl rfl
  registers := hs.registers.frame he.token he.waker he.installs he.removes rfl (fun ha => ⟨ha, rfl⟩)
    (fun g => le_of_eq (live_same he.asked he.releases g).symm) rfl
  observed := observed_snoc hs.observed ho

theorem begin (hs : Coordinated h s) (mode : ShutdownMode)
    (hwrap : s.active = true ∨ s.generation + 1 < 2 ^ 64) :
    Coordinated (h ++ [(.begin mode, (s.exec (.begin mode)).1)]) (s.exec (.begin mode)).2 := by
  have hlive : ∀ start n g, h.live g ≤ History.live (h ++ [(.begin mode, .began start n)]) g :=
    fun start n g => by rw [hs.retains.live_begin]; exact Nat.le_add_right _ _
  simp only [ShutdownCoordinatorState.exec, ShutdownCoordinatorState.begin]
  by_cases ha : s.active = true
  · have hactive := (hs.generations.active_iff s.generation).2 ⟨ha, rfl⟩
    rw [if_pos ha]
    split <;> rename_i hmode
    all_goals
      refine ⟨hs.generations.join ha rfl rfl ?_, hs.retains.begin (lookup_completions hactive.2)
        rfl rfl, hs.registers.frame (fun _ => rfl) (fun _ _ => rfl) (fun _ _ => rfl)
          (fun _ _ => rfl) rfl (fun ha => ⟨ha, rfl⟩) (hlive _ _) rfl,
        observed_snoc hs.observed fun _ => trivial⟩
    · rw [if_pos hmode]
      rfl
    · rw [if_neg hmode]
      rfl
  · have hsucc : wrappingSucc s.generation = s.generation + 1 :=
      Nat.mod_eq_of_lt (hwrap.resolve_left ha)
    have hnew : s.generation + 1 ∉ h.completions.map Prod.fst := by
      rw [hs.generations.completed, List.mem_range'_1]
      omega
    rw [if_neg ha, hsucc]
    have hfalse : s.active = false := by simpa using ha
    exact ⟨hs.generations.start hfalse rfl rfl rfl,
      hs.retains.begin (lookup_completions hnew) rfl rfl,
      hs.registers.frame (fun _ => rfl) (fun _ _ => rfl) (fun _ _ => rfl) (fun _ _ => rfl) rfl
        (fun ha' => absurd ha' ha) (hlive _ _) rfl,
      observed_snoc hs.observed fun _ => trivial⟩

/-- `finish` and `abort_start`: they complete the active generation, and no other one. -/
theorem complete (hs : Coordinated h s) (n : Nat) (result : ShutdownResult) {op : Op}
    (hidle : Neutral (op, .completed none))
    (hdone : ∀ woken, Completes n result woken (op, .completed (some woken)))
    (ho : ∀ answer g, Observes g (h.completions.lookup g) (op, .completed answer)) :
    Coordinated (h ++ [(op, .completed (s.complete n result).1)]) (s.complete n result).2 := by
  rw [ShutdownCoordinatorState.complete]
  split
  · exact hs.neutral hidle (ho none)
  · rename_i hn
    rw [not_or, not_not, Bool.not_eq_false] at hn
    obtain ⟨rfl, ha⟩ := hn
    have hactive := (hs.generations.active_iff s.generation).2 ⟨ha, rfl⟩
    have he := hdone ((s.wakers.lookup s.generation).getD ∅)
    refine ⟨hs.generations.complete ha he.start he.asked he.completed rfl rfl,
      hs.retains.complete he.asked he.releases he.completed (lookup_completions hactive.2) rfl rfl,
      hs.registers.erase he.token he.waker he.installs he.removes rfl (fun g hne hg => ?_) rfl,
      observed_snoc hs.observed (ho _)⟩
    -- only the generation that was active had wakers
    exact absurd (hs.registers.waits g hg).1.2 hne

/-- What a ticket finds: its generation is pending, or its result is kept. -/
theorem ticket (hs : Coordinated h s) (hn : 0 < h.live n) :
    (s.active = true ∧ s.generation = n) ∧ h.completions.lookup n = none ∧
        s.results.lookup n = none ∨
      (s.active = false ∨ s.generation ≠ n) ∧
        ∃ result, h.completions.lookup n = some result ∧ s.results.lookup n = some result := by
  have hresults := hs.retains.results n
  rw [if_neg (Nat.ne_of_gt hn)] at hresults
  by_cases hactive : h.Active n
  · have hnone := lookup_completions hactive.2
    obtain ⟨ha, rfl⟩ := (hs.generations.active_iff n).1 hactive
    exact .inl ⟨⟨ha, rfl⟩, hnone, hresults.trans hnone⟩
  · have hsome := (hs.generations.completed_or_active hn).resolve_left hactive
    obtain ⟨result, hresult⟩ := Option.isSome_iff_exists.1 hsome
    refine .inr ⟨?_, result, hresult, hresults.trans hresult⟩
    rw [hs.generations.active_iff] at hactive
    by_contra hne
    rw [not_or, not_not, Bool.not_eq_false] at hne
    exact hactive ⟨hne.1, hne.2.symm⟩

theorem wait (hs : Coordinated h s) (n : Nat) (expired : Bool) (hn : 0 < h.live n) :
    Coordinated (h ++ [(.wait n expired, (s.exec (.wait n expired)).1)])
      (s.exec (.wait n expired)).2 := by
  refine hs.neutral {} fun g hg => ?_
  subst hg
  rw [ShutdownCoordinatorState.wait]
  obtain ⟨⟨ha, hgen⟩, hc, hr⟩ | ⟨hstale, result, hc, hr⟩ := hs.ticket hn
  · simp [ha, hgen, hc]
  · rw [if_pos hstale, hc, hr]

theorem pollResult (hs : Coordinated h s) (n : Nat) (token : Option Nat) (w : Waker)
    (hallowed : Watched.Allowed ⟨s, h⟩ (.pollResult n token w)) :
    Coordinated (h ++ [(.pollResult n token w, (s.exec (.pollResult n token w)).1)])
      (s.exec (.pollResult n token w)).2 := by
  have hn : 0 < h.live n := by
    cases token with
    | none => exact hallowed.1
    | some t => exact hallowed.1
  obtain ⟨⟨ha, hgen⟩, hc, hr⟩ | ⟨hstale, result, hc, hr⟩ := hs.ticket hn
  · have hactive : ¬ (s.active = false ∨ s.generation ≠ n) := by simp [ha, hgen]
    simp only [ShutdownCoordinatorState.exec, ShutdownCoordinatorState.pollResult, hr]
    rw [if_neg hactive]
    have hobserved : ∀ g t retired, Observes g (h.completions.lookup g)
        (.pollResult n token w, .polled .pending (some t) retired) := by
      intro g t retired hg
      subst hg
      rw [hc]
    cases token with
    | none =>
      have hsucc : wrappingSucc s.nextRegistration = s.nextRegistration + 1 :=
        Nat.mod_eq_of_lt hallowed.2
      simp only [Prod.map_apply, id_eq, lookup_getD, hsucc]
      exact ⟨hs.generations.frame rfl (fun _ => rfl) rfl rfl rfl rfl,
        hs.retains.frame (fun _ => rfl) (fun _ => rfl) rfl rfl rfl,
        hs.registers.poll ha hgen.symm hn (.inl ⟨rfl, rfl, rfl⟩) rfl rfl rfl,
        observed_snoc hs.observed fun g => hobserved g _ _⟩
    | some t =>
      simp only [Prod.map_apply, id_eq, lookup_getD]
      exact ⟨hs.generations.frame rfl (fun _ => rfl) rfl rfl rfl rfl,
        hs.retains.frame (fun _ => rfl) (fun _ => rfl) rfl rfl rfl,
        hs.registers.poll ha hgen.symm hn (.inr ⟨rfl, hallowed.2, rfl⟩) rfl rfl rfl,
        observed_snoc hs.observed fun g => hobserved g _ _⟩
  · simp only [ShutdownCoordinatorState.exec, ShutdownCoordinatorState.pollResult, hr]
    refine hs.neutral { token := fun _ => by cases token <;> rfl } fun g hg => ?_
    subst hg
    rw [hc]

theorem unregister (hs : Coordinated h s) (n u : Nat) :
    Coordinated (h ++ [(.unregister n u, (s.exec (.unregister n u)).1)])
      (s.exec (.unregister n u)).2 := by
  obtain ⟨wakers, heq, hwakers, hslots⟩ := unregister_spec s n u
  have hremoves : ∀ g t, removes g t (.unregister n u, .unregistered (s.slot n u)) =
      decide ((g = n ∧ t = u) ∧ (s.slot n u).isSome) := by
    intro g t
    cases s.slot n u with
    | none => simp [removes]
    | some w => simp [removes, eq_comm]
  simp only [ShutdownCoordinatorState.exec, heq, Prod.map_apply, id_eq]
  refine ⟨hs.generations.frame rfl (fun _ => rfl) rfl rfl rfl rfl,
    hs.retains.frame (fun _ => rfl) (fun _ => rfl) rfl rfl rfl,
    hs.registers.remove (fun _ => rfl) (fun _ _ => rfl) (fun _ _ => rfl) (fun g t => ?_)
      (fun g t hr => ?_) (fun g hg => ?_) rfl,
    observed_snoc hs.observed fun _ => trivial⟩
  · rw [hremoves, slot, hslots]
    by_cases hgt : g = n ∧ t = u
    · obtain ⟨rfl, rfl⟩ := hgt
      cases s.slot g t <;> simp
    · simp [hgt]
  · rw [hremoves] at hr
    obtain ⟨⟨rfl, rfl⟩, hsome⟩ := of_decide_eq_true hr
    exact hsome
  · rw [live_same (fun _ => rfl) fun _ => rfl]
    exact hs.registers.waits g (hwakers g hg)

theorem release (hs : Coordinated h s) (n : Nat) (hn : 0 < h.live n) :
    Coordinated (h ++ [(.release n, (s.exec (.release n)).1)]) (s.exec (.release n)).2 := by
  have hwaiters := hs.retains.waiters n
  rw [if_neg (Nat.ne_of_gt hn)] at hwaiters
  have hother : ∀ answer g, g ≠ n → s.wakers.lookup g ≠ none →
      (s.active = true ∧ g = s.generation) ∧ 0 < History.live (h ++ [(.release n, answer)]) g := by
    intro answer g hne hg
    obtain ⟨hactive, hpos⟩ := hs.registers.waits g hg
    rw [Retains.live_release, if_neg hne]
    exact ⟨hactive, hpos⟩
  simp only [ShutdownCoordinatorState.exec, ShutdownCoordinatorState.release, hwaiters]
  split
  · rename_i hlast
    refine ⟨hs.generations.frame rfl (fun _ => rfl) rfl rfl rfl rfl,
      hs.retains.release hn (fun g => ?_) (fun g => ?_),
      hs.registers.erase (fun _ => rfl) (fun _ _ => rfl) (fun _ _ => rfl) (fun g t => ?_) rfl
        (hother _) rfl,
      observed_snoc hs.observed fun _ => trivial⟩
    · rw [if_pos hlast]
      exact Map.lookup_erase_eq _ _ _
    · simp only [hlast, and_true]
      exact Map.lookup_erase_eq _ _ _
    · simp only [Prod.map_fst]
      cases s.wakers.lookup n with
      | none => simp [removes, Finmap.notMem_empty]
      | some slots => rfl
  · rename_i hmore
    refine ⟨hs.generations.frame rfl (fun _ => rfl) rfl rfl rfl rfl,
      hs.retains.release hn (fun g => ?_) (fun g => ?_),
      hs.registers.remove (fun _ => rfl) (fun _ _ => rfl) (fun _ _ => rfl) (fun _ _ => rfl)
        (fun _ _ hr => nomatch hr) (fun g hg => ?_) rfl,
      observed_snoc hs.observed fun _ => trivial⟩
    · rw [if_neg hmore]
      exact Map.lookup_insert_eq _ _ _ _
    · rw [if_neg fun hh => hmore hh.2]
      rfl
    · by_cases hne : g = n
      · subst hne
        refine ⟨(hs.registers.waits g hg).1, ?_⟩
        rw [Retains.live_release, if_pos rfl]
        omega
      · exact hother _ g hne hg

end Coordinated

theorem Coordinated.new : Coordinated [] ShutdownCoordinatorState.new where
  generations := ⟨rfl, rfl, fun h => (nomatch h), fun _ h => absurd rfl h, fun h => (nomatch h)⟩
  retains := ⟨fun _ => Nat.le_refl _, fun _ => rfl, fun _ => rfl⟩
  registers := ⟨fun _ h => absurd rfl h, fun _ _ => rfl, fun _ _ h => (nomatch h),
    fun _ _ h => (nomatch h), fun _ _ h => (nomatch h), fun _ => List.nodup_nil⟩
  observed := fun a e b h => by simp at h

theorem Coordinated.protocol (hs : Coordinated h s) : TicketProtocol h s where
  active := hs.generations.active_iff
  start g hg := by
    have hmem := hs.generations.asked g hg
    refine List.count_eq_one_of_mem ?_ hmem
    rw [hs.generations.started]
    exact List.nodup_range'
  complete := by
    rw [hs.generations.completed]
    exact List.nodup_range'
  observed := hs.observed
  stale g result hg := by
    rw [hs.generations.active_iff] at hg
    rw [ShutdownCoordinatorState.complete, if_pos]
    by_contra hne
    rw [not_or, not_not, Bool.not_eq_false] at hne
    exact hg ⟨hne.2, hne.1.symm⟩
  wakes g result hg := by
    obtain ⟨ha, rfl⟩ := (hs.generations.active_iff g).1 hg
    refine ⟨(s.wakers.lookup s.generation).getD ∅, ?_, lookup_getD s _⟩
    rw [ShutdownCoordinatorState.complete, if_neg (by simp [ha])]
  mode g hg := by
    obtain ⟨ha, rfl⟩ := (hs.generations.active_iff g).1 hg
    rw [ShutdownCoordinatorState.modeOf, if_pos rfl]
    exact hs.generations.mode ha
  polls g token w hg := by
    have hresult : s.results.lookup g = none := by
      rw [hs.retains.results, lookup_completions hg.2, ite_self]
    obtain ⟨ha, rfl⟩ := (hs.generations.active_iff g).1 hg
    have hpending : ¬ (s.active = false ∨ s.generation ≠ s.generation) := by simp [ha]
    simp only [ShutdownCoordinatorState.pollResult, hresult, if_neg hpending]
    refine ⟨_, rfl, ?_⟩
    rw [slot, Map.lookup_insert_eq, if_pos rfl, Option.bind_some, Map.lookup_insert_eq, if_pos rfl]
  removed := hs.registers.removed
  current := hs.registers.current
  unregistered g t := by
    obtain ⟨wakers, heq, -, hslots⟩ := unregister_spec s g t
    rw [heq]
    exact ⟨rfl, (hslots g t).trans (if_pos ⟨rfl, rfl⟩)⟩
  fresh := hs.registers.fresh
  waits g hg := by
    by_contra hne
    exact hg ((hs.generations.active_iff g).2 (hs.registers.waits g hne).1)
  reclaimed g hg := by
    refine ⟨?_, ?_, ?_⟩
    · rw [hs.retains.waiters, if_pos hg]
    · rw [hs.retains.results, if_pos hg]
    · by_contra hne
      have := (hs.registers.waits g hne).2
      omega

theorem Watched.step_coordinated {w : Watched} {op : Op} (hs : Coordinated w.past w.state)
    (hop : w.Allowed op) :
    ∃ answer w', w.step op = some (answer, w') ∧ Coordinated w'.past w'.state := by
  refine ⟨_, _, rfl, ?_⟩
  cases op with
  | begin mode => exact hs.begin mode hop
  | mode g => exact hs.neutral {} fun _ => trivial
  | finish g result => exact hs.complete g (.provider result) {} (fun _ => {}) fun _ _ => trivial
  | abortStart g error =>
    exact hs.complete g (.startFailed error) {} (fun _ => {}) fun _ _ => trivial
  | wait g expired => exact hs.wait g expired hop
  | pollResult g token waker => exact hs.pollResult g token waker hop
  | unregister g token => exact hs.unregister g token
  | release g => exact hs.release g hop

end

/-- **The ticket protocol holds in every run.** -/
theorem shutdown_ticket_protocol (ops : List Op)
    (hops : Meets Watched.step Watched.Allowed .new ops) :
    ∃ answers w, trace Watched.step .new ops = some (answers, w) ∧
      TicketProtocol w.past w.state := by
  obtain ⟨answers, w, hrun, hw⟩ := meets_invariant (I := fun w => Coordinated w.past w.state)
    (fun _ _ hs hop => Watched.step_coordinated hs hop) Coordinated.new hops
  exact ⟨answers, w, hrun, hw.protocol⟩

/-- The worker of the first generation cannot be started. One of its two tickets is polled before
and after that, while a second generation runs to its end. -/
def startedTwice : List Op :=
  [.begin (.graceful 5), .begin .immediate, .pollResult 1 none ⟨7⟩, .abortStart 1 "no thread",
    .begin (.graceful 5), .pollResult 1 (some 1) ⟨7⟩, .release 1, .pollResult 2 none ⟨8⟩,
    .release 1, .finish 2 (.ok .complete), .unregister 2 2, .wait 2 false, .release 2]

theorem shutdown_ticket_protocol_startedTwice :
    Meets Watched.step Watched.Allowed .new startedTwice ∧ ∃ answers w,
      trace Watched.step .new startedTwice = some (answers, w) ∧ TicketProtocol w.past w.state :=
  have hallowed : Meets Watched.step Watched.Allowed .new startedTwice := by decide +kernel
  ⟨hallowed, shutdown_ticket_protocol startedTwice hallowed⟩

end EventBus.Shutdown
