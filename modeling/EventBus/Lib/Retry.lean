import Mathlib.Data.List.Basic

/-!
# A retry engine

An engine calls an operation until it succeeds, a rule says stop, or the engine gives up. The rules
are asked in order after every failed attempt and the first decision other than `useDefault` wins
(`consult`). What else decides about a run (the policy's limits, its clock, a cancellation) is not
modelled but supplied: a `Turn` says what the next attempt meets and whether the engine stops after
it, so a list of turns stands for any policy and any point of cancellation.

The engine itself is a parameter (`Engine`), of which it is assumed that its runs are among `Runs`.
What its users need follows from that: the operation's state is that after the attempts made
(`Runs.state`), only a failure that the rules let pass is followed by another attempt
(`Runs.retried`), a value comes from the last attempt (`Runs.ok`), and a reported error from one of
the attempts (`Runs.lastError`). What becomes of a failure that no rule decides about is left to the
engine (`Engine.byDefault`); `Engine.FallbackAborts` is an assumption on it. `Engine.stepwise` is an
engine that takes its turns one by one.
-/

namespace EventBus.Lib.Retry

inductive Decision where
  | retry
  | abort
  | useDefault
deriving DecidableEq, Repr

/-- How an attempt failed: with an error, or without one because it was given up. -/
inductive AttemptFailure (E : Type) where
  | error (error : E)
  | abandoned

def AttemptFailure.asError {E : Type} : AttemptFailure E → Option E
  | error e => some e
  | abandoned => none

inductive Outcome (E V : Type) where
  | success (value : V)
  | failure (failure : AttemptFailure E)

/-- The error an attempt ended with, if any. -/
def Outcome.errors {E V : Type} : Outcome E V → List E
  | success _ => []
  | failure f => f.asError.toList

theorem Outcome.mem_errors {E V : Type} {o : Outcome E V} {e : E} :
    e ∈ o.errors ↔ o = .failure (.error e) := by
  cases o with
  | success => simp [errors]
  | failure f => cases f <;> simp [errors, AttemptFailure.asError, eq_comm]

/-- A rule decides on a failure in its context; `none` means that the rule itself panicked. -/
abbrev Rule (E C : Type) := AttemptFailure E → C → Option Decision

structure Config (E C : Type) where
  rules : List (Rule E C)
  fallback : Decision

inductive Reason where
  | aborted
  | callbackFailed
  | exhausted
  | cancelled
  | timeFailed
deriving DecidableEq, Repr

structure RetryError (E : Type) where
  reason : Reason
  lastError : Option E

/-- What the next attempt meets. -/
structure Turn (P C : Type) where
  /-- What the operation is answered. -/
  reply : P
  /-- What the rules see besides the failure. -/
  context : C
  /-- The engine gives up after this attempt. -/
  stops : Bool

def Turn.map {P Q C : Type} (f : P → Q) (turn : Turn P C) : Turn Q C :=
  ⟨f turn.reply, turn.context, turn.stops⟩

/-- How a run ends when the engine gives up, and which of the errors it has seen, counted from
the last one, a failed run reports. -/
structure Ending where
  reason : Reason
  retained : Option Nat

/-- What a run did. -/
structure Execution (P S E V : Type) where
  /-- What the attempts met, in order. -/
  made : List P
  state : S
  result : Except (RetryError E) V

def Execution.map {P Q S E V : Type} (f : P → Q) (x : Execution P S E V) : Execution Q S E V :=
  ⟨x.made.map f, x.state, x.result⟩

section
variable {P C S E V : Type}

/-- The first decision other than `useDefault` wins; a panic ends the consultation. -/
def consult (failure : AttemptFailure E) (context : C) : List (Rule E C) → Option Decision
  | [] => some .useDefault
  | rule :: rules =>
    match rule failure context with
    | some .useDefault => consult failure context rules
    | answer => answer

/-- Another attempt may follow the failure: the rules say so, or they leave it to `byDefault`. -/
def goesOn (rules : List (Rule E C)) (byDefault : AttemptFailure E → C → Bool)
    (failure : AttemptFailure E) (context : C) : Bool :=
  match consult failure context rules with
  | some .retry => true
  | some .abort => false
  | some .useDefault | none => byDefault failure context

section
variable (rules : List (Rule E C)) (byDefault : AttemptFailure E → C → Bool)
  (op : P → S → Outcome E V × S)

/-- What a run can be: the four ways an execution starts and goes on. The errors seen so far are
listed with the last one first; a failed run reports one of them or none. -/
inductive Runs : List E → S → Execution P S E V → Prop where
  /-- The engine gives up before the next attempt. -/
  | gaveUp {errors : List E} (s : S) {error : RetryError E} : error.lastError.toList ⊆ errors →
    Runs errors s ⟨[], s, .error error⟩
  | succeeded {p : P} {s s' : S} {value : V} (errors : List E) :
    op p s = (.success value, s') → Runs errors s ⟨[p], s', .ok value⟩
  /-- No attempt follows this one, and the run fails. -/
  | failed {p : P} {s s' : S} {outcome : Outcome E V} {errors : List E} {error : RetryError E} :
    op p s = (outcome, s') → error.lastError.toList ⊆ outcome.errors ++ errors →
    Runs errors s ⟨[p], s', .error error⟩
  | again {p : P} {s s' : S} {failure : AttemptFailure E} {errors : List E} {context : C}
    {rest : Execution P S E V} : op p s = (.failure failure, s') →
    goesOn rules byDefault failure context = true →
    Runs (failure.asError.toList ++ errors) s' rest →
    Runs errors s { rest with made := p :: rest.made }

end

end

/-- A retry engine. -/
structure Engine where
  /-- It goes on after a failure that the rules leave to it. -/
  byDefault : {E C : Type} → Config E C → AttemptFailure E → C → Bool
  run : {P C S E V : Type} → Config E C → (P → S → Outcome E V × S) → Ending → List (Turn P C) →
    S → Execution P S E V
  runs : ∀ {P C S E V : Type} (config : Config E C) (op : P → S → Outcome E V × S) (ending : Ending)
    (turns : List (Turn P C)) (s : S),
    Runs config.rules (byDefault config) op [] s (run config op ending turns s)
  /-- A run only depends on what the operation makes of the replies. -/
  run_map : ∀ {P Q C S E V : Type} (config : Config E C) {op : P → S → Outcome E V × S}
    {op' : Q → S → Outcome E V × S} (ending : Ending) {f : P → Q}, (∀ p, op' (f p) = op p) →
    ∀ (turns : List (Turn P C)) (s : S),
      run config op' ending (turns.map (Turn.map f)) s = (run config op ending turns s).map f

section
variable {P C S E V : Type}

/-- A failed run. `errors` are the errors of its attempts, the last one first. -/
def Ending.fail (ending : Ending) (reason : Reason) (errors : List E) : RetryError E :=
  ⟨reason, ending.retained.bind (errors[·]?)⟩

variable (config : Config E C) (op : P → S → Outcome E V × S) (ending : Ending)

/-- The run over the given turns. When they are used up, the engine gives up before another
attempt. -/
def run : List (Turn P C) → List E → S → Execution P S E V
  | [], errors, s => ⟨[], s, .error (ending.fail ending.reason errors)⟩
  | turn :: turns, errors, s =>
    match op turn.reply s with
    | (.success value, s) =>
      ⟨[turn.reply], s,
        if turn.stops then .error (ending.fail ending.reason errors) else .ok value⟩
    | (.failure failure, s) =>
      let errors := failure.asError.toList ++ errors
      if turn.stops then ⟨[turn.reply], s, .error (ending.fail ending.reason errors)⟩
      else if goesOn config.rules (fun _ _ => config.fallback = .retry) failure turn.context then
        let rest := run turns errors s
        { rest with made := turn.reply :: rest.made }
      else ⟨[turn.reply], s, .error (ending.fail .aborted errors)⟩

theorem run_map {Q : Type} {op' : Q → S → Outcome E V × S} {f : P → Q}
    (hop : ∀ p, op' (f p) = op p) (turns : List (Turn P C)) (errors : List E) (s : S) :
    run config op' ending (turns.map (Turn.map f)) errors s =
      (run config op ending turns errors s).map f := by
  induction turns generalizing errors s with
  | nil => rfl
  | cons turn turns ih =>
    simp only [List.map_cons, run, Turn.map, hop]
    cases hr : op turn.reply s with
    | mk outcome s' =>
      cases outcome with
      | success => rfl
      | failure failure =>
        simp only [ih]
        split
        · rfl
        · split <;> rfl

/-- A failed run reports one of the errors it has seen. -/
theorem Ending.fail_subset (ending : Ending) (reason : Reason) (errors : List E) :
    (ending.fail reason errors).lastError.toList ⊆ errors := by
  intro e he
  rw [Option.mem_toList, Ending.fail, Option.bind_eq_some_iff] at he
  obtain ⟨n, -, hn⟩ := he
  exact List.mem_of_getElem? hn

theorem run_runs (turns : List (Turn P C)) (errors : List E) (s : S) :
    Runs config.rules (fun _ _ => config.fallback = .retry) op errors s
      (run config op ending turns errors s) := by
  induction turns generalizing errors s with
  | nil => exact .gaveUp s (ending.fail_subset _ errors)
  | cons turn turns ih =>
    unfold run
    split
    · rename_i value s' hop
      split
      · exact .failed hop (ending.fail_subset _ errors)
      · exact .succeeded errors hop
    · rename_i failure s' hop
      split
      · exact .failed hop (ending.fail_subset _ _)
      split
      · rename_i hgoes
        exact .again hop hgoes (ih _ _)
      · exact .failed hop (ending.fail_subset _ _)

/-- The engine that takes its turns one by one. -/
def Engine.stepwise : Engine where
  byDefault config _ _ := config.fallback = .retry
  run config op ending turns s := Retry.run config op ending turns [] s
  runs config op ending turns s := run_runs config op ending turns [] s
  run_map config _ _ ending _ hop turns s := Retry.run_map config _ ending hop turns [] s

variable {rules : List (Rule E C)} {byDefault : AttemptFailure E → C → Bool}
  {op : P → S → Outcome E V × S} {errors : List E} {s : S} {x : Execution P S E V}

/-- The operation's state is that after the attempts made. -/
theorem Runs.state (h : Runs rules byDefault op errors s x) :
    x.state = x.made.foldl (fun s p => (op p s).2) s := by
  induction h with
  | gaveUp => rfl
  | succeeded _ hop | failed hop => simp [hop]
  | again hop _ _ ih => simp only [List.foldl_cons, hop, ih]

/-- An attempt that another one follows failed, and the rules let the failure pass. -/
theorem Runs.retried (h : Runs rules byDefault op errors s x) {made post : List P} {p : P}
    (hm : x.made = made ++ p :: post) (hpost : post ≠ []) :
    ∃ s c f, (op p s).1 = .failure f ∧ goesOn rules byDefault f c = true := by
  -- a run of one attempt has no attempt that another one follows
  have hone : ∀ (made : List P) (q : P), [q] ≠ made ++ p :: post := fun made q h => by
    have := congrArg List.length h
    have := List.length_pos_of_ne_nil hpost
    simp only [List.length_append, List.length_cons, List.length_nil] at *
    omega
  induction h generalizing made with
  | gaveUp => simp at hm
  | succeeded | failed => exact absurd hm (hone made _)
  | @again q s s' f errors context rest hop hgoes _ ih =>
    cases made with
    | nil =>
      cases hm
      exact ⟨s, context, f, by rw [hop], hgoes⟩
    | cons q' made =>
      obtain ⟨-, hm⟩ := List.cons_eq_cons.1 hm
      exact ih hm

/-- A value is that of the last attempt. -/
theorem Runs.ok (h : Runs rules byDefault op errors s x) {value : V} (hx : x.result = .ok value) :
    ∃ made p s', x.made = made ++ [p] ∧ (op p s').1 = .success value := by
  induction h with
  | gaveUp => cases hx
  | @succeeded p s _ _ _ hop =>
    cases hx
    exact ⟨[], p, s, rfl, by rw [hop]⟩
  | failed => cases hx
  | again _ _ _ ih =>
    obtain ⟨made, p, s', hm, hv⟩ := ih hx
    exact ⟨_ :: made, p, s', by rw [hm]; rfl, hv⟩

/-- A reported error is the error of an attempt. -/
theorem Runs.lastError (h : Runs rules byDefault op errors s x) {error : RetryError E} {e : E}
    (hx : x.result = .error error) (he : error.lastError = some e) :
    e ∈ errors ∨ ∃ p s', p ∈ x.made ∧ (op p s').1 = .failure (.error e) := by
  have hmem : ∀ {errors : List E}, error.lastError.toList ⊆ errors → e ∈ errors := fun hsub =>
    hsub (Option.mem_toList.2 he)
  induction h with
  | gaveUp s hsub =>
    cases hx
    exact .inl (hmem hsub)
  | succeeded => cases hx
  | @failed p s s' outcome errors error hop hsub =>
    cases hx
    obtain hm | hm := List.mem_append.1 (hmem hsub)
    · exact .inr ⟨p, s, List.mem_singleton_self p, by rw [hop]; exact Outcome.mem_errors.1 hm⟩
    · exact .inl hm
  | @again p s s' f errors context rest hop _ _ ih =>
    obtain hm | ⟨q, s'', hq, ho⟩ := ih hx
    · obtain hm | hm := List.mem_append.1 hm
      · refine .inr ⟨p, s, List.mem_cons_self, ?_⟩
        rw [hop]
        exact Outcome.mem_errors.1 hm
      · exact .inl hm
    · exact .inr ⟨q, s'', List.mem_cons_of_mem _ hq, ho⟩

end

end EventBus.Lib.Retry
