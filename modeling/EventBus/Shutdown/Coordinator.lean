import EventBus.Spi

/-!
# The shutdown coordinator

`shutdown_coordinator.rs`. Callers of the synchronous bus's shutdown share one attempt, a
*generation*. The first caller starts it, and callers that come while it is active join it. Each of
them holds a ticket of the generation; the result is kept until the last ticket is released. All
operations are sections of one mutex, so each is a function of `ShutdownCoordinatorState`.
-/

namespace EventBus.Shutdown

open Lib

/-- How an attempt ended (`shutdown_result.rs`). -/
inductive ShutdownResult where
  | provider (result : Except SpiError ShutdownOutcome)
  /-- The worker thread could not be started. -/
  | startFailed (error : String)

/-- The waker of a task. -/
structure Waker where
  task : Nat
deriving DecidableEq, Repr

inductive Poll (A : Type) where
  | ready (value : A)
  | pending

/-- `u64::wrapping_add(1)`. -/
def wrappingSucc (n : Nat) : Nat := (n + 1) % 2 ^ 64

structure ShutdownCoordinatorState where
  /-- A worker owns an attempt. -/
  active : Bool
  generation : Nat
  /-- The strongest mode asked for in the active generation. -/
  mode : ShutdownMode
  /-- The number of tickets of each generation. -/
  waiters : Map Nat Nat
  nextRegistration : Nat
  /-- Futures that wait, by generation and registration. -/
  wakers : Map Nat (Map Nat Waker)
  results : Map Nat ShutdownResult

namespace ShutdownCoordinatorState

def new : ShutdownCoordinatorState where
  active := false
  generation := 0
  mode := .immediate
  waiters := ∅
  nextRegistration := 0
  wakers := ∅
  results := ∅

/-- `*waiters.entry(generation).or_default() += 1` -/
def addWaiter (s : ShutdownCoordinatorState) (generation : Nat) : ShutdownCoordinatorState :=
  { s with waiters := s.waiters.insert generation ((s.waiters.lookup generation).getD 0 + 1) }

/-- Whether the caller starts the worker, and its generation. -/
def begin (s : ShutdownCoordinatorState) (mode : ShutdownMode) :
    (Bool × Nat) × ShutdownCoordinatorState :=
  if s.active then
    let s := if mode = .immediate then { s with mode := .immediate } else s
    ((false, s.generation), s.addWaiter s.generation)
  else
    let generation := wrappingSucc s.generation
    ((true, generation), { s with active := true, generation, mode }.addWaiter generation)

/-- The method `mode`. -/
def modeOf (s : ShutdownCoordinatorState) (generation : Nat) : ShutdownMode :=
  if s.generation = generation then s.mode else .immediate

/-- The wakers that are woken outside the lock, each of them whatever the others do; `none` if the
generation is stale or not active. -/
def complete (s : ShutdownCoordinatorState) (generation : Nat) (result : ShutdownResult) :
    Option (Map Nat Waker) × ShutdownCoordinatorState :=
  if s.generation ≠ generation ∨ s.active = false then (none, s)
  else
    let results := if (s.waiters.lookup generation).isSome then s.results.insert generation result
      else s.results
    (some ((s.wakers.lookup generation).getD ∅),
      { s with results, active := false, wakers := s.wakers.erase generation })

def finish (s : ShutdownCoordinatorState) (generation : Nat)
    (result : Except SpiError ShutdownOutcome) :
    Option (Map Nat Waker) × ShutdownCoordinatorState :=
  s.complete generation (.provider result)

def abortStart (s : ShutdownCoordinatorState) (generation : Nat) (error : String) :
    Option (Map Nat Waker) × ShutdownCoordinatorState :=
  s.complete generation (.startFailed error)

/-- One round of the loop of `wait`; `none` if it goes on waiting. -/
def wait (s : ShutdownCoordinatorState) (generation : Nat) (expired : Bool) :
    Option (Bool × Option ShutdownResult) :=
  if s.active = false ∨ s.generation ≠ generation then some (false, s.results.lookup generation)
  else if expired then some (true, none)
  else none

/-- The answer, the caller's token and the waker that was replaced. -/
def pollResult (s : ShutdownCoordinatorState) (generation : Nat) (token : Option Nat)
    (nextWaker : Waker) :
    (Poll (Option ShutdownResult) × Option Nat × Option Waker) × ShutdownCoordinatorState :=
  match s.results.lookup generation with
  | some result => ((.ready (some result), token, none), s)
  | none =>
    if s.active = false ∨ s.generation ≠ generation then ((.ready none, token, none), s)
    else
      let (registration, s) := match token with
        | some registration => (registration, s)
        | none =>
          let nextRegistration := wrappingSucc s.nextRegistration
          (nextRegistration, { s with nextRegistration })
      let slots := (s.wakers.lookup generation).getD ∅
      ((.pending, some registration, slots.lookup registration),
        { s with wakers := s.wakers.insert generation (slots.insert registration nextWaker) })

/-- The waker that was removed. -/
def unregister (s : ShutdownCoordinatorState) (generation token : Nat) :
    Option Waker × ShutdownCoordinatorState :=
  match s.wakers.lookup generation with
  | none => (none, s)
  | some slots =>
    let removed := slots.lookup token
    let slots := slots.erase token
    let wakers := if slots = ∅ then s.wakers.erase generation else s.wakers.insert generation slots
    (removed, { s with wakers })

/-- What was kept for the generation, if this was its last ticket. -/
def release (s : ShutdownCoordinatorState) (generation : Nat) :
    Option (Option ShutdownResult × Option (Map Nat Waker)) × ShutdownCoordinatorState :=
  match s.waiters.lookup generation with
  | none => (none, s)
  | some waiters =>
    if waiters - 1 = 0 then
      (some (s.results.lookup generation, s.wakers.lookup generation),
        { s with
          waiters := s.waiters.erase generation
          results := s.results.erase generation
          wakers := s.wakers.erase generation })
    else (none, { s with waiters := s.waiters.insert generation (waiters - 1) })

end ShutdownCoordinatorState

end EventBus.Shutdown
