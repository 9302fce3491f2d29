import EventBus.Local.ProviderSteps
import EventBus.Local.SettlementRun

/-!
# Waiting for an idle topic

`wait_for_topic_idle` takes a snapshot of the topic's queues and looks at them one after the other,
each under its own lock. If no queue is busy when its turn comes, it answers that the topic is idle.
It does not look again whether something has changed since the snapshot. So a publication that comes
between two looks can give work to a queue that has been found idle, and the topic need not be idle
at any instant of the call (`idleWait_not_linearizable`). As long as nothing is given to a queue
that a pass in progress has found idle, the answer is right (`idleWait_linearizable`).
-/

namespace EventBus.Local

open Lib

variable {notes : List ProviderNote} {t : Thread Call Response} {q : QueueRef} {r r' : Roster}
  {call : Call}

/-! ## The property -/

/-- The queue has nothing pending and nothing in flight. -/
def Store.isIdle (s : Store) (q : QueueRef) : Bool :=
  (s.queues[q]?).all fun queue => !queue.state.isBusy

/-- The last snapshot of an idle wait in progress. -/
def Call.lastSnapshot : Call → Option (List QueueRef)
  | inspect _ _ _ seen queues => some (seen ++ queues)
  | busy _ _ _ queues | wait _ _ queues => some queues
  | _ => none

/-- The world after the first `k` moves. -/
def worldAfter (maxInstant foreign : Nat) (s : LocalSharedState) (moves : List (Move Request Tick))
    (k : Nat) : Option (World LocalSharedState Call Response) :=
  (provider maxInstant foreign).reached (Machine.start s) (moves.take k)

/-- Whenever a call of the run answers that its topic is idle, there has been an instant since the
call was made, and not after its return, at which all queues of its last snapshot were idle. -/
def IdleWaitsLinearize (maxInstant foreign : Nat) (s : LocalSharedState)
    (moves : List (Move Request Tick)) : Prop :=
  ∀ n i call w w', n < moves.length → worldAfter maxInstant foreign s moves n = some w →
    worldAfter maxInstant foreign s moves (n + 1) = some w' →
    w.threads[i]? = some (.running call) →
    w'.threads[i]? = some (.returned (.topicIdle true)) →
    ∃ queues, call.lastSnapshot = some queues ∧
      ∃ k ≤ n + 1, ∃ v, worldAfter maxInstant foreign s moves k = some v ∧
        i < v.threads.length ∧ ∀ q ∈ queues, v.shared.store.isIdle q = true

/-! ## When it holds -/

/-- The queues that an idle wait has found idle in its current pass. -/
def foundIdle : Thread Call Response → List QueueRef
  | .running (.inspect (.topicIdle _ _) _ _ seen _) => seen
  | _ => []

/-- The move gives nothing to a queue that a pass in progress has found idle. A publisher that is
turned away there does no harm. What a pass has found counts to its end, even where it will find
another queue busy and start over. -/
def Undisturbed (maxInstant foreign : Nat) (w : World LocalSharedState Call Response)
    (a : Move Request Tick) : Prop :=
  ∀ r ∈ (provider maxInstant foreign).move w a, ∀ t ∈ w.threads, ∀ q ∈ foundIdle t,
    admitted q (r.1.map Prod.snd) = 0

instance (maxInstant foreign : Nat) (w : World LocalSharedState Call Response)
    (a : Move Request Tick) : Decidable (Undisturbed maxInstant foreign w a) :=
  inferInstanceAs (Decidable (∀ _ ∈ (provider maxInstant foreign).move w a, ∀ _ ∈ w.threads, _))

section
variable {s : Store} {maxCount : Nat} {maxWeight : Option ℕ+}

theorem Accounted.isIdle (h : Accounted maxCount maxWeight s) (q : QueueRef) (hq : s.heldAt q = 0) :
    s.isIdle q = true := by
  unfold Store.isIdle
  cases hlookup : s.queues[q]? with
  | none => rfl
  | some queue =>
    have hbusy := (h.isBusy hlookup).2 hq
    simp [hbusy]

/-- A queue that holds nothing holds nothing after a step that is not seen to give it something. -/
theorem StoreEffect.stays_empty {s' : Store} (h : StoreEffect s notes s') (hq : s.heldAt q = 0)
    (hn : admitted q notes = 0) : s'.heldAt q = 0 := by
  have hle := h.heldAt q
  rw [hq, hn, add_zero] at hle
  exact Multiset.le_zero.1 hle

/-- What a pass of an idle wait knows: the queues it has found idle hold nothing. -/
def FoundEmpty (s : Store) (g : Stage) : Prop :=
  ∀ seen queues, g = .watching false seen queues → ∀ q ∈ seen, s.heldAt q = 0

theorem foundEmpty_step {s' : Store} {g g' : Stage} (hg : FoundEmpty s g)
    (hs : StageStep r r' g notes g') (he : StoreEffect s notes s') : FoundEmpty s' g' := by
  intro seen queues heq q hq
  -- a pass either goes on, or begins with nothing seen
  cases hs with
  | keep g => exact he.stays_empty (hg seen queues heq q hq) rfl
  | watchTopic => cases heq; cases hq
  | @sawIdle drain p seen' queues' =>
    cases heq
    obtain hq | hq := List.mem_append.1 hq
    · exact he.stays_empty (hg seen' _ rfl q hq) rfl
    · cases List.mem_singleton.1 hq
      refine he.stays_empty ?_ rfl
      cases he with
      | quiet hn => obtain h | h := hn _ List.mem_cons_self <;> cases h
      | idle hidle => exact hidle
  | @sawBusy drain => cases drain <;> cases heq
  | @sawAll drain => cases drain <;> cases heq
  | _ => cases heq

end

theorem foundIdle_of_stage {seen queues : List QueueRef}
    (h : syncView.stageOf t = .watching false seen queues) : foundIdle t = seen := by
  cases t with
  | returned value =>
    obtain hv | hv | hv := syncView.stageOf_returned value <;> rw [hv] at h <;> cases h
  | running call =>
    have hstage : call.stage = .watching false seen queues := h
    unfold Call.stage at hstage
    split at hstage <;> cases hstage
    rfl

/-- The call that answers that the topic is idle has come to the end of a pass. -/
theorem StageStep.found (h : StageStep r r' call.stage notes .found) :
    ∃ seen, call.stage = .watching false seen [] ∧ call.lastSnapshot = some seen := by
  have hstage : ∀ seen, call.stage = .watching false seen [] → call.lastSnapshot = some seen := by
    intro seen hg
    unfold Call.stage at hg
    split at hg <;> cases hg
    exact congrArg some (List.append_nil seen)
  have hnever : call.stage ≠ .found := by
    unfold Call.stage
    split <;> exact fun h => nomatch h
  generalize hg : call.stage = g at h hnever
  generalize hf : Stage.found = g' at h
  cases h with
  | keep => exact absurd hf.symm hnever
  | @sawAll drain seen =>
    cases drain with
    | false => exact ⟨seen, rfl, hstage seen hg⟩
    | true => cases hf
  | @sawBusy drain => cases drain <;> cases hf
  | _ => cases hf

/-- **When an idle wait can be relied on.** -/
theorem idleWait_linearizable (maxInstant foreign capacity maxCount : Nat) (maxWeight : Option ℕ+)
    (cells : List LocalSettlementState) (moves : List (Move Request Tick))
    (hmoves : Meets (provider maxInstant foreign).move (Undisturbed maxInstant foreign)
      (Machine.start (.new capacity maxCount maxWeight cells)) moves) :
    IdleWaitsLinearize maxInstant foreign (.new capacity maxCount maxWeight cells) moves := by
  intro n i call w w' hn hw hw' hcall hdone
  have hm := provider_staged maxInstant foreign maxCount maxWeight
  -- every pass in progress knows that what it has found idle is empty
  obtain ⟨rs, w₀, hrun, hholds⟩ := Machine.run_holds (m := provider maxInstant foreign)
    (G := fun _ s => Accounted maxCount maxWeight s.store)
    (L := fun _ s _ t => (∀ c, t = .running c → c.Weighed maxWeight) ∧
      FoundEmpty s.store (syncView.stageOf t))
    (D := Undisturbed maxInstant foreign)
    (fun _ w request _ _ => by
      obtain ⟨hweighed, hcalm⟩ := hm.enter request
      refine ⟨fun c heq => by cases heq; exact hweighed, fun seen queues heq => ?_⟩
      have hstage : syncView.stage ((provider maxInstant foreign).enter request) =
        .watching false seen queues := heq
      rw [hcalm] at hstage
      cases hstage)
    (fun j w k c x hw hc hd => by
      obtain ⟨hweighed, hfound⟩ := hw.threads k _ hc
      obtain ⟨s', t, notes, heq, hstep⟩ := hm.step w.shared k c x hw.shared (hweighed c rfl)
      refine ⟨s', t, notes, heq, hstep.accounted,
        ⟨hstep.weighed, foundEmpty_step hfound hstep.stage hstep.effect⟩, ?_⟩
      intro k' u _ hu hl
      refine ⟨hl.1, fun seen queues hg q hq => ?_⟩
      refine hstep.effect.stays_empty (hl.2 seen queues hg q hq) ?_
      have hmove : (provider maxInstant foreign).move w (.step k x) =
          some (notes.map (k, ·), ⟨s', w.threads.set k t⟩) := by
        simp only [Machine.move, hc, heq, Option.map_some]
      have hnone := hd _ hmove u (List.mem_of_getElem? hu) q (by rwa [foundIdle_of_stage hg])
      simpa [Function.comp_def] using hnone)
    (Accounted.new cells) (hmoves.take n)
  obtain ⟨⟨es, w₁⟩, ht, rfl⟩ := Option.map_eq_some_iff.1 hw
  rw [hrun] at ht
  cases ht
  obtain ⟨hweighed, hfound⟩ := hholds.threads i _ hcall
  -- the call returns with this move
  have hnext : worldAfter maxInstant foreign (.new capacity maxCount maxWeight cells) moves
      (n + 1) = _ :=
    Machine.reached_take_succ hn hw
  rw [hw'] at hnext
  obtain ⟨⟨es', w₁⟩, hmove, rfl⟩ := Option.map_eq_some_iff.1 hnext.symm
  obtain hsame | ⟨x, t, notes, -, hs, ht⟩ := Machine.move_running hcall hmove
  · rw [hdone] at hsame
    cases hsame
  rw [hdone] at ht
  cases ht
  obtain ⟨s', t, notes', heq, hstep⟩ := hm.step w₀.shared i call x hholds.shared (hweighed call rfl)
  rw [heq] at hs
  cases hs
  obtain ⟨seen, hstage, hlast⟩ := hstep.stage.found
  exact ⟨seen, hlast, n, Nat.le_succ n, w₀, hw, (List.getElem?_eq_some_iff.1 hcall).1,
    fun q hq => hholds.shared.isIdle q (hfound seen [] hstage q hq)⟩

/-! ## When it does not -/

/-- A subscription to `orders`. -/
def ordersRequest (id : Nat) : SpiSubscriptionRequest where
  subscriptionId := ⟨id⟩
  topic := ⟨"orders"⟩
  subscriberId := ⟨"worker"⟩
  group := none
  durability := .ephemeral
  startPosition := .new
  payloadTypeId := ⟨0⟩

/-- A message to `orders`. -/
def ordersMessage (id : String) : OutboundMessage where
  topic := ⟨"orders"⟩
  id := ⟨id⟩
  timestamp := 0
  headers := ∅
  orderingKey := none
  delay := none
  nativePayloadWeightBytes := none
  payload := .native ⟨⟨0⟩, 0⟩

noncomputable def earlyTick : Tick := ⟨earlyMoment, earlyMoment, .some _, false⟩

/-- The next `n` steps of thread `i`. -/
noncomputable def go (i n : Nat) : List (Move Request Tick) :=
  List.replicate n (.step i earlyTick)

/-- Two queues get message `a`. The receiver of the first one accepts it. -/
noncomputable def halfEmptied : List (Move Request Tick) :=
  [.call (.subscribe (ordersRequest 1))] ++ go 0 1 ++
  [.call (.subscribe (ordersRequest 2))] ++ go 1 1 ++
  [.call (.publish (ordersMessage "a"))] ++ go 2 4 ++
  [.call (.receive 0 0)] ++ go 3 2 ++
  [.call (.settle 0 ⟨⟨1⟩, .localSettlement ⟨0⟩⟩ .accept)] ++ go 4 2

/-- Then thread 5 waits for the topic and finds the first queue idle. Message `b` comes to both
queues, and the receiver of the second one accepts `a` and `b`; there the wait ends. -/
noncomputable def overtaken : List (Move Request Tick) :=
  halfEmptied ++
  [.call (.waitForTopicIdle ⟨"orders"⟩ none)] ++ go 5 3 ++
  [.call (.publish (ordersMessage "b"))] ++ go 6 4 ++
  [.call (.receive 1 0)] ++ go 7 2 ++
  [.call (.settle 1 ⟨⟨2⟩, .localSettlement ⟨1⟩⟩ .accept)] ++ go 8 2 ++
  [.call (.receive 1 0)] ++ go 9 2 ++
  [.call (.settle 1 ⟨⟨2⟩, .localSettlement ⟨2⟩⟩ .accept)] ++ go 10 2 ++
  go 5 2

/-- The thread has answered that its topic is idle. -/
def saysIdle : Thread Call Response → Bool
  | .returned (.topicIdle idle) => idle
  | _ => false

theorem eq_of_saysIdle (h : saysIdle t = true) : t = .returned (.topicIdle true) := by
  unfold saysIdle at h
  split at h
  · rw [h]
  · cases h

/-- The last snapshot of a thread. -/
def snapshotOf : Thread Call Response → Option (List QueueRef)
  | .running call => call.lastSnapshot
  | .returned _ => none

/-- Thread 5 has not been called yet, or one of the two queues is busy. -/
def NotBothIdle (w : World LocalSharedState Call Response) : Prop :=
  w.threads.length ≤ 5 ∨ w.shared.store.isIdle 0 = false ∨ w.shared.store.isIdle 1 = false

instance : DecidablePred NotBothIdle := fun _ => inferInstanceAs (Decidable (_ ∨ _ ∨ _))

/-- **The answer can be wrong.** -/
theorem idleWait_not_linearizable :
    ¬ IdleWaitsLinearize 100 0 (.new 4 10 none []) overtaken := by
  intro h
  have hbefore : (worldAfter 100 0 (.new 4 10 none []) overtaken 37).bind
      (fun w => (w.threads[5]?).bind snapshotOf) = some [0, 1] := by decide +kernel
  have hafter : (worldAfter 100 0 (.new 4 10 none []) overtaken 38).bind
      (fun w => (w.threads[5]?).map saysIdle) = some true := by decide +kernel
  have hbusy : Reaches (provider 100 0).move NotBothIdle (Machine.start (.new 4 10 none []))
      overtaken := by decide +kernel
  obtain ⟨w, hw, hcall⟩ := Option.bind_eq_some_iff.1 hbefore
  obtain ⟨t, ht, hsnapshot⟩ := Option.bind_eq_some_iff.1 hcall
  obtain ⟨w', hw', hdone⟩ := Option.bind_eq_some_iff.1 hafter
  obtain ⟨t', ht', hidle⟩ := Option.map_eq_some_iff.1 hdone
  cases t with
  | returned value => cases hsnapshot
  | running call =>
  obtain ⟨queues, hlast, k, -, v, hv, hi, hall⟩ := h 37 5 call w w' (by decide +kernel) hw hw' ht
    (eq_of_saysIdle hidle ▸ ht')
  cases hlast.symm.trans hsnapshot
  obtain ⟨⟨rs, v'⟩, htrace, hv'⟩ := Option.map_eq_some_iff.1 hv
  obtain rfl : v' = v := hv'
  rcases hbusy.trace_take (.inl (Nat.zero_le _)) htrace with hlen | hbusy | hbusy
  · omega
  · rw [hall 0 (by simp)] at hbusy
    cases hbusy
  · rw [hall 1 (by simp)] at hbusy
    cases hbusy

/-- Without message `b` the wait is undisturbed, and its answer is right. -/
noncomputable def undisturbed : List (Move Request Tick) :=
  halfEmptied ++
  [.call (.waitForTopicIdle ⟨"orders"⟩ none)] ++ go 5 3 ++
  [.call (.receive 1 0)] ++ go 6 2 ++
  [.call (.settle 1 ⟨⟨2⟩, .localSettlement ⟨1⟩⟩ .accept)] ++ go 7 2 ++
  go 5 2

theorem idleWait_linearizable_undisturbed :
    (worldAfter 100 0 (.new 4 10 none []) undisturbed undisturbed.length).bind
        (fun w => (w.threads[5]?).map saysIdle) = some true ∧
      IdleWaitsLinearize 100 0 (.new 4 10 none []) undisturbed := by
  refine ⟨by decide +kernel, idleWait_linearizable 100 0 4 10 none [] undisturbed ?_⟩
  decide +kernel

end EventBus.Local
