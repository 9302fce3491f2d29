import EventBus.Local.Store

/-!
# Queues without delays

What a queue does with events that have no deadline does not depend on the clock, nor on the order
of hash map iterations: its heap stays empty (`Plain`). So the sections of two providers that have
the same store come to the same result, whenever each of them reads the clock.
-/

namespace EventBus.Local

open Lib

namespace LocalQueueState

/-- Nothing in the queue has a deadline, and a closed queue is empty. -/
structure Plain (s : LocalQueueState) : Prop where
  lanes : ∀ k lane, s.lanes.lookup k = some lane →
    lane.delayedVersion = none ∧ ∀ e ∈ lane.events, e.notBefore = none
  inFlight : ∀ t flight, s.inFlight.lookup t = some flight → flight.event.notBefore = none
  heap : s.delayedLanes = []
  liveCount : s.delayedLiveCount = 0
  staleCount : s.delayedStaleCount = 0
  closed : s.closed = true → s.lanes = ∅ ∧ s.inFlight = ∅ ∧ s.readyLanes = [] ∧ s.pendingCount = 0

theorem plain_default : Plain .default where
  lanes _ _ h := by simp [default] at h
  inFlight _ _ h := by simp [default] at h
  heap := rfl
  liveCount := rfl
  staleCount := rfl
  closed := nofun

section
variable {s : LocalQueueState} {key : QueueKey} {lane : QueueLane}

/-- The lane with its next generation, which is ready. -/
def readied (s : LocalQueueState) (key : QueueKey) (lane : QueueLane) : LocalQueueState :=
  let version := wrappingSucc lane.version
  { s with
    lanes := s.lanes.insert key { lane with version, delayedVersion := none }
    readyLanes := s.readyLanes ++ [(key, version)] }

theorem scheduleLaneHeadAt_plain (h : s.Plain) (hl : s.lanes.lookup key = some lane)
    (iter : IterOrder) (now : Nat) :
    scheduleLaneHeadAt iter now s key = some (readied s key lane) := by
  obtain ⟨hversion, hevents⟩ := h.lanes key lane hl
  have hhead : lane.headDeadline = none := by
    unfold QueueLane.headDeadline
    cases hl : lane.events with
    | nil => rfl
    | cons e events => exact hevents e (hl ▸ List.mem_cons_self)
  have hhead' : QueueLane.headDeadline
      { lane with version := wrappingSucc lane.version, delayedVersion := none } = none := hhead
  have hfew : s.delayedStaleCount ≤ max s.delayedLiveCount 8 := by
    rw [h.staleCount]
    exact Nat.zero_le _
  simp only [scheduleLaneHeadAt, hl, renewLane, hversion, Option.isSome_none, Bool.false_eq_true,
    if_false, registerHead, hhead', compactDelayedHeapIfNeeded, if_pos hfew]
  rfl

/-- Lanes, ready list and count of an open queue change. -/
theorem Plain.setLanes (h : s.Plain) (hopen : s.closed = false) {lanes : Map QueueKey QueueLane}
    (hlanes : ∀ k lane, lanes.lookup k = some lane →
      lane.delayedVersion = none ∧ ∀ e ∈ lane.events, e.notBefore = none)
    (ready : List (QueueKey × Nat)) (pending : Nat) :
    Plain { s with lanes, readyLanes := ready, pendingCount := pending } :=
  { h with
    lanes := hlanes
    closed := fun hc => by
      rw [show s.closed = true from hc] at hopen
      cases hopen }

/-- A lane of such events is put in. -/
theorem Plain.insert (h : s.Plain) (key : QueueKey) (events : List LocalEvent)
    (hv : lane.delayedVersion = none) (he : ∀ e ∈ events, e.notBefore = none)
    (hopen : s.closed = false) (ready : List (QueueKey × Nat)) (pending : Nat) :
    Plain { s with
      lanes := s.lanes.insert key { lane with events }
      readyLanes := ready, pendingCount := pending } := by
  refine h.setLanes hopen (fun k lane' hk => ?_) ready pending
  rw [Map.lookup_insert_eq] at hk
  split at hk
  · cases hk
    exact ⟨hv, he⟩
  · exact h.lanes k lane' hk

theorem Plain.readied (h : s.Plain) (hl : s.lanes.lookup key = some lane)
    (hopen : s.closed = false) : (readied s key lane).Plain :=
  @Plain.insert s { lane with version := wrappingSucc lane.version, delayedVersion := none } h key
    lane.events rfl (h.lanes key lane hl).2 hopen _ s.pendingCount

/-- The lane an event goes to. -/
theorem Plain.laneOf (h : s.Plain) (key : QueueKey) :
    ((s.lanes.lookup key).getD .default).delayedVersion = none ∧
      ∀ e ∈ ((s.lanes.lookup key).getD .default).events, e.notBefore = none := by
  cases hl : s.lanes.lookup key with
  | none => exact ⟨rfl, fun _ he => nomatch he⟩
  | some lane => exact h.lanes key lane hl

theorem enqueueBackAt_plain (h : s.Plain) (hopen : s.closed = false) {event : LocalEvent}
    (he : event.notBefore = none) :
    ∃ s', s'.Plain ∧ s'.closed = false ∧ ∀ iter now, enqueueBackAt iter now s event = some s' := by
  obtain ⟨hv, hevents⟩ := h.laneOf event.orderingKey
  have hplain := h.insert event.orderingKey
    (((s.lanes.lookup event.orderingKey).getD .default).events ++ [event]) hv
    (fun e hm => (List.mem_append.1 hm).elim (hevents e) fun hm => List.mem_singleton.1 hm ▸ he)
    hopen s.readyLanes (s.pendingCount + 1)
  unfold enqueueBackAt
  by_cases hempty : ((s.lanes.lookup event.orderingKey).getD .default).events.isEmpty
  · refine ⟨_, hplain.readied (Finmap.lookup_insert _) hopen, hopen, fun iter now => ?_⟩
    rw [if_pos hempty]
    exact scheduleLaneHeadAt_plain hplain (Finmap.lookup_insert _) iter now
  · exact ⟨_, hplain, hopen, fun iter now => by rw [if_neg hempty]⟩

theorem enqueueFrontAt_plain (h : s.Plain) (hopen : s.closed = false) {event : LocalEvent}
    (he : event.notBefore = none) :
    ∃ s', s'.Plain ∧ s'.closed = false ∧ ∀ iter now, enqueueFrontAt iter now s event = some s' := by
  obtain ⟨hv, hevents⟩ := h.laneOf event.orderingKey
  have hplain := h.insert event.orderingKey
    (event :: ((s.lanes.lookup event.orderingKey).getD .default).events) hv
    (fun e hm => (List.mem_cons.1 hm).elim (fun heq => heq ▸ he) (hevents e)) hopen s.readyLanes
    (s.pendingCount + 1)
  exact ⟨_, hplain.readied (Finmap.lookup_insert _) hopen, hopen,
    fun iter now => scheduleLaneHeadAt_plain hplain (Finmap.lookup_insert _) iter now⟩

theorem promoteDueHeads_plain (h : s.Plain) (now : Nat) : promoteDueHeads now s = some s := by
  have hdiscard : discardStaleDelayedHeads s = some s := by
    unfold discardStaleDelayedHeads
    rw [h.heap, discardLoop, ← h.heap]
  rw [promoteDueHeads, hdiscard, Option.bind_some, h.heap]
  rfl

/-- What `pop_ready` gives, at any time. -/
theorem popLoop_plain (h : s.Plain) (hopen : s.closed = false) (ready : List (QueueKey × Nat)) :
    ∃ r, (∀ iter now, popLoop iter now ready s = r) ∧ ∀ event s', r = some (event, s') →
      s'.Plain ∧ s'.closed = false ∧ ∀ e, event = some e → e.notBefore = none := by
  induction ready with
  | nil =>
    refine ⟨_, fun iter now => rfl, fun event s' heq => ?_⟩
    cases heq
    exact ⟨h.setLanes hopen h.lanes [] s.pendingCount, hopen, nofun⟩
  | cons entry ready ih =>
    obtain ⟨key, version⟩ := entry
    cases hl : s.lanes.lookup key with
    | none =>
      obtain ⟨r, hr, hspec⟩ := ih
      exact ⟨r, fun iter now => by rw [popLoop, hl]; exact hr iter now, hspec⟩
    | some lane =>
      by_cases hv : lane.version ≠ version
      · obtain ⟨r, hr, hspec⟩ := ih
        exact ⟨r, fun iter now => by simp only [popLoop, hl, if_pos hv]; exact hr iter now, hspec⟩
      obtain ⟨hversion, hevents⟩ := h.lanes key lane hl
      cases hes : lane.events with
      | nil =>
        obtain ⟨r, hr, hspec⟩ := ih
        exact ⟨r, fun iter now => by simp only [popLoop, hl, if_neg hv, hes]; exact hr iter now,
          hspec⟩
      | cons event events =>
        rw [hes] at hevents
        have hnone : event.notBefore = none := hevents event List.mem_cons_self
        have hdue : ∀ now, event.Due now := fun now d hd => by rw [hnone] at hd; cases hd
        have hrest : ∀ e ∈ events, e.notBefore = none :=
          fun e he => hevents e (List.mem_cons_of_mem _ he)
        cases hp : checkedPred s.pendingCount with
        | none =>
          refine ⟨none, fun iter now => ?_, nofun⟩
          simp only [popLoop, hl, if_neg hv, hes, hdue, not_true_eq_false, if_false, hp,
            Option.bind_none]
        | some pending =>
          by_cases hempty : events.isEmpty
          · refine ⟨some (some event, { s with
                lanes := s.lanes.erase key, readyLanes := ready, pendingCount := pending }),
              fun iter now => ?_, fun event' s' heq => ?_⟩
            · simp only [popLoop, hl, if_neg hv, hes, hdue, not_true_eq_false, if_false, hp,
                Option.bind_some, if_pos hempty]
            cases heq
            refine ⟨h.setLanes hopen (fun k lane' hk => ?_) ready pending, hopen,
              fun e he => by cases he; exact hnone⟩
            rw [Map.lookup_erase_eq] at hk
            split at hk
            · cases hk
            · exact h.lanes k lane' hk
          · have hplain := h.insert key events hversion hrest hopen ready pending
            refine ⟨some (some event, readied { s with
                  lanes := s.lanes.insert key { lane with events }
                  readyLanes := ready
                  pendingCount := pending } key { lane with events }), fun iter now => ?_,
              fun event' s' heq => ?_⟩
            · simp only [popLoop, hl, if_neg hv, hes, hdue, not_true_eq_false, if_false, hp,
                Option.bind_some, if_neg hempty]
              rw [scheduleLaneHeadAt_plain hplain (Finmap.lookup_insert _) iter now,
                Option.map_some]
            cases heq
            exact ⟨hplain.readied (Finmap.lookup_insert _) hopen, hopen,
              fun e he => by cases he; exact hnone⟩

theorem popReady_plain (h : s.Plain) (hopen : s.closed = false) :
    ∃ r, (∀ iter now, popReady iter now s = r) ∧ ∀ event s', r = some (event, s') →
      s'.Plain ∧ s'.closed = false ∧ ∀ e, event = some e → e.notBefore = none := by
  obtain ⟨r, hr, hspec⟩ := popLoop_plain h hopen s.readyLanes
  refine ⟨r, fun iter now => ?_, hspec⟩
  rw [popReady, promoteDueHeads_plain h, Option.bind_some]
  exact hr iter now

end

end LocalQueueState

/-! ## Sections -/

section
variable {queue : LocalQueue} {l : Locked}

open LocalQueueState

theorem publishTo_plain (queue : LocalQueue) (h : l.state.Plain) {event : LocalEvent}
    (he : event.notBefore = none) :
    ∃ r, (∀ m, publishTo queue event m l = r) ∧
      ∀ rejection l', r = some (rejection, l') →
        l'.state.Plain ∧ l'.state.closed = l.state.closed := by
  unfold publishTo
  cases hr : (admissionRejection queue event l).1 with
  | some rejection =>
    refine ⟨_, fun m => by simp only [hr]; rfl, fun rejection' l' heq => ?_⟩
    cases heq
    exact ⟨h, rfl⟩
  | none =>
    have hopen : l.state.closed = false := by
      by_contra hc
      rw [Bool.not_eq_false] at hc
      simp [admissionRejection, hc] at hr
    obtain ⟨s', hs', hclosed, heq⟩ := enqueueBackAt_plain h hopen he
    refine ⟨some (none, ⟨s', recordAdmission (admissionRejection queue event l).2 none, l.cells⟩),
      fun m => ?_, fun rejection' l' heq' => ?_⟩
    · simp only [hr, heq, Option.map_some]
    · cases heq'
      exact ⟨hs', hclosed.trans hopen.symm⟩

/-- A receiver that does not wait is not told how long it would have to. -/
theorem receive_nothing {resource : LocalQueue → LocalEvent → TopicAddress} {m again : Moment}
    {delay : Option (Option Nat)} {l' : Locked}
    (h : receive queue resource m again none l = some (.nothing delay, l')) : delay = none := by
  unfold receive at h
  split at h
  · cases h
  cases hpop : l.state.popReady m.iter m.now with
  | none =>
    rw [hpop] at h
    cases h
  | some popped =>
    obtain ⟨event, state⟩ := popped
    rw [hpop, Option.bind_some] at h
    cases event with
    | none =>
      cases h
      rfl
    | some event =>
      simp only at h
      split at h
      · obtain ⟨_, -, h⟩ := Option.map_eq_some_iff.1 h
        cases h
      · cases h

/-- The receivers of both providers find the same, and name an error differently at most. -/
theorem receive_plain (queue : LocalQueue) (h : l.state.Plain)
    (resource resource' : LocalQueue → LocalEvent → TopicAddress) :
    ∃ r r', (∀ m again, receive queue resource m again none l = r) ∧
      (∀ m again, receive queue resource' m again none l = r') ∧
      ((∃ e e' l', r = some (.failed e, l') ∧ r' = some (.failed e', l')) ∨ r = r') ∧
      ∀ received l', r = some (received, l') →
        l'.state.Plain ∧ l'.state.closed = l.state.closed := by
  unfold receive
  cases hclosed : l.state.closed with
  | true =>
    refine ⟨some (.closed, l), _, fun m again => rfl, fun m again => rfl, .inr rfl,
      fun received l' heq => ?_⟩
    cases heq
    exact ⟨h, hclosed⟩
  | false =>
    obtain ⟨popped, hpopped, hspec⟩ := popReady_plain h hclosed
    simp only [Bool.false_eq_true, if_false, hpopped]
    match popped, hspec with
    | none, _ => exact ⟨none, none, fun _ _ => rfl, fun _ _ => rfl, .inr rfl, nofun⟩
    | some (none, state), hspec =>
      refine ⟨some (.nothing none, { l with state }), _, fun _ _ => rfl, fun _ _ => rfl, .inr rfl,
        fun received l' heq => ?_⟩
      cases heq
      obtain ⟨hplain, hopen, -⟩ := hspec _ _ rfl
      exact ⟨hplain, hopen⟩
    | some (some event, state), hspec =>
      obtain ⟨hplain, hopen, hnone⟩ := hspec _ _ rfl
      simp only [Option.bind_some]
      cases hseq : checkedSucc state.nextDeliveryToken with
      | none =>
        obtain ⟨s', hs', hclosed', hfront⟩ := enqueueFrontAt_plain hplain hopen (hnone event rfl)
        simp only [hfront, Option.map_some]
        refine ⟨_, _, fun _ _ => rfl, fun _ _ => rfl, .inl ⟨_, _, _, rfl, rfl⟩,
          fun received l' heq => ?_⟩
        cases heq
        exact ⟨hs', hclosed'⟩
      | some sequence =>
        refine ⟨_, _, fun _ _ => rfl, fun _ _ => rfl, .inr rfl, fun received l' heq => ?_⟩
        cases heq
        refine ⟨⟨hplain.lanes, fun t flight ht => ?_, hplain.heap, hplain.liveCount,
          hplain.staleCount, fun hc => ?_⟩, hopen⟩
        · rw [Map.lookup_insert_eq] at ht
          split at ht
          · cases ht
            exact hnone event rfl
          · exact hplain.inFlight t flight ht
        · rw [show state.closed = true from hc] at hopen
          cases hopen

theorem settle_plain (queue : LocalQueue) (h : l.state.Plain) (token : SettlementToken)
    (disposition : DeliveryDisposition) :
    ∃ r, (∀ m, settle queue token disposition m l = r) ∧
      ∀ result l', r = some (result, l') →
        l'.state.Plain ∧ l'.state.closed = l.state.closed := by
  -- a refusal, or a repetition, leaves all as it is
  have hsame : ∀ result : Except SpiError Unit, ∃ r,
      (∀ _ : Moment, some (result, l) = r) ∧ ∀ result l', r = some (result, l') →
        l'.state.Plain ∧ l'.state.closed = l.state.closed :=
    fun result => ⟨_, fun _ => rfl, fun result' l' heq => by cases heq; exact ⟨h, rfl⟩⟩
  unfold settle
  split
  · exact hsame _
  · split
    · exact hsame _
    · rename_i handle _
      split
      · exact hsame _
      · rename_i cell _
        split
        · split
          · exact hsame _
          · exact hsame _
        · split
          · exact hsame _
          · rename_i delivery hdelivery
            split
            · exact hsame _
            · have hopen : l.state.closed = false := by
                by_contra hc
                rw [Bool.not_eq_false] at hc
                rw [(h.closed hc).2.1] at hdelivery
                simp at hdelivery
              have hrest :
                  Plain { l.state with inFlight := l.state.inFlight.erase cell.tokenId } := by
                refine ⟨h.lanes, fun t flight ht => ?_, h.heap, h.liveCount, h.staleCount,
                  fun hc => ?_⟩
                · rw [Map.lookup_erase_eq] at ht
                  split at ht
                  · cases ht
                  · exact h.inFlight t flight ht
                · rw [show l.state.closed = true from hc] at hopen
                  cases hopen
              unfold settleDelivery
              split
              · obtain ⟨s', hs', hclosed, hfront⟩ :=
                  enqueueFrontAt_plain hrest hopen (h.inFlight _ _ hdelivery)
                simp only [hfront, Option.map_some]
                exact ⟨_, fun _ => rfl, fun result l' heq => by
                  cases heq; exact ⟨hs', hclosed.trans hopen.symm⟩⟩
              · refine ⟨_, fun _ => rfl, fun result l' heq => ?_⟩
                rw [Option.map_map, Option.map_eq_some_iff] at heq
                obtain ⟨outstanding, -, heq⟩ := heq
                cases heq
                exact ⟨hrest, rfl⟩

/-- What a close does. -/
theorem close_false_eq {l' : Locked} {events : Multiset LocalEvent}
    (h : close false l = some (events, l')) :
    l'.state = (clearPending { l.state with closed := true }).2 ∧ l'.cells = l.cells ∧
      ∃ countUsed weightUsed, l'.outstanding = { l.outstanding with
        state := { l.outstanding.state with countUsed, weightUsed } } := by
  simp only [close, Bool.false_and, Bool.false_eq_true, if_false] at h
  obtain ⟨weight, -, h⟩ := Option.bind_eq_some_iff.1 h
  obtain ⟨outstanding, hrelease, h⟩ := Option.map_eq_some_iff.1 h
  cases h
  refine ⟨rfl, rfl, ?_⟩
  simp only [OutstandingBudget.release] at hrelease
  split at hrelease
  · cases hrelease
  split at hrelease
  · cases hrelease
  · cases hrelease
    exact ⟨_, _, rfl⟩

theorem release_zero (b : OutstandingBudget) : b.release 0 0 = some b := by
  have hzero : b.counted 0 = 0 := by simp [OutstandingBudget.counted]
  simp [OutstandingBudget.release, hzero]

/-- A queue that is closed can be closed again. -/
theorem close_closed (h : l.state.Plain) (hc : l.state.closed = true) :
    close false l = some (0, l) := by
  obtain ⟨hlanes, hflight, hready, hpending⟩ := h.closed hc
  have hclear : clearPending { l.state with closed := true } = (0, l.state) := by
    have hheap := h.heap
    have hlive := h.liveCount
    have hstale := h.staleCount
    generalize l.state = state at *
    cases state
    simp only at hlanes hflight hready hpending hheap hlive hstale hc
    subst hlanes hflight hready hpending hheap hlive hstale hc
    rfl
  have hweight : discardedWeight 0 = some 0 := rfl
  simp only [close, Bool.false_and, Bool.false_eq_true, if_false, hclear, hweight, Option.bind_some,
    Multiset.card_zero, release_zero, Option.map_some]

theorem close_plain (h : l.state.Plain) (once : Bool) :
    (close once l).map Prod.snd = (close false l).map Prod.snd ∧
      ∀ events l', close false l = some (events, l') → l'.state.Plain ∧ l'.state.closed = true := by
  refine ⟨?_, fun events l' heq => ?_⟩
  · by_cases hc : (once && l.state.closed) = true
    · have hclosed : l.state.closed = true := by
        rw [Bool.and_eq_true] at hc
        exact hc.2
      rw [close_closed h hclosed, close, if_pos hc]
    · rw [close, if_neg hc]
      rfl
  · rw [(close_false_eq heq).1]
    exact ⟨⟨fun k lane hk => by simp [clearPending] at hk,
      fun t f hf => by simp [clearPending] at hf, rfl, rfl, rfl,
      fun _ => ⟨rfl, rfl, rfl, rfl⟩⟩, rfl⟩

end

end EventBus.Local
