import EventBus.Local.Settlement

/-!
# Settlement tokens are sound

What every run of the sections guarantees about settlement tokens (`TokensSound`), whatever the
ids of the published events and whatever tokens the settlements are called with: tokens of this
queue, of another queue or of another provider, settled or not, before or after closing.
-/

namespace EventBus.Local

open Lib

variable {disposition : DeliveryDisposition} {token : SettlementToken} {queue : LocalQueue}
  {m : Moment} {l : Locked}

/-! ## The equations of `settle` -/

section
variable {handle : LocalSettlementHandle} {cell : LocalSettlementState}

theorem settle_foreign (h : token.belongsTo queue.id = false) :
    settle queue token disposition m l =
      some (.error (invalidTokenError (some queue.topic.value) "foreign_subscription"), l) := by
  simp only [settle, h, Bool.not_false, if_true]

theorem settle_notLocal (hb : token.belongsTo queue.id = true) (h : token.downcastRef = none) :
    settle queue token disposition m l =
      some (.error (invalidTokenError (some queue.topic.value) "unknown_token"), l) := by
  simp only [settle, hb, h, Bool.not_true, Bool.false_eq_true, if_false]

theorem settle_settled (hb : token.belongsTo queue.id = true) (hh : token.downcastRef = some handle)
    (hc : l.cells[handle.address]? = some cell) {previous : DeliveryDisposition}
    (h : cell.disposition = some previous) :
    settle queue token disposition m l = some
      (if previous = disposition then .ok ()
        else .error (invalidTokenError (some queue.topic.value) "conflicting_disposition"), l) := by
  simp only [settle, hb, hh, hc, h, Bool.not_true, Bool.false_eq_true, if_false]
  split <;> rfl

theorem settle_unknown (hb : token.belongsTo queue.id = true) (hh : token.downcastRef = some handle)
    (h : ∀ cell, l.cells[handle.address]? = some cell → cell.disposition = none ∧
      ∀ delivery, l.state.inFlight.lookup cell.tokenId = some delivery →
        delivery.settlement ≠ handle) :
    settle queue token disposition m l =
      some (.error (invalidTokenError (some queue.topic.value) "unknown_token"), l) := by
  simp only [settle, hb, hh, Bool.not_true, Bool.false_eq_true, if_false]
  cases hc : l.cells[handle.address]? with
  | none => rfl
  | some cell =>
    obtain ⟨hnone, hother⟩ := h cell hc
    simp only [hnone]
    cases hl : l.state.inFlight.lookup cell.tokenId with
    | none => rfl
    | some delivery => exact if_pos (hother delivery hl)

theorem settle_first {delivery : LocalInFlight}
    (h : Settles queue token l handle cell delivery) :
    settle queue token disposition m l =
      (settleDelivery handle cell delivery disposition m l).map (.ok (), ·) := by
  simp only [settle, h.belongs, h.handle_eq, h.cell_eq, h.unsettled, h.inFlight, h.same,
    Bool.not_true, Bool.false_eq_true, if_false, ne_eq, not_true]

end

/-! ## What is guaranteed -/

/-- Every answer to a settlement by the receiver of the queue `q`, and every effect. -/
structure SettleSound (foreign : Nat) (j : List Note) (s : Store) (q : QueueRef)
    (queue : LocalQueue) (token : SettlementToken) (disposition : DeliveryDisposition)
    (m : Moment) : Prop where
  /-- A token of another subscription. -/
  otherSubscription : token.belongsTo queue.id = false →
    s.step foreign (.settle q token disposition m) = some (.settled (some (.error
      (invalidTokenError (some queue.topic.value) "foreign_subscription"))), s)
  /-- A token that is not a local one. -/
  notLocal : token.belongsTo queue.id = true → token.downcastRef = none →
    s.step foreign (.settle q token disposition m) = some (.settled (some (.error
      (invalidTokenError (some queue.topic.value) "unknown_token"))), s)
  /-- The same settlement once more. -/
  repeated : ∀ handle, token.belongsTo queue.id = true → token.downcastRef = some handle →
    s.disposition handle.address = some disposition →
    s.step foreign (.settle q token disposition m) = some (.settled (some (.ok ())), s)
  conflicting : ∀ handle previous, token.belongsTo queue.id = true →
    token.downcastRef = some handle → s.disposition handle.address = some previous →
    previous ≠ disposition →
    s.step foreign (.settle q token disposition m) = some (.settled (some (.error
      (invalidTokenError (some queue.topic.value) "conflicting_disposition"))), s)
  /-- Not settled, and not issued by this queue or discarded when it was closed. -/
  unknown : ∀ handle, token.belongsTo queue.id = true → token.downcastRef = some handle →
    s.disposition handle.address = none →
    (queue.state.closed = true ∨ ∀ d ∈ issued j, d.queue = q → d.address ≠ handle.address) →
    s.step foreign (.settle q token disposition m) = some (.settled (some (.error
      (invalidTokenError (some queue.topic.value) "unknown_token"))), s)
  /-- Issued by this queue, not settled and not discarded. -/
  first : ∀ d ∈ issued j, d.queue = q → token.belongsTo queue.id = true →
    token.downcastRef = some ⟨d.address⟩ → s.disposition d.address = none →
    queue.state.closed = false →
    ∃ l, SettledOnce d disposition (s.lock queue) l ∧
      s.step foreign (.settle q token disposition m) =
        some (.settled (some (.ok ())), s.unlock q queue l)

/-- A message comes with a delivery that is noted and put in flight beside the others. -/
def ReceiveSound (foreign : Nat) (s : Store) (q : QueueRef) (queue : LocalQueue)
    (op : StoreOp) : Prop :=
  ∀ message s', s.step foreign op = some (.received (some (.message message)), s') →
    ∃ d queue', notes s op (.received (some (.message message))) s' = [.issued d] ∧ d.queue = q ∧
      message.settlement = some ⟨queue.id, .localSettlement ⟨d.address⟩⟩ ∧
      s'.tokenIdAt d.address = some d.token ∧ queue.state.inFlight.lookup d.token = none ∧
      s'.queues[q]? = some queue' ∧
      queue'.state.inFlight = queue.state.inFlight.insert d.token ⟨d.event, ⟨d.address⟩⟩

/-- Soundness of the tokens in the state `s` that a run with the journal `j` has reached. -/
structure TokensSound (foreign : Nat) (maxWeight : Option ℕ+) (j : List Note) (s : Store) :
    Prop where
  /-- No queue has issued a token id twice. -/
  distinct : ((issued j).map fun d => (d.queue, d.token)).Nodup
  receive : ∀ q queue resource m again waits, s.queues[q]? = some queue →
    ReceiveSound foreign s q queue (.receive q resource m again waits)
  settle : ∀ q queue token disposition m, s.queues[q]? = some queue →
    SettleSound foreign j s q queue token disposition m
  /-- A disposition stays whatever comes. -/
  fixed : ∀ ops : List StoreOp, (∀ op ∈ ops, op.Weighed maxWeight) →
    ∃ rs s', trace (Store.step foreign) s ops = some (rs, s') ∧
      ∀ address disposition, s.disposition address = some disposition →
        s'.disposition address = some disposition
  /-- Over the whole run, settlements of a delivery have given back its share once if it was
  accepted or rejected, and nothing if it was retried or not settled. -/
  released : ∀ d ∈ issued j, freed d.address j = settledShare d (s.disposition d.address)

section
variable {foreign : Nat} {maxCount : Nat} {maxWeight : Option ℕ+} {j : List Note} {s : Store}
  {q : QueueRef}

theorem Store.unlock_lock (hq : s.queues[q]? = some queue) :
    s.unlock q queue (s.lock queue) = s := by
  obtain ⟨hlt, heq⟩ := List.getElem?_eq_some_iff.1 hq
  have hset : s.queues.set q { queue with state := queue.state } = s.queues := by
    subst heq
    exact List.set_getElem_self hlt
  simp only [Store.unlock, Store.lock, hset]

/-- A settlement that is an equation of the section is one of the store. -/
theorem Store.step_settle (hq : s.queues[q]? = some queue) {r : Except SpiError Unit}
    (h : Local.settle queue token disposition m (s.lock queue) = some (r, l)) :
    s.step foreign (.settle q token disposition m) =
      some (.settled (some r), s.unlock q queue l) := by
  simp only [Store.step, Store.enter, hq, h, Option.map_some]

theorem Tokened.settleSound (h : Tokened foreign j s) (ha : Accounted maxCount maxWeight s)
    (hq : s.queues[q]? = some queue) (token : SettlementToken) (disposition : DeliveryDisposition)
    (m : Moment) : SettleSound foreign j s q queue token disposition m where
  otherSubscription hb := by
    rw [Store.step_settle hq (settle_foreign hb), Store.unlock_lock hq]
  notLocal hb hn := by
    rw [Store.step_settle hq (settle_notLocal hb hn), Store.unlock_lock hq]
  repeated handle hb hh hd := by
    obtain ⟨cell, hc, hd⟩ := Option.bind_eq_some_iff.1 hd
    rw [Store.step_settle hq (settle_settled hb hh hc hd), Store.unlock_lock hq, if_pos rfl]
  conflicting handle previous hb hh hd hne := by
    obtain ⟨cell, hc, hd⟩ := Option.bind_eq_some_iff.1 hd
    rw [Store.step_settle hq (settle_settled hb hh hc hd), Store.unlock_lock hq, if_neg hne]
  unknown handle hb hh hnone hgone := by
    have hunknown : ∀ cell, (s.lock queue).cells[handle.address]? = some cell →
        cell.disposition = none ∧ ∀ delivery,
          (s.lock queue).state.inFlight.lookup cell.tokenId = some delivery →
            delivery.settlement ≠ handle := by
      intro cell hc
      refine ⟨(Store.disposition_of_cell hc).symm.trans hnone, fun delivery hl hsame => ?_⟩
      -- what is in flight has been issued, and by a queue that is open
      obtain ⟨d, hd, hdq, -, rfl, -, hopen⟩ := (h.inFlight q queue hq _ _).1 hl
      obtain hclosed | hnew := hgone
      · rw [hclosed] at hopen
        cases hopen
      · exact hnew d hd hdq (congrArg LocalSettlementHandle.address hsame)
    rw [Store.step_settle hq (settle_unknown hb hh hunknown), Store.unlock_lock hq]
  first d hd hdq hb hh hnone hopen := by
    have hin : queue.state.inFlight.lookup d.token = some ⟨d.event, ⟨d.address⟩⟩ :=
      (h.inFlight q queue hq _ _).2 ⟨d, hd, hdq, rfl, rfl, hnone, hopen⟩
    have hset : Settles queue token (s.lock queue) ⟨d.address⟩ ⟨d.token, none⟩
        ⟨d.event, ⟨d.address⟩⟩ := ⟨hb, hh, h.unsettled_cell hd hnone, rfl, hin, rfl⟩
    obtain ⟨f, hf⟩ := ha.fits hq
    obtain ⟨l, heq, hsettled⟩ := settleDelivery_spec hf hset disposition m
    refine ⟨l, hsettled.once hf hin, Store.step_settle hq ?_⟩
    rw [settle_first hset, heq, Option.map_some]

theorem Accounted.receiveSound (ha : Accounted maxCount maxWeight s)
    (hq : s.queues[q]? = some queue) (resource : LocalQueue → LocalEvent → TopicAddress)
    (m again : Moment) (waits : Option Nat) :
    ReceiveSound foreign s q queue (.receive q resource m again waits) := by
  intro message s' hstep
  have hok := ha.queues queue (List.mem_of_getElem? hq)
  obtain ⟨r, l', heq, hr⟩ := @receive_spec (s.lock queue) queue hok.balanced resource m again waits
  have hstep' : s.step foreign (.receive q resource m again waits) =
      some (.received (some r), s.unlock q queue l') := by
    simp only [Store.step, Store.enter, hq, heq, Option.map_some]
  obtain ⟨hmessage, rfl⟩ := Prod.mk.inj (Option.some.inj (hstep'.symm.trans hstep))
  cases hr with
  | closed => cases hmessage
  | nothing => cases hmessage
  | exhausted => cases hmessage
  | @message e events state sequence hopen hs he hput =>
    have hn := notes_delivered hq state e sequence resource m again waits
    rw [hmessage] at hn
    cases hmessage
    refine ⟨_, _, hn, rfl, rfl, ?_, hok.fresh hs e, (Store.unlock_queues hq _ q).trans (if_pos rfl),
      congrArg (fun x : Map String LocalInFlight => x.insert _ _) hput.inFlight⟩
    exact congrArg _ List.getElem?_concat_length

/-- What the invariants give in every state. -/
theorem Tokened.sound (h : Tokened foreign j s) (ha : Accounted maxCount maxWeight s) :
    TokensSound foreign maxWeight j s where
  distinct := h.tokens
  receive _ _ resource m again waits hq := ha.receiveSound hq resource m again waits
  settle _ _ token disposition m hq := h.settleSound ha hq token disposition m
  fixed ops hops := by
    obtain ⟨rs, s', ht, -, hkept⟩ := trace_invariant
      (I := fun t => Accounted maxCount maxWeight t ∧ ∀ address disposition,
        s.disposition address = some disposition → t.disposition address = some disposition)
      (fun t op ⟨ht, hkept⟩ hop => by
        obtain ⟨r, t', heq, hstep, ht'⟩ := ht.step foreign hop
        exact ⟨r, t', heq, ht', fun a d hd => hstep.cells.keeps.2 d (hkept a d hd)⟩)
      ⟨ha, fun _ _ => id⟩ hops
    exact ⟨rs, s', ht, hkept⟩
  released := h.freed_eq

end

/-- **Soundness of settlement tokens.** The store has a budget with any limits and sees the cells
of other providers. No run panics, and whatever it has done, tokens are sound afterwards. -/
theorem trace_tokens_sound (maxCount : Nat) (maxWeight : Option ℕ+)
    (cells : List LocalSettlementState) (ops : List StoreOp)
    (hops : ∀ op ∈ ops, op.Weighed maxWeight) :
    ∃ rs s, trace (Store.step cells.length) (.new maxCount maxWeight cells) ops = some (rs, s) ∧
      TokensSound cells.length maxWeight
        (journal (Store.step cells.length) notes (.new maxCount maxWeight cells) ops) s := by
  obtain ⟨rs, s, ht, ha, htok⟩ := journal_invariant notes
    (I := fun j s => Accounted maxCount maxWeight s ∧ Tokened cells.length j s)
    (fun j s op ⟨ha, htok⟩ hop => by
      obtain ⟨r, s', heq, hstep, ha'⟩ := ha.step cells.length hop
      exact ⟨r, s', heq, ha', htok.step ha hstep⟩)
    (j := []) ⟨.new cells, .new cells⟩ hops
  exact ⟨rs, s, ht, htok.sound ha⟩

/-- An event whose id looks like a token id. -/
def colonEvent : LocalEvent where
  topic := ⟨"orders"⟩
  id := ⟨"a:1"⟩
  timestamp := 0
  headers := ∅
  orderingKey := none
  weightBytes := 3
  payload := ⟨⟨0⟩, 0⟩
  notBefore := none

noncomputable def earlyMoment : Moment := ⟨0, someOrder⟩

/-- A delivery is settled with a forged token, retried, received again and accepted twice. -/
noncomputable def forgedAndRetried : List StoreOp :=
  [.subscribe ⟨7⟩ ⟨"orders"⟩ ⟨"worker"⟩ 2,
    .publishTo 0 colonEvent earlyMoment,
    .receive 0 (fun queue _ => queue.topic) earlyMoment earlyMoment none,
    .settle 0 ⟨⟨7⟩, .localSettlement ⟨0⟩⟩ .accept earlyMoment,
    .settle 0 ⟨⟨7⟩, .localSettlement ⟨1⟩⟩ .retry earlyMoment,
    .receive 0 (fun queue _ => queue.topic) earlyMoment earlyMoment none,
    .settle 0 ⟨⟨7⟩, .localSettlement ⟨2⟩⟩ .accept earlyMoment,
    .settle 0 ⟨⟨7⟩, .localSettlement ⟨2⟩⟩ .accept earlyMoment]

set_option maxRecDepth 16000 in
theorem trace_tokens_sound_forged :
    let start : Store := .new 5 (some 10) [⟨"a:1:1", none⟩]
    let j := journal (Store.step 1) notes start forgedAndRetried
    (issued j).map (fun d => (d.address, d.token)) = [(1, "a:1:1"), (2, "a:1:2")] ∧
      freed 2 j = [(1, 3)] ∧
      ∃ rs s, trace (Store.step 1) start forgedAndRetried = some (rs, s) ∧
        TokensSound 1 (some 10) j s := by
  refine ⟨by decide, by decide, trace_tokens_sound 5 (some 10) [⟨"a:1:1", none⟩] forgedAndRetried
    ?_⟩
  intro op hop
  simp only [forgedAndRetried, List.mem_cons, List.not_mem_nil, or_false] at hop
  rcases hop with rfl | rfl | rfl | rfl | rfl | rfl | rfl | rfl <;> simp [StoreOp.Weighed]

end EventBus.Local
