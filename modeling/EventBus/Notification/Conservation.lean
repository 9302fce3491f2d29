import EventBus.Notification.Publisher

/-!
# Conservation of notifications

In every interleaving of callers and worker, the weight that is charged is the weight of the entries
in the channel, of the one the worker has, and of those that calls in progress hold (`Sound.used`).
Entries leave the channel in the order in which they were accepted, and if `close` returns `Ok` the
worker has made a request of each (`Conserved`).

A call that is rejected because the channel is full lets go of the `sender` mutex before it drops
its reservation, so `close` may come between the two and return while weight is still charged
(`close_leaves_weight`).
-/

namespace EventBus.Notification

open Lib

variable {i k : Nat} {T : Type} {s s' : NotificationPublisher T} {t : Thread (Call T) (Response T)}

abbrev History (T : Type) := List (Nat × Note T)

/-! ## Reading a history -/

/-- The payloads that were accepted, in order. -/
def acceptedOf (j : History T) : List T :=
  j.filterMap fun n => match n.2 with
    | .accepted payload => some payload
    | _ => none

/-- The payloads of which the worker has made a request, in order. -/
def handledOf (j : History T) : List T :=
  j.filterMap fun n => match n.2 with
    | .handled payload => some payload
    | _ => none

/-- What a thread has counted. -/
def countsOf (i : Nat) (j : History T) : List Counter :=
  j.filterMap fun
    | (k, .counted counter) => if k = i then some counter else none
    | _ => none

def Note.isCounted (counter : Counter) : Note T → Bool
  | .counted c => c = counter
  | _ => false

/-- How often a counter was incremented. -/
def countOf (counter : Counter) (j : History T) : Nat := j.countP fun n => n.2.isCounted counter

/-- Nothing is accepted after the sender was taken. -/
def Shut (j : History T) : Prop :=
  ∀ j₁ i j₂, j = j₁ ++ (i, .taken) :: j₂ → acceptedOf j₂ = []

section
variable (j j' : History T) (i : Nat)

theorem acceptedOf_append : acceptedOf (j ++ j') = acceptedOf j ++ acceptedOf j' :=
  List.filterMap_append

theorem handledOf_append : handledOf (j ++ j') = handledOf j ++ handledOf j' :=
  List.filterMap_append

theorem countsOf_append : countsOf i (j ++ j') = countsOf i j ++ countsOf i j' :=
  List.filterMap_append

theorem countOf_append (counter : Counter) :
    countOf counter (j ++ j') = countOf counter j + countOf counter j' := List.countP_append

theorem countsOf_others {i : Nat} (h : k ≠ i) (notes : List (Note T)) :
    countsOf i (notes.map (k, ·)) = [] := by
  unfold countsOf
  rw [List.filterMap_eq_nil_iff]
  intro n hn
  obtain ⟨note, -, rfl⟩ := List.mem_map.1 hn
  cases note <;> simp [h]

end

variable {j : History T}

theorem Shut.append (h : Shut j) {n : Nat × Note T}
    (hn : ∀ payload, n.2 = .accepted payload → ∀ i, (i, .taken) ∉ j) : Shut (j ++ [n]) := by
  intro j₁ i j₂ heq
  obtain ⟨b, hj, rfl⟩ | ⟨a, -, hcons⟩ := append_eq_append_cons heq
  · rw [acceptedOf_append, h j₁ i b hj, List.nil_append]
    obtain ⟨k, note⟩ := n
    cases note with
    | accepted payload => exact absurd (by rw [hj]; simp) (hn payload rfl i)
    | handled | counted | taken => rfl
  · cases a with
    | nil =>
      rw [List.nil_append, List.cons.injEq] at hcons
      rw [← hcons.2]
      rfl
    | cons m a => simp at hcons

/-! ## Weights -/

def weight (reservation : Option ℕ+) : Nat := reservation.elim 0 fun w => (w : Nat)

def weights (items : List (QueuedNotification T)) : Nat :=
  (items.map fun entry => weight entry.reservation).sum

/-- What is charged. -/
def NotificationPublisher.used (s : NotificationPublisher T) : Nat :=
  s.weightBudget.elim 0 WeightBudget.used

/-- The weight the worker has. -/
def Worker.held : Worker T → Nat
  | .handling entry => weight entry.reservation
  | .counting _ r | .recording _ r | .observing r | .blaming r | .releasing r
  | .unwinding r => weight r
  | _ => 0

/-- The weight a call in progress has. -/
def heldBy : Thread (Call T) (Response T) → Nat
  | .running (.admission (.sending entry)) => weight entry.reservation
  | .running (.admission (.counting _ r)) | .running (.admission (.unlocking _ r))
  | .running (.admission (.dropping _ r)) => weight r
  | _ => 0

/-- An entry that is accepted but not counted yet. -/
def uncounted : Thread (Call T) (Response T) → Nat
  | .running (.admission (.counting (.ok _) _)) => 1
  | _ => 0

/-- The same for the worker and a request. -/
def Worker.uncounted : Worker T → Nat
  | .counting _ _ => 1
  | _ => 0

theorem weights_append (items items' : List (QueuedNotification T)) :
    weights (items ++ items') = weights items + weights items' := by
  simp [weights]

theorem weights_cons (entry : QueuedNotification T) (items : List (QueuedNotification T)) :
    weights (entry :: items) = weight entry.reservation + weights items := by
  simp [weights]

theorem used_reserve {w r : ℕ+} {budget : WeightBudget}
    (h : s.weightBudget.bind (·.reserve w) = some (budget, r)) :
    r = w ∧ budget.used = s.used + w ∧ budget.used ≤ budget.limit := by
  obtain ⟨b, hb, hr⟩ := Option.bind_eq_some_iff.1 h
  unfold WeightBudget.reserve at hr
  simp only at hr
  split at hr
  · rename_i hfits
    cases hr
    refine ⟨rfl, ?_, hfits.2⟩
    simp [NotificationPublisher.used, hb]
  · cases hr

/-- A reservation that is charged can be dropped. -/
theorem release_spec {r : Option ℕ+} (h : weight r ≤ s.used) :
    ∃ budget, s.release r = some { s with weightBudget := budget } ∧
      budget.elim 0 WeightBudget.used + weight r = s.used ∧
      ∀ b, budget = some b →
        ∃ b₀, s.weightBudget = some b₀ ∧ b.used ≤ b₀.used ∧ b.limit = b₀.limit := by
  cases r with
  | none => exact ⟨s.weightBudget, rfl, rfl, fun b hb => ⟨b, hb, le_rfl, rfl⟩⟩
  | some w =>
    have hw : (w : Nat) ≤ s.used := h
    have hpos := w.pos
    cases hb : s.weightBudget with
    | none =>
      rw [NotificationPublisher.used, hb, Option.elim_none] at hw
      omega
    | some b =>
      rw [NotificationPublisher.used, hb, Option.elim_some] at hw
      refine ⟨some { b with used := b.used - w }, ?_, ?_, ?_⟩
      · simp [NotificationPublisher.release, hb, WeightBudget.release, hw]
      · simp only [Option.elim_some, weight, NotificationPublisher.used, hb]
        omega
      · rintro b' hb'
        cases hb'
        exact ⟨b, rfl, Nat.sub_le _ _, rfl⟩

/-! ## The worker -/

/-- The payload the worker has taken and not handled. -/
def Worker.pending : Worker T → List T
  | .handling entry => [entry.payload]
  | _ => []

/-- No accepted entry was dropped. -/
def Worker.intact : Worker T → Bool
  | .unwinding _ | .abandoning | .discarding => false
  | .exiting exit | .leaving exit | .finished exit => exit = .drained
  | _ => true

/-- The loop has ended by itself. -/
def Worker.drained : Worker T → Bool
  | .cleaning | .disposing => true
  | .exiting exit | .leaving exit | .finished exit => exit = .drained
  | _ => false

/-- What the worker has left in `WorkerState`. -/
def Worker.left : Worker T → Option WorkerExit
  | .leaving exit | .finished exit => some exit
  | _ => none

/-! ## Invariants -/

/-- What holds of the state; `n` is the weight calls in progress have, and the number of entries
they have not counted. -/
structure Sound (j : History T) (n : Nat × Nat) (s : NotificationPublisher T) : Prop where
  used : s.used = weights s.channel.items + s.worker.held + n.1
  limit : ∀ b, s.weightBudget = some b → b.used ≤ b.limit
  counters : ∀ c, s.stats.load c = min (countOf c j) maxCount
  enqueued : (acceptedOf j).length = countOf .enqueued j + n.2
  handled : (handledOf j).length = countOf .published j + countOf .publishErrors j +
    countOf .requestErrors j + s.worker.uncounted
  ahead : handledOf j ++ s.worker.pending <+: acceptedOf j
  order : s.worker.intact →
    acceptedOf j = handledOf j ++ s.worker.pending ++ s.channel.items.map QueuedNotification.payload
  drained : s.worker.drained → s.channel.items = [] ∧ s.sender = false
  connected : s.channel.sender = false → s.sender = false
  taken : ∀ i, (i, .taken) ∈ j → s.sender = false
  shut : Shut j
  exit : s.exit = s.worker.left

/-- What holds of a thread. -/
def Stage (j : History T) (s : NotificationPublisher T) (i : Nat) :
    Thread (Call T) (Response T) → Prop
  | .running (.admission a) =>
    match a with
    | .locking _ _ => countsOf i j = []
    | .reserving _ _ => s.lock = some i ∧ countsOf i j = []
    | .sending _ => s.lock = some i ∧ s.sender = true ∧ countsOf i j = []
    | .counting verdict _ =>
      s.lock = some i ∧ (verdict = .ok () → s.sender = true) ∧ countsOf i j = []
    | .unlocking verdict _ => s.lock = some i ∧ countsOf i j = [verdictCounter verdict]
    | .dropping verdict _ => countsOf i j = [verdictCounter verdict]
  | .running (.closing (.dropping _ _)) => s.sender = false
  | .running (.closing (.joining _ exit)) | .running (.closing (.joined exit)) => s.exit = some exit
  | .returned (.tried verdict) => countsOf i j = [verdictCounter verdict]
  | .returned (.closed (.ok _)) => s.exit = some .drained
  | _ => True

/-- What a step of another thread leaves to thread `k`. -/
structure Frame (k : Nat) (s s' : NotificationPublisher T) : Prop where
  lock : s.lock = some k → s'.lock = some k ∧ s'.sender = s.sender
  sender : s.sender = false → s'.sender = false
  exit : ∀ e, s.exit = some e → s'.exit = some e

theorem Frame.refl (k : Nat) (s : NotificationPublisher T) : Frame k s s :=
  ⟨fun h => ⟨h, rfl⟩, id, fun _ h => h⟩

theorem Stage.others (hk : i ≠ k) (notes : List (Note T)) (hf : Frame k s s') (h : Stage j s k t) :
    Stage (j ++ notes.map (i, ·)) s' k t := by
  have hcounts : countsOf k (j ++ notes.map (i, ·)) = countsOf k j := by
    rw [countsOf_append, countsOf_others hk, List.append_nil]
  cases t with
  | running c =>
    cases c with
    | admission a =>
      cases a with
      | locking | dropping =>
        simp only [Stage, hcounts] at h ⊢
        exact h
      | reserving | unlocking =>
        simp only [Stage, hcounts] at h ⊢
        exact ⟨(hf.lock h.1).1, h.2⟩
      | sending | counting =>
        simp only [Stage, hcounts] at h ⊢
        obtain ⟨hlock, hsender⟩ := hf.lock h.1
        rw [hsender]
        exact ⟨hlock, h.2⟩
    | closing c =>
      cases c with
      | joining _ exit | joined exit => exact hf.exit exit h
      | dropping => exact hf.sender h
      | checking | taking | awaiting => exact trivial
    | work => exact trivial
  | returned r =>
    cases r with
    | tried verdict =>
      simp only [Stage, hcounts] at h ⊢
      exact h
    | closed result =>
      cases result with
      | ok => exact hf.exit .drained h
      | error => exact trivial
    | worked => exact trivial

/-! ## Steps -/

section
variable {entry : QueuedNotification T} {old : Worker T} {n : Nat × Nat}

theorem increment_load {c c' : Counter} (h : ∀ c, s.stats.load c = min (countOf c j) maxCount) :
    (s.stats.increment c').load c = min (countOf c (j ++ [(i, .counted c')])) maxCount := by
  rw [countOf_append]
  unfold NotificationStats.increment
  by_cases hc : c = c'
  · subst hc
    have hone : countOf c [(i, (.counted c : Note T))] = 1 := by simp [countOf, Note.isCounted]
    simp only [if_true, h c, hone]
    omega
  · have hnone : countOf c [(i, (.counted c' : Note T))] = 0 := by
      simp [countOf, Note.isCounted, Ne.symm hc]
    simp only [if_neg hc, hnone, Nat.add_zero]
    exact h c

/-- Only reservations change hands. -/
theorem Sound.charge (h : Sound j n s) {budget : Option WeightBudget} {m : Nat}
    (hused : budget.elim 0 WeightBudget.used = weights s.channel.items + s.worker.held + m)
    (hlimit : ∀ b, budget = some b → b.used ≤ b.limit) :
    Sound j (m, n.2) { s with weightBudget := budget } :=
  ⟨hused, hlimit, h.counters, h.enqueued, h.handled, h.ahead, h.order, h.drained, h.connected,
    h.taken, h.shut, h.exit⟩

/-- A counter that does not take part in the balance, or is balanced by `m` and `worker`. -/
theorem Sound.count (h : Sound j n s) (hw : s.worker = old) (c : Counter) (worker : Worker T)
    {m : Nat} (henqueued : n.2 = (if c = .enqueued then 1 else 0) + m) (hhandled : old.uncounted =
      (if c = .published ∨ c = .publishErrors ∨ c = .requestErrors then 1 else 0) +
        worker.uncounted)
    (hheld : worker.held = old.held) (hpending : worker.pending = old.pending)
    (hintact : worker.intact → old.intact) (hdrained : worker.drained → old.drained)
    (hleft : worker.left = old.left) :
    Sound (j ++ [(i, .counted c)]) (n.1, m) { s.count c with worker } := by
  subst hw
  have haccepted : acceptedOf (j ++ [(i, .counted c)]) = acceptedOf j := by
    rw [acceptedOf_append]
    exact List.append_nil _
  have hhandledOf : handledOf (j ++ [(i, .counted c)]) = handledOf j := by
    rw [handledOf_append]
    exact List.append_nil _
  refine ⟨?_, h.limit, fun _ => increment_load h.counters, ?_, ?_, ?_, fun hi => ?_,
    fun hd => h.drained (hdrained hd), h.connected, fun k hk => h.taken k (by simpa using hk),
    h.shut.append (fun _ hn => nomatch hn), ?_⟩
  · show s.used = _
    rw [h.used, hheld]
    rfl
  · rw [haccepted, h.enqueued, henqueued, countOf_append]
    cases c <;> simp [countOf, Note.isCounted, Nat.add_assoc]
  · rw [hhandledOf, h.handled, hhandled, countOf_append, countOf_append, countOf_append]
    cases c <;> simp [countOf, Note.isCounted] <;> omega
  · rw [haccepted, hhandledOf]
    simp only [hpending]
    exact h.ahead
  · rw [haccepted, hhandledOf, h.order (hintact hi)]
    simp only [hpending]
    rfl
  · rw [hleft]
    exact h.exit

/-- What a thread takes part in the sums with. -/
def share (t : Thread (Call T) (Response T)) : Nat × Nat := (heldBy t, uncounted t)

/-- A step of thread `i` that keeps the invariants; `rest` is the share of the others. -/
def Goes (j : History T) (rest : Nat × Nat) (s : NotificationPublisher T) (i : Nat)
    (next : Option (Next T)) : Prop :=
  ∃ s' t notes, next = some (s', t, notes) ∧ Sound (j ++ notes.map (i, ·)) (rest + share t) s' ∧
    Stage (j ++ notes.map (i, ·)) s' i t ∧ ∀ k, k ≠ i → Frame k s s'

variable {rest : Nat × Nat}

/-- Nothing is seen, and nothing of the balance changes. -/
theorem Goes.quiet (hs : Sound j (rest + share t) s') (ht : Stage j s' i t)
    (hf : ∀ k, k ≠ i → Frame k s s') : Goes j rest s i (some (s', t, [])) :=
  ⟨s', t, [], rfl, by rwa [List.map_nil, List.append_nil], by rwa [List.map_nil, List.append_nil],
    hf⟩

theorem Sound.lock (h : Sound j n s) (lock : Option Nat) : Sound j n { s with lock } :=
  ⟨h.used, h.limit, h.counters, h.enqueued, h.handled, h.ahead, h.order, h.drained, h.connected,
    h.taken, h.shut, h.exit⟩

/-- The holder of the mutex gives it back. -/
theorem frame_unlock (hlock : s.lock = some i) (hk : k ≠ i) :
    Frame k s { s with lock := none } := by
  refine ⟨fun h => ?_, id, fun _ h => h⟩
  rw [hlock] at h
  exact absurd (Option.some.inj h).symm hk

theorem Sound.accept {channel : SyncChannel (QueuedNotification T)}
    (h : Sound j (rest + (weight entry.reservation, 0)) s) (hsender : s.sender = true)
    (hsend : s.channel.trySend entry = .ok channel) :
    Sound (j ++ [(i, .accepted entry.payload)]) (rest + (0, 1)) { s with channel } := by
  obtain ⟨hitems, hchannel⟩ : channel.items = s.channel.items ++ [entry] ∧
      channel.sender = s.channel.sender := by
    unfold SyncChannel.trySend at hsend
    split at hsend
    · cases hsend
    · split at hsend
      · cases hsend
      · cases hsend
        exact ⟨rfl, rfl⟩
  have haccepted :
      acceptedOf (j ++ [(i, .accepted entry.payload)]) = acceptedOf j ++ [entry.payload] :=
    acceptedOf_append _ _
  have hhandled : handledOf (j ++ [(i, .accepted entry.payload)]) = handledOf j := by
    rw [handledOf_append]
    exact List.append_nil _
  have hcount : ∀ c, countOf c (j ++ [(i, .accepted entry.payload)]) = countOf c j :=
    fun c => countOf_append _ _ c
  have hused := h.used
  have henqueued := h.enqueued
  simp only [Prod.fst_add, Prod.snd_add, Nat.add_zero] at hused henqueued
  refine ⟨?_, h.limit, fun c => by rw [hcount]; exact h.counters c, ?_, ?_, ?_, fun hi => ?_,
    fun hd => ?_, ?_, fun k hk => ?_, h.shut.append fun _ _ k hk => ?_, h.exit⟩
  · show s.used = _
    simp only [hused, hitems, weights_append, weights_cons, Prod.fst_add]
    simp only [weights, List.map_nil, List.sum_nil]
    omega
  · rw [haccepted, hcount, List.length_append, henqueued]
    simp only [Prod.snd_add, List.length_singleton]
    omega
  · rw [hhandled, h.handled, hcount, hcount, hcount]
  · rw [haccepted, hhandled]
    exact h.ahead.trans (List.prefix_append _ _)
  · rw [haccepted, hhandled, h.order hi, hitems]
    simp
  · -- the worker is still in its loop while there is a sender
    rw [(h.drained hd).2] at hsender
    cases hsender
  · rw [hchannel]
    exact h.connected
  · exact h.taken k (by simpa using hk)
  · rw [h.taken k hk] at hsender
    cases hsender

theorem Admission.goes (a : Admission T) (h : Sound j (rest + share (.running (.admission a))) s)
    (ht : Stage j s i (.running (.admission a))) : Goes j rest s i (a.step s i) := by
  cases a with
  | locking payload w =>
    unfold Admission.step
    cases hlock : s.lock with
    | some k => exact .quiet h ht fun k _ => .refl k s
    | none =>
      refine .quiet (h.lock _) ⟨rfl, ht⟩ fun k _ => ⟨fun hk => ?_, id, fun _ he => he⟩
      rw [hlock] at hk
      cases hk
  | reserving payload w =>
    obtain ⟨hlock, hcounts⟩ := ht
    simp only [Admission.step]
    split
    · exact .quiet h ⟨hlock, nofun, hcounts⟩ fun k _ => .refl k s
    · rename_i hsender
      have hsender : s.sender = true := by simpa using hsender
      split
      · exact .quiet h ⟨hlock, hsender, hcounts⟩ fun k _ => .refl k s
      · rename_i w
        split
        · rename_i budget r hreserve
          obtain ⟨rfl, hused, hlimit⟩ := used_reserve hreserve
          have hold := h.used
          refine .quiet (h.charge (m := rest.1 + r) ?_ ?_) ⟨hlock, hsender, hcounts⟩
            fun k _ => ⟨fun hk => ⟨hk, rfl⟩, id, fun _ he => he⟩
          · simp only [Option.elim_some, hused, hold, share, heldBy, Prod.fst_add]
            omega
          · intro b hb
            cases hb
            exact hlimit
        · exact .quiet h ⟨hlock, nofun, hcounts⟩ fun k _ => .refl k s
  | sending entry =>
    obtain ⟨hlock, hsender, hcounts⟩ := ht
    simp only [Admission.step]
    split
    · rename_i channel hsend
      refine ⟨_, _, _, rfl, h.accept hsender hsend, ⟨hlock, fun _ => hsender, ?_⟩,
        fun k _ => ⟨fun hk => ⟨hk, rfl⟩, id, fun _ he => he⟩⟩
      rw [countsOf_append, hcounts]
      rfl
    · exact .quiet h ⟨hlock, nofun, hcounts⟩ fun k _ => .refl k s
    · exact .quiet h ⟨hlock, nofun, hcounts⟩ fun k _ => .refl k s
  | counting verdict r =>
    obtain ⟨hlock, -, hcounts⟩ := ht
    have hcounted : countsOf i (j ++ [(i, .counted (verdictCounter verdict))]) =
        [verdictCounter verdict] := by
      rw [countsOf_append, hcounts]
      simp [countsOf]
    refine ⟨_, _, _, rfl, ?_, ⟨hlock, hcounted⟩, fun k _ =>
      ⟨fun hk => ⟨hk, rfl⟩, id, fun _ he => he⟩⟩
    refine h.count (m := rest.2) rfl (verdictCounter verdict) s.worker ?_ ?_ rfl rfl id id rfl
    · match verdict with
      | .ok () => exact Nat.add_comm _ _
      | .error (.full _) | .error (.closed _) => exact (Nat.zero_add _).symm
    · match verdict with
      | .ok () | .error (.full _) | .error (.closed _) => exact (Nat.zero_add _).symm
  | unlocking verdict r =>
    obtain ⟨hlock, hcounts⟩ := ht
    exact .quiet (h.lock none) hcounts fun k hk => frame_unlock hlock hk
  | dropping verdict r =>
    have hold := h.used
    simp only [share, heldBy, Prod.fst_add] at hold
    obtain ⟨budget, hrelease, hused, hlimit⟩ := release_spec (s := s) (r := r) (by omega)
    simp only [Admission.step, hrelease]
    refine .quiet (h.charge (m := rest.1) ?_ fun b hb => ?_) ht
      fun k _ => ⟨fun hk => ⟨hk, rfl⟩, id, fun _ he => he⟩
    · omega
    · obtain ⟨b₀, hb₀, hle, heq⟩ := hlimit b hb
      rw [heq]
      exact hle.trans (h.limit b₀ hb₀)

theorem Closing.wait_goes {timeout : Option Nat} {c : Closing} (elapsed : Nat)
    (h : Sound j rest s) (ht : Stage j s i (.running (.closing c))) :
    Goes j rest s i (some (Closing.wait s timeout c elapsed)) := by
  unfold Closing.wait
  split
  · exact .quiet h ht fun k _ => .refl k s
  · split
    · exact .quiet h ht fun k _ => .refl k s
    · exact .quiet h trivial fun k _ => .refl k s

/-- The sender is taken while nobody has the mutex. -/
theorem Sound.take (h : Sound j n s) : Sound (j ++ [(i, .taken)]) n { s with sender := false } := by
  have haccepted : acceptedOf (j ++ [(i, .taken)]) = acceptedOf j := by
    rw [acceptedOf_append]
    exact List.append_nil _
  have hhandled : handledOf (j ++ [(i, .taken)]) = handledOf j := by
    rw [handledOf_append]
    exact List.append_nil _
  have hcount : ∀ c, countOf c (j ++ [(i, .taken)]) = countOf c j := fun c => countOf_append _ _ c
  refine ⟨h.used, h.limit, fun c => by rw [hcount]; exact h.counters c, ?_, ?_, ?_, fun hi => ?_,
    fun hd => ⟨(h.drained hd).1, rfl⟩, fun _ => rfl, fun _ _ => rfl, h.shut.append nofun, h.exit⟩
  · rw [haccepted, hcount, h.enqueued]
  · rw [hhandled, h.handled, hcount, hcount, hcount]
  · rw [haccepted, hhandled]
    exact h.ahead
  · rw [haccepted, hhandled, h.order hi]

theorem Closing.goes (c : Closing) (x : Tick) (h : Sound j rest s)
    (ht : Stage j s i (.running (.closing c))) : Goes j rest s i (some (c.step s x)) := by
  cases c with
  | checking timeout inside =>
    simp only [Closing.step]
    split
    · exact .quiet h trivial fun k _ => .refl k s
    · exact .quiet h trivial fun k _ => .refl k s
  | taking timeout =>
    simp only [Closing.step]
    cases hlock : s.lock with
    | some k => exact .quiet h trivial fun k _ => .refl k s
    | none =>
      refine ⟨_, _, _, rfl, h.take.lock none, rfl, fun k _ =>
        ⟨fun hk => ?_, fun _ => rfl, fun _ he => he⟩⟩
      rw [hlock] at hk
      cases hk
  | dropping timeout taken =>
    exact .quiet ⟨h.used, h.limit, h.counters, h.enqueued, h.handled, h.ahead, h.order, h.drained,
      fun _ => ht, h.taken, h.shut, h.exit⟩ trivial fun k _ =>
      ⟨fun hk => ⟨hk, rfl⟩, id, fun _ he => he⟩
  | awaiting timeout =>
    simp only [Closing.step]
    split
    · exact Closing.wait_goes x.elapsed h ht
    · rename_i exit hexit
      exact .quiet h hexit fun k _ => .refl k s
  | joining timeout exit =>
    simp only [Closing.step]
    split
    · exact .quiet h ht fun k _ => .refl k s
    · exact .quiet h ht fun k _ => .refl k s
    · exact Closing.wait_goes x.elapsed h ht
  | joined exit =>
    simp only [Closing.step]
    refine .quiet ⟨h.used, h.limit, h.counters, h.enqueued, h.handled, h.ahead, h.order, h.drained,
      h.connected, h.taken, h.shut, h.exit⟩ ?_ fun k _ => ⟨fun hk => ⟨hk, rfl⟩, id, fun _ he => he⟩
    cases exit with
    | drained => exact ht
    | panicked => exact trivial

/-- Where nothing but the place of the worker changes. -/
theorem Sound.move (h : Sound j n s) (hw : s.worker = old) (worker : Worker T)
    (hheld : worker.held = old.held) (huncounted : worker.uncounted = old.uncounted)
    (hpending : worker.pending <+: old.pending)
    (hintact : worker.intact → old.intact ∧ worker.pending = old.pending)
    (hdrained : worker.drained → s.channel.items = [] ∧ s.sender = false)
    (hleft : worker.left = old.left) : Sound j n { s with worker } := by
  subst hw
  refine ⟨?_, h.limit, h.counters, h.enqueued, ?_, ?_, fun hi => ?_, hdrained, h.connected, h.taken,
    h.shut, ?_⟩
  · show s.used = _
    rw [h.used, hheld]
  · rw [h.handled, huncounted]
  · exact (List.prefix_append_right_inj _ |>.2 hpending).trans h.ahead
  · obtain ⟨hold, heq⟩ := hintact hi
    rw [h.order hold]
    simp only [heq]
  · rw [hleft]
    exact h.exit

/-- The receiver goes away. -/
theorem Sound.dropReceiver (h : Sound j n s) :
    Sound j n { s with channel := { s.channel with receiver := false } } :=
  ⟨h.used, h.limit, h.counters, h.enqueued, h.handled, h.ahead, h.order, h.drained, h.connected,
    h.taken, h.shut, h.exit⟩

/-- The worker leaves its exit behind. -/
theorem Sound.leave {exit : WorkerExit} (h : Sound j n s) (hw : s.worker = .exiting exit) :
    Sound j n { s with exit := some exit, worker := .leaving exit } := by
  have hused := h.used
  have hhandled := h.handled
  have hahead := h.ahead
  have horder := h.order
  have hdrained := h.drained
  rw [hw] at hused hhandled hahead horder hdrained
  exact ⟨hused, h.limit, h.counters, h.enqueued, hhandled, hahead, horder, hdrained, h.connected,
    h.taken, h.shut, rfl⟩

/-- A step of the worker that keeps the invariants. -/
def Worked (j : History T) (n : Nat × Nat) (s : NotificationPublisher T) (i : Nat)
    (next : Option (NotificationPublisher T × List (Note T))) : Prop :=
  ∃ s' notes, next = some (s', notes) ∧ Sound (j ++ notes.map (i, ·)) n s' ∧ ∀ k, Frame k s s'

theorem Worked.quiet (hs : Sound j n s') (hf : ∀ k, Frame k s s') :
    Worked j n s i (some (s', [])) :=
  ⟨s', [], rfl, by rwa [List.map_nil, List.append_nil], hf⟩

/-- The worker takes an entry. -/
theorem Sound.receive {items : List (QueuedNotification T)} (h : Sound j n s)
    (hw : s.worker = .receiving) (hitems : s.channel.items = entry :: items) :
    Sound j n { s with channel := { s.channel with items }, worker := .handling entry } := by
  have hused := h.used
  have horder := h.order (by rw [hw]; rfl)
  have hhandled := h.handled
  have hexit := h.exit
  rw [hitems] at horder hused
  rw [hw] at hused horder hhandled hexit
  rw [weights_cons] at hused
  have horder' : acceptedOf j = handledOf j ++ [entry.payload] ++
      items.map QueuedNotification.payload := by
    rw [horder]
    simp [Worker.pending]
  refine ⟨?_, h.limit, h.counters, h.enqueued, hhandled, ?_, fun _ => horder', nofun, h.connected,
    h.taken, h.shut, hexit⟩
  · show s.used = weights items + weight entry.reservation + n.1
    simp only [Worker.held] at hused
    omega
  · exact ⟨_, horder'.symm⟩

/-- The worker makes the request of its entry. -/
theorem Sound.handle (h : Sound j n s) (hw : s.worker = .handling entry)
    (outcome : NotificationOutcome) :
    Sound (j ++ [(i, .handled entry.payload)]) n
      { s with worker := .counting outcome entry.reservation } := by
  have haccepted : acceptedOf (j ++ [(i, .handled entry.payload)]) = acceptedOf j := by
    rw [acceptedOf_append]
    exact List.append_nil _
  have hhandled : handledOf (j ++ [(i, .handled entry.payload)]) = handledOf j ++ [entry.payload] :=
    handledOf_append _ _
  have hcount : ∀ c, countOf c (j ++ [(i, .handled entry.payload)]) = countOf c j :=
    fun c => countOf_append _ _ c
  have hused := h.used
  have hlength := h.handled
  have hahead := h.ahead
  have horder := h.order (by rw [hw]; rfl)
  have hexit := h.exit
  rw [hw] at hused hlength hahead horder hexit
  refine ⟨hused, h.limit, fun c => by rw [hcount]; exact h.counters c, ?_, ?_, ?_,
    fun _ => ?_, nofun, h.connected, fun k hk => h.taken k (by simpa using hk), h.shut.append nofun,
    hexit⟩
  · rw [haccepted, hcount, h.enqueued]
  · rw [hhandled, hcount, hcount, hcount, List.length_append, hlength]
    rfl
  · rw [haccepted, hhandled]
    exact (List.append_nil _).symm ▸ hahead
  · rw [haccepted, hhandled, horder]
    simp [Worker.pending]

/-- The worker drops a reservation it has; `s` has the entry no more. -/
theorem Worker.drop_works {r : Option ℕ+} {items : List (QueuedNotification T)} (next : Worker T)
    (h : Sound j n s) (hw : s.worker = old)
    (hcharged : weights items + next.held + weight r = weights s.channel.items + old.held)
    (huncounted : next.uncounted = old.uncounted) (hpending : next.pending = [])
    (hintact : next.intact → old.intact ∧ old.pending = [] ∧ items = s.channel.items)
    (hdrained : next.drained = false) (hleft : old.left = next.left) :
    Worked j n s i
      (Worker.drop { s with channel := { s.channel with items } } r next) := by
  subst hw
  have hused := h.used
  obtain ⟨budget, hrelease, heq, hlimit⟩ := release_spec
    (s := { s with channel := { s.channel with items } }) (r := r)
    (show weight r ≤ s.used by omega)
  have heq : budget.elim 0 WeightBudget.used + weight r = s.used := heq
  unfold Worker.drop
  rw [hrelease]
  refine .quiet ⟨?_, ?_, h.counters, h.enqueued, ?_, ?_, fun hi => ?_, fun hd => ?_, h.connected,
    h.taken, h.shut, ?_⟩ fun k => ⟨fun hk => ⟨hk, rfl⟩, id, fun _ he => he⟩
  · show budget.elim 0 WeightBudget.used = weights items + next.held + n.1
    omega
  · intro b hb
    obtain ⟨b₀, hb₀, hle, hsame⟩ := hlimit b hb
    rw [hsame]
    exact hle.trans (h.limit b₀ hb₀)
  · rw [h.handled, ← huncounted]
  · simp only [hpending, List.append_nil]
    exact (List.prefix_append _ _).trans h.ahead
  · obtain ⟨hold, hnil, rfl⟩ := hintact hi
    rw [h.order hold]
    simp only [hpending, hnil]
  · rw [hdrained] at hd
    cases hd
  · rw [← hleft]
    exact h.exit

theorem Worker.works (x : Tick) (h : Sound j n s) : Worked j n s i (s.worker.step s x) := by
  have hsame : ∀ {worker : Worker T}, ∀ k, Frame k s { s with worker } :=
    fun k => ⟨fun hk => ⟨hk, rfl⟩, id, fun _ he => he⟩
  cases hw : s.worker with
  | receiving =>
    simp only [Worker.step]
    split
    · rename_i entry items hitems
      exact .quiet (h.receive hw hitems) fun k => ⟨fun hk => ⟨hk, rfl⟩, id, fun _ he => he⟩
    · rename_i hitems
      split
      · exact .quiet h (.refl · s)
      · rename_i hsender
        exact .quiet (h.move hw .cleaning rfl rfl List.prefix_rfl (fun _ => ⟨rfl, rfl⟩)
          (fun _ => ⟨hitems, h.connected (by simpa using hsender)⟩) rfl) hsame
  | handling entry =>
    simp only [Worker.step]
    split
    · exact .quiet (h.move hw _ rfl rfl List.nil_prefix nofun nofun rfl) hsame
    · rename_i outcome _
      exact ⟨_, _, rfl, h.handle hw outcome, hsame⟩
  | counting outcome r =>
    refine ⟨_, _, rfl, h.count hw (outcomeCounter outcome) _ ?_ ?_ ?_ ?_ ?_ ?_ ?_, fun k =>
      ⟨fun hk => ⟨hk, rfl⟩, id, fun _ he => he⟩⟩
    all_goals cases outcome
    all_goals first | rfl | exact (Nat.zero_add _).symm | exact id
  | recording admission r =>
    refine ⟨_, _, rfl, h.count hw (admissionCounter admission) _ ?_ ?_ rfl rfl id nofun rfl,
      fun k => ⟨fun hk => ⟨hk, rfl⟩, id, fun _ he => he⟩⟩
    all_goals cases admission
    all_goals first | rfl | exact (Nat.zero_add _).symm
  | observing r =>
    simp only [Worker.step]
    split
    · exact .quiet (h.move hw _ rfl rfl List.prefix_rfl (fun _ => ⟨rfl, rfl⟩) nofun rfl) hsame
    · exact .quiet (h.move hw _ rfl rfl List.prefix_rfl (fun _ => ⟨rfl, rfl⟩) nofun rfl) hsame
  | blaming r =>
    exact ⟨_, _, rfl,
      h.count hw .observerPanicked _ (Nat.zero_add _).symm rfl rfl rfl id nofun rfl,
      fun k => ⟨fun hk => ⟨hk, rfl⟩, id, fun _ he => he⟩⟩
  | releasing r =>
    exact drop_works .receiving h hw rfl rfl rfl (fun _ => ⟨rfl, rfl, rfl⟩) rfl rfl
  | unwinding r => exact drop_works .abandoning h hw rfl rfl rfl nofun rfl rfl
  | abandoning =>
    exact .quiet (h.dropReceiver.move hw .discarding rfl rfl List.prefix_rfl nofun nofun rfl)
      fun k => ⟨fun hk => ⟨hk, rfl⟩, id, fun _ he => he⟩
  | discarding =>
    simp only [Worker.step]
    split
    · rename_i entry items hitems
      refine drop_works .discarding h hw ?_ rfl rfl nofun rfl rfl
      rw [hitems, weights_cons]
      simp only [Worker.held]
      omega
    · exact .quiet (h.move hw _ rfl rfl List.prefix_rfl nofun nofun rfl) hsame
  | cleaning =>
    exact .quiet (h.dropReceiver.move hw .disposing rfl rfl List.prefix_rfl (fun _ => ⟨rfl, rfl⟩)
      (fun _ => h.drained (by rw [hw]; rfl)) rfl) fun k => ⟨fun hk => ⟨hk, rfl⟩, id, fun _ he => he⟩
  | disposing =>
    exact .quiet (h.move hw _ rfl rfl List.prefix_rfl (fun _ => ⟨rfl, rfl⟩)
      (fun _ => h.drained (by rw [hw]; rfl)) rfl) hsame
  | exiting exit =>
    have hnone : s.exit = none := by rw [h.exit, hw]; rfl
    simp only [Worker.step, NotificationPublisher.complete, hnone, true_and]
    cases exit with
    | drained =>
      refine .quiet (h.leave hw) fun k => ⟨fun hk => ⟨hk, rfl⟩, id, fun _ he => ?_⟩
      rw [hnone] at he
      cases he
    | panicked =>
      refine ⟨_, _, rfl, (h.count hw .workerPanicked (.exiting .panicked) (Nat.zero_add _).symm
        rfl rfl rfl id id rfl).leave rfl, fun k => ⟨fun hk => ⟨hk, rfl⟩, id, fun _ he => ?_⟩⟩
      rw [hnone] at he
      cases he
  | leaving exit =>
    exact .quiet (h.move hw (.finished exit) rfl rfl List.prefix_rfl (fun hi => ⟨hi, rfl⟩)
      (fun hd => h.drained (by rw [hw]; exact hd)) rfl) hsame
  | finished exit => exact .quiet h (.refl · s)

end

/-! ## Runs -/

/-- What a thread keeps of its request: the payload. -/
def Answers : Request T → Thread (Call T) (Response T) → Prop
  | .tryPublish payload _, .running (.admission a) =>
    match a with
    | .locking p _ | .reserving p _ => p = payload
    | .sending entry => entry.payload = payload
    | .counting verdict _ | .unlocking verdict _ | .dropping verdict _ =>
      ∀ e, verdict = .error e → e.payload = payload
  | .tryPublish payload _, .returned (.tried verdict) =>
    ∀ e, verdict = .error e → e.payload = payload
  | .tryPublish _ _, _ => False
  | .close _ _, .running (.closing _) | .close _ _, .returned (.closed _) => True
  | .work, .running .work | .work, .returned .worked => True
  | _, _ => False

theorem Admission.answers {payload : T} {w : Option ℕ+} {a : Admission T} {notes : List (Note T)}
    (h : Answers (.tryPublish payload w) (.running (.admission a)))
    (hs : a.step s i = some (s', t, notes)) : Answers (.tryPublish payload w) t := by
  cases a with
  | locking p v =>
    simp only [Admission.step] at hs
    split at hs <;> cases hs <;> exact h
  | reserving p v =>
    have hp : p = payload := h
    simp only [Admission.step] at hs
    repeat' split at hs
    all_goals cases hs
    · exact fun e he => by cases he; exact hp
    · exact hp
    · exact hp
    · exact fun e he => by cases he; exact hp
  | sending entry =>
    have hp : entry.payload = payload := h
    simp only [Admission.step] at hs
    split at hs <;> cases hs
    · exact fun e he => nomatch he
    · exact fun e he => by cases he; exact hp
    · exact fun e he => by cases he; exact hp
  | counting verdict r | unlocking verdict r =>
    cases hs
    exact h
  | dropping verdict r =>
    obtain ⟨s₁, -, heq⟩ := Option.map_eq_some_iff.1 hs
    cases heq
    exact h

theorem Closing.answers (timeout : Option Nat) (inside : Bool) (s : NotificationPublisher T)
    (c : Closing) (x : Tick) : Answers (.close timeout inside) (c.step s x).2.1 := by
  have hwait : ∀ timeout' stay elapsed,
      Answers (.close timeout inside) (Closing.wait s timeout' stay elapsed).2.1 := by
    intro timeout' stay elapsed
    unfold Closing.wait
    repeat' split
    all_goals exact trivial
  cases c with
  | checking | taking =>
    simp only [Closing.step]
    split <;> exact trivial
  | dropping | joined => exact trivial
  | awaiting =>
    simp only [Closing.step]
    split
    · exact hwait _ _ _
    · exact trivial
  | joining =>
    simp only [Closing.step]
    split
    · exact trivial
    · exact trivial
    · exact hwait _ _ _

theorem Answers.step {q : Request T} {c : Call T} {x : Tick} {notes : List (Note T)}
    (h : Answers q (.running c)) (hs : (publisher T).step s i c x = some (s', t, notes)) :
    Answers q t := by
  cases q with
  | tryPublish payload w =>
    cases c with
    | admission a => exact Admission.answers h hs
    | closing | work => exact h.elim
  | close timeout inside =>
    cases c with
    | closing c =>
      have hnext : c.step s x = (s', t, notes) := Option.some.inj hs
      have hanswers := Closing.answers timeout inside s c x
      rwa [hnext] at hanswers
    | admission | work => exact h.elim
  | work =>
    cases c with
    | work =>
      obtain ⟨r, -, heq⟩ := Option.map_eq_some_iff.1 hs
      cases heq
      exact trivial
    | admission | closing => exact h.elim

/-- **Conservation**, where calls in progress have `residue` of the weight that is charged. -/
structure Conserved (residue : World (NotificationPublisher T) (Call T) (Response T) → Nat)
    (moves : List (Move (Request T) Tick)) (j : History T)
    (w : World (NotificationPublisher T) (Call T) (Response T)) : Prop where
  /-- What is charged is what is in the channel and what the worker has, within the limit. -/
  used : w.shared.used = weights w.shared.channel.items + w.shared.worker.held + residue w
  limit : ∀ b, w.shared.weightBudget = some b → b.used ≤ b.limit
  counters : ∀ c, w.shared.stats.load c = min (countOf c j) maxCount
  /-- A call counts once, by its result. -/
  counted : ∀ (i : Nat) verdict, w.threads[i]? = some (.returned (.tried verdict)) →
    countsOf i j = [verdictCounter verdict]
  /-- A rejected call returns its payload. -/
  returned : ∀ (i : Nat) payload weight response,
    (Machine.requests moves)[i]? = some (.tryPublish payload weight) →
    w.threads[i]? = some (.returned response) →
    response ∈ [.tried (.ok ()), .tried (.error (.full payload)), .tried (.error (.closed payload))]
  shut : Shut j
  /-- Requests are made in the order of acceptance. -/
  ordered : handledOf j <+: acceptedOf j
  /-- What `Ok` from `close` says. -/
  closed : ∀ (i : Nat), w.threads[i]? = some (.returned (.closed (.ok ()))) →
    handledOf j = acceptedOf j ∧ w.shared.used = residue w ∧
      (w.shared.stats.load .enqueued < maxCount → w.shared.stats.load .enqueued =
        w.shared.stats.load .published + w.shared.stats.load .publishErrors +
          w.shared.stats.load .requestErrors)

theorem Answers.response {payload : T} {w : Option ℕ+} {response : Response T}
    (h : Answers (.tryPublish payload w) (.returned response)) :
    response ∈ [.tried (.ok ()), .tried (.error (.full payload)),
      .tried (.error (.closed payload))] := by
  cases response with
  | tried verdict =>
    match verdict, h with
    | .ok (), _ => simp
    | .error (.full p), h =>
      have hp : p = payload := h _ rfl
      simp [hp]
    | .error (.closed p), h =>
      have hp : p = payload := h _ rfl
      simp [hp]
  | closed | worked => exact h.elim

/-- When `close` has returned `Ok`, the channel is empty and every entry was counted twice, by the
call that sent it and by the worker. -/
theorem Sound.closed_ok {threads : List (Thread (Call T) (Response T))}
    (h : Sound j (Machine.total heldBy threads, Machine.total uncounted threads) s)
    (hstages : ∀ k t, threads[k]? = some t → Stage j s k t)
    (hi : threads[i]? = some (.returned (.closed (.ok ())))) :
    handledOf j = acceptedOf j ∧ s.used = Machine.total heldBy threads ∧
      (s.stats.load .enqueued < maxCount → s.stats.load .enqueued =
        s.stats.load .published + s.stats.load .publishErrors + s.stats.load .requestErrors) := by
  have hleft : s.worker.left = some .drained := by
    rw [← h.exit]
    exact hstages i _ hi
  have hworker : s.worker = .leaving .drained ∨ s.worker = .finished .drained := by
    cases hw : s.worker with
    | leaving exit | finished exit =>
      rw [hw] at hleft
      cases hleft
      simp
    | _ =>
      rw [hw] at hleft
      cases hleft
  have hparts : s.worker.intact ∧ s.worker.drained ∧ s.worker.pending = [] ∧ s.worker.held = 0 ∧
      s.worker.uncounted = 0 := by
    obtain hw | hw := hworker <;>
      simp [hw, Worker.intact, Worker.drained, Worker.pending, Worker.held, Worker.uncounted]
  obtain ⟨hintact, hdrained, hpending, hheld, huncounted⟩ := hparts
  obtain ⟨hitems, hsender⟩ := h.drained hdrained
  have horder := h.order hintact
  rw [hitems, hpending, List.map_nil, List.append_nil, List.append_nil] at horder
  -- a call that has not counted its entry would have the mutex with the sender
  have hzero : Machine.total uncounted threads = 0 := by
    refine Machine.total_eq_zero fun k t hk => ?_
    have hstage := hstages k t hk
    unfold uncounted
    split
    · have hlive := hstage.2.1 rfl
      rw [hsender] at hlive
      cases hlive
    · rfl
  have hused := h.used
  have henqueued := h.enqueued
  have hhandled := h.handled
  rw [hitems, hheld] at hused
  rw [hzero, horder] at henqueued
  rw [huncounted] at hhandled
  refine ⟨horder.symm, by simpa [weights] using hused, fun hlt => ?_⟩
  have h₁ := h.counters .enqueued
  have h₂ := h.counters .published
  have h₃ := h.counters .publishErrors
  have h₄ := h.counters .requestErrors
  omega

theorem sound_new (capacity : ℕ+) (limit : Option ℕ+) :
    Sound [] 0 (NotificationPublisher.new T capacity limit) where
  used := by cases limit <;> rfl
  limit b hb := by
    obtain ⟨l, -, rfl⟩ := Option.map_eq_some_iff.1 hb
    exact Nat.zero_le _
  counters _ := rfl
  enqueued := rfl
  handled := rfl
  ahead := List.prefix_rfl
  order _ := rfl
  drained := nofun
  connected := nofun
  taken _ h := nomatch h
  shut _ _ _ h := by simp at h
  exit := rfl

theorem total_share (threads : List (Thread (Call T) (Response T))) :
    Machine.total share threads =
      (Machine.total heldBy threads, Machine.total uncounted threads) := by
  induction threads with
  | nil => rfl
  | cons t threads ih =>
    simp only [Machine.total, List.map_cons, List.sum_cons] at ih ⊢
    rw [ih]
    rfl

/-- **Notifications are conserved** in every interleaving. -/
theorem notifications_conserved (T : Type) (capacity : ℕ+) (limit : Option ℕ+)
    (moves : List (Move (Request T) Tick)) :
    ∃ w, (publisher T).reached (Machine.start (.new T capacity limit)) moves = some w ∧
      Conserved (fun w => Machine.total heldBy w.threads) moves
        ((publisher T).notes (Machine.start (.new T capacity limit)) moves) w := by
  obtain ⟨rs, w, htrace, hw⟩ := Machine.run_sums (m := publisher T) (f := share) (G := Sound)
    (L := Stage) (D := fun _ _ => True) (s := .new T capacity limit)
    (fun j w q hw _ => by
      have hcounts : countsOf w.threads.length j = [] := by
        unfold countsOf
        rw [List.filterMap_eq_nil_iff]
        intro n hn
        have hne : n.1 ≠ w.threads.length := Nat.ne_of_lt (hw.numbered n hn)
        obtain ⟨k, note⟩ := n
        cases note <;> simp [hne]
      cases q with
      | tryPublish => exact ⟨rfl, hcounts⟩
      | close | work => exact ⟨rfl, trivial⟩)
    (fun j w i c x rest hw hc _ hrest => by
      have hsound := hw.shared
      have hstage := hw.threads i _ hc
      rw [hrest] at hsound
      have hgoes : Goes j rest w.shared i ((publisher T).step w.shared i c x) := by
        cases c with
        | admission a => exact a.goes hsound hstage
        | closing c => exact c.goes x hsound hstage
        | work =>
          obtain ⟨s', notes, heq, hs, hf⟩ := Worker.works (i := i) x hsound
          exact ⟨s', .returned .worked, notes, by simp [publisher, heq], hs, trivial,
            fun k _ => hf k⟩
      obtain ⟨s', t, notes, heq, hs, ht, hf⟩ := hgoes
      exact ⟨s', t, notes, heq, hs, ht, fun k u hk _ hu => hu.others hk.symm notes (hf k hk)⟩)
    (sound_new capacity limit) (meets_of_forall _ fun _ _ => trivial)
  have hreached : (publisher T).reached (Machine.start (.new T capacity limit)) moves = some w := by
    rw [Machine.reached, htrace]
    rfl
  generalize (publisher T).notes (Machine.start (.new T capacity limit)) moves = j at hw
  have hsound := hw.shared
  rw [total_share] at hsound
  have hanswers := Machine.reached_answers (K := Answers)
    (fun q => by cases q <;> first | exact rfl | exact trivial)
    (fun q s i c x s' t notes h hs => h.step hs) .nil hreached
  refine ⟨w, hreached, hsound.used, hsound.limit, hsound.counters,
    fun i verdict ht => hw.threads i _ ht, fun i payload weight response hq ht => ?_, hsound.shut,
    (List.prefix_append _ _).trans hsound.ahead, fun i ht => ?_⟩
  · obtain ⟨hi, hget⟩ := List.getElem?_eq_some_iff.1 hq
    obtain ⟨hi', hget'⟩ := List.getElem?_eq_some_iff.1 ht
    have hanswer := (List.forall₂_iff_get.1 hanswers).2 i hi hi'
    rw [List.get_eq_getElem, List.get_eq_getElem] at hanswer
    simp only [List.nil_append, hget, hget'] at hanswer
    exact hanswer.response
  · exact hsound.closed_ok (fun k t hk => hw.threads k t hk) ht

/-! ## A reservation that outlives `close` -/

/-- Entry 1 takes the only place. Entry 2 is rejected, and its call has let go of the mutex when
`close` comes; the worker publishes entry 1 and ends, and `close` returns. -/
def outlived : List (Move (Request Nat) Tick) :=
  let tick : Tick := ⟨0, some .publishFailed, false, false⟩
  let go (i n : Nat) : List (Move (Request Nat) Tick) := List.replicate n (.step i tick)
  let work (first n : Nat) : List (Move (Request Nat) Tick) :=
    (List.range n).flatMap fun k => [.call .work, .step (first + k) tick]
  [.call (.tryPublish 1 (some 1))] ++ go 0 6 ++ [.call (.tryPublish 2 (some 5))] ++ go 1 5 ++
    [.call (.close none false)] ++ go 2 3 ++ work 3 11 ++ go 2 3

def saysOk : Thread (Call Nat) (Response Nat) → Bool
  | .returned (.closed (.ok _)) => true
  | _ => false

/-- **`close` may return while weight is charged.** -/
theorem close_leaves_weight : ¬ ∀ moves : List (Move (Request Nat) Tick), ∃ w,
    (publisher Nat).reached (Machine.start (.new Nat 1 (some 10))) moves = some w ∧
      Conserved (fun _ => 0) moves
        ((publisher Nat).notes (Machine.start (.new Nat 1 (some 10))) moves) w := by
  intro h
  obtain ⟨w, hw, hconserved⟩ := h outlived
  have hrun :
      (((publisher Nat).reached (Machine.start (.new Nat 1 (some 10))) outlived).map fun w =>
      ((w.threads[2]?).map saysOk, w.shared.used)) = some (some true, 5) := by decide +kernel
  rw [hw, Option.map_some, Option.some.injEq, Prod.mk.injEq] at hrun
  obtain ⟨hclosed, hused⟩ := hrun
  obtain ⟨t, ht, hok⟩ := Option.map_eq_some_iff.1 hclosed
  have hreturned : t = .returned (.closed (.ok ())) := by
    unfold saysOk at hok
    split at hok
    · rfl
    · cases hok
  rw [hreturned] at ht
  obtain ⟨-, hzero, -⟩ := hconserved.closed 2 ht
  rw [hused] at hzero
  cases hzero

end EventBus.Notification
