import EventBus.Session.Control

/-!
# The lease protocol of a session

What the futures of a subscription hold is a multiset of `Token`s: waiter ids, the lease, the
session in the hands of `dispose`, notifications that are still to run and wakers that a running one
has taken. `Placed` says where the session is and `Numbered` that the ids of the waiters differ, as
long as the counter of ids has not wrapped. A future that waits is heard (`Waits`): its waker has
been woken since its last poll, or a notification has taken it, or it is in the table, and then a
notification is still to run if the slot is available or disposed.
-/

namespace EventBus.Session

open Lib

inductive Token (W : Type) where
  | waiter (id : Nat)
  | lease
  /-- `dispose` is about to drop the session. -/
  | disposing
  /-- A notification is still to run. -/
  | owed
  /-- A notification has taken this waker and has still to wake it. -/
  | held (waker : W)
deriving DecidableEq

variable {σ W : Type}

def Call.tokens : Call σ W → Multiset (Token W)
  | waiting _ id _ | registered _ id _ | refused id => {.waiter id}
  | granted _ id _ => {.waiter id, .lease}
  | entering .. | running _ | finishing _ | unguarding _ | holding _ | returning _ | dropping _ =>
    {.lease}
  | disposed (some _) => {.disposing, .owed}
  | disposed none | notifying => {.owed}
  | waking wakers => wakers.total fun waker => {.held waker}
  | marking _ | creating _ | disposing | emptying | stopping => 0

def Thread.tokens : Thread (Call σ W) Outcome → Multiset (Token W)
  | .running call => call.tokens
  | .returned _ => 0

/-- What a future in `lease` waits for. -/
def SessionSlot.Ready (slot : SessionSlot σ) : Prop :=
  slot.disposed = true ∨ slot.active = false ∧ slot.session.isSome = true

/-- The thread whose `dispose` was the first, and whether it found the slot idle. -/
def firstDispose (j : List (Nat × Note W)) : Option (Nat × Bool) :=
  j.findSome? fun
    | (i, .disposed idle) => some (i, idle)
    | _ => none

variable [DecidableEq W]

def occurrences (note : Note W) (j : List (Nat × Note W)) : Nat := (j.map Prod.snd).count note

/-! ## The session -/

/-- The session is in one place, and `dispose` decides who drops it. -/
structure Placed (j : List (Nat × Note W)) (m : Multiset (Token W)) (slot : SessionSlot σ) :
    Prop where
  place : slot.session.toList.length + m.count .lease + m.count .disposing +
    occurrences .dropped j = 1
  free : slot.active = false → slot.disposed = false → slot.session.isSome = true
  taken : .lease ∈ m → slot.active = true
  idle : slot.session.isSome = true → slot.active = false ∧ slot.disposed = false
  known : slot.disposed = (firstDispose j).isSome
  unleased : ∀ i, firstDispose j = some (i, true) → slot.active = false
  dropped : ∀ k, (k, .dropped) ∈ j → firstDispose j = some (k, true) ∨
    ∃ i, firstDispose j = some (i, false) ∧ (k, .leased) ∈ j
  final : ∀ before after i idle, j = before ++ (i, .disposed idle) :: after →
    ∀ k, (k, .leased) ∉ after

/-- Neither the slot nor the session is concerned. -/
def Note.neutral : Note W → Bool
  | .created | .polled | .woken _ => true
  | _ => false

section
variable {j : List (Nat × Note W)} {m m' rest : Multiset (Token W)} {slot slot' : SessionSlot σ}
  {es : List (Note W)} {i : Nat}

omit [DecidableEq W] in
theorem firstDispose_append (j j' : List (Nat × Note W)) :
    firstDispose (j ++ j') = (firstDispose j).or (firstDispose j') := by
  unfold firstDispose
  rw [List.findSome?_append]

omit [DecidableEq W] in
theorem firstDispose_neutral (hes : ∀ e ∈ es, e ≠ .disposed true ∧ e ≠ .disposed false) :
    firstDispose (j ++ es.map (i, ·)) = firstDispose j := by
  rw [firstDispose_append]
  have hnone : firstDispose (es.map (i, ·)) = none := by
    unfold firstDispose
    rw [List.findSome?_eq_none_iff]
    intro e he
    obtain ⟨note, hnote, rfl⟩ := List.mem_map.1 he
    have hne := hes note hnote
    cases note with
    | disposed idle => cases idle <;> simp_all
    | _ => rfl
  rw [hnone, Option.or_none]

theorem occurrences_append (note : Note W) (j : List (Nat × Note W)) (es : List (Note W)) :
    occurrences note (j ++ es.map (i, ·)) = occurrences note j + es.count note := by
  simp [occurrences, Function.comp_def]

omit [DecidableEq W] in
/-- Where a journal that ends in other notes has a `dispose`, the rest of it goes on. -/
theorem final_append (es : List (Note W))
    (h : ∀ before after k idle, j = before ++ (k, .disposed idle) :: after →
      ∀ l, (l, .leased) ∉ after)
    (hes : .leased ∉ es ∨ firstDispose j = none) (hone : es.length ≤ 1) :
    ∀ before after k idle, j ++ es.map (i, ·) = before ++ (k, .disposed idle) :: after →
      ∀ l, (l, Note.leased) ∉ after := by
  intro before after k idle heq l hl
  rcases append_eq_append_cons heq with ⟨mid, hj, rfl⟩ | ⟨mid, -, hmid⟩
  · rcases List.mem_append.1 hl with hl | hl
    · exact h before mid k idle hj l hl
    · rcases hes with hes | hes
      · obtain ⟨note, hnote, heq⟩ := List.mem_map.1 hl
        cases heq
        exact hes hnote
      · rw [hj, firstDispose_append] at hes
        simp [firstDispose] at hes
  · -- the `dispose` is in the last notes, of which there is one
    have hlen := congrArg List.length hmid
    simp only [List.length_map, List.length_append, List.length_cons] at hlen
    have hafter : after = [] := List.length_eq_zero_iff.1 (by omega)
    rw [hafter] at hl
    exact (nomatch hl)

theorem Placed.quiet (h : Placed j m slot) (hlease : m'.count .lease = m.count .lease)
    (hdisposing : m'.count .disposing = m.count .disposing) (hes : ∀ e ∈ es, e.neutral = true)
    (hone : es.length ≤ 1) : Placed (j ++ es.map (i, ·)) m' slot := by
  have hfirst : firstDispose (j ++ es.map (i, ·)) = firstDispose j := by
    apply firstDispose_neutral
    intro e he
    have hneutral := hes e he
    constructor <;> rintro rfl <;> simp [Note.neutral] at hneutral
  have hnot : ∀ note : Note W, note.neutral = false → note ∉ es := by
    intro note hnote hmem
    rw [hes note hmem] at hnote
    cases hnote
  have hdropped : es.count .dropped = 0 := List.count_eq_zero.2 (hnot .dropped rfl)
  refine ⟨?_, h.free, ?_, h.idle, ?_, ?_, ?_, ?_⟩
  · rw [occurrences_append, hlease, hdisposing, hdropped]
    exact h.place
  · intro hmem
    apply h.taken
    rw [← Multiset.one_le_count_iff_mem] at hmem ⊢
    omega
  · rw [hfirst]
    exact h.known
  · rw [hfirst]
    exact h.unleased
  · intro k hk
    rw [hfirst]
    rcases List.mem_append.1 hk with hk | hk
    · exact (h.dropped k hk).imp_right fun ⟨l, hl, hmem⟩ => ⟨l, hl, List.mem_append_left _ hmem⟩
    · obtain ⟨note, hnote, heq⟩ := List.mem_map.1 hk
      cases heq
      exact absurd hnote (hnot .dropped rfl)
  · exact final_append es h.final (.inl (hnot .leased rfl)) hone

/-- `lease` takes the session out of the slot. -/
theorem Placed.grant (h : Placed j m slot) (hdisposed : slot.disposed = false) {session : σ}
    (hsession : slot.session = some session) (hlease : m'.count .lease = m.count .lease + 1)
    (hdisposing : m'.count .disposing = m.count .disposing) :
    Placed (j ++ [(i, .leased)]) m'
      ({ slot with session := none, active := true } : SessionSlot σ) := by
  have hnone : firstDispose j = none := by
    have hknown := h.known
    rw [hdisposed] at hknown
    exact Option.not_isSome_iff_eq_none.1 (by simp [← hknown])
  have hfirst : firstDispose (j ++ [(i, .leased)]) = none := by
    rw [firstDispose_append, hnone]
    rfl
  refine ⟨?_, nofun, fun _ => rfl, nofun, ?_, ?_, ?_, ?_⟩
  · have hplace := h.place
    rw [hsession] at hplace
    rw [hlease, hdisposing, show [(i, Note.leased)] = [Note.leased].map (i, ·) from rfl,
      occurrences_append]
    simp at hplace ⊢
    omega
  · rw [hfirst]
    exact hdisposed
  · rw [hfirst]
    nofun
  · intro k hk
    have hk : (k, Note.dropped) ∈ j := by simpa using hk
    rcases h.dropped k hk with hd | ⟨l, hd, -⟩ <;> rw [hnone] at hd <;> cases hd
  · exact final_append [.leased] h.final (.inr hnone) le_rfl

/-- The drop of a lease puts the session back. -/
theorem Placed.giveBack (h : Placed j m slot) (hdisposed : slot.disposed = false) (session : σ)
    (hlease : m.count .lease = m'.count .lease + 1)
    (hdisposing : m'.count .disposing = m.count .disposing) :
    Placed j m' { slot with session := some session, active := false } := by
  have hplace := h.place
  have hempty : slot.session.toList.length = 0 := by omega
  refine { h with place := ?_, free := fun _ _ => rfl, taken := fun hmem => ?_,
                  idle := fun _ => ⟨rfl, hdisposed⟩, unleased := fun _ _ => rfl }
  · simp
    omega
  · have hcount := Multiset.one_le_count_iff_mem.2 hmem
    omega

/-- The session is dropped, by the lease of a disposed slot or by `dispose`. -/
theorem Placed.drop (h : Placed j m slot)
    (hcount : m.count .lease + m.count .disposing = m'.count .lease + m'.count .disposing + 1)
    (hby : firstDispose j = some (i, true) ∨
      (∃ k, firstDispose j = some (k, false)) ∧ (i, .leased) ∈ j) :
    Placed (j ++ [(i, .dropped)]) m' slot := by
  have hfirst : firstDispose (j ++ [(i, .dropped)]) = firstDispose j := by
    rw [firstDispose_append]
    exact Option.or_none
  have hplace := h.place
  have hlease : m'.count .lease ≤ m.count .lease := by
    omega
  refine ⟨?_, h.free, fun hmem => h.taken ?_, h.idle, ?_, ?_, fun k hk => ?_, ?_⟩
  · rw [show [(i, Note.dropped)] = [Note.dropped].map (i, ·) from rfl, occurrences_append]
    simp
    omega
  · rw [← Multiset.one_le_count_iff_mem] at hmem ⊢
    omega
  · rw [hfirst]
    exact h.known
  · rw [hfirst]
    exact h.unleased
  · rw [hfirst]
    rcases List.mem_append.1 hk with hk | hk
    · exact (h.dropped k hk).imp_right fun ⟨l, hl, hmem⟩ => ⟨l, hl, List.mem_append_left _ hmem⟩
    · cases List.mem_singleton.1 hk
      exact hby.imp_right fun ⟨⟨k, hk⟩, hmem⟩ => ⟨k, hk, List.mem_append_left _ hmem⟩
  · exact final_append [.dropped] h.final (.inl (by simp)) le_rfl

/-- `dispose` empties an idle slot; the session is in its hands then. -/
theorem Placed.dispose (h : Placed j m slot) (hlease : m'.count .lease = m.count .lease)
    (hdisposing : m'.count .disposing =
      m.count .disposing + if slot.active then 0 else slot.session.toList.length) :
    Placed (j ++ [(i, .disposed (!slot.active))]) m'
      { slot with session := if slot.active then slot.session else none, disposed := true } := by
  have hplace := h.place
  have hempty : slot.active = true → slot.session = none := by
    intro hactive
    rw [← Option.not_isSome_iff_eq_none]
    intro hsome
    rw [(h.idle hsome).1] at hactive
    cases hactive
  have hfirst : firstDispose (j ++ [(i, .disposed (!slot.active))]) =
      (firstDispose j).or (some (i, !slot.active)) := by
    rw [firstDispose_append]
    rfl
  have hdropped : ∀ k, (k, Note.dropped) ∈ j ++ [(i, .disposed (!slot.active))] →
      (k, Note.dropped) ∈ j := by
    intro k hk
    simpa using hk
  refine ⟨?_, nofun, fun hmem => h.taken ?_, fun hsome => ?_, ?_, fun k hk => ?_, fun k hk => ?_,
    ?_⟩
  · rw [show [(i, Note.disposed (!slot.active))] = [Note.disposed (!slot.active)].map (i, ·)
      from rfl, occurrences_append, hlease, hdisposing]
    cases hactive : slot.active with
    | true => simpa using hplace
    | false =>
      simp
      omega
  · rw [← Multiset.one_le_count_iff_mem] at hmem ⊢
    omega
  · cases hactive : slot.active with
    | true => simp [hactive, hempty hactive] at hsome
    | false => simp [hactive] at hsome
  · rw [hfirst]
    simp
  · rw [hfirst] at hk
    cases hj : firstDispose j with
    | some first =>
      rw [hj] at hk
      exact h.unleased k (hj.trans hk)
    | none =>
      rw [hj] at hk
      have hidle := congrArg Prod.snd (Option.some.inj hk)
      simpa using hidle
  · obtain hd | ⟨l, hd, hmem⟩ := h.dropped k (hdropped k hk)
    · exact .inl (by rw [hfirst, hd]; rfl)
    · exact .inr ⟨l, by rw [hfirst, hd]; rfl, List.mem_append_left _ hmem⟩
  · exact final_append [.disposed (!slot.active)] h.final (.inl (by simp)) le_rfl

end

/-! ## The waiters -/

/-- Up to `2 ^ 64` futures have ids of their own. -/
structure Numbered (j : List (Nat × Note W)) (m : Multiset (Token W)) (available : Signal W) :
    Prop where
  next : available.nextId = occurrences .created j % 2 ^ 64
  below : occurrences .created j ≤ 2 ^ 64 → ∀ id, .waiter id ∈ m → id < occurrences .created j
  unique : occurrences .created j ≤ 2 ^ 64 → ∀ id, m.count (.waiter id) ≤ 1

/-- The future of thread `i` has been polled with the waker `w`, and will hear of a change of the
slot that it may not have seen. -/
structure Waits (j : List (Nat × Note W)) (m : Multiset (Token W))
    (s : AsyncSubscriptionControl σ W) (i id : Nat) (w : W) (seen : Bool) : Prop where
  polled : (i, .polled) ∈ j
  heard : occurrences .created j ≤ 2 ^ 64 →
    s.available.Safe id w (Since (i, .polled) (fun e => e.2 = .woken w) j) (.held w ∈ m)
      (seen = true → s.slot.Ready → .owed ∈ m)

section
variable {j : List (Nat × Note W)} {m m' rest : Multiset (Token W)}
  {s s' : AsyncSubscriptionControl σ W} {available available' : Signal W} {es : List (Note W)}
  {i k id : Nat} {w : W} {seen : Bool}

theorem Numbered.quiet (h : Numbered j m available) (hnext : available'.nextId = available.nextId)
    (hcount : ∀ id, m'.count (.waiter id) ≤ m.count (.waiter id)) (hes : .created ∉ es) :
    Numbered (j ++ es.map (i, ·)) m' available' := by
  have hsame : occurrences .created (j ++ es.map (i, ·)) = occurrences .created j := by
    rw [occurrences_append, List.count_eq_zero.2 hes, Nat.add_zero]
  refine ⟨?_, fun hle id hid => ?_, fun hle id => ?_⟩
  · rw [hnext, hsame]
    exact h.next
  · rw [hsame] at hle ⊢
    apply h.below hle id
    rw [← Multiset.one_le_count_iff_mem] at hid ⊢
    exact hid.trans (hcount id)
  · rw [hsame] at hle
    exact (hcount id).trans (h.unique hle id)

/-- `SignalRegistration::new`. -/
theorem Numbered.create (h : Numbered j rest available) :
    Numbered (j ++ [(i, .created)]) (rest + {.waiter available.nextId}) available.allocate.2 := by
  have hone : occurrences .created (j ++ [(i, .created)]) = occurrences .created j + 1 := by
    rw [show [(i, Note.created)] = [Note.created].map (i, ·) from rfl, occurrences_append]
    simp
  have hid : occurrences .created j + 1 ≤ 2 ^ 64 → available.nextId = occurrences .created j := by
    intro hle
    rw [h.next]
    exact Nat.mod_eq_of_lt hle
  refine ⟨?_, fun hle id hmem => ?_, fun hle id => ?_⟩
  · rw [hone]
    simp [Signal.allocate, h.next]
  · rw [hone] at hle ⊢
    rcases Multiset.mem_add.1 hmem with hmem | hmem
    · have hlt := h.below (by omega) id hmem
      omega
    · cases Multiset.mem_singleton.1 hmem
      have hnext := hid hle
      omega
  · rw [hone] at hle
    have hunique := h.unique (by omega) id
    rw [Multiset.count_add, Multiset.count_singleton]
    split
    · next heq =>
      have hfresh : Token.waiter id ∉ rest := by
        intro hmem
        have hlt := h.below (by omega) id hmem
        have hnext := hid hle
        cases heq
        omega
      rw [Multiset.count_eq_zero.2 hfresh]
    · exact hunique

/-- A step of another thread. -/
theorem Waits.step (h : Waits j m s k id w seen) (hk : k ≠ i)
    (hheld : .held w ∈ m → .held w ∈ m' ∨ .woken w ∈ es)
    (htable : occurrences .created j ≤ 2 ^ 64 → s.available.waiters.lookup id = some w →
      s'.available.waiters.lookup id = some w ∧
        ((s.slot.Ready → .owed ∈ m) → s'.slot.Ready → .owed ∈ m') ∨ .held w ∈ m') :
    Waits (j ++ es.map (i, ·)) m' s' k id w seen := by
  have hmark : (k, Note.polled) ∉ es.map (i, ·) := by
    intro hmem
    obtain ⟨note, -, heq⟩ := List.mem_map.1 hmem
    exact hk (congrArg Prod.fst heq).symm
  refine ⟨List.mem_append_left _ h.polled, fun hle => ?_⟩
  rw [occurrences_append] at hle
  have hle : occurrences .created j ≤ 2 ^ 64 := by omega
  refine (h.heard hle).step (fun hs => hs.append hmark) (fun hm => ?_) (fun hw howed => ?_)
  · rcases hheld hm with hm | hm
    · exact .inr hm
    · exact .inl (since_of_mem h.polled hmark (List.mem_map.2 ⟨_, hm, rfl⟩) rfl)
  · exact (htable hle hw).imp_left fun ⟨hlookup, hready⟩ =>
      ⟨hlookup, fun hseen => hready (howed hseen)⟩

/-- The table has the waker of the poll that has just begun. -/
theorem Waits.start (hlookup : s.available.waiters.lookup id = some w) :
    Waits (j ++ [(i, .polled)]) m s i id w false :=
  ⟨by simp, fun _ => .inr (.inr ⟨hlookup, nofun⟩)⟩

/-- The look finds nothing to wait for. -/
theorem Waits.look (h : Waits j m s i id w false) (hready : ¬ s.slot.Ready) :
    Waits j m s i id w true :=
  ⟨h.polled, fun hle => (h.heard hle).step (fun h => h) .inr fun hw _ =>
    .inl ⟨hw, fun _ hr => absurd hr hready⟩⟩

end

/-! ## Steps -/

/-- What is known of a thread. -/
def Owns (j : List (Nat × Note W)) (m : Multiset (Token W)) (s : AsyncSubscriptionControl σ W)
    (i : Nat) : Thread (Call σ W) Outcome → Prop
  | .running (.waiting _ id (some w)) => Waits j m s i id w true
  | .running (.registered _ id w) => Waits j m s i id w false
  | .running (.granted ..) | .running (.entering ..) | .running (.running _)
  | .running (.finishing _)
  | .running (.unguarding _) | .running (.holding _) | .running (.returning _) => (i, .leased) ∈ j
  | .running (.dropping _) => (i, .leased) ∈ j ∧ s.slot.disposed = true
  | .running (.disposed (some _)) => firstDispose j = some (i, true)
  | _ => True

/-- What a step of thread `i` from a call with the tokens `before` leaves. -/
structure Kept (j : List (Nat × Note W)) (rest before : Multiset (Token W))
    (s : AsyncSubscriptionControl σ W) (i : Nat) (next : Next σ W) : Prop where
  placed : Placed (j ++ next.2.2.map (i, ·)) (rest + Thread.tokens next.2.1) next.1.slot
  numbered : Numbered (j ++ next.2.2.map (i, ·)) (rest + Thread.tokens next.2.1) next.1.available
  owns : Owns (j ++ next.2.2.map (i, ·)) (rest + Thread.tokens next.2.1) next.1 i next.2.1
  heeds : ∀ k id w seen, k ≠ i → .waiter id ∈ rest → Waits j (rest + before) s k id w seen →
    Waits (j ++ next.2.2.map (i, ·)) (rest + Thread.tokens next.2.1) next.1 k id w seen
  disposed : s.slot.disposed = true → next.1.slot.disposed = true

section
variable {j : List (Nat × Note W)} {rest before : Multiset (Token W)}
  {s s' : AsyncSubscriptionControl σ W} {t : Thread (Call σ W) Outcome} {i : Nat}

/-- A notification is handed on, and a waker too unless it is woken. -/
structure Spends (before after : Multiset (Token W)) (es : List (Note W)) : Prop where
  owed : .owed ∈ before → .owed ∈ after
  held : ∀ w, .held w ∈ before → .held w ∈ after ∨ .woken w ∈ es

omit [DecidableEq W] in
theorem Spends.refl (tokens : Multiset (Token W)) : Spends tokens tokens [] :=
  ⟨fun h => h, fun _ h => .inl h⟩

variable {after : Multiset (Token W)} {es : List (Note W)} {available : Signal W} {own k id : Nat}
  {w : W} {seen : Bool}

omit [DecidableEq W] in
theorem mem_rest_or {token : Token W} (h : token ∈ rest + before)
    (hafter : token ∈ before → token ∈ after) : token ∈ rest + after := by
  rw [Multiset.mem_add] at h ⊢
  exact h.imp_right hafter

/-- A step that neither takes the table nor makes the slot ready without owing a notification. -/
theorem Waits.other (h : Waits j (rest + before) s k id w seen) (hk : k ≠ i)
    (hspends : Spends before after es)
    (hlookup : occurrences .created j ≤ 2 ^ 64 → s.available.waiters.lookup id = some w →
      s'.available.waiters.lookup id = some w)
    (hready : s'.slot.Ready → s.slot.Ready ∨ .owed ∈ after) :
    Waits (j ++ es.map (i, ·)) (rest + after) s' k id w seen := by
  apply h.step hk
  · intro hm
    rcases Multiset.mem_add.1 hm with hm | hm
    · exact .inl (Multiset.mem_add.2 (.inl hm))
    · exact (hspends.held w hm).imp_left fun hm => Multiset.mem_add.2 (.inr hm)
  · refine fun hle hw => .inl ⟨hlookup hle hw, fun ho hr => ?_⟩
    rcases hready hr with hr | hafter
    · exact mem_rest_or (ho hr) hspends.owed
    · exact Multiset.mem_add.2 (.inr hafter)

theorem waiter_ne (hn : Numbered j (rest + before) available)
    (hle : occurrences .created j ≤ 2 ^ 64) (hid : .waiter id ∈ rest)
    (hown : .waiter own ∈ before) : id ≠ own := by
  rintro rfl
  have hunique := hn.unique hle id
  rw [Multiset.count_add] at hunique
  have h₁ := Multiset.one_le_count_iff_mem.2 hid
  have h₂ := Multiset.one_le_count_iff_mem.2 hown
  omega

/-- The slot stays as it is, and so does the table but for the thread's own entry. -/
theorem kept_inTable (hp : Placed j (rest + before) s.slot)
    (hn : Numbered j (rest + before) s.available) (hslot : s'.slot = s.slot)
    (hnext : s'.available.nextId = s.available.nextId)
    (htable : ∀ id, .waiter id ∉ before →
      s'.available.waiters.lookup id = s.available.waiters.lookup id)
    (hes : ∀ e ∈ es, e.neutral = true ∧ e ≠ .created) (hone : es.length ≤ 1)
    (hlease : (Thread.tokens t).count .lease = before.count .lease)
    (hdisposing : (Thread.tokens t).count .disposing = before.count .disposing)
    (hwaiter : ∀ id, (Thread.tokens t).count (.waiter id) ≤ before.count (.waiter id))
    (hspends : Spends before (Thread.tokens t) es)
    (howns : Owns (j ++ es.map (i, ·)) (rest + Thread.tokens t) s' i t) :
    Kept j rest before s i (s', t, es) := by
  refine ⟨?_, ?_, howns, fun k id w seen hk hid hw => ?_, fun h => by rw [hslot]; exact h⟩
  · rw [hslot]
    apply hp.quiet _ _ (fun e he => (hes e he).1) hone
    · rw [Multiset.count_add, Multiset.count_add, hlease]
    · rw [Multiset.count_add, Multiset.count_add, hdisposing]
  · refine hn.quiet hnext (fun id => ?_) (fun he => (hes _ he).2 rfl)
    rw [Multiset.count_add, Multiset.count_add]
    exact Nat.add_le_add_left (hwaiter id) _
  · refine hw.other hk hspends (fun hle hlookup => ?_) (fun hr => .inl (by rw [← hslot]; exact hr))
    rw [htable id fun hmem => waiter_ne hn hle hid hmem rfl]
    exact hlookup

/-- The thread only goes on. -/
theorem kept_same (hp : Placed j (rest + before) s.slot)
    (hn : Numbered j (rest + before) s.available) (hslot : s'.slot = s.slot)
    (havailable : s'.available = s.available) (htokens : Thread.tokens t = before)
    (howns : Owns j (rest + before) s' i t) : Kept j rest before s i (s', t, []) := by
  subst htokens
  exact kept_inTable hp hn hslot (by rw [havailable]) (fun _ _ => by rw [havailable]) (by simp)
    (by simp) rfl rfl (fun _ => le_rfl) (.refl _) (by simpa using howns)

/-- The drop of a registration. -/
theorem kept_remove (hp : Placed j (rest + before) s.slot)
    (hn : Numbered j (rest + before) s.available) (hown : .waiter own ∈ before)
    (hlease : (Thread.tokens t).count .lease = before.count .lease)
    (hdisposing : (Thread.tokens t).count .disposing = before.count .disposing)
    (hwaiter : ∀ id, (Thread.tokens t).count (.waiter id) ≤ before.count (.waiter id))
    (hspends : Spends before (Thread.tokens t) [])
    (howns : Owns j (rest + Thread.tokens t) { s with available := s.available.remove own } i t) :
    Kept j rest before s i ({ s with available := s.available.remove own }, t, []) := by
  refine kept_inTable hp hn (by rfl) (by rfl) (fun id hid => ?_) (by simp) (by simp) hlease
    hdisposing hwaiter hspends (by simpa using howns)
  rw [Signal.lookup_remove, if_neg]
  rintro rfl
  exact hid hown

/-- The session is dropped. -/
theorem kept_drop (hp : Placed j (rest + before) s.slot)
    (hn : Numbered j (rest + before) s.available)
    (hcount : before.count .lease + before.count .disposing = 1)
    (hheld : ∀ w, .held w ∉ before)
    (hby : firstDispose j = some (i, true) ∨
      (∃ k, firstDispose j = some (k, false)) ∧ (i, .leased) ∈ j) :
    Kept j rest before s i (s, .running .notifying, [.dropped]) := by
  have hspends : Spends before (Call.tokens (.notifying : Call σ W)) [Note.dropped] := by
    exact ⟨fun _ => by simp [Call.tokens], fun w hm => absurd hm (hheld w)⟩
  refine ⟨?_, ?_, trivial, fun k id w seen hk hid hw => ?_, fun h => h⟩
  · refine hp.drop ?_ hby
    simp [Thread.tokens, Call.tokens, Multiset.count_add]
    omega
  · refine hn.quiet rfl (fun id => ?_) (by simp)
    simp [Thread.tokens, Call.tokens, Multiset.count_add]
  · exact hw.other hk hspends (fun _ h => h) .inl

/-- The look of a poll. -/
theorem inspect_kept (user : User) (hp : Placed j (rest + {.waiter own}) s.slot)
    (hn : Numbered j (rest + {.waiter own}) s.available)
    (ho : Waits j (rest + {.waiter own}) s i own w false) :
    Kept j rest {.waiter own} s i (Call.inspect s user own w) := by
  unfold Call.inspect
  split
  · exact kept_same hp hn rfl rfl rfl trivial
  · next hdisposed =>
    have hdisposed : s.slot.disposed = false := by simpa using hdisposed
    split
    · next session hactive hsession =>
      -- the session changes hands
      have hspends : Spends (W := W) {.waiter own} {.waiter own, .lease} [.leased] :=
        ⟨by simp, by simp⟩
      refine ⟨?_, ?_, ?_, fun k id v seen hk hid hw => ?_, fun h => h⟩
      · apply hp.grant hdisposed hsession
        · simp [Thread.tokens, Call.tokens, Multiset.count_add]
        · simp [Thread.tokens, Call.tokens, Multiset.count_add]
      · refine hn.quiet rfl (fun id => ?_) (by simp)
        simp [Thread.tokens, Call.tokens, Multiset.count_cons, Multiset.count_singleton]
      · simp [Owns]
      · refine hw.other hk hspends (fun _ h => h) (fun hr => ?_)
        rcases hr with hr | ⟨hr, -⟩
        · rw [hdisposed] at hr
          cases hr
        · cases hr
    · next hslot =>
      have hready : ¬ s.slot.Ready := by
        rintro (hr | ⟨hactive, hsome⟩)
        · rw [hdisposed] at hr
          cases hr
        · obtain ⟨session, hsession⟩ := Option.isSome_iff_exists.1 hsome
          exact hslot session hactive hsession
      exact kept_same hp hn rfl rfl rfl (ho.look hready)

/-- The section of a `SessionLease` that puts the session back. -/
theorem returning_kept (session : σ) (hp : Placed j (rest + {.lease}) s.slot)
    (hn : Numbered j (rest + {.lease}) s.available) (hdisposed : s.slot.disposed = false) :
    Kept j rest {.lease} s i
      ({ s with slot := { s.slot with session := some session, active := false } },
        .running .notifying, []) := by
  have hspends : Spends {.lease} {.owed} ([] : List (Note W)) := ⟨by simp, by simp⟩
  refine ⟨?_, ?_, trivial, fun k id v seen hk hid hw => ?_, fun h => ?_⟩
  · rw [List.map_nil, List.append_nil]
    apply hp.giveBack hdisposed
    · simp [Thread.tokens, Call.tokens, Multiset.count_add]
    · simp [Thread.tokens, Call.tokens, Multiset.count_add]
  · refine hn.quiet rfl (fun id => ?_) (by simp)
    simp [Thread.tokens, Call.tokens, Multiset.count_add]
  · exact hw.other hk hspends (fun _ h => h) fun _ => .inr (by simp [Thread.tokens, Call.tokens])
  · rw [hdisposed] at h
    cases h

/-- The section of `dispose`. -/
theorem emptying_kept (x : Tick σ W) (hp : Placed j (rest + 0) s.slot)
    (hn : Numbered j (rest + 0) s.available) :
    Kept j rest 0 s i (Call.step s x .emptying) := by
  have howed : ∀ session : Option σ, .owed ∈ (Call.disposed session : Call σ W).tokens := by
    intro session
    cases session <;> simp [Call.tokens]
  refine ⟨hp.dispose ?_ ?_, hn.quiet rfl (fun id => ?_) (by simp [Call.step]), ?_,
    fun k id v seen hk hid hw => ?_, fun _ => rfl⟩
  · cases hsession : s.slot.session <;> cases hactive : s.slot.active <;>
      simp [Call.step, hsession, hactive, Thread.tokens, Call.tokens]
  · cases hsession : s.slot.session <;> cases hactive : s.slot.active <;>
      simp [Call.step, hsession, hactive, Thread.tokens, Call.tokens]
  · cases hsession : s.slot.session <;> cases hactive : s.slot.active <;>
      simp [Call.step, hsession, hactive, Thread.tokens, Call.tokens]
  · cases hsession : s.slot.session with
    | none => simp [Call.step, hsession, Owns]
    | some session =>
      obtain ⟨hactive, hdisposed⟩ := hp.idle (by rw [hsession]; rfl)
      have hnone : firstDispose j = none := by
        have hknown := hp.known
        rw [hdisposed] at hknown
        exact Option.not_isSome_iff_eq_none.1 (by simp [← hknown])
      simp [Call.step, hsession, hactive, Owns, firstDispose_append, hnone]
      rfl
  · exact hw.other hk ⟨by simp, by simp⟩ (fun _ h => h) fun _ => .inr (howed _)

omit [DecidableEq W] in
theorem mem_waking {token : Token W} {wakers : Map Nat W} :
    token ∈ Call.tokens (.waking wakers : Call σ W) ↔
      ∃ id w, wakers.lookup id = some w ∧ token = .held w := by
  simp [Call.tokens, Map.mem_total]

/-- `notify` takes the table. -/
theorem notifying_kept (x : Tick σ W) (hp : Placed j (rest + {.owed}) s.slot)
    (hn : Numbered j (rest + {.owed}) s.available) :
    Kept j rest {.owed} s i (Call.step s x .notifying) := by
  have hzero : ∀ token : Token W, (∀ w, token ≠ .held w) →
      (Call.tokens (.waking s.available.waiters : Call σ W)).count token = 0 := by
    intro token htoken
    rw [Multiset.count_eq_zero, mem_waking]
    rintro ⟨id, w, -, heq⟩
    exact htoken w heq
  refine ⟨hp.quiet ?_ ?_ (by simp [Call.step]) (by simp [Call.step]),
    hn.quiet rfl (fun id => ?_) (by simp [Call.step]), trivial,
    fun k id v seen hk hid hw => hw.step hk (fun hm => ?_) (fun _ hlookup => ?_), fun h => h⟩
  · simp [Call.step, Signal.drain, Thread.tokens, Multiset.count_add, hzero]
  · simp [Call.step, Signal.drain, Thread.tokens, Multiset.count_add, hzero]
  · simp [Call.step, Signal.drain, Thread.tokens, Multiset.count_add, hzero]
  · exact .inl (mem_rest_or hm (by simp))
  · have hheld : .held v ∈ Call.tokens (.waking s.available.waiters : Call σ W) :=
      mem_waking.2 ⟨id, v, hlookup, rfl⟩
    exact .inr (Multiset.mem_add.2 (.inr hheld))

/-- It wakes one waker after the other. -/
theorem waking_kept (x : Tick σ W) {wakers : Map Nat W}
    (hp : Placed j (rest + Call.tokens (.waking wakers : Call σ W)) s.slot)
    (hn : Numbered j (rest + Call.tokens (.waking wakers : Call σ W)) s.available) :
    Kept j rest (Call.tokens (.waking wakers : Call σ W)) s i (Call.step s x (.waking wakers)) := by
  simp only [Call.step]
  split
  · next hempty =>
    have hnone : Call.tokens (.waking wakers : Call σ W) = 0 := by
      rw [Map.eq_empty_of_keys hempty]
      rfl
    rw [hnone] at hp hn ⊢
    exact kept_same hp hn rfl rfl rfl trivial
  · split
    · next waker hlookup =>
      have htokens : Call.tokens (.waking wakers : Call σ W) =
          {.held waker} + Call.tokens (.waking (wakers.erase x.next) : Call σ W) :=
        Map.total_erase (fun w => ({Token.held w} : Multiset (Token W))) hlookup
      rw [htokens] at hp hn ⊢
      refine kept_inTable hp hn rfl rfl (fun _ _ => rfl) (by simp [Note.neutral]) (by simp) ?_ ?_
        ?_ ?_ trivial
      · simp [Thread.tokens]
      · simp [Thread.tokens]
      · intro id
        simp [Thread.tokens]
      · refine ⟨by simp [Thread.tokens], fun w hm => ?_⟩
        rcases Multiset.mem_add.1 hm with hm | hm
        · exact .inr (by simpa using hm)
        · exact .inl hm
    · exact kept_same hp hn rfl rfl rfl trivial

/-- **The step lemma.** -/
theorem step_kept (call : Call σ W) (x : Tick σ W) (hp : Placed j (rest + call.tokens) s.slot)
    (hn : Numbered j (rest + call.tokens) s.available)
    (ho : Owns j (rest + call.tokens) s i (.running call)) :
    Kept j rest call.tokens s i (call.step s x) := by
  cases call with
  | marking user =>
    simp only [Call.step]
    split
    · exact kept_same hp hn rfl rfl rfl trivial
    · exact kept_same hp hn rfl rfl rfl trivial
  | creating user =>
    have hn : Numbered j rest s.available := by simpa [Call.tokens] using hn
    refine ⟨hp.quiet ?_ ?_ (by simp [Call.step, Note.neutral]) (by simp [Call.step]), hn.create,
      trivial, fun k id v seen hk hid hw => ?_, fun h => h⟩
    · simp [Call.step, Thread.tokens, Call.tokens, Multiset.count_add]
    · simp [Call.step, Thread.tokens, Call.tokens, Multiset.count_add]
    · exact hw.other hk ⟨by simp [Call.tokens], by simp [Call.tokens]⟩ (fun _ h => h) .inl
  | waiting user id last =>
    simp only [Call.step]
    split
    · exact kept_remove hp hn (by simp [Call.tokens]) rfl rfl (by simp [Thread.tokens])
        ⟨by simp [Call.tokens], by simp [Call.tokens]⟩ trivial
    · refine kept_inTable hp hn (by rfl) (by rfl) (fun k hk => ?_) (by simp [Note.neutral])
        (by simp) rfl rfl (fun _ => le_rfl) ⟨fun h => h, fun _ h => .inl h⟩ (Waits.start (by simp))
      rw [Signal.lookup_insert, if_neg]
      rintro rfl
      simp [Call.tokens] at hk
  | registered user id waker => exact inspect_kept user hp hn ho
  | refused id =>
    exact kept_remove hp hn (by simp [Call.tokens]) rfl rfl (by simp [Thread.tokens])
      ⟨by simp [Call.tokens], by simp [Call.tokens]⟩ trivial
  | granted user id session =>
    simp only [Call.step]
    split
    · exact kept_remove hp hn (by simp [Call.tokens])
        (by simp [Thread.tokens, Call.tokens]) (by simp [Thread.tokens, Call.tokens])
        (by simp [Thread.tokens, Call.tokens])
        ⟨by simp [Call.tokens], by simp [Call.tokens]⟩ ho
    · exact kept_remove hp hn (by simp [Call.tokens])
        (by simp [Thread.tokens, Call.tokens]) (by simp [Thread.tokens, Call.tokens])
        (by simp [Thread.tokens, Call.tokens])
        ⟨by simp [Call.tokens], by simp [Call.tokens]⟩ ho
  | entering session observed =>
    cases observed with
    | none => exact kept_same hp hn rfl rfl rfl ho
    | some observed =>
      have hattempt : ∀ state, Kept j rest {.lease} s i
          (Call.enterRun.attempt s session x.spurious state) := by
        intro state
        unfold Call.enterRun.attempt
        split
        · exact kept_same hp hn rfl rfl rfl ho
        · exact kept_same hp hn rfl rfl rfl ho
      cases observed with
      | unstarted => exact hattempt .unstarted
      | paused => exact hattempt .paused
      | running => exact kept_same hp hn rfl rfl rfl ho
      | stopped => exact kept_same hp hn rfl rfl rfl ho
  | running session =>
    simp only [Call.step]
    split
    · exact kept_same hp hn rfl rfl rfl ho
    · exact kept_same hp hn rfl rfl rfl ho
    · exact kept_same hp hn rfl rfl rfl ho
  | finishing session => exact kept_same hp hn rfl rfl rfl ho
  | unguarding session => exact kept_same hp hn rfl rfl rfl ho
  | holding session =>
    simp only [Call.step]
    split
    · exact kept_same hp hn rfl rfl rfl ho
    · exact kept_same hp hn rfl rfl rfl ho
  | returning session =>
    simp only [Call.step]
    split
    · next hdisposed =>
      exact kept_same hp hn rfl rfl rfl ⟨ho, hdisposed⟩
    · next hdisposed => exact returning_kept session hp hn (by simpa using hdisposed)
  | dropping session =>
    obtain ⟨hleased, hdisposed⟩ := ho
    have hsome := hp.known
    rw [hdisposed, eq_comm] at hsome
    obtain ⟨⟨k, idle⟩, hfirst⟩ := Option.isSome_iff_exists.1 hsome
    -- while a lease is out, the first `dispose` cannot have found the slot idle
    have hactive : s.slot.active = true := hp.taken (by simp [Call.tokens])
    cases idle with
    | true =>
      rw [hp.unleased k hfirst] at hactive
      cases hactive
    | false =>
      exact kept_drop hp hn (by simp [Call.tokens]) (by simp [Call.tokens])
        (.inr ⟨⟨k, hfirst⟩, hleased⟩)
  | disposing => exact kept_same hp hn rfl rfl rfl trivial
  | emptying => exact emptying_kept x hp hn
  | disposed session =>
    cases session with
    | none => exact kept_same hp hn rfl rfl rfl trivial
    | some session =>
      exact kept_drop hp hn (by simp [Call.tokens]) (by simp [Call.tokens]) (.inl ho)
  | notifying => exact notifying_kept x hp hn
  | waking wakers => exact waking_kept x hp hn
  | stopping => exact kept_same hp hn rfl rfl rfl trivial

/-- The other threads keep what is known of them. -/
theorem Kept.other {call : Call σ W} {next : Next σ W} (h : Kept j rest call.tokens s i next)
    {u : Thread (Call σ W) Outcome} (hk : k ≠ i) (hrest : ∃ others, rest = others + Thread.tokens u)
    (hu : Owns j (rest + call.tokens) s k u) :
    Owns (j ++ next.2.2.map (i, ·)) (rest + Thread.tokens next.2.1) next.1 k u := by
  obtain ⟨others, hrest⟩ := hrest
  have hmem : ∀ token ∈ Thread.tokens u, token ∈ rest := by
    intro token htoken
    rw [hrest]
    exact Multiset.mem_add.2 (.inr htoken)
  cases u with
  | returned value => trivial
  | running call' =>
    cases call' with
    | waiting user id last =>
      cases last with
      | none => trivial
      | some w => exact h.heeds k id w true hk (hmem _ (by simp [Thread.tokens, Call.tokens])) hu
    | registered user id w =>
      exact h.heeds k id w false hk (hmem _ (by simp [Thread.tokens, Call.tokens])) hu
    | dropping session => exact ⟨List.mem_append_left _ hu.1, h.disposed hu.2⟩
    | disposed session =>
      cases session with
      | none => trivial
      | some session =>
        show firstDispose _ = _
        rw [firstDispose_append, show firstDispose j = _ from hu]
        rfl
    | granted | entering | running | finishing | unguarding | holding | returning =>
      exact List.mem_append_left _ hu
    | marking | creating | refused | disposing | emptying | notifying | waking | stopping => trivial

end

/-! ## Runs -/

omit [DecidableEq W] in
/-- `Stopped` is final. -/
theorem step_stopped (call : Call σ W) (x : Tick σ W) {s : AsyncSubscriptionControl σ W}
    (h : s.runState = .stopped) : (call.step s x).1.runState = .stopped := by
  cases call with
  | registered user id waker =>
    simp only [Call.step, Call.inspect]
    split
    · exact h
    · split <;> exact h
  | entering session observed =>
    cases observed with
    | none => exact h
    | some observed => cases observed <;> simp [Call.step, Call.enterRun, Call.enterRun.attempt, h]
  | unguarding session => simp [Call.step, h]
  | running session =>
    simp only [Call.step]
    split <;> exact h
  | holding session =>
    simp only [Call.step]
    split <;> exact h
  | marking user =>
    simp only [Call.step]
    split <;> rfl
  | waiting user id last =>
    simp only [Call.step]
    split <;> exact h
  | returning session =>
    simp only [Call.step]
    split <;> exact h
  | disposed session => cases session <;> exact h
  | waking wakers =>
    simp only [Call.step]
    split
    · exact h
    · split <;> exact h
  | creating | refused | granted | dropping | emptying | notifying => exact h
  | finishing | disposing | stopping => rfl

omit [DecidableEq W] in
theorem move_stopped (w : World (AsyncSubscriptionControl σ W) (Call σ W) Outcome)
    (a : Move Request (Tick σ W)) (es : List (Nat × Note W))
    (w' : World (AsyncSubscriptionControl σ W) (Call σ W) Outcome)
    (h : w.shared.runState = .stopped) (hmove : (control σ W).move w a = some (es, w')) :
    w'.shared.runState = .stopped := by
  cases a with
  | call q =>
    cases hmove
    exact h
  | step i x =>
    simp only [Machine.move] at hmove
    split at hmove
    · next c _ =>
      cases hmove
      exact step_stopped c x h
    · cases hmove
      exact h

/-- The control of a new subscription. -/
theorem placed_new (session : σ) :
    Placed ([] : List (Nat × Note W)) 0
      (AsyncSubscriptionControl.new session : AsyncSubscriptionControl σ W).slot :=
  ⟨by simp [AsyncSubscriptionControl.new, occurrences], fun _ _ => rfl, by simp,
    fun _ => ⟨rfl, rfl⟩, rfl, nofun, nofun, fun before after i idle h => by simp at h⟩

/-- **The lease protocol.** In every interleaving of any number of `run`, `close`, `shutdown`,
`dispose` and `stop` calls, of dropped futures and of dropped leases: there is at most one lease,
and the session is in the slot, in a lease, in the hands of a `dispose` that is about to drop it, or
dropped; it is dropped once if the control is disposed, by the `dispose` if the slot was idle and
otherwise by the lease, and no lease is given out after a `dispose`. A future that waits while the
slot is available or disposed has been woken since its last poll, or a notification will wake it;
this is for up to `2 ^ 64` futures, which have ids of their own. `Stopped` is final. -/
theorem lease_protocol (session : σ) (moves : List (Move Request (Tick σ W))) :
    ∃ rs w, trace (control σ W).move (Machine.start (.new session)) moves = some (rs, w) ∧
      let notes := (control σ W).notes (Machine.start (.new session)) moves
      let tokens := Machine.total Thread.tokens w.threads
      tokens.count .lease ≤ 1 ∧
      w.shared.slot.session.toList.length + tokens.count .lease + tokens.count .disposing +
        occurrences .dropped notes = 1 ∧
      (w.shared.slot.disposed = true →
        tokens.count .lease + tokens.count .disposing + occurrences .dropped notes = 1) ∧
      (∀ before after i idle, notes = before ++ (i, .disposed idle) :: after →
        ∀ k, (k, .leased) ∉ after) ∧
      (∀ k, (k, .dropped) ∈ notes → firstDispose notes = some (k, true) ∨
        ∃ i, firstDispose notes = some (i, false) ∧ (k, .leased) ∈ notes) ∧
      (occurrences .created notes ≤ 2 ^ 64 → w.shared.slot.Ready →
        ∀ (i : Nat) user id waker,
          w.threads[i]? = some (.running (.waiting user id (some waker))) →
          Since (i, .polled) (fun e => e.2 = .woken waker) notes ∨ .held waker ∈ tokens ∨
            w.shared.available.waiters.lookup id = some waker ∧ .owed ∈ tokens) ∧
      ∀ n v, (control σ W).reached (Machine.start (.new session)) (moves.take n) = some v →
        v.shared.runState = .stopped → w.shared.runState = .stopped := by
  obtain ⟨rs, w, htrace, hw⟩ := Machine.run_tallies (m := control σ W) (f := Thread.tokens)
    (G := fun j m s => Placed j m s.slot ∧ Numbered j m s.available) (L := Owns)
    (D := fun _ _ => True)
    (fun j w q hs _ => by
      cases q with
      | lease user => cases user <;> exact ⟨rfl, trivial⟩
      | dispose => exact ⟨rfl, trivial⟩
      | stop => exact ⟨rfl, trivial⟩)
    (fun j w i c x rest hs hc _ hrest hothers => by
      obtain ⟨hp, hn⟩ := hs.shared
      have ho := hs.threads i _ hc
      rw [hrest] at hp hn ho
      have hkept := step_kept c x hp hn ho
      exact ⟨_, _, _, rfl, ⟨hkept.placed, hkept.numbered⟩, hkept.owns,
        fun k u hk hu hown => hkept.other hk (hothers k u hk hu) hown⟩)
    ⟨placed_new session, ⟨rfl, nofun, by simp⟩⟩ (meets_of_forall _ fun _ _ => trivial)
  have hplace := hw.shared.1.place
  refine ⟨rs, w, htrace, by omega, hplace, fun hdisposed => ?_, hw.shared.1.final,
    hw.shared.1.dropped, fun hle hready i user id waker hi => ?_, fun n v hv => ?_⟩
  · have hnone : w.shared.slot.session.toList.length = 0 := by
      cases hsession : w.shared.slot.session with
      | none => rfl
      | some session =>
        have hidle := (hw.shared.1.idle (by rw [hsession]; rfl)).2
        rw [hdisposed] at hidle
        cases hidle
    omega
  · have hwaits : Waits _ _ _ _ _ _ _ := hw.threads i _ hi
    exact (hwaits.heard hle).imp_right (Or.imp_right (And.imp_right fun howed => howed rfl hready))
  · have hreached : (control σ W).reached (Machine.start (.new session)) moves = some w := by
      rw [Machine.reached, htrace]
      rfl
    exact Machine.reached_keeps move_stopped hv hreached

/-! ## Ids that repeat -/

def Tick.poll (waker : Nat) : Tick Unit Nat where
  waker := waker
  cancelled := false
  spurious := false
  running := true
  use := id
  exit := .cancelled
  next := 0

/-- A future is created and dropped; it is thread `i`. -/
def round (i : Nat) : List (Move Request (Tick Unit Nat)) :=
  [.call (.lease .run), .step i (.poll 0), .step i { Tick.poll 0 with cancelled := true }]

def rounds (i : Nat) : Nat → List (Move Request (Tick Unit Nat))
  | 0 => []
  | n + 1 => round i ++ rounds (i + 1) n

/-- The table after `n` futures that were created and dropped. -/
def passed (available : Signal Nat) : Nat → Signal Nat
  | 0 => available
  | n + 1 => passed (available.allocate.2.remove available.nextId) n

theorem trace_rounds (n : Nat) (s : AsyncSubscriptionControl Unit Nat)
    (threads : List (Thread (Call Unit Nat) Outcome)) :
    ∃ rs, trace (control Unit Nat).move ⟨s, threads⟩ (rounds threads.length n) =
        some (rs, ⟨{ s with available := passed s.available n },
          threads ++ List.replicate n (.returned .cancelled)⟩) ∧
      ∀ e ∈ rs.flatten, e.2 = .created := by
  induction n generalizing s threads with
  | zero => exact ⟨[], by simp [rounds, passed, trace], by simp⟩
  | succ n ih =>
    have hround : trace (control Unit Nat).move ⟨s, threads⟩ (round threads.length) =
        some ([[], [(threads.length, .created)], []],
          ⟨{ s with available := s.available.allocate.2.remove s.available.nextId },
            threads ++ [.returned .cancelled]⟩) := by
      simp [round, trace, Machine.move, control, Call.enter, Call.step, Signal.allocate, Tick.poll]
    obtain ⟨rs, hrest, hnotes⟩ := ih
      { s with available := s.available.allocate.2.remove s.available.nextId }
      (threads ++ [.returned .cancelled])
    rw [List.length_append, List.length_singleton] at hrest
    rw [List.append_assoc, List.singleton_append, ← List.replicate_succ] at hrest
    refine ⟨_, trace_then hround hrest, fun e he => ?_⟩
    simp only [List.flatten_append, List.mem_append] at he
    rcases he with he | he
    · simpa using congrArg Prod.snd (by simpa using he : e = (threads.length, Note.created))
    · exact hnotes e he

/-- A waker stays only if its id was not met. -/
theorem lookup_passed {n : Nat} {available : Signal Nat} {id waker : Nat}
    (h : (passed available n).waiters.lookup id = some waker) (hnext : available.nextId < 2 ^ 64) :
    available.waiters.lookup id = some waker ∧ ∀ r < n, (available.nextId + r) % 2 ^ 64 ≠ id := by
  induction n generalizing available with
  | zero => exact ⟨h, nofun⟩
  | succ n ih =>
    have hlt : (available.nextId + 1) % 2 ^ 64 < 2 ^ 64 := Nat.mod_lt _ (by decide)
    obtain ⟨hlookup, hmet⟩ := ih h hlt
    rw [Signal.lookup_remove] at hlookup
    split at hlookup
    · cases hlookup
    · next hne =>
      refine ⟨hlookup, fun r hr => ?_⟩
      cases r with
      | zero =>
        rw [Nat.add_zero, Nat.mod_eq_of_lt hnext]
        exact Ne.symm hne
      | succ r =>
        have hr := hmet r (by omega)
        simpa [Signal.allocate, Signal.remove, Nat.add_assoc, Nat.add_comm 1] using hr

/-- The holder of the lease drops it, and finds nobody in the table. -/
theorem trace_release (next : Nat) (waiting : Thread (Call Unit Nat) Outcome)
    (rest : List (Thread (Call Unit Nat) Outcome)) :
    trace (control Unit Nat).move
        ⟨⟨⟨none, true, false⟩, ⟨next, ∅⟩, .unstarted⟩,
          .running (.entering () none) :: waiting :: rest⟩
        (List.replicate 7 (.step 0 (.poll 0))) =
      some (List.replicate 7 [], ⟨⟨⟨some (), false, false⟩, ⟨next, ∅⟩, .paused⟩,
        .returned .done :: waiting :: rest⟩) := by
  simp [List.replicate, trace, Machine.move, control, Call.step, Call.enterRun,
    Call.enterRun.attempt, Tick.poll, Signal.drain]

/-- One future holds the lease, and another one waits for it with the waker 7. -/
def waitingForLease : List (Move Request (Tick Unit Nat)) :=
  [.call (.lease .run), .call (.lease .run)] ++ List.replicate 4 (.step 0 (.poll 0)) ++
    List.replicate 3 (.step 1 (.poll 7))

theorem trace_waitingForLease :
    trace (control Unit Nat).move (Machine.start (.new ())) waitingForLease =
      some ([[], [], [(0, .created)], [(0, .polled)], [(0, .leased)], [], [(1, .created)],
          [(1, .polled)], []],
        ⟨⟨⟨none, true, false⟩, ⟨2, (((∅ : Map Nat Nat).insert 0 0).erase 0).insert 1 7⟩,
          .unstarted⟩, [.running (.entering () none), .running (.waiting .run 1 (some 7))]⟩) :=
  rfl

/-- Nobody is left in the table when the ids have come round. -/
theorem passed_all :
    (passed ⟨2, (((∅ : Map Nat Nat).insert 0 0).erase 0).insert 1 7⟩ (2 ^ 64)).waiters = ∅ := by
  apply Finmap.ext_lookup
  intro id
  rw [Finmap.lookup_empty, Option.eq_none_iff_forall_ne_some]
  intro waker hlookup
  obtain ⟨hold, hmet⟩ := lookup_passed hlookup (by decide)
  have hone : id ≠ 1 := (hmet (2 ^ 64 - 1) (by omega)).symm
  rw [Map.lookup_insert_eq, if_neg hone, Map.lookup_erase_eq] at hold
  split at hold
  · cases hold
  · next hzero =>
    rw [Map.lookup_insert_eq, if_neg hzero] at hold
    cases hold

/-- A future that waits while `n` others empty the table is not woken. -/
theorem waiter_lost {n : Nat}
    (hpassed : (passed ⟨2, (((∅ : Map Nat Nat).insert 0 0).erase 0).insert 1 7⟩ n).waiters = ∅) :
    ∃ moves rs w, trace (control Unit Nat).move (Machine.start (.new ()))
        (waitingForLease ++ moves) = some (rs, w) ∧ w.shared.slot.Ready ∧
      w.threads[1]? = some (.running (.waiting .run 1 (some 7))) ∧
      Machine.total Thread.tokens w.threads = {.waiter 1} ∧ ∀ e ∈ rs.flatten, e.2 ≠ .woken 7 := by
  obtain ⟨rs, hrounds, hnotes⟩ := trace_rounds n
    ⟨⟨none, true, false⟩, ⟨2, (((∅ : Map Nat Nat).insert 0 0).erase 0).insert 1 7⟩, .unstarted⟩
    [.running (.entering () none), .running (.waiting .run 1 (some 7))]
  generalize passed _ n = table at hrounds hpassed
  obtain ⟨next, wakers⟩ := table
  cases hpassed
  have hrelease := trace_release next (.running (.waiting .run 1 (some 7)))
    (List.replicate n (.returned .cancelled))
  have htrace := trace_then trace_waitingForLease (trace_then hrounds hrelease)
  refine ⟨_, _, _, htrace, .inr ⟨rfl, rfl⟩, rfl, ?_, ?_⟩
  · simp [Machine.total, Thread.tokens, Call.tokens]
  · intro e he
    simp only [List.flatten_append, List.mem_append] at he
    rcases he with he | he | he
    · revert e
      decide +kernel
    · rw [hnotes e he]
      simp
    · simp at he

/-- The two ways to lose a waker. The future that left it may be dropped; and `2 ^ 64` futures later
another future has the same id, and removes the entry when it is dropped. Besides, a session in the
hands of `dispose` is neither in the slot nor in a lease nor dropped. -/
theorem lease_waker_lost :
    (∃ moves rs w, trace (control Unit Nat).move (Machine.start (.new ())) moves = some (rs, w) ∧
      w.threads = [.running (.disposed (some ()))] ∧ w.shared.slot.session = none ∧
      (Machine.total Thread.tokens w.threads).count .lease = 0 ∧
      occurrences .dropped rs.flatten = 0) ∧
    (∃ moves rs w, trace (control Unit Nat).move (Machine.start (.new ()))
        (waitingForLease ++ moves) = some (rs, w) ∧ w.shared.slot.Ready ∧
      Machine.total Thread.tokens w.threads = 0 ∧ ∀ e ∈ rs.flatten, e.2 ≠ .woken 7) ∧
    ∃ moves rs w, trace (control Unit Nat).move (Machine.start (.new ()))
        (waitingForLease ++ moves) = some (rs, w) ∧ w.shared.slot.Ready ∧
      w.threads[1]? = some (.running (.waiting .run 1 (some 7))) ∧
      Machine.total Thread.tokens w.threads = {.waiter 1} ∧ ∀ e ∈ rs.flatten, e.2 ≠ .woken 7 := by
  refine ⟨?_, ?_, waiter_lost passed_all⟩
  · exact ⟨.call .dispose :: List.replicate 2 (.step 0 (.poll 0)), _, _, rfl, rfl, rfl, rfl, rfl⟩
  refine ⟨.step 1 { Tick.poll 0 with cancelled := true } :: List.replicate 7 (.step 0 (.poll 0)),
    _, _, rfl, .inr ⟨rfl, rfl⟩, ?_, ?_⟩
  · decide +kernel
  · decide +kernel

end EventBus.Session
