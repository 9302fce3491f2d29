import Mathlib.Data.Finmap
import Mathlib.Algebra.BigOperators.Group.Multiset.Basic
import Mathlib.Algebra.Order.BigOperators.Group.Multiset
import Mathlib.Data.Multiset.Bind
import Mathlib.Algebra.BigOperators.Group.Finset.Piecewise

/-!
# Finite maps with totals

A hash map is a `Finmap`: equal maps have equal lookups and no iteration order is observable.
What a program keeps about a map besides its lookups are *totals* of a weight over the values
(`total`); a size and the number of values with a property are totals too (`size`, `count`). Each
of the three changes of a map (a new key, a changed value, an erased key) has one equation for
totals, from which all counters kept next to a map are derived. The weight may be in any
commutative monoid: the values a map holds altogether are a total of multisets.
-/

namespace EventBus.Lib

/-- A finite map from `K` to `V`. -/
abbrev Map (K V : Type) := Finmap fun _ : K => V

namespace Map

variable {M : Type} {K V : Type} [DecidableEq K] {m : Map K V} {p : V → Prop} {f : V → Nat} {k : K}
  {v : V}

/-! ## Lookups -/

theorem lookup_insert_eq (m : Map K V) (k j : K) (v : V) :
    (m.insert k v).lookup j = if j = k then some v else m.lookup j := by
  split
  · subst_vars; exact Finmap.lookup_insert m
  · exact Finmap.lookup_insert_of_ne m ‹_›

theorem lookup_erase_eq (m : Map K V) (k j : K) :
    (m.erase k).lookup j = if j = k then none else m.lookup j := by
  split
  · subst_vars; exact Finmap.lookup_erase _ m
  · exact Finmap.lookup_erase_ne ‹_›

theorem mem_of_lookup (h : m.lookup k = some v) : k ∈ m :=
  Finmap.mem_of_lookup_eq_some h

theorem insert_self (h : m.lookup k = some v) : m.insert k v = m := by
  apply Finmap.ext_lookup
  intro j
  rw [lookup_insert_eq]
  split
  · subst_vars; exact h.symm
  · rfl

/-- A map is its entry at `k` put back into the rest. -/
theorem insert_erase_self (h : m.lookup k = some v) : (m.erase k).insert k v = m := by
  apply Finmap.ext_lookup
  intro j
  rw [lookup_insert_eq, lookup_erase_eq]
  split
  · subst_vars; exact h.symm
  · rfl

/-- Overwriting a key is inserting it into the rest. -/
theorem insert_eq_erase_insert (m : Map K V) (k : K) (v : V) :
    m.insert k v = (m.erase k).insert k v := by
  apply Finmap.ext_lookup
  intro j
  rw [lookup_insert_eq, lookup_insert_eq, lookup_erase_eq]
  split <;> rfl

theorem eq_empty_of_keys (h : m.keys = ∅) : m = ∅ := by
  apply Finmap.ext_lookup
  intro k
  rw [Finmap.lookup_empty, Finmap.lookup_eq_none, ← Finmap.mem_keys, h]
  simp

omit [DecidableEq K] in
/-- The entries whose value has the property `p` (`HashMap::retain`). -/
def retain (p : V → Bool) (m : Map K V) : Map K V where
  entries := m.entries.filter fun e => p e.2
  nodupKeys := Multiset.nodup_keys.1 <|
    Multiset.nodup_of_le (Multiset.map_le_map (Multiset.filter_le _ _))
      (Multiset.nodup_keys.2 m.nodupKeys)

theorem lookup_retain {p : V → Bool} :
    (m.retain p).lookup k = some v ↔ m.lookup k = some v ∧ p v = true := by
  rw [Finmap.lookup_eq_some_iff, Finmap.lookup_eq_some_iff]
  exact Multiset.mem_filter

/-! ## Totals -/

omit [DecidableEq K] in
/-- The sum of `f` over the values. -/
def total {M : Type} [AddCommMonoid M] (f : V → M) (m : Map K V) : M :=
  (m.entries.map fun e => f e.2).sum

omit [DecidableEq K] in
/-- The number of keys. -/
def size (m : Map K V) : Nat := m.entries.card

omit [DecidableEq K] in
/-- The number of keys whose value has the property `p`. -/
def count (p : V → Prop) [DecidablePred p] (m : Map K V) : Nat :=
  m.total fun v => if p v then 1 else 0

omit [DecidableEq K] in
theorem size_eq_card (m : Map K V) : size m = m.keys.card := (Multiset.card_map _ _).symm

omit [DecidableEq K] in
theorem size_eq_total (m : Map K V) : size m = total (fun _ => 1) m := by
  simp [size, total]

omit [DecidableEq K] in
@[simp] theorem total_empty [AddCommMonoid M] (f : V → M) :
    total f (∅ : Map K V) = 0 := rfl

omit [DecidableEq K] in
/-- A homomorphism can be taken before or after the total. -/
theorem map_total {N : Type} [AddCommMonoid M] [AddCommMonoid N] (g : M →+ N) (f : V → M)
    (m : Map K V) : g (total f m) = total (fun v => g (f v)) m := by
  simp [total, map_multiset_sum]

omit [DecidableEq K] in
theorem total_add [AddCommMonoid M] (f g : V → M) (m : Map K V) :
    total (fun v => f v + g v) m = total f m + total g m := Multiset.sum_map_add

omit [DecidableEq K] in
@[simp] theorem count_empty (p : V → Prop) [DecidablePred p] : count p (∅ : Map K V) = 0 := rfl

theorem total_insert_new [AddCommMonoid M] (f : V → M) (v : V) (h : m.lookup k = none) :
    total f (m.insert k v) = f v + total f m := by
  unfold total
  rw [Finmap.entries_insert_of_notMem (Finmap.lookup_eq_none.1 h), Multiset.map_cons,
    Multiset.sum_cons]

theorem total_erase [AddCommMonoid M] (f : V → M) (h : m.lookup k = some v) :
    total f m = f v + total f (m.erase k) := by
  conv_lhs => rw [← insert_erase_self h]
  exact total_insert_new f v (by rw [lookup_erase_eq, if_pos rfl])

theorem total_update (f : V → Nat) (w : V) (h : m.lookup k = some v) :
    total f (m.insert k w) + f v = total f m + f w := by
  rw [insert_eq_erase_insert, total_erase f h,
    total_insert_new f w (by rw [lookup_erase_eq, if_pos rfl])]
  omega

/-- The total after a key has got a value, whether or not it had one before. -/
theorem total_insert (f : V → Nat) (m : Map K V) (k : K) (w : V) :
    total f (m.insert k w) + (m.lookup k).elim 0 f = total f m + f w := by
  cases h : m.lookup k with
  | none => rw [total_insert_new f w h, Option.elim_none]; omega
  | some v => exact total_update f w h

theorem size_insert_new (v : V) (h : m.lookup k = none) : size (m.insert k v) = size m + 1 := by
  rw [size_eq_total, size_eq_total, total_insert_new _ v h, Nat.add_comm]

theorem size_erase (h : m.lookup k = some v) : size m = size (m.erase k) + 1 := by
  rw [size_eq_total, size_eq_total, total_erase _ h, Nat.add_comm]

theorem size_update (w : V) (h : m.lookup k = some v) : size (m.insert k w) = size m := by
  have := total_update (fun _ => 1) w h
  rw [size_eq_total, size_eq_total]
  omega

section
variable (p : V → Prop) [DecidablePred p]

theorem count_insert_new (w : V) (h : m.lookup k = none) :
    count p (m.insert k w) = (if p w then 1 else 0) + count p m := total_insert_new _ w h

theorem count_erase (h : m.lookup k = some v) :
    count p m = (if p v then 1 else 0) + count p (m.erase k) := total_erase _ h

theorem count_update (w : V) (h : m.lookup k = some v) :
    count p (m.insert k w) + (if p v then 1 else 0) = count p m + (if p w then 1 else 0) :=
  total_update _ w h

end

/-! ## Bounds between totals -/

/-- The weight of one value is part of the total. -/
theorem le_total (f : V → Nat) (h : m.lookup k = some v) : f v ≤ total f m := by
  rw [total_erase f h]
  exact Nat.le_add_right _ _

/-- Every map is built from the empty one by inserting new keys. -/
theorem induction {P : Map K V → Prop} (h0 : P ∅)
    (hi : ∀ m k v, m.lookup k = none → P m → P (m.insert k v)) (m : Map K V) : P m := by
  generalize hn : size m = n
  induction n generalizing m with
  | zero =>
    have : m = ∅ := Finmap.ext (Multiset.card_eq_zero.1 hn)
    exact this ▸ h0
  | succ n ih =>
    have hpos : 0 < m.entries.card := by unfold size at hn; omega
    obtain ⟨⟨k, v⟩, he⟩ := Multiset.card_pos_iff_exists_mem.1 hpos
    have hl : m.lookup k = some v := Finmap.lookup_eq_some_iff.2 he
    rw [← insert_erase_self hl]
    refine hi _ _ _ (by rw [lookup_erase_eq, if_pos rfl]) (ih _ ?_)
    have := size_erase hl
    omega

/-- What a total of multisets holds. -/
theorem mem_total {E : Type} {f : V → Multiset E} (m : Map K V) {a : E} :
    a ∈ total f m ↔ ∃ k v, m.lookup k = some v ∧ a ∈ f v := by
  have hbind : total f m = m.entries.bind fun e => f e.2 := rfl
  rw [hbind, Multiset.mem_bind]
  constructor
  · rintro ⟨⟨k, v⟩, he, ha⟩
    exact ⟨k, v, Finmap.lookup_eq_some_iff.2 he, ha⟩
  · rintro ⟨k, v, hl, ha⟩
    exact ⟨⟨k, v⟩, Finmap.lookup_eq_some_iff.1 hl, ha⟩

/-- Totals compare like their weights. -/
theorem total_le_total {g : V → Nat} (m : Map K V) (h : ∀ k v, m.lookup k = some v → f v ≤ g v) :
    total f m ≤ total g m := by
  induction m using Map.induction with
  | h0 => exact Nat.le_refl _
  | hi m k v hk ih =>
    rw [total_insert_new f v hk, total_insert_new g v hk]
    have hv := h k v (by rw [lookup_insert_eq, if_pos rfl])
    have hm := ih fun j w hj => h j w (by
      rw [lookup_insert_eq, if_neg (fun he => by rw [he, hk] at hj; cases hj)]; exact hj)
    omega

theorem total_congr {g : V → Nat} (m : Map K V) (h : ∀ k v, m.lookup k = some v → f v = g v) :
    total f m = total g m :=
  Nat.le_antisymm (total_le_total m fun k v hk => Nat.le_of_eq (h k v hk))
    (total_le_total m fun k v hk => Nat.le_of_eq (h k v hk).symm)

/-- A part of a map has a smaller total. -/
theorem total_le_of_subset (m m' : Map K V) (h : ∀ k v, m'.lookup k = some v →
    m.lookup k = some v) : total f m' ≤ total f m := by
  induction m' using Map.induction generalizing m with
  | h0 => exact Nat.zero_le _
  | hi m' k v hk ih =>
    have hv : m.lookup k = some v := h k v (by rw [lookup_insert_eq, if_pos rfl])
    rw [total_insert_new f v hk, total_erase f hv]
    refine Nat.add_le_add_left (ih (m.erase k) fun j w hj => ?_) _
    have hjk : j ≠ k := by
      intro he
      rw [he, hk] at hj
      cases hj
    rw [lookup_erase_eq, if_neg hjk]
    exact h j w (by rw [lookup_insert_eq, if_neg hjk]; exact hj)

/-- Two maps whose values look the same to `f` have the same total. -/
theorem total_eq_total (m m' : Map K V) (h : ∀ k, (m'.lookup k).map f = (m.lookup k).map f) :
    total f m' = total f m := by
  induction m using Map.induction generalizing m' with
  | h0 =>
    refine congrArg (total f) (Finmap.ext_lookup fun k => ?_)
    have := h k
    rw [Finmap.lookup_empty, Option.map_none, Option.map_eq_none_iff] at this
    rw [this, Finmap.lookup_empty]
  | hi m k v hk ih =>
    have hv := h k
    rw [lookup_insert_eq, if_pos rfl, Option.map_some] at hv
    obtain ⟨v', hv', hf⟩ := Option.map_eq_some_iff.1 hv
    rw [total_insert_new f v hk, total_erase f hv', hf, ih (m'.erase k) fun j => ?_]
    rw [lookup_erase_eq]
    split
    · rename_i hj
      rw [hj, hk]
    · rename_i hj
      have := h j
      rw [lookup_insert_eq, if_neg hj] at this
      exact this

/-- A total of nothing is zero. -/
theorem total_eq_zero (m : Map K V) (h : ∀ k v, m.lookup k = some v → f v = 0) : total f m = 0 := by
  rw [total_congr m (g := fun _ => 0) h]
  simp [total]

theorem count_le_size (p : V → Prop) [DecidablePred p] (m : Map K V) : count p m ≤ size m := by
  rw [size_eq_total]
  refine total_le_total m fun _ v _ => ?_
  split <;> omega

/-- The values of a map, grouped by `f`. -/
theorem count_eq_sum {J : Type} [DecidableEq J] [DecidablePred p] {f : V → J} {js : Finset J}
    (h : ∀ k v, m.lookup k = some v → f v ∈ js) :
    count p m = ∑ j ∈ js, count (fun v => f v = j ∧ p v) m := by
  induction m using Map.induction with
  | h0 => simp
  | hi m k v hk ih =>
    have hv := h k v (by rw [lookup_insert_eq, if_pos rfl])
    have hm := ih fun j w hj => h j w (by
      rw [lookup_insert_eq, if_neg (fun he => by rw [he, hk] at hj; cases hj)]; exact hj)
    simp only [count_insert_new _ v hk, Finset.sum_add_distrib, ← hm]
    by_cases hp : p v
    · simp [hp, hv]
    · simp [hp]

/-- A sum over the entries is one over the keys. -/
theorem sum_entries (m : Map K V) (f : K → V → Nat) :
    (m.entries.map fun e => f e.1 e.2).sum = ∑ k ∈ m.keys, (m.lookup k).elim 0 (f k) := by
  have hkeys : ∑ k ∈ m.keys, (m.lookup k).elim 0 (f k) =
      (m.entries.map fun e => (m.lookup e.1).elim 0 (f e.1)).sum := by
    simp [Finset.sum, Finmap.keys, Multiset.keys]
  rw [hkeys]
  refine congrArg _ (Multiset.map_congr rfl fun e he => ?_)
  rw [Finmap.lookup_eq_some_iff.2 he, Option.elim_some]

/-- A value with the property is counted. -/
theorem count_pos [DecidablePred p] (h : m.lookup k = some v) (hp : p v) : 0 < count p m := by
  have := le_total (fun v => if p v then 1 else 0) h
  simp only [hp, if_true] at this
  exact this

/-- If nothing is counted, no value has the property. -/
theorem count_eq_zero [DecidablePred p] (h : count p m = 0) {k : K} {v : V}
    (hk : m.lookup k = some v) : ¬ p v := fun hp => by
  have := count_pos hk hp
  omega

/-- At least as many list entries as keys with `p`, if each of these keys has an entry. -/
theorem count_le_length {A : Type} [DecidablePred p] (m : Map K V) {l : List A} (key : A → K)
    (h : ∀ k v, m.lookup k = some v → p v → ∃ a ∈ l, key a = k) : count p m ≤ l.length := by
  induction m using Map.induction generalizing l with
  | h0 => exact Nat.zero_le _
  | hi m k v hk ih =>
    -- the entries of the other keys
    have hrest := ih (l := l.filter fun a => key a ≠ k) fun j w hj hp => by
      have hne : j ≠ k := fun hjk => by rw [hjk, hk] at hj; cases hj
      obtain ⟨a, ha, hka⟩ := h j w (by rw [lookup_insert_eq, if_neg hne, hj]) hp
      exact ⟨a, List.mem_filter.2 ⟨ha, by simpa [hka] using hne⟩, hka⟩
    have hle := List.length_filter_le (fun a => decide (key a ≠ k)) l
    rw [count_insert_new p v hk]
    split
    · rename_i hp
      obtain ⟨a, ha, hka⟩ := h k v (by rw [lookup_insert_eq, if_pos rfl]) hp
      have hlt : (l.filter fun a => decide (key a ≠ k)).length < l.length :=
        List.length_filter_lt_length_iff_exists.2 ⟨a, ha, by simpa using hka⟩
      omega
    · omega

/-- At most as many list entries as keys with `p`, if they have different keys of that kind. -/
theorem length_le_count {A : Type} [DecidablePred p] (m : Map K V) {l : List A} (key : A → K)
    (hn : (l.map key).Nodup) (h : ∀ a ∈ l, ∃ v, m.lookup (key a) = some v ∧ p v) :
    l.length ≤ count p m := by
  induction l generalizing m with
  | nil => exact Nat.zero_le _
  | cons a l ih =>
    obtain ⟨hna, hn⟩ := List.nodup_cons.1 hn
    obtain ⟨v, hv, hp⟩ := h a List.mem_cons_self
    have hrest := ih (m.erase (key a)) hn fun b hb => by
      have hne : key b ≠ key a := fun hk => hna (List.mem_map.2 ⟨b, hb, hk⟩)
      rw [lookup_erase_eq, if_neg hne]
      exact h b (List.mem_cons_of_mem _ hb)
    rw [count_erase p hv, if_pos hp, List.length_cons]
    omega

end Map

end EventBus.Lib
