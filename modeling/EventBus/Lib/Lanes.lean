import Mathlib.Data.List.Nodup
import Mathlib.Data.List.Perm.Basic

/-!
# FIFO lanes in rotation

A list of lanes, each a key and a FIFO queue of items. A lane with a key `some k` is shared by all
items of `k`; a lane without key belongs to its single item. Taking the head of a lane moves the
rest of the lane behind all other lanes, a lane that runs empty disappears, and an item of a key
without a lane opens a new lane at the back.

`Ok` is the shape every such list keeps: no empty lane, no item twice, no key twice, one item in a
lane without key. Each operation has one decomposition lemma (`put_cases`, `takeAt_some`), one
lemma for what the lanes hold afterwards (`mem_put`, `mem_takeAt`, `mem_remove`) and one for `Ok`.
-/

namespace EventBus.Lib

/-- Lanes of items `A` keyed by `K`. -/
abbrev Lanes (K A : Type) := List (Option K × List A)

namespace Lanes

variable {K A : Type} {ls l₁ l₂ : Lanes K A} {k : Option K} {f : List A → List A} {q : List A}
  {a : A}

/-- The lane of key `k` holds `a`. -/
def Mem (ls : Lanes K A) (k : Option K) (a : A) : Prop := ∃ q, (k, q) ∈ ls ∧ a ∈ q

/-- All items, lane by lane. -/
def items (ls : Lanes K A) : List A := ls.flatMap Prod.snd

/-- The keys that have a lane. -/
def keys (ls : Lanes K A) : List K := ls.filterMap Prod.fst

/-- The shape of the lanes (module doc). -/
structure Ok (ls : Lanes K A) : Prop where
  nonempty : ∀ p ∈ ls, p.2 ≠ []
  itemsNodup : ls.items.Nodup
  keysNodup : ls.keys.Nodup
  single : ∀ q, (none, q) ∈ ls → q.length = 1

theorem mem_items : a ∈ ls.items ↔ ∃ k, ls.Mem k a := by
  simp only [items, List.mem_flatMap, Mem, Prod.exists]

theorem ok_nil : Ok ([] : Lanes K A) :=
  ⟨by simp, by simp [items], by simp [keys], by simp⟩

@[simp] theorem items_append (l₁ l₂ : Lanes K A) :
    items (l₁ ++ l₂) = items l₁ ++ items l₂ := List.flatMap_append

@[simp] theorem items_nil : items ([] : Lanes K A) = [] := rfl

@[simp] theorem items_cons (p : Option K × List A) (l : Lanes K A) :
    items (p :: l) = p.2 ++ items l := List.flatMap_cons

@[simp] theorem keys_append (l₁ l₂ : Lanes K A) : keys (l₁ ++ l₂) = keys l₁ ++ keys l₂ :=
  List.filterMap_append

@[simp] theorem keys_nil : keys ([] : Lanes K A) = [] := rfl

theorem keys_cons (k : Option K) (q : List A) (l : Lanes K A) :
    keys ((k, q) :: l) = k.toList ++ keys l := by
  cases k <;> simp [keys]

theorem mem_keys {k : K} : k ∈ ls.keys ↔ ∃ q, (some k, q) ∈ ls := by
  simp [keys]

@[simp] theorem mem_append :
    Mem (l₁ ++ l₂) k a ↔ Mem l₁ k a ∨ Mem l₂ k a := by
  simp only [Mem, List.mem_append, or_and_right, exists_or]

@[simp] theorem mem_cons {p : Option K × List A} {l : Lanes K A} :
    Mem (p :: l) k a ↔ (p.1 = k ∧ a ∈ p.2) ∨ Mem l k a := by
  obtain ⟨k', q⟩ := p
  simp only [Mem, List.mem_cons, Prod.mk.injEq, or_and_right, exists_or]
  refine or_congr ⟨?_, ?_⟩ Iff.rfl
  · rintro ⟨_, ⟨rfl, rfl⟩, h⟩; exact ⟨rfl, h⟩
  · rintro ⟨rfl, h⟩; exact ⟨q, ⟨rfl, rfl⟩, h⟩

@[simp] theorem not_mem_nil : ¬ Mem ([] : Lanes K A) k a := by
  simp [Mem]

/-- In lanes of good shape a key has one lane. -/
theorem Ok.key_unique (h : Ok ls) {k : K} {q' : List A} (hq : (some k, q) ∈ ls)
    (hq' : (some k, q') ∈ ls) : q = q' := by
  obtain ⟨l₁, l₂, rfl⟩ := List.append_of_mem hq
  have hn := h.keysNodup
  simp only [keys_append, keys_cons, Option.toList_some, List.nodup_append, List.mem_append,
    List.mem_singleton] at hn
  obtain ⟨-, ⟨-, -, h2⟩, h1⟩ := hn
  rcases List.mem_append.1 hq' with h' | h'
  · exact absurd rfl (h1 k (mem_keys.2 ⟨q', h'⟩) k (.inl rfl))
  · rcases List.mem_cons.1 h' with h' | h'
    · simpa using h'.symm
    · exact absurd rfl (h2 k rfl k (mem_keys.2 ⟨q', h'⟩))

/-! ## Putting an item into its lane -/

section
variable [DecidableEq K]

/-- The lanes with `f` applied to the first queue of key `k`, if there is one. -/
def update (k : Option K) (f : List A → List A) : Lanes K A → Option (Lanes K A)
  | [] => none
  | (k', q) :: ls => if k' = k then some ((k', f q) :: ls) else (update k f ls).map ((k', q) :: ·)

/-- `f` puts `a` into the lane of key `k`; without a key or a lane, `a` opens a lane at the
back. -/
def put (f : List A → List A) (ls : Lanes K A) (k : Option K) (a : A) : Lanes K A :=
  if k.isSome then (ls.update k f).getD (ls ++ [(k, [a])]) else ls ++ [(k, [a])]

def pushBack (ls : Lanes K A) (k : Option K) (a : A) : Lanes K A := put (· ++ [a]) ls k a

def pushFront (ls : Lanes K A) (k : Option K) (a : A) : Lanes K A := put (a :: ·) ls k a

theorem update_none (h : ls.update k f = none) : ∀ p ∈ ls, p.1 ≠ k := by
  induction ls with
  | nil => simp
  | cons p ls ih =>
    obtain ⟨k', q⟩ := p
    simp only [update] at h
    split at h
    · cases h
    · rename_i hne
      rw [Option.map_eq_none_iff] at h
      simpa [hne] using ih h

theorem update_some {ls' : Lanes K A} (h : ls.update k f = some ls') :
    ∃ l₁ q l₂, ls = l₁ ++ (k, q) :: l₂ ∧ ls' = l₁ ++ (k, f q) :: l₂ := by
  induction ls generalizing ls' with
  | nil => cases h
  | cons p ls ih =>
    obtain ⟨k', q⟩ := p
    simp only [update] at h
    split at h
    · rename_i hk
      subst hk
      cases h
      exact ⟨[], q, ls, rfl, rfl⟩
    · obtain ⟨ls'', hu, rfl⟩ := Option.map_eq_some_iff.1 h
      obtain ⟨l₁, q', l₂, rfl, rfl⟩ := ih hu
      exact ⟨(k', q) :: l₁, q', l₂, rfl, rfl⟩

/-- `put` changes one queue of an existing key, or opens a lane. -/
theorem put_cases (f : List A → List A) (ls : Lanes K A) (k : Option K) (a : A) :
    (∃ l₁ q l₂, k.isSome ∧ ls = l₁ ++ (k, q) :: l₂ ∧ put f ls k a = l₁ ++ (k, f q) :: l₂) ∨
    (put f ls k a = ls ++ [(k, [a])] ∧ ∀ k', k = some k' → k' ∉ ls.keys) := by
  unfold put
  split
  · rename_i hk
    cases h : ls.update k f with
    | none =>
      refine .inr ⟨rfl, fun k' hk' hm => ?_⟩
      obtain ⟨q, hq⟩ := mem_keys.1 hm
      exact update_none h _ hq hk'.symm
    | some ls' =>
      obtain ⟨l₁, q, l₂, h1, h2⟩ := update_some h
      exact .inl ⟨l₁, q, l₂, hk, h1, h2⟩
  · rename_i hk
    exact .inr ⟨rfl, fun k' hk' => absurd (by rw [hk']; rfl) hk⟩

theorem mem_put (hf : ∀ q b, b ∈ f q ↔ b = a ∨ b ∈ q) (ls : Lanes K A) (k k' : Option K) (b : A) :
    Mem (put f ls k a) k' b ↔ (k' = k ∧ b = a) ∨ Mem ls k' b := by
  rcases put_cases f ls k a with ⟨l₁, q, l₂, -, rfl, h⟩ | ⟨h, -⟩
  · rw [h]
    simp only [mem_append, mem_cons, hf]
    constructor
    · rintro (h | ⟨rfl, rfl | h⟩ | h)
      exacts [.inr (.inl h), .inl ⟨rfl, rfl⟩, .inr (.inr (.inl ⟨rfl, h⟩)), .inr (.inr (.inr h))]
    · rintro (⟨rfl, rfl⟩ | h | ⟨rfl, h⟩ | h)
      exacts [.inr (.inl ⟨rfl, .inl rfl⟩), .inl h, .inr (.inl ⟨rfl, .inr h⟩), .inr (.inr h)]
  · rw [h]
    simp only [mem_append, mem_cons, not_mem_nil, or_false, List.mem_singleton]
    constructor
    · rintro (h | ⟨rfl, rfl⟩)
      exacts [.inr h, .inl ⟨rfl, rfl⟩]
    · rintro (⟨rfl, rfl⟩ | h)
      exacts [.inr ⟨rfl, rfl⟩, .inl h]

theorem Ok.put (hf : ∀ q, (f q).Perm (a :: q)) (h : Ok ls) (k : Option K) (ha : a ∉ ls.items) :
    Ok (Lanes.put f ls k a) := by
  rcases put_cases f ls k a with ⟨l₁, q, l₂, hk, rfl, he⟩ | ⟨he, hnew⟩
  · rw [he]
    have hperm : (items (l₁ ++ (k, f q) :: l₂)).Perm (a :: items (l₁ ++ (k, q) :: l₂)) := by
      simp only [items_append, items_cons]
      refine .trans (.append_left _ (.append_right _ (hf q))) ?_
      exact List.perm_middle
    refine ⟨fun p hp => ?_, ?_, ?_, fun q' hq' => ?_⟩
    · rcases List.mem_append.1 hp with hp | hp
      · exact h.nonempty p (List.mem_append_left _ hp)
      · rcases List.mem_cons.1 hp with rfl | hp
        · intro hnil
          have := (hf q).length_eq
          simp only at hnil
          rw [hnil] at this
          simp at this
        · exact h.nonempty p (List.mem_append_right _ (List.mem_cons_of_mem _ hp))
    · rw [hperm.nodup_iff]
      exact List.nodup_cons.2 ⟨ha, h.itemsNodup⟩
    · simpa [keys_cons] using h.keysNodup
    · refine h.single q' ?_
      rcases List.mem_append.1 hq' with hq' | hq'
      · exact List.mem_append_left _ hq'
      · rcases List.mem_cons.1 hq' with hq' | hq'
        · cases hq'; cases hk
        · exact List.mem_append_right _ (List.mem_cons_of_mem _ hq')
  · rw [he]
    refine ⟨fun p hp => ?_, ?_, ?_, fun q' hq' => ?_⟩
    · rcases List.mem_append.1 hp with hp | hp
      · exact h.nonempty p hp
      · rw [List.mem_singleton.1 hp]
        exact List.cons_ne_nil _ _
    · simp only [items_append, items_cons, items_nil, List.append_nil]
      refine List.Nodup.append h.itemsNodup (List.nodup_singleton a) fun b hb hb' => ?_
      rw [List.mem_singleton.1 hb'] at hb
      exact ha hb
    · rw [keys_append]
      refine List.Nodup.append h.keysNodup ?_ fun k' hk' hm => ?_
      · cases k <;> simp [keys_cons]
      · cases k with
        | none => simp [keys_cons] at hm
        | some k₀ =>
          rw [keys_cons, keys_nil, List.append_nil, Option.toList_some,
            List.mem_singleton] at hm
          exact hnew k₀ rfl (hm ▸ hk')
    · rcases List.mem_append.1 hq' with hq' | hq'
      · exact h.single q' hq'
      · cases List.mem_singleton.1 hq'; rfl

/-- A queue after `put`: an old one, the changed one, or the new one. -/
theorem put_queue {k' : Option K} (h : (k', q) ∈ put f ls k a) :
    (k', q) ∈ ls ∨ (k' = k ∧ k.isSome ∧ ∃ q₀, (k, q₀) ∈ ls ∧ q = f q₀) ∨ (k' = k ∧ q = [a]) := by
  rcases put_cases f ls k a with ⟨l₁, q₀, l₂, hk, rfl, he⟩ | ⟨he, -⟩
  · rw [he] at h
    rcases List.mem_append.1 h with h | h
    · exact .inl (List.mem_append_left _ h)
    · rcases List.mem_cons.1 h with h | h
      · cases h
        exact .inr (.inl ⟨rfl, hk, q₀, by simp, rfl⟩)
      · exact .inl (List.mem_append_right _ (List.mem_cons_of_mem _ h))
  · rw [he] at h
    rcases List.mem_append.1 h with h | h
    · exact .inl h
    · cases List.mem_singleton.1 h
      exact .inr (.inr ⟨rfl, rfl⟩)

end

/-! ## Taking the head of a lane -/

/-- Takes the head of the lane at index `i` and moves the rest of the lane to the back. -/
def takeAt (ls : Lanes K A) (i : Nat) : Option (Option K × A) × Lanes K A :=
  match ls[i]? with
  | none => (none, ls)
  | some (_, []) => (none, ls.eraseIdx i)
  | some (k, a :: q) =>
    (some (k, a), ls.eraseIdx i ++ if q.isEmpty then [] else [(k, q)])

/-- The lane that goes to the back. -/
def rest (k : Option K) (q : List A) : Lanes K A := if q.isEmpty then [] else [(k, q)]

theorem takeAt_some {i : Nat} (h : ls[i]? = some (k, a :: q)) :
    ∃ l₁ l₂, ls = l₁ ++ (k, a :: q) :: l₂ ∧ l₁.length = i ∧
      ls.takeAt i = (some (k, a), l₁ ++ l₂ ++ rest k q) := by
  obtain ⟨hi, hl⟩ := List.getElem?_eq_some_iff.1 h
  refine ⟨ls.take i, ls.drop (i + 1), ?_, by simp; omega, ?_⟩
  · rw [← hl, List.getElem_cons_drop, List.take_append_drop]
  · unfold takeAt
    rw [h]
    simp only [rest, List.eraseIdx_eq_take_drop_succ]

theorem mem_rest {k' : Option K} {b : A} : Mem (rest k q) k' b ↔ k = k' ∧ b ∈ q := by
  unfold rest
  cases q <;> simp

theorem items_rest (k : Option K) (q : List A) : items (rest k q) = q := by
  unfold rest
  cases q <;> simp

theorem mem_rest_iff {p : Option K × List A} : p ∈ rest k q ↔ p = (k, q) ∧ q ≠ [] := by
  unfold rest
  cases q <;> simp

theorem mem_takeAt (h : Ok (l₁ ++ (k, a :: q) :: l₂)) (k' : Option K) (b : A) :
    Mem (l₁ ++ l₂ ++ rest k q) k' b ↔ Mem (l₁ ++ (k, a :: q) :: l₂) k' b ∧ b ≠ a := by
  have hn := h.itemsNodup
  simp only [items_append, items_cons, List.nodup_append, List.mem_append, List.cons_append,
    List.nodup_cons, List.mem_cons, not_or] at hn
  obtain ⟨-, ⟨haq, -⟩, h1⟩ := hn
  simp only [mem_append, mem_cons, mem_rest, List.mem_cons]
  constructor
  · rintro ((hm | hm) | ⟨rfl, hm⟩)
    · exact ⟨.inl hm, h1 b (mem_items.2 ⟨_, hm⟩) a (.inl rfl)⟩
    · exact ⟨.inr (.inr hm), fun he => haq.2 (he ▸ mem_items.2 ⟨_, hm⟩)⟩
    · exact ⟨.inr (.inl ⟨rfl, .inr hm⟩), fun he => haq.1 (he ▸ hm)⟩
  · rintro ⟨hm | ⟨rfl, rfl | hm⟩ | hm, hne⟩
    exacts [.inl (.inl hm), absurd rfl hne, .inr ⟨rfl, hm⟩, .inl (.inr hm)]

theorem Ok.takeAt (h : Ok (l₁ ++ (k, a :: q) :: l₂)) : Ok (l₁ ++ l₂ ++ rest k q) := by
  refine ⟨fun p hp => ?_, ?_, ?_, fun q' hq' => ?_⟩
  · simp only [List.mem_append, mem_rest_iff] at hp
    rcases hp with (hp | hp) | ⟨rfl, hp⟩
    · exact h.nonempty p (List.mem_append_left _ hp)
    · exact h.nonempty p (List.mem_append_right _ (List.mem_cons_of_mem _ hp))
    · exact hp
  · have hn := h.itemsNodup
    simp only [items_append, items_cons, items_rest, List.cons_append] at hn ⊢
    have hperm : (items l₁ ++ items l₂ ++ q).Perm (items l₁ ++ (q ++ items l₂)) := by
      rw [List.append_assoc]
      exact .append_left _ List.perm_append_comm
    rw [hperm.nodup_iff]
    exact (List.nodup_cons.1 (List.perm_middle.nodup_iff.1 hn)).2
  · have hn := h.keysNodup
    rw [keys_append, keys_cons] at hn
    rw [keys_append, keys_append]
    have hperm : (keys l₁ ++ keys l₂ ++ k.toList).Perm (keys l₁ ++ (k.toList ++ keys l₂)) := by
      rw [List.append_assoc]
      exact .append_left _ List.perm_append_comm
    have hn' := hperm.nodup_iff.2 hn
    unfold rest
    split
    · rw [keys_nil, List.append_nil]
      exact (List.nodup_append.1 hn').1
    · rwa [keys_cons, keys_nil, List.append_nil]
  · simp only [List.mem_append, mem_rest_iff] at hq'
    rcases hq' with (hq' | hq') | ⟨hq', hne⟩
    · exact h.single q' (List.mem_append_left _ hq')
    · exact h.single q' (List.mem_append_right _ (List.mem_cons_of_mem _ hq'))
    · cases hq'
      have := h.single (a :: q) (by simp)
      simp only [List.length_cons, Nat.add_eq_right, List.length_eq_zero_iff] at this
      exact absurd this hne

/-! ## Removing an item -/

section
variable [DecidableEq A]

/-- Removes `a` from every queue and drops the queues that run empty. -/
def remove (ls : Lanes K A) (a : A) : Lanes K A :=
  (ls.map fun p => (p.1, p.2.filter (· ≠ a))).filter fun p => !p.2.isEmpty

theorem mem_remove_queue :
    (k, q) ∈ ls.remove a ↔ ∃ q₀, (k, q₀) ∈ ls ∧ q = q₀.filter (· ≠ a) ∧ q ≠ [] := by
  simp only [remove, List.mem_filter, List.mem_map, Prod.mk.injEq, Prod.exists,
    Bool.not_eq_true', List.isEmpty_eq_false_iff]
  constructor
  · rintro ⟨⟨k', q₀, hq, rfl, rfl⟩, hne⟩
    exact ⟨q₀, hq, rfl, hne⟩
  · rintro ⟨q₀, hq, rfl, hne⟩
    exact ⟨⟨k, q₀, hq, rfl, rfl⟩, hne⟩

theorem mem_remove (ls : Lanes K A) (a : A) (k : Option K) (b : A) :
    Mem (ls.remove a) k b ↔ Mem ls k b ∧ b ≠ a := by
  simp only [Mem, mem_remove_queue]
  constructor
  · rintro ⟨q, ⟨q₀, hq, rfl, -⟩, hb⟩
    simp only [ne_eq, decide_not, List.mem_filter, Bool.not_eq_true', decide_eq_false_iff_not]
      at hb
    exact ⟨⟨q₀, hq, hb.1⟩, hb.2⟩
  · rintro ⟨⟨q₀, hq, hb⟩, hne⟩
    have hm : b ∈ q₀.filter (· ≠ a) := by simp [hb, hne]
    exact ⟨_, ⟨q₀, hq, rfl, List.ne_nil_of_mem hm⟩, hm⟩

theorem items_remove (ls : Lanes K A) (a : A) : (ls.remove a).items = ls.items.filter (· ≠ a) := by
  induction ls with
  | nil => rfl
  | cons p ls ih =>
    have hc : remove (p :: ls) a = (if (p.2.filter (· ≠ a)).isEmpty then [] else
        [(p.1, p.2.filter (· ≠ a))]) ++ remove ls a := by
      simp only [remove, List.map_cons, List.filter_cons]
      cases (p.2.filter (· ≠ a)).isEmpty <;> rfl
    rw [hc, items_append, ih, items_cons, List.filter_append]
    congr 1
    cases h : p.2.filter (· ≠ a) <;> simp

theorem keys_remove_sublist (ls : Lanes K A) (a : A) : (ls.remove a).keys.Sublist ls.keys := by
  have h1 : keys (ls.map fun p => (p.1, p.2.filter (· ≠ a))) = ls.keys := by
    simp [keys, List.filterMap_map]
  rw [← h1]
  exact List.Sublist.filterMap _ List.filter_sublist

theorem Ok.remove (h : Ok ls) (a : A) : Ok (ls.remove a) := by
  refine ⟨fun p hp => ?_, ?_, (keys_remove_sublist ls a).nodup h.keysNodup, fun q hq => ?_⟩
  · obtain ⟨_, -, -, hne⟩ := mem_remove_queue.1 hp
    exact hne
  · rw [items_remove]
    exact h.itemsNodup.filter _
  · obtain ⟨q₀, hq₀, rfl, hne⟩ := mem_remove_queue.1 hq
    have h1 := h.single q₀ hq₀
    have hle := List.length_filter_le (· ≠ a) q₀
    have hpos := List.length_pos_iff.2 hne
    omega

end

/-! ## The identity of a lane -/

/-- The lane an item goes to: the lane of its key, or a lane of its own. -/
def laneOf (k : Option K) (a : A) : K ⊕ A :=
  match k with
  | some k => .inl k
  | none => .inr a

def ident : Option K × List A → Option (K ⊕ A)
  | (some k, _) => some (.inl k)
  | (none, q) => q.head?.map .inr

/-- The lanes in rotation order. A lane that disappears and comes back has the same identity. -/
def idents (ls : Lanes K A) : List (K ⊕ A) := ls.filterMap ident

@[simp] theorem ident_cons (k : Option K) (a : A) (q : List A) :
    ident (k, a :: q) = some (laneOf k a) := by
  cases k <;> rfl

@[simp] theorem idents_append (l₁ l₂ : Lanes K A) :
    idents (l₁ ++ l₂) = idents l₁ ++ idents l₂ := List.filterMap_append

theorem idents_cons (k : Option K) (a : A) (q : List A) (l : Lanes K A) :
    idents ((k, a :: q) :: l) = laneOf k a :: idents l := by
  simp [idents]

theorem mem_idents_inl {k : K} (h : .inl k ∈ idents ls) : k ∈ ls.keys := by
  obtain ⟨⟨k', q⟩, hm, he⟩ := List.mem_filterMap.1 h
  cases k' with
  | none =>
    obtain ⟨_, -, he⟩ := Option.map_eq_some_iff.1 he
    cases he
  | some k' =>
    cases he
    exact mem_keys.2 ⟨q, hm⟩

theorem mem_idents_inr (h : .inr a ∈ idents ls) : a ∈ ls.items := by
  obtain ⟨⟨k', q⟩, hm, he⟩ := List.mem_filterMap.1 h
  cases k' with
  | none =>
    obtain ⟨b, hb, he⟩ := Option.map_eq_some_iff.1 he
    cases he
    exact mem_items.2 ⟨none, q, hm, List.mem_of_mem_head? hb⟩
  | some k' => cases he

theorem Ok.idents_nodup (h : Ok ls) : (idents ls).Nodup := by
  have hk : ls.Pairwise fun p p' => ∀ k, p.1 = some k → p'.1 ≠ some k := by
    refine (List.pairwise_filterMap.1 h.keysNodup).imp fun {p p'} hp k hk hk' => ?_
    exact hp k hk k hk' rfl
  have hi : ls.Pairwise fun p p' => List.Disjoint p.2 p'.2 := (List.nodup_flatMap.1 h.itemsNodup).2
  refine List.pairwise_filterMap.2 ((hk.and hi).imp fun {p p'} hp x hx y hy hxy => ?_)
  subst hxy
  obtain ⟨hpk, hpi⟩ := hp
  obtain ⟨k, q⟩ := p
  obtain ⟨k', q'⟩ := p'
  cases k with
  | some k =>
    cases hx
    cases k' with
    | some k' =>
      cases hy
      exact hpk k rfl rfl
    | none =>
      obtain ⟨_, -, he⟩ := Option.map_eq_some_iff.1 hy
      cases he
  | none =>
    obtain ⟨a, ha, rfl⟩ := Option.map_eq_some_iff.1 hx
    cases k' with
    | some k' => cases hy
    | none =>
      obtain ⟨b, hb, he⟩ := Option.map_eq_some_iff.1 hy
      cases he
      exact hpi (List.mem_of_mem_head? ha) (List.mem_of_mem_head? hb)

/-- Putting an item into a lane adds at most its own lane, at the back. -/
theorem idents_put [DecidableEq K] (ha : a ∉ ls.items) :
    idents (put f ls k a) = idents ls ∨
      (laneOf k a ∉ idents ls ∧ idents (put f ls k a) = idents ls ++ [laneOf k a]) := by
  rcases put_cases f ls k a with ⟨l₁, q, l₂, hk, rfl, he⟩ | ⟨he, hnew⟩
  · left
    obtain ⟨k, rfl⟩ := Option.isSome_iff_exists.1 hk
    rw [he]
    simp [idents, ident]
  · right
    refine ⟨fun hm => ?_, by rw [he, idents_append, idents_cons]; rfl⟩
    cases k with
    | some k => exact hnew k rfl (mem_idents_inl hm)
    | none => exact ha (mem_idents_inr hm)

theorem idents_remove [DecidableEq A] (h : ∀ q, (none, q) ∈ ls → q.length = 1) (a : A) :
    (idents (remove ls a)).Sublist (idents ls) := by
  induction ls with
  | nil => exact List.Sublist.refl _
  | cons p l ih =>
    have ih := ih fun q hq => h q (List.mem_cons_of_mem _ hq)
    obtain ⟨k, q⟩ := p
    by_cases he : q.filter (· ≠ a) = []
    · have hr : remove ((k, q) :: l) a = remove l a := by
        simp only [remove, List.map_cons, List.filter_cons, he]
        rfl
      rw [hr]
      refine ih.trans ?_
      unfold idents
      rw [List.filterMap_cons]
      split
      · exact List.Sublist.refl _
      · exact List.sublist_cons_self _ _
    · have hr : remove ((k, q) :: l) a = (k, q.filter (· ≠ a)) :: remove l a := by
        simp only [remove, List.map_cons, List.filter_cons]
        rw [if_pos (by simpa using he)]
      -- the item of a lane without key is still there, so the lane is the same
      have hident : ident (k, q.filter (· ≠ a)) = ident (k, q) := by
        cases k with
        | some k => rfl
        | none =>
          obtain ⟨b, rfl⟩ := List.length_eq_one_iff.1 (h q List.mem_cons_self)
          by_cases hb : b = a
          · simp [hb] at he
          · simp [hb]
      rw [hr]
      unfold idents
      rw [List.filterMap_cons, List.filterMap_cons, hident]
      split
      · exact ih
      · exact ih.cons_cons _

/-- What is left of a lane after its head was taken is the same lane, or nothing. -/
theorem Ok.idents_rest (h : Ok (l₁ ++ (k, a :: q) :: l₂)) :
    idents (rest k q) = [] ∨ idents (rest k q) = [laneOf k a] := by
  unfold rest
  cases q with
  | nil => exact .inl rfl
  | cons b q =>
    cases k with
    | some k => exact .inr rfl
    | none =>
      have := h.single (a :: b :: q) (by simp)
      simp at this

end Lanes

end EventBus.Lib
