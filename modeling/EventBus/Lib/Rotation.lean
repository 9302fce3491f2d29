import Mathlib.Data.List.Nodup

/-!
# Order in a rotation

`Ahead l b a`: in the list `l`, `b` stands somewhere before `a`. Removing other elements and adding
elements at the back cannot bring `b` ahead of `a`; an element that goes to the back is ahead of
nobody. These are the facts a bounded-bypass argument about a rotation needs.
The choices made from a rotation, the first element or index with a property, depend only on the
property of its elements.
-/

namespace EventBus.Lib

variable {X : Type} {l l' : List X} {a b : X}

/-- `b` stands before `a`. -/
def Ahead (l : List X) (b a : X) : Prop := [b, a].Sublist l

theorem Ahead.sublist (hl : l'.Sublist l) (h : Ahead l' b a) :
    Ahead l b a := h.trans hl

theorem Ahead.mem_left (h : Ahead l b a) : b ∈ l :=
  h.subset List.mem_cons_self

theorem ahead_cons (h : a ∈ l) : Ahead (b :: l) b a :=
  List.cons_sublist_cons.2 (List.singleton_sublist.2 h)

theorem ahead_append_cons {l₁ l₂ : List X} (h : a ∈ l₂) : Ahead (l₁ ++ b :: l₂) b a :=
  (ahead_cons h).sublist (List.sublist_append_right _ _)

/-- What comes in at the back stands ahead of nothing that was there. -/
theorem Ahead.of_append (h : Ahead (l ++ l') b a) (ha : a ∉ l') : Ahead l b a := by
  obtain ⟨l₁, l₂, hl, h₁, h₂⟩ := List.sublist_append_iff.1 h
  -- `a` is the last of the two and not in the second part, which is therefore empty
  cases l₁ with
  | nil =>
    rw [List.nil_append] at hl
    exact absurd (h₂.subset (hl ▸ by simp)) ha
  | cons x l₁ =>
    cases l₁ with
    | nil =>
      have hl : [a] = l₂ := (List.cons.inj hl).2
      exact absurd (h₂.subset (hl ▸ List.mem_cons_self)) ha
    | cons y l₁ =>
      simp only [List.cons_append, List.cons.injEq, List.nil_eq, List.append_eq_nil_iff] at hl
      obtain ⟨rfl, rfl, rfl, -⟩ := hl
      exact h₁

/-- An element at the back is ahead of no other. -/
theorem not_ahead_append_singleton (hb : b ∉ l) (hab : a ≠ b) : ¬ Ahead (l ++ [b]) b a := by
  intro h
  exact hb (h.of_append (fun ha => hab (List.mem_singleton.1 ha))).mem_left

/-- Elements leave, or a new one comes in at the back. -/
def Edited (l l' : List X) : Prop := l'.Sublist l ∨ ∃ x, x ∉ l ∧ l' = l ++ [x]

/-- `x` has its turn: it leaves its place, and may come in again at the back. -/
def Moved (l l' : List X) (x : X) : Prop :=
  ∃ r, r.Sublist l ∧ x ∉ r ∧ (l' = r ∨ l' = r ++ [x])

theorem Edited.refl (l : List X) : Edited l l := .inl (List.Sublist.refl l)

theorem Edited.ahead (he : Edited l l') (ha : a ∈ l) (h : Ahead l' b a) : Ahead l b a := by
  rcases he with he | ⟨x, hx, rfl⟩
  · exact h.sublist he
  · exact h.of_append fun hm => hx (List.mem_singleton.1 hm ▸ ha)

theorem Moved.ahead {x : X} (hm : Moved l l' x) (hax : a ≠ x) (h : Ahead l' b a) : Ahead l b a := by
  obtain ⟨r, hr, -, rfl | rfl⟩ := hm
  · exact h.sublist hr
  · exact (h.of_append fun hm => hax (List.mem_singleton.1 hm)).sublist hr

theorem Moved.not_ahead {x : X} (hm : Moved l l' x) (hax : a ≠ x) : ¬ Ahead l' x a := by
  obtain ⟨r, -, hx, rfl | rfl⟩ := hm
  · exact fun h => hx h.mem_left
  · exact not_ahead_append_singleton hx hax

/-! ## Choosing the first -/

theorem findIdx?_congr {p q : X → Bool} (h : ∀ a ∈ l, p a = q a) : l.findIdx? p = l.findIdx? q := by
  induction l with
  | nil => rfl
  | cons a l ih =>
    rw [List.findIdx?_cons, List.findIdx?_cons, h a List.mem_cons_self,
      ih fun b hb => h b (List.mem_cons_of_mem _ hb)]

theorem findSome?_congr {Y : Type} {f g : X → Option Y} (h : ∀ a ∈ l, f a = g a) :
    l.findSome? f = l.findSome? g := by
  induction l with
  | nil => rfl
  | cons a l ih =>
    rw [List.findSome?_cons, List.findSome?_cons, h a List.mem_cons_self,
      ih fun b hb => h b (List.mem_cons_of_mem _ hb)]

end EventBus.Lib
