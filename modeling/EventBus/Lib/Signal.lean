import EventBus.Lib.Map

/-!
# Tables of wakers

A task that waits for a state puts its waker into a table and looks at the state afterwards. Whoever
changes the state takes the table afterwards and wakes every waker in it. The two orders together
exclude a lost wakeup: a waker that a task has left behind is in the table, or a notification has
taken it, or it has been woken, and while it is only in the table, a change is followed by a
notification that is still to run (`Safe`).

A waiter is known by an id, which is taken from a counter of 64 bits that wraps.
-/

namespace EventBus.Lib

structure Signal (W : Type) where
  nextId : Nat
  waiters : Map Nat W

namespace Signal

variable {W : Type}

def new : Signal W := ⟨0, ∅⟩

/-- `fetch_add(1)`. -/
def allocate (s : Signal W) : Nat × Signal W :=
  (s.nextId, { s with nextId := (s.nextId + 1) % 2 ^ 64 })

def insert (s : Signal W) (id : Nat) (waker : W) : Signal W :=
  { s with waiters := s.waiters.insert id waker }

def remove (s : Signal W) (id : Nat) : Signal W := { s with waiters := s.waiters.erase id }

/-- The wakers to wake, and the empty table. -/
def drain (s : Signal W) : Map Nat W × Signal W := (s.waiters, { s with waiters := ∅ })

/-- The waker `w` of the waiter `id` has been woken, or it is held by a notification, or it is in
the table, and then a notification is owed if one is needed. -/
def Safe (s : Signal W) (id : Nat) (w : W) (woken held owed : Prop) : Prop :=
  woken ∨ held ∨ s.waiters.lookup id = some w ∧ owed

/-- What one step may do: wake the waker, take it, or leave it in the table. -/
theorem Safe.step {s s' : Signal W} {id : Nat} {w : W} {woken woken' held held' owed owed' : Prop}
    (h : Safe s id w woken held owed) (hwoken : woken → woken') (hheld : held → woken' ∨ held')
    (htable : s.waiters.lookup id = some w → owed →
      s'.waiters.lookup id = some w ∧ owed' ∨ held') : Safe s' id w woken' held' owed' := by
  rcases h with h | h | ⟨h, ho⟩
  · exact .inl (hwoken h)
  · exact (hheld h).imp_right .inl
  · exact .inr (htable h ho).symm

@[simp] theorem lookup_insert (s : Signal W) (id j : Nat) (w : W) :
    (s.insert id w).waiters.lookup j = if j = id then some w else s.waiters.lookup j :=
  Map.lookup_insert_eq s.waiters id j w

@[simp] theorem lookup_remove (s : Signal W) (id j : Nat) :
    (s.remove id).waiters.lookup j = if j = id then none else s.waiters.lookup j :=
  Map.lookup_erase_eq s.waiters id j

end Signal

/-! ## Since the last mark -/

section
variable {E : Type} {mark : E} {P : E → Prop} {j es : List E}

/-- `P` holds of an entry of the journal after the last `mark` in it. -/
def Since (mark : E) (P : E → Prop) (j : List E) : Prop :=
  ∃ before after, j = before ++ mark :: after ∧ mark ∉ after ∧ ∃ e ∈ after, P e

theorem Since.append (h : Since mark P j) (hes : mark ∉ es) : Since mark P (j ++ es) := by
  obtain ⟨before, after, rfl, hafter, e, he, hP⟩ := h
  refine ⟨before, after ++ es, by simp, ?_, e, List.mem_append_left _ he, hP⟩
  rw [List.mem_append]
  exact fun hmem => hmem.elim hafter hes

theorem since_of_mem (hmark : mark ∈ j) (hes : mark ∉ es) {e : E} (he : e ∈ es) (hP : P e) :
    Since mark P (j ++ es) := by
  obtain ⟨after, before, heq, hafter⟩ := List.eq_append_cons_of_mem (List.mem_reverse.2 hmark)
  have hj : j = before.reverse ++ mark :: after.reverse := by
    rw [← List.reverse_reverse j, heq]
    simp
  refine ⟨before.reverse, after.reverse ++ es, by simp [hj], ?_, e, List.mem_append_right _ he, hP⟩
  rw [List.mem_append, List.mem_reverse]
  exact fun hmem => hmem.elim hafter hes

end

end EventBus.Lib
