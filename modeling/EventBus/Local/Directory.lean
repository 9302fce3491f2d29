import EventBus.Local.Registry

/-!
# Directories

What the routing tables of both providers stand for. The subscriptions of a topic form a `Ring`:
they are in the order of their ids, have one payload type, and the ring knows where the last
publication to the topic began. A `Directory` has a ring for each topic with subscriptions, and no
id twice.

Members leave (`Directory.Shrunk`, `Directory.keep`), a new one joins (`Directory.join`), and a
publication turns the ring of its topic (`Directory.turn`).
-/

namespace EventBus.Local

open Lib

variable {p : Id × QueueRef → Bool} {id : Id}

/-! ## Entries by id -/

section
variable {V : Type} {entries : List (Id × V)}

/-- In the order of their ids. -/
def Ascending (entries : List (Id × V)) : Prop := entries.Pairwise fun a b => a.1.value < b.1.value

theorem Ascending.sublist {entries' : List (Id × V)} (h : Ascending entries)
    (hs : entries'.Sublist entries) : Ascending entries' := List.Pairwise.sublist hs h

theorem Ascending.eq_of_fst (h : Ascending entries) {e e' : Id × V} (he : e ∈ entries)
    (he' : e' ∈ entries) (hid : e.1 = e'.1) : e = e' := by
  induction entries with
  | nil => cases he
  | cons a entries ih =>
    obtain ⟨hlt, hrest⟩ := List.pairwise_cons.1 h
    obtain heq | hm := List.mem_cons.1 he <;> obtain heq' | hm' := List.mem_cons.1 he'
    · rw [heq, heq']
    · have := hlt e' hm'
      rw [← heq, hid] at this
      omega
    · have := hlt e hm
      rw [← heq', hid] at this
      omega
    · exact ih hrest hm hm'

theorem mem_insertById {value : V} (hid : ∀ e ∈ entries, e.1 ≠ id) {e : Id × V} :
    e ∈ insertById id value entries ↔ e = (id, value) ∨ e ∈ entries := by
  induction entries with
  | nil => simp [insertById]
  | cons a entries ih =>
    have ha : id ≠ a.1 := (hid a List.mem_cons_self).symm
    have ih := ih fun e he => hid e (List.mem_cons_of_mem _ he)
    simp only [insertById, if_neg ha]
    split
    · rw [List.mem_cons]
    · rw [List.mem_cons, ih, List.mem_cons]
      tauto

theorem Ascending.insertById {value : V} (h : Ascending entries) (hid : ∀ e ∈ entries, e.1 ≠ id) :
    Ascending (insertById id value entries) := by
  induction entries with
  | nil => exact List.pairwise_singleton _ _
  | cons a entries ih =>
    obtain ⟨hlt, hrest⟩ := List.pairwise_cons.1 h
    have hne : a.1 ≠ id := hid a List.mem_cons_self
    have hids : ∀ e ∈ entries, e.1 ≠ id := fun e he => hid e (List.mem_cons_of_mem _ he)
    simp only [Local.insertById, if_neg hne.symm]
    split
    · rename_i hbelow
      refine List.pairwise_cons.2 ⟨fun e he => ?_, h⟩
      obtain rfl | he := List.mem_cons.1 he
      · exact hbelow
      · have := hlt e he
        show id.value < e.1.value
        omega
    · rename_i hbelow
      refine List.pairwise_cons.2 ⟨fun e he => ?_, ih hrest hids⟩
      obtain rfl | he := (mem_insertById hids).1 he
      · have hvalue : a.1.value ≠ id.value := fun heq => hne (by
          cases ha : a.1
          cases hi : id
          simp_all)
        show a.1.value < id.value
        omega
      · exact hlt e he

/-- The entry at which a publication begins if the last one began at `last`. -/
def successor (last : Option Id) (entries : List (Id × V)) : Option (Id × V) :=
  (last.bind fun last => entries.find? fun e => last.value < e.1.value).or entries.head?

/-- A list turned so that it begins with `first`. -/
def TurnedTo (first : Option (Id × V)) (entries turned : List (Id × V)) : Prop :=
  ∃ before after, entries = before ++ after ∧ turned = after ++ before ∧ turned.head? = first

theorem rotateLeft_of_lt {k : Nat} (h : k < entries.length) :
    entries.rotateLeft k = entries.drop k ++ entries.take k := by
  unfold List.rotateLeft
  simp only
  split
  · have hk : k = 0 := by omega
    subst hk
    simp
  · rw [Nat.mod_eq_of_lt h]

theorem rotateLeft_turned (last : Option Id) (entries : List (Id × V)) :
    TurnedTo (successor last entries) entries
      (entries.rotateLeft (rotationStart last entries)) := by
  have hzero : entries.rotateLeft 0 = entries := by
    cases entries with
    | nil => rfl
    | cons e entries => rw [rotateLeft_of_lt (by simp)]; simp
  unfold rotationStart successor
  cases last with
  | none => exact ⟨[], entries, rfl, by simp [hzero], by simp [hzero]⟩
  | some last =>
    simp only [Option.bind_some]
    cases hidx : entries.findIdx? fun e => decide (last.value < e.1.value) with
    | none =>
      have hnone : entries.find? (fun e => decide (last.value < e.1.value)) = none := by
        rw [List.find?_eq_none]
        simpa using List.findIdx?_eq_none_iff.1 hidx
      rw [hnone, Option.none_or]
      exact ⟨[], entries, rfl, by simp [hzero], by simp [hzero]⟩
    | some k =>
      obtain ⟨hk, hp, hbefore⟩ := List.findIdx?_eq_some_iff_getElem.1 hidx
      have hfind : entries.find? (fun e => decide (last.value < e.1.value)) = some entries[k] :=
        List.find?_eq_some_iff_getElem.2 ⟨hp, k, hk, rfl, fun j hj => by
          simpa using hbefore j hj⟩
      rw [hfind, Option.some_or, Option.getD_some, rotateLeft_of_lt hk]
      refine ⟨entries.take k, entries.drop k, (List.take_append_drop k entries).symm, rfl, ?_⟩
      rw [List.drop_eq_getElem_cons hk]
      rfl

theorem TurnedTo.perm {first : Option (Id × V)} {turned : List (Id × V)}
    (h : TurnedTo first entries turned) : turned.Perm entries := by
  obtain ⟨before, after, rfl, rfl, -⟩ := h
  exact List.perm_append_comm

end

/-! ## Rings -/

/-- The subscriptions of a topic. -/
structure Ring where
  members : List (Id × QueueRef)
  payloadType : TypeId
  /-- The id at which the last publication began. -/
  cursor : Option Id
  nonempty : members ≠ []
  ascending : Ascending members

variable {r : Ring}

namespace Ring

/-- The members with the property `p` stay; there is no ring without members. -/
def keep (p : Id × QueueRef → Bool) (r : Ring) : Option Ring :=
  if h : r.members.filter p = [] then none
  else some { r with
    members := r.members.filter p
    nonempty := h
    ascending := r.ascending.sublist List.filter_sublist }

/-- The members in the order in which the next publication comes to them. -/
def order (r : Ring) : List (Id × QueueRef) :=
  r.members.rotateLeft (rotationStart r.cursor r.members)

/-- A publication takes its turn. -/
def turn (r : Ring) : Ring := { r with cursor := r.order.head?.map Prod.fst }

theorem order_turned (r : Ring) : TurnedTo (successor r.cursor r.members) r.members r.order :=
  rotateLeft_turned r.cursor r.members

theorem keep_eq_some {r' : Ring} (h : r.keep p = some r') :
    r'.members = r.members.filter p ∧ r'.payloadType = r.payloadType ∧ r'.cursor = r.cursor := by
  unfold keep at h
  split at h
  · cases h
  · cases h
    exact ⟨rfl, rfl, rfl⟩

theorem keep_eq_none :
    r.keep p = none ↔ r.members.filter p = [] := by
  unfold keep
  split <;> simp [*]

/-- If all stay, nothing changes. -/
theorem keep_congr {p' : Id × QueueRef → Bool} (h : ∀ e ∈ r.members, p e = p' e) :
    r.keep p = r.keep p' := by
  simp only [keep, List.filter_congr h]

theorem keep_all (h : ∀ e ∈ r.members, p e = true) : r.keep p = some r := by
  have hall : r.members.filter p = r.members := List.filter_eq_self.2 h
  unfold keep
  rw [dif_neg (by rw [hall]; exact r.nonempty)]
  cases r
  simp_all

end Ring

/-! ## Directories -/

/-- The rings of the topics that have one. -/
structure Directory where
  ring : TopicAddress → Option Ring
  /-- An id is in one ring only. -/
  once : ∀ {topic topic' : TopicAddress} {r r' : Ring} {e e' : Id × QueueRef},
    ring topic = some r → ring topic' = some r' → e ∈ r.members → e' ∈ r'.members → e.1 = e'.1 →
    topic = topic'

namespace Directory

variable {e : Id × QueueRef}

def empty : Directory := ⟨fun _ => none, fun h => nomatch h⟩

/-- The subscriptions of a topic. -/
def members (d : Directory) (topic : TopicAddress) : List (Id × QueueRef) :=
  (d.ring topic).elim [] Ring.members

/-- The id is in use. -/
def Has (d : Directory) (id : Id) : Prop := ∃ topic, ∃ e ∈ d.members topic, e.1 = id

variable {d d' d₁ d₂ d₃ : Directory} {topic : TopicAddress}

theorem eq_of_ring (h : d.ring = d'.ring) : d = d' := by
  cases d
  cases d'
  cases h
  rfl

theorem members_of_ring (h : d.ring topic = some r) : d.members topic = r.members := by
  rw [members, h, Option.elim_some]

theorem mem_members :
    e ∈ d.members topic ↔ ∃ r, d.ring topic = some r ∧ e ∈ r.members := by
  unfold members
  cases d.ring topic <;> simp

theorem members_ascending (d : Directory) (topic : TopicAddress) : Ascending (d.members topic) := by
  unfold members
  cases d.ring topic with
  | none => exact List.Pairwise.nil
  | some r => exact r.ascending

theorem topic_eq {topic' : TopicAddress} {e' : Id × QueueRef} (he : e ∈ d.members topic)
    (he' : e' ∈ d.members topic') (hid : e.1 = e'.1) : topic = topic' := by
  obtain ⟨r, hr, he⟩ := mem_members.1 he
  obtain ⟨r', hr', he'⟩ := mem_members.1 he'
  exact d.once hr hr' he he' hid

/-! ### Members leave -/

/-- Only members have left. -/
def Shrunk (d d' : Directory) : Prop :=
  ∀ topic r', d'.ring topic = some r' → ∃ r, d.ring topic = some r ∧
    r'.members.Sublist r.members ∧ r'.payloadType = r.payloadType ∧ r'.cursor = r.cursor

theorem Shrunk.refl (d : Directory) : d.Shrunk d :=
  fun _ r h => ⟨r, h, List.Sublist.refl _, rfl, rfl⟩

theorem Shrunk.trans (h : d₁.Shrunk d₂) (h' : d₂.Shrunk d₃) : d₁.Shrunk d₃ := by
  intro topic r₃ h₃
  obtain ⟨r₂, h₂, hs₂, ht₂, hc₂⟩ := h' topic r₃ h₃
  obtain ⟨r₁, h₁, hs₁, ht₁, hc₁⟩ := h topic r₂ h₂
  exact ⟨r₁, h₁, hs₂.trans hs₁, ht₂.trans ht₁, hc₂.trans hc₁⟩

theorem empty_shrunk (d : Directory) : d.Shrunk empty := fun _ _ h => nomatch h

theorem Shrunk.members (h : d.Shrunk d') (topic : TopicAddress) :
    (d'.members topic).Sublist (d.members topic) := by
  cases hr : d'.ring topic with
  | none => simp [Directory.members, hr]
  | some r' =>
    obtain ⟨r, hd, hs, -⟩ := h topic r' hr
    rwa [members_of_ring hr, members_of_ring hd]

/-- The members of a topic without the property `p` leave. -/
def keep (d : Directory) (topic : TopicAddress) (p : Id × QueueRef → Bool) : Directory where
  ring t := if t = topic then (d.ring t).bind (Ring.keep p) else d.ring t
  once := by
    intro t t' r r' e e' hr hr' he he'
    have hsub : ∀ {t : TopicAddress} {r : Ring} {e : Id × QueueRef},
        (if t = topic then (d.ring t).bind (Ring.keep p) else d.ring t) = some r → e ∈ r.members →
        ∃ r₀, d.ring t = some r₀ ∧ e ∈ r₀.members := by
      intro t r e hr he
      split at hr
      · obtain ⟨r₀, h₀, hk⟩ := Option.bind_eq_some_iff.1 hr
        rw [(Ring.keep_eq_some hk).1] at he
        exact ⟨r₀, h₀, List.mem_of_mem_filter he⟩
      · exact ⟨r, hr, he⟩
    obtain ⟨r₀, h₀, he⟩ := hsub hr he
    obtain ⟨r₀', h₀', he'⟩ := hsub hr' he'
    exact d.once h₀ h₀' he he'

theorem keep_shrunk (d : Directory) (topic : TopicAddress) (p : Id × QueueRef → Bool) :
    d.Shrunk (d.keep topic p) := by
  intro t r' hr'
  simp only [keep] at hr'
  split at hr'
  · obtain ⟨r, hr, hk⟩ := Option.bind_eq_some_iff.1 hr'
    obtain ⟨hm, ht, hc⟩ := Ring.keep_eq_some hk
    exact ⟨r, hr, hm ▸ List.filter_sublist, ht, hc⟩
  · exact ⟨r', hr', List.Sublist.refl _, rfl, rfl⟩

theorem keep_members (d : Directory) (topic t : TopicAddress) (p : Id × QueueRef → Bool) :
    (d.keep topic p).members t = if t = topic then (d.members t).filter p else d.members t := by
  unfold members keep
  simp only
  split
  · cases d.ring t with
    | none => rfl
    | some r =>
      simp only [Option.bind_some, Option.elim_some]
      cases hk : r.keep p with
      | none => rw [Ring.keep_eq_none.1 hk]; rfl
      | some r' => exact (Ring.keep_eq_some hk).1
  · rfl

/-! ### A member joins -/

theorem keep_congr {p' : Id × QueueRef → Bool} (h : ∀ e ∈ d.members topic, p e = p' e) :
    d.keep topic p = d.keep topic p' := by
  refine eq_of_ring (funext fun t => ?_)
  simp only [keep]
  split
  · rename_i ht
    subst ht
    cases hr : d.ring t with
    | none => rfl
    | some r => exact Ring.keep_congr fun e he => h e (mem_members.2 ⟨r, hr, he⟩)
  · rfl

theorem keep_all (h : ∀ e ∈ d.members topic, p e = true) : d.keep topic p = d := by
  refine eq_of_ring (funext fun t => ?_)
  simp only [keep]
  split
  · rename_i ht
    subst ht
    cases hr : d.ring t with
    | none => rfl
    | some r => exact Ring.keep_all fun e he => h e (mem_members.2 ⟨r, hr, he⟩)
  · rfl

/-- The ring of a topic with a new member; it is made if there is none. -/
def joined (d : Directory) (topic : TopicAddress) (id : Id) (q : QueueRef) (type : TypeId)
    (hid : ¬ d.Has id) : Ring where
  members := insertById id q (d.members topic)
  payloadType := type
  cursor := (d.ring topic).bind Ring.cursor
  nonempty := fun hnil => by
    have hm : (id, q) ∈ insertById id q (d.members topic) :=
      (mem_insertById fun e he heq => hid ⟨topic, e, he, heq⟩).2 (.inl rfl)
    rw [hnil] at hm
    cases hm
  ascending := (d.members_ascending topic).insertById fun e he heq => hid ⟨topic, e, he, heq⟩

/-- A new id joins the ring of a topic. -/
def join (d : Directory) (topic : TopicAddress) (id : Id) (q : QueueRef) (type : TypeId)
    (hid : ¬ d.Has id) : Directory where
  ring t := if t = topic then some (d.joined topic id q type hid) else d.ring t
  once := by
    intro t t' r r' e e' hr hr' he he' heq
    -- a member is the new one, or it was there before
    have hold : ∀ {t : TopicAddress} {r : Ring} {e : Id × QueueRef},
        (if t = topic then some (d.joined topic id q type hid) else d.ring t) = some r →
        e ∈ r.members → t = topic ∧ e.1 = id ∨ e ∈ d.members t := by
      intro t r e hr he
      split at hr
      · rename_i ht
        subst ht
        cases hr
        obtain rfl | he := (mem_insertById fun e he heq => hid ⟨t, e, he, heq⟩).1 he
        · exact .inl ⟨rfl, rfl⟩
        · exact .inr he
      · exact .inr (mem_members.2 ⟨r, hr, he⟩)
    obtain ⟨h₁, hid₁⟩ | hm := hold hr he <;> obtain ⟨h₂, hid₂⟩ | hm' := hold hr' he'
    · rw [h₁, h₂]
    · exact absurd ⟨t', e', hm', heq ▸ hid₁⟩ hid
    · exact absurd ⟨t, e, hm, heq.trans hid₂⟩ hid
    · exact topic_eq hm hm' heq

theorem mem_join {q : QueueRef} {type : TypeId} (hid : ¬ d.Has id) {t : TopicAddress} :
    e ∈ (d.join topic id q type hid).members t ↔ t = topic ∧ e = (id, q) ∨ e ∈ d.members t := by
  unfold join
  rw [members]
  simp only
  split
  · rename_i ht
    subst ht
    simp only [Option.elim_some, true_and]
    exact mem_insertById fun e he heq => hid ⟨t, e, he, heq⟩
  · rename_i ht
    simp [ht, members]

/-! ### A publication -/

/-- The ring of the topic turns. -/
def turn (d : Directory) (topic : TopicAddress) : Directory where
  ring t := if t = topic then (d.ring t).map Ring.turn else d.ring t
  once := by
    intro t t' r r' e e' hr hr' he he'
    have hsame : ∀ {t : TopicAddress} {r : Ring} {e : Id × QueueRef},
        (if t = topic then (d.ring t).map Ring.turn else d.ring t) = some r → e ∈ r.members →
        ∃ r₀, d.ring t = some r₀ ∧ e ∈ r₀.members := by
      intro t r e hr he
      split at hr
      · obtain ⟨r₀, h₀, rfl⟩ := Option.map_eq_some_iff.1 hr
        exact ⟨r₀, h₀, he⟩
      · exact ⟨r, hr, he⟩
    obtain ⟨r₀, h₀, he⟩ := hsame hr he
    obtain ⟨r₀', h₀', he'⟩ := hsame hr' he'
    exact d.once h₀ h₀' he he'

theorem turn_members (d : Directory) (topic t : TopicAddress) :
    (d.turn topic).members t = d.members t := by
  unfold members turn
  simp only
  split
  · cases d.ring t <;> rfl
  · rfl

/-- The destinations of a publication to the topic, in the order in which it comes to them. -/
def order (d : Directory) (topic : TopicAddress) : List (Id × QueueRef) :=
  (d.ring topic).elim [] Ring.order

theorem turn_none (h : d.ring topic = none) : d.turn topic = d := by
  refine eq_of_ring (funext fun t => ?_)
  simp only [turn]
  split
  · rename_i ht
    rw [ht, h]
    rfl
  · rfl

theorem order_perm (d : Directory) (topic : TopicAddress) :
    (d.order topic).Perm (d.members topic) := by
  unfold order members
  cases d.ring topic with
  | none => exact .refl _
  | some r => exact r.order_turned.perm

end Directory

end EventBus.Local
