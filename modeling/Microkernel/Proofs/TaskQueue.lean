/-
Task queues are sequences without repetition.

`q.Spells l` says that the links of the queue `q` join exactly the ids of the list `l`, in
this order and without repetition: head, tail, length and both neighbours of every id are
those of `l`.

* **`Spells.toList_eq`**: walking the queue from its head yields the sequence;
* **`Spells.append`**, **`Spells.insertBefore`**, **`Spells.insertAfter`**: an insertion puts a
  new id at its place;
* **`Spells.remove`**: a removal takes out one id and nothing else.

Design notes: both insertions and the removal are about a split `l = a ++ b` of the sequence,
since the links that change are those of the last id of `a` and of the first one of `b`.
-/
import Microkernel.TaskQueue

namespace Microkernel.TaskQueue

/-! ### Reading the link table -/

theorem link?_grown (links : Array (Option Link)) (id j : Nat) :
    ((grown links id)[j]?).join = (links[j]?).join := by
  rw [grown, Array.getElem?_append]
  split
  · rfl
  · rename_i hj
    rw [Array.getElem?_replicate, Array.getElem?_eq_none (by omega)]
    split <;> rfl

theorem lt_size_grown (links : Array (Option Link)) (id : Nat) :
    id < (grown links id).size := by
  rw [grown, Array.size_append, Array.size_replicate]
  omega

theorem link?_relink (q : TaskQueue) (id : TaskId) (f : Link → Link) (j : TaskId) :
    (q.relink id f).link? j = if j = id then (q.link? j).map f else q.link? j := by
  simp only [link?, relink, Array.getElem?_modify]
  by_cases hj : j = id
  · subst hj
    cases h : q.links[j]? with
    | none => simp
    | some o => cases o <;> simp
  · have hne : id ≠ j := fun e => hj e.symm
    simp [hj, hne]

theorem link?_enter (q : TaskQueue) (id : TaskId) (link : Link) (j : TaskId) :
    (q.enter id link).link? j = if j = id then some link else q.link? j := by
  simp only [link?, enter, Array.getElem?_setIfInBounds]
  by_cases hj : j = id
  · subst hj
    simp [lt_size_grown]
  · have hne : id ≠ j := fun e => hj e.symm
    simp [hj, hne, link?_grown]

theorem link?_setNextOf (q : TaskQueue) (p id : Option TaskId) (j : TaskId) :
    (q.setNextOf p id).link? j =
      if p = some j then (q.link? j).map fun l => { l with next := id } else q.link? j := by
  cases p with
  | none => rfl
  | some p =>
    rw [setNextOf, link?_relink]
    simp only [Option.some_inj, eq_comm]

theorem link?_setPreviousOf (q : TaskQueue) (n id : Option TaskId) (j : TaskId) :
    (q.setPreviousOf n id).link? j =
      if n = some j then (q.link? j).map fun l => { l with previous := id } else q.link? j := by
  cases n with
  | none => rfl
  | some n =>
    rw [setPreviousOf, link?_relink]
    simp only [Option.some_inj, eq_comm]

@[simp] theorem length_setNextOf (q : TaskQueue) (p id : Option TaskId) :
    (q.setNextOf p id).length = q.length := by
  cases p <;> rfl

@[simp] theorem length_setPreviousOf (q : TaskQueue) (n id : Option TaskId) :
    (q.setPreviousOf n id).length = q.length := by
  cases n <;> rfl

theorem head_setNextOf (q : TaskQueue) (p id : Option TaskId) :
    (q.setNextOf p id).head = if p = none then id else q.head := by
  cases p <;> rfl

@[simp] theorem tail_setNextOf (q : TaskQueue) (p id : Option TaskId) :
    (q.setNextOf p id).tail = q.tail := by
  cases p <;> rfl

@[simp] theorem head_setPreviousOf (q : TaskQueue) (n id : Option TaskId) :
    (q.setPreviousOf n id).head = q.head := by
  cases n <;> rfl

theorem tail_setPreviousOf (q : TaskQueue) (n id : Option TaskId) :
    (q.setPreviousOf n id).tail = if n = none then id else q.tail := by
  cases n <;> rfl

/-! ### Both sides of a place -/

section Sides

variable {q : TaskQueue} {a b c : List TaskId} {j : TaskId} {p n x y : Option TaskId}

theorem head?_ne_of_nodup (h : (a ++ b).Nodup) (hj : j ∈ a) : b.head? ≠ some j := by
  intro hhead
  exact (List.nodup_append.1 h).2.2 j hj j (List.mem_of_mem_head? hhead) rfl

theorem getLast?_ne_of_nodup (h : (a ++ b).Nodup) (hj : j ∈ b) : a.getLast? ≠ some j := by
  intro hlast
  exact (List.nodup_append.1 h).2.2 j (List.mem_of_getLast? hlast) j hj rfl

/-- In front of the place, only the last id gets another successor. -/
theorem link?_sides_left (hhead : b.head? ≠ some j) (hc : j ∉ c) (hj : q.link? j = some ⟨p, n⟩) :
    ((q.setNextOf (a ++ j :: c).getLast? x).setPreviousOf b.head? y).link? j =
      some ⟨p, if c = [] then x else n⟩ := by
  rw [link?_setPreviousOf, if_neg hhead, link?_setNextOf, hj]
  rcases List.eq_nil_or_concat c with rfl | ⟨c, z, rfl⟩
  · simp
  · rw [List.concat_eq_append] at hc ⊢
    have hz : z ≠ j := by
      rintro rfl
      exact hc (List.mem_append_right _ List.mem_cons_self)
    have hlast : (a ++ j :: (c ++ [z])).getLast? = some z := by
      rw [← List.cons_append, ← List.append_assoc, List.getLast?_concat]
    simp [hlast, hz]

/-- Behind the place, only the first id gets another predecessor. -/
theorem link?_sides_right (hlast : a.getLast? ≠ some j) (hc : j ∉ c)
    (hj : q.link? j = some ⟨p, n⟩) :
    ((q.setNextOf a.getLast? x).setPreviousOf (c ++ j :: b).head? y).link? j =
      some ⟨if c = [] then y else p, n⟩ := by
  rw [link?_setPreviousOf, link?_setNextOf, if_neg hlast, hj]
  cases c with
  | nil => simp
  | cons z c =>
    have hz : z ≠ j := fun e => hc (e ▸ List.mem_cons_self)
    simp [hz]

theorem link?_sides_none (hj : q.link? j = none) :
    ((q.setNextOf p x).setPreviousOf n y).link? j = none := by
  rw [link?_setPreviousOf, link?_setNextOf, hj]
  simp

end Sides

/-! ### The sequence of a queue -/

/-- `q` links exactly the ids of `l`, in this order. -/
structure Spells (q : TaskQueue) (l : List TaskId) : Prop where
  nodup : l.Nodup
  head : q.head = l.head?
  tail : q.tail = l.getLast?
  length : q.length = l.length
  unlinked : ∀ id, id ∉ l → q.link? id = none
  linked : ∀ a id b, l = a ++ id :: b → q.link? id = some ⟨a.getLast?, b.head?⟩

variable {q : TaskQueue} {l : List TaskId}

theorem spells_empty : empty.Spells [] where
  nodup := List.nodup_nil
  head := rfl
  tail := rfl
  length := rfl
  unlinked id _ := by simp [link?, empty]
  linked a id b h := by simp at h

namespace Spells

theorem contains_iff (h : q.Spells l) (id : TaskId) : q.contains id = true ↔ id ∈ l := by
  rw [contains]
  by_cases hm : id ∈ l
  · obtain ⟨a, b, rfl⟩ := List.append_of_mem hm
    simp [h.linked a id b rfl]
  · simp [h.unlinked id hm, hm]

theorem isEmpty_iff (h : q.Spells l) : q.isEmpty = true ↔ l = [] := by
  rw [isEmpty, h.head]
  cases l <;> simp

theorem next_eq (h : q.Spells l) {a b : List TaskId} {id : TaskId} (hl : l = a ++ id :: b) :
    q.next id = b.head? := by
  rw [next, h.linked a id b hl]
  rfl

theorem previous_eq (h : q.Spells l) {a b : List TaskId} {id : TaskId}
    (hl : l = a ++ id :: b) : q.previous id = a.getLast? := by
  rw [previous, h.linked a id b hl]
  rfl

/-- Walking stops behind the last id, however many links may be followed. -/
theorem walk_eq (h : q.Spells l) {a b : List TaskId} (hl : l = a ++ b) (extra : Nat) :
    q.walk (b.length + extra) b.head? = b := by
  induction b generalizing a with
  | nil => cases extra <;> rfl
  | cons id b ih =>
    rw [List.length_cons, Nat.add_right_comm, List.head?_cons, walk, h.next_eq hl]
    have hrest : l = (a ++ [id]) ++ b := by rw [hl, List.append_assoc, List.singleton_append]
    rw [ih hrest]

theorem toList_eq (h : q.Spells l) : q.toList = l := by
  rw [toList, h.length, h.head]
  exact h.walk_eq (a := []) rfl 0

/-- A place in a sequence with one more element is the new place or one on either side. -/
theorem place {a b a' b' : List TaskId} {id j : TaskId} (h : a ++ id :: b = a' ++ j :: b') :
    (a' = a ∧ j = id ∧ b' = b) ∨ (∃ c, a = a' ++ j :: c ∧ b' = c ++ id :: b) ∨
      ∃ c, b = c ++ j :: b' ∧ a' = a ++ id :: c := by
  rcases List.append_eq_append_iff.1 h with ⟨c, ha, hb⟩ | ⟨c, ha, hb⟩
  · cases c with
    | nil =>
      obtain ⟨rfl, rfl⟩ := List.cons.inj hb
      exact .inl ⟨by simpa using ha, rfl, rfl⟩
    | cons x c =>
      obtain ⟨rfl, rfl⟩ := List.cons.inj hb
      exact .inr (.inr ⟨c, rfl, ha⟩)
  · cases c with
    | nil =>
      obtain ⟨rfl, rfl⟩ := List.cons.inj hb
      exact .inl ⟨by simpa using ha.symm, rfl, rfl⟩
    | cons x c =>
      obtain ⟨rfl, rfl⟩ := List.cons.inj hb
      exact .inr (.inl ⟨c, ha, rfl⟩)

/-- Linking a new id between two neighbours puts it between them. -/
theorem between (h : q.Spells l) {a b : List TaskId} {id : TaskId} (hl : l = a ++ b)
    (hid : id ∉ l) : (q.between a.getLast? id b.head?).Spells (a ++ id :: b) := by
  subst hl
  have hnodup := h.nodup
  have hlink : ∀ j, j ≠ id → (q.between a.getLast? id b.head?).link? j =
      ((q.setNextOf a.getLast? (some id)).setPreviousOf b.head? (some id)).link? j := by
    intro j hj
    rw [TaskQueue.between, link?_enter, if_neg hj]
  refine ⟨?_, ?_, ?_, ?_, ?_, ?_⟩
  · grind
  · rw [TaskQueue.between, enter]
    simp only [head_setPreviousOf, head_setNextOf, h.head]
    cases a <;> simp
  · rw [TaskQueue.between, enter]
    simp only [tail_setPreviousOf, tail_setNextOf, h.tail]
    cases b <;> simp
  · rw [TaskQueue.between, enter]
    simp only [length_setPreviousOf, length_setNextOf, h.length, List.length_append,
      List.length_cons]
    omega
  · intro j hj
    have hne : j ≠ id := fun e => hj (by simp [e])
    rw [hlink j hne]
    exact link?_sides_none (h.unlinked j fun hm => hj (by grind))
  · intro a' j b' hl
    rcases place hl with ⟨rfl, rfl, rfl⟩ | ⟨c, rfl, rfl⟩ | ⟨c, rfl, rfl⟩
    · rw [TaskQueue.between, link?_enter, if_pos rfl]
    · have hne : j ≠ id := fun e => hid (by simp [e])
      have hhead := head?_ne_of_nodup hnodup (j := j) (by simp)
      rw [hlink j hne, link?_sides_left hhead (by grind) (h.linked a' j (c ++ b) (by simp))]
      cases c <;> rfl
    · have hne : j ≠ id := fun e => hid (by simp [e])
      have hlast := getLast?_ne_of_nodup hnodup (j := j) (by simp)
      rw [hlink j hne, link?_sides_right hlast (by grind) (h.linked (a ++ c) j b' (by simp))]
      cases c <;> simp [List.getLast?_append]

/-- The queue without the entry of one id; its neighbours still point at it. -/
theorem link?_cut (q : TaskQueue) (id j : TaskId) :
    ({ q with
      links := q.links.setIfInBounds id none, length := q.length - 1 } : TaskQueue).link? j =
        if j = id then none else q.link? j := by
  simp only [link?, Array.getElem?_setIfInBounds]
  by_cases hj : j = id
  · subst hj
    simp only [if_true]
    split <;> rfl
  · have hne : id ≠ j := fun e => hj e.symm
    simp [hj, hne]

/-- Unlinking an id takes it out of the sequence. -/
theorem remove (h : q.Spells l) {a b : List TaskId} {id : TaskId} (hl : l = a ++ id :: b) :
    (q.remove id).2.Spells (a ++ b) := by
  subst hl
  have hnodup : (a ++ b).Nodup := by
    have hall := h.nodup
    grind
  have hrem : (q.remove id).2 =
      (({ q with links := q.links.setIfInBounds id none, length := q.length - 1 } :
        TaskQueue).setNextOf a.getLast? b.head?).setPreviousOf b.head? a.getLast? := by
    rw [TaskQueue.remove, h.linked a id b rfl]
  rw [hrem]
  refine ⟨hnodup, ?_, ?_, ?_, ?_, ?_⟩
  · simp only [head_setPreviousOf, head_setNextOf, h.head]
    cases a <;> simp
  · simp only [tail_setPreviousOf, tail_setNextOf, h.tail]
    cases b <;> simp
  · simp only [length_setPreviousOf, length_setNextOf, h.length, List.length_append,
      List.length_cons]
    omega
  · intro j hj
    refine link?_sides_none ?_
    rw [link?_cut]
    by_cases hid : j = id
    · rw [if_pos hid]
    · rw [if_neg hid]
      exact h.unlinked j (by grind)
  · intro a' j b' hl
    have hid : j ≠ id := by
      rintro rfl
      have hall := h.nodup
      have hj : j ∈ a ++ b := by simp [hl]
      grind
    have hcut : ∀ p n, q.link? j = some ⟨p, n⟩ → ({ q with
        links := q.links.setIfInBounds id none, length := q.length - 1 } : TaskQueue).link? j =
          some ⟨p, n⟩ := by
      intro p n hj
      rw [link?_cut, if_neg hid, hj]
    -- `j` stands behind the id that goes, or in front of it
    rcases List.append_eq_append_iff.1 hl with ⟨c, rfl, rfl⟩ | ⟨c, rfl, hb⟩
    · have hlast := getLast?_ne_of_nodup hnodup (j := j) (by simp)
      rw [link?_sides_right hlast (by grind) (hcut _ _ (h.linked (a ++ id :: c) j b' (by simp)))]
      cases c <;> simp [List.getLast?_append]
    · cases c with
      | nil =>
        subst hb
        have hlast := getLast?_ne_of_nodup hnodup (j := j) (by simp)
        have hj := hcut _ _ (h.linked (a' ++ [id]) j b' (by simp))
        refine (link?_sides_right (c := []) hlast List.not_mem_nil hj).trans ?_
        simp
      | cons x c =>
        obtain ⟨rfl, rfl⟩ := List.cons.inj hb
        have hhead := head?_ne_of_nodup hnodup (j := j) (by simp)
        rw [link?_sides_left hhead (by grind) (hcut _ _ (h.linked a' j (c ++ id :: b) (by simp)))]
        cases c <;> simp

theorem append (h : q.Spells l) {id : TaskId} (hid : id ∉ l) :
    (q.append id).2.Spells (l ++ [id]) := by
  have hc : q.contains id = false := by
    rw [← Bool.not_eq_true, h.contains_iff]
    exact hid
  rw [TaskQueue.append, hc, h.tail]
  exact h.between (b := []) (List.append_nil l).symm hid

theorem append_of_mem (h : q.Spells l) {id : TaskId} (hid : id ∈ l) :
    q.append id = (false, q) := by
  rw [TaskQueue.append, (h.contains_iff id).2 hid]
  rfl

theorem insertBefore (h : q.Spells l) {a b : List TaskId} {id before : TaskId}
    (hl : l = a ++ before :: b) (hid : id ∉ l) :
    (q.insertBefore id (some before)).2.Spells (a ++ id :: before :: b) := by
  have hc : q.contains id = false := by
    rw [← Bool.not_eq_true, h.contains_iff]
    exact hid
  have hb : q.contains before = true := (h.contains_iff before).2 (by simp [hl])
  simp only [TaskQueue.insertBefore, hc, hb, h.previous_eq hl]
  exact h.between (b := before :: b) hl hid

theorem insertAfter (h : q.Spells l) {a b : List TaskId} {id after : TaskId}
    (hl : l = a ++ after :: b) (hid : id ∉ l) :
    (q.insertAfter id after).2.Spells (a ++ after :: id :: b) := by
  have hc : q.contains id = false := by
    rw [← Bool.not_eq_true, h.contains_iff]
    exact hid
  have ha : q.contains after = true := (h.contains_iff after).2 (by simp [hl])
  have hl' : l = (a ++ [after]) ++ b := by simp [hl]
  have hbetween := h.between hl' hid
  simp only [TaskQueue.insertAfter, hc, ha, h.next_eq hl]
  simpa using hbetween

theorem remove_of_not_mem (h : q.Spells l) {id : TaskId} (hid : id ∉ l) :
    q.remove id = (false, q) := by
  rw [TaskQueue.remove, h.unlinked id hid]

/-- Unlinking an id takes it out, wherever it stood, and no other. -/
theorem contains_remove (h : q.Spells l) (id j : TaskId) :
    (q.remove id).2.contains j = true ↔ j ≠ id ∧ q.contains j = true := by
  by_cases hid : id ∈ l
  · obtain ⟨a, b, hl⟩ := List.append_of_mem hid
    have hnodup := h.nodup
    rw [(h.remove hl).contains_iff, h.contains_iff]
    grind
  · rw [h.remove_of_not_mem hid, h.contains_iff]
    constructor
    · intro hj
      exact ⟨fun e => hid (e ▸ hj), hj⟩
    · exact fun hj => hj.2

end Spells

end Microkernel.TaskQueue
