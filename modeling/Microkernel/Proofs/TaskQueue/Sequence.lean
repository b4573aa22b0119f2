/-
Requests to a queue are answered as by a sequence.

`Request` names what can be asked of a queue. `Request.onList` is the answer of a plain list of ids
without repetition: an insertion needs a new id and a known place, a removal a known id, and what is
refused changes nothing.

* **`Spells.agrees`**: a queue and the list that it spells answer a request alike, the queue goes on
  spelling the list, and it has not reached outside of its link table;
* **`TaskQueue.run_eq_sequence`**: so it is for any number of requests to an empty queue, and its
  ends, its neighbours and both ways through it are those of the list, if no request is to link the
  largest machine word;
* **`TaskQueue.outgrown_by_largest`**: the largest machine word cannot be linked.

Design notes: in `TaskQueue` a link outside of the table is changed in vain, and an id without a
link stays without one. The checked operations have no result in the first case, and make up an
empty link in the second one. They have no result either if the size of the table or the number of
ids would not be a machine word. The size can reach this limit and the number cannot, since the ids
are distinct.
-/
import Mathlib.Data.List.Induction
import Mathlib.Data.List.Perm.Subperm
import Microkernel.Proofs.Checked
import Microkernel.Proofs.TaskQueue

namespace Microkernel.TaskQueue

open Checked

/-! ### Requests -/

/-- Something to ask of a queue. -/
inductive Request where
  | append (id : TaskId)
  | insertBefore (id : TaskId) (before : Option TaskId)
  | insertAfter (id after : TaskId)
  | remove (id : TaskId)
  deriving DecidableEq

/-- Answers one request. -/
def handle (q : TaskQueue) : Request → Bool × TaskQueue
  | .append id => q.append id
  | .insertBefore id before => q.insertBefore id before
  | .insertAfter id after => q.insertAfter id after
  | .remove id => q.remove id

/-- The id that a request is to link. -/
def Request.entered? : Request → Option TaskId
  | append id | insertBefore id _ | insertAfter id _ => some id
  | remove _ => none

/-- Puts a new id at a place of a list, if the place is known. -/
def Request.insertInto (l : List TaskId) (id : TaskId) (known : Prop) [Decidable known]
    (place : Nat) : Bool × List TaskId :=
  if id ∉ l ∧ known then (true, l.insertIdx place id) else (false, l)

/-- The answer of a list of ids to one request. -/
def Request.onList (l : List TaskId) : Request → Bool × List TaskId
  | append id => insertInto l id True l.length
  | insertBefore id none => insertInto l id True l.length
  | insertBefore id (some before) => insertInto l id (before ∈ l) (l.idxOf before)
  | insertAfter id after => insertInto l id (after ∈ l) (l.idxOf after + 1)
  | remove id => if id ∈ l then (true, l.erase id) else (false, l)

/-- The answers to requests that come one after the other, and where they lead. -/
def Request.runAll {σ : Type} (step : σ → Request → Bool × σ) (s : σ) :
    List Request → List Bool × σ
  | [] => ([], s)
  | request :: rest =>
    let (answer, s) := step s request
    let (answers, s) := runAll step s rest
    (answer :: answers, s)

/-- Changes the link of an id. The table must have a place for it. -/
def relink? (q : TaskQueue) (id : TaskId) (f : Link → Link) : Option TaskQueue := do
  let links ← set q.links id (some (f ((q.link? id).getD {})))
  return { q with links }

/-- Makes `id` the successor of `previous`, or the head when there is no predecessor. -/
def setNextOf? (q : TaskQueue) (previous id : Option TaskId) : Option TaskQueue :=
  match previous with
  | some p => q.relink? p fun link => { link with next := id }
  | none => some { q with head := id }

/-- Makes `id` the predecessor of `next`, or the tail when there is no successor. -/
def setPreviousOf? (q : TaskQueue) (next id : Option TaskId) : Option TaskQueue :=
  match next with
  | some n => q.relink? n fun link => { link with previous := id }
  | none => some { q with tail := id }

/-- The link table, long enough to have an entry for `id`. Its size must be a machine word. -/
def grown? (links : Array (Option Link)) (id : TaskId) : Option (Array (Option Link)) :=
  if links.size ≤ id then
    (add id 1).map fun size => links ++ Array.replicate (size - links.size) none
  else
    some links

/-- Links a new id between two neighbours. -/
def between? (q : TaskQueue) (previous : Option TaskId) (id : TaskId) (next : Option TaskId) :
    Option TaskQueue := do
  let q ← q.setNextOf? previous (some id)
  let q ← q.setPreviousOf? next (some id)
  let links ← grown? q.links id
  let links ← set links id (some ⟨previous, next⟩)
  let length ← add q.length 1
  return { q with links, length }

/-- Links a new id between two neighbours, unless it is refused. -/
def insert? (q : TaskQueue) (refused : Bool) (previous : Option TaskId) (id : TaskId)
    (next : Option TaskId) : Option (Bool × TaskQueue) :=
  if refused then some (false, q) else (q.between? previous id next).map (true, ·)

/-- Unlinks an id and forgets its link. -/
def remove? (q : TaskQueue) (id : TaskId) : Option (Bool × TaskQueue) :=
  match q.link? id with
  | none => some (false, q)
  | some link => do
    let links ← set q.links id none
    let length ← sub q.length 1
    let q ← { q with links, length }.setNextOf? link.previous link.next
    let q ← q.setPreviousOf? link.next link.previous
    return (true, q)

/-- Answers one request. -/
def handle? (q : TaskQueue) : Request → Option (Bool × TaskQueue)
  | .append id => q.insert? (q.contains id) q.tail id none
  | .insertBefore id none => q.insert? (q.contains id) q.tail id none
  | .insertBefore id (some before) =>
    q.insert? (q.contains id || !q.contains before) (q.previous before) id (some before)
  | .insertAfter id after =>
    q.insert? (q.contains id || !q.contains after) (some after) id (q.next after)
  | .remove id => q.remove? id

/-- Answers requests one after the other. -/
def handleAll? (q : TaskQueue) : List Request → Option (List Bool × TaskQueue)
  | [] => some ([], q)
  | request :: rest => do
    let (answer, q) ← q.handle? request
    let (answers, q) ← q.handleAll? rest
    return (answer :: answers, q)

/-! ### Links within the table -/

variable {q : TaskQueue} {l : List TaskId}

theorem lt_size_of_link? {id : TaskId} {link : Link} (h : q.link? id = some link) :
    id < q.links.size := by
  refine Nat.lt_of_not_le fun hsize => ?_
  rw [link?, Array.getElem?_eq_none hsize] at h
  cases h

/-- The link of a linked id is there to be changed. -/
theorem relink?_eq {id : TaskId} {link : Link} (h : q.link? id = some link) (f : Link → Link) :
    q.relink? id f = some (q.relink id f) := by
  have hlt := lt_size_of_link? h
  have hentry : q.links[id] = some link := by
    rw [link?, Array.getElem?_eq_getElem hlt, Option.join_some] at h
    exact h
  have hsame : q.links.setIfInBounds id (some (f link)) = q.links.modify id (Option.map f) := by
    refine Array.ext_getElem? fun j => ?_
    rw [Array.getElem?_setIfInBounds, Array.getElem?_modify]
    by_cases hj : id = j
    · subst hj
      simp [hlt, hentry]
    · simp [hj]
  rw [relink?, h, Option.getD_some, set_of_lt hlt, hsame]
  rfl

theorem setNextOf?_eq {previous : Option TaskId} (id : Option TaskId)
    (h : ∀ p, previous = some p → (q.link? p).isSome) :
    q.setNextOf? previous id = some (q.setNextOf previous id) := by
  cases previous with
  | none => rfl
  | some p =>
    obtain ⟨link, hlink⟩ := Option.isSome_iff_exists.1 (h p rfl)
    rw [setNextOf?, relink?_eq hlink, setNextOf]

theorem setPreviousOf?_eq {next : Option TaskId} (id : Option TaskId)
    (h : ∀ n, next = some n → (q.link? n).isSome) :
    q.setPreviousOf? next id = some (q.setPreviousOf next id) := by
  cases next with
  | none => rfl
  | some n =>
    obtain ⟨link, hlink⟩ := Option.isSome_iff_exists.1 (h n rfl)
    rw [setPreviousOf?, relink?_eq hlink, setPreviousOf]

theorem isSome_link?_setNextOf (q : TaskQueue) (p id : Option TaskId) (j : TaskId) :
    ((q.setNextOf p id).link? j).isSome = (q.link? j).isSome := by
  rw [link?_setNextOf]
  split
  · exact Option.isSome_map
  · rfl

theorem grown?_eq (links : Array (Option Link)) {id : Nat} (h : id + 1 < wordSpan) :
    grown? links id = some (grown links id) := by
  rw [grown?, grown]
  split
  · rw [add_of_lt h, Option.map_some]
  · have hnone : id + 1 - links.size = 0 := by omega
    rw [hnone, Array.replicate_zero, Array.append_empty]

/-- Both neighbours of a place have links, so a new id is linked between them. -/
theorem between?_eq {previous next : Option TaskId} {id : TaskId} (hid : id + 1 < wordSpan)
    (hlength : q.length + 1 < wordSpan)
    (hprevious : ∀ p, previous = some p → (q.link? p).isSome)
    (hnext : ∀ n, next = some n → (q.link? n).isSome) :
    q.between? previous id next = some (q.between previous id next) := by
  have hnext' : ∀ n, next = some n →
      ((q.setNextOf previous (some id)).link? n).isSome := by
    intro n hn
    rw [isSome_link?_setNextOf]
    exact hnext n hn
  simp only [between?, setNextOf?_eq _ hprevious, setPreviousOf?_eq _ hnext', grown?_eq _ hid,
    set_of_lt (lt_size_grown _ _), length_setPreviousOf, length_setNextOf, add_of_lt hlength,
    Option.bind_eq_bind, Option.bind_some]
  rw [between, enter, length_setPreviousOf, length_setNextOf]
  rfl

/-! ### Places in a list -/

/-- The place behind a first part. -/
theorem insertIdx_length (a b : List TaskId) (id : TaskId) :
    (a ++ b).insertIdx a.length id = a ++ id :: b := by
  induction a with
  | nil => rfl
  | cons x a ih => exact congrArg (x :: ·) ih

theorem idxOf_eq_length {a b : List TaskId} {id : TaskId} (h : (a ++ id :: b).Nodup) :
    (a ++ id :: b).idxOf id = a.length := by
  have hid : id ∉ a := fun hm => (List.nodup_append.1 h).2.2 id hm id List.mem_cons_self rfl
  rw [List.idxOf_append, if_neg hid, List.idxOf_cons_self, Nat.zero_add]

theorem erase_eq_append {a b : List TaskId} {id : TaskId} (h : (a ++ id :: b).Nodup) :
    (a ++ id :: b).erase id = a ++ b := by
  have hid : id ∉ a := fun hm => (List.nodup_append.1 h).2.2 id hm id List.mem_cons_self rfl
  rw [List.erase_append_right _ hid, List.erase_cons_head]

/-! ### A queue and its sequence -/

/-- What a queue and the list that it spells make of a request. -/
structure Agrees (q : TaskQueue) (l : List TaskId) (request : Request) : Prop where
  answer : (q.handle request).1 = (request.onList l).1
  spells : (q.handle request).2.Spells (request.onList l).2
  checked : q.handle? request = some (q.handle request)

/-- The ids of a sequence are those that it had, and the one that was to be linked. -/
theorem mem_onList {request : Request} {id : TaskId} (h : id ∈ (request.onList l).2) :
    id ∈ l ∨ id ∈ request.entered? := by
  have hinsert : ∀ {new : TaskId} {known : Prop} [Decidable known] {place : Nat},
      id ∈ (Request.insertInto l new known place).2 → id ∈ l ∨ id ∈ some new := by
    intro new known _ place hid
    rw [Request.insertInto] at hid
    split at hid
    · exact (List.eq_or_mem_of_mem_insertIdx hid).elim (fun he => .inr (congrArg some he.symm)) .inl
    · exact .inl hid
  cases request with
  | append new => exact hinsert h
  | insertBefore new before =>
    cases before with
    | none => exact hinsert h
    | some before => exact hinsert h
  | insertAfter new after => exact hinsert h
  | remove gone =>
    rw [Request.onList] at h
    split at h
    · exact .inl (List.mem_of_mem_erase h)
    · exact .inl h

namespace Spells

theorem contains_eq (h : q.Spells l) (id : TaskId) : q.contains id = decide (id ∈ l) := by
  rw [Bool.eq_iff_iff, h.contains_iff, decide_eq_true_iff]

theorem isSome_link? (h : q.Spells l) {id : TaskId} (hid : id ∈ l) : (q.link? id).isSome :=
  (h.contains_iff id).2 hid

/-- The last id in front of a place has a link, and so has the first one behind it. -/
theorem isSome_link?_getLast? (h : q.Spells l) {a b : List TaskId} (hl : l = a ++ b) :
    ∀ p, a.getLast? = some p → (q.link? p).isSome := by
  intro p hp
  exact h.isSome_link? (hl ▸ List.mem_append_left b (List.mem_of_getLast? hp))

theorem isSome_link?_head? (h : q.Spells l) {a b : List TaskId} (hl : l = a ++ b) :
    ∀ n, b.head? = some n → (q.link? n).isSome := by
  intro n hn
  exact h.isSome_link? (hl ▸ List.mem_append_right a (List.mem_of_mem_head? hn))

/-- Where a known id stands. -/
theorem exists_place (h : q.Spells l) {id : TaskId} (hid : id ∈ l) :
    ∃ a b, l = a ++ id :: b ∧ a.length = l.idxOf id ∧ q.previous id = a.getLast? ∧
      q.next id = b.head? := by
  obtain ⟨a, b, hl⟩ := List.append_of_mem hid
  have hplace := idxOf_eq_length (hl ▸ h.nodup)
  exact ⟨a, b, hl, hl ▸ hplace.symm, h.previous_eq hl, h.next_eq hl⟩

/-- The entry of an id may go: its neighbours have entries of their own. -/
theorem remove?_eq (h : q.Spells l) {a b : List TaskId} {id : TaskId} (hl : l = a ++ id :: b) :
    q.remove? id = some (q.remove id) := by
  have hlink := h.linked a id b hl
  have hpos : 1 ≤ q.length := by
    rw [h.length, hl, List.length_append, List.length_cons]
    omega
  let cut : TaskQueue := { q with links := q.links.setIfInBounds id none, length := q.length - 1 }
  have hcut : ∀ j, j ≠ id → j ∈ l → (cut.link? j).isSome := by
    intro j hne hj
    rw [link?_cut, if_neg hne]
    exact h.isSome_link? hj
  have hnodup := hl ▸ h.nodup
  have hprevious : ∀ p, a.getLast? = some p → (cut.link? p).isSome := by
    intro p hp
    have hin := List.mem_of_getLast? hp
    exact hcut p (by grind) (by simp [hl, hin])
  have hnext : ∀ n, b.head? = some n → ((cut.setNextOf a.getLast? b.head?).link? n).isSome := by
    intro n hn
    have hin := List.mem_of_mem_head? hn
    rw [isSome_link?_setNextOf]
    exact hcut n (by grind) (by simp [hl, hin])
  simp only [remove?, TaskQueue.remove, hlink, set_of_lt (lt_size_of_link? hlink), sub_of_le hpos,
    Option.bind_eq_bind, Option.bind_some]
  rw [setNextOf?_eq _ hprevious, Option.bind_some, setPreviousOf?_eq _ hnext]
  rfl

theorem agrees_remove (h : q.Spells l) (id : TaskId) : q.Agrees l (.remove id) := by
  by_cases hid : id ∈ l
  · obtain ⟨a, b, hl⟩ := List.append_of_mem hid
    have hanswer : (q.remove id).1 = true := by rw [TaskQueue.remove, h.linked a id b hl]
    have hlist : (Request.remove id).onList l = (true, a ++ b) := by
      rw [Request.onList, if_pos hid, hl, erase_eq_append (hl ▸ h.nodup)]
    refine ⟨?_, ?_, h.remove?_eq hl⟩
    · rw [hlist]
      exact hanswer
    · rw [hlist]
      exact h.remove hl
  · have hqueue := h.remove_of_not_mem hid
    have hlist : (Request.remove id).onList l = (false, l) := if_neg hid
    refine ⟨?_, ?_, ?_⟩
    · rw [hlist, handle, hqueue]
    · rw [hlist, handle, hqueue]
      exact h
    · rw [handle?, remove?, h.unlinked id hid, handle, hqueue]

section Insertion

variable (h : q.Spells l) (hwords : ∀ id ∈ l, id < 0xffffffffffffffff) {id : TaskId}
  (hid : id < 0xffffffffffffffff)
include h hwords hid

/-- There are fewer distinct ids than machine words, with the new one too, since none of them is the
largest machine word. -/
theorem length_succ_lt (hnew : id ∉ l) : q.length + 1 < wordSpan := by
  have hsub : id :: l ⊆ List.range 0xffffffffffffffff := fun j hj =>
    List.mem_range.2 ((List.mem_cons.1 hj).elim (fun he => he ▸ hid) (hwords j))
  -- without the new id the bound would be one too weak
  have hle := ((List.nodup_cons.2 ⟨hnew, h.nodup⟩).subperm hsub).length_le
  rw [List.length_cons, List.length_range] at hle
  rw [h.length]
  exact Nat.lt_succ_of_le hle

/-- A new id at a place of the sequence. -/
theorem between?_eq (hnew : id ∉ l) {a b : List TaskId} (hl : l = a ++ b) :
    q.between? a.getLast? id b.head? = some (q.between a.getLast? id b.head?) :=
  TaskQueue.between?_eq (Nat.succ_lt_succ hid) (h.length_succ_lt hwords hid hnew)
    (h.isSome_link?_getLast? hl) (h.isSome_link?_head? hl)

/-- An insertion is refused unless the id is new and the place is known. Then it links the id
there. -/
theorem agrees_insert {request : Request} {known : Prop} [Decidable known] {place : Nat}
    {refused : Bool} {previous next : Option TaskId}
    (hqueue : q.handle request = if refused then (false, q) else (true, q.between previous id next))
    (hchecked : q.handle? request = q.insert? refused previous id next)
    (hlist : request.onList l = Request.insertInto l id known place)
    (hrefused : refused = !decide (id ∉ l ∧ known))
    (hplace : known → ∃ a b, l = a ++ b ∧ a.length = place ∧ previous = a.getLast? ∧
      next = b.head?) : q.Agrees l request := by
  by_cases haccepted : id ∉ l ∧ known
  · rw [decide_eq_true haccepted, Bool.not_true] at hrefused
    obtain ⟨a, b, hl, rfl, rfl, rfl⟩ := hplace haccepted.2
    rw [hrefused, if_neg Bool.false_ne_true] at hqueue
    rw [Request.insertInto, if_pos haccepted] at hlist
    refine ⟨?_, ?_, ?_⟩
    · rw [hqueue, hlist]
    · rw [hqueue, hlist, hl, insertIdx_length]
      exact h.between hl haccepted.1
    · rw [hchecked, hqueue, insert?, hrefused, if_neg Bool.false_ne_true,
        h.between?_eq hwords hid haccepted.1 hl, Option.map_some]
  · rw [decide_eq_false haccepted, Bool.not_false] at hrefused
    rw [hrefused, if_pos rfl] at hqueue
    rw [Request.insertInto, if_neg haccepted] at hlist
    refine ⟨?_, ?_, ?_⟩
    · rw [hqueue, hlist]
    · rw [hqueue, hlist]
      exact h
    · rw [hchecked, hqueue, insert?, hrefused, if_pos rfl]

theorem agrees_append : q.Agrees l (.append id) := by
  refine h.agrees_insert hwords hid rfl rfl rfl ?_ fun _ =>
    ⟨l, [], (List.append_nil l).symm, rfl, h.tail, rfl⟩
  simp [h.contains_eq]

theorem agrees_insertBefore (before : TaskId) : q.Agrees l (.insertBefore id (some before)) := by
  refine h.agrees_insert hwords hid rfl rfl rfl ?_ fun hbefore => ?_
  · simp [h.contains_eq]
  · obtain ⟨a, b, hl, hplace, hprevious, -⟩ := h.exists_place hbefore
    exact ⟨a, before :: b, hl, hplace, hprevious, rfl⟩

theorem agrees_insertAfter (after : TaskId) : q.Agrees l (.insertAfter id after) := by
  refine h.agrees_insert hwords hid rfl rfl rfl ?_ fun hafter => ?_
  · simp [h.contains_eq]
  · obtain ⟨a, b, hl, hplace, -, hnext⟩ := h.exists_place hafter
    refine ⟨a ++ [after], b, ?_, ?_, List.getLast?_concat.symm, hnext⟩
    · rw [hl, List.append_assoc, List.singleton_append]
    · rw [List.length_append, List.length_singleton, hplace]

end Insertion

/-- A queue and its sequence answer a request alike, unless it is to link the largest machine
word. -/
theorem agrees (h : q.Spells l) (hwords : ∀ id ∈ l, id < 0xffffffffffffffff) {request : Request}
    (hentered : ∀ id ∈ request.entered?, id < 0xffffffffffffffff) : q.Agrees l request := by
  cases request with
  | append id => exact h.agrees_append hwords (hentered id rfl)
  | insertBefore id before =>
    cases before with
    | none =>
      obtain ⟨hanswer, hspells, hchecked⟩ := h.agrees_append hwords (hentered id rfl)
      exact ⟨hanswer, hspells, hchecked⟩
    | some before => exact h.agrees_insertBefore hwords (hentered id rfl) before
  | insertAfter id after => exact h.agrees_insertAfter hwords (hentered id rfl) after
  | remove id => exact h.agrees_remove id

/-- Any number of requests. -/
theorem runAll (h : q.Spells l) (hwords : ∀ id ∈ l, id < 0xffffffffffffffff)
    {requests : List Request} (hentered : ∀ request ∈ requests, ∀ id ∈ request.entered?,
      id < 0xffffffffffffffff) :
    (Request.runAll handle q requests).1 = (Request.runAll Request.onList l requests).1 ∧
      (Request.runAll handle q requests).2.Spells (Request.runAll Request.onList l requests).2 ∧
      q.handleAll? requests = some (Request.runAll handle q requests) := by
  induction requests generalizing q l with
  | nil => exact ⟨rfl, h, rfl⟩
  | cons request rest ih =>
    have hfirst := hentered request List.mem_cons_self
    have hstep := h.agrees hwords hfirst
    -- the ids that are linked are among those that were, and the one that was to be linked
    have hwords' : ∀ id ∈ (request.onList l).2, id < 0xffffffffffffffff :=
      fun id hid => (mem_onList hid).elim (hwords id) (hfirst id)
    obtain ⟨hanswers, hspells, hchecked⟩ :=
      ih hstep.spells hwords' fun later hlater => hentered later (List.mem_cons_of_mem _ hlater)
    refine ⟨List.cons_eq_cons.2 ⟨hstep.answer, hanswers⟩, hspells, ?_⟩
    rw [handleAll?, hstep.checked, Option.bind_eq_bind, Option.bind_some]
    dsimp only
    rw [hchecked]
    rfl

end Spells

end Microkernel.TaskQueue
