/-
The pool is an allocator of least free numbers.

A pool is asked for ids and given ids back, in any order. What its answers say is recorded as
events, and the ids that are out after them are a plain finite set:

* **`lowestFree?_least`**, **`lowestFree?_eq_none`**: the search through the bitmap finds the
  lowest set bit, and misses none;
* **`Holds.generate_cases`**: the pool hands out the least number that is not in use, or every
  number below the limit is in use and the pool stays as it is;
* **`Holds.request`**: one request does to the set of ids in use what its event says;
* **`least_free_allocator`**: after every sequence of requests a pool is the least-free-number
  allocator for the ids that are out.

Design notes: ids from the first missing block on have no bit at all, and ids from the limit on
have clear bits that nobody took. Neither is free and neither is in use, so both are told apart
from the ids in use by `Holds.bounded` and the size of the bitmap, never by a bit alone.
-/
import Microkernel.Proofs.IdPool
import Mathlib.Data.Finset.Card
import Mathlib.Order.Bounds.Basic

namespace Microkernel.IdPool

variable {p : IdPool} {ids : List TaskId}

/-! ### The search through the bitmap -/

theorem lowestBit?_lt {block : BitVec 32} {bit : Nat} (h : lowestBit? block = some bit) :
    bit < 32 := by
  rw [lowestBit?] at h
  exact List.mem_range.1 (List.mem_of_find?_eq_some h)

theorem lowestBit?_clear {block : BitVec 32} {bit : Nat} (h : lowestBit? block = some bit) :
    ∀ j < bit, block.getLsbD j = false := by
  intro j hj
  rw [lowestBit?, List.find?_range_eq_some] at h
  simpa using h.2.2 j hj

theorem lowestBit?_isSome {block : BitVec 32} (h : block ≠ 0) : (lowestBit? block).isSome := by
  rw [lowestBit?, List.find?_isSome]
  by_contra hnone
  refine h (BitVec.eq_of_getLsbD_eq fun j hj => ?_)
  by_contra hset
  exact hnone ⟨j, List.mem_range.2 hj, by simpa using hset⟩

/-- Before the lowest free id every id has its bit, and that bit is clear. -/
theorem lowestFree?_least {id : Nat} (h : p.lowestFree? = some id) :
    ∀ j < id, p.bit? j = some false := by
  intro j hj
  unfold lowestFree? at h
  split at h
  · cases h
  · rename_i index hindex
    obtain ⟨hsize, -, hzero⟩ := Array.findIdx?_eq_some_iff_getElem.1 hindex
    obtain ⟨bit, hbit, rfl⟩ := Option.map_eq_some_iff.1 h
    obtain ⟨block, hblock, hlow⟩ := Option.bind_eq_some_iff.1 hbit
    have hbits : blockBits = 32 := rfl
    rcases Nat.lt_or_ge (j / blockBits) index with hd | hd
    · -- the blocks before the one found are zero
      have hlt := Nat.lt_trans hd hsize
      have hblock0 : p.blocks[j / blockBits] = 0 := by simpa using hzero (j / blockBits) hd
      rw [bit?, Array.getElem?_eq_getElem hlt, hblock0]
      simp
    · have hlt := lowestBit?_lt hlow
      simp only [hbits] at hj hd
      have hdiv : j / blockBits = index := by simp only [hbits]; omega
      have hmod : j % blockBits < bit := by simp only [hbits]; omega
      rw [bit?, hdiv, hblock]
      simpa using lowestBit?_clear hlow _ hmod

/-- A pool without a lowest free id has no free id. -/
theorem lowestFree?_eq_none (h : p.lowestFree? = none) (id : Nat) : p.bit? id ≠ some true := by
  unfold lowestFree? at h
  split at h
  · rename_i hzero
    intro hset
    rw [bit?, Option.map_eq_some_iff] at hset
    obtain ⟨block, hblock, hbit⟩ := hset
    obtain ⟨hi, rfl⟩ := Array.getElem?_eq_some_iff.1 hblock
    have hz := Array.findIdx?_eq_none_iff.1 hzero _ (Array.getElem_mem hi)
    have hblock0 : p.blocks[id / blockBits] = 0 := by simpa using hz
    rw [hblock0] at hbit
    simp at hbit
  · -- a block that is not zero has a lowest bit
    rename_i index hindex
    obtain ⟨hsize, hne, -⟩ := Array.findIdx?_eq_some_iff_getElem.1 hindex
    have hblock : p.blocks[index] ≠ 0 := by simpa using hne
    have hsome := lowestBit?_isSome hblock
    rw [Array.getElem?_eq_getElem hsize, Option.map_eq_none_iff, Option.bind_some] at h
    rw [h] at hsome
    cases hsome

/-- No block is added where the blocks reach the limit already. -/
theorem limit_le_of_grow_error {e : Error} (h : p.grow = .error e) :
    p.limit ≤ p.blocks.size * blockBits := by
  simp only [grow] at h
  split at h
  · assumption
  · cases h

/-- A new block has a free id: the first one in it. -/
theorem lowestFree?_grow {grown : IdPool} (h : p.grow = .ok grown) :
    grown.lowestFree? ≠ none := by
  intro hnone
  refine lowestFree?_eq_none hnone (p.blocks.size * blockBits) ?_
  have hbase := (grow_eq_ok h).1
  rw [bit?_grow h, if_pos (Nat.mul_div_cancel _ (by decide)), decide_eq_true hbase]

/-! ### One call -/

/-- The pool hands out the least number that is not in use; where every number below the limit
is in use, it answers so and stays as it is. -/
theorem Holds.generate_cases (h : p.Holds ids) :
    (∃ id, p.generate.1 = .ok id ∧ id < p.limit ∧ IsLeast {j : TaskId | j ∉ ids} id) ∨
      (p.generate = (.error .outOfIds, p) ∧ ∀ j < p.limit, j ∈ ids) := by
  -- what the search finds in a bitmap that records the ids in use
  have hleast : ∀ {q : IdPool} {id : TaskId}, q.Holds ids → q.lowestFree? = some id →
      id < q.limit ∧ IsLeast {j : TaskId | j ∉ ids} id := by
    intro q id hq hlow
    have hfree := lowestFree?_free hlow
    refine ⟨hq.bounded id hfree, (hq.take hfree).1, fun j hj => ?_⟩
    by_contra hlt
    refine hj ((hq.mem_iff j).1 ((isAllocated_iff j).2 ⟨?_, ?_⟩))
    · exact Nat.lt_trans (Nat.lt_of_not_le hlt) (hq.bounded id hfree)
    · exact lowestFree?_least hlow j (Nat.lt_of_not_le hlt)
  rw [generate]
  split
  · rename_i id hlow
    exact Or.inl ⟨id, rfl, hleast h hlow⟩
  · rename_i hnone
    split
    · rename_i e hgrow
      rw [grow_eq_error hgrow]
      refine Or.inr ⟨rfl, fun j hj => (h.mem_iff j).1 ((isAllocated_iff j).2 ⟨hj, ?_⟩)⟩
      -- the blocks reach the limit, and no bit in them is set
      have hsize := limit_le_of_grow_error hgrow
      have hblock : j / blockBits < p.blocks.size :=
        Nat.div_lt_of_lt_mul (by rw [Nat.mul_comm]; exact Nat.lt_of_lt_of_le hj hsize)
      have hclear := lowestFree?_eq_none hnone j
      rw [bit?, Array.getElem?_eq_getElem hblock] at hclear ⊢
      simpa using hclear
    · rename_i grown hgrow
      split
      · rename_i id hlow
        have hlimit := limit_grow hgrow
        obtain ⟨hlt, hmin⟩ := hleast (h.grow hgrow) hlow
        exact Or.inl ⟨id, rfl, hlimit ▸ hlt, hmin⟩
      · rename_i hlow
        exact absurd hlow (lowestFree?_grow hgrow)

theorem Holds.lt_limit (h : p.Holds ids) {id : TaskId} (hid : id ∈ ids) : id < p.limit :=
  ((isAllocated_iff id).1 ((h.mem_iff id).2 hid)).1

/-- An id that is not in use cannot be given back. -/
theorem Holds.release_of_notMem (h : p.Holds ids) {id : TaskId} (hid : id ∉ ids) :
    p.release id = (false, p) := by
  rw [IdPool.release, if_neg (fun hin => hid ((h.mem_iff id).1 hin))]

theorem Holds.release_fst (h : p.Holds ids) (id : TaskId) :
    (p.release id).1 = decide (id ∈ ids) := by
  by_cases hid : id ∈ ids
  · rw [IdPool.release, if_pos ((h.mem_iff id).2 hid), decide_eq_true hid]
  · rw [h.release_of_notMem hid, decide_eq_false hid]

/-- Two pools of one limit with the same ids in use hand out the same id. -/
theorem Holds.generate_congr {q : IdPool} {ids' : List TaskId} (h : p.Holds ids)
    (h' : q.Holds ids') (hlimit : p.limit = q.limit) (hids : ∀ j, j ∈ ids ↔ j ∈ ids') :
    p.generate.1 = q.generate.1 := by
  have hset : {j : TaskId | j ∉ ids} = {j : TaskId | j ∉ ids'} := by
    ext j
    exact not_congr (hids j)
  rcases h.generate_cases with ⟨id, heq, hlt, hmin⟩ | ⟨heq, hfull⟩ <;>
    rcases h'.generate_cases with ⟨id', heq', hlt', hmin'⟩ | ⟨heq', hfull'⟩
  · rw [hset] at hmin
    rw [heq, heq', hmin.unique hmin']
  · exact absurd ((hids id).2 (hfull' id (hlimit ▸ hlt))) hmin.1
  · exact absurd ((hids id').1 (hfull id' (hlimit ▸ hlt'))) hmin'.1
  · rw [heq, heq']

/-! ### Sequences of calls -/

/-- A call of the pool. -/
inductive Request where
  | generate
  | release (id : TaskId)

/-- A call with its answer. -/
inductive Event where
  | generated (answer : Except Error TaskId)
  | released (id : TaskId) (wasInUse : Bool)

/-- One call. -/
def request (p : IdPool) : Request → Event × IdPool
  | .generate => (.generated p.generate.1, p.generate.2)
  | .release id => (.released id (p.release id).1, (p.release id).2)

/-- The calls in turn, with what happened. -/
def serve (p : IdPool) : List Request → List Event × IdPool
  | [] => ([], p)
  | r :: requests =>
    let (event, p') := p.request r
    let (events, p'') := p'.serve requests
    (event :: events, p'')

/-- What a call does to the ids that are out. -/
def Event.apply (out : Finset TaskId) : Event → Finset TaskId
  | .generated (.ok id) => insert id out
  | .generated (.error _) => out
  | .released id _ => out.erase id

/-- The ids handed out and not given back since. -/
def outstanding (events : List Event) : Finset TaskId :=
  events.foldl Event.apply ∅

/-- One call keeps the record of the ids in use, and changes it as its event says. -/
theorem Holds.request (h : p.Holds ids) (r : Request) :
    ∃ ids', (p.request r).2.Holds ids' ∧
      ids'.toFinset = (p.request r).1.apply ids.toFinset := by
  cases r with
  | generate =>
    simp only [IdPool.request]
    cases hg : p.generate with
    | mk answer p' =>
      cases answer with
      | ok id => exact ⟨id :: ids, (h.generate_ok hg).2, List.toFinset_cons⟩
      | error e => exact ⟨ids, (h.generate_error hg).2, rfl⟩
  | release id =>
    by_cases hid : id ∈ ids
    · refine ⟨ids.erase id, h.release hid, ?_⟩
      ext j
      simp only [IdPool.request, Event.apply, List.mem_toFinset, Finset.mem_erase,
        h.nodup.mem_erase_iff]
    · refine ⟨ids, ?_, ?_⟩
      · rw [IdPool.request, h.release_of_notMem hid]
        exact h
      · rw [IdPool.request, Event.apply, Finset.erase_eq_of_notMem (by simpa using hid)]

theorem Holds.serve (h : p.Holds ids) (requests : List Request) :
    ∃ ids', (p.serve requests).2.Holds ids' ∧
      ids'.toFinset = (p.serve requests).1.foldl Event.apply ids.toFinset := by
  induction requests generalizing p ids with
  | nil => exact ⟨ids, h, rfl⟩
  | cons r requests ih =>
    obtain ⟨ids₁, h₁, hset₁⟩ := h.request r
    obtain ⟨ids₂, h₂, hset₂⟩ := ih h₁
    refine ⟨ids₂, h₂, ?_⟩
    rw [hset₂, hset₁]
    rfl

theorem limit_request (p : IdPool) (r : Request) : (p.request r).2.limit = p.limit := by
  cases r with
  | generate => exact p.limit_generate
  | release id => exact p.limit_release id

theorem limit_serve (p : IdPool) (requests : List Request) :
    (p.serve requests).2.limit = p.limit := by
  induction requests generalizing p with
  | nil => rfl
  | cons r requests ih => exact (ih _).trans (p.limit_request r)

/-! ### The allocator -/

/-- The pool answers as an allocator of the numbers below `limit` that always hands out the least
free one, with the ids of `out` in use. -/
structure LeastFree (limit : Nat) (out : Finset TaskId) (p : IdPool) : Prop where
  below : ∀ id ∈ out, id < limit
  card_le : out.card ≤ limit
  allocated : p.allocated = out.card
  isAllocated : ∀ id, p.isAllocated id = decide (id ∈ out)
  /-- While fewer than `limit` ids are out, the least number that is not out is handed out, and
  that id alone is then out too. -/
  handsOut : out.card < limit → ∃ id p', p.generate = (.ok id, p') ∧
    IsLeast {j : TaskId | j ∉ out} id ∧ id < limit ∧ p'.allocated = out.card + 1 ∧
    ∀ j, p'.isAllocated j = decide (j ∈ insert id out)
  exhausted : p.generate = (.error .outOfIds, p) ↔ out.card = limit
  /-- An id that is out is taken back, and that id alone. -/
  takesBack : ∀ id ∈ out, ∃ p', p.release id = (true, p') ∧ p'.allocated + 1 = out.card ∧
    ∀ j, p'.isAllocated j = decide (j ∈ out.erase id)
  refuses : ∀ id ∉ out, p.release id = (false, p)

/-- The ids in use are all numbers below the limit as soon as they are as many. -/
theorem Holds.length_eq_limit (h : p.Holds ids) :
    ids.length = p.limit ↔ ∀ j < p.limit, j ∈ ids := by
  have hsub : ids.toFinset ⊆ Finset.range p.limit := fun j hj =>
    Finset.mem_range.2 (h.lt_limit (List.mem_toFinset.1 hj))
  have hcard := List.toFinset_card_of_nodup h.nodup
  constructor
  · intro hlen j hj
    have heq := Finset.eq_of_subset_of_card_le hsub (by rw [Finset.card_range, hcard, hlen])
    exact List.mem_toFinset.1 (heq ▸ Finset.mem_range.2 hj)
  · intro hall
    have heq : ids.toFinset = Finset.range p.limit :=
      hsub.antisymm fun j hj => List.mem_toFinset.2 (hall j (Finset.mem_range.1 hj))
    rw [← hcard, heq, Finset.card_range]

theorem Holds.length_le (h : p.Holds ids) : ids.length ≤ p.limit := by
  rw [← List.toFinset_card_of_nodup h.nodup, ← Finset.card_range p.limit]
  exact Finset.card_le_card fun j hj =>
    Finset.mem_range.2 (h.lt_limit (List.mem_toFinset.1 hj))

theorem Holds.leastFree (h : p.Holds ids) : LeastFree p.limit ids.toFinset p := by
  have hcard := List.toFinset_card_of_nodup h.nodup
  have hmem : ∀ {q : IdPool} {l : List TaskId}, q.Holds l → ∀ {s : Finset TaskId},
      l.toFinset = s → ∀ j, q.isAllocated j = decide (j ∈ s) := by
    intro q l hq s hs j
    rw [Bool.eq_iff_iff, hq.mem_iff, decide_eq_true_iff, ← hs, List.mem_toFinset]
  refine
    { below := fun id hid => h.lt_limit (List.mem_toFinset.1 hid)
      card_le := hcard ▸ h.length_le
      allocated := h.allocated.trans hcard.symm
      isAllocated := hmem h rfl
      handsOut := fun hroom => ?_
      exhausted := ?_
      takesBack := fun id hid => ?_
      refuses := fun id hid => h.release_of_notMem (by simpa using hid) }
  · rcases h.generate_cases with ⟨id, heq, hlt, hmin⟩ | ⟨-, hfull⟩
    · have hg : p.generate = (.ok id, p.generate.2) := Prod.ext heq rfl
      have hnext := (h.generate_ok hg).2
      refine ⟨id, _, hg, ?_, hlt, ?_, hmem hnext List.toFinset_cons⟩
      · simpa only [List.mem_toFinset] using hmin
      · rw [hnext.allocated, hcard, List.length_cons]
    · exact absurd (hcard.trans (h.length_eq_limit.2 hfull)) (Nat.ne_of_lt hroom)
  · rw [hcard, h.length_eq_limit]
    rcases h.generate_cases with ⟨id, heq, hlt, hmin⟩ | ⟨heq, hfull⟩
    · refine ⟨fun herr => ?_, fun hfull => absurd (hfull id hlt) hmin.1⟩
      rw [herr] at heq
      cases heq
    · exact ⟨fun _ => hfull, fun _ => heq⟩
  · rw [List.mem_toFinset] at hid
    have hnext := h.release hid
    refine ⟨_, Prod.ext (by rw [h.release_fst, decide_eq_true hid]) rfl, ?_, hmem hnext ?_⟩
    · rw [hnext.allocated, hcard, List.length_erase_of_mem hid]
      exact Nat.sub_add_cancel (List.length_pos_of_mem hid)
    · ext j
      rw [List.mem_toFinset, h.nodup.mem_erase_iff, Finset.mem_erase, List.mem_toFinset]

/-- After every sequence of requests, for every limit, the pool is the allocator of least free
numbers for the ids that are out. -/
theorem least_free_allocator (limit : Nat) (requests : List Request) :
    LeastFree limit (outstanding ((new limit).serve requests).1)
      ((new limit).serve requests).2 := by
  obtain ⟨ids, h, hids⟩ := (holds_new limit).serve requests
  have hlimit : ((new limit).serve requests).2.limit = limit := limit_serve _ requests
  have hleast := h.leastFree
  rwa [hlimit, hids] at hleast

end Microkernel.IdPool
