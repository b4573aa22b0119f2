/-
The pool of ids hands out ids that are not in use.

`p.Holds ids` says that the ids in use are exactly those of the list `ids`, which has no
repetition, and that they are as many as the pool counts:

* **`Holds.generate_ok`**: an id that is handed out was not in use, and is from then on;
* **`Holds.generate_error`**: a pool that has no id to hand out keeps what it holds;
* **`Holds.release`**: taking an id back ends its use and that of no other id.

Design notes: `IdPool.bit?` reads the bitmap one id at a time, so that a block never appears in
a statement about ids. A free id is below the limit (`Holds.bounded`); ids at or beyond it have
clear bits and still are not in use.
-/
import Microkernel.IdPool

namespace Microkernel.IdPool

variable {p : IdPool}

/-! ### The bitmap -/

/-- The bit of an id, if its block exists; a set bit is a free id. -/
def bit? (p : IdPool) (id : Nat) : Option Bool :=
  (p.blocks[id / blockBits]?).map fun block => block.getLsbD (id % blockBits)

theorem isAllocated_iff (id : Nat) :
    p.isAllocated id = true ↔ id < p.limit ∧ p.bit? id = some false := by
  rw [isAllocated, bit?]
  cases h : p.blocks[id / blockBits]? with
  | none => simp
  | some block => simp

theorem eq_of_div_mod {i j : Nat} (hd : i / blockBits = j / blockBits)
    (hm : i % blockBits = j % blockBits) : i = j := by
  rw [← Nat.div_add_mod i blockBits, ← Nat.div_add_mod j blockBits, hd, hm]

theorem mod_blockBits_lt (id : Nat) : id % blockBits < 32 :=
  Nat.mod_lt id (by decide)

theorem getLsbD_twoPow_mod (id j : Nat) :
    (BitVec.twoPow 32 (id % blockBits)).getLsbD (j % blockBits) =
      decide (j % blockBits = id % blockBits) := by
  have hj := mod_blockBits_lt j
  rw [BitVec.getLsbD_twoPow]
  by_cases h : j % blockBits = id % blockBits
  · simp [h, mod_blockBits_lt id]
  · have h' : id % blockBits ≠ j % blockBits := fun e => h e.symm
    simp [h, h']

/-- Changing one bit of the bitmap by a function of its block. -/
theorem bit?_modify (id : Nat) (f : BitVec 32 → BitVec 32) (g : Bool → Bool)
    (hf : ∀ block j, (f block).getLsbD (j % blockBits) =
      if j % blockBits = id % blockBits then g (block.getLsbD (j % blockBits))
      else block.getLsbD (j % blockBits)) (n : Nat) (j : Nat) :
    ({ p with blocks := p.blocks.modify (id / blockBits) f, allocated := n } : IdPool).bit? j =
      if j = id then (p.bit? j).map g else p.bit? j := by
  -- only the block of the id changes, and in it only the bit of the id
  simp only [bit?, Array.getElem?_modify]
  by_cases hd : id / blockBits = j / blockBits
  · rw [if_pos hd, Option.map_map]
    by_cases hj : j = id
    · subst hj
      rw [if_pos rfl, Option.map_map]
      congr 1
      funext block
      simp [hf block j]
    · have hm : j % blockBits ≠ id % blockBits := fun hm => hj (eq_of_div_mod hd.symm hm)
      rw [if_neg hj]
      congr 1
      funext block
      simp [hf block j, hm]
  · have hj : j ≠ id := fun e => hd (by rw [e])
    rw [if_neg hd, if_neg hj]

theorem bit?_take (id j : Nat) :
    (p.take id).bit? j = if j = id then (p.bit? j).map fun _ => false else p.bit? j := by
  refine bit?_modify id _ (fun _ => false) (fun block j => ?_) _ j
  rw [BitVec.getLsbD_and, BitVec.getLsbD_not, getLsbD_twoPow_mod]
  by_cases h : j % blockBits = id % blockBits
  · simp [h]
  · simp [h, mod_blockBits_lt j]

theorem lowestFree?_free {id : Nat} (h : p.lowestFree? = some id) : p.bit? id = some true := by
  unfold lowestFree? at h
  split at h
  · cases h
  · rename_i index _
    obtain ⟨bit, hbit, rfl⟩ := Option.map_eq_some_iff.1 h
    obtain ⟨block, hblock, hlow⟩ := Option.bind_eq_some_iff.1 hbit
    rw [lowestBit?] at hlow
    have hset := List.find?_some hlow
    have hlt : bit < blockBits := List.mem_range.1 (List.mem_of_find?_eq_some hlow)
    have hd : (index * blockBits + bit) / blockBits = index := by
      rw [Nat.mul_comm, Nat.mul_add_div (by decide), Nat.div_eq_of_lt hlt, Nat.add_zero]
    have hm : (index * blockBits + bit) % blockBits = bit := by
      rw [Nat.mul_comm, Nat.mul_add_mod, Nat.mod_eq_of_lt hlt]
    rw [bit?, hd, hm, hblock]
    simpa using hset

theorem grow_eq_ok {grown : IdPool} (h : p.grow = .ok grown) :
    p.blocks.size * blockBits < p.limit ∧ grown = { p with
      blocks := p.blocks.push
        (freeBlock (min blockBits (p.limit - p.blocks.size * blockBits))) } := by
  simp only [grow] at h
  split at h
  · cases h
  · rename_i hbase
    cases h
    exact ⟨Nat.lt_of_not_le hbase, rfl⟩

theorem grow_eq_error {e : Error} (h : p.grow = .error e) : e = .outOfIds := by
  simp only [grow] at h
  split at h
  · cases h
    rfl
  · cases h

/-- A new block makes the ids behind the old blocks free, up to the limit. -/
theorem bit?_grow {grown : IdPool} (h : p.grow = .ok grown) (id : Nat) :
    grown.bit? id =
      if id / blockBits = p.blocks.size then some (decide (id < p.limit)) else p.bit? id := by
  obtain ⟨hbase, rfl⟩ := grow_eq_ok h
  simp only [bit?, Array.getElem?_push]
  by_cases hd : id / blockBits = p.blocks.size
  · -- the id is in the new block, whose bits below the limit are set
    have hid : p.blocks.size * blockBits + id % blockBits = id := by
      rw [← hd, Nat.mul_comm]
      exact Nat.div_add_mod id blockBits
    have hm := mod_blockBits_lt id
    have hbits : blockBits = 32 := rfl
    rw [if_pos hd, if_pos hd]
    simp only [Option.map_some, freeBlock, Nat.one_shiftLeft, BitVec.getLsbD_ofNat, hm, decide_true,
      Bool.true_and, Nat.testBit_two_pow_sub_one, Option.some_inj, decide_eq_decide]
    omega
  · rw [if_neg hd, if_neg hd]

/-! ### The limit -/

theorem limit_grow {grown : IdPool} (h : p.grow = .ok grown) : grown.limit = p.limit := by
  rw [(grow_eq_ok h).2]

theorem limit_generate (p : IdPool) : p.generate.2.limit = p.limit := by
  rw [generate]
  split
  · rfl
  · split
    · rfl
    · rename_i grown hgrown
      have hlimit := limit_grow hgrown
      split <;> exact hlimit

theorem limit_release (p : IdPool) (id : TaskId) : (p.release id).2.limit = p.limit := by
  rw [release]
  split <;> rfl

/-! ### The ids in use -/

/-- The ids in use are those of `ids`, and every free id is below the limit. -/
structure Holds (p : IdPool) (ids : List TaskId) : Prop where
  nodup : ids.Nodup
  mem_iff : ∀ id, p.isAllocated id = true ↔ id ∈ ids
  allocated : p.allocated = ids.length
  bounded : ∀ id : Nat, p.bit? id = some true → id < p.limit

theorem holds_new (limit : Nat) : (new limit).Holds [] where
  nodup := List.nodup_nil
  mem_iff id := by simp [isAllocated, new]
  allocated := rfl
  bounded id h := by simp [bit?, new] at h

namespace Holds

variable {ids : List TaskId}

theorem perm (h : p.Holds ids) {ids' : List TaskId} (hp : ids.Perm ids') : p.Holds ids' where
  nodup := hp.nodup_iff.1 h.nodup
  mem_iff id := by rw [h.mem_iff, hp.mem_iff]
  allocated := by rw [h.allocated, hp.length_eq]
  bounded := h.bounded

theorem take (h : p.Holds ids) {id : Nat} (hfree : p.bit? id = some true) :
    id ∉ ids ∧ (p.take id).Holds (id :: ids) := by
  have hid : id ∉ ids := by
    rw [← h.mem_iff, isAllocated_iff, hfree]
    simp
  refine ⟨hid, List.nodup_cons.2 ⟨hid, h.nodup⟩, fun j => ?_, ?_, fun j hj => ?_⟩
  · rw [isAllocated_iff, bit?_take, List.mem_cons, ← h.mem_iff, isAllocated_iff]
    by_cases hj : j = id
    · subst hj
      simpa [hfree, IdPool.take] using h.bounded j hfree
    · simp [hj, IdPool.take]
  · rw [List.length_cons, ← h.allocated]
    rfl
  · rw [bit?_take] at hj
    split at hj
    · simp at hj
    · exact h.bounded j hj

theorem grow (h : p.Holds ids) {grown : IdPool} (hg : p.grow = .ok grown) :
    grown.Holds ids := by
  have hlimit := limit_grow hg
  have hallocated : grown.allocated = p.allocated := by rw [(grow_eq_ok hg).2]
  refine ⟨h.nodup, fun j => ?_, hallocated.trans h.allocated, fun j hj => ?_⟩
  · rw [← h.mem_iff, isAllocated_iff, isAllocated_iff, bit?_grow hg, hlimit]
    by_cases hd : j / blockBits = p.blocks.size
    · -- no id of the new block was in use
      have hnone : p.bit? j = none := by rw [bit?, hd]; simp
      rw [if_pos hd, hnone]
      simp
    · rw [if_neg hd]
  · rw [bit?_grow hg] at hj
    rw [hlimit]
    split at hj
    · simpa using hj
    · exact h.bounded j hj

theorem generate_ok (h : p.Holds ids) {id : TaskId} {p' : IdPool}
    (hg : p.generate = (.ok id, p')) : id ∉ ids ∧ p'.Holds (id :: ids) := by
  unfold generate at hg
  split at hg
  · rename_i low hlow
    obtain ⟨hid, rfl⟩ := Prod.mk.inj hg
    cases hid
    exact h.take (lowestFree?_free hlow)
  · split at hg
    · cases hg
    · rename_i grown hgrown
      split at hg
      · rename_i low hlow
        obtain ⟨hid, rfl⟩ := Prod.mk.inj hg
        cases hid
        exact (h.grow hgrown).take (lowestFree?_free hlow)
      · cases hg

theorem generate_error (h : p.Holds ids) {e : Error} {p' : IdPool}
    (hg : p.generate = (.error e, p')) : e = .outOfIds ∧ p'.Holds ids := by
  unfold generate at hg
  split at hg
  · cases hg
  · split at hg
    · rename_i hgrow
      obtain ⟨he, rfl⟩ := Prod.mk.inj hg
      cases he
      exact ⟨grow_eq_error hgrow, h⟩
    · rename_i grown hgrown
      split at hg
      · cases hg
      · obtain ⟨he, rfl⟩ := Prod.mk.inj hg
        cases he
        exact ⟨rfl, h.grow hgrown⟩

theorem release (h : p.Holds ids) {id : TaskId} (hid : id ∈ ids) :
    (p.release id).2.Holds (ids.erase id) := by
  have hbit : ∀ j, (p.release id).2.bit? j =
      if j = id then (p.bit? j).map fun _ => true else p.bit? j := by
    intro j
    rw [IdPool.release, if_pos ((h.mem_iff id).2 hid)]
    refine bit?_modify id _ (fun _ => true) (fun block j => ?_) _ j
    rw [BitVec.getLsbD_or, getLsbD_twoPow_mod]
    by_cases hj : j % blockBits = id % blockBits
    · simp [hj]
    · simp [hj]
  have hlimit := p.limit_release id
  obtain ⟨hlt, hclear⟩ := (isAllocated_iff id).1 ((h.mem_iff id).2 hid)
  refine ⟨h.nodup.erase id, fun j => ?_, ?_, fun j hj => ?_⟩
  · rw [isAllocated_iff, hbit, hlimit, h.nodup.mem_erase_iff, ← h.mem_iff, isAllocated_iff]
    by_cases hj : j = id
    · subst hj
      simp [hclear]
    · simp [hj]
  · rw [List.length_erase_of_mem hid, ← h.allocated, IdPool.release,
      if_pos ((h.mem_iff id).2 hid)]
  · rw [hbit] at hj
    rw [hlimit]
    split at hj
    · rename_i hid
      exact hid ▸ hlt
    · exact h.bounded j hj

end Holds

end Microkernel.IdPool
