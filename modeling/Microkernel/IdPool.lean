/-
The pool of task ids.

Ids are bits in blocks of 32; a set bit is a free id. Blocks are added when no id is free,
until `limit` ids exist, and `IdPool.generate` always hands out the lowest free id.

Design notes: the last block may be partial; ids at or beyond the limit are never marked
free, so that they are never handed out.
-/
import Microkernel.Error
import Microkernel.Config

namespace Microkernel

/-- Ids per block. -/
def blockBits : Nat := 32

/-- The ids in use, as the clear bits of a growing bitmap. -/
structure IdPool where
  /-- Block `b` holds the ids from `32 * b` on; a set bit is a free id. -/
  blocks : Array (BitVec 32)
  /-- No id reaches this number. -/
  limit : Nat
  /-- Number of ids in use. -/
  allocated : Nat
  deriving DecidableEq

namespace IdPool

/-- The pool of the ids below `limit`, all free. -/
def new (limit : Nat) : IdPool where
  blocks := #[]
  limit := limit
  allocated := 0

/-- The lowest set bit of a block. -/
def lowestBit? (block : BitVec 32) : Option Nat :=
  (List.range blockBits).find? block.getLsbD

/-- The block with the bits below `count` set. -/
def freeBlock (count : Nat) : BitVec 32 :=
  BitVec.ofNat 32 (1 <<< count - 1)

/-- Adds the next block; its ids below the limit are free. -/
def grow (p : IdPool) : Except Error IdPool :=
  let base := p.blocks.size * blockBits
  if p.limit ≤ base then
    .error .outOfIds
  else
    .ok { p with blocks := p.blocks.push (freeBlock (min blockBits (p.limit - base))) }

/-- The lowest free id of the blocks that exist. -/
def lowestFree? (p : IdPool) : Option TaskId :=
  match p.blocks.findIdx? (· ≠ 0) with
  | none => none
  | some index =>
    (p.blocks[index]?.bind lowestBit?).map fun bit => index * blockBits + bit

/-- Marks an id as in use. -/
def take (p : IdPool) (id : TaskId) : IdPool :=
  { p with
    blocks := p.blocks.modify (id / blockBits) (· &&& ~~~BitVec.twoPow 32 (id % blockBits))
    allocated := p.allocated + 1 }

/-- Hands out the lowest free id. -/
def generate (p : IdPool) : Except Error TaskId × IdPool :=
  match p.lowestFree? with
  | some id => (.ok id, p.take id)
  | none =>
    match p.grow with
    | .error e => (.error e, p)
    | .ok grown =>
      -- a new block always has a free id, so the second case does not arise
      match grown.lowestFree? with
      | some id => (.ok id, grown.take id)
      | none => (.error .outOfIds, grown)

/-- The id is in use. -/
def isAllocated (p : IdPool) (id : TaskId) : Bool :=
  decide (id < p.limit) &&
    match p.blocks[id / blockBits]? with
    | none => false
    | some block => !block.getLsbD (id % blockBits)

/-- Takes an id back; answers whether it was in use. -/
def release (p : IdPool) (id : TaskId) : Bool × IdPool :=
  if p.isAllocated id then
    (true,
      { p with
        blocks := p.blocks.modify (id / blockBits) (· ||| BitVec.twoPow 32 (id % blockBits))
        allocated := p.allocated - 1 })
  else
    (false, p)

end IdPool

end Microkernel
