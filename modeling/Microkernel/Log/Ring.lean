/-
The ring of retained log lines.

Lines stand in a ring of `ringSize` bytes, each ended by a line feed. A new line pushes out
the oldest ones, whole, until there is room for it. `Ring.read` copies out the oldest bytes.

Design notes: the ring knows where its bytes begin and how many there are, but not where its
lines begin; pushing a line out looks for the next line feed.
-/
import Microkernel.Bytes

namespace Microkernel.Log

/-- Bytes of the ring. -/
def ringSize : Nat := 64 * 1024

/-- The byte behind each line. -/
def lineFeed : UInt8 := 10

/-- The retained lines. -/
structure Ring where
  bytes : Array UInt8
  /-- Where the oldest byte is. -/
  head : Nat
  /-- Bytes in use. -/
  length : Nat
  /-- Lines in the ring. -/
  lines : Nat
  deriving DecidableEq

namespace Ring

/-- The ring without lines. -/
def empty : Ring where
  bytes := Array.replicate ringSize 0
  head := 0
  length := 0
  lines := 0

/-- The byte `index` places behind the oldest. -/
def byteAt (r : Ring) (index : Nat) : UInt8 :=
  r.bytes.getD ((r.head + index) % ringSize) 0

/-- The bytes in use, oldest first. -/
def contents (r : Ring) : Bytes :=
  (List.range r.length).map r.byteAt

/-- The oldest bytes, at most `size` of them. -/
def read (r : Ring) (size : Nat) : Bytes :=
  (List.range (min r.length size)).map r.byteAt

/-- Drops bytes up to and including the first line feed, at most `count` of them. -/
def dropLine : Nat → Ring → Ring
  | 0, r => r
  | count + 1, r =>
    let rest := { r with head := (r.head + 1) % ringSize, length := r.length - 1 }
    if r.byteAt 0 = lineFeed then rest else dropLine count rest

/-- Pushes out the oldest line. -/
def evict (r : Ring) : Ring :=
  let rest := dropLine r.length r
  { rest with lines := rest.lines - 1 }

/-- Pushes out oldest lines until `needed` bytes are free, at most `count` lines. -/
def makeRoom (needed : Nat) : Nat → Ring → Ring
  | 0, r => r
  | count + 1, r =>
    if ringSize - r.length < needed then makeRoom needed count r.evict else r

/-- Writes a byte behind the newest. -/
def append (r : Ring) (b : UInt8) : Ring :=
  { r with
    bytes := r.bytes.setIfInBounds ((r.head + r.length) % ringSize) b
    length := r.length + 1 }

/-- Adds a line and its line feed. A line that can never fit is left out. -/
def push (r : Ring) (line : Bytes) : Ring :=
  if ringSize < line.length + 1 then
    r
  else
    -- each eviction frees at least one byte, so as many as there are bytes are enough
    let r := (line ++ [lineFeed]).foldl append (makeRoom (line.length + 1) r.length r)
    { r with lines := r.lines + 1 }

end Ring

end Microkernel.Log
