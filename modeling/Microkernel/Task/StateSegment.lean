/-
The task-state segment of a user task.

The segment tells the processor where the kernel stack of the task is, and which addresses
of the I/O space the task may use. Its bytes are a record of 104 bytes, in which only the
kernel stack pointer (bytes 4 to 11) and the offset of the I/O bitmap (the last two) differ
from zero, and then the bitmap, which denies every address.
-/
import Microkernel.Address
import Microkernel.Bytes

namespace Microkernel

/-- The state segment of one task. -/
structure StateSegment where
  /-- The kernel stack that the processor switches to. -/
  kernelStack : Nat
  deriving DecidableEq

namespace StateSegment

/-- Bytes of the record in front of the bitmap. -/
def recordSize : Nat := 104

/-- One bit per I/O address, one byte behind the last, and three to fill up. -/
def bitmapSize : Nat := 65536 / 8 + 4

/-- Bytes of a segment. -/
def size : Nat := recordSize + bitmapSize

/-- The segment of a task with the given kernel stack top. -/
def ofStackTop (top : Nat) : StateSegment :=
  ⟨canonical top⟩

/-- The segment as it is laid out in memory. -/
def bytes (s : StateSegment) : Bytes :=
  littleEndian 4 0 ++ littleEndian 8 s.kernelStack ++ List.replicate 90 0 ++
    littleEndian 2 recordSize ++ List.replicate bitmapSize 0xff

theorem length_bytes (s : StateSegment) : s.bytes.length = size := by
  simp only [bytes, List.length_append, length_littleEndian, List.length_replicate, size,
    recordSize, bitmapSize]

end StateSegment

end Microkernel
