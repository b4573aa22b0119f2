/-
Kernel stacks and the frame that a new task starts from.

A kernel stack is a block of the kernel's heap. Words are pushed below its top; the frame of
a new task holds, from the stack pointer upwards, six zeroed registers, the address where
the task starts, its entry address, any extra words, and the address its entry function
returns to.
-/
import Microkernel.Error
import Microkernel.Machine

namespace Microkernel

/-- Kernel stacks begin and end at multiples of this. -/
def stackAlign : Nat := 16

/-- Bytes of a word. -/
def wordSize : Nat := 8

/-- Registers that a context switch keeps on the stack. -/
def savedRegisters : Nat := 6

/-- A task's kernel stack. -/
structure KernelStack where
  base : Nat
  size : Nat
  /-- The words that were pushed below the top, lowest address first. -/
  words : List Nat
  deriving DecidableEq

namespace KernelStack

/-- The address behind the stack. -/
def top (s : KernelStack) : Nat :=
  s.base + s.size

/-- Points to the word pushed last. -/
def pointer (s : KernelStack) : StackPointer :=
  .below (wordSize * s.words.length)

/-- Takes a stack of at least `size` bytes from the kernel's heap. -/
def allocate (m : Machine) (size : Nat) : Except Error KernelStack × Machine :=
  let size := roundUp size stackAlign
  match m.allocate .kernel stackAlign size with
  | (none, m) => (.error (.allocationFailed .kernelStack), m)
  | (some base, m) => (.ok ⟨base, size, []⟩, m)

/-- The words of a first frame, lowest address first. -/
def firstFrame (entries : EntryPoints) (entry : Nat) (extras : List Nat) : List Nat :=
  List.replicate savedRegisters 0 ++ entries.taskStart :: entry :: extras ++
    [entries.taskFinished]

/-- Pushes a first frame, if it fits. -/
def withFirstFrame (s : KernelStack) (entries : EntryPoints) (entry : Nat)
    (extras : List Nat) : Except Error KernelStack :=
  let frame := firstFrame entries entry extras
  if s.size < wordSize * frame.length then
    .error (.allocationFailed .kernelStack)
  else
    .ok { s with words := frame }

end KernelStack

end Microkernel
