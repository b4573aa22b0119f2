/-
How a task is resumed.

A switch to a task takes the saved registers from its kernel stack, and goes on at the address
above them. For a new task this is the start code, which takes the address to go on at from the
stack as well; a user task goes on in the user-launch code, which takes its address space and what
user mode starts with. A `Processor` carries out these pieces of code, `Processor.run?`, and has no
result if it would read where nothing was pushed.

Design notes: the words of a kernel stack are those of its first frame, so a resumed task is one that
has not run. The launch code builds the frame for the return to user mode behind its last `pop`; it
reads nothing more from the stack, and is cut there.
-/
import Microkernel.Task.Stack

namespace Microkernel

/-- Registers that the code below loads. -/
inductive Register where
  | r15
  | r14
  | r13
  | r12
  | rbp
  | rbx
  | rax
  | rcx
  | rdx
  | rdi
  /-- Names the address space in use. -/
  | cr3
  deriving DecidableEq

/-- One instruction. -/
inductive Instruction where
  /-- Takes a word from the stack. -/
  | pop (target : Register)
  | move (target source : Register)
  /-- Lets interrupts through, or masks them. -/
  | interrupts (enabled : Bool)
  /-- Goes on at the address that it takes from the stack. -/
  | ret
  /-- Goes on at the address in a register. -/
  | jump (source : Register)
  deriving DecidableEq

/-- What a switch to a task ends with, once the stack of the task is loaded. -/
def switchCode : List Instruction :=
  [.pop .r15, .pop .r14, .pop .r13, .pop .r12, .pop .rbp, .pop .rbx, .ret]

/-- The first code of a new task. -/
def startCode : List Instruction :=
  [.pop .rax, .interrupts true, .jump .rax]

/-- The first code of a user task, up to where the stack was read: it loads the address space, the
user stack pointer, the user entry and the first argument of the entry. -/
def launchCode : List Instruction :=
  [.interrupts false, .pop .rax, .move .cr3 .rax, .pop .rcx, .pop .rdx, .pop .rdi]

/-- The code at an address, if it is one of the above. -/
def codeAt (entries : EntryPoints) (address : Nat) : Option (List Instruction) :=
  if address = entries.taskStart then some startCode
  else if address = entries.userLaunch then some launchCode
  else none

/-- The word at an address of a kernel stack, if one was pushed there. -/
def KernelStack.wordAt? (s : KernelStack) (address : Nat) : Option Nat :=
  let lowest := s.pointer.address s.top
  if lowest ≤ address ∧ (address - lowest) % wordSize = 0 then
    s.words[(address - lowest) / wordSize]?
  else
    none

/-- What the code works on. -/
structure Processor where
  /-- Where the last jump or return went. -/
  counter : Nat
  /-- The address of the topmost word on the stack. -/
  stackPointer : Nat
  registers : Register → Nat
  interruptsEnabled : Bool

namespace Processor

/-- Loads a register. -/
def load (p : Processor) (target : Register) (value : Nat) : Processor :=
  { p with registers := fun register => if register = target then value else p.registers register }

/-- Takes a word from the stack. -/
def pop? (s : KernelStack) (p : Processor) : Option (Nat × Processor) := do
  let word ← s.wordAt? p.stackPointer
  return (word, { p with stackPointer := p.stackPointer + wordSize })

/-- Carries out one instruction. -/
def step? (s : KernelStack) (p : Processor) : Instruction → Option Processor
  | .pop target => do
    let (word, p) ← p.pop? s
    return p.load target word
  | .move target source => return p.load target (p.registers source)
  | .interrupts enabled => return { p with interruptsEnabled := enabled }
  | .ret => do
    let (word, p) ← p.pop? s
    return { p with counter := word }
  | .jump source => return { p with counter := p.registers source }

/-- Carries out a piece of code. -/
def run? (s : KernelStack) (p : Processor) (code : List Instruction) : Option Processor :=
  code.foldlM (step? s) p

/-- Carries out the code that the counter points to. -/
def proceed? (entries : EntryPoints) (s : KernelStack) (p : Processor) : Option Processor := do
  p.run? s (← codeAt entries p.counter)

/-- Switches to a task that has not run, up to where its start code jumps to. -/
def resume? (entries : EntryPoints) (s : KernelStack) (pointer : StackPointer) (p : Processor) :
    Option Processor := do
  let p ← run? s { p with stackPointer := pointer.address s.top } switchCode
  p.proceed? entries s

end Processor

end Microkernel
