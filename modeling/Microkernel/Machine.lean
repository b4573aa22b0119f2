/-
The machine under the kernel: address spaces, heaps, interrupts and context switches.

`Machine` is a simulated computer. Cores take turns (`Machine.currentCore` is the one that
runs now), and what a real machine would do on the outside is recorded: interrupts sent,
timers armed, context switches made. `Faults` make its allocators fail on demand.

* An address space maps regions of pages and is named by its root, the address of its page
  tables. The kernel's own space has root `kernelRoot`; user spaces are cloned from it.
* A heap hands out fresh addresses from the kernel's half of the address range; only the
  allocations of the kernel's own heap are counted.

Design notes: allocation never hands out an address twice, so the address of a kernel stack
names one task for the whole run of the machine. All heap addresses are canonical.
-/
import Microkernel.Address
import Microkernel.Bytes
import Microkernel.Config
import Microkernel.Interrupt
import Microkernel.Table

namespace Microkernel

/-- Parts of the machine that can be made to fail. -/
inductive Fault where
  | clone
  | userPages
  | heapCreation
  | kernelHeap
  | writeBytes
  deriving DecidableEq

namespace Fault

/-- Every fault. -/
def all : List Fault :=
  [clone, userPages, heapCreation, kernelHeap, writeBytes]

/-- The name that a fault is asked for by. -/
def name : Fault → String
  | clone => "clone"
  | userPages => "user_pages"
  | heapCreation => "heap_creation"
  | kernelHeap => "kernel_heap"
  | writeBytes => "write_bytes"

end Fault

/-- The faults that are switched on. -/
structure Faults where
  clone : Bool := false
  userPages : Bool := false
  heapCreation : Bool := false
  kernelHeap : Bool := false
  writeBytes : Bool := false
  deriving DecidableEq

/-- Switches one fault on or off. -/
def Faults.set (f : Faults) : Fault → Bool → Faults
  | .clone, on => { f with clone := on }
  | .userPages, on => { f with userPages := on }
  | .heapCreation, on => { f with heapCreation := on }
  | .kernelHeap, on => { f with kernelHeap := on }
  | .writeBytes, on => { f with writeBytes := on }

/-- Pages mapped together. -/
structure Region where
  pages : Nat
  rights : PageRights
  deriving DecidableEq

/-- One set of page tables. -/
structure AddressSpace where
  isUser : Bool
  /-- The mapped regions, by their first address. -/
  regions : Table Region
  /-- Where the next region goes that asks for no place. -/
  nextFree : Nat
  deriving DecidableEq

namespace AddressSpace

/-- Regions that ask for no place go here and above. -/
def dynamicBase : Nat := 0x0000100000000000

/-- A space without regions. -/
def new (isUser : Bool) : AddressSpace where
  isUser := isUser
  regions := .empty
  nextFree := dynamicBase

end AddressSpace

/-- Whom a heap allocation is for. -/
inductive HeapSource where
  /-- The kernel's heap, whose allocations are counted. -/
  | kernel
  /-- The allocator of the kernel image. -/
  | image
  /-- The heap of the address space with the given root. -/
  | space (root : Nat)
  deriving DecidableEq

/-- The allocator of blocks in the kernel's half. Memory that was given back can be had again, so
blocks of the past do not use it up; but every block gets an address of its own. -/
structure Heap where
  /-- The lowest address not handed out yet. -/
  next : Nat
  /-- Allocations of the kernel's heap that were not given back. -/
  live : Nat
  deriving DecidableEq

namespace Heap

/-- The first address that a heap hands out. -/
def base : Nat := 0xffff900000000000

/-- Bytes from `base` to the end of the kernel's half. -/
def range : Nat := 0x700000000000

/-- A heap that has handed out nothing. -/
def new : Heap where
  next := base
  live := 0

/-- The address of a fresh block: `align` must be a power of two that divides it, the block may not
be empty, and the range of the heap must have room for it wherever it is aligned. -/
def place? (h : Heap) (align size : Nat) : Option Nat :=
  if 1 <<< align.log2 = align ∧ 0 < size ∧ align + size ≤ range then
    some (roundUp h.next align)
  else
    none

end Heap

/-- Where a context goes on when it is loaded. -/
inductive StackPointer where
  /-- So many bytes below the top of the context's own kernel stack. -/
  | below (bytes : Nat)
  /-- At the address that was saved when the context was left. -/
  | saved (address : Nat)
  deriving DecidableEq

/-- The address that is loaded for a kernel stack with the given top. -/
def StackPointer.address (top : Nat) : StackPointer → Nat
  | below bytes => top - bytes
  | saved address => address

/-- One context switch: where the old stack pointer was saved, and what was loaded. -/
structure ContextSwitch where
  core : CoreId
  /-- The top of the kernel stack whose task was left, or none for the boot stack. -/
  saved : Option Nat
  /-- The stack pointer that was loaded. -/
  resumed : StackPointer
  /-- The top of the kernel stack that was loaded. -/
  stackTop : Nat
  /-- The address space that was loaded before, if the old one was another. -/
  activated : Option Nat
  deriving DecidableEq

/-- Bytes written to the region at `base` of the space with the given root. -/
structure Page where
  root : Nat
  base : Nat
  deriving DecidableEq

/-- Code addresses that go onto the stacks of new tasks. -/
structure EntryPoints where
  /-- Where a new task starts: it takes the entry address from its stack and jumps to it. -/
  taskStart : Nat
  /-- Where a task's entry function returns to. -/
  taskFinished : Nat
  /-- Enters user mode with what it finds on the stack. -/
  userLaunch : Nat
  /-- The body of an idle task. -/
  idleLoop : Nat
  /-- The body of a cleanup task. -/
  cleanupLoop : Nat
  deriving DecidableEq

/-- The state of the simulated computer. -/
structure Machine where
  currentCore : CoreId
  interruptsEnabled : Bool
  faults : Faults
  heap : Heap
  /-- The address spaces in existence, by root. -/
  spaces : Table AddressSpace
  nextRoot : Nat
  /-- Pages mapped in user spaces. -/
  userPages : Nat
  /-- What was last written to each region. -/
  contents : List (Page × Bytes)
  /-- How often an address space was loaded. -/
  activations : Nat
  /-- The address space loaded last, or zero. -/
  activeRoot : Nat
  /-- Interrupts sent, oldest first. -/
  interrupts : List SentInterrupt
  /-- Timers armed, oldest first. -/
  timers : List ArmedTimer
  /-- Context switches made, oldest first. -/
  switches : List ContextSwitch
  tlbFlushes : Nat
  deriving DecidableEq

namespace Machine

/-- The root of the kernel's address space. -/
def kernelRoot : Nat := 0x1000

/-- The distance between the roots of two spaces. -/
def rootStep : Nat := 4096

/-- The code addresses of the simulated kernel image. -/
def entryPoints : EntryPoints where
  taskStart := 0xffffffff80001000
  taskFinished := 0xffffffff80002000
  userLaunch := 0xffffffff80003000
  idleLoop := 0xffffffff80004000
  cleanupLoop := 0xffffffff80005000

/-- The machine at power-on, running core 0. -/
def new : Machine where
  currentCore := 0
  interruptsEnabled := true
  faults := {}
  heap := .new
  spaces := Table.empty.insert kernelRoot (.new false)
  nextRoot := kernelRoot + rootStep
  userPages := 0
  contents := []
  activations := 0
  activeRoot := 0
  interrupts := []
  timers := []
  switches := []
  tlbFlushes := 0

/-! ### Address spaces -/

/-- Number of user spaces in existence. -/
def userSpaces (m : Machine) : Nat :=
  m.spaces.values.countP AddressSpace.isUser

/-- Makes a user space without user regions; answers its root. -/
def cloneSpace (m : Machine) : Option Nat × Machine :=
  if m.faults.clone then
    (none, m)
  else
    (some m.nextRoot,
      { m with
        spaces := m.spaces.insert m.nextRoot (.new true)
        nextRoot := m.nextRoot + rootStep })

/-- Ends a user space. The kernel's space stays. -/
def dropSpace (m : Machine) (root : Nat) : Machine :=
  if root = kernelRoot then m else { m with spaces := m.spaces.erase root }

/-- Loads an address space. -/
def activate (m : Machine) (root : Nat) : Machine :=
  { m with activations := m.activations + 1, activeRoot := root }

/-- The bytes last written to a region. -/
def read? (m : Machine) (root base : Nat) : Option Bytes :=
  (m.contents.find? fun entry => entry.1 = ⟨root, canonical base⟩).map Prod.snd

/-- What was written, without the bytes of one region. -/
def forget (contents : List (Page × Bytes)) (page : Page) : List (Page × Bytes) :=
  contents.filter fun entry => entry.1 ≠ page

/-- Maps `count` pages at `placement`, or at the next free address when no place is asked
for; answers the address. A place that is taken is refused. -/
def mapPages (m : Machine) (root count : Nat) (rights : PageRights) (placement : Option Nat) :
    Option Nat × Machine :=
  if count = 0 ∨ m.faults.userPages then
    (none, m)
  else
    match m.spaces.get? root with
    | none => (none, m)
    | some space =>
      let (start, space) :=
        match placement with
        | some address => (canonical address, space)
        | none =>
          (space.nextFree,
            { space with nextFree := (space.nextFree + count * pageSize) % wordSpan })
      -- a dynamic address is used up even when it turns out to be taken
      if space.regions.contains start then
        (none, { m with spaces := m.spaces.insert root space })
      else
        (some (canonical start),
          { m with
            spaces := m.spaces.insert root
              { space with regions := space.regions.insert start ⟨count, rights⟩ }
            userPages := if space.isUser then m.userPages + count else m.userPages })

/-- Unmaps the region at `base`, and forgets its bytes. The pages are counted as given back
only if `count` is their number. -/
def unmapPages (m : Machine) (root base count : Nat) : Machine :=
  let start := canonical base
  let m := { m with contents := forget m.contents ⟨root, start⟩ }
  match m.spaces.get? root with
  | none => m
  | some space =>
    let given := space.isUser && (space.regions.get? start).any (·.pages == count)
    { m with
      spaces := m.spaces.insert root { space with regions := space.regions.erase start }
      userPages := if given then m.userPages - count else m.userPages }

/-- Writes bytes to the start of a region; answers whether they fit into one. -/
def write (m : Machine) (root base : Nat) (bytes : Bytes) : Bool × Machine :=
  let page : Page := ⟨root, canonical base⟩
  match (m.spaces.get? root).bind (·.regions.get? page.base) with
  | none => (false, m)
  | some region =>
    if m.faults.writeBytes || decide (region.pages * pageSize % wordSpan < bytes.length) then
      (false, m)
    else
      (true, { m with contents := (page, bytes) :: forget m.contents page })

/-! ### Heaps -/

/-- Makes a heap for an address space. -/
def createHeap (m : Machine) (root : Nat) : Option HeapSource :=
  if m.faults.heapCreation then none else some (.space root)

/-- Allocates a block; answers its address. -/
def allocate (m : Machine) (source : HeapSource) (align size : Nat) : Option Nat × Machine :=
  if source = .kernel ∧ m.faults.kernelHeap then
    (none, m)
  else
    match m.heap.place? align size with
    | none => (none, m)
    | some start =>
      let live := if source = .kernel then m.heap.live + 1 else m.heap.live
      (some start, { m with heap := ⟨start + size, live⟩ })

/-- Gives a block back. -/
def free (m : Machine) (source : HeapSource) : Machine :=
  if source = .kernel then { m with heap := { m.heap with live := m.heap.live - 1 } } else m

/-! ### Interrupts, timers and switches -/

/-- Masks interrupts; answers whether they were enabled. -/
def maskInterrupts (m : Machine) : Bool × Machine :=
  (m.interruptsEnabled, { m with interruptsEnabled := false })

/-- Undoes a mask. -/
def restoreInterrupts (m : Machine) (enabled : Bool) : Machine :=
  { m with interruptsEnabled := enabled }

/-- Sends an interrupt from the current core to an interrupt controller. -/
def sendInterrupt (m : Machine) (target : Nat) (kind : InterruptKind) : Machine :=
  { m with interrupts := m.interrupts ++ [⟨m.currentCore, target, kind⟩] }

/-- Arms the timer of the current core. -/
def setTimer (m : Machine) (mode : TimerMode) (milliseconds : Nat) : Machine :=
  { m with timers := m.timers ++ [⟨m.currentCore, mode, milliseconds⟩] }

/-- Forgets the address mappings that the current core has cached. -/
def flushTlb (m : Machine) : Machine :=
  { m with tlbFlushes := m.tlbFlushes + 1 }

/-- Switches the current core to another context. -/
def switchContext (m : Machine) (switch : ContextSwitch) : Machine :=
  { m with switches := m.switches ++ [switch] }

end Machine

end Microkernel
