/-
Tasks.

A task is one thread of control with everything it owns: a kernel stack, a mailbox and, for
a user task, mappings in an address space of its own (`UserImage`). `Task.stackPointer` is
where the task goes on when a core resumes it.

A task that is not running either is ready, sleeps until a point of its core's clock, or
waits for mail; `Task.isWakeable` says whether its wait is over.
-/
import Microkernel.Mailbox
import Microkernel.Task.Stack
import Microkernel.Task.StateSegment
import Microkernel.Text.Quoted

namespace Microkernel

/-- What a task is doing. -/
inductive TaskState where
  /-- It waits for its turn in the ready ring. -/
  | ready
  /-- It is the core's current task. -/
  | running
  /-- It is blocked until its wake time. -/
  | sleeping
  /-- It is blocked until mail arrives. -/
  | blocked
  /-- It is over, and waits to be reclaimed. -/
  | exited
  deriving DecidableEq

/-- Every task state. -/
def TaskState.all : List TaskState :=
  [ready, running, sleeping, blocked, exited]

/-- The spelling of a task state in reports. -/
def TaskState.name : TaskState → String
  | ready => "Ready"
  | running => "Running"
  | sleeping => "Sleeping"
  | blocked => "Blocked"
  | exited => "Exited"

/-- How urgent a task is. Only the choice of a core looks at it. -/
inductive Priority where
  | idle
  | other
  | io
  | ui
  | input
  | irq
  deriving DecidableEq

namespace Priority

/-- Every priority, from the least urgent up. -/
def all : List Priority :=
  [idle, other, io, ui, input, irq]

/-- What one task of this priority adds to the load of its core. -/
def weight : Priority → Nat
  | irq => 32
  | input => 16
  | ui => 8
  | io => 4
  | other => 2
  | idle => 0

/-- The place of the priority, from the least urgent up. -/
def rank : Priority → Nat
  | idle => 0
  | other => 1
  | io => 2
  | ui => 3
  | input => 4
  | irq => 5

/-- The spelling of the priority in reports. -/
def name : Priority → String
  | idle => "Idle"
  | other => "Other"
  | io => "Io"
  | ui => "Ui"
  | input => "Input"
  | irq => "Irq"

/-- Less urgent or more urgent. -/
def compare (a b : Priority) : Ordering :=
  Ord.compare a.rank b.rank

end Priority

/-- Why the current task stops running. -/
inductive BlockReason where
  /-- It sleeps for this many milliseconds. -/
  | sleep (milliseconds : Nat)
  /-- It waits for mail. With `since`, only mail accepted after that many others ends the
  wait. -/
  | mail (since : Option Nat)
  deriving DecidableEq

/-- Pages that a user task owns in its address space. -/
structure Mapping where
  base : Nat
  pages : Nat
  deriving DecidableEq

/-- The part of a task that runs in user mode. -/
structure UserImage where
  /-- The address space that the mappings are in. -/
  root : Nat
  stack : Mapping
  segmentPages : Mapping
  segment : StateSegment
  /-- The path the task was started with, ended by a zero byte. -/
  arguments : Option Mapping
  deriving DecidableEq

/-- The mappings of a user task, in the order in which they are given back. -/
def UserImage.mappings (image : UserImage) : List Mapping :=
  [image.stack, image.segmentPages] ++ image.arguments.toList

/-- Unmaps a list of mappings of one address space, and ends the space. -/
def releaseSpace (root : Nat) (mappings : List Mapping) (m : Machine) : Machine :=
  (mappings.foldl (fun (m : Machine) p => m.unmapPages root p.base p.pages) m).dropSpace root

/-- Unmaps what a user image owns, and ends its address space. -/
def UserImage.release (image : UserImage) (m : Machine) : Machine :=
  releaseSpace image.root image.mappings m

/-- A task with everything it owns. -/
structure Task where
  id : TaskId
  name : String
  state : TaskState
  priority : Priority
  /-- The clock reading from which on a sleeping task can run. -/
  wakeTime : Nat
  /-- The core that queued the task last. -/
  lastCore : Option CoreId
  /-- How many messages had been accepted when a filtered wait began. -/
  waitSince : Option Nat
  stackPointer : StackPointer
  mailbox : Mailbox
  /-- The root of the address space that the task runs in. -/
  space : Nat
  heap : HeapSource
  /-- Present for user tasks only. -/
  user : Option UserImage
  stack : KernelStack
  deriving DecidableEq

namespace Task

/-- The task has a part that runs in user mode. -/
def isUser (t : Task) : Bool :=
  t.user.isSome

/-- The wait of a blocked task is over when its core's clock shows `elapsed`. -/
def isWakeable (t : Task) (elapsed : Nat) : Bool :=
  match t.state with
  | .sleeping => decide (t.wakeTime ≤ elapsed)
  | .blocked =>
    match t.waitSince with
    | some since => decide (since < t.mailbox.sends)
    | none => t.mailbox.hasUnread
  | .ready | .running | .exited => false

/-- The task in one line, for reports. -/
def describe (t : Task) : String :=
  String.join
    ["Task \x7b id: ", toString t.id, ", name: ", Text.quote t.name, ", state: ", t.state.name,
      ", priority: ", t.priority.name, ", wake_time: ", toString t.wakeTime, ", user: ",
      if t.isUser then "true" else "false", " \x7d"]

/-- Gives back everything that a task owns. -/
def release (t : Task) (m : Machine) : Machine :=
  match t.user with
  | none => m.free .kernel
  | some image => (image.release m).free .kernel

end Task

end Microkernel
