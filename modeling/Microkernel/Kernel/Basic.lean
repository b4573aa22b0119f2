/-
The kernel: all cores, what they share, and the machine under them.

`Kernel` is one value. An `Action` is a step of the kernel that may stop early: with an error
that goes back to the caller, or because the core that runs it has halted (`Stop`). An action
that stops keeps the state it has reached.

The first part describes the state, the second the small actions that all others are made of.
-/
import Microkernel.Core
import Microkernel.Directory
import Microkernel.Log.Event
import Microkernel.Metrics
import Microkernel.Scheduler.Operation
import Microkernel.Task.Launch

namespace Microkernel

/-- The state of the whole system. -/
structure Kernel where
  config : Config
  machine : Machine
  cores : List Core
  directory : Directory
  metrics : Metrics
  journal : Journal
  deriving DecidableEq

namespace Kernel

/-- A kernel on a fresh machine; `apics` gives the interrupt controller of each core. -/
def new (config : Config) (apics : List Nat) : Except Error Kernel :=
  if config.cores = 0 ∨ maxCores < config.cores ∨ apics.length ≠ config.cores then
    .error .invalidCore
  else
    .ok
      { config := config
        machine := .new
        cores := apics.mapIdx fun id apic =>
          Core.new id apic config.timeslice config.inboxCapacity
        directory := .new config.maxIds
        metrics := {}
        journal := .new }

/-- The core with an ordinal. -/
def core? (k : Kernel) (id : CoreId) : Option Core :=
  k.cores[id]?

/-- Changes one core. -/
def modifyCore (k : Kernel) (id : CoreId) (f : Core → Core) : Kernel :=
  { k with cores := k.cores.modify id f }

/-- The core that runs now. -/
def localCore? (k : Kernel) : Option Core :=
  k.core? k.machine.currentCore

/-- The published current task of the core that runs now. -/
def currentTask (k : Kernel) : Option TaskId :=
  k.localCore?.bind Core.current

/-- The sizes of new tasks. -/
def launcher (k : Kernel) : Launcher :=
  .ofConfig k.config

/-- Whom the kernel's log lines are attributed to. -/
def source (k : Kernel) : Log.Source :=
  .ofCore k.machine.currentCore k.currentTask

/-- Adds an event to the journal. -/
def noted (k : Kernel) (event : Event) : Kernel :=
  { k with journal := k.journal.add k.source event }

/-- The cores that can be given tasks, with their published loads. -/
def candidates (k : Kernel) : List (CoreId × Nat) :=
  (k.cores.filter Core.isOnline).map fun c => (c.id, c.load)

/-- Why an action stopped early. -/
inductive Stop where
  | failed (error : Error)
  /-- The core halted. -/
  | halted (core : CoreId)
  deriving DecidableEq

/-- A step of the kernel that may stop early. -/
abbrev Action (α : Type) := ExceptT Stop (StateM Kernel) α

variable {α : Type}

/-- Carries out an action. -/
def perform (k : Kernel) (action : Action α) : Except Stop α × Kernel :=
  action.run.run k

/-! ### Small actions -/

/-- Stops with an error. -/
def fail (e : Error) : Action α :=
  throw (.failed e)

/-- Goes on with a result, or stops with its error. -/
def ofExcept : Except Error α → Action α
  | .ok a => pure a
  | .error e => fail e

/-- Turns an error into a result; a halt stays one. -/
def attempt (action : Action α) : Action (Except Error α) :=
  tryCatch (do return .ok (← action)) fun
    | .failed e => return .error e
    | .halted core => throw (.halted core)

/-- Reports an event. -/
def note (event : Event) : Action Unit :=
  modify fun k => k.noted event

/-- Adds to a counter. -/
def tally (counter : Counter) (amount : Nat) : Action Unit :=
  modify fun k => { k with metrics := k.metrics.add counter amount }

/-- Uses the machine. -/
def onMachine (f : Machine → α × Machine) : Action α :=
  modifyGet fun k =>
    let (a, machine) := f k.machine
    (a, { k with machine := machine })

/-- Uses the directory. -/
def onDirectory (f : Directory → α × Directory) : Action α :=
  modifyGet fun k =>
    let (a, directory) := f k.directory
    (a, { k with directory := directory })

/-- Looks at a core; an ordinal out of range is refused. -/
def coreAt (id : CoreId) : Action Core := do
  match (← get).core? id with
  | some core => pure core
  | none => fail .invalidCore

/-- The core that runs now; it may be out of range. -/
def localCore : Action Core := do
  coreAt (← get).machine.currentCore

/-- Changes a core. -/
def updateCore (id : CoreId) (f : Core → Core) : Action Unit :=
  modify fun k => k.modifyCore id f

/-- Uses the scheduler of a core. -/
def onScheduler (id : CoreId) (f : Scheduler → α × Scheduler) : Action α := do
  let core ← coreAt id
  let (a, scheduler) := f core.scheduler
  updateCore id fun c => { c with scheduler := scheduler }
  return a

/-- Uses the scheduler of a core for something that can fail. -/
def askScheduler (id : CoreId) (f : Scheduler → Except Error α × Scheduler) : Action α := do
  ofExcept (← onScheduler id f)

/-- Carries out an operation on the scheduler of a core and reports its events. -/
def request (id : CoreId) (operation : Scheduler.Operation)
    (f : Scheduler → Except Error α × Scheduler) (answer : α → Scheduler.Answer) :
    Action α := do
  let before := (← coreAt id).scheduler
  let a ← askScheduler id f
  (before.events operation (answer a)).forM note
  return a

end Kernel

end Microkernel
