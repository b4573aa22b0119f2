/-
What the kernel has to say.

Each message of the kernel is an `Event`; `Event.record` gives its level, the part of the
kernel it comes from, and its text. A `Journal` collects the events that the chosen level
lets pass, each with its source. Lines are made from a journal only when someone reads them.
-/
import Microkernel.Error
import Microkernel.Log.Line
import Microkernel.Message.Basic

namespace Microkernel

/-- Something that the kernel reports. -/
inductive Event where
  /-- A task was put into a core's ready ring. -/
  | queued (core : CoreId) (task : TaskId)
  | sleeping (task : TaskId) (wakeTime : Nat)
  | exited (task : TaskId) (core : CoreId)
  /-- A task ended whose id was not in use. -/
  | strayExit (task : TaskId)
  | online (core : CoreId) (apic : Nat) (idle cleanup : TaskId)
  | kernelTaskFailed (name : String) (error : Error)
  | userTaskFailed (name : String) (error : Error)
  /-- A task waits until a core is online. -/
  | parked (task : TaskId)
  | placed (task : TaskId) (core : CoreId)
  | reaping (task : TaskId) (name : String)
  | starting (core : CoreId)
  /-- A service has another provider than before. -/
  | moved (service : Service) (before after : TaskId)
  | mailDropped (sender recipient : TaskId) (error : Error)
  /-- A core met a fatal error. -/
  | fault (core : CoreId) (error : Error)
  deriving DecidableEq

namespace Event

/-- The event as a log message. -/
def record : Event → Log.Record
  | queued core task =>
    ⟨.debug, "SCHED", ["core ", toString core, " queued task ", toString task]⟩
  | sleeping task wakeTime =>
    ⟨.debug, "SCHED", ["task ", toString task, " sleeps until ", toString wakeTime, " ms"]⟩
  | exited task core =>
    ⟨.debug, "SCHED", ["task ", toString task, " exited on core ", toString core]⟩
  | strayExit task =>
    ⟨.warn, "SCHED",
      ["task ", toString task, " exited with an id that was not allocated"]⟩
  | online core apic idle cleanup =>
    ⟨.info, "CPU",
      ["core ", toString core, " online (apic ", toString apic, "), idle=", toString idle,
        " cleanup=", toString cleanup]⟩
  | kernelTaskFailed name error =>
    ⟨.warn, "SCHED", ["kernel task '", name, "' not created: "] ++ error.fragments⟩
  | userTaskFailed name error =>
    ⟨.warn, "SCHED", ["user task '", name, "' not created: "] ++ error.fragments⟩
  | parked task =>
    ⟨.debug, "SCHED", ["task ", toString task, " parked until a core is online"]⟩
  | placed task core =>
    ⟨.debug, "SCHED", ["task ", toString task, " placed on core ", toString core]⟩
  | reaping task name =>
    ⟨.debug, "SCHED", ["reaping task ", toString task, " '", name, "'"]⟩
  | starting core =>
    ⟨.info, "SCHED", ["core ", toString core, " starting scheduler"]⟩
  | moved service before after =>
    ⟨.info, "IPC",
      [service.name, " moved from task ", toString before, " to task ", toString after]⟩
  | mailDropped sender recipient error =>
    ⟨.warn, "IPC",
      ["dropped mail from task ", toString sender, " to task ", toString recipient, ": "] ++
        error.fragments⟩
  | fault core error =>
    ⟨.error, "CPU", ["core ", toString core, " fault: "] ++ error.fragments⟩

/-- How severe the event is. -/
def level (e : Event) : Log.Level :=
  e.record.level

end Event

/-- The events reported so far, oldest first, down to a level. -/
structure Journal where
  level : Log.Level
  entries : List (Log.Source × Event)
  deriving DecidableEq

namespace Journal

/-- An empty journal of the usual level. -/
def new : Journal where
  level := .info
  entries := []

/-- Adds an event, if its level passes. -/
def add (j : Journal) (source : Log.Source) (event : Event) : Journal :=
  if event.level.enabledAt j.level then
    { j with entries := j.entries ++ [(source, event)] }
  else
    j

/-- Adds several events from one source. -/
def addAll (j : Journal) (source : Log.Source) (events : List Event) : Journal :=
  events.foldl (fun (j : Journal) event => j.add source event) j

/-- What a journal has gained since it was `before`. -/
def since (j before : Journal) : Journal :=
  { j with entries := j.entries.drop before.entries.length }

/-- The lines of a journal. -/
def lines (j : Journal) : List String :=
  j.entries.map fun entry => entry.2.record.line entry.1

end Journal

end Microkernel
