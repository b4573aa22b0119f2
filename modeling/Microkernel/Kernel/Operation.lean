/-
Everything the kernel can be asked for.

`Kernel.Operation` names the operations as data, `Kernel.step` carries one out, and
`Kernel.run` carries out a list of them, up to the first at which a core halts. Some
operations stand for the world around the kernel: another core takes its turn, a fault of
the machine is switched on or off, an interrupt arrives.
-/
import Microkernel.Kernel.Messages

namespace Microkernel.Kernel

/-! ### Timers and interrupts -/

/-- Begins dispatching on the core that runs now, unless it has begun. -/
def startLocal : Action Unit :=
  locked fun id => do
    if (← coreAt id).scheduler.started then
      return ((), none)
    else
      updateCore id fun c => c.setFlags { started := true }
      note (.starting id)
      return ((), ← onScheduler id Scheduler.start)

/-- Begins dispatching on every online core, the one that runs now last. -/
def start : Action Unit := do
  interruptOthers .startScheduler
  startLocal

/-- A timer interrupt. -/
def tick : Action Unit :=
  locked fun id => do
    let before := (← coreAt id).scheduler
    if before.started then
      tally .timerTicks 1
      let switch ← onScheduler id Scheduler.tick
      tally .wakes (before.blocked.length - (← coreAt id).scheduler.blocked.length)
      return ((), switch)
    else
      return ((), none)

/-- Forgets cached address mappings on the core that runs now. -/
def flushTlb : Action Unit :=
  onMachine fun m => ((), m.flushTlb)

/-- Forgets cached address mappings on every core. -/
def invalidateTlb : Action Unit := do
  flushTlb
  interruptOthers .invalidateTlb

/-- Arms the timer of the core that runs now with the timeslice. -/
def armTimer : Action Unit := do
  let core ← localCore
  let timeslice := (← get).config.timeslice
  onMachine fun m => ((), m.setTimer .periodic timeslice)
  updateCore core.id fun c => c.setFlags { timerArmed := true }

/-- Arms the timer of every core. -/
def setupTimeslice : Action Unit := do
  armTimer
  interruptOthers .setupTimeslice

/-- What the core that runs now does on an interrupt from another core. -/
def handleInterrupt : InterruptKind → Action Unit
  | .reschedule => locked fun id => return ((), ← onScheduler id Scheduler.reschedule)
  | .startScheduler => startLocal
  | .invalidateTlb => flushTlb
  | .setupTimeslice => armTimer

/-! ### Operations as data -/

/-- Something that the kernel is asked for, or that happens around it. -/
inductive Operation where
  | bringUp
  | spawn (name : String) (entry : Nat) (priority : Priority)
  | spawnUser (name : String) (entry : Nat) (path : Option String) (priority : Priority)
  | start
  | exit
  | sleep (milliseconds : Nat)
  | wake (task : TaskId)
  | tick
  | send (recipient : Recipient) (body : Body)
  | tryReceive (filter : Option Filter)
  | receive (filter : Option Filter)
  | changePriority (task : TaskId) (priority : Priority)
  | invalidateTlb
  | setupTimeslice
  | handleInterrupt (kind : InterruptKind)
  | runCleanup
  | parkCleanup
  | setRegistryTask (task : Option TaskId)
  /-- Another core takes its turn. -/
  | turnTo (core : CoreId)
  | setFault (fault : Fault) (on : Bool)
  | setLevel (level : Log.Level)
  deriving DecidableEq

/-- What an operation answers. -/
inductive Answer where
  | done
  | task (id : TaskId)
  | flag (yes : Bool)
  | count (n : Nat)
  | message (message : Option Message)
  deriving DecidableEq

/-- The action behind an operation. -/
def actionOf : Operation → Action Answer
  | .bringUp => do bringUp; return .done
  | .spawn name entry priority => return .task (← spawn name entry priority)
  | .spawnUser name entry path priority => return .task (← spawnUser name entry path priority)
  | .start => do start; return .done
  | .exit => return .task (← exit)
  | .sleep milliseconds => do sleep milliseconds; return .done
  | .wake task => return .flag (← wake task)
  | .tick => do tick; return .done
  | .send recipient body => do send recipient body; return .done
  | .tryReceive filter => return .message (← tryReceive filter)
  | .receive filter => return .message (some (← receive filter))
  | .changePriority task priority => do changePriority task priority; return .done
  | .invalidateTlb => do invalidateTlb; return .done
  | .setupTimeslice => do setupTimeslice; return .done
  | .handleInterrupt kind => do handleInterrupt kind; return .done
  | .runCleanup => return .count (← runCleanup)
  | .parkCleanup => do parkCleanup; return .done
  | .setRegistryTask task => do setRegistryTask task; return .done
  | .turnTo core => do
    onMachine fun m => ((), { m with currentCore := core })
    return .done
  | .setFault fault on => do
    onMachine fun m => ((), { m with faults := m.faults.set fault on })
    return .done
  | .setLevel level => do
    modify fun k => { k with journal := { k.journal with level := level } }
    return .done

/-- Carries out one operation. -/
def step (k : Kernel) (operation : Operation) : Except Stop Answer × Kernel :=
  k.perform (actionOf operation)

/-- Carries out operations one after the other, until a core halts. -/
def run (k : Kernel) : List Operation → Kernel
  | [] => k
  | operation :: rest =>
    match k.step operation with
    | (.error (.halted _), k) => k
    | (_, k) => k.run rest

end Microkernel.Kernel
