/-
Working on the scheduler of the core that runs now.

Every operation of a core is carried out by `Kernel.locked`: interrupts are masked, the work
that other cores left in the inbox is taken over, the operation is carried out, and then, if
it made another task current, the context is switched. What the core shows to others is
published before the switch.

A fatal error on the way halts the core (`Kernel.coreFault`).
-/
import Microkernel.Kernel.Basic

namespace Microkernel.Kernel

variable {α : Type}

/-- Reports a fatal error and halts the core that runs now. -/
def coreFault (id : CoreId) (e : Error) : Action α := do
  note (.fault id e)
  updateCore id fun c => c.setFlags { faulted := true }
  throw (.halted (← get).machine.currentCore)

/-- Puts a task into the ready ring of a core. -/
def enqueue (id : CoreId) (task : Task) : Action Unit :=
  request id (.schedule task) (·.schedule task) fun _ => .done

/-- Puts tasks that other cores left into the ready ring. -/
def takeOver (id : CoreId) : List Task → Action Unit
  | [] => pure ()
  | task :: rest => do
    match ← attempt (enqueue id task) with
    | .ok () => takeOver id rest
    | .error e => coreFault id e

/-- Delivers mail that other cores left, and answers the mail that has to wait: mail for a
full mailbox, and behind it all further mail for the same task. -/
def deliverAll (id : CoreId) : List TaskId → List Mail → Action (List Mail)
  | _, [] => pure []
  | stalled, (recipient, message) :: rest => do
    if recipient ∈ stalled then
      return (recipient, message) :: (← deliverAll id stalled rest)
    else
      match ← attempt (askScheduler id (·.deliver recipient message)) with
      | .ok true => do
        tally .wakes 1
        deliverAll id stalled rest
      | .ok false => deliverAll id stalled rest
      | .error .mailboxFull =>
        return (recipient, message) :: (← deliverAll id (recipient :: stalled) rest)
      | .error e => do
        note (.mailDropped message.sender recipient e)
        deliverAll id stalled rest

/-- Takes over the tasks and the mail in the inbox of a core. -/
def drainInbox (id : CoreId) : Action Unit := do
  let inbox := (← coreAt id).inbox
  updateCore id fun c => { c with inbox := (c.inbox.takeTasks.2).takeMail.2 }
  -- tasks first, so that mail finds a task that arrived together with it
  takeOver id inbox.tasks
  let retained ← deliverAll id [] inbox.mail
  updateCore id fun c => { c with inbox := c.inbox.restoreMail retained }

/-- Resolves a switch; one that cannot be resolved is fatal. -/
def prepareSwitch (id : CoreId) : Option Switch → Action (Option PreparedSwitch)
  | none => pure none
  | some switch => do
    match (← coreAt id).scheduler.prepare switch with
    | .ok prepared => pure (some prepared)
    | .error e => coreFault id e

/-- Switches the machine to another context. -/
def performSwitch : Option PreparedSwitch → Action Unit
  | none => pure ()
  | some prepared => do
    match prepared.activated with
    | some root => onMachine fun m => ((), m.activate root)
    | none => pure ()
    tally .contextSwitches 1
    if prepared.preempted then
      tally .preemptions 1
    onMachine fun m =>
      ((), m.switchContext
        { core := m.currentCore
          saved := prepared.saved
          resumed := prepared.resumed
          stackTop := prepared.stackTop
          activated := prepared.activated })

/-- Shows the others the load and the current task of a core. -/
def publish (id : CoreId) : Action Unit :=
  updateCore id Core.publish

/-- Ends a mask of interrupts. -/
def unmask (enabled : Bool) : Action Unit :=
  onMachine fun m => ((), m.restoreInterrupts enabled)

/-- Carries out an operation on the core that runs now, and the switch it asks for. -/
def locked (operation : CoreId → Action (α × Option Switch)) : Action α := do
  let id := (← localCore).id
  let enabled ← onMachine Machine.maskInterrupts
  drainInbox id
  match ← attempt (operation id) with
  | .error e =>
    if e.isFatal then
      coreFault id e
    else
      publish id
      unmask enabled
      fail e
  | .ok (value, switch) =>
    -- the switch comes last: what is published must show the task that it enters
    let prepared ← prepareSwitch id switch
    publish id
    performSwitch prepared
    unmask enabled
    return value

/-- Sends an interrupt to a core. -/
def interrupt (id : CoreId) (kind : InterruptKind) : Action Unit := do
  let target ← coreAt id
  onMachine fun m => ((), m.sendInterrupt target.apic kind)
  tally .interruptsSent 1

/-- Sends an interrupt to every other online core. -/
def interruptOthers (kind : InterruptKind) : Action Unit := do
  let cores := (← get).cores
  let sent ← onMachine fun m => broadcast m cores kind m.currentCore
  tally .interruptsSent sent

end Microkernel.Kernel
