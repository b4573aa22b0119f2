/-
Sending and receiving messages.

A message for a task of the core that runs now goes into the task's mailbox; one for another
core goes into the inbox of that core. While no task stands for the service registry, the
kernel answers messages to it: a task registers and unregisters itself as a provider, and the
reply to a lookup comes from `kernelSender`.
-/
import Microkernel.Kernel.Tasks

namespace Microkernel.Kernel

/-- Puts a message into the mailbox of a task of this core. -/
def deliverLocally (recipient : TaskId) (message : Message) : Action Unit :=
  locked fun id => do
    if ← askScheduler id (·.deliver recipient message) then
      tally .wakes 1
      return ((), ← onScheduler id Scheduler.reschedule)
    else
      return ((), none)

/-- Leaves a message in the inbox of another core. What no mailbox would take is refused. -/
def post (core : CoreId) (recipient : TaskId) (message : Message) : Action Unit := do
  -- the sender learns of a message without a frame; whoever drains the inbox cannot say so
  let _ ← ofExcept message.encode
  let target ← coreAt core
  let inbox ← ofExcept (target.inbox.pushMail (recipient, message))
  updateCore core fun c => { c with inbox := inbox }
  interrupt core .reschedule

/-- Brings a message to the task that its recipient stands for. -/
def route (message : Message) : Action Unit := do
  let k ← get
  let (recipient, home) ← ofExcept (k.directory.resolve message.recipient)
  let outcome ← attempt
    (if home = k.machine.currentCore then deliverLocally recipient message
      else post home recipient message)
  match outcome with
  | .ok () => tally .sends 1
  | .error .mailboxFull => do
    tally .mailboxFull 1
    fail .mailboxFull
  | .error e => fail e

/-- Makes a task the provider of a service, and reports a change of the provider. -/
def registerProvider (service : Service) (task : TaskId) : Action Unit := do
  match ← onDirectory (·.register service task) with
  | some previous => note (.moved service previous task)
  | none => pure ()

/-- Ends a task's provision of a service, if it is the provider. -/
def unregisterProvider (service : Service) (task : TaskId) : Action Unit := do
  let _ ← onDirectory (·.unregister service task)

/-- Answers a message to the service registry. -/
def answerRegistry (message : Message) : Action Unit := do
  match message.body with
  | .services (.register service) => registerProvider service message.sender
  | .services (.unregister service) => unregisterProvider service message.sender
  | .services (.lookup service) =>
    let provider := (← get).directory.registry.provider? service
    route ⟨kernelSender, .task message.sender, .services (.reply service provider)⟩
  | .services (.reply _ _) | .scheduler _ | .verbatim _ _ _ => fail .malformedMessage

/-- Sends a message from the current task, or from the kernel when there is none. -/
def send (recipient : Recipient) (body : Body) : Action Unit := do
  let k ← get
  let message : Message := ⟨k.currentTask.getD kernelSender, recipient, body⟩
  if recipient = .registry ∧ k.directory.registry.registryTask = none then
    answerRegistry message
  else
    route message

/-- Takes a message for the current task, or blocks the task; then there is none. -/
def tryReceive (filter : Option Filter) : Action (Option Message) := do
  let received ← locked fun id => do
    match ← askScheduler id (·.receive filter) with
    | .received message => return (some message, none)
    | .waiting switch => return (none, switch)
  if received.isSome then
    tally .receives 1
  return received

/-- Tries to receive at most `tries` times, each time for the task that is current then. -/
def receiveWithin : Nat → Option Filter → Action Message
  | 0, _ => fail .noCurrentTask
  | tries + 1, filter => do
    match ← tryReceive filter with
    | some message => return message
    | none => receiveWithin tries filter

/-- Receives a message. A try that finds none blocks the task that is current, so no more
tries are needed than the core has tasks. -/
def receive (filter : Option Filter) : Action Message := do
  let core ← localCore
  receiveWithin (core.scheduler.tasks.entries.length + core.inbox.tasks.length + 1) filter

/-- Names the task that stands for the service registry. -/
def setRegistryTask (task : Option TaskId) : Action Unit :=
  onDirectory fun d => ((), d.setRegistryTask task)

end Microkernel.Kernel
