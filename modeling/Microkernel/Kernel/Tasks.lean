/-
The life of tasks.

A task is built (`buildKernelTask`, `buildUserTask`), placed on a core (`place`), runs, sleeps
and wakes, ends (`exit`), and is reclaimed by the cleanup task of its core (`runCleanup`).
A task for the core that runs now is queued at once; one for another core goes into the inbox
of that core, and an interrupt tells the core to look. Tasks that are built before any core is
online are parked, and placed by the first `bringUp`.
-/
import Microkernel.Kernel.Dispatch

namespace Microkernel

/-- Where a task was put. -/
inductive Placement where
  | core (id : CoreId)
  /-- No core is online yet. -/
  | parked
  deriving DecidableEq

namespace Kernel

/-! ### Building and placing -/

/-- Frees the id of a task that was not built, and reports why. -/
def giveUp {α : Type} (id : TaskId) (event : Error → Event) (e : Error) : Action α := do
  let _ ← onDirectory (·.freeId id)
  note (event e)
  fail e

/-- Builds a kernel task with a fresh id. -/
def buildKernelTask (name : String) (entry : Nat) (priority : Priority) : Action Task := do
  let id ← ofExcept (← onDirectory Directory.generateId)
  let launcher := (← get).launcher
  match ← onMachine (launcher.kernelTask · ⟨id, name, priority⟩ entry) with
  | .ok task => return task
  | .error e => giveUp id (.kernelTaskFailed name) e

/-- Builds a user task with a fresh id. -/
def buildUserTask (name : String) (entry : Nat) (path : Option String) (priority : Priority) :
    Action Task := do
  let id ← ofExcept (← onDirectory Directory.generateId)
  let launcher := (← get).launcher
  match ← onMachine (launcher.userTask · ⟨id, name, priority⟩ entry path) with
  | .ok task => return task
  | .error e => giveUp id (.userTaskFailed name) e

/-- Leaves a task in the inbox of another core. -/
def handOver (id : CoreId) (task : Task) : Action Unit := do
  let _ ← coreAt id
  updateCore id fun c =>
    { c.reserveLoad task.priority.weight with inbox := c.inbox.pushTask task }
  interrupt id .reschedule

/-- Puts a task on the best online core, or parks it. -/
def place (task : Task) : Action Placement := do
  let k ← get
  match Directory.chooseCore task.lastCore k.candidates with
  | none =>
    onDirectory fun d => ((), d.park task)
    note (.parked task.id)
    return .parked
  | some core =>
    -- mail may be addressed to the task from here on, also while it is on its way
    onDirectory fun d => ((), d.recordHome task.id core)
    if core = k.machine.currentCore then
      locked fun id => do
        enqueue id task
        return ((), ← onScheduler id Scheduler.reschedule)
    else
      handOver core task
    note (.placed task.id core)
    return .core core

/-- Places a new task and counts it. -/
def launch (task : Task) : Action TaskId := do
  let _ ← place task
  tally .tasksSpawned 1
  return task.id

/-- Builds and places a kernel task. -/
def spawn (name : String) (entry : Nat) (priority : Priority) : Action TaskId := do
  launch (← buildKernelTask name entry priority)

/-- Builds and places a user task. -/
def spawnUser (name : String) (entry : Nat) (path : Option String) (priority : Priority) :
    Action TaskId := do
  launch (← buildUserTask name entry path priority)

/-- Places the parked tasks. -/
def releaseParked : Action Unit := do
  (← onDirectory Directory.takeParked).forM fun task => do
    let _ ← place task

/-! ### Bringing up a core -/

/-- Builds the idle and the cleanup task of a core; both or none. -/
def buildServants : Action (Task × Task) := do
  let idle ← buildKernelTask "idle" Machine.entryPoints.idleLoop .idle
  match ← attempt (buildKernelTask "cleanup" Machine.entryPoints.cleanupLoop .idle) with
  | .ok cleanup => return (idle, cleanup)
  | .error e => do
    let _ ← onDirectory (·.freeId idle.id)
    onMachine fun m => ((), idle.release m)
    fail e

/-- Installs the idle and the cleanup task of the core that runs now, and puts it online. -/
def bringUp : Action Unit := do
  let core ← localCore
  if core.isOnline then
    return ()
  else
    let (idle, cleanup) ← buildServants
    locked fun id => do
      askScheduler id (·.installIdle idle)
      request id (.installCleanup cleanup) (·.installCleanup cleanup) fun _ => .done
      return ((), none)
    onDirectory fun d =>
      ((), (d.recordHome idle.id core.id).recordHome cleanup.id core.id)
    updateCore core.id fun c => c.setFlags { online := true }
    note (.online core.id core.apic idle.id cleanup.id)
    releaseParked

/-! ### Sleeping and waking -/

/-- Puts the current task to sleep. -/
def sleep (milliseconds : Nat) : Action Unit :=
  locked fun id => do
    let reason := BlockReason.sleep milliseconds
    let switch ← request id (.block reason) (·.block reason) .switched
    tally .sleeps 1
    return ((), switch)

/-- Refuses a task that does not live on the core that runs now. -/
def checkLocal (task : TaskId) : Action Unit := do
  let k ← get
  match k.directory.homeOf task with
  | none => fail .recipientNotFound
  | some core => if core = k.machine.currentCore then pure () else fail .invalidCore

/-- Ends the wait of a task of this core; answers whether it was blocked. -/
def wake (task : TaskId) : Action Bool := do
  checkLocal task
  locked fun id => do
    if ← onScheduler id (·.wake task) then
      tally .wakes 1
      return (true, ← onScheduler id Scheduler.reschedule)
    else
      return (false, none)

/-- Changes how urgent a task of this core is. -/
def changePriority (task : TaskId) (priority : Priority) : Action Unit := do
  checkLocal task
  locked fun id => do
    askScheduler id (·.changePriority task priority)
    return ((), none)

/-! ### The end of tasks -/

/-- Ends the current task, and frees its id. -/
def exit : Action TaskId :=
  locked fun id => do
    let exit ← request id .exit Scheduler.exit .exit
    if !(← onDirectory (·.forget exit.task)) then
      note (.strayExit exit.task)
    return (exit.task, exit.switch)

/-- Refuses everyone but the cleanup task of the core. -/
def checkCleanup (id : CoreId) : Action Unit := do
  let s := (← coreAt id).scheduler
  match s.cleanup with
  | none => fail .noCurrentTask
  | some cleanup => if s.current = some cleanup then pure () else fail .noCurrentTask

/-- Reclaims the tasks that ended on this core; answers how many. Only the cleanup task may
do so. -/
def runCleanup : Action Nat := do
  let reaped ← locked fun id => do
    checkCleanup id
    return (← onScheduler id Scheduler.reap, none)
  -- the tasks are given up outside of the locked part, when no core uses their stacks
  reaped.forM fun task => note (.reaping task.id task.name)
  onMachine fun m => ((), reaped.foldl (fun m task => task.release m) m)
  tally .tasksReaped reaped.length
  return reaped.length

/-- Blocks the cleanup task until the next task ends, unless one is waiting to be reclaimed. -/
def parkCleanup : Action Unit :=
  locked fun id => do
    checkCleanup id
    if (← coreAt id).scheduler.exited.isEmpty then
      return ((), ← askScheduler id (·.block (.mail none)))
    else
      return ((), none)

end Kernel

end Microkernel
