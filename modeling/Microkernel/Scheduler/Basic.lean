/-
The scheduler of one core.

A scheduler keeps the tasks of its core and decides which of them runs:

* the **ready** ring holds the tasks that can run, the running one included, in the order in
  which they became ready; the next task is the successor of the running one;
* the **blocked** queue holds tasks that sleep, by ascending wake time, and tasks that wait
  for mail;
* tasks that are over wait among the **exited** ones until they are reclaimed.

The idle task is in none of the three and runs when the ready ring is empty. Priorities only
add up to the load of the core (`Scheduler.score`).

Design notes: a scheduler never switches contexts. An operation after which another task is
current answers a `Switch`, which `Scheduler.prepare` resolves into stack pointers. An
operation that can fail answers an error together with the state it leaves.
-/
import Microkernel.Task.Basic
import Microkernel.TaskQueue

namespace Microkernel

/-- The decision to run `entering` from now on. -/
structure Switch where
  /-- The task that ran before; none when the core was still on its boot stack. -/
  leaving : Option TaskId
  entering : TaskId
  /-- The timeslice of the task that ran before is over. -/
  preempted : Bool
  deriving DecidableEq

/-- A switch in terms of stacks and address spaces. -/
structure PreparedSwitch where
  /-- The top of the kernel stack whose task is left; none for the boot stack. -/
  saved : Option Nat
  /-- The stack pointer to load. -/
  resumed : StackPointer
  /-- The top of the kernel stack to load. -/
  stackTop : Nat
  /-- The address space to load first, if the tasks live in different ones. -/
  activated : Option Nat
  preempted : Bool
  deriving DecidableEq

/-- What comes of asking for a message. -/
inductive Reception where
  | received (message : Message)
  /-- Nothing suitable was there, and the current task waits now. -/
  | waiting (switch : Option Switch)
  deriving DecidableEq

/-- The end of a task. -/
structure Exit where
  task : TaskId
  switch : Option Switch
  deriving DecidableEq

/-- The tasks of one core and the order in which they run. -/
structure Scheduler where
  core : CoreId
  /-- Milliseconds per timer tick. -/
  timeslice : Nat
  /-- The core's clock, in milliseconds of ticks since it started. -/
  elapsed : Nat
  started : Bool
  /-- The live tasks, by id. -/
  tasks : Table Task
  ready : TaskQueue
  blocked : TaskQueue
  /-- The tasks that are over and not reclaimed, oldest first. -/
  exited : List Task
  current : Option TaskId
  idle : Option TaskId
  /-- The task that reclaims the exited ones. -/
  cleanup : Option TaskId
  /-- The sum of the weights of the tasks. -/
  score : Nat
  /-- The stack pointer that was saved when the boot stack was left. -/
  bootPointer : StackPointer
  deriving DecidableEq

namespace Scheduler

/-- A scheduler without tasks. -/
def new (core : CoreId) (timeslice : Nat) : Scheduler where
  core := core
  timeslice := timeslice
  elapsed := 0
  started := false
  tasks := .empty
  ready := .empty
  blocked := .empty
  exited := []
  current := none
  idle := none
  cleanup := none
  score := 0
  bootPointer := .saved 0

/-- A clock reading is a number of 64 bits. -/
def maxTime : Nat := 0xffffffffffffffff

/-- The live task with an id. -/
def task? (s : Scheduler) (id : TaskId) : Option Task :=
  s.tasks.get? id

/-- The id belongs to a live task of this core. -/
def contains (s : Scheduler) (id : TaskId) : Bool :=
  s.tasks.contains id

/-- The current task, unless it is the idle one. -/
def working? (s : Scheduler) : Option TaskId :=
  s.current.filter fun id => decide (s.idle ≠ some id)

/-- Changes a live task. -/
def modifyTask (s : Scheduler) (id : TaskId) (f : Task → Task) : Scheduler :=
  { s with tasks := s.tasks.modify id f }

/-! ### Choosing the next task -/

/-- Moves a blocked task to the end of the ready ring. -/
def makeReady (s : Scheduler) (id : TaskId) : Scheduler :=
  { s.modifyTask id fun t => { t with state := .ready, waitSince := none } with
    blocked := (s.blocked.remove id).2
    ready := (s.ready.append id).2 }

/-- The wait of a live task is over. -/
def isWakeable (s : Scheduler) (id : TaskId) : Bool :=
  (s.task? id).any fun t => t.isWakeable s.elapsed

/-- Readies every blocked task whose wait is over, in their order; answers how many. -/
def unblockWakeable (s : Scheduler) : Nat × Scheduler :=
  let due := s.blocked.toList.filter s.isWakeable
  (due.length, due.foldl makeReady s)

/-- The task to run next: `hint` if it is ready, else the successor of the current task in
the ready ring. An empty ring is first filled with the tasks whose wait is over. -/
def selectNext (s : Scheduler) (hint : Option TaskId) : Option TaskId × Scheduler :=
  if s.ready.isEmpty then
    let s := s.unblockWakeable.2
    (s.ready.head, s)
  else
    match hint.filter s.ready.contains with
    | some id => (some id, s)
    | none =>
      match s.current.filter s.ready.contains with
      | some id => ((s.ready.next id).or s.ready.head, s)
      | none => (s.ready.head, s)

/-- A task that was running is ready again when another one takes over. -/
def pause (t : Task) : Task :=
  if t.state = .running then { t with state := .ready } else t

/-- Makes `next` the current task in place of `previous`. -/
def enter (s : Scheduler) (previous : Option TaskId) (next : TaskId) : Scheduler :=
  let paused :=
    match previous with
    | some id => s.modifyTask id pause
    | none => s
  { paused.modifyTask next fun t => { t with state := .running, lastCore := some s.core } with
    current := some next }

/-- Chooses the next task, or the idle one, and makes it current. -/
def switchToNext (s : Scheduler) (hint : Option TaskId) (preempted : Bool) :
    Option Switch × Scheduler :=
  let previous := s.current
  let (choice, s) := s.selectNext hint
  match choice.or s.idle with
  | none =>
    -- nothing can run: a task that has left the ready ring is no longer current
    if previous.any s.ready.contains then (none, s) else (none, { s with current := none })
  | some next =>
    -- the same task goes on: its state is left alone
    if previous = some next then (none, s)
    else (some ⟨previous, next, preempted⟩, s.enter previous next)

/-! ### Taking in tasks -/

/-- Makes a task the idle task. It is never queued. -/
def installIdle (s : Scheduler) (task : Task) : Except Error Unit × Scheduler :=
  if s.contains task.id || s.idle.isSome then
    (.error .invalidQueueState, s)
  else
    (.ok (),
      { s with
        tasks := s.tasks.insert task.id { task with state := .ready, lastCore := some s.core }
        idle := some task.id })

/-- Puts a task at the end of the ready ring. -/
def schedule (s : Scheduler) (task : Task) : Except Error Unit × Scheduler :=
  if s.contains task.id then
    (.error .invalidQueueState, s)
  else
    (.ok (),
      { s with
        score := s.score + task.priority.weight
        tasks := s.tasks.insert task.id { task with state := .ready, lastCore := some s.core }
        ready := (s.ready.append task.id).2 })

/-- Queues a task that reclaims the exited ones. -/
def installCleanup (s : Scheduler) (task : Task) : Except Error Unit × Scheduler :=
  match s.schedule task with
  | (.error e, s) => (.error e, s)
  | (.ok (), s) => (.ok (), { s with cleanup := some task.id })

/-! ### Dispatching -/

/-- Begins dispatching with the first ready task. -/
def start (s : Scheduler) : Option Switch × Scheduler :=
  { s with started := true }.switchToNext none false

/-- Leaves the idle task if some task became ready. -/
def reschedule (s : Scheduler) : Option Switch × Scheduler :=
  if !s.started || s.working?.isSome then (none, s) else s.switchToNext none false

/-- The next task in turn; none when only the idle task can run. -/
def findNext (s : Scheduler) : Option TaskId × Scheduler :=
  s.selectNext none

/-- Passes the turn to the next task. -/
def runNext (s : Scheduler) : Option Switch × Scheduler :=
  s.switchToNext none false

/-- A timer tick: the clock advances, tasks whose wait is over become ready, and the turn
passes on. -/
def tick (s : Scheduler) : Option Switch × Scheduler :=
  if s.started then
    ({ s with elapsed := s.elapsed + s.timeslice }.unblockWakeable.2).switchToNext none true
  else
    (none, s)

/-! ### Blocking and waking -/

/-- The clock reading at which a sleep that begins now is over. -/
def wakeTimeOf (s : Scheduler) (milliseconds : Nat) : Nat :=
  min (s.elapsed + milliseconds) maxTime

/-- A live task sleeps longer than until `wakeTime`. -/
def sleepsBeyond (s : Scheduler) (wakeTime : Nat) (id : TaskId) : Bool :=
  (s.task? id).any fun t => decide (t.state = .sleeping ∧ wakeTime < t.wakeTime)

/-- Queues a task among the blocked ones: a sleeper in front of the first that sleeps longer,
a task that waits for mail at the end. -/
def suspend (s : Scheduler) (id : TaskId) : BlockReason → Scheduler
  | .sleep milliseconds =>
    let wakeTime := s.wakeTimeOf milliseconds
    { s.modifyTask id fun t => { t with state := .sleeping, wakeTime := wakeTime } with
      blocked :=
        (s.blocked.insertBefore id (s.blocked.toList.find? (s.sleepsBeyond wakeTime))).2 }
  | .mail since =>
    { s.modifyTask id fun t => { t with state := .blocked, waitSince := since } with
      blocked := (s.blocked.append id).2 }

/-- Takes the current task off the ready ring and passes the turn to its successor. -/
def block (s : Scheduler) (reason : BlockReason) : Except Error (Option Switch) × Scheduler :=
  match s.working? with
  | none => (.error .noCurrentTask, s)
  | some id =>
    if !s.ready.contains id then
      (.error .invalidQueueState, s)
    else
      -- the turn goes to the successor, which is lost once the task has left the ring
      let successor := s.ready.next id
      let s := { s with ready := (s.ready.remove id).2 }
      if !s.contains id then
        (.error .invalidQueueState, s)
      else
        let (switch, s) := (s.suspend id reason).switchToNext successor false
        (.ok switch, s)

/-- Readies a blocked task, unless it sleeps and its time has not come. -/
def unblock (s : Scheduler) (id : TaskId) : Bool × Scheduler :=
  if !s.blocked.contains id || s.sleepsBeyond s.elapsed id then (false, s)
  else (true, s.makeReady id)

/-- Readies a blocked task, whatever it waits for. -/
def wake (s : Scheduler) (id : TaskId) : Bool × Scheduler :=
  if s.blocked.contains id then (true, s.makeReady id) else (false, s)

/-! ### Messages -/

/-- Puts a message into a task's mailbox, and readies the task if it waited for it; answers
whether it did. -/
def deliver (s : Scheduler) (recipient : TaskId) (message : Message) :
    Except Error Bool × Scheduler :=
  if !s.blocked.contains recipient && !s.ready.contains recipient then
    (.error .recipientNotFound, s)
  else
    match s.task? recipient with
    | none => (.error .recipientNotFound, s)
    | some task =>
      match task.mailbox.send message with
      | .error e => (.error e, s)
      | .ok mailbox =>
        let task := { task with mailbox := mailbox }
        let s := s.modifyTask recipient fun t => { t with mailbox := mailbox }
        if task.state = .blocked ∧ task.isWakeable s.elapsed = true then
          (.ok true, s.makeReady recipient)
        else
          (.ok false, s)

/-- Takes a message from a mailbox, one that the filter accepts if there is a filter. -/
def takeMessage (mailbox : Mailbox) : Option Filter → Except Error (Option Message) × Mailbox
  | none => mailbox.receive
  | some filter => mailbox.receiveMatching filter

/-- Takes a message for the current task, or blocks the task until mail arrives. A filtered
wait ends only with mail that arrives after it began. -/
def receive (s : Scheduler) (filter : Option Filter) : Except Error Reception × Scheduler :=
  match s.working? with
  | none => (.error .noCurrentTask, s)
  | some id =>
    match s.task? id with
    | none => (.error .invalidQueueState, s)
    | some task =>
      let (result, mailbox) := takeMessage task.mailbox filter
      let s := s.modifyTask id fun t => { t with mailbox := mailbox }
      match result with
      | .error e => (.error e, s)
      | .ok (some message) => (.ok (.received message), s)
      | .ok none =>
        -- only a filtered wait remembers how much mail there was
        match s.block (.mail (filter.map fun _ => mailbox.sends)) with
        | (.error e, s) => (.error e, s)
        | (.ok switch, s) => (.ok (.waiting switch), s)

/-! ### The end of tasks -/

/-- Wakes the cleanup task, if there is one. -/
def wakeCleanup (s : Scheduler) : Scheduler :=
  match s.cleanup with
  | some id => (s.wake id).2
  | none => s

/-- Ends the current task: its mailbox is given back at once, everything else when it is
reclaimed, since its stack is in use until another task runs. -/
def exit (s : Scheduler) : Except Error Exit × Scheduler :=
  match s.working?.filter fun id => decide (s.cleanup ≠ some id) with
  | none => (.error .noCurrentTask, s)
  | some id =>
    if !s.ready.contains id then
      (.error .invalidQueueState, s)
    else
      let successor := s.ready.next id
      let s := { s with ready := (s.ready.remove id).2 }
      match s.task? id with
      | none => (.error .invalidQueueState, s)
      | some task =>
        let ended := { task with state := .exited, mailbox := task.mailbox.release }
        let s :=
          { s with
            tasks := s.tasks.erase id
            score := s.score - task.priority.weight
            exited := s.exited ++ [ended] }
        let (switch, s) := s.wakeCleanup.switchToNext successor false
        (.ok ⟨id, switch⟩, s)

/-- Hands out the exited tasks. -/
def reap (s : Scheduler) : List Task × Scheduler :=
  (s.exited, { s with exited := [] })

/-- Changes how urgent a task is, and the load with it; the idle task adds no load. -/
def changePriority (s : Scheduler) (id : TaskId) (priority : Priority) :
    Except Error Unit × Scheduler :=
  match s.task? id with
  | none => (.error .recipientNotFound, s)
  | some task =>
    let score :=
      if s.idle = some id then s.score
      else s.score - task.priority.weight + priority.weight
    (.ok (), { s.modifyTask id fun t => { t with priority := priority } with score := score })

/-! ### Carrying out a switch -/

/-- The task that a switch away from `id` leaves: the live one, or the one with that id that
exited last. -/
def leavingTask? (s : Scheduler) (id : TaskId) : Option Task :=
  (s.task? id).or (s.exited.reverse.find? fun t => decide (t.id = id))

/-- Resolves a switch into stacks and address spaces. -/
def prepare (s : Scheduler) (switch : Switch) : Except Error PreparedSwitch :=
  match s.task? switch.entering with
  | none => .error .invalidQueueState
  | some next =>
    let prepared (left : Option Task) : PreparedSwitch :=
      { saved := left.map fun t => t.stack.top
        resumed := next.stackPointer
        stackTop := next.stack.top
        activated := if (left.map Task.space) = some next.space then none else some next.space
        preempted := switch.preempted }
    match switch.leaving with
    | none => .ok (prepared none)
    | some id =>
      match s.leavingTask? id with
      | none => .error .invalidQueueState
      | some task => .ok (prepared (some task))

/-- Saves an address as the stack pointer of the task whose kernel stack ends at `saved`, or
of the boot stack. -/
def saveContext (s : Scheduler) (saved : Option Nat) (address : Nat) : Scheduler :=
  match saved with
  | none => { s with bootPointer := .saved address }
  | some top =>
    let save (t : Task) : Task :=
      if t.stack.top = top then { t with stackPointer := .saved address } else t
    { s with
      tasks := s.tasks.map fun _ t => save t
      exited := s.exited.map save }

end Scheduler

end Microkernel
