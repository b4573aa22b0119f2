/-
Operations on a scheduler as data.

`Scheduler.Operation` names everything that can be asked of a scheduler, `Scheduler.step`
carries one operation out and answers its result, and `Scheduler.run` carries out a list of
them. `Scheduler.events` says what the operation reports to the log.

`Scheduler.Reachable` holds of the states that operations lead to from a new scheduler.
-/
import Microkernel.Log.Event
import Microkernel.Scheduler.Basic

namespace Microkernel.Scheduler

/-- Something to ask of a scheduler. -/
inductive Operation where
  | installIdle (task : Task)
  | installCleanup (task : Task)
  | schedule (task : Task)
  | start
  | reschedule
  | block (reason : BlockReason)
  | unblock (id : TaskId)
  | wake (id : TaskId)
  | unblockWakeable
  | tick
  | findNext
  | runNext
  | deliver (recipient : TaskId) (message : Message)
  | receive (filter : Option Filter)
  | exit
  | reap
  | changePriority (id : TaskId) (priority : Priority)
  deriving DecidableEq

/-- What an operation answers. -/
inductive Answer where
  | done
  | switched (switch : Option Switch)
  | moved (yes : Bool)
  | count (n : Nat)
  | found (id : Option TaskId)
  | reception (reception : Reception)
  | exit (exit : Exit)
  | reaped (tasks : List Task)
  | failed (error : Error)
  deriving DecidableEq

/-- The answer for a result that may be an error. -/
def Answer.ofExcept {α : Type} (f : α → Answer) : Except Error α → Answer
  | .ok a => f a
  | .error e => failed e

/-- Carries out one operation. -/
def step (s : Scheduler) : Operation → Answer × Scheduler
  | .installIdle task => (s.installIdle task).map (.ofExcept fun _ => .done) id
  | .installCleanup task => (s.installCleanup task).map (.ofExcept fun _ => .done) id
  | .schedule task => (s.schedule task).map (.ofExcept fun _ => .done) id
  | .start => s.start.map .switched id
  | .reschedule => s.reschedule.map .switched id
  | .block reason => (s.block reason).map (.ofExcept .switched) id
  | .unblock task => (s.unblock task).map .moved id
  | .wake task => (s.wake task).map .moved id
  | .unblockWakeable => s.unblockWakeable.map .count id
  | .tick => s.tick.map .switched id
  | .findNext => s.findNext.map .found id
  | .runNext => s.runNext.map .switched id
  | .deliver recipient message => (s.deliver recipient message).map (.ofExcept .moved) id
  | .receive filter => (s.receive filter).map (.ofExcept .reception) id
  | .exit => s.exit.map (.ofExcept .exit) id
  | .reap => s.reap.map .reaped id
  | .changePriority task priority =>
    (s.changePriority task priority).map (.ofExcept fun _ => .done) id

/-- Carries out operations one after the other. -/
def run (s : Scheduler) (operations : List Operation) : Scheduler :=
  operations.foldl (fun s operation => (s.step operation).2) s

/-- The states that operations lead to. -/
inductive Reachable : Scheduler → Prop where
  | new (core : CoreId) (timeslice : Nat) : Reachable (Scheduler.new core timeslice)
  | step {s : Scheduler} (operation : Operation) (h : Reachable s) :
    Reachable (s.step operation).2

/-- What an operation on `s` with the given answer reports. -/
def events (s : Scheduler) : Operation → Answer → List Event
  | .installCleanup task, .done | .schedule task, .done => [.queued s.core task.id]
  | .block (.sleep milliseconds), .switched _ =>
    (s.working?.map fun id => Event.sleeping id (s.wakeTimeOf milliseconds)).toList
  | .exit, .exit exit => [.exited exit.task s.core]
  | _, _ => []

end Microkernel.Scheduler
