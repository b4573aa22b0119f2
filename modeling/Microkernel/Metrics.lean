/-
Counters.

`Metrics` counts what happened since the kernel was built. The totals have no bound; what a
reader sees of one (`Metrics.reading`) are its low 64 bits.
-/
namespace Microkernel

/-- What is counted. -/
inductive Counter where
  | contextSwitches
  /-- Context switches at the end of a timeslice. -/
  | preemptions
  /-- Timer ticks of started schedulers. -/
  | timerTicks
  /-- Messages accepted into a mailbox or an inbox. -/
  | sends
  /-- Messages handed to a task. -/
  | receives
  /-- Messages refused because there was no room. -/
  | mailboxFull
  | sleeps
  /-- Tasks moved back to a ready ring. -/
  | wakes
  | tasksSpawned
  | tasksReaped
  | interruptsSent
  deriving DecidableEq

/-- Every counter, in the order in which reports list them. -/
def Counter.all : List Counter :=
  [contextSwitches, preemptions, timerTicks, sends, receives, mailboxFull, sleeps, wakes,
    tasksSpawned, tasksReaped, interruptsSent]

/-- The totals. -/
structure Metrics where
  contextSwitches : Nat := 0
  preemptions : Nat := 0
  timerTicks : Nat := 0
  sends : Nat := 0
  receives : Nat := 0
  mailboxFull : Nat := 0
  sleeps : Nat := 0
  wakes : Nat := 0
  tasksSpawned : Nat := 0
  tasksReaped : Nat := 0
  interruptsSent : Nat := 0
  deriving DecidableEq

namespace Metrics

/-- The total of one counter. -/
def total (m : Metrics) : Counter → Nat
  | .contextSwitches => m.contextSwitches
  | .preemptions => m.preemptions
  | .timerTicks => m.timerTicks
  | .sends => m.sends
  | .receives => m.receives
  | .mailboxFull => m.mailboxFull
  | .sleeps => m.sleeps
  | .wakes => m.wakes
  | .tasksSpawned => m.tasksSpawned
  | .tasksReaped => m.tasksReaped
  | .interruptsSent => m.interruptsSent

/-- Adds to one counter. -/
def add (m : Metrics) (counter : Counter) (amount : Nat) : Metrics :=
  match counter with
  | .contextSwitches => { m with contextSwitches := m.contextSwitches + amount }
  | .preemptions => { m with preemptions := m.preemptions + amount }
  | .timerTicks => { m with timerTicks := m.timerTicks + amount }
  | .sends => { m with sends := m.sends + amount }
  | .receives => { m with receives := m.receives + amount }
  | .mailboxFull => { m with mailboxFull := m.mailboxFull + amount }
  | .sleeps => { m with sleeps := m.sleeps + amount }
  | .wakes => { m with wakes := m.wakes + amount }
  | .tasksSpawned => { m with tasksSpawned := m.tasksSpawned + amount }
  | .tasksReaped => { m with tasksReaped := m.tasksReaped + amount }
  | .interruptsSent => { m with interruptsSent := m.interruptsSent + amount }

/-- What a reader sees of a counter: the low 64 bits of its total. -/
def reading (m : Metrics) (counter : Counter) : Nat :=
  m.total counter % 0x10000000000000000

/-- What a reader sees of all counters. -/
def readings (m : Metrics) : List Nat :=
  Counter.all.map m.reading

theorem total_add (m : Metrics) (c d : Counter) (n : Nat) :
    (m.add c n).total d = if d = c then m.total d + n else m.total d := by
  cases c <;> cases d <;> rfl

end Metrics

end Microkernel
