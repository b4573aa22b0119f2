/-
Interrupts between cores and local timers.

A core asks others for something by an inter-processor interrupt; each kind has its vector
number. Timers are programmed per core.
-/
import Microkernel.Config

namespace Microkernel

/-- What one core asks another to do. -/
inductive InterruptKind where
  /-- Take over the work in the inbox, and leave the idle task if some became ready. -/
  | reschedule
  /-- Begin dispatching. -/
  | startScheduler
  /-- Forget cached address mappings. -/
  | invalidateTlb
  /-- Arm the local timer with the timeslice. -/
  | setupTimeslice
  deriving DecidableEq

namespace InterruptKind

/-- The vector of the interrupt. -/
def vector : InterruptKind → Nat
  | reschedule => 0x30
  | invalidateTlb => 0x31
  | startScheduler => 0x33
  | setupTimeslice => 0x34

/-- The kind that a vector belongs to. -/
def ofVector? : Nat → Option InterruptKind
  | 0x30 => some reschedule
  | 0x31 => some invalidateTlb
  | 0x33 => some startScheduler
  | 0x34 => some setupTimeslice
  | _ => none

/-- The spelling of the kind in reports. -/
def name : InterruptKind → String
  | reschedule => "Reschedule"
  | startScheduler => "StartScheduler"
  | invalidateTlb => "InvalidateTlb"
  | setupTimeslice => "SetupTimeslice"

/-- Every kind. -/
def all : List InterruptKind :=
  [reschedule, startScheduler, invalidateTlb, setupTimeslice]

theorem ofVector?_vector (k : InterruptKind) : ofVector? k.vector = some k := by
  cases k <;> rfl

/-- Kinds have different vectors. -/
theorem vector_injective {k l : InterruptKind} (h : k.vector = l.vector) : k = l := by
  have same : ofVector? k.vector = ofVector? l.vector := by rw [h]
  rw [ofVector?_vector, ofVector?_vector] at same
  exact Option.some.inj same

end InterruptKind

/-- An interrupt on its way to the local interrupt controller `target`. -/
structure SentInterrupt where
  sender : CoreId
  target : Nat
  kind : InterruptKind
  deriving DecidableEq

/-- How a timer runs. -/
inductive TimerMode where
  | periodic
  | oneShot
  deriving DecidableEq

/-- The spelling of a timer mode in reports. -/
def TimerMode.name : TimerMode → String
  | periodic => "Periodic"
  | oneShot => "OneShot"

/-- A timer that a core armed for itself. -/
structure ArmedTimer where
  core : CoreId
  mode : TimerMode
  milliseconds : Nat
  deriving DecidableEq

end Microkernel
