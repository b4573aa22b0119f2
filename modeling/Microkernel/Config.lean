/-
Limits and sizes of one kernel instance, and the fixed addresses of a user task.
-/
namespace Microkernel

/-- Task ids are small natural numbers handed out by the id pool. -/
abbrev TaskId := Nat

/-- Ordinal of a core. -/
abbrev CoreId := Nat

/-- Bytes per page. -/
def pageSize : Nat := 4096

/-- A kernel manages at most this many cores. -/
def maxCores : Nat := 16

/-- Where a user task's stack is mapped. -/
def userStackBase : Nat := 0x00007fffff000000

/-- Where a user task's state segment is mapped. -/
def userSegmentBase : Nat := 0x00007ffffe000000

/-- Where the path argument of a user task is mapped. -/
def userArgumentsBase : Nat := 0x00007ffffd000000

/-- The choices made when a kernel is built. -/
structure Config where
  /-- Milliseconds that a timer interrupt adds to a core's clock. -/
  timeslice : Nat
  /-- Number of cores, between one and `maxCores`. -/
  cores : Nat
  /-- Bytes of a task's kernel stack. -/
  stackSize : Nat
  /-- Pages of a user task's stack. -/
  userStackPages : Nat
  /-- Bytes of a task's mailbox. -/
  mailboxSize : Nat
  /-- Most task ids in use at once. -/
  maxIds : Nat
  /-- Messages that a core's inbox holds before it refuses more. -/
  inboxCapacity : Nat
  deriving DecidableEq

namespace Config

/-- The usual sizes for `cores` cores. -/
def withCores (cores : Nat) : Config where
  timeslice := 10
  cores := cores
  stackSize := 16 * 1024
  userStackPages := 4
  mailboxSize := 4096
  maxIds := 1024
  inboxCapacity := 64

/-- One core and the usual sizes. -/
def standard : Config :=
  withCores 1

end Config

end Microkernel
