/-
Cores: what each one shows to the others.

A core has a scheduler that only it touches, an inbox where others leave work for it
(`Inbox`), and a few values that everyone may read: its flags, its load and its current task.
-/
import Microkernel.Scheduler.Basic

namespace Microkernel

/-- What is true of a core, once it is. -/
structure CoreFlags where
  /-- The idle and the cleanup task are installed. -/
  online : Bool := false
  started : Bool := false
  timerArmed : Bool := false
  /-- The core stopped after a fatal error. -/
  faulted : Bool := false
  deriving DecidableEq

namespace CoreFlags

/-- The flags as bits. -/
def bits (f : CoreFlags) : Nat :=
  f.online.toNat + 2 * f.started.toNat + 4 * f.timerArmed.toNat + 8 * f.faulted.toNat

/-- The flags among the bits of a number; other bits are ignored. -/
def ofBits (n : Nat) : CoreFlags where
  online := n.testBit 0
  started := n.testBit 1
  timerArmed := n.testBit 2
  faulted := n.testBit 3

/-- The flags that are set in one or the other. -/
def union (f g : CoreFlags) : CoreFlags where
  online := f.online || g.online
  started := f.started || g.started
  timerArmed := f.timerArmed || g.timerArmed
  faulted := f.faulted || g.faulted

theorem ofBits_bits (f : CoreFlags) : ofBits f.bits = f := by
  obtain ⟨o, s, t, x⟩ := f
  revert o s t x
  decide

end CoreFlags

/-- Mail for a task: its recipient and the message. -/
abbrev Mail := TaskId × Message

/-- Work that other cores left for a core. -/
structure Inbox where
  tasks : List Task
  mail : List Mail
  /-- No more mail is accepted once this many wait. -/
  capacity : Nat
  deriving DecidableEq

namespace Inbox

/-- An empty inbox. -/
def new (capacity : Nat) : Inbox where
  tasks := []
  mail := []
  capacity := capacity

/-- Leaves a task. -/
def pushTask (i : Inbox) (task : Task) : Inbox :=
  { i with tasks := i.tasks ++ [task] }

/-- Leaves mail, unless the inbox is full. -/
def pushMail (i : Inbox) (mail : Mail) : Except Error Inbox :=
  if i.capacity ≤ i.mail.length then .error .mailboxFull
  else .ok { i with mail := i.mail ++ [mail] }

/-- Takes all tasks out. -/
def takeTasks (i : Inbox) : List Task × Inbox :=
  (i.tasks, { i with tasks := [] })

/-- Takes all mail out. -/
def takeMail (i : Inbox) : List Mail × Inbox :=
  (i.mail, { i with mail := [] })

/-- Puts mail back in front of what arrived meanwhile. -/
def restoreMail (i : Inbox) (retained : List Mail) : Inbox :=
  { i with mail := retained ++ i.mail }

end Inbox

/-- One core. -/
structure Core where
  id : CoreId
  /-- The interrupt controller that reaches the core. -/
  apic : Nat
  flags : CoreFlags
  /-- The published load, tasks in the inbox included. -/
  load : Nat
  /-- The published current task. -/
  current : Option TaskId
  scheduler : Scheduler
  inbox : Inbox
  deriving DecidableEq

namespace Core

/-- A core that is not online. -/
def new (id : CoreId) (apic timeslice inboxCapacity : Nat) : Core where
  id := id
  apic := apic
  flags := {}
  load := 0
  current := none
  scheduler := .new id timeslice
  inbox := .new inboxCapacity

/-- Sets flags, in addition to those set before. -/
def setFlags (c : Core) (flags : CoreFlags) : Core :=
  { c with flags := c.flags.union flags }

/-- The core can be given tasks. -/
def isOnline (c : Core) : Bool :=
  c.flags.online

/-- Counts a task that was left in the inbox. -/
def reserveLoad (c : Core) (weight : Nat) : Core :=
  { c with load := c.load + weight }

/-- Publishes the load and the current task of the scheduler. -/
def publish (c : Core) : Core :=
  { c with load := c.scheduler.score, current := c.scheduler.current }

end Core

/-- The cores that an interrupt from core `exclude` to everyone else goes to. -/
def broadcastTargets (cores : List Core) (exclude : CoreId) : List Core :=
  cores.filter fun c => decide (c.id ≠ exclude) && c.isOnline

/-- Sends an interrupt to every online core except `exclude`; answers how many were sent. -/
def broadcast (m : Machine) (cores : List Core) (kind : InterruptKind) (exclude : CoreId) :
    Nat × Machine :=
  let targets := broadcastTargets cores exclude
  (targets.length, targets.foldl (fun (m : Machine) c => m.sendInterrupt c.apic kind) m)

end Microkernel
