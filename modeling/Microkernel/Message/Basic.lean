/-
Messages between tasks.

A message has a sender, a recipient and a body. The recipient is a task, whichever task
provides a service, or the service registry itself. Bodies are grouped in namespaces: the
kernel reads those of `Namespace.scheduler` and `Namespace.services`, and copies all
others without looking at them (`Body.verbatim`).

A `Filter` selects messages by namespace and, if it names one, by kind.
-/
import Microkernel.Bytes
import Microkernel.Config

namespace Microkernel

/-- A family of message kinds. -/
inductive Namespace where
  | scheduler
  | services
  | vfs
  | hardwareFs
  | window
  deriving DecidableEq

namespace Namespace

/-- The number that stands for the namespace in a frame. -/
def code : Namespace → Nat
  | scheduler => 0
  | services => 1
  | vfs => 2
  | hardwareFs => 3
  | window => 4

/-- The namespace with a given number. -/
def ofCode? : Nat → Option Namespace
  | 0 => some scheduler
  | 1 => some services
  | 2 => some vfs
  | 3 => some hardwareFs
  | 4 => some window
  | _ => none

/-- The kernel itself reads the bodies of a typed namespace. -/
def isTyped : Namespace → Bool
  | scheduler | services => true
  | vfs | hardwareFs | window => false

/-- The spelling of the namespace in reports. -/
def name : Namespace → String
  | scheduler => "Scheduler"
  | services => "Services"
  | vfs => "Vfs"
  | hardwareFs => "HardwareFs"
  | window => "Window"

/-- Every namespace, by ascending number. -/
def all : List Namespace :=
  [scheduler, services, vfs, hardwareFs, window]

theorem ofCode?_code (n : Namespace) : ofCode? n.code = some n := by
  cases n <;> rfl

theorem code_of_ofCode? {c : Nat} {n : Namespace} (h : ofCode? c = some n) : n.code = c := by
  unfold ofCode? at h
  split at h <;> simp_all [code] <;> subst h <;> rfl

end Namespace

/-- A well-known service that a task can provide. -/
inductive Service where
  | vfs
  | hardwareFs
  | window
  | input
  | clock
  deriving DecidableEq

namespace Service

/-- The number that stands for the service in a frame. -/
def code : Service → Nat
  | vfs => 1
  | hardwareFs => 2
  | window => 3
  | input => 4
  | clock => 5

/-- The service with a given number. -/
def ofCode? : Nat → Option Service
  | 1 => some vfs
  | 2 => some hardwareFs
  | 3 => some window
  | 4 => some input
  | 5 => some clock
  | _ => none

/-- The spelling of the service in reports and log lines. -/
def name : Service → String
  | vfs => "Vfs"
  | hardwareFs => "HardwareFs"
  | window => "Window"
  | input => "Input"
  | clock => "Clock"

/-- Every service, by ascending number. -/
def all : List Service :=
  [vfs, hardwareFs, window, input, clock]

theorem mem_all (s : Service) : s ∈ all := by
  cases s <;> decide

theorem ofCode?_code (s : Service) : ofCode? s.code = some s := by
  cases s <;> rfl

theorem code_of_ofCode? {c : Nat} {s : Service} (h : ofCode? c = some s) : s.code = c := by
  unfold ofCode? at h
  split at h <;> simp_all [code] <;> subst h <;> rfl

end Service

/-- Where a message is addressed. -/
inductive Recipient where
  | task (id : TaskId)
  /-- Whichever task provides the service. -/
  | service (service : Service)
  /-- The service registry. -/
  | registry
  deriving DecidableEq

/-- Bodies of the scheduler namespace. -/
inductive SchedulerMessage where
  | ping (token : UInt32)
  | pong (token : UInt32)
  /-- A service announces that a task it served is gone. -/
  | taskExited (task : TaskId)
  deriving DecidableEq

namespace SchedulerMessage

/-- The kind of the body within its namespace. -/
def kind : SchedulerMessage → UInt16
  | ping _ => 0
  | pong _ => 1
  | taskExited _ => 2

end SchedulerMessage

/-- Bodies of the services namespace. -/
inductive ServiceMessage where
  /-- The sender becomes the provider of the service. -/
  | register (service : Service)
  /-- The sender no longer provides the service. -/
  | unregister (service : Service)
  | lookup (service : Service)
  /-- The answer to a lookup: the provider, if there is one. -/
  | reply (service : Service) (task : Option TaskId)
  deriving DecidableEq

namespace ServiceMessage

/-- The kind of the body within its namespace. -/
def kind : ServiceMessage → UInt16
  | register _ => 0
  | unregister _ => 1
  | lookup _ => 2
  | reply _ _ => 3

end ServiceMessage

/-- The content of a message. -/
inductive Body where
  | scheduler (message : SchedulerMessage)
  | services (message : ServiceMessage)
  /-- Data of a namespace that belongs to a service; the kernel only copies it. -/
  | verbatim (space : Namespace) (kind : UInt16) (data : Bytes)
  deriving DecidableEq

namespace Body

/-- The namespace that the body belongs to. -/
def space : Body → Namespace
  | scheduler _ => .scheduler
  | services _ => .services
  | verbatim space _ _ => space

/-- The kind of the body within its namespace. -/
def kind : Body → UInt16
  | scheduler message => message.kind
  | services message => message.kind
  | verbatim _ kind _ => kind

end Body

/-- One message. The kernel fills in the sender when it is sent. -/
structure Message where
  sender : TaskId
  recipient : Recipient
  body : Body
  deriving DecidableEq

/-- The sender of the messages that the kernel writes itself. -/
def kernelSender : TaskId := 0xfffffffe

/-- Selects messages for a receive. -/
structure Filter where
  space : Namespace
  /-- Any kind when there is none. -/
  kind : Option UInt16
  deriving DecidableEq

/-- A filter accepts the messages of its namespace that have its kind. -/
def Filter.accepts (filter : Filter) (message : Message) : Bool :=
  message.body.space == filter.space &&
    match filter.kind with
    | none => true
    | some kind => kind == message.body.kind

end Microkernel
