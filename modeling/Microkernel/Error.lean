/-
Failures of kernel operations.

An operation that cannot be carried out answers with an `Error`. Running out of a
resource and failing to reach a recipient are the caller's to handle; only
`Error.invalidQueueState` says that the kernel's own records contradict each other,
and the core that meets it stops (`Error.isFatal`).

Each error has two texts: `Error.name`, the spelling of its constructor in reports, and
`Error.message`, the sentence that log lines carry.
-/
namespace Microkernel

/-- What an allocation was meant for. -/
inductive Resource where
  | kernelStack
  | userStack
  | mailbox
  | addressSpace
  | heap
  | stateSegment
  | arguments
  deriving DecidableEq

namespace Resource

/-- Every resource, in the order in which reports list them. -/
def all : List Resource :=
  [kernelStack, userStack, mailbox, addressSpace, heap, stateSegment, arguments]

/-- The spelling of the resource in reports. -/
def name : Resource → String
  | kernelStack => "KernelStack"
  | userStack => "UserStack"
  | mailbox => "Mailbox"
  | addressSpace => "AddressSpace"
  | heap => "Heap"
  | stateSegment => "TaskState"
  | arguments => "Arguments"

/-- The words for the resource in a log line. -/
def description : Resource → String
  | kernelStack => "kernel stack"
  | userStack => "user stack"
  | mailbox => "mailbox"
  | addressSpace => "address space"
  | heap => "heap"
  | stateSegment => "task-state segment"
  | arguments => "argument page"

end Resource

/-- Why a kernel operation was refused. -/
inductive Error where
  /-- Memory for the resource is exhausted. -/
  | allocationFailed (resource : Resource)
  /-- The recipient's mailbox, or the inbox of its core, cannot take the message. -/
  | mailboxFull
  /-- The recipient does not resolve to a live task. -/
  | recipientNotFound
  /-- Every task id is in use. -/
  | outOfIds
  /-- The records of a scheduler or a mailbox contradict each other. -/
  | invalidQueueState
  /-- The encoded message would exceed the frame limit. -/
  | messageTooLarge
  /-- The bytes do not form a message. -/
  | malformedMessage
  /-- The operation needs a running task other than the idle one. -/
  | noCurrentTask
  /-- The core is outside the configured range. -/
  | invalidCore
  deriving DecidableEq

namespace Error

/-- Every error, in the order in which reports list them. -/
def all : List Error :=
  Resource.all.map allocationFailed ++
    [mailboxFull, recipientNotFound, outOfIds, invalidQueueState, messageTooLarge,
      malformedMessage, noCurrentTask, invalidCore]

/-- The spelling of the error in reports. -/
def name : Error → String
  | allocationFailed resource => "AllocationFailed(" ++ resource.name ++ ")"
  | mailboxFull => "MailboxFull"
  | recipientNotFound => "RecipientNotFound"
  | outOfIds => "OutOfIds"
  | invalidQueueState => "InvalidQueueState"
  | messageTooLarge => "MessageTooLarge"
  | malformedMessage => "MalformedMessage"
  | noCurrentTask => "NoCurrentTask"
  | invalidCore => "InvalidCore"

/-- The pieces in which the error is written to a log line. -/
def fragments : Error → List String
  | allocationFailed resource => ["allocation failed: ", resource.description]
  | mailboxFull => ["mailbox full"]
  | recipientNotFound => ["recipient not found"]
  | outOfIds => ["out of task ids"]
  | invalidQueueState => ["invalid queue state"]
  | messageTooLarge => ["message too large"]
  | malformedMessage => ["malformed message"]
  | noCurrentTask => ["no current task"]
  | invalidCore => ["invalid core"]

/-- The error as a sentence. -/
def message (e : Error) : String :=
  String.join e.fragments

/-- A fatal error leaves the core's own records untrustworthy. -/
def isFatal : Error → Bool
  | invalidQueueState => true
  | _ => false

end Error

end Microkernel
