/-
The wire form of a message.

A frame is a header of sixteen bytes and a payload, at most 256 bytes together; all
numbers are little-endian:

    offset  bytes  field
         0      4  length of the frame, header included
         4      4  sender
         8      4  recipient: a task id or the number of a service
        12      1  namespace
        13      1  recipient kind: 0 task, 1 service, 2 registry
        14      2  message kind
        16      -  payload

`Message.encode` writes a message and `Message.decode` reads one whole frame. Task ids
are cut to 32 bits on the way out, and the largest 32-bit number stands for "no task" in
the reply to a lookup.

Design notes: the header is a record of its own (`Header`), with its bytes
(`Header.bytes`) and its reader (`Header.read?`), so that a statement about a field never
mentions the offsets of the others.
-/
import Microkernel.Error
import Microkernel.Message.Basic

namespace Microkernel

/-- Bytes of a frame's header. -/
def headerSize : Nat := 16

/-- Most bytes of a frame. -/
def maxFrameSize : Nat := 256

/-- Most bytes of a payload. -/
def maxPayloadSize : Nat := maxFrameSize - headerSize

/-- The number that stands for "no task". -/
def noTask : Nat := 0xffffffff

/-- The fields of a frame's header, as numbers. -/
structure Header where
  length : Nat
  sender : Nat
  recipient : Nat
  space : Nat
  recipientKind : Nat
  kind : Nat
  deriving DecidableEq

namespace Header

/-- The sixteen bytes of a header; each field keeps its low bytes. -/
def bytes (h : Header) : Bytes :=
  littleEndian 4 h.length ++ littleEndian 4 h.sender ++ littleEndian 4 h.recipient ++
    littleEndian 1 h.space ++ littleEndian 1 h.recipientKind ++ littleEndian 2 h.kind

/-- Splits a frame into its header and its payload. -/
def read? : Bytes → Option (Header × Bytes)
  | l₀ :: l₁ :: l₂ :: l₃ :: s₀ :: s₁ :: s₂ :: s₃ :: r₀ :: r₁ :: r₂ :: r₃ :: n :: c :: k₀ :: k₁ ::
      payload =>
    some ({ length := ofLittleEndian [l₀, l₁, l₂, l₃]
            sender := ofLittleEndian [s₀, s₁, s₂, s₃]
            recipient := ofLittleEndian [r₀, r₁, r₂, r₃]
            space := n.toNat
            recipientKind := c.toNat
            kind := ofLittleEndian [k₀, k₁] }, payload)
  | _ => none

end Header

/-- The length that the first four bytes of a frame announce: from `headerSize` up to
`maxFrameSize`. -/
def frameLength (bytes : Bytes) : Except Error Nat :=
  if bytes.length < 4 then
    .error .malformedMessage
  else
    let length := ofLittleEndian (bytes.take 4)
    if headerSize ≤ length ∧ length ≤ maxFrameSize then
      .ok length
    else
      .error .malformedMessage

namespace Recipient

/-- The recipient-kind byte of a header. -/
def code : Recipient → Nat
  | task _ => 0
  | service _ => 1
  | registry => 2

/-- The recipient field of a header. -/
def value : Recipient → Nat
  | task id => id
  | service provided => provided.code
  | registry => 0

/-- The recipient with a given kind byte and field. -/
def ofWire? (code value : Nat) : Option Recipient :=
  match code with
  | 0 => some (task value)
  | 1 => (Service.ofCode? value).map service
  | 2 => some registry
  | _ => none

end Recipient

namespace SchedulerMessage

/-- The payload: a token or a task id. -/
def payload : SchedulerMessage → Bytes
  | ping token | pong token => littleEndian 4 token.toNat
  | taskExited task => littleEndian 4 task

/-- Reads a payload of exactly four bytes. -/
def ofPayload? (kind : Nat) (payload : Bytes) : Option SchedulerMessage :=
  if payload.length ≠ 4 then
    none
  else
    let value := ofLittleEndian payload
    match kind with
    | 0 => some (ping (.ofNat value))
    | 1 => some (pong (.ofNat value))
    | 2 => some (taskExited value)
    | _ => none

end SchedulerMessage

namespace ServiceMessage

/-- The number for an optional task in a payload. -/
def taskCode : Option TaskId → Nat
  | none => noTask
  | some task => task

/-- The optional task with a given number. -/
def taskOfCode (value : Nat) : Option TaskId :=
  if value = noTask then none else some value

/-- The payload: a service and, in a reply, its provider. -/
def payload : ServiceMessage → Bytes
  | register service | unregister service | lookup service => littleEndian 4 service.code
  | reply service task => littleEndian 4 service.code ++ littleEndian 4 (taskCode task)

/-- Reads a payload of exactly eight bytes for a reply and four for the other kinds. -/
def ofPayload? (kind : Nat) (payload : Bytes) : Option ServiceMessage :=
  if payload.length ≠ (if kind = 3 then 8 else 4) then
    none
  else
    match Service.ofCode? (ofLittleEndian (payload.take 4)) with
    | none => none
    | some service =>
      match kind with
      | 0 => some (register service)
      | 1 => some (unregister service)
      | 2 => some (lookup service)
      | 3 => some (reply service (taskOfCode (ofLittleEndian (payload.drop 4))))
      | _ => none

end ServiceMessage

namespace Body

/-- The payload of a body. Data may neither name a namespace that the kernel reads nor
exceed the frame limit. -/
def payload : Body → Except Error Bytes
  | scheduler message => .ok message.payload
  | services message => .ok message.payload
  | verbatim space _ data =>
    if space.isTyped then .error .malformedMessage
    else if maxPayloadSize < data.length then .error .messageTooLarge
    else .ok data

/-- The body of a given namespace and kind that has the given payload. -/
def ofPayload? (space : Namespace) (kind : Nat) (payload : Bytes) : Option Body :=
  match space with
  | .scheduler => (SchedulerMessage.ofPayload? kind payload).map scheduler
  | .services => (ServiceMessage.ofPayload? kind payload).map services
  | .vfs | .hardwareFs | .window => some (verbatim space (.ofNat kind) payload)

end Body

namespace Message

/-- The header of a message with a payload of `size` bytes. -/
def header (m : Message) (size : Nat) : Header where
  length := headerSize + size
  sender := m.sender
  recipient := m.recipient.value
  space := m.body.space.code
  recipientKind := m.recipient.code
  kind := m.body.kind.toNat

/-- The frame of a message. -/
def encode (m : Message) : Except Error Bytes :=
  match m.body.payload with
  | .error e => .error e
  | .ok payload => .ok ((m.header payload.length).bytes ++ payload)

/-- The message of a header and a payload, if every field has a meaning. -/
def ofHeader? (h : Header) (payload : Bytes) : Option Message :=
  match Recipient.ofWire? h.recipientKind h.recipient, Namespace.ofCode? h.space with
  | some recipient, some space =>
    (Body.ofPayload? space h.kind payload).map fun body => ⟨h.sender, recipient, body⟩
  | _, _ => none

/-- The message whose frame is `frame`, if it is one frame and nothing more. -/
def decode? (frame : Bytes) : Option Message :=
  match Header.read? frame with
  | some (h, payload) =>
    if h.length = frame.length ∧ frame.length ≤ maxFrameSize then ofHeader? h payload else none
  | none => none

/-- Reads one whole frame. -/
def decode (frame : Bytes) : Except Error Message :=
  match decode? frame with
  | some m => .ok m
  | none => .error .malformedMessage

end Message

end Microkernel
