/-
Mailboxes: byte rings that hold encoded frames back to back.

Bytes are written at `writeOffset` and read at `readOffset`, both modulo the capacity, so a
frame that runs into the end of the buffer goes on at its start, and its header may be
split in the same way. `used` counts the bytes between the two offsets, which tells a full
ring from an empty one; `unread` counts the frames.

`Mailbox.contents` is the view of a mailbox: its used bytes in reading order.

Design notes: a mailbox takes any bytes (`Mailbox.sendFrame`), so reading checks what it
finds. `receiveFrame` refuses a header that cannot be right and leaves it in place, while
`receive` has already taken a frame out when it turns out not to be a message.
-/
import Microkernel.Message.Frame

namespace Microkernel

/-- A ring of bytes with the frames that wait for a task. -/
structure Mailbox where
  buffer : Array UInt8
  readOffset : Nat
  writeOffset : Nat
  /-- Bytes between the two offsets. -/
  used : Nat
  /-- Frames that wait. -/
  unread : Nat
  /-- Frames accepted since the mailbox was made. -/
  sends : Nat
  deriving DecidableEq

namespace Mailbox

/-- The empty ring of `capacity` bytes. -/
def new (capacity : Nat) : Mailbox where
  buffer := Array.replicate capacity 0
  readOffset := 0
  writeOffset := 0
  used := 0
  unread := 0
  sends := 0

/-- Bytes of a buffer that is too large to be had. -/
def capacityLimit : Nat := 0x10000000000

/-- Allocates a ring of `capacity` bytes. -/
def withCapacity (capacity : Nat) : Except Error Mailbox :=
  if capacity < capacityLimit then .ok (new capacity) else .error (.allocationFailed .mailbox)

/-- Bytes of the ring. -/
def capacity (m : Mailbox) : Nat :=
  m.buffer.size

/-- Bytes that are not in use. -/
def available (m : Mailbox) : Nat :=
  m.capacity - m.used

/-- Some frame waits. -/
def hasUnread (m : Mailbox) : Bool :=
  decide (0 < m.unread)

/-- The ring has been given back. -/
def isReleased (m : Mailbox) : Bool :=
  m.buffer.isEmpty

/-- Gives the ring back. The count of accepted frames stays. -/
def release (m : Mailbox) : Mailbox :=
  { m with buffer := #[], readOffset := 0, writeOffset := 0, used := 0, unread := 0 }

/-- The byte `index` places behind `offset`. -/
def byteAt (m : Mailbox) (offset index : Nat) : UInt8 :=
  m.buffer.getD ((offset + index) % m.capacity) 0

/-- The `count` bytes from `offset` on, across the end of the ring. -/
def copyOut (m : Mailbox) (offset count : Nat) : Bytes :=
  (List.range count).map (m.byteAt offset)

/-- The used bytes in reading order. -/
def contents (m : Mailbox) : Bytes :=
  m.copyOut m.readOffset m.used

/-- Writes bytes from `offset` on, across the end of the buffer. -/
def writeAt (buffer : Array UInt8) (offset : Nat) : Bytes → Array UInt8
  | [] => buffer
  | b :: rest => writeAt (buffer.setIfInBounds (offset % buffer.size) b) (offset + 1) rest

/-- Appends a frame to the ring. An empty frame, or one that does not fit, is refused. -/
def push (m : Mailbox) (frame : Bytes) : Except Error Mailbox :=
  if m.available < frame.length ∨ frame.isEmpty then
    .error .mailboxFull
  else
    .ok { m with
      buffer := writeAt m.buffer m.writeOffset frame
      writeOffset := (m.writeOffset + frame.length) % m.capacity
      used := m.used + frame.length
      unread := m.unread + 1 }

/-- Accepts an encoded frame, and counts it; a refused frame changes nothing. -/
def sendFrame (m : Mailbox) (frame : Bytes) : Except Error Mailbox :=
  match m.push frame with
  | .error e => .error e
  | .ok m => .ok { m with sends := m.sends + 1 }

/-- Encodes a message and accepts its frame. -/
def send (m : Mailbox) (message : Message) : Except Error Mailbox :=
  match message.encode with
  | .error e => .error e
  | .ok frame => m.sendFrame frame

/-- The length of the oldest frame, if its header can be right. -/
def nextLength (m : Mailbox) : Except Error Nat :=
  if m.used < headerSize then
    .error .invalidQueueState
  else
    match frameLength (m.copyOut m.readOffset headerSize) with
    | .error _ => .error .invalidQueueState
    | .ok length => if m.used < length then .error .invalidQueueState else .ok length

/-- Drops the oldest frame, of the given length, from the ring. -/
def drop (m : Mailbox) (length : Nat) : Mailbox :=
  { m with
    readOffset := (m.readOffset + length) % m.capacity
    used := m.used - length
    unread := m.unread - 1 }

/-- Takes the oldest frame, if any frame waits. -/
def receiveFrame (m : Mailbox) : Except Error (Option Bytes) × Mailbox :=
  if m.unread = 0 then
    (.ok none, m)
  else
    match m.nextLength with
    | .error e => (.error e, m)
    | .ok length => (.ok (some (m.copyOut m.readOffset length)), m.drop length)

/-- The message of a frame taken from a ring. Bytes that are none mean a broken ring. -/
def decodeStored (frame : Bytes) : Except Error Message :=
  match Message.decode? frame with
  | some message => .ok message
  | none => .error .invalidQueueState

/-- Takes the oldest message, if any frame waits. -/
def receive (m : Mailbox) : Except Error (Option Message) × Mailbox :=
  match m.receiveFrame with
  | (.error e, m) => (.error e, m)
  | (.ok none, m) => (.ok none, m)
  | (.ok (some frame), m) =>
    match decodeStored frame with
    | .error e => (.error e, m)
    | .ok message => (.ok (some message), m)

/-- Visits the next `pending` frames: the first message that the filter accepts is kept
out, all other frames go to the end of the ring. -/
def cycle (filter : Filter) :
    Nat → Option Message → Mailbox → Except Error (Option Message) × Mailbox
  | 0, found, m => (.ok found, m)
  | pending + 1, found, m =>
    match m.receiveFrame with
    | (.error e, m) => (.error e, m)
    | (.ok none, m) => (.error .invalidQueueState, m)
    | (.ok (some frame), m) =>
      match decodeStored frame with
      | .error e => (.error e, m)
      | .ok message =>
        if found.isNone && filter.accepts message then
          cycle filter pending (some message) m
        else
          -- there is room: the frame was taken out just before
          match m.push frame with
          | .error e => (.error e, m)
          | .ok m => cycle filter pending found m

/-- Takes the oldest message that the filter accepts. Every waiting frame is visited once,
and the others stay in their order. -/
def receiveMatching (m : Mailbox) (filter : Filter) : Except Error (Option Message) × Mailbox :=
  cycle filter m.unread none m

end Mailbox

end Microkernel
