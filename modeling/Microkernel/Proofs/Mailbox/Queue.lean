/-
A mailbox is a bounded queue of frames.

`FrameQueue` is the queue that a mailbox implements: it holds whole frames and knows nothing
of offsets. `Mailbox.Operation` names what can be asked of either of them, and both answer
with an `Answer`.

* **`Represents.step`**: an operation gets the same answer from a mailbox and from the queue
  that it represents, and the mailbox goes on representing the queue;
* **`Mailbox.run_eq_queue`**: so do any number of operations from an empty ring on, wherever
  the frames fall in it.

Design notes: a ring that was given back has no bytes, while its queue keeps the capacity that
it had and notes that it is `released`.
-/
import Microkernel.Proofs.Mailbox

namespace Microkernel

namespace Mailbox

/-- Something to ask of a mailbox. -/
inductive Operation where
  | send (message : Message)
  | sendFrame (frame : Bytes)
  | receiveFrame
  | receive
  | release

/-- What an operation answers. -/
inductive Answer where
  | sent (result : Except Error Unit)
  | frame (result : Except Error (Option Bytes))
  | message (result : Except Error (Option Message))
  | released

/-- A frame that is sent as it is has 16 to 256 bytes, and its length field tells how many. -/
def Operation.Proper : Operation → Prop
  | sendFrame frame =>
    16 ≤ frame.length ∧ frame.length ≤ 256 ∧ ofLittleEndian (frame.take 4) = frame.length
  | send _ | receiveFrame | receive | release => True

instance : DecidablePred Operation.Proper
  | .sendFrame frame => inferInstanceAs (Decidable (16 ≤ frame.length ∧ _))
  | .send _ | .receiveFrame | .receive | .release => .isTrue trivial

theorem Operation.Proper.framed {frame : Bytes} (h : (sendFrame frame).Proper) :
    Framed frame := by
  obtain ⟨hmin, hmax, hfield⟩ := h
  have hhead : (frame.take headerSize).take 4 = frame.take 4 := List.take_take
  have hlen : (frame.take headerSize).length = headerSize := by
    rw [List.length_take]
    exact Nat.min_eq_left hmin
  refine ⟨hmin, frameLength_eq_ok_iff.2 ⟨?_, ?_, hmin, hmax⟩⟩
  · rw [hlen]
    decide
  · rw [hhead, hfield]

/-- The answers to operations that are carried out one after the other, and where they
lead. -/
def Operation.runAll {σ : Type} (step : σ → Operation → Answer × σ) (s : σ) :
    List Operation → List Answer × σ
  | [] => ([], s)
  | operation :: rest =>
    let (answer, s) := step s operation
    let (answers, s) := runAll step s rest
    (answer :: answers, s)

/-- The answer to a send, and the ring behind it. -/
def sentTo (m : Mailbox) : Except Error Mailbox → Answer × Mailbox
  | .ok m => (.sent (.ok ()), m)
  | .error e => (.sent (.error e), m)

/-- Carries out one operation. -/
def step (m : Mailbox) : Operation → Answer × Mailbox
  | .send message => m.sentTo (m.send message)
  | .sendFrame frame => m.sentTo (m.sendFrame frame)
  | .receiveFrame => m.receiveFrame.map .frame id
  | .receive => m.receive.map .message id
  | .release => (.released, m.release)

/-- Carries out operations one after the other. -/
def run (m : Mailbox) (operations : List Operation) : List Answer × Mailbox :=
  Operation.runAll step m operations

end Mailbox

/-- Frames that wait, and the room for them. -/
structure FrameQueue where
  frames : List Bytes
  /-- Most bytes of all frames together. -/
  capacity : Nat
  /-- The room has been given back. -/
  released : Bool
  /-- Frames accepted since the queue was made. -/
  sends : Nat

namespace FrameQueue

open Mailbox (Operation Answer decodeStored)

/-- The queue with no frames and room for `capacity` bytes. -/
def new (capacity : Nat) : FrameQueue where
  frames := []
  capacity := capacity
  released := false
  sends := 0

/-- Bytes of all frames together. -/
def size (q : FrameQueue) : Nat :=
  q.frames.flatten.length

/-- Bytes that are free. -/
def available (q : FrameQueue) : Nat :=
  if q.released then 0 else q.capacity - q.size

/-- There is room for a frame. -/
def hasRoom (q : FrameQueue) (frame : Bytes) : Bool :=
  !q.released && decide (q.size + frame.length ≤ q.capacity)

/-- Appends a frame and counts it, if there is room. -/
def offer (q : FrameQueue) (frame : Bytes) : Answer × FrameQueue :=
  if q.hasRoom frame then
    (.sent (.ok ()), { q with frames := q.frames ++ [frame], sends := q.sends + 1 })
  else
    (.sent (.error .mailboxFull), q)

/-- Takes the first frame out, if any frame waits, and answers what `answer` makes of it. -/
def take (q : FrameQueue) (answer : Option Bytes → Answer) : Answer × FrameQueue :=
  (answer q.frames.head?, { q with frames := q.frames.tail })

/-- Carries out one operation. -/
def step (q : FrameQueue) : Operation → Answer × FrameQueue
  | .send message =>
    match message.encode with
    | .error e => (.sent (.error e), q)
    | .ok frame => q.offer frame
  | .sendFrame frame => q.offer frame
  | .receiveFrame => q.take fun frame => .frame (.ok frame)
  | .receive => q.take fun frame => .message (frame.mapM decodeStored)
  | .release => (.released, { q with frames := [], released := true })

/-- Carries out operations one after the other. -/
def run (q : FrameQueue) (operations : List Operation) : List Answer × FrameQueue :=
  Operation.runAll step q operations

end FrameQueue

namespace Mailbox

/-- The ring holds the frames of the queue, and its room is that of the queue. -/
structure Represents (m : Mailbox) (q : FrameQueue) : Prop where
  stores : m.Stores q.frames
  capacity : m.capacity = if q.released then 0 else q.capacity
  sends : m.sends = q.sends

theorem represents_new (capacity : Nat) : (new capacity).Represents (.new capacity) where
  stores := stores_new capacity
  capacity := capacity_new capacity
  sends := rfl

namespace Represents

variable {m : Mailbox} {q : FrameQueue}

/-! ### Counters -/

theorem unread (h : m.Represents q) : m.unread = q.frames.length :=
  h.stores.unread

theorem used (h : m.Represents q) : m.used = q.size :=
  h.stores.used

theorem available (h : m.Represents q) : m.available = q.available := by
  rw [Mailbox.available, h.capacity, h.used, FrameQueue.available]
  split
  · exact Nat.zero_sub _
  · rfl

/-- A queue whose room was given back is empty, and stays so. -/
theorem frames_of_released (h : m.Represents q) (hreleased : q.released = true) :
    q.frames = [] := by
  have hfits := h.stores.fits
  rw [h.capacity, hreleased, if_pos rfl] at hfits
  have hused : q.frames.flatten.length = 0 := by
    rw [← h.stores.used]
    exact Nat.le_zero.1 hfits
  refine List.eq_nil_iff_forall_not_mem.2 fun frame hin => ?_
  have hnil := List.flatten_eq_nil_iff.1 (List.length_eq_zero_iff.1 hused) frame hin
  exact (h.stores.framed frame hin).ne_nil hnil

/-! ### One operation -/

theorem hasRoom_iff (h : m.Represents q) {frame : Bytes} (hframe : Framed frame) :
    q.hasRoom frame = true ↔ ¬ m.capacity < (q.frames.flatten ++ frame).length := by
  have hsize : (q.frames.flatten ++ frame).length = q.size + frame.length := by
    rw [List.length_append, FrameQueue.size]
  have hlen : 0 < frame.length := List.length_pos_iff.2 hframe.ne_nil
  rw [hsize, h.capacity, FrameQueue.hasRoom]
  cases q.released with
  | true =>
    have hfull : 0 < q.size + frame.length := by omega
    simp only [Bool.not_true, Bool.false_and, Bool.false_eq_true, if_true, hfull, not_true]
  | false => simp

theorem sendFrame (h : m.Represents q) {frame : Bytes} (hframe : Framed frame) :
    (m.sentTo (m.sendFrame frame)).1 = (q.offer frame).1 ∧
      (m.sentTo (m.sendFrame frame)).2.Represents (q.offer frame).2 := by
  have hroom := h.hasRoom_iff hframe
  rw [Mailbox.sendFrame, FrameQueue.offer]
  cases hpush : m.push frame with
  | error e =>
    obtain ⟨rfl, hfull⟩ := (h.stores.push_eq_error hframe).1 hpush
    rw [if_neg (fun hok => hroom.1 hok hfull)]
    exact ⟨rfl, h⟩
  | ok m' =>
    have hstores := h.stores.push hframe hpush
    have hfits : ¬ m.capacity < (q.frames.flatten ++ frame).length := by
      intro hfull
      have herror := (h.stores.push_eq_error hframe).2 ⟨rfl, hfull⟩
      rw [hpush] at herror
      cases herror
    obtain ⟨-, -, rfl⟩ := push_eq_ok hpush
    rw [if_pos (hroom.2 hfits)]
    have hcapacity : (m.pushed frame).capacity = if q.released then 0 else q.capacity :=
      (capacity_pushed frame).trans h.capacity
    -- counting the frame leaves the ring as it is
    have hcounted : ({ m.pushed frame with sends := (m.pushed frame).sends + 1 } :
        Mailbox).Stores (q.frames ++ [frame]) := { hstores with }
    exact ⟨rfl, hcounted, hcapacity, congrArg (· + 1) h.sends⟩

theorem receiveFrame (h : m.Represents q) :
    ∃ next, m.receiveFrame = (.ok q.frames.head?, next) ∧
      next.Represents { q with frames := q.frames.tail } := by
  have hstores := h.stores
  cases hframes : q.frames with
  | nil =>
    rw [hframes] at hstores
    exact ⟨m, hstores.receiveFrame_nil, hstores, h.capacity, h.sends⟩
  | cons frame rest =>
    rw [hframes] at hstores
    exact ⟨m.drop frame.length, hstores.receiveFrame, hstores.drop, h.capacity, h.sends⟩

theorem receive (h : m.Represents q) :
    ∃ next, m.receive = (q.frames.head?.mapM decodeStored, next) ∧
      next.Represents { q with frames := q.frames.tail } := by
  obtain ⟨next, hreceive, hnext⟩ := h.receiveFrame
  refine ⟨next, ?_, hnext⟩
  rw [Mailbox.receive, hreceive]
  cases q.frames.head? with
  | none => rfl
  | some frame =>
    dsimp only
    cases hdecode : decodeStored frame with
    | error e => simp [hdecode, Functor.map, Except.map]
    | ok message => simp [hdecode, Functor.map, Except.map]

theorem release (h : m.Represents q) :
    m.release.Represents { q with frames := [], released := true } where
  stores := m.stores_release
  capacity := rfl
  sends := h.sends

/-- A mailbox answers as its queue does, and goes on representing it. -/
theorem step (h : m.Represents q) {operation : Operation} (hproper : operation.Proper) :
    (m.step operation).1 = (q.step operation).1 ∧
      (m.step operation).2.Represents (q.step operation).2 := by
  cases operation with
  | send message =>
    rw [Mailbox.step, FrameQueue.step, Mailbox.send]
    cases hencode : message.encode with
    | error e => exact ⟨rfl, h⟩
    | ok frame => exact h.sendFrame (framed_of_encode hencode)
  | sendFrame frame => exact h.sendFrame hproper.framed
  | receiveFrame =>
    obtain ⟨next, hreceive, hnext⟩ := h.receiveFrame
    rw [Mailbox.step, hreceive]
    exact ⟨rfl, hnext⟩
  | receive =>
    obtain ⟨next, hreceive, hnext⟩ := h.receive
    rw [Mailbox.step, hreceive]
    exact ⟨rfl, hnext⟩
  | release => exact ⟨rfl, h.release⟩

/-! ### Any number of operations -/

theorem run (h : m.Represents q) {operations : List Operation}
    (hproper : ∀ operation ∈ operations, operation.Proper) :
    (m.run operations).1 = (q.run operations).1 ∧
      (m.run operations).2.Represents (q.run operations).2 := by
  induction operations generalizing m q with
  | nil => exact ⟨rfl, h⟩
  | cons operation rest ih =>
    obtain ⟨hanswer, hnext⟩ := h.step (hproper operation List.mem_cons_self)
    obtain ⟨hanswers, hlast⟩ :=
      ih hnext fun later hlater => hproper later (List.mem_cons_of_mem _ hlater)
    refine ⟨?_, hlast⟩
    rw [Mailbox.run, FrameQueue.run, Operation.runAll, Operation.runAll]
    exact List.cons_eq_cons.2 ⟨hanswer, hanswers⟩

end Represents

/-- Operations on an empty ring are answered as by a queue of frames: a frame that is sent is
accepted exactly if there is room for it, and then becomes the last one; the frame that is
taken out is the first one; and no frame is held or accepted once the ring is given back. The
counters of the ring are those of the queue. -/
theorem run_eq_queue (capacity : Nat) (operations : List Operation)
    (hproper : ∀ operation ∈ operations, operation.Proper) :
    let (answers, m) := (new capacity).run operations
    let (expected, q) := (FrameQueue.new capacity).run operations
    answers = expected ∧ m.contents = q.frames.flatten ∧ m.unread = q.frames.length ∧
      m.used = q.size ∧ m.available = q.available ∧ m.sends = q.sends ∧
      (q.released = true → q.frames = []) := by
  obtain ⟨hanswers, hlast⟩ := (represents_new capacity).run hproper
  exact ⟨hanswers, hlast.stores.contents, hlast.unread, hlast.used, hlast.available, hlast.sends,
    hlast.frames_of_released⟩

/-- A frame whose bytes repeat behind its length field. -/
def sampleFrame (size : Nat) (byte : UInt8) : Bytes :=
  littleEndian 4 size ++ List.replicate (size - 4) byte

/-- Operations on a ring of 24 bytes: the header of the second frame is split by the end of
the ring. -/
def aroundTheEnd : List Operation :=
  [.sendFrame (sampleFrame 16 7), .receiveFrame, .sendFrame (sampleFrame 18 9),
    .send ⟨5, .task 6, .scheduler (.ping 1)⟩, .receiveFrame, .receive, .release,
    .sendFrame (sampleFrame 18 9)]

theorem run_eq_queue_aroundTheEnd :
    (∀ operation ∈ aroundTheEnd, operation.Proper) ∧
      ((new 24).run aroundTheEnd).1 =
        [.sent (.ok ()), .frame (.ok (some (sampleFrame 16 7))), .sent (.ok ()),
          .sent (.error .mailboxFull), .frame (.ok (some (sampleFrame 18 9))),
          .message (.ok none), .released, .sent (.error .mailboxFull)] := by
  have hproper : ∀ operation ∈ aroundTheEnd, operation.Proper := by decide
  refine ⟨hproper, (run_eq_queue 24 aroundTheEnd hproper).1.trans ?_⟩
  rfl

end Mailbox

end Microkernel
