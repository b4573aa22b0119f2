/-
Receiving with a filter.

`Mailbox.Request` is whatever can be asked of a mailbox: an operation of the queue of its frames, or
a receive with a filter. The ring answers the latter by taking every frame out and putting all but
one of them back, while the queue just drops the frame from its midst (`FrameQueue.pick`).

* **`Extracts`**: what is to become of the messages that wait: the first one that is accepted leaves
  them, and the others stay in their order;
* **`Serves.handle`**: the ring answers a request as its queue does, and goes on serving it;
* **`Mailbox.receiveMatching_extracts`**: a receive with a filter, after any requests, extracts the
  first message that is accepted, and any later requests find the ring without it.

Design notes: `Mailbox.Represents` also holds of frames that are no messages. A receive with a
filter reads every frame on its way, so here all frames of the queue are messages (`Serves`).
-/
import Microkernel.Proofs.Mailbox.Queue
import Microkernel.Proofs.Message.Grammar

namespace Microkernel

/-- What a receive answers and leaves of the messages that wait. -/
inductive Extracts (filter : Filter) : List Message → Option Message → List Message → Prop where
  | nothing {waiting : List Message} (h : ∀ m ∈ waiting, filter.accepts m = false) :
    Extracts filter waiting none waiting
  | first {earlier : List Message} {message : Message} (later : List Message)
    (hearlier : ∀ m ∈ earlier, filter.accepts m = false)
    (h : filter.accepts message = true) :
    Extracts filter (earlier ++ message :: later) (some message) (earlier ++ later)

theorem extracts_find? (filter : Filter) (waiting : List Message) :
    Extracts filter waiting (waiting.find? filter.accepts) (waiting.eraseP filter.accepts) := by
  cases hfind : waiting.find? filter.accepts with
  | none =>
    have hnone := List.find?_eq_none.1 hfind
    rw [List.eraseP_of_forall_not hnone]
    exact .nothing fun m hm => Bool.eq_false_iff.2 (hnone m hm)
  | some message =>
    obtain ⟨haccepts, earlier, later, rfl, hearlier⟩ := List.find?_eq_some_iff_append.1 hfind
    have hrefused : ∀ m ∈ earlier, filter.accepts m = false := by simpa using hearlier
    rw [List.eraseP_append_right _ fun m hm => Bool.eq_false_iff.1 (hrefused m hm),
      List.eraseP_cons_of_pos haccepts]
    exact .first later hrefused haccepts

namespace Mailbox

/-- Anything that is asked of a mailbox. -/
inductive Request where
  | operation (operation : Operation)
  | receiveMatching (filter : Filter)

/-- A frame that is sent as it is is that of a message. -/
def Request.Lawful : Request → Prop
  | operation (.sendFrame frame) => (Message.decode? frame).isSome = true
  | operation (.send _) | operation .receiveFrame | operation .receive | operation .release
  | receiveMatching _ => True

instance : DecidablePred Request.Lawful
  | .operation (.sendFrame frame) => inferInstanceAs (Decidable ((Message.decode? frame).isSome = _))
  | .operation (.send _) | .operation .receiveFrame | .operation .receive | .operation .release
  | .receiveMatching _ => .isTrue trivial

/-- The answers to requests that come one after the other, and where they lead. -/
def Request.handleAll {σ : Type} (handle : σ → Request → Answer × σ) (s : σ) :
    List Request → List Answer × σ
  | [] => ([], s)
  | request :: rest =>
    let (answer, s) := handle s request
    let (answers, s) := handleAll handle s rest
    (answer :: answers, s)

/-- Answers one request. -/
def handle (m : Mailbox) : Request → Answer × Mailbox
  | .operation operation => m.step operation
  | .receiveMatching filter => (m.receiveMatching filter).map .message id

/-- Answers requests one after the other. -/
def handleAll (m : Mailbox) (requests : List Request) : List Answer × Mailbox :=
  Request.handleAll handle m requests

end Mailbox

namespace FrameQueue

open Mailbox (Request Answer picks)

/-- The messages that wait, oldest first. -/
def messages (q : FrameQueue) : List Message :=
  q.frames.filterMap Message.decode?

/-- The queue without the first frame whose message the filter accepts. -/
def without (q : FrameQueue) (filter : Filter) : FrameQueue :=
  { q with frames := q.frames.eraseP (picks filter) }

/-- Answers one request. -/
def handle (q : FrameQueue) : Request → Answer × FrameQueue
  | .operation operation => q.step operation
  | .receiveMatching filter =>
    (.message (.ok (q.messages.find? filter.accepts)), q.without filter)

/-- Answers requests one after the other. -/
def handleAll (q : FrameQueue) (requests : List Request) : List Answer × FrameQueue :=
  Request.handleAll handle q requests

/-- Every frame is that of a message. -/
def Readable (q : FrameQueue) : Prop :=
  ∀ frame ∈ q.frames, (Message.decode? frame).isSome = true

variable {q : FrameQueue}

theorem messages_without (filter : Filter) :
    (q.without filter).messages = q.messages.eraseP filter.accepts :=
  Mailbox.filterMap_eraseP_picks filter q.frames

theorem Readable.length_messages (h : q.Readable) : q.messages.length = q.frames.length := by
  rw [messages, List.length_filterMap_eq_countP, List.countP_eq_length]
  exact h

theorem Readable.without (h : q.Readable) (filter : Filter) : (q.without filter).Readable :=
  fun frame hframe => h frame (List.eraseP_subset hframe)

theorem Readable.offer (h : q.Readable) {frame : Bytes}
    (hframe : (Message.decode? frame).isSome = true) : (q.offer frame).2.Readable := by
  rw [FrameQueue.offer]
  split
  · intro f hf
    rcases List.mem_append.1 hf with hf | hf
    · exact h f hf
    · rw [List.mem_singleton.1 hf]
      exact hframe
  · exact h

theorem Readable.handle (h : q.Readable) {request : Request} (hlawful : request.Lawful) :
    (q.handle request).2.Readable := by
  have htail : ∀ frame ∈ q.frames.tail, (Message.decode? frame).isSome = true :=
    fun frame hframe => h frame (List.mem_of_mem_tail hframe)
  cases request with
  | receiveMatching filter => exact h.without filter
  | operation operation =>
    cases operation with
    | send message =>
      rw [FrameQueue.handle, FrameQueue.step]
      cases hencode : message.encode with
      | error e => exact h
      | ok frame => exact h.offer (Option.isSome_of_mem (Message.decode?_of_encode hencode))
    | sendFrame frame => exact h.offer hlawful
    | receiveFrame | receive => exact htail
    | release => exact fun frame hframe => absurd hframe List.not_mem_nil

end FrameQueue

namespace Mailbox

/-- The ring holds the queue, and every frame is that of a message. -/
structure Serves (m : Mailbox) (q : FrameQueue) : Prop extends m.Represents q where
  readable : q.Readable

theorem serves_new (capacity : Nat) : (new capacity).Serves (.new capacity) where
  toRepresents := represents_new capacity
  readable _ hframe := absurd hframe List.not_mem_nil

/-- A frame that decodes tells its own length. -/
theorem proper_of_decode? {frame : Bytes} (h : (Message.decode? frame).isSome = true) :
    (Operation.sendFrame frame).Proper := by
  have hframe := Message.isSome_decode?_iff.1 h
  exact ⟨hframe.minLength, hframe.maxLength, hframe.length⟩

theorem Request.Lawful.proper {operation : Operation} (h : (Request.operation operation).Lawful) :
    operation.Proper := by
  cases operation with
  | sendFrame frame => exact proper_of_decode? h
  | send _ | receiveFrame | receive | release => trivial

namespace Serves

variable {m : Mailbox} {q : FrameQueue}

theorem receiveMatching (h : m.Serves q) (filter : Filter) :
    ∃ m', m.receiveMatching filter = (.ok (q.messages.find? filter.accepts), m') ∧
      m'.Serves (q.without filter) := by
  obtain ⟨m', hreceive, hstores, hcapacity, hsends⟩ := h.stores.receiveMatching h.readable filter
  exact ⟨m', hreceive, ⟨hstores, hcapacity.trans h.capacity, hsends.trans h.sends⟩,
    h.readable.without filter⟩

/-- The ring answers a request as its queue does, and goes on serving it. -/
theorem handle (h : m.Serves q) {request : Request} (hlawful : request.Lawful) :
    (m.handle request).1 = (q.handle request).1 ∧
      (m.handle request).2.Serves (q.handle request).2 := by
  have hreadable := h.readable.handle hlawful
  cases request with
  | operation operation =>
    obtain ⟨hanswer, hnext⟩ := h.toRepresents.step hlawful.proper
    exact ⟨hanswer, hnext, hreadable⟩
  | receiveMatching filter =>
    obtain ⟨m', hreceive, hserves⟩ := h.receiveMatching filter
    rw [Mailbox.handle, hreceive]
    exact ⟨rfl, hserves⟩

theorem handleAll (h : m.Serves q) {requests : List Request}
    (hlawful : ∀ request ∈ requests, request.Lawful) :
    (m.handleAll requests).1 = (q.handleAll requests).1 ∧
      (m.handleAll requests).2.Serves (q.handleAll requests).2 := by
  induction requests generalizing m q with
  | nil => exact ⟨rfl, h⟩
  | cons request rest ih =>
    obtain ⟨hanswer, hnext⟩ := h.handle (hlawful request List.mem_cons_self)
    obtain ⟨hanswers, hlast⟩ :=
      ih hnext fun later hlater => hlawful later (List.mem_cons_of_mem _ hlater)
    exact ⟨List.cons_eq_cons.2 ⟨hanswer, hanswers⟩, hlast⟩

end Serves

/-- A receive with a filter never fails. Of the messages that wait, it answers the first one that
the filter accepts, and leaves all others in their order; the counters of the ring are those of what
is left, nothing counts as sent, and later requests are answered from what is left. -/
theorem receiveMatching_extracts (capacity : Nat) (before after : List Request) (filter : Filter)
    (hlawful : ∀ request ∈ before ++ after, request.Lawful) :
    let m := ((new capacity).handleAll before).2
    let q := ((FrameQueue.new capacity).handleAll before).2
    let left := q.without filter
    m.contents = q.frames.flatten ∧
      ∃ answer m', m.receiveMatching filter = (.ok answer, m') ∧
        Extracts filter q.messages answer left.messages ∧
        m'.contents = left.frames.flatten ∧ m'.used = left.size ∧
        m'.unread = left.messages.length ∧ m'.sends = m.sends ∧
        (m'.handleAll after).1 = (left.handleAll after).1 := by
  have hbefore : ∀ request ∈ before, request.Lawful :=
    fun request hin => hlawful request (List.mem_append_left _ hin)
  have hafter : ∀ request ∈ after, request.Lawful :=
    fun request hin => hlawful request (List.mem_append_right _ hin)
  -- the ring serves its queue before the receive, and what is left of the queue after it
  have hserves := ((serves_new capacity).handleAll hbefore).2
  obtain ⟨m', hreceive, hleft⟩ := hserves.receiveMatching filter
  refine ⟨hserves.stores.contents, _, m', hreceive, ?_, hleft.stores.contents, hleft.used, ?_,
    hleft.sends.trans hserves.sends.symm, (hleft.handleAll hafter).1⟩
  · rw [FrameQueue.messages_without]
    exact extracts_find? filter _
  · rw [hleft.readable.length_messages]
    exact hleft.unread

/-- A message with data that no task reads. -/
def sampleMessage (kind : UInt16) (data : Bytes) : Message :=
  ⟨5, .task 6, .verbatim .vfs kind data⟩

/-- Requests that fill a ring of 33 bytes to the last one, with a frame across its end. -/
def fullRing : List Request :=
  [.operation (.send (sampleMessage 1 [])), .operation .receive,
    .operation (.send (sampleMessage 2 [])), .operation (.send (sampleMessage 3 [7]))]

theorem receiveMatching_extracts_fullRing :
    (∀ request ∈ fullRing ++ [.operation .receive], request.Lawful) ∧
      ((new 33).handleAll fullRing).2.available = 0 ∧
      ∃ m', ((new 33).handleAll fullRing).2.receiveMatching ⟨.vfs, some 3⟩ =
          (.ok (some (sampleMessage 3 [7])), m') ∧
        m'.used = 16 ∧ m'.unread = 1 ∧
        (m'.handleAll [.operation .receive]).1 = [.message (.ok (some (sampleMessage 2 [])))] := by
  have hlawful : ∀ request ∈ fullRing ++ [.operation .receive], request.Lawful := by decide
  obtain ⟨-, answer, m', hreceive, -, -, hused, hunread, -, hanswers⟩ :=
    receiveMatching_extracts 33 fullRing [.operation .receive] ⟨.vfs, some 3⟩ hlawful
  have hfind : ((FrameQueue.new 33).handleAll fullRing).2.messages.find?
      (Filter.accepts ⟨.vfs, some 3⟩) = some (sampleMessage 3 [7]) := by
    decide
  have hserves := ((serves_new 33).handleAll
    fun request hin => hlawful request (List.mem_append_left _ hin)).2
  obtain ⟨_, hfound, -⟩ := hserves.receiveMatching ⟨.vfs, some 3⟩
  rw [hfind, hreceive] at hfound
  cases hfound
  exact ⟨hlawful, rfl, m', hreceive, hused, hunread, hanswers⟩

end Mailbox

end Microkernel
