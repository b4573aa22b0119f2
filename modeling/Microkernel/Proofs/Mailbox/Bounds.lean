/-
Mailboxes under arbitrary bytes.

A ring takes whatever bytes are sent: lengths that lie, frames that are shorter than a header, and
so counters that do not belong to the bytes behind them. The operations of `Mailbox` cut a
difference off at zero, and read a missing byte as zero. Here they are written once more with
operations that check (`Checked`): there is no result if a number falls below zero, if something is
divided by zero, or if a slice leaves its buffer.

* **`InBounds`**: what holds of the counters and offsets of a ring whatever its bytes are;
* **`InBounds.handle?`**: one request passes every check, and its result is in bounds again;
* **`Mailbox.handleAll_inBounds`**: so does any number of requests to a ring of any capacity.

Design notes: no check is made on sums, which stay below twice the size of a buffer. The bytes of a
frame that is taken out are read by `Message.decodeByIndex`, which checks for itself.
-/
import Microkernel.Proofs.Checked
import Microkernel.Proofs.Mailbox.Matching

namespace Microkernel

open Checked

namespace Message

/-- Writes the fields of a message over an empty header in front of the payload. -/
def encodeByIndex (m : Message) : Option (Except Error Bytes) :=
  match m.body.payload with
  | .error e => some (.error e)
  | .ok payload => do
    let frame := (List.replicate headerSize 0 ++ payload).toArray
    let header := m.header payload.length
    let frame ← fill frame 0 4 (littleEndian 4 header.length)
    let frame ← fill frame 4 8 (littleEndian 4 header.sender)
    let frame ← fill frame 8 12 (littleEndian 4 header.recipient)
    let frame ← fill frame 12 13 (littleEndian 1 header.space)
    let frame ← fill frame 13 14 (littleEndian 1 header.recipientKind)
    let frame ← fill frame 14 16 (littleEndian 2 header.kind)
    return .ok frame.toList

end Message

namespace Mailbox

/-- Writes bytes from `offset` on. What has no room up to the end goes to the start. -/
def writeAt? (buffer : Array UInt8) (offset : Nat) (bytes : Bytes) : Option (Array UInt8) := do
  let untilEnd ← sub buffer.size offset
  if untilEnd < bytes.length then
    let buffer ← fill buffer offset buffer.size (bytes.take untilEnd)
    fill buffer 0 (bytes.length - untilEnd) (bytes.drop untilEnd)
  else
    fill buffer offset (offset + bytes.length) bytes

/-- The `count` bytes from `offset` on. What is not there up to the end is at the start. -/
def copyOut? (m : Mailbox) (offset count : Nat) : Option Bytes := do
  let untilEnd ← sub m.capacity offset
  if untilEnd < count then
    let tail ← slice m.buffer offset m.capacity
    let rest ← slice m.buffer 0 (count - untilEnd)
    return tail ++ rest
  else
    slice m.buffer offset (offset + count)

/-- Appends a frame to the ring. -/
def push? (m : Mailbox) (frame : Bytes) : Option (Except Error Mailbox) := do
  let available ← sub m.capacity m.used
  if available < frame.length ∨ frame.isEmpty then
    return .error .mailboxFull
  else
    let buffer ← writeAt? m.buffer m.writeOffset frame
    let writeOffset ← mod (m.writeOffset + frame.length) m.capacity
    return .ok { m with
      buffer, writeOffset, used := m.used + frame.length, unread := m.unread + 1 }

/-- Accepts an encoded frame. -/
def sendFrame? (m : Mailbox) (frame : Bytes) : Option (Except Error Mailbox) := do
  match ← m.push? frame with
  | .error e => return .error e
  | .ok m => return .ok { m with sends := m.sends + 1 }

/-- Encodes a message and accepts its frame. -/
def send? (m : Mailbox) (message : Message) : Option (Except Error Mailbox) := do
  match ← message.encodeByIndex with
  | .error e => return .error e
  | .ok frame => m.sendFrame? frame

/-- Takes the oldest frame, if any frame waits. -/
def receiveFrame? (m : Mailbox) : Option (Except Error (Option Bytes) × Mailbox) :=
  if m.unread = 0 then
    return (.ok none, m)
  else if m.used < headerSize then
    return (.error .invalidQueueState, m)
  else do
    let header ← m.copyOut? m.readOffset headerSize
    match frameLength header with
    | .error _ => return (.error .invalidQueueState, m)
    | .ok length =>
      if m.used < length then
        return (.error .invalidQueueState, m)
      else
        let frame ← m.copyOut? m.readOffset length
        let readOffset ← mod (m.readOffset + length) m.capacity
        let used ← sub m.used length
        let unread ← sub m.unread 1
        return (.ok (some frame), { m with readOffset, used, unread })

/-- The message of a frame taken from a ring. -/
def decodeStored? (frame : Bytes) : Option (Except Error Message) := do
  match ← (Message.decodeByIndex frame).run with
  | .error _ => return .error .invalidQueueState
  | .ok message => return .ok message

/-- Takes the oldest message, if any frame waits. -/
def receive? (m : Mailbox) : Option (Except Error (Option Message) × Mailbox) := do
  match ← m.receiveFrame? with
  | (.error e, m) => return (.error e, m)
  | (.ok none, m) => return (.ok none, m)
  | (.ok (some frame), m) =>
    match ← decodeStored? frame with
    | .error e => return (.error e, m)
    | .ok message => return (.ok (some message), m)

/-- Visits the next `pending` frames. -/
def cycle? (filter : Filter) :
    Nat → Option Message → Mailbox → Option (Except Error (Option Message) × Mailbox)
  | 0, found, m => return (.ok found, m)
  | pending + 1, found, m => do
    match ← m.receiveFrame? with
    | (.error e, m) => return (.error e, m)
    | (.ok none, m) => return (.error .invalidQueueState, m)
    | (.ok (some frame), m) =>
      match ← decodeStored? frame with
      | .error e => return (.error e, m)
      | .ok message =>
        if found.isNone && filter.accepts message then
          cycle? filter pending (some message) m
        else
          match ← m.push? frame with
          | .error e => return (.error e, m)
          | .ok m => cycle? filter pending found m

/-- Takes the oldest message that the filter accepts. -/
def receiveMatching? (m : Mailbox) (filter : Filter) :
    Option (Except Error (Option Message) × Mailbox) :=
  cycle? filter m.unread none m

/-- Answers one request. -/
def handle? (m : Mailbox) : Request → Option (Answer × Mailbox)
  | .operation (.send message) => return m.sentTo (← m.send? message)
  | .operation (.sendFrame frame) => return m.sentTo (← m.sendFrame? frame)
  | .operation .receiveFrame => return (← m.receiveFrame?).map .frame id
  | .operation .receive => return (← m.receive?).map .message id
  | .operation .release => return (.released, m.release)
  | .receiveMatching filter => return (← m.receiveMatching? filter).map .message id

/-- Answers requests one after the other. -/
def handleAll? (m : Mailbox) : List Request → Option (List Answer × Mailbox)
  | [] => return ([], m)
  | request :: rest => do
    let (answer, m) ← m.handle? request
    let (answers, m) ← m.handleAll? rest
    return (answer :: answers, m)

/-! ### Writing and reading within a buffer -/

/-- Bytes that stay in front of the end replace as many others. -/
theorem writeAt_toArray (front old back bytes : Bytes) (h : bytes.length = old.length) :
    writeAt (front ++ old ++ back).toArray front.length bytes =
      (front ++ bytes ++ back).toArray := by
  -- what is written joins the front
  induction bytes generalizing front old with
  | nil =>
    rw [List.length_nil] at h
    rw [List.length_eq_zero_iff.1 h.symm]
    rfl
  | cons b rest ih =>
    obtain ⟨o, old, rfl⟩ := List.exists_cons_of_length_eq_add_one h.symm
    have hlt : front.length < (front ++ o :: old ++ back).toArray.size := by
      simp
    have hset : (front ++ o :: old ++ back).set front.length b = front ++ [b] ++ old ++ back := by
      simp
    have hnext := ih (front ++ [b]) old (Nat.succ.inj h)
    rw [List.length_append, List.length_singleton] at hnext
    rw [writeAt, Nat.mod_eq_of_lt hlt, List.setIfInBounds_toArray, hset, hnext,
      List.append_assoc front, List.singleton_append]

theorem writeAt_append (buffer : Array UInt8) (offset : Nat) (front back : Bytes) :
    writeAt buffer offset (front ++ back) =
      writeAt (writeAt buffer offset front) (offset + front.length) back := by
  induction front generalizing buffer offset with
  | nil => rfl
  | cons b rest ih =>
    have hnext : offset + 1 + rest.length = offset + (b :: rest).length := by
      rw [List.length_cons]
      omega
    rw [List.cons_append, writeAt, writeAt, ih, hnext]

/-- Going once around the buffer leads back. -/
theorem writeAt_add_size (buffer : Array UInt8) (offset : Nat) (bytes : Bytes) :
    writeAt buffer (offset + buffer.size) bytes = writeAt buffer offset bytes := by
  induction bytes generalizing buffer offset with
  | nil => rfl
  | cons b rest ih =>
    have hnext := ih (buffer.setIfInBounds (offset % buffer.size) b) (offset + 1)
    rw [Array.size_setIfInBounds, Nat.add_right_comm] at hnext
    rw [writeAt, Nat.add_mod_right, hnext, writeAt]

theorem fill_eq {buffer : Array UInt8} {start stop : Nat} {bytes : Bytes}
    (hstop : start + bytes.length = stop) (h : stop ≤ buffer.size) :
    fill buffer start stop bytes = some (writeAt buffer start bytes) := by
  obtain ⟨list⟩ := buffer
  subst hstop
  rw [List.size_toArray] at h
  have hfront : (list.take start).length = start := by
    rw [List.length_take]
    omega
  have hold : bytes.length = ((list.drop start).take bytes.length).length := by
    rw [List.length_take, List.length_drop]
    omega
  have hsplit : list.take start ++ (list.drop start).take bytes.length ++
      list.drop (start + bytes.length) = list := by
    rw [List.append_assoc, ← List.drop_drop, List.take_append_drop, List.take_append_drop]
  have hwrite := writeAt_toArray (list.take start) _ (list.drop (start + bytes.length)) bytes hold
  rw [hsplit, hfront] at hwrite
  rw [hwrite, fill, List.size_toArray]
  exact if_pos ⟨Nat.le_add_right _ _, h, (Nat.add_sub_cancel_left _ _).symm⟩

theorem writeAt?_eq {buffer : Array UInt8} {offset : Nat} {bytes : Bytes}
    (hoffset : offset ≤ buffer.size) (hbytes : bytes.length ≤ buffer.size) :
    writeAt? buffer offset bytes = some (writeAt buffer offset bytes) := by
  simp only [writeAt?, sub_of_le hoffset, Option.bind_eq_bind, Option.bind_some]
  split
  · rename_i hsplit
    have htail : offset + (bytes.take (buffer.size - offset)).length = buffer.size := by
      rw [List.length_take]
      omega
    have hrest : 0 + (bytes.drop (buffer.size - offset)).length =
        bytes.length - (buffer.size - offset) := by
      rw [List.length_drop, Nat.zero_add]
    -- the second part is written to the start, where the first one would go on
    rw [fill_eq htail (Nat.le_refl _), Option.bind_some,
      fill_eq hrest (by rw [size_writeAt]; omega), ← writeAt_add_size, size_writeAt, Nat.zero_add]
    have hwhole := writeAt_append buffer offset (bytes.take (buffer.size - offset))
      (bytes.drop (buffer.size - offset))
    rw [List.take_append_drop, htail] at hwhole
    rw [hwhole]
  · exact fill_eq rfl (by omega)

variable {m : Mailbox}

theorem slice_eq {start count : Nat} (h : start + count ≤ m.capacity) :
    slice m.buffer start (start + count) = some (m.copyOut start count) := by
  rw [slice_eq_map (show start + count ≤ m.buffer.size from h), copyOut]
  congr 1
  -- no place is behind the end
  refine List.map_congr_left fun k hk => ?_
  rw [List.mem_range] at hk
  rw [byteAt, Nat.mod_eq_of_lt (by omega)]

theorem copyOut?_eq {offset count : Nat} (hoffset : offset ≤ m.capacity)
    (hcount : count ≤ m.capacity) : m.copyOut? offset count = some (m.copyOut offset count) := by
  simp only [copyOut?, sub_of_le hoffset, Option.bind_eq_bind, Option.bind_some]
  split
  · rename_i hsplit
    have hend : offset + (m.capacity - offset) = m.capacity := Nat.add_sub_of_le hoffset
    have htail := slice_eq (Nat.le_of_eq hend)
    have hrest : slice m.buffer 0 (0 + (count - (m.capacity - offset))) =
        some (m.copyOut 0 (count - (m.capacity - offset))) := slice_eq (by omega)
    have hwhole := copyOut_add (m := m) offset (m.capacity - offset)
      (count - (m.capacity - offset))
    -- the end of the buffer is its start
    rw [Nat.add_sub_of_le (Nat.le_of_lt hsplit), hend, ← copyOut_mod m.capacity, Nat.mod_self]
      at hwhole
    rw [hend] at htail
    rw [Nat.zero_add] at hrest
    rw [htail, hrest, hwhole]
    rfl
  · exact slice_eq (by omega)

end Mailbox

/-! ### Encoding and decoding -/

/-- Every field is written within the header. -/
theorem Message.encodeByIndex_eq (m : Message) : m.encodeByIndex = some m.encode := by
  rw [encodeByIndex, encode]
  cases m.body.payload with
  | error e => rfl
  | ok payload => simp [fill, headerSize, Header.bytes]

namespace Mailbox

theorem decodeStored?_eq (frame : Bytes) : decodeStored? frame = some (decodeStored frame) := by
  rw [decodeStored?, Message.decodeByIndex_eq, Message.decode, decodeStored]
  cases Message.decode? frame with
  | none => rfl
  | some message => rfl

/-! ### Rings in bounds -/

/-- A place in a buffer, or the start of an empty one. -/
def IsOffset (capacity offset : Nat) : Prop :=
  offset < capacity ∨ offset = 0 ∧ capacity = 0

theorem IsOffset.le {capacity offset : Nat} (h : IsOffset capacity offset) : offset ≤ capacity := by
  rcases h with h | h <;> omega

theorem IsOffset.add_mod {capacity offset count : Nat} (h : IsOffset capacity offset)
    (hcount : count ≤ capacity) : IsOffset capacity ((offset + count) % capacity) := by
  rcases h with hlt | ⟨rfl, rfl⟩
  · exact .inl (Nat.mod_lt _ (by omega))
  · rw [Nat.le_zero.1 hcount]
    exact .inr ⟨rfl, rfl⟩

/-- The count of bytes and the offsets are those of a ring of this capacity. -/
structure InBounds (m : Mailbox) : Prop where
  used : m.used ≤ m.capacity
  readOffset : IsOffset m.capacity m.readOffset
  writeOffset : m.writeOffset = (m.readOffset + m.used) % m.capacity

theorem inBounds_new (capacity : Nat) : (new capacity).InBounds where
  used := Nat.zero_le _
  readOffset := by
    rw [capacity_new]
    exact capacity.eq_zero_or_pos.elim (fun h => .inr ⟨rfl, h⟩) .inl
  writeOffset := by simp [new]

theorem inBounds_release (m : Mailbox) : m.release.InBounds where
  used := Nat.le_refl _
  readOffset := .inr ⟨rfl, rfl⟩
  writeOffset := rfl

variable {m : Mailbox}

theorem le_used_of_nextLength {length : Nat} (h : m.nextLength = .ok length) :
    length ≤ m.used := by
  rw [nextLength] at h
  split at h
  · cases h
  · split at h
    · cases h
    · split at h
      · cases h
      · cases h
        omega

/-- A receive that fails takes nothing. -/
theorem receiveFrame_error {m' : Mailbox} {e : Error} (h : m.receiveFrame = (.error e, m')) :
    m' = m := by
  rw [receiveFrame] at h
  split at h
  · cases h
  · cases hnext : m.nextLength with
    | error e' =>
      rw [hnext] at h
      cases h
      rfl
    | ok length =>
      rw [hnext] at h
      cases h

theorem receive_snd (m : Mailbox) : m.receive.2 = m.receiveFrame.2 := by
  rw [Mailbox.receive]
  rcases m.receiveFrame with ⟨_ | _ | frame, next⟩
  · rfl
  · rfl
  · dsimp only
    cases decodeStored frame with
    | error e => rfl
    | ok message => rfl

namespace InBounds

theorem isOffset_writeOffset (h : m.InBounds) : IsOffset m.capacity m.writeOffset := by
  rw [h.writeOffset]
  exact h.readOffset.add_mod h.used

theorem push? (h : m.InBounds) (frame : Bytes) : m.push? frame = some (m.push frame) := by
  rw [Mailbox.push?, sub_of_le h.used, Option.bind_eq_bind, Option.bind_some, Mailbox.push,
    available]
  by_cases hfull : m.capacity - m.used < frame.length ∨ frame.isEmpty = true
  · rw [if_pos hfull, if_pos hfull]
    rfl
  · have hpos : 0 < frame.length := by
      refine List.length_pos_iff.2 ?_
      rintro rfl
      exact hfull (.inr rfl)
    have hfits : frame.length ≤ m.capacity := by omega
    rw [if_neg hfull, if_neg hfull, writeAt?_eq h.isOffset_writeOffset.le hfits,
      mod_of_pos (by omega)]
    rfl

theorem push (h : m.InBounds) {frame : Bytes} {m' : Mailbox} (hp : m.push frame = .ok m') :
    m'.InBounds := by
  obtain ⟨hroom, -, rfl⟩ := push_eq_ok hp
  have hused := h.used
  rw [available] at hroom
  refine ⟨?_, ?_, ?_⟩ <;> rw [capacity_pushed]
  · simp only [pushed]
    omega
  · exact h.readOffset
  · exact writeOffset_pushed h.writeOffset frame

theorem drop (h : m.InBounds) {length : Nat} (hlength : length ≤ m.used) :
    (m.drop length).InBounds where
  used := Nat.le_trans (Nat.sub_le _ _) h.used
  readOffset := h.readOffset.add_mod (Nat.le_trans hlength h.used)
  writeOffset := writeOffset_drop h.writeOffset hlength

theorem receiveFrame? (h : m.InBounds) : m.receiveFrame? = some m.receiveFrame := by
  have hused := h.used
  rw [Mailbox.receiveFrame?, Mailbox.receiveFrame, nextLength]
  split
  · rfl
  · rename_i hunread
    split
    · rfl
    · rename_i hheader
      -- neither the header nor the frame is longer than the used bytes
      rw [copyOut?_eq h.readOffset.le (by omega), Option.bind_eq_bind, Option.bind_some]
      cases frameLength (m.copyOut m.readOffset headerSize) with
      | error e => rfl
      | ok length =>
        dsimp only
        split
        · rfl
        · rename_i hlength
          have hpos : 0 < m.capacity := by
            rw [headerSize] at hheader
            omega
          rw [copyOut?_eq h.readOffset.le (by omega), mod_of_pos hpos, sub_of_le (by omega),
            sub_of_le (by omega)]
          rfl

theorem receiveFrame (h : m.InBounds) : m.receiveFrame.2.InBounds := by
  rw [Mailbox.receiveFrame]
  split
  · exact h
  · cases hnext : m.nextLength with
    | error e => exact h
    | ok length => exact h.drop (le_used_of_nextLength hnext)

theorem sendFrame? (h : m.InBounds) (frame : Bytes) :
    m.sendFrame? frame = some (m.sendFrame frame) := by
  rw [Mailbox.sendFrame?, h.push?, Mailbox.sendFrame]
  cases m.push frame with
  | error e => rfl
  | ok m' => rfl

theorem send? (h : m.InBounds) (message : Message) : m.send? message = some (m.send message) := by
  rw [Mailbox.send?, Message.encodeByIndex_eq, Mailbox.send]
  cases message.encode with
  | error e => rfl
  | ok frame => exact h.sendFrame? frame

theorem sendFrame (h : m.InBounds) (frame : Bytes) :
    (m.sentTo (m.sendFrame frame)).2.InBounds := by
  rw [Mailbox.sendFrame]
  cases hpush : m.push frame with
  | error e => exact h
  | ok m' =>
    have hpushed := h.push hpush
    exact ⟨hpushed.used, hpushed.readOffset, hpushed.writeOffset⟩

theorem send (h : m.InBounds) (message : Message) :
    (m.sentTo (m.send message)).2.InBounds := by
  rw [Mailbox.send]
  cases message.encode with
  | error e => exact h
  | ok frame => exact h.sendFrame frame

theorem receive? (h : m.InBounds) : m.receive? = some m.receive := by
  rw [Mailbox.receive?, h.receiveFrame?, Mailbox.receive, Option.bind_eq_bind, Option.bind_some]
  rcases m.receiveFrame with ⟨_ | _ | frame, next⟩
  · rfl
  · rfl
  · dsimp only
    rw [decodeStored?_eq]
    cases decodeStored frame with
    | error e => rfl
    | ok message => rfl

/-- Whatever is found in the frames, a visit to them makes no wrong step. -/
theorem cycle? (h : m.InBounds) (filter : Filter) (pending : Nat) (found : Option Message) :
    Mailbox.cycle? filter pending found m = some (Mailbox.cycle filter pending found m) ∧
      (Mailbox.cycle filter pending found m).2.InBounds := by
  -- nothing is known of the frames, so `pending` may well exceed what can be read
  induction pending generalizing m found with
  | zero => exact ⟨rfl, h⟩
  | succ pending ih =>
    have hnext := h.receiveFrame
    rw [Mailbox.cycle?, h.receiveFrame?, Mailbox.cycle, Option.bind_eq_bind, Option.bind_some]
    generalize m.receiveFrame = received at hnext ⊢
    rcases received with ⟨_ | _ | frame, next⟩
    · exact ⟨rfl, hnext⟩
    · exact ⟨rfl, hnext⟩
    · dsimp only at hnext ⊢
      rw [decodeStored?_eq, Option.bind_eq_bind, Option.bind_some]
      cases decodeStored frame with
      | error e => exact ⟨rfl, hnext⟩
      | ok message =>
        dsimp only
        split
        · exact ih hnext _
        · rw [hnext.push?, Option.bind_eq_bind, Option.bind_some]
          cases hpush : next.push frame with
          | error e => exact ⟨rfl, hnext⟩
          | ok m' => exact ih (hnext.push hpush) _

/-- One request passes every check, and leaves a ring in bounds. -/
theorem handle? (h : m.InBounds) (request : Request) :
    m.handle? request = some (m.handle request) ∧ (m.handle request).2.InBounds := by
  cases request with
  | receiveMatching filter =>
    obtain ⟨hchecked, hnext⟩ := h.cycle? filter m.unread none
    rw [Mailbox.handle?, receiveMatching?, hchecked]
    exact ⟨rfl, hnext⟩
  | operation operation =>
    cases operation with
    | send message =>
      rw [Mailbox.handle?, h.send?]
      exact ⟨rfl, h.send message⟩
    | sendFrame frame =>
      rw [Mailbox.handle?, h.sendFrame?]
      exact ⟨rfl, h.sendFrame frame⟩
    | receiveFrame =>
      rw [Mailbox.handle?, h.receiveFrame?]
      exact ⟨rfl, h.receiveFrame⟩
    | receive =>
      rw [Mailbox.handle?, h.receive?]
      refine ⟨rfl, ?_⟩
      have hnext := h.receiveFrame
      rw [← receive_snd] at hnext
      exact hnext
    | release => exact ⟨rfl, inBounds_release m⟩

theorem handleAll? (h : m.InBounds) (requests : List Request) :
    m.handleAll? requests = some (m.handleAll requests) ∧ (m.handleAll requests).2.InBounds := by
  induction requests generalizing m with
  | nil => exact ⟨rfl, h⟩
  | cons request rest ih =>
    obtain ⟨hchecked, hnext⟩ := h.handle? request
    obtain ⟨hrest, hlast⟩ := ih hnext
    rw [Mailbox.handleAll?, hchecked, Option.bind_eq_bind, Option.bind_some]
    dsimp only
    rw [hrest]
    exact ⟨rfl, hlast⟩

end InBounds

/-- A ring of any capacity takes any requests, with any bytes in them, and passes every check: no
slice leaves its buffer, nothing is divided by zero, and no counter falls below zero. Its counter of
bytes and its offsets stay those of a ring of its capacity, and a receive that fails leaves it as it
was. -/
theorem handleAll_inBounds (capacity : Nat) (requests : List Request) :
    let last := ((new capacity).handleAll requests).2
    (new capacity).handleAll? requests = some ((new capacity).handleAll requests) ∧
      last.used ≤ last.capacity ∧
      IsOffset last.capacity last.readOffset ∧ IsOffset last.capacity last.writeOffset ∧
      last.writeOffset = (last.readOffset + last.used) % last.capacity ∧
      ∀ e m', last.receiveFrame = (.error e, m') → m' = last := by
  obtain ⟨hchecked, hlast⟩ := (inBounds_new capacity).handleAll? requests
  exact ⟨hchecked, hlast.used, hlast.readOffset, hlast.isOffset_writeOffset, hlast.writeOffset,
    fun _ _ => receiveFrame_error⟩

/-- A length that lies: the only frame has 16 bytes and is said to have 17. -/
example : ((new 20).handleAll [.operation (.sendFrame (17 :: List.replicate 15 0)),
      .operation .receiveFrame, .operation .receiveFrame]).1 =
    [.sent (.ok ()), .frame (.error .invalidQueueState), .frame (.error .invalidQueueState)] := rfl

end Mailbox

end Microkernel
