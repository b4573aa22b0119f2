/-
A mailbox is a queue of frames.

`m.Stores frames` says that the used bytes of the ring are the given frames, one behind the
other: the counters, both offsets and the bytes are those of `frames`, and every frame tells
its own length.

* **`Stores.push`**: a frame that is accepted becomes the last one;
* **`Stores.receiveFrame`**: the frame that is taken out is the first one, byte for byte;
* **`Stores.receiveMatching`**: a receive with a filter visits all frames (`Stores.cycle`), takes
  out the first one that is accepted and leaves the others in their order.

`m.messages` is the view of a mailbox that holds nothing but messages (`Sound`), and
**`Sound.send_ok`**, **`Sound.send_error`** and **`Sound.takeMessage`** describe the operations
of a task's mailbox by it.

Design notes: statements about bytes are about `byteAt`, which counts from an offset and never
sees the end of the buffer.
-/
import Microkernel.Proofs.Message.WireForm
import Microkernel.Scheduler.Basic

namespace Microkernel.Mailbox

/-! ### Bytes of the ring -/

@[simp] theorem size_writeAt (buffer : Array UInt8) (offset : Nat) (bytes : Bytes) :
    (writeAt buffer offset bytes).size = buffer.size := by
  induction bytes generalizing buffer offset with
  | nil => rfl
  | cons b rest ih => rw [writeAt, ih, Array.size_setIfInBounds]

theorem add_mod_ne {c k : Nat} (offset : Nat) (h0 : 0 < k) (hk : k < c) :
    (offset + k) % c ≠ offset % c := by
  have hmod : offset % c < c := Nat.mod_lt _ (by omega)
  rw [← Nat.mod_add_mod]
  -- the sum wraps around at most once
  by_cases hlt : offset % c + k < c
  · rw [Nat.mod_eq_of_lt hlt]
    omega
  · rw [Nat.mod_eq_sub_mod (by omega), Nat.mod_eq_of_lt (by omega)]
    omega

/-- Bytes are written behind an offset, and nothing else changes. -/
theorem getD_writeAt (buffer : Array UInt8) (offset : Nat) (bytes : Bytes)
    (hfit : bytes.length ≤ buffer.size) (k : Nat) (hk : k < buffer.size) :
    (writeAt buffer offset bytes).getD ((offset + k) % buffer.size) 0 =
      if k < bytes.length then bytes.getD k 0
      else buffer.getD ((offset + k) % buffer.size) 0 := by
  induction bytes generalizing buffer offset k with
  | nil => rfl
  | cons b rest ih =>
    rw [List.length_cons] at hfit
    have hpos : 0 < buffer.size := by omega
    have hmod : offset % buffer.size < buffer.size := Nat.mod_lt _ hpos
    have hrest := ih (buffer.setIfInBounds (offset % buffer.size) b) (offset + 1)
    rw [Array.size_setIfInBounds] at hrest
    rw [writeAt]
    cases k with
    | zero =>
      -- the first place is the last one seen from the next offset
      have hlast := hrest (by omega) (buffer.size - 1) (by omega)
      have hround : offset + 1 + (buffer.size - 1) = offset + buffer.size := by omega
      rw [hround, Nat.add_mod_right, if_neg (by omega)] at hlast
      have hfirst : (offset + 0) % buffer.size = offset % buffer.size := rfl
      rw [hfirst, hlast, List.length_cons, if_pos (by omega)]
      simp [hmod]
    | succ k =>
      have hnext := hrest (by omega) k (by omega)
      have hshift : offset + 1 + k = offset + (k + 1) := by omega
      have hne := add_mod_ne offset (Nat.succ_pos k) hk
      rw [hshift] at hnext
      rw [hnext, List.length_cons]
      by_cases hlt : k < rest.length
      · rw [if_pos hlt, if_pos (by omega)]
        rfl
      · rw [if_neg hlt, if_neg (by omega)]
        simp [Array.getElem?_setIfInBounds_ne, hne.symm]

variable {m : Mailbox}

@[simp] theorem length_copyOut (offset count : Nat) :
    (m.copyOut offset count).length = count := by
  simp [copyOut]

theorem copyOut_add (offset a b : Nat) :
    m.copyOut offset (a + b) = m.copyOut offset a ++ m.copyOut (offset + a) b := by
  simp only [copyOut, List.range_add, List.map_append, List.map_map]
  congr 1
  refine List.map_congr_left fun i _ => ?_
  simp [byteAt, Nat.add_assoc]

theorem copyOut_mod (offset count : Nat) :
    m.copyOut (offset % m.capacity) count = m.copyOut offset count := by
  refine List.map_congr_left fun i _ => ?_
  simp [byteAt, Nat.mod_add_mod]

theorem take_copyOut {n count : Nat} (offset : Nat) (h : n ≤ count) :
    (m.copyOut offset count).take n = m.copyOut offset n := by
  obtain ⟨rest, rfl⟩ := Nat.exists_eq_add_of_le h
  rw [copyOut_add, List.take_left' (length_copyOut _ _)]

/-! ### The frames of a ring -/

/-- The header of a frame tells the length of the frame. -/
def Framed (frame : Bytes) : Prop :=
  headerSize ≤ frame.length ∧ frameLength (frame.take headerSize) = .ok frame.length

theorem Framed.ne_nil {frame : Bytes} (h : Framed frame) : frame ≠ [] := by
  rintro rfl
  exact absurd h.1 (by decide)

theorem framed_of_encode {message : Message} {frame : Bytes} (h : message.encode = .ok frame) :
    Framed frame := by
  have hlen := Message.frameLength_of_encode h []
  rw [List.append_nil] at hlen
  exact ⟨(Message.length_of_encode h).1, hlen⟩

/-- The used bytes are those of `frames`, in this order. -/
structure Stores (m : Mailbox) (frames : List Bytes) : Prop where
  used : m.used = frames.flatten.length
  unread : m.unread = frames.length
  fits : m.used ≤ m.capacity
  writeOffset : m.writeOffset = (m.readOffset + m.used) % m.capacity
  contents : m.contents = frames.flatten
  framed : ∀ frame ∈ frames, Framed frame

theorem stores_new (capacity : Nat) : (new capacity).Stores [] where
  used := rfl
  unread := rfl
  fits := Nat.zero_le _
  writeOffset := by simp [new]
  contents := rfl
  framed frame h := by cases h

theorem stores_release (m : Mailbox) : m.release.Stores [] where
  used := rfl
  unread := rfl
  fits := Nat.zero_le _
  writeOffset := rfl
  contents := rfl
  framed frame h := by cases h

/-- The ring with a frame behind the used bytes. -/
def pushed (m : Mailbox) (frame : Bytes) : Mailbox :=
  { m with
    buffer := writeAt m.buffer m.writeOffset frame
    writeOffset := (m.writeOffset + frame.length) % m.capacity
    used := m.used + frame.length
    unread := m.unread + 1 }

@[simp] theorem capacity_pushed (frame : Bytes) : (m.pushed frame).capacity = m.capacity :=
  size_writeAt _ _ _

/-- The used bytes reach up to the write offset again. -/
theorem writeOffset_pushed (h : m.writeOffset = (m.readOffset + m.used) % m.capacity)
    (frame : Bytes) :
    (m.pushed frame).writeOffset = (m.readOffset + (m.used + frame.length)) % m.capacity := by
  rw [pushed, h]
  dsimp only
  rw [Nat.mod_add_mod, Nat.add_assoc]

theorem writeOffset_drop (h : m.writeOffset = (m.readOffset + m.used) % m.capacity)
    {length : Nat} (hlength : length ≤ m.used) :
    (m.drop length).writeOffset =
      ((m.drop length).readOffset + (m.drop length).used) % m.capacity := by
  have hround : m.readOffset + length + (m.used - length) = m.readOffset + m.used := by omega
  rw [drop]
  dsimp only
  rw [Nat.mod_add_mod, hround, h]

theorem push_eq_ok {frame : Bytes} {m' : Mailbox} (h : m.push frame = .ok m') :
    frame.length ≤ m.available ∧ frame ≠ [] ∧ m' = m.pushed frame := by
  unfold push at h
  split at h
  · cases h
  · rename_i hfit
    cases h
    refine ⟨?_, ?_, rfl⟩
    · omega
    · rintro rfl
      exact hfit (.inr rfl)

/-- The filter accepts the message of the frame. -/
def picks (filter : Filter) (frame : Bytes) : Bool :=
  (Message.decode? frame).any filter.accepts

/-- The frame that is picked is that of the message which is accepted. -/
theorem filterMap_eraseP_picks (filter : Filter) (frames : List Bytes) :
    (frames.eraseP (picks filter)).filterMap Message.decode? =
      (frames.filterMap Message.decode?).eraseP filter.accepts := by
  rw [List.eraseP_filterMap]
  rfl

/-- Nothing is picked if no message is accepted. -/
theorem eraseP_picks_of_find? {filter : Filter} {frames : List Bytes}
    (h : (frames.filterMap Message.decode?).find? filter.accepts = none) :
    frames.eraseP (picks filter) = frames := by
  refine List.eraseP_of_forall_not fun frame hframe hpicks => ?_
  rw [picks] at hpicks
  cases hdecode : Message.decode? frame with
  | none =>
    rw [hdecode] at hpicks
    cases hpicks
  | some message =>
    rw [hdecode] at hpicks
    exact List.find?_eq_none.1 h message (List.mem_filterMap.2 ⟨frame, hframe, hdecode⟩) hpicks

namespace Stores

variable {frames : List Bytes} {frame : Bytes}

/-- The bytes in front of a new frame keep their places. -/
theorem byteAt_pushed_of_lt (h : m.Stores frames) (hroom : m.used + frame.length ≤ m.capacity)
    {i : Nat} (hi : i < m.used) :
    (m.pushed frame).byteAt m.readOffset i = m.byteAt m.readOffset i := by
  have hcap : m.buffer.size = m.capacity := rfl
  -- going on from the end of the used bytes leads around to their begin
  have hround : m.readOffset + m.used + (m.capacity - m.used + i) =
      m.readOffset + i + m.capacity := by omega
  have hplace : (m.writeOffset + (m.capacity - m.used + i)) % m.capacity =
      (m.readOffset + i) % m.capacity := by
    rw [h.writeOffset, Nat.mod_add_mod, hround, Nat.add_mod_right]
  have hbyte := getD_writeAt m.buffer m.writeOffset frame (by omega)
    (m.capacity - m.used + i) (by omega)
  rw [hcap, hplace, if_neg (by omega)] at hbyte
  rw [byteAt, capacity_pushed]
  exact hbyte

theorem byteAt_pushed (h : m.Stores frames) (hroom : m.used + frame.length ≤ m.capacity)
    {i : Nat} (hi : i < frame.length) :
    (m.pushed frame).byteAt m.readOffset (m.used + i) = frame.getD i 0 := by
  have hcap : m.buffer.size = m.capacity := rfl
  have hplace : (m.writeOffset + i) % m.capacity =
      (m.readOffset + (m.used + i)) % m.capacity := by
    rw [h.writeOffset, Nat.mod_add_mod, Nat.add_assoc]
  have hbyte := getD_writeAt m.buffer m.writeOffset frame (by omega) i (by omega)
  rw [hcap, hplace, if_pos hi] at hbyte
  rw [byteAt, capacity_pushed]
  exact hbyte

theorem push (h : m.Stores frames) (hframe : Framed frame) {m' : Mailbox}
    (hp : m.push frame = .ok m') : m'.Stores (frames ++ [frame]) := by
  obtain ⟨hroom, -, rfl⟩ := push_eq_ok hp
  rw [available] at hroom
  have hfits := h.fits
  have hroom : m.used + frame.length ≤ m.capacity := by omega
  refine ⟨?_, ?_, ?_, ?_, ?_, ?_⟩
  · simp [pushed, h.used]
  · simp [pushed, h.unread]
  · rw [capacity_pushed]
    exact hroom
  · rw [capacity_pushed]
    exact writeOffset_pushed h.writeOffset frame
  · have hcontents : (List.range m.used).map (m.byteAt m.readOffset) = frames.flatten :=
      h.contents
    have hsplit : (m.pushed frame).contents =
        (List.range (m.used + frame.length)).map ((m.pushed frame).byteAt m.readOffset) := rfl
    rw [hsplit, List.range_add, List.map_append, List.map_map, List.flatten_append, ← hcontents]
    congr 1
    · exact List.map_congr_left fun i hi => h.byteAt_pushed_of_lt hroom (List.mem_range.1 hi)
    · refine List.ext_getElem (by simp) fun i hi _ => ?_
      have hlt : i < frame.length := by simpa using hi
      rw [List.getElem_map, List.getElem_range, Function.comp_apply, h.byteAt_pushed hroom hlt]
      simp [hlt]
  · intro f hf
    rcases List.mem_append.1 hf with hf | hf
    · exact h.framed f hf
    · rw [List.mem_singleton.1 hf]
      exact hframe

/-- Only a frame that does not fit is refused. -/
theorem push_eq_error (h : m.Stores frames) (hframe : Framed frame) {e : Error} :
    m.push frame = .error e ↔
      e = .mailboxFull ∧ m.capacity < (frames.flatten ++ frame).length := by
  have hfits := h.fits
  have hne : ¬ frame.isEmpty = true := by simpa using hframe.ne_nil
  rw [List.length_append, ← h.used, Mailbox.push, available]
  split
  · rename_i hfull
    have hfull := hfull.resolve_right hne
    rw [Except.error.injEq, eq_comm]
    exact ⟨fun he => ⟨he, by omega⟩, fun he => he.1⟩
  · rename_i hroom
    constructor
    · intro he
      cases he
    · rintro ⟨-, hfull⟩
      exact absurd (.inl (by omega)) hroom

theorem first (h : m.Stores (frame :: frames)) {n : Nat} (hn : n ≤ frame.length) :
    m.copyOut m.readOffset n = frame.take n := by
  have hcontents : m.copyOut m.readOffset m.used = frame ++ frames.flatten := h.contents
  have hused := h.used
  rw [List.flatten_cons, List.length_append] at hused
  have htake : n ≤ m.used := by omega
  rw [← take_copyOut m.readOffset htake, hcontents, List.take_append_of_le_length hn]

theorem nextLength (h : m.Stores (frame :: frames)) : m.nextLength = .ok frame.length := by
  have hframe := h.framed frame List.mem_cons_self
  have hsize := hframe.1
  have hused := h.used
  rw [List.flatten_cons, List.length_append] at hused
  rw [Mailbox.nextLength, if_neg (by omega), h.first hsize, hframe.2]
  exact if_neg (by omega)

theorem receiveFrame (h : m.Stores (frame :: frames)) :
    m.receiveFrame = (.ok (some frame), m.drop frame.length) := by
  have hunread : m.unread ≠ 0 := by simp [h.unread]
  rw [Mailbox.receiveFrame, if_neg hunread, h.nextLength]
  simp only [h.first (Nat.le_refl _), List.take_length]

theorem receiveFrame_nil (h : m.Stores []) : m.receiveFrame = (.ok none, m) := by
  have hunread : m.unread = 0 := h.unread
  rw [Mailbox.receiveFrame, if_pos hunread]

theorem drop (h : m.Stores (frame :: frames)) : (m.drop frame.length).Stores frames := by
  have hused := h.used
  rw [List.flatten_cons, List.length_append] at hused
  have hfits := h.fits
  have hcap : (m.drop frame.length).capacity = m.capacity := rfl
  have hleft : (m.drop frame.length).used = m.used - frame.length := rfl
  refine ⟨?_, ?_, ?_, ?_, ?_, fun f hf => h.framed f (List.mem_cons_of_mem _ hf)⟩
  · omega
  · simp [Mailbox.drop, h.unread]
  · omega
  · exact writeOffset_drop h.writeOffset (by omega)
  · have hcontents : m.copyOut m.readOffset m.used = frame ++ frames.flatten := h.contents
    have hsplit : m.used = frame.length + (m.used - frame.length) := by omega
    rw [hsplit, copyOut_add] at hcontents
    have hrest := (List.append_inj hcontents (length_copyOut _ _)).2
    rw [← copyOut_mod] at hrest
    exact hrest

/-! ### Messages in a ring -/

/-- A frame that was just taken out can be put back behind the others. -/
theorem putBack (h : m.Stores (frame :: frames)) :
    ∃ m', (m.drop frame.length).push frame = .ok m' ∧ m'.Stores (frames ++ [frame]) ∧
      m'.capacity = m.capacity ∧ m'.sends = m.sends := by
  have hframe := h.framed frame List.mem_cons_self
  cases hpush : (m.drop frame.length).push frame with
  | error e =>
    have hfull : m.capacity < (frames.flatten ++ frame).length :=
      ((h.drop.push_eq_error hframe).1 hpush).2
    have hfits := h.fits
    rw [h.used, List.flatten_cons] at hfits
    rw [List.length_append] at hfits hfull
    omega
  | ok m' =>
    obtain ⟨-, -, rfl⟩ := push_eq_ok hpush
    exact ⟨_, rfl, h.drop.push hframe hpush, capacity_pushed frame, rfl⟩

section Cycle

variable {filter : Filter} {found : Option Message} {message : Message}

/-- The first message that is accepted is kept out. -/
theorem cycle_found (h : m.Stores (frame :: frames))
    (hdecode : Message.decode? frame = some message)
    (hfound : found = none) (haccepts : filter.accepts message = true) (pending : Nat) :
    Mailbox.cycle filter (pending + 1) found m =
      Mailbox.cycle filter pending (some message) (m.drop frame.length) := by
  have hstored : decodeStored frame = .ok message := by
    rw [decodeStored, hdecode]
  have htake : (found.isNone && filter.accepts message) = true := by
    rw [hfound, haccepts]
    rfl
  rw [Mailbox.cycle, h.receiveFrame]
  dsimp only
  rw [hstored]
  exact if_pos htake

/-- All other frames go to the end. -/
theorem cycle_passed (h : m.Stores (frame :: frames))
    (hdecode : Message.decode? frame = some message)
    (hpass : (found.isNone && filter.accepts message) = false) {m' : Mailbox}
    (hpush : (m.drop frame.length).push frame = .ok m') (pending : Nat) :
    Mailbox.cycle filter (pending + 1) found m = Mailbox.cycle filter pending found m' := by
  have hstored : decodeStored frame = .ok message := by
    rw [decodeStored, hdecode]
  rw [Mailbox.cycle, h.receiveFrame]
  dsimp only
  rw [hstored]
  dsimp only
  rw [hpass, hpush]
  rfl

end Cycle

/-- Visiting frames takes out the first one that is accepted, if none was found before, and puts all
others behind the frames that are not visited. -/
theorem cycle (filter : Filter) {visited rest : List Bytes} (h : m.Stores (visited ++ rest))
    (hmsg : ∀ frame ∈ visited, (Message.decode? frame).isSome) (found : Option Message) :
    ∃ m', Mailbox.cycle filter visited.length found m =
        (.ok (found.or ((visited.filterMap Message.decode?).find? filter.accepts)), m') ∧
      m'.Stores (rest ++ if found.isSome then visited else visited.eraseP (picks filter)) ∧
      m'.capacity = m.capacity ∧ m'.sends = m.sends := by
  -- a frame that is put back joins those that are not visited
  induction visited generalizing m rest found with
  | nil => exact ⟨m, by simp [Mailbox.cycle], by simpa using h, rfl, rfl⟩
  | cons frame visited ih =>
    obtain ⟨message, hdecode⟩ := Option.isSome_iff_exists.1 (hmsg frame List.mem_cons_self)
    have hvisited : ∀ f ∈ visited, (Message.decode? f).isSome :=
      fun f hf => hmsg f (List.mem_cons_of_mem _ hf)
    have hpicks : picks filter frame = filter.accepts message := by
      rw [picks, hdecode, Option.any_some]
    rw [List.cons_append] at h
    rw [List.length_cons, List.filterMap_cons_some hdecode]
    cases htake : found.isNone && filter.accepts message with
    | true =>
      obtain ⟨hnone, haccepts⟩ := Bool.and_eq_true_iff.1 htake
      have hfound := Option.isNone_iff_eq_none.1 hnone
      obtain ⟨m', hcycle, hstores, hcap, hsends⟩ := ih h.drop hvisited (some message)
      refine ⟨m', ?_, ?_, hcap, hsends⟩
      · rw [h.cycle_found hdecode hfound haccepts, hcycle]
        simp [hfound, haccepts]
      · rw [hfound, List.eraseP_cons_of_pos (hpicks.trans haccepts)]
        exact hstores
    | false =>
      obtain ⟨back, hpush, hback, hcap, hsends⟩ := h.putBack
      rw [List.append_assoc] at hback
      obtain ⟨m', hcycle, hstores, hcap', hsends'⟩ := ih hback hvisited found
      rw [List.append_assoc] at hstores
      refine ⟨m', ?_, ?_, hcap'.trans hcap, hsends'.trans hsends⟩
      · rw [h.cycle_passed hdecode htake hpush, hcycle]
        cases found with
        | some earlier => rfl
        | none =>
          have hrefused : filter.accepts message = false := htake
          simp [hrefused]
      · cases found with
        | some earlier => exact hstores
        | none =>
          have hrefused : ¬ picks filter frame = true := by
            rw [hpicks, Bool.not_eq_true]
            exact htake
          rw [Option.isSome_none, if_neg Bool.false_ne_true, List.eraseP_cons_of_neg hrefused]
          exact hstores

/-- A receive with a filter takes out the first frame that is accepted. -/
theorem receiveMatching (h : m.Stores frames)
    (hmsg : ∀ frame ∈ frames, (Message.decode? frame).isSome) (filter : Filter) :
    ∃ m', m.receiveMatching filter =
        (.ok ((frames.filterMap Message.decode?).find? filter.accepts), m') ∧
      m'.Stores (frames.eraseP (picks filter)) ∧ m'.capacity = m.capacity ∧
      m'.sends = m.sends := by
  have hstores := h
  rw [← List.append_nil frames] at hstores
  obtain ⟨m', hcycle, hleft, hcap, hsends⟩ := hstores.cycle filter hmsg none
  rw [← h.unread] at hcycle
  exact ⟨m', hcycle, hleft, hcap, hsends⟩

end Stores

/-- Splits the first `n` frames off a byte string. -/
def splitFrames : Nat → Bytes → List Bytes
  | 0, _ => []
  | n + 1, bytes =>
    match frameLength (bytes.take headerSize) with
    | .ok length => bytes.take length :: splitFrames n (bytes.drop length)
    | .error _ => []

/-- The frames that wait, oldest first. -/
def frames (m : Mailbox) : List Bytes :=
  splitFrames m.unread m.contents

/-- The messages that wait, oldest first. -/
def messages (m : Mailbox) : List Message :=
  m.frames.filterMap Message.decode?

theorem splitFrames_flatten (frames : List Bytes) (h : ∀ frame ∈ frames, Framed frame) :
    splitFrames frames.length frames.flatten = frames := by
  induction frames with
  | nil => rfl
  | cons frame frames ih =>
    have hframe := h frame List.mem_cons_self
    rw [List.length_cons, List.flatten_cons, splitFrames,
      List.take_append_of_le_length hframe.1, hframe.2]
    simp only [List.take_left, List.drop_left]
    rw [ih fun f hf => h f (List.mem_cons_of_mem _ hf)]

theorem Stores.frames_eq {frames : List Bytes} (h : m.Stores frames) : m.frames = frames := by
  rw [Mailbox.frames, h.unread, h.contents, splitFrames_flatten _ h.framed]

/-- The ring holds messages and nothing else. -/
structure Sound (m : Mailbox) : Prop where
  stores : m.Stores m.frames
  decodes : ∀ frame ∈ m.frames, (Message.decode? frame).isSome

theorem Stores.sound {frames : List Bytes} (h : m.Stores frames)
    (hmsg : ∀ frame ∈ frames, (Message.decode? frame).isSome) : m.Sound := by
  have heq := h.frames_eq
  refine ⟨?_, ?_⟩
  · rw [heq]
    exact h
  · rw [heq]
    exact hmsg

theorem sound_new (capacity : Nat) : (new capacity).Sound :=
  (stores_new capacity).sound fun _ h => by cases h

@[simp] theorem messages_new (capacity : Nat) : (new capacity).messages = [] := by
  rw [messages, (stores_new capacity).frames_eq]
  rfl

@[simp] theorem capacity_new (capacity : Nat) : (new capacity).capacity = capacity :=
  Array.size_replicate

/-- The messages that a receive asks for: all of them when there is no filter. -/
def admits : Option Filter → Message → Bool
  | none, _ => true
  | some filter, message => filter.accepts message

namespace Sound

theorem send_ok (h : m.Sound) {message : Message} {m' : Mailbox}
    (hs : m.send message = .ok m') :
    m'.Sound ∧ m'.messages = m.messages ++ [message.onWire] ∧ m'.capacity = m.capacity ∧
      m'.sends = m.sends + 1 ∧
      ∃ frame, message.encode = .ok frame ∧ frame.length ≤ m.capacity := by
  unfold send at hs
  split at hs
  · cases hs
  · rename_i frame hencode
    unfold sendFrame at hs
    split at hs
    · cases hs
    · rename_i pushedTo hpush
      cases hs
      have hstores := h.stores.push (framed_of_encode hencode) hpush
      have hdecode := Message.decode?_of_encode hencode
      have hcount : ({ pushedTo with sends := pushedTo.sends + 1 } : Mailbox).Stores
          (m.frames ++ [frame]) := ⟨hstores.used, hstores.unread, hstores.fits,
        hstores.writeOffset, hstores.contents, hstores.framed⟩
      refine ⟨hcount.sound fun f hf => ?_, ?_, ?_, ?_, frame, hencode, ?_⟩
      · rcases List.mem_append.1 hf with hf | hf
        · exact h.decodes f hf
        · rw [List.mem_singleton.1 hf, hdecode]
          rfl
      · rw [messages, hcount.frames_eq, List.filterMap_append, messages]
        simp [hdecode]
      · rw [(push_eq_ok hpush).2.2]
        exact capacity_pushed frame
      · rw [(push_eq_ok hpush).2.2]
        rfl
      · exact Nat.le_trans (push_eq_ok hpush).1 (Nat.sub_le _ _)

/-- An encoded message is refused exactly when its frame does not fit. -/
theorem send_eq_error (h : m.Sound) {message : Message} {frame : Bytes}
    (hencode : message.encode = .ok frame) {e : Error} :
    m.send message = .error e ↔ e = .mailboxFull ∧ m.capacity < m.used + frame.length := by
  have hpush := h.stores.push_eq_error (framed_of_encode hencode) (e := e)
  rw [List.length_append, ← h.stores.used] at hpush
  rw [← hpush, send, hencode]
  simp only [sendFrame]
  split
  · rename_i e' he'
    rw [he']
  · rename_i m' hm'
    rw [hm']
    simp

/-- A mailbox without messages uses no bytes. -/
theorem used_of_no_messages (h : m.Sound) (hnone : m.messages = []) : m.used = 0 := by
  have hframes : m.frames = [] := by
    refine List.eq_nil_iff_forall_not_mem.2 fun frame hin => ?_
    obtain ⟨message, hdecode⟩ := Option.isSome_iff_exists.1 (h.decodes frame hin)
    have hmessage : message ∈ m.messages := List.mem_filterMap.2 ⟨frame, hin, hdecode⟩
    rw [hnone] at hmessage
    cases hmessage
  rw [h.stores.used, hframes]
  rfl

/-- A mailbox in which as many bytes are in use refuses what was refused for want of room. -/
theorem send_eq_full {m' : Mailbox} (h : m.Sound) (h' : m'.Sound)
    (hcap : m'.capacity = m.capacity) (hused : m.used ≤ m'.used) {message : Message}
    (hs : m.send message = .error .mailboxFull) :
    m'.send message = .error .mailboxFull := by
  cases hencode : message.encode with
  | ok frame =>
    have hfull := ((h.send_eq_error hencode).1 hs).2
    exact (h'.send_eq_error hencode).2 ⟨rfl, by omega⟩
  | error e =>
    rw [send, hencode] at hs
    rw [send, hencode]
    exact hs

theorem used_of_send (h : m.Sound) {message : Message} {m' : Mailbox}
    (hs : m.send message = .ok m') : m.used ≤ m'.used := by
  obtain ⟨-, -, -, -, frame, hencode, -⟩ := h.send_ok hs
  rw [send, hencode] at hs
  simp only [sendFrame] at hs
  split at hs
  · cases hs
  · rename_i pushedTo hpush
    cases hs
    rw [(push_eq_ok hpush).2.2]
    exact Nat.le_add_right m.used frame.length

/-- Whatever is wrong with a message that is refused, the mailbox is sound. -/
theorem isFatal_of_send (h : m.Sound) {message : Message} {e : Error}
    (hs : m.send message = .error e) : e.isFatal = false := by
  cases hencode : message.encode with
  | ok frame =>
    rw [((h.send_eq_error hencode).1 hs).1]
    rfl
  | error e' =>
    rw [send, hencode] at hs
    cases hs
    exact Message.isFatal_of_encode hencode

theorem takeMessage (h : m.Sound) (filter : Option Filter) :
    ∃ m', Scheduler.takeMessage m filter = (.ok (m.messages.find? (admits filter)), m') ∧
      m'.Sound ∧ m'.messages = m.messages.eraseP (admits filter) ∧ m'.capacity = m.capacity ∧
      m'.sends = m.sends := by
  cases filter with
  | none =>
    have hadmits : admits none = fun _ => true := rfl
    -- without a filter the first message is taken, which every message matches
    have hstores := h.stores
    rw [hadmits, Scheduler.takeMessage, receive, messages]
    cases hframes : m.frames with
    | nil =>
      rw [hframes] at hstores
      rw [hstores.receiveFrame_nil]
      exact ⟨m, rfl, h, by rw [messages, hframes]; rfl, rfl, rfl⟩
    | cons frame frames =>
      obtain ⟨message, hdecode⟩ := Option.isSome_iff_exists.1
        (h.decodes frame (by rw [hframes]; exact List.mem_cons_self))
      rw [hframes] at hstores
      have hdrop := hstores.drop
      rw [hstores.receiveFrame]
      refine ⟨m.drop frame.length, ?_, hdrop.sound fun f hf => h.decodes f ?_, ?_, rfl, rfl⟩
      · simp [decodeStored, hdecode]
      · rw [hframes]
        exact List.mem_cons_of_mem _ hf
      · rw [messages, hdrop.frames_eq, List.filterMap_cons_some hdecode]
        rfl
  | some filter =>
    obtain ⟨m', hreceive, hleft, hcap, hsends⟩ := h.stores.receiveMatching h.decodes filter
    refine ⟨m', hreceive, hleft.sound fun f hf => h.decodes f (List.eraseP_subset hf), ?_, hcap,
      hsends⟩
    rw [messages, hleft.frames_eq, filterMap_eraseP_picks]
    rfl

/-- A search that finds nothing suitable leaves the same bytes in use. -/
theorem used_of_not_found (h : m.Sound) {filter : Option Filter} {m' : Mailbox}
    (htake : Scheduler.takeMessage m filter = (.ok none, m')) : m'.used = m.used := by
  obtain ⟨m₁, htake₁, -⟩ := h.takeMessage filter
  rw [htake] at htake₁
  obtain ⟨hnone, rfl⟩ := Prod.mk.inj htake₁
  have hnone : m.messages.find? (admits filter) = none := (Except.ok.inj hnone).symm
  cases filter with
  | none =>
    have hempty : m.unread = 0 := by
      rw [h.stores.unread, List.length_eq_zero_iff]
      refine List.eq_nil_iff_forall_not_mem.2 fun frame hin => ?_
      obtain ⟨message, hdecode⟩ := Option.isSome_iff_exists.1 (h.decodes frame hin)
      exact List.find?_eq_none.1 hnone message (List.mem_filterMap.2 ⟨frame, hin, hdecode⟩) rfl
    rw [Scheduler.takeMessage, receive, receiveFrame, if_pos hempty] at htake
    cases htake
    rfl
  | some filter =>
    obtain ⟨m₂, hreceive, hleft, -, -⟩ := h.stores.receiveMatching h.decodes filter
    obtain ⟨-, rfl⟩ := Prod.mk.inj (htake.symm.trans hreceive)
    rw [eraseP_picks_of_find? hnone] at hleft
    rw [hleft.used, h.stores.used]

end Sound

end Microkernel.Mailbox
