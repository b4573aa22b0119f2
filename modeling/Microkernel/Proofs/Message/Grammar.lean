/-
Which byte strings are frames.

`Message.WellFormed` is the grammar of frames. It is written down by the offsets of the fields and
knows nothing of the functions that read a frame. `Message.decodeByIndex` reads a frame by looking
up its bytes one by one, and has no result if it looks for a byte that is not there.

* **`Message.isSome_decode?_iff`**: exactly the frames of the grammar decode;
* **`Message.encode_of_decode?`**: what decodes is encoded to the same bytes again, apart from a
  recipient field that means nothing (`Message.canonical`);
* **`Message.decode_grammar`**: both of it, and that no byte is missed where one is looked up.

Design notes: every part of a message has a lemma that says which numbers it is read from, and one
that says which numbers are written for what was read. The numbers of a whole header are the fields
of its frame (`Header.read?_of_le`), so from there on no statement takes a frame apart.
-/
import Microkernel.Proofs.Message.RoundTrip

namespace Microkernel

/-! ### Frames by their offsets -/

/-- The number in the `width` bytes from `offset` on. -/
def field (frame : Bytes) (offset width : Nat) : Nat :=
  ofLittleEndian ((frame.drop offset).take width)

theorem field_one {frame : Bytes} {offset : Nat} (h : offset < frame.length) :
    field frame offset 1 = frame[offset].toNat := by
  rw [field, List.drop_eq_getElem_cons h]
  rfl

theorem field_two {frame : Bytes} {offset : Nat} (h : offset + 1 < frame.length) :
    field frame offset 2 = ofLittleEndian [frame[offset], frame[offset + 1]] := by
  rw [field, List.drop_eq_getElem_cons (Nat.lt_of_succ_lt h), List.drop_eq_getElem_cons h]
  rfl

theorem take_append_drop_add (frame : Bytes) (offset width : Nat) :
    (frame.drop offset).take width ++ frame.drop (offset + width) = frame.drop offset := by
  rw [← List.drop_drop, List.take_append_drop]

/-- The bytes of a field are those of its number. -/
theorem littleEndian_field {frame : Bytes} {offset width : Nat}
    (h : offset + width ≤ frame.length) :
    littleEndian width (field frame offset width) = (frame.drop offset).take width := by
  have hback := littleEndian_ofLittleEndian ((frame.drop offset).take width)
  rw [List.length_take, List.length_drop, Nat.min_eq_left (Nat.le_sub_of_add_le' h)] at hback
  exact hback

namespace Message

/-- The bytes of a frame, by their offsets: the length, the recipient kind with its field, the
namespace, and the kind with the length and the begin of the payload. -/
structure WellFormed (frame : Bytes) : Prop where
  minLength : 16 ≤ frame.length
  maxLength : frame.length ≤ 256
  length : field frame 0 4 = frame.length
  space : field frame 12 1 ≤ 4
  recipient : field frame 13 1 = 0 ∨ field frame 13 1 = 2 ∨
    field frame 13 1 = 1 ∧ 1 ≤ field frame 8 4 ∧ field frame 8 4 ≤ 5
  scheduler : field frame 12 1 = 0 → frame.length = 20 ∧ field frame 14 2 ≤ 2
  services : field frame 12 1 = 1 → (1 ≤ field frame 16 4 ∧ field frame 16 4 ≤ 5) ∧
    (field frame 14 2 ≤ 2 ∧ frame.length = 20 ∨ field frame 14 2 = 3 ∧ frame.length = 24)

/-- The frame with zeros in the recipient field if the recipient is the registry, which has no
number. -/
def canonical (frame : Bytes) : Bytes :=
  if field frame 13 1 = 2 then frame.take 8 ++ [0, 0, 0, 0] ++ frame.drop 12 else frame

end Message

/-! ### Numbers that have a meaning -/

theorem Namespace.isSome_ofCode?_iff {c : Nat} : (ofCode? c).isSome = true ↔ c ≤ 4 := by
  match c with
  | 0 | 1 | 2 | 3 | 4 => simp [ofCode?]
  | n + 5 => simp [ofCode?]

theorem Service.isSome_ofCode?_iff {c : Nat} : (ofCode? c).isSome = true ↔ 1 ≤ c ∧ c ≤ 5 := by
  match c with
  | 0 | 1 | 2 | 3 | 4 | 5 => simp [ofCode?]
  | n + 6 => simp [ofCode?]

theorem Recipient.isSome_ofWire?_iff {code value : Nat} :
    (ofWire? code value).isSome = true ↔
      code = 0 ∨ code = 2 ∨ code = 1 ∧ 1 ≤ value ∧ value ≤ 5 := by
  match code with
  | 0 | 2 => simp [ofWire?]
  | 1 => simp [ofWire?, Service.isSome_ofCode?_iff]
  | n + 3 => simp [ofWire?]

theorem SchedulerMessage.isSome_ofPayload?_iff {kind : Nat} {payload : Bytes} :
    (ofPayload? kind payload).isSome = true ↔ payload.length = 4 ∧ kind ≤ 2 := by
  rw [ofPayload?]
  by_cases hlen : payload.length = 4
  · rcases kind with _ | _ | _ | n <;> simp [hlen]
  · simp [hlen]

theorem ServiceMessage.isSome_ofPayload?_iff {kind : Nat} {payload : Bytes} :
    (ofPayload? kind payload).isSome = true ↔
      (1 ≤ ofLittleEndian (payload.take 4) ∧ ofLittleEndian (payload.take 4) ≤ 5) ∧
        (kind ≤ 2 ∧ payload.length = 4 ∨ kind = 3 ∧ payload.length = 8) := by
  rw [← Service.isSome_ofCode?_iff, ofPayload?]
  cases Service.ofCode? (ofLittleEndian (payload.take 4)) with
  | none => simp
  | some service =>
    rcases kind with _ | _ | _ | _ | n
    · by_cases hlen : payload.length = 4 <;> simp [hlen]
    · by_cases hlen : payload.length = 4 <;> simp [hlen]
    · by_cases hlen : payload.length = 4 <;> simp [hlen]
    · by_cases hlen : payload.length = 8 <;> simp [hlen]
    · simp

/-- A recipient is written as the numbers that it was read from, but the registry has none. -/
theorem Recipient.code_value_of_ofWire? {code value : Nat} {r : Recipient}
    (h : ofWire? code value = some r) : r.code = code ∧ r.value = if code = 2 then 0 else value := by
  match code with
  | 0 | 2 =>
    cases h
    exact ⟨rfl, rfl⟩
  | 1 =>
    obtain ⟨provided, hservice, rfl⟩ := Option.map_eq_some_iff.1 h
    exact ⟨rfl, Service.code_of_ofCode? hservice⟩
  | n + 3 => cases h

theorem SchedulerMessage.payload_of_ofPayload? {kind : Nat} {payload : Bytes}
    {m : SchedulerMessage} (h : ofPayload? kind payload = some m) :
    m.kind.toNat = kind ∧ m.payload = payload := by
  unfold ofPayload? at h
  split at h
  · cases h
  · rename_i hlen
    have hlen := Decidable.of_not_not hlen
    have hback := littleEndian_ofLittleEndian payload
    have hlt := ofLittleEndian_lt payload
    rw [hlen] at hback hlt
    have htoken : (UInt32.ofNat (ofLittleEndian payload)).toNat = ofLittleEndian payload :=
      UInt32.toNat_ofNat_of_lt' hlt
    match kind with
    | 0 | 1 =>
      cases h
      exact ⟨rfl, (congrArg (littleEndian 4) htoken).trans hback⟩
    | 2 =>
      cases h
      exact ⟨rfl, hback⟩
    | n + 3 => cases h

theorem ServiceMessage.taskCode_taskOfCode (value : Nat) : taskCode (taskOfCode value) = value := by
  unfold taskOfCode
  split
  · rename_i hno
    exact hno.symm
  · rfl

theorem ServiceMessage.payload_of_ofPayload? {kind : Nat} {payload : Bytes} {m : ServiceMessage}
    (h : ofPayload? kind payload = some m) : m.kind.toNat = kind ∧ m.payload = payload := by
  unfold ofPayload? at h
  by_cases hlen : payload.length = if kind = 3 then 8 else 4
  · rw [if_neg (not_not_intro hlen)] at h
    cases hservice : Service.ofCode? (ofLittleEndian (payload.take 4)) with
    | none =>
      rw [hservice] at h
      cases h
    | some service =>
      have hfirst := littleEndian_ofLittleEndian (payload.take 4)
      rw [← Service.code_of_ofCode? hservice, List.length_take, hlen] at hfirst
      rw [hservice] at h
      match kind with
      | 0 | 1 | 2 =>
        cases h
        exact ⟨rfl, hfirst.trans (List.take_of_length_le (Nat.le_of_eq hlen))⟩
      | 3 =>
        cases h
        have hrest := littleEndian_ofLittleEndian (payload.drop 4)
        rw [List.length_drop, hlen] at hrest
        refine ⟨rfl, ?_⟩
        rw [ServiceMessage.payload, taskCode_taskOfCode]
        exact (congr (congrArg _ hfirst) hrest).trans (List.take_append_drop 4 payload)
      | n + 4 => cases h
  · rw [if_pos hlen] at h
    cases h

namespace Body

theorem isSome_ofPayload?_iff {space : Namespace} {kind : Nat} {payload : Bytes} :
    (ofPayload? space kind payload).isSome = true ↔
      (space.code = 0 → payload.length = 4 ∧ kind ≤ 2) ∧
      (space.code = 1 →
        (1 ≤ ofLittleEndian (payload.take 4) ∧ ofLittleEndian (payload.take 4) ≤ 5) ∧
          (kind ≤ 2 ∧ payload.length = 4 ∨ kind = 3 ∧ payload.length = 8)) := by
  cases space with
  | scheduler =>
    rw [ofPayload?, Option.isSome_map, SchedulerMessage.isSome_ofPayload?_iff]
    simp [Namespace.code]
  | services =>
    rw [ofPayload?, Option.isSome_map, ServiceMessage.isSome_ofPayload?_iff]
    simp [Namespace.code]
  | vfs | hardwareFs | window => simp [ofPayload?, Namespace.code]

/-- A body is written as the payload that it was read from. -/
theorem payload_of_ofPayload? {space : Namespace} {kind : Nat} {payload : Bytes} {b : Body}
    (hkind : kind < 0x10000) (hlen : payload.length ≤ maxPayloadSize)
    (h : ofPayload? space kind payload = some b) :
    b.payload = .ok payload ∧ b.space = space ∧ b.kind.toNat = kind := by
  have hwide : (UInt16.ofNat kind).toNat = kind := UInt16.toNat_ofNat_of_lt' hkind
  cases space with
  | scheduler =>
    obtain ⟨m, hm, rfl⟩ := Option.map_eq_some_iff.1 h
    obtain ⟨hkind, hpayload⟩ := SchedulerMessage.payload_of_ofPayload? hm
    exact ⟨congrArg Except.ok hpayload, rfl, hkind⟩
  | services =>
    obtain ⟨m, hm, rfl⟩ := Option.map_eq_some_iff.1 h
    obtain ⟨hkind, hpayload⟩ := ServiceMessage.payload_of_ofPayload? hm
    exact ⟨congrArg Except.ok hpayload, rfl, hkind⟩
  | vfs | hardwareFs | window =>
    cases h
    exact ⟨if_neg (Nat.not_lt.2 hlen), rfl, hwide⟩

end Body

namespace Header

/-- The numbers of a frame's header, by the offsets of their fields. -/
def ofFrame (frame : Bytes) : Header where
  length := field frame 0 4
  sender := field frame 4 4
  recipient := field frame 8 4
  space := field frame 12 1
  recipientKind := field frame 13 1
  kind := field frame 14 2

/-- A byte string that is long enough begins with sixteen bytes. -/
theorem read?_of_le {frame : Bytes} (h : 16 ≤ frame.length) :
    read? frame = some (ofFrame frame, frame.drop 16) := by
  obtain ⟨head, payload, rfl, hhead⟩ : ∃ head payload, frame = head ++ payload ∧
      head.length = 16 :=
    ⟨frame.take 16, frame.drop 16, (List.take_append_drop 16 frame).symm, by
      rw [List.length_take, Nat.min_eq_left h]⟩
  match head, hhead with
  | [_, _, _, _, _, _, _, _, _, _, _, _, _, _, _, _], _ => rfl

theorem read?_of_lt {frame : Bytes} (h : frame.length < 16) : read? frame = none := by
  unfold read?
  split
  · simp only [List.length_cons] at h
    omega
  · rfl

/-- Every field is written where it was read. -/
theorem bytes_ofFrame {frame : Bytes} (h : 16 ≤ frame.length) (recipient : Nat) :
    ({ ofFrame frame with recipient := recipient } : Header).bytes ++ frame.drop 16 =
      frame.take 8 ++ littleEndian 4 recipient ++ frame.drop 12 := by
  have hfront : frame.take 4 ++ (frame.drop 4).take 4 = frame.take 8 := List.take_add.symm
  have hlength : littleEndian 4 (field frame 0 4) = frame.take 4 := littleEndian_field (by omega)
  rw [bytes, ofFrame]
  simp only
  rw [hlength, littleEndian_field (by omega), littleEndian_field (by omega),
    littleEndian_field (by omega), littleEndian_field (by omega), hfront]
  simp only [List.append_assoc]
  rw [take_append_drop_add frame 14 2, take_append_drop_add frame 13 1,
    take_append_drop_add frame 12 1]

end Header

namespace Message

theorem decode?_of_le {frame : Bytes} (h : 16 ≤ frame.length) :
    decode? frame = if field frame 0 4 = frame.length ∧ frame.length ≤ 256
      then ofHeader? (.ofFrame frame) (frame.drop 16) else none := by
  rw [decode?, Header.read?_of_le h]
  rfl

theorem isSome_ofHeader?_iff {h : Header} {payload : Bytes} :
    (ofHeader? h payload).isSome = true ↔
      (Recipient.ofWire? h.recipientKind h.recipient).isSome = true ∧
        ∃ space, Namespace.ofCode? h.space = some space ∧
          (Body.ofPayload? space h.kind payload).isSome = true := by
  rw [ofHeader?]
  cases Recipient.ofWire? h.recipientKind h.recipient with
  | none => simp
  | some recipient =>
    cases Namespace.ofCode? h.space with
    | none => simp
    | some space => simp

/-- The body of a frame, by the fields of the frame. -/
theorem isSome_body_iff {frame : Bytes} (h : 16 ≤ frame.length) {space : Namespace}
    (hspace : Namespace.ofCode? (field frame 12 1) = some space) :
    (Body.ofPayload? space (field frame 14 2) (frame.drop 16)).isSome = true ↔
      (field frame 12 1 = 0 → frame.length = 20 ∧ field frame 14 2 ≤ 2) ∧
      (field frame 12 1 = 1 → (1 ≤ field frame 16 4 ∧ field frame 16 4 ≤ 5) ∧
        (field frame 14 2 ≤ 2 ∧ frame.length = 20 ∨
          field frame 14 2 = 3 ∧ frame.length = 24)) := by
  have h20 : (frame.drop 16).length = 4 ↔ frame.length = 20 := by
    rw [List.length_drop]
    omega
  have h24 : (frame.drop 16).length = 8 ↔ frame.length = 24 := by
    rw [List.length_drop]
    omega
  rw [Body.isSome_ofPayload?_iff, Namespace.code_of_ofCode? hspace, h20, h24]
  rfl

/-- Exactly the frames of the grammar decode. -/
theorem isSome_decode?_iff {frame : Bytes} :
    (decode? frame).isSome = true ↔ WellFormed frame := by
  by_cases hmin : 16 ≤ frame.length
  · rw [decode?_of_le hmin]
    constructor
    · intro h
      split at h
      · rename_i hlen
        obtain ⟨hrecipient, space, hspace, hbody⟩ := isSome_ofHeader?_iff.1 h
        obtain ⟨hscheduler, hservices⟩ := (isSome_body_iff hmin hspace).1 hbody
        exact ⟨hmin, hlen.2, hlen.1, Namespace.isSome_ofCode?_iff.1 (Option.isSome_of_mem hspace),
          Recipient.isSome_ofWire?_iff.1 hrecipient, hscheduler, hservices⟩
      · cases h
    · intro h
      obtain ⟨space, hspace⟩ :=
        Option.isSome_iff_exists.1 (Namespace.isSome_ofCode?_iff.2 h.space)
      rw [if_pos ⟨h.length, h.maxLength⟩, isSome_ofHeader?_iff]
      exact ⟨Recipient.isSome_ofWire?_iff.2 h.recipient, space, hspace,
        (isSome_body_iff hmin hspace).2 ⟨h.scheduler, h.services⟩⟩
  · rw [decode?, Header.read?_of_lt (Nat.lt_of_not_le hmin)]
    exact iff_of_false Bool.false_ne_true fun h => hmin h.minLength

/-! ### Writing what was read -/

/-- The recipient field is written as it was read, unless it is that of the registry. -/
theorem canonical_eq {frame : Bytes} (h : 12 ≤ frame.length) :
    canonical frame =
      frame.take 8 ++ littleEndian 4 (if field frame 13 1 = 2 then 0 else field frame 8 4) ++
        frame.drop 12 := by
  rw [canonical]
  split
  · rfl
  · rw [littleEndian_field h, List.append_assoc, take_append_drop_add frame 8 4,
      List.take_append_drop]

/-- What decodes is encoded to the same bytes, but the registry has no number. -/
theorem encode_of_decode? {frame : Bytes} {m : Message} (h : decode? frame = some m) :
    m.encode = .ok (canonical frame) := by
  have hframe := isSome_decode?_iff.1 (Option.isSome_of_mem h)
  have hmin := hframe.minLength
  have hmax := hframe.maxLength
  have hrest : (frame.drop 16).length = frame.length - 16 := List.length_drop
  rw [decode?_of_le hmin, if_pos ⟨hframe.length, hmax⟩, ofHeader?] at h
  split at h
  · rename_i recipient space hrecipient hspace
    obtain ⟨body, hbody, rfl⟩ := Option.map_eq_some_iff.1 h
    obtain ⟨hcode, hvalue⟩ := Recipient.code_value_of_ofWire? hrecipient
    have hkind : field frame 14 2 < 0x10000 := by
      have hlt := ofLittleEndian_lt ((frame.drop 14).take 2)
      rwa [List.length_take, List.length_drop, Nat.min_eq_left (by omega)] at hlt
    have hsize : (frame.drop 16).length ≤ maxPayloadSize := by
      rw [hrest]
      exact Nat.sub_le_sub_right hmax 16
    obtain ⟨hpayload, hbodySpace, hbodyKind⟩ := Body.payload_of_ofPayload? hkind hsize hbody
    have hlength : headerSize + (frame.drop 16).length = field frame 0 4 := by
      rw [hrest, hframe.length]
      exact Nat.add_sub_of_le hmin
    have hheader : header ⟨field frame 4 4, recipient, body⟩ (frame.drop 16).length =
        { Header.ofFrame frame with recipient := recipient.value } := by
      rw [header, hlength, hcode, hbodySpace, hbodyKind, Namespace.code_of_ofCode? hspace]
      rfl
    rw [encode, hpayload]
    dsimp only
    rw [Header.ofFrame, hheader, Header.bytes_ofFrame hmin, hvalue, canonical_eq (by omega)]
    rfl
  · cases h

end Message

/-! ### Reading by index -/

/-- What comes of looking up bytes by their index: nothing, if one is not there. -/
abbrev Reading := ExceptT Error Option

namespace Reading

/-- Looks up the byte at an index. -/
def byte (bytes : Bytes) (index : Nat) : Reading UInt8 :=
  ExceptT.lift bytes[index]?

/-- Looks up all bytes from an index on. -/
def rest (bytes : Bytes) (start : Nat) : Reading Bytes :=
  if start ≤ bytes.length then pure (bytes.drop start) else ExceptT.lift none

/-- Asks for a number of four bytes, which may not be there. -/
def number (bytes : Bytes) (offset : Nat) : Reading Nat :=
  if offset + 4 ≤ bytes.length then pure (field bytes offset 4) else throw .malformedMessage

variable {α : Type}

/-- What is known without looking up a byte. -/
def checked (result : Except Error α) : Reading α :=
  ExceptT.mk (some result)

/-- Only some numbers mean something. -/
def known : Option α → Reading α
  | some a => pure a
  | none => throw .malformedMessage

variable {bytes : Bytes}

theorem byte_of_lt {index : Nat} (h : index < bytes.length) :
    byte bytes index = pure bytes[index] := by
  rw [byte, List.getElem?_eq_getElem h]
  rfl

theorem rest_of_le {start : Nat} (h : start ≤ bytes.length) :
    rest bytes start = pure (bytes.drop start) :=
  if_pos h

theorem checked_ok (a : α) : checked (.ok a) = pure a := rfl

theorem number_of_le {offset : Nat} (h : offset + 4 ≤ bytes.length) :
    number bytes offset = pure (field bytes offset 4) :=
  if_pos h

end Reading

namespace Message

open Reading in
/-- Reads the fields and the payload of a frame. A payload is copied, or its numbers are asked for,
so none of its bytes is looked up. -/
def readFields (frame : Bytes) : Reading Message := do
  let sender ← number frame 4
  let code ← byte frame 13
  let value ← number frame 8
  let recipient ← known (Recipient.ofWire? code.toNat value)
  let spaceCode ← byte frame 12
  let space ← known (Namespace.ofCode? spaceCode.toNat)
  let low ← byte frame 14
  let high ← byte frame 15
  let payload ← rest frame headerSize
  let body ← known (Body.ofPayload? space (ofLittleEndian [low, high]) payload)
  return ⟨sender, recipient, body⟩

open Reading in
/-- Reads one whole frame. -/
def decodeByIndex (frame : Bytes) : Reading Message := do
  let length ← checked (frameLength frame)
  if length = frame.length then readFields frame else throw .malformedMessage

/-- The bytes of a header are there once its length is known. -/
theorem readFields_eq {frame : Bytes} (h : 16 ≤ frame.length) :
    readFields frame = Reading.known (ofHeader? (.ofFrame frame) (frame.drop 16)) := by
  have hnumber {offset : Nat} (hoffset : offset ≤ 12) :
      Reading.number frame offset = pure (field frame offset 4) :=
    Reading.number_of_le (by omega)
  have hbyte {index : Nat} (hindex : index < 16) :
      Reading.byte frame index = pure frame[index] :=
    Reading.byte_of_lt (by omega)
  have hrest : Reading.rest frame headerSize = pure (frame.drop 16) := Reading.rest_of_le h
  rw [readFields, hnumber (by omega), hnumber (by omega), hbyte (by omega), hbyte (by omega),
    hbyte (by omega), hbyte (by omega), hrest, ofHeader?, Header.ofFrame]
  simp only [pure_bind, ← field_one, ← field_two]
  cases Recipient.ofWire? (field frame 13 1) (field frame 8 4) with
  | none => rfl
  | some recipient =>
    cases Namespace.ofCode? (field frame 12 1) with
    | none => rfl
    | some space =>
      dsimp only [Reading.known]
      rw [pure_bind, pure_bind]
      cases Body.ofPayload? space (field frame 14 2) (frame.drop 16) with
      | none => rfl
      | some body => rfl

theorem frameLength_eq_error {bytes : Bytes} {e : Error} (h : frameLength bytes = .error e) :
    e = .malformedMessage := by
  unfold frameLength at h
  split at h
  · cases h
    rfl
  · dsimp only at h
    split at h
    · cases h
    · cases h
      rfl

/-- A frame of the grammar tells its own length. -/
theorem WellFormed.frameLength {frame : Bytes} (h : WellFormed frame) :
    frameLength frame = .ok frame.length :=
  frameLength_eq_ok_iff.2
    ⟨Nat.le_trans (by decide) h.minLength, h.length, h.minLength, h.maxLength⟩

theorem decode_of_not_wellFormed {frame : Bytes} (h : ¬ WellFormed frame) :
    decode frame = .error .malformedMessage := by
  rw [← isSome_decode?_iff, Option.not_isSome_iff_eq_none] at h
  rw [decode, h]

/-- Every byte that is looked up is there. -/
theorem decodeByIndex_eq (frame : Bytes) : (decodeByIndex frame).run = some (decode frame) := by
  rw [decodeByIndex]
  cases hlength : frameLength frame with
  | error e =>
    have hnot : ¬ WellFormed frame := fun h => by
      rw [h.frameLength] at hlength
      cases hlength
    rw [decode_of_not_wellFormed hnot, frameLength_eq_error hlength]
    rfl
  | ok length =>
    by_cases hwhole : length = frame.length
    · obtain ⟨-, hfield, hmin, hmax⟩ := frameLength_eq_ok_iff.1 hlength
      subst hwhole
      rw [Reading.checked_ok, pure_bind, if_pos rfl, readFields_eq hmin, decode,
        decode?_of_le hmin, if_pos ⟨hfield, hmax⟩]
      cases ofHeader? (.ofFrame frame) (frame.drop 16) with
      | none => rfl
      | some m => rfl
    · have hnot : ¬ WellFormed frame := fun h => by
        rw [h.frameLength] at hlength
        cases hlength
        exact hwhole rfl
      rw [Reading.checked_ok, pure_bind, if_neg hwhole, decode_of_not_wellFormed hnot]
      rfl

/-- Which byte strings decode: those of the grammar, and every other one is malformed. No byte is
looked up that is not there. What decodes is encoded to the same bytes, only the recipient field of
the registry comes back as zeros. -/
theorem decode_grammar (frame : Bytes) :
    (decodeByIndex frame).run = some (decode frame) ∧
      match decode frame with
      | .ok m => WellFormed frame ∧ m.encode = .ok (canonical frame)
      | .error e => ¬ WellFormed frame ∧ e = .malformedMessage := by
  refine ⟨decodeByIndex_eq frame, ?_⟩
  by_cases h : WellFormed frame
  · obtain ⟨m, hm⟩ := Option.isSome_iff_exists.1 (isSome_decode?_iff.2 h)
    rw [decode, hm]
    exact ⟨h, encode_of_decode? hm⟩
  · rw [decode_of_not_wellFormed h]
    exact ⟨h, rfl⟩

/-- The registry has no number: what stands in the recipient field is lost. -/
example : (decode? [20, 0, 0, 0, 1, 0, 0, 0, 9, 9, 9, 9, 0, 2, 0, 0, 7, 0, 0, 0]).map encode =
    some (.ok [20, 0, 0, 0, 1, 0, 0, 0, 0, 0, 0, 0, 0, 2, 0, 0, 7, 0, 0, 0]) := rfl

end Message

end Microkernel
