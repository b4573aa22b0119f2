/-
Decoding undoes encoding.

A frame has 32 bits for a task id, so what comes back is the message with its ids cut to 32
bits (`Message.onWire`); the largest of these numbers stands for "no task" in the reply to a
lookup.

* **`Message.decode?_of_encode`**: the frame of a message decodes to the message on the wire;
* **`Message.length_of_encode`**: a frame has 16 to 256 bytes;
* **`Message.frameLength_of_encode`**: the length field of a frame tells where the next one
  begins.
-/
import Microkernel.Message.Frame

namespace Microkernel

/-- What is left of a task id in a field of a frame. -/
def wireId (id : Nat) : Nat :=
  id % 0x100000000

theorem ofLittleEndian_four (n : Nat) : ofLittleEndian (littleEndian 4 n) = wireId n :=
  ofLittleEndian_littleEndian 4 n

theorem wireId_of_lt {n : Nat} (h : n < 0x100000000) : wireId n = n :=
  Nat.mod_eq_of_lt h

/-- The first four bytes of a frame announce its length. -/
theorem frameLength_eq_ok_iff {bytes : Bytes} {length : Nat} :
    frameLength bytes = .ok length ↔
      4 ≤ bytes.length ∧ ofLittleEndian (bytes.take 4) = length ∧
        headerSize ≤ length ∧ length ≤ maxFrameSize := by
  rw [frameLength]
  by_cases hshort : bytes.length < 4
  · rw [if_pos hshort]
    simp only [reduceCtorEq, false_iff]
    omega
  · rw [if_neg hshort]
    dsimp only
    split
    · rename_i hbound
      rw [Except.ok.injEq]
      constructor
      · rintro rfl
        exact ⟨by omega, rfl, hbound⟩
      · exact fun h => h.2.1
    · rename_i hbound
      simp only [reduceCtorEq, false_iff]
      rintro ⟨-, rfl, hbound'⟩
      exact hbound hbound'

namespace Recipient

/-- The recipient that a frame names. -/
def onWire : Recipient → Recipient
  | task id => task (wireId id)
  | service provided => service provided
  | registry => registry

theorem ofWire?_value (r : Recipient) : ofWire? r.code (wireId r.value) = some r.onWire := by
  cases r with
  | task id => rfl
  | service provided => cases provided <;> rfl
  | registry => rfl

end Recipient

namespace SchedulerMessage

/-- The body that a frame carries. -/
def onWire : SchedulerMessage → SchedulerMessage
  | ping token => ping token
  | pong token => pong token
  | taskExited task => taskExited (wireId task)

theorem length_payload (m : SchedulerMessage) : m.payload.length = 4 := by
  cases m <;> exact length_littleEndian 4 _

theorem ofPayload?_payload (m : SchedulerMessage) :
    ofPayload? m.kind.toNat m.payload = some m.onWire := by
  have hlen := m.length_payload
  cases m with
  | ping token =>
    rw [payload] at hlen
    simp only [ofPayload?, payload, hlen, ne_eq, not_true, if_false, ofLittleEndian_four,
      wireId_of_lt token.toNat_lt]
    simp [kind, onWire]
  | pong token =>
    rw [payload] at hlen
    simp only [ofPayload?, payload, hlen, ne_eq, not_true, if_false, ofLittleEndian_four,
      wireId_of_lt token.toNat_lt]
    simp [kind, onWire]
  | taskExited task =>
    rw [payload] at hlen
    simp only [ofPayload?, payload, hlen, ne_eq, not_true, if_false, ofLittleEndian_four]
    simp [kind, onWire]

end SchedulerMessage

namespace ServiceMessage

/-- What a frame carries of a provider, unless its field holds the number of "no task". -/
def wireProvider (id : TaskId) : Option TaskId :=
  if wireId id = 0xffffffff then none else some (wireId id)

/-- The body that a frame carries. A provider with the number of "no task" is lost. -/
def onWire : ServiceMessage → ServiceMessage
  | register service => register service
  | unregister service => unregister service
  | lookup service => lookup service
  | reply service none => reply service none
  | reply service (some id) => reply service (wireProvider id)

theorem length_payload (m : ServiceMessage) :
    m.payload.length = if m.kind.toNat = 3 then 8 else 4 := by
  cases m <;> simp only [payload, List.length_append, length_littleEndian] <;> rfl

theorem wireId_code (service : Service) : wireId service.code = service.code := by
  cases service <;> rfl

theorem onWire_reply (service : Service) (task : Option TaskId) :
    (reply service task).onWire = reply service (taskOfCode (wireId (taskCode task))) := by
  cases task <;> rfl

theorem take_code (service : Service) (rest : Bytes) :
    ofLittleEndian ((littleEndian 4 service.code ++ rest).take 4) = service.code := by
  rw [List.take_left' (length_littleEndian 4 _), ofLittleEndian_four, wireId_code]

theorem ofPayload?_payload (m : ServiceMessage) :
    ofPayload? m.kind.toNat m.payload = some m.onWire := by
  have hlen := m.length_payload
  rw [ofPayload?, if_neg (by rw [hlen]; exact not_not_intro rfl)]
  cases m with
  | register service =>
    have hcode := take_code service []
    rw [List.append_nil] at hcode
    simp only [payload, hcode, Service.ofCode?_code]
    rfl
  | unregister service =>
    have hcode := take_code service []
    rw [List.append_nil] at hcode
    simp only [payload, hcode, Service.ofCode?_code]
    rfl
  | lookup service =>
    have hcode := take_code service []
    rw [List.append_nil] at hcode
    simp only [payload, hcode, Service.ofCode?_code]
    rfl
  | reply service task =>
    have hdrop : (littleEndian 4 service.code ++ littleEndian 4 (taskCode task)).drop 4 =
        littleEndian 4 (taskCode task) := List.drop_left' (length_littleEndian 4 _)
    simp only [payload, take_code, Service.ofCode?_code, hdrop, ofLittleEndian_four,
      onWire_reply]
    rfl

end ServiceMessage

namespace Body

/-- The body that a frame carries. -/
def onWire : Body → Body
  | scheduler message => scheduler message.onWire
  | services message => services message.onWire
  | verbatim space kind data => verbatim space kind data

theorem length_of_payload {b : Body} {bytes : Bytes} (h : b.payload = .ok bytes) :
    bytes.length ≤ maxPayloadSize := by
  cases b with
  | scheduler message =>
    cases h
    rw [message.length_payload]
    decide
  | services message =>
    cases h
    rw [message.length_payload]
    split <;> decide
  | verbatim space kind data =>
    simp only [payload] at h
    split at h
    · cases h
    · split at h
      · cases h
      · cases h
        omega

/-- What is wrong with a body is the sender's fault. -/
theorem isFatal_of_payload {b : Body} {e : Error} (h : b.payload = .error e) :
    e.isFatal = false := by
  cases b with
  | scheduler message => cases h
  | services message => cases h
  | verbatim space kind data =>
    simp only [payload] at h
    split at h
    · cases h
      rfl
    · split at h
      · cases h
        rfl
      · cases h

theorem ofPayload?_of_payload {b : Body} {bytes : Bytes} (h : b.payload = .ok bytes) :
    ofPayload? b.space b.kind.toNat bytes = some b.onWire := by
  cases b with
  | scheduler message =>
    cases h
    simp only [space, kind, ofPayload?, message.ofPayload?_payload]
    rfl
  | services message =>
    cases h
    simp only [space, kind, ofPayload?, message.ofPayload?_payload]
    rfl
  | verbatim space kind data =>
    simp only [payload] at h
    split at h
    · cases h
    · rename_i htyped
      split at h
      · cases h
      · cases h
        cases space <;> simp_all [ofPayload?, Namespace.isTyped, Body.space, Body.kind, onWire]

end Body

namespace Header

theorem read?_bytes (h : Header) (payload : Bytes) :
    read? (h.bytes ++ payload) = some
      ({ length := wireId h.length, sender := wireId h.sender
         recipient := wireId h.recipient, space := h.space % 256
         recipientKind := h.recipientKind % 256, kind := h.kind % 0x10000 }, payload) := by
  have four (n : Nat) := ofLittleEndian_four n
  have two : ofLittleEndian (littleEndian 2 h.kind) = h.kind % 0x10000 :=
    ofLittleEndian_littleEndian 2 h.kind
  simp only [littleEndian_succ, littleEndian_zero] at four two
  simp only [bytes, littleEndian_succ, littleEndian_zero, List.cons_append, List.nil_append,
    read?, four, two]
  simp

end Header

namespace Message

theorem isFatal_of_encode {m : Message} {e : Error} (h : m.encode = .error e) :
    e.isFatal = false := by
  rw [encode] at h
  split at h
  · rename_i hpayload
    cases h
    exact Body.isFatal_of_payload hpayload
  · cases h

/-- The message that a frame carries: every task id is cut to 32 bits. -/
def onWire (m : Message) : Message :=
  ⟨wireId m.sender, m.recipient.onWire, m.body.onWire⟩

theorem encode_eq_ok {m : Message} {frame : Bytes} (h : m.encode = .ok frame) :
    ∃ payload, m.body.payload = .ok payload ∧
      frame = (m.header payload.length).bytes ++ payload := by
  unfold encode at h
  split at h
  · cases h
  · rename_i payload hpayload
    cases h
    exact ⟨payload, hpayload, rfl⟩

theorem length_header_bytes (h : Header) : h.bytes.length = headerSize := by
  simp only [Header.bytes, List.length_append, length_littleEndian]
  rfl

theorem length_of_encode {m : Message} {frame : Bytes} (h : m.encode = .ok frame) :
    headerSize ≤ frame.length ∧ frame.length ≤ maxFrameSize := by
  obtain ⟨payload, hpayload, rfl⟩ := encode_eq_ok h
  have hlen := Body.length_of_payload hpayload
  rw [List.length_append, length_header_bytes]
  have hmax : maxPayloadSize = maxFrameSize - headerSize := rfl
  have hle : headerSize ≤ maxFrameSize := by decide
  omega

/-- The length field of a frame tells its length, whatever follows the frame. -/
theorem frameLength_of_encode {m : Message} {frame : Bytes} (h : m.encode = .ok frame)
    (rest : Bytes) : frameLength ((frame ++ rest).take headerSize) = .ok frame.length := by
  have hbound := length_of_encode h
  obtain ⟨payload, hpayload, rfl⟩ := encode_eq_ok h
  have htake : (((m.header payload.length).bytes ++ payload) ++ rest).take headerSize =
      (m.header payload.length).bytes := by
    rw [List.append_assoc, List.take_left' (length_header_bytes _)]
  have hfield : (m.header payload.length).bytes.take 4 =
      littleEndian 4 (headerSize + payload.length) := by
    simp only [Header.bytes, List.append_assoc]
    exact List.take_left' (length_littleEndian 4 _)
  rw [List.length_append, length_header_bytes] at hbound ⊢
  have hsize : wireId (headerSize + payload.length) = headerSize + payload.length :=
    wireId_of_lt (Nat.lt_of_le_of_lt hbound.2 (by decide))
  have hlen : ¬ (m.header payload.length).bytes.length < 4 := by
    rw [length_header_bytes]
    decide
  rw [htake, frameLength, if_neg hlen]
  simp only [hfield, ofLittleEndian_four, hsize]
  rw [if_pos hbound]

theorem decode?_of_encode {m : Message} {frame : Bytes} (h : m.encode = .ok frame) :
    decode? frame = some m.onWire := by
  have hbound := length_of_encode h
  obtain ⟨payload, hpayload, rfl⟩ := encode_eq_ok h
  have hlen : ((m.header payload.length).bytes ++ payload).length =
      headerSize + payload.length := by
    rw [List.length_append, length_header_bytes]
  rw [hlen] at hbound
  -- a frame is short enough for its length to fit the header
  have hsize : wireId (headerSize + payload.length) = headerSize + payload.length :=
    wireId_of_lt (Nat.lt_of_le_of_lt hbound.2 (by decide))
  have hspace : m.body.space.code % 256 = m.body.space.code := by
    cases m.body.space <;> rfl
  have hcode : m.recipient.code % 256 = m.recipient.code := by
    cases m.recipient <;> rfl
  have hkind : m.body.kind.toNat % 0x10000 = m.body.kind.toNat :=
    Nat.mod_eq_of_lt m.body.kind.toNat_lt
  have hwhole : wireId (headerSize + payload.length) = headerSize + payload.length ∧
      headerSize + payload.length ≤ maxFrameSize := ⟨hsize, hbound.2⟩
  rw [decode?, Header.read?_bytes]
  simp only [hlen]
  rw [header, if_pos hwhole]
  simp only [hspace, hcode, hkind, ofHeader?, Recipient.ofWire?_value, Namespace.ofCode?_code,
    Body.ofPayload?_of_payload hpayload]
  rfl

end Message

end Microkernel
