/-
What is sent and what comes back.

Only data that names a namespace of the kernel, or that is too long, has no frame
(`Body.Unsendable`). Every other message has one, and its frame decodes to the message on
the wire.

* **`Message.encode_then_decode`**: what becomes of a message, whatever is in it;
* **`Message.onWire_eq_self_iff`**: the message on the wire is the message itself exactly when
  a frame has room for all of its task ids (`Message.FitsWire`).

Design notes: a frame has one field for each task id of a message (`Message.taskIds`), and in
the reply to a lookup one number of that field is taken.
-/
import Microkernel.Proofs.Message.WireForm

namespace Microkernel

theorem wireId_eq_self_iff {id : Nat} : wireId id = id ↔ id < 0x100000000 :=
  Nat.mod_eq_iff_lt (by decide)

/-! ### Task ids of a message -/

/-- The task that a recipient names. -/
def Recipient.taskIds : Recipient → List TaskId
  | task id => [id]
  | service _ => []
  | registry => []

theorem Recipient.onWire_eq_self_iff {r : Recipient} :
    r.onWire = r ↔ ∀ id ∈ r.taskIds, id < 0x100000000 := by
  cases r with
  | task id => simp [onWire, taskIds, wireId_eq_self_iff]
  | service provided => simp [onWire, taskIds]
  | registry => simp [onWire, taskIds]

/-- The task that a body of the scheduler namespace names. -/
def SchedulerMessage.taskIds : SchedulerMessage → List TaskId
  | ping _ => []
  | pong _ => []
  | taskExited task => [task]

theorem SchedulerMessage.onWire_eq_self_iff {m : SchedulerMessage} :
    m.onWire = m ↔ ∀ id ∈ m.taskIds, id < 0x100000000 := by
  cases m with
  | ping token => simp [onWire, taskIds]
  | pong token => simp [onWire, taskIds]
  | taskExited task => simp [onWire, taskIds, wireId_eq_self_iff]

/-- The task that a body of the services namespace names. -/
def ServiceMessage.taskIds : ServiceMessage → List TaskId
  | register _ => []
  | unregister _ => []
  | lookup _ => []
  | reply _ task => task.toList

/-- The provider in a reply comes back if its id fits the field and does not mean "no
task". -/
theorem ServiceMessage.wireProvider_eq_iff {id : TaskId} :
    wireProvider id = some id ↔ id < 0x100000000 ∧ id ≠ 0xffffffff := by
  rw [wireProvider]
  constructor
  · intro h
    split at h
    · cases h
    · rename_i hne
      have hid : wireId id = id := Option.some.inj h
      rw [hid] at hne
      exact ⟨wireId_eq_self_iff.1 hid, hne⟩
  · rintro ⟨hlt, hne⟩
    rw [wireId_of_lt hlt, if_neg hne]

theorem ServiceMessage.onWire_eq_self_iff {m : ServiceMessage} :
    m.onWire = m ↔
      (∀ id ∈ m.taskIds, id < 0x100000000) ∧ ∀ service, m ≠ reply service (some 0xffffffff) := by
  cases m with
  | register service => simp [onWire, taskIds]
  | unregister service => simp [onWire, taskIds]
  | lookup service => simp [onWire, taskIds]
  | reply service task =>
    cases task with
    | none => simp [onWire, taskIds]
    | some id => simp [onWire, taskIds, wireProvider_eq_iff]

/-- The tasks that a body names. -/
def Body.taskIds : Body → List TaskId
  | scheduler message => message.taskIds
  | services message => message.taskIds
  | verbatim _ _ _ => []

theorem Body.onWire_eq_self_iff {b : Body} :
    b.onWire = b ↔ (∀ id ∈ b.taskIds, id < 0x100000000) ∧
      ∀ service, b ≠ services (.reply service (some 0xffffffff)) := by
  cases b with
  | scheduler message => simp [onWire, taskIds, SchedulerMessage.onWire_eq_self_iff]
  | services message => simp [onWire, taskIds, ServiceMessage.onWire_eq_self_iff]
  | verbatim space kind data => simp [onWire, taskIds]

namespace Message

/-- The tasks that a message names: its sender, its recipient and those of its body. -/
def taskIds (m : Message) : List TaskId :=
  m.sender :: (m.recipient.taskIds ++ m.body.taskIds)

/-- A frame has room for the task ids of a message, and none of them is taken for "no
task". -/
structure FitsWire (m : Message) : Prop where
  ids : ∀ id ∈ m.taskIds, id < 0x100000000
  reply : ∀ service, m.body ≠ .services (.reply service (some 0xffffffff))

theorem onWire_eq_self_iff {m : Message} : m.onWire = m ↔ m.FitsWire := by
  have hparts : m.onWire = m ↔
      wireId m.sender = m.sender ∧ m.recipient.onWire = m.recipient ∧ m.body.onWire = m.body :=
    Message.mk.injEq .. ▸ Iff.rfl
  have hids : (∀ id ∈ m.taskIds, id < 0x100000000) ↔ m.sender < 0x100000000 ∧
      (∀ id ∈ m.recipient.taskIds, id < 0x100000000) ∧
      ∀ id ∈ m.body.taskIds, id < 0x100000000 := by
    rw [taskIds, List.forall_mem_cons, List.forall_mem_append]
  rw [hparts, wireId_eq_self_iff, Recipient.onWire_eq_self_iff, Body.onWire_eq_self_iff]
  constructor
  · rintro ⟨hsender, hrecipient, hbody, hreply⟩
    exact ⟨hids.2 ⟨hsender, hrecipient, hbody⟩, hreply⟩
  · intro h
    obtain ⟨hsender, hrecipient, hbody⟩ := hids.1 h.ids
    exact ⟨hsender, hrecipient, hbody, h.reply⟩

end Message

/-! ### Messages without a frame -/

/-- Why a body cannot be sent. -/
inductive Body.Unsendable : Body → Error → Prop where
  /-- The kernel itself reads the bodies of the namespace. -/
  | typed {space : Namespace} (kind : UInt16) (data : Bytes)
      (h : space = .scheduler ∨ space = .services) :
      Unsendable (verbatim space kind data) .malformedMessage
  /-- The data exceeds what a frame has room for. -/
  | tooLong {space : Namespace} (kind : UInt16) {data : Bytes}
      (hspace : space ≠ .scheduler ∧ space ≠ .services) (h : 240 < data.length) :
      Unsendable (verbatim space kind data) .messageTooLarge

theorem Namespace.isTyped_iff {n : Namespace} :
    n.isTyped = true ↔ n = .scheduler ∨ n = .services := by
  cases n <;> simp [isTyped]

theorem Body.payload_eq_error_iff {b : Body} {e : Error} :
    b.payload = .error e ↔ b.Unsendable e := by
  constructor
  · intro h
    cases b with
    | scheduler message => cases h
    | services message => cases h
    | verbatim space kind data =>
      rw [payload] at h
      split at h
      · rename_i htyped
        cases h
        exact .typed kind data (Namespace.isTyped_iff.1 htyped)
      · rename_i htyped
        rw [Namespace.isTyped_iff, not_or] at htyped
        split at h
        · rename_i hlong
          cases h
          exact .tooLong kind htyped hlong
        · cases h
  · rintro (⟨kind, data, htyped⟩ | @⟨space, kind, data, htyped, hlong⟩)
    · rw [payload, if_pos (Namespace.isTyped_iff.2 htyped)]
    · rw [← not_or, ← Namespace.isTyped_iff] at htyped
      have hlong : maxPayloadSize < data.length := hlong
      rw [payload, if_neg htyped, if_pos hlong]

theorem Message.encode_eq_error_iff {m : Message} {e : Error} :
    m.encode = .error e ↔ m.body.Unsendable e := by
  rw [← Body.payload_eq_error_iff, encode]
  split
  · rename_i hpayload
    rw [hpayload]
  · rename_i hpayload
    rw [hpayload]
    constructor
    · intro h
      cases h
    · intro h
      cases h

/-! ### Messages with a frame -/

namespace Message

theorem decode_of_encode {m : Message} {frame : Bytes} (h : m.encode = .ok frame) :
    decode frame = .ok m.onWire := by
  rw [decode, decode?_of_encode h]

/-- The first four bytes of a frame are its length. -/
theorem lengthField_of_encode {m : Message} {frame : Bytes} (h : m.encode = .ok frame) :
    ofLittleEndian (frame.take 4) = frame.length := by
  have hlen := frameLength_of_encode h []
  have hhead : (frame.take headerSize).take 4 = frame.take 4 := List.take_take
  rw [List.append_nil, frameLength_eq_ok_iff, hhead] at hlen
  exact hlen.2.1

/-- A message is refused for what is wrong with its data. Otherwise its frame has 16 to 256
bytes, tells its own length, and decodes to the message on the wire: to the message itself
exactly when its task ids fit. -/
theorem encode_then_decode (m : Message) :
    match m.encode with
    | .error e => m.body.Unsendable e
    | .ok frame =>
      (∀ e, ¬ m.body.Unsendable e) ∧
      (16 ≤ frame.length ∧ frame.length ≤ 256 ∧
        ofLittleEndian (frame.take 4) = frame.length) ∧
      decode frame = .ok m.onWire ∧
      (decode frame = .ok m ↔ m.FitsWire) := by
  cases hencode : m.encode with
  | error e => exact encode_eq_error_iff.1 hencode
  | ok frame =>
    have hlen := length_of_encode hencode
    have hdecode := decode_of_encode hencode
    refine ⟨?_, ⟨hlen.1, hlen.2, lengthField_of_encode hencode⟩, hdecode, ?_⟩
    · intro e hunsendable
      have herror := encode_eq_error_iff.2 hunsendable
      rw [hencode] at herror
      cases herror
    · rw [hdecode, Except.ok.injEq, onWire_eq_self_iff]

end Message

end Microkernel
