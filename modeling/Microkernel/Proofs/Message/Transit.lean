/-
The ways of the messages for one task.

A message for a task waits in the inbox of a core, or is in the mailbox of the task, or was
returned to the task (`Post` holds the first two). It comes into the mailbox through the inbox or
directly (`Route`). `Carried size d arrivals p p'` says how the post `p` became `p'` while the
messages of `d` were accepted and returned:

* what came through the inbox arrived in the order in which it was accepted, and the rest waits;
* what was in the mailbox or arrived there is, message by message, in the mailbox or returned;
* the mailbox keeps the order of arrival, and takes nothing that is longer than its size.

**`Transit.trans`**: ways that follow each other are one way.
-/
import Microkernel.Proofs.Message.WireForm

namespace Microkernel

/-- The message has a frame, which a mailbox of the given size has room for. -/
def Message.Fits (size : Nat) (m : Message) : Prop :=
  ∃ frame, m.encode = .ok frame ∧ frame.length ≤ size

/-- How a message comes into a mailbox. -/
inductive Route where
  | direct
  | inbox
  deriving DecidableEq

/-- A message that came into a mailbox. -/
structure Arrival where
  route : Route
  message : Message

namespace Arrival

/-- What a mailbox stores of a message. -/
def stored (a : Arrival) : Message :=
  a.message.onWire

/-- The messages that came along one route, in order. -/
def along (route : Route) (arrivals : List Arrival) : List Message :=
  (arrivals.filter fun a => a.route = route).map message

@[simp] theorem along_append (route : Route) (a b : List Arrival) :
    along route (a ++ b) = along route a ++ along route b := by
  simp [along]

theorem along_map_self (route : Route) (messages : List Message) :
    along route (messages.map (Arrival.mk route)) = messages := by
  induction messages with
  | nil => rfl
  | cons m rest ih => simpa [along] using ih

theorem along_map_of_ne {route other : Route} (h : other ≠ route) (messages : List Message) :
    along route (messages.map (Arrival.mk other)) = [] := by
  simp [along, h]

theorem exists_of_mem_along {route : Route} {arrivals : List Arrival} {m : Message}
    (h : m ∈ along route arrivals) : ∃ a ∈ arrivals, a.message = m := by
  obtain ⟨a, ha, hm⟩ := List.mem_map.1 h
  exact ⟨a, (List.mem_filter.1 ha).1, hm⟩

theorem map_stored_mk (route : Route) (messages : List Message) :
    (messages.map (Arrival.mk route)).map stored = messages.map Message.onWire := by
  rw [List.map_map]
  rfl

end Arrival

/-- The messages of one task that were accepted and returned meanwhile. -/
structure Delivery where
  /-- Accepted for the inbox of another core. -/
  posted : List Message := []
  /-- Accepted on the core of the task. -/
  direct : List Message := []
  returned : List Message := []

instance : Append Delivery where
  append d d' := ⟨d.posted ++ d'.posted, d.direct ++ d'.direct, d.returned ++ d'.returned⟩

/-- The messages for one task that are on their way, and those in its mailbox. -/
structure Post where
  waiting : List Message
  box : List Message

/-- No message is lost, doubled or changed on its way from `p` to `p'`. -/
structure Carried (size : Nat) (d : Delivery) (arrivals : List Arrival) (p p' : Post) : Prop where
  inbox : p.waiting ++ d.posted = Arrival.along .inbox arrivals ++ p'.waiting
  direct : Arrival.along .direct arrivals = d.direct
  conserved : (p.box ++ arrivals.map Arrival.stored).Perm (d.returned ++ p'.box)
  ordered : p'.box.Sublist (p.box ++ arrivals.map Arrival.stored)
  fits : ∀ a ∈ arrivals, a.message.Fits size

/-- Ways that follow each other, and the arrivals on both of them. -/
theorem Carried.trans {size : Nat} {d d' : Delivery} {arrivals arrivals' : List Arrival}
    {p p' p'' : Post} (h : Carried size d arrivals p p') (h' : Carried size d' arrivals' p' p'') :
    Carried size (d ++ d') (arrivals ++ arrivals') p p'' := by
  refine ⟨?_, ?_, ?_, ?_, fun a ha => ?_⟩
  · calc
      p.waiting ++ (d.posted ++ d'.posted) =
          Arrival.along .inbox arrivals ++ (p'.waiting ++ d'.posted) := by
        rw [← List.append_assoc, h.inbox, List.append_assoc]
      _ = Arrival.along .inbox (arrivals ++ arrivals') ++ p''.waiting := by
        rw [h'.inbox, Arrival.along_append, List.append_assoc]
  · rw [Arrival.along_append, h.direct, h'.direct]
    rfl
  · rw [List.map_append, ← List.append_assoc]
    refine (h.conserved.append_right _).trans ?_
    have hstep := h'.conserved.append_left d.returned
    rw [← List.append_assoc, ← List.append_assoc] at hstep
    exact hstep
  · rw [List.map_append, ← List.append_assoc]
    exact h'.ordered.trans (h.ordered.append_right _)
  · exact (List.mem_append.1 ha).elim (h.fits a) (h'.fits a)

/-- The messages of `p` and those accepted meanwhile are those of `p'` and those returned. -/
def Transit (size : Nat) (d : Delivery) (p p' : Post) : Prop :=
  ∃ arrivals, Carried size d arrivals p p'

namespace Transit

variable {size : Nat}

theorem refl (p : Post) : Transit size {} p p :=
  ⟨[], by simp [Arrival.along], rfl, by simp, by simp, by simp⟩

theorem trans {d d' : Delivery} {p p' p'' : Post} (h : Transit size d p p')
    (h' : Transit size d' p' p'') : Transit size (d ++ d') p p'' := by
  obtain ⟨arrivals, h⟩ := h
  obtain ⟨arrivals', h'⟩ := h'
  exact ⟨arrivals ++ arrivals', h.trans h'⟩

/-- Nothing accepted or returned. -/
theorem quiet_trans {d : Delivery} {p p' p'' : Post} (h : Transit size {} p p')
    (h' : Transit size d p' p'') : Transit size d p p'' :=
  h.trans h'

/-- Messages come into the mailbox, and none is returned from it. -/
theorem of_arrivals {d : Delivery} (arrivals : List Arrival) {p p' : Post}
    (hinbox : p.waiting ++ d.posted = Arrival.along .inbox arrivals ++ p'.waiting)
    (hdirect : Arrival.along .direct arrivals = d.direct) (hnone : d.returned = [])
    (hbox : p'.box = p.box ++ arrivals.map Arrival.stored)
    (hfits : ∀ a ∈ arrivals, a.message.Fits size) : Transit size d p p' := by
  refine ⟨arrivals, hinbox, hdirect, ?_, hbox ▸ List.Sublist.refl _, hfits⟩
  rw [hnone, hbox, List.nil_append]

/-- Messages leave the inbox for the mailbox. -/
theorem entered (messages : List Message) {p p' : Post}
    (hwaiting : p.waiting = messages ++ p'.waiting)
    (hbox : p'.box = p.box ++ messages.map Message.onWire) (hfits : ∀ m ∈ messages, m.Fits size) :
    Transit size {} p p' := by
  refine of_arrivals (messages.map (Arrival.mk .inbox)) ?_ ?_ rfl ?_ fun a ha => ?_
  · rw [Arrival.along_map_self, hwaiting, List.append_nil]
  · exact Arrival.along_map_of_ne (by decide) messages
  · rw [Arrival.map_stored_mk, hbox]
  · obtain ⟨m, hm, rfl⟩ := List.mem_map.1 ha
    exact hfits m hm

/-- A message is put into the mailbox at once. -/
theorem delivered (message : Message) {p p' : Post} (hwaiting : p'.waiting = p.waiting)
    (hbox : p'.box = p.box ++ [message.onWire]) (hfits : message.Fits size) :
    Transit size { direct := [message] } p p' := by
  refine of_arrivals [⟨.direct, message⟩] ?_ rfl rfl hbox fun a ha => ?_
  · rw [hwaiting]
    exact List.append_nil _
  · obtain rfl := List.mem_singleton.1 ha
    exact hfits

/-- A message is left in the inbox. -/
theorem posted (message : Message) {p p' : Post} (hwaiting : p'.waiting = p.waiting ++ [message])
    (hbox : p'.box = p.box) : Transit size { posted := [message] } p p' := by
  refine of_arrivals [] hwaiting.symm rfl rfl ?_ (by simp)
  rw [hbox, List.map_nil, List.append_nil]

/-- A message is returned from the mailbox. -/
theorem returned {message : Message} {q : Message → Bool} {p p' : Post}
    (hwaiting : p'.waiting = p.waiting) (hfind : p.box.find? q = some message)
    (hbox : p'.box = p.box.eraseP q) : Transit size { returned := [message] } p p' := by
  refine ⟨[], ?_, rfl, ?_, ?_, by simp⟩
  · simp [Arrival.along, hwaiting]
  · rw [hbox, List.map_nil, List.append_nil]
    obtain ⟨hq, before, after, hsplit, hbefore⟩ := List.find?_eq_some_iff_append.1 hfind
    rw [hsplit, List.eraseP_append_right _ (by simpa using hbefore), List.eraseP_cons_of_pos hq]
    exact List.perm_middle
  · rw [hbox, List.map_nil, List.append_nil]
    exact List.eraseP_sublist

end Transit

end Microkernel
