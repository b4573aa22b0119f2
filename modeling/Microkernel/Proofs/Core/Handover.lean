/-
The mail of an inbox while it is drained.

A drain takes all mail out of an inbox, lets go of the inbox, and later puts back what could not be
delivered. Other cores go on leaving mail in between. `Handover` is an inbox together with the mail
that a drain holds and with what became of all mail, and `Handover.step` is one event.

* **`Kept.step`**: what every event keeps of the mail;
* **`Handover.run_keeps_mail`**: no mail is lost or duplicated, mail that is put back stands in front
  of what arrived meanwhile, and the mail that waits exceeds the capacity at most by what was
  accepted during drains;
* **`Handover.exceeds_every_bound`**: the last part cannot be had for less. An inbox looks only at
  the mail in it, so each drain that hands nothing over can add to what waits.

Design notes: a drain hands over any part of its batch and retains the rest in its order
(`Divides`). That the drain of a core is of this kind is `Core.Sound.divides_drained`.
-/
import Microkernel.Proofs.Core.Inbox

namespace Microkernel

/-- An inbox, the mail that a drain has taken out of it, and what became of all mail. -/
structure Handover where
  inbox : Inbox
  /-- The mail that was taken out by the drain under way. -/
  batch : Option (List Mail)
  /-- Mail that was accepted, oldest first. -/
  accepted : List Mail
  /-- Mail that was taken out and not put back. -/
  handed : List Mail
  /-- Mail that was accepted after the last drain began. -/
  since : List Mail
  /-- How much mail was accepted while a drain was under way. -/
  late : Nat

namespace Handover

/-- An empty inbox. -/
def new (capacity : Nat) : Handover where
  inbox := .new capacity
  batch := none
  accepted := []
  handed := []
  since := []
  late := 0

/-- Mail that waits, oldest first: what a drain holds, and what is in the inbox. -/
def pending (s : Handover) : List Mail :=
  s.batch.getD [] ++ s.inbox.mail

/-- The mail of a batch is handed over or retained, and retained in its order. -/
structure Divides (batch handed retained : List Mail) : Prop where
  perm : (handed ++ retained).Perm batch
  order : retained.Sublist batch

instance (batch handed retained : List Mail) : Decidable (Divides batch handed retained) :=
  decidable_of_iff ((handed ++ retained).Perm batch ∧ retained.Sublist batch)
    ⟨fun h => ⟨h.1, h.2⟩, fun h => ⟨h.perm, h.order⟩⟩

/-- What can happen to an inbox. -/
inductive Event where
  /-- Another core leaves mail. -/
  | push (mail : Mail)
  /-- The owner begins a drain, and takes all mail out. -/
  | take
  /-- The owner ends a drain, and puts mail back. -/
  | finish (handed retained : List Mail)

/-- Mail was accepted, which leads to the given inbox. -/
def accept (s : Handover) (mail : Mail) (inbox : Inbox) : Handover :=
  { s with
    inbox
    accepted := s.accepted ++ [mail]
    since := s.since ++ [mail]
    late := if s.batch.isSome then s.late + 1 else s.late }

/-- A drain begins. -/
def take (s : Handover) : Handover :=
  { s with inbox := s.inbox.takeMail.2, batch := some s.inbox.takeMail.1, since := [] }

/-- A drain ends. -/
def finish (s : Handover) (handed retained : List Mail) : Handover :=
  { s with
    inbox := s.inbox.restoreMail retained
    batch := none
    handed := s.handed ++ handed }

/-- One event, if it can happen now. At most one drain is under way. -/
def step (s : Handover) : Event → Option Handover
  | .push mail =>
    match s.inbox.pushMail mail with
    | .error _ => some s
    | .ok inbox => some (s.accept mail inbox)
  | .take => if s.batch = none then some s.take else none
  | .finish handed retained =>
    match s.batch with
    | none => none
    | some batch => if Divides batch handed retained then some (s.finish handed retained) else none

/-- Events one after the other. -/
def run (s : Handover) : List Event → Option Handover
  | [] => some s
  | event :: rest => (s.step event).bind fun s => s.run rest

variable {capacity : Nat} {s s' : Handover}

/-- Everything that an event can do. -/
theorem step_cases {event : Event} (h : s.step event = some s') :
    (∃ mail e, event = .push mail ∧ s.inbox.pushMail mail = .error e ∧ s' = s) ∨
    (∃ mail inbox, event = .push mail ∧ s.inbox.pushMail mail = .ok inbox ∧
      s' = s.accept mail inbox) ∨
    (event = .take ∧ s.batch = none ∧ s' = s.take) ∨
    ∃ batch handed retained, event = .finish handed retained ∧ s.batch = some batch ∧
      Divides batch handed retained ∧ s' = s.finish handed retained := by
  cases event with
  | push mail =>
    rw [step] at h
    cases hpush : s.inbox.pushMail mail with
    | error e =>
      rw [hpush] at h
      cases h
      exact .inl ⟨mail, e, rfl, hpush, rfl⟩
    | ok inbox =>
      rw [hpush] at h
      cases h
      exact .inr (.inl ⟨mail, inbox, rfl, hpush, rfl⟩)
  | take =>
    rw [step] at h
    split at h
    · rename_i hnone
      cases h
      exact .inr (.inr (.inl ⟨rfl, hnone, rfl⟩))
    · cases h
  | finish handed retained =>
    rw [step] at h
    cases hbatch : s.batch with
    | none =>
      rw [hbatch] at h
      cases h
    | some batch =>
      rw [hbatch] at h
      dsimp only at h
      split at h
      · rename_i hdivides
        cases h
        exact .inr (.inr (.inr ⟨batch, handed, retained, rfl, rfl, hdivides, rfl⟩))
      · cases h

/-- What holds of an inbox of the given capacity at all times. -/
structure Kept (capacity : Nat) (s : Handover) : Prop where
  room : s.inbox.capacity = capacity
  /-- All mail is still there, once. -/
  perm : (s.handed ++ s.pending).Perm s.accepted
  order : s.pending.Sublist s.accepted
  /-- While a drain is under way, only later mail is in the inbox. -/
  meanwhile : s.batch ≠ none → s.inbox.mail = s.since ∧ s.since.length ≤ capacity
  bound : s.pending.length ≤ capacity + s.late

theorem kept_new (capacity : Nat) : (new capacity).Kept capacity where
  room := rfl
  perm := .refl _
  order := .refl _
  meanwhile h := absurd rfl h
  bound := Nat.zero_le _

namespace Kept

theorem accept (h : s.Kept capacity) {mail : Mail} {inbox : Inbox}
    (hpush : s.inbox.pushMail mail = .ok inbox) : (s.accept mail inbox).Kept capacity := by
  obtain ⟨hfree, rfl⟩ := Inbox.pushMail_eq_ok hpush
  rw [h.room] at hfree
  have hpending : (s.accept mail { s.inbox with mail := s.inbox.mail ++ [mail] }).pending =
      s.pending ++ [mail] := (List.append_assoc _ _ _).symm
  refine ⟨h.room, ?_, ?_, fun hbatch => ?_, ?_⟩
  · rw [hpending, ← List.append_assoc]
    exact h.perm.append_right _
  · rw [hpending]
    exact h.order.append_right _
  · obtain ⟨hsince, hfew⟩ := h.meanwhile hbatch
    have hlength : (s.since ++ [mail]).length ≤ capacity := by
      rw [List.length_append, ← hsince]
      exact hfree
    exact ⟨congrArg (· ++ [mail]) hsince, hlength⟩
  · have hbound := h.bound
    rw [hpending, List.length_append, List.length_singleton, Handover.accept]
    dsimp only
    cases hbatch : s.batch with
    | none =>
      -- all mail that waits is in the inbox, which is not full
      rw [pending, hbatch, Option.getD_none, List.nil_append, Option.isSome_none,
        if_neg Bool.false_ne_true]
      omega
    | some batch =>
      rw [Option.isSome_some, if_pos rfl]
      omega

theorem take (h : s.Kept capacity) (hnone : s.batch = none) : s.take.Kept capacity := by
  -- what was in the inbox is in the batch now, so the same mail waits
  have hpending : s.take.pending = s.pending := by
    rw [pending, pending, hnone]
    exact List.append_nil _
  refine ⟨h.room, ?_, ?_, fun _ => ⟨rfl, Nat.zero_le _⟩, ?_⟩
  · rw [hpending]
    exact h.perm
  · rw [hpending]
    exact h.order
  · rw [hpending]
    exact h.bound

theorem finish (h : s.Kept capacity) {batch handed retained : List Mail}
    (hbatch : s.batch = some batch) (hdivides : Divides batch handed retained) :
    (s.finish handed retained).Kept capacity := by
  have hpending : s.pending = batch ++ s.inbox.mail := by
    rw [pending, hbatch, Option.getD_some]
  have hleft : (s.finish handed retained).pending = retained ++ s.inbox.mail := rfl
  have hsub : (s.finish handed retained).pending.Sublist s.pending := by
    rw [hpending, hleft]
    exact hdivides.order.append_right _
  refine ⟨h.room, ?_, hsub.trans h.order, fun hnone => absurd rfl hnone,
    Nat.le_trans hsub.length_le h.bound⟩
  -- the two parts of the batch stand between what was handed over and what arrived meanwhile
  have hall : (s.handed ++ handed ++ (retained ++ s.inbox.mail)).Perm (s.handed ++ s.pending) := by
    rw [hpending, List.append_assoc, ← List.append_assoc handed]
    exact (hdivides.perm.append_right _).append_left _
  exact hall.trans h.perm

/-- Every event keeps it. -/
theorem step (h : s.Kept capacity) {event : Event} (hstep : s.step event = some s') :
    s'.Kept capacity := by
  rcases step_cases hstep with ⟨-, -, -, -, rfl⟩ | ⟨mail, inbox, -, hpush, rfl⟩ | ⟨-, hnone, rfl⟩ |
    ⟨batch, handed, retained, -, hbatch, hdivides, rfl⟩
  · exact h
  · exact h.accept hpush
  · exact h.take hnone
  · exact h.finish hbatch hdivides

theorem run (h : s.Kept capacity) {events : List Event} (hrun : s.run events = some s') :
    s'.Kept capacity := by
  -- every suffix of the events begins where the invariant holds
  induction events generalizing s with
  | nil =>
    cases hrun
    exact h
  | cons event rest ih =>
    obtain ⟨next, hstep, hrest⟩ := Option.bind_eq_some_iff.1 hrun
    exact ih (h.step hstep) hrest

/-- What is put back stands in front of what arrived meanwhile. -/
theorem mail_of_finish (h : s.Kept capacity) {handed retained : List Mail}
    (hstep : s.step (.finish handed retained) = some s') :
    s'.inbox.mail = retained ++ s.since ∧ s.since.length ≤ capacity := by
  rcases step_cases hstep with ⟨_, _, he, -⟩ | ⟨_, _, he, -⟩ | ⟨he, -⟩ |
    ⟨batch, _, _, he, hbatch, -, rfl⟩
  · cases he
  · cases he
  · cases he
  · cases he
    obtain ⟨hsince, hfew⟩ := h.meanwhile (by rw [hbatch]; exact Option.some_ne_none batch)
    exact ⟨congrArg (retained ++ ·) hsince, hfew⟩

end Kept

/-- Mail is left and drained in any order of events. None of the mail that was accepted is lost or
duplicated, and what waits is in the order in which it was accepted. It is no more than the capacity
and what was accepted during drains, so without the latter the inbox is bounded; mail is refused
exactly while the inbox itself is full. A drain that ends puts back what it retains in front of the
mail that arrived meanwhile. -/
theorem run_keeps_mail {events : List Event} (h : (new capacity).run events = some s) :
    (s.handed ++ s.pending).Perm s.accepted ∧ s.pending.Sublist s.accepted ∧
      s.pending.length ≤ capacity + s.late ∧
      (∀ mail, s.inbox.pushMail mail = .error .mailboxFull ↔ capacity ≤ s.inbox.mail.length) ∧
      ∀ handed retained s', s.step (.finish handed retained) = some s' →
        s'.inbox.mail = retained ++ s.since ∧ s.since.length ≤ capacity := by
  have hkept := (kept_new capacity).run h
  refine ⟨hkept.perm, hkept.order, hkept.bound, fun mail => ?_, fun _ _ _ => hkept.mail_of_finish⟩
  rw [Inbox.pushMail_eq_error, hkept.room]
  exact and_iff_right rfl

/-- Mail with a number for a task. -/
def numbered (id : TaskId) (n : UInt32) : Mail :=
  (id, ⟨0, .task id, .scheduler (.ping n)⟩)

/-- A drain delivers the mail for one of two tasks, and more mail arrives meanwhile. -/
def partialDrain : List Event :=
  [.push (numbered 5 1), .push (numbered 6 2), .push (numbered 5 3), .take, .push (numbered 6 4),
    .finish [numbered 6 2] [numbered 5 1]]

theorem run_keeps_mail_partialDrain :
    ∃ s, (new 2).run partialDrain = some s ∧ s.inbox.mail = [numbered 5 1, numbered 6 4] ∧
      s.inbox.mail.length ≤ 2 + 1 ∧ (s.handed ++ s.pending).Perm s.accepted := by
  obtain ⟨hperm, -, hbound, -⟩ := @run_keeps_mail 2 _ partialDrain rfl
  exact ⟨_, rfl, rfl, hbound, hperm⟩

/-! ### Drains that hand nothing over -/

/-- Drains that hand nothing over. During each of them one more mail arrives. -/
def fruitless (mail : Mail) : Nat → List Mail → List Event
  | 0, _ => []
  | n + 1, waiting =>
    .take :: .push mail :: .finish [] waiting :: fruitless mail n (waiting ++ [mail])

/-- The inbox is empty once its mail was taken out, so it accepts more. -/
theorem pushMail_take (hroom : 0 < s.inbox.capacity) (mail : Mail) :
    s.take.inbox.pushMail mail = .ok { s.take.inbox with mail := [mail] } :=
  if_neg (Nat.not_le_of_gt hroom)

theorem run_fruitless (mail : Mail) (n : Nat) (hroom : 0 < s.inbox.capacity)
    (hnone : s.batch = none) :
    ∃ s', s.run (fruitless mail n s.inbox.mail) = some s' ∧
      s'.inbox.mail = s.inbox.mail ++ List.replicate n mail := by
  induction n generalizing s with
  | zero => exact ⟨s, rfl, (List.append_nil _).symm⟩
  | succ n ih =>
    -- the inbox looks empty to the mail that arrives, while the drain holds all that waits
    let filled := s.take.accept mail { s.take.inbox with mail := [mail] }
    have htake : s.step .take = some s.take := if_pos hnone
    have hpush : s.take.step (.push mail) = some filled := by
      rw [step, pushMail_take hroom]
    have hfinish : filled.step (.finish [] s.inbox.mail) = some (filled.finish [] s.inbox.mail) :=
      if_pos ⟨.refl _, .refl _⟩
    obtain ⟨s', hrun, hmail⟩ := ih (s := filled.finish [] s.inbox.mail) hroom rfl
    refine ⟨s', ?_, hmail.trans ?_⟩
    · rw [fruitless, run, htake, Option.bind_some, run, hpush, Option.bind_some, run, hfinish]
      exact hrun
    · rw [List.replicate_succ, ← List.singleton_append, ← List.append_assoc]
      rfl

/-- There is no bound: an inbox that accepts mail at all can come to hold more than any number. -/
theorem exceeds_every_bound (hroom : 0 < capacity) (bound : Nat) :
    ∃ events s, (new capacity).run events = some s ∧ bound < s.inbox.mail.length := by
  obtain ⟨s, hrun, hmail⟩ :=
    run_fruitless (s := new capacity) (numbered 5 1) (bound + 1) hroom rfl
  have hempty : (new capacity).inbox.mail = [] := rfl
  refine ⟨_, s, hrun, ?_⟩
  rw [hmail, hempty, List.nil_append, List.length_replicate]
  exact Nat.lt_succ_self bound

/-- An inbox for one mail holds two. -/
theorem drain_exceeds_capacity :
    ∃ s, (new 1).run [.push (numbered 1 1), .take, .push (numbered 1 2),
        .finish [] [numbered 1 1]] = some s ∧
      s.inbox.capacity = 1 ∧ s.inbox.mail = [numbered 1 1, numbered 1 2] :=
  ⟨_, rfl, rfl, rfl⟩

end Handover

/-- The drain of a core divides the mail in its inbox. -/
theorem Core.Sound.divides_drained {c : Core} {size : Nat} (h : c.Sound size) :
    ∃ handed, Handover.Divides c.inbox.mail handed c.drained.inbox.mail := by
  have horder := h.delivered.sublist
  obtain ⟨handed, hperm⟩ := horder.exists_perm_append
  exact ⟨handed, List.perm_append_comm.trans hperm.symm, horder⟩

end Microkernel
