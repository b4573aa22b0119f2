/-
Taking over the work that others left.

A core takes in the tasks that wait in its inbox (`Scheduler.joinAll`) and then delivers the mail
(`Scheduler.deliverAll`). `s.box id` lists the messages in the mailbox of a live task.

* **`Coherent.joinAll`**: tasks with ids of their own are never refused, and join with everything
  that they own;
* **`Coherent.deliverAll`**: mail goes into the mailboxes from the front on, and what has to wait
  keeps its order (`Delivered`).

Design notes: `Delivered` speaks of the ids that are stalled when the delivery begins, since the
mail behind a refused message is delivered with one more of them.
-/
import Microkernel.Proofs.Message.Transit
import Microkernel.Proofs.Scheduler.Operations
import Microkernel.Core

namespace Microkernel

/-! ### Mail by recipient -/

/-- The messages for one task, in order. -/
def mailFor (id : TaskId) (mail : List Mail) : List Message :=
  (mail.filter fun m => m.1 = id).map Prod.snd

@[simp] theorem mailFor_nil (id : TaskId) : mailFor id [] = [] := rfl

theorem mailFor_cons (id recipient : TaskId) (message : Message) (mail : List Mail) :
    mailFor id ((recipient, message) :: mail) =
      if recipient = id then message :: mailFor id mail else mailFor id mail := by
  by_cases h : recipient = id
  · simp [mailFor, h]
  · simp [mailFor, h]

theorem mailFor_append (id : TaskId) (a b : List Mail) :
    mailFor id (a ++ b) = mailFor id a ++ mailFor id b := by
  simp [mailFor]

namespace Scheduler

variable {s s' : Scheduler} {size : Nat}

/-- The messages in the mailbox of a live task. -/
def box (s : Scheduler) (id : TaskId) : List Message :=
  ((s.task? id).map fun t => t.mailbox.messages).getD []

/-- Every mailbox has the given size, and holds messages and nothing else. -/
def SoundMail (size : Nat) (s : Scheduler) : Prop :=
  ∀ id t, s.task? id = some t → t.mailbox.Sound ∧ t.mailbox.capacity = size

theorem mailbox_of_fixed {t t' : Task} (h : t'.fixed = t.fixed) : t'.mailbox = t.mailbox := by
  have hmailbox : t'.fixed.mailbox = t.fixed.mailbox := by rw [h]
  exact hmailbox

theorem Rearranged.mailbox (h : Rearranged s s') (id : TaskId) :
    (s'.task? id).map Task.mailbox = (s.task? id).map Task.mailbox := by
  have hmailbox : ∀ o : Option Task, o.map Task.mailbox = (o.map Task.fixed).map Task.mailbox := by
    intro o
    cases o <;> rfl
  rw [hmailbox, h.fixed, ← hmailbox]

theorem box_eq (id : TaskId) :
    s.box id = (((s.task? id).map Task.mailbox).map Mailbox.messages).getD [] := by
  rw [Option.map_map]
  rfl

theorem Rearranged.box (h : Rearranged s s') (id : TaskId) : s'.box id = s.box id := by
  rw [box_eq, box_eq, h.mailbox]

theorem Rearranged.soundMail (h : Rearranged s s') (hs : s.SoundMail size) : s'.SoundMail size := by
  intro id t' ht'
  obtain ⟨t, ht, hfixed⟩ := h.symm.task?_of_task? ht'
  rw [← mailbox_of_fixed hfixed]
  exact hs id t ht

theorem contains_withMailbox (id : TaskId) (mailbox : Mailbox) (j : TaskId) :
    (s.withMailbox id mailbox).contains j = s.contains j :=
  contains_modifyTask id _ j

theorem box_withMailbox {id : TaskId} (mailbox : Mailbox) (j : TaskId)
    (hid : s.contains id = true) :
    (s.withMailbox id mailbox).box j = if j = id then mailbox.messages else s.box j := by
  rw [box, task?_withMailbox]
  by_cases hj : j = id
  · subst hj
    obtain ⟨t, ht⟩ := Option.isSome_iff_exists.1 hid
    have ht : s.task? j = some t := ht
    simp [ht]
  · simp [hj, box]

theorem SoundMail.withMailbox (hs : s.SoundMail size) {id : TaskId} {mailbox : Mailbox}
    (hm : mailbox.Sound) (hsize : mailbox.capacity = size) :
    (s.withMailbox id mailbox).SoundMail size := by
  intro j t ht
  rw [task?_withMailbox] at ht
  split at ht
  · obtain ⟨t', -, rfl⟩ := Option.map_eq_some_iff.1 ht
    exact ⟨hm, hsize⟩
  · exact hs j t ht

theorem Joined.soundMail {task : Task} (h : Joined s task s') (hs : s.SoundMail size)
    (hnew : task.mailbox = .new size) : s'.SoundMail size := by
  have hmailbox : task.mailbox.Sound ∧ task.mailbox.capacity = size := by
    rw [hnew]
    exact ⟨Mailbox.sound_new size, Mailbox.capacity_new size⟩
  intro j t ht
  rw [h.task?] at ht
  split at ht
  · cases ht
    exact hmailbox
  · exact hs j t ht

/-- `s'` has the same tasks as `s`, and the same of them are special. -/
structure SameTasks (s s' : Scheduler) : Prop where
  contains : ∀ id, s'.contains id = s.contains id
  idle : s'.idle = s.idle
  cleanup : s'.cleanup = s.cleanup
  current : s'.current = s.current

theorem SameTasks.refl (s : Scheduler) : SameTasks s s :=
  ⟨fun _ => rfl, rfl, rfl, rfl⟩

theorem SameTasks.trans {s'' : Scheduler} (h : SameTasks s s') (h' : SameTasks s' s'') :
    SameTasks s s'' :=
  ⟨fun id => (h'.contains id).trans (h.contains id), h'.idle.trans h.idle,
    h'.cleanup.trans h.cleanup, h'.current.trans h.current⟩

/-! ### Taking over tasks -/

/-- The scheduler after it took in tasks. -/
def joinAll (s : Scheduler) (tasks : List Task) : Scheduler :=
  tasks.foldl (fun s task => (s.schedule task).2) s

/-- `s'` has the tasks of `s` and of a list, with everything that they own. -/
structure Manned (s : Scheduler) (tasks : List Task) (s' : Scheduler) : Prop where
  coherent : s'.Coherent
  fixed : ∀ id, (s'.task? id).map Task.fixed =
    ((s.task? id).or (tasks.find? fun t => t.id = id)).map Task.fixed
  idle : s'.idle = s.idle
  cleanup : s'.cleanup = s.cleanup
  current : s'.current = s.current

/-- New tasks with ids of their own are never refused. -/
theorem Coherent.schedule_of_fresh (h : s.Coherent) {task : Task}
    (hfresh : s.contains task.id = false) :
    (s.schedule task).1 = .ok () ∧ (s.schedule task).2.Coherent ∧
      Joined s task (s.schedule task).2 ∧ (s.schedule task).2.idle = s.idle ∧
      (s.schedule task).2.cleanup = s.cleanup := by
  rcases h.schedule (Prod.eta (s.schedule task)).symm with
    ⟨-, hcontains, -⟩ | ⟨hok, -, hco, hj, -, hidle, hcleanup⟩
  · rw [hfresh] at hcontains
    cases hcontains
  · exact ⟨hok, hco, hj, hidle, hcleanup⟩

theorem Coherent.joinAll (h : s.Coherent) {tasks : List Task}
    (hfresh : ∀ t ∈ tasks, s.contains t.id = false) (hdistinct : (tasks.map Task.id).Nodup) :
    Manned s tasks (s.joinAll tasks) := by
  induction tasks generalizing s with
  | nil => exact ⟨h, fun id => by simp [Scheduler.joinAll], rfl, rfl, rfl⟩
  | cons task tasks ih =>
    rw [List.map_cons, List.nodup_cons] at hdistinct
    obtain ⟨hnot, hrest⟩ := hdistinct
    obtain ⟨-, hco, hj, hidle, hcleanup⟩ :=
      h.schedule_of_fresh (hfresh task List.mem_cons_self)
    have hmanned := ih hco (fun t ht => hj.contains_eq_false
      (hfresh t (List.mem_cons_of_mem _ ht)) fun e => hnot (e ▸ List.mem_map_of_mem ht)) hrest
    refine ⟨hmanned.coherent, fun id => ?_, hmanned.idle.trans hidle,
      hmanned.cleanup.trans hcleanup, hmanned.current.trans hj.current⟩
    have hnone : s.task? task.id = none :=
      get?_of_contains_eq_false (hfresh task List.mem_cons_self)
    show (((s.schedule task).2.joinAll tasks).task? id).map Task.fixed = _
    rw [hmanned.fixed, hj.task?]
    by_cases hid : id = task.id
    · subst hid
      rw [if_pos rfl, hnone, List.find?_cons_of_pos (by simp)]
      rfl
    · rw [if_neg hid, List.find?_cons_of_neg (by simpa [eq_comm] using hid)]

/-! ### Taking over mail -/

/-- Delivers mail in order and answers the mail that has to wait: mail that a full mailbox does
not take, and all further mail for the same task. -/
def deliverAll (s : Scheduler) : List TaskId → List Mail → List Mail × Scheduler
  | _, [] => ([], s)
  | stalled, (recipient, message) :: rest =>
    if recipient ∈ stalled then
      ((recipient, message) :: (s.deliverAll stalled rest).1, (s.deliverAll stalled rest).2)
    else
      match s.deliver recipient message with
      | (.error .mailboxFull, s) =>
        ((recipient, message) :: (s.deliverAll (recipient :: stalled) rest).1,
          (s.deliverAll (recipient :: stalled) rest).2)
      | (_, s) => s.deliverAll stalled rest

/-- A property that each delivery keeps is kept when all mail is delivered. -/
theorem deliverAll_keeps {P : Scheduler → Prop}
    (hP : ∀ s : Scheduler, P s → ∀ recipient message, P (s.deliver recipient message).2)
    (h : P s) (stalled : List TaskId) (mail : List Mail) : P (s.deliverAll stalled mail).2 := by
  induction mail generalizing s stalled with
  | nil => exact h
  | cons mail rest ih =>
    obtain ⟨recipient, message⟩ := mail
    have hdelivered := hP s h recipient message
    rw [deliverAll]
    split
    · exact ih h stalled
    · split
      all_goals
        rename_i hdeliver
        rw [hdeliver] at hdelivered
        exact ih hdelivered _

/-- What delivering a list of mail comes to, where no mail is delivered to the tasks that are
stalled from the start. -/
structure Delivered (size : Nat) (s : Scheduler) (stalled : List TaskId) (mail kept : List Mail)
    (s' : Scheduler) : Prop where
  coherent : s'.Coherent
  sound : s'.SoundMail size
  same : SameTasks s s'
  sublist : kept.Sublist mail
  /-- Mail for a task that takes any goes into its mailbox from the front on. -/
  entered : ∀ id, s.contains id = true → s.idle ≠ some id → ∃ messages,
    mailFor id mail = messages ++ mailFor id kept ∧
      s'.box id = s.box id ++ messages.map Message.onWire ∧ (id ∈ stalled → messages = []) ∧
      ∀ m ∈ messages, m.Fits size
  dropped : ∀ id, id ∉ stalled → ¬ (s.contains id = true ∧ s.idle ≠ some id) →
    mailFor id kept = []
  held : ∀ id, id ∈ stalled → (s'.task? id).map Task.mailbox = (s.task? id).map Task.mailbox
  refused : ∀ id message rest, id ∉ stalled → mailFor id kept = message :: rest →
    ∃ t, s'.task? id = some t ∧ t.mailbox.send message = .error .mailboxFull

namespace Delivered

variable {stalled : List TaskId} {rest kept : List Mail} {recipient : TaskId} {message : Message}

theorem nil (h : s.Coherent) (hsound : s.SoundMail size) (stalled : List TaskId) :
    Delivered size s stalled [] [] s := by
  refine ⟨h, hsound, SameTasks.refl s, List.Sublist.refl _, fun id _ _ => ⟨[], ?_⟩,
    fun _ _ _ => rfl, fun _ _ => rfl, fun id message rest _ hkept => ?_⟩
  · simp
  · cases hkept

/-- Mail behind a message that had to wait waits as well. -/
theorem behind (hd : Delivered size s stalled rest kept s') (hstalled : recipient ∈ stalled) :
    Delivered size s stalled ((recipient, message) :: rest) ((recipient, message) :: kept) s' := by
  have hne : ∀ id, id ∉ stalled → recipient ≠ id := fun id hid e => hid (e ▸ hstalled)
  refine ⟨hd.coherent, hd.sound, hd.same, hd.sublist.cons_cons _, fun id hid hidle => ?_,
    fun id hid hnot => ?_, hd.held, fun id m ms hid hkept => ?_⟩
  · obtain ⟨messages, hmail, hbox, hnone, hfit⟩ := hd.entered id hid hidle
    refine ⟨messages, ?_, hbox, hnone, hfit⟩
    rw [mailFor_cons, mailFor_cons, hmail]
    split
    · rename_i heq
      rw [hnone (heq ▸ hstalled)]
      rfl
    · rfl
  · rw [mailFor_cons, if_neg (hne id hid)]
    exact hd.dropped id hid hnot
  · rw [mailFor_cons, if_neg (hne id hid)] at hkept
    exact hd.refused id m ms hid hkept

/-- Mail is dropped if no task takes it. -/
theorem unclaimed (hd : Delivered size s stalled rest kept s')
    (hnot : ¬ (s.contains recipient = true ∧ s.idle ≠ some recipient)) :
    Delivered size s stalled ((recipient, message) :: rest) kept s' := by
  refine ⟨hd.coherent, hd.sound, hd.same, hd.sublist.cons _, fun id hid hidle => ?_, hd.dropped,
    hd.held, hd.refused⟩
  have hne : recipient ≠ id := by
    rintro rfl
    exact hnot ⟨hid, hidle⟩
  rw [mailFor_cons, if_neg hne]
  exact hd.entered id hid hidle

/-- A message waits for which there is no room, and stalls the mail for its task. -/
theorem full {t : Task} (hd : Delivered size s (recipient :: stalled) rest kept s')
    (ht : s.task? recipient = some t) (hidle : s.idle ≠ some recipient)
    (hsend : t.mailbox.send message = .error .mailboxFull) :
    Delivered size s stalled ((recipient, message) :: rest) ((recipient, message) :: kept) s' := by
  have hnew : ∀ id, recipient ≠ id → id ∉ stalled → id ∉ recipient :: stalled :=
    fun id hne hid hin => (List.mem_cons.1 hin).elim (fun e => hne e.symm) hid
  refine ⟨hd.coherent, hd.sound, hd.same, hd.sublist.cons_cons _, fun id hid hidle => ?_,
    fun id hid hnot => ?_, fun id hid => hd.held id (List.mem_cons_of_mem _ hid),
    fun id m ms hid hkept => ?_⟩
  · obtain ⟨messages, hmail, hbox, hnone, hfit⟩ := hd.entered id hid hidle
    refine ⟨messages, ?_, hbox, fun hin => hnone (List.mem_cons_of_mem _ hin), hfit⟩
    rw [mailFor_cons, mailFor_cons, hmail]
    split
    · rename_i heq
      rw [hnone (heq ▸ List.mem_cons_self)]
      rfl
    · rfl
  · have hne : recipient ≠ id := by
      rintro rfl
      exact hnot ⟨Option.isSome_of_mem ht, hidle⟩
    rw [mailFor_cons, if_neg hne]
    exact hd.dropped id (hnew id hne hid) hnot
  · -- the mailbox of a stalled task stays full
    rw [mailFor_cons] at hkept
    split at hkept
    · rename_i heq
      subst heq
      obtain ⟨rfl, -⟩ := List.cons.inj hkept
      have hheld := hd.held recipient List.mem_cons_self
      rw [ht, Option.map_some] at hheld
      obtain ⟨t', ht', hmailbox⟩ := Option.map_eq_some_iff.1 hheld
      exact ⟨t', ht', hmailbox ▸ hsend⟩
    · rename_i hne
      exact hd.refused id m ms (hnew id hne hid) hkept

/-- A message goes into the mailbox. -/
theorem taken {s₁ : Scheduler} {t : Task} {mailbox : Mailbox}
    (hd : Delivered size s₁ stalled rest kept s') (hstalled : recipient ∉ stalled)
    (ht : s.task? recipient = some t) (hsame : SameTasks s s₁)
    (hr : Rearranged (s.withMailbox recipient mailbox) s₁)
    (hmessages : mailbox.messages = t.mailbox.messages ++ [message.onWire])
    (hfits : message.Fits size) :
    Delivered size s stalled ((recipient, message) :: rest) kept s' := by
  have hin : s.contains recipient = true := Option.isSome_of_mem ht
  have hbox₁ : ∀ id, s₁.box id =
      if id = recipient then s.box id ++ [message.onWire] else s.box id := by
    intro id
    rw [hr.box, box_withMailbox mailbox id hin]
    by_cases hid : id = recipient
    · subst hid
      rw [if_pos rfl, if_pos rfl, hmessages, box, ht]
      rfl
    · rw [if_neg hid, if_neg hid]
  refine ⟨hd.coherent, hd.sound, hsame.trans hd.same, hd.sublist.cons _, fun id hid hidle => ?_,
    fun id hid hnot => ?_, fun id hid => ?_, hd.refused⟩
  · rw [← hsame.contains] at hid
    rw [← hsame.idle] at hidle
    obtain ⟨messages, hmail, hbox, hnone, hfit⟩ := hd.entered id hid hidle
    rw [hbox₁] at hbox
    rw [mailFor_cons, hmail]
    by_cases heq : recipient = id
    · subst heq
      rw [if_pos rfl] at hbox
      refine ⟨message :: messages, by rw [if_pos rfl]; rfl, ?_,
        fun hin => absurd hin hstalled, fun m hm => ?_⟩
      · rw [hbox, List.append_assoc]
        rfl
      · rcases List.mem_cons.1 hm with rfl | hm
        · exact hfits
        · exact hfit m hm
    · rw [if_neg fun e => heq e.symm] at hbox
      exact ⟨messages, if_neg heq, hbox, hnone, hfit⟩
  · rw [← hsame.contains, ← hsame.idle] at hnot
    exact hd.dropped id hid hnot
  · have hne : id ≠ recipient := fun e => hstalled (e ▸ hid)
    rw [hd.held id hid, hr.mailbox, task?_withMailbox, if_neg hne]

end Delivered

theorem Coherent.deliverAll (h : s.Coherent) (hsound : s.SoundMail size) {mail : List Mail}
    (hencode : ∀ m ∈ mail, ∃ frame, m.2.encode = .ok frame) (stalled : List TaskId) :
    Delivered size s stalled mail (s.deliverAll stalled mail).1 (s.deliverAll stalled mail).2 := by
  induction mail generalizing s stalled with
  | nil => exact .nil h hsound stalled
  | cons mail rest ih =>
    obtain ⟨recipient, message⟩ := mail
    have hrest : ∀ m ∈ rest, ∃ frame, m.2.encode = .ok frame :=
      fun m hm => hencode m (List.mem_cons_of_mem _ hm)
    rw [Scheduler.deliverAll]
    by_cases hstalled : recipient ∈ stalled
    · rw [if_pos hstalled]
      exact (ih h hsound hrest stalled).behind hstalled
    rw [if_neg hstalled]
    rcases hdeliver : s.deliver recipient message with ⟨result, s₁⟩
    rcases h.deliver hdeliver with
      ⟨rfl, rfl, hnot⟩ | ⟨t, ht, hidle, ⟨e, rfl, rfl, hsend⟩ |
        ⟨woken, mailbox, rfl, hsend, hco, hr, hcurrent⟩⟩
    · exact (ih h hsound hrest stalled).unclaimed hnot
    · -- what waits in an inbox has a frame, so a mailbox refuses it only for want of room
      obtain ⟨frame, hframe⟩ := hencode _ List.mem_cons_self
      obtain ⟨rfl, -⟩ := ((hsound recipient t ht).1.send_eq_error hframe).1 hsend
      exact (ih h hsound hrest (recipient :: stalled)).full ht hidle hsend
    · obtain ⟨hbefore, hsize⟩ := hsound recipient t ht
      obtain ⟨hmailbox, hmessages, hcap, -, frame, hframe, hfits⟩ := hbefore.send_ok hsend
      have hsound₁ : s₁.SoundMail size := hr.soundMail
        (hsound.withMailbox hmailbox (hcap.trans hsize))
      have hsame : SameTasks s s₁ := ⟨fun id => (hr.contains id).trans
        (contains_withMailbox recipient mailbox id), hr.idle, hr.cleanup, hcurrent⟩
      exact (ih hco hsound₁ hrest stalled).taken hstalled ht hsame hr hmessages
        ⟨frame, hframe, hsize ▸ hfits⟩

end Scheduler

end Microkernel
