/-
Operations under the lock, seen from one core.

An operation under the lock finds the core drained, and what it leaves is shown to the others
(`Core.after`). `Core.Step` collects what the whole system needs to know about such a step: the
core is settled again, which tasks it has gained and lost, and that the mail of the tasks that
stayed is accounted for.

* **`Settled.step_rearranged`**: choosing and moving tasks loses and gains nothing;
* **`Settled.step_delivered`**, **`Settled.step_received`**: one message comes or goes;
* **`Settled.step_joined`**, **`Settled.step_retired`**: one task comes or goes.
-/
import Mathlib.Algebra.Ring.Nat
import Microkernel.Proofs.Core.Inbox

namespace Microkernel.Core

variable {c c' : Core} {size : Nat} {s : Scheduler}

/-- What the tasks in the inbox add to the load. -/
def arrivingWeight (c : Core) : Nat :=
  (c.inbox.tasks.map fun t => t.priority.weight).sum

/-- A sound core between two operations: what it shows is true, and it has not stopped. -/
structure Settled (size : Nat) (c : Core) : Prop where
  sound : c.Sound size
  load : c.load = c.scheduler.score + c.arrivingWeight
  current : c.current = c.scheduler.current
  unfaulted : c.flags.faulted = false
  idle : c.scheduler.idle.isSome = true → c.isOnline = true

/-- The outcome of an operation under the lock that leaves the scheduler as `s`. -/
def after (c : Core) (s : Scheduler) : Core :=
  ({ c.drained with scheduler := s } : Core).publish

/-- What comes of one operation: the task `gone` has left, and those of `new` have come. -/
structure Step (size : Nat) (d : TaskId → Delivery) (gone : Option TaskId) (new : List TaskId)
    (c c' : Core) : Prop where
  settled : c'.Settled size
  id : c'.id = c.id
  online : c'.isOnline = c.isOnline
  members : (gone.toList ++ c'.members).Perm (new ++ c.members)
  /-- Mail comes only to tasks. -/
  mail : c.Vacant → c'.inbox.mail = []
  carries : Carries size d gone c c'

/-- One task has the delivery, and all others none. -/
def only (id : TaskId) (d : Delivery) : TaskId → Delivery :=
  fun j => if j = id then d else {}

theorem Step.vacant {d : TaskId → Delivery} {gone : Option TaskId}
    (h : Step size d gone [] c c') (hvacant : c.Vacant) : c'.Vacant := by
  have hmembers := h.members
  rw [hvacant.members] at hmembers
  exact ⟨(List.append_eq_nil_iff.1 hmembers.eq_nil).2, h.mail hvacant⟩

/-- A step with nothing accepted, returned, gone or new, followed by another. -/
theorem Step.trans {c'' : Core} {d : TaskId → Delivery} {gone : Option TaskId}
    {new : List TaskId} (h : Step size nothing none [] c c') (h' : Step size d gone new c' c'') :
    Step size d gone new c c'' where
  settled := h'.settled
  id := h'.id.trans h.id
  online := h'.online.trans h.online
  members := h'.members.trans (h.members.append_left new)
  mail hvacant := h'.mail (h.vacant hvacant)
  carries := h.carries.trans h'.carries

/-- Flags other than those for being online and for having stopped. -/
theorem Settled.step_setFlags (h : c.Settled size) {flags : CoreFlags}
    (honline : flags.online = false) (hfaulted : flags.faulted = false) :
    Step size nothing none [] c (c.setFlags flags) := by
  have hsame : (c.setFlags flags).isOnline = c.isOnline := by
    simp [isOnline, setFlags, CoreFlags.union, honline]
  have hsound : (c.setFlags flags).Sound size := ⟨h.sound.coherent, h.sound.mailboxes,
    h.sound.arriving, h.sound.fresh, h.sound.distinct, h.sound.encodable⟩
  refine ⟨⟨hsound, h.load, h.current, ?_, fun hidle => ?_⟩, rfl, hsame, List.Perm.refl _,
    Vacant.mail, fun id hid hidle _ => ⟨hid, hidle, Transit.refl _⟩⟩
  · simp [setFlags, CoreFlags.union, hfaulted, h.unfaulted]
  · rw [hsame]
    exact h.idle hidle

theorem mem_after (id : TaskId) : id ∈ (c.after s).members ↔ s.contains id = true := by
  rw [mem_members_iff]
  exact or_iff_left fun hid => by cases hid

theorem Sound.after (h : c.Sound size) (hco : s.Coherent) (hmail : s.SoundMail size) :
    (c.after s).Sound size where
  coherent := hco
  mailboxes := hmail
  arriving t ht := by cases ht
  fresh t ht := by cases ht
  distinct := List.nodup_nil
  encodable := h.drained.encodable

theorem Settled.after (h : c.Settled size) (hco : s.Coherent) (hmail : s.SoundMail size)
    (hidle : s.idle = c.scheduler.idle) : (c.after s).Settled size where
  sound := h.sound.after hco hmail
  load := rfl
  current := rfl
  unfaulted := h.unfaulted
  idle hsome := h.idle (hidle ▸ hsome)

theorem post_after (id : TaskId) :
    (c.after s).post id = ⟨mailFor id c.drained.inbox.mail, s.box id⟩ := by
  have hbox : (c.after s).box id = s.box id := box_of_no_arrivals rfl id
  rw [post, hbox]
  rfl

theorem post_drained (id : TaskId) :
    c.drained.post id = ⟨mailFor id c.drained.inbox.mail, c.drained.scheduler.box id⟩ := by
  have hbox : c.drained.box id = c.drained.scheduler.box id := box_of_no_arrivals rfl id
  rw [post, hbox]

/-- Mail is accounted for if it is from the drained core on. -/
theorem Sound.carries_after (h : c.Sound size) {d : TaskId → Delivery} {gone : Option TaskId}
    (hidle : s.idle = c.scheduler.idle)
    (hmail : ∀ id, c.drained.scheduler.contains id = true → gone ≠ some id →
      s.contains id = true ∧ ∀ waiting,
        Transit size (d id) ⟨waiting, c.drained.scheduler.box id⟩ ⟨waiting, s.box id⟩) :
    Carries size d gone c (c.after s) := by
  refine h.carries_drained.trans fun id hid hne hgone => ?_
  have hcontains := (h.contains_drained id).2 ((h.mem_drained id).1 hid)
  obtain ⟨hstays, htransit⟩ := hmail id hcontains hgone
  refine ⟨(mem_after id).2 hstays, ?_, ?_⟩
  · rw [h.idle_drained] at hne
    exact hidle ▸ hne
  · rw [post_drained, post_after]
    exact htransit _

theorem task?_pushTask (task : Task) (weight : Nat) (id : TaskId) :
    ({ c.reserveLoad weight with inbox := c.inbox.pushTask task } : Core).task? id =
      (c.task? id).or (if task.id = id then some task else none) := by
  -- the new task is looked at last
  have hlast : [task].find? (fun t => decide (t.id = id)) =
      if task.id = id then some task else none := by
    by_cases hid : task.id = id
    · simp [hid]
    · simp [hid]
  rw [← hlast, task?, task?, Option.or_assoc, ← List.find?_append]
  rfl

namespace Settled

/-- An operation after which the same tasks are there. -/
theorem step (h : c.Settled size) {d : TaskId → Delivery} (hco : s.Coherent)
    (hmail : s.SoundMail size) (hidle : s.idle = c.scheduler.idle)
    (hcontains : ∀ id, s.contains id = c.drained.scheduler.contains id)
    (htransit : ∀ id, c.drained.scheduler.contains id = true → ∀ waiting,
      Transit size (d id) ⟨waiting, c.drained.scheduler.box id⟩ ⟨waiting, s.box id⟩) :
    Step size d none [] c (c.after s) where
  settled := h.after hco hmail hidle
  id := rfl
  online := rfl
  members := h.sound.perm_of_mem (h.sound.after hco hmail) fun id => by
    rw [mem_after, hcontains, h.sound.contains_drained]
  mail hvacant := mail_drained_of_nil hvacant.mail
  carries := h.sound.carries_after hidle fun id hid _ =>
    ⟨(hcontains id).trans hid, htransit id hid⟩

theorem step_rearranged (h : c.Settled size) (hco : s.Coherent)
    (hr : Scheduler.Rearranged c.drained.scheduler s) :
    Step size nothing none [] c (c.after s) := by
  refine h.step hco (hr.soundMail h.sound.delivered.sound)
    (hr.idle.trans h.sound.idle_drained) hr.contains fun id _ waiting => ?_
  rw [hr.box]
  exact Transit.refl _

/-- The exited tasks were handed out. -/
theorem step_reaped (h : c.Settled size) :
    Step size nothing none [] c (c.after c.drained.scheduler.reap.2) :=
  h.step h.sound.drained.coherent.reap h.sound.delivered.sound h.sound.idle_drained
    (fun _ => rfl) fun _ _ _ => Transit.refl _

theorem step_withMailbox (h : c.Settled size) {id : TaskId} {t : Task} {mailbox : Mailbox}
    {d : Delivery} (ht : c.drained.scheduler.task? id = some t) (hmailbox : mailbox.Sound)
    (hcap : mailbox.capacity = t.mailbox.capacity) (hco : s.Coherent)
    (hr : Scheduler.Rearranged (c.drained.scheduler.withMailbox id mailbox) s)
    (htransit : ∀ waiting,
      Transit size d ⟨waiting, t.mailbox.messages⟩ ⟨waiting, mailbox.messages⟩) :
    Step size (only id d) none [] c (c.after s) := by
  have hin : c.drained.scheduler.contains id = true := Option.isSome_of_mem ht
  have hsound := h.sound.delivered.sound
  refine h.step hco (hr.soundMail (hsound.withMailbox hmailbox (hcap.trans (hsound id t ht).2)))
    (hr.idle.trans h.sound.idle_drained) (fun j => ?_) fun j _ waiting => ?_
  · rw [hr.contains, Scheduler.contains_withMailbox]
  · rw [hr.box, Scheduler.box_withMailbox mailbox j hin, only]
    by_cases hj : j = id
    · subst hj
      rw [if_pos rfl, if_pos rfl, Scheduler.box, ht]
      exact htransit waiting
    · rw [if_neg hj, if_neg hj]
      exact Transit.refl _

theorem step_delivered (h : c.Settled size) {id : TaskId} {t : Task} {message : Message}
    {mailbox : Mailbox} (ht : c.drained.scheduler.task? id = some t)
    (hsend : t.mailbox.send message = .ok mailbox) (hco : s.Coherent)
    (hr : Scheduler.Rearranged (c.drained.scheduler.withMailbox id mailbox) s) :
    Step size (only id { direct := [message] }) none [] c (c.after s) := by
  obtain ⟨hbefore, hsize⟩ := h.sound.delivered.sound id t ht
  obtain ⟨hmailbox, hmessages, hcap, -, frame, hframe, hfits⟩ := hbefore.send_ok hsend
  exact h.step_withMailbox ht hmailbox hcap hco hr fun waiting =>
    Transit.delivered message rfl hmessages ⟨frame, hframe, hsize ▸ hfits⟩

theorem step_received (h : c.Settled size) {id : TaskId} {t : Task} {mailbox : Mailbox}
    {filter : Option Filter} {message : Message}
    (ht : c.drained.scheduler.task? id = some t) (hmailbox : mailbox.Sound)
    (hcap : mailbox.capacity = t.mailbox.capacity)
    (hmessages : mailbox.messages = t.mailbox.messages.eraseP (Mailbox.admits filter))
    (hfind : t.mailbox.messages.find? (Mailbox.admits filter) = some message)
    (hco : s.Coherent)
    (hr : Scheduler.Rearranged (c.drained.scheduler.withMailbox id mailbox) s) :
    Step size (only id { returned := [message] }) none [] c (c.after s) :=
  h.step_withMailbox ht hmailbox hcap hco hr fun _ => Transit.returned rfl hfind hmessages

theorem only_empty (id : TaskId) : only id {} = nothing := by
  funext j
  simp [only, nothing]

/-- A mailbox in which nothing suitable was found. -/
theorem step_searched (h : c.Settled size) {id : TaskId} {t : Task} {mailbox : Mailbox}
    {filter : Option Filter} (ht : c.drained.scheduler.task? id = some t)
    (hmailbox : mailbox.Sound) (hcap : mailbox.capacity = t.mailbox.capacity)
    (hmessages : mailbox.messages = t.mailbox.messages.eraseP (Mailbox.admits filter))
    (hfind : t.mailbox.messages.find? (Mailbox.admits filter) = none) (hco : s.Coherent)
    (hr : Scheduler.Rearranged (c.drained.scheduler.withMailbox id mailbox) s) :
    Step size nothing none [] c (c.after s) := by
  have hsame : mailbox.messages = t.mailbox.messages := by
    rw [hmessages, List.eraseP_of_forall_not]
    exact List.find?_eq_none.1 hfind
  rw [← only_empty id]
  refine h.step_withMailbox ht hmailbox hcap hco hr fun waiting => ?_
  rw [hsame]
  exact Transit.refl _

/-- The current task has ended. -/
theorem step_retired (h : c.Settled size) {id : TaskId} {t : Task}
    (ht : c.drained.scheduler.task? id = some t) (hco : s.Coherent)
    (hr : Scheduler.Rearranged (c.drained.scheduler.retired id t) s) :
    Step size nothing (some id) [] c (c.after s) := by
  have htask : ∀ j, j ≠ id → (c.drained.scheduler.retired id t).task? j =
      c.drained.scheduler.task? j := by
    intro j hj
    rw [Scheduler.task?_retired, if_neg hj]
  have hcontains : ∀ j, s.contains j = true ↔ j ≠ id ∧ c.drained.scheduler.contains j = true := by
    intro j
    rw [hr.contains]
    have hdef : ∀ s : Scheduler, s.contains j = (s.task? j).isSome := fun _ => rfl
    rw [hdef, hdef, Scheduler.task?_retired]
    by_cases hj : j = id
    · simp [hj]
    · simp [hj]
  have hmail : s.SoundMail size := by
    refine hr.soundMail fun j u hu => ?_
    rw [Scheduler.task?_retired] at hu
    split at hu
    · cases hu
    · exact h.sound.delivered.sound j u hu
  have hidle := hr.idle.trans h.sound.idle_drained
  have hin : id ∈ c.members :=
    (h.sound.contains_drained id).1 (Option.isSome_of_mem ht)
  have hsound := h.sound.after hco hmail
  refine ⟨h.after hco hmail hidle, rfl, rfl, ?_, fun hvacant => mail_drained_of_nil hvacant.mail,
    h.sound.carries_after hidle fun j hj hgone => ?_⟩
  · have hgone : id ∉ (c.after s).members := by
      rw [mem_after, hcontains]
      exact fun hid => hid.1 rfl
    refine (List.perm_ext_iff_of_nodup (List.nodup_cons.2 ⟨hgone, hsound.nodup_members⟩)
      h.sound.nodup_members).2 fun j => ?_
    rw [List.mem_cons, mem_after, hcontains,
      h.sound.contains_drained]
    by_cases hj : j = id
    · subst hj
      simp [hin]
    · simp [hj]
  · -- the mailboxes of the tasks that stay are as they were
    have hne : j ≠ id := fun e => hgone (e ▸ rfl)
    refine ⟨(hcontains j).2 ⟨hne, hj⟩, fun waiting => ?_⟩
    have hbox : s.box j = c.drained.scheduler.box j := by
      rw [hr.box, Scheduler.box, htask j hne, Scheduler.box]
    rw [hbox]
    exact Transit.refl _

/-- A task with an id of its own has joined. -/
theorem step_joined (h : c.Settled size) {task : Task} {s₁ : Scheduler}
    (hfresh : task.id ∉ c.members) (hnew : task.mailbox = .new size)
    (hj : Scheduler.Joined c.drained.scheduler task s₁)
    (hidle₁ : s₁.idle = c.drained.scheduler.idle) (hco : s.Coherent)
    (hr : Scheduler.Rearranged s₁ s) :
    Step size nothing none [task.id] c (c.after s) := by
  have hcontains : ∀ j, s.contains j = true ↔
      j = task.id ∨ c.drained.scheduler.contains j = true := by
    intro j
    rw [hr.contains, hj.contains]
  have hmail : s.SoundMail size :=
    hr.soundMail (hj.soundMail h.sound.delivered.sound hnew)
  have hidle := hr.idle.trans (hidle₁.trans h.sound.idle_drained)
  have hsound := h.sound.after hco hmail
  refine ⟨h.after hco hmail hidle, rfl, rfl, ?_, fun hvacant => mail_drained_of_nil hvacant.mail,
    h.sound.carries_after hidle fun j hin _ => ?_⟩
  · refine (List.perm_ext_iff_of_nodup hsound.nodup_members
      (List.nodup_cons.2 ⟨hfresh, h.sound.nodup_members⟩)).2 fun j => ?_
    rw [mem_after, hcontains, h.sound.contains_drained, List.mem_cons]
  · refine ⟨(hcontains j).2 (.inr hin), fun waiting => ?_⟩
    have hne : j ≠ task.id := by
      rintro rfl
      exact hfresh ((h.sound.contains_drained _).1 hin)
    have hbox : s.box j = c.drained.scheduler.box j := by
      rw [hr.box, Scheduler.box, hj.task?, if_neg hne, Scheduler.box]
    rw [hbox]
    exact Transit.refl _

/-! ### Work that other cores leave -/

/-- A task was left in the inbox. -/
theorem step_pushTask (h : c.Settled size) {task : Task} (hfresh : task.id ∉ c.members)
    (hnew : task.mailbox = .new size) :
    Step size nothing none [task.id] c
      { c.reserveLoad task.priority.weight with inbox := c.inbox.pushTask task } := by
  have hmembers : ({ c.reserveLoad task.priority.weight with
      inbox := c.inbox.pushTask task } : Core).members = c.members ++ [task.id] := by
    simp [members, reserveLoad, Inbox.pushTask]
  have hload : c.load + task.priority.weight = c.scheduler.score +
      ((c.inbox.tasks ++ [task]).map fun t => t.priority.weight).sum := by
    rw [h.load, arrivingWeight, List.map_append, List.sum_append, List.map_singleton,
      List.sum_singleton, Nat.add_assoc]
  have hnot : c.scheduler.contains task.id = false := by
    rw [← Bool.not_eq_true]
    exact fun hin => hfresh ((mem_members_iff _).2 (.inl hin))
  have hdistinct : ((c.inbox.tasks ++ [task]).map Task.id).Nodup := by
    rw [List.map_append, List.nodup_append]
    refine ⟨h.sound.distinct, List.pairwise_singleton _ _, fun j hj i hi => ?_⟩
    rintro rfl
    obtain rfl := List.mem_singleton.1 hi
    exact hfresh ((mem_members_iff _).2 (.inr hj))
  refine ⟨⟨⟨h.sound.coherent, h.sound.mailboxes, fun t ht => ?_, fun t ht => ?_, hdistinct,
    h.sound.encodable⟩, hload, h.current, h.unfaulted, h.idle⟩, rfl, rfl, ?_, Vacant.mail,
    fun id hid hidle _ => ?_⟩
  · rcases List.mem_append.1 ht with ht | ht
    · exact h.sound.arriving t ht
    · obtain rfl := List.mem_singleton.1 ht
      rw [hnew]
      exact ⟨Mailbox.sound_new size, Mailbox.capacity_new size⟩
  · rcases List.mem_append.1 ht with ht | ht
    · exact h.sound.fresh t ht
    · obtain rfl := List.mem_singleton.1 ht
      exact hnot
  · rw [hmembers]
    exact List.perm_append_singleton _ _
  · refine ⟨hmembers ▸ List.mem_append_left _ hid, hidle, ?_⟩
    have htask := task?_pushTask (c := c) task task.priority.weight id
    rw [Option.or_of_isSome ((isSome_task?_iff id).2 hid)] at htask
    rw [post, post, box, box, htask]
    exact Transit.refl _

/-- A message for a task of the core was left in the inbox. -/
theorem step_pushMail (h : c.Settled size) {recipient : TaskId} {message : Message} {inbox : Inbox}
    (hin : recipient ∈ c.members)
    (hpush : c.inbox.pushMail (recipient, message) = .ok inbox)
    (hencode : ∃ frame, message.encode = .ok frame) :
    Step size (only recipient { posted := [message] }) none [] c { c with inbox := inbox } := by
  obtain ⟨-, rfl⟩ := Inbox.pushMail_eq_ok hpush
  refine ⟨⟨⟨h.sound.coherent, h.sound.mailboxes, h.sound.arriving, h.sound.fresh,
    h.sound.distinct, fun m hm => ?_⟩, h.load, h.current, h.unfaulted, h.idle⟩, rfl, rfl,
    List.Perm.refl _, fun hvacant => ?_, fun id hid hidle _ => ⟨hid, hidle, ?_⟩⟩
  · rcases List.mem_append.1 hm with hm | hm
    · exact h.sound.encodable m hm
    · obtain rfl := List.mem_singleton.1 hm
      exact hencode
  · rw [hvacant.members] at hin
    cases hin
  · rw [post, post, mailFor_append, mailFor_cons, mailFor_nil, only]
    by_cases hid : id = recipient
    · subst hid
      rw [if_pos rfl, if_pos rfl]
      exact Transit.posted message rfl rfl
    · have hne : recipient ≠ id := fun e => hid e.symm
      rw [if_neg hid, if_neg hne, List.append_nil]
      exact Transit.refl _

/-! ### Being put online -/

/-- The idle and the cleanup task come to a core without tasks. -/
theorem opened (h : c.Settled size) (hnone : c.members = []) {idle cleanup : Task}
    (hne : cleanup.id ≠ idle.id) (hidle : idle.mailbox = .new size)
    (hcleanup : cleanup.mailbox = .new size) :
    ∃ s₁ s₂, c.drained.scheduler.installIdle idle = (.ok (), s₁) ∧
      s₁.installCleanup cleanup = (.ok (), s₂) ∧
      ((c.after s₂).setFlags { online := true }).Settled size ∧
      ((c.after s₂).setFlags { online := true }).members.Perm [cleanup.id, idle.id] := by
  have hcontains : ∀ id, c.drained.scheduler.contains id = false := by
    intro id
    rw [← Bool.not_eq_true, h.sound.contains_drained, hnone]
    exact List.not_mem_nil
  obtain ⟨s₁, s₂, hs₁, hs₂, hco₂, hj₁, hj₂⟩ :=
    h.sound.drained.coherent.installServants hcontains hne
  have hmail₁ := hj₁.soundMail h.sound.drained.mailboxes hidle
  have hmail₂ := hj₂.soundMail hmail₁ hcleanup
  have hsound := h.sound.after hco₂ hmail₂
  refine ⟨s₁, s₂, hs₁, hs₂, ⟨⟨hsound.coherent, hsound.mailboxes, hsound.arriving, hsound.fresh,
    hsound.distinct, hsound.encodable⟩, rfl, rfl, ?_, fun _ => ?_⟩, ?_⟩
  · have hflags : (c.after s₂).flags = c.flags := rfl
    simp [setFlags, CoreFlags.union, hflags, h.unfaulted]
  · simp [isOnline, setFlags, CoreFlags.union]
  · have hmembers : ((c.after s₂).setFlags { online := true }).members = (c.after s₂).members :=
      rfl
    rw [hmembers]
    refine (List.perm_ext_iff_of_nodup hsound.nodup_members ?_).2 fun id => ?_
    · simpa using hne
    · rw [mem_after, hj₂.contains, hj₁.contains, hcontains]
      simp

end Settled

end Microkernel.Core
