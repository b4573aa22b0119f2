/-
What a core holds.

The tasks of a core (`Core.members`) are those of its scheduler and those that wait in its inbox,
and the messages of a task wait in the inbox or are in the mailbox of the task (`Core.post`).
`Core.Sound` is the invariant of one core. `Core.drained` is the core after it took over the work
in its inbox.

* **`Sound.drained`**: a core that takes over its inbox stays sound;
* **`Sound.perm_drained`**: it has the same tasks as before;
* **`Sound.carries_drained`**: every message for one of them is still there.

Design notes: a core that has drained its inbox has no tasks in it, so from there on the mailboxes
of a core are those of its scheduler (`box_of_no_arrivals`).
-/
import Microkernel.Proofs.Scheduler.Intake

namespace Microkernel

theorem Inbox.pushMail_eq_ok {inbox inbox' : Inbox} {mail : Mail}
    (h : inbox.pushMail mail = .ok inbox') :
    inbox.mail.length < inbox.capacity ∧ inbox' = { inbox with mail := inbox.mail ++ [mail] } := by
  rw [pushMail] at h
  split at h
  · cases h
  · cases h
    exact ⟨by omega, rfl⟩

/-- Only a full inbox refuses mail. -/
theorem Inbox.pushMail_eq_error {inbox : Inbox} {mail : Mail} {e : Error} :
    inbox.pushMail mail = .error e ↔
      e = .mailboxFull ∧ inbox.capacity ≤ inbox.mail.length := by
  rw [pushMail]
  split
  · rename_i hfull
    rw [Except.error.injEq, eq_comm]
    exact (and_iff_left hfull).symm
  · rename_i hroom
    constructor
    · intro h
      cases h
    · rintro ⟨-, hfull⟩
      exact absurd hfull hroom

/-- Mail that is left brings no task. -/
theorem Inbox.tasks_of_pushMail {inbox inbox' : Inbox} {mail : Mail}
    (h : inbox.pushMail mail = .ok inbox') : inbox'.tasks = inbox.tasks := by
  obtain ⟨-, rfl⟩ := pushMail_eq_ok h
  rfl

namespace Core

variable {c c' : Core} {size : Nat}

/-- The task with an id, in the scheduler or in the inbox. -/
def task? (c : Core) (id : TaskId) : Option Task :=
  (c.scheduler.task? id).or (c.inbox.tasks.find? fun t => t.id = id)

/-- The ids of the tasks in the scheduler and in the inbox. -/
def members (c : Core) : List TaskId :=
  c.scheduler.tasks.keys ++ c.inbox.tasks.map Task.id

/-- The messages in the mailbox of a task. -/
def box (c : Core) (id : TaskId) : List Message :=
  ((c.task? id).map fun t => t.mailbox.messages).getD []

/-- The messages of a task: those in the inbox of the core, and those in the mailbox. -/
def post (c : Core) (id : TaskId) : Post where
  waiting := mailFor id c.inbox.mail
  box := c.box id

/-- The scheduler is coherent, mailboxes of the given size hold messages, and the inbox holds new
tasks and mail that has a frame. -/
structure Sound (size : Nat) (c : Core) : Prop where
  coherent : c.scheduler.Coherent
  mailboxes : c.scheduler.SoundMail size
  arriving : ∀ t ∈ c.inbox.tasks, t.mailbox.Sound ∧ t.mailbox.capacity = size
  fresh : ∀ t ∈ c.inbox.tasks, c.scheduler.contains t.id = false
  distinct : (c.inbox.tasks.map Task.id).Nodup
  encodable : ∀ m ∈ c.inbox.mail, ∃ frame, m.2.encode = .ok frame

/-- There is nothing on the core. -/
structure Vacant (c : Core) : Prop where
  members : c.members = []
  mail : c.inbox.mail = []

theorem mem_members_iff (id : TaskId) :
    id ∈ c.members ↔ c.scheduler.contains id = true ∨ id ∈ c.inbox.tasks.map Task.id := by
  rw [members, List.mem_append, Table.mem_keys]
  rfl

theorem Sound.nodup_members (h : c.Sound size) : c.members.Nodup := by
  refine List.nodup_append.2 ⟨c.scheduler.tasks.nodup_keys, h.distinct, fun id hid j hj => ?_⟩
  rintro rfl
  obtain ⟨t, ht, rfl⟩ := List.mem_map.1 hj
  have hcontains : c.scheduler.contains t.id = true := Table.mem_keys.1 hid
  rw [h.fresh t ht] at hcontains
  cases hcontains

/-- Cores with the same tasks list the same tasks. -/
theorem Sound.perm_of_mem (h : c.Sound size) (h' : c'.Sound size)
    (hmem : ∀ id, id ∈ c'.members ↔ id ∈ c.members) : c'.members.Perm c.members :=
  (List.perm_ext_iff_of_nodup h'.nodup_members h.nodup_members).2 hmem

/-! ### Taking over the inbox -/

/-- The core after it took over the tasks and the mail in its inbox. -/
def drained (c : Core) : Core :=
  let s := c.scheduler.joinAll c.inbox.tasks
  { c with
    scheduler := (s.deliverAll [] c.inbox.mail).2
    inbox := { c.inbox with tasks := [], mail := (s.deliverAll [] c.inbox.mail).1 } }

theorem mail_drained_of_nil (h : c.inbox.mail = []) : c.drained.inbox.mail = [] := by
  show ((c.scheduler.joinAll c.inbox.tasks).deliverAll [] c.inbox.mail).1 = []
  rw [h]
  rfl

theorem Sound.manned (h : c.Sound size) :
    Scheduler.Manned c.scheduler c.inbox.tasks (c.scheduler.joinAll c.inbox.tasks) :=
  h.coherent.joinAll h.fresh h.distinct

theorem Sound.soundMail_joinAll (h : c.Sound size) :
    (c.scheduler.joinAll c.inbox.tasks).SoundMail size := by
  intro id t ht
  have hfixed := h.manned.fixed id
  rw [ht, Option.map_some] at hfixed
  obtain ⟨t', ht', hsame⟩ := Option.map_eq_some_iff.1 hfixed.symm
  rw [← Scheduler.mailbox_of_fixed hsame]
  rcases Option.or_eq_some_iff.1 ht' with hin | ⟨-, hin⟩
  · exact h.mailboxes id t' hin
  · exact h.arriving t' (List.mem_of_find?_eq_some hin)

theorem Sound.delivered (h : c.Sound size) :
    Scheduler.Delivered size (c.scheduler.joinAll c.inbox.tasks) [] c.inbox.mail
      c.drained.inbox.mail c.drained.scheduler :=
  h.manned.coherent.deliverAll h.soundMail_joinAll h.encodable []

theorem Sound.drained (h : c.Sound size) : c.drained.Sound size where
  coherent := h.delivered.coherent
  mailboxes := h.delivered.sound
  arriving t ht := by cases ht
  fresh t ht := by cases ht
  distinct := List.nodup_nil
  encodable m hm := h.encodable m (h.delivered.sublist.subset hm)

theorem Sound.idle_drained (h : c.Sound size) : c.drained.scheduler.idle = c.scheduler.idle :=
  h.delivered.same.idle.trans h.manned.idle

theorem isSome_find?_id (tasks : List Task) (id : TaskId) :
    (tasks.find? fun t => t.id = id).isSome = true ↔ id ∈ tasks.map Task.id := by
  rw [List.find?_isSome]
  simp

theorem isSome_task?_iff (id : TaskId) : (c.task? id).isSome = true ↔ id ∈ c.members := by
  rw [task?, Option.isSome_or, Bool.or_eq_true, isSome_find?_id, mem_members_iff]
  rfl

theorem Sound.contains_joinAll (h : c.Sound size) (id : TaskId) :
    (c.scheduler.joinAll c.inbox.tasks).contains id = true ↔ id ∈ c.members := by
  have hfixed := congrArg Option.isSome (h.manned.fixed id)
  rw [Option.isSome_map, Option.isSome_map] at hfixed
  rw [← isSome_task?_iff, task?, ← hfixed]
  rfl

theorem Sound.contains_drained (h : c.Sound size) (id : TaskId) :
    c.drained.scheduler.contains id = true ↔ id ∈ c.members := by
  rw [h.delivered.same.contains, h.contains_joinAll]

theorem Sound.mem_drained (h : c.Sound size) (id : TaskId) :
    id ∈ c.drained.members ↔ id ∈ c.members := by
  rw [mem_members_iff, h.contains_drained]
  exact or_iff_left (fun hid => by cases hid)

theorem Sound.perm_drained (h : c.Sound size) : c.drained.members.Perm c.members :=
  h.perm_of_mem h.drained h.mem_drained

theorem Sound.box_joinAll (h : c.Sound size) (id : TaskId) :
    (c.scheduler.joinAll c.inbox.tasks).box id = c.box id := by
  have hmessages : ∀ o : Option Task, (o.map fun t => t.mailbox.messages) =
      (o.map Task.fixed).map fun t => t.mailbox.messages := by
    intro o
    cases o <;> rfl
  rw [Scheduler.box, hmessages, h.manned.fixed, ← hmessages]
  rfl

/-- A core whose inbox holds no tasks has the mailboxes of its scheduler. -/
theorem box_of_no_arrivals (hnone : c.inbox.tasks = []) (id : TaskId) :
    c.box id = c.scheduler.box id := by
  rw [box, task?, hnone, List.find?_nil, Option.or_none, Scheduler.box]

/-! ### Mail on its way -/

/-- The tasks of `c` are in `c'`, and their mail is accounted for. The idle task takes no mail,
and the task `gone` is not looked at. -/
def Carries (size : Nat) (d : TaskId → Delivery) (gone : Option TaskId) (c c' : Core) : Prop :=
  ∀ id, id ∈ c.members → c.scheduler.idle ≠ some id → gone ≠ some id →
    id ∈ c'.members ∧ c'.scheduler.idle ≠ some id ∧
      Transit size (d id) (c.post id) (c'.post id)

/-- Nothing is accepted and nothing returned. -/
def nothing : TaskId → Delivery :=
  fun _ => {}

theorem Carries.trans {c'' : Core} {d : TaskId → Delivery} {gone : Option TaskId}
    (h : Carries size nothing none c c') (h' : Carries size d gone c' c'') :
    Carries size d gone c c'' := by
  intro id hid hidle hgone
  obtain ⟨hid', hidle', htransit⟩ := h id hid hidle (fun e => by cases e)
  obtain ⟨hid'', hidle'', htransit'⟩ := h' id hid' hidle' hgone
  exact ⟨hid'', hidle'', htransit.quiet_trans htransit'⟩

theorem Sound.carries_drained (h : c.Sound size) : Carries size nothing none c c.drained := by
  intro id hid hidle _
  have hcontains := (h.contains_joinAll id).2 hid
  have hidle' : (c.scheduler.joinAll c.inbox.tasks).idle ≠ some id := h.manned.idle ▸ hidle
  obtain ⟨messages, hmail, hbox, -, hfits⟩ := h.delivered.entered id hcontains hidle'
  rw [h.box_joinAll] at hbox
  exact ⟨(h.mem_drained id).2 hid, h.idle_drained ▸ hidle,
    Transit.entered messages hmail ((box_of_no_arrivals rfl id).trans hbox) hfits⟩

/-- The first message that waits for a task with an empty mailbox does not go on waiting, if there
is room for it. -/
theorem Sound.entered_first (h : c.Sound size) {id : TaskId} (hid : id ∈ c.members)
    (hidle : c.scheduler.idle ≠ some id) (hbox : c.box id = []) {message : Message}
    {rest : List Message} (hmail : mailFor id c.inbox.mail = message :: rest)
    (hfits : message.Fits size) : mailFor id c.drained.inbox.mail ≠ message :: rest := by
  intro hkept
  have hcontains := (h.contains_joinAll id).2 hid
  have hidle' : (c.scheduler.joinAll c.inbox.tasks).idle ≠ some id := h.manned.idle ▸ hidle
  obtain ⟨messages, hsplit, hentered, -, -⟩ := h.delivered.entered id hcontains hidle'
  obtain rfl : messages = [] := by
    rw [hmail, hkept] at hsplit
    exact List.self_eq_append_left.1 hsplit
  obtain ⟨t, ht, hsend⟩ := h.delivered.refused id message rest List.not_mem_nil hkept
  obtain ⟨hmailbox, hsize⟩ := h.delivered.sound id t ht
  rw [h.box_joinAll, hbox, Scheduler.box, ht] at hentered
  obtain ⟨frame, hframe, hlength⟩ := hfits
  have hroom := ((hmailbox.send_eq_error hframe).1 hsend).2
  rw [hmailbox.used_of_no_messages hentered, hsize] at hroom
  omega

end Core

end Microkernel
