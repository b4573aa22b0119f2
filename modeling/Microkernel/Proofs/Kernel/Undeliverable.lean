/-
Messages that are accepted though nobody can take them.

On the core of its recipient a message is refused if the recipient takes no mail, or if its mailbox
has no room. From every other core it is accepted as soon as it has a frame and the inbox has room:
neither the recipient nor the size of its mailbox is looked at. For two kinds of messages no time
will ever come at which the core of the recipient can take them.

* **`posted_fate`**: a message from another core is dropped if it is for an idle task, waits in the
  inbox as long as its recipient lives if an empty mailbox has no room for it, and otherwise is one
  that the recipient's core would take, once the mailbox is empty;
* **`Coherent.keepsIdle_step`**: nothing gets into the mailbox of an idle task.

Design notes: `Core.reply` is the answer of the recipient's core with an empty mailbox, so an error
that it gives does not go away by waiting.
-/
import Microkernel.Proofs.Kernel.Overtaking
import Microkernel.Proofs.Kernel.Wakeups

namespace Microkernel

namespace Scheduler

variable {s s' : Scheduler}

/-! ### The mailbox of the idle task -/

/-- The idle task stays, with the mail that it has, and a new one has none. -/
structure KeepsIdle (s s' : Scheduler) : Prop where
  kept : ∀ j, s.idle = some j → s'.idle = some j ∧ s'.box j = s.box j
  installed : s.idle = none → ∀ j, s'.idle = some j → s'.box j = []

theorem KeepsIdle.of_idle (hidle : s'.idle = s.idle)
    (hbox : ∀ j, s.idle = some j → s'.box j = s.box j) : KeepsIdle s s' where
  kept j hj := ⟨hidle.trans hj, hbox j hj⟩
  installed hnone j hj := by
    rw [hidle, hnone] at hj
    cases hj

theorem Rearranged.keepsIdle (h : Rearranged s s') : KeepsIdle s s' :=
  .of_idle h.idle fun j _ => h.box j

theorem KeepsIdle.withMailbox {id : TaskId} {mailbox : Mailbox} (hid : s.contains id = true)
    (hidle : s.idle ≠ some id) (hr : Rearranged (s.withMailbox id mailbox) s') :
    KeepsIdle s s' := by
  refine .of_idle hr.idle fun j hj => ?_
  have hne : j ≠ id := by
    rintro rfl
    exact hidle hj
  rw [hr.box, box_withMailbox mailbox j hid, if_neg hne]

theorem Joined.keepsIdle {task : Task} (hj : Joined s task s') (h : s.Coherent)
    (hfresh : s.contains task.id = false) (hidle : s'.idle = s.idle) : KeepsIdle s s' := by
  refine .of_idle hidle fun j hid => ?_
  have hne : j ≠ task.id := by
    rintro rfl
    rw [(h.queued.live task.id).2 (.inr (.inr hid))] at hfresh
    cases hfresh
  rw [box, box, hj.task?, if_neg hne]

/-- The idle task does not receive, and does not end. -/
theorem ne_idle_of_working? {id : TaskId} (h : s.working? = some id) : s.idle ≠ some id := by
  obtain ⟨-, hne⟩ := Option.mem_filter_iff.1 h
  exact of_decide_eq_true hne

theorem Coherent.keepsIdle_receive (h : s.Coherent) (filter : Option Filter) :
    KeepsIdle s (s.receive filter).2 := by
  obtain ⟨-, hs | ⟨id, t, hworking, ht, hr⟩⟩ := h.receive_rearranged filter
  · rw [hs]
    exact (Rearranged.refl s).keepsIdle
  · exact .withMailbox (Option.isSome_of_mem ht) (ne_idle_of_working? hworking) hr

/-- Nothing gets into the mailbox of the idle task. -/
theorem Coherent.keepsIdle_step (h : s.Coherent) (operation : Operation)
    (hnew : ∀ task, operation.task? = some task → task.mailbox.messages = []) :
    KeepsIdle s (s.step operation).2 := by
  have hsame : ∀ {s'}, s' = s → KeepsIdle s s' := by
    rintro _ rfl
    exact (Rearranged.refl _).keepsIdle
  cases operation with
  | installIdle task =>
    rcases h.installIdle (Prod.eta (s.installIdle task)).symm with
      ⟨-, -, hs⟩ | ⟨hok, hfresh, -, hj, hidle, -⟩
    · exact hsame hs
    · refine ⟨fun j hid => ?_, fun _ j hid => ?_⟩
      · -- a scheduler with an idle task refuses another one
        rw [Scheduler.installIdle, hid, Option.isSome_some, Bool.or_true] at hok
        cases hok
      · obtain rfl : task.id = j := Option.some.inj (hidle.symm.trans hid)
        show ((s.installIdle task).2.task? task.id |>.map fun t => t.mailbox.messages).getD [] = []
        rw [hj.task?, if_pos rfl]
        exact hnew task rfl
  | installCleanup task =>
    rcases h.installCleanup (Prod.eta (s.installCleanup task)).symm with
      ⟨-, -, hs⟩ | ⟨-, hfresh, -, hj, hidle, -⟩
    · exact hsame hs
    · exact hj.keepsIdle h hfresh hidle
  | schedule task =>
    rcases h.schedule (Prod.eta (s.schedule task)).symm with
      ⟨-, -, hs⟩ | ⟨-, hfresh, -, hj, -, hidle, -⟩
    · exact hsame hs
    · exact hj.keepsIdle h hfresh hidle
  | start => exact (h.start (Prod.eta s.start).symm).2.2.keepsIdle
  | reschedule => exact (h.reschedule (Prod.eta s.reschedule).symm).2.2.keepsIdle
  | block reason =>
    rcases h.block (Prod.eta (s.block reason)).symm with ⟨-, -, hs⟩ | ⟨-, -, -, -, hr⟩
    · exact hsame hs
    · exact hr.keepsIdle
  | unblock id => exact (h.unblock id).2.keepsIdle
  | wake id => exact (h.wake id).2.keepsIdle
  | unblockWakeable => exact h.queued.unblockWakeable.2.keepsIdle
  | tick => exact (h.tick (Prod.eta s.tick).symm).2.2.keepsIdle
  | findNext => exact h.findNext.2.keepsIdle
  | runNext => exact h.runNext.2.keepsIdle
  | deliver recipient message =>
    rcases h.deliver (Prod.eta (s.deliver recipient message)).symm with
      ⟨-, hs, -⟩ | ⟨t, ht, hidle, ⟨e, -, hs, -⟩ | ⟨woken, mailbox, -, -, -, hr, -⟩⟩
    · exact hsame hs
    · exact hsame hs
    · exact .withMailbox (Option.isSome_of_mem ht) hidle hr
  | receive filter => exact h.keepsIdle_receive filter
  | exit =>
    rcases h.exit (Prod.eta s.exit).symm with ⟨-, hs⟩ | ⟨id, t, -, -, hid, -, -, -, -, hr⟩
    · exact hsame hs
    · refine .of_idle hr.idle fun j hj => ?_
      have hne : j ≠ id := by
        rintro rfl
        exact ne_idle_of_working? hid hj
      show (s.exit.2).box j = s.box j
      rw [hr.box, box, task?_retired, if_neg hne]
      rfl
  | reap => exact .of_idle rfl fun _ _ => rfl
  | changePriority id priority =>
    obtain ⟨-, -, hr, -⟩ := h.changePriority (Prod.eta (s.changePriority id priority)).symm
    exact hr.keepsIdle

/-- The idle task has no mail. -/
structure IdleUnread (s : Scheduler) : Prop where
  coherent : s.Coherent
  unread : ∀ j, s.idle = some j → s.box j = []

theorem idleUnread_new (core : CoreId) (timeslice : Nat) : (new core timeslice).IdleUnread :=
  ⟨coherent_new core timeslice, fun j hj => by cases hj⟩

theorem IdleUnread.step (h : s.IdleUnread) (operation : Operation)
    (hnew : ∀ task, operation.task? = some task → task.mailbox.messages = []) :
    (s.step operation).2.IdleUnread := by
  refine ⟨(h.coherent.step operation).1, fun j hj => ?_⟩
  have hkept := h.coherent.keepsIdle_step operation hnew
  cases hidle : s.idle with
  | none => exact hkept.installed hidle j hj
  | some i =>
    obtain ⟨hidle', hbox⟩ := hkept.kept i hidle
    obtain rfl : i = j := Option.some.inj (hidle'.symm.trans hj)
    exact hbox.trans (h.unread i hidle)

/-- The idle task is the given one, if one is given, and it has no mail. -/
def IdleIs (idle : CoreId → Option TaskId) (c : CoreId) (s : Scheduler) : Prop :=
  s.IdleUnread ∧ ∀ id, idle c = some id → s.idle = some id

end Scheduler

/-! ### The answer of the recipient's core -/

namespace Core

variable {c : Core} {size : Nat} {id : TaskId} {message : Message}

/-- What the core answers if the message is sent there when the mailbox of the task is empty. -/
def reply (c : Core) (size : Nat) (id : TaskId) (message : Message) : Except Error Bool :=
  ((c.drained.scheduler.withMailbox id (.new size)).deliver id message).1

/-- The idle task takes no mail. -/
theorem Sound.reply_idle (h : c.Sound size) (hidle : c.scheduler.idle = some id) :
    c.reply size id message = .error .recipientNotFound := by
  have hco := h.drained.coherent.withMailbox id (.new size)
  rcases hco.deliver (Prod.eta _).symm with ⟨hreply, -, -⟩ | ⟨-, -, hne, -⟩
  · exact hreply
  · exact absurd (h.idle_drained.trans hidle) hne

/-- To any other task the message is given as far as its mailbox is concerned. -/
theorem Sound.reply_working (h : c.Sound size) (hid : id ∈ c.members)
    (hidle : c.scheduler.idle ≠ some id) {frame : Bytes} (hframe : message.encode = .ok frame) :
    (frame.length ≤ size ∧ ∃ woken, c.reply size id message = .ok woken) ∨
      (size < frame.length ∧ c.reply size id message = .error .mailboxFull) := by
  have hco := h.drained.coherent.withMailbox id (.new size)
  have hempty := Mailbox.sound_new size
  have hused : (Mailbox.new size).used = 0 := hempty.used_of_no_messages (Mailbox.messages_new size)
  rcases hco.deliver (Prod.eta _).symm with
    ⟨-, -, hnot⟩ | ⟨t, ht, -, ⟨e, hreply, -, hsend⟩ | ⟨woken, mailbox, hreply, hsend, -⟩⟩
  · refine absurd ⟨?_, ?_⟩ hnot
    · rw [Scheduler.contains_withMailbox]
      exact (h.contains_drained id).2 hid
    · intro hsame
      exact hidle (h.idle_drained.symm.trans hsame)
  all_goals
    rw [Scheduler.task?_withMailbox, if_pos rfl] at ht
    obtain ⟨t', -, rfl⟩ := Option.map_eq_some_iff.1 ht
  · obtain ⟨rfl, hfull⟩ := (hempty.send_eq_error hframe).1 hsend
    rw [hused, Nat.zero_add, Mailbox.capacity_new] at hfull
    exact .inr ⟨hfull, hreply⟩
  · have hfits := (hempty.send_eq_ok_iff hframe).1 ⟨mailbox, hsend⟩
    rw [hused, Nat.zero_add, Mailbox.capacity_new] at hfits
    exact .inl ⟨hfits, woken, hreply⟩

/-- Mail for the idle task is dropped. -/
theorem Sound.mail_idle (h : c.Sound size) (hidle : c.scheduler.idle = some id) :
    mailFor id c.drained.inbox.mail = [] :=
  h.delivered.dropped id List.not_mem_nil fun hclaimed => hclaimed.2 (h.manned.idle.trans hidle)

end Core

namespace Kernel

variable {k : Kernel} {id : TaskId} {c : CoreId} {core : Core} {message : Message}
  {size : Nat} {P : CoreId → Scheduler → Prop}

/-! ### Runs -/

theorem Steady.meets_run (hP : Steady size P) (h : k.Reachable) (hk : k.system.Meets size P)
    (operations : List Operation) : (k.run operations).system.Meets size P := by
  induction operations generalizing k with
  | nil => exact hk
  | cons operation rest ih =>
    rw [h.run_cons]
    exact ih (h.step operation) ((hP.keeps_actionOf operation).ensures hk k rfl)

/-- What schedulers keep on their own, and begin with, holds in every kernel that can be reached. -/
theorem Reachable.meets (h : k.Reachable) (hP : ∀ size, Steady size P)
    (hnew : ∀ c timeslice, P c (.new c timeslice)) :
    k.system.Meets k.config.mailboxSize P := by
  induction h with
  | new h =>
    rw [(parts_of_new h).1]
    exact meets_of_new h fun c => hnew c _
  | @step k h operation ih =>
    have hconfig : (k.step operation).2.config = k.config := (h.preserves operation).config
    rw [hconfig]
    exact ((hP _).keeps_actionOf operation).ensures ih k rfl

theorem steady_idleIs (idle : CoreId → Option TaskId) : Steady size (Scheduler.IdleIs idle) := by
  rintro c s operation ⟨hunread, hidle⟩ hnew
  have hempty : ∀ task, operation.task? = some task → task.mailbox.messages = [] := by
    intro task htask
    rw [(hnew task htask).mailbox, Mailbox.messages_new]
  exact ⟨hunread.step operation hempty, fun id hid =>
    ((hunread.coherent.keepsIdle_step operation hempty).kept id (hidle id hid)).1⟩

/-- An idle task stays idle, and never has mail. -/
theorem Reachable.idle_run (h : k.Reachable) (hcore : k.core? c = some core)
    (hidle : core.scheduler.idle = some id) {operations : List Operation} {core' : Core}
    (hcore' : (k.run operations).core? c = some core') :
    core'.scheduler.idle = some id ∧ core'.box id = [] ∧
      mailFor id core'.drained.inbox.mail = [] := by
  have hunread := h.meets (fun _ => steady_idleIs fun _ => none)
    fun c timeslice => ⟨Scheduler.idleUnread_new c timeslice, fun j hj => (by cases hj)⟩
  have hbegin : k.system.Meets k.config.mailboxSize
      (Scheduler.IdleIs fun i => if i = c then some id else none) := by
    refine ⟨hunread.config, hunread.ordinals, fun i x hx => ⟨(hunread.schedulers i x hx).1,
      fun j hj => ?_⟩, hunread.arriving, hunread.parked⟩
    dsimp only at hj
    split at hj
    · rename_i hi
      subst hi
      obtain rfl : core = x := Option.some.inj (hcore.symm.trans hx)
      exact hidle.trans hj
    · cases hj
  obtain ⟨hunread', hsame⟩ :=
    ((steady_idleIs _).meets_run h hbegin operations).schedulers c core' hcore'
  have hidle' := hsame id (if_pos rfl)
  have hsound := ((h.run operations).sound.settled c core' hcore').sound
  refine ⟨hidle', ?_, hsound.mail_idle hidle'⟩
  have hin := (hunread'.coherent.queued.live id).2 (.inr (.inr hidle'))
  obtain ⟨t, ht⟩ := Option.isSome_iff_exists.1 hin
  have ht : core'.scheduler.task? id = some t := ht
  have hbox : core'.box id = core'.scheduler.box id := by
    rw [Core.box, Core.task?, ht, Option.some_or, Scheduler.box, ht]
  exact hbox.trans (hunread'.unread id hidle')

/-! ### What becomes of mail from other cores -/

/-- A message that another core accepts for the task is left in the inbox. -/
theorem posted_of_sends {operation : Operation} (hsends : k.Sends operation id message)
    (hhome : k.system.directory.homeOf id = some c) (hremote : c ≠ k.machine.currentCore) :
    k.delivery operation id = { posted := [message] } := by
  obtain ⟨recipient, body, answer, rfl, hok, ⟨hout, home, hresolve⟩, -⟩ := hsends
  obtain rfl : home = c :=
    Option.some.inj ((Directory.homeOf_of_resolve hresolve).symm.trans hhome)
  rw [delivery_send hok hout hresolve, if_neg hremote]

/-- While the task does not end, a message that was left for it is in the inbox or came from
there, and what came from there has room in an empty mailbox. -/
theorem Reachable.posted_run (h : k.Reachable) {operation : Operation}
    (hid : k.system.Resident id c core)
    (hposted : k.delivery operation id = { posted := [message] }) {operations : List Operation}
    (hspares : k.Spares id (operation :: operations)) :
    ∃ core' arrivals, (k.run (operation :: operations)).system.Resident id c core' ∧
      Carried k.config.mailboxSize (k.deliveries (operation :: operations) id) arrivals
        (core.post id) (core'.post id) ∧
      (message ∈ Arrival.along .inbox arrivals ∨ message ∈ (core'.post id).waiting) := by
  obtain ⟨core', hid', arrivals, hcarried⟩ := h.passes hid hspares
  refine ⟨core', arrivals, hid', hcarried, List.mem_append.1 ?_⟩
  have hin : message ∈ (k.deliveries (operation :: operations) id).posted := by
    rw [deliveries, hposted]
    exact List.mem_cons_self
  rw [← hcarried.inbox]
  exact List.mem_append_right _ hin

/-- What was accepted has a frame. -/
theorem Reachable.encodable_of_posted (h : k.Reachable) {operation : Operation}
    (hid : k.system.Resident id c core) (hsends : k.Sends operation id message)
    (hposted : k.delivery operation id = { posted := [message] }) :
    ∃ frame, message.encode = .ok frame := by
  obtain ⟨recipient, body, answer, rfl, hok, -⟩ := hsends
  have hspares : k.Spares id [.send recipient body] := ⟨fun he => (by cases he), trivial⟩
  obtain ⟨core', arrivals, hid', hcarried, hin | hin⟩ := h.posted_run hid hposted hspares
  · obtain ⟨a, ha, rfl⟩ := Arrival.exists_of_mem_along hin
    obtain ⟨frame, hframe, -⟩ := hcarried.fits a ha
    exact ⟨frame, hframe⟩
  · obtain ⟨mail, hmail, rfl⟩ := List.mem_map.1 hin
    have hsound := ((h.run _).sound.settled c core' hid'.found).sound
    exact hsound.encodable mail (List.mem_filter.1 hmail).1

/-- A message that is accepted for a task on another core meets one of three fates. If the task is
idle, its own core would not take the message, and drops it. If an empty mailbox has no room for
the message, the core of the task would not take it either, and it waits as long as the task
lives. Otherwise the core of the task would take it once the mailbox is empty, it is in the inbox or
came from there, and an empty mailbox makes it leave the inbox. -/
theorem posted_fate (h : k.Reachable) {operation : Operation}
    (hsends : k.Sends operation id message)
    (hhome : k.system.directory.homeOf id = some c) (hremote : c ≠ k.machine.currentCore)
    (hcore : k.core? c = some core) :
    (core.scheduler.idle = some id →
      core.reply k.config.mailboxSize id message = .error .recipientNotFound ∧
      ∀ operations core', (k.run (operation :: operations)).core? c = some core' →
        core'.scheduler.idle = some id ∧ core'.box id = [] ∧
          mailFor id core'.drained.inbox.mail = []) ∧
    (core.scheduler.idle ≠ some id → ¬ message.Fits k.config.mailboxSize →
      core.reply k.config.mailboxSize id message = .error .mailboxFull ∧
      ∀ operations, k.Spares id (operation :: operations) →
        ∃ core', (k.run (operation :: operations)).system.Resident id c core' ∧
          message ∈ (core'.post id).waiting) ∧
    (core.scheduler.idle ≠ some id → message.Fits k.config.mailboxSize →
      (∃ woken, core.reply k.config.mailboxSize id message = .ok woken) ∧
      ∀ operations, k.Spares id (operation :: operations) →
        ∃ core' arrivals, (k.run (operation :: operations)).system.Resident id c core' ∧
          Carried k.config.mailboxSize (k.deliveries (operation :: operations) id) arrivals
            (core.post id) (core'.post id) ∧
          (message ∈ Arrival.along .inbox arrivals ∨ message ∈ (core'.post id).waiting) ∧
          ∀ rest, core'.post id = ⟨message :: rest, []⟩ →
            mailFor id core'.drained.inbox.mail ≠ message :: rest) := by
  have hsound := (h.sound.settled c core hcore).sound
  have hin := (h.sound.homeOf_iff_mem hcore id).1 hhome
  have hposted := posted_of_sends hsends hhome hremote
  refine ⟨fun hidle => ?_, fun hidle hlarge => ?_, fun hidle hfits => ?_⟩
  · exact ⟨hsound.reply_idle hidle, fun operations core' hcore' =>
      h.idle_run hcore hidle hcore'⟩
  · have hid : k.system.Resident id c core := ⟨hhome, hcore, hidle⟩
    obtain ⟨frame, hframe⟩ := h.encodable_of_posted hid hsends hposted
    rcases hsound.reply_working hin hidle hframe with ⟨hroom, -⟩ | ⟨-, hreply⟩
    · exact absurd ⟨frame, hframe, hroom⟩ hlarge
    · refine ⟨hreply, fun operations hspares => ?_⟩
      obtain ⟨core', arrivals, hid', hcarried, hplace⟩ := h.posted_run hid hposted hspares
      refine ⟨core', hid', hplace.resolve_left fun harrived => ?_⟩
      -- what arrives has room in an empty mailbox
      obtain ⟨a, ha, rfl⟩ := Arrival.exists_of_mem_along harrived
      exact hlarge (hcarried.fits a ha)
  · have hid : k.system.Resident id c core := ⟨hhome, hcore, hidle⟩
    obtain ⟨frame, hframe, hroom⟩ := hfits
    rcases hsound.reply_working hin hidle hframe with ⟨-, hreply⟩ | ⟨hlarge, -⟩
    · refine ⟨hreply, fun operations hspares => ?_⟩
      obtain ⟨core', arrivals, hid', hcarried, hplace⟩ := h.posted_run hid hposted hspares
      refine ⟨core', arrivals, hid', hcarried, hplace, fun rest hpost => ?_⟩
      have hend := h.run (operation :: operations)
      obtain ⟨hmail, hbox⟩ := Post.mk.inj hpost
      have hfits' : message.Fits (k.run (operation :: operations)).config.mailboxSize := by
        rw [h.config_run]
        exact ⟨frame, hframe, hroom⟩
      exact (hend.sound.settled c core' hid'.found).sound.entered_first
        ((hend.sound.homeOf_iff_mem hid'.found id).1 hid'.home) hid'.working hbox hmail hfits'
    · exact absurd hroom (Nat.not_le.2 hlarge)

/-- From the first core a ping for the idle task of the second, a message that is too large for the
mailbox of task 5, and a ping for task 5. -/
theorem posted_fate_atWork :
    ∃ core, atWork.core? 1 = some core ∧
      core.reply 20 2 ⟨1, .task 2, .scheduler (.ping 1)⟩ = .error .recipientNotFound ∧
      core.reply 20 5 ⟨1, .task 5, bulk 20⟩ = .error .mailboxFull ∧
      (∃ woken, core.reply 20 5 ⟨1, .task 5, .scheduler (.ping 1)⟩ = .ok woken) := by
  have hcore : ((atWork.core? 1).map fun core => core.scheduler.idle) = some (some 2) := by
    decide +kernel
  obtain ⟨core, hcore, hidle⟩ := Option.map_eq_some_iff.1 hcore
  have hworking : core.scheduler.idle ≠ some 5 := by
    rw [hidle]
    decide
  have hsends : ∀ id body, (atWork.step (.send (.task id) body)).1 = .ok .done →
      atWork.system.outgoing (.task id) body = some ⟨1, .task id, body⟩ →
      atWork.system.directory.resolve (.task id) = .ok (id, 1) →
      atWork.Sends (.send (.task id) body) id ⟨1, .task id, body⟩ :=
    fun id body hok hout hresolve =>
      ⟨_, _, .done, rfl, hok, ⟨hout, 1, hresolve⟩, signed_of_outgoing hout⟩
  have hidleFate := posted_fate reachable_atWork
    (hsends 2 (.scheduler (.ping 1)) (by decide +kernel) (by decide +kernel) (by decide +kernel))
    (by decide +kernel) (by decide +kernel) hcore
  have hlargeFate := posted_fate reachable_atWork
    (hsends 5 (bulk 20) (by decide +kernel) (by decide +kernel) (by decide +kernel))
    (by decide +kernel) (by decide +kernel) hcore
  have hpingFate := posted_fate reachable_atWork
    (hsends 5 (.scheduler (.ping 1)) (by decide +kernel) (by decide +kernel) (by decide +kernel))
    (by decide +kernel) (by decide +kernel) hcore
  have hlarge : ¬ (⟨1, .task 5, bulk 20⟩ : Message).Fits 20 := by
    rintro ⟨frame, hframe, hroom⟩
    have hlength :
        (Message.encode ⟨1, .task 5, bulk 20⟩).map (fun f => decide (f.length ≤ 20)) =
          .ok false := by
      decide +kernel
    rw [hframe] at hlength
    exact of_decide_eq_false (Except.ok.inj hlength) hroom
  have hsmall : (⟨1, .task 5, .scheduler (.ping 1)⟩ : Message).Fits 20 := by
    refine ⟨_, rfl, ?_⟩
    decide +kernel
  have hsize : atWork.config.mailboxSize = 20 := by decide +kernel
  rw [hsize] at hidleFate hlargeFate hpingFate
  exact ⟨core, hcore, (hidleFate.1 hidle).1, (hlargeFate.2.1 hworking hlarge).1,
    (hpingFate.2.2 hworking hsmall).1⟩

/-- The first core accepts two messages that the second refuses: one for its idle task, and one that
is too large for the mailbox of its task 5. The mailboxes of both are empty, so that no waiting
helps. -/
theorem undeliverable_accepted :
    atWork.Reachable ∧
      atWork.Sends (.send (.task 2) (.scheduler (.ping 1))) 2
        ⟨1, .task 2, .scheduler (.ping 1)⟩ ∧
      ((atWork.run [.turnTo 1]).step (.send (.task 2) (.scheduler (.ping 1)))).1 =
        .error (.failed .recipientNotFound) ∧
      atWork.Sends (.send (.task 5) (bulk 20)) 5 ⟨1, .task 5, bulk 20⟩ ∧
      ((atWork.run [.turnTo 1]).step (.send (.task 5) (bulk 20))).1 =
        .error (.failed .mailboxFull) ∧
      (atWork.system.post 2).box = [] ∧ (atWork.system.post 5).box = [] := by
  refine ⟨reachable_atWork, ⟨_, _, .done, rfl, ?_, ⟨?_, 1, ?_⟩, .inl ?_⟩, ?_,
    ⟨_, _, .done, rfl, ?_, ⟨?_, 1, ?_⟩, .inl ?_⟩, ?_, ?_, ?_⟩
  all_goals decide +kernel

end Kernel

end Microkernel
