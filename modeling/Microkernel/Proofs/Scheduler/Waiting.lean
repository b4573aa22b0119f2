/-
Tasks that wait for mail.

A task that asks for mail and finds none that suits it waits. `t.Unanswered filter` says that it
still waits in vain: there is nothing in its mailbox that it asked for, and if it asked for some
mail only, nothing at all has come since. `s.Watchful size asked` says so of every task of a
scheduler that waits, where `asked` tells what each task asked for. The cleanup task is left out,
since it waits without a look into its mailbox.

* **`Watchful.deliver`**: a task that gets mail while it waits is readied;
* **`Watchful.receive`**: a task that begins to wait has found nothing that it asked for;
* **`Watchful.asking`**: a task that is not blocked may ask for anything.

Design notes: a task does not know what it waits for. It remembers how many messages it had
got when it began to wait, which is why `asked` is given from outside.
-/
import Microkernel.Proofs.Scheduler.Intake
import Microkernel.Proofs.Scheduler.Rules

namespace Microkernel

/-- The task waits, and has not got what it asked for. -/
def Task.Unanswered (t : Task) : Option Filter → Prop
  | none => t.waitSince = none ∧ t.mailbox.messages = [] ∧ t.mailbox.unread = 0
  | some filter =>
    t.waitSince = some t.mailbox.sends ∧
      ∀ message ∈ t.mailbox.messages, filter.accepts message = false

/-- Every frame that waits is a message. -/
theorem Mailbox.Sound.unread_eq {m : Mailbox} (h : m.Sound) : m.unread = m.messages.length := by
  rw [h.stores.unread, Mailbox.messages, List.filterMap_length_eq_length.2 h.decodes]

/-- A message that is accepted ends the wait. -/
theorem Task.Unanswered.isWakeable {t : Task} {filter : Option Filter} (h : t.Unanswered filter)
    (hblocked : t.state = .blocked) (hsound : t.mailbox.Sound) {message : Message}
    {mailbox : Mailbox} (hsend : t.mailbox.send message = .ok mailbox) (elapsed : Nat) :
    { t with mailbox := mailbox }.isWakeable elapsed = true := by
  obtain ⟨hsound', hmessages, -, hsends, -⟩ := hsound.send_ok hsend
  cases filter with
  | none =>
    have hunread : 0 < mailbox.unread := by
      rw [hsound'.unread_eq, hmessages, List.length_append]
      exact Nat.succ_pos _
    simp only [Task.isWakeable, hblocked, h.1]
    exact decide_eq_true hunread
  | some filter =>
    simp only [Task.isWakeable, hblocked, h.1, hsends]
    exact decide_eq_true (Nat.lt_succ_self _)

/-- A task that looked in vain waits from then on. -/
theorem Task.unanswered_of_find? {t : Task} {filter : Option Filter} {mailbox : Mailbox}
    (hsound : mailbox.Sound) (hnone : mailbox.messages.find? (Mailbox.admits filter) = none) :
    { t with
      mailbox := mailbox, state := .blocked,
      waitSince := filter.map fun _ => mailbox.sends }.Unanswered filter := by
  rw [List.find?_eq_none] at hnone
  cases filter with
  | none =>
    have hempty : mailbox.messages = [] :=
      List.eq_nil_iff_forall_not_mem.2 fun message hin => hnone message hin rfl
    refine ⟨rfl, hempty, ?_⟩
    rw [hsound.unread_eq, hempty]
    rfl
  | some filter => exact ⟨rfl, fun message hin => Bool.not_eq_true _ ▸ hnone message hin⟩

namespace Scheduler

variable {s s' : Scheduler} {size : Nat} {asked : TaskId → Option (Option Filter)}

/-! ### The rule for tasks that wait -/

/-- A task that waits for mail is queued as blocked, and either it is the cleanup task or it has
not got what it asked for. -/
def waitRule (cleanup : Option TaskId) (asked : TaskId → Option (Option Filter)) : Rule :=
  fun waits id t => t.state = .blocked →
    waits = true ∧ (cleanup = some id ∨ ∃ filter, asked id = some filter ∧ t.Unanswered filter)

theorem waitRule_new (cleanup : Option TaskId) (task : Task) (core : Option CoreId) :
    waitRule cleanup asked false task.id { task with state := .ready, lastCore := core } := by
  intro hblocked
  cases hblocked

theorem lawful_waitRule (cleanup : Option TaskId) : (waitRule cleanup asked).Lawful where
  readied waits id t _ hblocked := by cases hblocked
  entered id t core _ hblocked := by cases hblocked
  paused waits id t h := by
    rw [pause]
    split
    · intro hblocked
      cases hblocked
    · exact h
  slept id t wakeTime _ hblocked := by cases hblocked
  prioritized waits id t priority h := h

theorem idle_eq_none_of_installIdle {task : Task} (hs : s.installIdle task = (.ok (), s')) :
    s.idle = none := by
  rw [installIdle] at hs
  split at hs
  · cases hs
  · rename_i haccepted
    have hfresh : s.contains task.id = false ∧ s.idle = none := by simpa using haccepted
    exact hfresh.2

/-! ### Watchful schedulers -/

/-- No task of the scheduler waits for mail that it has got. -/
structure Watchful (size : Nat) (asked : TaskId → Option (Option Filter)) (s : Scheduler) :
    Prop where
  coherent : s.Coherent
  mail : s.SoundMail size
  obeys : s.Obeys (waitRule s.cleanup asked)
  /-- The idle task is installed before the cleanup task. -/
  servants : s.idle = none → s.cleanup = none

namespace Watchful

theorem new (core : CoreId) (timeslice : Nat) :
    (Scheduler.new core timeslice).Watchful size asked where
  coherent := coherent_new core timeslice
  mail id t ht := by cases ht
  obeys := obeys_new core timeslice
  servants _ := rfl

/-- Of a task that is not blocked it does not matter what it asks for. -/
theorem asking (h : s.Watchful size asked) {asked' : TaskId → Option (Option Filter)}
    (hsame : ∀ id, s.blocked.contains id = true → asked' id = asked id) :
    s.Watchful size asked' := by
  refine ⟨h.coherent, h.mail, fun id t ht hblocked => ?_, h.servants⟩
  obtain ⟨hwaits, hcase⟩ := h.obeys id t ht hblocked
  rw [hsame id hwaits]
  exact ⟨hwaits, hcase⟩

/-- Mailboxes may have changed before tasks were moved, if the rule is kept on the whole. -/
theorem moved (h : s.Watchful size asked) {between : Scheduler} (hmail : between.SoundMail size)
    (hidle : between.idle = s.idle) (hcleanup : between.cleanup = s.cleanup)
    (hr : Rearranged between s') (hco : s'.Coherent)
    (hobeys : s'.Obeys (waitRule s.cleanup asked)) : s'.Watchful size asked := by
  have hidle' : s'.idle = s.idle := hr.idle.trans hidle
  have hcleanup' : s'.cleanup = s.cleanup := hr.cleanup.trans hcleanup
  refine ⟨hco, hr.soundMail hmail, ?_, ?_⟩
  · rw [hcleanup']
    exact hobeys
  · rw [hidle', hcleanup']
    exact h.servants

theorem rearranged (h : s.Watchful size asked) (hr : Rearranged s s') (hco : s'.Coherent)
    (hobeys : s'.Obeys (waitRule s.cleanup asked)) : s'.Watchful size asked :=
  h.moved h.mail rfl rfl hr hco hobeys

theorem start (h : s.Watchful size asked) : s.start.2.Watchful size asked := by
  obtain ⟨hco, -, hr⟩ := h.coherent.start (Prod.eta s.start).symm
  exact h.rearranged hr hco (h.obeys.start (lawful_waitRule _) h.coherent)

theorem reschedule (h : s.Watchful size asked) : s.reschedule.2.Watchful size asked := by
  obtain ⟨hco, -, hr⟩ := h.coherent.reschedule (Prod.eta s.reschedule).symm
  exact h.rearranged hr hco (h.obeys.reschedule (lawful_waitRule _) h.coherent)

theorem tick (h : s.Watchful size asked) : s.tick.2.Watchful size asked := by
  obtain ⟨hco, -, hr⟩ := h.coherent.tick (Prod.eta s.tick).symm
  exact h.rearranged hr hco (h.obeys.tick (lawful_waitRule _) h.coherent)

theorem wake (h : s.Watchful size asked) (id : TaskId) : (s.wake id).2.Watchful size asked := by
  obtain ⟨hco, hr⟩ := h.coherent.wake id
  exact h.rearranged hr hco
    (h.obeys.wake (lawful_waitRule _) h.coherent.queued.blocked id)

theorem changePriority (h : s.Watchful size asked) (id : TaskId) (priority : Priority) :
    (s.changePriority id priority).2.Watchful size asked := by
  obtain ⟨-, hco, hr, -⟩ :=
    h.coherent.changePriority (Prod.eta (s.changePriority id priority)).symm
  exact h.rearranged hr hco (h.obeys.changePriority (lawful_waitRule _) id priority)

/-! ### Blocking -/

/-- The current task may block for a reason that the rule allows. -/
theorem block (h : s.Watchful size asked) (reason : BlockReason)
    (hobeys : (s.block reason).2.Obeys (waitRule s.cleanup asked)) :
    (s.block reason).2.Watchful size asked := by
  rcases h.coherent.block (Prod.eta (s.block reason)).symm with
    ⟨-, -, hsame⟩ | ⟨-, -, hco, -, hr⟩
  · rw [hsame]
    exact h
  · exact h.rearranged hr hco hobeys

theorem sleep (h : s.Watchful size asked) (milliseconds : Nat) :
    (s.block (.sleep milliseconds)).2.Watchful size asked :=
  h.block _ (h.obeys.sleep (lawful_waitRule _) h.coherent milliseconds)

/-- The cleanup task may wait for whatever comes. -/
theorem park (h : s.Watchful size asked) (hcurrent : s.current = s.cleanup) :
    (s.block (.mail none)).2.Watchful size asked := by
  refine h.block _ (h.obeys.block (lawful_waitRule _) h.coherent fun id t hworking _ _ => ?_)
  exact ⟨rfl, .inl (hcurrent.symm.trans (working?_eq_some hworking).1)⟩

/-! ### Messages -/

theorem withMailbox (h : s.Watchful size asked) {id : TaskId} {mailbox : Mailbox}
    (hsound : mailbox.Sound) (hsize : mailbox.capacity = size)
    (hr : Rearranged (s.withMailbox id mailbox) s') (hco : s'.Coherent)
    (hobeys : s'.Obeys (waitRule s.cleanup asked)) : s'.Watchful size asked :=
  h.moved (h.mail.withMailbox hsound hsize) rfl rfl hr hco hobeys

/-- Whoever waits and gets mail is readied, so that no one waits for mail that came. -/
theorem deliver (h : s.Watchful size asked) (recipient : TaskId) (message : Message) :
    (s.deliver recipient message).2.Watchful size asked := by
  have hobeys : (s.deliver recipient message).2.Obeys (waitRule s.cleanup asked) := by
    refine h.obeys.deliver h.coherent (fun t mailbox _ _ _ _ hblocked => by cases hblocked)
      fun t mailbox ht hsend hasleep hblocked => ?_
    obtain ⟨hwaits, hcleanup | ⟨filter, hasked, hun⟩⟩ := h.obeys recipient t ht hblocked
    · exact ⟨hwaits, .inl hcleanup⟩
    · have hsound := (h.mail recipient t ht).1
      exact absurd ⟨hblocked, hun.isWakeable hblocked hsound hsend s.elapsed⟩ hasleep
  rcases h.coherent.deliver (Prod.eta (s.deliver recipient message)).symm with
    ⟨-, hsame, -⟩ | ⟨t, ht, -, ⟨e, -, hsame, -⟩ | ⟨woken, mailbox, -, hsend, hco, hr, -⟩⟩
  · rw [hsame]
    exact h
  · rw [hsame]
    exact h
  · obtain ⟨hsound, hsize⟩ := h.mail recipient t ht
    obtain ⟨hsound', -, hcap, -⟩ := hsound.send_ok hsend
    exact h.withMailbox hsound' (hcap.trans hsize) hr hco hobeys

/-- A task that asks for mail takes some, or has found none that it asked for. -/
theorem receive (h : s.Watchful size asked) {filter : Option Filter}
    (hasked : ∀ id, s.working? = some id → asked id = some filter) :
    (s.receive filter).2.Watchful size asked := by
  have hobeys : (s.receive filter).2.Obeys (waitRule s.cleanup asked) := by
    refine h.obeys.receive (lawful_waitRule _) h.coherent fun id t hworking ht => ?_
    obtain ⟨mailbox, htake, hsound, hmessages, -, -⟩ := (h.mail id t ht).1.takeMessage filter
    rw [htake]
    cases hfind : t.mailbox.messages.find? (Mailbox.admits filter) with
    | some message =>
      -- the current task is not queued as blocked, and it stays current
      intro hblocked
      obtain ⟨hwaits, -⟩ := h.obeys id t ht hblocked
      rw [h.coherent.not_blocked_of_working? hworking] at hwaits
      cases hwaits
    | none =>
      rw [List.eraseP_of_forall_not (List.find?_eq_none.1 hfind)] at hmessages
      rw [← hmessages] at hfind
      exact fun _ => ⟨rfl, .inr ⟨filter, hasked id hworking, Task.unanswered_of_find? hsound hfind⟩⟩
  rcases h.coherent.receive (fun id t ht => (h.mail id t ht).1)
      (Prod.eta (s.receive filter)).symm with
    ⟨-, -, hsame⟩ | ⟨id, t, mailbox, -, ht, hsound, -, hcap,
      ⟨message, -, hsame, -⟩ | ⟨switch, -, hco, -, hr, -⟩⟩
  · rw [hsame]
    exact h
  · have hco := h.coherent.withMailbox id mailbox
    rw [← hsame] at hco
    have hr : Rearranged (s.withMailbox id mailbox) (s.receive filter).2 := hsame ▸ .refl _
    exact h.withMailbox hsound (hcap.trans (h.mail id t ht).2) hr hco hobeys
  · exact h.withMailbox hsound (hcap.trans (h.mail id t ht).2) hr hco hobeys

/-! ### Tasks that come and go -/

theorem schedule (h : s.Watchful size asked) {task : Task} (hnew : task.mailbox = .new size) :
    (s.schedule task).2.Watchful size asked := by
  rcases h.coherent.schedule (Prod.eta (s.schedule task)).symm with
    ⟨-, -, hsame⟩ | ⟨-, -, hco, hj, -, hidle, hcleanup⟩
  · rw [hsame]
    exact h
  · have hobeys := h.obeys.schedule h.coherent (waitRule_new _ task _)
    exact ⟨hco, hj.soundMail h.mail hnew, hcleanup.symm ▸ hobeys,
      fun hnone => hcleanup.trans (h.servants (hidle.symm.trans hnone))⟩

/-- The two tasks of a core that is brought up; the second comes only if the first was taken. -/
theorem installServants (h : s.Watchful size asked) {idle cleanup : Task}
    (hidle : idle.mailbox = .new size) (hcleanup : cleanup.mailbox = .new size) :
    (s.installIdle idle).2.Watchful size asked ∧ ((s.installIdle idle).1 = .ok () →
      ((s.installIdle idle).2.installCleanup cleanup).2.Watchful size asked) := by
  have hobeys := h.obeys.installIdle h.coherent (waitRule_new _ idle _)
  rcases hs : s.installIdle idle with ⟨result, s₁⟩
  rw [hs] at hobeys
  rcases h.coherent.installIdle hs with ⟨rfl, -, rfl⟩ | ⟨rfl, -, hco, hj, hsome, hsame⟩
  · exact ⟨h, fun hok => by cases hok⟩
  -- there was no idle task before, and so no cleanup task that could wait
  have hnone : s₁.cleanup = none := hsame.trans (h.servants (idle_eq_none_of_installIdle hs))
  have hmail := hj.soundMail h.mail hidle
  have hobeys₁ : s₁.Obeys (waitRule s₁.cleanup asked) := hsame.symm ▸ hobeys
  have hfirst : s₁.Watchful size asked := ⟨hco, hmail, hobeys₁, fun _ => hnone⟩
  refine ⟨hfirst, fun _ => ?_⟩
  have hobeys₂ := hobeys₁.installCleanup hco (waitRule_new _ cleanup _)
  rcases hco.installCleanup (Prod.eta (s₁.installCleanup cleanup)).symm with
    ⟨-, -, hsame₂⟩ | ⟨-, -, hco₂, hj₂, hidle₂, -⟩
  · rw [hsame₂]
    exact hfirst
  · refine ⟨hco₂, hj₂.soundMail hmail hcleanup, fun id t ht hblocked => ?_, fun hidle => ?_⟩
    · obtain ⟨hwaits, hcleanup | hun⟩ := hobeys₂ id t ht hblocked
      · rw [hnone] at hcleanup
        cases hcleanup
      · exact ⟨hwaits, .inr hun⟩
    · rw [hidle₂, hsome] at hidle
      cases hidle

theorem exit (h : s.Watchful size asked) : s.exit.2.Watchful size asked := by
  have hobeys := h.obeys.exit (lawful_waitRule _) h.coherent
  rcases h.coherent.exit (Prod.eta s.exit).symm with
    ⟨-, hsame⟩ | ⟨id, t, switch, -, -, -, ht, hco, -, hr⟩
  · rw [hsame]
    exact h
  · have hmail : (s.retired id t).SoundMail size := by
      intro j t' ht'
      rw [task?_retired] at ht'
      split at ht'
      · cases ht'
      · exact h.mail j t' ht'
    exact h.moved hmail rfl rfl hr hco hobeys

theorem reap (h : s.Watchful size asked) : s.reap.2.Watchful size asked :=
  ⟨h.coherent.reap, h.mail, h.obeys, h.servants⟩

end Watchful

end Scheduler

end Microkernel
