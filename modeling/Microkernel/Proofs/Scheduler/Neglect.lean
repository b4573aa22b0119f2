/-
Ready tasks while the idle task runs.

A scheduler neglects its tasks if it dispatches and the idle task is current though another task is
ready. Passing the turn never ends like this, but what readies a task without passing the turn may
bring it about. `Work` lists what a call of the kernel makes of a scheduler, and none of it does.

Mail that is left in an inbox is delivered again by every later call, and no turn comes after it.
That readies nobody, if nobody who waits for mail has room for the first message that is left for
it (`heldRule`).

* **`Work.diligent`**: no call leaves a scheduler that neglects its tasks;
* **`Work.held`**: if no mailbox had room when a call began, nobody who waits has room at its end;
* **`Coherent.unturned_deliverAll`**: delivering such mail readies nobody;
* **`Refuses.deliverAll`**: mail that is refused is left as it is.
-/
import Microkernel.Proofs.Scheduler.Intake
import Microkernel.Proofs.Scheduler.Rotation

namespace Microkernel.Scheduler

variable {s s' : Scheduler} {size : Nat} {mail : List Mail}

/-! ### Neglect -/

/-- Dispatching has begun, and the idle task is current though another task is ready. -/
structure Neglects (s : Scheduler) : Prop where
  started : s.started = true
  idles : ∃ id, s.idle = some id ∧ s.current = some id
  ready : s.ready.toList ≠ []

/-- The same task is current, and the same tasks are ready. -/
structure Unturned (s s' : Scheduler) : Prop where
  started : s'.started = s.started
  idle : s'.idle = s.idle
  current : s'.current = s.current
  ready : s'.ready = s.ready

namespace Unturned

theorem refl (s : Scheduler) : Unturned s s :=
  ⟨rfl, rfl, rfl, rfl⟩

theorem trans {s'' : Scheduler} (h : Unturned s s') (h' : Unturned s' s'') : Unturned s s'' :=
  ⟨h'.started.trans h.started, h'.idle.trans h.idle, h'.current.trans h.current,
    h'.ready.trans h.ready⟩

theorem diligent (h : Unturned s s') (hs : ¬ s.Neglects) : ¬ s'.Neglects := by
  rintro ⟨hstarted, ⟨id, hidle, hcurrent⟩, hready⟩
  exact hs ⟨h.started ▸ hstarted, ⟨id, h.idle ▸ hidle, h.current ▸ hcurrent⟩, h.ready ▸ hready⟩

end Unturned

/-- The idle task gets the turn only if nothing is ready. -/
theorem Queued.diligent_switchToNext {ring waiting : List TaskId} (h : s.Queued ring waiting)
    (hint : Option TaskId) (preempted : Bool) :
    ¬ (s.switchToNext hint preempted).2.Neglects := by
  rintro ⟨-, ⟨id, hidle, hcurrent⟩, hready⟩
  obtain ⟨-, hr, -⟩ := h.switchToNext (Prod.eta (s.switchToNext hint preempted)).symm
  obtain ⟨ring', waiting', hq, hr', -, hchoice⟩ := h.selectNext hint
  rw [hr.idle] at hidle
  rw [h.current_switchToNext] at hcurrent
  rw [ready_switchToNext] at hready
  cases hchosen : (s.selectNext hint).1 with
  | none => exact hready ((h.selectNext_ring hint).1 hchosen).toList_eq
  | some next =>
    rw [hchosen] at hcurrent
    obtain rfl : next = id := Option.some.inj hcurrent
    exact (hq.idle next (hr'.idle.trans hidle)).1 (hchoice next hchosen)

theorem Coherent.diligent_reschedule (h : s.Coherent) : ¬ s.reschedule.2.Neglects := by
  rw [Scheduler.reschedule]
  split
  · -- it does not dispatch, or something else than the idle task is current
    rename_i hbusy
    rintro ⟨hstarted, ⟨id, hidle, hcurrent⟩, -⟩
    rw [hstarted, working?, hcurrent] at hbusy
    simp only [Bool.not_true, Bool.false_or] at hbusy
    obtain ⟨j, hj⟩ := Option.isSome_iff_exists.1 hbusy
    obtain ⟨hfound, hne⟩ := Option.mem_filter_iff.1 hj
    cases hfound
    exact of_decide_eq_true hne hidle
  · exact h.queued.diligent_switchToNext none false

/-! ### What a call makes of a scheduler -/

/-- What a call of the kernel makes of the scheduler. Whatever may ready a task is followed by a
turn, unless nothing was readied. -/
inductive Work : Scheduler → Scheduler → Prop
  | rest (s : Scheduler) : Work s s
  | start (s : Scheduler) : Work s s.start.2
  | turn (s : Scheduler) : Work s s.reschedule.2
  | tick (s : Scheduler) : Work s s.tick.2
  | block (s : Scheduler) (reason : BlockReason) : Work s (s.block reason).2
  | wake (s : Scheduler) (id : TaskId) : Work s (s.wake id).2.reschedule.2
  | join (s : Scheduler) (task : Task) : Work s (s.schedule task).2.reschedule.2
  | deliver (s : Scheduler) (recipient : TaskId) (message : Message)
      (h : (s.deliver recipient message).1 ≠ .ok true) : Work s (s.deliver recipient message).2
  | hand (s : Scheduler) (recipient : TaskId) (message : Message) :
      Work s (s.deliver recipient message).2.reschedule.2
  | receive (s : Scheduler) (filter : Option Filter) : Work s (s.receive filter).2
  | exit (s : Scheduler) : Work s s.exit.2
  | reap (s : Scheduler) : Work s s.reap.2
  | changePriority (s : Scheduler) (id : TaskId) (priority : Priority) :
      Work s (s.changePriority id priority).2
  | install (s : Scheduler) (idle cleanup : Task) (h : (s.installIdle idle).1 = .ok ()) :
      Work s ((s.installIdle idle).2.installCleanup cleanup).2

/-- Nothing is woken that does not wait. -/
theorem wake_of_false {id : TaskId} (h : (s.wake id).1 = false) : (s.wake id).2 = s := by
  rw [Scheduler.wake] at h ⊢
  split
  · rename_i hin
    rw [if_pos hin] at h
    cases h
  · rfl

/-- A task that is refused changes nothing. -/
theorem schedule_of_error {task : Task} {e : Error} (h : (s.schedule task).1 = .error e) :
    (s.schedule task).2 = s := by
  rw [Scheduler.schedule] at h ⊢
  split
  · rfl
  · rename_i hfresh
    rw [if_neg hfresh] at h
    cases h

theorem installIdle_of_error {task : Task} {e : Error} (h : (s.installIdle task).1 = .error e) :
    (s.installIdle task).2 = s := by
  rw [Scheduler.installIdle] at h ⊢
  split
  · rfl
  · rename_i hfree
    rw [if_neg hfree] at h
    cases h

theorem Work.coherent (h : Work s s') (hco : s.Coherent) : s'.Coherent := by
  cases h with
  | rest => exact hco
  | start => exact (hco.step .start).1
  | turn => exact (hco.step .reschedule).1
  | tick => exact (hco.step .tick).1
  | block reason => exact (hco.step (.block reason)).1
  | wake id => exact ((hco.step (.wake id)).1.step .reschedule).1
  | join task => exact ((hco.step (.schedule task)).1.step .reschedule).1
  | deliver recipient message _ => exact (hco.step (.deliver recipient message)).1
  | hand recipient message =>
    exact ((hco.step (.deliver recipient message)).1.step .reschedule).1
  | receive filter => exact (hco.step (.receive filter)).1
  | exit => exact (hco.step .exit).1
  | reap => exact (hco.step .reap).1
  | changePriority id priority => exact (hco.step (.changePriority id priority)).1
  | install idle cleanup _ =>
    exact ((hco.step (.installIdle idle)).1.step (.installCleanup cleanup)).1

/-! ### No call neglects a ready task -/

theorem unturned_deliver_of_asleep {recipient : TaskId} {message : Message}
    (h : (s.deliver recipient message).1 ≠ .ok true) :
    Unturned s (s.deliver recipient message).2 := by
  rw [Scheduler.deliver] at h ⊢
  split
  · exact .refl s
  · rename_i hin
    rw [if_neg hin] at h
    split
    · exact .refl s
    · rename_i t ht
      rw [ht] at h
      dsimp only at h
      split
      · exact .refl s
      · rename_i mailbox hsend
        rw [hsend] at h
        dsimp only at h ⊢
        split
        · rename_i hwake
          rw [if_pos hwake] at h
          exact absurd rfl h
        · exact ⟨rfl, rfl, rfl, rfl⟩

theorem Coherent.diligent_suspended (h : s.Coherent) {id : TaskId} (hid : s.working? = some id)
    (reason : BlockReason) (hint : Option TaskId) :
    ¬ ((s.suspended id reason).switchToNext hint false).2.Neglects := by
  obtain ⟨a, b, hab⟩ := h.ready_of_working? hid
  obtain ⟨waiting, -, hq, -⟩ := h.queued.suspend hab reason
  exact hq.diligent_switchToNext hint false

theorem Coherent.diligent_block (h : s.Coherent) (hs : ¬ s.Neglects) (reason : BlockReason) :
    ¬ (s.block reason).2.Neglects := by
  cases hid : s.working? with
  | none =>
    rw [block_eq_of_none hid]
    exact hs
  | some id =>
    rw [h.block_eq hid]
    exact h.diligent_suspended hid reason _

theorem Coherent.diligent_receive (h : s.Coherent) (hs : ¬ s.Neglects) (filter : Option Filter) :
    ¬ (s.receive filter).2.Neglects := by
  rcases h.receive_cases filter with hr | ⟨id, t, mailbox, hid, -, hr | ⟨-, hr⟩⟩ <;> rw [hr]
  · exact hs
  · have hkept : Unturned s (s.withMailbox id mailbox) := ⟨rfl, rfl, rfl, rfl⟩
    exact hkept.diligent hs
  · exact (h.withMailbox id mailbox).diligent_suspended hid _ _

theorem Coherent.diligent_exit (h : s.Coherent) (hs : ¬ s.Neglects) : ¬ s.exit.2.Neglects := by
  by_cases hnone : s.working? = none ∨ s.working? = s.cleanup
  · rw [exit_eq_of_none hnone]
    exact hs
  · obtain ⟨hworking, hcleanup⟩ := not_or.1 hnone
    obtain ⟨id, hid⟩ := Option.ne_none_iff_exists'.1 hworking
    have hcleanup : s.cleanup ≠ some id := fun e => hcleanup (hid.trans e.symm)
    obtain ⟨t, ht⟩ := Option.isSome_iff_exists.1 (h.contains_current (working?_eq_some hid).1)
    obtain ⟨a, b, hab⟩ := h.ready_of_working? hid
    obtain ⟨ring, waiting, hq, -⟩ := (h.queued.retired hab hcleanup t).wakeCleanup
    rw [h.exit_eq hid hcleanup ht]
    exact hq.diligent_switchToNext _ false

/-- The idle task is new when it is installed, and so it is not current. -/
theorem Coherent.diligent_install (h : s.Coherent) {idle : Task} (cleanup : Task)
    (hok : (s.installIdle idle).1 = .ok ()) :
    ¬ ((s.installIdle idle).2.installCleanup cleanup).2.Neglects := by
  rintro ⟨-, ⟨id, hid, hcurrent⟩, -⟩
  rcases h.installIdle (Prod.eta (s.installIdle idle)).symm with
    ⟨hfailed, -⟩ | ⟨-, hfresh, hco, hj, hidle, -⟩
  · rw [hfailed] at hok
    cases hok
  have hsame : ((s.installIdle idle).2.installCleanup cleanup).2.idle =
      (s.installIdle idle).2.idle ∧
        ((s.installIdle idle).2.installCleanup cleanup).2.current =
          (s.installIdle idle).2.current := by
    rcases hco.installCleanup (Prod.eta ((s.installIdle idle).2.installCleanup cleanup)).symm with
      ⟨-, -, hs⟩ | ⟨-, -, -, hj', hidle', -⟩
    · rw [hs]
      exact ⟨rfl, rfl⟩
    · exact ⟨hidle', hj'.current⟩
  rw [hsame.1, hidle] at hid
  rw [hsame.2, hj.current] at hcurrent
  obtain rfl : idle.id = id := Option.some.inj hid
  rw [h.contains_current hcurrent] at hfresh
  cases hfresh

theorem Work.diligent (h : Work s s') (hco : s.Coherent) (hs : ¬ s.Neglects) : ¬ s'.Neglects := by
  cases h with
  | rest => exact hs
  | start =>
    have hq : ({ s with started := true } : Scheduler).Queued s.ready.toList s.blocked.toList :=
      hco.queued.congr rfl rfl rfl rfl rfl
    exact hq.diligent_switchToNext none false
  | turn => exact hco.diligent_reschedule
  | tick =>
    cases hstarted : s.started with
    | true =>
      rw [tick_of_started hstarted]
      exact hco.queued.advanced.unblockWakeable.1.diligent_switchToNext none true
    | false =>
      rw [tick_of_stopped hstarted]
      exact hs
  | block reason => exact hco.diligent_block hs reason
  | wake id => exact (hco.step (.wake id)).1.diligent_reschedule
  | join task => exact (hco.step (.schedule task)).1.diligent_reschedule
  | deliver recipient message hasleep => exact (unturned_deliver_of_asleep hasleep).diligent hs
  | hand recipient message => exact (hco.step (.deliver recipient message)).1.diligent_reschedule
  | receive filter => exact hco.diligent_receive hs filter
  | exit => exact hco.diligent_exit hs
  | reap =>
    have hkept : Unturned s s.reap.2 := ⟨rfl, rfl, rfl, rfl⟩
    exact hkept.diligent hs
  | changePriority id priority =>
    refine Unturned.diligent ?_ hs
    rw [Scheduler.changePriority]
    split
    · exact .refl s
    · exact ⟨rfl, rfl, rfl, rfl⟩
  | install idle cleanup hok => exact hco.diligent_install cleanup hok

/-! ### Mailboxes without room -/

/-- There is no room for the first message that is left for a task. -/
def fullRule (mail : List Mail) : Rule :=
  fun _ id t => ∀ message rest, mailFor id mail = message :: rest →
    t.mailbox.send message = .error .mailboxFull

/-- No task waits that has room for the first message that is left for it. -/
def heldRule (mail : List Mail) : Rule :=
  fun waits id t => waits = true → t.state = .blocked → fullRule mail waits id t

theorem lawful_fullRule (mail : List Mail) : (fullRule mail).Lawful where
  readied _ _ _ h := h
  entered _ _ _ h := h
  paused waits id t h := by
    rw [pause]
    split <;> exact h
  slept _ _ _ h := h
  prioritized _ _ _ _ h := h

theorem lawful_heldRule (mail : List Mail) : (heldRule mail).Lawful where
  readied waits id t _ hwaits := by cases hwaits
  entered id t core _ hwaits := by cases hwaits
  paused waits id t h := by
    rw [pause]
    split
    · intro _ hblocked
      cases hblocked
    · exact h
  slept id t wakeTime _ _ hblocked := by cases hblocked
  prioritized _ _ _ _ h := h

/-- A task that does not wait is not held. -/
theorem heldRule_false (mail : List Mail) (id : TaskId) (t : Task) : heldRule mail false id t :=
  fun hwaits => by cases hwaits

theorem Obeys.held (h : s.Obeys (fullRule mail)) : s.Obeys (heldRule mail) :=
  fun id t ht _ _ => h id t ht

theorem obeys_heldRule_nil (s : Scheduler) : s.Obeys (heldRule []) := by
  intro id t _ _ _ message rest hmail
  cases hmail

/-- A search that finds nothing makes no room. -/
theorem fullRule_of_not_found {t : Task} {id : TaskId} (hsound : t.mailbox.Sound)
    {filter : Option Filter} {mailbox : Mailbox}
    (htake : takeMessage t.mailbox filter = (.ok none, mailbox))
    (h : ∀ message rest, mailFor id mail = message :: rest →
      t.mailbox.send message = .error .mailboxFull)
    (message : Message) (rest : List Message) (hmail : mailFor id mail = message :: rest) :
    mailbox.send message = .error .mailboxFull := by
  have hused := hsound.used_of_not_found htake
  obtain ⟨mailbox', htake', hsound', -, hcap, -⟩ := hsound.takeMessage filter
  obtain ⟨-, rfl⟩ := Prod.mk.inj (htake.symm.trans htake')
  exact hsound.send_eq_full hsound' hcap (Nat.le_of_eq hused.symm) (h message rest hmail)

theorem Obeys.full_deliver (h : s.Obeys (fullRule mail)) (hco : s.Coherent)
    (hmail : s.SoundMail size) (recipient : TaskId) (message : Message) :
    (s.deliver recipient message).2.Obeys (fullRule mail) := by
  -- what goes into a mailbox makes no room
  have hfilled : ∀ t mailbox, s.task? recipient = some t →
      t.mailbox.send message = .ok mailbox → ∀ m rest, mailFor recipient mail = m :: rest →
        mailbox.send m = .error .mailboxFull := by
    intro t mailbox ht hsend m rest hm
    have hsound := (hmail recipient t ht).1
    obtain ⟨hsound', -, hcap, -⟩ := hsound.send_ok hsend
    exact hsound.send_eq_full hsound' hcap (hsound.used_of_send hsend)
      (h recipient t ht m rest hm)
  exact h.deliver hco (fun t mailbox ht hsend _ _ => hfilled t mailbox ht hsend)
    fun t mailbox ht hsend _ => hfilled t mailbox ht hsend

theorem Obeys.held_receive (h : s.Obeys (fullRule mail)) (hco : s.Coherent)
    (hmail : s.SoundMail size) (filter : Option Filter) :
    (s.receive filter).2.Obeys (heldRule mail) := by
  refine h.held.receive (lawful_heldRule mail) hco fun id t hworking ht => ?_
  split
  · rename_i mailbox htake
    exact fun _ _ => fullRule_of_not_found (hmail id t ht).1 htake (h id t ht)
  · exact heldRule_false mail id _

/-- If no mailbox had room for what is left when a call began, nobody who waits has room for it at
the end. -/
theorem Work.held (h : Work s s') (hco : s.Coherent) (hmail : s.SoundMail size)
    (hfull : s.Obeys (fullRule mail)) : s'.Obeys (heldRule mail) := by
  have hl := lawful_fullRule mail
  have hl' := lawful_heldRule mail
  cases h with
  | rest => exact hfull.held
  | start => exact (hfull.start hl hco).held
  | turn => exact (hfull.reschedule hl hco).held
  | tick => exact (hfull.tick hl hco).held
  | block reason =>
    refine (hfull.block hl hco fun id t _ ht => ?_).held
    cases reason <;> exact hfull id t ht
  | wake id =>
    exact ((hfull.wake hl hco.queued.blocked id).reschedule hl (hco.step (.wake id)).1).held
  | join task =>
    exact (hfull.held.schedule hco (heldRule_false mail _ _)).reschedule hl'
      (hco.step (.schedule task)).1
  | deliver recipient message _ => exact (hfull.full_deliver hco hmail recipient message).held
  | hand recipient message =>
    exact ((hfull.full_deliver hco hmail recipient message).reschedule hl
      (hco.step (.deliver recipient message)).1).held
  | receive filter => exact hfull.held_receive hco hmail filter
  | exit => exact (hfull.exit hl hco).held
  | reap => exact fun id t ht => hfull.held id t ht
  | changePriority id priority => exact (hfull.changePriority hl id priority).held
  | install idle cleanup _ =>
    exact (hfull.held.installIdle hco (heldRule_false mail _ _)).installCleanup
      (hco.step (.installIdle idle)).1 (heldRule_false mail _ _)

/-! ### Delivering what is left -/

/-- The demand on all tasks but some. -/
def Rule.but (rule : Rule) (ids : List TaskId) : Rule :=
  fun waits id t => id ∉ ids → rule waits id t

theorem deliver_eq_error {recipient : TaskId} {message : Message} {t : Task} {e : Error}
    (hin : (s.blocked.contains recipient || s.ready.contains recipient) = true)
    (ht : s.task? recipient = some t) (hsend : t.mailbox.send message = .error e) :
    s.deliver recipient message = (.error e, s) := by
  have hfound : ¬ (!s.blocked.contains recipient && !s.ready.contains recipient) = true := by
    rw [← Bool.not_or, hin]
    decide
  rw [Scheduler.deliver, if_neg hfound, ht]
  dsimp only
  rw [hsend]

/-- A message for a task that does not wait, or that has no room for it, readies nobody. -/
theorem Coherent.unturned_deliver (h : s.Coherent) {recipient : TaskId} {message : Message}
    (hheld : ∀ t, s.task? recipient = some t → s.blocked.contains recipient = true →
      t.state = .blocked → t.mailbox.send message = .error .mailboxFull) :
    Unturned s (s.deliver recipient message).2 := by
  rw [Scheduler.deliver]
  split
  · exact .refl s
  · rename_i hin
    split
    · exact .refl s
    · rename_i t ht
      split
      · exact .refl s
      · rename_i mailbox hsend
        dsimp only
        split
        · rename_i hwake
          -- what is readied has a place in the ring already, as it does not wait
          have hplace : s.blocked.contains recipient = false := by
            rw [← Bool.not_eq_true]
            intro hwaits
            rw [hheld t ht hwaits hwake.1] at hsend
            cases hsend
          have hready : recipient ∈ s.ready.toList := by
            rw [hplace] at hin
            exact (h.queued.ready.contains_iff recipient).1 (by simpa using hin)
          exact ⟨rfl, rfl, rfl, congrArg Prod.snd (h.queued.ready.append_of_mem hready)⟩
        · exact ⟨rfl, rfl, rfl, rfl⟩

/-- Mail behind the message that is tried next, where nobody who waits has room for that. -/
theorem Obeys.held_tail {recipient : TaskId} {message : Message} {rest : List Mail}
    {stalled : List TaskId}
    (h : s.Obeys ((heldRule ((recipient, message) :: rest)).but stalled))
    (hrecipient : ∀ t, s.task? recipient = some t → s.blocked.contains recipient = true →
      t.state = .blocked → recipient ∈ stalled) :
    s.Obeys ((heldRule rest).but stalled) := by
  intro id t ht hid hwaits hblocked m ms hm
  refine h id t ht hid hwaits hblocked m ms ?_
  rw [mailFor_cons, if_neg]
  · exact hm
  · rintro rfl
    exact hid (hrecipient t ht hwaits hblocked)

/-- Nobody who waits has room for the message that is tried next. -/
theorem Obeys.held_first {recipient : TaskId} {message : Message} {rest : List Mail}
    {stalled : List TaskId} (hstalled : recipient ∉ stalled)
    (h : s.Obeys ((heldRule ((recipient, message) :: rest)).but stalled)) :
    ∀ t, s.task? recipient = some t → s.blocked.contains recipient = true →
      t.state = .blocked → t.mailbox.send message = .error .mailboxFull := by
  intro t ht hwaits hblocked
  refine h recipient t ht hstalled hwaits hblocked message (mailFor recipient rest) ?_
  rw [mailFor_cons, if_pos rfl]

/-- Mail for a task that is stalled is not looked at any more. -/
theorem Obeys.held_stalled {recipient : TaskId} {message : Message} {rest : List Mail}
    {stalled : List TaskId}
    (h : s.Obeys ((heldRule ((recipient, message) :: rest)).but stalled)) :
    s.Obeys ((heldRule rest).but (recipient :: stalled)) := by
  intro id t ht hid hwaits hblocked m ms hm
  have hne : recipient ≠ id := fun e => hid (e ▸ List.mem_cons_self)
  refine h id t ht (fun hin => hid (List.mem_cons_of_mem _ hin)) hwaits hblocked m ms ?_
  rw [mailFor_cons, if_neg hne]
  exact hm

/-- A message that is not refused was not for one who waits. -/
theorem Coherent.held_delivered (h : s.Coherent) {recipient : TaskId} {message : Message}
    {rest : List Mail} {stalled : List TaskId} (hstalled : recipient ∉ stalled)
    (hheld : s.Obeys ((heldRule ((recipient, message) :: rest)).but stalled))
    (hrefused : s.deliver recipient message ≠ (.error .mailboxFull, s)) :
    (s.deliver recipient message).2.Obeys ((heldRule rest).but stalled) := by
  have hfull := hheld.held_first hstalled
  have hnobody : ∀ t, s.task? recipient = some t → s.blocked.contains recipient = true →
      t.state = .blocked → recipient ∈ stalled := by
    intro t ht hwaits hblocked
    have hin : (s.blocked.contains recipient || s.ready.contains recipient) = true := by
      rw [hwaits]
      rfl
    exact absurd (deliver_eq_error hin ht (hfull t ht hwaits hblocked)) hrefused
  refine (hheld.held_tail hnobody).deliver h (fun t mailbox _ _ _ _ _ => ?_)
    fun t mailbox ht hsend _ _ hwaits hblocked => ?_
  · exact heldRule_false rest recipient _
  · rw [hfull t ht hwaits hblocked] at hsend
    cases hsend

/-- A mailbox that is full leaves everything as it was, so nothing else stalls a task. -/
theorem Coherent.deliverAll_cons (h : s.Coherent) {recipient : TaskId} {message : Message}
    (rest : List Mail) {stalled : List TaskId} (hstalled : recipient ∉ stalled)
    (hrefused : s.deliver recipient message ≠ (.error .mailboxFull, s)) :
    s.deliverAll stalled ((recipient, message) :: rest) =
      (s.deliver recipient message).2.deliverAll stalled rest := by
  rw [Scheduler.deliverAll, if_neg hstalled]
  rcases hs : s.deliver recipient message with ⟨result, s₁⟩
  rw [hs] at hrefused
  split
  · rename_i s₂ heq
    obtain ⟨rfl, rfl⟩ := Prod.mk.inj heq
    rcases h.deliver hs with ⟨he, -⟩ | ⟨t, -, -, ⟨e, -, hsame, -⟩ | ⟨woken, mailbox, he, -⟩⟩
    · cases he
    · exact absurd (congrArg (Prod.mk _) hsame) hrefused
    · cases he
  · rename_i heq
    obtain ⟨-, rfl⟩ := Prod.mk.inj heq
    rfl

/-- Delivering mail readies nobody, if nobody who waits has room for the first message that is left
for it. -/
theorem Coherent.unturned_deliverAll (h : s.Coherent) {stalled : List TaskId}
    (hheld : s.Obeys ((heldRule mail).but stalled)) :
    Unturned s (s.deliverAll stalled mail).2 := by
  induction mail generalizing s stalled with
  | nil => exact .refl s
  | cons entry rest ih =>
    obtain ⟨recipient, message⟩ := entry
    by_cases hstalled : recipient ∈ stalled
    · rw [Scheduler.deliverAll, if_pos hstalled]
      exact ih h (hheld.held_tail fun _ _ _ _ => hstalled)
    by_cases hrefused : s.deliver recipient message = (.error .mailboxFull, s)
    · rw [Scheduler.deliverAll, if_neg hstalled, hrefused]
      exact ih h hheld.held_stalled
    · have hfirst := h.unturned_deliver (hheld.held_first hstalled)
      have hco : (s.deliver recipient message).2.Coherent :=
        (h.step (.deliver recipient message)).1
      rw [h.deliverAll_cons rest hstalled hrefused]
      exact hfirst.trans (ih hco (h.held_delivered hstalled hheld hrefused))

/-! ### Mail that is refused -/

/-- The first message that is left for each task is refused for want of room. -/
def Refuses (s : Scheduler) (mail : List Mail) : Prop :=
  ∀ id message rest, mailFor id mail = message :: rest →
    s.deliver id message = (.error .mailboxFull, s)

/-- Mail for tasks that take any is refused if their mailboxes have no room. -/
theorem Coherent.refuses_of_full (h : s.Coherent) (hfull : s.Obeys (fullRule mail))
    (hlive : ∀ id, mailFor id mail ≠ [] → s.contains id = true ∧ s.idle ≠ some id) :
    s.Refuses mail := by
  intro id message rest hmail
  obtain ⟨hin, hidle⟩ := hlive id (by rw [hmail]; exact List.cons_ne_nil _ _)
  obtain ⟨t, ht⟩ := Option.isSome_iff_exists.1 hin
  have hfound := (h.deliverable_iff id).2 ⟨hin, hidle⟩
  exact deliver_eq_error hfound ht (hfull id t ht message rest hmail)

theorem Coherent.full_of_refuses (h : s.Coherent) (hrefuses : s.Refuses mail) :
    s.Obeys (fullRule mail) := by
  intro id t ht message rest hmail
  rcases h.deliver (hrefuses id message rest hmail) with
    ⟨he, -⟩ | ⟨t', ht', -, ⟨e, he, -, hsend⟩ | ⟨woken, mailbox, he, -⟩⟩
  · cases he
  · cases he
    obtain rfl : t' = t := Option.some.inj (ht'.symm.trans ht)
    exact hsend
  · cases he

theorem Coherent.live_of_refuses (h : s.Coherent) (hrefuses : s.Refuses mail) {id : TaskId}
    (hid : mailFor id mail ≠ []) : s.contains id = true ∧ s.idle ≠ some id := by
  obtain ⟨message, rest, hmail⟩ := List.exists_cons_of_ne_nil hid
  rcases h.deliver (hrefuses id message rest hmail) with ⟨he, -⟩ | ⟨t, ht, hidle, -⟩
  · cases he
  · exact ⟨Option.isSome_of_mem ht, hidle⟩

/-- Mail that is refused is left as it is. -/
theorem Refuses.deliverAll (h : s.Refuses mail) : s.deliverAll [] mail = (mail, s) := by
  -- what is behind a refused message waits with it, so only the first messages matter
  have hgen : ∀ (mail : List Mail) (stalled : List TaskId),
      (∀ id message rest, id ∉ stalled → mailFor id mail = message :: rest →
        s.deliver id message = (.error .mailboxFull, s)) →
      s.deliverAll stalled mail = (mail, s) := by
    intro mail
    induction mail with
    | nil => exact fun _ _ => rfl
    | cons entry rest ih =>
      obtain ⟨recipient, message⟩ := entry
      intro stalled hrefused
      have hbehind : ∀ id m ms, id ≠ recipient → id ∉ stalled → mailFor id rest = m :: ms →
          s.deliver id m = (.error .mailboxFull, s) := by
        intro id m ms hne hid hm
        refine hrefused id m ms hid ?_
        rw [mailFor_cons, if_neg fun e => hne e.symm]
        exact hm
      rw [Scheduler.deliverAll]
      by_cases hstalled : recipient ∈ stalled
      · rw [if_pos hstalled, ih stalled fun id m ms hid =>
          hbehind id m ms (fun e => hid (e ▸ hstalled)) hid]
      · have hfirst : s.deliver recipient message = (.error .mailboxFull, s) := by
          refine hrefused recipient message (mailFor recipient rest) hstalled ?_
          rw [mailFor_cons, if_pos rfl]
        rw [if_neg hstalled, hfirst]
        dsimp only
        rw [ih (recipient :: stalled) fun id m ms hid =>
          hbehind id m ms (fun e => hid (e ▸ List.mem_cons_self))
            fun hin => hid (List.mem_cons_of_mem _ hin)]
  exact hgen mail [] fun id message rest _ => h id message rest

/-- A task that finds nothing suitable makes no room before it waits. -/
theorem Coherent.refuses_receive (h : s.Coherent) (hmail : s.SoundMail size)
    (hrefuses : s.Refuses mail) {filter : Option Filter} {switch : Option Switch}
    (hwaits : (s.receive filter).1 = .ok (.waiting switch)) :
    (s.receive filter).2.Refuses mail := by
  have hsound : ∀ id t, s.task? id = some t → t.mailbox.Sound := fun id t ht => (hmail id t ht).1
  have hfull := h.full_of_refuses hrefuses
  rcases h.receive hsound (Prod.eta (s.receive filter)).symm with
    ⟨he, -⟩ | ⟨id, t, mailbox, hid, ht, -, -, -, ⟨message, he, -⟩ | ⟨-, -, hco, -, hr, -⟩⟩
  · rw [he] at hwaits
    cases hwaits
  · rw [he] at hwaits
    cases hwaits
  refine hco.refuses_of_full ?_ fun j hj => ?_
  · refine hfull.receive (lawful_fullRule mail) h fun j u hj hu => ?_
    rcases htake : takeMessage u.mailbox filter with ⟨result, mailbox⟩
    rw [h.receive_eq hj hu htake] at hwaits
    match result with
    | .error e => cases hwaits
    | .ok (some message) => cases hwaits
    | .ok none => exact fullRule_of_not_found (hsound j u hu) htake (hfull j u hu)
  · rw [hr.contains, hr.idle, contains_withMailbox]
    exact h.live_of_refuses hrefuses hj

end Microkernel.Scheduler
