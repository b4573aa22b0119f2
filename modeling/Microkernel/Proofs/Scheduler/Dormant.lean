/-
Waits that last.

`s.Dormant p id` says that a task is queued as blocked and that `p` holds of it. Nearly everything
that is asked of a scheduler lets such a wait last: other tasks are readied, entered, paused and put
to sleep, tasks come and go, and a scan passes a task whose time has not come. What can end the wait
is a wake of the task, mail for it, an unblock of it, and the clock.

* **`Lasts.unblockWakeable`**: the scan readies other tasks only;
* **`Queued.lasts_switchToNext`**: the turn does not pass to a task that waits;
* **`Coherent.lasts_step`**: no operation but these ends the wait of a task, or moves the clock.

Design notes: `Lasts` bundles the clock with the wait, so that one lemma for each part of an
operation serves both. Of `p` it is only asked that it says nothing about what scheduling changes
in a task that waits (`Restful`), so that the same lemmas are about sleepers and about tasks that
wait for mail.
-/
import Microkernel.Proofs.Scheduler.Rotation

namespace Microkernel.Scheduler

variable {s s' : Scheduler} {p : Task → Prop} {id : TaskId} {ring waiting : List TaskId}

/-! ### A task that waits -/

/-- A task is queued as blocked, and `p` holds of it. -/
structure Dormant (s : Scheduler) (p : Task → Prop) (id : TaskId) : Prop where
  blocked : ∃ waiting, s.blocked.Spells waiting ∧ id ∈ waiting
  asleep : ∃ t, s.task? id = some t ∧ p t

/-- Whoever satisfies `p` does not run, and may be more or less urgent. -/
structure Restful (p : Task → Prop) : Prop where
  waits : ∀ t, p t → t.state ≠ .running
  prioritized : ∀ t priority, p t → p { t with priority := priority }

theorem Dormant.mem_blocked (h : s.Dormant p id) : id ∈ s.blocked.toList := by
  obtain ⟨waiting, hspells, hmem⟩ := h.blocked
  rwa [hspells.toList_eq]

theorem Dormant.contains (h : s.Dormant p id) : s.contains id = true := by
  obtain ⟨t, ht, -⟩ := h.asleep
  exact Option.isSome_iff_exists.2 ⟨t, ht⟩

theorem Dormant.isWakeable_eq_false (h : s.Dormant p id)
    (hwait : ∀ t, p t → t.isWakeable s.elapsed = false) : s.isWakeable id = false := by
  obtain ⟨t, ht, hp⟩ := h.asleep
  rw [isWakeable, ht, Option.any_some, hwait t hp]

/-- The current task does not wait. -/
theorem Coherent.ne_of_dormant (h : s.Coherent) (hd : s.Dormant p id) {j : TaskId}
    (hj : s.working? = some j) : id ≠ j := by
  rintro rfl
  have hout := h.not_blocked_of_working? hj
  rw [(h.queued.blocked.contains_iff id).2 hd.mem_blocked] at hout
  cases hout

/-- The blocked tasks are the same, and so is the one that waits. -/
theorem Dormant.congr (h : s.Dormant p id) (hblocked : s'.blocked = s.blocked)
    (htask : s'.task? id = s.task? id) : s'.Dormant p id := by
  refine ⟨hblocked ▸ h.blocked, ?_⟩
  rw [htask]
  exact h.asleep

/-- A change to one task that `p` does not see. -/
theorem Dormant.modifyTask (h : s.Dormant p id) (j : TaskId) {f : Task → Task}
    (hf : j = id → ∀ t, p t → p (f t)) : (s.modifyTask j f).Dormant p id := by
  obtain ⟨t, ht, hp⟩ := h.asleep
  refine ⟨h.blocked, ?_⟩
  rw [task?_modifyTask]
  split
  · rename_i heq
    exact ⟨f t, by rw [ht]; rfl, hf heq.symm t hp⟩
  · exact ⟨t, ht, hp⟩

/-- A task that is not blocked is entered. -/
theorem Dormant.enter (hp : Restful p) (h : s.Dormant p id) (previous : Option TaskId)
    {next : TaskId} (hnext : s.blocked.contains next = false) :
    (s.enter previous next).Dormant p id := by
  have hentered : ∀ paused : Scheduler, paused.Dormant p id →
      paused.blocked.contains next = false →
      ({ paused.modifyTask next fun t =>
        { t with state := .running, lastCore := some s.core } with
          current := some next } : Scheduler).Dormant p id := by
    intro paused hd hout
    refine hd.congr rfl ((task?_modifyTask next _ id).trans (if_neg ?_))
    rintro rfl
    obtain ⟨waiting, hspells, hmem⟩ := hd.blocked
    rw [(hspells.contains_iff id).2 hmem] at hout
    cases hout
  cases previous with
  | none => exact hentered s h hnext
  | some j =>
    -- a task that waits was not running, so pausing it does nothing
    refine hentered (s.modifyTask j pause) (h.modifyTask j fun _ t ht => ?_) hnext
    rw [pause, if_neg (hp.waits t ht)]
    exact ht

/-- The clock stands still, and the wait of `id` goes on if its time has not come. -/
structure Lasts (p : Task → Prop) (id : TaskId) (s s' : Scheduler) : Prop where
  elapsed : s'.elapsed = s.elapsed
  dormant : (∀ t, p t → t.isWakeable s.elapsed = false) → s.Dormant p id → s'.Dormant p id

namespace Lasts

theorem refl (p : Task → Prop) (id : TaskId) (s : Scheduler) : Lasts p id s s :=
  ⟨rfl, fun _ h => h⟩

theorem trans {s s' s'' : Scheduler} (h : Lasts p id s s') (h' : Lasts p id s' s'') :
    Lasts p id s s'' where
  elapsed := h'.elapsed.trans h.elapsed
  dormant hwait hd := h'.dormant (h.elapsed.symm ▸ hwait) (h.dormant hwait hd)

/-- An operation that does nothing to the blocked tasks. -/
theorem of_tasks (helapsed : s'.elapsed = s.elapsed) (hblocked : s'.blocked = s.blocked)
    (htask : s.Dormant p id → s'.task? id = s.task? id) : Lasts p id s s' where
  elapsed := helapsed
  dormant _ h := h.congr hblocked (htask h)

theorem modifyTask (s : Scheduler) (j : TaskId) {f : Task → Task}
    (hf : j = id → ∀ t, p t → p (f t)) : Lasts p id s (s.modifyTask j f) :=
  ⟨rfl, fun _ h => h.modifyTask j hf⟩

theorem withMailbox (s : Scheduler) (j : TaskId) (mailbox : Mailbox)
    (hmail : j = id → ∀ t, p t → p { t with mailbox := mailbox }) :
    Lasts p id s (s.withMailbox j mailbox) :=
  modifyTask s j hmail

/-- Another task is readied. -/
theorem makeReady (s : Scheduler) {j : TaskId} (hne : j ≠ id) :
    Lasts p id s (s.makeReady j) where
  elapsed := rfl
  dormant hwait h := by
    obtain ⟨waiting, hspells, hmem⟩ := h.blocked
    have hlasts : Lasts p id s
        (s.modifyTask j fun t => { t with state := .ready, waitSince := none }) :=
      modifyTask s j fun e => absurd e hne
    refine ⟨?_, (hlasts.dormant hwait h).asleep⟩
    by_cases hj : j ∈ waiting
    · obtain ⟨a, b, hab⟩ := List.append_of_mem hj
      refine ⟨a ++ b, hspells.remove hab, ?_⟩
      rw [hab] at hmem
      grind
    · have hsame : (s.makeReady j).blocked = s.blocked :=
        congrArg Prod.snd (hspells.remove_of_not_mem hj)
      exact ⟨waiting, hsame ▸ hspells, hmem⟩

theorem makeReadyAll (s : Scheduler) {ids : List TaskId} (hids : id ∉ ids) :
    Lasts p id s (ids.foldl Scheduler.makeReady s) := by
  induction ids generalizing s with
  | nil => exact refl p id s
  | cons j ids ih =>
    obtain ⟨hne, hrest⟩ := List.ne_and_not_mem_of_not_mem_cons hids
    exact (makeReady s hne.symm).trans (ih (s.makeReady j) hrest)

/-- The scan for tasks whose wait is over passes a task that waits on. -/
theorem unblockWakeable (s : Scheduler) : Lasts p id s s.unblockWakeable.2 := by
  have hclock : ∀ (ids : List TaskId) (s : Scheduler),
      (ids.foldl Scheduler.makeReady s).elapsed = s.elapsed := by
    intro ids
    induction ids with
    | nil => exact fun _ => rfl
    | cons j ids ih => exact fun s => ih (s.makeReady j)
  refine ⟨hclock _ s, fun hwait h => ?_⟩
  refine (makeReadyAll s fun hmem => ?_).dormant hwait h
  have hdue := (List.mem_filter.1 hmem).2
  rw [h.isWakeable_eq_false hwait] at hdue
  cases hdue

theorem wake (s : Scheduler) {j : TaskId} (hne : j ≠ id) : Lasts p id s (s.wake j).2 := by
  rw [Scheduler.wake]
  split
  · exact makeReady s hne
  · exact refl p id s

theorem wakeCleanup (s : Scheduler) (hne : s.cleanup ≠ some id) :
    Lasts p id s s.wakeCleanup := by
  rw [Scheduler.wakeCleanup]
  split
  · rename_i j hj
    exact wake s fun e => hne (e ▸ hj)
  · exact refl p id s

/-- A task is unblocked, unless that is the one that waits and it may be. -/
theorem unblock (s : Scheduler) (j : TaskId)
    (hearly : j = id → ∀ t, p t → t.state = .sleeping ∧ s.elapsed < t.wakeTime) :
    Lasts p id s (s.unblock j).2 := by
  rw [Scheduler.unblock]
  split
  · exact refl p id s
  · rename_i hgo
    by_cases hne : j = id
    · -- a sleeping task is left alone before its time
      subst hne
      refine ⟨rfl, fun _ h => absurd ?_ hgo⟩
      obtain ⟨t, ht, hp⟩ := h.asleep
      have hbeyond : s.sleepsBeyond s.elapsed j = true := by
        rw [sleepsBeyond, ht, Option.any_some, decide_eq_true_eq]
        exact hearly rfl t hp
      rw [hbeyond, Bool.or_true]
    · exact makeReady s hne

/-- Mail is delivered, unless the one that waits could be woken by it. -/
theorem deliver (s : Scheduler) (recipient : TaskId) (message : Message)
    (hmail : recipient = id → ∀ t mailbox, p t →
      t.state ≠ .blocked ∧ p { t with mailbox := mailbox }) :
    Lasts p id s (s.deliver recipient message).2 := by
  rw [Scheduler.deliver]
  split
  · exact refl p id s
  split
  · exact refl p id s
  rename_i t ht
  split
  · exact refl p id s
  · rename_i mailbox _
    have hkept : Lasts p id s (s.withMailbox recipient mailbox) :=
      withMailbox s recipient mailbox fun e t hp => (hmail e t mailbox hp).2
    dsimp only
    split
    · rename_i hwoken
      by_cases hne : recipient = id
      · -- mail readies only a task that waits for mail
        subst hne
        refine ⟨rfl, fun _ h => ?_⟩
        obtain ⟨u, hu, hp⟩ := h.asleep
        rw [ht] at hu
        cases hu
        exact absurd hwoken.1 (hmail rfl t mailbox hp).1
      · exact hkept.trans (makeReady (s.withMailbox recipient mailbox) hne)
    · exact hkept

theorem schedule (s : Scheduler) (task : Task) : Lasts p id s (s.schedule task).2 := by
  rw [Scheduler.schedule]
  split
  · exact refl p id s
  · rename_i hfresh
    refine of_tasks rfl rfl fun hd => (Table.get?_insert s.tasks task.id _ id).trans (if_neg ?_)
    rintro rfl
    exact hfresh hd.contains

theorem installCleanup (s : Scheduler) (task : Task) :
    Lasts p id s (s.installCleanup task).2 := by
  have hjoined : Lasts p id s (s.schedule task).2 := schedule s task
  rw [Scheduler.installCleanup]
  generalize s.schedule task = scheduled at hjoined ⊢
  obtain ⟨result, s₁⟩ := scheduled
  cases result with
  | error e => exact hjoined
  | ok => exact hjoined.trans (of_tasks rfl rfl fun _ => rfl)

theorem installIdle (s : Scheduler) (task : Task) : Lasts p id s (s.installIdle task).2 := by
  rw [Scheduler.installIdle]
  split
  · exact refl p id s
  · rename_i haccepted
    refine of_tasks rfl rfl fun hd => (Table.get?_insert s.tasks task.id _ id).trans (if_neg ?_)
    rintro rfl
    rw [hd.contains] at haccepted
    simp at haccepted

theorem changePriority (hp : Restful p) (s : Scheduler) (j : TaskId) (priority : Priority) :
    Lasts p id s (s.changePriority j priority).2 := by
  rw [Scheduler.changePriority]
  split
  · exact refl p id s
  · have hchanged : Lasts p id s (s.modifyTask j fun t => { t with priority := priority }) :=
      modifyTask s j fun _ t => hp.prioritized t priority
    exact hchanged.trans (of_tasks rfl rfl fun _ => rfl)

theorem selectNext (s : Scheduler) (hint : Option TaskId) :
    Lasts p id s (s.selectNext hint).2 := by
  rw [Scheduler.selectNext]
  split
  · exact unblockWakeable s
  split
  · exact refl p id s
  split <;> exact refl p id s

theorem enter (hp : Restful p) (s : Scheduler) (previous : Option TaskId) {next : TaskId}
    (hnext : s.blocked.contains next = false) : Lasts p id s (s.enter previous next) :=
  ⟨by cases previous <;> rfl, fun _ h => h.enter hp previous hnext⟩

end Lasts

/-- An operation wakes a task: by a wake of it, or because it is the cleanup task and another
task ends. -/
def Wakes (s : Scheduler) (operation : Operation) (id : TaskId) : Prop :=
  operation = .wake id ∨ operation = .exit ∧ s.cleanup = some id ∧ s.exit.1.isOk = true

instance (s : Scheduler) (operation : Operation) (id : TaskId) :
    Decidable (s.Wakes operation id) :=
  inferInstanceAs (Decidable (_ ∨ _))

/-! ### What each operation does to a task that waits -/

section Restful

variable (hp : Restful p)

include hp

/-- The turn does not pass to a task that waits. -/
theorem Queued.lasts_switchToNext (h : s.Queued ring waiting) (hint : Option TaskId)
    (preempted : Bool) : Lasts p id s (s.switchToNext hint preempted).2 := by
  have hselect : Lasts p id s (s.selectNext hint).2 := .selectNext s hint
  rcases h.switchToNext_cases hint preempted with hs | hs | ⟨next, hnext, hs⟩ <;> rw [hs]
  · exact hselect
  · exact hselect.trans (.of_tasks rfl rfl fun _ => rfl)
  · exact hselect.trans (.enter hp _ s.current hnext)

theorem Coherent.lasts_suspended (h : s.Coherent) {j : TaskId} (hj : s.working? = some j)
    (reason : BlockReason) (hint : Option TaskId) :
    Lasts p id s ((s.suspended j reason).switchToNext hint false).2 := by
  obtain ⟨a, b, hab⟩ := h.ready_of_working? hj
  obtain ⟨waiting', hmem, hq, -⟩ := h.queued.suspend hab reason
  have hq : (s.suspended j reason).Queued (a ++ b) waiting' := hq
  have hsuspended : Lasts p id s (s.suspended j reason) := by
    refine ⟨by cases reason <;> rfl, fun _ hd => ?_⟩
    refine ⟨⟨waiting', hq.blocked, (hmem id).2 (.inr hd.mem_blocked)⟩, ?_⟩
    rw [task?_suspended, if_neg (h.ne_of_dormant hd hj)]
    exact hd.asleep
  exact hsuspended.trans (hq.lasts_switchToNext hp hint false)

theorem Coherent.lasts_block (h : s.Coherent) (reason : BlockReason) :
    Lasts p id s (s.block reason).2 := by
  cases hworking : s.working? with
  | none =>
    rw [block_eq_of_none hworking]
    exact .refl p id s
  | some j =>
    rw [h.block_eq hworking]
    exact h.lasts_suspended hp hworking reason _

theorem Coherent.lasts_reschedule (h : s.Coherent) : Lasts p id s s.reschedule.2 := by
  rw [Scheduler.reschedule]
  split
  · exact .refl p id s
  · exact h.queued.lasts_switchToNext hp none false

theorem Coherent.lasts_start (h : s.Coherent) : Lasts p id s s.start.2 := by
  have hstart : Lasts p id s { s with started := true } := .of_tasks rfl rfl fun _ => rfl
  have hq : ({ s with started := true } : Scheduler).Queued s.ready.toList s.blocked.toList :=
    h.queued.congr rfl rfl rfl rfl rfl
  exact hstart.trans (hq.lasts_switchToNext hp none false)

theorem Coherent.lasts_receive (h : s.Coherent) (filter : Option Filter) :
    Lasts p id s (s.receive filter).2 := by
  rcases h.receive_cases filter with hs | ⟨j, t, mailbox, hworking, -, hs⟩
  · rw [hs]
    exact .refl p id s
  have hmail : Lasts p id s (s.withMailbox j mailbox) := by
    refine ⟨rfl, fun hwait hd => ?_⟩
    have hne := h.ne_of_dormant hd hworking
    exact (Lasts.withMailbox s j mailbox fun e => absurd e.symm hne).dormant hwait hd
  rcases hs with hs | ⟨-, hs⟩ <;> rw [hs]
  · exact hmail
  · exact hmail.trans ((h.withMailbox j mailbox).lasts_suspended hp hworking _ _)

theorem Coherent.lasts_exit (h : s.Coherent)
    (hwake : s.cleanup = some id → s.exit.1.isOk = false) : Lasts p id s s.exit.2 := by
  rcases h.exit (Prod.eta s.exit).symm with
    ⟨-, hs⟩ | ⟨j, t, switch, hok, hj, hcleanup, ht, -⟩
  · rw [hs]
    exact .refl p id s
  · have hne : s.cleanup ≠ some id := by
      intro hid
      have hfails := hwake hid
      rw [hok] at hfails
      cases hfails
    obtain ⟨a, b, hab⟩ := h.ready_of_working? hj
    obtain ⟨ring, waiting, hq, -⟩ := (h.queued.retired hab hcleanup t).wakeCleanup
    have hretired : Lasts p id s (s.retired j t) := by
      refine .of_tasks rfl rfl fun hd => ?_
      rw [task?_retired, if_neg (h.ne_of_dormant hd hj)]
    rw [h.exit_eq hj hcleanup ht]
    exact (hretired.trans (.wakeCleanup _ hne)).trans (hq.lasts_switchToNext hp _ false)

/-- A tick scans the blocked tasks at the new clock, then passes the turn on. -/
theorem Coherent.lasts_tick (h : s.Coherent) (hstarted : s.started = true) :
    Lasts p id s.advanced (s.step .tick).2 := by
  have hscan : Lasts p id s.advanced s.ticked := .unblockWakeable s.advanced
  have hq := h.queued.advanced.unblockWakeable.1
  show Lasts p id s.advanced s.tick.2
  rw [tick_of_started hstarted]
  exact hscan.trans (hq.lasts_switchToNext hp none true)

/-- Nothing but a wake, mail or an unblock ends a wait before its time, and nothing but a tick moves
the clock. -/
theorem Coherent.lasts_step (h : s.Coherent) {operation : Operation}
    (hwake : ¬ s.Wakes operation id) (htick : operation ≠ .tick)
    (hmail : ∀ message, operation = .deliver id message → ∀ t mailbox, p t →
      t.state ≠ .blocked ∧ p { t with mailbox := mailbox })
    (hunblock : operation = .unblock id → ∀ t, p t →
      t.state = .sleeping ∧ s.elapsed < t.wakeTime) : Lasts p id s (s.step operation).2 := by
  cases operation with
  | installIdle task => exact .installIdle s task
  | installCleanup task => exact .installCleanup s task
  | schedule task => exact .schedule s task
  | start => exact h.lasts_start hp
  | reschedule => exact h.lasts_reschedule hp
  | block reason => exact h.lasts_block hp reason
  | unblock j => exact .unblock s j fun e => hunblock (by rw [e])
  | wake j => exact .wake s fun e => hwake (.inl (by rw [e]))
  | unblockWakeable => exact .unblockWakeable s
  | tick => exact absurd rfl htick
  | findNext => exact .selectNext s none
  | runNext => exact h.queued.lasts_switchToNext hp none false
  | deliver recipient message =>
    exact .deliver s recipient message fun e => hmail message (by rw [e])
  | receive filter => exact h.lasts_receive hp filter
  | exit =>
    refine h.lasts_exit hp fun hcleanup => ?_
    rw [← Bool.not_eq_true]
    exact fun hok => hwake (.inr ⟨rfl, hcleanup, hok⟩)
  | reap => exact .of_tasks rfl rfl fun _ => rfl
  | changePriority j priority => exact .changePriority hp s j priority

end Restful

theorem step_tick_of_stopped (h : s.started = false) : (s.step .tick).2 = s := by
  show s.tick.2 = s
  rw [tick_of_stopped h]

end Microkernel.Scheduler
