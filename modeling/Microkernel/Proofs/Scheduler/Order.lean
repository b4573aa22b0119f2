/-
A scheduler is in order.

`s.InOrder` says how the parts of a scheduler fit together: every live task is in the ready ring,
in the blocked queue or idle, and only in one of them; its state goes with its place; and a task
that is over has given its mailbox back.

* **`Settled.step`**: every operation keeps a scheduler in order, whatever it answers;
* **`run_inOrder`**: so a scheduler is in order after any operations. A mark of when a wait began is
  on blocked tasks only, and on tasks that were handed over with this mark;
* **`schedule_out_of_order`**: a task that is handed over keeps such a mark, although it is ready;
  and the ready ring has no place for the largest machine word.

Design notes: nothing is assumed of the tasks that a scheduler is given. In particular their
mailboxes may hold anything, and a receive may find it. Ids have no bound here; what becomes of the
largest machine word is left to the checked operations of a queue.
-/
import Microkernel.Proofs.Scheduler.Rules
import Microkernel.Proofs.TaskQueue.Sequence
import Microkernel.Scheduler.Operation

namespace Microkernel.Scheduler

variable {s s' : Scheduler}

/-- The task that an operation hands to the scheduler. -/
def Operation.task? : Operation → Option Task
  | installIdle task | installCleanup task | schedule task => some task
  | start | reschedule | block _ | unblock _ | wake _ | unblockWakeable | tick | findNext | runNext
  | deliver _ _ | receive _ | exit | reap | changePriority _ _ => none

/-! ### The queues and the current task -/

theorem Coherent.unblockWakeable (h : s.Coherent) : s.unblockWakeable.2.Coherent := by
  obtain ⟨hq, hr⟩ := h.queued.unblockWakeable
  refine hq.coherent fun id hid => ?_
  rw [current_unblockWakeable] at hid
  rw [hr.idle]
  exact (h.current id hid).imp_right (List.mem_append_left _)

theorem Coherent.unblock (h : s.Coherent) (id : TaskId) :
    (s.unblock id).2.Coherent ∧ Rearranged s (s.unblock id).2 := by
  rw [Scheduler.unblock]
  split
  · exact ⟨h, Rearranged.refl s⟩
  · rename_i hid
    have hblocked : s.blocked.contains id = true := by
      revert hid
      cases s.blocked.contains id <;> simp
    exact h.makeReady (.inr ((h.queued.blocked.contains_iff id).1 hblocked))

theorem Coherent.findNext (h : s.Coherent) :
    s.findNext.2.Coherent ∧ Rearranged s s.findNext.2 := by
  rw [Scheduler.findNext, selectNext]
  split
  · exact ⟨h.unblockWakeable, h.queued.unblockWakeable.2⟩
  · split
    · exact ⟨h, Rearranged.refl s⟩
    · split <;> exact ⟨h, Rearranged.refl s⟩

theorem Coherent.runNext (h : s.Coherent) :
    s.runNext.2.Coherent ∧ Rearranged s s.runNext.2 := by
  obtain ⟨hco, -, hr⟩ := h.queued.turn h.leavingTask? (Prod.eta s.runNext).symm
  exact ⟨hco, hr⟩

/-- Whatever is in the mailbox, asking for a message leaves the scheduler coherent. -/
theorem Coherent.receive_any (h : s.Coherent) (filter : Option Filter) :
    (s.receive filter).2.Coherent ∧ (s.receive filter).2.exited = s.exited := by
  obtain ⟨hco, hs | ⟨id, t, -, -, hr⟩⟩ := h.receive_rearranged filter
  · exact ⟨hco, by rw [hs]⟩
  · exact ⟨hco, hr.exited⟩

/-- What is over after an operation: what was over before, and the current task if it ended. -/
def Ends (s s' : Scheduler) : Prop :=
  ∀ t ∈ s'.exited, t ∈ s.exited ∨ ∃ id u, s.working? = some id ∧ s.task? id = some u ∧
    t = { u with state := .exited, mailbox := u.mailbox.release }

theorem Ends.of_eq (h : s'.exited = s.exited) : Ends s s' :=
  fun _ ht => .inl (h ▸ ht)

theorem Coherent.unchanged (h : s.Coherent) (hs : s' = s) : s'.Coherent ∧ Ends s s' := by
  subst hs
  exact ⟨h, .of_eq rfl⟩

/-- Every operation leaves a coherent scheduler coherent, and only the current task can end. -/
theorem Coherent.step (h : s.Coherent) (operation : Operation) :
    (s.step operation).2.Coherent ∧ Ends s (s.step operation).2 := by
  cases operation with
  | installIdle task =>
    rcases h.installIdle (Prod.eta (s.installIdle task)).symm with
      ⟨-, -, hs⟩ | ⟨-, -, hco, hj, -⟩
    · exact h.unchanged hs
    · exact ⟨hco, .of_eq hj.exited⟩
  | installCleanup task =>
    rcases h.installCleanup (Prod.eta (s.installCleanup task)).symm with
      ⟨-, -, hs⟩ | ⟨-, -, hco, hj, -⟩
    · exact h.unchanged hs
    · exact ⟨hco, .of_eq hj.exited⟩
  | schedule task =>
    rcases h.schedule (Prod.eta (s.schedule task)).symm with ⟨-, -, hs⟩ | ⟨-, -, hco, hj, -⟩
    · exact h.unchanged hs
    · exact ⟨hco, .of_eq hj.exited⟩
  | start =>
    obtain ⟨hco, -, hr⟩ := h.start (Prod.eta s.start).symm
    exact ⟨hco, .of_eq hr.exited⟩
  | reschedule =>
    obtain ⟨hco, -, hr⟩ := h.reschedule (Prod.eta s.reschedule).symm
    exact ⟨hco, .of_eq hr.exited⟩
  | block reason =>
    rcases h.block (Prod.eta (s.block reason)).symm with ⟨-, -, hs⟩ | ⟨-, -, hco, -, hr⟩
    · exact h.unchanged hs
    · exact ⟨hco, .of_eq hr.exited⟩
  | unblock id =>
    obtain ⟨hco, hr⟩ := h.unblock id
    exact ⟨hco, .of_eq hr.exited⟩
  | wake id =>
    obtain ⟨hco, hr⟩ := h.wake id
    exact ⟨hco, .of_eq hr.exited⟩
  | unblockWakeable => exact ⟨h.unblockWakeable, .of_eq h.queued.unblockWakeable.2.exited⟩
  | tick =>
    obtain ⟨hco, -, hr⟩ := h.tick (Prod.eta s.tick).symm
    exact ⟨hco, .of_eq hr.exited⟩
  | findNext =>
    obtain ⟨hco, hr⟩ := h.findNext
    exact ⟨hco, .of_eq hr.exited⟩
  | runNext =>
    obtain ⟨hco, hr⟩ := h.runNext
    exact ⟨hco, .of_eq hr.exited⟩
  | deliver recipient message =>
    rcases h.deliver (Prod.eta (s.deliver recipient message)).symm with
      ⟨-, hs, -⟩ | ⟨t, -, -, ⟨e, -, hs, -⟩ | ⟨woken, mailbox, -, -, hco, hr, -⟩⟩
    · exact h.unchanged hs
    · exact h.unchanged hs
    · exact ⟨hco, .of_eq hr.exited⟩
  | receive filter =>
    obtain ⟨hco, hexited⟩ := h.receive_any filter
    exact ⟨hco, .of_eq hexited⟩
  | exit =>
    rcases h.exit (Prod.eta s.exit).symm with
      ⟨-, hs⟩ | ⟨id, t, switch, -, hid, -, ht, hco, -, hr⟩
    · exact h.unchanged hs
    · refine ⟨hco, fun u hu => ?_⟩
      rw [show (s.step .exit).2.exited = _ from hr.exited] at hu
      rcases List.mem_append.1 hu with hold | hnew
      · exact .inl hold
      · exact .inr ⟨id, t, hid, ht, List.mem_singleton.1 hnew⟩
  | reap => exact ⟨h.reap, fun t ht => by cases ht⟩
  | changePriority id priority =>
    obtain ⟨-, hco, hr, -⟩ := h.changePriority (Prod.eta (s.changePriority id priority)).symm
    exact ⟨hco, .of_eq hr.exited⟩

theorem Coherent.run (h : s.Coherent) (operations : List Operation) :
    (s.run operations).Coherent := by
  induction operations generalizing s with
  | nil => exact h
  | cons operation rest ih => exact ih (h.step operation).1

theorem coherent_run (core : CoreId) (timeslice : Nat) (operations : List Operation) :
    ((new core timeslice).run operations).Coherent :=
  (coherent_new core timeslice).run operations

/-! ### States that go with places -/

/-- The task has no mark of when a wait began, or one that it has brought. -/
def Unmarked (brought : TaskId → Option Nat → Prop) (t : Task) : Prop :=
  t.waitSince = none ∨ brought t.id t.waitSince

/-- The state of a task goes with its place. A mark of when a wait began is found on tasks that wait
for mail, and on those that have brought it. -/
def stateRule (brought : TaskId → Option Nat → Prop) : Rule := fun waits _ t =>
  if waits then t.state = .blocked ∨ t.state = .sleeping ∧ Unmarked brought t
  else (t.state = .ready ∨ t.state = .running) ∧ Unmarked brought t

theorem lawful_stateRule (brought : TaskId → Option Nat → Prop) : (stateRule brought).Lawful where
  readied waits id t _ := ⟨.inl rfl, .inl rfl⟩
  entered id t core h := ⟨.inr rfl, h.2⟩
  paused waits id t h := by
    rw [pause]
    split
    · rename_i hrunning
      cases waits with
      | false => exact ⟨.inl rfl, h.2⟩
      | true =>
        -- a task that is blocked does not run
        rcases h with hblocked | ⟨hsleeping, -⟩
        · rw [hblocked] at hrunning
          cases hrunning
        · rw [hsleeping] at hrunning
          cases hrunning
    · exact h
  slept id t wakeTime h := .inr ⟨rfl, h.2⟩
  prioritized waits id t priority h := h

/-- What every operation keeps: the tasks obey the rule of states, and those that are over have
given their mailboxes back. -/
structure Settled (brought : TaskId → Option Nat → Prop) (s : Scheduler) : Prop where
  coherent : s.Coherent
  obeys : s.Obeys (stateRule brought)
  exited : ∀ t ∈ s.exited, t.state = .exited ∧ t.mailbox.isReleased = true ∧ Unmarked brought t

variable {brought : TaskId → Option Nat → Prop}

theorem settled_new (core : CoreId) (timeslice : Nat) : (new core timeslice).Settled brought where
  coherent := coherent_new core timeslice
  obeys := obeys_new core timeslice
  exited t h := by cases h

/-- A new mailbox leaves a task where it is, in the state that it is in. -/
theorem stateRule_withMailbox {waits : Bool} {id : TaskId} {t : Task} (mailbox : Mailbox)
    (h : stateRule brought waits id t) :
    stateRule brought waits id { t with mailbox := mailbox } := h

theorem Settled.obeys_step (h : s.Settled brought) (operation : Operation)
    (hnew : ∀ task, operation.task? = some task → brought task.id task.waitSince) :
    (s.step operation).2.Obeys (stateRule brought) := by
  have hl := lawful_stateRule brought
  have hq := h.coherent.queued.blocked
  have hentered : ∀ task, operation.task? = some task →
      stateRule brought false task.id { task with state := .ready, lastCore := some s.core } :=
    fun task htask => ⟨.inl rfl, .inr (hnew task htask)⟩
  have hactive : ∀ id t, s.working? = some id → s.task? id = some t →
      stateRule brought false id t := by
    intro id t hworking ht
    have hobeys := h.obeys id t ht
    rwa [h.coherent.not_blocked_of_working? hworking] at hobeys
  cases operation with
  | installIdle task => exact h.obeys.installIdle h.coherent (hentered task rfl)
  | installCleanup task => exact h.obeys.installCleanup h.coherent (hentered task rfl)
  | schedule task => exact h.obeys.schedule h.coherent (hentered task rfl)
  | start => exact h.obeys.start hl h.coherent
  | reschedule => exact h.obeys.reschedule hl h.coherent
  | block reason =>
    cases reason with
    | sleep milliseconds => exact h.obeys.sleep hl h.coherent milliseconds
    | mail since => exact h.obeys.block hl h.coherent fun id t _ _ => .inl rfl
  | unblock id => exact h.obeys.unblock hl hq id
  | wake id => exact h.obeys.wake hl hq id
  | unblockWakeable => exact h.obeys.unblockWakeable hl hq
  | tick => exact h.obeys.tick hl h.coherent
  | findNext => exact h.obeys.selectNext hl hq none
  | runNext => exact h.obeys.switchToNext hl h.coherent.queued none false
  | deliver recipient message =>
    exact h.obeys.deliver h.coherent (fun t mailbox _ _ _ _ => ⟨.inl rfl, .inl rfl⟩)
      fun t mailbox ht _ _ => stateRule_withMailbox mailbox (h.obeys recipient t ht)
  | receive filter =>
    refine h.obeys.receive hl h.coherent fun id t hworking ht => ?_
    split
    · exact .inl rfl
    · exact stateRule_withMailbox _ (hactive id t hworking ht)
  | exit => exact h.obeys.exit hl h.coherent
  | reap => exact h.obeys
  | changePriority id priority => exact h.obeys.changePriority hl id priority

theorem Settled.step (h : s.Settled brought) (operation : Operation)
    (hnew : ∀ task, operation.task? = some task → brought task.id task.waitSince) :
    (s.step operation).2.Settled brought := by
  obtain ⟨hco, hends⟩ := h.coherent.step operation
  refine ⟨hco, h.obeys_step operation hnew, fun t ht => ?_⟩
  rcases hends t ht with hold | ⟨id, u, hworking, hu, rfl⟩
  · exact h.exited t hold
  · -- the task that ends was current, so it did not wait
    have hobeys := h.obeys id u hu
    rw [h.coherent.not_blocked_of_working? hworking] at hobeys
    exact ⟨rfl, rfl, hobeys.2⟩

theorem Settled.run (h : s.Settled brought) {operations : List Operation}
    (hnew : ∀ operation ∈ operations, ∀ task, operation.task? = some task →
      brought task.id task.waitSince) : (s.run operations).Settled brought := by
  induction operations generalizing s with
  | nil => exact h
  | cons operation rest ih =>
    have hstep := h.step operation (hnew operation List.mem_cons_self)
    exact ih hstep fun later hlater => hnew later (List.mem_cons_of_mem _ hlater)

/-! ### Schedulers in order -/

/-- The parts of a scheduler fit together. -/
structure InOrder (s : Scheduler) : Prop where
  /-- Both queues can be walked from either end, and know what they hold. -/
  ready : s.ready.Spells s.ready.toList
  blocked : s.blocked.Spells s.blocked.toList
  /-- Every live task is in one of the queues or idle, ... -/
  keys : s.tasks.keys.Perm (s.ready.toList ++ s.blocked.toList ++ s.idle.toList)
  /-- ... and only once. -/
  nodup : (s.ready.toList ++ s.blocked.toList ++ s.idle.toList).Nodup
  readyState : ∀ id ∈ s.ready.toList, ∃ t, s.task? id = some t ∧
    (t.state = .ready ∨ t.state = .running)
  blockedState : ∀ id ∈ s.blocked.toList, ∃ t, s.task? id = some t ∧
    (t.state = .sleeping ∨ t.state = .blocked)
  current : ∀ id, s.current = some id → s.idle = some id ∨ id ∈ s.ready.toList
  cleanup : ∀ id, s.cleanup = some id → id ∈ s.ready.toList ∨ id ∈ s.blocked.toList
  exited : ∀ t ∈ s.exited, t.state = .exited ∧ t.mailbox.isReleased = true

/-- A task of the scheduler, over or not, has a mark of when its wait began. -/
def Marks (s : Scheduler) (t : Task) : Prop :=
  (t ∈ s.exited ∨ ∃ id, s.task? id = some t) ∧ t.waitSince ≠ none

theorem Coherent.nodup (h : s.Coherent) :
    (s.ready.toList ++ s.blocked.toList ++ s.idle.toList).Nodup := by
  have hq := h.queued
  rw [List.nodup_append, List.nodup_append]
  refine ⟨⟨hq.ready.nodup, hq.blocked.nodup, ?_⟩, ?_, ?_⟩
  · rintro id hr j hb rfl
    exact hq.apart id hr hb
  · cases s.idle <;> simp
  · rintro id hin j hidle rfl
    obtain ⟨hr, hb⟩ := hq.idle id (Option.mem_toList.1 hidle)
    exact (List.mem_append.1 hin).elim hr hb

theorem Coherent.keys (h : s.Coherent) :
    s.tasks.keys.Perm (s.ready.toList ++ s.blocked.toList ++ s.idle.toList) := by
  refine (List.perm_ext_iff_of_nodup s.tasks.nodup_keys h.nodup).2 fun id => ?_
  have hlive : id ∈ s.tasks.keys ↔
      id ∈ s.ready.toList ∨ id ∈ s.blocked.toList ∨ s.idle = some id :=
    Table.mem_keys.trans (h.queued.live id)
  rw [hlive, List.mem_append, List.mem_append, Option.mem_toList, or_assoc]

theorem Settled.inOrder (h : s.Settled brought) : s.InOrder where
  ready := h.coherent.queued.ready
  blocked := h.coherent.queued.blocked
  keys := h.coherent.keys
  nodup := h.coherent.nodup
  readyState id hid := by
    have hq := h.coherent.queued
    obtain ⟨t, ht⟩ := Option.isSome_iff_exists.1 (hq.contains_of_ready hid)
    have hplace : s.blocked.contains id = false := by
      rw [← Bool.not_eq_true, hq.blocked.contains_iff]
      exact hq.apart id hid
    have hobeys := h.obeys id t ht
    rw [hplace] at hobeys
    exact ⟨t, ht, hobeys.1⟩
  blockedState id hid := by
    have hq := h.coherent.queued
    obtain ⟨t, ht⟩ := Option.isSome_iff_exists.1 (hq.contains_of_blocked hid)
    have hobeys := h.obeys id t ht
    rw [(hq.blocked.contains_iff id).2 hid] at hobeys
    exact ⟨t, ht, hobeys.symm.imp_left And.left⟩
  current := h.coherent.current
  cleanup := h.coherent.queued.cleanup
  exited t ht := ⟨(h.exited t ht).1, (h.exited t ht).2.1⟩

/-- A task with a mark is blocked or has brought it. -/
theorem Settled.of_marks (h : s.Settled brought) {t : Task} (ht : s.Marks t) :
    t.state = .blocked ∨ brought t.id t.waitSince := by
  obtain ⟨hexited | ⟨id, ht⟩, hmark⟩ := ht
  · exact .inr ((h.exited t hexited).2.2.resolve_left hmark)
  · have hobeys := h.obeys id t ht
    cases hplace : s.blocked.contains id with
    | false =>
      rw [hplace] at hobeys
      exact .inr (hobeys.2.resolve_left hmark)
    | true =>
      rw [hplace] at hobeys
      exact hobeys.imp_right fun hsleeps => hsleeps.2.resolve_left hmark

/-- A scheduler is in order after any operations, and a task that is not blocked has a mark of when
a wait began only if it was handed over with this mark. So only blocked tasks have one if no task
was handed over with one. -/
theorem run_inOrder (core : CoreId) (timeslice : Nat) (operations : List Operation) :
    let s := (new core timeslice).run operations
    let handed := operations.filterMap Operation.task?
    s.InOrder ∧
      (∀ t, s.Marks t → t.state = .blocked ∨
        ∃ task ∈ handed, task.id = t.id ∧ task.waitSince = t.waitSince) ∧
      ((∀ task ∈ handed, task.waitSince = none) → ∀ t, s.Marks t → t.state = .blocked) := by
  intro s handed
  -- what a task may bring is what one of those that were handed over had
  have hsettled : s.Settled fun id mark => ∃ task ∈ handed, task.id = id ∧ task.waitSince = mark :=
    (settled_new core timeslice).run fun operation hin task htask =>
      ⟨task, List.mem_filterMap.2 ⟨operation, hin, htask⟩, rfl, rfl⟩
  refine ⟨hsettled.inOrder, fun t => hsettled.of_marks, fun hnew t hmarks => ?_⟩
  refine (hsettled.of_marks hmarks).resolve_right fun hbrought => ?_
  obtain ⟨task, hin, -, hsame⟩ := hbrought
  exact hmarks.2 (hsame.symm.trans (hnew task hin))

/-- A task that nothing is known of but its id. -/
def plainTask (id : TaskId) : Task where
  id := id
  name := "plain"
  state := .ready
  priority := .other
  wakeTime := 0
  lastCore := none
  waitSince := none
  stackPointer := .below 0
  mailbox := .new 64
  space := 0
  heap := .kernel
  user := none
  stack := ⟨0x1000, 0x1000, []⟩

/-- One task waits for some mail only, one sleeps, and the end of a third one wakes it. -/
def threeFates : List Operation :=
  [.installIdle (plainTask 1), .schedule (plainTask 3), .installCleanup (plainTask 2),
    .schedule (plainTask 4), .start, .receive (some ⟨.vfs, none⟩), .block (.sleep 25), .exit]

theorem run_inOrder_threeFates :
    (∀ task ∈ threeFates.filterMap Operation.task?, task.waitSince = none) ∧
      ((new 0 10).run threeFates).InOrder ∧
      (∀ t, ((new 0 10).run threeFates).Marks t → t.state = .blocked) ∧
      (((new 0 10).run threeFates).task? 3).map Task.waitSince = some (some 0) := by
  have hnew : ∀ task ∈ threeFates.filterMap Operation.task?, task.waitSince = none := by decide
  obtain ⟨horder, -, hmarks⟩ := run_inOrder 0 10 threeFates
  exact ⟨hnew, horder, hmarks hnew, by rfl⟩

/-- A task that is handed over with a mark is ready and has it still. A task whose id is the largest
machine word cannot be linked to the ready ring. -/
theorem schedule_out_of_order :
    (∃ t, ((new 0 10).run [.schedule { plainTask 1 with waitSince := some 0 }]).Marks t ∧
      t.state = .ready) ∧
      (new 0 10).ready.handle? (.append (plainTask 0xffffffffffffffff).id) = none :=
  ⟨⟨_, ⟨.inr ⟨1, rfl⟩, Option.some_ne_none 0⟩, rfl⟩, rfl⟩

end Microkernel.Scheduler
