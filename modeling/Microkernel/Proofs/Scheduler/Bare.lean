/-
Scheduling does not look at the memory of tasks.

`t.bare` is a task without its memory: its kernel stack, its address space and what it has mapped
there. `s.bare` is a scheduler whose tasks are bare.

* **`bares_schedule`**, **`bares_block`**, **`bares_exit`** and so on: what is asked of a bare
  scheduler has the answer that the scheduler itself gives, and leaves that scheduler bare;
* **`Bares.same`**: so schedulers that differ in the memory of their tasks only answer the same, and
  still differ in that only;
* **`prepare_bare`**: whether a switch can be resolved does not depend on memory either, but the
  stack pointers it is resolved to do.
-/
import Microkernel.Proofs.Scheduler.Operations

namespace Microkernel

theorem Table.map_modify {α : Type} {g f : α → α} (h : ∀ a, g (f a) = f (g a)) (t : Table α)
    (k : Nat) : (t.modify k f).map (fun _ => g) = (t.map fun _ => g).modify k f := by
  refine ext_get? fun j => ?_
  rw [get?_map, get?_modify, get?_modify, get?_map]
  split
  · rw [Option.map_map, Option.map_map]
    exact congrArg (fun f => (t.get? j).map f) (funext h)
  · rfl

/-- The task without its memory. -/
def Task.bare (t : Task) : Task :=
  { t with
    stackPointer := .saved 0
    space := 0
    heap := .kernel
    user := none
    stack := ⟨0, 0, []⟩ }

theorem Task.mailbox_bare (t : Task) : t.bare.mailbox = t.mailbox := rfl

namespace Scheduler

/-- The scheduler with tasks that have no memory. -/
def bare (s : Scheduler) : Scheduler :=
  { s with
    tasks := s.tasks.map fun _ => Task.bare
    exited := s.exited.map Task.bare
    bootPointer := .saved 0 }

/-- What `f` asks of a scheduler has nothing to do with the memory of tasks: `g`, asked of the bare
scheduler, answers the same and leaves a bare scheduler. -/
def Bares {α : Type} (f g : Scheduler → α × Scheduler) : Prop :=
  ∀ s : Scheduler, g s.bare = ((f s).1, (f s).2.bare)

/-- Schedulers that differ in the memory of their tasks only cannot be told apart. -/
theorem Bares.same {α : Type} {f f' g : Scheduler → α × Scheduler} (hf : Bares f g)
    (hf' : Bares f' g) {s s' : Scheduler} (h : s'.bare = s.bare) :
    (f' s').1 = (f s).1 ∧ (f' s').2.bare = (f s).2.bare := by
  have hsame := hf' s'
  rw [h, hf s] at hsame
  exact Prod.mk.inj hsame.symm

variable (s : Scheduler)

/-! ### Looking at tasks -/

@[simp] theorem core_bare : s.bare.core = s.core := rfl

@[simp] theorem started_bare : s.bare.started = s.started := rfl

@[simp] theorem ready_bare : s.bare.ready = s.ready := rfl

@[simp] theorem blocked_bare : s.bare.blocked = s.blocked := rfl

@[simp] theorem current_bare : s.bare.current = s.current := rfl

@[simp] theorem idle_bare : s.bare.idle = s.idle := rfl

@[simp] theorem cleanup_bare : s.bare.cleanup = s.cleanup := rfl

@[simp] theorem working?_bare : s.bare.working? = s.working? := rfl

theorem task?_bare (id : TaskId) : s.bare.task? id = (s.task? id).map Task.bare :=
  Table.get?_map _ s.tasks id

theorem contains_bare (id : TaskId) : s.bare.contains id = s.contains id := by
  have htask : (s.bare.task? id).isSome = (s.task? id).isSome := by
    rw [task?_bare, Option.isSome_map]
  exact htask

theorem isWakeable_bare : s.bare.isWakeable = s.isWakeable := by
  funext id
  rw [isWakeable, task?_bare, Option.any_map]
  rfl

theorem sleepsBeyond_bare (wakeTime : Nat) :
    s.bare.sleepsBeyond wakeTime = s.sleepsBeyond wakeTime := by
  funext id
  rw [sleepsBeyond, task?_bare, Option.any_map]
  rfl

theorem modifyTask_bare (id : TaskId) {f : Task → Task} (hf : ∀ t, (f t).bare = f t.bare) :
    s.bare.modifyTask id f = (s.modifyTask id f).bare := by
  have htasks := Table.map_modify hf s.tasks id
  simp only [bare, modifyTask, htasks]

/-! ### Choosing the next task -/

theorem makeReady_bare (id : TaskId) : s.bare.makeReady id = (s.makeReady id).bare := by
  have hmodified := s.modifyTask_bare id
    (f := fun t => { t with state := .ready, waitSince := none }) fun _ => rfl
  rw [makeReady, hmodified]
  rfl

theorem makeReadyAll_bare (ids : List TaskId) :
    ids.foldl makeReady s.bare = (ids.foldl makeReady s).bare := by
  induction ids generalizing s with
  | nil => rfl
  | cons id ids ih => rw [List.foldl_cons, makeReady_bare, ih, List.foldl_cons]

theorem unblockWakeable_bare :
    s.bare.unblockWakeable = (s.unblockWakeable.1, s.unblockWakeable.2.bare) := by
  rw [unblockWakeable, isWakeable_bare, makeReadyAll_bare]
  rfl

theorem selectNext_bare (hint : Option TaskId) :
    s.bare.selectNext hint = ((s.selectNext hint).1, (s.selectNext hint).2.bare) := by
  rw [selectNext, selectNext, unblockWakeable_bare, ready_bare, current_bare]
  split
  · rfl
  · split
    · rfl
    · split <;> rfl

theorem enter_bare (previous : Option TaskId) (next : TaskId) :
    s.bare.enter previous next = (s.enter previous next).bare := by
  have hpause : ∀ t, (pause t).bare = pause t.bare := by
    intro t
    have hstate : t.bare.state = t.state := rfl
    rw [pause, pause, hstate]
    split <;> rfl
  have hentered : ∀ paused : Scheduler, (paused.bare.modifyTask next fun t =>
      { t with state := .running, lastCore := some s.core }) = (paused.modifyTask next fun t =>
        { t with state := .running, lastCore := some s.core }).bare :=
    fun paused => paused.modifyTask_bare next fun _ => rfl
  cases previous with
  | none =>
    have hrunning := hentered s
    simp only [enter, core_bare, hrunning]
    rfl
  | some id =>
    have hrunning := hentered (s.modifyTask id pause)
    simp only [enter, core_bare, modifyTask_bare s id hpause, hrunning]
    rfl

theorem switchToNext_bare (hint : Option TaskId) (preempted : Bool) :
    s.bare.switchToNext hint preempted =
      ((s.switchToNext hint preempted).1, (s.switchToNext hint preempted).2.bare) := by
  rw [switchToNext, switchToNext, selectNext_bare, current_bare]
  rcases s.selectNext hint with ⟨choice, chosen⟩
  dsimp only
  rw [idle_bare]
  cases choice.or chosen.idle with
  | none =>
    by_cases hqueued : s.current.any chosen.ready.contains = true
    · rw [if_pos hqueued]
      exact if_pos hqueued
    · rw [if_neg hqueued]
      exact if_neg hqueued
  | some next =>
    dsimp only
    split
    · rfl
    · rw [enter_bare]

/-! ### Taking in tasks -/

theorem bares_installIdle (task : Task) :
    Bares (·.installIdle task) (·.installIdle task.bare) := by
  intro s
  dsimp only
  have hid : task.bare.id = task.id := rfl
  rw [installIdle, installIdle, hid, contains_bare, idle_bare]
  split
  · rfl
  · simp only [bare, Table.map_insert]
    rfl

theorem bares_schedule (task : Task) : Bares (·.schedule task) (·.schedule task.bare) := by
  intro s
  dsimp only
  have hid : task.bare.id = task.id := rfl
  rw [schedule, schedule, hid, contains_bare]
  split
  · rfl
  · simp only [bare, Table.map_insert]
    rfl

theorem bares_installCleanup (task : Task) :
    Bares (·.installCleanup task) (·.installCleanup task.bare) := by
  intro s
  dsimp only
  have hscheduled := bares_schedule task s
  dsimp only at hscheduled
  rw [installCleanup, installCleanup, hscheduled]
  rcases s.schedule task with ⟨_ | _, _⟩ <;> rfl

/-! ### Dispatching -/

theorem bares_start : Bares start start := fun s =>
  switchToNext_bare { s with started := true } none false

theorem bares_reschedule : Bares reschedule reschedule := by
  intro s
  rw [reschedule, reschedule, started_bare, working?_bare, switchToNext_bare]
  split <;> rfl

theorem bares_tick : Bares tick tick := by
  intro s
  have hdue := ({ s with elapsed := s.elapsed + s.timeslice } : Scheduler).unblockWakeable_bare
  rw [tick, tick, started_bare]
  split
  · refine Eq.trans ?_ (switchToNext_bare _ none true)
    exact congrArg (fun due : Nat × Scheduler => due.2.switchToNext none true) hdue
  · rfl

/-! ### Blocking and waking -/

theorem suspend_bare (id : TaskId) (reason : BlockReason) :
    s.bare.suspend id reason = (s.suspend id reason).bare := by
  cases reason with
  | sleep milliseconds =>
    have hasleep := s.modifyTask_bare id
      (f := fun t => { t with state := .sleeping, wakeTime := s.wakeTimeOf milliseconds })
        fun _ => rfl
    simp only [suspend, show s.bare.wakeTimeOf = s.wakeTimeOf from rfl, sleepsBeyond_bare, hasleep]
    rfl
  | mail since =>
    have hwaiting := s.modifyTask_bare id
      (f := fun t => { t with state := .blocked, waitSince := since }) fun _ => rfl
    simp only [suspend, hwaiting]
    rfl

theorem bares_block (reason : BlockReason) : Bares (·.block reason) (·.block reason) := by
  intro s
  dsimp only
  rw [block, block, working?_bare]
  split
  · rfl
  · rename_i id _
    have hleft : ({ s.bare with ready := (s.bare.ready.remove id).2 } : Scheduler) =
        ({ s with ready := (s.ready.remove id).2 } : Scheduler).bare := rfl
    simp only [ready_bare] at hleft
    simp only [ready_bare, hleft, contains_bare, suspend_bare, switchToNext_bare]
    split
    · rfl
    · split <;> rfl

theorem bares_wake (id : TaskId) : Bares (·.wake id) (·.wake id) := by
  intro s
  dsimp only
  rw [wake, wake, blocked_bare, makeReady_bare]
  split <;> rfl

/-! ### Messages -/

theorem bares_deliver (recipient : TaskId) (message : Message) :
    Bares (·.deliver recipient message) (·.deliver recipient message) := by
  intro s
  dsimp only
  rw [deliver, deliver, blocked_bare, ready_bare, task?_bare]
  split
  · rfl
  · cases s.task? recipient with
    | none => rfl
    | some task =>
      dsimp only [Option.map_some]
      rw [Task.mailbox_bare]
      cases task.mailbox.send message with
      | error e => rfl
      | ok mailbox =>
        have hgiven := s.modifyTask_bare recipient (f := fun t => { t with mailbox := mailbox })
          fun _ => rfl
        dsimp only
        rw [hgiven, makeReady_bare]
        -- whether the task is woken is the same question, asked of the same fields
        by_cases hwakes : task.state = .blocked ∧
          ({ task with mailbox := mailbox } : Task).isWakeable
            (s.modifyTask recipient fun t => { t with mailbox := mailbox }).elapsed = true
        · refine (if_pos hwakes).trans ?_
          rw [if_pos hwakes]
        · refine (if_neg hwakes).trans ?_
          rw [if_neg hwakes]

theorem bares_receive (filter : Option Filter) : Bares (·.receive filter) (·.receive filter) := by
  intro s
  dsimp only
  rw [receive, receive, working?_bare]
  cases s.working? with
  | none => rfl
  | some id =>
    dsimp only
    rw [task?_bare]
    cases s.task? id with
    | none => rfl
    | some task =>
      dsimp only [Option.map_some]
      rw [Task.mailbox_bare]
      rcases takeMessage task.mailbox filter with ⟨result, mailbox⟩
      have htaken := s.modifyTask_bare id (f := fun t => { t with mailbox := mailbox })
        fun _ => rfl
      dsimp only
      rw [htaken]
      rcases result with e | _ | message
      · rfl
      · dsimp only
        have hblocked := bares_block (.mail (filter.map fun _ => mailbox.sends))
          (s.modifyTask id fun t => { t with mailbox := mailbox })
        dsimp only at hblocked
        rw [hblocked]
        rcases (s.modifyTask id fun t => { t with mailbox := mailbox }).block
          (.mail (filter.map fun _ => mailbox.sends)) with ⟨_ | _, _⟩ <;> rfl
      · rfl

/-! ### The end of tasks -/

theorem wakeCleanup_bare : s.bare.wakeCleanup = s.wakeCleanup.bare := by
  rw [wakeCleanup, wakeCleanup, cleanup_bare]
  cases s.cleanup with
  | none => rfl
  | some id => exact congrArg Prod.snd (bares_wake id s)

theorem retired_bare (id : TaskId) (task : Task) :
    s.bare.retired id task.bare = (s.retired id task).bare := by
  simp only [retired, bare, Table.map_erase, List.map_append]
  rfl

theorem bares_exit : Bares exit exit := by
  intro s
  have hwho : (s.bare.working?.filter fun id => decide (s.bare.cleanup ≠ some id)) =
      s.working?.filter fun id => decide (s.cleanup ≠ some id) := rfl
  rw [exit, exit, hwho]
  cases s.working?.filter fun id => decide (s.cleanup ≠ some id) with
  | none => rfl
  | some id =>
    have hleft : ∀ (s : Scheduler) ready, ({ s with ready := ready } : Scheduler).task? id =
        s.task? id := fun _ _ => rfl
    have htask := s.task?_bare id
    cases hqueued : s.ready.contains id with
    | false =>
      simp only [ready_bare, hqueued]
      rfl
    | true =>
      cases ht : s.task? id with
      | none =>
        simp only [ready_bare, hqueued, hleft, htask, ht]
        rfl
      | some task =>
        have hnext := (s.retired id task).wakeCleanup.switchToNext_bare (s.ready.next id) false
        rw [← wakeCleanup_bare, ← retired_bare] at hnext
        simp only [ready_bare, hqueued, hleft, htask, ht]
        exact congrArg (fun after : Option Switch × Scheduler =>
          ((.ok ⟨id, after.1⟩ : Except Error Exit), after.2)) hnext

theorem reap_bare : s.bare.reap = (s.reap.1.map Task.bare, s.reap.2.bare) := rfl

theorem bares_changePriority (id : TaskId) (priority : Priority) :
    Bares (·.changePriority id priority) (·.changePriority id priority) := by
  intro s
  dsimp only
  rw [changePriority, changePriority, task?_bare]
  cases s.task? id with
  | none => rfl
  | some task =>
    have hchanged := s.modifyTask_bare id (f := fun t => { t with priority := priority })
      fun _ => rfl
    dsimp only [Option.map_some]
    rw [hchanged]
    rfl

/-! ### Carrying out a switch -/

theorem leavingTask?_bare (id : TaskId) :
    s.bare.leavingTask? id = (s.leavingTask? id).map Task.bare := by
  have hexited : s.bare.exited.reverse.find? (fun t => decide (t.id = id)) =
      (s.exited.reverse.find? fun t => decide (t.id = id)).map Task.bare := by
    rw [show s.bare.exited = s.exited.map Task.bare from rfl, ← List.map_reverse, List.find?_map]
    rfl
  rw [leavingTask?, leavingTask?, task?_bare, hexited, Option.map_or]

theorem prepare_bare (switch : Switch) :
    (s.bare.prepare switch).map PreparedSwitch.preempted =
      (s.prepare switch).map PreparedSwitch.preempted := by
  rw [prepare, prepare, task?_bare]
  cases s.task? switch.entering with
  | none => rfl
  | some next =>
    cases switch.leaving with
    | none => rfl
    | some id =>
      dsimp only [Option.map_some]
      rw [leavingTask?_bare]
      cases s.leavingTask? id <;> rfl

end Scheduler

end Microkernel
