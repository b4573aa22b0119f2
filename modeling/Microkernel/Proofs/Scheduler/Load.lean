/-
The score of a scheduler is the load of its tasks.

The score is kept as a running total: tasks add their weight when they join, take it along when
they end, and exchange it when their priority changes. `loadOf idle tasks` is what the total stands
for, the sum of the weights of the tasks but for the idle one.

* **`Level`**: choosing, waking and blocking tasks, and their mail, do not change the load;
* **`Coherent.weighed_step`**: every operation keeps the score equal to the load;
* **`weighed_run`**: so it is equal after any operations.

Design notes: the score is a natural number, and a weight is taken off it by truncated subtraction.
This does no harm since the weight of a live task is one of the summands.
-/
import Mathlib.Algebra.Ring.Nat
import Microkernel.Proofs.Scheduler.Order

namespace Microkernel

/-! ### Loads -/

/-- The load that tasks make, but for the one with the id `idle`. -/
def loadOf (idle : Option TaskId) (tasks : List Task) : Nat :=
  ((tasks.filter fun t => decide (idle ≠ some t.id)).map fun t => t.priority.weight).sum

/-- What the load depends on of a task. -/
def Task.rating (t : Task) : TaskId × Priority :=
  (t.id, t.priority)

section Loads

variable {idle : Option TaskId} {tasks tasks' : List Task}

theorem loadOf_cons (idle : Option TaskId) (t : Task) (tasks : List Task) :
    loadOf idle (t :: tasks) =
      (if idle = some t.id then 0 else t.priority.weight) + loadOf idle tasks := by
  by_cases ht : idle = some t.id
  · simp [loadOf, ht]
  · simp [loadOf, ht]

theorem loadOf_append (idle : Option TaskId) (tasks tasks' : List Task) :
    loadOf idle (tasks ++ tasks') = loadOf idle tasks + loadOf idle tasks' := by
  simp [loadOf]

/-- The idle task is not one of them. -/
theorem loadOf_eq_sum (h : ∀ t ∈ tasks, idle ≠ some t.id) :
    loadOf idle tasks = (tasks.map fun t => t.priority.weight).sum := by
  rw [loadOf, List.filter_eq_self.2 fun t ht => decide_eq_true (h t ht)]

theorem loadOf_perm (h : tasks.Perm tasks') : loadOf idle tasks = loadOf idle tasks' :=
  ((h.filter _).map _).sum_nat

theorem loadOf_congr (h : tasks.map Task.rating = tasks'.map Task.rating) :
    loadOf idle tasks = loadOf idle tasks' := by
  have hratings : ∀ tasks : List Task, loadOf idle tasks =
      (((tasks.map Task.rating).filter fun r => decide (idle ≠ some r.1)).map
        fun r => r.2.weight).sum := by
    intro tasks
    rw [List.filter_map, List.map_map]
    rfl
  rw [hratings, hratings, h]

end Loads

namespace Scheduler

variable {s s' : Scheduler}

/-- The score is the load of the live tasks. -/
def Weighed (s : Scheduler) : Prop :=
  s.score = loadOf s.idle s.tasks.values

/-! ### Operations that leave the load alone -/

/-- No task has come, gone or changed its priority. -/
structure Level (s s' : Scheduler) : Prop where
  ratings : ∀ id, (s'.task? id).map Task.rating = (s.task? id).map Task.rating
  idle : s'.idle = s.idle
  score : s'.score = s.score

theorem Level.weighed (h : Level s s') (hw : s.Weighed) : s'.Weighed := by
  rw [Weighed, h.score, h.idle, loadOf_congr (Table.map_values_congr h.ratings)]
  exact hw

namespace Level

theorem refl (s : Scheduler) : Level s s :=
  ⟨fun _ => rfl, rfl, rfl⟩

theorem trans {s s' s'' : Scheduler} (h : Level s s') (h' : Level s' s'') : Level s s'' :=
  ⟨fun id => (h'.ratings id).trans (h.ratings id), h'.idle.trans h.idle, h'.score.trans h.score⟩

theorem of_tasks (htasks : s'.tasks = s.tasks) (hidle : s'.idle = s.idle)
    (hscore : s'.score = s.score) : Level s s' :=
  ⟨fun id => by rw [task?, htasks]; rfl, hidle, hscore⟩

/-- One task is changed, in nothing that the load depends on. -/
theorem of_modify (id : TaskId) (f : Task → Task) (hf : ∀ t, (f t).rating = t.rating)
    (htasks : s'.tasks = s.tasks.modify id f) (hidle : s'.idle = s.idle)
    (hscore : s'.score = s.score) : Level s s' where
  ratings j := by
    rw [task?, htasks, Table.get?_modify]
    split
    · rw [Option.map_map]
      exact congrArg (Option.map · (s.task? j)) (funext hf)
    · rfl
  idle := hidle
  score := hscore

theorem makeReady (s : Scheduler) (id : TaskId) : Level s (s.makeReady id) :=
  of_modify id (fun t => { t with state := .ready, waitSince := none }) (fun _ => rfl) rfl rfl rfl

theorem unblockWakeable (s : Scheduler) : Level s s.unblockWakeable.2 := by
  have hall : ∀ (ids : List TaskId) (s : Scheduler), Level s (ids.foldl Scheduler.makeReady s) := by
    intro ids
    induction ids with
    | nil => exact refl
    | cons id ids ih => exact fun s => (makeReady s id).trans (ih (s.makeReady id))
  exact hall _ s

theorem wake (s : Scheduler) (id : TaskId) : Level s (s.wake id).2 := by
  rw [Scheduler.wake]
  split
  · exact makeReady s id
  · exact refl s

theorem wakeCleanup (s : Scheduler) : Level s s.wakeCleanup := by
  rw [Scheduler.wakeCleanup]
  split
  · exact wake s _
  · exact refl s

theorem unblock (s : Scheduler) (id : TaskId) : Level s (s.unblock id).2 := by
  rw [Scheduler.unblock]
  split
  · exact refl s
  · exact makeReady s id

theorem selectNext (s : Scheduler) (hint : Option TaskId) : Level s (s.selectNext hint).2 := by
  rw [Scheduler.selectNext]
  split
  · exact unblockWakeable s
  · split
    · exact refl s
    · split <;> exact refl s

theorem enter (s : Scheduler) (previous : Option TaskId) (next : TaskId) :
    Level s (s.enter previous next) := by
  have hpaused : ∀ t : Task, (pause t).rating = t.rating := by
    intro t
    rw [pause]
    split <;> rfl
  have hentered : ∀ s₁ : Scheduler, Level s₁ { s₁.modifyTask next fun t =>
      { t with state := .running, lastCore := some s.core } with current := some next } :=
    fun s₁ => of_modify next (fun t => { t with state := .running, lastCore := some s.core })
      (fun _ => rfl) rfl rfl rfl
  cases previous with
  | none => exact hentered s
  | some id =>
    have hmodified : Level s (s.modifyTask id pause) := of_modify id pause hpaused rfl rfl rfl
    exact hmodified.trans (hentered (s.modifyTask id pause))

theorem switchToNext (s : Scheduler) (hint : Option TaskId) (preempted : Bool) :
    Level s (s.switchToNext hint preempted).2 := by
  have hselected := selectNext s hint
  rcases s.switchToNext_cases hint preempted with hs | hs | ⟨next, -, hs⟩ <;> rw [hs]
  · exact hselected
  · exact hselected.trans (of_tasks rfl rfl rfl)
  · exact hselected.trans (enter _ s.current next)

theorem start (s : Scheduler) : Level s s.start.2 :=
  have hstarted : Level s { s with started := true } := of_tasks rfl rfl rfl
  hstarted.trans (switchToNext _ none false)

theorem reschedule (s : Scheduler) : Level s s.reschedule.2 := by
  rw [Scheduler.reschedule]
  split
  · exact refl s
  · exact switchToNext s none false

theorem tick (s : Scheduler) : Level s s.tick.2 := by
  cases hstarted : s.started with
  | true =>
    rw [tick_of_started hstarted]
    have hadvanced : Level s s.advanced := of_tasks rfl rfl rfl
    exact (hadvanced.trans (unblockWakeable s.advanced)).trans (switchToNext s.ticked none true)
  | false =>
    rw [tick_of_stopped hstarted]
    exact refl s

theorem suspended (s : Scheduler) (id : TaskId) (reason : BlockReason) :
    Level s (s.suspended id reason) := by
  have hsame : ∀ t : Task, (t.suspended s.wakeTimeOf reason).rating = t.rating := by
    intro t
    cases reason <;> rfl
  refine of_modify id (fun t => t.suspended s.wakeTimeOf reason) hsame ?_ ?_ ?_ <;>
    cases reason <;> rfl

theorem withMailbox (s : Scheduler) (id : TaskId) (mailbox : Mailbox) :
    Level s (s.withMailbox id mailbox) :=
  of_modify id (fun t => { t with mailbox := mailbox }) (fun _ => rfl) rfl rfl rfl

theorem deliver (s : Scheduler) (recipient : TaskId) (message : Message) :
    Level s (s.deliver recipient message).2 := by
  rw [Scheduler.deliver]
  split
  · exact refl s
  split
  · exact refl s
  split
  · exact refl s
  · rename_i mailbox _
    have hmail := withMailbox s recipient mailbox
    dsimp only
    split
    · exact hmail.trans (makeReady (s.withMailbox recipient mailbox) recipient)
    · exact hmail

end Level

theorem Coherent.level_block (h : s.Coherent) (reason : BlockReason) :
    Level s (s.block reason).2 := by
  cases hid : s.working? with
  | none =>
    rw [block_eq_of_none hid]
    exact .refl s
  | some id =>
    rw [h.block_eq hid]
    exact (Level.suspended s id reason).trans (.switchToNext _ _ _)

theorem Coherent.level_receive (h : s.Coherent) (filter : Option Filter) :
    Level s (s.receive filter).2 := by
  rcases h.receive_cases filter with hs | ⟨id, t, mailbox, -, -, hs | ⟨-, hs⟩⟩ <;> rw [hs]
  · exact .refl s
  · exact .withMailbox s id mailbox
  · exact ((Level.withMailbox s id mailbox).trans (.suspended _ id _)).trans (.switchToNext _ _ _)

/-! ### Tasks that come and go -/

theorem Coherent.id_of_mem_values (h : s.Coherent) {t : Task} (ht : t ∈ s.tasks.values) :
    s.task? t.id = some t := by
  obtain ⟨id, hid⟩ := Table.mem_values.1 ht
  obtain rfl := h.queued.named id t hid
  exact hid

/-- The idle task is live, so a new one is another. -/
theorem Coherent.idle_ne_of_fresh (h : s.Coherent) {id : TaskId} (hfresh : s.contains id = false) :
    s.idle ≠ some id := by
  intro hidle
  rw [(h.queued.live id).2 (.inr (.inr hidle))] at hfresh
  cases hfresh

theorem task?_of_fresh {id : TaskId} (hfresh : s.contains id = false) : s.task? id = none :=
  Option.isNone_iff_eq_none.1 (Option.isSome_eq_false_iff.1 hfresh)

theorem Coherent.weighed_schedule (h : s.Coherent) (hw : s.Weighed) (task : Task) :
    (s.schedule task).2.Weighed := by
  rw [Scheduler.schedule]
  split
  · exact hw
  · rename_i hin
    have hfresh : s.contains task.id = false := Bool.not_eq_true _ ▸ hin
    show s.score + task.priority.weight = loadOf s.idle (s.tasks.insert task.id _).values
    rw [loadOf_perm (Table.perm_values_insert (task?_of_fresh hfresh) _), loadOf_cons,
      if_neg (h.idle_ne_of_fresh hfresh), hw]
    exact Nat.add_comm _ _

theorem Coherent.weighed_installCleanup (h : s.Coherent) (hw : s.Weighed) (task : Task) :
    (s.installCleanup task).2.Weighed := by
  have hscheduled := h.weighed_schedule hw task
  rw [Scheduler.installCleanup]
  generalize s.schedule task = scheduled at hscheduled ⊢
  obtain ⟨result, s₁⟩ := scheduled
  cases result with
  | error e => exact hscheduled
  | ok => exact hscheduled

/-- The idle task comes and adds no load. -/
theorem Coherent.weighed_installIdle (h : s.Coherent) (hw : s.Weighed) (task : Task) :
    (s.installIdle task).2.Weighed := by
  rw [Scheduler.installIdle]
  split
  · exact hw
  · rename_i haccepted
    obtain ⟨hfresh, hnone⟩ : s.contains task.id = false ∧ s.idle = none := by simpa using haccepted
    have hothers : ∀ t ∈ s.tasks.values, some task.id ≠ some t.id := by
      intro t ht hid
      have hin := h.id_of_mem_values ht
      rw [← Option.some.inj hid, task?_of_fresh hfresh] at hin
      cases hin
    show s.score = loadOf (some task.id) (s.tasks.insert task.id _).values
    rw [loadOf_perm (Table.perm_values_insert (task?_of_fresh hfresh) _), loadOf_cons, if_pos rfl,
      loadOf_eq_sum hothers, hw, hnone, loadOf_eq_sum fun t _ hid => by cases hid]
    exact (Nat.zero_add _).symm

/-- A live task other than the idle one is part of the load, and leaves the rest behind. -/
theorem Weighed.split (hw : s.Weighed) {id : TaskId} {t : Task} (ht : s.task? id = some t)
    (hid : t.id = id) (hidle : s.idle ≠ some id) :
    s.score = t.priority.weight + loadOf s.idle (s.tasks.erase id).values := by
  rw [hw, ← loadOf_perm (Table.perm_values_erase ht), loadOf_cons, hid, if_neg hidle]

theorem Coherent.weighed_exit (h : s.Coherent) (hw : s.Weighed) : s.exit.2.Weighed := by
  by_cases hnone : s.working? = none ∨ s.working? = s.cleanup
  · rw [exit_eq_of_none hnone]
    exact hw
  · obtain ⟨hworking, hcleanup⟩ := not_or.1 hnone
    obtain ⟨id, hid⟩ := Option.ne_none_iff_exists'.1 hworking
    obtain ⟨hcurrent, hidle⟩ := working?_eq_some hid
    have hcleanup : s.cleanup ≠ some id := fun e => hcleanup (hid.trans e.symm)
    obtain ⟨t, ht⟩ := Option.isSome_iff_exists.1 (h.contains_current hcurrent)
    have hsplit := hw.split ht (h.queued.named id t ht) hidle
    have hretired : (s.retired id t).Weighed := by
      show s.score - t.priority.weight = loadOf s.idle (s.tasks.erase id).values
      omega
    rw [h.exit_eq hid hcleanup ht]
    exact ((Level.wakeCleanup _).trans (.switchToNext _ _ _)).weighed hretired

/-- The weight of the old priority is exchanged for that of the new one. -/
theorem Coherent.weighed_changePriority (h : s.Coherent) (hw : s.Weighed) (id : TaskId)
    (priority : Priority) : (s.changePriority id priority).2.Weighed := by
  rw [Scheduler.changePriority]
  split
  · exact hw
  · rename_i t ht
    have hid := h.queued.named id t ht
    have hmodified : (s.tasks.modify id fun t => { t with priority := priority }).values.Perm
        ({ t with priority := priority } :: (s.tasks.erase id).values) := by
      have hnone : (s.tasks.erase id).get? id = none := by rw [Table.get?_erase, if_pos rfl]
      refine List.Perm.trans (List.Perm.of_eq (congrArg Table.values (Table.ext_get? fun j => ?_)))
        (Table.perm_values_insert hnone _)
      have ht : s.tasks.get? id = some t := ht
      rw [Table.get?_modify, Table.get?_insert, Table.get?_erase]
      by_cases hj : j = id
      · rw [if_pos hj, if_pos hj, hj, ht]
        rfl
      · rw [if_neg hj, if_neg hj, if_neg hj]
    show (if s.idle = some id then s.score else s.score - t.priority.weight + priority.weight) =
      loadOf s.idle (s.tasks.modify id _).values
    rw [loadOf_perm hmodified, loadOf_cons]
    by_cases hidle : s.idle = some id
    · rw [if_pos hidle, if_pos (hid ▸ hidle), hw, ← loadOf_perm (Table.perm_values_erase ht),
        loadOf_cons, if_pos (hid ▸ hidle)]
    · have hsplit := hw.split ht hid hidle
      rw [if_neg hidle, if_neg (hid.symm ▸ hidle), hsplit, Nat.add_sub_cancel_left]
      exact Nat.add_comm _ _

/-! ### Every operation -/

theorem weighed_new (core : CoreId) (timeslice : Nat) : (new core timeslice).Weighed := rfl

/-- Every operation keeps the score equal to the load. -/
theorem Coherent.weighed_step (h : s.Coherent) (hw : s.Weighed) (operation : Operation) :
    (s.step operation).2.Weighed := by
  cases operation with
  | installIdle task => exact h.weighed_installIdle hw task
  | installCleanup task => exact h.weighed_installCleanup hw task
  | schedule task => exact h.weighed_schedule hw task
  | start => exact (Level.start s).weighed hw
  | reschedule => exact (Level.reschedule s).weighed hw
  | block reason => exact (h.level_block reason).weighed hw
  | unblock id => exact (Level.unblock s id).weighed hw
  | wake id => exact (Level.wake s id).weighed hw
  | unblockWakeable => exact (Level.unblockWakeable s).weighed hw
  | tick => exact (Level.tick s).weighed hw
  | findNext => exact (Level.selectNext s none).weighed hw
  | runNext => exact (Level.switchToNext s none false).weighed hw
  | deliver recipient message => exact (Level.deliver s recipient message).weighed hw
  | receive filter => exact (h.level_receive filter).weighed hw
  | exit => exact h.weighed_exit hw
  | reap => exact hw
  | changePriority id priority => exact h.weighed_changePriority hw id priority

/-- Whatever is asked of a scheduler, its score is the load of its tasks. -/
theorem weighed_run (core : CoreId) (timeslice : Nat) (operations : List Operation) :
    ((new core timeslice).run operations).Weighed := by
  have hall : ∀ s : Scheduler, s.Coherent → s.Weighed → (s.run operations).Weighed := by
    induction operations with
    | nil => exact fun _ _ hw => hw
    | cons operation rest ih =>
      exact fun s h hw => ih _ (h.step operation).1 (h.weighed_step hw operation)
  exact hall _ (coherent_new core timeslice) (weighed_new core timeslice)

end Scheduler

end Microkernel
