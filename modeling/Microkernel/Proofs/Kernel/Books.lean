/-
What is written down outside of the cores.

The books of a kernel (`Kernel.books`) are the memory that the machine has handed out, the parked
tasks, the service registry, the number of ids there may be and the count of the tasks that were
reclaimed. Work on the cores does not touch them: whatever relates two kernels without looking at
cores, journal and the other counters (`Blind`) is kept by all that a core does for itself.

* **`Respects.drainInbox`**: taking over an inbox is such work;
* **`books_locked`**: a call under the lock leaves of the books alone what its operation leaves
  alone.

Design notes: an operation may touch a part of the books, such as the registry. `SameBooks f` is
therefore about what a function `f` says of the books.
-/
import Microkernel.Proofs.Kernel.Actions
import Microkernel.Proofs.Task.Launch

namespace Microkernel

/-- What a kernel writes down outside of its cores, apart from the ids in use and the homes. -/
structure Books where
  memory : Memory
  parked : List Task
  registry : Registry
  /-- No id reaches this number. -/
  limit : Nat
  /-- Number of tasks that were reclaimed. -/
  reaped : Nat

namespace Kernel

variable {α γ : Type} {k k' : Kernel} {R : Kernel → Kernel → Prop}

def books (k : Kernel) : Books where
  memory := k.machine.memory
  parked := k.directory.parked
  registry := k.directory.registry
  limit := k.directory.ids.limit
  reaped := k.metrics.tasksReaped

/-! ### Work on the cores -/

/-- A relation that sees neither cores nor the journal, and no counter but that of the tasks that
were reclaimed. -/
class Blind (R : Kernel → Kernel → Prop) : Prop where
  note : ∀ event, Respects R (note event)
  tally : ∀ counter amount, counter ≠ .tasksReaped → Respects R (tally counter amount)
  updateCore : ∀ id g, Respects R (updateCore id g)

namespace Respects

theorem checkCleanup [Std.Refl R] [Trans R R R] (id : CoreId) :
    Respects R (Kernel.checkCleanup id) := by
  refine (coreAt id).bind fun core => ?_
  dsimp only
  split
  · exact fail _
  · split
    · exact pure ()
    · exact fail _

theorem checkLocal [Std.Refl R] (task : TaskId) : Respects R (Kernel.checkLocal task) := by
  refine get fun k => ?_
  split
  · exact fail _
  · split
    · exact pure ()
    · exact fail _

variable [Std.Refl R] [Trans R R R] [Blind R]

theorem onScheduler (id : CoreId) (g : Scheduler → α × Scheduler) :
    Respects R (Kernel.onScheduler id g) :=
  (coreAt id).bind fun _ => (Blind.updateCore id _).bind fun _ => pure _

theorem askScheduler (id : CoreId) (g : Scheduler → Except Error α × Scheduler) :
    Respects R (Kernel.askScheduler id g) :=
  (onScheduler id g).bind fun _ => ofExcept _

theorem request (id : CoreId) (operation : Scheduler.Operation)
    (g : Scheduler → Except Error α × Scheduler) (answer : α → Scheduler.Answer) :
    Respects R (Kernel.request id operation g answer) :=
  (coreAt id).bind fun _ => (askScheduler id g).bind fun _ =>
    (forM Blind.note _).bind fun _ => pure _

theorem coreFault (id : CoreId) (e : Error) : Respects R (Kernel.coreFault id e : Action α) :=
  (Blind.note _).bind fun _ => (Blind.updateCore id _).bind fun _ =>
    get fun _ k => Std.Refl.refl k

theorem takeOver (id : CoreId) (tasks : List Task) : Respects R (Kernel.takeOver id tasks) := by
  induction tasks with
  | nil => exact pure ()
  | cons task rest ih =>
    refine (request id _ _ _).attempt.bind fun r => ?_
    cases r
    · exact coreFault id _
    · exact ih

theorem deliverAll (id : CoreId) (stalled : List TaskId) (mail : List Mail) :
    Respects R (Kernel.deliverAll id stalled mail) := by
  induction mail generalizing stalled with
  | nil => exact pure []
  | cons mail rest ih =>
    obtain ⟨recipient, message⟩ := mail
    rw [Kernel.deliverAll]
    split
    · exact (ih stalled).bind fun _ => pure _
    · refine (askScheduler id _).attempt.bind fun r => ?_
      split
      · exact (Blind.tally _ _ (by decide)).bind fun _ => ih stalled
      · exact ih stalled
      · exact (ih _).bind fun _ => pure _
      · exact (Blind.note _).bind fun _ => ih stalled

theorem drainInbox (id : CoreId) : Respects R (Kernel.drainInbox id) :=
  (coreAt id).bind fun _ => (Blind.updateCore id _).bind fun _ => (takeOver id _).bind fun _ =>
    (deliverAll id _ _).bind fun _ => Blind.updateCore id _

theorem prepareSwitch (id : CoreId) (switch : Option Switch) :
    Respects R (Kernel.prepareSwitch id switch) := by
  cases switch with
  | none => exact pure _
  | some switch =>
    refine (coreAt id).bind fun _ => ?_
    split
    · exact pure _
    · exact coreFault id _

end Respects

/-! ### The books under the lock -/

/-- What `f` says of the books is the same. -/
def SameBooks (f : Books → γ) (k k' : Kernel) : Prop :=
  f k'.books = f k.books

variable {f : Books → γ}

instance : Std.Refl (SameBooks f) where
  refl _ := rfl

instance : Trans (SameBooks f) (SameBooks f) (SameBooks f) where
  trans {_ _ _} h h' := Eq.trans h' h

instance : Blind (SameBooks f) where
  note _ _ := rfl
  tally counter amount hcounter k := by
    have hreaped := Metrics.total_add k.metrics counter .tasksReaped amount
    rw [if_neg hcounter.symm] at hreaped
    exact congrArg (fun n => f { k.books with reaped := n }) hreaped
  updateCore _ _ _ := rfl

theorem books_performSwitch (prepared : Option PreparedSwitch) :
    Respects (SameBooks f) (performSwitch prepared) := by
  cases prepared with
  | none => exact .pure ()
  | some prepared =>
    obtain ⟨saved, resumed, stackTop, activated, preempted⟩ := prepared
    cases activated <;> cases preempted <;> exact fun _ => rfl

theorem books_locked {operation : CoreId → Action (α × Option Switch)}
    (hop : ∀ c, Respects (SameBooks f) (operation c)) :
    Respects (SameBooks f) (locked operation) := by
  have hunmask : ∀ enabled, Respects (SameBooks f) (unmask enabled) := fun _ _ => rfl
  have hmask : Respects (SameBooks f) (onMachine Machine.maskInterrupts) := fun _ => rfl
  have hpublish : ∀ id, Respects (SameBooks f) (publish id) := fun id => Blind.updateCore id _
  refine (Respects.get fun _ => Respects.coreAt _).bind fun core => hmask.bind fun enabled =>
    (Respects.drainInbox _).bind fun _ => (hop _).attempt.bind fun r => ?_
  split
  · split
    · exact .coreFault _ _
    · exact (hpublish _).bind fun _ => (hunmask _).bind fun _ => .fail _
  · exact (Respects.prepareSwitch _ _).bind fun prepared => (hpublish _).bind fun _ =>
      (books_performSwitch prepared).bind fun _ => (hunmask _).bind fun _ => .pure _

end Kernel

end Microkernel
