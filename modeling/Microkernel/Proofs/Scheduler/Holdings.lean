/-
What the tasks of a scheduler hold.

A task keeps its id, its kernel stack and its user image for as long as it exists (`Task.holdings`).
`s.Gains come s'` says that `s'` has the tasks of `s` with what they hold, and those of `come`
besides, and that the same tasks wait to be reclaimed.

* **`Coherent.gains_block`**, **`Coherent.gains_receive`** and so on: most operations of a scheduler
  gain nothing;
* **`Coherent.gains_schedule`**, **`Coherent.gains_joinAll`**: a scheduler gains the tasks that
  join;
* **`loses_retired`**: a task that ends goes from the live tasks to the exited ones.
-/
import Microkernel.Proofs.Scheduler.Intake
import Microkernel.Proofs.Scheduler.Rules

namespace Microkernel

/-- What a task keeps for as long as it exists. -/
structure Holdings where
  id : TaskId
  stack : KernelStack
  user : Option UserImage
  deriving DecidableEq

/-- What the task holds. -/
def Task.holdings (t : Task) : Holdings :=
  ⟨t.id, t.stack, t.user⟩

namespace Scheduler

variable {s s' s₁ : Scheduler} {come come' : List Holdings} {task : Task}

/-- What the live tasks hold. -/
def holdings (s : Scheduler) : List Holdings :=
  s.tasks.values.map Task.holdings

/-- The live tasks are those of before and those of `come`, with what they hold. -/
structure Gains (come : List Holdings) (s s' : Scheduler) : Prop where
  live : s'.holdings.Perm (come ++ s.holdings)
  exited : s'.exited = s.exited

namespace Gains

theorem refl (s : Scheduler) : Gains [] s s :=
  ⟨.refl _, rfl⟩

theorem trans (h : Gains come s s₁) (h' : Gains come' s₁ s') : Gains (come' ++ come) s s' where
  live := by
    rw [List.append_assoc]
    exact h'.live.trans (h.live.append_left _)
  exited := h'.exited.trans h.exited

end Gains

/-! ### Operations that gain nothing -/

theorem gains_of_holdings (hlive : ∀ id, (s'.task? id).map Task.holdings =
    (s.task? id).map Task.holdings) (hexited : s'.exited = s.exited) : Gains [] s s' :=
  ⟨.of_eq (Table.map_values_congr hlive), hexited⟩

theorem Rearranged.gains (h : Rearranged s s') : Gains [] s s' := by
  have hholdings : ∀ o : Option Task,
      o.map Task.holdings = (o.map Task.fixed).map Task.holdings := by
    intro o
    cases o <;> rfl
  refine gains_of_holdings (fun id => ?_) h.exited
  rw [hholdings, h.fixed, ← hholdings]

theorem gains_withMailbox (id : TaskId) (mailbox : Mailbox) :
    Gains [] s (s.withMailbox id mailbox) := by
  refine gains_of_holdings (fun j => ?_) rfl
  rw [task?_withMailbox]
  split
  · cases s.task? j <;> rfl
  · rfl

namespace Coherent

variable (h : s.Coherent)

include h

theorem gains_start : Gains [] s s.start.2 :=
  (h.start (Prod.eta s.start).symm).2.2.gains

theorem gains_reschedule : Gains [] s s.reschedule.2 :=
  (h.reschedule (Prod.eta s.reschedule).symm).2.2.gains

theorem gains_tick : Gains [] s s.tick.2 :=
  (h.tick (Prod.eta s.tick).symm).2.2.gains

theorem gains_block (reason : BlockReason) : Gains [] s (s.block reason).2 := by
  rcases h.block (Prod.eta (s.block reason)).symm with ⟨-, -, hs⟩ | ⟨switch, -, -, -, hr⟩
  · rw [hs]
    exact .refl s
  · exact hr.gains

theorem gains_wake (id : TaskId) : Gains [] s (s.wake id).2 :=
  (h.wake id).2.gains

theorem gains_changePriority (id : TaskId) (priority : Priority) :
    Gains [] s (s.changePriority id priority).2 :=
  (h.changePriority (Prod.eta (s.changePriority id priority)).symm).2.2.1.gains

theorem deliver_coherent (recipient : TaskId) (message : Message) :
    (s.deliver recipient message).2.Coherent ∧ Gains [] s (s.deliver recipient message).2 := by
  rcases h.deliver (Prod.eta (s.deliver recipient message)).symm with
    ⟨-, hs, -⟩ | ⟨-, -, -, ⟨-, -, hs, -⟩ | ⟨-, mailbox, -, -, hco, hr, -⟩⟩
  · rw [hs]
    exact ⟨h, .refl s⟩
  · rw [hs]
    exact ⟨h, .refl s⟩
  · exact ⟨hco, (gains_withMailbox recipient mailbox).trans hr.gains⟩

theorem gains_deliverAll (stalled : List TaskId) (mail : List Mail) :
    Gains [] s (s.deliverAll stalled mail).2 := by
  have hkept : ∀ s₁ : Scheduler, s₁.Coherent ∧ Gains [] s s₁ → ∀ recipient message,
      (s₁.deliver recipient message).2.Coherent ∧ Gains [] s (s₁.deliver recipient message).2 := by
    rintro s₁ ⟨hco, hgains⟩ recipient message
    obtain ⟨hco', hgains'⟩ := hco.deliver_coherent recipient message
    exact ⟨hco', hgains.trans hgains'⟩
  exact (deliverAll_keeps hkept ⟨h, .refl s⟩ stalled mail).2

theorem gains_receive (filter : Option Filter) : Gains [] s (s.receive filter).2 := by
  obtain ⟨-, hs | ⟨id, t, -, -, hr⟩⟩ := h.receive_rearranged filter
  · rw [hs]
    exact .refl s
  · exact (gains_withMailbox id _).trans hr.gains

end Coherent

/-! ### Tasks that join and tasks that end -/

theorem Joined.gains (h : Joined s task s') (hfresh : s.contains task.id = false) :
    Gains [task.holdings] s s' := by
  refine ⟨?_, h.exited⟩
  rw [holdings, h.tasks_eq]
  exact (Table.perm_values_insert (get?_of_contains_eq_false hfresh) _).map Task.holdings

theorem Coherent.gains_schedule (h : s.Coherent) (hfresh : s.contains task.id = false) :
    Gains [task.holdings] s (s.schedule task).2 :=
  (h.schedule_of_fresh hfresh).2.2.1.gains hfresh

theorem Coherent.gains_joinAll (h : s.Coherent) {tasks : List Task}
    (hfresh : ∀ t ∈ tasks, s.contains t.id = false) (hdistinct : (tasks.map Task.id).Nodup) :
    Gains (tasks.map Task.holdings) s (s.joinAll tasks) := by
  induction tasks generalizing s with
  | nil => exact .refl s
  | cons task tasks ih =>
    rw [List.map_cons, List.nodup_cons] at hdistinct
    obtain ⟨hnot, hrest⟩ := hdistinct
    have hnew := hfresh task List.mem_cons_self
    obtain ⟨-, hco, hj, -⟩ := h.schedule_of_fresh hnew
    have hlater := ih hco (fun t ht => hj.contains_eq_false
      (hfresh t (List.mem_cons_of_mem _ ht)) fun e => hnot (e ▸ List.mem_map_of_mem ht)) hrest
    have hboth := (h.gains_schedule hnew).trans hlater
    exact ⟨hboth.live.trans ((List.perm_append_singleton _ _).append_right _), hboth.exited⟩

/-- A live task is over, and all others are there as before. -/
structure Loses (gone : Holdings) (s s' : Scheduler) : Prop where
  live : (gone :: s'.holdings).Perm s.holdings
  exited : s'.exited.map Task.holdings = s.exited.map Task.holdings ++ [gone]

theorem loses_retired {id : TaskId} (ht : s.task? id = some task) :
    Loses task.holdings s (s.retired id task) :=
  ⟨(Table.perm_values_erase ht).map Task.holdings, by simp [retired, Task.holdings]⟩

theorem Loses.then {gone : Holdings} (h : Loses gone s s₁) (h' : Gains [] s₁ s') :
    Loses gone s s' where
  live := (h'.live.cons gone).trans h.live
  exited := by rw [h'.exited, h.exited]

end Scheduler

end Microkernel
