/-
An operation that fails changes nothing.

Some operations take the current task off the ready ring, or mail out of a mailbox, before their
last step that can fail. In the states that operations lead to, that step does not fail:

* **`Coherent.step_failed`**: an operation that answers an error leaves the scheduler as it was;
* **`Coherent.step_block_failed_iff`**, **`Coherent.step_receive_failed_iff`**,
  **`Coherent.step_exit_failed_iff`**: to block, to ask for mail and to end fail only for want of a
  task that may do so;
* **`failed_operation_changes_nothing`**: both, after any operations.

Design notes: a receive can find a frame that is no message only if some task was handed over
with one. `soundRule` says that no live task has such a frame. It is kept by every operation,
since what a delivery writes is an encoded message.
-/
import Microkernel.Proofs.Scheduler.Order

namespace Microkernel.Scheduler

variable {s : Scheduler}

/-! ### Sound mailboxes -/

/-- The mailbox holds messages and nothing else. -/
def soundRule : Rule := fun _ _ t => t.mailbox.Sound

theorem lawful_soundRule : soundRule.Lawful where
  readied _ _ _ h := h
  entered _ t _ h := h
  paused waits id t h := by
    rw [soundRule, pause]
    split <;> exact h
  slept _ t _ h := h
  prioritized _ _ t _ h := h

/-- Whatever is taken out of a sound mailbox, what is left is sound. -/
theorem soundRule_takeMessage {t : Task} (h : t.mailbox.Sound) (filter : Option Filter) :
    (takeMessage t.mailbox filter).2.Sound := by
  obtain ⟨mailbox, htake, hsound, -⟩ := h.takeMessage filter
  rw [htake]
  exact hsound

theorem Obeys.step_soundRule (h : s.Obeys soundRule) (hc : s.Coherent) (operation : Operation)
    (hnew : ∀ task, operation.task? = some task → task.mailbox.Sound) :
    (s.step operation).2.Obeys soundRule := by
  have hl := lawful_soundRule
  have hq := hc.queued.blocked
  cases operation with
  | installIdle task => exact h.installIdle hc (hnew task rfl)
  | installCleanup task => exact h.installCleanup hc (hnew task rfl)
  | schedule task => exact h.schedule hc (hnew task rfl)
  | start => exact h.start hl hc
  | reschedule => exact h.reschedule hl hc
  | block reason =>
    refine h.block hl hc fun id t _ ht => ?_
    cases reason <;> exact h id t ht
  | unblock id => exact h.unblock hl hq id
  | wake id => exact h.wake hl hq id
  | unblockWakeable => exact h.unblockWakeable hl hq
  | tick => exact h.tick hl hc
  | findNext => exact h.selectNext hl hq none
  | runNext => exact h.switchToNext hl hc.queued none false
  | deliver recipient message =>
    exact h.deliver hc
      (fun t mailbox ht hsend _ _ => ((h recipient t ht).send_ok hsend).1)
      fun t mailbox ht hsend _ => ((h recipient t ht).send_ok hsend).1
  | receive filter =>
    refine h.receive hl hc fun id t _ ht => ?_
    have hleft := soundRule_takeMessage (h id t ht) filter
    split
    · rename_i htake
      rw [htake] at hleft
      exact hleft
    · rename_i htake
      rw [htake] at hleft
      exact hleft
  | exit => exact h.exit hl hc
  | reap => exact h
  | changePriority id priority => exact h.changePriority hl id priority

theorem Obeys.run_soundRule (h : s.Obeys soundRule) (hc : s.Coherent)
    {operations : List Operation}
    (hnew : ∀ task ∈ operations.filterMap Operation.task?, task.mailbox.Sound) :
    (s.run operations).Obeys soundRule := by
  induction operations generalizing s with
  | nil => exact h
  | cons operation rest ih =>
    refine ih (h.step_soundRule hc operation fun task htask => hnew task ?_)
      (hc.step operation).1 fun task htask => hnew task ?_
    · exact List.mem_filterMap.2 ⟨operation, List.mem_cons_self, htask⟩
    · obtain ⟨later, hlater, htask⟩ := List.mem_filterMap.1 htask
      exact List.mem_filterMap.2 ⟨later, List.mem_cons_of_mem _ hlater, htask⟩

/-! ### Who may not block or end -/

theorem working?_eq_none_iff : s.working? = none ↔ s.current = none ∨ s.current = s.idle := by
  rw [working?]
  cases hcurrent : s.current with
  | none => simp
  | some id =>
    by_cases hidle : s.idle = some id
    · simp [hidle]
    · simp [hidle, Ne.symm hidle]

/-- There is no task that could end: none is current, or it is the idle or the cleanup task. -/
theorem cannot_exit_iff : (s.working? = none ∨ s.working? = s.cleanup) ↔
    s.current = none ∨ s.current = s.idle ∨ s.current = s.cleanup := by
  rw [working?_eq_none_iff, or_assoc]
  by_cases hnone : s.working? = none
  · rw [working?_eq_none_iff] at hnone
    grind
  · -- a current task that works is the one that is asked about
    have hworking : s.working? = s.current := by
      obtain ⟨id, hid⟩ := Option.ne_none_iff_exists'.1 hnone
      rw [hid, (working?_eq_some hid).1]
    rw [hworking]

/-- An operation answers an error exactly if its result is one. -/
theorem failed_iff {α : Type} {f : α → Answer} {r : Except Error α × Scheduler} {e : Error}
    (hf : ∀ a, f a ≠ .failed e) :
    (r.map (Answer.ofExcept f) id).1 = .failed e ↔ r.1 = .error e := by
  obtain ⟨result, s'⟩ := r
  cases result with
  | ok a => exact ⟨fun h => absurd h (hf a), nofun⟩
  | error e' => simp [Answer.ofExcept]

/-! ### What fails, and when -/

theorem Coherent.block_error_iff (h : s.Coherent) {reason : BlockReason} {e : Error} :
    (s.block reason).1 = .error e ↔ e = .noCurrentTask ∧ s.working? = none := by
  cases hworking : s.working? with
  | none =>
    rw [block_eq_of_none hworking]
    simp [eq_comm]
  | some id =>
    rw [h.block_eq hworking]
    simp

theorem Coherent.receive_error_iff (h : s.Coherent) (hmail : s.Obeys soundRule)
    {filter : Option Filter} {e : Error} :
    (s.receive filter).1 = .error e ↔ e = .noCurrentTask ∧ s.working? = none := by
  cases hworking : s.working? with
  | none =>
    rw [receive_eq_of_none hworking]
    simp [eq_comm]
  | some id =>
    rcases h.receive hmail (Prod.eta (s.receive filter)).symm with
      ⟨-, hnone, -⟩ | ⟨_, _, _, -, -, -, -, -, ⟨message, hresult, -⟩ | ⟨switch, hresult, -⟩⟩
    · rw [hworking] at hnone
      cases hnone
    · simp [hresult]
    · simp [hresult]

theorem Coherent.exit_error_iff (h : s.Coherent) {e : Error} :
    s.exit.1 = .error e ↔ e = .noCurrentTask ∧ (s.working? = none ∨ s.working? = s.cleanup) := by
  by_cases hcannot : s.working? = none ∨ s.working? = s.cleanup
  · rw [exit_eq_of_none hcannot]
    simpa [eq_comm] using fun _ => hcannot
  · rcases h.exit (Prod.eta s.exit).symm with ⟨-, hs⟩ | ⟨id, t, switch, hresult, -⟩
    · obtain ⟨hworking, hcleanup⟩ := not_or.1 hcannot
      obtain ⟨id, hid⟩ := Option.ne_none_iff_exists'.1 hworking
      have hcleanup : s.cleanup ≠ some id := fun e => hcleanup (hid.trans e.symm)
      obtain ⟨t, ht⟩ := Option.isSome_iff_exists.1 (h.contains_current (working?_eq_some hid).1)
      simp [h.exit_eq hid hcleanup ht, hworking, hid.symm ▸ hcleanup.symm]
    · simp [hresult, hcannot]

/-- An operation that fails leaves the scheduler as it was. -/
theorem Coherent.step_failed (h : s.Coherent) (hmail : s.Obeys soundRule) {operation : Operation}
    {e : Error} (hfailed : (s.step operation).1 = .failed e) : (s.step operation).2 = s := by
  cases operation with
  | installIdle task =>
    rcases h.installIdle (Prod.eta (s.installIdle task)).symm with ⟨-, -, hs⟩ | ⟨hresult, -⟩
    · exact hs
    · exact absurd (hresult.symm.trans ((failed_iff (by simp)).1 hfailed)) nofun
  | installCleanup task =>
    rcases h.installCleanup (Prod.eta (s.installCleanup task)).symm with
      ⟨-, -, hs⟩ | ⟨hresult, -⟩
    · exact hs
    · exact absurd (hresult.symm.trans ((failed_iff (by simp)).1 hfailed)) nofun
  | schedule task =>
    rcases h.schedule (Prod.eta (s.schedule task)).symm with ⟨-, -, hs⟩ | ⟨hresult, -⟩
    · exact hs
    · exact absurd (hresult.symm.trans ((failed_iff (by simp)).1 hfailed)) nofun
  | block reason =>
    have herror := (failed_iff (by simp)).1 hfailed
    have hnone := (h.block_error_iff.1 herror).2
    rw [show (s.step (.block reason)).2 = (s.block reason).2 from rfl, block_eq_of_none hnone]
  | deliver recipient message =>
    rcases h.deliver (Prod.eta (s.deliver recipient message)).symm with
      ⟨-, hs, -⟩ | ⟨t, -, -, ⟨e, -, hs, -⟩ | ⟨woken, mailbox, hresult, -⟩⟩
    · exact hs
    · exact hs
    · exact absurd (hresult.symm.trans ((failed_iff (by simp)).1 hfailed)) nofun
  | receive filter =>
    have herror := (failed_iff (by simp)).1 hfailed
    have hnone := ((h.receive_error_iff hmail).1 herror).2
    rw [show (s.step (.receive filter)).2 = (s.receive filter).2 from rfl,
      receive_eq_of_none hnone]
  | exit =>
    have herror := (failed_iff (by simp)).1 hfailed
    have hnone := (h.exit_error_iff.1 herror).2
    rw [show (s.step .exit).2 = s.exit.2 from rfl, exit_eq_of_none hnone]
  | changePriority id priority =>
    rcases (h.changePriority (Prod.eta (s.changePriority id priority)).symm).1 with
      ⟨-, hs⟩ | hresult
    · exact hs
    · exact absurd (hresult.symm.trans ((failed_iff (by simp)).1 hfailed)) nofun
  | start | reschedule | unblock id | wake id | unblockWakeable | tick | findNext | runNext
  | reap => cases hfailed

theorem Coherent.step_block_failed_iff (h : s.Coherent) (reason : BlockReason) (e : Error) :
    (s.step (.block reason)).1 = .failed e ↔
      e = .noCurrentTask ∧ (s.current = none ∨ s.current = s.idle) := by
  rw [← working?_eq_none_iff]
  exact (failed_iff (by simp)).trans h.block_error_iff

theorem Coherent.step_receive_failed_iff (h : s.Coherent) (hmail : s.Obeys soundRule)
    (filter : Option Filter) (e : Error) :
    (s.step (.receive filter)).1 = .failed e ↔
      e = .noCurrentTask ∧ (s.current = none ∨ s.current = s.idle) := by
  rw [← working?_eq_none_iff]
  exact (failed_iff (by simp)).trans (h.receive_error_iff hmail)

theorem Coherent.step_exit_failed_iff (h : s.Coherent) (e : Error) :
    (s.step .exit).1 = .failed e ↔
      e = .noCurrentTask ∧
        (s.current = none ∨ s.current = s.idle ∨ s.current = s.cleanup) := by
  rw [← cannot_exit_iff]
  exact (failed_iff (by simp)).trans h.exit_error_iff

/-- After any operations on a scheduler that was only handed tasks with messages in their
mailboxes, if with any: an operation that fails changes nothing at all, and blocking, receiving
and ending fail only for want of a task that may do so, and then always. -/
theorem failed_operation_changes_nothing (core : CoreId) (timeslice : Nat)
    (operations : List Operation)
    (hnew : ∀ task ∈ operations.filterMap Operation.task?, task.mailbox.Sound) :
    let s := (new core timeslice).run operations
    (∀ operation e, (s.step operation).1 = .failed e → (s.step operation).2 = s) ∧
      (∀ reason e, (s.step (.block reason)).1 = .failed e ↔
        e = .noCurrentTask ∧ (s.current = none ∨ s.current = s.idle)) ∧
      (∀ filter e, (s.step (.receive filter)).1 = .failed e ↔
        e = .noCurrentTask ∧ (s.current = none ∨ s.current = s.idle)) ∧
      ∀ e, (s.step .exit).1 = .failed e ↔
        e = .noCurrentTask ∧
          (s.current = none ∨ s.current = s.idle ∨ s.current = s.cleanup) := by
  have hc := coherent_run core timeslice operations
  have hmail : ((new core timeslice).run operations).Obeys soundRule :=
    (obeys_new core timeslice).run_soundRule (coherent_new core timeslice) hnew
  exact ⟨fun operation e hfailed => hc.step_failed hmail hfailed, hc.step_block_failed_iff,
    hc.step_receive_failed_iff hmail, hc.step_exit_failed_iff⟩

/-- The cleanup task is current after the three fates: it cannot end, and no mail can be put into
the mailbox of a task that is over. -/
theorem threeFates_failures :
    (∀ task ∈ threeFates.filterMap Operation.task?, task.mailbox.Sound) ∧
      ((new 0 10).run threeFates).current = some 2 ∧
      (((new 0 10).run threeFates).step .exit).1 = .failed .noCurrentTask ∧
      ∀ message, (((new 0 10).run threeFates).step (.deliver 4 message)).2 =
        (new 0 10).run threeFates := by
  have hnew : ∀ task ∈ threeFates.filterMap Operation.task?, task.mailbox.Sound := by
    intro task htask
    have hboxes : ∀ task ∈ threeFates.filterMap Operation.task?, task.mailbox = .new 64 := by decide
    rw [hboxes task htask]
    exact Mailbox.sound_new 64
  obtain ⟨hfailed, -, -, hexit⟩ := failed_operation_changes_nothing 0 10 threeFates hnew
  have hcurrent : ((new 0 10).run threeFates).current = some 2 := by rfl
  have hcleanup : ((new 0 10).run threeFates).cleanup = some 2 := by rfl
  refine ⟨hnew, hcurrent, ?_, fun message => hfailed _ .recipientNotFound (by rfl)⟩
  exact (hexit _).2 ⟨rfl, .inr (.inr (hcurrent.trans hcleanup.symm))⟩

end Microkernel.Scheduler
