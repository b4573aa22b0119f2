/-
Operations of the core that runs now.

Taking over a sound inbox never fails and leaves the core drained. An operation under the lock
starts from there, and its outcome is published with the switch it asks for.

* **`ensures_drainInbox`**: draining the inbox of a sound core leaves `Core.drained`;
* **`ensures_locked`**: what an operation ensures on the drained core, the locked operation
  ensures with the outcome published, provided that the switch can be resolved and that no error
  is fatal.
-/
import Microkernel.Proofs.Core.Inbox
import Microkernel.Proofs.Kernel.Actions

namespace Microkernel.Kernel

variable {α β : Type} {s : System} {id : CoreId} {core : Core} {size : Nat}

/-! ### The inbox -/

theorem ensures_takeOver (hcore : s.core? id = some core) (h : core.scheduler.Coherent)
    {tasks : List Task} (hfresh : ∀ t ∈ tasks, core.scheduler.contains t.id = false)
    (hdistinct : (tasks.map Task.id).Nodup) :
    Ensures s (takeOver id tasks) fun r s' => r = .ok () ∧
      s' = s.withCore id { core with scheduler := core.scheduler.joinAll tasks } := by
  -- the tasks taken over so far are in the scheduler, to which the rest is new
  induction tasks generalizing s core with
  | nil => exact Ensures.pure ⟨rfl, (System.withCore_self hcore).symm⟩
  | cons task tasks ih =>
    rw [List.map_cons, List.nodup_cons] at hdistinct
    obtain ⟨hnot, hrest⟩ := hdistinct
    obtain ⟨hok, hco, hj, -⟩ := h.schedule_of_fresh (hfresh task List.mem_cons_self)
    have htask : Ensures s (attempt (enqueue id task)) fun r s' => r = .ok (.ok ()) ∧
        s' = s.withCore id { core with scheduler := (core.scheduler.schedule task).2 } := by
      refine Ensures.attempt (Ensures.request hcore _ _ _ ?_)
      rw [hok]
      exact ⟨rfl, rfl⟩
    refine Ensures.bind_ok htask ?_
    have hcore' := System.core?_withCore_self hcore
      { core with scheduler := (core.scheduler.schedule task).2 }
    have hnext := ih hcore' hco (fun t ht =>
      hj.contains_eq_false (hfresh t (List.mem_cons_of_mem _ ht))
        fun e => hnot (e ▸ List.mem_map_of_mem ht)) hrest
    refine hnext.mono fun r s' hr => ⟨hr.1, ?_⟩
    rw [hr.2, System.withCore_withCore]
    rfl

theorem ensures_deliverAll (hcore : s.core? id = some core) (stalled : List TaskId)
    (mail : List Mail) : Ensures s (deliverAll id stalled mail) fun r s' =>
      r = .ok (core.scheduler.deliverAll stalled mail).1 ∧
        s' = s.withCore id
          { core with scheduler := (core.scheduler.deliverAll stalled mail).2 } := by
  induction mail generalizing s core stalled with
  | nil => exact Ensures.pure ⟨rfl, (System.withCore_self hcore).symm⟩
  | cons mail rest ih =>
    obtain ⟨recipient, message⟩ := mail
    rw [deliverAll, Scheduler.deliverAll]
    by_cases hstalled : recipient ∈ stalled
    · rw [if_pos hstalled, if_pos hstalled]
      exact Ensures.bind_ok (ih hcore stalled) (Ensures.pure ⟨rfl, rfl⟩)
    · rw [if_neg hstalled, if_neg hstalled]
      rcases hdeliver : core.scheduler.deliver recipient message with ⟨result, scheduler⟩
      have hcore' := System.core?_withCore_self hcore { core with scheduler := scheduler }
      have hattempt : Ensures s (attempt (askScheduler id (·.deliver recipient message)))
          fun r s' => r = .ok result ∧
            s' = s.withCore id { core with scheduler := scheduler } := by
        refine Ensures.attempt (Ensures.askScheduler hcore _ ?_)
        dsimp only
        rw [hdeliver]
        cases result <;> exact ⟨rfl, rfl⟩
      refine Ensures.bind_ok hattempt ?_
      have hrest : ∀ stalled', Ensures (s.withCore id { core with scheduler := scheduler })
          (deliverAll id stalled' rest) fun r s' =>
            r = .ok (scheduler.deliverAll stalled' rest).1 ∧
              s' = s.withCore id
                { core with scheduler := (scheduler.deliverAll stalled' rest).2 } := by
        intro stalled'
        refine (ih hcore' stalled').mono fun r s' hr => ⟨hr.1, ?_⟩
        rw [hr.2, System.withCore_withCore]
      cases result with
      | ok woken =>
        cases woken with
        | true => exact Ensures.quiet (quiet_tally _ _) fun _ => hrest stalled
        | false => exact hrest stalled
      | error e =>
        -- only a full mailbox stalls its mail; any other message is dropped
        by_cases hfull : e = .mailboxFull
        · subst hfull
          exact Ensures.bind_ok (hrest (recipient :: stalled)) (Ensures.pure ⟨rfl, rfl⟩)
        · have hdropped : Ensures (s.withCore id { core with scheduler := scheduler })
              (do note (.mailDropped message.sender recipient e); deliverAll id stalled rest)
              fun r s' => r = .ok (scheduler.deliverAll stalled rest).1 ∧
                s' = s.withCore id
                  { core with scheduler := (scheduler.deliverAll stalled rest).2 } :=
            Ensures.quiet (quiet_note _) fun _ => hrest stalled
          cases e <;> first | exact hdropped | exact absurd rfl hfull

theorem ensures_drainInbox (hcore : s.core? id = some core) (h : core.Sound size) :
    Ensures s (drainInbox id) fun r s' => r = .ok () ∧ s' = s.withCore id core.drained := by
  refine Ensures.coreAt hcore (Ensures.bind_ok (Ensures.updateCore hcore _ ⟨rfl, rfl⟩) ?_)
  -- the inbox is emptied first, and each step finds the core that the one before left
  have hempty := System.core?_withCore_self hcore
    { core with inbox := (core.inbox.takeTasks.2).takeMail.2 }
  refine Ensures.bind_ok (ensures_takeOver hempty h.coherent h.fresh h.distinct) ?_
  have hmanned := System.core?_withCore_self hempty { core with
    inbox := (core.inbox.takeTasks.2).takeMail.2
    scheduler := core.scheduler.joinAll core.inbox.tasks }
  refine Ensures.bind_ok (ensures_deliverAll hmanned [] core.inbox.mail) ?_
  have hdelivered := System.core?_withCore_self hmanned { core with
    inbox := (core.inbox.takeTasks.2).takeMail.2
    scheduler := ((core.scheduler.joinAll core.inbox.tasks).deliverAll [] core.inbox.mail).2 }
  refine Ensures.updateCore hdelivered _ ⟨rfl, ?_⟩
  rw [System.withCore_withCore, System.withCore_withCore, System.withCore_withCore]
  congr 1
  simp [Core.drained, Inbox.restoreMail, Inbox.takeMail, Inbox.takeTasks]

/-! ### The lock -/

theorem ensures_prepareSwitch (hcore : s.core? id = some core) {switch : Option Switch}
    (h : core.scheduler.Resolved switch) {f : Option PreparedSwitch → Action β}
    {post : Except Stop β → System → Prop} (hf : ∀ prepared, Ensures s (f prepared) post) :
    Ensures s (prepareSwitch id switch >>= f) post := by
  cases switch with
  | none => exact Ensures.bind_ok (Ensures.pure ⟨rfl, rfl⟩) (hf none)
  | some switch =>
    obtain ⟨prepared, hprepared⟩ := h switch rfl
    refine Ensures.bind_ok (Ensures.coreAt hcore ?_) (hf (some prepared))
    rw [hprepared]
    exact Ensures.pure ⟨rfl, rfl⟩

theorem quiet_performSwitch (prepared : Option PreparedSwitch) :
    Quiet (performSwitch prepared) := by
  intro k
  cases prepared with
  | none => exact ⟨(), k, rfl, rfl⟩
  | some prepared =>
    obtain ⟨saved, resumed, stackTop, activated, preempted⟩ := prepared
    cases activated <;> cases preempted <;> exact ⟨(), _, rfl, rfl⟩

theorem quiet_unmask (enabled : Bool) : Quiet (unmask enabled) :=
  quiet_onMachine fun _ => rfl

/-- Without a core that runs, nothing under the lock is carried out. -/
theorem ensures_locked_none (hcore : s.core? s.currentCore = none)
    {operation : CoreId → Action (α × Option Switch)} {post : Except Stop α → System → Prop}
    (h : post (.error (.failed .invalidCore)) s) : Ensures s (locked operation) post :=
  Ensures.localCore_none hcore h

/-- The core shows the outcome of an operation, and makes the switch that it asks for. -/
theorem ensures_locked (hcore : s.core? s.currentCore = some core)
    (hid : core.id = s.currentCore) (h : core.Sound size)
    {operation : CoreId → Action (α × Option Switch)} {post : Except Stop α → System → Prop}
    (hop : Ensures (s.withCore core.id core.drained) (operation core.id) fun r s₁ =>
      match r with
      | .ok (value, switch) => ∃ core₁, s₁.core? core.id = some core₁ ∧
          core₁.scheduler.Resolved switch ∧
          post (.ok value) (s₁.withCore core.id core₁.publish)
      | .error (.failed e) => e.isFatal = false ∧ ∃ core₁, s₁.core? core.id = some core₁ ∧
          post (.error (.failed e)) (s₁.withCore core.id core₁.publish)
      | .error (.halted _) => False) : Ensures s (locked operation) post := by
  refine Ensures.localCore hcore (Ensures.quiet (quiet_onMachine fun _ => rfl) fun enabled => ?_)
  rw [← hid] at hcore
  refine Ensures.bind_ok (ensures_drainInbox hcore h) (Ensures.bind (Ensures.attempt ?_))
  refine hop.mono fun r s₁ hr => ?_
  match r with
  | .ok (value, switch) =>
    obtain ⟨core₁, hcore₁, hres, hpost⟩ := hr
    refine ensures_prepareSwitch hcore₁ hres fun prepared => ?_
    refine Ensures.bind_ok (Ensures.updateCore hcore₁ _ ⟨rfl, rfl⟩) ?_
    exact Ensures.quiet (quiet_performSwitch prepared) fun _ =>
      Ensures.quiet (quiet_unmask enabled) fun _ => Ensures.pure hpost
  | .error (.failed e) =>
    obtain ⟨hfatal, core₁, hcore₁, hpost⟩ := hr
    dsimp only
    rw [if_neg (by rw [hfatal]; decide)]
    refine Ensures.bind_ok (Ensures.updateCore hcore₁ _ ⟨rfl, rfl⟩) ?_
    exact Ensures.quiet (quiet_unmask enabled) fun _ => Ensures.fail hpost
  | .error (.halted _) => exact hr.elim

end Microkernel.Kernel
