/-
The cleanup task and the tasks that are over.

A task that is over waits on its core until the cleanup task reclaims it. A scheduler is `Tended` if
its cleanup task is ready while tasks wait to be reclaimed.

* **`Coherent.tends_tick`**, **`Coherent.tends_deliver`** and so on: most operations leave the ready
  tasks ready;
* **`Coherent.tends_block`**, **`Coherent.tends_receive`**: so do those that block a task, if it is
  not the cleanup task;
* **`Tended.exit`**, **`Tended.park`**: a task that ends wakes the cleanup task, which is parked
  only while no task waits to be reclaimed.

Design notes: a scheduler gets its idle task and its cleanup task together, so that the idle task
stands for both where it matters whether there are any.
-/
import Microkernel.Proofs.Scheduler.Holdings
import Microkernel.Proofs.Scheduler.Rotation

namespace Microkernel.Scheduler

variable {s s' s₁ : Scheduler} {ring waiting : List TaskId} {id : TaskId}

/-! ### Tended schedulers -/

/-- No task waits to be reclaimed while the cleanup task is blocked. -/
structure Tended (s : Scheduler) : Prop where
  coherent : s.Coherent
  appointed : s.idle.isSome = true → s.cleanup.isSome = true
  awake : s.exited ≠ [] → ∀ id, s.cleanup = some id → id ∈ s.ready.toList

theorem tended_new (core : CoreId) (timeslice : Nat) : (new core timeslice).Tended where
  coherent := coherent_new core timeslice
  appointed h := by cases h
  awake h := absurd rfl h

/-- The cleanup task is the same, and is ready if it was. -/
structure Tends (s s' : Scheduler) : Prop where
  idle : s'.idle = s.idle
  cleanup : s'.cleanup = s.cleanup
  exited : s'.exited = s.exited
  ready : ∀ id, s.cleanup = some id → id ∈ s.ready.toList → id ∈ s'.ready.toList

theorem Tends.refl (s : Scheduler) : Tends s s :=
  ⟨rfl, rfl, rfl, fun _ _ h => h⟩

theorem Tends.trans (h : Tends s s₁) (h' : Tends s₁ s') : Tends s s' where
  idle := h'.idle.trans h.idle
  cleanup := h'.cleanup.trans h.cleanup
  exited := h'.exited.trans h.exited
  ready id hid hready := h'.ready id (h.cleanup.trans hid) (h.ready id hid hready)

theorem Tended.of_tends (h : s.Tended) (ht : Tends s s') (hco : s'.Coherent) : s'.Tended where
  coherent := hco
  appointed hidle := by
    rw [ht.cleanup]
    exact h.appointed (ht.idle ▸ hidle)
  awake hsome id hid := by
    rw [ht.exited] at hsome
    rw [ht.cleanup] at hid
    exact ht.ready id hid (h.awake hsome id hid)

theorem Rearranged.tends (h : Rearranged s s')
    (hready : ∀ id, s.cleanup = some id → id ∈ s.ready.toList → id ∈ s'.ready.toList) :
    Tends s s' :=
  ⟨h.idle, h.cleanup, h.exited, hready⟩

/-! ### Operations that leave the ready tasks ready -/

theorem Grown.mem_ready (h : Grown s s') (hring : s.ready.Spells ring) (hid : id ∈ ring) :
    id ∈ s'.ready.toList := by
  obtain ⟨added, hadded⟩ := h.ready ring hring
  rw [hadded.toList_eq]
  exact List.mem_append_left added hid

theorem Grown.selectNext (s : Scheduler) (hint : Option TaskId) :
    Grown s (s.selectNext hint).2 := by
  rw [Scheduler.selectNext]
  split
  · exact unblockWakeable s
  · split
    · exact refl s
    · split <;> exact refl s

theorem mem_ready_switchToNext (hring : s.ready.Spells ring) (hid : id ∈ ring)
    (hint : Option TaskId) (preempted : Bool) :
    id ∈ (s.switchToNext hint preempted).2.ready.toList := by
  rw [ready_switchToNext]
  exact (Grown.selectNext s hint).mem_ready hring hid

namespace Coherent

variable (h : s.Coherent)

include h

theorem tends_start : Tends s s.start.2 := by
  refine (h.start (Prod.eta s.start).symm).2.2.tends fun id _ hid => ?_
  have hring : ({ s with started := true } : Scheduler).ready.Spells s.ready.toList :=
    h.queued.ready
  exact mem_ready_switchToNext hring hid none false

theorem tends_reschedule : Tends s s.reschedule.2 := by
  refine (h.reschedule (Prod.eta s.reschedule).symm).2.2.tends fun id _ hid => ?_
  rw [Scheduler.reschedule]
  split
  · exact hid
  · exact mem_ready_switchToNext h.queued.ready hid none false

theorem tends_tick : Tends s s.tick.2 := by
  refine (h.tick (Prod.eta s.tick).symm).2.2.tends fun id _ hid => ?_
  cases hstarted : s.started with
  | true =>
    obtain ⟨added, hadded⟩ := (Grown.unblockWakeable s.advanced).ready _ h.queued.ready
    rw [tick_of_started hstarted]
    exact mem_ready_switchToNext hadded (List.mem_append_left added hid) none true
  | false =>
    rw [tick_of_stopped hstarted]
    exact hid

theorem tends_wake (id : TaskId) : Tends s (s.wake id).2 :=
  (h.wake id).2.tends fun _ _ hready => (Grown.wake s id).mem_ready h.queued.ready hready

theorem tends_changePriority (id : TaskId) (priority : Priority) :
    Tends s (s.changePriority id priority).2 :=
  (h.changePriority (Prod.eta (s.changePriority id priority)).symm).2.2.1.tends
    fun _ _ hready => (Grown.changePriority s id priority).mem_ready h.queued.ready hready

theorem tends_schedule (task : Task) : Tends s (s.schedule task).2 := by
  rcases h.schedule (Prod.eta (s.schedule task)).symm with
    ⟨-, -, hs⟩ | ⟨-, -, -, hj, -, hidle, hcleanup⟩
  · rw [hs]
    exact .refl s
  · exact ⟨hidle, hcleanup, hj.exited,
      fun _ _ hready => (Grown.schedule s task).mem_ready h.queued.ready hready⟩

theorem tends_deliver (recipient : TaskId) (message : Message) :
    Tends s (s.deliver recipient message).2 := by
  rcases h.deliver (Prod.eta (s.deliver recipient message)).symm with
    ⟨-, hs, -⟩ | ⟨-, -, -, ⟨-, -, hs, -⟩ | ⟨-, mailbox, -, -, -, hr, -⟩⟩
  · rw [hs]
    exact .refl s
  · rw [hs]
    exact .refl s
  · exact ⟨hr.idle, hr.cleanup, hr.exited,
      fun _ _ hready => (Grown.deliver s recipient message).mem_ready h.queued.ready hready⟩

/-! ### Taking over an inbox -/

theorem tends_joinAll (tasks : List Task) :
    (s.joinAll tasks).Coherent ∧ Tends s (s.joinAll tasks) := by
  induction tasks generalizing s with
  | nil => exact ⟨h, .refl s⟩
  | cons task tasks ih =>
    obtain ⟨hco, htends⟩ := ih (h.step (.schedule task)).1
    exact ⟨hco, (h.tends_schedule task).trans htends⟩

theorem tends_deliverAll (stalled : List TaskId) (mail : List Mail) :
    (s.deliverAll stalled mail).2.Coherent ∧ Tends s (s.deliverAll stalled mail).2 := by
  have hkept : ∀ s₁ : Scheduler, s₁.Coherent ∧ Tends s s₁ → ∀ recipient message,
      (s₁.deliver recipient message).2.Coherent ∧ Tends s (s₁.deliver recipient message).2 :=
    fun s₁ ⟨hco, htends⟩ recipient message =>
      ⟨(hco.step (.deliver recipient message)).1,
        htends.trans (hco.tends_deliver recipient message)⟩
  exact deliverAll_keeps hkept ⟨h, .refl s⟩ stalled mail

/-! ### Blocking -/

/-- Whoever blocks is the only one that leaves the ring. -/
theorem mem_ready_suspended {j : TaskId} (hid : s.working? = some id) (hj : j ∈ s.ready.toList)
    (hne : j ≠ id) (reason : BlockReason) (hint : Option TaskId) :
    j ∈ ((s.suspended id reason).switchToNext hint false).2.ready.toList := by
  obtain ⟨a, b, hab⟩ := h.ready_of_working? hid
  obtain ⟨waiting, -, hq, -⟩ := h.queued.suspend hab reason
  have hrest : j ∈ a ++ b := by
    rw [hab] at hj
    grind
  exact mem_ready_switchToNext hq.ready hrest hint false

theorem tends_block (hcurrent : ∀ id, s.cleanup = some id → s.current ≠ some id)
    (reason : BlockReason) : Tends s (s.block reason).2 := by
  cases hid : s.working? with
  | none =>
    rw [block_eq_of_none hid]
    exact .refl s
  | some id =>
    rcases h.block (Prod.eta (s.block reason)).symm with ⟨-, hnone, -⟩ | ⟨-, -, -, -, hr⟩
    · rw [hid] at hnone
      cases hnone
    · refine hr.tends fun j hj hready => ?_
      rw [h.block_eq hid]
      refine h.mem_ready_suspended hid hready (fun he => hcurrent j hj ?_) reason _
      rw [he]
      exact (working?_eq_some hid).1

theorem tends_receive (hcurrent : ∀ id, s.cleanup = some id → s.current ≠ some id)
    (filter : Option Filter) : Tends s (s.receive filter).2 := by
  rcases h.receive_cases filter with hs | ⟨id, t, mailbox, hid, -, hs | ⟨-, hs⟩⟩
  · rw [hs]
    exact .refl s
  all_goals
    have hmailbox : Tends s (s.withMailbox id mailbox) := ⟨rfl, rfl, rfl, fun _ _ hj => hj⟩
    rw [hs]
  · exact hmailbox
  · have hco := h.withMailbox id mailbox
    have hworking : (s.withMailbox id mailbox).working? = some id := hid
    have hwaits := hco.tends_block hcurrent (.mail (filter.map fun _ => mailbox.sends))
    rw [hco.block_eq hworking] at hwaits
    exact hmailbox.trans hwaits

end Coherent

/-! ### The end of tasks -/

/-- The cleanup task is ready once it was woken. -/
theorem Queued.mem_ready_wakeCleanup (h : s.Queued ring waiting) (hid : s.cleanup = some id) :
    ∃ ring' waiting', s.wakeCleanup.Queued ring' waiting' ∧ id ∈ ring' := by
  rw [Scheduler.wakeCleanup, hid]
  dsimp only
  rw [Scheduler.wake]
  split
  · rename_i hblocked
    obtain ⟨a, b, hab⟩ := List.append_of_mem ((h.blocked.contains_iff id).1 hblocked)
    exact ⟨_, _, (h.makeReady hab).1, List.mem_append_right _ (List.mem_singleton.2 rfl)⟩
  · rename_i hblocked
    exact ⟨ring, waiting, h, (h.cleanup id hid).resolve_right
      fun hin => hblocked ((h.blocked.contains_iff id).2 hin)⟩

namespace Tended

variable (h : s.Tended)

include h

/-- A task that ends wakes the cleanup task. -/
theorem exit : s.exit.2.Tended := by
  rcases h.coherent.exit (Prod.eta s.exit).symm with
    ⟨-, hs⟩ | ⟨id, t, switch, -, hid, hcleanup, ht, hco, -, hr⟩
  · rw [hs]
    exact h
  · refine ⟨hco, fun hidle => ?_, fun _ j hj => ?_⟩
    · rw [hr.cleanup]
      exact h.appointed (hr.idle ▸ hidle)
    · obtain ⟨a, b, hab⟩ := h.coherent.ready_of_working? hid
      have hj : (s.retired id t).cleanup = some j := hr.cleanup ▸ hj
      obtain ⟨ring', waiting', hq, hin⟩ :=
        (h.coherent.queued.retired hab hcleanup t).mem_ready_wakeCleanup hj
      rw [h.coherent.exit_eq hid hcleanup ht]
      exact mem_ready_switchToNext hq.ready hin _ false

theorem reap : s.reap.2.Tended :=
  ⟨h.coherent.reap, h.appointed, fun hsome => absurd rfl hsome⟩

/-- Whoever blocks while no task waits to be reclaimed, strands none. -/
theorem park (hnone : s.exited = []) (reason : BlockReason) : (s.block reason).2.Tended := by
  rcases h.coherent.block (Prod.eta (s.block reason)).symm with ⟨-, -, hs⟩ | ⟨-, -, hco, -, hr⟩
  · rw [hs]
    exact h
  · refine ⟨hco, fun hidle => ?_, fun hsome => ?_⟩
    · rw [hr.cleanup]
      exact h.appointed (hr.idle ▸ hidle)
    · rw [hr.exited] at hsome
      exact absurd hnone hsome

end Tended

/-- The cleanup task is ready when it is installed. -/
theorem Coherent.tended_installServants (h : s.Coherent) (hnone : ∀ id, s.contains id = false)
    {idle cleanup : Task} (hne : cleanup.id ≠ idle.id) :
    ((s.installIdle idle).2.installCleanup cleanup).2.Tended := by
  obtain ⟨s₁, s₂, hs₁, hs₂, hco, hj, -⟩ := h.installServants hnone hne
  have hfresh : s₁.contains cleanup.id = false := hj.contains_eq_false (hnone _) hne
  have hco₁ : s₁.Coherent := by
    have hstep := (h.step (.installIdle idle)).1
    have hsame : (s.step (.installIdle idle)).2 = s₁ := congrArg Prod.snd hs₁
    rwa [hsame] at hstep
  rcases hco₁.schedule (Prod.eta (s₁.schedule cleanup)).symm with
    ⟨-, hrefused, -⟩ | ⟨hok, -, -, -, hready, -, -⟩
  · rw [hfresh] at hrefused
    cases hrefused
  · have hsame : s₂ = { (s₁.schedule cleanup).2 with cleanup := some cleanup.id } := by
      have hjoined : s₁.schedule cleanup = (.ok (), (s₁.schedule cleanup).2) := Prod.ext hok rfl
      rw [Scheduler.installCleanup, hjoined] at hs₂
      exact (congrArg Prod.snd hs₂).symm
    rw [hs₁]
    show (s₁.installCleanup cleanup).2.Tended
    rw [hs₂]
    refine ⟨hco, fun _ => by rw [hsame]; rfl, fun _ id hid => ?_⟩
    rw [hsame] at hid ⊢
    cases hid
    exact hready

end Microkernel.Scheduler
