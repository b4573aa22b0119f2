/-
How many tasks are readied.

`s.readied s' suspended` counts the tasks that have gone from the blocked queue of a scheduler to
its ready ring on the way from `s` to `s'`, where `suspended` is the task that was queued as blocked
on that way, if one was.

* **`Shifts.readied_add`**: whoever was blocked, or was queued as blocked on the way, is blocked
  still or was readied;
* **`Prompt.step`**: as long as the ready ring is empty, no blocked task's wait is over
  (`Scheduler.Prompt`), whatever is asked of the scheduler;
* **`Prompt.readies_reschedule`**, **`Prompt.readies_start`**: so the choice of a first task readies
  nobody;
* **`Prompt.readies_deliver`**, **`Prompt.readies_wake`**, **`Prompt.readies_tick`**: what is
  readied otherwise can be told from the answer, or from the length of the blocked queue;
* **`Prompt.stirs_block`**, **`Prompt.stirs_receive`**, **`Prompt.stirs_exit`**: when the current
  task blocks or ends, the choice that follows may ready others.

Design notes: a task is readied by its id alone, so two schedulers and the task that was suspended
in between tell who was. That the same task is readied twice on the way is not counted; between two
states that one operation relates it cannot be.
-/
import Microkernel.Proofs.Scheduler.Order
import Microkernel.Proofs.Scheduler.RoundRobin

namespace Microkernel.Scheduler

variable {s s' s'' : Scheduler} {ring waiting : List TaskId} {left suspended : Option TaskId}

/-- How many tasks that were blocked in `s`, or were suspended since, are in the ready ring of
`s'`. -/
def readied (s s' : Scheduler) (suspended : Option TaskId) : Nat :=
  ((s.blocked.toList ++ suspended.toList).filter s'.ready.contains).length

/-! ### Who moves -/

/-- On the way from `s` to `s'` at most the task `left` leaves the ready ring, and at most the task
`suspended` is queued as blocked. -/
structure Shifts (left suspended : Option TaskId) (s s' : Scheduler) : Prop where
  blocked : ∀ id ∈ s'.blocked.toList, id ∈ s.blocked.toList ∨ suspended = some id
  kept : ∀ id, id ∈ s.blocked.toList ∨ suspended = some id →
    id ∈ s'.blocked.toList ∨ id ∈ s'.ready.toList
  ready : ∀ id ∈ s.ready.toList, id ∈ s'.ready.toList ∨ left = some id

/-- Tasks only go from the blocked queue to the ready ring. -/
abbrev Drifts (s s' : Scheduler) : Prop :=
  Shifts none none s s'

theorem Drifts.of_ready (hblocked : s'.blocked = s.blocked)
    (hready : ∀ id ∈ s.ready.toList, id ∈ s'.ready.toList) : Drifts s s' where
  blocked _ hid := .inl (hblocked ▸ hid)
  kept _ hid := .inl (hblocked ▸ hid.resolve_right nofun)
  ready id hid := .inl (hready id hid)

theorem Drifts.of_eq (hready : s'.ready = s.ready) (hblocked : s'.blocked = s.blocked) :
    Drifts s s' :=
  .of_ready hblocked fun _ hid => hready ▸ hid

theorem Drifts.refl (s : Scheduler) : Drifts s s :=
  .of_eq rfl rfl

theorem Shifts.drifts (h : Shifts left suspended s s') (h' : Drifts s' s'') :
    Shifts left suspended s s'' where
  blocked id hid := h.blocked id ((h'.blocked id hid).resolve_right nofun)
  kept id hid := by
    rcases h.kept id hid with hblocked | hready
    · exact h'.kept id (.inl hblocked)
    · exact .inr ((h'.ready id hready).resolve_right nofun)
  ready id hid := by
    rcases h.ready id hid with hready | hleft
    · exact .inl ((h'.ready id hready).resolve_right nofun)
    · exact .inr hleft

/-- The task that leaves the ring was not blocked before, unless it is blocked anyway. -/
theorem Drifts.shifts (h : Drifts s s') (h' : Shifts left suspended s' s'')
    (hleft : ∀ id, left = some id → id ∉ s.blocked.toList ∨ suspended = some id) :
    Shifts left suspended s s'' where
  blocked id hid := by
    rcases h'.blocked id hid with hblocked | hsuspended
    · exact .inl ((h.blocked id hblocked).resolve_right nofun)
    · exact .inr hsuspended
  kept id hid := by
    rcases hid with hblocked | hsuspended
    · rcases h.kept id (.inl hblocked) with hblocked' | hready
      · exact h'.kept id (.inl hblocked')
      · rcases h'.ready id hready with hready' | hgone
        · exact .inr hready'
        · rcases hleft id hgone with hnot | hsuspended
          · exact absurd hblocked hnot
          · exact h'.kept id (.inr hsuspended)
    · exact h'.kept id (.inr hsuspended)
  ready id hid := h'.ready id ((h.ready id hid).resolve_right nofun)

theorem Drifts.trans (h : Drifts s s') (h' : Drifts s' s'') : Drifts s s'' :=
  h.drifts h'

theorem Queued.length_blocked (h : s.Queued ring waiting) :
    s.blocked.length = s.blocked.toList.length := by
  rw [h.blocked.toList_eq, h.blocked.length]

/-- Whoever was blocked, or was suspended on the way, is blocked still or was readied. -/
theorem Shifts.readied_add (h : Shifts left suspended s s') (hc : s.Coherent) (hc' : s'.Coherent)
    (hnew : ∀ id, suspended = some id → id ∉ s.blocked.toList) :
    s.readied s' suspended + s'.blocked.length =
      s.blocked.length + suspended.toList.length := by
  have hnodup : (s.blocked.toList ++ suspended.toList).Nodup := by
    refine List.nodup_append.2 ⟨hc.queued.blocked.nodup, by cases suspended <;> simp, ?_⟩
    rintro id hid j hj rfl
    exact hnew id (Option.mem_toList.1 hj) hid
  -- those that were not readied are the blocked ones
  have hrest : s'.blocked.toList.Perm
      ((s.blocked.toList ++ suspended.toList).filter fun id => !s'.ready.contains id) := by
    refine (List.perm_ext_iff_of_nodup hc'.queued.blocked.nodup (hnodup.filter _)).2 fun id => ?_
    have hready : (!s'.ready.contains id) = true ↔ id ∉ s'.ready.toList := by
      rw [Bool.not_eq_true', ← Bool.not_eq_true, hc'.queued.ready.contains_iff]
    have hmem : id ∈ s.blocked.toList ++ suspended.toList ↔
        id ∈ s.blocked.toList ∨ suspended = some id := by
      rw [List.mem_append, Option.mem_toList]
    rw [List.mem_filter, hready, hmem]
    constructor
    · exact fun hid => ⟨h.blocked id hid, fun hin => hc'.queued.apart id hin hid⟩
    · exact fun ⟨hid, hnot⟩ => (h.kept id hid).resolve_right hnot
  have hsplit := List.length_eq_length_filter_add (l := s.blocked.toList ++ suspended.toList)
    s'.ready.contains
  rw [List.length_append] at hsplit
  rw [readied, hc.queued.length_blocked, hc'.queued.length_blocked, hrest.length_eq]
  exact hsplit.symm

theorem Drifts.readied_add (h : Drifts s s') (hc : s.Coherent) (hc' : s'.Coherent) :
    s.readied s' none + s'.blocked.length = s.blocked.length := by
  simpa using Shifts.readied_add h hc hc' nofun

/-! ### Choosing and waking -/

theorem Queued.drifts_makeReady (h : s.Queued ring waiting) {id : TaskId} (hid : id ∈ waiting) :
    Drifts s (s.makeReady id) ∧ (s.makeReady id).blocked.length + 1 = s.blocked.length := by
  obtain ⟨a, b, rfl⟩ := List.append_of_mem hid
  obtain ⟨hq, -⟩ := h.makeReady rfl
  refine ⟨⟨?_, ?_, ?_⟩, ?_⟩
  · rw [hq.blocked.toList_eq, h.blocked.toList_eq]
    grind
  · rw [hq.blocked.toList_eq, hq.ready.toList_eq, h.blocked.toList_eq]
    grind
  · rw [hq.ready.toList_eq, h.ready.toList_eq]
    grind
  · rw [hq.blocked.length, h.blocked.length]
    simp only [List.length_append, List.length_cons]
    omega

theorem Queued.drifts_unblockWakeable (h : s.Queued ring waiting) :
    Drifts s s.unblockWakeable.2 := by
  obtain ⟨hq, -⟩ := h.unblockWakeable
  constructor
  · rw [hq.blocked.toList_eq, h.blocked.toList_eq]
    exact fun id hid => .inl (List.mem_filter.1 hid).1
  · rw [hq.blocked.toList_eq, hq.ready.toList_eq, h.blocked.toList_eq]
    grind
  · rw [hq.ready.toList_eq, h.ready.toList_eq]
    exact fun id hid => .inl (List.mem_append_left _ hid)

theorem Queued.drifts_selectNext (h : s.Queued ring waiting) (hint : Option TaskId) :
    Drifts s (s.selectNext hint).2 := by
  rw [Scheduler.selectNext]
  split
  · exact h.drifts_unblockWakeable
  · split
    · exact .refl s
    · split <;> exact .refl s

theorem queues_enter (s : Scheduler) (previous : Option TaskId) (next : TaskId) :
    (s.enter previous next).ready = s.ready ∧ (s.enter previous next).blocked = s.blocked := by
  cases previous <;> exact ⟨rfl, rfl⟩

theorem queues_switchToNext (s : Scheduler) (hint : Option TaskId) (preempted : Bool) :
    (s.switchToNext hint preempted).2.ready = (s.selectNext hint).2.ready ∧
      (s.switchToNext hint preempted).2.blocked = (s.selectNext hint).2.blocked := by
  rcases s.switchToNext_cases hint preempted with hs | hs | ⟨next, -, hs⟩ <;> rw [hs]
  · exact ⟨rfl, rfl⟩
  · exact ⟨rfl, rfl⟩
  · exact queues_enter _ _ _

theorem Queued.drifts_switchToNext (h : s.Queued ring waiting) (hint : Option TaskId)
    (preempted : Bool) : Drifts s (s.switchToNext hint preempted).2 := by
  obtain ⟨hready, hblocked⟩ := s.queues_switchToNext hint preempted
  exact (h.drifts_selectNext hint).trans (.of_eq hready hblocked)

theorem Queued.drifts_wake (h : s.Queued ring waiting) (id : TaskId) :
    Drifts s (s.wake id).2 := by
  rw [Scheduler.wake]
  split
  · rename_i hid
    exact (h.drifts_makeReady ((h.blocked.contains_iff id).1 hid)).1
  · exact .refl s

theorem Queued.drifts_wakeCleanup (h : s.Queued ring waiting) : Drifts s s.wakeCleanup := by
  rw [Scheduler.wakeCleanup]
  split
  · exact h.drifts_wake _
  · exact .refl s

theorem Coherent.drifts_reschedule (h : s.Coherent) : Drifts s s.reschedule.2 := by
  rw [Scheduler.reschedule]
  split
  · exact .refl s
  · exact h.queued.drifts_switchToNext none false

theorem Coherent.drifts_start (h : s.Coherent) : Drifts s s.start.2 := by
  have hq : ({ s with started := true } : Scheduler).Queued s.ready.toList s.blocked.toList :=
    h.queued.congr rfl rfl rfl rfl rfl
  have hstarted : Drifts s { s with started := true } := .of_eq rfl rfl
  exact hstarted.trans (hq.drifts_switchToNext none false)

theorem Coherent.drifts_tick (h : s.Coherent) : Drifts s s.tick.2 := by
  cases hstarted : s.started with
  | false =>
    rw [tick_of_stopped hstarted]
    exact .refl s
  | true =>
    rw [tick_of_started hstarted]
    have hadvanced : Drifts s s.advanced := .of_eq rfl rfl
    have hq := h.queued.advanced
    exact (hadvanced.trans hq.drifts_unblockWakeable).trans
      (hq.unblockWakeable.1.drifts_switchToNext none true)

theorem drifts_schedule (h : s.Coherent) (task : Task) : Drifts s (s.schedule task).2 := by
  rw [Scheduler.schedule]
  split
  · exact .refl s
  · rename_i hfresh
    have hnot : task.id ∉ s.ready.toList := by
      intro hin
      rw [h.queued.contains_of_ready hin] at hfresh
      exact hfresh rfl
    refine .of_ready rfl fun id hid => ?_
    rw [(h.queued.ready.append hnot).toList_eq]
    exact List.mem_append_left _ hid

/-! ### Blocking and ending -/

/-- The task that blocks is queued as blocked, and may be readied by the choice that follows. -/
theorem Coherent.shifts_suspended (h : s.Coherent) {id : TaskId} (hid : s.working? = some id)
    (reason : BlockReason) (hint : Option TaskId) :
    Shifts (some id) (some id) s ((s.suspended id reason).switchToNext hint false).2 := by
  obtain ⟨a, b, hab⟩ := h.ready_of_working? hid
  obtain ⟨waiting', hmem, hq, -⟩ := h.queued.suspend hab reason
  have hsuspended : Shifts (some id) (some id) s (s.suspended id reason) := by
    have hblocked : (s.suspended id reason).blocked.toList = waiting' := hq.blocked.toList_eq
    have hready : (s.suspended id reason).ready.toList = a ++ b := hq.ready.toList_eq
    refine ⟨fun j hj => ?_, fun j hj => .inl ?_, fun j hj => ?_⟩
    · rw [hblocked, hmem] at hj
      grind
    · rw [hblocked, hmem]
      grind
    · rw [hab] at hj
      rw [hready]
      grind
  exact hsuspended.drifts (hq.drifts_switchToNext hint false)

theorem Coherent.shifts_block (h : s.Coherent) {id : TaskId} (hid : s.working? = some id)
    (reason : BlockReason) : Shifts (some id) (some id) s (s.block reason).2 := by
  rw [h.block_eq hid]
  exact h.shifts_suspended hid reason _

/-- Whoever asks for mail and has to wait is queued as blocked; nobody moves otherwise. -/
theorem Coherent.shifts_receive (h : s.Coherent) (filter : Option Filter) :
    (∃ id switch, s.working? = some id ∧ (s.receive filter).1 = .ok (.waiting switch) ∧
        Shifts (some id) (some id) s (s.receive filter).2) ∨
      ((∀ switch, (s.receive filter).1 ≠ .ok (.waiting switch)) ∧
        Drifts s (s.receive filter).2) := by
  cases hworking : s.working? with
  | none =>
    rw [receive_eq_of_none hworking]
    exact .inr ⟨nofun, .refl s⟩
  | some id =>
    obtain ⟨t, ht⟩ := Option.isSome_iff_exists.1
      (h.contains_current (working?_eq_some hworking).1)
    rcases htake : takeMessage t.mailbox filter with ⟨result, mailbox⟩
    have hkept : Drifts s (s.withMailbox id mailbox) := .of_eq rfl rfl
    rw [h.receive_eq hworking ht htake]
    match result with
    | .error e => exact .inr ⟨nofun, hkept⟩
    | .ok (some message) => exact .inr ⟨nofun, hkept⟩
    | .ok none =>
      refine .inl ⟨id, _, rfl, rfl, ?_⟩
      exact hkept.shifts ((h.withMailbox id mailbox).shifts_suspended hworking _ _)
        fun _ hid => .inr hid

/-- A task that ends leaves the ring and is blocked nowhere. -/
theorem Coherent.shifts_exit (h : s.Coherent) :
    Drifts s s.exit.2 ∨ ∃ id, s.working? = some id ∧ Shifts (some id) none s s.exit.2 := by
  by_cases hnone : s.working? = none ∨ s.working? = s.cleanup
  · rw [exit_eq_of_none hnone]
    exact .inl (.refl s)
  · obtain ⟨hworking, hcleanup⟩ := not_or.1 hnone
    obtain ⟨id, hid⟩ := Option.ne_none_iff_exists'.1 hworking
    have hcleanup : s.cleanup ≠ some id := fun e => hcleanup (hid.trans e.symm)
    obtain ⟨t, ht⟩ := Option.isSome_iff_exists.1 (h.contains_current (working?_eq_some hid).1)
    obtain ⟨a, b, hab⟩ := h.ready_of_working? hid
    have hq := h.queued.retired hab hcleanup t
    have hretired : Shifts (some id) none s (s.retired id t) := by
      refine ⟨fun j hj => .inl hj, fun j hj => .inl (hj.resolve_right nofun), fun j hj => ?_⟩
      rw [hab] at hj
      rw [hq.ready.toList_eq]
      grind
    obtain ⟨ring', waiting', hq', -⟩ := hq.wakeCleanup
    refine .inr ⟨id, hid, ?_⟩
    rw [h.exit_eq hid hcleanup ht]
    exact (hretired.drifts hq.drifts_wakeCleanup).drifts (hq'.drifts_switchToNext _ false)

/-! ### Nobody is overdue -/

/-- A delivery is refused, or it ends a wait, or the mail stays in the mailbox. -/
theorem deliver_cases (s : Scheduler) (recipient : TaskId) (message : Message) :
    (∃ e, s.deliver recipient message = (.error e, s)) ∨
      ∃ t mailbox, s.task? recipient = some t ∧
        ((t.state = .blocked ∧ ({ t with mailbox := mailbox } : Task).isWakeable s.elapsed = true ∧
            s.deliver recipient message =
              (.ok true, (s.withMailbox recipient mailbox).makeReady recipient)) ∨
          (¬ (t.state = .blocked ∧
              ({ t with mailbox := mailbox } : Task).isWakeable s.elapsed = true) ∧
            s.deliver recipient message = (.ok false, s.withMailbox recipient mailbox))) := by
  rw [Scheduler.deliver]
  split
  · exact .inl ⟨_, rfl⟩
  · cases ht : s.task? recipient with
    | none => exact .inl ⟨_, rfl⟩
    | some t =>
      dsimp only
      cases t.mailbox.send message with
      | error e => exact .inl ⟨e, rfl⟩
      | ok mailbox =>
        refine .inr ⟨t, mailbox, rfl, ?_⟩
        dsimp only
        split
        · rename_i hwake
          exact .inl ⟨hwake.1, hwake.2, rfl⟩
        · rename_i hasleep
          exact .inr ⟨hasleep, rfl⟩

/-- No blocked task's wait is over. -/
def NoneDue (s : Scheduler) : Prop :=
  ∀ id ∈ s.blocked.toList, s.isWakeable id = false

/-- The wait of no blocked task is over as long as the ready ring is empty. -/
structure Prompt (s : Scheduler) : Prop where
  settled : s.Settled fun _ _ => True
  due : s.ready.toList = [] → s.NoneDue

theorem isWakeable_modifyTask {f : Task → Task} {id : TaskId}
    (hf : ∀ t, s.task? id = some t → (f t).isWakeable s.elapsed = t.isWakeable s.elapsed)
    (j : TaskId) : (s.modifyTask id f).isWakeable j = s.isWakeable j := by
  have hdef : (s.modifyTask id f).isWakeable j =
      ((s.modifyTask id f).task? j).any fun t => t.isWakeable s.elapsed := rfl
  rw [hdef, isWakeable, task?_modifyTask]
  by_cases hj : j = id
  · subst hj
    rw [if_pos rfl]
    cases ht : s.task? j with
    | none => rfl
    | some t => exact hf t ht
  · rw [if_neg hj]

/-- A choice that leaves the ring empty has found nobody to ready. -/
theorem Queued.due_selectNext (h : s.Queued ring waiting) (hint : Option TaskId)
    (hempty : (s.selectNext hint).2.ready.toList = []) : (s.selectNext hint).2.NoneDue := by
  revert hempty
  rw [Scheduler.selectNext]
  split
  · intro hempty
    obtain ⟨hq, -⟩ := h.unblockWakeable
    rw [hq.ready.toList_eq] at hempty
    have hdue := (List.append_eq_nil_iff.1 hempty).2
    have hnone : s.NoneDue := by
      rw [NoneDue, h.blocked.toList_eq]
      exact fun id hid => Bool.eq_false_iff.2 (List.filter_eq_nil_iff.1 hdue id hid)
    dsimp only
    rwa [unblockWakeable_of_quiet hnone]
  · rename_i hready
    have hne : s.ready.toList ≠ [] := by
      rw [h.ready.toList_eq]
      exact fun e => hready (h.ready.isEmpty_iff.2 e)
    intro hempty
    refine absurd ?_ hne
    revert hempty
    split
    · exact id
    · split <;> exact id

theorem isWakeable_pause (t : Task) (elapsed : Nat) :
    (pause t).isWakeable elapsed = t.isWakeable elapsed := by
  rw [pause]
  split
  · rename_i hrunning
    simp [Task.isWakeable, hrunning]
  · rfl

/-- Whoever is entered was not blocked. -/
theorem NoneDue.enter (h : s.NoneDue) (previous : Option TaskId) {next : TaskId}
    (hnext : next ∉ s.blocked.toList) : (s.enter previous next).NoneDue := by
  have hpaused : ∀ paused : Scheduler, paused.blocked = s.blocked →
      (∀ id, paused.isWakeable id = s.isWakeable id) → (paused.modifyTask next fun t =>
        { t with state := .running, lastCore := some s.core }).NoneDue := by
    intro paused hblocked hsame id hid
    have hid : id ∈ s.blocked.toList := hblocked ▸ hid
    have hne : id ≠ next := fun e => hnext (e ▸ hid)
    have htask := task?_modifyTask (s := paused) next
      (fun t => { t with state := .running, lastCore := some s.core }) id
    rw [if_neg hne] at htask
    rw [isWakeable, htask]
    exact (hsame id).trans (h id hid)
  cases previous with
  | none => exact hpaused s rfl fun _ => rfl
  | some id =>
    exact hpaused (s.modifyTask id pause) rfl
      (isWakeable_modifyTask fun t _ => isWakeable_pause t s.elapsed)

theorem Queued.due_switchToNext (h : s.Queued ring waiting) (hint : Option TaskId)
    (preempted : Bool) (hempty : (s.switchToNext hint preempted).2.ready.toList = []) :
    (s.switchToNext hint preempted).2.NoneDue := by
  rw [(s.queues_switchToNext hint preempted).1] at hempty
  have hdue := h.due_selectNext hint hempty
  obtain ⟨ring', waiting', hq, -⟩ := h.selectNext hint
  rcases h.switchToNext_cases hint preempted with hs | hs | ⟨next, hnext, hs⟩ <;> rw [hs]
  · exact hdue
  · exact hdue
  · refine hdue.enter s.current ?_
    rw [hq.blocked.toList_eq, ← hq.blocked.contains_iff, hnext]
    exact Bool.false_ne_true

/-- A ring that takes in a task is not empty. -/
theorem not_empty_append {q : TaskQueue} {l : List TaskId} (h : q.Spells l) (id : TaskId) :
    (q.append id).2.toList ≠ [] := by
  by_cases hid : id ∈ l
  · rw [h.append_of_mem hid, h.toList_eq]
    exact List.ne_nil_of_mem hid
  · rw [(h.append hid).toList_eq]
    simp

namespace Prompt

theorem coherent (h : s.Prompt) : s.Coherent :=
  h.settled.coherent

theorem new (core : CoreId) (timeslice : Nat) : (new core timeslice).Prompt :=
  ⟨settled_new core timeslice, fun _ id hid => by cases hid⟩

/-- A task that sleeps is as wakeable as it was, whatever mail it gets; a task that waits for mail
is readied by mail that ends its wait. -/
theorem due_deliver (h : s.Prompt) (recipient : TaskId) (message : Message)
    (hempty : (s.deliver recipient message).2.ready.toList = []) :
    (s.deliver recipient message).2.NoneDue := by
  rcases s.deliver_cases recipient message with
    ⟨e, hs⟩ | ⟨t, mailbox, ht, ⟨-, -, hs⟩ | ⟨hasleep, hs⟩⟩ <;> rw [hs] at hempty ⊢
  · exact h.due hempty
  · exact absurd hempty (not_empty_append h.coherent.queued.ready recipient)
  · intro id hid
    have hdue := h.due hempty id hid
    have htask := task?_withMailbox (s := s) recipient mailbox id
    by_cases hrecipient : id = recipient
    · subst hrecipient
      have hobeys := h.settled.obeys id t ht
      rw [(h.coherent.queued.blocked.contains_iff id).2 hid] at hobeys
      have hsame : (s.withMailbox id mailbox).isWakeable id =
          ({ t with mailbox := mailbox } : Task).isWakeable s.elapsed := by
        rw [isWakeable, htask, if_pos rfl, ht]
        rfl
      refine hsame.trans ?_
      rcases hobeys with hblocked | ⟨hsleeping, -⟩
      · exact Bool.eq_false_iff.2 fun hwakes => hasleep ⟨hblocked, hwakes⟩
      · rw [isWakeable, ht, Option.any_some, Task.isWakeable, hsleeping] at hdue
        rw [Task.isWakeable, hsleeping]
        exact hdue
    · rw [if_neg hrecipient] at htask
      have hsame : (s.withMailbox recipient mailbox).isWakeable id = s.isWakeable id := by
        rw [isWakeable, htask]
        rfl
      exact hsame.trans hdue

/-- The task that asks for mail is in the ready ring until it is blocked. -/
theorem due_receive (h : s.Prompt) (filter : Option Filter)
    (hempty : (s.receive filter).2.ready.toList = []) : (s.receive filter).2.NoneDue := by
  rcases h.coherent.receive_cases filter with hs | ⟨id, t, mailbox, hworking, -, hs | ⟨-, hs⟩⟩ <;>
    rw [hs] at hempty ⊢
  · exact h.due hempty
  · obtain ⟨a, b, hab⟩ := h.coherent.ready_of_working? hworking
    have hring : s.ready.toList = [] := hempty
    rw [hab] at hring
    simp at hring
  · have hco := h.coherent.withMailbox id mailbox
    obtain ⟨a, b, hab⟩ := hco.ready_of_working? hworking
    obtain ⟨waiting', -, hq, -⟩ := hco.queued.suspend hab
      (.mail (filter.map fun _ => mailbox.sends))
    exact hq.due_switchToNext _ false hempty

theorem due_exit (h : s.Prompt) (hempty : s.exit.2.ready.toList = []) : s.exit.2.NoneDue := by
  by_cases hnone : s.working? = none ∨ s.working? = s.cleanup
  · rw [exit_eq_of_none hnone] at hempty ⊢
    exact h.due hempty
  · obtain ⟨hworking, hcleanup⟩ := not_or.1 hnone
    obtain ⟨id, hid⟩ := Option.ne_none_iff_exists'.1 hworking
    have hcleanup : s.cleanup ≠ some id := fun e => hcleanup (hid.trans e.symm)
    obtain ⟨t, ht⟩ := Option.isSome_iff_exists.1
      (h.coherent.contains_current (working?_eq_some hid).1)
    obtain ⟨a, b, hab⟩ := h.coherent.ready_of_working? hid
    obtain ⟨ring', waiting', hq, -⟩ := (h.coherent.queued.retired hab hcleanup t).wakeCleanup
    rw [h.coherent.exit_eq hid hcleanup ht] at hempty ⊢
    exact hq.due_switchToNext _ false hempty

theorem due_block (h : s.Prompt) (reason : BlockReason)
    (hempty : (s.block reason).2.ready.toList = []) : (s.block reason).2.NoneDue := by
  cases hworking : s.working? with
  | none =>
    rw [block_eq_of_none hworking] at hempty ⊢
    exact h.due hempty
  | some id =>
    obtain ⟨a, b, hab⟩ := h.coherent.ready_of_working? hworking
    obtain ⟨waiting', -, hq, -⟩ := h.coherent.queued.suspend hab reason
    rw [h.coherent.block_eq hworking] at hempty ⊢
    exact hq.due_switchToNext _ false hempty

/-- A new task is not blocked. -/
theorem due_installIdle (h : s.Prompt) (task : Task)
    (hempty : (s.installIdle task).2.ready.toList = []) : (s.installIdle task).2.NoneDue := by
  revert hempty
  rw [Scheduler.installIdle]
  split
  · exact h.due
  · rename_i haccepted
    have hfresh : s.contains task.id = false := by
      have hboth : s.contains task.id = false ∧ s.idle = none := by simpa using haccepted
      exact hboth.1
    intro hempty id hid
    have hne : id ≠ task.id := by
      rintro rfl
      rw [h.coherent.queued.contains_of_blocked hid] at hfresh
      cases hfresh
    have htask := Table.get?_insert s.tasks task.id
      { task with state := .ready, lastCore := some s.core } id
    rw [if_neg hne] at htask
    rw [isWakeable, task?, htask]
    exact h.due hempty id hid

theorem due_schedule (h : s.Prompt) (task : Task)
    (hempty : (s.schedule task).2.ready.toList = []) : (s.schedule task).2.NoneDue := by
  revert hempty
  rw [Scheduler.schedule]
  split
  · exact h.due
  · exact fun hempty => absurd hempty (not_empty_append h.coherent.queued.ready task.id)

theorem due_installCleanup (h : s.Prompt) (task : Task)
    (hempty : (s.installCleanup task).2.ready.toList = []) :
    (s.installCleanup task).2.NoneDue := by
  have hscheduled := h.due_schedule task
  revert hempty
  rw [Scheduler.installCleanup]
  split <;> rename_i hs <;> rw [hs] at hscheduled <;> exact hscheduled

theorem due_changePriority (h : s.Prompt) (id : TaskId) (priority : Priority)
    (hempty : (s.changePriority id priority).2.ready.toList = []) :
    (s.changePriority id priority).2.NoneDue := by
  revert hempty
  rw [Scheduler.changePriority]
  split
  · exact h.due
  · intro hempty j hj
    have hsame : (s.modifyTask id fun t => { t with priority := priority }).isWakeable j =
        s.isWakeable j :=
      isWakeable_modifyTask (fun t _ => by cases t; rfl) j
    exact hsame.trans (h.due hempty j hj)

theorem due_makeReady (h : s.Prompt) (id : TaskId)
    (hempty : (s.makeReady id).ready.toList = []) : (s.makeReady id).NoneDue :=
  absurd hempty (not_empty_append h.coherent.queued.ready id)

/-- Whatever is asked of the scheduler, nobody is overdue. -/
theorem step (h : s.Prompt) (operation : Operation) : (s.step operation).2.Prompt := by
  refine ⟨h.settled.step operation fun _ _ => trivial, fun hempty => ?_⟩
  have hq := h.coherent.queued
  cases operation with
  | installIdle task => exact h.due_installIdle task hempty
  | installCleanup task => exact h.due_installCleanup task hempty
  | schedule task => exact h.due_schedule task hempty
  | start =>
    have hstarted : ({ s with started := true } : Scheduler).Queued s.ready.toList
        s.blocked.toList := hq.congr rfl rfl rfl rfl rfl
    exact hstarted.due_switchToNext none false hempty
  | reschedule =>
    revert hempty
    show s.reschedule.2.ready.toList = [] → s.reschedule.2.NoneDue
    rw [Scheduler.reschedule]
    split
    · exact h.due
    · exact hq.due_switchToNext none false
  | block reason => exact h.due_block reason hempty
  | unblock id =>
    revert hempty
    show (s.unblock id).2.ready.toList = [] → (s.unblock id).2.NoneDue
    rw [Scheduler.unblock]
    split
    · exact h.due
    · exact h.due_makeReady id
  | wake id =>
    revert hempty
    show (s.wake id).2.ready.toList = [] → (s.wake id).2.NoneDue
    rw [Scheduler.wake]
    split
    · exact h.due_makeReady id
    · exact h.due
  | unblockWakeable =>
    have hempty : s.unblockWakeable.2.ready.toList = [] := hempty
    have hsame := h.coherent.quiet_of_empty
      (h.coherent.unblockWakeable.queued.ready.isEmpty_iff.2 hempty)
    show s.unblockWakeable.2.NoneDue
    rw [hsame] at hempty ⊢
    exact h.due hempty
  | tick =>
    revert hempty
    show s.tick.2.ready.toList = [] → s.tick.2.NoneDue
    cases hstarted : s.started with
    | false =>
      rw [tick_of_stopped hstarted]
      exact h.due
    | true =>
      rw [tick_of_started hstarted]
      exact hq.advanced.unblockWakeable.1.due_switchToNext none true
  | findNext => exact hq.due_selectNext none hempty
  | runNext => exact hq.due_switchToNext none false hempty
  | deliver recipient message => exact h.due_deliver recipient message hempty
  | receive filter => exact h.due_receive filter hempty
  | exit => exact h.due_exit hempty
  | reap => exact h.due hempty
  | changePriority id priority => exact h.due_changePriority id priority hempty

/-! ### Choosing a first task -/

/-- The choice readies nobody: the ring is not empty, or no wait is over. -/
theorem blocked_switchToNext (h : s.ready.toList = [] → s.NoneDue) (hq : s.Queued ring waiting)
    (hint : Option TaskId) (preempted : Bool) :
    (s.switchToNext hint preempted).2.blocked = s.blocked := by
  rw [(s.queues_switchToNext hint preempted).2, Scheduler.selectNext]
  split
  · rename_i hempty
    have hring : s.ready.toList = [] := by
      rw [hq.ready.toList_eq]
      exact hq.ready.isEmpty_iff.1 hempty
    dsimp only
    rw [unblockWakeable_of_quiet (h hring)]
  · split
    · rfl
    · split <;> rfl

theorem blocked_reschedule (h : s.Prompt) : s.reschedule.2.blocked = s.blocked := by
  rw [Scheduler.reschedule]
  split
  · rfl
  · exact blocked_switchToNext h.due h.coherent.queued none false

theorem blocked_start (h : s.Prompt) : s.start.2.blocked = s.blocked := by
  have hq : ({ s with started := true } : Scheduler).Queued s.ready.toList s.blocked.toList :=
    h.coherent.queued.congr rfl rfl rfl rfl rfl
  exact blocked_switchToNext (s := { s with started := true }) h.due hq none false

end Prompt

/-! ### How many are readied -/

/-- On the way from `s` to `s'` tasks are readied and nothing else is done to the queues, and it is
`n` tasks. -/
structure Readies (n : Nat) (s s' : Scheduler) : Prop where
  prompt : s'.Prompt
  drifts : Drifts s s'
  blocked : s'.blocked.length + n = s.blocked.length

/-- How many tasks a delivery with this answer has readied. -/
def woken : Except Error Bool → Nat
  | .ok true => 1
  | _ => 0

namespace Prompt

theorem readies_none (h : s.Prompt) (operation : Operation)
    (hdrifts : Drifts s (s.step operation).2)
    (hblocked : (s.step operation).2.blocked = s.blocked) :
    Readies 0 s (s.step operation).2 :=
  ⟨h.step operation, hdrifts, congrArg TaskQueue.length hblocked⟩

theorem readies_schedule (h : s.Prompt) (task : Task) : Readies 0 s (s.schedule task).2 := by
  refine h.readies_none (.schedule task) (drifts_schedule h.coherent task) ?_
  show (s.schedule task).2.blocked = s.blocked
  rw [Scheduler.schedule]
  split <;> rfl

theorem readies_installIdle (h : s.Prompt) (task : Task) : Readies 0 s (s.installIdle task).2 := by
  have hqueues : (s.installIdle task).2.ready = s.ready ∧
      (s.installIdle task).2.blocked = s.blocked := by
    rw [Scheduler.installIdle]
    split <;> exact ⟨rfl, rfl⟩
  exact h.readies_none (.installIdle task) (.of_eq hqueues.1 hqueues.2) hqueues.2

theorem readies_installCleanup (h : s.Prompt) (task : Task) :
    Readies 0 s (s.installCleanup task).2 := by
  have hqueues : (s.installCleanup task).2.ready = (s.schedule task).2.ready ∧
      (s.installCleanup task).2.blocked = (s.schedule task).2.blocked := by
    rw [Scheduler.installCleanup]
    split <;> rename_i hs <;> rw [hs] <;> exact ⟨rfl, rfl⟩
  obtain ⟨-, hdrifts, hblocked⟩ := h.readies_schedule task
  refine ⟨h.step (.installCleanup task), hdrifts.trans (.of_eq hqueues.1 hqueues.2), ?_⟩
  rw [hqueues.2]
  exact hblocked

theorem readies_reschedule (h : s.Prompt) : Readies 0 s s.reschedule.2 :=
  h.readies_none .reschedule h.coherent.drifts_reschedule h.blocked_reschedule

theorem readies_start (h : s.Prompt) : Readies 0 s s.start.2 :=
  h.readies_none .start h.coherent.drifts_start h.blocked_start

theorem readies_reap (h : s.Prompt) : Readies 0 s s.reap.2 :=
  h.readies_none .reap (.of_eq rfl rfl) rfl

theorem readies_changePriority (h : s.Prompt) (id : TaskId) (priority : Priority) :
    Readies 0 s (s.changePriority id priority).2 := by
  have hqueues : (s.changePriority id priority).2.ready = s.ready ∧
      (s.changePriority id priority).2.blocked = s.blocked := by
    rw [Scheduler.changePriority]
    split <;> exact ⟨rfl, rfl⟩
  exact h.readies_none (.changePriority id priority) (.of_eq hqueues.1 hqueues.2) hqueues.2

/-- A delivery answers whether it has readied a task. -/
theorem readies_deliver (h : s.Prompt) (recipient : TaskId) (message : Message) :
    Readies (woken (s.deliver recipient message).1) s (s.deliver recipient message).2 := by
  have hq := h.coherent.queued
  suffices hboth : Drifts s (s.deliver recipient message).2 ∧
      (s.deliver recipient message).2.blocked.length +
        woken (s.deliver recipient message).1 = s.blocked.length from
    ⟨h.step (.deliver recipient message), hboth.1, hboth.2⟩
  rcases s.deliver_cases recipient message with
    ⟨e, hs⟩ | ⟨t, mailbox, ht, ⟨hblocked, -, hs⟩ | ⟨-, hs⟩⟩ <;> rw [hs]
  · exact ⟨.refl s, rfl⟩
  · -- a task in this state is in the blocked queue
    have hin : recipient ∈ s.blocked.toList := by
      by_contra hnot
      have hobeys := h.settled.obeys recipient t ht
      rw [Bool.eq_false_iff.2 fun hin =>
        hnot ((hq.blocked.contains_iff recipient).1 hin)] at hobeys
      rcases hobeys.1 with hready | hrunning
      · rw [hready] at hblocked
        cases hblocked
      · rw [hrunning] at hblocked
        cases hblocked
    have hmail : Drifts s (s.withMailbox recipient mailbox) := .of_eq rfl rfl
    obtain ⟨hdrifts, hlength⟩ :=
      (h.coherent.withMailbox recipient mailbox).queued.drifts_makeReady hin
    exact ⟨hmail.trans hdrifts, hlength⟩
  · exact ⟨.of_eq rfl rfl, rfl⟩

/-- So does a wake. -/
theorem readies_wake (h : s.Prompt) (id : TaskId) :
    Readies (s.wake id).1.toNat s (s.wake id).2 := by
  have hq := h.coherent.queued
  refine ⟨h.step (.wake id), hq.drifts_wake id, ?_⟩
  rw [Scheduler.wake]
  split
  · rename_i hid
    exact (hq.drifts_makeReady ((hq.blocked.contains_iff id).1 hid)).2
  · rfl

theorem readies_tick (h : s.Prompt) :
    Readies (s.blocked.length - s.tick.2.blocked.length) s s.tick.2 := by
  have hprompt := h.step .tick
  have hdrifts := h.coherent.drifts_tick
  have hadd : s.readied s.tick.2 none + s.tick.2.blocked.length = s.blocked.length :=
    hdrifts.readied_add h.coherent hprompt.coherent
  refine ⟨hprompt, hdrifts, ?_⟩
  show s.tick.2.blocked.length + (s.blocked.length - s.tick.2.blocked.length) = s.blocked.length
  omega

end Prompt

/-- The tasks that are readied are as many as the blocked queue has lost. -/
theorem Readies.readied {n : Nat} (h : Readies n s s') (hs : s.Prompt) :
    s.readied s' none = n := by
  have hadd := h.drifts.readied_add hs.coherent h.prompt.coherent
  have hblocked := h.blocked
  omega

/-- On the way from `s` to `s'` tasks are readied, and the current task may be queued as blocked or
leave: it is `suspended`, if it is queued as blocked. -/
structure Stirs (suspended : Option TaskId) (s s' : Scheduler) : Prop where
  prompt : s'.Prompt
  shifts : ∃ left, Shifts left suspended s s' ∧
    ∀ id, left = some id ∨ suspended = some id → s.current = some id

namespace Prompt

theorem stirs_none (h : s.Prompt) (operation : Operation)
    (hdrifts : Drifts s (s.step operation).2) : Stirs none s (s.step operation).2 :=
  ⟨h.step operation, none, hdrifts, fun _ hid => hid.elim nofun nofun⟩

theorem stirs_self (h : s.Prompt) : Stirs none s s :=
  ⟨h, none, Drifts.refl s, fun _ hid => hid.elim nofun nofun⟩

theorem stirs_block (h : s.Prompt) (reason : BlockReason) :
    Stirs ((s.block reason).1.toOption.bind fun _ => s.current) s (s.block reason).2 := by
  cases hworking : s.working? with
  | none =>
    rw [block_eq_of_none hworking]
    exact h.stirs_self
  | some id =>
    have hcurrent := (working?_eq_some hworking).1
    have hshifts := h.coherent.shifts_block hworking reason
    have hok : (s.block reason).1.toOption.bind (fun _ => s.current) = some id := by
      rw [h.coherent.block_eq hworking, hcurrent]
      rfl
    rw [hok]
    exact ⟨h.step (.block reason), some id, hshifts,
      fun _ hid => hcurrent.trans (or_self_iff.1 hid)⟩

/-- Whom a try to receive queues as blocked. -/
theorem stirs_receive (h : s.Prompt) (filter : Option Filter) :
    (∃ switch, (s.receive filter).1 = .ok (.waiting switch) ∧
        Stirs s.current s (s.receive filter).2) ∨
      (∀ switch, (s.receive filter).1 ≠ .ok (.waiting switch)) ∧
        Stirs none s (s.receive filter).2 := by
  rcases h.coherent.shifts_receive filter with
    ⟨id, switch, hworking, hwaits, hshifts⟩ | ⟨hreceived, hdrifts⟩
  · have hcurrent := (working?_eq_some hworking).1
    rw [hcurrent]
    exact .inl ⟨switch, hwaits, h.step (.receive filter), some id, hshifts,
      fun _ hid => hcurrent.trans (or_self_iff.1 hid)⟩
  · exact .inr ⟨hreceived, h.stirs_none (.receive filter) hdrifts⟩

theorem stirs_exit (h : s.Prompt) : Stirs none s s.exit.2 := by
  rcases h.coherent.shifts_exit with hdrifts | ⟨id, hworking, hshifts⟩
  · exact h.stirs_none .exit hdrifts
  · have hcurrent := (working?_eq_some hworking).1
    exact ⟨h.step .exit, some id, hshifts, fun _ hid => hid.elim hcurrent.trans nofun⟩

end Prompt

/-- What was readied first, and then what was readied while the current task was queued as blocked
or left. -/
theorem Readies.readied_add {n : Nat} (h : Readies n s s') (hs : s.Prompt)
    (hsame : s'.current = s.current) (h' : Stirs suspended s' s'') :
    n + s'.readied s'' suspended = s.readied s'' suspended := by
  obtain ⟨hprompt, left, hshifts, hcurrent⟩ := h'
  have hout : ∀ {s : Scheduler}, s.Prompt → ∀ id, s.current = some id → id ∉ s.blocked.toList :=
    fun {s} hs id hid hin => by
      have hnot := hs.coherent.not_blocked_of_current hid
      rw [(hs.coherent.queued.blocked.contains_iff id).2 hin] at hnot
      cases hnot
  have hnew : ∀ id, suspended = some id → s.current = some id ∧ s'.current = some id :=
    fun id hid => ⟨hsame.symm.trans (hcurrent id (.inr hid)), hcurrent id (.inr hid)⟩
  have hwhole := h.drifts.shifts hshifts fun id hid =>
    .inl (hout hs id (hsame.symm.trans (hcurrent id (.inl hid))))
  have hafter := hshifts.readied_add h.prompt.coherent hprompt.coherent
    fun id hid => hout h.prompt id (hnew id hid).2
  have htotal := hwhole.readied_add hs.coherent hprompt.coherent
    fun id hid => hout hs id (hnew id hid).1
  have hblocked := h.blocked
  omega

end Microkernel.Scheduler
