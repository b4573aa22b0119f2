/-
The cleanup task at rest.

A cleanup task that finds nothing to do is parked: it waits for mail, and of any mail at all.
`s.AtRest id n` says that it is the cleanup task and that its wait goes on as long as its mailbox
has accepted no more than `n` messages.

* **`Coherent.atRest_park`**: a cleanup task whose mailbox is empty is at rest once it is parked;
* **`AtRest.deliver`**, **`AtRest.receive`** and so on: it stays so in every operation but a wake of
  it and the end of another task;
* **`AtRest.withdrawn`**: while nothing was accepted, it is queued as blocked and not current.

Design notes: mail can reach the mailbox in the middle of an operation, when a core takes over its
inbox. So an operation is not asked to leave the mailbox alone. The number of accepted messages is
followed instead, which never shrinks (`Counts`), and says in the end whether any came.
-/
import Microkernel.Proofs.Scheduler.Dormant
import Microkernel.Proofs.Scheduler.Intake
import Microkernel.Proofs.Scheduler.WakeOrder

namespace Microkernel

/-- A message that is accepted is counted. -/
theorem Mailbox.sends_of_send {m m' : Mailbox} {message : Message} (h : m.send message = .ok m') :
    m'.sends = m.sends + 1 := by
  unfold send sendFrame at h
  split at h
  · cases h
  · split at h
    · cases h
    · rename_i hpush
      cases h
      rw [(push_eq_ok hpush).2.2]
      rfl

/-- The task waits for any mail, has none, and has accepted `n` messages so far. -/
structure Task.Expects (n : Nat) (t : Task) : Prop where
  state : t.state = .blocked
  waitSince : t.waitSince = none
  unread : t.mailbox.unread = 0
  sends : t.mailbox.sends = n

/-- No clock ends such a wait. -/
theorem Task.Expects.isWakeable {n : Nat} {t : Task} (h : t.Expects n) (elapsed : Nat) :
    t.isWakeable elapsed = false := by
  simp [Task.isWakeable, h.state, h.waitSince, Mailbox.hasUnread, h.unread]

/-- The task waits for any mail although it has some. -/
structure Task.Overlooks (t : Task) : Prop where
  state : t.state = .blocked
  waitSince : t.waitSince = none
  unread : t.mailbox.unread ≠ 0

/-- The wait is over at any time. -/
theorem Task.Overlooks.isWakeable {t : Task} (h : t.Overlooks) (elapsed : Nat) :
    t.isWakeable elapsed = true := by
  simp [Task.isWakeable, h.state, h.waitSince, Mailbox.hasUnread, Nat.pos_of_ne_zero h.unread]

namespace Scheduler

variable {s s' : Scheduler} {id : TaskId} {n size : Nat}

theorem restful_expects (n : Nat) : Restful (Task.Expects n) where
  waits t h hrunning := by
    rw [h.state] at hrunning
    cases hrunning
  prioritized _ _ h := ⟨h.state, h.waitSince, h.unread, h.sends⟩

theorem restful_overlooks : Restful Task.Overlooks where
  waits t h hrunning := by
    rw [h.state] at hrunning
    cases hrunning
  prioritized _ _ h := ⟨h.state, h.waitSince, h.unread⟩

theorem Dormant.isWakeable_of_overlooks (h : s.Dormant Task.Overlooks id) :
    s.isWakeable id = true := by
  obtain ⟨t, ht, hoverlooks⟩ := h.asleep
  rw [Scheduler.isWakeable, ht, Option.any_some, hoverlooks.isWakeable]

/-! ### Messages that a mailbox has accepted -/

/-- How many messages the mailbox of a live task has accepted. -/
def accepted (s : Scheduler) (id : TaskId) : Nat :=
  ((s.task? id).map fun t => t.mailbox.sends).getD 0

theorem accepted_of_task? {t : Task} (h : s.task? id = some t) :
    s.accepted id = t.mailbox.sends := by
  rw [accepted, h]
  rfl

theorem Rearranged.accepted (h : Rearranged s s') (id : TaskId) :
    s'.accepted id = s.accepted id := by
  have hmailbox : ∀ s : Scheduler,
      s.accepted id = (((s.task? id).map Task.mailbox).map Mailbox.sends).getD 0 := by
    intro s
    rw [Option.map_map]
    rfl
  rw [hmailbox, hmailbox, h.mailbox]

theorem accepted_withMailbox {j : TaskId} {t : Task} (ht : s.task? j = some t) (mailbox : Mailbox)
    (id : TaskId) :
    (s.withMailbox j mailbox).accepted id = if id = j then mailbox.sends else s.accepted id := by
  rw [accepted, task?_withMailbox]
  split
  · rename_i heq
    rw [heq, ht]
    rfl
  · rfl

/-- The cleanup task stays the same, and its mailbox forgets no message. -/
structure Counts (s s' : Scheduler) : Prop where
  cleanup : s'.cleanup = s.cleanup
  accepted : ∀ id, s.cleanup = some id → s.accepted id ≤ s'.accepted id

theorem Rearranged.counts (h : Rearranged s s') : Counts s s' :=
  ⟨h.cleanup, fun id _ => (h.accepted id).ge⟩

/-- A mailbox was replaced by one that forgets no message. -/
theorem Rearranged.counts_withMailbox {j : TaskId} {t : Task} {mailbox : Mailbox}
    (h : Rearranged (s.withMailbox j mailbox) s') (ht : s.task? j = some t)
    (hsends : t.mailbox.sends ≤ mailbox.sends) : Counts s s' := by
  refine ⟨h.cleanup, fun id _ => ?_⟩
  rw [h.accepted, accepted_withMailbox ht]
  split
  · rename_i heq
    rw [heq, accepted_of_task? ht]
    exact hsends
  · exact Nat.le_refl _

/-! ### The cleanup task at rest -/

theorem Coherent.contains_cleanup (h : s.Coherent) (hcleanup : s.cleanup = some id) :
    s.contains id = true :=
  (h.queued.live id).2 ((h.queued.cleanup id hcleanup).imp_right .inl)

/-- The cleanup task waits, if it has accepted no more than `n` messages. -/
structure AtRest (s : Scheduler) (id : TaskId) (n : Nat) : Prop where
  coherent : s.Coherent
  cleanup : s.cleanup = some id
  accepted : n ≤ s.accepted id
  waits : s.accepted id = n → s.Dormant (Task.Expects n) id

/-- The task is queued as blocked, and is not current. -/
structure Withdrawn (s : Scheduler) (id : TaskId) : Prop where
  blocked : id ∈ s.blocked.toList
  current : s.current ≠ some id
  state : (s.task? id).map Task.state = some .blocked

instance (s : Scheduler) (id : TaskId) : Decidable (s.Withdrawn id) :=
  decidable_of_iff (id ∈ s.blocked.toList ∧ s.current ≠ some id ∧
    (s.task? id).map Task.state = some .blocked)
    ⟨fun ⟨hblocked, hcurrent, hstate⟩ => ⟨hblocked, hcurrent, hstate⟩,
      fun ⟨hblocked, hcurrent, hstate⟩ => ⟨hblocked, hcurrent, hstate⟩⟩

namespace AtRest

/-- A wait goes on that is not ended where no message is accepted. -/
theorem of_counts (h : s.AtRest id n) (hco : s'.Coherent) (hcounts : Counts s s')
    (hwaits : s'.accepted id = s.accepted id → s.Dormant (Task.Expects n) id →
      s'.Dormant (Task.Expects n) id) : s'.AtRest id n := by
  have hmore := hcounts.accepted id h.cleanup
  refine ⟨hco, hcounts.cleanup.trans h.cleanup, h.accepted.trans hmore, fun hnone => ?_⟩
  have hbefore : s.accepted id = n := Nat.le_antisymm (hnone ▸ hmore) h.accepted
  exact hwaits (hnone.trans hbefore.symm) (h.waits hbefore)

theorem of_lasts (h : s.AtRest id n) (hco : s'.Coherent) (hcounts : Counts s s')
    (hlasts : Lasts (Task.Expects n) id s s') : s'.AtRest id n :=
  h.of_counts hco hcounts fun _ => hlasts.dormant fun _ ht => ht.isWakeable s.elapsed

/-- While nothing was accepted, the task is blocked. -/
theorem withdrawn (h : s.AtRest id n) (hnone : s.accepted id = n) : s.Withdrawn id := by
  have hdormant := h.waits hnone
  obtain ⟨t, ht, hexpects⟩ := hdormant.asleep
  refine ⟨hdormant.mem_blocked, fun hcurrent => ?_, by rw [ht, Option.map_some, hexpects.state]⟩
  by_cases hidle : s.idle = some id
  · exact (h.coherent.queued.idle id hidle).2 hdormant.mem_blocked
  · exact h.coherent.ne_of_dormant hdormant (Option.mem_filter_iff.2
      ⟨hcurrent, decide_eq_true hidle⟩) rfl

theorem contains (h : s.AtRest id n) : s.contains id = true :=
  h.coherent.contains_cleanup h.cleanup

theorem start (h : s.AtRest id n) : s.start.2.AtRest id n := by
  obtain ⟨hco, -, hr⟩ := h.coherent.start (Prod.eta s.start).symm
  exact h.of_lasts hco hr.counts (h.coherent.lasts_start (restful_expects n))

theorem reschedule (h : s.AtRest id n) : s.reschedule.2.AtRest id n := by
  obtain ⟨hco, -, hr⟩ := h.coherent.reschedule (Prod.eta s.reschedule).symm
  exact h.of_lasts hco hr.counts (h.coherent.lasts_reschedule (restful_expects n))

/-- The clock does not matter. -/
theorem tick (h : s.AtRest id n) : s.tick.2.AtRest id n := by
  obtain ⟨hco, -, hr⟩ := h.coherent.tick (Prod.eta s.tick).symm
  refine h.of_counts hco hr.counts fun _ hd => ?_
  cases hstarted : s.started with
  | true =>
    have hd : s.advanced.Dormant (Task.Expects n) id := ⟨hd.blocked, hd.asleep⟩
    exact (h.coherent.lasts_tick (restful_expects n) hstarted).dormant
      (fun _ ht => ht.isWakeable s.advanced.elapsed) hd
  | false =>
    rw [tick_of_stopped hstarted]
    exact hd

theorem block (h : s.AtRest id n) (reason : BlockReason) : (s.block reason).2.AtRest id n := by
  have hlasts : Lasts (Task.Expects n) id s (s.block reason).2 :=
    h.coherent.lasts_block (restful_expects n) reason
  rcases h.coherent.block (Prod.eta (s.block reason)).symm with ⟨-, -, hs⟩ | ⟨-, -, hco, -, hr⟩
  · rw [hs]
    exact h
  · exact h.of_lasts hco hr.counts hlasts

/-- Another task is woken. -/
theorem wake (h : s.AtRest id n) {j : TaskId} (hne : j ≠ id) : (s.wake j).2.AtRest id n :=
  h.of_lasts (h.coherent.wake j).1 (h.coherent.wake j).2.counts (.wake s hne)

theorem changePriority (h : s.AtRest id n) (j : TaskId) (priority : Priority) :
    (s.changePriority j priority).2.AtRest id n := by
  obtain ⟨-, hco, hr, -⟩ := h.coherent.changePriority (Prod.eta (s.changePriority j priority)).symm
  exact h.of_lasts hco hr.counts (.changePriority (restful_expects n) s j priority)

theorem reap (h : s.AtRest id n) : s.reap.2.AtRest id n :=
  h.of_lasts h.coherent.reap ⟨rfl, fun _ _ => Nat.le_refl _⟩ (.of_tasks rfl rfl fun _ => rfl)

/-- The cleanup task does not end, and an exit that fails wakes nobody. -/
theorem exit_of_failed (h : s.AtRest id n) (hfailed : s.exit.1.isOk = false) :
    s.exit.2.AtRest id n := by
  rcases h.coherent.exit (Prod.eta s.exit).symm with ⟨-, hs⟩ | ⟨j, t, switch, hok, -⟩
  · rw [hs]
    exact h
  · rw [hok] at hfailed
    cases hfailed

theorem schedule (h : s.AtRest id n) (task : Task) : (s.schedule task).2.AtRest id n := by
  rcases h.coherent.schedule (Prod.eta (s.schedule task)).symm with
    ⟨-, -, hs⟩ | ⟨-, hfresh, hco, hj, -, -, hcleanup⟩
  · rw [hs]
    exact h
  · refine h.of_lasts hco ⟨hcleanup, fun j hj' => ?_⟩ (.schedule s task)
    have hne : j ≠ task.id := by
      rintro rfl
      rw [h.coherent.contains_cleanup hj'] at hfresh
      cases hfresh
    rw [Scheduler.accepted, Scheduler.accepted, hj.task?, if_neg hne]

/-- Mail ends the wait only where it is accepted. -/
theorem deliver (h : s.AtRest id n) (recipient : TaskId) (message : Message) :
    (s.deliver recipient message).2.AtRest id n := by
  rcases h.coherent.deliver (Prod.eta (s.deliver recipient message)).symm with
    ⟨-, hs, -⟩ | ⟨t, ht, -, ⟨-, -, hs, -⟩ | ⟨-, mailbox, -, hsend, hco, hr, -⟩⟩
  · rw [hs]
    exact h
  · rw [hs]
    exact h
  · have hsends := Mailbox.sends_of_send hsend
    refine h.of_counts hco (hr.counts_withMailbox ht (by omega)) fun hsame => ?_
    by_cases hne : recipient = id
    · -- what the task has accepted is counted, and its wait need not go on
      subst hne
      rw [hr.accepted, accepted_withMailbox ht, if_pos rfl, accepted_of_task? ht] at hsame
      omega
    · exact (Lasts.deliver s recipient message fun e => absurd e hne).dormant
        fun _ ht => ht.isWakeable s.elapsed

/-- Whoever receives forgets no message. -/
theorem receive (h : s.AtRest id n) (hmail : s.SoundMail size) (filter : Option Filter) :
    (s.receive filter).2.AtRest id n := by
  have hlasts : Lasts (Task.Expects n) id s (s.receive filter).2 :=
    h.coherent.lasts_receive (restful_expects n) filter
  obtain ⟨hco, hs | ⟨j, t, -, ht, hr⟩⟩ := h.coherent.receive_rearranged filter
  · rw [hs]
    exact h
  · obtain ⟨mailbox, htake, -, -, -, hsends⟩ := (hmail j t ht).1.takeMessage filter
    rw [htake] at hr
    exact h.of_lasts hco (hr.counts_withMailbox ht hsends.ge) hlasts

theorem joinAll (h : s.AtRest id n) (tasks : List Task) : (s.joinAll tasks).AtRest id n := by
  induction tasks generalizing s with
  | nil => exact h
  | cons task tasks ih => exact ih (h.schedule task)

theorem deliverAll (h : s.AtRest id n) (stalled : List TaskId) (mail : List Mail) :
    (s.deliverAll stalled mail).2.AtRest id n := by
  have hkept : ∀ s : Scheduler, s.AtRest id n → ∀ recipient message,
      (s.deliver recipient message).2.AtRest id n := fun _ hs => hs.deliver
  exact deliverAll_keeps hkept h stalled mail

end AtRest

/-! ### Parking the cleanup task -/

/-- While some task is ready, passing the turn on ends no wait. -/
theorem Queued.dormant_switchToNext {p : Task → Prop} {ring waiting : List TaskId}
    (hp : Restful p) (h : s.Queued ring waiting) (hready : s.ready.isEmpty = false)
    (hd : s.Dormant p id) (hint : Option TaskId) (preempted : Bool) :
    (s.switchToNext hint preempted).2.Dormant p id := by
  have hsame := selectNext_of_ready hready hint
  rcases h.switchToNext_cases hint preempted with hs | hs | ⟨next, hnext, hs⟩ <;> rw [hs, hsame]
  · exact hd
  · exact hd.congr rfl rfl
  · rw [hsame] at hnext
    exact hd.enter hp _ hnext

/-- A task that waits for mail that it has is readied at the latest by the tick that follows. -/
theorem Queued.ready_tick_switchToNext {ring waiting : List TaskId} (h : s.Queued ring waiting)
    (hd : s.Dormant Task.Overlooks id) (hint : Option TaskId) (preempted : Bool)
    (hco : (s.switchToNext hint preempted).2.Coherent)
    (hstarted : (s.switchToNext hint preempted).2.started = true) :
    id ∈ (s.switchToNext hint preempted).2.tick.2.ready.toList := by
  rw [hco.ready_tick hstarted]
  cases hempty : s.ready.isEmpty with
  | true =>
    -- the scan for another task finds it already
    refine List.mem_append_left _ ?_
    have hscanned := h.unblockWakeable.1.ready
    rw [ready_switchToNext, Scheduler.selectNext, if_pos hempty, hscanned.toList_eq]
    refine List.mem_append_right _ (List.mem_filter.2 ⟨?_, hd.isWakeable_of_overlooks⟩)
    exact h.blocked.toList_eq ▸ hd.mem_blocked
  | false =>
    -- it is still blocked at the tick, and is due then
    have hleft := h.dormant_switchToNext restful_overlooks hempty hd hint preempted
    generalize (s.switchToNext hint preempted).2 = left at hleft ⊢
    have hadvanced : left.advanced.Dormant Task.Overlooks id := hleft.congr rfl rfl
    exact List.mem_append_right _
      (List.mem_filter.2 ⟨hleft.mem_blocked, hadvanced.isWakeable_of_overlooks⟩)

section Park

variable {t : Task} (h : s.Coherent) (hcleanup : s.cleanup = some id)
  (hcurrent : s.current = some id) (ht : s.task? id = some t)

include h hcleanup hcurrent

/-- The cleanup task is not the idle task. -/
theorem Coherent.working?_of_cleanup : s.working? = some id := by
  refine Option.mem_filter_iff.2 ⟨hcurrent, decide_eq_true fun hidle => ?_⟩
  obtain ⟨hready, hblocked⟩ := h.queued.idle id hidle
  exact (h.queued.cleanup id hcleanup).elim hready hblocked

include ht

/-- Once it has left the ring, the cleanup task waits for any mail. -/
theorem Coherent.dormant_suspended {p : Task → Prop}
    (hp : p { t with state := .blocked, waitSince := none }) :
    ∃ ring waiting, (s.suspended id (.mail none)).Queued ring waiting ∧
      (s.suspended id (.mail none)).Dormant p id := by
  obtain ⟨a, b, hab⟩ := h.ready_of_working? (h.working?_of_cleanup hcleanup hcurrent)
  obtain ⟨waiting, hmem, hq, -⟩ := h.queued.suspend hab (.mail none)
  refine ⟨a ++ b, waiting, hq, ⟨waiting, hq.blocked, (hmem id).2 (.inl rfl)⟩, _, ?_, hp⟩
  rw [task?_suspended, if_pos rfl, ht]
  rfl

/-- A cleanup task without mail is at rest once it is parked. -/
theorem Coherent.atRest_park (hempty : t.mailbox.unread = 0) :
    (s.block (.mail none)).2.AtRest id t.mailbox.sends ∧
      (s.block (.mail none)).2.accepted id = t.mailbox.sends := by
  have hworking := h.working?_of_cleanup hcleanup hcurrent
  rcases h.block (Prod.eta (s.block (.mail none))).symm with ⟨-, hnone, -⟩ | ⟨-, -, hco, -, hr⟩
  · rw [hworking] at hnone
    cases hnone
  · have haccepted := (hr.accepted id).trans (accepted_of_task? ht)
    refine ⟨⟨hco, hr.cleanup.trans hcleanup, haccepted.ge, fun _ => ?_⟩, haccepted⟩
    obtain ⟨ring, waiting, hq, hdormant⟩ := h.dormant_suspended hcleanup hcurrent ht
      (p := Task.Expects t.mailbox.sends) ⟨rfl, rfl, hempty, rfl⟩
    -- the scan for another task passes it, since its wait is not over
    rw [h.block_eq hworking]
    exact (hq.lasts_switchToNext (restful_expects _) _ false).dormant
      (fun _ ht => ht.isWakeable _) hdormant

/-- A cleanup task with mail is not: the next tick readies it, if it was not readied at once. -/
theorem Coherent.ready_tick_park (hmail : t.mailbox.unread ≠ 0)
    (hstarted : (s.block (.mail none)).2.started = true) :
    id ∈ (s.block (.mail none)).2.tick.2.ready.toList := by
  obtain ⟨ring, waiting, hq, hdormant⟩ := h.dormant_suspended (p := Task.Overlooks) hcleanup
    hcurrent ht ⟨rfl, rfl, hmail⟩
  have hco : (s.block (.mail none)).2.Coherent := (h.step (.block (.mail none))).1
  rw [h.block_eq (h.working?_of_cleanup hcleanup hcurrent)] at hco hstarted ⊢
  exact hq.ready_tick_switchToNext hdormant _ false hco hstarted

end Park

end Scheduler

end Microkernel
