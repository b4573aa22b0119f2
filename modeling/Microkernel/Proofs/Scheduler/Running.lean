/-
Which task is marked as running.

`s.Marked lapsed` says that of the live tasks of `s` the current one is marked as running, unless
`lapsed`, and no other. The mark lapses in one way only: the current task blocks, its wait is over
at once, nobody else is ready, and so it goes on. It was marked as ready when it was readied, and a
task that goes on is not marked again.

* **`Marked.switchToNext`**: a task that is entered is marked, the one that it replaces is not;
* **`Coherent.current_block`**: when a task that blocks goes on;
* **`Marked.step`**: an operation keeps the marks right, but for a task that blocks and goes on;
* **`run_running_iff`**: after any operations a task is marked as running exactly if it is current
  and has not gone on after a block.

Design notes: that a task has gone on is read off the operations (`WentOn`), since nothing in a
scheduler tells of it.
-/
import Mathlib.Data.List.Induction
import Microkernel.Proofs.Scheduler.Order

namespace Microkernel

/-- Only an empty mailbox has no message to give. -/
theorem Mailbox.unread_of_receive {m m' : Mailbox} (h : m.receive = (.ok none, m')) :
    m'.unread = 0 := by
  rw [Mailbox.receive, Mailbox.receiveFrame] at h
  split at h
  · cases h
  · rename_i hframe
    split at hframe
    · rename_i hunread
      obtain ⟨-, rfl⟩ := Prod.mk.inj hframe
      obtain ⟨-, rfl⟩ := Prod.mk.inj h
      exact hunread
    · split at hframe
      · cases hframe
      · cases hframe
  · split at h
    · cases h
    · cases h

namespace Scheduler

variable {s s' : Scheduler} {lapsed : Prop} {ring waiting : List TaskId}

/-! ### Live tasks that are marked as running -/

/-- A live task is marked as running. -/
def Runs (s : Scheduler) (id : TaskId) : Prop :=
  ∃ t, s.task? id = some t ∧ t.state = .running

theorem Runs.contains {id : TaskId} (h : s.Runs id) : s.contains id = true := by
  obtain ⟨t, ht, -⟩ := h
  exact Option.isSome_iff_exists.2 ⟨t, ht⟩

theorem runs_modifyTask (id : TaskId) (f : Task → Task) (j : TaskId) :
    (s.modifyTask id f).Runs j ↔
      if j = id then ∃ t, s.task? j = some t ∧ (f t).state = .running else s.Runs j := by
  rw [Runs, task?_modifyTask]
  split
  · constructor
    · rintro ⟨u, hu, hrunning⟩
      obtain ⟨t, ht, rfl⟩ := Option.map_eq_some_iff.1 hu
      exact ⟨t, ht, hrunning⟩
    · rintro ⟨t, ht, hrunning⟩
      exact ⟨f t, by rw [ht, Option.map_some], hrunning⟩
  · exact Iff.rfl

/-- A change that leaves the state of a task alone. -/
theorem runs_modifyTask_of_state (id : TaskId) {f : Task → Task}
    (hf : ∀ t, (f t).state = t.state) (j : TaskId) : (s.modifyTask id f).Runs j ↔ s.Runs j := by
  rw [runs_modifyTask]
  split
  · simp only [hf, Runs]
  · exact Iff.rfl

/-- A change after which the task does not run. -/
theorem runs_modifyTask_of_idle (id : TaskId) {f : Task → Task}
    (hf : ∀ t, (f t).state ≠ .running) (j : TaskId) :
    (s.modifyTask id f).Runs j ↔ j ≠ id ∧ s.Runs j := by
  rw [runs_modifyTask]
  split
  · rename_i heq
    refine ⟨fun ⟨t, _, hrunning⟩ => absurd hrunning (hf t), fun hj => absurd heq hj.1⟩
  · rename_i hne
    exact ⟨fun hj => ⟨hne, hj⟩, And.right⟩

theorem runs_makeReady (id j : TaskId) : (s.makeReady id).Runs j ↔ j ≠ id ∧ s.Runs j :=
  runs_modifyTask_of_idle id (fun t hrunning => by cases hrunning) j

/-- Readying a task that does not run. -/
theorem runs_makeReady_iff {id : TaskId} (h : ¬ s.Runs id) (j : TaskId) :
    (s.makeReady id).Runs j ↔ s.Runs j := by
  rw [runs_makeReady]
  refine ⟨And.right, fun hj => ⟨?_, hj⟩⟩
  rintro rfl
  exact h hj

theorem runs_makeReadyAll {ids : List TaskId} (h : ∀ id ∈ ids, ¬ s.Runs id) (j : TaskId) :
    (ids.foldl Scheduler.makeReady s).Runs j ↔ s.Runs j := by
  induction ids generalizing s with
  | nil => exact Iff.rfl
  | cons id ids ih =>
    have hfirst := runs_makeReady_iff (h id List.mem_cons_self)
    refine (ih fun k hk => ?_).trans (hfirst j)
    rw [hfirst]
    exact h k (List.mem_cons_of_mem id hk)

theorem Queued.runs_unblockWakeable (hq : s.Queued ring waiting)
    (hout : ∀ id ∈ waiting, ¬ s.Runs id) (j : TaskId) :
    s.unblockWakeable.2.Runs j ↔ s.Runs j := by
  rw [Scheduler.unblockWakeable, hq.blocked.toList_eq]
  exact runs_makeReadyAll (fun id hid => hout id (List.mem_filter.1 hid).1) j

theorem Queued.runs_wake (hq : s.Queued ring waiting) (hout : ∀ id ∈ waiting, ¬ s.Runs id)
    (id j : TaskId) : (s.wake id).2.Runs j ↔ s.Runs j := by
  rw [Scheduler.wake]
  split
  · rename_i hblocked
    exact runs_makeReady_iff (hout id ((hq.blocked.contains_iff id).1 hblocked)) j
  · exact Iff.rfl

theorem Queued.runs_selectNext (hq : s.Queued ring waiting)
    (hout : ∀ id ∈ waiting, ¬ s.Runs id) (hint : Option TaskId) (j : TaskId) :
    (s.selectNext hint).2.Runs j ↔ s.Runs j := by
  rw [Scheduler.selectNext]
  split
  · exact hq.runs_unblockWakeable hout j
  · split
    · exact Iff.rfl
    · split <;> exact Iff.rfl

/-- The task that is entered runs, and the one that is left does not. -/
theorem runs_enter (previous : Option TaskId) {next : TaskId} (hnext : s.contains next = true)
    (j : TaskId) : (s.enter previous next).Runs j ↔ j = next ∨ previous ≠ some j ∧ s.Runs j := by
  have hentered : ∀ paused : Scheduler, paused.contains next = true →
      ((paused.modifyTask next fun t => { t with state := .running, lastCore := some s.core }).Runs
        j ↔ j = next ∨ paused.Runs j) := by
    intro paused hlive
    rw [runs_modifyTask]
    split
    · rename_i heq
      obtain ⟨t, ht⟩ := Option.isSome_iff_exists.1 hlive
      exact ⟨fun _ => .inl heq, fun _ => ⟨t, heq ▸ ht, rfl⟩⟩
    · rename_i hne
      exact ⟨.inr, fun hj => hj.resolve_left hne⟩
  cases previous with
  | none =>
    refine (hentered s hnext).trans (or_congr_right ?_)
    exact ⟨fun hj => ⟨fun he => (by cases he), hj⟩, And.right⟩
  | some id =>
    have hpaused : ∀ t : Task, (pause t).state ≠ .running := by
      intro t
      rw [pause]
      split
      · exact fun hrunning => by cases hrunning
      · rename_i hidle
        exact hidle
    have hlive : (s.modifyTask id pause).contains next = true := by
      rw [contains_modifyTask]
      exact hnext
    refine (hentered _ hlive).trans (or_congr_right ?_)
    rw [runs_modifyTask_of_idle id hpaused]
    exact and_congr_left'
      ⟨fun hne he => hne (Option.some.inj he).symm, fun hne he => hne (he ▸ rfl)⟩

/-! ### The mark of the current task -/

/-- Of the live tasks the current one is marked as running, unless `lapsed`, and no other. -/
def Marked (lapsed : Prop) (s : Scheduler) : Prop :=
  ∀ id, s.Runs id ↔ s.current = some id ∧ ¬ lapsed

theorem marked_new (core : CoreId) (timeslice : Nat) : (new core timeslice).Marked lapsed := by
  intro id
  refine ⟨fun ⟨t, ht, _⟩ => ?_, fun h => ?_⟩
  · cases ht
  · cases h.1

/-- Nobody runs. -/
theorem marked_true_iff : s.Marked True ↔ ∀ id, ¬ s.Runs id := by
  simp [Marked]

/-- An operation that touches no mark of running and stays with the current task. -/
theorem Marked.kept (h : s.Marked lapsed) (hruns : ∀ id, s'.Runs id ↔ s.Runs id)
    (hcurrent : s'.current = s.current) : s'.Marked (s'.current = s.current ∧ lapsed) := by
  intro id
  rw [hruns, h, hcurrent]
  simp

theorem Marked.not_runs (h : s.Marked lapsed) {id : TaskId} (hid : s.current ≠ some id) :
    ¬ s.Runs id :=
  fun hruns => hid ((h id).1 hruns).1

/-- Blocked tasks are not marked as running. -/
theorem Marked.not_runs_of_blocked (h : s.Marked lapsed) (hco : s.Coherent) (id : TaskId)
    (hid : id ∈ s.blocked.toList) : ¬ s.Runs id := by
  refine h.not_runs fun hcurrent => ?_
  have hout := hco.not_blocked_of_current hcurrent
  rw [(hco.queued.blocked.contains_iff id).2 hid] at hout
  cases hout

/-! ### Choosing the next task -/

/-- Unless the ring is empty after the choice, a task is chosen; and no task leaves the ring. -/
theorem Queued.selectNext_ring (h : s.Queued ring waiting) (hint : Option TaskId) :
    ((s.selectNext hint).1 = none → (s.selectNext hint).2.ready.Spells []) ∧
      ∀ id ∈ ring, (s.selectNext hint).2.ready.contains id = true := by
  rw [Scheduler.selectNext]
  split
  · rename_i hempty
    have hring := (h.ready.isEmpty_iff).1 hempty
    obtain ⟨hq, -⟩ := h.unblockWakeable
    refine ⟨fun hnone => ?_, fun id hid => by rw [hring] at hid; cases hid⟩
    have hhead : s.unblockWakeable.2.ready.head = none := hnone
    rw [hq.ready.head, List.head?_eq_none_iff] at hhead
    exact hhead ▸ hq.ready
  · rename_i hsome
    have hstay : ∀ id ∈ ring, s.ready.contains id = true :=
      fun id hid => (h.ready.contains_iff id).2 hid
    have hhead : s.ready.head ≠ none := by
      rw [h.ready.head, Ne, List.head?_eq_none_iff]
      exact fun hring => hsome (h.ready.isEmpty_iff.2 hring)
    split
    · exact ⟨fun hnone => (by cases hnone), hstay⟩
    · split
      · refine ⟨fun hnone => absurd (Option.or_eq_none_iff.1 hnone).2 hhead, hstay⟩
      · exact ⟨fun hnone => absurd hnone hhead, hstay⟩

/-- The turn goes to the task that is chosen, or else to the idle one. -/
theorem Queued.current_switchToNext (h : s.Queued ring waiting) (hint : Option TaskId)
    (preempted : Bool) :
    (s.switchToNext hint preempted).2.current = (s.selectNext hint).1.or s.idle := by
  obtain ⟨ring', waiting', hq, hr, hcurrent, hchoice⟩ := h.selectNext hint
  obtain ⟨hempty, -⟩ := h.selectNext_ring hint
  rw [← hr.idle, Scheduler.switchToNext]
  generalize s.selectNext hint = selected at hq hr hcurrent hchoice hempty ⊢
  obtain ⟨choice, s₁⟩ := selected
  dsimp only at hq hr hcurrent hchoice hempty ⊢
  split
  · rename_i hnone
    rw [hnone]
    split
    · rename_i hstay
      obtain ⟨id, -, hid⟩ := (Option.any_eq_true _ _).1 hstay
      have hin := ((hempty (Option.or_eq_none_iff.1 hnone).1).contains_iff id).1 hid
      cases hin
    · rfl
  · rename_i next hnext
    rw [hnext]
    split
    · rename_i hsame
      exact hcurrent.trans hsame
    · rfl

/-- A task that is entered is marked. Before the turn passes on, only the current task may be
marked, if it is still in the ring or idle. -/
theorem Marked.switchToNext (h : s.Marked lapsed) (hq : s.Queued ring waiting)
    (hplace : ∀ id, s.Runs id → s.idle = some id ∨ id ∈ ring) (hint : Option TaskId)
    (preempted : Bool) :
    (s.switchToNext hint preempted).2.Marked
      ((s.switchToNext hint preempted).2.current = s.current ∧ lapsed) := by
  have hout : ∀ id ∈ waiting, ¬ s.Runs id := by
    intro id hid hruns
    rcases hplace id hruns with hidle | hready
    · exact (hq.idle id hidle).2 hid
    · exact hq.apart id hready hid
  have hruns := hq.runs_selectNext hout hint
  obtain ⟨ring', waiting', hq', hr, hcurrent, hchoice⟩ := hq.selectNext hint
  obtain ⟨-, hstay⟩ := hq.selectNext_ring hint
  rw [Scheduler.switchToNext]
  generalize s.selectNext hint = selected at hruns hq' hr hcurrent hchoice hstay ⊢
  obtain ⟨choice, s₁⟩ := selected
  dsimp only at hruns hq' hr hcurrent hchoice hstay ⊢
  split
  · rename_i hnone
    split
    · exact h.kept hruns hcurrent
    · -- nobody is left to run, and a task that is marked would be in the ring
      rename_i hleft
      intro id
      refine ⟨fun hid => absurd ?_ hleft, fun hid => by cases hid.1⟩
      have hid : s.Runs id := (hruns id).1 hid
      rw [((h id).1 hid).1]
      refine hstay id ((hplace id hid).resolve_left fun hidle => ?_)
      rw [← hr.idle, (Option.or_eq_none_iff.1 hnone).2] at hidle
      cases hidle
  · rename_i next hnext
    split
    · exact h.kept hruns hcurrent
    · rename_i hchange
      have hlive : s₁.contains next = true := by
        rcases Option.or_eq_some_iff.1 hnext with hc | ⟨-, hi⟩
        · exact hq'.contains_of_ready (hchoice next hc)
        · exact (hq'.live next).2 (.inr (.inr hi))
      have hentered : (s₁.enter s.current next).current = some next := rfl
      intro id
      rw [runs_enter s.current hlive, hruns, hentered]
      constructor
      · rintro (rfl | ⟨hne, hid⟩)
        · exact ⟨rfl, fun hl => hchange hl.1.symm⟩
        · exact absurd ((h id).1 hid).1 hne
      · rintro ⟨hid, -⟩
        exact .inl (Option.some.inj hid).symm

/-- The turn passes on while the current task is in its place. -/
theorem Marked.turn (h : s.Marked lapsed) (hco : s.Coherent) (hint : Option TaskId)
    (preempted : Bool) :
    (s.switchToNext hint preempted).2.Marked
      ((s.switchToNext hint preempted).2.current = s.current ∧ lapsed) :=
  h.switchToNext hco.queued (fun id hruns => hco.current id ((h id).1 hruns).1) hint preempted

/-! ### Blocking -/

theorem current_suspended (id : TaskId) (reason : BlockReason) :
    (s.suspended id reason).current = s.current := by
  cases reason <;> rfl

theorem idle_suspended (id : TaskId) (reason : BlockReason) :
    (s.suspended id reason).idle = s.idle := by
  cases reason <;> rfl

/-- As long as a task is ready, no blocked one is looked at. -/
theorem selectNext_of_ready (hready : s.ready.isEmpty = false) (hint : Option TaskId) :
    (s.selectNext hint).2 = s := by
  rw [Scheduler.selectNext, hready]
  simp only [Bool.false_eq_true, if_false]
  split
  · rfl
  · split <;> rfl

/-- A task that blocks goes on if it is alone in the ready ring, and is the first of the blocked
tasks whose wait is over. -/
theorem Coherent.current_block (h : s.Coherent) {id : TaskId} (hid : s.working? = some id)
    (reason : BlockReason) (hint : Option TaskId) :
    ((s.suspended id reason).switchToNext hint false).2.current = some id ↔
      s.ready.toList = [id] ∧ (s.suspended id reason).blocked.toList.find?
        (s.suspended id reason).isWakeable = some id := by
  obtain ⟨a, b, hab⟩ := h.ready_of_working? hid
  obtain ⟨waiting', -, hq, -⟩ := h.queued.suspend hab reason
  have hq : (s.suspended id reason).Queued (a ++ b) waiting' := hq
  have hnodup := h.queued.ready.nodup
  rw [hab] at hnodup
  have hidle : s.idle ≠ some id := (working?_eq_some hid).2
  have hcurrent : (s.suspended id reason).current = some id :=
    (current_suspended id reason).trans (working?_eq_some hid).1
  have hchoice : ((s.suspended id reason).selectNext hint).1.or s.idle = some id ↔
      ((s.suspended id reason).selectNext hint).1 = some id := by
    rw [Option.or_eq_some_iff]
    exact ⟨fun hor => hor.resolve_right fun hi => hidle hi.2, .inl⟩
  rw [hq.current_switchToNext, idle_suspended, hchoice, hab]
  by_cases halone : a ++ b = []
  · -- nobody else is ready, so those whose wait is over are readied
    have hempty : (s.suspended id reason).ready.isEmpty = true := hq.ready.isEmpty_iff.2 halone
    obtain ⟨hwoken, -⟩ := hq.unblockWakeable
    have hhead := hwoken.ready.head
    rw [halone, List.nil_append, List.head?_filter] at hhead
    obtain ⟨rfl, rfl⟩ := List.append_eq_nil_iff.1 halone
    rw [Scheduler.selectNext, if_pos hempty, hq.blocked.toList_eq]
    simp only [hhead, List.nil_append, true_and]
  · -- somebody else is ready, and the choice is from the ring
    have hsome : ((s.suspended id reason).selectNext hint).1 ≠ some id := by
      intro hsome
      have hring : (s.suspended id reason).ready.isEmpty = false := by
        rw [← Bool.not_eq_true, hq.ready.isEmpty_iff]
        exact halone
      obtain ⟨ring', waiting'', hq', -, -, hin⟩ := hq.selectNext hint
      -- the ring is as it was, without the task
      rw [selectNext_of_ready hring] at hq'
      have hmem := (hq.ready.contains_iff id).1 ((hq'.ready.contains_iff id).2 (hin id hsome))
      grind
    refine ⟨fun hc => absurd hc hsome, fun hc => absurd ?_ halone⟩
    have hlength := congrArg List.length hc.1
    simp only [List.length_append, List.length_cons, List.length_nil] at hlength
    exact List.eq_nil_of_length_eq_zero (by rw [List.length_append]; omega)

/-- After the current task was taken off the ring, nobody is marked until the turn passes on. -/
theorem Marked.suspended (h : s.Marked lapsed) {id : TaskId} (hid : s.current = some id)
    (reason : BlockReason) : (s.suspended id reason).Marked True := by
  have hruns : ∀ j, (s.suspended id reason).Runs j ↔ j ≠ id ∧ s.Runs j := by
    intro j
    cases reason
    · exact runs_modifyTask_of_idle id (fun t hrunning => by cases hrunning) j
    · exact runs_modifyTask_of_idle id (fun t hrunning => by cases hrunning) j
  refine marked_true_iff.2 fun j hj => ?_
  obtain ⟨hne, hj⟩ := (hruns j).1 hj
  have hcurrent := ((h j).1 hj).1
  rw [hid] at hcurrent
  exact hne (Option.some.inj hcurrent).symm

theorem Marked.block (h : s.Marked lapsed) (hco : s.Coherent) {id : TaskId}
    (hid : s.working? = some id) (reason : BlockReason) (hint : Option TaskId) :
    ((s.suspended id reason).switchToNext hint false).2.Marked
      (((s.suspended id reason).switchToNext hint false).2.current = s.current) := by
  obtain ⟨a, b, hab⟩ := hco.ready_of_working? hid
  obtain ⟨waiting', -, hq, -⟩ := hco.queued.suspend hab reason
  have hnone := h.suspended (working?_eq_some hid).1 reason
  have hmarked := hnone.switchToNext hq
    (fun j hj => absurd hj (marked_true_iff.1 hnone j)) hint false
  rwa [current_suspended, and_true] at hmarked

/-! ### What each operation does to the marks -/

theorem Marked.joined (h : s.Marked lapsed) {task : Task} (hj : Joined s task s')
    (hfresh : s.contains task.id = false) : s'.Marked (s'.current = s.current ∧ lapsed) := by
  refine h.kept (fun id => ?_) hj.current
  rw [Runs, hj.task?]
  split
  · rename_i heq
    refine ⟨fun ⟨t, ht, hrunning⟩ => ?_, fun hruns => ?_⟩
    · cases ht
      cases hrunning
    · have hin := hruns.contains
      rw [heq, hfresh] at hin
      cases hin
  · exact Iff.rfl

theorem Marked.unchanged (h : s.Marked lapsed) (hs : s' = s) :
    s'.Marked (s'.current = s.current ∧ lapsed) :=
  h.kept (fun id => by rw [hs]) (by rw [hs])

theorem runs_withMailbox (id : TaskId) (mailbox : Mailbox) (j : TaskId) :
    (s.withMailbox id mailbox).Runs j ↔ s.Runs j :=
  runs_modifyTask_of_state id (f := fun t => { t with mailbox := mailbox }) (fun _ => rfl) j

theorem Marked.deliver (h : s.Marked lapsed) (recipient : TaskId) (message : Message) :
    (s.deliver recipient message).2.Marked
      ((s.deliver recipient message).2.current = s.current ∧ lapsed) := by
  rw [Scheduler.deliver]
  split
  · exact h.unchanged rfl
  · split
    · exact h.unchanged rfl
    · rename_i t ht
      split
      · exact h.unchanged rfl
      · rename_i mailbox _
        have hmail := runs_withMailbox (s := s) recipient mailbox
        dsimp only
        split
        · rename_i hwake
          refine h.kept (fun id => ?_) rfl
          refine (runs_makeReady recipient id).trans ((and_congr_right' (hmail id)).trans ?_)
          refine ⟨And.right, fun hid => ⟨?_, hid⟩⟩
          -- a task that waits for mail does not run
          rintro rfl
          obtain ⟨u, hu, hrunning⟩ := hid
          rw [ht] at hu
          cases hu
          rw [hwake.1] at hrunning
          cases hrunning
        · exact h.kept hmail rfl

/-- A task that found nothing suitable in its mailbox has nothing to go on for. -/
theorem isWakeable_waiting {id : TaskId} {t : Task} (ht : s.task? id = some t)
    {filter : Option Filter} {mailbox : Mailbox}
    (htake : takeMessage t.mailbox filter = (.ok none, mailbox)) :
    ((s.withMailbox id mailbox).suspended id
      (.mail (filter.map fun _ => mailbox.sends))).isWakeable id = false := by
  rw [isWakeable, task?_suspended, if_pos rfl, task?_withMailbox, if_pos rfl, ht]
  cases filter with
  | none =>
    -- a receive without a filter takes the oldest frame, whatever it holds
    have hunread : mailbox.unread = 0 := Mailbox.unread_of_receive htake
    simp [Task.suspended, Task.isWakeable, Mailbox.hasUnread, hunread]
  | some filter => simp [Task.suspended, Task.isWakeable]

/-- A task that asks for a message never goes on after it has begun to wait. -/
theorem Marked.receive (h : s.Marked lapsed) (hco : s.Coherent) (filter : Option Filter) :
    (s.receive filter).2.Marked ((s.receive filter).2.current = s.current ∧ lapsed) := by
  rcases hco.receive_cases filter with hs | ⟨id, t, mailbox, hworking, ht, hs | ⟨htake, hs⟩⟩ <;>
    rw [hs]
  · exact h.unchanged rfl
  · exact h.kept (runs_withMailbox id mailbox) rfl
  · have hmail : (s.withMailbox id mailbox).Marked lapsed :=
      fun j => (runs_withMailbox id mailbox j).trans (h j)
    have hco' := hco.withMailbox id mailbox
    have hworking' : (s.withMailbox id mailbox).working? = some id := hworking
    have hmarked := hmail.block hco' hworking'
      (.mail (filter.map fun _ => mailbox.sends)) (s.ready.next id)
    have hgone : ¬ (((s.withMailbox id mailbox).suspended id (.mail (filter.map fun _ =>
        mailbox.sends))).switchToNext (s.ready.next id) false).2.current = s.current := by
      rw [(working?_eq_some hworking).1, hco'.current_block hworking']
      rintro ⟨-, hfind⟩
      have hwakes := List.find?_some hfind
      rw [isWakeable_waiting ht htake] at hwakes
      cases hwakes
    intro j
    refine (hmarked j).trans (and_congr_right' (not_congr ?_))
    exact ⟨fun hc => absurd hc hgone, fun hc => absurd hc.1 hgone⟩

/-- The task that ends is not current any more. -/
theorem Marked.exit (h : s.Marked lapsed) (hco : s.Coherent) :
    s.exit.2.Marked (s.exit.2.current = s.current ∧ lapsed) := by
  rcases hco.exit (Prod.eta s.exit).symm with
    ⟨-, hs⟩ | ⟨id, t, switch, -, hid, hcleanup, ht, hco', -, hr⟩
  · exact h.unchanged hs
  · have hgone : ¬ s.exit.2.current = s.current := by
      rw [(working?_eq_some hid).1]
      intro hcurrent
      have hlive := hco'.contains_current hcurrent
      rw [hr.contains] at hlive
      obtain ⟨u, hu⟩ := Option.isSome_iff_exists.1 hlive
      have hu : (s.retired id t).task? id = some u := hu
      rw [task?_retired, if_pos rfl] at hu
      cases hu
    have hnone : (s.retired id t).Marked True := by
      refine marked_true_iff.2 fun j ⟨u, hu, hrunning⟩ => ?_
      rw [task?_retired] at hu
      split at hu
      · cases hu
      · rename_i hne
        have hcurrent := ((h j).1 ⟨u, hu, hrunning⟩).1
        rw [(working?_eq_some hid).1] at hcurrent
        exact hne (Option.some.inj hcurrent).symm
    obtain ⟨a, b, hab⟩ := hco.ready_of_working? hid
    have hq := hco.queued.retired hab hcleanup t
    obtain ⟨ring, waiting, hq', -, hwoken⟩ := hq.wakeCleanup
    have hcurrent : (s.retired id t).wakeCleanup.current = s.current := hwoken
    -- waking the cleanup task touches no mark either
    have hruns : ∀ j, ¬ (s.retired id t).wakeCleanup.Runs j := by
      rw [wakeCleanup]
      split
      · intro j
        rw [hq.runs_wake (fun k _ => marked_true_iff.1 hnone k)]
        exact marked_true_iff.1 hnone j
      · exact marked_true_iff.1 hnone
    have hmarked := (marked_true_iff.2 hruns).switchToNext hq'
      (fun j hj => absurd hj (hruns j)) (s.ready.next id) false
    rw [hco.exit_eq hid hcleanup ht] at hgone ⊢
    rw [hcurrent, and_true] at hmarked
    intro j
    refine (hmarked j).trans (and_congr_right' (not_congr ?_))
    exact ⟨fun hc => absurd hc hgone, fun hc => absurd hc.1 hgone⟩

theorem Marked.unblock (h : s.Marked lapsed) (hco : s.Coherent) (id : TaskId) :
    (s.unblock id).2.Marked ((s.unblock id).2.current = s.current ∧ lapsed) := by
  rw [Scheduler.unblock]
  split
  · exact h.unchanged rfl
  · rename_i hid
    have hblocked : s.blocked.contains id = true := by
      revert hid
      cases s.blocked.contains id <;> simp
    have hout := h.not_runs_of_blocked hco id ((hco.queued.blocked.contains_iff id).1 hblocked)
    exact h.kept (runs_makeReady_iff hout) rfl

theorem Marked.tick (h : s.Marked lapsed) (hco : s.Coherent) :
    s.tick.2.Marked (s.tick.2.current = s.current ∧ lapsed) := by
  rw [Scheduler.tick]
  split
  · have hq : ({ s with elapsed := s.elapsed + s.timeslice } : Scheduler).Queued s.ready.toList
        s.blocked.toList := hco.queued.congr rfl rfl rfl rfl rfl
    obtain ⟨hq', -⟩ := hq.unblockWakeable
    have hcurrent := current_unblockWakeable { s with elapsed := s.elapsed + s.timeslice }
    have hruns : ∀ j, ({ s with elapsed := s.elapsed + s.timeslice } :
        Scheduler).unblockWakeable.2.Runs j ↔ s.Runs j :=
      hq.runs_unblockWakeable (h.not_runs_of_blocked hco)
    have hco' : ({ s with elapsed := s.elapsed + s.timeslice } :
        Scheduler).unblockWakeable.2.Coherent :=
      Coherent.unblockWakeable ⟨hq, hco.current⟩
    have hmarked : ({ s with elapsed := s.elapsed + s.timeslice } :
        Scheduler).unblockWakeable.2.Marked lapsed := by
      intro j
      rw [hruns, h, hcurrent]
    have hturn := hmarked.turn hco' none true
    rwa [hcurrent] at hturn
  · exact h.unchanged rfl

/-- Unless a task blocks, the mark does not lapse. -/
theorem Marked.step_of_ne (h : s.Marked lapsed) (hco : s.Coherent) (operation : Operation)
    (hne : ∀ reason, operation ≠ .block reason) :
    (s.step operation).2.Marked ((s.step operation).2.current = s.current ∧ lapsed) := by
  cases operation with
  | installIdle task =>
    rcases hco.installIdle (Prod.eta (s.installIdle task)).symm with
      ⟨-, -, hs⟩ | ⟨-, hfresh, -, hj, -⟩
    · exact h.unchanged hs
    · exact h.joined hj hfresh
  | installCleanup task =>
    rcases hco.installCleanup (Prod.eta (s.installCleanup task)).symm with
      ⟨-, -, hs⟩ | ⟨-, hfresh, -, hj, -⟩
    · exact h.unchanged hs
    · exact h.joined hj hfresh
  | schedule task =>
    rcases hco.schedule (Prod.eta (s.schedule task)).symm with
      ⟨-, -, hs⟩ | ⟨-, hfresh, -, hj, -⟩
    · exact h.unchanged hs
    · exact h.joined hj hfresh
  | start =>
    have hstarted : ({ s with started := true } : Scheduler).Marked lapsed := h
    have hco' : ({ s with started := true } : Scheduler).Coherent :=
      ⟨hco.queued.congr rfl rfl rfl rfl rfl, hco.current⟩
    exact hstarted.turn hco' none false
  | reschedule =>
    rw [Scheduler.step, Scheduler.reschedule]
    split
    · exact h.unchanged rfl
    · exact h.turn hco none false
  | block reason => exact absurd rfl (hne reason)
  | unblock id => exact h.unblock hco id
  | wake id =>
    exact h.kept (hco.queued.runs_wake (h.not_runs_of_blocked hco) id) (current_wake s id)
  | unblockWakeable =>
    exact h.kept (hco.queued.runs_unblockWakeable (h.not_runs_of_blocked hco))
      (current_unblockWakeable s)
  | tick => exact h.tick hco
  | findNext =>
    obtain ⟨-, -, -, -, hcurrent, -⟩ := hco.queued.selectNext none
    exact h.kept (hco.queued.runs_selectNext (h.not_runs_of_blocked hco) none) hcurrent
  | runNext => exact h.turn hco none false
  | deliver recipient message => exact h.deliver recipient message
  | receive filter => exact h.receive hco filter
  | exit => exact h.exit hco
  | reap => exact h.kept (fun _ => Iff.rfl) rfl
  | changePriority id priority =>
    rw [Scheduler.step, Scheduler.changePriority]
    split
    · exact h.unchanged rfl
    · exact h.kept (runs_modifyTask_of_state id
        (f := fun t => { t with priority := priority }) fun _ => rfl) rfl

/-- The current task blocks. -/
def Blocks (s : Scheduler) (operation : Operation) (id : TaskId) : Prop :=
  s.working? = some id ∧ ∃ reason, operation = .block reason

/-- The mark of the current task lapses when it blocks and goes on, and is right again when
another task is current. -/
theorem Marked.step (h : s.Marked lapsed) (hco : s.Coherent) (operation : Operation) :
    (s.step operation).2.Marked ((s.step operation).2.current = s.current ∧
      (lapsed ∨ ∃ id, s.Blocks operation id)) := by
  by_cases hblocks : ∃ id, s.Blocks operation id
  · obtain ⟨id, hworking, reason, rfl⟩ := id hblocks
    have hmarked := h.block hco hworking reason (s.ready.next id)
    rw [Scheduler.step, hco.block_eq hworking]
    intro j
    refine (hmarked j).trans (and_congr_right' (not_congr ?_))
    exact ⟨fun hc => ⟨hc, .inr hblocks⟩, And.left⟩
  · have hquiet : (s.step operation).2.Marked
        ((s.step operation).2.current = s.current ∧ lapsed) := by
      cases operation with
      | block reason =>
        cases hworking : s.working? with
        | none =>
          refine h.unchanged ?_
          rw [Scheduler.step, block_eq_of_none hworking]
          rfl
        | some id => exact absurd ⟨id, hworking, reason, rfl⟩ hblocks
      | _ => exact h.step_of_ne hco _ fun reason he => by cases he
    intro j
    refine (hquiet j).trans (and_congr_right' (not_congr (and_congr_right' ?_)))
    exact ⟨.inl, fun hor => hor.resolve_right hblocks⟩

/-! ### Runs -/

/-- Since it last became current, the task has blocked and gone on. -/
def WentOn (s : Scheduler) (operations : List Operation) (id : TaskId) : Prop :=
  ∃ before reason after, operations = before ++ .block reason :: after ∧
    (s.run before).working? = some id ∧
    ∀ later, later <+: after → (s.run (before ++ .block reason :: later)).current = some id

theorem WentOn.current {operations : List Operation} {id : TaskId}
    (h : s.WentOn operations id) : (s.run operations).current = some id := by
  obtain ⟨before, reason, after, rfl, -, hcurrent⟩ := h
  exact hcurrent after (List.prefix_refl after)

theorem run_concat (s : Scheduler) (operations : List Operation) (operation : Operation) :
    s.run (operations ++ [operation]) = ((s.run operations).step operation).2 := by
  rw [Scheduler.run, List.foldl_append]
  rfl

theorem wentOn_concat {operations : List Operation} {operation : Operation} {id : TaskId} :
    s.WentOn (operations ++ [operation]) id ↔
      (s.run (operations ++ [operation])).current = some id ∧
        (s.WentOn operations id ∨ (s.run operations).Blocks operation id) := by
  constructor
  · intro h
    refine ⟨h.current, ?_⟩
    obtain ⟨before, reason, after, heq, hworking, hcurrent⟩ := h
    rcases List.eq_nil_or_concat after with rfl | ⟨later, last, rfl⟩
    · obtain ⟨rfl, hlast⟩ := List.append_inj' heq rfl
      exact .inr ⟨hworking, reason, List.singleton_inj.1 hlast⟩
    · rw [List.concat_eq_append, ← List.cons_append, ← List.append_assoc] at heq
      obtain ⟨rfl, -⟩ := List.append_inj' heq rfl
      refine .inl ⟨before, reason, later, rfl, hworking, fun first hfirst => hcurrent first ?_⟩
      rw [List.concat_eq_append]
      exact hfirst.trans (List.prefix_append later [last])
  · rintro ⟨hlast, ⟨before, reason, after, rfl, hworking, hcurrent⟩ | ⟨hworking, reason, rfl⟩⟩
    · refine ⟨before, reason, after ++ [operation], by simp, hworking, fun later hlater => ?_⟩
      rcases List.prefix_concat_iff.1 hlater with rfl | hlater
      · rw [← List.cons_append, ← List.append_assoc]
        exact hlast
      · exact hcurrent later hlater
    · refine ⟨operations, reason, [], rfl, hworking, fun later hlater => ?_⟩
      rw [List.prefix_nil.1 hlater]
      exact hlast

/-- After any operations the mark of the current task has lapsed if the task went on. -/
theorem Marked.run (h : s.Marked False) (hco : s.Coherent) (operations : List Operation) :
    (s.run operations).Marked (∃ id, s.WentOn operations id) ∧ (s.run operations).Coherent := by
  induction operations using List.reverseRecOn with
  | nil =>
    refine ⟨fun id => (h id).trans (and_congr_right' (not_congr ?_)), hco⟩
    refine ⟨False.elim, fun ⟨j, before, reason, after, heq, _⟩ => ?_⟩
    simp at heq
  | append_singleton operations operation ih =>
    obtain ⟨hmarked, hco'⟩ := ih
    rw [run_concat]
    refine ⟨fun id => ?_, (hco'.step operation).1⟩
    refine (hmarked.step hco' operation id).trans (and_congr_right fun hid => not_congr ?_)
    simp only [wentOn_concat, run_concat]
    constructor
    · -- it is the task that was current, and went on or blocks now
      rintro ⟨hsame, ⟨j, hj⟩ | ⟨j, hj⟩⟩
      · exact ⟨j, hsame.trans hj.current, .inl hj⟩
      · exact ⟨j, hsame.trans (working?_eq_some hj.1).1, .inr hj⟩
    · rintro ⟨j, hcurrent, hj | hj⟩
      · exact ⟨hcurrent.trans hj.current.symm, .inl ⟨j, hj⟩⟩
      · exact ⟨hcurrent.trans (working?_eq_some hj.1).1.symm, .inr ⟨j, hj⟩⟩

/-- After any operations a live task is marked as running exactly if it is current and has not gone
on after it blocked. Any other task of the ready ring, and the current one if it went on, is
marked as ready. -/
theorem run_running_iff (core : CoreId) (timeslice : Nat) (operations : List Operation)
    {id : TaskId} {t : Task} (ht : ((new core timeslice).run operations).task? id = some t) :
    (t.state = .running ↔ ((new core timeslice).run operations).current = some id ∧
        ¬ (new core timeslice).WentOn operations id) ∧
      (t.state ≠ .running → ((new core timeslice).run operations).current = some id ∨
        id ∈ ((new core timeslice).run operations).ready.toList → t.state = .ready) := by
  obtain ⟨hmarked, -⟩ :=
    (marked_new core timeslice).run (coherent_new core timeslice) operations
  have hsettled : ((new core timeslice).run operations).Settled fun _ _ => True :=
    (settled_new core timeslice).run fun _ _ _ _ => trivial
  constructor
  · have hruns : ((new core timeslice).run operations).Runs id ↔ t.state = .running :=
      ⟨fun ⟨u, hu, hrunning⟩ => Option.some.inj (ht.symm.trans hu) ▸ hrunning,
        fun hrunning => ⟨t, ht, hrunning⟩⟩
    rw [← hruns, hmarked]
    refine and_congr_right fun hid => not_congr ⟨fun ⟨j, hj⟩ => ?_, fun hid => ⟨id, hid⟩⟩
    rw [hj.current] at hid
    exact Option.some.inj hid ▸ hj
  · intro hidle hplace
    have hout : ((new core timeslice).run operations).blocked.contains id = false := by
      rcases hplace with hcurrent | hready
      · exact hsettled.coherent.not_blocked_of_current hcurrent
      · rw [← Bool.not_eq_true, hsettled.coherent.queued.blocked.contains_iff]
        exact hsettled.coherent.queued.apart id hready
    have hobeys := hsettled.obeys id t ht
    rw [hout] at hobeys
    exact hobeys.1.resolve_right hidle

/-- The only task of a core sleeps for no time at all. -/
def nap : List Operation :=
  [.installIdle (plainTask 0), .schedule (plainTask 1), .start, .block (.sleep 0)]

theorem run_running_iff_nap :
    ((new 0 10).run nap).task? 1 = some { plainTask 1 with lastCore := some 0 } ∧
      ((new 0 10).run nap).current = some 1 ∧ (new 0 10).WentOn nap 1 := by
  have ht : ((new 0 10).run nap).task? 1 = some { plainTask 1 with lastCore := some 0 } := by rfl
  have hcurrent : ((new 0 10).run nap).current = some 1 := by rfl
  refine ⟨ht, hcurrent, ?_⟩
  -- a current task that is marked as ready can only have gone on
  by_contra hnot
  have hrunning := (run_running_iff 0 10 nap ht).1.2 ⟨hcurrent, hnot⟩
  cases hrunning

/-- A task that goes on after it blocked is current and not marked as running. -/
theorem current_not_running_nap :
    ¬ ∀ id t, ((new 0 10).run nap).task? id = some t →
      (t.state = .running ↔ ((new 0 10).run nap).current = some id) := by
  intro h
  have hcurrent : ((new 0 10).run nap).current = some 1 := by rfl
  have hrunning := (h 1 { plainTask 1 with lastCore := some 0 } (by rfl)).2 hcurrent
  cases hrunning

end Scheduler

end Microkernel
