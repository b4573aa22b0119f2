/-
Sleepers wake in order.

The blocked queue mixes tasks that sleep with tasks that wait for mail. Among those that sleep, one
that wakes earlier stands in front of one that wakes later, and of two that wake at the same time
the one that began to sleep first stands in front. The scan that readies the tasks whose wait is
over goes through the queue from head to tail, so they become ready in this order.

* **`Coherent.sleepers_step`**: an operation that puts nobody to sleep lets sleepers go at most;
* **`Ordered.step`**: a task that begins to sleep takes its place in the order;
* **`Coherent.scan_eq`**: the scan that follows the links of the queue while it takes tasks out of
  it comes to every task that is due;
* **`wakes_in_order`**: the order, the scan and the timer tick, after any operations.

Design notes: a sleep has no name of its own, so when a task began its present sleep is read off the
list of all the sleeps so far (`naps`), in which the task stands once for every sleep of it.
-/
import Microkernel.Proofs.Scheduler.RoundRobin

namespace Microkernel

/-- When a task that sleeps wakes. -/
def Task.wakesAt? (t : Task) : Option Nat :=
  if t.state = .sleeping then some t.wakeTime else none

namespace Scheduler

variable {s s' : Scheduler} {id : TaskId} {ring waiting : List TaskId}

/-! ### Sleepers -/

/-- When a live task that sleeps wakes. -/
def wakesAt? (s : Scheduler) (id : TaskId) : Option Nat :=
  (s.task? id).bind Task.wakesAt?

/-- The sleepers among some tasks, each with its wake time. -/
def sleepersIn (s : Scheduler) (ids : List TaskId) : List (TaskId × Nat) :=
  ids.filterMap fun id => (s.wakesAt? id).map fun wakeTime => (id, wakeTime)

/-- The sleepers of the blocked queue, from head to tail. -/
def sleepers (s : Scheduler) : List (TaskId × Nat) :=
  s.sleepersIn s.blocked.toList

theorem sleepersIn_congr {ids : List TaskId} (h : ∀ id ∈ ids, s'.wakesAt? id = s.wakesAt? id) :
    s'.sleepersIn ids = s.sleepersIn ids :=
  List.filterMap_congr fun id hid => by rw [h id hid]

theorem sleepersIn_cons (ids : List TaskId) : s.sleepersIn (id :: ids) =
    ((s.wakesAt? id).map fun wakeTime => (id, wakeTime)).toList ++ s.sleepersIn ids := by
  rw [sleepersIn, List.filterMap_cons]
  cases s.wakesAt? id <;> rfl

theorem mem_sleepersIn {ids : List TaskId} {x : TaskId × Nat} :
    x ∈ s.sleepersIn ids ↔ x.1 ∈ ids ∧ s.wakesAt? x.1 = some x.2 := by
  rw [sleepersIn, List.mem_filterMap]
  constructor
  · rintro ⟨id, hid, hx⟩
    obtain ⟨wakeTime, hwakes, rfl⟩ := Option.map_eq_some_iff.1 hx
    exact ⟨hid, hwakes⟩
  · rintro ⟨hid, hwakes⟩
    exact ⟨x.1, hid, by rw [hwakes]; rfl⟩

/-- Whether a task sleeps longer than until `time` is read off its wake time. -/
theorem sleepsBeyond_eq (time : Nat) (id : TaskId) :
    s.sleepsBeyond time id = (s.wakesAt? id).any fun wakeTime => decide (time < wakeTime) := by
  rw [sleepsBeyond, wakesAt?]
  cases s.task? id with
  | none => rfl
  | some t =>
    rw [Option.any_some, Option.bind_some, Task.wakesAt?]
    split
    · rename_i hasleep
      simp [hasleep]
    · rename_i hawake
      simp [hawake]

theorem wakesAt?_modifyTask {f : Task → Task} (hf : ∀ t, (f t).wakesAt? = t.wakesAt?)
    (id j : TaskId) : (s.modifyTask id f).wakesAt? j = s.wakesAt? j := by
  rw [wakesAt?, wakesAt?, task?_modifyTask]
  split
  · rw [Option.bind_map]
    exact congrArg _ (funext hf)
  · rfl

theorem wakesAt?_modifyTask_of_ne {f : Task → Task} {j : TaskId} (hne : j ≠ id) :
    (s.modifyTask id f).wakesAt? j = s.wakesAt? j := by
  rw [wakesAt?, wakesAt?, task?_modifyTask, if_neg hne]

theorem wakesAt?_pause (t : Task) : (pause t).wakesAt? = t.wakesAt? := by
  rw [pause]
  split
  · rename_i hrunning
    rw [Task.wakesAt?, Task.wakesAt?, hrunning]
    rfl
  · rfl

/-! ### What lets sleepers go -/

/-- Whoever is blocked was so before, in the same order, and sleeps as long as it did. -/
def Rouses (s s' : Scheduler) : Prop :=
  ∀ waiting, s.blocked.Spells waiting → ∃ left, s'.blocked.Spells left ∧ left.Sublist waiting ∧
    ∀ id ∈ left, s'.wakesAt? id = s.wakesAt? id

theorem Rouses.sleepers (h : Rouses s s') (hq : s.blocked.Spells waiting) :
    s'.sleepers.Sublist s.sleepers := by
  obtain ⟨left, hleft, hsub, hsame⟩ := h waiting hq
  rw [Scheduler.sleepers, Scheduler.sleepers, hleft.toList_eq, hq.toList_eq, sleepersIn_congr hsame]
  exact hsub.filterMap _

namespace Rouses

theorem of_blocked (hblocked : s'.blocked = s.blocked)
    (hsame : ∀ id, s.blocked.contains id = true → s'.wakesAt? id = s.wakesAt? id) : Rouses s s' :=
  fun waiting hq => ⟨waiting, hblocked ▸ hq, List.Sublist.refl waiting,
    fun id hid => hsame id ((hq.contains_iff id).2 hid)⟩

theorem refl (s : Scheduler) : Rouses s s :=
  of_blocked rfl fun _ _ => rfl

theorem trans {s s' s'' : Scheduler} (h : Rouses s s') (h' : Rouses s' s'') : Rouses s s'' := by
  intro waiting hq
  obtain ⟨left, hleft, hsub, hsame⟩ := h waiting hq
  obtain ⟨rest, hrest, hsub', hsame'⟩ := h' left hleft
  exact ⟨rest, hrest, hsub'.trans hsub,
    fun id hid => (hsame' id hid).trans (hsame id (hsub'.subset hid))⟩

theorem withMailbox (s : Scheduler) (id : TaskId) (mailbox : Mailbox) :
    Rouses s (s.withMailbox id mailbox) :=
  of_blocked rfl fun j _ =>
    wakesAt?_modifyTask (f := fun t => { t with mailbox := mailbox }) (fun _ => rfl) id j

theorem makeReady (s : Scheduler) (id : TaskId) : Rouses s (s.makeReady id) := by
  intro waiting hq
  have hothers : ∀ left : List TaskId, id ∉ left →
      ∀ j ∈ left, (s.makeReady id).wakesAt? j = s.wakesAt? j := by
    intro left hnot j hj
    exact wakesAt?_modifyTask_of_ne fun e => hnot (e ▸ hj)
  by_cases hid : id ∈ waiting
  · obtain ⟨a, b, hab⟩ := List.append_of_mem hid
    have hnodup := hq.nodup
    have hsub : (a ++ b).Sublist waiting :=
      hab ▸ List.Sublist.append_left (List.sublist_cons_self id b) a
    refine ⟨a ++ b, hq.remove hab, hsub, hothers _ ?_⟩
    rw [hab] at hnodup
    grind
  · have hsame : (s.makeReady id).blocked = s.blocked :=
      congrArg Prod.snd (hq.remove_of_not_mem hid)
    exact ⟨waiting, hsame ▸ hq, List.Sublist.refl waiting, hothers waiting hid⟩

theorem makeReadyAll (ids : List TaskId) (s : Scheduler) :
    Rouses s (ids.foldl Scheduler.makeReady s) := by
  induction ids generalizing s with
  | nil => exact refl s
  | cons id ids ih => exact (makeReady s id).trans (ih (s.makeReady id))

theorem unblockWakeable (s : Scheduler) : Rouses s s.unblockWakeable.2 :=
  makeReadyAll _ s

theorem wake (s : Scheduler) (id : TaskId) : Rouses s (s.wake id).2 := by
  rw [Scheduler.wake]
  split
  · exact makeReady s id
  · exact refl s

theorem wakeCleanup (s : Scheduler) : Rouses s s.wakeCleanup := by
  rw [Scheduler.wakeCleanup]
  split
  · exact wake s _
  · exact refl s

theorem unblock (s : Scheduler) (id : TaskId) : Rouses s (s.unblock id).2 := by
  rw [Scheduler.unblock]
  split
  · exact refl s
  · exact makeReady s id

theorem deliver (s : Scheduler) (recipient : TaskId) (message : Message) :
    Rouses s (s.deliver recipient message).2 := by
  rw [Scheduler.deliver]
  split
  · exact refl s
  split
  · exact refl s
  split
  · exact refl s
  · rename_i mailbox _
    have hmail : Rouses s (s.withMailbox recipient mailbox) := withMailbox s recipient mailbox
    dsimp only
    split
    · exact hmail.trans (makeReady (s.withMailbox recipient mailbox) recipient)
    · exact hmail

theorem selectNext (s : Scheduler) (hint : Option TaskId) : Rouses s (s.selectNext hint).2 := by
  rw [Scheduler.selectNext]
  split
  · exact unblockWakeable s
  split
  · exact refl s
  split <;> exact refl s

/-- A task that is not blocked is entered. -/
theorem enter (previous : Option TaskId) {next : TaskId}
    (hnext : s.blocked.contains next = false) : Rouses s (s.enter previous next) := by
  have hentered : ∀ paused : Scheduler, paused.blocked.contains next = false →
      Rouses paused { paused.modifyTask next fun t =>
        { t with state := .running, lastCore := some s.core } with current := some next } := by
    intro paused hout
    refine of_blocked rfl fun j hj => wakesAt?_modifyTask_of_ne ?_
    rintro rfl
    rw [hout] at hj
    cases hj
  cases previous with
  | none => exact hentered s hnext
  | some id =>
    have hpaused : Rouses s (s.modifyTask id pause) :=
      of_blocked rfl fun j _ => wakesAt?_modifyTask wakesAt?_pause id j
    exact hpaused.trans (hentered (s.modifyTask id pause) hnext)

/-- A new task is not blocked. -/
theorem of_insert {task : Task} (h : s.Coherent) (hfresh : s.contains task.id = false)
    (hblocked : s'.blocked = s.blocked)
    (htasks : ∀ j, j ≠ task.id → s'.task? j = s.task? j) : Rouses s s' := by
  refine of_blocked hblocked fun j hj => ?_
  rw [wakesAt?, wakesAt?, htasks j]
  rintro rfl
  rw [h.queued.contains_of_blocked ((h.queued.blocked.contains_iff _).1 hj)] at hfresh
  cases hfresh

end Rouses

theorem Queued.rouses_switchToNext (h : s.Queued ring waiting) (hint : Option TaskId)
    (preempted : Bool) : Rouses s (s.switchToNext hint preempted).2 := by
  have hselect : Rouses s (s.selectNext hint).2 := .selectNext s hint
  rcases h.switchToNext_cases hint preempted with hs | hs | ⟨next, hnext, hs⟩ <;> rw [hs]
  · exact hselect
  · exact hselect.trans (.of_blocked rfl fun _ _ => rfl)
  · exact hselect.trans (.enter s.current hnext)

/-! ### What each operation does to the sleepers -/

theorem wakesAt?_suspended_of_ne {j : TaskId} (hne : j ≠ id) (reason : BlockReason) :
    (s.suspended id reason).wakesAt? j = s.wakesAt? j := by
  rw [wakesAt?, wakesAt?, task?_suspended, if_neg hne]

/-- A task that waits for mail is not among the sleepers. -/
theorem Coherent.sleepers_suspended_mail (h : s.Coherent) (hid : s.working? = some id)
    (since : Option Nat) : (s.suspended id (.mail since)).sleepers = s.sleepers := by
  have hnot : id ∉ s.blocked.toList := by
    rw [← h.queued.blocked.contains_iff, h.not_blocked_of_working? hid]
    exact Bool.false_ne_true
  have hblocked : (s.suspended id (.mail since)).blocked.toList = s.blocked.toList ++ [id] :=
    (h.queued.blocked.append hnot).toList_eq
  have hawake : (s.suspended id (.mail since)).wakesAt? id = none := by
    rw [wakesAt?, task?_suspended, if_pos rfl]
    cases s.task? id <;> rfl
  have hothers : ∀ j ∈ s.blocked.toList,
      (s.suspended id (.mail since)).wakesAt? j = s.wakesAt? j :=
    fun j hj => wakesAt?_suspended_of_ne (ne_of_mem_of_not_mem hj hnot) _
  have hlast : (s.suspended id (.mail since)).sleepersIn [id] = [] := by
    rw [sleepersIn_cons, hawake]
    rfl
  rw [sleepers, hblocked, sleepersIn, List.filterMap_append]
  exact (congrArg₂ (· ++ ·) (sleepersIn_congr hothers) hlast).trans (List.append_nil _)

theorem Coherent.sleepers_mail (h : s.Coherent) (hid : s.working? = some id) (since : Option Nat)
    (hint : Option TaskId) :
    ((s.suspended id (.mail since)).switchToNext hint false).2.sleepers.Sublist s.sleepers := by
  obtain ⟨a, b, hab⟩ := h.ready_of_working? hid
  obtain ⟨waiting, -, hq, -⟩ := h.queued.suspend hab (.mail since)
  have hq : (s.suspended id (.mail since)).Queued (a ++ b) waiting := hq
  rw [← h.sleepers_suspended_mail hid since]
  exact (hq.rouses_switchToNext hint false).sleepers hq.blocked

theorem Coherent.rouses_exit (h : s.Coherent) : Rouses s s.exit.2 := by
  by_cases hnone : s.working? = none ∨ s.working? = s.cleanup
  · rw [exit_eq_of_none hnone]
    exact .refl s
  · obtain ⟨hworking, hcleanup⟩ := not_or.1 hnone
    obtain ⟨id, hid⟩ := Option.ne_none_iff_exists'.1 hworking
    have hcleanup : s.cleanup ≠ some id := fun e => hcleanup (hid.trans e.symm)
    obtain ⟨t, ht⟩ := Option.isSome_iff_exists.1 (h.contains_current (working?_eq_some hid).1)
    obtain ⟨a, b, hab⟩ := h.ready_of_working? hid
    obtain ⟨ring, waiting, hq, -⟩ := (h.queued.retired hab hcleanup t).wakeCleanup
    have hretired : Rouses s (s.retired id t) := by
      refine .of_blocked rfl fun j hj => ?_
      rw [wakesAt?, wakesAt?, task?_retired, if_neg]
      rintro rfl
      rw [h.not_blocked_of_working? hid] at hj
      cases hj
    rw [h.exit_eq hid hcleanup ht]
    exact (hretired.trans (.wakeCleanup _)).trans (hq.rouses_switchToNext _ false)

theorem Coherent.rouses_tick (h : s.Coherent) : Rouses s s.tick.2 := by
  cases hstarted : s.started with
  | false =>
    rw [tick_of_stopped hstarted]
    exact .refl s
  | true =>
    have hadvanced : Rouses s s.advanced := .of_blocked rfl fun _ _ => rfl
    rw [tick_of_started hstarted]
    exact (hadvanced.trans (.unblockWakeable s.advanced)).trans
      (h.queued.advanced.unblockWakeable.1.rouses_switchToNext none true)

theorem Coherent.rouses_schedule (h : s.Coherent) (task : Task) : Rouses s (s.schedule task).2 := by
  rw [Scheduler.schedule]
  split
  · exact .refl s
  · rename_i hfresh
    exact .of_insert h (Bool.not_eq_true _ ▸ hfresh) rfl fun j hj =>
      (Table.get?_insert s.tasks task.id _ j).trans (if_neg hj)

theorem Coherent.rouses_installCleanup (h : s.Coherent) (task : Task) :
    Rouses s (s.installCleanup task).2 := by
  have hjoined := h.rouses_schedule task
  rw [Scheduler.installCleanup]
  generalize s.schedule task = scheduled at hjoined ⊢
  obtain ⟨result, s₁⟩ := scheduled
  cases result with
  | error e => exact hjoined
  | ok => exact hjoined.trans (.of_blocked rfl fun _ _ => rfl)

theorem Coherent.rouses_installIdle (h : s.Coherent) (task : Task) :
    Rouses s (s.installIdle task).2 := by
  rw [Scheduler.installIdle]
  split
  · exact .refl s
  · rename_i haccepted
    have hfresh : s.contains task.id = false ∧ s.idle = none := by simpa using haccepted
    exact .of_insert h hfresh.1 rfl fun j hj =>
      (Table.get?_insert s.tasks task.id _ j).trans (if_neg hj)

theorem rouses_changePriority (s : Scheduler) (id : TaskId) (priority : Priority) :
    Rouses s (s.changePriority id priority).2 := by
  rw [Scheduler.changePriority]
  split
  · exact .refl s
  · exact .of_blocked rfl fun j _ =>
      wakesAt?_modifyTask (f := fun t => { t with priority := priority }) (fun _ => rfl) id j

/-- The task that an operation puts to sleep. -/
def nap? (s : Scheduler) : Operation → Option TaskId
  | .block (.sleep _) => s.working?
  | _ => none

/-- An operation that puts nobody to sleep lets sleepers go at most. -/
theorem Coherent.sleepers_step (h : s.Coherent) {operation : Operation}
    (hnap : s.nap? operation = none) : (s.step operation).2.sleepers.Sublist s.sleepers := by
  have hq := h.queued
  have hstart : ({ s with started := true } : Scheduler).Queued s.ready.toList s.blocked.toList :=
    hq.congr rfl rfl rfl rfl rfl
  cases operation with
  | installIdle task => exact (h.rouses_installIdle task).sleepers hq.blocked
  | installCleanup task => exact (h.rouses_installCleanup task).sleepers hq.blocked
  | schedule task => exact (h.rouses_schedule task).sleepers hq.blocked
  | start => exact (hstart.rouses_switchToNext none false).sleepers hq.blocked
  | reschedule =>
    show s.reschedule.2.sleepers.Sublist s.sleepers
    rw [Scheduler.reschedule]
    split
    · exact List.Sublist.refl _
    · exact (hq.rouses_switchToNext none false).sleepers hq.blocked
  | block reason =>
    show (s.block reason).2.sleepers.Sublist s.sleepers
    cases hworking : s.working? with
    | none =>
      rw [block_eq_of_none hworking]
    | some id =>
      cases reason with
      | sleep milliseconds => exact absurd (hnap.symm.trans hworking) (by simp)
      | mail since =>
        rw [h.block_eq hworking]
        exact h.sleepers_mail hworking since _
  | unblock id => exact (Rouses.unblock s id).sleepers hq.blocked
  | wake id => exact (Rouses.wake s id).sleepers hq.blocked
  | unblockWakeable => exact (Rouses.unblockWakeable s).sleepers hq.blocked
  | tick => exact h.rouses_tick.sleepers hq.blocked
  | findNext => exact (Rouses.selectNext s none).sleepers hq.blocked
  | runNext => exact (hq.rouses_switchToNext none false).sleepers hq.blocked
  | deliver recipient message => exact (Rouses.deliver s recipient message).sleepers hq.blocked
  | receive filter =>
    show (s.receive filter).2.sleepers.Sublist s.sleepers
    rcases h.receive_cases filter with hs | ⟨id, t, mailbox, hworking, -, hs | ⟨-, hs⟩⟩
    · rw [hs]
    · rw [hs]
      exact (Rouses.withMailbox s id mailbox).sleepers hq.blocked
    · rw [hs]
      exact ((h.withMailbox id mailbox).sleepers_mail hworking _ _).trans
        ((Rouses.withMailbox s id mailbox).sleepers hq.blocked)
  | exit => exact h.rouses_exit.sleepers hq.blocked
  | reap => exact List.Sublist.refl _
  | changePriority id priority => exact (rouses_changePriority s id priority).sleepers hq.blocked

/-! ### The order of sleepers -/

/-- Of the two tasks, `id` began its last sleep before `later` did. -/
def Earlier (slept : List TaskId) (id later : TaskId) : Prop :=
  ∃ before after, slept = before ++ later :: after ∧ id ∈ before ∧ id ∉ after ∧ later ∉ after

/-- A sleeper wakes first if its time comes first, or at the same time and it began first. -/
def WakesFirst (slept : List TaskId) (x y : TaskId × Nat) : Prop :=
  x.2 < y.2 ∨ x.2 = y.2 ∧ Earlier slept x.1 y.1

/-- The sleepers of the blocked queue stand in the order in which they wake, if `slept` are the
sleeps so far. -/
structure Ordered (slept : List TaskId) (s : Scheduler) : Prop where
  napped : ∀ x ∈ s.sleepers, x.1 ∈ slept
  order : s.sleepers.Pairwise (WakesFirst slept)

variable {slept : List TaskId}

theorem Earlier.concat {j k : TaskId} (h : Earlier slept j k) (hj : j ≠ id) (hk : k ≠ id) :
    Earlier (slept ++ [id]) j k := by
  obtain ⟨before, after, rfl, hbefore, hj', hk'⟩ := h
  refine ⟨before, after ++ [id], by simp, hbefore, ?_, ?_⟩
  · exact fun hin => (List.mem_append.1 hin).elim hj' fun hlast => hj (List.mem_singleton.1 hlast)
  · exact fun hin => (List.mem_append.1 hin).elim hk' fun hlast => hk (List.mem_singleton.1 hlast)

/-- Whoever has slept before began its last sleep before one that begins now. -/
theorem Earlier.last {j : TaskId} (h : j ∈ slept) : Earlier (slept ++ [id]) j id :=
  ⟨slept, [], rfl, h, List.not_mem_nil, List.not_mem_nil⟩

theorem Ordered.sublist (h : s.Ordered slept) (hsub : s'.sleepers.Sublist s.sleepers) :
    s'.Ordered slept :=
  ⟨fun x hx => h.napped x (hsub.subset hx), h.order.sublist hsub⟩

theorem ordered_new (core : CoreId) (timeslice : Nat) : (new core timeslice).Ordered [] where
  napped x hx := by cases hx
  order := List.Pairwise.nil

/-- A task that begins to sleep is put in front of the first one that sleeps longer. -/
theorem Coherent.blocked_suspended_sleep (h : s.Coherent) (hid : s.working? = some id)
    (milliseconds : Nat) : ∃ front back, s.blocked.toList = front ++ back ∧
      (s.suspended id (.sleep milliseconds)).blocked.toList = front ++ id :: back ∧
      (∀ j ∈ front, s.sleepsBeyond (s.wakeTimeOf milliseconds) j = false) ∧
      ∀ j, back.head? = some j → s.sleepsBeyond (s.wakeTimeOf milliseconds) j = true := by
  have hnot : id ∉ s.blocked.toList := by
    rw [← h.queued.blocked.contains_iff, h.not_blocked_of_working? hid]
    exact Bool.false_ne_true
  have hblocked : (s.suspended id (.sleep milliseconds)).blocked = (s.blocked.insertBefore id
      (s.blocked.toList.find? (s.sleepsBeyond (s.wakeTimeOf milliseconds)))).2 := rfl
  rw [hblocked]
  cases hfind : s.blocked.toList.find? (s.sleepsBeyond (s.wakeTimeOf milliseconds)) with
  | none =>
    refine ⟨s.blocked.toList, [], (List.append_nil _).symm,
      (h.queued.blocked.append hnot).toList_eq, fun j hj => ?_, fun j hj => by cases hj⟩
    exact Bool.eq_false_iff.2 (List.find?_eq_none.1 hfind j hj)
  | some first =>
    obtain ⟨hbeyond, front, back, hsplit, hfront⟩ := List.find?_eq_some_iff_append.1 hfind
    refine ⟨front, first :: back, hsplit, (h.queued.blocked.insertBefore hsplit hnot).toList_eq,
      fun j hj => ?_, fun j hj => ?_⟩
    · simpa using hfront j hj
    · cases hj
      exact hbeyond

theorem Coherent.sleepers_suspended_sleep (h : s.Coherent) (hid : s.working? = some id)
    {milliseconds : Nat} {front back : List TaskId} (hsplit : s.blocked.toList = front ++ back)
    (hplace : (s.suspended id (.sleep milliseconds)).blocked.toList = front ++ id :: back) :
    (s.suspended id (.sleep milliseconds)).sleepers =
      s.sleepersIn front ++ (id, s.wakeTimeOf milliseconds) :: s.sleepersIn back := by
  obtain ⟨t, ht⟩ := Option.isSome_iff_exists.1 (h.contains_current (working?_eq_some hid).1)
  have ht : s.task? id = some t := ht
  have hnot : id ∉ front ++ back := by
    rw [← hsplit, ← h.queued.blocked.contains_iff, h.not_blocked_of_working? hid]
    exact Bool.false_ne_true
  have hothers : ∀ ids : List TaskId, id ∉ ids →
      (s.suspended id (.sleep milliseconds)).sleepersIn ids = s.sleepersIn ids :=
    fun ids hids => sleepersIn_congr fun j hj =>
      wakesAt?_suspended_of_ne (ne_of_mem_of_not_mem hj hids) _
  have hasleep : (s.suspended id (.sleep milliseconds)).wakesAt? id =
      some (s.wakeTimeOf milliseconds) := by
    rw [wakesAt?, task?_suspended, if_pos rfl, ht]
    rfl
  rw [sleepers, hplace, sleepersIn, List.filterMap_append]
  refine congrArg₂ (· ++ ·) (hothers front fun hin => hnot (List.mem_append_left _ hin)) ?_
  refine (sleepersIn_cons back).trans ?_
  rw [hasleep, hothers back fun hin => hnot (List.mem_append_right _ hin)]
  rfl

/-- The wake times behind a sleeper are not before its own. -/
theorem Ordered.lt_of_head (ho : s.Ordered slept) {front back : List TaskId}
    (hsplit : s.blocked.toList = front ++ back) {time : Nat}
    (hback : ∀ j, back.head? = some j → s.sleepsBeyond time j = true)
    {y : TaskId × Nat} (hy : y ∈ s.sleepersIn back) : time < y.2 := by
  have horder : (s.sleepersIn back).Pairwise (WakesFirst slept) := by
    have hall := ho.order
    rw [sleepers, hsplit, sleepersIn, List.filterMap_append] at hall
    exact (List.pairwise_append.1 hall).2.1
  cases back with
  | nil => cases hy
  | cons j back =>
    have hfirst := hback j rfl
    rw [sleepsBeyond_eq] at hfirst
    obtain ⟨wakeTime, hwakes, hlater⟩ := (Option.any_eq_true _ _).1 hfirst
    rw [decide_eq_true_eq] at hlater
    rw [sleepersIn_cons, hwakes] at horder hy
    rcases List.mem_cons.1 hy with rfl | hy
    · exact hlater
    · rcases (List.pairwise_cons.1 horder).1 y hy with hlt | ⟨heq, -⟩
      · exact hlater.trans hlt
      · exact hlater.trans_eq heq

/-- A task that begins to sleep takes its place in the order. -/
theorem Ordered.suspended (ho : s.Ordered slept) (h : s.Coherent) (hid : s.working? = some id)
    (milliseconds : Nat) : (s.suspended id (.sleep milliseconds)).Ordered (slept ++ [id]) := by
  obtain ⟨front, back, hsplit, hplace, hfront, hback⟩ :=
    h.blocked_suspended_sleep hid milliseconds
  have hsleepers : s.sleepers = s.sleepersIn front ++ s.sleepersIn back := by
    rw [sleepers, hsplit, sleepersIn, List.filterMap_append]
    rfl
  have hnew := h.sleepers_suspended_sleep hid hsplit hplace
  -- the task was awake, so its sleep concerns the order of no other two
  have hother : ∀ x ∈ s.sleepers, x.1 ≠ id := by
    rintro x hx rfl
    have hin := (h.queued.blocked.contains_iff _).2 (mem_sleepersIn.1 hx).1
    rw [h.not_blocked_of_working? hid] at hin
    cases hin
  have hkept : ∀ x ∈ s.sleepers, ∀ y ∈ s.sleepers, WakesFirst slept x y →
      WakesFirst (slept ++ [id]) x y := by
    rintro x hx y hy (hlt | ⟨heq, hearlier⟩)
    · exact .inl hlt
    · exact .inr ⟨heq, hearlier.concat (hother x hx) (hother y hy)⟩
  have hbefore : ∀ x ∈ s.sleepersIn front,
      WakesFirst (slept ++ [id]) x (id, s.wakeTimeOf milliseconds) := by
    intro x hx
    obtain ⟨hin, hwakes⟩ := mem_sleepersIn.1 hx
    have hnot := hfront x.1 hin
    rw [sleepsBeyond_eq, hwakes, Option.any_some, decide_eq_false_iff_not, Nat.not_lt] at hnot
    have hnapped := ho.napped x (hsleepers ▸ List.mem_append_left _ hx)
    exact (Nat.lt_or_eq_of_le hnot).imp_right fun heq => ⟨heq, .last hnapped⟩
  have hbehind : ∀ y ∈ s.sleepersIn back,
      WakesFirst (slept ++ [id]) (id, s.wakeTimeOf milliseconds) y :=
    fun y hy => .inl (ho.lt_of_head hsplit hback hy)
  have horder := List.Pairwise.imp_of_mem (fun hx hy => hkept _ hx _ hy) ho.order
  rw [hsleepers, List.pairwise_append] at horder
  obtain ⟨hfronts, hbacks, hacross⟩ := horder
  refine ⟨fun x hx => ?_, ?_⟩
  · rw [hnew] at hx
    have := ho.napped x
    grind
  · rw [hnew, List.pairwise_append, List.pairwise_cons]
    refine ⟨hfronts, ⟨hbehind, hbacks⟩, fun x hx y hy => ?_⟩
    rcases List.mem_cons.1 hy with rfl | hy
    · exact hbefore x hx
    · exact hacross x hx y hy

/-- The order is kept, and a task that begins to sleep is the last to have done so. -/
theorem Ordered.step (ho : s.Ordered slept) (h : s.Coherent) (operation : Operation) :
    (s.step operation).2.Ordered (slept ++ (s.nap? operation).toList) := by
  cases hnap : s.nap? operation with
  | none =>
    rw [Option.toList_none, List.append_nil]
    exact ho.sublist (h.sleepers_step hnap)
  | some id =>
    rw [nap?.eq_def] at hnap
    split at hnap
    · rename_i milliseconds
      obtain ⟨a, b, hab⟩ := h.ready_of_working? hnap
      obtain ⟨waiting, -, hq, -⟩ := h.queued.suspend hab (.sleep milliseconds)
      have hq : (s.suspended id (.sleep milliseconds)).Queued (a ++ b) waiting := hq
      show (s.block (.sleep milliseconds)).2.Ordered (slept ++ [id])
      rw [h.block_eq hnap]
      exact (ho.suspended h hnap milliseconds).sublist
        ((hq.rouses_switchToNext _ false).sleepers hq.blocked)
    · cases hnap

/-- The tasks that were put to sleep in a run, in the order in which their sleeps began. -/
def naps (s : Scheduler) (operations : List Operation) : List TaskId :=
  (s.visits operations).filterMap fun visit => visit.1.nap? visit.2

theorem naps_cons (operation : Operation) (rest : List Operation) :
    s.naps (operation :: rest) = (s.nap? operation).toList ++ (s.step operation).2.naps rest := by
  rw [naps, visits, List.filterMap_cons]
  cases s.nap? operation <;> rfl

theorem Ordered.run (ho : s.Ordered slept) (h : s.Coherent) (operations : List Operation) :
    (s.run operations).Ordered (slept ++ s.naps operations) := by
  induction operations generalizing s slept with
  | nil =>
    rw [show s.naps [] = [] from rfl, List.append_nil]
    exact ho
  | cons operation rest ih =>
    rw [naps_cons, ← List.append_assoc]
    exact ih (ho.step h operation) (h.step operation).1

theorem ordered_run (core : CoreId) (timeslice : Nat) (operations : List Operation) :
    ((new core timeslice).run operations).Ordered ((new core timeslice).naps operations) :=
  (ordered_new core timeslice).run (coherent_new core timeslice) operations

/-! ### The scan -/

/-- The scan as a walk along the links of the blocked queue, at most `steps` of them from `cursor`
on: the link to the next task is read before a task leaves the queue. Answers how many left. -/
def scanFrom (s : Scheduler) : Nat → Option TaskId → Nat × Scheduler
  | 0, _ => (0, s)
  | _ + 1, none => (0, s)
  | steps + 1, some id =>
    let next := s.blocked.next id
    if s.isWakeable id then ((s.makeReady id).scanFrom steps next).map (· + 1) fun s => s
    else s.scanFrom steps next

theorem isWakeable_makeReady {j : TaskId} (hne : j ≠ id) :
    (s.makeReady id).isWakeable j = s.isWakeable j := by
  have htask : (s.makeReady id).task? j = s.task? j :=
    (task?_modifyTask id _ j).trans (if_neg hne)
  rw [isWakeable, isWakeable, htask]
  rfl

/-- The walk comes to every task that is due, although it takes them out of the queue. -/
theorem Queued.scanFrom_eq {a b : List TaskId} (h : s.Queued ring (a ++ b)) :
    s.scanFrom b.length b.head? =
      ((b.filter s.isWakeable).length, (b.filter s.isWakeable).foldl Scheduler.makeReady s) := by
  induction b generalizing s ring a with
  | nil => rfl
  | cons id b ih =>
    have hnext : s.blocked.next id = b.head? := h.blocked.next_eq rfl
    rw [List.length_cons, List.head?_cons, scanFrom, hnext]
    by_cases hdue : s.isWakeable id = true
    · have hnodup := h.blocked.nodup
      have hsame : b.filter (s.makeReady id).isWakeable = b.filter s.isWakeable :=
        List.filter_congr fun j hj => isWakeable_makeReady (by grind)
      rw [if_pos hdue, ih (h.makeReady rfl).1, hsame, List.filter_cons_of_pos hdue]
      rfl
    · have hpassed : s.Queued ring ((a ++ [id]) ++ b) := by
        rwa [List.append_assoc, List.singleton_append]
      rw [if_neg hdue, ih hpassed, List.filter_cons_of_neg hdue]

theorem Coherent.scan_eq (h : s.Coherent) :
    s.scanFrom s.blocked.length s.blocked.head = s.unblockWakeable := by
  rw [h.queued.blocked.length, h.queued.blocked.head]
  exact h.queued.scanFrom_eq (a := [])

/-- A tick readies those that are due at its time, and the choice that follows readies nobody. -/
theorem Coherent.ready_tick (h : s.Coherent) (hstarted : s.started = true) :
    s.tick.2.ready.toList = s.ready.toList ++ s.blocked.toList.filter s.advanced.isWakeable := by
  obtain ⟨hq, -⟩ := h.advanced.queued.unblockWakeable
  have hchosen : (s.ticked.selectNext none).2.ready = s.ticked.ready := by
    cases hempty : s.ticked.ready.isEmpty with
    | false => rw [selectNext_of_ready hempty]
    | true =>
      have hquiet := h.advanced.quiet_of_empty hempty
      have hsame : s.ticked = s.advanced := congrArg Prod.snd hquiet
      rw [Scheduler.selectNext, if_pos hempty, hsame, hquiet]
  rw [tick_of_started hstarted, ready_switchToNext, hchosen]
  exact hq.ready.toList_eq

/-- In every state that operations lead to, the sleepers of the blocked queue stand in the order in
which they wake, those that wake at the same time in the order in which their sleeps began. A scan
readies exactly the blocked tasks whose wait is over: they join the end of the ready ring in the
order of the blocked queue, the others stay blocked in their order, and the answer is how many
moved. It is the walk along the links. So the sleepers that are due at a tick become ready in the
order in which they wake. -/
theorem wakes_in_order (core : CoreId) (timeslice : Nat) (operations : List Operation) :
    let s := (new core timeslice).run operations
    let wakesFirst := WakesFirst ((new core timeslice).naps operations)
    let due := s.blocked.toList.filter s.isWakeable
    let dueAtTick := s.blocked.toList.filter s.advanced.isWakeable
    s.sleepers.Pairwise wakesFirst ∧
      (s.step .unblockWakeable).1 = .count due.length ∧
      (s.step .unblockWakeable).2.ready.toList = s.ready.toList ++ due ∧
      (s.step .unblockWakeable).2.blocked.toList =
        s.blocked.toList.filter (fun id => !s.isWakeable id) ∧
      s.scanFrom s.blocked.length s.blocked.head = s.unblockWakeable ∧
      (s.started = true → (s.step .tick).2.ready.toList = s.ready.toList ++ dueAtTick ∧
        (s.sleepersIn dueAtTick).Pairwise wakesFirst) := by
  intro s wakesFirst due dueAtTick
  have h : s.Coherent := coherent_run core timeslice operations
  have horder := (ordered_run core timeslice operations).order
  obtain ⟨hq, -⟩ := h.queued.unblockWakeable
  refine ⟨horder, rfl, hq.ready.toList_eq, hq.blocked.toList_eq, h.scan_eq, fun hstarted => ?_⟩
  have hsub : dueAtTick.Sublist s.blocked.toList := List.filter_sublist
  exact ⟨h.ready_tick hstarted, horder.sublist (hsub.filterMap _)⟩

/-- Three tasks go to sleep, the last of them for the shortest time, and a fourth one waits for
mail among them. -/
example :
    let napping : List Operation :=
      [.schedule (plainTask 1), .schedule (plainTask 2), .schedule (plainTask 3),
        .schedule (plainTask 4), .start, .block (.sleep 30), .block (.sleep 30), .receive none,
        .block (.sleep 10)]
    ((new 0 10).run napping).sleepers = [(4, 10), (1, 30), (2, 30)] ∧
      ((new 0 10).run napping).blocked.toList = [4, 1, 2, 3] ∧
      ((new 0 10).run (napping ++ [.tick, .tick, .tick])).ready.toList = [4, 1, 2] := by
  decide

end Scheduler

end Microkernel
