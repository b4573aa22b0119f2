/-
Sleeping tasks wake on time.

`s.Sleeps id wakeTime` says that a task is queued as blocked and sleeps until the clock shows
`wakeTime`. Deliveries, an unblock, and the scans that look for tasks whose wait is over all come
across a sleeping task, and each of them looks at the clock first; only a wake does not.

* **`Coherent.spares_step`**: before the wake time no operation but a wake ends the sleep, and the
  clock stands still but for ticks;
* **`Coherent.tick_wakes`**: the tick that brings the clock to the wake time readies the task;
* **`sleep_on_time`**: a task that blocks to sleep stays blocked exactly as long as its wake time
  has not come.

Design notes: a sleep is a wait like others (`Dormant`), of which it only matters here that its end
is a clock reading. `Spares` says of all wake times at once what `Lasts` says of one.
-/
import Mathlib.Algebra.Ring.Nat
import Microkernel.Proofs.Scheduler.Dormant

namespace Microkernel.Scheduler

variable {s s' : Scheduler} {id : TaskId} {wakeTime : Nat} {ring waiting : List TaskId}

/-! ### A task that sleeps -/

/-- A task is queued as blocked and sleeps until the clock shows `wakeTime`. -/
structure Sleeps (s : Scheduler) (id : TaskId) (wakeTime : Nat) : Prop where
  blocked : ∃ waiting, s.blocked.Spells waiting ∧ id ∈ waiting
  asleep : ∃ t, s.task? id = some t ∧ t.state = .sleeping ∧ t.wakeTime = wakeTime

theorem Sleeps.mem_blocked (h : s.Sleeps id wakeTime) : id ∈ s.blocked.toList := by
  obtain ⟨waiting, hspells, hmem⟩ := h.blocked
  rwa [hspells.toList_eq]

/-- A sleeping task can be woken from its wake time on. -/
theorem Sleeps.isWakeable_iff (h : s.Sleeps id wakeTime) :
    s.isWakeable id = true ↔ wakeTime ≤ s.elapsed := by
  obtain ⟨t, ht, hstate, rfl⟩ := h.asleep
  rw [isWakeable, ht, Option.any_some, Task.isWakeable, hstate]
  simp

/-- The sleep of `id` goes on while its wake time has not come, and the clock stands still. -/
structure Spares (id : TaskId) (s s' : Scheduler) : Prop where
  elapsed : s'.elapsed = s.elapsed
  sleeps : ∀ wakeTime, s.elapsed < wakeTime → s.Sleeps id wakeTime → s'.Sleeps id wakeTime

/-- The task sleeps until the clock shows `wakeTime`. -/
def AsleepUntil (wakeTime : Nat) (t : Task) : Prop :=
  t.state = .sleeping ∧ t.wakeTime = wakeTime

theorem restful_asleepUntil (wakeTime : Nat) : Restful (AsleepUntil wakeTime) where
  waits t h hrunning := by
    rw [h.1] at hrunning
    cases hrunning
  prioritized t priority h := h

theorem AsleepUntil.isWakeable {t : Task} (h : AsleepUntil wakeTime t) {elapsed : Nat}
    (hearly : elapsed < wakeTime) : t.isWakeable elapsed = false := by
  rw [Task.isWakeable, h.1, h.2]
  exact decide_eq_false (Nat.not_le.2 hearly)

/-- A wait that lasts whatever its wake time is a sleep that is spared. -/
theorem Spares.of_lasts
    (h : ∀ wakeTime, s.elapsed < wakeTime → Lasts (AsleepUntil wakeTime) id s s') :
    Spares id s s' where
  elapsed := (h (s.elapsed + 1) (Nat.lt_succ_self s.elapsed)).elapsed
  sleeps wakeTime hearly hs := by
    obtain ⟨hblocked, hasleep⟩ := (h wakeTime hearly).dormant
      (fun t ht => ht.isWakeable hearly) ⟨hs.blocked, hs.asleep⟩
    exact ⟨hblocked, hasleep⟩

/-- The turn does not pass to a task that sleeps on. -/
theorem Queued.spares_switchToNext (h : s.Queued ring waiting) (hint : Option TaskId)
    (preempted : Bool) : Spares id s (s.switchToNext hint preempted).2 :=
  .of_lasts fun _ _ => h.lasts_switchToNext (restful_asleepUntil _) hint preempted

/-! ### What each operation does to a task that sleeps -/

/-- Nothing but a wake ends a sleep before its time, and nothing but a tick moves the clock. -/
theorem Coherent.spares_step (h : s.Coherent) {operation : Operation}
    (hwake : ¬ s.Wakes operation id) (htick : operation ≠ .tick) :
    Spares id s (s.step operation).2 := by
  refine .of_lasts fun wakeTime hearly =>
    h.lasts_step (restful_asleepUntil wakeTime) hwake htick (fun _ _ t mailbox ht => ⟨?_, ht⟩)
      fun _ t ht => ⟨ht.1, ht.2.symm ▸ hearly⟩
  -- mail readies only a task that waits for mail
  rw [ht.1]
  exact nofun

/-- Only a tick moves the clock. -/
theorem Coherent.elapsed_step (h : s.Coherent) {operation : Operation}
    (htick : operation ≠ .tick) : (s.step operation).2.elapsed = s.elapsed := by
  -- there are more ids than an operation can wake
  obtain ⟨id, hid⟩ : ∃ id, ¬ s.Wakes operation id := by
    cases operation with
    | wake j => exact ⟨j + 1, fun hw => by simp [Wakes] at hw⟩
    | exit => exact ⟨s.cleanup.getD 0 + 1, fun hw => by grind [Wakes]⟩
    | _ => exact ⟨0, fun hw => by simp [Wakes] at hw⟩
  exact (h.spares_step hid htick).elapsed

/-- A tick scans the blocked tasks at the new clock, then passes the turn on. -/
theorem Coherent.spares_tick (h : s.Coherent) (id : TaskId) (hstarted : s.started = true) :
    Spares id s.advanced (s.step .tick).2 :=
  .of_lasts fun _ _ => h.lasts_tick (restful_asleepUntil _) hstarted

/-- The clock never goes back. -/
theorem Coherent.elapsed_le_step (h : s.Coherent) (operation : Operation) :
    s.elapsed ≤ (s.step operation).2.elapsed := by
  by_cases htick : operation = .tick
  · subst htick
    cases hstarted : s.started with
    | false => rw [step_tick_of_stopped hstarted]
    | true =>
      rw [(h.spares_tick 0 hstarted).elapsed]
      exact Nat.le_add_right s.elapsed s.timeslice
  · rw [h.elapsed_step htick]

theorem Coherent.elapsed_le_run (h : s.Coherent) (operations : List Operation) :
    s.elapsed ≤ (s.run operations).elapsed := by
  induction operations generalizing s with
  | nil => exact Nat.le_refl s.elapsed
  | cons operation rest ih => exact (h.elapsed_le_step operation).trans (ih (h.step operation).1)

/-- A task sleeps through a tick that does not bring the clock to its wake time. -/
theorem Coherent.tick_sleeps (h : s.Coherent) (hs : s.Sleeps id wakeTime)
    (hearly : (s.step .tick).2.elapsed < wakeTime) : (s.step .tick).2.Sleeps id wakeTime := by
  cases hstarted : s.started with
  | false => rwa [step_tick_of_stopped hstarted]
  | true =>
    have hspared : Spares id s.advanced (s.step .tick).2 := h.spares_tick id hstarted
    rw [hspared.elapsed] at hearly
    exact hspared.sleeps wakeTime hearly ⟨hs.blocked, hs.asleep⟩

/-- The tick that brings the clock to the wake time readies the task. -/
theorem Coherent.tick_wakes (h : s.Coherent) (hs : s.Sleeps id wakeTime)
    (hearly : s.elapsed < wakeTime) (hdue : wakeTime ≤ (s.step .tick).2.elapsed) :
    id ∈ (s.step .tick).2.ready.toList ∧ id ∉ (s.step .tick).2.blocked.toList := by
  have hstarted : s.started = true := by
    by_contra hnot
    rw [step_tick_of_stopped (Bool.not_eq_true _ ▸ hnot)] at hdue
    omega
  rw [(h.spares_tick id hstarted).elapsed] at hdue
  have hadvanced : s.advanced.Sleeps id wakeTime := ⟨hs.blocked, hs.asleep⟩
  have hwakeable := hadvanced.isWakeable_iff.2 hdue
  -- the scan finds the task, and choosing the next one leaves it in the ring
  have hring := (h.queued.advanced.unblockWakeable.1.selectNext_ring none).2 id
    (List.mem_append_right _ (List.mem_filter.2 ⟨hs.mem_blocked, hwakeable⟩))
  have hready : (s.step .tick).2.ready.contains id = true := by
    show s.tick.2.ready.contains id = true
    rw [tick_of_started hstarted, ready_switchToNext]
    exact hring
  have hafter := (h.step .tick).1.queued
  have hmem := (hafter.ready.contains_iff id).1 hready
  exact ⟨hmem, hafter.apart id hmem⟩

/-! ### A whole sleep -/

/-- The task that blocks to sleep for a while sleeps until then. -/
theorem Coherent.sleeps_block (h : s.Coherent) (hid : s.working? = some id) {milliseconds : Nat}
    (hpositive : 1 ≤ milliseconds) (hclock : s.elapsed + milliseconds ≤ maxTime) :
    (∃ switch, (s.step (.block (.sleep milliseconds))).1 = .switched switch) ∧
      (s.step (.block (.sleep milliseconds))).2.elapsed = s.elapsed ∧
      (s.step (.block (.sleep milliseconds))).2.Sleeps id (s.elapsed + milliseconds) := by
  obtain ⟨a, b, hab⟩ := h.ready_of_working? hid
  obtain ⟨waiting', hmem, hq, -⟩ := h.queued.suspend hab (.sleep milliseconds)
  have hq : (s.suspended id (.sleep milliseconds)).Queued (a ++ b) waiting' := hq
  obtain ⟨t, ht⟩ := Option.isSome_iff_exists.1 (h.contains_current (working?_eq_some hid).1)
  have ht : s.task? id = some t := ht
  have hsleeps : (s.suspended id (.sleep milliseconds)).Sleeps id (s.elapsed + milliseconds) := by
    refine ⟨⟨waiting', hq.blocked, (hmem id).2 (.inl rfl)⟩, ?_⟩
    rw [task?_suspended, if_pos rfl, ht]
    exact ⟨_, rfl, rfl, Nat.min_eq_left hclock⟩
  have hturn : Spares id (s.suspended id (.sleep milliseconds)) _ :=
    hq.spares_switchToNext (s.ready.next id) false
  have helapsed : (s.suspended id (.sleep milliseconds)).elapsed = s.elapsed := rfl
  have hblock : s.step (.block (.sleep milliseconds)) = (.switched
      ((s.suspended id (.sleep milliseconds)).switchToNext (s.ready.next id) false).1,
      ((s.suspended id (.sleep milliseconds)).switchToNext (s.ready.next id) false).2) := by
    show (s.block (.sleep milliseconds)).map _ _ = _
    rw [h.block_eq hid]
    rfl
  rw [hblock]
  exact ⟨⟨_, rfl⟩, hturn.elapsed.trans helapsed, hturn.sleeps _ (by omega) hsleeps⟩

/-- As long as the wake time has not come and nobody wakes the task, it sleeps on. -/
theorem Coherent.sleeps_run (h : s.Coherent) (hs : s.Sleeps id wakeTime)
    {operations : List Operation}
    (hwake : ∀ visit ∈ s.visits operations, ¬ visit.1.Wakes visit.2 id)
    (hearly : (s.run operations).elapsed < wakeTime) :
    (s.run operations).Sleeps id wakeTime := by
  induction operations generalizing s with
  | nil => exact hs
  | cons operation rest ih =>
    have hnow := hwake _ List.mem_cons_self
    have hafter := (h.step operation).1
    have hclock : (s.step operation).2.elapsed ≤ (s.run (operation :: rest)).elapsed :=
      hafter.elapsed_le_run rest
    refine ih hafter ?_ (fun visit hin => hwake visit (List.mem_cons_of_mem _ hin)) hearly
    by_cases htick : operation = .tick
    · subst htick
      exact h.tick_sleeps hs (hclock.trans_lt hearly)
    · have hspared := h.spares_step hnow htick
      refine hspared.sleeps wakeTime ?_ hs
      rw [← hspared.elapsed]
      exact hclock.trans_lt hearly

/-- A task that blocks to sleep can do so, and stays blocked whatever happens as long as nobody
wakes it and its wake time has not come. What then brings the clock to the wake time is a tick,
and that tick readies the task. -/
theorem sleep_on_time (core : CoreId) (timeslice : Nat) (before later : List Operation)
    (id : TaskId) (milliseconds : Nat) (s s' : Scheduler)
    (hs : s = (new core timeslice).run before) (hid : s.working? = some id)
    (hpositive : 1 ≤ milliseconds) (hclock : s.elapsed + milliseconds < 2 ^ 64)
    (hs' : s' = (s.step (.block (.sleep milliseconds))).2)
    (hwake : ∀ visit ∈ s'.visits later, ¬ visit.1.Wakes visit.2 id)
    (hearly : (s'.run later).elapsed < s.elapsed + milliseconds) :
    (∃ switch, (s.step (.block (.sleep milliseconds))).1 = .switched switch) ∧
      id ∈ (s'.run later).blocked.toList ∧ id ∉ (s'.run later).ready.toList ∧
      ∀ operation, s.elapsed + milliseconds ≤ ((s'.run later).step operation).2.elapsed →
        operation = .tick ∧ id ∈ ((s'.run later).step operation).2.ready.toList ∧
          id ∉ ((s'.run later).step operation).2.blocked.toList := by
  have hco : s.Coherent := hs ▸ coherent_run core timeslice before
  have hlast : s.elapsed + milliseconds ≤ maxTime := by
    show s.elapsed + milliseconds ≤ 2 ^ 64 - 1
    omega
  obtain ⟨hok, -, hasleep⟩ := hco.sleeps_block hid hpositive hlast
  rw [← hs'] at hasleep
  have hco' : s'.Coherent := hs' ▸ (hco.step _).1
  have hlater : (s'.run later).Coherent := hco'.run later
  have hsleeps := hco'.sleeps_run hasleep hwake hearly
  refine ⟨hok, hsleeps.mem_blocked, fun hready => ?_, fun operation hdue => ?_⟩
  · exact hlater.queued.apart id hready hsleeps.mem_blocked
  · -- no other operation moves the clock
    have htick : operation = .tick := by
      by_contra hne
      rw [hlater.elapsed_step hne] at hdue
      omega
    subst htick
    exact ⟨rfl, hlater.tick_wakes hsleeps hearly hdue⟩

/-- Two tasks, the first of which is current. -/
def twoReady : Scheduler :=
  (new 0 10).run
    [.installIdle (plainTask 1), .schedule (plainTask 3), .installCleanup (plainTask 2), .start]

/-- The first one sleeps. -/
def oneAsleep : Scheduler :=
  (twoReady.step (.block (.sleep 25))).2

/-- What comes across a sleeping task: mail for it, an unblock of it, and ticks. -/
def whileAsleep : List Operation :=
  [.deliver 3 ⟨2, .task 3, .scheduler (.ping 0)⟩, .unblock 3, .tick, .block (.sleep 7), .tick]

theorem sleep_on_time_whileAsleep :
    twoReady.working? = some 3 ∧ (oneAsleep.run whileAsleep).elapsed = 20 ∧
      (∀ visit ∈ oneAsleep.visits whileAsleep, ¬ visit.1.Wakes visit.2 3) ∧
      3 ∈ (oneAsleep.run whileAsleep).blocked.toList ∧
      3 ∈ ((oneAsleep.run whileAsleep).step .tick).2.ready.toList := by
  have hid : twoReady.working? = some 3 := by decide +kernel
  have helapsed : (oneAsleep.run whileAsleep).elapsed = 20 := by decide +kernel
  have hwake : ∀ visit ∈ oneAsleep.visits whileAsleep, ¬ visit.1.Wakes visit.2 3 := by
    decide +kernel
  obtain ⟨-, hblocked, -, htick⟩ := sleep_on_time 0 10 _ whileAsleep 3 25 twoReady oneAsleep rfl hid
    (by decide) (by decide +kernel) rfl hwake (by decide +kernel)
  exact ⟨hid, helapsed, hwake, hblocked, (htick .tick (by decide +kernel)).2.1⟩

end Microkernel.Scheduler
