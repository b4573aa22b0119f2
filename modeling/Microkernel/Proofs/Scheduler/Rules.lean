/-
Rules that the tasks of a scheduler obey.

A `Rule` is a demand on a live task in view of whether it is queued as blocked. A rule is
`Lawful` if scheduling cannot break it: it survives that a task is readied, entered, paused or
put to sleep. What is left to show for a lawful rule is about what only some operations do: that
a task waits for mail, gets mail or takes some, or is new.

* **`Obeys.switchToNext`**, **`Obeys.unblockWakeable`**: choosing and waking keep a lawful rule;
* **`Obeys.block`**, **`Obeys.receive`**: blocking keeps it, if the task that blocks obeys it from
  then on;
* **`Obeys.deliver`**: delivering keeps it, if it holds of the recipient with the new mail;
* **`Obeys.schedule`**, **`Obeys.installIdle`**, **`Obeys.exit`**: tasks come and go.

Design notes: each operation that fails in some state of the scheduler is first reduced to what
it does in a coherent one (`Coherent.block_eq`, `Coherent.receive_eq`, `Coherent.exit_eq`).
-/
import Microkernel.Proofs.Scheduler.Operations

namespace Microkernel

/-- The task when it stops running for some reason, on the given clock. -/
def Task.suspended (t : Task) (wakeTimeOf : Nat → Nat) : BlockReason → Task
  | .sleep milliseconds => { t with state := .sleeping, wakeTime := wakeTimeOf milliseconds }
  | .mail since => { t with state := .blocked, waitSince := since }

namespace Scheduler

variable {s s' : Scheduler}

/-! ### Operations in a coherent scheduler -/

/-- The scheduler after a task was taken off the ready ring and queued as blocked. -/
def suspended (s : Scheduler) (id : TaskId) (reason : BlockReason) : Scheduler :=
  ({ s with ready := (s.ready.remove id).2 } : Scheduler).suspend id reason

theorem task?_suspended (id : TaskId) (reason : BlockReason) (j : TaskId) :
    (s.suspended id reason).task? j =
      if j = id then (s.task? j).map fun t => t.suspended s.wakeTimeOf reason else s.task? j := by
  cases reason <;> exact task?_modifyTask id _ j

/-- The current task can block, and the turn goes to its successor. -/
theorem Coherent.block_eq (h : s.Coherent) {id : TaskId} (hid : s.working? = some id)
    (reason : BlockReason) :
    s.block reason = (.ok ((s.suspended id reason).switchToNext (s.ready.next id) false).1,
      ((s.suspended id reason).switchToNext (s.ready.next id) false).2) := by
  obtain ⟨a, b, hab⟩ := h.ready_of_working? hid
  have hmem : id ∈ s.ready.toList := by simp [hab]
  have hready : s.ready.contains id = true := (h.queued.ready.contains_iff id).2 hmem
  have hcontains : ({ s with ready := (s.ready.remove id).2 } : Scheduler).contains id = true :=
    h.queued.contains_of_ready hmem
  rw [Scheduler.block, hid]
  simp only [hready, hcontains, Bool.not_true, Bool.false_eq_true, if_false]
  rfl

/-- Without a current task that could block there is nothing to do. -/
theorem block_eq_of_none (hid : s.working? = none) (reason : BlockReason) :
    s.block reason = (.error .noCurrentTask, s) := by
  rw [Scheduler.block, hid]

/-- The scheduler when its clock shows one timeslice more. -/
def advanced (s : Scheduler) : Scheduler :=
  { s with elapsed := s.elapsed + s.timeslice }

theorem Queued.advanced {ring waiting : List TaskId} (h : s.Queued ring waiting) :
    s.advanced.Queued ring waiting :=
  h.congr rfl rfl rfl rfl rfl

theorem Coherent.advanced (h : s.Coherent) : s.advanced.Coherent :=
  ⟨h.queued.advanced, h.current⟩

/-- The scheduler within a tick, before the turn passes on: the clock has advanced, and those
whose wait is over are ready. -/
def ticked (s : Scheduler) : Scheduler :=
  s.advanced.unblockWakeable.2

theorem tick_of_started (h : s.started = true) : s.tick = s.ticked.switchToNext none true :=
  if_pos h

/-- Without dispatching there are no ticks. -/
theorem tick_of_stopped (h : s.started = false) : s.tick = (none, s) := by
  rw [Scheduler.tick, h]
  rfl

/-- The task that ends leaves the ring and the table, and the cleanup task is woken. -/
theorem Coherent.exit_eq (h : s.Coherent) {id : TaskId} {t : Task} (hid : s.working? = some id)
    (hcleanup : s.cleanup ≠ some id) (ht : s.task? id = some t) :
    s.exit =
      (.ok ⟨id, ((s.retired id t).wakeCleanup.switchToNext (s.ready.next id) false).1⟩,
        ((s.retired id t).wakeCleanup.switchToNext (s.ready.next id) false).2) := by
  obtain ⟨a, b, hab⟩ := h.ready_of_working? hid
  have hmem : id ∈ s.ready.toList := by simp [hab]
  have hready : s.ready.contains id = true := (h.queued.ready.contains_iff id).2 hmem
  have hfilter : (s.working?.filter fun id => decide (s.cleanup ≠ some id)) = some id := by
    rw [hid]
    exact Option.filter_eq_some_iff.2 ⟨rfl, decide_eq_true hcleanup⟩
  have ht' : ({ s with ready := (s.ready.remove id).2 } : Scheduler).task? id = some t := ht
  rw [Scheduler.exit, hfilter]
  simp only [hready, Bool.not_true, Bool.false_eq_true, if_false, ht']
  rfl

/-- The idle task, the cleanup task and the boot stack cannot end. -/
theorem exit_eq_of_none (h : s.working? = none ∨ s.working? = s.cleanup) :
    s.exit = (.error .noCurrentTask, s) := by
  have hfilter : (s.working?.filter fun id => decide (s.cleanup ≠ some id)) = none := by
    rcases h with hid | hid
    · rw [hid]
      rfl
    · rw [hid]
      cases s.cleanup <;> simp
  rw [Scheduler.exit, hfilter]

/-- The current task takes a message, or blocks if no suitable one is there. -/
theorem Coherent.receive_eq (h : s.Coherent) {id : TaskId} {t : Task}
    (hid : s.working? = some id) (ht : s.task? id = some t) {filter : Option Filter}
    {result : Except Error (Option Message)} {mailbox : Mailbox}
    (htake : takeMessage t.mailbox filter = (result, mailbox)) :
    s.receive filter =
      match result with
      | .error e => (.error e, s.withMailbox id mailbox)
      | .ok (some message) => (.ok (.received message), s.withMailbox id mailbox)
      | .ok none =>
        let turn := ((s.withMailbox id mailbox).suspended id
          (.mail (filter.map fun _ => mailbox.sends))).switchToNext (s.ready.next id) false
        (.ok (.waiting turn.1), turn.2) := by
  have hmailbox : (s.modifyTask id fun t => { t with mailbox := mailbox }) =
      s.withMailbox id mailbox := rfl
  rw [Scheduler.receive, hid]
  simp only [ht, htake, hmailbox]
  cases result with
  | error e => rfl
  | ok message =>
    cases message with
    | some message => rfl
    | none =>
      have hworking : (s.withMailbox id mailbox).working? = some id := hid
      simp only [(h.withMailbox id mailbox).block_eq hworking]
      rfl

theorem receive_eq_of_none (hid : s.working? = none) (filter : Option Filter) :
    s.receive filter = (.error .noCurrentTask, s) := by
  rw [Scheduler.receive, hid]

/-- Whoever receives leaves another mailbox behind, and waits if nothing suitable was in it. -/
theorem Coherent.receive_cases (h : s.Coherent) (filter : Option Filter) :
    (s.receive filter).2 = s ∨ ∃ id t mailbox, s.working? = some id ∧ s.task? id = some t ∧
      ((s.receive filter).2 = s.withMailbox id mailbox ∨
        takeMessage t.mailbox filter = (.ok none, mailbox) ∧
          (s.receive filter).2 = (((s.withMailbox id mailbox).suspended id
            (.mail (filter.map fun _ => mailbox.sends))).switchToNext
              (s.ready.next id) false).2) := by
  cases hworking : s.working? with
  | none =>
    refine .inl ?_
    rw [receive_eq_of_none hworking]
  | some id =>
    obtain ⟨t, ht⟩ := Option.isSome_iff_exists.1
      (h.contains_current (working?_eq_some hworking).1)
    rcases htake : takeMessage t.mailbox filter with ⟨result, mailbox⟩
    refine .inr ⟨id, t, mailbox, rfl, ht, ?_⟩
    rw [h.receive_eq hworking ht htake]
    match result with
    | .error e => exact .inl rfl
    | .ok (some message) => exact .inl rfl
    | .ok none => exact .inr ⟨htake, rfl⟩

/-- Whoever receives keeps what is left in the mailbox, and tasks may be moved. -/
theorem Coherent.receive_rearranged (h : s.Coherent) (filter : Option Filter) :
    (s.receive filter).2.Coherent ∧
      ((s.receive filter).2 = s ∨ ∃ id t, s.working? = some id ∧ s.task? id = some t ∧
        Rearranged (s.withMailbox id (takeMessage t.mailbox filter).2) (s.receive filter).2) := by
  cases hworking : s.working? with
  | none =>
    rw [receive_eq_of_none hworking]
    exact ⟨h, .inl rfl⟩
  | some id =>
    obtain ⟨t, ht⟩ := Option.isSome_iff_exists.1
      (h.contains_current (working?_eq_some hworking).1)
    rcases htake : takeMessage t.mailbox filter with ⟨result, mailbox⟩
    have hco := h.withMailbox id mailbox
    have hworking' : (s.withMailbox id mailbox).working? = some id := hworking
    have hleft : (takeMessage t.mailbox filter).2 = mailbox := by rw [htake]
    suffices hmoved : (s.receive filter).2.Coherent ∧
        Rearranged (s.withMailbox id mailbox) (s.receive filter).2 from
      ⟨hmoved.1, .inr ⟨id, t, rfl, ht, hleft ▸ hmoved.2⟩⟩
    rw [h.receive_eq hworking ht htake]
    match result with
    | .error e => exact ⟨hco, .refl _⟩
    | .ok (some message) => exact ⟨hco, .refl _⟩
    | .ok none =>
      have hblock := hco.block_eq hworking' (.mail (filter.map fun _ => mailbox.sends))
      rcases hco.block hblock with ⟨hfailed, -⟩ | ⟨switch, -, hco', -, hr⟩
      · cases hfailed
      · exact ⟨hco', hr⟩

/-! ### Rules -/

/-- A demand on a live task, in view of whether it is queued as blocked. -/
abbrev Rule := Bool → TaskId → Task → Prop

/-- Every live task obeys the rule. -/
def Obeys (s : Scheduler) (rule : Rule) : Prop :=
  ∀ id t, s.task? id = some t → rule (s.blocked.contains id) id t

/-- Scheduling alone does not break the rule. -/
structure Rule.Lawful (rule : Rule) : Prop where
  /-- A task that is readied need not have waited. -/
  readied : ∀ waits id t, rule waits id t →
    rule false id { t with state := .ready, waitSince := none }
  entered : ∀ id t core, rule false id t →
    rule false id { t with state := .running, lastCore := core }
  paused : ∀ waits id t, rule waits id t → rule waits id (pause t)
  slept : ∀ id t wakeTime, rule false id t →
    rule true id { t with state := .sleeping, wakeTime := wakeTime }
  prioritized : ∀ waits id t priority, rule waits id t →
    rule waits id { t with priority := priority }

/-- The demand on all tasks but one. -/
def Rule.except (rule : Rule) (id : TaskId) : Rule :=
  fun waits j t => j ≠ id → rule waits j t

variable {rule : Rule}

theorem obeys_new (core : CoreId) (timeslice : Nat) : (new core timeslice).Obeys rule :=
  fun id t ht => by cases ht

theorem Obeys.except (h : s.Obeys rule) (id : TaskId) : s.Obeys (rule.except id) :=
  fun j t ht _ => h j t ht

/-- A change of one task, and of its place, concerns no other task. -/
theorem Obeys.update {id : TaskId} (h : s.Obeys (rule.except id))
    (hrest : ∀ j, j ≠ id → s'.task? j = s.task? j ∧
      (s'.blocked.contains j = true ↔ s.blocked.contains j = true))
    (hid : ∀ t, s'.task? id = some t → rule (s'.blocked.contains id) id t) : s'.Obeys rule := by
  intro j t ht
  by_cases hj : j = id
  · subst hj
    exact hid t ht
  · obtain ⟨htask, hplace⟩ := hrest j hj
    rw [htask] at ht
    rw [Bool.eq_iff_iff.2 hplace]
    exact h j t ht hj

/-- A change of one task that stays where it is. -/
theorem Obeys.modifyTask {id : TaskId} (h : s.Obeys (rule.except id)) {f : Task → Task}
    (hf : ∀ t, s.task? id = some t → rule (s.blocked.contains id) id (f t)) :
    (s.modifyTask id f).Obeys rule := by
  refine h.update (fun j hj => ⟨?_, Iff.rfl⟩) fun t ht => ?_
  · rw [task?_modifyTask, if_neg hj]
  · rw [task?_modifyTask, if_pos rfl] at ht
    obtain ⟨t', ht', rfl⟩ := Option.map_eq_some_iff.1 ht
    exact hf t' ht'

/-! ### Choosing and waking -/

section Choosing

variable {ring waiting : List TaskId}

/-- A task that is readied has to obey the rule from then on. -/
theorem Obeys.makeReady_of {id : TaskId} (h : s.Obeys (rule.except id))
    (hq : s.blocked.Spells waiting)
    (hid : ∀ t, s.task? id = some t → rule false id { t with state := .ready, waitSince := none }) :
    (s.makeReady id).Obeys rule := by
  have htask : ∀ j, (s.makeReady id).task? j = if j = id then (s.task? j).map fun t =>
      { t with state := .ready, waitSince := none } else s.task? j := task?_modifyTask id _
  have hplace : ∀ j, (s.makeReady id).blocked.contains j = true ↔
      j ≠ id ∧ s.blocked.contains j = true := hq.contains_remove id
  refine h.update (fun j hj => ⟨?_, ?_⟩) fun t ht => ?_
  · rw [htask, if_neg hj]
  · rw [hplace]
    exact ⟨fun hj' => hj'.2, fun hj' => ⟨hj, hj'⟩⟩
  · have hout : (s.makeReady id).blocked.contains id = false := by
      rw [← Bool.not_eq_true, hplace]
      exact fun hin => hin.1 rfl
    rw [htask, if_pos rfl] at ht
    obtain ⟨t', ht', rfl⟩ := Option.map_eq_some_iff.1 ht
    rw [hout]
    exact hid t' ht'

theorem Obeys.makeReady (h : s.Obeys rule) (hl : rule.Lawful) (hq : s.blocked.Spells waiting)
    (id : TaskId) : (s.makeReady id).Obeys rule :=
  (h.except id).makeReady_of hq fun t ht => hl.readied _ id t (h id t ht)

theorem Obeys.makeReadyAll (h : s.Obeys rule) (hl : rule.Lawful) (hq : s.blocked.Spells waiting)
    {ids : List TaskId} (hsub : ∀ id ∈ ids, id ∈ waiting) (hnodup : ids.Nodup) :
    (ids.foldl Scheduler.makeReady s).Obeys rule := by
  induction ids generalizing s waiting with
  | nil => exact h
  | cons id ids ih =>
    obtain ⟨hnot, hrest⟩ := List.nodup_cons.1 hnodup
    obtain ⟨a, b, hab⟩ := List.append_of_mem (hsub id List.mem_cons_self)
    have hnext : (s.makeReady id).blocked.Spells (a ++ b) := hq.remove hab
    refine ih (h.makeReady hl hq id) hnext (fun j hj => ?_) hrest
    -- the tasks that are still to be readied are still blocked
    have hin := hsub j (List.mem_cons_of_mem _ hj)
    rw [hab] at hin
    grind

theorem Obeys.unblockWakeable (h : s.Obeys rule) (hl : rule.Lawful)
    (hq : s.blocked.Spells waiting) : s.unblockWakeable.2.Obeys rule := by
  rw [Scheduler.unblockWakeable, hq.toList_eq]
  exact h.makeReadyAll hl hq (fun id hid => (List.mem_filter.1 hid).1) (hq.nodup.filter _)

theorem Obeys.wake (h : s.Obeys rule) (hl : rule.Lawful) (hq : s.blocked.Spells waiting)
    (id : TaskId) : (s.wake id).2.Obeys rule := by
  rw [Scheduler.wake]
  split
  · exact h.makeReady hl hq id
  · exact h

theorem Obeys.unblock (h : s.Obeys rule) (hl : rule.Lawful) (hq : s.blocked.Spells waiting)
    (id : TaskId) : (s.unblock id).2.Obeys rule := by
  rw [Scheduler.unblock]
  split
  · exact h
  · exact h.makeReady hl hq id

theorem Obeys.selectNext (h : s.Obeys rule) (hl : rule.Lawful) (hq : s.blocked.Spells waiting)
    (hint : Option TaskId) : (s.selectNext hint).2.Obeys rule := by
  rw [Scheduler.selectNext]
  split
  · exact h.unblockWakeable hl hq
  · split
    · exact h
    · split <;> exact h

/-- Only a task that is not blocked may be entered. -/
theorem Obeys.enter (h : s.Obeys rule) (hl : rule.Lawful) (previous : Option TaskId)
    {next : TaskId} (hnext : s.blocked.contains next = false) :
    (s.enter previous next).Obeys rule := by
  have hpaused : ∀ paused : Scheduler, paused.Obeys rule →
      paused.blocked.contains next = false → (paused.modifyTask next fun t =>
        { t with state := .running, lastCore := some s.core }).Obeys rule := by
    intro paused hobeys hout
    refine (hobeys.except next).modifyTask fun t ht => ?_
    have ht := hobeys next t ht
    rw [hout] at ht ⊢
    exact hl.entered next t _ ht
  cases previous with
  | none => exact hpaused s h hnext
  | some id =>
    exact hpaused (s.modifyTask id pause)
      ((h.except id).modifyTask fun t ht => hl.paused _ id t (h id t ht)) hnext

/-- The next task is in the ring or idle, and so it is not blocked. -/
theorem Obeys.switchToNext (h : s.Obeys rule) (hl : rule.Lawful) (hq : s.Queued ring waiting)
    (hint : Option TaskId) (preempted : Bool) : (s.switchToNext hint preempted).2.Obeys rule := by
  have hselected := h.selectNext hl hq.blocked hint
  rcases hq.switchToNext_cases hint preempted with hs | hs | ⟨next, hnext, hs⟩ <;> rw [hs]
  · exact hselected
  · exact hselected
  · exact hselected.enter hl s.current hnext

theorem Obeys.start (h : s.Obeys rule) (hl : rule.Lawful) (hc : s.Coherent) :
    s.start.2.Obeys rule := by
  have hstarted : ({ s with started := true } : Scheduler).Obeys rule := h
  have hq : ({ s with started := true } : Scheduler).Queued s.ready.toList s.blocked.toList :=
    hc.queued.congr rfl rfl rfl rfl rfl
  exact hstarted.switchToNext hl hq none false

theorem Obeys.reschedule (h : s.Obeys rule) (hl : rule.Lawful) (hc : s.Coherent) :
    s.reschedule.2.Obeys rule := by
  rw [Scheduler.reschedule]
  split
  · exact h
  · exact h.switchToNext hl hc.queued none false

theorem Obeys.tick (h : s.Obeys rule) (hl : rule.Lawful) (hc : s.Coherent) :
    s.tick.2.Obeys rule := by
  rw [Scheduler.tick]
  split
  · have hlater : ({ s with elapsed := s.elapsed + s.timeslice } : Scheduler).Obeys rule := h
    have hq : ({ s with elapsed := s.elapsed + s.timeslice } : Scheduler).Queued s.ready.toList
        s.blocked.toList := hc.queued.congr rfl rfl rfl rfl rfl
    exact (hlater.unblockWakeable hl hq.blocked).switchToNext hl hq.unblockWakeable.1 none true
  · exact h

end Choosing

/-! ### Blocking -/

/-- The current task is not blocked. -/
theorem Coherent.not_blocked_of_current (h : s.Coherent) {id : TaskId}
    (hid : s.current = some id) : s.blocked.contains id = false := by
  rw [← Bool.not_eq_true, h.queued.blocked.contains_iff]
  rcases h.current id hid with hidle | hready
  · exact (h.queued.idle id hidle).2
  · exact h.queued.apart id hready

theorem Coherent.not_blocked_of_working? (h : s.Coherent) {id : TaskId}
    (hid : s.working? = some id) : s.blocked.contains id = false :=
  h.not_blocked_of_current (working?_eq_some hid).1

/-- The task that blocks has to obey the rule from then on. -/
theorem Obeys.suspended {id : TaskId} (h : s.Obeys (rule.except id)) (hl : rule.Lawful)
    (hc : s.Coherent) (hworking : s.working? = some id) {reason : BlockReason}
    (hid : ∀ t, s.task? id = some t → rule true id (t.suspended s.wakeTimeOf reason))
    (hint : Option TaskId) :
    ((s.suspended id reason).switchToNext hint false).2.Obeys rule := by
  obtain ⟨a, b, hab⟩ := hc.ready_of_working? hworking
  obtain ⟨waiting', hmem, hq, -⟩ := hc.queued.suspend hab reason
  have hplace : ∀ j, (s.suspended id reason).blocked.contains j = true ↔
      j = id ∨ s.blocked.contains j = true := by
    intro j
    rw [hc.queued.blocked.contains_iff, ← hmem]
    exact hq.blocked.contains_iff j
  suffices hobeys : (s.suspended id reason).Obeys rule from hobeys.switchToNext hl hq hint false
  refine h.update (fun j hj => ⟨?_, ?_⟩) fun t ht => ?_
  · rw [task?_suspended, if_neg hj]
  · rw [hplace]
    exact ⟨fun hin => hin.resolve_left hj, .inr⟩
  · rw [task?_suspended, if_pos rfl] at ht
    obtain ⟨t', ht', rfl⟩ := Option.map_eq_some_iff.1 ht
    rw [(hplace id).2 (.inl rfl)]
    exact hid t' ht'

theorem Obeys.block (h : s.Obeys rule) (hl : rule.Lawful) (hc : s.Coherent)
    {reason : BlockReason} (hid : ∀ id t, s.working? = some id → s.task? id = some t →
      rule true id (t.suspended s.wakeTimeOf reason)) : (s.block reason).2.Obeys rule := by
  cases hworking : s.working? with
  | none =>
    rw [block_eq_of_none hworking]
    exact h
  | some id =>
    rw [hc.block_eq hworking]
    exact (h.except id).suspended hl hc hworking (fun t ht => hid id t hworking ht) _

/-- A task may always sleep. -/
theorem Obeys.sleep (h : s.Obeys rule) (hl : rule.Lawful) (hc : s.Coherent)
    (milliseconds : Nat) : (s.block (.sleep milliseconds)).2.Obeys rule := by
  refine h.block hl hc fun id t hworking ht => ?_
  have hactive := h id t ht
  rw [hc.not_blocked_of_working? hworking] at hactive
  exact hl.slept id t _ hactive

/-! ### Messages -/

theorem Obeys.withMailbox (h : s.Obeys rule) {id : TaskId} {mailbox : Mailbox}
    (hid : ∀ t, s.task? id = some t →
      rule (s.blocked.contains id) id { t with mailbox := mailbox }) :
    (s.withMailbox id mailbox).Obeys rule :=
  (h.except id).modifyTask hid

/-- The rule has to hold of the recipient with the new mail, where it is or readied. -/
theorem Obeys.deliver (h : s.Obeys rule) (hc : s.Coherent) {recipient : TaskId}
    {message : Message}
    (hwoken : ∀ t mailbox, s.task? recipient = some t → t.mailbox.send message = .ok mailbox →
      t.state = .blocked → { t with mailbox := mailbox }.isWakeable s.elapsed = true →
      rule false recipient { t with mailbox := mailbox, state := .ready, waitSince := none })
    (hkept : ∀ t mailbox, s.task? recipient = some t → t.mailbox.send message = .ok mailbox →
      ¬ (t.state = .blocked ∧ { t with mailbox := mailbox }.isWakeable s.elapsed = true) →
      rule (s.blocked.contains recipient) recipient { t with mailbox := mailbox }) :
    (s.deliver recipient message).2.Obeys rule := by
  rw [Scheduler.deliver]
  split
  · exact h
  · split
    · exact h
    · rename_i t ht
      split
      · exact h
      · rename_i mailbox hsend
        dsimp only
        split
        · rename_i hwake
          have hbut : (s.withMailbox recipient mailbox).Obeys (rule.except recipient) :=
            (h.except recipient).withMailbox fun t' ht' hne => absurd rfl hne
          refine hbut.makeReady_of hc.queued.blocked fun t' ht' => ?_
          rw [task?_withMailbox, if_pos rfl, ht] at ht'
          cases ht'
          exact hwoken t mailbox ht hsend hwake.1 hwake.2
        · rename_i hasleep
          refine h.withMailbox fun t' ht' => ?_
          rw [ht] at ht'
          cases ht'
          exact hkept t mailbox ht hsend hasleep

/-- The rule has to hold of the current task with the mail that is left, and if there was no
suitable mail, also when it waits. -/
theorem Obeys.receive (h : s.Obeys rule) (hl : rule.Lawful) (hc : s.Coherent)
    {filter : Option Filter} (hid : ∀ id t, s.working? = some id → s.task? id = some t →
      match takeMessage t.mailbox filter with
      | (.ok none, mailbox) => rule true id { t with
          mailbox := mailbox, state := .blocked, waitSince := filter.map fun _ => mailbox.sends }
      | (_, mailbox) => rule false id { t with mailbox := mailbox }) :
    (s.receive filter).2.Obeys rule := by
  cases hworking : s.working? with
  | none =>
    rw [receive_eq_of_none hworking]
    exact h
  | some id =>
    obtain ⟨t, ht⟩ := Option.isSome_iff_exists.1
      (hc.contains_current (working?_eq_some hworking).1)
    have ht : s.task? id = some t := ht
    have hnew := hid id t hworking ht
    have hplace := hc.not_blocked_of_working? hworking
    have hkept : ∀ mailbox, rule false id { t with mailbox := mailbox } →
        (s.withMailbox id mailbox).Obeys rule := by
      intro mailbox hrule
      refine h.withMailbox fun t' ht' => ?_
      rw [ht] at ht'
      cases ht'
      rw [hplace]
      exact hrule
    rcases htake : takeMessage t.mailbox filter with ⟨result, mailbox⟩
    rw [htake] at hnew
    rw [hc.receive_eq hworking ht htake]
    cases result with
    | error e => exact hkept mailbox hnew
    | ok message =>
      cases message with
      | some message => exact hkept mailbox hnew
      | none =>
        have hbut : (s.withMailbox id mailbox).Obeys (rule.except id) :=
          (h.except id).withMailbox fun t' ht' hne => absurd rfl hne
        refine hbut.suspended hl (hc.withMailbox id mailbox) hworking (fun t' ht' => ?_) _
        rw [task?_withMailbox, if_pos rfl, ht] at ht'
        cases ht'
        exact hnew

/-! ### Tasks that come and go -/

/-- A new task is not blocked. -/
theorem Obeys.joined (h : s.Obeys rule) (hc : s.Coherent) {task : Task}
    (hfresh : s.contains task.id = false)
    (hnew : rule false task.id { task with state := .ready, lastCore := some s.core })
    (htask : ∀ j, s'.task? j = if j = task.id then
      some { task with state := .ready, lastCore := some s.core } else s.task? j)
    (hblocked : s'.blocked = s.blocked) : s'.Obeys rule := by
  refine (h.except task.id).update (fun j hj => ⟨?_, by rw [hblocked]⟩) fun t ht => ?_
  · rw [htask, if_neg hj]
  · have hout : s.blocked.contains task.id = false := by
      rw [← Bool.not_eq_true, hc.queued.blocked.contains_iff]
      intro hin
      rw [hc.queued.contains_of_blocked hin] at hfresh
      cases hfresh
    rw [htask, if_pos rfl] at ht
    cases ht
    rw [hblocked, hout]
    exact hnew

theorem Obeys.schedule (h : s.Obeys rule) (hc : s.Coherent) {task : Task}
    (hnew : rule false task.id { task with state := .ready, lastCore := some s.core }) :
    (s.schedule task).2.Obeys rule := by
  rw [Scheduler.schedule]
  split
  · exact h
  · rename_i hfresh
    exact h.joined hc (by simpa using hfresh) hnew (Table.get?_insert s.tasks task.id _) rfl

theorem Obeys.installCleanup (h : s.Obeys rule) (hc : s.Coherent) {task : Task}
    (hnew : rule false task.id { task with state := .ready, lastCore := some s.core }) :
    (s.installCleanup task).2.Obeys rule := by
  have hscheduled := h.schedule hc hnew
  rw [Scheduler.installCleanup]
  split
  · rename_i hs
    rw [hs] at hscheduled
    exact hscheduled
  · rename_i hs
    rw [hs] at hscheduled
    exact hscheduled

theorem Obeys.installIdle (h : s.Obeys rule) (hc : s.Coherent) {task : Task}
    (hnew : rule false task.id { task with state := .ready, lastCore := some s.core }) :
    (s.installIdle task).2.Obeys rule := by
  rw [Scheduler.installIdle]
  split
  · exact h
  · rename_i haccepted
    have hfresh : s.contains task.id = false ∧ s.idle = none := by simpa using haccepted
    exact h.joined hc hfresh.1 hnew (Table.get?_insert s.tasks task.id _) rfl

/-- The tasks that are left when one of them ends are where they were. -/
theorem Obeys.exit (h : s.Obeys rule) (hl : rule.Lawful) (hc : s.Coherent) :
    s.exit.2.Obeys rule := by
  by_cases hnone : s.working? = none ∨ s.working? = s.cleanup
  · rw [exit_eq_of_none hnone]
    exact h
  · obtain ⟨hworking, hcleanup⟩ := not_or.1 hnone
    obtain ⟨id, hid⟩ := Option.ne_none_iff_exists'.1 hworking
    have hcleanup : s.cleanup ≠ some id := fun e => hcleanup (hid.trans e.symm)
    obtain ⟨t, ht⟩ := Option.isSome_iff_exists.1 (hc.contains_current (working?_eq_some hid).1)
    obtain ⟨a, b, hab⟩ := hc.ready_of_working? hid
    have hq := hc.queued.retired hab hcleanup t
    have hretired : (s.retired id t).Obeys rule := by
      intro j t' ht'
      rw [task?_retired] at ht'
      split at ht'
      · cases ht'
      · exact h j t' ht'
    rw [hc.exit_eq hid hcleanup ht, wakeCleanup]
    split
    · rename_i c _
      obtain ⟨ring, waiting, hq', -⟩ := hq.wake c
      exact (hretired.wake hl hq.blocked c).switchToNext hl hq' _ false
    · exact hretired.switchToNext hl hq _ false

theorem Obeys.changePriority (h : s.Obeys rule) (hl : rule.Lawful) (id : TaskId)
    (priority : Priority) : (s.changePriority id priority).2.Obeys rule := by
  rw [Scheduler.changePriority]
  split
  · exact h
  · exact (h.except id).modifyTask fun t ht => hl.prioritized _ id t priority (h id t ht)

end Scheduler

end Microkernel
