/-
What passes from one task to the next.

A switch leaves a context and loads another one: a kernel stack with its stack pointer, and an
address space (`Task.context`). No operation of a scheduler changes the context of a task. What a
context takes from the machine (`Task.assets`) goes with the task from the table to the exited ones.

* **`Turn`**: what an operation does with the contexts and the current task, when it answers the
  given switch, or none;
* **`Calm`**: an operation after which the same task is current and none has ended;
* **`Coherent.turn_exit`**, **`Coherent.turn_block`**, ...: one lemma for each operation that may
  pass the turn, under the condition that a scheduler without idle task has no current one.

Design notes: a turn counts assets instead of listing tasks, since what matters of them is that none
is held twice. The list of tasks that were handed to the scheduler in between is part of a turn, so
that several operations in a row make up a turn again (`Calm.turn_trans`).
-/
import Microkernel.Proofs.Scheduler.Intake
import Microkernel.Proofs.Scheduler.Running
import Microkernel.Proofs.Task.Launch

namespace Microkernel

/-- The switch away from a task that waits from now on. -/
def Reception.switch : Reception → Option Switch
  | .received _ => none
  | .waiting switch => switch

namespace Scheduler

variable {s s' s₁ : Scheduler}

/-- What belongs to the tasks of a scheduler, those that are over included. -/
def assets (s : Scheduler) : List Asset :=
  (s.tasks.values ++ s.exited).flatMap Task.assets

theorem flatMap_assets (tasks : List Task) :
    tasks.flatMap Task.assets = (tasks.map Task.context).flatMap Context.assets := by
  rw [List.flatMap_map]
  rfl

/-- A scheduler to which nothing belongs has no tasks. -/
theorem task?_of_assets_eq_nil (h : s.assets = []) (id : TaskId) : s.task? id = none := by
  cases ht : s.task? id with
  | none => rfl
  | some t =>
    have hin : t ∈ s.tasks.values ++ s.exited :=
      List.mem_append_left _ (Table.mem_values.2 ⟨id, ht⟩)
    have hnil := List.flatMap_eq_nil_iff.1 h t hin
    rw [Task.assets, Context.assets] at hnil
    cases hnil

/-! ### Operations that keep all contexts -/

/-- `s'` has the tasks of `s` with their contexts. -/
structure Retains (s s' : Scheduler) : Prop where
  contexts : ∀ id, (s'.task? id).map Task.context = (s.task? id).map Task.context
  exited : s'.exited = s.exited
  idle : s'.idle = s.idle

namespace Retains

theorem refl (s : Scheduler) : Retains s s :=
  ⟨fun _ => rfl, rfl, rfl⟩

theorem trans (h : Retains s s₁) (h' : Retains s₁ s') : Retains s s' :=
  ⟨fun id => (h'.contexts id).trans (h.contexts id), h'.exited.trans h.exited,
    h'.idle.trans h.idle⟩

theorem assets_eq (h : Retains s s') : s'.assets = s.assets := by
  rw [assets, assets, flatMap_assets, flatMap_assets, List.map_append, List.map_append, h.exited,
    Table.map_values_congr h.contexts]

theorem task? (h : Retains s s') {id : TaskId} {t : Task} (ht : s.task? id = some t) :
    ∃ t', s'.task? id = some t' ∧ t'.context = t.context := by
  have hcontext := h.contexts id
  rw [ht, Option.map_some] at hcontext
  exact Option.map_eq_some_iff.1 hcontext

end Retains

theorem Rearranged.retains (h : Rearranged s s') : Retains s s' := by
  refine ⟨fun id => ?_, h.exited, h.idle⟩
  have hcontext : ∀ o : Option Task, o.map Task.context = (o.map Task.fixed).map Task.context := by
    intro o
    cases o <;> rfl
  rw [hcontext, h.fixed, ← hcontext]

theorem retains_withMailbox (id : TaskId) (mailbox : Mailbox) :
    Retains s (s.withMailbox id mailbox) := by
  refine ⟨fun j => ?_, rfl, rfl⟩
  rw [task?_withMailbox]
  split
  · cases s.task? j <;> rfl
  · rfl

/-! ### Turns -/

/-- `s'` has the tasks of `s` and at most those of `new`, and the same one is current. -/
structure Calm (s : Scheduler) (new : List Task) (s' : Scheduler) : Prop where
  coherent : s'.Coherent
  idle : s.idle.isSome = true → s'.idle.isSome = true
  current : s'.current = s.current
  exited : s'.exited = s.exited
  contexts : ∀ id t, s.task? id = some t → ∃ t', s'.task? id = some t' ∧ t'.context = t.context
  owned : ∀ a, s'.assets.count a ≤ (new.flatMap Task.assets).count a + s.assets.count a

/-- Without a switch the current task stays; a switch leads from it to the one that is current
then, which is another one. -/
structure Passes (s : Scheduler) (switch : Option Switch) (s' : Scheduler) : Prop where
  stays : switch = none → s'.current = s.current
  turns : ∀ sw, switch = some sw →
    sw.leaving = s.current ∧ s'.current = some sw.entering ∧ s.current ≠ some sw.entering

/-- The task `t` of `s` is still there in `s'`, or it is the one that ended last. -/
def Leaves (s : Scheduler) (id : TaskId) (t : Task) (s' : Scheduler) : Prop :=
  ∃ t', t'.context = t.context ∧
    (s'.task? id = some t' ∨
      s'.task? id = none ∧ t'.id = id ∧ s'.exited = s.exited ++ [t'])

/-- `s'` has the tasks of `s` and at most those of `new`, and the turn passes as the switch says. -/
structure Turn (s : Scheduler) (new : List Task) (switch : Option Switch) (s' : Scheduler) :
    Prop where
  coherent : s'.Coherent
  idle : s.idle.isSome = true → s'.idle.isSome = true
  passes : s.Passes switch s'
  leaves : ∀ id t, s.current = some id → s.task? id = some t → s.Leaves id t s'
  owned : ∀ a, s'.assets.count a ≤ (new.flatMap Task.assets).count a + s.assets.count a

variable {new new' : List Task} {switch : Option Switch}

namespace Calm

theorem refl (h : s.Coherent) : Calm s [] s where
  coherent := h
  idle hidle := hidle
  current := rfl
  exited := rfl
  contexts _ t ht := ⟨t, ht, rfl⟩
  owned _ := Nat.le_add_left _ _

theorem of_retains (hco : s'.Coherent) (hr : Retains s s') (hcurrent : s'.current = s.current) :
    Calm s [] s' where
  coherent := hco
  idle hidle := hr.idle ▸ hidle
  current := hcurrent
  exited := hr.exited
  contexts id t ht := hr.task? ht
  owned a := by
    rw [hr.assets_eq]
    exact Nat.le_add_left _ _

/-- Fewer tasks may have been added than were there. -/
theorem mono (h : Calm s [] s') (new : List Task) : Calm s new s' :=
  ⟨h.coherent, h.idle, h.current, h.exited, h.contexts, fun a =>
    Nat.le_trans (h.owned a) (by rw [List.flatMap_nil, List.count_nil]; omega)⟩

theorem trans (h : Calm s new s₁) (h' : Calm s₁ new' s') : Calm s (new ++ new') s' where
  coherent := h'.coherent
  idle hidle := h'.idle (h.idle hidle)
  current := h'.current.trans h.current
  exited := h'.exited.trans h.exited
  contexts id t ht := by
    obtain ⟨t₁, ht₁, hcontext₁⟩ := h.contexts id t ht
    obtain ⟨t', ht', hcontext⟩ := h'.contexts id t₁ ht₁
    exact ⟨t', ht', hcontext.trans hcontext₁⟩
  owned a := by
    rw [List.flatMap_append, List.count_append]
    have hfirst := h.owned a
    have hsecond := h'.owned a
    omega

/-- A turn after operations that left the current task alone. -/
theorem turn_trans (h : Calm s new s₁) (h' : Turn s₁ new' switch s') :
    Turn s (new ++ new') switch s' where
  coherent := h'.coherent
  idle hidle := h'.idle (h.idle hidle)
  passes := by
    refine ⟨fun hnone => (h'.passes.stays hnone).trans h.current, fun sw hsw => ?_⟩
    rw [← h.current]
    exact h'.passes.turns sw hsw
  leaves id t hid ht := by
    obtain ⟨t₁, ht₁, hcontext₁⟩ := h.contexts id t ht
    obtain ⟨t', hcontext, hplace⟩ := h'.leaves id t₁ (h.current.trans hid) ht₁
    rw [h.exited] at hplace
    exact ⟨t', hcontext.trans hcontext₁, hplace⟩
  owned a := by
    rw [List.flatMap_append, List.count_append]
    have hfirst := h.owned a
    have hsecond := h'.owned a
    omega

theorem turn (h : Calm s new s') : Turn s new none s' where
  coherent := h.coherent
  idle := h.idle
  passes := ⟨fun _ => h.current, fun sw hsw => (by cases hsw)⟩
  leaves id t hid ht := by
    obtain ⟨t', ht', hcontext⟩ := h.contexts id t ht
    exact ⟨t', hcontext, .inl ht'⟩
  owned := h.owned

end Calm

theorem Turn.of_retains (hco : s'.Coherent) (hr : Retains s s') (hpasses : s.Passes switch s') :
    Turn s [] switch s' where
  coherent := hco
  idle hidle := hr.idle ▸ hidle
  passes := hpasses
  leaves id t hid ht := by
    obtain ⟨t', ht', hcontext⟩ := hr.task? ht
    exact ⟨t', hcontext, .inl ht'⟩
  owned a := by
    rw [hr.assets_eq]
    exact Nat.le_add_left _ _

/-! ### Tasks that join and tasks that end -/

theorem Joined.assets {task : Task} (h : Joined s task s')
    (hfresh : s.contains task.id = false) : s'.assets.Perm (task.assets ++ s.assets) := by
  rw [Scheduler.assets, Scheduler.assets, h.tasks_eq, h.exited]
  have hnone := get?_of_contains_eq_false hfresh
  exact ((Table.perm_values_insert hnone _).append_right _).flatMap_right _

theorem Joined.calm {task : Task} (h : Joined s task s') (hco : s'.Coherent)
    (hfresh : s.contains task.id = false) (hidle : s.idle.isSome = true → s'.idle.isSome = true) :
    Calm s [task] s' where
  coherent := hco
  idle := hidle
  current := h.current
  exited := h.exited
  contexts id t ht := by
    have hne : id ≠ task.id := by
      rintro rfl
      have hcontains : s.contains task.id = true := Option.isSome_of_mem ht
      rw [hfresh] at hcontains
      cases hcontains
    exact ⟨t, by rw [h.task?, if_neg hne]; exact ht, rfl⟩
  owned a := Nat.le_of_eq <| by
    rw [(h.assets hfresh).count_eq, List.count_append, List.flatMap_singleton]

theorem assets_retired {id : TaskId} {t : Task} (ht : s.task? id = some t) :
    (s.retired id t).assets.Perm s.assets := by
  have hended : Task.assets { t with state := .exited, mailbox := t.mailbox.release } =
      t.assets := rfl
  have hperm := (Table.perm_values_erase ht).append_right s.exited
  rw [assets, assets, retired, List.flatMap_append, List.flatMap_append, List.flatMap_append,
    List.flatMap_singleton, hended, ← List.flatMap_append]
  refine List.Perm.trans ?_ (hperm.flatMap_right _)
  rw [List.cons_append, List.flatMap_cons, List.flatMap_append, ← List.append_assoc]
  exact List.perm_append_comm

/-! ### Operations without a turn -/

theorem Coherent.calm_schedule (h : s.Coherent) (task : Task) :
    Calm s [task] (s.schedule task).2 := by
  rcases h.schedule (Prod.eta (s.schedule task)).symm with
    ⟨-, -, hs⟩ | ⟨-, hfresh, hco, hj, -, hidle, -⟩
  · rw [hs]
    exact (Calm.refl h).mono [task]
  · exact hj.calm hco hfresh fun hsome => hidle ▸ hsome

theorem Coherent.calm_installIdle (h : s.Coherent) (task : Task) :
    Calm s [task] (s.installIdle task).2 := by
  rcases h.installIdle (Prod.eta (s.installIdle task)).symm with
    ⟨-, -, hs⟩ | ⟨-, hfresh, hco, hj, hidle, -⟩
  · rw [hs]
    exact (Calm.refl h).mono [task]
  · exact hj.calm hco hfresh fun _ => hidle ▸ rfl

theorem Coherent.calm_installCleanup (h : s.Coherent) (task : Task) :
    Calm s [task] (s.installCleanup task).2 := by
  rcases h.installCleanup (Prod.eta (s.installCleanup task)).symm with
    ⟨-, -, hs⟩ | ⟨-, hfresh, hco, hj, hidle, -⟩
  · rw [hs]
    exact (Calm.refl h).mono [task]
  · exact hj.calm hco hfresh fun hsome => hidle ▸ hsome

theorem Coherent.calm_deliver (h : s.Coherent) (recipient : TaskId) (message : Message) :
    Calm s [] (s.deliver recipient message).2 := by
  rcases h.deliver (Prod.eta (s.deliver recipient message)).symm with
    ⟨-, hs, -⟩ | ⟨-, -, -, ⟨-, -, hs, -⟩ | ⟨-, mailbox, -, -, hco, hr, hcurrent⟩⟩
  · rw [hs]
    exact .refl h
  · rw [hs]
    exact .refl h
  · exact .of_retains hco ((retains_withMailbox recipient mailbox).trans hr.retains) hcurrent

theorem Coherent.calm_deliverAll (h : s.Coherent) (stalled : List TaskId) (mail : List Mail) :
    Calm s [] (s.deliverAll stalled mail).2 :=
  deliverAll_keeps (fun _ hcalm recipient message =>
    hcalm.trans (hcalm.coherent.calm_deliver recipient message)) (.refl h) stalled mail

theorem Coherent.calm_wake (h : s.Coherent) (id : TaskId) : Calm s [] (s.wake id).2 := by
  obtain ⟨hco, hr⟩ := h.wake id
  exact .of_retains hco hr.retains (current_wake s id)

theorem Coherent.calm_changePriority (h : s.Coherent) (id : TaskId) (priority : Priority) :
    Calm s [] (s.changePriority id priority).2 := by
  obtain ⟨-, hco, hr, hcurrent⟩ :=
    h.changePriority (Prod.eta (s.changePriority id priority)).symm
  exact .of_retains hco hr.retains hcurrent

/-- The exited tasks are handed out. -/
theorem Coherent.turn_reap (h : s.Coherent) : Turn s [] none s.reap.2 where
  coherent := h.reap
  idle hidle := hidle
  passes := ⟨fun _ => rfl, fun sw hsw => (by cases hsw)⟩
  leaves _ t _ ht := ⟨t, rfl, .inl ht⟩
  owned a := by
    have hreaped : s.reap.2.assets = s.tasks.values.flatMap Task.assets :=
      congrArg (List.flatMap Task.assets) (List.append_nil _)
    rw [hreaped, assets, List.flatMap_append, List.count_append]
    omega

/-! ### Operations that may pass the turn -/

/-- Without an idle task no task is current. -/
def Attended (s : Scheduler) : Prop :=
  s.idle = none → s.current = none

/-- There is an idle task, or there are no tasks. -/
def Staffed (s : Scheduler) : Prop :=
  s.idle.isSome = true ∨ s.assets = []

/-- A scheduler without tasks has no current one. -/
theorem Coherent.attended (h : s.Coherent) (hm : s.Staffed) : s.Attended := by
  intro hidle
  rcases hm with hsome | hnone
  · rw [hidle] at hsome
    cases hsome
  · cases hcurrent : s.current with
    | none => rfl
    | some id =>
      have hin := h.contains_current hcurrent
      rw [contains, Table.contains, show s.tasks.get? id = none from
        task?_of_assets_eq_nil hnone id] at hin
      cases hin

/-- If no tasks are added, a scheduler without tasks stays one. -/
theorem Turn.staffed (h : Turn s new switch s') (hnew : new.flatMap Task.assets = [])
    (hm : s.Staffed) : s'.Staffed := by
  refine hm.imp h.idle fun hnone => List.eq_nil_iff_forall_not_mem.2 fun a ha => ?_
  have howned := h.owned a
  rw [hnew, hnone] at howned
  exact Nat.ne_of_gt (List.count_pos_iff.2 ha) (Nat.le_zero.1 howned)

variable {ring waiting : List TaskId}

theorem Queued.passes_switchToNext (h : s.Queued ring waiting) (hidle : s.Attended)
    (hint : Option TaskId) (preempted : Bool) :
    s.Passes (s.switchToNext hint preempted).1 (s.switchToNext hint preempted).2 := by
  obtain ⟨-, -, -, hr, hcurrent, -⟩ := h.selectNext hint
  rw [Scheduler.switchToNext]
  generalize s.selectNext hint = selected at hr hcurrent ⊢
  obtain ⟨choice, s₁⟩ := selected
  dsimp only at hr hcurrent ⊢
  split
  · -- nobody is left to run, not even an idle task
    rename_i hnone
    have hboot : s.current = none := hidle (hr.idle.symm.trans (Option.or_eq_none_iff.1 hnone).2)
    rw [hboot]
    exact ⟨fun _ => hboot.symm, fun sw hsw => (by cases hsw)⟩
  · rename_i next _
    split
    · exact ⟨fun _ => hcurrent, fun sw hsw => (by cases hsw)⟩
    · rename_i hother
      refine ⟨fun hnone => (by cases hnone), fun sw hsw => ?_⟩
      cases hsw
      exact ⟨rfl, rfl, hother⟩

/-- The turn passes on from a scheduler that differs from `s` in the queues only. -/
theorem Queued.turn_switchToNext (h : s₁.Queued ring waiting) (hr : Retains s s₁)
    (hcurrent : s₁.current = s.current) (hidle : s.Attended) (hint : Option TaskId)
    (preempted : Bool) :
    Turn s [] (s₁.switchToNext hint preempted).1 (s₁.switchToNext hint preempted).2 := by
  have hattended : s₁.Attended := fun hnone => hcurrent.trans (hidle (hr.idle.symm.trans hnone))
  obtain ⟨hco, hr', -⟩ := h.switchToNext (Prod.eta (s₁.switchToNext hint preempted)).symm
  obtain ⟨hstays, hturns⟩ := h.passes_switchToNext hattended hint preempted
  rw [hcurrent] at hstays hturns
  exact .of_retains hco (hr.trans hr'.retains) ⟨hstays, hturns⟩

theorem Coherent.turn_start (h : s.Coherent) (hidle : s.Attended) :
    Turn s [] s.start.1 s.start.2 := by
  have hq : ({ s with started := true } : Scheduler).Queued s.ready.toList s.blocked.toList :=
    h.queued.congr rfl rfl rfl rfl rfl
  have hstarted : Retains s { s with started := true } := ⟨fun _ => rfl, rfl, rfl⟩
  exact hq.turn_switchToNext hstarted rfl hidle none false

theorem Coherent.turn_reschedule (h : s.Coherent) (hidle : s.Attended) :
    Turn s [] s.reschedule.1 s.reschedule.2 := by
  rw [Scheduler.reschedule]
  split
  · exact (Calm.refl h).turn
  · exact h.queued.turn_switchToNext (.refl s) rfl hidle none false

theorem Coherent.turn_tick (h : s.Coherent) (hidle : s.Attended) :
    Turn s [] s.tick.1 s.tick.2 := by
  rw [Scheduler.tick]
  split
  · have hq : ({ s with elapsed := s.elapsed + s.timeslice } : Scheduler).Queued s.ready.toList
        s.blocked.toList := h.queued.congr rfl rfl rfl rfl rfl
    obtain ⟨hq', hr⟩ := hq.unblockWakeable
    have hadvanced : Retains s { s with elapsed := s.elapsed + s.timeslice } :=
      ⟨fun _ => rfl, rfl, rfl⟩
    exact hq'.turn_switchToNext (hadvanced.trans hr.retains) (current_unblockWakeable _) hidle
      none true
  · exact (Calm.refl h).turn

/-- The current task gives up its turn to wait for something. -/
theorem Coherent.turn_suspended (h : s₁.Coherent) (hr : Retains s s₁)
    (hcurrent : s₁.current = s.current) (hidle : s.Attended) {id : TaskId}
    (hid : s₁.working? = some id) (reason : BlockReason) (hint : Option TaskId) :
    Turn s [] ((s₁.suspended id reason).switchToNext hint false).1
      ((s₁.suspended id reason).switchToNext hint false).2 := by
  obtain ⟨a, b, hab⟩ := h.ready_of_working? hid
  obtain ⟨waiting', -, hq, hr'⟩ := h.queued.suspend hab reason
  exact Queued.turn_switchToNext hq (hr.trans hr'.retains)
    ((current_suspended id reason).trans hcurrent) hidle hint false

theorem Coherent.turn_block (h : s.Coherent) (hidle : s.Attended) (reason : BlockReason) :
    Turn s [] (s.block reason).1.toOption.join (s.block reason).2 := by
  cases hworking : s.working? with
  | none =>
    rw [block_eq_of_none hworking]
    exact (Calm.refl h).turn
  | some id =>
    rw [h.block_eq hworking]
    exact h.turn_suspended (.refl s) rfl hidle hworking reason _

theorem Coherent.turn_receive (h : s.Coherent) (hidle : s.Attended) (filter : Option Filter) :
    Turn s [] ((s.receive filter).1.toOption.bind Reception.switch) (s.receive filter).2 := by
  cases hworking : s.working? with
  | none =>
    rw [receive_eq_of_none hworking]
    exact (Calm.refl h).turn
  | some id =>
    obtain ⟨t, ht⟩ := Option.isSome_iff_exists.1
      (h.contains_current (working?_eq_some hworking).1)
    rcases htake : takeMessage t.mailbox filter with ⟨result, mailbox⟩
    have hr := retains_withMailbox (s := s) id mailbox
    have hco := h.withMailbox id mailbox
    rw [h.receive_eq hworking ht htake]
    cases result with
    | error e => exact (Calm.of_retains hco hr rfl).turn
    | ok message =>
      cases message with
      | some message => exact (Calm.of_retains hco hr rfl).turn
      | none => exact hco.turn_suspended hr rfl hidle hworking _ _

/-- The task that ends is left, and found among the exited ones. -/
theorem Coherent.turn_exit (h : s.Coherent) (hidle : s.Attended) :
    Turn s [] (s.exit.1.toOption.bind Exit.switch) s.exit.2 := by
  rcases h.exit (Prod.eta s.exit).symm with
    ⟨hr, hs⟩ | ⟨id, t, switch, hr, hid, hcleanup, ht, hco, -, hmoved⟩
  · rw [hr, hs]
    exact (Calm.refl h).turn
  · obtain ⟨hcurrent, -⟩ := working?_eq_some hid
    obtain ⟨a, b, hab⟩ := h.ready_of_working? hid
    obtain ⟨_, _, hq, hwoken, hwokenCurrent⟩ := (h.queued.retired hab hcleanup t).wakeCleanup
    have hsame : (s.retired id t).wakeCleanup.current = s.current := hwokenCurrent
    have hattended : (s.retired id t).wakeCleanup.Attended :=
      fun hnone => hsame.trans (hidle (hwoken.idle.symm.trans hnone))
    obtain ⟨hstays, hturns⟩ := hq.passes_switchToNext hattended (s.ready.next id) false
    rw [hsame] at hstays hturns
    have hgone : s.exit.2.task? id = none := by
      have hfixed := hmoved.fixed id
      rw [task?_retired, if_pos rfl] at hfixed
      exact Option.map_eq_none_iff.1 hfixed
    refine ⟨hco, fun hsome => hmoved.idle ▸ hsome, ?_, fun j u hj hu => ?_, fun a => ?_⟩
    · rw [h.exit_eq hid hcleanup ht]
      exact ⟨hstays, hturns⟩
    · obtain rfl : id = j := Option.some.inj (hcurrent.symm.trans hj)
      obtain rfl : t = u := Option.some.inj (ht.symm.trans hu)
      exact ⟨{ t with state := .exited, mailbox := t.mailbox.release }, rfl,
        .inr ⟨hgone, h.queued.named id t ht, hmoved.exited⟩⟩
    · rw [hmoved.retains.assets_eq, (assets_retired ht).count_eq]
      exact Nat.le_add_left _ _

end Scheduler

end Microkernel
