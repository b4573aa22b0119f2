/-
Which tasks there are.

The tasks in existence are the live ones (`System.population`) and those that are over and wait on
their core to be reclaimed (`System.remains`).

* **`Coursed.shifts`**: most operations leave all tasks, with what they hold, where they were;
* **`ensures_place_shifts`**: a task in hand joins the live ones;
* **`ensures_goOnline_shifts`**: so do the two tasks that a core starts with;
* **`exited_step`**, **`ensures_reap_remains`**: a task that ends is over, and a core hands out its
  tasks that are over all at once.

Design notes: tasks are told apart by what they hold. Their state, their mailbox and their priority
are left out, so that an operation that schedules tasks is seen to change nothing.
-/
import Microkernel.Proofs.Kernel.Effects
import Microkernel.Proofs.Kernel.Safety
import Microkernel.Proofs.Kernel.Wakeups
import Microkernel.Proofs.Scheduler.Holdings

namespace Microkernel

/-! ### The tasks of one core -/

namespace Core

variable {core core' : Core} {size : Nat} {come : List Holdings}

/-- What the live tasks of a core hold, those in its inbox included. -/
def holdings (core : Core) : List Holdings :=
  core.scheduler.holdings ++ core.inbox.tasks.map Task.holdings

/-- What the tasks hold that ended on a core, oldest first. -/
def remains (core : Core) : List Holdings :=
  core.scheduler.exited.map Task.holdings

/-- The live tasks of the core are those of before and those of `come`. -/
structure Gains (come : List Holdings) (core core' : Core) : Prop where
  live : core'.holdings.Perm (come ++ core.holdings)
  remains : core'.remains = core.remains

theorem holdings_of_no_arrivals (h : core.inbox.tasks = []) :
    core.holdings = core.scheduler.holdings := by
  rw [holdings, h]
  exact List.append_nil _

theorem Sound.exited_drained (h : core.Sound size) :
    core.drained.scheduler.exited = core.scheduler.exited := by
  have hjoined := h.coherent.gains_joinAll h.fresh h.distinct
  exact (h.manned.coherent.gains_deliverAll [] core.inbox.mail).exited.trans hjoined.exited

/-- A core that takes over its inbox gains nothing. -/
theorem Sound.gains_drained (h : core.Sound size) : Gains [] core core.drained := by
  have hjoined := h.coherent.gains_joinAll h.fresh h.distinct
  have hboth := hjoined.trans (h.manned.coherent.gains_deliverAll [] core.inbox.mail)
  refine ⟨?_, congrArg (List.map Task.holdings) h.exited_drained⟩
  rw [holdings_of_no_arrivals rfl]
  exact hboth.live.trans List.perm_append_comm

/-- Nor does it when it does some work that gains nothing. -/
theorem Sound.gains_of_work (h : core.Sound size) {s : Scheduler}
    (hwork : Scheduler.Gains come core.drained.scheduler s)
    (hsame : core'.contents = ({ core.drained with scheduler := s } : Core).contents) :
    Gains come core core' := by
  obtain ⟨hlive, hremains⟩ := h.gains_drained
  have hscheduler : core'.scheduler = s := by rw [scheduler_of_contents hsame]
  have hinbox : core'.inbox = core.drained.inbox := by rw [inbox_of_contents hsame]
  have hnone : core'.inbox.tasks = [] := by rw [hinbox]; rfl
  refine ⟨?_, ?_⟩
  · rw [holdings_of_no_arrivals hnone, hscheduler]
    rw [holdings_of_no_arrivals rfl] at hlive
    exact hwork.live.trans (hlive.append_left come)
  · rw [remains, hscheduler, hwork.exited]
    exact hremains

theorem gains_of_contents (h : core'.contents = core.contents) : Gains [] core core' := by
  refine ⟨.of_eq ?_, ?_⟩
  · rw [holdings, holdings, scheduler_of_contents h, inbox_of_contents h]
    rfl
  · rw [remains, remains, scheduler_of_contents h]

theorem GetsTask.gains {task : Task} (h : core.GetsTask task core') :
    Gains [task.holdings] core core' := by
  subst h
  refine ⟨?_, rfl⟩
  simp only [holdings, reserveLoad, Inbox.pushTask, List.map_append, List.map_cons, List.map_nil]
  rw [← List.append_assoc]
  exact List.perm_append_singleton _ _

theorem GetsMail.gains (h : core.GetsMail core') : Gains [] core core' := by
  obtain ⟨mail, rfl⟩ := h
  exact ⟨.refl _, rfl⟩

/-- The task was live on the core, and is the last of those that are over. -/
structure Loses (gone : Holdings) (core core' : Core) : Prop where
  live : (gone :: core'.holdings).Perm core.holdings
  remains : core'.remains = core.remains ++ [gone]

theorem Sound.loses_after (h : core.Sound size) {gone : Holdings} {s : Scheduler}
    (hloses : Scheduler.Loses gone core.drained.scheduler s) : Loses gone core (core.after s) := by
  obtain ⟨hlive, hremains⟩ := h.gains_drained
  rw [holdings_of_no_arrivals rfl] at hlive
  refine ⟨?_, ?_⟩
  · rw [holdings_of_no_arrivals rfl]
    exact hloses.live.trans hlive
  · have hended : (core.after s).remains = core.drained.remains ++ [gone] := hloses.exited
    rw [hended, hremains]

end Core

/-! ### The tasks of all cores -/

namespace System

variable {s s' s₁ : System} {c : CoreId} {core core' : Core} {come come' gone : List Holdings}

/-- What the live tasks hold. -/
def population (s : System) : List Holdings :=
  s.cores.flatMap Core.holdings ++ s.directory.parked.map Task.holdings

/-- What the tasks hold that ended on each core. -/
def remains (s : System) : List (List Holdings) :=
  s.cores.map Core.remains

/-- What all tasks in existence hold. -/
def existing (s : System) : List Holdings :=
  s.population ++ s.remains.flatten

/-- The tasks of `come` have come to the live ones, and nothing else has changed. -/
structure Shifts (come : List Holdings) (s s' : System) : Prop where
  live : s'.population.Perm (come ++ s.population)
  remains : s'.remains = s.remains

theorem Shifts.refl (s : System) : Shifts [] s s :=
  ⟨.refl _, rfl⟩

theorem Shifts.trans (h : Shifts come s s₁) (h' : Shifts come' s₁ s') :
    Shifts (come' ++ come) s s' := by
  refine ⟨h'.live.trans ?_, h'.remains.trans h.remains⟩
  rw [List.append_assoc]
  exact h.live.append_left come'

theorem Shifts.perm (h : Shifts come s s') (hperm : come.Perm come') : Shifts come' s s' :=
  ⟨h.live.trans (hperm.append_right _), h.remains⟩

/-- Tasks that come to or leave one core come to or leave the population. -/
theorem perm_population (hcore : s.core? c = some core) (hcores : s'.cores = s.cores.set c core')
    (hparked : s'.directory.parked = s.directory.parked)
    (h : (gone ++ core'.holdings).Perm (come ++ core.holdings)) :
    (gone ++ s'.population).Perm (come ++ s.population) := by
  rw [population, population, hcores, hparked, ← List.append_assoc, ← List.append_assoc]
  exact (perm_flatMap_set hcore Core.holdings h).append_right _

theorem remains_set (hcores : s'.cores = s.cores.set c core') :
    s'.remains = s.remains.set c core'.remains := by
  rw [remains, remains, hcores, List.map_set]

theorem remains_set_same (hcore : s.core? c = some core) (hcores : s'.cores = s.cores.set c core')
    (h : core'.remains = core.remains) : s'.remains = s.remains := by
  obtain ⟨hlt, hget⟩ := List.getElem?_eq_some_iff.1 hcore
  have hsame : (s.remains.set c core.remains) = s.remains := by
    rw [remains, ← List.map_set, ← hget, List.set_getElem_self]
  rw [remains_set hcores, h, hsame]

theorem shifts_set (hcore : s.core? c = some core) (hcores : s'.cores = s.cores.set c core')
    (hparked : s'.directory.parked = s.directory.parked) (h : core.Gains come core') :
    Shifts come s s' := by
  have hlive : ([] ++ s'.population).Perm (come ++ s.population) :=
    perm_population hcore hcores hparked h.live
  exact ⟨hlive, remains_set_same hcore hcores h.remains⟩

/-- The directory is no concern of the tasks, but for those that are parked. -/
theorem shifts_rest (hcores : s'.cores = s.cores)
    (hparked : s'.directory.parked = s.directory.parked) : Shifts [] s s' := by
  refine ⟨.of_eq ?_, ?_⟩
  · rw [population, population, hcores, hparked]
    rfl
  · rw [remains, remains, hcores]

/-- A task is over: it was live, and now it waits to be reclaimed. -/
theorem existing_loses {gone : Holdings} (hcore : s.core? c = some core)
    (hcores : s'.cores = s.cores.set c core')
    (hparked : s'.directory.parked = s.directory.parked) (h : core.Loses gone core') :
    s'.existing.Perm s.existing := by
  have hlive : ([gone] ++ s'.population).Perm ([] ++ s.population) :=
    perm_population hcore hcores hparked h.live
  have hremains : ([] ++ s'.remains.flatten).Perm ([gone] ++ s.remains.flatten) := by
    rw [remains, remains, ← List.flatMap_def, ← List.flatMap_def, hcores]
    refine perm_flatMap_set hcore Core.remains ?_
    rw [h.remains]
    exact List.perm_append_singleton gone core.remains
  calc List.Perm s'.existing (s'.population ++ (gone :: s.remains.flatten)) :=
          hremains.append_left _
    List.Perm _ (gone :: (s'.population ++ s.remains.flatten)) := List.perm_middle
    List.Perm _ s.existing := hlive.append_right _

end System

theorem Kernel.holdings_liveTasks (k : Kernel) :
    k.liveTasks.map Task.holdings = k.system.population := by
  have hcores : (k.cores.flatMap fun core => core.scheduler.tasks.values ++ core.inbox.tasks).map
      Task.holdings = k.cores.flatMap Core.holdings := by
    rw [List.map_flatMap]
    refine congrArg List.flatten (List.map_congr_left fun core _ => ?_)
    rw [List.map_append]
    rfl
  rw [liveTasks, List.map_append, hcores]
  rfl

/-! ### Operations that leave the tasks alone -/

namespace Kernel

variable {γ : Type} {s s' : System} {k k' : Kernel} {hand hand' : List Task} {c : CoreId}
  {core core' : Core} {f : Books → γ} {W : Scheduler → Scheduler → Prop} {L : Core → Core → Prop}

/-- No task comes, ends or is reclaimed, and there is at most one call. -/
def Operation.isPlain : Operation → Bool
  | .bringUp | .spawn _ _ _ | .spawnUser _ _ _ _ | .exit | .runCleanup | .receive _
  | .turnTo _ => false
  | _ => true

theorem Operation.isSingle_of_isPlain {operation : Operation} (h : operation.isPlain = true) :
    operation.isSingle = true := by
  cases operation <;> first | rfl | cases h

theorem Operation.Does.gains {operation : Operation} {before now : Scheduler}
    (h : operation.Does before now) (hplain : operation.isPlain = true) (hco : before.Coherent) :
    Scheduler.Gains [] before now := by
  cases h with
  | rest => exact .refl _
  | start => exact hco.gains_start
  | startAsked => exact hco.gains_start
  | turn => exact hco.gains_reschedule
  | tick => exact hco.gains_tick
  | sleep => exact hco.gains_block _
  | wake _ task => exact (hco.gains_wake task).trans (hco.wake task).1.gains_reschedule
  | changePriority => exact hco.gains_changePriority _ _
  | park => exact hco.gains_block _
  | deliver _ id message => exact (hco.deliver_coherent id message).2
  | hand _ id message =>
    obtain ⟨hco', hgains⟩ := hco.deliver_coherent id message
    exact hgains.trans hco'.gains_reschedule
  | receive => exact hco.gains_receive _
  | _ => cases hplain

theorem Operation.Leaves.gains {operation : Operation} (h : operation.Leaves core core')
    (hplain : operation.isPlain = true) : core.Gains [] core' := by
  cases h with
  | send _ _ h => exact h.gains
  | _ => cases hplain

/-- All tasks are where they were, if neither the work nor what was left brings any. -/
theorem Coursed.shifts (h : Coursed f W L k k') (hk : k.system.Sound hand)
    (hk' : k'.system.Sound hand') (hparked : k'.directory.parked = k.directory.parked)
    (hW : ∀ before now : Scheduler, W before now → before.Coherent → Scheduler.Gains [] before now)
    (hL : ∀ core core', L core core' → core.Gains [] core') : k.system.Shifts [] k'.system := by
  cases h.change with
  | rests hcores => exact System.shifts_rest hcores hparked
  | left hcore hleft hcores => exact System.shifts_set hcore hcores hparked (hL _ _ hleft)
  | @runs core core' hcore hfares hcores =>
    refine System.shifts_set hcore hcores hparked ?_
    have hsound := (hk.settled _ core hcore).sound
    cases hfares with
    | stays hsame => exact Core.gains_of_contents hsame
    | halted hfaulted =>
      have hcore' : k'.core? k.machine.currentCore = some core' := by
        rw [core?_set hcore hcores, if_pos rfl]
      exact absurd ⟨core', hcore', hfaulted⟩ (unfaulted_of_sound hk')
    | works hwork hsame => exact hsound.gains_of_work (hW _ _ hwork hsound.drained.coherent) hsame

/-! ### New tasks -/

/-- A task in hand joins the live ones, and no id is handed out or taken back. -/
theorem ensures_place_shifts {task : Task} (h : s.Sound (task :: hand)) :
    Ensures s (place task) fun _ s' =>
      s.Shifts [task.holdings] s' ∧ s'.directory.ids = s.directory.ids := by
  refine Ensures.get fun k hk => ?_
  subst hk
  split
  · refine Ensures.bind_ok (Ensures.onDirectory _ ⟨rfl, rfl⟩) ?_
    refine Ensures.quiet (quiet_note _) fun _ => Ensures.pure ⟨⟨?_, rfl⟩, rfl⟩
    simp only [System.population, System.withDirectory, Directory.park, List.map_append,
      List.map_singleton]
    rw [← List.append_assoc]
    exact List.perm_append_singleton _ _
  · rename_i c hchosen
    obtain ⟨core, hcore, honline⟩ := chosen_online h.ordinals hchosen
    obtain ⟨hfresh, -⟩ := fresh_of_hand h hcore
    have hsound := (h.settled c core hcore).sound
    have hcore₁ : (k.system.withDirectory (k.system.directory.recordHome task.id c)).core? c =
        some core := hcore
    refine Ensures.bind_ok (Ensures.onDirectory _ ⟨rfl, rfl⟩) ?_
    split
    · rename_i hlocal
      subst hlocal
      refine Ensures.bind ((ensures_join hcore₁ (h.ordinals _ core hcore) hsound hfresh).mono
        fun r s' hr => ?_)
      obtain ⟨rfl, joined, scheduler, hj, hidle, -, hmoved, rfl⟩ := hr
      refine Ensures.quiet (quiet_note _) fun _ => Ensures.pure ?_
      have hnew : core.drained.scheduler.contains task.id = false := by
        rw [← Bool.not_eq_true, hsound.contains_drained]
        exact hfresh
      have hjoins := (hj.gains hnew).trans hmoved.gains
      exact ⟨System.shifts_set hcore rfl rfl (hsound.gains_of_work hjoins rfl), rfl⟩
    · refine Ensures.bind ((ensures_leave hcore₁ task).mono fun r s' hr => ?_)
      obtain ⟨rfl, rfl⟩ := hr
      exact Ensures.quiet (quiet_note _) fun _ =>
        Ensures.pure ⟨System.shifts_set hcore rfl rfl (Core.GetsTask.gains rfl), rfl⟩

/-- The tasks in hand join the live ones one after the other. -/
theorem ensures_placeAll_shifts (tasks : List Task) (h : s.Sound (tasks ++ hand)) :
    Ensures s (tasks.forM fun task => do let _ ← place task) fun _ s' =>
      s.Shifts (tasks.map Task.holdings) s' ∧ s'.directory.ids = s.directory.ids := by
  induction tasks generalizing s with
  | nil => exact Ensures.pure ⟨.refl s, rfl⟩
  | cons task tasks ih =>
    have hplaced := (ensures_place h).and (ensures_place_shifts h)
    refine Ensures.bind (Ensures.bind (hplaced.mono fun r s' hr => ?_))
    obtain ⟨hplaced, hshifts, hids⟩ := hr
    obtain ⟨placement, rfl⟩ := hplaced.ok
    refine Ensures.pure ((ih hplaced.preserves.sound).mono fun _ s'' hr => ?_)
    exact ⟨(hshifts.trans hr.1).perm (List.perm_append_singleton _ _), hr.2.trans hids⟩

/-- A core without tasks has gained its idle and its cleanup task. -/
theorem gains_opened {size : Nat} (h : core.Sound size) (hnone : core.members = [])
    {idle cleanup : Task} (hne : cleanup.id ≠ idle.id) {s₁ s₂ : Scheduler}
    (hs₁ : core.drained.scheduler.installIdle idle = (.ok (), s₁))
    (hs₂ : s₁.installCleanup cleanup = (.ok (), s₂)) :
    core.Gains [cleanup.holdings, idle.holdings] (core.after s₂) := by
  have hcontains : ∀ id, core.drained.scheduler.contains id = false := by
    intro id
    rw [← Bool.not_eq_true, h.contains_drained, hnone]
    exact List.not_mem_nil
  obtain ⟨s₁', s₂', hs₁', hs₂', -, hj₁, hj₂⟩ :=
    h.drained.coherent.installServants hcontains hne
  cases hs₁.symm.trans hs₁'
  cases hs₂.symm.trans hs₂'
  have hfresh : s₁.contains cleanup.id = false := hj₁.contains_eq_false (hcontains _) hne
  exact h.gains_of_work ((hj₁.gains (hcontains _)).trans (hj₂.gains hfresh)) rfl

/-- The two servants are live, and the tasks that were parked are in hand. -/
theorem Opened.shifts {idle cleanup : Task} (h : Opened core idle cleanup s s₁)
    (hsound : s.Sound (cleanup :: idle :: hand)) (hcore : s.core? s.currentCore = some core)
    (hnone : core.members = []) :
    (s.directory.parked.map Task.holdings ++ s₁.population).Perm
      ([cleanup.holdings, idle.holdings] ++ s.population) ∧ s₁.remains = s.remains := by
  cases h with
  | @manned s₁ s₂ directory hidle hcleanup hids hparked =>
    obtain ⟨hcome, hremains⟩ := gains_opened (hsound.settled _ core hcore).sound hnone
      (servants_ne hsound) hidle hcleanup
    have hlive : ([] ++ (s.cores.set s.currentCore ((core.after s₂).setFlags
        { online := true })).flatMap Core.holdings).Perm
          ([cleanup.holdings, idle.holdings] ++ s.cores.flatMap Core.holdings) :=
      System.perm_flatMap_set hcore Core.holdings hcome
    refine ⟨?_, System.remains_set_same hcore rfl hremains⟩
    have hnone : directory.parked.map Task.holdings = [] := by rw [hparked, List.map_nil]
    have hparked' := hlive.append_right (s.directory.parked.map Task.holdings)
    rw [List.append_assoc] at hparked'
    refine List.perm_append_comm.trans (.trans (.of_eq ?_) hparked')
    show (_ ++ directory.parked.map Task.holdings) ++ _ = _
    rw [hnone, List.append_nil]
    rfl

/-- A core that goes online brings its two servants, and no id is handed out or taken back. -/
theorem ensures_goOnline_shifts {idle cleanup : Task} (h : s.Sound (cleanup :: idle :: hand))
    (hcore : s.core? s.currentCore = some core) (hnone : core.members = []) :
    Ensures s (goOnline core idle cleanup) fun _ s' => s'.Sound hand ∧
      s.Shifts [cleanup.holdings, idle.holdings] s' ∧ s'.directory.ids = s.directory.ids := by
  refine ensures_opened h hcore hnone fun s₁ hput hopened => ?_
  obtain ⟨hlive, hremains⟩ := hopened.shifts h hcore hnone
  have hplaced := (ensures_placeAll _ hput.sound).and (ensures_placeAll_shifts _ hput.sound)
  refine hplaced.mono fun r s' hr => ?_
  obtain ⟨hkept, hshifts, hids⟩ := hr
  exact ⟨hkept.sound, ⟨hshifts.live.trans hlive, hshifts.remains.trans hremains⟩,
    hids.trans hopened.ids⟩

/-! ### The end of tasks -/

/-- The outcome of an exit: a task of the core that runs is over, and nothing is known of it any
more; or all tasks are where they were. -/
def Ended (s : System) (r : Except Stop TaskId) (s' : System) : Prop :=
  match r with
  | .ok id => ∃ core core' gone, s.core? s.currentCore = some core ∧ gone.id = id ∧
      core.Loses gone core' ∧
      s' = (s.withDirectory (s.directory.forget id).2).withCore s.currentCore core'
  | .error _ => s.Shifts [] s' ∧ s'.directory = s.directory

/-- Nothing was done under the lock but to drain the inbox. -/
theorem shifts_drained (h : s.Sound hand) (hcore : s.core? c = some core) :
    s.Shifts [] (s.withCore c (core.after core.drained.scheduler)) :=
  System.shifts_set hcore rfl rfl ((h.settled c core hcore).sound.gains_of_work (.refl _) rfl)

theorem ensures_exit_ends (h : s.Sound hand) : Ensures s exit (Ended s) := by
  cases hcore : s.core? s.currentCore with
  | none => exact ensures_locked_none hcore ⟨.refl s, rfl⟩
  | some core =>
    refine ensures_exit_of h hcore (fun _ => ⟨shifts_drained h hcore, rfl⟩)
      fun id t _ scheduler _ ht hco hr => ?_
    have hloses := (Scheduler.loses_retired ht).then hr.gains
    exact ⟨core, _, t.holdings, hcore, (coherent_drained h hcore).queued.named id t ht,
      (h.settled _ core hcore).sound.loses_after hloses, rfl⟩

/-- What an exit comes to: a task of the core that runs is over and waits there to be reclaimed, or
all tasks are where they were. -/
inductive Exited (k : Kernel) : Option TaskId → Kernel → Prop
  | ended {k' : Kernel} {core core' : Core} {gone : Holdings} (hcore : k.localCore? = some core)
      (hsystem : k'.system = (k.system.withDirectory (k.directory.forget gone.id).2).withCore
        k.machine.currentCore core')
      (hloses : core.Loses gone core') : Exited k (some gone.id) k'
  | refused {k' : Kernel} (hshifts : k.system.Shifts [] k'.system)
      (hdirectory : k'.directory = k.directory) : Exited k none k'

theorem exited_step (h : k.system.Sound []) : Exited k (k.ends .exit) (k.step .exit).2 := by
  have hended := ensures_exit_ends h k rfl
  have hstep : k.step .exit = k.perform (exit >>= fun id => return .task id) := rfl
  rw [ends, hstep, perform_bind]
  rcases hr : k.perform exit with ⟨e | id, k'⟩
  all_goals rw [hr] at hended
  · exact .refused hended.1 hended.2
  · obtain ⟨core, core', gone, hcore, rfl, hloses, hsystem⟩ := hended
    exact .ended hcore hsystem hloses

/-- What `runCleanup` does under the lock hands out the tasks that are over. -/
theorem ensures_reap_remains (h : s.Sound hand) :
    Ensures s
      (locked fun id => do
        checkCleanup id
        return (← onScheduler id Scheduler.reap, none))
      fun r s' => match r with
        | .ok tasks => ∃ core core', s.core? s.currentCore = some core ∧
            tasks = core.scheduler.exited ∧ core'.holdings.Perm core.holdings ∧ core'.remains = [] ∧
            s' = s.withCore s.currentCore core'
        | .error _ => s.Shifts [] s' ∧ s'.directory = s.directory := by
  refine ensures_locked_sound h (fun _ => ⟨.refl s, rfl⟩) fun core hcore => ?_
  refine ensures_checkCleanup hcore ⟨shifts_drained h hcore, rfl⟩ ?_
  have hsound := (h.settled _ core hcore).sound
  have hreap : core.drained.scheduler.reap =
      (core.drained.scheduler.exited, core.drained.scheduler.reap.2) := rfl
  refine Ensures.bind_ok (ensures_onScheduler hcore hreap) ?_
  refine Ensures.pure (Locked.ok (Scheduler.resolved_none _) ?_)
  exact ⟨core, core.after core.drained.scheduler.reap.2, hcore, hsound.exited_drained,
    hsound.gains_drained.live, rfl, rfl⟩

end Kernel

end Microkernel
