/-
The ledger of the tasks in existence.

A `Ledger` relates what tasks hold to the memory of the machine. Building a task enters it, giving
back what a task holds takes it off, and nothing else touches the memory. A kernel is `Listed` if
all its tasks are on the ledger, those in hand included.

* **`listed_place`**, **`listed_bringUp`** and so on: no task is lost on its way to a core;
* **`Listed.step`**: every operation keeps the ledger, and only the end of a task and the reclaiming
  of tasks change what waits to be reclaimed;
* **`cleanedUp_step`**: what is reclaimed;
* **`Reachable.ledger`**: in every kernel that can be reached, the tasks in existence are on the
  ledger.
-/
import Microkernel.Proofs.Kernel.Courses
import Microkernel.Proofs.Kernel.Population

namespace Microkernel

/-- If a task was built, it is entered. -/
def Entered (P : List Holdings → Machine → Prop) (l : List Holdings)
    (result : Except Error Task × Machine) : Prop :=
  match result.1 with
  | .ok task => P (task.holdings :: l) result.2
  | .error _ => P l result.2

/-- The property is kept by building tasks and by giving back what they hold. -/
structure Ledger (P : List Holdings → Machine → Prop) : Prop where
  perm : ∀ {l l' m}, l.Perm l' → P l m → P l' m
  memory : ∀ {l} {m m' : Machine}, m'.memory = m.memory → P l m → P l m'
  kernelTask : ∀ {l m} (launcher : Launcher) request entry, P l m →
    Entered P l (launcher.kernelTask m request entry)
  userTask : ∀ {l m} (launcher : Launcher) request entry path, P l m →
    Entered P l (launcher.userTask m request entry path)
  release : ∀ {l m} (task : Task), P (task.holdings :: l) m → P l (task.release m)

theorem Ledger.releaseAll {P : List Holdings → Machine → Prop} (hP : Ledger P) {l : List Holdings}
    (tasks : List Task) {m : Machine} (h : P (tasks.map Task.holdings ++ l) m) :
    P l (tasks.foldl (fun m task => task.release m) m) := by
  induction tasks generalizing m with
  | nil => exact h
  | cons task tasks ih => exact ih (hP.release task h)

namespace Kernel

variable {α β : Type} {k k' : Kernel} {hand : List Task} {core : Core}
  {P : List Holdings → Machine → Prop} {remains : List (List Holdings)}

/-- The tasks in hand and all others in existence are on the ledger, and those of `remains` wait to
be reclaimed. -/
structure Listed (P : List Holdings → Machine → Prop) (remains : List (List Holdings))
    (hand : List Task) (k : Kernel) : Prop where
  sound : k.system.Sound hand
  remains : k.system.remains = remains
  ledger : P (hand.map Task.holdings ++ k.system.existing) k.machine

/-- Tasks come from the hand to the live ones, and nobody else comes or goes. -/
theorem Listed.shifts (hP : Ledger P) (come : List Task) (h : k.Listed P remains (come ++ hand))
    (hsound : k'.system.Sound hand)
    (hshifts : k.system.Shifts (come.map Task.holdings) k'.system)
    (hmemory : k'.machine.memory = k.machine.memory) : k'.Listed P remains hand := by
  refine ⟨hsound, hshifts.remains.trans h.remains, hP.memory hmemory (hP.perm ?_ h.ledger)⟩
  rw [System.existing, System.existing, hshifts.remains, ← List.append_assoc, ← List.append_assoc]
  refine List.Perm.append_right _ (.symm ?_)
  calc List.Perm (hand.map Task.holdings ++ k'.system.population)
        (hand.map Task.holdings ++ (come.map Task.holdings ++ k.system.population)) :=
          hshifts.live.append_left _
    List.Perm _ ((come ++ hand).map Task.holdings ++ k.system.population) := by
      rw [List.map_append, ← List.append_assoc]
      exact List.perm_append_comm.append_right _

/-! ### Building tasks -/

theorem entered_build {l : List Holdings} {make : Launcher → TaskId → Machine →
      Except Error Task × Machine}
    (hmake : ∀ {l m} launcher id, P l m → Entered P l (make launcher id m))
    (event : Error → Event) (h : P l k.machine) : k.Gives (buildTask make event)
      (fun k' => P l k'.machine) fun task k' => P (task.holdings :: l) k'.machine := by
  refine .onDirectory (.ofExcept h fun id _ => .get (.onMachine ?_))
  have hentered := hmake k.launcher id h
  rw [Entered] at hentered
  cases hresult : (make k.launcher id k.machine).1 with
  | ok task =>
    rw [hresult] at hentered
    show Gives _ (settleTask event id (make k.launcher id k.machine).1) _ _
    rw [hresult]
    exact .pure hentered
  | error e =>
    rw [hresult] at hentered
    show Gives _ (settleTask event id (make k.launcher id k.machine).1) _ _
    rw [hresult]
    exact .onDirectory (.note (.fail hentered e))

/-- A task that was built is in hand, and on the ledger. -/
theorem listed_build (h : k.Listed P remains hand) {name : String} {priority : Priority}
    {make : Launcher → TaskId → Machine → Except Error Task × Machine}
    (houtcome : ∀ l id m, Launcher.Outcome l ⟨id, name, priority⟩ m (make l id m))
    (hmake : ∀ {l m} launcher id, P l m → Entered P l (make launcher id m))
    (event : Error → Event) :
    k.Gives (buildTask make event) (Listed P remains hand)
      fun task => Listed P remains (task :: hand) := by
  -- the ids are all that building changes of the system
  have hsame : ∀ (k' : Kernel), (∃ ids, k'.system = k.system.withIds ids) →
      k'.system.remains = remains ∧ k'.system.existing = k.system.existing := by
    rintro k' ⟨ids, hids⟩
    rw [hids]
    exact ⟨h.remains, rfl⟩
  refine (entered_build hmake event h.ledger).ensuring (ensures_build h.sound houtcome event)
    (fun e k' hbuilt hentered => ?_) fun task k' hbuilt hentered => ?_
  · obtain ⟨hremains, hexisting⟩ := hsame k' hbuilt.1
    rw [← hexisting] at hentered
    match e with
    | .failed e => exact ⟨hbuilt.2.2, hremains, hentered⟩
    | .halted _ => exact hbuilt.2.elim
  · obtain ⟨hremains, hexisting⟩ := hsame k' hbuilt.1
    rw [← hexisting] at hentered
    exact ⟨hbuilt.2, hremains, hentered⟩

theorem listed_buildKernelTask (hP : Ledger P) (h : k.Listed P remains hand) (name : String)
    (entry : Nat) (priority : Priority) :
    k.Gives (buildKernelTask name entry priority) (Listed P remains hand)
      fun task => Listed P remains (task :: hand) := by
  rw [buildKernelTask_eq]
  exact listed_build h (fun _ _ m => Launcher.outcome_kernelTask m entry)
    (fun launcher id hl => hP.kernelTask launcher ⟨id, name, priority⟩ entry hl) _

theorem listed_buildUserTask (hP : Ledger P) (h : k.Listed P remains hand) (name : String)
    (entry : Nat) (path : Option String) (priority : Priority) :
    k.Gives (buildUserTask name entry path priority) (Listed P remains hand)
      fun task => Listed P remains (task :: hand) := by
  rw [buildUserTask_eq]
  exact listed_build h (fun _ _ m => Launcher.outcome_userTask m entry path)
    (fun launcher id hl => hP.userTask launcher ⟨id, name, priority⟩ entry path hl) _

/-- If the cleanup task cannot be built, the idle task is given up too. -/
theorem listed_buildServants (hP : Ledger P) (h : k.Listed P remains hand) :
    k.Gives buildServants (Listed P remains hand)
      fun servants => Listed P remains (servants.2 :: servants.1 :: hand) := by
  refine .bind (listed_buildKernelTask hP h _ _ _) fun idle k₁ h₁ => ?_
  refine .bind ((listed_buildKernelTask hP h₁ _ _ _).attempt fun c hhalted => ?_)
    fun result k₂ h₂ => ?_
  · have hbuilt := ensures_buildKernelTask h₁.sound "cleanup" Machine.entryPoints.cleanupLoop .idle
      k₁ rfl
    rw [hhalted] at hbuilt
    exact hbuilt.2
  cases result with
  | ok cleanup => exact .pure h₂
  | error e =>
    have hfreed := h₂.sound.ids.release List.mem_cons_self
    rw [List.map_cons, List.cons_append, List.erase_cons_head] at hfreed
    have hsound := h₂.sound.withIds hfreed fun t ht => .inl (List.mem_cons_of_mem _ ht)
    refine .onDirectory (.onMachine (.fail ⟨?_, h₂.remains, hP.release idle h₂.ledger⟩ e))
    have hcurrent := (idle.grows_release k₂.machine).currentCore
    show System.Sound hand ⟨_, _, _, (idle.release k₂.machine).currentCore⟩
    rw [hcurrent]
    exact hsound

/-! ### Placing tasks -/

/-- A task in hand comes to a core, or is parked. -/
theorem listed_place (hP : Ledger P) {task : Task} (h : k.Listed P remains (task :: hand))
    {E : Kernel → Prop} : k.Gives (place task) E fun _ => Listed P remains hand := by
  have hplaced := (ensures_place h.sound).and (ensures_place_shifts h.sound)
  refine (Gives.of_respects (course_place (f := Books.memory) fun _ => rfl)).ensuring hplaced
    (fun e k' hr _ => ?_) fun placement k' hr hcourse => ?_
  · obtain ⟨placement, hok⟩ := hr.1.ok
    cases hok
  · obtain ⟨hplaced, hshifts, -⟩ := hr
    exact h.shifts hP [task] hplaced.preserves.sound hshifts (hcourse h.sound.ordinals).books

theorem listed_launch (hP : Ledger P) {task : Task} (h : k.Listed P remains (task :: hand))
    {E : Kernel → Prop} : k.Gives (launch task) E fun _ => Listed P remains hand :=
  .bind (listed_place hP h) fun _ _ h' => .tally (.pure ⟨h'.sound, h'.remains, h'.ledger⟩)

/-! ### Bringing up a core -/

/-- With its idle and its cleanup task built, a core goes online. -/
theorem listed_goOnline (hP : Ledger P) {idle cleanup : Task}
    (h : k.Listed P remains (cleanup :: idle :: hand)) (hcore : k.localCore? = some core)
    (hnone : core.members = []) :
    k.Gives (goOnline core idle cleanup) (Listed P remains hand)
      fun _ => Listed P remains hand := by
  have hmemory : Respects (SameBooks Books.memory) (goOnline core idle cleanup) :=
    books_goOnline core idle cleanup fun _ _ => rfl
  exact (Gives.of_respects hmemory).ensuring (ensures_goOnline_shifts h.sound hcore hnone)
    (fun _ _ hr hkept => h.shifts hP [cleanup, idle] hr.1 hr.2.1 hkept)
    fun _ _ hr hkept => h.shifts hP [cleanup, idle] hr.1 hr.2.1 hkept

/-- A core that comes online takes part in placing the tasks that were parked. -/
theorem listed_bringUp (hP : Ledger P) (h : k.Listed P remains hand) :
    k.Gives bringUp (Listed P remains hand) fun _ => Listed P remains hand := by
  refine .localCore h fun core hcore => ?_
  split
  · exact .pure h
  · rename_i hoffline
    have hnone := (h.sound.offline _ core hcore (Bool.not_eq_true _ ▸ hoffline)).members
    refine .bind ((listed_buildServants hP h).respecting
      (outside_buildServants (f := fun _ => ()) fun _ _ => rfl)) fun servants k₁ h₁ => ?_
    exact listed_goOnline hP h₁.2 (h₁.1.localCore?.trans hcore) hnone

/-! ### Operations that end and reclaim no task -/

/-- Work that brings no task leaves the ledger alone. -/
theorem Coursed.listed {W : Scheduler → Scheduler → Prop} {L : Core → Core → Prop} (hP : Ledger P)
    (h : k.Listed P remains hand)
    (hcourse : Coursed (fun books => (books.memory, books.parked)) W L k k')
    (hsound : k'.system.Sound hand)
    (hW : ∀ before now : Scheduler, W before now → before.Coherent → Scheduler.Gains [] before now)
    (hL : ∀ core core', L core core' → core.Gains [] core') : k'.Listed P remains hand :=
  h.shifts hP [] hsound (hcourse.shifts h.sound hsound (congrArg Prod.snd hcourse.books) hW hL)
    (congrArg Prod.fst hcourse.books)

theorem listed_receiveWithin (hP : Ledger P) (tries : Nat) (h : k.Listed P remains [])
    (filter : Option Filter) : (k.perform (receiveWithin tries filter)).2.Listed P remains [] := by
  refine receiveWithin_keeps (fun k₁ h₁ => ?_) tries h
  exact Coursed.listed (L := fun _ _ => False) hP h₁
    (course_tryReceive filter k₁ h₁.sound.ordinals)
    (ensures_tryReceive h₁.sound filter k₁ rfl).sound
    (fun _ _ hdoes hco => hdoes.gains rfl hco) fun _ _ hleft => hleft.elim

theorem listed_plain (hP : Ledger P) (h : k.Listed P remains []) {operation : Operation}
    (hplain : operation.isPlain = true) : (k.step operation).2.Listed P remains [] := by
  have hspares : operation.Spares fun books => (books.memory, books.parked) := by
    cases operation <;> first | trivial | exact fun _ _ => rfl
  exact Coursed.listed hP h
    (course_actionOf (Operation.isSingle_of_isPlain hplain) hspares k h.sound.ordinals)
    (preserves_step h.sound operation).sound (fun _ _ hdoes hco => hdoes.gains hplain hco)
    fun _ _ hleft => hleft.gains hplain

/-- What a task that was built comes to. -/
theorem listed_spawned (hP : Ledger P) {x : Action Task}
    (hx : k.Gives x (Listed P remains hand) fun task => Listed P remains (task :: hand)) :
    k.Gives (do launch (← x)) (Listed P remains hand) fun _ => Listed P remains hand :=
  hx.bind fun _ _ h => listed_launch hP h

/-- No other operation than the end of a task and the reclaiming of tasks changes what waits to be
reclaimed. -/
theorem Listed.step (hP : Ledger P) (h : k.Listed P remains []) {operation : Operation}
    (hexit : operation ≠ .exit) (hcleanup : operation ≠ .runCleanup) :
    (k.step operation).2.Listed P remains [] := by
  cases hplain : operation.isPlain with
  | true => exact listed_plain hP h hplain
  | false =>
    cases operation with
    | bringUp =>
      rw [step_bringUp]
      exact (listed_bringUp hP h).always
    | spawn name entry priority =>
      rw [step_spawn]
      exact (listed_spawned hP (listed_buildKernelTask hP h name entry priority)).always
    | spawnUser name entry path priority =>
      rw [step_spawnUser]
      exact (listed_spawned hP (listed_buildUserTask hP h name entry path priority)).always
    | receive filter =>
      rw [step_receive]
      exact listed_receiveWithin hP _ h filter
    | turnTo core =>
      exact h.shifts hP [] (preserves_step h.sound (.turnTo core)).sound
        (System.shifts_rest rfl rfl) rfl
    | exit => exact absurd rfl hexit
    | runCleanup => exact absurd rfl hcleanup
    | _ => cases hplain

/-! ### The end and the reclaiming of tasks -/

/-- What reclaiming tasks comes to: those that are over on the core that runs are given up, or
nobody else than the cleanup task has asked for it. -/
inductive CleanedUp (k : Kernel) : Except Stop Answer → Kernel → Prop
  | reclaimed {k' : Kernel} {core core' : Core} {m : Machine}
      (hcore : k.localCore? = some core)
      (hcores : k'.cores = k.cores.set k.machine.currentCore core')
      (hlive : core'.holdings.Perm core.holdings) (hremains : core'.remains = [])
      (hdirectory : k'.directory = k.directory) (hmemory : m.memory = k.machine.memory)
      (hmachine : k'.machine = core.scheduler.exited.foldl (fun m task => task.release m) m)
      (hreaped : k'.metrics.tasksReaped = k.metrics.tasksReaped + core.scheduler.exited.length) :
      CleanedUp k (.ok (.count core.scheduler.exited.length)) k'
  | refused {k' : Kernel} {e : Stop} (hshifts : k.system.Shifts [] k'.system)
      (hbooks : k'.books = k.books) : CleanedUp k (.error e) k'

theorem perform_forM_note (k : Kernel) (l : List β) (g : β → Event) :
    ∃ journal, k.perform (l.forM fun b => note (g b)) =
      (.ok (), ({ k with journal := journal } : Kernel)) := by
  induction l generalizing k with
  | nil => exact ⟨k.journal, rfl⟩
  | cons b l ih => exact ih (k.noted (g b))

theorem cleanedUp_step (h : k.system.Sound []) :
    CleanedUp k (k.step .runCleanup).1 (k.step .runCleanup).2 := by
  have hreap := ensures_reap_remains h k rfl
  have hrespects : Respects (SameBooks fun books => books) (locked fun id => do
      checkCleanup id
      return (← onScheduler id Scheduler.reap, none)) :=
    books_locked fun c => (Respects.checkCleanup c).bind fun _ =>
      (Respects.onScheduler c _).bind fun _ => .pure _
  have hbooks := hrespects k
  rcases hr : k.perform (locked fun id => do
    checkCleanup id
    return (← onScheduler id Scheduler.reap, none)) with ⟨r, k₁⟩
  rw [hr] at hreap hbooks
  have hstep : k.step .runCleanup = k.perform (runCleanup >>= fun n => return .count n) := rfl
  rw [hstep, perform_bind, runCleanup, perform_bind, hr]
  cases r with
  | error e => exact .refused hreap.1 hbooks
  | ok tasks =>
    obtain ⟨core, core', hcore, rfl, hlive, hremains, hsystem⟩ := hreap
    obtain ⟨journal, hnoted⟩ :=
      perform_forM_note k₁ core.scheduler.exited fun task => .reaping task.id task.name
    -- what the tasks hold is given back when the lock is left
    dsimp only
    rw [perform_bind, hnoted]
    refine .reclaimed hcore (congrArg System.cores hsystem) hlive
      hremains (congrArg System.directory hsystem) (congrArg Books.memory hbooks) rfl ?_
    have hreaped : k₁.metrics.tasksReaped = k.metrics.tasksReaped := congrArg Books.reaped hbooks
    rw [← hreaped]
    rfl

/-! ### The ledger of a run -/

/-- A task that is over is still in existence. -/
theorem existing_exit (h : k.system.Sound []) :
    (k.step .exit).2.system.existing.Perm k.system.existing := by
  have hexited := exited_step h
  generalize k.ends .exit = id at hexited
  cases hexited with
  | ended hcore hsystem hloses =>
    rw [hsystem]
    exact System.existing_loses hcore rfl rfl hloses
  | refused hshifts =>
    rw [System.existing, hshifts.remains]
    exact hshifts.live.append_right _

/-- What is reclaimed is no longer in existence. -/
theorem existing_reclaimed {c : CoreId} {core' : Core} (hcore : k.core? c = some core)
    (hcores : k'.cores = k.cores.set c core') (hdirectory : k'.directory = k.directory)
    (hlive : core'.holdings.Perm core.holdings) (hremains : core'.remains = []) :
    (core.remains ++ k'.system.existing).Perm k.system.existing := by
  have hpopulation : ([] ++ k'.system.population).Perm ([] ++ k.system.population) :=
    System.perm_population hcore hcores (congrArg Directory.parked hdirectory) hlive
  have hflat : (core.remains ++ k'.system.remains.flatten).Perm
      ([] ++ k.system.remains.flatten) := by
    rw [System.remains, System.remains, ← List.flatMap_def, ← List.flatMap_def]
    have hcores : k'.system.cores = k.system.cores.set c core' := hcores
    rw [hcores]
    refine System.perm_flatMap_set hcore Core.remains ?_
    rw [hremains, List.append_nil]
    rfl
  calc List.Perm (core.remains ++ (k'.system.population ++ k'.system.remains.flatten))
        (k'.system.population ++ (core.remains ++ k'.system.remains.flatten)) :=
      List.perm_append_comm_assoc _ _ _
    List.Perm _ k.system.existing := hpopulation.append hflat

theorem ledger_step (hP : Ledger P) (h : k.system.Sound []) (hk : P k.system.existing k.machine)
    (operation : Operation) :
    P (k.step operation).2.system.existing (k.step operation).2.machine := by
  by_cases hexit : operation = .exit
  · subst hexit
    have hspares : Operation.exit.Spares Books.memory := fun _ _ => rfl
    have hmemory : (k.step .exit).2.machine.memory = k.machine.memory :=
      (course_actionOf rfl hspares k h.ordinals).books
    exact hP.memory hmemory (hP.perm (existing_exit h).symm hk)
  by_cases hcleanup : operation = .runCleanup
  · subst hcleanup
    have hcleaned := cleanedUp_step h
    have hsound := (preserves_step h .runCleanup).sound
    rcases hstep : k.step .runCleanup with ⟨r, k'⟩
    rw [hstep] at hcleaned hsound
    cases hcleaned with
    | @reclaimed _ core core' m hcore hcores hlive hremains hdirectory hmemory hmachine =>
      have hperm := existing_reclaimed hcore hcores hdirectory hlive hremains
      rw [hmachine]
      exact hP.releaseAll _ (hP.memory hmemory (hP.perm hperm.symm hk))
    | refused hshifts hbooks =>
      have hlisted : k.Listed P k.system.remains [] := ⟨h, rfl, hk⟩
      exact (hlisted.shifts hP [] hsound hshifts (congrArg Books.memory hbooks)).ledger
  · have hlisted : k.Listed P k.system.remains [] := ⟨h, rfl, hk⟩
    exact (hlisted.step hP hexit hcleanup).ledger

theorem existing_new {config : Config} {apics : List Nat} (h : Kernel.new config apics = .ok k) :
    k.system.existing = [] ∧ k.machine = .new := by
  obtain ⟨-, hdirectory, hcores⟩ := parts_of_new h
  have hempty : ∀ {α : Type} (g : Core → List α), (∀ c apic, g (.new c apic config.timeslice
      config.inboxCapacity) = []) → k.system.cores.flatMap g = [] := by
    intro α g hg
    refine List.flatMap_eq_nil_iff.2 fun core hin => ?_
    obtain ⟨c, hc⟩ := List.getElem?_of_mem hin
    obtain ⟨apic, rfl⟩ := hcores c core hc
    exact hg c apic
  have hparked : k.system.directory.parked = [] := congrArg Directory.parked hdirectory
  refine ⟨?_, ?_⟩
  · rw [System.existing, System.population, System.remains, ← List.flatMap_def, hparked,
      hempty Core.holdings fun _ _ => rfl, hempty Core.remains fun _ _ => rfl]
    rfl
  · rw [Kernel.new] at h
    split at h
    · cases h
    · cases h
      rfl

/-- In every kernel that can be reached, the tasks in existence are on the ledger. -/
theorem Reachable.ledger (h : k.Reachable) (hP : Ledger P) (hnew : P [] .new) :
    P k.system.existing k.machine := by
  induction h with
  | new h =>
    obtain ⟨hexisting, hmachine⟩ := existing_new h
    rw [hexisting, hmachine]
    exact hnew
  | step h operation ih => exact ledger_step hP h.sound ih operation

end Kernel

end Microkernel
