/-
Runs that cannot be told apart.

Building a task comes to the same in two kernels that are alike, up to the memory of the task. So
nothing that a kernel is asked for tells them apart:

* **`mirrors_actionOf`**: every operation answers the same in both, and leaves them alike;
* **`Alike.run`**: so does every run.
-/
import Microkernel.Proofs.Kernel.Mirroring
import Microkernel.Proofs.Kernel.Runs

namespace Microkernel

namespace Kernel

/-! ### Building tasks -/

/-- Building a task comes to the same if making one does on machines that are alike. -/
theorem mirrors_build {make : Launcher → TaskId → Machine → Except Error Task × Machine}
    (event : Error → Event)
    (hmake : ∀ l id m m', m.Alike m' → Launcher.Rebuilt m (make l id m) (make l id m')) :
    Mirrors (fun task task' => task'.bare = task.bare) (buildTask make event)
      (buildTask make event) := by
  have hgenerated : Mirrors Eq (onDirectory Directory.generateId)
      (onDirectory Directory.generateId) :=
    .onDirectory fun _ _ hd => ⟨hd.generateId.1.symm, hd.generateId.2⟩
  refine hgenerated.bind fun generated _ h => ?_
  subst h
  refine (Mirrors.ofExcept (.of_eq rfl)).bind fun id _ h => ?_
  subst h
  refine .get fun k k' hk => ?_
  have hlauncher : k'.launcher = k.launcher := congrArg Launcher.ofConfig hk.config
  have hmade : Mirrors (fun made made' => made'.map Task.bare = made.map Task.bare)
      (onMachine (make k.launcher id)) (onMachine (make k'.launcher id)) := by
    rw [hlauncher]
    exact .onMachine fun m m' hm => ⟨(hmake _ id m m' hm).result, (hmake _ id m m' hm).alike⟩
  refine hmade.bind fun made made' h => ?_
  cases made <;> cases made'
  · obtain rfl := Except.error.inj h
    have hfreed : Mirrors Eq (onDirectory (·.freeId id)) (onDirectory (·.freeId id)) :=
      .onDirectory fun _ _ hd => ⟨(hd.freeId id).1.symm, (hd.freeId id).2⟩
    exact hfreed.bind fun _ _ _ => (mirrors_note _ _).bind fun _ _ _ => .fail _
  · cases h
  · cases h
  · exact .pure (Except.ok.inj h)

theorem mirrors_buildKernelTask (name : String) (entry : Nat) (priority : Priority) :
    Mirrors (fun task task' => task'.bare = task.bare) (buildKernelTask name entry priority)
      (buildKernelTask name entry priority) := by
  rw [buildKernelTask_eq]
  exact mirrors_build _ fun _ _ _ _ h => Launcher.rebuilt_kernelTask h entry

theorem mirrors_buildUserTask (name : String) (entry : Nat) (path : Option String)
    (priority : Priority) :
    Mirrors (fun task task' => task'.bare = task.bare) (buildUserTask name entry path priority)
      (buildUserTask name entry path priority) := by
  rw [buildUserTask_eq]
  exact mirrors_build _ fun _ _ _ _ h => Launcher.rebuilt_userTask h entry path

theorem mirrors_buildServants :
    Mirrors (fun servants servants' =>
        servants'.1.bare = servants.1.bare ∧ servants'.2.bare = servants.2.bare)
      buildServants buildServants := by
  refine (mirrors_buildKernelTask _ _ _).bind fun idle idle' hidle => ?_
  refine (mirrors_buildKernelTask _ _ _).attempt.bind fun result result' hresult => ?_
  cases hresult with
  | ok hcleanup => exact .pure ⟨hidle, hcleanup⟩
  | error e =>
    have hid : idle'.id = idle.id := (congrArg Task.id hidle :)
    have hfreed : Mirrors Eq (onDirectory (·.freeId idle.id))
        (onDirectory (·.freeId idle'.id)) := by
      rw [hid]
      exact .onDirectory fun _ _ hd => ⟨(hd.freeId _).1.symm, (hd.freeId _).2⟩
    have hreleased : ∀ task : Task, Aloof (onMachine fun m => ((), task.release m)) :=
      fun task => .onMachine task.alike_release
    exact hfreed.bind fun _ _ _ => ((hreleased idle).mirrors (hreleased idle')).bind
      fun _ _ _ => .fail e

theorem mirrors_bringUp : Mirrors Eq bringUp bringUp := by
  refine Mirrors.localCore.bind fun core core' hcore => ?_
  have honline : core'.isOnline = core.isOnline := (congrArg Core.isOnline hcore :)
  rw [honline]
  split
  · exact .pure rfl
  · exact mirrors_buildServants.bind fun _ _ h => mirrors_goOnline hcore h.1 h.2

/-! ### Operations -/

theorem mirrors_setRegistryTask (task : Option TaskId) :
    Mirrors Eq (setRegistryTask task) (setRegistryTask task) :=
  .onDirectory fun _ _ hd =>
    ⟨rfl, hd.ids, hd.limit, hd.homes, congrArg (·.setRegistryTask task) hd.registry, hd.parked⟩

/-- No operation can tell kernels apart that are alike. -/
theorem mirrors_actionOf (operation : Operation) :
    Mirrors Eq (actionOf operation) (actionOf operation) := by
  have hanswer : ∀ {α : Type} {x : Action α} (f : α → Answer), Mirrors Eq x x →
      Mirrors Eq (do return f (← x)) (do return f (← x)) :=
    fun f hx => hx.bind fun _ _ h => .pure (h ▸ rfl)
  cases operation with
  | bringUp => exact hanswer (fun _ => .done) mirrors_bringUp
  | start => exact hanswer (fun _ => .done) mirrors_start
  | spawn name entry priority =>
    exact hanswer .task
      ((mirrors_buildKernelTask name entry priority).bind fun _ _ h => mirrors_launch h)
  | spawnUser name entry path priority =>
    exact hanswer .task
      ((mirrors_buildUserTask name entry path priority).bind fun _ _ h => mirrors_launch h)
  | exit => exact hanswer .task mirrors_exit
  | sleep milliseconds => exact hanswer (fun _ => .done) (mirrors_sleep milliseconds)
  | wake task => exact hanswer .flag (mirrors_wake task)
  | tick => exact hanswer (fun _ => .done) mirrors_tick
  | send recipient body => exact hanswer (fun _ => .done) (mirrors_send recipient body)
  | tryReceive filter => exact hanswer .message (mirrors_tryReceive filter)
  | receive filter =>
    exact hanswer (fun message => .message (some message)) (mirrors_receive filter)
  | changePriority task priority =>
    exact hanswer (fun _ => .done) (mirrors_changePriority task priority)
  | invalidateTlb =>
    exact hanswer (fun _ => .done)
      ((aloof_flushTlb.mirrors aloof_flushTlb).bind fun _ _ _ => mirrors_interruptOthers _)
  | setupTimeslice =>
    exact hanswer (fun _ => .done) (mirrors_armTimer.bind fun _ _ _ => mirrors_interruptOthers _)
  | handleInterrupt kind => exact hanswer (fun _ => .done) (mirrors_handleInterrupt kind)
  | runCleanup => exact hanswer .count mirrors_runCleanup
  | parkCleanup => exact hanswer (fun _ => .done) mirrors_parkCleanup
  | setRegistryTask task => exact hanswer (fun _ => .done) (mirrors_setRegistryTask task)
  | turnTo core =>
    exact hanswer (fun _ => .done) (Mirrors.onMachine fun _ _ hm => ⟨rfl, rfl, hm.faults⟩)
  | setFault fault on =>
    exact hanswer (fun _ => .done) (Mirrors.onMachine fun _ _ hm =>
      ⟨rfl, hm.currentCore, congrArg (·.set fault on) hm.faults⟩)
  | setLevel level =>
    have hset : Aloof (modify fun k : Kernel =>
        { k with journal := { k.journal with level := level } }) := fun _ => ⟨_, rfl, rfl, .refl _⟩
    exact hanswer (fun _ => .done) (hset.mirrors hset)

/-! ### Runs -/

/-- What the operations of a run answer, one after the other. -/
def answers (k : Kernel) (operations : List Operation) : List (Except Stop Answer) :=
  gathered (fun k operation => [(k.step operation).1]) k operations

/-- Kernels that are alike answer the same, whatever they are asked for. -/
theorem Alike.run {k k' : Kernel} (h : k.Alike k') (operations : List Operation) :
    k'.answers operations = k.answers operations ∧
      (k.run operations).Alike (k'.run operations) := by
  induction operations generalizing k k' with
  | nil => exact ⟨rfl, h⟩
  | cons operation rest ih =>
    obtain ⟨hagree, halike⟩ : Matched Eq (k.step operation) (k'.step operation) :=
      mirrors_actionOf operation k k' h
    obtain ⟨hanswers, hrun⟩ := ih halike
    have hsame := hagree.eq
    refine ⟨?_, ?_⟩
    · exact congrArg₂ (· :: ·) hsame.symm hanswers
    · rw [Kernel.run, Kernel.run]
      rcases hk : k.step operation with ⟨r, k₁⟩
      rcases hk' : k'.step operation with ⟨r', k₁'⟩
      rw [hk, hk'] at hsame halike hrun
      obtain rfl : r = r' := hsame
      rcases r with (e | c) | answer
      · exact hrun
      · exact halike
      · exact hrun

end Kernel

end Microkernel
