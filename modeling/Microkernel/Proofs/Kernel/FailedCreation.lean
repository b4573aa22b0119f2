/-
A failed creation is undone.

Spawning a task and bringing up a core fail only while something is built: what was built is always
accepted (`ensures_place`). What building takes and does not need it gives back, so that the kernel
is as it was before (`Kernel.Restored`). Two traces are left: the journal says what failed, and the
addresses that were handed out meanwhile are not handed out again.

* **`Abandoned.restored`**: what was built in vain leaves the kernel as it was;
* **`failed_creation_undone`**: so does every creation that fails, and whatever is asked for later
  is answered as if it had never been tried.
-/
import Microkernel.Proofs.Kernel.MirroredRuns
import Microkernel.Proofs.Kernel.Resources

namespace Microkernel.Kernel

variable {α : Type} {k k' k₁ : Kernel} {s : System} {hand : List Task}

/-! ### What building leaves as it is -/

/-- Configuration, counters and faults are as they were. -/
structure Unaltered (k k' : Kernel) : Prop where
  config : k'.config = k.config
  metrics : k'.metrics = k.metrics
  machine : k.machine.Alike k'.machine

theorem Unaltered.refl (k : Kernel) : Unaltered k k :=
  ⟨rfl, rfl, .refl _⟩

theorem Unaltered.trans (h : Unaltered k k₁) (h' : Unaltered k₁ k') : Unaltered k k' :=
  ⟨h'.config.trans h.config, h'.metrics.trans h.metrics, h.machine.trans h'.machine⟩

theorem unaltered_build {make : Launcher → TaskId → Machine → Except Error Task × Machine}
    (event : Error → Event) (hmake : ∀ id, k.machine.Alike (make k.launcher id k.machine).2) :
    k.Gives (buildTask make event) (Unaltered k) fun _ => Unaltered k := by
  refine .onDirectory (.ofExcept ⟨rfl, rfl, .refl _⟩ fun id _ => .get (.onMachine ?_))
  show Gives _ (settleTask event id (make k.launcher id k.machine).1) _ _
  cases (make k.launcher id k.machine).1 with
  | ok task => exact .pure ⟨rfl, rfl, hmake id⟩
  | error e => exact .onDirectory (.note (.fail ⟨rfl, rfl, hmake id⟩ e))

theorem unaltered_buildKernelTask (name : String) (entry : Nat) (priority : Priority)
    (k : Kernel) :
    k.Gives (buildKernelTask name entry priority) (Unaltered k) fun _ => Unaltered k := by
  rw [buildKernelTask_eq]
  exact unaltered_build _ fun _ => (Launcher.rebuilt_kernelTask (.refl k.machine) entry).left

theorem unaltered_buildUserTask (name : String) (entry : Nat) (path : Option String)
    (priority : Priority) (k : Kernel) :
    k.Gives (buildUserTask name entry path priority) (Unaltered k) fun _ => Unaltered k := by
  rw [buildUserTask_eq]
  exact unaltered_build _ fun _ => (Launcher.rebuilt_userTask (.refl k.machine) entry path).left

/-- An action that becomes a result leaves the kernel that it would have left. -/
theorem Gives.attempted {x : Action α} {E : Kernel → Prop} (hx : k.Gives x E fun _ => E) :
    k.Gives (Kernel.attempt x) E fun _ => E := by
  have hleft := hx.always
  rw [Gives, Leads, perform_attempt]
  rcases hr : k.perform x with ⟨(e | c) | a, k'⟩ <;> rw [hr] at hleft <;> exact hleft

theorem unaltered_buildServants (k : Kernel) :
    k.Gives buildServants (Unaltered k) fun _ => Unaltered k := by
  refine .bind (unaltered_buildKernelTask _ _ _ k) fun idle k₁ h₁ => ?_
  refine .bind ((unaltered_buildKernelTask _ _ _ k₁).attempted.mono (fun _ h₂ => h₁.trans h₂)
    fun _ _ h₂ => h₁.trans h₂) fun result k₂ h₂ => ?_
  cases result with
  | ok cleanup => exact .pure h₂
  | error e =>
    exact .onDirectory (.onMachine (.fail
      ⟨h₂.config, h₂.metrics, h₂.machine.trans (idle.alike_release _)⟩ e))

/-! ### What was built in vain -/

/-- Nothing that the kernel can be asked for has changed. -/
structure Restored (k k' : Kernel) : Prop where
  config : k'.config = k.config
  /-- Schedulers, inboxes, published loads and flags. -/
  cores : k'.cores = k.cores
  ids : ∀ id, k'.directory.ids.isAllocated id = k.directory.ids.isAllocated id
  liveIds : k'.directory.liveIds = k.directory.liveIds
  homes : k'.directory.homes = k.directory.homes
  registry : k'.directory.registry = k.directory.registry
  parked : k'.directory.parked = k.directory.parked
  metrics : k'.metrics = k.metrics
  currentCore : k'.machine.currentCore = k.machine.currentCore
  faults : k'.machine.faults = k.machine.faults
  /-- Blocks of the kernel's heap that were not given back. -/
  blocks : k'.machine.heap.live = k.machine.heap.live
  spaces : k'.machine.userSpaces = k.machine.userSpaces
  pages : k'.machine.userPages = k.machine.userPages

/-- What building comes to that fails: other ids may be laid out, but the tasks have theirs, and
what the machine has handed out belongs to the tasks of before. -/
structure Abandoned (k k' : Kernel) : Prop where
  system : ∃ ids, k'.system = k.system.withIds ids
  sound : k'.system.Sound []
  limit : k'.directory.ids.limit = k.directory.ids.limit
  machine : k.machine.Grows k'.machine
  unaltered : Unaltered k k'
  serves : k'.machine.Serves k.system.existing

theorem Abandoned.refl (h : k.system.Sound []) (hserves : k.machine.Serves k.system.existing) :
    Abandoned k k :=
  ⟨⟨_, rfl⟩, h, rfl, .refl _, .refl k, hserves⟩

/-- The same ids are in use. -/
theorem Abandoned.holds (h : Abandoned k k') (hsound : k.system.Sound []) :
    k.directory.ids.Holds k.system.liveIds ∧ k'.directory.ids.Holds k.system.liveIds := by
  obtain ⟨ids, hids⟩ := h.system
  have hheld := h.sound.ids
  rw [hids] at hheld
  have hpool : k'.directory.ids = ids := congrArg (fun s : System => s.directory.ids) hids
  rw [hpool]
  exact ⟨hsound.ids, hheld⟩

theorem Abandoned.restored (h : Abandoned k k') (hsound : k.system.Sound [])
    (hserves : k.machine.Serves k.system.existing) : Restored k k' := by
  obtain ⟨hids, hids'⟩ := h.holds hsound
  obtain ⟨ids, hsystem⟩ := h.system
  have hdirectory : k'.directory = { k.directory with ids := ids } :=
    congrArg System.directory hsystem
  exact
    { config := congrArg System.config hsystem
      cores := congrArg System.cores hsystem
      ids := fun id => Bool.eq_iff_iff.2 ((hids'.mem_iff id).trans (hids.mem_iff id).symm)
      liveIds := hids'.allocated.trans hids.allocated.symm
      homes := by rw [hdirectory]
      registry := by rw [hdirectory]
      parked := by rw [hdirectory]
      metrics := h.unaltered.metrics
      currentCore := h.machine.currentCore
      faults := h.unaltered.machine.faults
      blocks := h.serves.blocks.trans hserves.blocks.symm
      spaces := h.serves.spaces.trans hserves.spaces.symm
      pages := h.serves.pages.trans hserves.pages.symm }

theorem Abandoned.alike (h : Abandoned k k') (hsound : k.system.Sound []) : k.Alike k' := by
  obtain ⟨ids, hsystem⟩ := h.system
  have hdirectory : k'.directory = { k.directory with ids := ids } :=
    congrArg System.directory hsystem
  have hcores : k'.cores = k.cores := congrArg System.cores hsystem
  exact
    { config := h.unaltered.config
      cores := by rw [hcores]
      directory :=
        { ids := ⟨_, h.holds hsound⟩
          limit := h.limit
          homes := by rw [hdirectory]
          registry := by rw [hdirectory]
          parked := by rw [hdirectory] }
      machine := h.unaltered.machine }

/-- What is built is in hand, or nothing is. -/
theorem abandons_of {x : Action α} {tasks : α → List Task}
    (hbuilt : Ensures k.system x (Built tasks k.system []))
    (houtside : Respects (Outside Books.limit) x)
    (hunaltered : k.Gives x (Unaltered k) fun _ => Unaltered k)
    (hlisted : k.Gives x (Listed Machine.Serves k.system.remains [])
      fun a => Listed Machine.Serves k.system.remains (tasks a)) :
    k.Gives x (Abandoned k) fun a k' => Outside Books.limit k k' ∧ k'.system.Sound (tasks a) := by
  have hbuilt := hbuilt k rfl
  have houtside := houtside k
  rw [Gives, Leads] at hunaltered hlisted ⊢
  rcases hx : k.perform x with ⟨e | a, k'⟩ <;> rw [hx] at hbuilt houtside hunaltered hlisted
  · obtain ⟨⟨ids, hids⟩, -⟩ := hbuilt
    have hledger : k'.machine.Serves k'.system.existing := hlisted.ledger
    have hids : k'.system = k.system.withIds ids := hids
    rw [hids] at hledger
    exact ⟨⟨ids, hids⟩, hlisted.sound, houtside.books, houtside.machine, hunaltered, hledger⟩
  · exact ⟨houtside, hlisted.sound⟩

section Building

variable (h : k.system.Sound []) (hserves : k.machine.Serves k.system.existing)
include h hserves

theorem abandons_buildKernelTask (name : String) (entry : Nat) (priority : Priority) :
    k.Gives (buildKernelTask name entry priority) (Abandoned k)
      fun task k' => Outside Books.limit k k' ∧ k'.system.Sound [task] :=
  abandons_of (ensures_buildKernelTask h name entry priority)
    (outside_buildKernelTask (fun _ _ => rfl) name entry priority)
    (unaltered_buildKernelTask name entry priority k)
    (listed_buildKernelTask ledger_accounts ⟨h, rfl, hserves⟩ name entry priority)

theorem abandons_buildUserTask (name : String) (entry : Nat) (path : Option String)
    (priority : Priority) :
    k.Gives (buildUserTask name entry path priority) (Abandoned k)
      fun task k' => Outside Books.limit k k' ∧ k'.system.Sound [task] :=
  abandons_of (ensures_buildUserTask h name entry path priority)
    (outside_buildUserTask (fun _ _ => rfl) name entry path priority)
    (unaltered_buildUserTask name entry path priority k)
    (listed_buildUserTask ledger_accounts ⟨h, rfl, hserves⟩ name entry path priority)

theorem abandons_buildServants :
    k.Gives buildServants (Abandoned k) fun servants k' =>
      Outside Books.limit k k' ∧ k'.system.Sound [servants.2, servants.1] :=
  abandons_of (ensures_buildServants h) (outside_buildServants fun _ _ => rfl)
    (unaltered_buildServants k) (listed_buildServants ledger_accounts ⟨h, rfl, hserves⟩)

end Building

/-! ### What was built is accepted -/

/-- An action that always answers does not stop. -/
theorem Gives.of_ok {x : Action α} (hx : Ensures k.system x fun r _ => ∃ a, r = .ok a)
    {E : Kernel → Prop} : k.Gives x E fun _ _ => True := by
  obtain ⟨a, ha⟩ := hx k rfl
  rw [Gives, Leads, ha]
  trivial

theorem accepts_launch {task : Task} (h : k.system.Sound [task]) {E : Kernel → Prop} :
    k.Gives (launch task) E fun _ _ => True :=
  .bind (.of_ok ((ensures_place h).mono fun _ _ hr => hr.ok)) fun _ _ _ => .tally (.pure trivial)

theorem ensures_placeAll_ok (tasks : List Task) (h : s.Sound (tasks ++ hand)) :
    Ensures s (tasks.forM fun task => do let _ ← place task) fun r _ => ∃ a, r = .ok a := by
  induction tasks generalizing s with
  | nil => exact Ensures.pure ⟨(), rfl⟩
  | cons task tasks ih =>
    refine Ensures.bind (Ensures.bind ((ensures_place h).mono fun r s' hr => ?_))
    obtain ⟨placement, rfl⟩ := hr.ok
    exact Ensures.pure (ih hr.preserves.sound)

theorem accepts_goOnline {core : Core} {idle cleanup : Task} (h : k.system.Sound [cleanup, idle])
    (hcore : k.localCore? = some core) (hnone : core.members = []) {E : Kernel → Prop} :
    k.Gives (goOnline core idle cleanup) E fun _ _ => True :=
  .of_ok (ensures_opened h hcore hnone fun _ hput _ => ensures_placeAll_ok _ hput.sound)

/-! ### Creations -/

/-- The operation builds tasks. -/
def Operation.builds : Operation → Bool
  | .bringUp | .spawn _ _ _ | .spawnUser _ _ _ _ => true
  | _ => false

/-- A creation that fails is undone. -/
theorem abandons_actionOf (h : k.Reachable) {operation : Operation}
    (hbuilds : operation.builds = true) :
    k.Gives (actionOf operation) (Abandoned k) fun _ _ => True := by
  have hsound := h.sound
  have hserves := h.ledger ledger_accounts Machine.accounts_new
  have hlaunched : ∀ {x : Action Task}, (k.Gives x (Abandoned k)
      fun task k' => Outside Books.limit k k' ∧ k'.system.Sound [task]) →
        k.Gives (do launch (← x)) (Abandoned k) fun _ _ => True :=
    fun hx => hx.bind fun _ _ hbuilt => accepts_launch hbuilt.2
  cases operation with
  | spawn name entry priority =>
    exact (hlaunched (abandons_buildKernelTask hsound hserves name entry priority)).bind
      fun _ _ _ => .pure trivial
  | spawnUser name entry path priority =>
    exact (hlaunched (abandons_buildUserTask hsound hserves name entry path priority)).bind
      fun _ _ _ => .pure trivial
  | bringUp =>
    have hbroughtUp : k.Gives bringUp (Abandoned k) fun _ _ => True := by
      refine .localCore (.refl hsound hserves) fun core hcore => ?_
      split
      · exact .pure trivial
      · rename_i hoffline
        have hnone := (hsound.offline _ core hcore (Bool.not_eq_true _ ▸ hoffline)).members
        refine (abandons_buildServants hsound hserves).bind fun servants k₁ hbuilt => ?_
        exact accepts_goOnline hbuilt.2 (hbuilt.1.localCore?.trans hcore) hnone
    exact hbroughtUp.bind fun _ _ _ => .pure trivial
  | _ => cases hbuilds

/-- If a task cannot be spawned or a core not be brought up, whatever the reason, then the kernel
is as it was before. The ids in use, the homes, the services, the parked tasks, the cores with their
inboxes, schedulers, loads and flags, the counters and what the machine has handed out are the same.
And whatever is asked for later is answered as if the failed creation had never been tried: new
tasks get the same ids, and the kernels stay alike. -/
theorem failed_creation_undone (h : k.Reachable) {operation : Operation}
    (hbuilds : operation.builds = true) {stop : Stop}
    (hfails : (k.step operation).1 = .error stop) :
    Restored k (k.step operation).2 ∧
      ∀ later, (k.step operation).2.answers later = k.answers later ∧
        (k.run later).Alike ((k.step operation).2.run later) := by
  have hgives := abandons_actionOf h hbuilds
  rw [Gives, Leads, ← Kernel.step, hfails] at hgives
  have habandoned : Abandoned k (k.step operation).2 := hgives
  exact ⟨habandoned.restored h.sound (h.ledger ledger_accounts Machine.accounts_new),
    (habandoned.alike h.sound).run⟩

/-- Two cores at work, on a machine that cannot write to the pages of user tasks. -/
def unwritable : Kernel :=
  atWork.run [.setFault .writeBytes true]

/-- A user task that is started with a path. -/
def pathSpawn : Operation :=
  .spawnUser "third" 0x400000 (some "/bin/third") .other

/-- The task cannot be created while the fault is on, and gets the next free id afterwards. -/
theorem failed_creation_undone_unwritable : unwritable.Reachable ∧ pathSpawn.builds = true ∧
    (unwritable.step pathSpawn).1 = .error (.failed (.allocationFailed .arguments)) ∧
    Restored unwritable (unwritable.step pathSpawn).2 ∧
    (unwritable.step pathSpawn).2.answers [.setFault .writeBytes false, pathSpawn] =
      unwritable.answers [.setFault .writeBytes false, pathSpawn] ∧
    unwritable.answers [.setFault .writeBytes false, pathSpawn] = [.ok .done, .ok (.task 6)] := by
  have hreachable : unwritable.Reachable := reachable_atWork.run _
  have hfails : (unwritable.step pathSpawn).1 =
      .error (.failed (.allocationFailed .arguments)) := by decide +kernel
  obtain ⟨hrestored, hlater⟩ := failed_creation_undone hreachable rfl hfails
  exact ⟨hreachable, rfl, hfails, hrestored, (hlater _).1, by decide +kernel⟩

end Microkernel.Kernel
