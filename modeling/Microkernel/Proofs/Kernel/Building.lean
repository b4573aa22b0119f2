/-
Building tasks.

A task that was built has an id of its own and is in hand; the id of one that could not be built
is given back. Either way the ids are all that changes (`Built`).

* **`ensures_buildKernelTask`**, **`ensures_buildUserTask`**: building a task has one of the two
  outcomes, whatever the machine can give;
* **`ensures_buildServants`**: the idle and the cleanup task of a core are built, or none is.

Design notes: which allocations fail is up to the machine, of which a system says nothing. The
outcomes of building are therefore told apart, and not predicted.
-/
import Microkernel.Proofs.Kernel.Interrupts

namespace Microkernel.Kernel

variable {α β : Type} {s s' : System} {hand : List Task} {c : CoreId} {core : Core}

/-- The tasks of the result were built and are in hand now, or all ids were given back. -/
def Built (tasks : α → List Task) (s : System) (hand : List Task) (r : Except Stop α)
    (s' : System) : Prop :=
  (∃ ids, s' = s.withIds ids) ∧
    match r with
    | .ok a => s'.Sound (tasks a ++ hand)
    | .error (.failed e) => e.isFatal = false ∧ s'.Sound hand
    | .error (.halted _) => False

/-- The ids are given back of what was not built. -/
theorem ensures_giveUp {ids : IdPool} (h : s.Sound hand) {id : TaskId} (event : Error → Event)
    (hids : ids.Holds (id :: (hand.map Task.id ++ s.liveIds))) {e : Error}
    (he : e.isFatal = false) :
    Ensures (s.withIds ids) (giveUp id event e) (Built ([·]) s hand) := by
  have hfreed := hids.release List.mem_cons_self
  rw [List.erase_cons_head] at hfreed
  refine Ensures.bind_ok (Ensures.onDirectory _ ⟨rfl, rfl⟩) ?_
  refine Ensures.quiet (quiet_note _) fun _ => Ensures.fail ?_
  exact ⟨⟨(ids.release id).2, rfl⟩, he, h.withIds hfreed fun t ht => .inl ht⟩

/-- Building a task in one way or another. -/
theorem ensures_build (h : s.Sound hand) {name : String} {priority : Priority}
    {make : Launcher → TaskId → Machine → Except Error Task × Machine}
    (hmake : ∀ l id m, Launcher.Outcome l ⟨id, name, priority⟩ m (make l id m))
    (event : Error → Event) : Ensures s (buildTask make event) (Built ([·]) s hand) := by
  rcases hg : s.directory.ids.generate with ⟨result, ids⟩
  have hgenerate : s.directory.generateId = (result, { s.directory with ids := ids }) := by
    rw [Directory.generateId, hg]
  have hdirectory : Ensures s (onDirectory Directory.generateId)
      fun r s' => r = .ok result ∧ s' = s.withIds ids := by
    refine Ensures.onDirectory _ ?_
    rw [hgenerate]
    exact ⟨rfl, rfl⟩
  refine Ensures.bind_ok hdirectory ?_
  cases result with
  | error e =>
    obtain ⟨rfl, hids⟩ := h.ids.generate_error hg
    exact Ensures.bind (Ensures.fail
      ⟨⟨ids, rfl⟩, rfl, h.withIds hids fun t ht => .inl ht⟩)
  | ok id =>
    obtain ⟨-, hids⟩ := h.ids.generate_ok hg
    refine Ensures.bind_ok (Ensures.pure ⟨rfl, rfl⟩) (Ensures.get fun k hk => ?_)
    have hconfig : k.launcher = .ofConfig s.config :=
      congrArg (fun s : System => Launcher.ofConfig s.config) hk
    refine Ensures.bind (Ensures.onMachine (fun m => (hmake _ id m).grows.currentCore) fun m => ?_)
    have hout := hmake k.launcher id m
    cases hresult : (make k.launcher id m).1 with
    | error e =>
      obtain ⟨resource, rfl⟩ := hout.error e hresult
      exact ensures_giveUp h event hids rfl
    | ok task =>
      have hbuilt := hout.task task hresult
      have hid : task.id = id := hbuilt.id
      refine Ensures.pure ⟨⟨ids, rfl⟩, h.withIds ?_ fun t ht => ?_⟩
      · rw [← hid] at hids
        exact hids
      · refine (List.mem_cons.1 ht).symm.imp_right fun e => ?_
        rw [e, hbuilt.mailbox, hconfig]
        rfl

theorem ensures_buildKernelTask (h : s.Sound hand) (name : String) (entry : Nat)
    (priority : Priority) :
    Ensures s (buildKernelTask name entry priority) (Built ([·]) s hand) := by
  rw [buildKernelTask_eq]
  exact ensures_build h (fun _ _ m => Launcher.outcome_kernelTask m entry) _

theorem ensures_buildUserTask (h : s.Sound hand) (name : String) (entry : Nat)
    (path : Option String) (priority : Priority) :
    Ensures s (buildUserTask name entry path priority) (Built ([·]) s hand) := by
  rw [buildUserTask_eq]
  exact ensures_build h (fun _ _ m => Launcher.outcome_userTask m entry path) _

/-- A task in hand that was built in vain. -/
theorem ensures_freeId {task : Task} {ids : IdPool} (h : (s.withIds ids).Sound (task :: hand))
    {f : Bool → Action α} {post : Except Stop α → System → Prop}
    (hf : ∀ freed ids, (s.withIds ids).Sound hand → Ensures (s.withIds ids) (f freed) post) :
    Ensures (s.withIds ids) (onDirectory (·.freeId task.id) >>= f) post := by
  have hfreed := h.ids.release List.mem_cons_self
  rw [List.map_cons, List.cons_append, List.erase_cons_head] at hfreed
  refine Ensures.bind_ok (Ensures.onDirectory _ ⟨rfl, rfl⟩) (hf _ _ ?_)
  exact h.withIds hfreed fun t ht => .inl (List.mem_cons_of_mem _ ht)

theorem ensures_buildServants (h : s.Sound hand) :
    Ensures s buildServants
      (Built (fun servants : Task × Task => [servants.2, servants.1]) s hand) := by
  refine Ensures.bind ((ensures_buildKernelTask h _ _ _).mono fun r s₁ hr => ?_)
  obtain ⟨⟨ids, rfl⟩, hr⟩ := hr
  match r with
  | .error (.failed e) => exact ⟨⟨ids, rfl⟩, hr⟩
  | .error (.halted _) => exact hr.elim
  | .ok idle =>
    refine Ensures.bind (Ensures.attempt
      ((ensures_buildKernelTask hr _ _ _).mono fun r s₂ hr₂ => ?_))
    obtain ⟨⟨ids₂, rfl⟩, hr₂⟩ := hr₂
    match r with
    | .ok cleanup => exact Ensures.pure ⟨⟨ids₂, rfl⟩, hr₂⟩
    | .error (.halted _) => exact hr₂.elim
    | .error (.failed e) =>
      refine ensures_freeId hr₂.2 fun _ ids₃ hsound => ?_
      refine Ensures.quiet (quiet_onMachine fun m => (idle.grows_release m).currentCore) fun _ => ?_
      exact Ensures.fail ⟨⟨ids₃, rfl⟩, hr₂.1, hsound⟩

end Microkernel.Kernel
