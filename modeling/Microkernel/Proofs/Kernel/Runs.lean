/-
Everything that the kernel can be asked for.

A kernel is `Reachable` if operations on a new kernel lead to it. `k.delivery operation` says what
an operation accepts for each task and returns to it, and `k.ends operation` which task ends.

* **`Reachable.sound`**: the invariant holds in every kernel that can be reached;
* **`Reachable.preserves`**: every operation keeps it, and accounts for all mail;
* **`Reachable.passes`**: so does every run, for the tasks that do not end.
-/
import Microkernel.Proofs.Kernel.Messaging

namespace Microkernel.Kernel

variable {α β : Type} {s s' : System} {hand : List Task}

/-! ### What operations do -/

/-- What an operation with this answer accepted for each task and returned to it. -/
def delivered (s : System) : Operation → Except Stop Answer → System → TaskId → Delivery
  | .send recipient body, .ok _, _ => s.sent recipient body
  | .tryReceive _, .ok (.message message), s' => received (.ok message) s'
  | .receive _, .ok (.message message), s' => received (.ok message) s'
  | _, _, _ => Core.nothing

/-- The task that ended with this answer. -/
def ended : Operation → Except Stop Answer → Option TaskId
  | .exit, .ok (.task id) => some id
  | _, _ => none

/-- The result of an action is put into an answer. -/
theorem ensures_answer {x : Action α} {f : α → Answer}
    {post : Except Stop Answer → System → Prop}
    (hx : Ensures s x fun r s' => post (r.map f) s') : Ensures s (do return f (← x)) post := by
  refine Ensures.bind (hx.mono fun r s' hr => ?_)
  cases r with
  | error e => exact hr
  | ok a => exact Ensures.pure hr

theorem Preserves.map {r : Except Stop α} {d : TaskId → Delivery} {gone : Option TaskId}
    (h : Preserves s hand d gone r s') (f : α → β) : Preserves s hand d gone (r.map f) s' := by
  cases r with
  | error e => exact h.error
  | ok a => exact h.ok

/-- An action that accepts and returns nothing. -/
theorem ensures_answer_quiet {x : Action α} (f : α → Answer)
    (hx : Ensures s x (Preserves s hand Core.nothing none)) :
    Ensures s (do return f (← x)) (Preserves s hand Core.nothing none) :=
  ensures_answer (hx.mono fun _ _ hr => hr.map f)

/-- Another core gets its turn. -/
theorem ensures_turnTo (h : s.Sound hand) (c : CoreId) :
    Ensures s (onMachine fun m => ((), { m with currentCore := c }))
      (Preserves s hand Core.nothing none) := by
  rintro k rfl
  refine ⟨trivial, rfl, ⟨h.ordinals, h.settled, h.ids, h.built, h.homes, h.offline, h.parked⟩, ?_⟩
  intro id i core hid _
  exact ⟨core, ⟨hid.home, hid.found, hid.working⟩, Transit.refl _⟩

theorem ensures_actionOf (h : s.Sound hand) (operation : Operation) :
    Ensures s (actionOf operation) fun r s' =>
      Preserves s hand (delivered s operation r s') (ended operation r) r s' := by
  cases operation with
  | bringUp => exact ensures_answer_quiet (fun _ => .done) (ensures_bringUp h)
  | spawn name entry priority =>
    exact ensures_answer_quiet .task
      ((ensures_spawn h name entry priority).mono fun _ _ hr => hr.preserves)
  | spawnUser name entry path priority =>
    exact ensures_answer_quiet .task
      ((ensures_spawnUser h name entry path priority).mono fun _ _ hr => hr.preserves)
  | start => exact ensures_answer_quiet (fun _ => .done) (ensures_start h)
  | exit =>
    refine ensures_answer ((ensures_exit h).mono fun r s' hr => ?_)
    cases r with
    | error e => exact hr.error
    | ok id => exact hr.ok
  | sleep milliseconds => exact ensures_answer_quiet (fun _ => .done) (ensures_sleep h milliseconds)
  | wake task => exact ensures_answer_quiet .flag (ensures_wake h task)
  | tick => exact ensures_answer_quiet (fun _ => .done) (ensures_tick h)
  | send recipient body =>
    refine ensures_answer (f := fun _ => .done) ((ensures_send h recipient body).mono
      fun r s' hr => ?_)
    cases r with
    | error e => exact hr.error
    | ok _ => exact hr.ok
  | tryReceive filter =>
    refine ensures_answer ((ensures_tryReceive h filter).mono fun r s' hr => ?_)
    cases r with
    | error e => exact hr.error
    | ok message => exact hr.ok
  | receive filter =>
    refine ensures_answer (f := fun message => .message (some message))
      ((ensures_receive h filter).mono fun r s' hr => ?_)
    cases r with
    | error e => exact hr.error
    | ok message => exact hr.ok
  | changePriority task priority =>
    exact ensures_answer_quiet (fun _ => .done) (ensures_changePriority h task priority)
  | invalidateTlb => exact ensures_answer_quiet (fun _ => .done) (ensures_invalidateTlb h)
  | setupTimeslice => exact ensures_answer_quiet (fun _ => .done) (ensures_setupTimeslice h)
  | handleInterrupt kind =>
    exact ensures_answer_quiet (fun _ => .done) (ensures_handleInterrupt h kind)
  | runCleanup => exact ensures_answer_quiet .count (ensures_runCleanup h)
  | parkCleanup => exact ensures_answer_quiet (fun _ => .done) (ensures_parkCleanup h)
  | setRegistryTask task =>
    exact ensures_answer_quiet (fun _ => .done) (ensures_setRegistryTask h task)
  | turnTo core => exact ensures_answer_quiet (fun _ => .done) (ensures_turnTo h core)
  | setFault fault on =>
    exact ensures_answer_quiet (fun _ => .done) ((quiet_onMachine fun _ => rfl).preserves h)
  | setLevel level =>
    have hquiet : Quiet (modify fun k : Kernel =>
        { k with journal := { k.journal with level := level } }) := fun _ => ⟨_, _, rfl, rfl⟩
    exact ensures_answer_quiet (fun _ => .done) (hquiet.preserves h)

/-! ### The kernels that can be reached -/

/-- Operations on a new kernel lead to the kernel. -/
inductive Reachable : Kernel → Prop
  | new {config : Config} {apics : List Nat} {k : Kernel} (h : Kernel.new config apics = .ok k) :
      Reachable k
  | step {k : Kernel} (h : Reachable k) (operation : Operation) : Reachable (k.step operation).2

theorem settled_new (id : CoreId) (apic timeslice inboxCapacity size : Nat) :
    (Core.new id apic timeslice inboxCapacity).Settled size where
  sound :=
    { coherent := Scheduler.coherent_new id timeslice
      mailboxes := fun id t ht => by cases ht
      arriving := fun t ht => by cases ht
      fresh := fun t ht => by cases ht
      distinct := List.nodup_nil
      encodable := fun m hm => by cases hm }
  load := rfl
  current := rfl
  unfaulted := rfl
  idle h := by cases h

/-- The parts of a new kernel are new. -/
theorem parts_of_new {config : Config} {apics : List Nat} {k : Kernel}
    (h : Kernel.new config apics = .ok k) :
    k.config = config ∧ k.directory = .new config.maxIds ∧
      ∀ c core, k.system.core? c = some core →
        ∃ apic, core = .new c apic config.timeslice config.inboxCapacity := by
  rw [Kernel.new] at h
  split at h
  · cases h
  · cases h
    refine ⟨rfl, rfl, fun c core hcore => ?_⟩
    have hcore : (apics.mapIdx fun id apic =>
      Core.new id apic config.timeslice config.inboxCapacity)[c]? = some core := hcore
    rw [List.getElem?_mapIdx, Option.map_eq_some_iff] at hcore
    obtain ⟨apic, -, rfl⟩ := hcore
    exact ⟨apic, rfl⟩

theorem sound_new {config : Config} {apics : List Nat} {k : Kernel}
    (h : Kernel.new config apics = .ok k) : k.system.Sound [] := by
  obtain ⟨-, hdirectory, hcores⟩ := parts_of_new h
  refine System.sound_of_empty hdirectory fun c core hcore => ?_
  obtain ⟨apic, rfl⟩ := hcores c core hcore
  exact ⟨rfl, settled_new _ _ _ _ _, rfl, rfl⟩

/-- What an operation accepts for each task, and returns to it. -/
def delivery (k : Kernel) (operation : Operation) : TaskId → Delivery :=
  delivered k.system operation (k.step operation).1 (k.step operation).2.system

/-- The task that ends. -/
def ends (k : Kernel) (operation : Operation) : Option TaskId :=
  ended operation (k.step operation).1

theorem ends_eq_none {k : Kernel} {operation : Operation} (h : operation ≠ .exit) :
    k.ends operation = none := by
  cases operation <;> first | rfl | exact absurd rfl h

theorem preserves_step {k : Kernel} (h : k.system.Sound []) (operation : Operation) :
    Preserves k.system [] (k.delivery operation) (k.ends operation) (k.step operation).1
      (k.step operation).2.system :=
  ensures_actionOf h operation k rfl

theorem Reachable.sound {k : Kernel} (h : k.Reachable) : k.system.Sound [] := by
  induction h with
  | new h => exact sound_new h
  | step _ operation ih => exact (preserves_step ih operation).sound

namespace Reachable

variable {k : Kernel}

theorem preserves (h : k.Reachable) (operation : Operation) :
    Preserves k.system [] (k.delivery operation) (k.ends operation) (k.step operation).1
      (k.step operation).2.system :=
  preserves_step h.sound operation

/-! ### Runs -/

/-- No operation stops a run. -/
theorem run_cons (h : k.Reachable) (operation : Operation) (rest : List Operation) :
    k.run (operation :: rest) = (k.step operation).2.run rest := by
  -- a run is cut short by a halt only
  have hharmless := (h.preserves operation).harmless
  rw [run]
  split
  · rename_i hhalted
    rw [hhalted] at hharmless
    exact hharmless.elim
  · rename_i hstep
    rw [hstep]

theorem run (h : k.Reachable) (operations : List Operation) : (k.run operations).Reachable := by
  induction operations generalizing k with
  | nil => exact h
  | cons operation rest ih =>
    rw [h.run_cons]
    exact ih (h.step operation)

theorem config_run (h : k.Reachable) (operations : List Operation) :
    (k.run operations).config = k.config := by
  induction operations generalizing k with
  | nil => rfl
  | cons operation rest ih =>
    have hstep : (k.step operation).2.config = k.config := (h.preserves operation).config
    rw [h.run_cons, ih (h.step operation), hstep]

end Reachable

/-- What the operations of a run bring, one after the other. -/
def gathered (brings : Kernel → Operation → List β) : Kernel → List Operation → List β
  | _, [] => []
  | k, operation :: rest => brings k operation ++ gathered brings (k.step operation).2 rest

/-- What a run accepts for each task, and returns to it. -/
def deliveries : Kernel → List Operation → TaskId → Delivery
  | _, [], _ => {}
  | k, operation :: rest, id => k.delivery operation id ++ (k.step operation).2.deliveries rest id

/-- The task does not end in the run. -/
def Spares : Kernel → TaskId → List Operation → Prop
  | _, _, [] => True
  | k, id, operation :: rest => k.ends operation ≠ some id ∧ (k.step operation).2.Spares id rest

/-- A task that does not end stays at home, and all its mail is accounted for. -/
theorem Reachable.passes {k : Kernel} (h : k.Reachable) {id : TaskId} {c : CoreId} {core : Core}
    (hid : k.system.Resident id c core) {operations : List Operation}
    (hspares : k.Spares id operations) :
    ∃ core', (k.run operations).system.Resident id c core' ∧
      Transit k.config.mailboxSize (k.deliveries operations id) (core.post id) (core'.post id) := by
  induction operations generalizing k core with
  | nil => exact ⟨core, hid, Transit.refl _⟩
  | cons operation rest ih =>
    obtain ⟨hends, hspares⟩ := hspares
    have hstep := h.preserves operation
    -- one step, and then the rest of the run from where it leads
    obtain ⟨core₁, hid₁, htransit₁⟩ := hstep.passes id c core hid hends
    obtain ⟨core₂, hid₂, htransit₂⟩ := ih (h.step operation) hid₁ hspares
    have hconfig : (k.step operation).2.config = k.config := hstep.config
    rw [hconfig] at htransit₂
    rw [h.run_cons]
    exact ⟨core₂, hid₂, htransit₁.trans htransit₂⟩

/-! ### Two cores -/

instance [DecidableEq α] [DecidableEq β] : DecidableEq (Except α β)
  | .error a, .error a' => decidable_of_iff (a = a') ⟨congrArg Except.error, Except.error.inj⟩
  | .ok b, .ok b' => decidable_of_iff (b = b') ⟨congrArg Except.ok, Except.ok.inj⟩
  | .error _, .ok _ => .isFalse fun h => by cases h
  | .ok _, .error _ => .isFalse fun h => by cases h

/-- Two cores that nothing was asked of yet. A mailbox has room for one ping. -/
def pair : Kernel where
  config := { Config.withCores 2 with mailboxSize := 20 }
  machine := .new
  cores := [.new 0 0 10 64, .new 1 1 10 64]
  directory := .new 1024
  metrics := {}
  journal := .new

theorem new_pair : Kernel.new { Config.withCores 2 with mailboxSize := 20 } [0, 1] = .ok pair :=
  rfl

/-- Both cores come to dispatch tasks. -/
def opening : List Operation :=
  [.bringUp, .turnTo 1, .bringUp, .turnTo 0, .start, .turnTo 1, .handleInterrupt .startScheduler]

/-- Both cores dispatch, the first has the task 4, and the second runs the task 5. -/
def atWork : Kernel :=
  pair.run (opening ++ [.turnTo 0, .spawn "first" 0x1000 .other, .spawn "second" 0x1000 .other,
    .turnTo 1, .tick, .turnTo 0])

theorem reachable_atWork : atWork.Reachable :=
  (Reachable.new new_pair).run _

end Microkernel.Kernel
