/-
Reasoning about actions of the kernel.

`Kernel.system` is the part of a kernel that decides where tasks and messages are: its cores and
its directory. Memory, counters and the journal are outside of it. `Ensures s action post` says
that in every kernel with the system `s`, the result of the action and the system it leaves
satisfy `post`.

* **`Ensures.bind`**: what two actions in a row ensure;
* **`Ensures.attempt`**: an error becomes a result, and a halt stays one;
* **`Ensures.onScheduler`**: the scheduler of one core is replaced.

Design notes: since `Ensures` quantifies over all kernels with one system, an action that only
reports, counts or uses the machine can be passed over (`Quiet`), and the outcome of an
allocation is a case distinction of `post`.
-/
import Microkernel.Kernel.Operation

namespace Microkernel

/-- The cores, and what they share about tasks. -/
structure System where
  config : Config
  cores : List Core
  directory : Directory
  currentCore : CoreId

/-- What a kernel knows about tasks and messages. -/
def Kernel.system (k : Kernel) : System where
  config := k.config
  cores := k.cores
  directory := k.directory
  currentCore := k.machine.currentCore

namespace System

/-- The core with an ordinal. -/
def core? (s : System) (id : CoreId) : Option Core :=
  s.cores[id]?

/-- The system with another core in the place of one. -/
def withCore (s : System) (id : CoreId) (core : Core) : System :=
  { s with cores := s.cores.set id core }

/-- The system with another directory. -/
def withDirectory (s : System) (directory : Directory) : System :=
  { s with directory := directory }

variable {s : System} {id : CoreId} {core : Core}

theorem core?_withCore (h : s.core? id = some core) (core' : Core) (j : CoreId) :
    (s.withCore id core').core? j = if j = id then some core' else s.core? j := by
  have hlt : id < s.cores.length := (List.getElem?_eq_some_iff.1 h).1
  rw [core?, core?, withCore, List.getElem?_set]
  by_cases hj : j = id
  · simp [hj, hlt]
  · have hne : id ≠ j := fun e => hj e.symm
    simp [hj, hne]

theorem core?_withCore_self (h : s.core? id = some core) (core' : Core) :
    (s.withCore id core').core? id = some core' := by
  rw [core?_withCore h, if_pos rfl]

theorem withCore_withCore (core' core'' : Core) :
    (s.withCore id core').withCore id core'' = s.withCore id core'' := by
  simp only [withCore, List.set_set]

theorem withCore_self (h : s.core? id = some core) : s.withCore id core = s := by
  obtain ⟨hlt, hget⟩ := List.getElem?_eq_some_iff.1 h
  rw [withCore, ← hget, List.set_getElem_self]

/-- Changing a core that exists. -/
theorem system_modifyCore {k : Kernel} (h : k.system.core? id = some core) (f : Core → Core) :
    (k.modifyCore id f).system = k.system.withCore id (f core) := by
  obtain ⟨hlt, hget⟩ := List.getElem?_eq_some_iff.1 h
  have hset : k.cores.modify id f = k.cores.set id (f core) := by
    refine List.ext_getElem? fun j => ?_
    rw [List.getElem?_modify, List.getElem?_set]
    by_cases hj : id = j
    · subst hj
      have hlt : id < k.cores.length := hlt
      have hget : k.cores[id] = core := hget
      simp [hlt, hget]
    · simp [hj]
  simp only [Kernel.system, Kernel.modifyCore, withCore, hset]

end System

namespace Kernel

variable {α β : Type}

/-! ### Performing actions -/

theorem perform_bind (k : Kernel) (x : Action α) (f : α → Action β) :
    k.perform (x >>= f) =
      match k.perform x with
      | (.ok a, k') => k'.perform (f a)
      | (.error e, k') => (.error e, k') := by
  show (match k.perform x with
      | (r, k') => (ExceptT.bindCont f r : StateM Kernel (Except Stop β)).run k') = _
  rcases k.perform x with ⟨_ | _, k'⟩ <;> rfl

theorem perform_tryCatch (k : Kernel) (x : Action α) (handle : Stop → Action α) :
    k.perform (tryCatch x handle) =
      match k.perform x with
      | (.ok a, k') => (.ok a, k')
      | (.error e, k') => k'.perform (handle e) := by
  have hx : k.perform x = x k := rfl
  have hrun : k.perform (tryCatch x handle) = (ExceptT.tryCatch x handle) k := rfl
  rw [hrun, hx]
  simp only [ExceptT.tryCatch, ExceptT.mk, bind, StateT.bind]
  -- what is handled is known once the first part has been performed
  generalize x k = r
  rcases r with ⟨_ | _, k'⟩ <;> rfl

theorem perform_attempt (k : Kernel) (x : Action α) :
    k.perform (attempt x) =
      match k.perform x with
      | (.ok a, k') => (.ok (.ok a), k')
      | (.error (.failed e), k') => (.ok (.error e), k')
      | (.error (.halted core), k') => (.error (.halted core), k') := by
  rw [attempt, perform_tryCatch, perform_bind]
  rcases k.perform x with ⟨(_ | _) | _, k'⟩ <;> rfl

theorem perform_coreAt_eq (k : Kernel) (id : CoreId) :
    k.perform (coreAt id) =
      ((k.core? id).elim (.error (.failed .invalidCore)) .ok, k) := by
  have hget : k.perform get = (.ok k, k) := rfl
  rw [coreAt, perform_bind, hget]
  dsimp only
  cases k.core? id <;> rfl

theorem perform_coreAt {k : Kernel} {id : CoreId} {core : Core}
    (h : k.system.core? id = some core) : k.perform (coreAt id) = (.ok core, k) := by
  have hcore : k.core? id = some core := h
  rw [perform_coreAt_eq, hcore]
  rfl

theorem perform_coreAt_none {k : Kernel} {id : CoreId} (h : k.system.core? id = none) :
    k.perform (coreAt id) = (.error (.failed .invalidCore), k) := by
  have hcore : k.core? id = none := h
  rw [perform_coreAt_eq, hcore]
  rfl

/-! ### Where an action leads -/

/-- Every kernel is related to the one that the action leads to. -/
def Respects (R : Kernel → Kernel → Prop) (x : Action α) : Prop :=
  ∀ k : Kernel, R k (k.perform x).2

namespace Respects

variable {R : Kernel → Kernel → Prop} {x : Action α} {f : α → Action β}

theorem get {f : Kernel → Action β} (hf : ∀ k, Respects R (f k)) :
    Respects R (MonadState.get >>= f) :=
  fun k => hf k k

theorem attempt (hx : Respects R x) : Respects R (Kernel.attempt x) := by
  intro k
  have hk := hx k
  rw [perform_attempt]
  rcases hr : k.perform x with ⟨(_ | _) | _, k'⟩ <;> rw [hr] at hk <;> exact hk

section

variable [Std.Refl R]

theorem pure (a : α) : Respects R (Pure.pure a : Action α) :=
  fun k => Std.Refl.refl k

theorem fail (e : Error) : Respects R (Kernel.fail e : Action α) :=
  fun k => Std.Refl.refl k

theorem ofExcept (r : Except Error α) : Respects R (Kernel.ofExcept r) := by
  cases r
  · exact fail _
  · exact pure _

theorem coreAt (id : CoreId) : Respects R (Kernel.coreAt id) := by
  intro k
  rw [perform_coreAt_eq]
  exact Std.Refl.refl k

end

theorem mono (hx : Respects R x) {S : Kernel → Kernel → Prop} (h : ∀ k k', R k k' → S k k') :
    Respects S x :=
  fun k => h _ _ (hx k)

/-- An action may go further than the one before it. -/
theorem seq {S T : Kernel → Kernel → Prop} [Trans R S T] (hx : Respects R x)
    (hRT : ∀ k k', R k k' → T k k') (hf : ∀ a, Respects S (f a)) : Respects T (x >>= f) := by
  intro k
  have hk := hx k
  rw [perform_bind]
  rcases hr : k.perform x with ⟨_ | a, k'⟩ <;> rw [hr] at hk
  · exact hRT _ _ hk
  · exact Trans.trans hk (hf a k')

theorem bind [Trans R R R] (hx : Respects R x) (hf : ∀ a, Respects R (f a)) :
    Respects R (x >>= f) :=
  hx.seq (fun _ _ h => h) hf

theorem forM [Std.Refl R] [Trans R R R] {g : β → Action Unit} (hg : ∀ b, Respects R (g b))
    (l : List β) : Respects R (l.forM g) := by
  induction l with
  | nil => exact pure ()
  | cons b l ih => exact (hg b).bind fun _ => ih

end Respects

/-! ### What an action ensures -/

/-- The result of the action and the system it leaves satisfy `post`, in every kernel with the
system `s`. -/
def Ensures (s : System) (action : Action α) (post : Except Stop α → System → Prop) : Prop :=
  ∀ k : Kernel, k.system = s → post (k.perform action).1 (k.perform action).2.system

/-- An action that answers and leaves the system alone. -/
def Quiet (action : Action α) : Prop :=
  ∀ k : Kernel, ∃ a k', k.perform action = (.ok a, k') ∧ k'.system = k.system

namespace Ensures

variable {s s' : System} {x : Action α} {f : α → Action β}
  {post : Except Stop α → System → Prop} {post' : Except Stop β → System → Prop}

theorem mono {stronger : Except Stop α → System → Prop} (h : Ensures s x stronger)
    (himp : ∀ r s', stronger r s' → post r s') : Ensures s x post :=
  fun k hk => himp _ _ (h k hk)

theorem and {other : Except Stop α → System → Prop} (h : Ensures s x post)
    (hother : Ensures s x other) : Ensures s x fun r s' => post r s' ∧ other r s' :=
  fun k hk => ⟨h k hk, hother k hk⟩

theorem pure {a : α} (h : post (.ok a) s) : Ensures s (Pure.pure a) post := by
  rintro k rfl
  exact h

theorem fail {e : Error} (h : post (.error (.failed e)) s) : Ensures s (Kernel.fail e) post := by
  rintro k rfl
  exact h

theorem bind (h : Ensures s x fun r s' => match r with
      | .ok a => Ensures s' (f a) post'
      | .error e => post' (.error e) s') : Ensures s (x >>= f) post' := by
  intro k hk
  have hx := h k hk
  rw [perform_bind]
  rcases hr : k.perform x with ⟨_ | a, k'⟩
  · rw [hr] at hx
    exact hx
  · rw [hr] at hx
    exact hx k' rfl

/-- An action with one outcome, followed by another. -/
theorem bind_ok {a : α} (h : Ensures s x fun r s₁ => r = .ok a ∧ s₁ = s')
    (hf : Ensures s' (f a) post') : Ensures s (x >>= f) post' := by
  refine Ensures.bind (h.mono fun r s₁ hr => ?_)
  obtain ⟨rfl, rfl⟩ := hr
  exact hf

theorem attempt {post : Except Stop (Except Error α) → System → Prop}
    (h : Ensures s x fun r s' => match r with
      | .ok a => post (.ok (.ok a)) s'
      | .error (.failed e) => post (.ok (.error e)) s'
      | .error (.halted core) => post (.error (.halted core)) s') :
    Ensures s (Kernel.attempt x) post := by
  intro k hk
  have hx := h k hk
  rw [perform_attempt]
  rcases hr : k.perform x with ⟨(_ | _) | a, k'⟩ <;> rw [hr] at hx <;> exact hx

/-- Reading the state: only the system matters. -/
theorem get {f : Kernel → Action β} (h : ∀ k : Kernel, k.system = s → Ensures s (f k) post') :
    Ensures s (MonadState.get >>= f) post' := by
  intro k hk
  rw [perform_bind]
  exact h k hk k hk

theorem quiet (hx : Quiet x) (hf : ∀ a, Ensures s (f a) post') : Ensures s (x >>= f) post' := by
  intro k hk
  obtain ⟨a, k', hperform, hsystem⟩ := hx k
  rw [perform_bind, hperform]
  exact hf a k' (hsystem.trans hk)

theorem of_quiet (hx : Quiet x) (h : ∀ a, post (.ok a) s) : Ensures s x post := by
  intro k hk
  obtain ⟨a, k', hperform, hsystem⟩ := hx k
  rw [hperform]
  have hs : k'.system = s := hsystem.trans hk
  rw [hs]
  exact h a

theorem ofExcept {r : Except Error α}
    (h : match r with
      | .ok a => post (.ok a) s
      | .error e => post (.error (.failed e)) s) : Ensures s (Kernel.ofExcept r) post := by
  cases r with
  | ok a => exact pure h
  | error e => exact fail h

theorem updateCore {id : CoreId} {core : Core} (hcore : s.core? id = some core)
    (g : Core → Core) {post : Except Stop Unit → System → Prop}
    (h : post (.ok ()) (s.withCore id (g core))) : Ensures s (Kernel.updateCore id g) post := by
  rintro k rfl
  have hsystem := System.system_modifyCore hcore g
  have hperform : k.perform (Kernel.updateCore id g) = (.ok (), k.modifyCore id g) := rfl
  rw [hperform, hsystem]
  exact h

theorem onDirectory (g : Directory → α × Directory)
    (h : post (.ok (g s.directory).1) (s.withDirectory (g s.directory).2)) :
    Ensures s (Kernel.onDirectory g) post := by
  rintro k rfl
  exact h

theorem onMachine {f : Machine → α × Machine} (hf : ∀ m, (f m).2.currentCore = m.currentCore)
    (h : ∀ m, post (.ok (f m).1) s) : Ensures s (Kernel.onMachine f) post := by
  rintro k rfl
  have hsystem : (k.perform (Kernel.onMachine f)).2.system = k.system := by
    simp only [system]
    congr 1
    exact hf k.machine
  rw [hsystem]
  exact h k.machine

theorem coreAt {id : CoreId} {core : Core} {f : Core → Action β} (hcore : s.core? id = some core)
    (h : Ensures s (f core) post') : Ensures s (Kernel.coreAt id >>= f) post' := by
  rintro k rfl
  rw [perform_bind, perform_coreAt hcore]
  exact h k rfl

theorem localCore {core : Core} {f : Core → Action β} (hcore : s.core? s.currentCore = some core)
    (h : Ensures s (f core) post') : Ensures s (Kernel.localCore >>= f) post' := by
  rintro k rfl
  have hperform : k.perform Kernel.localCore = (.ok core, k) := perform_coreAt hcore
  rw [perform_bind, hperform]
  exact h k rfl

theorem localCore_none {f : Core → Action β} (hcore : s.core? s.currentCore = none)
    (h : post' (.error (.failed .invalidCore)) s) :
    Ensures s (Kernel.localCore >>= f) post' := by
  rintro k rfl
  have hperform : k.perform Kernel.localCore = (.error (.failed .invalidCore), k) :=
    perform_coreAt_none hcore
  rw [perform_bind, hperform]
  exact h

theorem onScheduler {id : CoreId} {core : Core} (hcore : s.core? id = some core)
    (g : Scheduler → α × Scheduler)
    (h : post (.ok (g core.scheduler).1)
      (s.withCore id { core with scheduler := (g core.scheduler).2 })) :
    Ensures s (Kernel.onScheduler id g) post :=
  coreAt hcore (bind_ok (updateCore hcore _ ⟨rfl, rfl⟩) (pure h))

theorem askScheduler {id : CoreId} {core : Core} (hcore : s.core? id = some core)
    (g : Scheduler → Except Error α × Scheduler)
    (h : match (g core.scheduler).1 with
      | .ok a => post (.ok a)
        (s.withCore id { core with scheduler := (g core.scheduler).2 })
      | .error e => post (.error (.failed e))
        (s.withCore id { core with scheduler := (g core.scheduler).2 })) :
    Ensures s (Kernel.askScheduler id g) post :=
  bind_ok (onScheduler hcore g ⟨rfl, rfl⟩) (ofExcept h)

end Ensures

/-! ### Actions that leave the system alone -/

theorem quiet_pure (a : α) : Quiet (pure a : Action α) :=
  fun k => ⟨a, k, rfl, rfl⟩

theorem Quiet.bind {x : Action α} {f : α → Action β} (hx : Quiet x) (hf : ∀ a, Quiet (f a)) :
    Quiet (x >>= f) := by
  intro k
  obtain ⟨a, k', hperform, hsystem⟩ := hx k
  obtain ⟨b, k'', hperform', hsystem'⟩ := hf a k'
  exact ⟨b, k'', by rw [perform_bind, hperform]; exact hperform', hsystem'.trans hsystem⟩

theorem quiet_note (event : Event) : Quiet (note event) :=
  fun _ => ⟨_, _, rfl, rfl⟩

theorem quiet_tally (counter : Counter) (amount : Nat) : Quiet (tally counter amount) :=
  fun _ => ⟨_, _, rfl, rfl⟩

theorem quiet_onMachine {f : Machine → α × Machine}
    (hf : ∀ m, (f m).2.currentCore = m.currentCore) : Quiet (onMachine f) := by
  intro k
  refine ⟨_, _, rfl, ?_⟩
  simp only [system]
  rw [hf]

theorem quiet_forM {f : β → Action Unit} (hf : ∀ b, Quiet (f b)) (l : List β) :
    Quiet (l.forM f) := by
  induction l with
  | nil => exact quiet_pure ()
  | cons b l ih => exact (hf b).bind fun _ => ih

/-- A request reports what it did, which leaves the system alone. -/
theorem Ensures.request {s : System} {post : Except Stop α → System → Prop} {id : CoreId}
    {core : Core} (hcore : s.core? id = some core) (operation : Scheduler.Operation)
    (g : Scheduler → Except Error α × Scheduler) (answer : α → Scheduler.Answer)
    (h : match (g core.scheduler).1 with
      | .ok a => post (.ok a)
        (s.withCore id { core with scheduler := (g core.scheduler).2 })
      | .error e => post (.error (.failed e))
        (s.withCore id { core with scheduler := (g core.scheduler).2 })) :
    Ensures s (Kernel.request id operation g answer) post := by
  refine coreAt hcore (bind (askScheduler hcore g ?_))
  cases hg : (g core.scheduler).1 with
  | error e =>
    rw [hg] at h
    exact h
  | ok a =>
    rw [hg] at h
    exact quiet (quiet_forM quiet_note _) fun _ => pure h

/-! ### Building a task in one way or another -/

section

variable (make : Launcher → TaskId → Machine → Except Error Task × Machine) (event : Error → Event)

/-- What comes of a task that was made, or could not be made. -/
def settleTask (id : TaskId) : Except Error Task → Action Task
  | .ok task => return task
  | .error e => giveUp id event e

/-- Makes a task with the given id. -/
def makeTask (id : TaskId) : Action Task := do
  let launcher := (← get).launcher
  settleTask event id (← onMachine (make launcher id))

/-- Makes a task with a fresh id. -/
def buildTask : Action Task := do
  let id ← ofExcept (← onDirectory Directory.generateId)
  makeTask make event id

end

theorem buildKernelTask_eq (name : String) (entry : Nat) (priority : Priority) :
    buildKernelTask name entry priority =
      buildTask (fun l id m => l.kernelTask m ⟨id, name, priority⟩ entry)
        (.kernelTaskFailed name) := rfl

theorem buildUserTask_eq (name : String) (entry : Nat) (path : Option String)
    (priority : Priority) :
    buildUserTask name entry path priority =
      buildTask (fun l id m => l.userTask m ⟨id, name, priority⟩ entry path)
        (.userTaskFailed name) := rfl

end Kernel

end Microkernel
