/-
Two kernels whose tasks differ in their memory only.

`k.Alike k'` says that `k` and `k'` have the same cores, ids, homes and services, up to where the
memory of their tasks is. Actions cannot tell such kernels apart: `Mirrors rel x y` says that `x`,
carried out from one kernel, and `y`, carried out from one that is alike, end with the same error or
with values that `rel` relates, and leave kernels that are alike again.

* **`Mirrors.bind`**, **`Mirrors.attempt`**: two actions in a row, and errors that become results;
* **`Mirrors.onScheduler`**, **`Mirrors.request`**: what is asked of a scheduler, given that it does
  not look at the memory of tasks;
* **`Aloof.mirrors`**: reports, counters and most uses of the machine change nothing that is
  compared, so they need not even be the same.

Design notes: journal and counters are not compared, since a creation that fails reports so. The
two actions are the same but where a task is handed on, which is another one in either kernel.
-/
import Microkernel.Proofs.IdPool.LowestFree
import Microkernel.Proofs.Kernel.Actions
import Microkernel.Proofs.Task.Rebuilding

namespace Microkernel

/-! ### What is compared -/

/-- The core with tasks that have no memory. -/
def Core.bare (c : Core) : Core :=
  { c with
    scheduler := c.scheduler.bare
    inbox := { c.inbox with tasks := c.inbox.tasks.map Task.bare } }

theorem Core.bare_eq_iff {c c' : Core} : c'.bare = c.bare ↔
    c'.id = c.id ∧ c'.apic = c.apic ∧ c'.flags = c.flags ∧ c'.load = c.load ∧
      c'.current = c.current ∧ c'.scheduler.bare = c.scheduler.bare ∧
        c'.inbox.tasks.map Task.bare = c.inbox.tasks.map Task.bare ∧
          c'.inbox.mail = c.inbox.mail ∧ c'.inbox.capacity = c.inbox.capacity := by
  simp only [bare, Core.mk.injEq, Inbox.mk.injEq]

/-- The same ids are in use, and the parked tasks differ in their memory only. -/
structure Directory.Alike (d d' : Directory) : Prop where
  ids : ∃ ids, d.ids.Holds ids ∧ d'.ids.Holds ids
  limit : d'.ids.limit = d.ids.limit
  homes : d'.homes = d.homes
  registry : d'.registry = d.registry
  parked : d'.parked.map Task.bare = d.parked.map Task.bare

namespace Kernel

/-- The kernels are the same up to the memory of their tasks, their journals and their counters. -/
structure Alike (k k' : Kernel) : Prop where
  config : k'.config = k.config
  cores : k'.cores.map Core.bare = k.cores.map Core.bare
  directory : k.directory.Alike k'.directory
  machine : k.machine.Alike k'.machine

variable {α β γ δ : Type} {k k' k₁ k₁' : Kernel} {c : CoreId}

theorem Alike.core? (h : k.Alike k') (c : CoreId) :
    (k'.core? c).map Core.bare = (k.core? c).map Core.bare := by
  rw [Kernel.core?, Kernel.core?, ← List.getElem?_map, h.cores, List.getElem?_map]

theorem Alike.modifyCore (h : k.Alike k') (c : CoreId) {f f' : Core → Core}
    (hf : ∀ core core' : Core, core'.bare = core.bare → (f' core').bare = (f core).bare) :
    (k.modifyCore c f).Alike (k'.modifyCore c f') := by
  refine ⟨h.config, List.ext_getElem? fun i => ?_, h.directory, h.machine⟩
  have hi : (k'.cores[i]?).map Core.bare = (k.cores[i]?).map Core.bare := h.core? i
  rw [List.getElem?_map, List.getElem?_map, Kernel.modifyCore, Kernel.modifyCore,
    List.getElem?_modify, List.getElem?_modify]
  split
  · cases hcore' : k'.cores[i]? <;> cases hcore : k.cores[i]? <;> rw [hcore, hcore'] at hi
    · rfl
    · cases hi
    · cases hi
    · exact congrArg some (hf _ _ (Option.some.inj hi))
  · simpa using hi

/-! ### Results that agree -/

/-- Both are errors, and the same one, or both are values that are related. -/
inductive Agree {ε : Type} (rel : α → β → Prop) : Except ε α → Except ε β → Prop
  | ok {a : α} {b : β} (h : rel a b) : Agree rel (.ok a) (.ok b)
  | error (e : ε) : Agree rel (.error e) (.error e)

theorem Agree.of_eq {ε : Type} {r r' : Except ε α} (h : r = r') : Agree Eq r r' := by
  subst h
  cases r with
  | ok a => exact .ok rfl
  | error e => exact .error e

theorem Agree.mono {ε : Type} {rel weaker : α → β → Prop} {r : Except ε α} {r' : Except ε β}
    (h : Agree rel r r') (himp : ∀ a b, rel a b → weaker a b) : Agree weaker r r' := by
  cases h with
  | ok h => exact .ok (himp _ _ h)
  | error e => exact .error e

theorem Agree.eq {ε : Type} {r r' : Except ε α} (h : Agree Eq r r') : r = r' := by
  cases h with
  | ok h => rw [h]
  | error e => rfl

/-! ### Actions that mirror each other -/

/-- Two actions have ended alike. -/
structure Matched (rel : α → β → Prop) (o : Except Stop α × Kernel) (o' : Except Stop β × Kernel) :
    Prop where
  agree : Agree rel o.1 o'.1
  alike : o.2.Alike o'.2

/-- Carried out from kernels that are alike, the actions end alike. -/
def Mirrors (rel : α → β → Prop) (x : Action α) (y : Action β) : Prop :=
  ∀ k k' : Kernel, k.Alike k' → Matched rel (k.perform x) (k'.perform y)

section Rules

variable {rel : α → β → Prop} {rel' : γ → δ → Prop} {x : Action α} {y : Action β}
  {f : α → Action γ} {g : β → Action δ}

namespace Mirrors

theorem bind (h : Mirrors rel x y) (hfg : ∀ a b, rel a b → Mirrors rel' (f a) (g b)) :
    Mirrors rel' (x >>= f) (y >>= g) := by
  intro k k' hk
  have hxy := h k k' hk
  rw [perform_bind, perform_bind]
  rcases hx : k.perform x with ⟨r, k₁⟩
  rcases hy : k'.perform y with ⟨r', k₁'⟩
  rw [hx, hy] at hxy
  obtain ⟨hagree, halike⟩ := hxy
  cases hagree with
  | ok hab => exact hfg _ _ hab k₁ k₁' halike
  | error e => exact ⟨.error e, halike⟩

theorem attempt (h : Mirrors rel x y) :
    Mirrors (Agree rel) (Kernel.attempt x) (Kernel.attempt y) := by
  intro k k' hk
  have hxy := h k k' hk
  rw [perform_attempt, perform_attempt]
  rcases hx : k.perform x with ⟨r, k₁⟩
  rcases hy : k'.perform y with ⟨r', k₁'⟩
  rw [hx, hy] at hxy
  obtain ⟨hagree, halike⟩ := hxy
  cases hagree with
  | ok hab => exact ⟨.ok (.ok hab), halike⟩
  | error e =>
    cases e with
    | failed e => exact ⟨.ok (.error e), halike⟩
    | halted c => exact ⟨.error _, halike⟩

theorem mono (h : Mirrors rel x y) {weaker : α → β → Prop} (himp : ∀ a b, rel a b → weaker a b) :
    Mirrors weaker x y :=
  fun k k' hk => ⟨(h k k' hk).agree.mono himp, (h k k' hk).alike⟩

theorem pure {a : α} {b : β} (h : rel a b) : Mirrors rel (Pure.pure a) (Pure.pure b) :=
  fun _ _ hk => ⟨.ok h, hk⟩

theorem fail (e : Error) : Mirrors rel (Kernel.fail e) (Kernel.fail e) :=
  fun _ _ hk => ⟨.error _, hk⟩

theorem ofExcept {r : Except Error α} {r' : Except Error β} (h : Agree rel r r') :
    Mirrors rel (Kernel.ofExcept r) (Kernel.ofExcept r') := by
  cases h with
  | ok h => exact .pure h
  | error e => exact .fail e

/-- Reading the state: only what is compared matters. -/
theorem get {f : Kernel → Action α} {g : Kernel → Action β}
    (h : ∀ k k' : Kernel, k.Alike k' → Mirrors rel (f k) (g k')) :
    Mirrors rel (MonadState.get >>= f) (MonadState.get >>= g) := by
  intro k k' hk
  rw [perform_bind, perform_bind]
  exact h k k' hk k k' hk

/-! #### Cores and schedulers -/

theorem coreAt (c : CoreId) :
    Mirrors (fun core core' => core'.bare = core.bare) (Kernel.coreAt c) (Kernel.coreAt c) := by
  intro k k' hk
  have hcore := hk.core? c
  rw [perform_coreAt_eq, perform_coreAt_eq]
  refine ⟨?_, hk⟩
  cases hleft : k.core? c <;> cases hright : k'.core? c <;> rw [hleft, hright] at hcore
  · exact .error _
  · cases hcore
  · cases hcore
  · exact .ok (Option.some.inj hcore)

theorem localCore :
    Mirrors (fun core core' => core'.bare = core.bare) Kernel.localCore Kernel.localCore := by
  refine .get fun k k' hk => ?_
  rw [hk.machine.currentCore]
  exact .coreAt _

theorem updateCore {f f' : Core → Core}
    (hf : ∀ core core' : Core, core'.bare = core.bare → (f' core').bare = (f core).bare) :
    Mirrors Eq (Kernel.updateCore c f) (Kernel.updateCore c f') :=
  fun _ _ hk => ⟨.ok rfl, hk.modifyCore c hf⟩

theorem onScheduler {f : Scheduler → α × Scheduler} {f' : Scheduler → β × Scheduler}
    (hf : ∀ s s' : Scheduler, s'.bare = s.bare →
      rel (f s).1 (f' s').1 ∧ (f' s').2.bare = (f s).2.bare) :
    Mirrors rel (Kernel.onScheduler c f) (Kernel.onScheduler c f') := by
  refine (coreAt c).bind fun core core' hcore => ?_
  obtain ⟨hrel, hnext⟩ := hf _ _ (congrArg Core.scheduler hcore)
  refine (updateCore fun core core' h => ?_).bind fun _ _ _ => .pure hrel
  obtain ⟨hid, hapic, hflags, hload, hcurrent, -, hinbox⟩ := Core.bare_eq_iff.1 h
  exact Core.bare_eq_iff.2 ⟨hid, hapic, hflags, hload, hcurrent, hnext, hinbox⟩

theorem askScheduler {f : Scheduler → Except Error α × Scheduler}
    {f' : Scheduler → Except Error β × Scheduler}
    (hf : ∀ s s' : Scheduler, s'.bare = s.bare →
      Agree rel (f s).1 (f' s').1 ∧ (f' s').2.bare = (f s).2.bare) :
    Mirrors rel (Kernel.askScheduler c f) (Kernel.askScheduler c f') :=
  (onScheduler hf).bind fun _ _ h => .ofExcept h

/-! #### The directory and the machine -/

theorem onDirectory {f : Directory → α × Directory} {f' : Directory → β × Directory}
    (hf : ∀ d d' : Directory, d.Alike d' → rel (f d).1 (f' d').1 ∧ (f d).2.Alike (f' d').2) :
    Mirrors rel (Kernel.onDirectory f) (Kernel.onDirectory f') := by
  intro k k' hk
  obtain ⟨hrel, hnext⟩ := hf _ _ hk.directory
  exact ⟨.ok hrel, hk.config, hk.cores, hnext, hk.machine⟩

theorem onMachine {f : Machine → α × Machine} {f' : Machine → β × Machine}
    (hf : ∀ m m' : Machine, m.Alike m' → rel (f m).1 (f' m').1 ∧ (f m).2.Alike (f' m').2) :
    Mirrors rel (Kernel.onMachine f) (Kernel.onMachine f') := by
  intro k k' hk
  obtain ⟨hrel, hnext⟩ := hf _ _ hk.machine
  exact ⟨.ok hrel, hk.config, hk.cores, hk.directory, hnext⟩

end Mirrors

end Rules

/-! ### Actions that change nothing that is compared -/

/-- The action is carried out, and the system does not show it, nor does what is built next. -/
def Aloof (x : Action Unit) : Prop :=
  ∀ k : Kernel, ∃ k', k.perform x = (.ok (), k') ∧ k'.system = k.system ∧
    k.machine.Alike k'.machine

namespace Aloof

variable {x y : Action Unit} {f : Unit → Action Unit}

theorem pure : Aloof (Pure.pure ()) :=
  fun k => ⟨k, rfl, rfl, .refl _⟩

theorem note (event : Event) : Aloof (Kernel.note event) :=
  fun _ => ⟨_, rfl, rfl, .refl _⟩

theorem tally (counter : Counter) (amount : Nat) : Aloof (Kernel.tally counter amount) :=
  fun _ => ⟨_, rfl, rfl, .refl _⟩

theorem onMachine {g : Machine → Machine} (hg : ∀ m : Machine, m.Alike (g m)) :
    Aloof (Kernel.onMachine fun m => ((), g m)) :=
  fun k => ⟨_, rfl, congrArg (System.mk k.config k.cores k.directory) (hg k.machine).currentCore,
    hg k.machine⟩

theorem bind (hx : Aloof x) (hf : Aloof (f ())) : Aloof (x >>= f) := by
  intro k
  obtain ⟨k₁, hk₁, hsystem₁, halike₁⟩ := hx k
  obtain ⟨k₂, hk₂, hsystem₂, halike₂⟩ := hf k₁
  refine ⟨k₂, ?_, hsystem₂.trans hsystem₁, halike₁.trans halike₂⟩
  rw [perform_bind, hk₁]
  exact hk₂

theorem forM {g : β → Action Unit} (hg : ∀ b, Aloof (g b)) (l : List β) : Aloof (l.forM g) := by
  induction l with
  | nil => exact pure
  | cons b l ih => exact (hg b).bind ih

/-- Two actions that change nothing that is compared need not have anything in common. -/
theorem mirrors (hx : Aloof x) (hy : Aloof y) : Mirrors Eq x y := by
  intro k k' hk
  obtain ⟨k₁, hk₁, hsystem₁, halike₁⟩ := hx k
  obtain ⟨k₂, hk₂, hsystem₂, halike₂⟩ := hy k'
  obtain ⟨hconfig₁, hcores₁, hdirectory₁, -⟩ := System.mk.inj hsystem₁
  obtain ⟨hconfig₂, hcores₂, hdirectory₂, -⟩ := System.mk.inj hsystem₂
  rw [hk₁, hk₂]
  refine ⟨.ok rfl, ?_, ?_, ?_, hk.machine.after halike₁ halike₂⟩
  · rw [hconfig₁, hconfig₂, hk.config]
  · rw [hcores₁, hcores₂, hk.cores]
  · rw [hdirectory₁, hdirectory₂]
    exact hk.directory

end Aloof

theorem Mirrors.request {rel : α → β → Prop} {operation operation' : Scheduler.Operation}
    {f : Scheduler → Except Error α × Scheduler} {f' : Scheduler → Except Error β × Scheduler}
    {answer : α → Scheduler.Answer} {answer' : β → Scheduler.Answer}
    (hf : ∀ s s' : Scheduler, s'.bare = s.bare →
      Agree rel (f s).1 (f' s').1 ∧ (f' s').2.bare = (f s).2.bare) :
    Mirrors rel (Kernel.request c operation f answer) (Kernel.request c operation' f' answer') :=
  (coreAt c).bind fun _ _ _ => (askScheduler hf).bind fun _ _ h =>
    ((Aloof.forM .note _).mirrors (.forM .note _)).bind fun _ _ _ => .pure h

end Kernel

end Microkernel
