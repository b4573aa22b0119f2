/-
What an operation makes of the cores.

An operation leaves the cores alone, or leaves a task or mail for one of them, or does some work on
the core that runs (`Change`); which work that is depends on the operation (`Operation.Does`). With
it goes what the operation leaves alone of the books (`Course`).

* **`course_locked`**: a call under the lock is work on the core that runs;
* **`course_handOver`**, **`course_post`**: the two ways of leaving something for a core;
* **`course_actionOf`**: every operation does at most one of these, but for those that do several
  and for the one that gives another core its turn.

Design notes: what an operation leaves alone of the books is said by a function `f`. Most operations
leave all of them alone, and then `f` is arbitrary; the others are stated for a part of the books.
-/
import Microkernel.Proofs.Kernel.Books
import Microkernel.Proofs.Kernel.Calls
import Microkernel.Proofs.Kernel.Links

namespace Microkernel

open Kernel (Operation)

/-- What a task that is queued, and takes its turn with the others, makes of a scheduler. -/
inductive Scheduler.Accepts (task : Task) : Scheduler → Scheduler → Prop
  | refuse (s : Scheduler) : Accepts task s s
  | join (s : Scheduler) : Accepts task s (s.schedule task).2.reschedule.2

/-- What two servants that are installed make of a scheduler. -/
inductive Scheduler.Installs (idle cleanup : Task) : Scheduler → Scheduler → Prop
  | refuse (s : Scheduler) : Installs idle cleanup s s
  | install (s : Scheduler) (hok : (s.installIdle idle).1 = .ok ()) :
      Installs idle cleanup s ((s.installIdle idle).2.installCleanup cleanup).2

/-- What an operation may make of the scheduler of the core that runs. -/
inductive Kernel.Operation.Does : Operation → Scheduler → Scheduler → Prop
  | rest (operation : Operation) (s : Scheduler) : Does operation s s
  | start (s : Scheduler) : Does .start s s.start.2
  | startAsked (s : Scheduler) : Does (.handleInterrupt .startScheduler) s s.start.2
  | turn (s : Scheduler) : Does (.handleInterrupt .reschedule) s s.reschedule.2
  | tick (s : Scheduler) : Does .tick s s.tick.2
  | sleep (s : Scheduler) (milliseconds : Nat) :
      Does (.sleep milliseconds) s (s.block (.sleep milliseconds)).2
  | wake (s : Scheduler) (task : TaskId) : Does (.wake task) s (s.wake task).2.reschedule.2
  | changePriority (s : Scheduler) (task : TaskId) (priority : Priority) :
      Does (.changePriority task priority) s (s.changePriority task priority).2
  | exit (s : Scheduler) : Does .exit s s.exit.2
  | reap (s : Scheduler) : Does .runCleanup s s.reap.2
  /-- Only the cleanup task is parked, and only when no task waits to be reclaimed. -/
  | park (s : Scheduler) (hcurrent : s.current = s.cleanup) (hnone : s.exited = []) :
      Does .parkCleanup s (s.block (.mail none)).2
  | deliver (s : Scheduler) (id : TaskId) (message : Message) (recipient : Recipient) (body : Body)
      (h : (s.deliver id message).1 ≠ .ok true) :
      Does (.send recipient body) s (s.deliver id message).2
  | hand (s : Scheduler) (id : TaskId) (message : Message) (recipient : Recipient) (body : Body) :
      Does (.send recipient body) s (s.deliver id message).2.reschedule.2
  | receive (s : Scheduler) (filter : Option Filter) :
      Does (.tryReceive filter) s (s.receive filter).2
  | spawn {s s' : Scheduler} (task : Task) (name : String) (entry : Nat) (priority : Priority)
      (h : Scheduler.Accepts task s s') : Does (.spawn name entry priority) s s'
  | spawnUser {s s' : Scheduler} (task : Task) (name : String) (entry : Nat)
      (path : Option String) (priority : Priority) (h : Scheduler.Accepts task s s') :
      Does (.spawnUser name entry path priority) s s'

theorem Scheduler.Accepts.work {task : Task} {s s' : Scheduler} (h : Accepts task s s') :
    Work s s' := by
  cases h with
  | refuse => exact .rest s
  | join => exact .join s task

theorem Scheduler.Installs.work {idle cleanup : Task} {s s' : Scheduler}
    (h : Installs idle cleanup s s') : Work s s' := by
  cases h with
  | refuse => exact .rest s
  | install hok => exact .install s idle cleanup hok

theorem Kernel.Operation.Does.work {operation : Operation} {s s' : Scheduler}
    (h : operation.Does s s') : Scheduler.Work s s' := by
  cases h with
  | rest => exact .rest _
  | start => exact .start _
  | startAsked => exact .start _
  | turn => exact .turn _
  | tick => exact .tick _
  | sleep => exact .block _ _
  | wake => exact .wake _ _
  | changePriority => exact .changePriority _ _ _
  | exit => exact .exit _
  | reap => exact .reap _
  | park => exact .block _ _
  | deliver _ id message _ _ hasleep => exact .deliver _ id message hasleep
  | hand _ id message => exact .hand _ id message
  | receive => exact .receive _ _
  | spawn _ _ _ _ h => exact h.work
  | spawnUser _ _ _ _ _ h => exact h.work

namespace Core

/-- The task was left in the inbox of the core, and counts for its load. -/
def GetsTask (task : Task) (core core' : Core) : Prop :=
  core' = { core.reserveLoad task.priority.weight with inbox := core.inbox.pushTask task }

/-- Some mail was left in the inbox of the core. -/
def GetsMail (core core' : Core) : Prop :=
  ∃ mail, core' = { core with inbox := { core.inbox with mail := core.inbox.mail ++ [mail] } }

/-- What has become of the core that runs: it holds what it held, or it has halted, or it has taken
over its inbox and work was done on its scheduler. -/
inductive Fares (W : Scheduler → Scheduler → Prop) (core core' : Core) : Prop
  | stays (h : core'.contents = core.contents)
  | halted (h : core'.flags.faulted = true)
  | works {s : Scheduler} (hwork : W core.drained.scheduler s)
      (h : core'.contents = ({ core.drained with scheduler := s } : Core).contents)

theorem Fares.mono {W W' : Scheduler → Scheduler → Prop} {core core' : Core}
    (h : core.Fares W core') (hW : ∀ s s', W s s' → W' s s') : core.Fares W' core' := by
  cases h with
  | stays h => exact .stays h
  | halted h => exact .halted h
  | works hwork h => exact .works (hW _ _ hwork) h

end Core

namespace Kernel

variable {α β γ : Type} {k k' : Kernel} {c : CoreId} {core core' : Core} {f : Books → γ}
  {W W' : Scheduler → Scheduler → Prop} {L L' : Core → Core → Prop}

/-! ### Actions outside of the cores -/

/-- The cores are as they were, the machine has gone on, and `f` says the same of the books. -/
structure Outside (f : Books → γ) (k k' : Kernel) : Prop where
  cores : k'.cores = k.cores
  machine : k.machine.Grows k'.machine
  books : f k'.books = f k.books

namespace Outside

theorem core? (h : Outside f k k') (c : CoreId) : k'.core? c = k.core? c := by
  rw [Kernel.core?, Kernel.core?, h.cores]

theorem localCore? (h : Outside f k k') : k'.localCore? = k.localCore? := by
  rw [Kernel.localCore?, Kernel.localCore?, h.core?, h.machine.currentCore]

theorem beside (h : Outside f k k') : Beside k k' :=
  beside_of_grows h.cores h.machine

theorem onward (h : Outside f k k') : Onward k k' :=
  h.beside.toOnward

end Outside

instance : Std.Refl (Outside f) where
  refl _ := ⟨rfl, .refl _, rfl⟩

instance : Trans (Outside f) (Outside f) (Outside f) where
  trans {_ _ _} h h' :=
    ⟨h'.cores.trans h.cores, h.machine.trans h'.machine, h'.books.trans h.books⟩

theorem outside_note (event : Event) : Respects (Outside f) (note event) :=
  fun _ => ⟨rfl, .refl _, rfl⟩

theorem outside_tally {counter : Counter} (hcounter : counter ≠ .tasksReaped) (amount : Nat) :
    Respects (Outside f) (tally counter amount) :=
  fun k => ⟨rfl, .refl _, Blind.tally (R := SameBooks f) counter amount hcounter k⟩

theorem outside_onDirectory_of {g : Directory → α × Directory}
    (hg : Respects (SameBooks f) (onDirectory g)) : Respects (Outside f) (onDirectory g) :=
  fun k => ⟨rfl, .refl _, hg k⟩

/-- The ids in use and the homes are not in the books. -/
theorem outside_onDirectory {g : Directory → α × Directory}
    (hg : ∀ d, (g d).2.parked = d.parked ∧ (g d).2.registry = d.registry ∧
      (g d).2.ids.limit = d.ids.limit) : Respects (Outside f) (onDirectory g) := by
  refine outside_onDirectory_of fun k => ?_
  obtain ⟨hparked, hregistry, hlimit⟩ := hg k.directory
  have hbooks : (k.perform (onDirectory g)).2.books = k.books := by
    show (⟨_, (g k.directory).2.parked, (g k.directory).2.registry,
      (g k.directory).2.ids.limit, _⟩ : Books) = _
    rw [hparked, hregistry, hlimit]
    rfl
  exact congrArg f hbooks

theorem outside_onMachine {g : Machine → α × Machine} (hgrows : ∀ m : Machine, m.Grows (g m).2)
    (hg : Respects (SameBooks f) (onMachine g)) : Respects (Outside f) (onMachine g) :=
  fun k => ⟨rfl, hgrows k.machine, hg k⟩

theorem memory_broadcast (m : Machine) (cores : List Core) (kind : InterruptKind)
    (exclude : CoreId) : (broadcast m cores kind exclude).2.memory = m.memory := by
  simp only [broadcast]
  generalize broadcastTargets cores exclude = targets
  induction targets generalizing m with
  | nil => rfl
  | cons target targets ih => exact ih _

theorem outside_interruptOthers (kind : InterruptKind) :
    Respects (Outside f) (interruptOthers kind) := by
  refine .get fun k => (outside_onMachine (fun m => grows_broadcast m k.cores kind m.currentCore)
    fun k' => ?_).bind fun _ => outside_tally (by decide) _
  exact congrArg (fun memory => f { k'.books with memory := memory })
    (memory_broadcast k'.machine k.cores kind k'.machine.currentCore)

theorem outside_flushTlb : Respects (Outside f) flushTlb :=
  outside_onMachine (fun _ => ⟨rfl, rfl, rfl, Nat.le_refl _, Nat.le_refl _, List.prefix_refl _⟩)
    fun _ => rfl

/-! ### What an action gives -/

/-- Carried out from `k`, the action answers what satisfies `Q`, or it stops and leaves a kernel
that satisfies `E`. -/
def Gives (k : Kernel) (x : Action α) (E : Kernel → Prop) (Q : α → Kernel → Prop) : Prop :=
  k.Leads x fun r k' => match r with
    | .ok a => Q a k'
    | .error _ => E k'

namespace Gives

variable {x : Action α} {g : α → Action β} {E E' : Kernel → Prop} {Q Q' : α → Kernel → Prop}
  {S : β → Kernel → Prop} {R : Kernel → Kernel → Prop}

theorem pure {a : α} (h : Q a k) : k.Gives (Pure.pure a) E Q :=
  h

theorem fail (h : E k) (e : Error) : k.Gives (Kernel.fail e : Action α) E Q :=
  h

theorem mono (hx : k.Gives x E Q) (hE : ∀ k', E k' → E' k') (hQ : ∀ a k', Q a k' → Q' a k') :
    k.Gives x E' Q' := by
  refine Leads.mono hx fun r k' hr => ?_
  cases r with
  | ok a => exact hQ a k' hr
  | error e => exact hE k' hr

theorem bind (hx : k.Gives x E Q) (hg : ∀ a k', Q a k' → k'.Gives (g a) E S) :
    k.Gives (x >>= g) E S := by
  refine Leads.bind (Leads.mono hx fun r k' hr => ?_)
  cases r with
  | ok a => exact hg a k' hr
  | error e => exact hr

/-- What holds of the kernel in either case. -/
theorem always {E : Kernel → Prop} (hx : k.Gives x E fun _ => E) : E (k.perform x).2 := by
  have hresult : match (k.perform x).1 with
    | .ok _ => E (k.perform x).2
    | .error _ => E (k.perform x).2 := hx
  cases hr : (k.perform x).1 <;> rw [hr] at hresult <;> exact hresult

theorem get {g : Kernel → Action β} (hg : k.Gives (g k) E S) :
    k.Gives (MonadState.get >>= g) E S :=
  hg

theorem updateCore {g : Core → Core} {f : Unit → Action β}
    (hf : (k.modifyCore c g).Gives (f ()) E S) : k.Gives (Kernel.updateCore c g >>= f) E S :=
  hf

theorem onDirectory {g : Directory → α × Directory} {f : α → Action β}
    (hf : ({ k with directory := (g k.directory).2 } : Kernel).Gives (f (g k.directory).1) E S) :
    k.Gives (Kernel.onDirectory g >>= f) E S :=
  hf

theorem onMachine {g : Machine → α × Machine} {f : α → Action β}
    (hf : ({ k with machine := (g k.machine).2 } : Kernel).Gives (f (g k.machine).1) E S) :
    k.Gives (Kernel.onMachine g >>= f) E S :=
  hf

theorem note {event : Event} {f : Unit → Action β} (hf : (k.noted event).Gives (f ()) E S) :
    k.Gives (Kernel.note event >>= f) E S :=
  hf

theorem tally {counter : Counter} {amount : Nat} {f : Unit → Action β}
    (hf : ({ k with metrics := k.metrics.add counter amount } : Kernel).Gives (f ()) E S) :
    k.Gives (Kernel.tally counter amount >>= f) E S :=
  hf

theorem ofExcept {r : Except Error α} (hE : E k) (hg : ∀ a, r = .ok a → k.Gives (g a) E S) :
    k.Gives (Kernel.ofExcept r >>= g) E S := by
  cases r with
  | ok a => exact hg a rfl
  | error e => exact hE

/-- An action that does not halt a core answers, or its error is answered. -/
theorem attempt (hx : k.Gives x E Q) (hx' : ∀ c, (k.perform x).1 ≠ .error (.halted c)) :
    k.Gives (Kernel.attempt x) E' fun r k' => match r with
      | .ok a => Q a k'
      | .error _ => E k' := by
  have hresult : match (k.perform x).1 with
    | .ok a => Q a (k.perform x).2
    | .error _ => E (k.perform x).2 := hx
  rw [Gives, Leads, perform_attempt]
  rcases hr : k.perform x with ⟨(e | c) | a, k'⟩ <;> rw [hr] at hresult hx'
  · exact hresult
  · exact absurd rfl (hx' c)
  · exact hresult

theorem of_respects (hx : Respects R x) : k.Gives x (R k) fun _ => R k := by
  have hk := hx k
  show match (k.perform x).1 with
    | .ok _ => R k (k.perform x).2
    | .error _ => R k (k.perform x).2
  cases (k.perform x).1 <;> exact hk

/-- What the action gives, and a relation that it respects. -/
theorem respecting (hx : k.Gives x E Q) (hR : Respects R x) :
    k.Gives x E fun a k' => R k k' ∧ Q a k' := by
  have hboth : k.Leads x fun r k' => R k k' ∧ match r with
      | .ok a => Q a k'
      | .error _ => E k' := ⟨hR k, hx⟩
  refine Leads.mono hboth fun r k' hr => ?_
  cases r with
  | ok a => exact hr
  | error e => exact hr.2

/-- What the action gives, and what it ensures of the system. -/
theorem ensuring {post : Except Stop α → System → Prop} (hx : k.Gives x E Q)
    (hpost : Ensures k.system x post) (hE : ∀ e k', post (.error e) k'.system → E k' → E' k')
    (hQ : ∀ a k', post (.ok a) k'.system → Q a k' → Q' a k') : k.Gives x E' Q' := by
  have hboth : k.Leads x fun r k' => post r k'.system ∧ match r with
      | .ok a => Q a k'
      | .error _ => E k' := ⟨hpost k rfl, hx⟩
  refine Leads.mono hboth fun r k' hr => ?_
  cases r with
  | ok a => exact hQ a k' hr.1 hr.2
  | error e => exact hE e k' hr.1 hr.2

/-- What goes before respects a relation. -/
theorem after (hx : Respects R x) (hE : ∀ k', R k k' → E k')
    (hg : ∀ a k', R k k' → k'.Gives (g a) E S) : k.Gives (x >>= g) E S := by
  have hk := hx k
  refine bind (Q := fun _ k' => R k k') ?_ hg
  show match (k.perform x).1 with
    | .ok _ => R k (k.perform x).2
    | .error _ => E (k.perform x).2
  cases (k.perform x).1 with
  | ok a => exact hk
  | error e => exact hE _ hk

theorem coreAt {g : Core → Action β} (hE : E k)
    (hg : ∀ core, k.core? c = some core → k.Gives (g core) E S) :
    k.Gives (Kernel.coreAt c >>= g) E S := by
  cases hcore : k.core? c with
  | none =>
    rw [Gives, Leads, perform_bind, perform_coreAt_none hcore]
    exact hE
  | some core =>
    rw [Gives, Leads, perform_bind, perform_coreAt hcore]
    exact hg core hcore

theorem localCore {g : Core → Action β} (hE : E k)
    (hg : ∀ core, k.localCore? = some core → k.Gives (g core) E S) :
    k.Gives (Kernel.localCore >>= g) E S :=
  coreAt hE hg

end Gives

/-! ### Changes of the cores -/

/-- One core is put in the place of another. -/
theorem core?_set (hcore : k.core? c = some core) (h : k'.cores = k.cores.set c core')
    (i : CoreId) : k'.core? i = if i = c then some core' else k.core? i := by
  rw [Kernel.core?, h]
  exact System.core?_withCore (s := k.system) hcore core' i

theorem unfaulted_of_sound {hand : List Task} (h : k.system.Sound hand) : ¬ k.Faulted c := by
  rintro ⟨core, hcore, hfaulted⟩
  rw [(h.settled c core hcore).unfaulted] at hfaulted
  cases hfaulted

/-- What has become of the cores: they are as they were, or something was left for one of them and
it was sent an interrupt, or another state has come of the one that runs. -/
inductive Change (W : Scheduler → Scheduler → Prop) (L : Core → Core → Prop) (k k' : Kernel) : Prop
  | rests (h : k'.cores = k.cores)
  | left {c : CoreId} {core core' : Core} (hcore : k.core? c = some core) (hleft : L core core')
      (h : k'.cores = k.cores.set c core') (halerted : k.Alerted k' c)
  | runs {core core' : Core} (hcore : k.localCore? = some core) (hfares : core.Fares W core')
      (h : k'.cores = k.cores.set k.machine.currentCore core')

/-- What has become of one of the cores. -/
inductive CoreChange (W : Scheduler → Scheduler → Prop) (L : Core → Core → Prop) (k k' : Kernel)
    (c : CoreId) (core : Core) : Prop
  | rests (h : k'.core? c = some core)
  | left {core' : Core} (hleft : L core core') (h : k'.core? c = some core')
  | runs {core' : Core} (hlocal : c = k.machine.currentCore) (hfares : core.Fares W core')
      (h : k'.core? c = some core')

theorem Change.of_core (h : Change W L k k') (hcore : k.core? c = some core) :
    CoreChange W L k k' c core := by
  cases h with
  | rests hcores => exact .rests ((congrArg (fun cores => cores[c]?) hcores).trans hcore)
  | @left i core₁ core' hcore₁ hleft hcores =>
    have hget := core?_set hcore₁ hcores c
    by_cases hi : c = i
    · subst hi
      obtain rfl : core₁ = core := Option.some.inj (hcore₁.symm.trans hcore)
      exact .left hleft (hget.trans (if_pos rfl))
    · exact .rests ((hget.trans (if_neg hi)).trans hcore)
  | @runs core₁ core' hcore₁ hfares hcores =>
    have hget := core?_set hcore₁ hcores c
    by_cases hi : c = k.machine.currentCore
    · subst hi
      obtain rfl : core₁ = core := Option.some.inj (hcore₁.symm.trans hcore)
      exact .runs rfl hfares (hget.trans (if_pos rfl))
    · exact .rests ((hget.trans (if_neg hi)).trans hcore)

/-- The same core goes on, `f` says the same of the books, and the cores have changed. -/
structure Coursed (f : Books → γ) (W : Scheduler → Scheduler → Prop) (L : Core → Core → Prop)
    (k k' : Kernel) : Prop where
  onward : Onward k k'
  books : f k'.books = f k.books
  change : Change W L k k'

/-- If the cores have their own ordinals, there was at most one change. -/
def Course (f : Books → γ) (W : Scheduler → Scheduler → Prop) (L : Core → Core → Prop)
    (k k' : Kernel) : Prop :=
  k.Numbered → Coursed f W L k k'

theorem Coursed.mono (h : Coursed f W L k k') (hW : ∀ s s', W s s' → W' s s')
    (hL : ∀ core core', L core core' → L' core core') : Coursed f W' L' k k' := by
  refine ⟨h.onward, h.books, ?_⟩
  cases h.change with
  | rests h => exact .rests h
  | left hcore hleft h halerted => exact .left hcore (hL _ _ hleft) h halerted
  | runs hcore hfares h => exact .runs hcore (hfares.mono hW) h

theorem Outside.coursed (h : Outside f k k') : Coursed f W L k k' :=
  ⟨h.onward, h.books, .rests h.cores⟩

instance : Trans (Outside f) (Course f W L) (Course f W L) where
  trans {_ _ _} h h' := by
    intro hk
    obtain ⟨honward, hbooks, hchange⟩ := h' (h.onward.numbered hk)
    refine ⟨h.onward.trans honward, hbooks.trans h.books, ?_⟩
    cases hchange with
    | rests hcores => exact .rests (hcores.trans h.cores)
    | left hcore hleft hcores halerted =>
      exact .left ((h.core? _).symm.trans hcore) hleft (h.cores ▸ hcores)
        (h.onward.alerted_after halerted)
    | runs hcore hfares hcores =>
      exact .runs (h.localCore?.symm.trans hcore) hfares
        (h.machine.currentCore ▸ h.cores ▸ hcores)

instance : Trans (Course f W L) (Outside f) (Course f W L) where
  trans {_ _ _} h h' := by
    intro hk
    obtain ⟨honward, hbooks, hchange⟩ := h hk
    refine ⟨honward.trans h'.onward, h'.books.trans hbooks, ?_⟩
    cases hchange with
    | rests hcores => exact .rests (h'.cores.trans hcores)
    | left hcore hleft hcores halerted =>
      exact .left hcore hleft (h'.cores.trans hcores) (h'.onward.alerted_before halerted)
    | runs hcore hfares hcores => exact .runs hcore hfares (h'.cores.trans hcores)

namespace Respects

variable {x : Action α} {g : α → Action β}

theorem course (hx : Respects (Outside f) x) : Respects (Course f W L) x :=
  hx.mono fun _ _ h _ => h.coursed

theorem course_bind (hx : Respects (Outside f) x) (hg : ∀ a, Respects (Course f W L) (g a)) :
    Respects (Course f W L) (x >>= g) :=
  hx.seq (fun _ _ h _ => h.coursed) hg

theorem bind_outside (hx : Respects (Course f W L) x) (hg : ∀ a, Respects (Outside f) (g a)) :
    Respects (Course f W L) (x >>= g) :=
  hx.seq (fun _ _ h => h) hg

theorem course_mono (hx : Respects (Course f W L) x) (hW : ∀ s s', W s s' → W' s s')
    (hL : ∀ core core', L core core' → L' core core') : Respects (Course f W' L') x :=
  hx.mono fun _ _ h hk => (h hk).mono hW hL

end Respects

/-- A call under the lock is work on the core that runs. -/
theorem course_locked {operation : CoreId → Action (α × Option Switch)}
    (hop : ∀ c s, Performs W c s s (operation c))
    (hbooks : ∀ c, Respects (SameBooks f) (operation c)) :
    Respects (Course f W L) (locked operation) := by
  intro k hk
  have hsame := books_locked hbooks k
  cases hcore : k.localCore? with
  | none =>
    have hnone : k.perform localCore = (.error (.failed .invalidCore), k) :=
      perform_coreAt_none hcore
    rw [locked, perform_bind, hnone]
    exact Outside.coursed (Std.Refl.refl (r := Outside f) k)
  | some core =>
    obtain ⟨core', hcalled⟩ := called_locked hk hcore hop
    obtain ⟨directory, hsystem⟩ := hcalled.system
    refine ⟨.of_withCore hcore hsystem hcalled.continues (hcalled.interrupts ▸ List.prefix_refl _),
      hsame, .runs hcore ?_ (congrArg System.cores hsystem)⟩
    rcases hcalled.work with hfaulted | ⟨s, hwork, hcontents⟩
    · exact .halted hfaulted
    · exact .works hwork hcontents

/-! ### Leaving something for a core -/

theorem coursed_leave (k : Kernel) (c : CoreId) {g : Core → Core}
    (hg : ∀ core : Core, core.Continues (g core))
    (hleft : ∀ core, k.core? c = some core → L core (g core)) :
    Coursed f W L k (k.perform (do updateCore c g; interrupt c .reschedule)).2 := by
  have hperform : k.perform (do updateCore c g; interrupt c .reschedule) =
      (k.modifyCore c g).perform (interrupt c .reschedule) := rfl
  have honward := onward_modifyCore k c hg
  rw [hperform, interrupt, perform_bind, perform_coreAt_eq, core?_modifyCore, if_pos rfl]
  cases hcore : k.core? c with
  | none =>
    have hlen : k.cores.length ≤ c := List.getElem?_eq_none_iff.1 hcore
    exact ⟨honward, rfl, .rests (List.modify_eq_self hlen)⟩
  | some core =>
    have hsystem := System.system_modifyCore (k := k) hcore g
    refine ⟨⟨honward.currentCore, List.prefix_append _ _, honward.cores, honward.kept⟩, rfl,
      .left hcore (hleft core hcore) (congrArg System.cores hsystem) ⟨core, hcore,
        ⟨k.machine.currentCore, (g core).apic, .reschedule⟩, ?_, (hg core).apic, rfl⟩⟩
    show _ ∈ (k.machine.interrupts ++ [_]).drop k.machine.interrupts.length
    rw [List.drop_left]
    exact List.mem_singleton.2 rfl

theorem course_handOver (task : Task) :
    Respects (Course f W (Core.GetsTask task)) (handOver c task) :=
  (Respects.coreAt c).course_bind fun _ k _ =>
    coursed_leave k c (fun _ => ⟨rfl, rfl, fun h => h⟩) fun _ _ => rfl

/-- Nothing comes between looking at the inbox of a core and leaving mail in it. -/
theorem course_post (recipient : TaskId) (message : Message) :
    Respects (Course f W Core.GetsMail) (post c recipient message) := by
  refine (Respects.ofExcept _).course_bind fun _ k hk => ?_
  have hnothing : Coursed f W Core.GetsMail k k := (Std.Refl.refl (r := Outside f) k).coursed
  rw [perform_bind, perform_coreAt_eq]
  cases hcore : k.core? c with
  | none => exact hnothing
  | some target =>
    rw [Option.elim_some]
    dsimp only
    rw [perform_bind]
    cases hpush : target.inbox.pushMail (recipient, message) with
    | error e => exact hnothing
    | ok inbox =>
      refine coursed_leave k c (fun _ => ⟨rfl, rfl, fun h => h⟩) fun core hcore' => ?_
      obtain rfl : target = core := Option.some.inj (hcore.symm.trans hcore')
      obtain ⟨-, rfl⟩ := Inbox.pushMail_eq_ok hpush
      exact ⟨(recipient, message), rfl⟩

theorem course_armTimer : Respects (Course f W L) armTimer := by
  intro k hk
  have hnothing : Coursed f W L k k := (Std.Refl.refl (r := Outside f) k).coursed
  cases hcore : k.localCore? with
  | none =>
    have hnone : k.perform localCore = (.error (.failed .invalidCore), k) :=
      perform_coreAt_none hcore
    rw [armTimer, perform_bind, hnone]
    exact hnothing
  | some core =>
    have hlocal : k.perform localCore = (.ok core, k) := perform_coreAt hcore
    have hid : core.id = k.machine.currentCore := hk _ core hcore
    let armed : Kernel := { k with machine := k.machine.setTimer .periodic k.config.timeslice }
    have harmed : k.perform armTimer =
        armed.perform (updateCore core.id fun core => core.setFlags { timerArmed := true }) := by
      rw [armTimer, perform_bind, hlocal]
      rfl
    have hgrows : k.machine.Grows armed.machine :=
      ⟨rfl, rfl, rfl, Nat.le_refl _, Nat.le_refl _, List.prefix_refl _⟩
    rw [harmed, hid]
    have hcore₁ : armed.system.core? k.machine.currentCore = some core := hcore
    have hset := System.system_modifyCore hcore₁ fun core => core.setFlags { timerArmed := true }
    have hbeside : Beside k armed := beside_of_grows rfl hgrows
    have hstays : core.Fares W (core.setFlags { timerArmed := true }) := .stays rfl
    exact ⟨hbeside.toOnward.trans (onward_modifyCore armed _ fun core => .setFlags core _), rfl,
      .runs hcore hstays (congrArg System.cores hset)⟩

/-! ### Calls -/

variable {operation : Operation}

/-- The turn passes, and the switch is answered. -/
theorem performs_reschedule {before now : Scheduler} (a : α) (h : W before now.reschedule.2) :
    Performs W c before now (do return (a, ← onScheduler c Scheduler.reschedule)) :=
  .use fun _ => .pure _ h

theorem books_reschedule (a : α) :
    Respects (SameBooks f) (do return (a, ← onScheduler c Scheduler.reschedule)) :=
  (Respects.onScheduler c _).bind fun _ => .pure _

theorem course_startLocal (hrest : ∀ s, W s s) (hstart : ∀ s : Scheduler, W s s.start.2) :
    Respects (Course f W L) startLocal := by
  refine course_locked (fun c s => .coreAt fun core => ?_) fun c =>
    (Respects.coreAt c).bind fun core => ?_
  · split
    · exact .pure _ (hrest s)
    · exact .setFlags _ (.quiet (quiet_note _) (.note _) fun _ => .use fun _ => .pure _ (hstart s))
  · split
    · exact .pure _
    · exact (Blind.updateCore c _).bind fun _ => (Blind.note _).bind fun _ =>
        (Respects.onScheduler c _).bind fun _ => .pure _

theorem course_tick : Respects (Course f Operation.tick.Does L) tick := by
  refine course_locked (fun c s => .coreAt fun core => ?_) fun c =>
    (Respects.coreAt c).bind fun core => ?_
  all_goals
    dsimp only
    split
  · exact .tally _ _ (.use fun _ => .coreAt fun _ => .tally _ _ (.pure _ (.tick s)))
  · exact .pure _ (.rest _ s)
  · exact (Blind.tally _ _ (by decide)).bind fun _ => (Respects.onScheduler c _).bind fun _ =>
      (Respects.coreAt c).bind fun _ => (Blind.tally _ _ (by decide)).bind fun _ => .pure _
  · exact .pure _

theorem course_sleep (milliseconds : Nat) :
    Respects (Course f (Operation.sleep milliseconds).Does L) (sleep milliseconds) :=
  course_locked
    (fun _ s => .ask (asks_request _ _ _) (fun _ _ => .sleep s _)
      fun _ => .tally _ _ (.pure _ (.sleep s _)))
    fun c => (Respects.request c _ _ _).bind fun _ => (Blind.tally _ _ (by decide)).bind fun _ =>
      .pure _

theorem course_wake (task : TaskId) :
    Respects (Course f (Operation.wake task).Does L) (wake task) := by
  refine (Respects.checkLocal task).course_bind fun _ => course_locked (fun c s =>
    .ask_of (asks_onScheduler _) (fun _ he => by cases he) (fun woken => ?_) fun woken hwoken => ?_)
    fun c => (Respects.onScheduler c _).bind fun woken => ?_
  · split
    · exact (Untouched.tally _ _).bind fun _ => (Untouched.onScheduler c _).bind fun _ => .pure _
    · exact .pure _
  · cases woken with
    | true => exact .tally _ _ (performs_reschedule true (.wake s task))
    | false =>
      have hsame : (s.wake task).2 = s := Scheduler.wake_of_false (Except.ok.inj hwoken)
      exact .pure _ (hsame.symm ▸ .rest _ s)
  · split
    · exact (Blind.tally _ _ (by decide)).bind fun _ => books_reschedule true
    · exact .pure _

theorem course_changePriority (task : TaskId) (priority : Priority) :
    Respects (Course f (Operation.changePriority task priority).Does L)
      (changePriority task priority) :=
  (Respects.checkLocal task).course_bind fun _ => course_locked
    (fun _ s => .ask (asks_askScheduler _) (fun _ _ => .changePriority s task priority)
      fun _ => .pure _ (.changePriority s task priority))
    fun c => (Respects.askScheduler c _).bind fun _ => .pure _

/-- Only the registry is told of the end of a task. -/
theorem books_forget (hf : ∀ (b : Books) registry, f { b with registry := registry } = f b)
    (id : TaskId) : Respects (SameBooks f) (onDirectory (Directory.forget · id)) := by
  intro k
  have hbooks : (k.perform (onDirectory (Directory.forget · id))).2.books =
      { k.books with registry := (k.directory.registry.remove id).2 } := by
    show (⟨_, _, _, (k.directory.ids.release id).2.limit, _⟩ : Books) = _
    rw [k.directory.ids.limit_release]
    rfl
  exact (congrArg f hbooks).trans (hf k.books _)

/-- What is done with the answer of an exit. -/
theorem course_exit
    (hf : ∀ id, Respects (SameBooks f) (onDirectory (Directory.forget · id))) :
    Respects (Course f Operation.exit.Does L) exit := by
  refine course_locked (fun c s => .ask (asks_request _ _ _) (fun _ _ => .exit s) fun exit => ?_)
    fun c => (Respects.request c _ _ _).bind fun exit => (hf _).bind fun known => ?_
  · suffices hanswers : Answers c exit.switch (do
        if !(← onDirectory (·.forget exit.task)) then
          note (.strayExit exit.task)
        return (exit.task, exit.switch)) from .of_answers hanswers (.exit s)
    refine .onDirectory (fun _ => rfl) fun known => ?_
    split
    · exact .quiet (quiet_note _) (.note _) fun _ => .pure _
    · exact .pure _
  · split
    · exact (Blind.note _).bind fun _ => .pure _
    · exact .pure _

/-- The part of `runCleanup` that is carried out under the lock. -/
theorem course_reap :
    Respects (Course f Operation.runCleanup.Does L) (locked fun id => do
      checkCleanup id
      return (← onScheduler id Scheduler.reap, none)) :=
  course_locked
    (fun c s => .still (.checkCleanup c) (.rest _ s) fun _ => .use fun _ => .pure _ (.reap s))
    fun c => (Respects.checkCleanup c).bind fun _ => (Respects.onScheduler c _).bind fun _ =>
      .pure _

theorem course_runCleanup
    (hmemory : ∀ tasks : List Task, Respects (SameBooks f)
      (onMachine fun m => ((), tasks.foldl (fun m t => t.release m) m)))
    (hreaped : ∀ amount, Respects (SameBooks f) (tally .tasksReaped amount)) :
    Respects (Course f Operation.runCleanup.Does L) runCleanup := by
  refine course_reap.bind_outside fun tasks => ?_
  refine (Respects.forM (fun _ => outside_note _) tasks).bind fun _ => ?_
  refine (outside_onMachine (fun m => Task.grows_releaseAll tasks m) (hmemory tasks)).bind
    fun _ => ?_
  have hcounted : Respects (Outside f) (tally .tasksReaped tasks.length) :=
    fun k => ⟨rfl, .refl _, hreaped _ k⟩
  exact hcounted.bind fun _ => .pure _

theorem course_parkCleanup : Respects (Course f Operation.parkCleanup.Does L) parkCleanup := by
  refine course_locked (fun c s => ?_) fun c => ?_
  · have huntouched : ∀ core : Core, Untouched
        (if core.scheduler.exited.isEmpty then do
          return ((), ← askScheduler c (·.block (.mail none)))
        else
          return ((), none)) := by
      intro core
      split
      · exact (Untouched.askScheduler c _).bind fun _ => .pure _
      · exact .pure _
    refine .checkCleanup (.rest _ s) ((Untouched.coreAt c).bind huntouched) fun hcurrent => ?_
    refine .coreAt_of huntouched fun core hcore => ?_
    split
    · rename_i hempty
      have hnone : s.exited = [] := hcore ▸ List.isEmpty_iff.1 hempty
      exact .ask (asks_askScheduler _) (fun _ _ => .park s hcurrent hnone)
        fun _ => .pure _ (.park s hcurrent hnone)
    · exact .pure _ (.rest _ s)
  · refine (Respects.checkCleanup c).bind fun _ => (Respects.coreAt c).bind fun core => ?_
    split
    · exact (Respects.askScheduler c _).bind fun _ => .pure _
    · exact .pure _

theorem course_handleInterrupt (kind : InterruptKind) :
    Respects (Course f (Operation.handleInterrupt kind).Does L) (handleInterrupt kind) := by
  cases kind with
  | reschedule =>
    rw [handleInterrupt]
    exact course_locked (fun _ s => performs_reschedule () (.turn s)) fun _ => books_reschedule ()
  | startScheduler =>
    rw [handleInterrupt]
    exact course_startLocal (fun s => .rest _ s) .startAsked
  | invalidateTlb => exact outside_flushTlb.course
  | setupTimeslice => exact course_armTimer

/-! ### New tasks -/

/-- The task comes to the core that runs. -/
theorem course_takeIn (task : Task) :
    Respects (Course f (Scheduler.Accepts task) L) (locked fun id => do
      enqueue id task
      return ((), ← onScheduler id Scheduler.reschedule)) := by
  refine course_locked (fun c s => ?_) fun c =>
    (Respects.request c _ _ _).bind fun _ => books_reschedule ()
  have hasks : Asks c (·.schedule task) (enqueue c task) := asks_request _ _ _
  exact .ask hasks (fun _ he => (Scheduler.schedule_of_error he).symm ▸ .refuse s)
    fun _ => performs_reschedule () (.join s)

theorem course_place {task : Task}
    (hpark : Respects (SameBooks f) (onDirectory fun d => ((), d.park task))) :
    Respects (Course f (Scheduler.Accepts task) (Core.GetsTask task)) (place task) := by
  refine .get fun k => ?_
  split
  · exact ((outside_onDirectory_of hpark).bind fun _ => (outside_note _).bind fun _ =>
      .pure _).course
  · refine (outside_onDirectory fun _ => ⟨rfl, rfl, rfl⟩).course_bind fun _ => ?_
    split
    · exact (course_takeIn task).bind_outside fun _ => (outside_note _).bind fun _ => .pure _
    · exact (course_handOver task).bind_outside fun _ => (outside_note _).bind fun _ => .pure _

theorem outside_generateId : Respects (Outside f) (onDirectory Directory.generateId) :=
  outside_onDirectory fun d => ⟨rfl, rfl, d.ids.limit_generate⟩

theorem outside_freeId (id : TaskId) : Respects (Outside f) (onDirectory (·.freeId id)) :=
  outside_onDirectory fun d => ⟨rfl, rfl, d.ids.limit_release id⟩

theorem outside_giveUp (id : TaskId) (event : Error → Event) (e : Error) :
    Respects (Outside f) (giveUp id event e : Action α) :=
  (outside_freeId id).bind fun _ => (outside_note _).bind fun _ => .fail e

/-- What building a task takes from the machine, `f` does not see. -/
theorem outside_build {name : String} {priority : Priority}
    {make : Launcher → TaskId → Machine → Except Error Task × Machine}
    (hmake : ∀ l id m, Launcher.Outcome l ⟨id, name, priority⟩ m (make l id m))
    (hmemory : ∀ (b : Books) memory, f { b with memory := memory } = f b)
    (event : Error → Event) : Respects (Outside f) (buildTask make event) := by
  refine outside_generateId.bind fun result =>
    (Respects.ofExcept result).bind fun id => .get fun k =>
      (outside_onMachine (fun m => (hmake k.launcher id m).grows) ?_).bind fun result => ?_
  · exact fun k' => hmemory k'.books _
  cases result with
  | ok task => exact .pure task
  | error e => exact outside_giveUp id event e

theorem outside_buildKernelTask
    (hmemory : ∀ (b : Books) memory, f { b with memory := memory } = f b) (name : String)
    (entry : Nat) (priority : Priority) :
    Respects (Outside f) (buildKernelTask name entry priority) := by
  rw [buildKernelTask_eq]
  exact outside_build (fun _ _ m => Launcher.outcome_kernelTask m entry) hmemory _

theorem outside_buildUserTask
    (hmemory : ∀ (b : Books) memory, f { b with memory := memory } = f b) (name : String)
    (entry : Nat) (path : Option String) (priority : Priority) :
    Respects (Outside f) (buildUserTask name entry path priority) := by
  rw [buildUserTask_eq]
  exact outside_build (fun _ _ m => Launcher.outcome_userTask m entry path) hmemory _

/-! ### Bringing up a core -/

theorem outside_localCore : Respects (Outside f) localCore :=
  .get fun _ => .coreAt _

theorem outside_buildServants
    (hmemory : ∀ (b : Books) memory, f { b with memory := memory } = f b) :
    Respects (Outside f) buildServants := by
  have hbuilt : ∀ name entry priority, Respects (Outside f) (buildKernelTask name entry priority) :=
    outside_buildKernelTask hmemory
  refine (hbuilt _ _ _).bind fun idle => (hbuilt _ _ _).attempt.bind fun result => ?_
  cases result with
  | ok cleanup => exact .pure _
  | error e =>
    refine (outside_freeId _).bind fun _ => ?_
    have hreleased : Respects (Outside f) (onMachine fun m => ((), idle.release m)) :=
      outside_onMachine (fun m => idle.grows_release m) fun k => hmemory k.books _
    exact hreleased.bind fun _ => .fail e

theorem course_installServants (idle cleanup : Task) :
    Respects (Course f (Scheduler.Installs idle cleanup) L) (locked fun id => do
      askScheduler id (·.installIdle idle)
      request id (.installCleanup cleanup) (·.installCleanup cleanup) fun _ => .done
      return ((), none)) :=
  course_locked
    (fun c s => .ask_of (asks_askScheduler _)
      (fun _ he => (Scheduler.installIdle_of_error he).symm ▸ .refuse s)
      (fun _ => (Untouched.request c _ _ _).bind fun _ => .pure _)
      fun _ hok => .ask (asks_request _ _ _) (fun _ _ => .install s hok)
        fun _ => .pure _ (.install s hok))
    fun c => (Respects.askScheduler c _).bind fun _ => (Respects.request c _ _ _).bind fun _ =>
      .pure _

/-! ### Messages -/

theorem course_deliverLocally (recipient : TaskId) (message : Message) (recipient' : Recipient)
    (body : Body) :
    Respects (Course f (Operation.send recipient' body).Does L)
      (deliverLocally recipient message) := by
  refine course_locked (fun c s => .ask_of (asks_askScheduler _) (fun e he => ?_)
    (fun woken => ?_) fun woken hwoken => ?_) fun c =>
      (Respects.askScheduler c _).bind fun woken => ?_
  · refine .deliver s recipient message recipient' body fun hok => ?_
    have he : (s.deliver recipient message).1 = .error e := he
    rw [hok] at he
    cases he
  · split
    · exact (Untouched.tally _ _).bind fun _ => (Untouched.onScheduler c _).bind fun _ => .pure _
    · exact .pure _
  · cases woken with
    | true => exact .tally _ _ (performs_reschedule () (.hand s recipient message recipient' body))
    | false =>
      refine .pure _ (.deliver s recipient message recipient' body fun hok => ?_)
      have hwoken : (s.deliver recipient message).1 = .ok false := hwoken
      rw [hok] at hwoken
      cases hwoken
  · split
    · exact (Blind.tally _ _ (by decide)).bind fun _ => books_reschedule ()
    · exact .pure _

theorem course_route (message : Message) (recipient' : Recipient) (body : Body) :
    Respects (Course f (Operation.send recipient' body).Does Core.GetsMail) (route message) := by
  refine .get fun k => (Respects.ofExcept _).course_bind fun target => ?_
  have hbrought : Respects (Course f (Operation.send recipient' body).Does Core.GetsMail)
      (if target.2 = k.machine.currentCore then deliverLocally target.1 message
        else post target.2 target.1 message) := by
    split
    · exact course_deliverLocally _ _ _ _
    · exact course_post _ _
  refine hbrought.attempt.bind_outside fun outcome => ?_
  split
  · exact outside_tally (by decide) _
  · exact (outside_tally (by decide) _).bind fun _ => .fail _
  · exact .fail _

section Registry

variable (hf : ∀ (b : Books) registry, f { b with registry := registry } = f b)

include hf

theorem outside_registerProvider (service : Service) (task : TaskId) :
    Respects (Outside f) (registerProvider service task) := by
  have hregister : Respects (SameBooks f) (onDirectory (·.register service task)) :=
    fun k => hf k.books _
  refine (outside_onDirectory_of hregister).bind fun previous => ?_
  split
  · exact outside_note _
  · exact .pure ()

theorem outside_unregisterProvider (service : Service) (task : TaskId) :
    Respects (Outside f) (unregisterProvider service task) := by
  have hunregister : Respects (SameBooks f) (onDirectory (·.unregister service task)) :=
    fun k => hf k.books _
  exact (outside_onDirectory_of hunregister).bind fun _ => .pure ()

theorem course_send (recipient : Recipient) (body : Body) :
    Respects (Course f (Operation.send recipient body).Does Core.GetsMail)
      (send recipient body) := by
  refine .get fun k => ?_
  dsimp only
  split
  · rw [answerRegistry]
    split
    · exact (outside_registerProvider hf _ _).course
    · exact (outside_unregisterProvider hf _ _).course
    · exact .get fun _ => course_route _ _ _
    all_goals exact (Respects.fail _).course
  · exact course_route _ _ _

end Registry

theorem course_tryReceive (filter : Option Filter) :
    Respects (Course f (Operation.tryReceive filter).Does L) (tryReceive filter) := by
  refine (course_locked (fun c s => .ask (asks_askScheduler _) (fun _ _ => .receive s filter)
    fun reception => ?_) fun c => (Respects.askScheduler c _).bind fun reception => ?_).bind_outside
      fun received => ?_
  · cases reception <;> exact .pure _ (.receive s filter)
  · cases reception <;> exact .pure _
  · dsimp only
    split
    · exact (outside_tally (by decide) _).bind fun _ => .pure _
    · exact .pure _

/-! ### All operations -/

/-- The operation makes at most one call, and the same core goes on. -/
def Operation.isSingle : Operation → Bool
  | .bringUp | .receive _ | .turnTo _ => false
  | _ => true

/-- What an operation may leave in the inbox of a core. -/
inductive Operation.Leaves : Operation → Core → Core → Prop
  | spawn {core core' : Core} (task : Task) (name : String) (entry : Nat) (priority : Priority)
      (h : core.GetsTask task core') : Leaves (.spawn name entry priority) core core'
  | spawnUser {core core' : Core} (task : Task) (name : String) (entry : Nat)
      (path : Option String) (priority : Priority) (h : core.GetsTask task core') :
      Leaves (.spawnUser name entry path priority) core core'
  | send {core core' : Core} (recipient : Recipient) (body : Body) (h : core.GetsMail core') :
      Leaves (.send recipient body) core core'

/-- What `f` says of the books does not depend on what the operation may write there. -/
def Operation.Spares (f : Books → γ) : Operation → Prop
  | .bringUp | .spawn _ _ _ | .spawnUser _ _ _ _ =>
    ∀ (b : Books) memory parked, f { b with memory := memory, parked := parked } = f b
  | .exit | .send _ _ | .setRegistryTask _ =>
    ∀ (b : Books) registry, f { b with registry := registry } = f b
  | .runCleanup =>
    ∀ (b : Books) memory reaped, f { b with memory := memory, reaped := reaped } = f b
  | _ => True

theorem course_answer {x : Action α} (hx : Respects (Course f W L) x) (g : α → Answer) :
    Respects (Course f W L) (do return g (← x)) :=
  hx.bind_outside fun _ => .pure _

theorem course_actionOf (h : operation.isSingle = true) (hf : operation.Spares f) :
    Respects (Course f operation.Does operation.Leaves) (actionOf operation) := by
  cases operation with
  | bringUp => cases h
  | spawn name entry priority =>
    have hbuilt : Respects (Outside f) (buildKernelTask name entry priority) :=
      outside_buildKernelTask (fun b _ => hf b _ b.parked) name entry priority
    refine course_answer (hbuilt.course_bind fun task => ?_) .task
    have hplaced : Respects (Course f _ _) (place task) := course_place fun k => hf k.books _ _
    exact (hplaced.bind_outside fun _ => (outside_tally (by decide) _).bind fun _ =>
      .pure _).course_mono (fun _ _ h => .spawn task _ _ _ h) fun _ _ h => .spawn task _ _ _ h
  | spawnUser name entry path priority =>
    have hbuilt : Respects (Outside f) (buildUserTask name entry path priority) :=
      outside_buildUserTask (fun b _ => hf b _ b.parked) name entry path priority
    refine course_answer (hbuilt.course_bind fun task => ?_) .task
    have hplaced : Respects (Course f _ _) (place task) := course_place fun k => hf k.books _ _
    exact (hplaced.bind_outside fun _ => (outside_tally (by decide) _).bind fun _ =>
      .pure _).course_mono (fun _ _ h => .spawnUser task _ _ _ _ h)
        fun _ _ h => .spawnUser task _ _ _ _ h
  | start =>
    exact course_answer ((outside_interruptOthers _).course_bind fun _ =>
      course_startLocal (fun s => .rest _ s) .start) fun _ => .done
  | exit => exact course_answer (course_exit (books_forget hf)) .task
  | sleep milliseconds => exact course_answer (course_sleep milliseconds) fun _ => .done
  | wake task => exact course_answer (course_wake task) .flag
  | tick => exact course_answer course_tick fun _ => .done
  | send recipient body =>
    exact course_answer ((course_send hf recipient body).course_mono (fun _ _ h => h)
      fun _ _ h => .send _ _ h) fun _ => .done
  | tryReceive filter => exact course_answer (course_tryReceive filter) .message
  | receive filter => cases h
  | changePriority task priority =>
    exact course_answer (course_changePriority task priority) fun _ => .done
  | invalidateTlb =>
    exact course_answer (outside_flushTlb.bind fun _ => outside_interruptOthers _).course
      fun _ => .done
  | setupTimeslice =>
    exact course_answer (course_armTimer.bind_outside fun _ => outside_interruptOthers _)
      fun _ => .done
  | handleInterrupt kind => exact course_answer (course_handleInterrupt kind) fun _ => .done
  | runCleanup =>
    refine course_answer (course_runCleanup (fun _ k => hf k.books _ k.books.reaped)
      fun _ k => hf k.books k.books.memory _) .count
  | parkCleanup => exact course_answer course_parkCleanup fun _ => .done
  | setRegistryTask task =>
    have hset : Respects (Outside f) (setRegistryTask task) :=
      outside_onDirectory_of fun k => hf k.books _
    exact course_answer hset.course fun _ => .done
  | turnTo core => cases h
  | setFault fault on =>
    have hset : Respects (Outside f)
        (onMachine fun m => ((), { m with faults := m.faults.set fault on })) :=
      outside_onMachine (fun _ => ⟨rfl, rfl, rfl, Nat.le_refl _, Nat.le_refl _, List.prefix_refl _⟩)
        fun _ => rfl
    exact course_answer hset.course fun _ => .done
  | setLevel level =>
    have hset : Respects (Outside f) (modify fun k : Kernel =>
        { k with journal := { k.journal with level := level } }) := fun _ => ⟨rfl, .refl _, rfl⟩
    exact course_answer hset.course fun _ => .done

end Kernel

end Microkernel
