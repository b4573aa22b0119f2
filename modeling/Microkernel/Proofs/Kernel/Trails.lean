/-
Operations of the kernel as chains of calls under the lock.

Whatever the kernel does comes down to calls under the lock, each of which makes the switches that
the change of the current task calls for (`Linked`), and to work that touches no scheduler
(`Apart`). `Chained k loaded k'` says that `k'` is reached from `k` in this way, and that the cores
have loaded the given address spaces on the way.

* **`Ordered`**: nothing on the machine belongs to two tasks, and only a core with an idle task has
  others;
* **`trails_locked`**: a call under the lock is a link of the chain;
* **`trails_place`**, **`trails_bringUp`**: tasks in hand come to a core, and are nobody else's.

Design notes: the machine does not record which core has loaded an address space, but one call
loads one space at most. So the machine before a call and the machine after it tell what the core
that made the call has loaded (`Machine.loadedSince`). An error may leave a task in hand that nobody
knows of any more. It keeps its stack and its address space, so that the invariant is stated with an
empty hand then.
-/
import Microkernel.Proofs.Kernel.Placing
import Microkernel.Proofs.Kernel.Working

namespace Microkernel

/-- The address space that was loaded between two states of a machine, if one was: the machine
counts the loads, and records which space was loaded last. -/
def Machine.loadedSince (m m' : Machine) : List Nat :=
  if m'.activations = m.activations then [] else [m'.activeRoot]

/-- What one switch at most has loaded is what it asks for. -/
theorem Kernel.Switched.loadedSince_eq {m m' : Machine} {l : List ContextSwitch}
    (h : Kernel.Switched m l m') (hone : l.length ≤ 1) :
    m.loadedSince m' = l.filterMap ContextSwitch.activated := by
  -- the counter tells whether there was a load, so that a space that was loaded already is seen too
  have hloads := h.loads
  match l, hone with
  | [], _ =>
    have hcount : m'.activations = m.activations := congrArg Prod.fst hloads
    rw [Machine.loadedSince, if_pos hcount]
    rfl
  | [switch], _ =>
    rw [List.foldl_cons, List.foldl_nil, ContextSwitch.load] at hloads
    rw [Machine.loadedSince, List.filterMap_cons, List.filterMap_nil]
    cases hactivated : switch.activated with
    | none =>
      rw [hactivated] at hloads
      exact if_pos (congrArg Prod.fst hloads)
    | some root =>
      rw [hactivated] at hloads
      have hcount : m'.activations = m.activations + 1 := congrArg Prod.fst hloads
      have hroot : m'.activeRoot = root := congrArg Prod.snd hloads
      rw [if_neg (by omega), hroot]

namespace Core

/-- What belongs to the tasks of a core, those that are over and those in its inbox included. -/
def assets (core : Core) : List Asset :=
  core.scheduler.assets ++ core.inbox.tasks.flatMap Task.assets

/-- There is an idle task, or the core is not online and has no tasks. -/
def Staffed (core : Core) : Prop :=
  core.scheduler.idle.isSome = true ∨ core.isOnline = false ∧ core.assets = []

/-- What of a core decides on its tasks. -/
def holding (core : Core) : CoreId × Bool × Scheduler × List Task :=
  (core.id, core.isOnline, core.scheduler, core.inbox.tasks)

variable {core core' : Core}

theorem assets_of_holding (h : core'.holding = core.holding) : core'.assets = core.assets := by
  simp only [holding, Prod.mk.injEq] at h
  rw [assets, assets, h.2.2.1, h.2.2.2]

end Core

namespace Kernel

variable {α β : Type} {k k' k'' : Kernel} {hand : List Task} {c : CoreId} {core : Core}

/-- What belongs to the tasks of the kernel. -/
def assets (k : Kernel) : List Asset :=
  k.cores.flatMap Core.assets ++ k.directory.parked.flatMap Task.assets

/-- No two tasks share a stack or an address space, and each core has an idle task before it has
others. The tasks in hand are in no scheduler, inbox or directory. -/
structure Ordered (hand : List Task) (k : Kernel) : Prop where
  ordinals : ∀ c core, k.core? c = some core → core.id = c
  coherent : ∀ c core, k.core? c = some core → core.scheduler.Coherent
  staffed : ∀ c core, k.core? c = some core → core.Staffed
  unique : ∀ a, (hand.flatMap Task.assets).count a + k.assets.count a ≤ 1
  issued : ∀ a ∈ hand.flatMap Task.assets ++ k.assets, k.machine.Issued a

/-- The tasks in hand may be forgotten. -/
theorem Ordered.forget (h : k.Ordered hand) : k.Ordered [] :=
  ⟨h.ordinals, h.coherent, h.staffed, fun a => Nat.le_trans (Nat.add_le_add_right
    (Nat.zero_le _) _) (h.unique a), fun a ha => h.issued a (List.mem_append_right _ ha)⟩

theorem Ordered.nodup (h : k.Ordered hand) : k.assets.Nodup :=
  List.nodup_iff_count.2 fun a => Nat.le_trans (Nat.le_add_left _ _) (h.unique a)

/-- The core has an idle task, if it exists. -/
def Idles (k : Kernel) (c : CoreId) : Prop :=
  ∀ core, k.core? c = some core → core.scheduler.idle.isSome = true

/-- A core that a task can be placed on has an idle task. -/
theorem Ordered.idles (h : k.Ordered hand) {last : Option CoreId}
    (hc : Directory.chooseCore last k.candidates = some c) : k.Idles c := by
  obtain ⟨core, hcore, honline⟩ := chosen_online h.ordinals hc
  intro core' hcore'
  obtain rfl : core' = core := Option.some.inj (hcore'.symm.trans hcore)
  rcases h.staffed c core' hcore with hidle | ⟨hoffline, -⟩
  · exact hidle
  · rw [honline] at hoffline
    cases hoffline

/-! ### Chains of calls -/

/-- No scheduler was changed, and nothing was switched or loaded. -/
structure Apart (k k' : Kernel) : Prop where
  schedulers : k'.cores.map Core.scheduler = k.cores.map Core.scheduler
  switches : k'.machine.switches = k.machine.switches
  loads : k'.machine.loads = k.machine.loads

/-- The scheduler of the core that runs has changed and no other one. The switches that were made
are those that the change calls for; there is one exactly if another task is current. What a switch
asks for, and nothing else, was loaded. The stack that a switch names is that of one task only, over
or not. -/
structure Linked (k k' : Kernel) (core core' : Core) (l : List ContextSwitch) : Prop where
  found : k.localCore? = some core
  cores : k'.cores = k.cores.set k.machine.currentCore core'
  switches : k'.machine.switches = k.machine.switches ++ l
  turned : Turned k.machine.currentCore core.scheduler core'.scheduler l
  changed : l ≠ [] ↔ core'.scheduler.current ≠ core.scheduler.current
  loaded : k.machine.loadedSince k'.machine = l.filterMap ContextSwitch.activated
  unique : k'.assets.Nodup

/-- What the core that runs has loaded on the way to another kernel, as the machine records it. -/
def loadedTo (k k' : Kernel) : List (CoreId × Nat) :=
  (k.machine.loadedSince k'.machine).map fun root => (k.machine.currentCore, root)

/-- `k'` is reached from `k` by calls under the lock, and by what goes on between them. On the way
the cores have loaded the given address spaces, one after the other. -/
inductive Chained (k : Kernel) : List (CoreId × Nat) → Kernel → Prop
  | refl : Chained k [] k
  | aside {loaded : List (CoreId × Nat)} {k' k'' : Kernel} (h : Chained k loaded k')
      (hapart : Apart k' k'') : Chained k loaded k''
  | locked {loaded : List (CoreId × Nat)} {k' : Kernel} {core core' : Core}
      {l : List ContextSwitch} {α : Type} (h : Chained k loaded k')
      (operation : CoreId → Action (α × Option Switch))
      (hlinked : Linked k' (k'.perform (Kernel.locked operation)).2 core core' l) :
      Chained k (loaded ++ k'.loadedTo (k'.perform (Kernel.locked operation)).2)
        (k'.perform (Kernel.locked operation)).2

theorem Chained.trans {loaded loaded' : List (CoreId × Nat)} (h : Chained k loaded k')
    (h' : Chained k' loaded' k'') : Chained k (loaded ++ loaded') k'' := by
  induction h' with
  | refl =>
    rw [List.append_nil]
    exact h
  | aside _ hapart ih => exact ih.aside hapart
  | locked _ operation hlinked ih =>
    rw [← List.append_assoc]
    exact ih.locked operation hlinked

/-- `k'` is reached from `k`, whatever was loaded on the way. -/
def Follows (k k' : Kernel) : Prop :=
  ∃ loaded, Chained k loaded k'

theorem Follows.refl (k : Kernel) : Follows k k :=
  ⟨[], .refl⟩

theorem Follows.trans : Follows k k' → Follows k' k'' → Follows k k''
  | ⟨_, h⟩, ⟨_, h'⟩ => ⟨_, h.trans h'⟩

theorem Apart.follows (h : Apart k k') : Follows k k' :=
  ⟨[], Chained.refl.aside h⟩

/-- The action is a chain of calls. What it answers satisfies `Q` together with the kernel, and an
error leaves an orderly kernel. -/
def Trails (k : Kernel) (x : Action α) (Q : α → Kernel → Prop) : Prop :=
  k.Leads x fun r k' => Follows k k' ∧
    match r with
    | .ok a => Q a k'
    | .error _ => k'.Ordered []

namespace Trails

variable {x : Action α} {f : α → Action β} {Q : α → Kernel → Prop} {R : β → Kernel → Prop}

theorem mono (hx : k.Trails x Q) {Q' : α → Kernel → Prop} (hQ : ∀ a k', Q a k' → Q' a k') :
    k.Trails x Q' := by
  refine Leads.mono hx fun r k' hr => ⟨hr.1, ?_⟩
  cases r with
  | ok a => exact hQ a k' hr.2
  | error e => exact hr.2

theorem pure {a : α} (h : Q a k) : k.Trails (Pure.pure a) Q :=
  ⟨.refl k, h⟩

theorem fail (h : k.Ordered []) (e : Error) : k.Trails (Kernel.fail e : Action α) Q :=
  ⟨.refl k, h⟩

theorem bind (hx : k.Trails x Q) (hf : ∀ a k', Q a k' → k'.Trails (f a) R) :
    k.Trails (x >>= f) R := by
  refine Leads.bind (Leads.mono hx fun r k' hr => ?_)
  cases r with
  | ok a => exact Leads.mono (hf a k' hr.2) fun r' k'' hr' => ⟨hr.1.trans hr'.1, hr'.2⟩
  | error e => exact hr

theorem attempt (hx : k.Trails x Q) :
    k.Trails (Kernel.attempt x) fun r k' => match r with
      | .ok a => Q a k'
      | .error _ => k'.Ordered [] := by
  refine Leads.attempt (Leads.mono hx fun r k' hr => ?_)
  match r with
  | .ok a => exact hr
  | .error (.failed e) => exact hr
  | .error (.halted _) => exact hr

theorem get {f : Kernel → Action β} (hf : k.Trails (f k) R) :
    k.Trails (MonadState.get >>= f) R :=
  hf

theorem ofExcept {r : Except Error α} (h : k.Ordered []) (hQ : ∀ a, r = .ok a → Q a k) :
    k.Trails (Kernel.ofExcept r) Q := by
  cases r with
  | ok a => exact pure (hQ a rfl)
  | error e => exact fail h e

end Trails

theorem Trails.coreAt {f : Core → Action β} {R : β → Kernel → Prop} (h : k.Ordered [])
    (hf : ∀ core, k.core? c = some core → k.Trails (f core) R) :
    k.Trails (Kernel.coreAt c >>= f) R := by
  cases hcore : k.core? c with
  | none =>
    rw [Trails, Leads, perform_bind, perform_coreAt_none hcore]
    exact ⟨.refl k, h⟩
  | some core =>
    rw [Trails, Leads, perform_bind, perform_coreAt hcore]
    exact hf core hcore

theorem Trails.localCore {f : Core → Action β} {R : β → Kernel → Prop} (h : k.Ordered [])
    (hf : ∀ core, k.localCore? = some core → k.Trails (f core) R) :
    k.Trails (Kernel.localCore >>= f) R :=
  Trails.coreAt h hf

/-! ### Actions that leave all tasks where they are -/

/-- All tasks are where they were, and nothing was switched. -/
structure Aside (k k' : Kernel) : Prop where
  cores : k'.cores.map Core.holding = k.cores.map Core.holding
  parked : k'.directory.parked = k.directory.parked
  machine : k.machine.Grows k'.machine

namespace Aside

theorem refl (k : Kernel) : Aside k k :=
  ⟨rfl, rfl, .refl _⟩

theorem trans (h : Aside k k') (h' : Aside k' k'') : Aside k k'' :=
  ⟨h'.cores.trans h.cores, h'.parked.trans h.parked, h.machine.trans h'.machine⟩

theorem apart (h : Aside k k') : Apart k k' := by
  refine ⟨?_, h.machine.switches, h.machine.loads⟩
  have hcores := congrArg (List.map fun held : CoreId × Bool × Scheduler × List Task => held.2.2.1)
    h.cores
  rwa [List.map_map, List.map_map] at hcores

theorem core? (h : Aside k k') {core' : Core} (hcore : k'.core? c = some core') :
    ∃ core, k.core? c = some core ∧ core'.holding = core.holding := by
  have hget := congrArg (fun l : List (CoreId × Bool × Scheduler × List Task) => l[c]?) h.cores
  have hfound : k'.cores[c]? = some core' := hcore
  simp only [List.getElem?_map, hfound, Option.map_some] at hget
  obtain ⟨core, hcore, hholding⟩ := Option.map_eq_some_iff.1 hget.symm
  exact ⟨core, hcore, hholding.symm⟩

theorem idles (h : Aside k k') (hidle : k.Idles c) : k'.Idles c := by
  intro core' hcore'
  obtain ⟨core, hcore, hholding⟩ := h.core? hcore'
  simp only [Core.holding, Prod.mk.injEq] at hholding
  exact hholding.2.2.1 ▸ hidle core hcore

theorem assets_eq (h : Aside k k') : k'.assets = k.assets := by
  have hcores : ∀ cores : List Core, cores.flatMap Core.assets = (cores.map Core.holding).flatMap
      fun held => held.2.2.1.assets ++ held.2.2.2.flatMap Task.assets := by
    intro cores
    rw [List.flatMap_map]
    rfl
  rw [Kernel.assets, Kernel.assets, hcores, hcores, h.cores, h.parked]

theorem ordered (h : Aside k k') (ho : k.Ordered hand) : k'.Ordered hand := by
  have hassets := h.assets_eq
  refine ⟨fun c core' hcore' => ?_, fun c core' hcore' => ?_, fun c core' hcore' => ?_,
    fun a => hassets ▸ ho.unique a, fun a ha => h.machine.issued (ho.issued a (hassets ▸ ha))⟩
  all_goals
    obtain ⟨core, hcore, hholding⟩ := h.core? hcore'
    have hassets := Core.assets_of_holding hholding
    simp only [Core.holding, Prod.mk.injEq] at hholding
    obtain ⟨hid, honline, hscheduler, -⟩ := hholding
  · exact hid.trans (ho.ordinals c core hcore)
  · exact hscheduler ▸ ho.coherent c core hcore
  · have hstaffed := ho.staffed c core hcore
    rwa [Core.Staffed, hscheduler, honline, hassets]

end Aside

/-- What is not changed of one core is not changed of any. -/
theorem map_modifyCore {g : Core → Core} {f : Core → β}
    (hg : ∀ core, k.core? c = some core → f (g core) = f core) :
    (k.modifyCore c g).cores.map f = k.cores.map f := by
  refine List.ext_getElem? fun i => ?_
  rw [modifyCore, List.getElem?_map, List.getElem?_map, List.getElem?_modify]
  split
  · rename_i hi
    subst hi
    cases hcore : k.cores[c]? with
    | none => rfl
    | some core => exact congrArg some (hg core hcore)
  · cases k.cores[i]? <;> rfl

instance : Std.Refl Aside where
  refl := .refl

instance : Trans Aside Aside Aside where
  trans := .trans

/-- The action leaves all tasks where they are, and switches nothing. -/
def Light (x : Action α) : Prop :=
  ∀ k : Kernel, Aside k (k.perform x).2

namespace Light

variable {x : Action α} {f : α → Action β}

theorem pure (a : α) : Light (Pure.pure a : Action α) :=
  Respects.pure a

theorem fail (e : Error) : Light (Kernel.fail e : Action α) :=
  Respects.fail e

theorem bind (hx : Light x) (hf : ∀ a, Light (f a)) : Light (x >>= f) :=
  Respects.bind hx hf

theorem get {f : Kernel → Action β} (hf : ∀ k, Light (f k)) : Light (MonadState.get >>= f) :=
  Respects.get hf

theorem ofExcept (r : Except Error α) : Light (Kernel.ofExcept r) :=
  Respects.ofExcept r

theorem note (event : Event) : Light (Kernel.note event) :=
  fun _ => ⟨rfl, rfl, .refl _⟩

theorem tally (counter : Counter) (amount : Nat) : Light (Kernel.tally counter amount) :=
  fun _ => ⟨rfl, rfl, .refl _⟩

theorem coreAt (id : CoreId) : Light (Kernel.coreAt id) :=
  Respects.coreAt id

theorem onDirectory {g : Directory → α × Directory} (hg : ∀ d, (g d).2.parked = d.parked) :
    Light (Kernel.onDirectory g) :=
  fun _ => ⟨rfl, hg _, .refl _⟩

theorem onMachine {g : Machine → α × Machine} (hg : ∀ m : Machine, m.Grows (g m).2) :
    Light (Kernel.onMachine g) :=
  fun _ => ⟨rfl, rfl, hg _⟩

theorem updateCore (id : CoreId) {g : Core → Core} (hg : ∀ core, (g core).holding = core.holding) :
    Light (Kernel.updateCore id g) :=
  fun _ => ⟨map_modifyCore fun core _ => hg core, rfl, .refl _⟩

theorem forM {g : β → Action Unit} (hg : ∀ b, Light (g b)) (l : List β) : Light (l.forM g) :=
  Respects.forM hg l

/-- The rest of the action finds all tasks where they were. -/
theorem trails_bind (hx : Light x) (h : k.Ordered hand) {R : β → Kernel → Prop}
    (hf : ∀ a k', Aside k k' → k'.Ordered hand → k'.Trails (f a) R) : k.Trails (x >>= f) R := by
  have haside := hx k
  refine Trails.bind (Q := fun _ k' => Aside k k') ⟨haside.apart.follows, ?_⟩ fun a k' hk' =>
    hf a k' hk' (hk'.ordered h)
  cases (k.perform x).1 with
  | ok a => exact haside
  | error e => exact haside.ordered h.forget

theorem trails (hx : Light x) (h : k.Ordered hand) :
    k.Trails x fun _ k' => k'.Ordered hand := by
  have hrest := hx.trails_bind h fun a k' _ h' =>
    Trails.pure (Q := fun (_ : α) k' => k'.Ordered hand) (a := a) h'
  rwa [bind_pure] at hrest

end Light

/-! ### The lock -/

/-- When the inbox has been taken in, there still is an idle task unless there are no tasks. -/
theorem Ordered.staffed_of_calm (h : k.Ordered hand) (hcore : k.core? c = some core)
    {s : Scheduler} (hcalm : Scheduler.Calm core.scheduler core.inbox.tasks s) : s.Staffed := by
  rcases h.staffed c core hcore with hidle | ⟨-, hnone⟩
  · exact .inl (hcalm.idle hidle)
  · obtain ⟨hscheduler, hinbox⟩ := List.append_eq_nil_iff.1 hnone
    exact hcalm.turn.staffed hinbox (.inr hscheduler)

variable {new : List Task} {core' : Core} {l : List ContextSwitch}

theorem core?_of_set (hcore : k.core? c = some core) (hcores : k'.cores = k.cores.set c core')
    {i : CoreId} {core₁ : Core} (hcore₁ : k'.core? i = some core₁) :
    i = c ∧ core₁ = core' ∨ i ≠ c ∧ k.core? i = some core₁ := by
  rw [core?, hcores] at hcore₁
  by_cases hi : i = c
  · subst hi
    rw [List.getElem?_set_self (List.getElem?_eq_some_iff.1 hcore).1] at hcore₁
    exact .inl ⟨rfl, (Option.some.inj hcore₁).symm⟩
  · rw [List.getElem?_set_ne fun e => hi e.symm] at hcore₁
    exact .inr ⟨hi, hcore₁⟩

/-- The core with the ordinal `c` is another one, and the tasks of `new` have come to it. -/
theorem Ordered.replaced (h : k.Ordered (new ++ hand)) (hcore : k.core? c = some core)
    (hcores : k'.cores = k.cores.set c core')
    (hparked : k'.directory.parked = k.directory.parked)
    (hissued : ∀ a, k.machine.Issued a → k'.machine.Issued a) (hid : core'.id = core.id)
    (hco : core'.scheduler.Coherent) (hstaffed : core'.Staffed)
    (howned : ∀ a, core'.assets.count a ≤ (new.flatMap Task.assets).count a + core.assets.count a) :
    k'.Ordered hand := by
  obtain ⟨before, after, hbefore, hafter⟩ := System.flatMap_cores hcore Core.assets
  -- the tasks of `new` pass from the hand to the core
  have hcount : ∀ a, (hand.flatMap Task.assets).count a + k'.assets.count a ≤
      ((new ++ hand).flatMap Task.assets).count a + k.assets.count a := by
    intro a
    have ha := howned a
    rw [assets, assets, hcores, hparked, hbefore, hafter]
    simp only [List.flatMap_append, List.count_append]
    omega
  refine ⟨fun i core₁ hcore₁ => ?_, fun i core₁ hcore₁ => ?_, fun i core₁ hcore₁ => ?_,
    fun a => Nat.le_trans (hcount a) (h.unique a), fun a ha => hissued a (h.issued a ?_)⟩
  · rcases core?_of_set hcore hcores hcore₁ with ⟨rfl, rfl⟩ | ⟨-, hcore₁⟩
    · exact hid.trans (h.ordinals i core hcore)
    · exact h.ordinals i core₁ hcore₁
  · rcases core?_of_set hcore hcores hcore₁ with ⟨-, rfl⟩ | ⟨-, hcore₁⟩
    · exact hco
    · exact h.coherent i core₁ hcore₁
  · rcases core?_of_set hcore hcores hcore₁ with ⟨-, rfl⟩ | ⟨-, hcore₁⟩
    · exact hstaffed
    · exact h.staffed i core₁ hcore₁
  · have hpos := List.count_pos_iff.2 ha
    have hle := hcount a
    rw [List.count_append] at hpos
    refine List.count_pos_iff.1 ?_
    rw [List.count_append]
    omega

theorem Ordered.handled (h : k.Ordered (new ++ hand)) (hcore : k.core? core.id = some core)
    (hh : Handled k core new core' l k') : k'.Ordered hand := by
  obtain ⟨directory, hsystem, hparked⟩ := hh.system
  obtain ⟨switch, hturn⟩ := hh.turn
  have hdirectory : k'.directory = directory := congrArg System.directory hsystem
  have hassets : core'.assets = core'.scheduler.assets := by
    rw [Core.assets, hh.arriving]
    exact List.append_nil _
  refine h.replaced hcore (congrArg System.cores hsystem) (hdirectory ▸ hparked)
    (fun a ha => hh.machine.issued ha) hh.id hturn.coherent ?_ fun a => ?_
  · rcases h.staffed _ core hcore with hidle | ⟨hoffline, -⟩
    · exact .inl (hturn.idle hidle)
    · rw [Core.Staffed, hassets, hh.online, hoffline]
      exact hh.staffed.imp id fun hnone => ⟨rfl, hnone⟩
  · have howned := hturn.owned a
    rw [hassets, Core.assets, List.count_append]
    rw [List.flatMap_append, List.count_append] at howned
    omega

/-- A call under the lock makes the switches that the change of the current task calls for. -/
theorem trails_locked {pre Q : Scheduler → Prop} (h : k.Ordered (new ++ hand))
    {operation : CoreId → Action (α × Option Switch)} (hop : ∀ c, Works c pre new Q (operation c))
    (hpre : ∀ core, k.localCore? = some core → ∀ s,
      Scheduler.Calm core.scheduler core.inbox.tasks s → pre s) :
    k.Trails (locked operation) fun _ k' => k'.Ordered hand ∧
      ∀ core', k'.core? k.machine.currentCore = some core' → Q core'.scheduler := by
  cases hcore : k.localCore? with
  | none =>
    have hnone : k.perform localCore = (.error (.failed .invalidCore), k) :=
      perform_coreAt_none hcore
    refine Trails.bind (Q := fun _ _ => False) ?_ fun _ _ hfalse => hfalse.elim
    rw [Trails, Leads, hnone]
    exact ⟨.refl k, h.forget⟩
  | some core =>
    have hid := h.ordinals _ core hcore
    have hfound : k.core? core.id = some core := hid ▸ hcore
    have hcall := leads_locked hcore hid (h.coherent _ core hcore) (hop core.id) fun s hs =>
      ⟨hpre core hcore s hs, h.staffed_of_calm hcore hs⟩
    obtain ⟨core', l, hh, hQ⟩ := hcall
    obtain ⟨directory, hsystem, hparked⟩ := hh.system
    have hcores := congrArg System.cores hsystem
    have hordered := h.handled hfound hh
    have hlinked : Linked k (k.perform (locked operation)).2 core core' l :=
      ⟨hcore, hid ▸ hcores, hh.machine.switches, hid ▸ hh.turned, hh.turned.ne_nil_iff,
        hh.machine.loadedSince_eq hh.turned.length_le, hordered.nodup⟩
    refine ⟨⟨_, Chained.refl.locked operation hlinked⟩, ?_⟩
    cases hr : (k.perform (locked operation)).1 with
    | error e => exact hordered.forget
    | ok a =>
      refine ⟨hordered, fun core₁ hcore₁ => ?_⟩
      rw [core?, hlinked.cores, List.getElem?_set_self (List.getElem?_eq_some_iff.1 hcore).1]
        at hcore₁
      exact Option.some.inj hcore₁ ▸ hQ a hr

/-! ### Orderly actions -/

/-- The action is a chain of calls and leaves an orderly kernel, whatever tasks are in hand. -/
def Orderly (x : Action α) : Prop :=
  ∀ (k : Kernel) (hand : List Task), k.Ordered hand → k.Trails x fun _ k' => k'.Ordered hand

/-- A call under the lock to which no new task comes. -/
theorem orderly_locked {operation : CoreId → Action (α × Option Switch)}
    (hop : ∀ c, Turns c (operation c)) : Orderly (locked operation) := by
  intro k hand h
  have hnone : k.Ordered ([] ++ hand) := h
  exact (trails_locked hnone hop fun core hcore s hs => h.staffed_of_calm hcore hs).mono
    fun _ _ hr => hr.1

theorem Light.orderly {x : Action α} (hx : Light x) : Orderly x :=
  fun _ _ h => hx.trails h

namespace Orderly

variable {x : Action α} {f : α → Action β}

theorem pure (a : α) : Orderly (Pure.pure a : Action α) :=
  (Light.pure a).orderly

theorem fail (e : Error) : Orderly (Kernel.fail e : Action α) :=
  (Light.fail e).orderly

theorem bind (hx : Orderly x) (hf : ∀ a, Orderly (f a)) : Orderly (x >>= f) :=
  fun k hand h => (hx k hand h).bind fun a k' h' => hf a k' hand h'

theorem get {f : Kernel → Action β} (hf : ∀ k, Orderly (f k)) : Orderly (MonadState.get >>= f) :=
  fun k hand h => Trails.get (hf k k hand h)

end Orderly

end Kernel

end Microkernel
