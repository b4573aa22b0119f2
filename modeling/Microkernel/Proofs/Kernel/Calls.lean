/-
What becomes of the cores in an action.

An action of the kernel leaves what a core holds as it was, or leaves something in its inbox and
sends it an interrupt for it, and only the core that runs makes calls under the lock. A call takes
over the inbox, as `Core.drained` does, and carries out its work on the scheduler that it finds
(`Performs`).

* **`called_locked`**: a call under the lock makes of the core that runs what its work does.

Design notes: what a core shows to the others is no part of what it holds (`Core.contents`). A core
that cannot take over its inbox halts, and nothing is said of it but that it has halted.
-/
import Microkernel.Proofs.Kernel.Interrupts
import Microkernel.Proofs.Kernel.Working
import Microkernel.Proofs.Scheduler.Neglect

namespace Microkernel

namespace Core

variable {c c' c'' : Core}

/-- What a core holds, without what it shows to the others. -/
def contents (c : Core) : Core :=
  { c with flags := {}, load := 0, current := none }

theorem inbox_of_contents (h : c'.contents = c.contents) : c'.inbox = c.inbox := by
  have hsame : c'.contents.inbox = c.contents.inbox := by rw [h]
  exact hsame

theorem scheduler_of_contents (h : c'.contents = c.contents) : c'.scheduler = c.scheduler := by
  have hsame : c'.contents.scheduler = c.contents.scheduler := by rw [h]
  exact hsame

/-- Another state of the core, with the same name. A core that has halted stays so. -/
structure Continues (c c' : Core) : Prop where
  id : c'.id = c.id
  apic : c'.apic = c.apic
  faulted : c.flags.faulted = true → c'.flags.faulted = true

namespace Continues

theorem refl (c : Core) : c.Continues c :=
  ⟨rfl, rfl, fun hc => hc⟩

theorem trans (h : c.Continues c') (h' : c'.Continues c'') : c.Continues c'' :=
  ⟨h'.id.trans h.id, h'.apic.trans h.apic, fun hc => h'.faulted (h.faulted hc)⟩

theorem setFlags (c : Core) (flags : CoreFlags) : c.Continues (c.setFlags flags) := by
  refine ⟨rfl, rfl, fun hc => ?_⟩
  simp only [Core.setFlags, CoreFlags.union, hc, Bool.true_or]

end Continues

end Core

namespace Kernel

variable {α β : Type} {s : System} {c : CoreId} {core core' : Core} {k k' k'' : Kernel}

/-! ### Cores from one kernel to another -/

/-- What the core with the ordinal `c` holds. -/
def held (k : Kernel) (c : CoreId) : Option Core :=
  (k.core? c).map Core.contents

/-- Every core has its own ordinal. -/
def Numbered (k : Kernel) : Prop :=
  ∀ c core, k.core? c = some core → core.id = c

/-- The core has halted. -/
def Faulted (k : Kernel) (c : CoreId) : Prop :=
  ∃ core, k.core? c = some core ∧ core.flags.faulted = true

/-- Some reschedule interrupt was sent to the core on the way from `k` to `k'`. -/
def Alerted (k k' : Kernel) (c : CoreId) : Prop :=
  ∃ core, k.core? c = some core ∧
    ∃ i ∈ k'.machine.interrupts.drop k.machine.interrupts.length,
      i.target = core.apic ∧ i.kind = .reschedule

/-- The same core runs, and no core was replaced. -/
structure Onward (k k' : Kernel) : Prop where
  currentCore : k'.machine.currentCore = k.machine.currentCore
  interrupts : k.machine.interrupts <+: k'.machine.interrupts
  cores : ∀ c core', k'.core? c = some core' → ∃ core, k.core? c = some core ∧ core.Continues core'
  kept : ∀ c core, k.core? c = some core → ∃ core', k'.core? c = some core' ∧ core.Continues core'

namespace Onward

theorem refl (k : Kernel) : Onward k k :=
  ⟨rfl, List.prefix_refl _, fun _ core h => ⟨core, h, .refl core⟩,
    fun _ core h => ⟨core, h, .refl core⟩⟩

theorem trans (h : Onward k k') (h' : Onward k' k'') : Onward k k'' := by
  refine ⟨h'.currentCore.trans h.currentCore, h.interrupts.trans h'.interrupts,
    fun c core'' hcore'' => ?_, fun c core hcore => ?_⟩
  · obtain ⟨core', hcore', hcont'⟩ := h'.cores c core'' hcore''
    obtain ⟨core, hcore, hcont⟩ := h.cores c core' hcore'
    exact ⟨core, hcore, hcont.trans hcont'⟩
  · obtain ⟨core', hcore', hcont⟩ := h.kept c core hcore
    obtain ⟨core'', hcore'', hcont'⟩ := h'.kept c core' hcore'
    exact ⟨core'', hcore'', hcont.trans hcont'⟩

theorem numbered (h : Onward k k') (hk : k.Numbered) : k'.Numbered := by
  intro c core' hcore'
  obtain ⟨core, hcore, hcont⟩ := h.cores c core' hcore'
  exact hcont.id.trans (hk c core hcore)

theorem faulted (h : Onward k k') (hc : k.Faulted c) : k'.Faulted c := by
  obtain ⟨core, hcore, hfaulted⟩ := hc
  obtain ⟨core', hcore', hcont⟩ := h.kept c core hcore
  exact ⟨core', hcore', hcont.faulted hfaulted⟩

/-- An interrupt that was sent stays sent. -/
theorem alerted_before (h' : Onward k' k'') (hc : k.Alerted k' c) : k.Alerted k'' c := by
  obtain ⟨core, hcore, i, hi, hsent⟩ := hc
  exact ⟨core, hcore, i, (h'.interrupts.drop _).subset hi, hsent⟩

theorem alerted_after (h : Onward k k') (hc : k'.Alerted k'' c) : k.Alerted k'' c := by
  obtain ⟨core', hcore', i, hi, htarget, hkind⟩ := hc
  obtain ⟨core, hcore, hcont⟩ := h.cores c core' hcore'
  refine ⟨core, hcore, i, ?_, htarget.trans hcont.apic, hkind⟩
  exact (List.drop_sublist_drop_left _ h.interrupts.length_le).subset hi

/-- One core is replaced by another state of it. -/
theorem of_withCore (hcore : k.core? c = some core) {directory : Directory}
    (hsystem : k'.system = (k.system.withCore c core').withDirectory directory)
    (hcont : core.Continues core') (hinterrupts : k.machine.interrupts <+: k'.machine.interrupts) :
    Onward k k' := by
  have hget : ∀ j, k'.core? j = if j = c then some core' else k.core? j := by
    intro j
    have hj : k'.system.core? j =
        ((k.system.withCore c core').withDirectory directory).core? j := by
      rw [hsystem]
    exact hj.trans (System.core?_withCore (s := k.system) hcore core' j)
  refine ⟨congrArg System.currentCore hsystem, hinterrupts, fun j core₁ hcore₁ => ?_,
    fun j core₁ hcore₁ => ?_⟩
  · rw [hget] at hcore₁
    split at hcore₁
    · rename_i hj
      cases hcore₁
      exact ⟨core, hj ▸ hcore, hcont⟩
    · exact ⟨core₁, hcore₁, .refl core₁⟩
  · rw [hget]
    split
    · rename_i hj
      subst hj
      obtain rfl : core = core₁ := Option.some.inj (hcore.symm.trans hcore₁)
      exact ⟨core', rfl, hcont⟩
    · exact ⟨core₁, hcore₁, .refl core₁⟩

end Onward

/-! ### Actions without calls -/

/-- What each core holds is as it was, or the core was sent an interrupt. -/
structure Beside (k k' : Kernel) : Prop extends Onward k k' where
  held : ∀ c, k'.held c = k.held c ∨ k.Alerted k' c

/-- The cores are as they were, and the machine has gone on. -/
theorem beside_of_grows (hcores : k'.cores = k.cores) (hgrows : k.machine.Grows k'.machine) :
    Beside k k' := by
  have hget : ∀ c, k'.core? c = k.core? c := by
    intro c
    rw [core?, core?, hcores]
  refine ⟨⟨hgrows.currentCore, hgrows.interrupts, fun c core hcore => ?_, fun c core hcore => ?_⟩,
    fun c => .inl ?_⟩
  · exact ⟨core, hget c ▸ hcore, .refl core⟩
  · exact ⟨core, (hget c).symm ▸ hcore, .refl core⟩
  · rw [Kernel.held, Kernel.held, hget]

theorem core?_modifyCore (k : Kernel) (c : CoreId) (g : Core → Core) (i : CoreId) :
    (k.modifyCore c g).core? i = if i = c then (k.core? i).map g else k.core? i := by
  rw [core?, modifyCore, List.getElem?_modify]
  by_cases hi : i = c
  · simp [hi, core?]
  · have hne : c ≠ i := fun e => hi e.symm
    simp [hi, hne, core?]

theorem onward_modifyCore (k : Kernel) (c : CoreId) {g : Core → Core}
    (hg : ∀ core : Core, core.Continues (g core)) : Onward k (k.modifyCore c g) := by
  cases hcore : k.core? c with
  | none =>
    have hlen : k.cores.length ≤ c := List.getElem?_eq_none_iff.1 hcore
    have hsame : k.modifyCore c g = k := by rw [modifyCore, List.modify_eq_self hlen]
    rw [hsame]
    exact .refl k
  | some core =>
    have hsystem : (k.modifyCore c g).system =
        (k.system.withCore c (g core)).withDirectory k.directory :=
      System.system_modifyCore hcore g
    exact .of_withCore hcore hsystem (hg core) (List.prefix_refl _)

theorem beside_setFlags (c : CoreId) (flags : CoreFlags) :
    Respects Beside (updateCore c fun core => core.setFlags flags) := by
  intro k
  refine ⟨onward_modifyCore k c fun core => .setFlags core flags, fun i => .inl ?_⟩
  have hperform : (k.perform (updateCore c fun core => core.setFlags flags)).2 =
      k.modifyCore c fun core => core.setFlags flags := rfl
  rw [hperform, held, held, core?_modifyCore]
  split
  · rw [Option.map_map]
    rfl
  · rfl

/-! ### Work on a scheduler -/

section Work

variable {W : Scheduler → Scheduler → Prop} {before now : Scheduler}

/-- The core has come to another scheduler, which the work makes of the one before. -/
structure Reaches (W : Scheduler → Scheduler → Prop) (before : Scheduler) (core core' : Core) :
    Prop where
  continues : core.Continues core'
  contents : core'.contents = ({ core with scheduler := core'.scheduler } : Core).contents
  work : W before core'.scheduler

/-- Carried out on the core `c` with the scheduler `now`, the action leaves a scheduler that is made
of the one `before` by work, and it touches nothing else but the directory. -/
structure Performs (W : Scheduler → Scheduler → Prop) (c : CoreId) (before now : Scheduler)
    (x : Action α) : Prop where
  untouched : Untouched x
  performed : ∀ s core, s.core? c = some core → core.scheduler = now →
    Ensures s x fun _ s' => ∃ core' directory,
      s' = (s.withCore c core').withDirectory directory ∧ Reaches W before core core'

theorem Reaches.refl (hcore : core.scheduler = now) (hwork : W before now) :
    Reaches W before core core :=
  ⟨.refl core, rfl, hcore ▸ hwork⟩

theorem Reaches.after {core₁ : Core} (hcont : core.Continues core₁)
    (hcontents : core₁.contents = ({ core with scheduler := core₁.scheduler } : Core).contents)
    (h : Reaches W before core₁ core') : Reaches W before core core' := by
  refine ⟨hcont.trans h.continues, ?_, h.work⟩
  have hlater := congrArg (fun c : Core => ({ c with scheduler := core'.scheduler } : Core))
    hcontents
  exact h.contents.trans hlater

namespace Performs

variable {x : Action β} {f : β → Action α}

theorem pure (a : α) (h : W before now) : Performs W c before now (Pure.pure a : Action α) :=
  ⟨.pure a, fun s core hcore hnow =>
    Ensures.pure ⟨core, s.directory, (System.withCore_self hcore).symm, .refl hnow h⟩⟩

theorem of_answers {switch : Option Switch} {x : Action (α × Option Switch)}
    (hx : Answers c switch x) (h : W before now) : Performs W c before now x := by
  refine ⟨hx.untouched, fun s core hcore hnow => (hx.answered s core hcore).mono fun r s' hr => ?_⟩
  obtain ⟨-, directory, rfl, -⟩ := hr
  refine ⟨core, directory, ?_, .refl hnow h⟩
  rw [System.withCore_self hcore]

theorem quiet (hx : Quiet x) (huntouched : Untouched x)
    (hf : ∀ b, Performs W c before now (f b)) : Performs W c before now (x >>= f) :=
  ⟨huntouched.bind fun b => (hf b).untouched, fun s core hcore hnow =>
    Ensures.quiet hx fun b => (hf b).performed s core hcore hnow⟩

theorem tally (counter : Counter) (amount : Nat) {f : Unit → Action α}
    (hf : Performs W c before now (f ())) :
    Performs W c before now (Kernel.tally counter amount >>= f) :=
  quiet (quiet_tally _ _) (.tally _ _) fun _ => hf

/-- Looking at the kernel may fail, and then nothing has been done. -/
theorem still (hx : Still x) (hrest : W before now) (hf : ∀ b, Performs W c before now (f b)) :
    Performs W c before now (x >>= f) := by
  refine ⟨hx.untouched.bind fun b => (hf b).untouched, fun s core hcore hnow => ?_⟩
  refine Ensures.bind (hx.ensures.mono fun r s' hs' => ?_)
  subst hs'
  cases r with
  | ok b => exact (hf b).performed _ core hcore hnow
  | error e => exact ⟨core, _, (System.withCore_self hcore).symm, .refl hnow hrest⟩

/-- The core that is looked at has the scheduler `now`. -/
theorem coreAt_of {f : Core → Action α} (huntouched : ∀ core, Untouched (f core))
    (hf : ∀ core, core.scheduler = now → Performs W c before now (f core)) :
    Performs W c before now (Kernel.coreAt c >>= f) :=
  ⟨(Untouched.coreAt c).bind huntouched, fun s core hcore hnow =>
    Ensures.coreAt hcore ((hf core hnow).performed s core hcore hnow)⟩

theorem coreAt {f : Core → Action α} (hf : ∀ core, Performs W c before now (f core)) :
    Performs W c before now (Kernel.coreAt c >>= f) :=
  coreAt_of (fun core => (hf core).untouched) fun core _ => hf core

/-- Everyone but the cleanup task is refused. -/
theorem checkCleanup {f : Unit → Action α} (hrest : W before now) (huntouched : Untouched (f ()))
    (hf : now.current = now.cleanup → Performs W c before now (f ())) :
    Performs W c before now (Kernel.checkCleanup c >>= f) := by
  have hcheck : Untouched (Kernel.checkCleanup c) := (Still.checkCleanup c).untouched
  refine ⟨hcheck.bind fun _ => huntouched, fun s core hcore hnow => ?_⟩
  have hrefused : ∃ core' directory, s = (s.withCore c core').withDirectory directory ∧
      Reaches W before core core' :=
    ⟨core, s.directory, (System.withCore_self hcore).symm, .refl hnow hrest⟩
  refine Ensures.bind (Ensures.coreAt hcore ?_)
  dsimp only
  split
  · exact Ensures.fail hrefused
  · rename_i cleanup hcleanup
    split
    · rename_i hcurrent
      refine Ensures.pure ((hf ?_).performed s core hcore hnow)
      rw [← hnow, hcurrent, hcleanup]
    · exact Ensures.fail hrefused

theorem setFlags (flags : CoreFlags) {f : Unit → Action α}
    (hf : Performs W c before now (f ())) :
    Performs W c before now ((updateCore c fun core => core.setFlags flags) >>= f) := by
  refine ⟨(Untouched.updateCore c _).bind fun _ => hf.untouched, fun s core hcore hnow => ?_⟩
  refine Ensures.bind_ok (Ensures.updateCore hcore _ ⟨rfl, rfl⟩) ?_
  have hget := System.core?_withCore_self hcore (core.setFlags flags)
  refine (hf.performed _ _ hget hnow).mono fun r s' hr => ?_
  obtain ⟨core', directory, rfl, hreaches⟩ := hr
  refine ⟨core', directory, ?_, hreaches.after (.setFlags core flags) rfl⟩
  rw [System.withCore_withCore]

/-- The scheduler is asked for something, and what follows may depend on what it answers. -/
theorem ask_of {g : Scheduler → Except Error β × Scheduler} (hx : Asks c g x)
    (herror : ∀ e, (g now).1 = .error e → W before (g now).2)
    (huntouched : ∀ b, Untouched (f b))
    (hf : ∀ b, (g now).1 = .ok b → Performs W c before (g now).2 (f b)) :
    Performs W c before now (x >>= f) := by
  refine ⟨hx.untouched.bind huntouched, fun s core hcore hnow => ?_⟩
  subst hnow
  have hget := System.core?_withCore_self hcore
    { core with scheduler := (g core.scheduler).2 }
  have hcont : core.Continues { core with scheduler := (g core.scheduler).2 } := ⟨rfl, rfl, id⟩
  refine Ensures.bind ((hx.asked s core hcore).mono fun r s' hr => ?_)
  obtain ⟨rfl, rfl⟩ := hr
  cases hresult : (g core.scheduler).1 with
  | ok b =>
    refine ((hf b hresult).performed _ _ hget rfl).mono fun r s' hr => ?_
    obtain ⟨core', directory, rfl, hreaches⟩ := hr
    refine ⟨core', directory, ?_, hreaches.after hcont rfl⟩
    rw [System.withCore_withCore]
  | error e => exact ⟨_, s.directory, rfl, hcont, rfl, herror e hresult⟩

theorem ask {g : Scheduler → Except Error β × Scheduler} (hx : Asks c g x)
    (herror : ∀ e, (g now).1 = .error e → W before (g now).2)
    (hf : ∀ b, Performs W c before (g now).2 (f b)) : Performs W c before now (x >>= f) :=
  ask_of hx herror (fun b => (hf b).untouched) fun b _ => hf b

/-- What cannot fail. -/
theorem use {g : Scheduler → β × Scheduler} (hf : ∀ b, Performs W c before (g now).2 (f b)) :
    Performs W c before now (onScheduler c g >>= f) :=
  ask (asks_onScheduler g) (fun _ he => by cases he) hf

end Performs

end Work

/-! ### The lock -/

theorem ensures_coreFault (hcore : s.core? c = some core) (e : Error) :
    Ensures s (coreFault c e : Action α) fun r s' => (∀ a, r ≠ .ok a) ∧
      s' = s.withCore c (core.setFlags { faulted := true }) := by
  refine Ensures.quiet (quiet_note _) fun _ =>
    Ensures.bind_ok (Ensures.updateCore hcore _ ⟨rfl, rfl⟩) (Ensures.get fun k _ => ?_)
  intro k' hk'
  exact ⟨fun a ha => (by cases ha), hk'⟩

/-- The core has halted, and is the given one otherwise but for its inbox and its scheduler. -/
def Halts (s : System) (c : CoreId) (core : Core) (r : Except Stop α) (s' : System) : Prop :=
  (∀ a, r ≠ .ok a) ∧ ∃ core', s' = s.withCore c core' ∧ core.Continues core' ∧
    core'.flags.faulted = true

/-- A core takes over its tasks, or halts. -/
theorem ensures_takeOver_or (hcore : s.core? c = some core) (tasks : List Task) :
    Ensures s (takeOver c tasks) fun r s' =>
      (r = .ok () ∧ s' = s.withCore c { core with scheduler := core.scheduler.joinAll tasks }) ∨
        Halts s c core r s' := by
  induction tasks generalizing s core with
  | nil => exact Ensures.pure (.inl ⟨rfl, (System.withCore_self hcore).symm⟩)
  | cons task rest ih =>
    have hget := System.core?_withCore_self hcore
      { core with scheduler := (core.scheduler.schedule task).2 }
    refine Ensures.bind (Ensures.attempt (Ensures.request hcore _ _ _ ?_))
    cases (core.scheduler.schedule task).1 with
    | ok _ =>
      refine (ih hget).mono fun r s' hr => ?_
      rcases hr with ⟨rfl, rfl⟩ | ⟨hr, core', rfl, hcont, hfaulted⟩
      · exact .inl ⟨rfl, System.withCore_withCore _ _⟩
      · exact .inr ⟨hr, core', System.withCore_withCore _ _,
          ⟨hcont.id, hcont.apic, hcont.faulted⟩, hfaulted⟩
    | error e =>
      refine (ensures_coreFault hget e).mono fun r s' hr => ?_
      obtain ⟨hr, rfl⟩ := hr
      refine .inr ⟨hr, _, System.withCore_withCore _ _, ⟨rfl, rfl, fun hc => ?_⟩, ?_⟩
      all_goals simp [Core.setFlags, CoreFlags.union]

/-- A core takes over its inbox, or halts. -/
theorem ensures_drainInbox_or (hcore : s.core? c = some core) :
    Ensures s (drainInbox c) fun r s' =>
      (r = .ok () ∧ s' = s.withCore c core.drained) ∨ Halts s c core r s' := by
  refine Ensures.coreAt hcore (Ensures.bind_ok (Ensures.updateCore hcore _ ⟨rfl, rfl⟩) ?_)
  have hempty := System.core?_withCore_self hcore
    { core with inbox := (core.inbox.takeTasks.2).takeMail.2 }
  refine Ensures.bind ((ensures_takeOver_or hempty core.inbox.tasks).mono fun r s' hr => ?_)
  rcases hr with ⟨rfl, rfl⟩ | ⟨hr, core', rfl, hcont, hfaulted⟩
  · have hmanned := System.core?_withCore_self hempty { core with
      inbox := (core.inbox.takeTasks.2).takeMail.2
      scheduler := core.scheduler.joinAll core.inbox.tasks }
    refine Ensures.bind_ok (ensures_deliverAll hmanned [] core.inbox.mail) ?_
    have hdelivered := System.core?_withCore_self hmanned { core with
      inbox := (core.inbox.takeTasks.2).takeMail.2
      scheduler := ((core.scheduler.joinAll core.inbox.tasks).deliverAll [] core.inbox.mail).2 }
    refine Ensures.updateCore hdelivered _ (.inl ⟨rfl, ?_⟩)
    rw [System.withCore_withCore, System.withCore_withCore, System.withCore_withCore]
    congr 1
    simp [Core.drained, Inbox.restoreMail, Inbox.takeMail, Inbox.takeTasks]
  · have hhalts : ∀ {r' : Except Stop Unit}, (∀ a, r' ≠ .ok a) → Halts s c core r'
        ((s.withCore c { core with inbox := (core.inbox.takeTasks.2).takeMail.2 }).withCore c
          core') :=
      fun hr' => ⟨hr', core', System.withCore_withCore _ _,
        ⟨hcont.id, hcont.apic, hcont.faulted⟩, hfaulted⟩
    cases r with
    | ok a => exact absurd rfl (hr a)
    | error e => exact .inr (hhalts fun a ha => (by cases ha))

/-- The core `c` holds what it held, and nothing was sent. -/
def Published (k : Kernel) (c : CoreId) (core : Core) (k' : Kernel) : Prop :=
  k'.machine.interrupts = k.machine.interrupts ∧
    ∃ core', k'.system = k.system.withCore c core' ∧ core.Continues core' ∧
      core'.contents = core.contents

theorem published_coreFault (hcore : k.system.core? c = some core) (e : Error) :
    k.Leads (coreFault c e : Action α) fun _ k' => Published k c core k' := by
  have hsystem := System.system_modifyCore (k := k.noted (.fault c e)) hcore
    fun core => core.setFlags { faulted := true }
  exact ⟨rfl, _, hsystem, .setFlags core _, rfl⟩

theorem Published.switched {l : List ContextSwitch} (h : Published k c core k')
    (hsystem : k''.system = k'.system) (hswitched : Switched k'.machine l k''.machine) :
    Published k c core k'' := by
  obtain ⟨hinterrupts, core', hcore', hcont, hcontents⟩ := h
  exact ⟨hswitched.interrupts.trans hinterrupts, core', hsystem.trans hcore', hcont, hcontents⟩

/-- What a core shows changes nothing of what it holds. -/
theorem published_publish (hcore : k.system.core? c = some core) :
    k.Leads (publish c) fun r k' => r = .ok () ∧ Published k c core k' :=
  ⟨rfl, rfl, _, System.system_modifyCore hcore Core.publish, ⟨rfl, rfl, fun hc => hc⟩, rfl⟩

theorem published_prepareSwitch (hcore : k.system.core? c = some core) (switch : Option Switch) :
    k.Leads (prepareSwitch c switch) fun r k' => match r with
      | .ok _ => k' = k
      | .error _ => Published k c core k' := by
  cases switch with
  | none => exact rfl
  | some switch =>
    rw [prepareSwitch, Leads, perform_bind, perform_coreAt hcore]
    dsimp only
    cases core.scheduler.prepare switch with
    | ok prepared => exact rfl
    | error e => exact published_coreFault hcore e

/-- The end of a call changes nothing of what the core holds. -/
theorem published_conclude (hcore : k.system.core? c = some core) (enabled : Bool)
    (r : Except Error (α × Option Switch)) :
    k.Leads
      (match r with
        | .error e =>
          if e.isFatal then
            coreFault c e
          else do
            publish c
            unmask enabled
            fail e
        | .ok (value, switch) => do
          let prepared ← prepareSwitch c switch
          publish c
          performSwitch prepared
          unmask enabled
          return value)
      fun _ k' => Published k c core k' := by
  cases r with
  | error e =>
    dsimp only
    split
    · exact published_coreFault hcore e
    · refine Leads.bind ((published_publish hcore).mono fun r' k' hr' => ?_)
      obtain ⟨rfl, h'⟩ := hr'
      refine Leads.bind ((leads_unmask enabled).mono fun r'' k'' hr'' => ?_)
      obtain ⟨rfl, hsystem, hswitched⟩ := hr''
      exact h'.switched hsystem hswitched
  | ok p =>
    obtain ⟨value, switch⟩ := p
    refine Leads.bind ((published_prepareSwitch hcore switch).mono fun r' k' hr' => ?_)
    cases r' with
    | error e => exact hr'
    | ok prepared =>
      subst hr'
      refine Leads.bind ((published_publish hcore).mono fun r' k' hr' => ?_)
      obtain ⟨rfl, h'⟩ := hr'
      refine Leads.bind ((leads_performSwitch prepared).mono fun r₁ k₁ h₁ => ?_)
      obtain ⟨rfl, hsystem₁, hswitched₁⟩ := h₁
      refine Leads.bind ((leads_unmask enabled).mono fun r₂ k₂ h₂ => ?_)
      obtain ⟨rfl, hsystem₂, hswitched₂⟩ := h₂
      exact (h'.switched hsystem₁ hswitched₁).switched hsystem₂ hswitched₂

/-- What a call under the lock makes of a core: it halts, or it takes over its inbox and work is
done on its scheduler. -/
structure Called (W : Scheduler → Scheduler → Prop) (k : Kernel) (core core' : Core)
    (k' : Kernel) : Prop where
  system : ∃ directory,
    k'.system = (k.system.withCore k.machine.currentCore core').withDirectory directory
  interrupts : k'.machine.interrupts = k.machine.interrupts
  continues : core.Continues core'
  work : core'.flags.faulted = true ∨ ∃ s, W core.drained.scheduler s ∧
    core'.contents = ({ core.drained with scheduler := s } : Core).contents

/-- The end of a call leaves what the work has left. -/
theorem called_of_published {W : Scheduler → Scheduler → Prop} {core₁ : Core}
    {directory : Directory}
    (hsystem : k'.system = (k.system.withCore k.machine.currentCore core₁).withDirectory directory)
    (hinterrupts : k'.machine.interrupts = k.machine.interrupts)
    (hreaches : Reaches W core.drained.scheduler core.drained core₁)
    (h : Published k' k.machine.currentCore core₁ k'') : ∃ core', Called W k core core' k'' := by
  obtain ⟨hsame, core', hsystem', hcont, hcontents⟩ := h
  have hdrained : core.Continues core.drained := ⟨rfl, rfl, fun hc => hc⟩
  refine ⟨core', ⟨directory, ?_⟩, hsame.trans hinterrupts,
    (hdrained.trans hreaches.continues).trans hcont,
    .inr ⟨core₁.scheduler, hreaches.work, hcontents.trans hreaches.contents⟩⟩
  rw [hsystem', hsystem]
  simp only [System.withCore, System.withDirectory, List.set_set]

/-- A call under the lock makes of the core what its work does. -/
theorem called_locked {W : Scheduler → Scheduler → Prop} (hk : k.Numbered)
    (hcore : k.localCore? = some core) {operation : CoreId → Action (α × Option Switch)}
    (hop : ∀ c s, Performs W c s s (operation c)) :
    ∃ core', Called W k core core' (k.perform (locked operation)).2 := by
  have hlocal : k.perform localCore = (.ok core, k) := perform_coreAt hcore
  have hid : core.id = k.machine.currentCore := hk _ core hcore
  have hfound : k.system.core? k.machine.currentCore = some core := hcore
  suffices h : k.Leads (locked operation) fun _ k' => ∃ core', Called W k core core' k' from h
  refine Leads.bind ?_
  rw [Leads, hlocal]
  dsimp only
  rw [hid]
  refine Leads.bind (leads_mask.mono fun r k₁ h₁ => ?_)
  obtain ⟨⟨enabled, rfl⟩, hsystem₁, hmasked⟩ := h₁
  have hfound₁ : k₁.system.core? k.machine.currentCore = some core := hsystem₁ ▸ hfound
  refine Leads.bind ((Leads.of_ensures (ensures_drainInbox_or hfound₁) (.drainInbox _)).mono
    fun r k₂ h₂ => ?_)
  obtain ⟨hdrained, hmachine₂⟩ := h₂
  have hinterrupts₂ : k₂.machine.interrupts = k.machine.interrupts := by
    rw [hmachine₂]
    exact hmasked.interrupts
  rcases hdrained with ⟨rfl, hsystem₂⟩ | ⟨hr, core', hsystem₂, hcont, hfaulted⟩
  · -- the work finds the core drained, and its end publishes what it leaves
    have hfound₂ : k₂.system.core? k.machine.currentCore = some core.drained := by
      rw [hsystem₂]
      exact System.core?_withCore_self hfound₁ _
    obtain ⟨huntouched, hperformed⟩ := hop k.machine.currentCore core.drained.scheduler
    refine Leads.bind (Leads.attempt ((Leads.of_ensures (hperformed _ _ hfound₂ rfl)
      huntouched).mono fun r k₃ h₃ => ?_))
    obtain ⟨⟨core₃, directory, hsystem₃, hreaches⟩, hmachine₃⟩ := h₃
    have hfound₃ : k₃.system.core? k.machine.currentCore = some core₃ := by
      rw [hsystem₃]
      exact System.core?_withCore_self hfound₂ _
    have hinterrupts₃ : k₃.machine.interrupts = k.machine.interrupts := by
      rw [hmachine₃, hinterrupts₂]
    have hworked : k₃.system =
        (k.system.withCore k.machine.currentCore core₃).withDirectory directory := by
      rw [hsystem₃, hsystem₂, hsystem₁]
      simp only [System.withCore, System.withDirectory, List.set_set]
    have hend : ∀ k', Published k₃ k.machine.currentCore core₃ k' →
        ∃ core', Called W k core core' k' :=
      fun _ h => called_of_published hworked hinterrupts₃ hreaches h
    cases r with
    | ok p => exact (published_conclude hfound₃ enabled (.ok p)).mono fun _ k' h => hend k' h
    | error e =>
      cases e with
      | failed e =>
        exact (published_conclude hfound₃ enabled (.error e)).mono fun _ k' h => hend k' h
      | halted _ =>
        exact hend k₃ ⟨rfl, core₃, (System.withCore_self hfound₃).symm, .refl core₃, rfl⟩
  · have hcalled : Called W k core core' k₂ := by
      refine ⟨⟨k.directory, ?_⟩, hinterrupts₂, hcont, .inl hfaulted⟩
      rw [hsystem₂, hsystem₁]
      rfl
    cases r with
    | ok a => exact absurd rfl (hr a)
    | error e => exact ⟨core', hcalled⟩

end Kernel

end Microkernel
