/-
The first and the last step of tasks on a core.

A core that is brought up gets its idle and its cleanup task, is online from then on, and takes
part in placing the tasks that were parked. A task that ends leaves its core, and its id is free
when the core goes on.

* **`ensures_opened`**: when its two tasks are built, a core has only to place the parked ones;
* **`ensures_bringUp`**: a core that was not online is put online, with both tasks or not at all;
* **`ensures_exit`**: the end of a task touches no other task (`Preserves` with the task gone).
-/
import Microkernel.Proofs.Kernel.Placing

namespace Microkernel.Kernel

variable {α : Type} {s s' : System} {hand : List Task} {c : CoreId} {core core' : Core}

/-! ### Bringing up a core -/

/-- A core without tasks is put online with two of them. -/
theorem preserves_opened {idle cleanup : Task} (h : s.Sound (cleanup :: idle :: hand))
    (hcore : s.core? c = some core) (hid : core'.id = core.id)
    (hsettled : core'.Settled s.config.mailboxSize) (honline : core'.isOnline = true)
    (hnone : core.members = []) (hmem : core'.members.Perm [cleanup.id, idle.id]) :
    Preserves s (s.directory.parked ++ hand) Core.nothing none (.ok () : Except Stop Unit)
      ((s.withDirectory (((s.directory.recordHome idle.id c).recordHome cleanup.id
        c).takeParked.2)).withCore c core') := by
  have hhomes : ∀ id, (((s.directory.recordHome idle.id c).recordHome cleanup.id
      c).takeParked.2).homeOf id =
        if id = cleanup.id ∨ id = idle.id then some c else s.directory.homeOf id := by
    intro id
    show ((s.directory.homes.insert idle.id c).insert cleanup.id c).get? id = _
    rw [Table.get?_insert, Table.get?_insert]
    by_cases hcleanup : id = cleanup.id
    · simp [hcleanup]
    · simp [hcleanup, Directory.homeOf]
  have hkept : ∀ id i, s.directory.homeOf id = some i → none ≠ some id →
      (((s.directory.recordHome idle.id c).recordHome cleanup.id c).takeParked.2).homeOf id =
        some i := by
    intro id i hhome _
    rw [hhomes, if_neg]
    · exact hhome
    · rintro (rfl | rfl)
      · rw [h.homeOf_eq_none List.mem_cons_self] at hhome
        cases hhome
      · rw [h.homeOf_eq_none (List.mem_cons_of_mem _ List.mem_cons_self)] at hhome
        cases hhome
  have hcarries : Core.Carries s.config.mailboxSize Core.nothing none core core' := by
    intro id hin
    rw [hnone] at hin
    cases hin
  exact ⟨trivial, rfl, h.opened hcore hid hsettled honline hnone hmem rfl rfl hhomes,
    h.passes_withCore hcore hcarries (fun _ _ => rfl) hkept⟩

/-- The idle and the cleanup task are installed under the lock. -/
theorem ensures_install (hcore : s.core? s.currentCore = some core)
    (hid : core.id = s.currentCore) {size : Nat} (hsound : core.Sound size)
    {idle cleanup : Task} {s₁ s₂ : Scheduler}
    (hs₁ : core.drained.scheduler.installIdle idle = (.ok (), s₁))
    (hs₂ : s₁.installCleanup cleanup = (.ok (), s₂)) :
    Ensures s
      (locked fun id => do
        askScheduler id (·.installIdle idle)
        request id (.installCleanup cleanup) (·.installCleanup cleanup) fun _ => .done
        return ((), none))
      fun r s' => r = .ok () ∧ s' = s.withCore s.currentCore (core.after s₂) := by
  refine ensures_locked_at hcore hid hsound ?_
  refine Ensures.bind ((ensures_askScheduler hcore hs₁).mono ?_)
  rintro r s' ⟨rfl, rfl⟩
  refine Ensures.bind ((ensures_request hcore hs₂).mono ?_)
  rintro r s' ⟨rfl, rfl⟩
  exact Ensures.pure (Locked.ok (Scheduler.resolved_none _) ⟨rfl, rfl⟩)

theorem servants_ne {idle cleanup : Task} (h : s.Sound (cleanup :: idle :: hand)) :
    cleanup.id ≠ idle.id := by
  intro he
  have hnodup := h.ids.nodup
  simp [he] at hnodup

/-- What is left of bringing up a core when its idle and its cleanup task are built. -/
def goOnline (core : Core) (idle cleanup : Task) : Action Unit := do
  locked fun id => do
    askScheduler id (·.installIdle idle)
    request id (.installCleanup cleanup) (·.installCleanup cleanup) fun _ => .done
    return ((), none)
  onDirectory fun d => ((), (d.recordHome idle.id core.id).recordHome cleanup.id core.id)
  updateCore core.id fun c => c.setFlags { online := true }
  note (.online core.id core.apic idle.id cleanup.id)
  releaseParked

/-- The core that runs has got its two servants and is online, and the parked tasks are in hand. -/
inductive Opened (core : Core) (idle cleanup : Task) (s : System) : System → Prop
  | manned {s₁ s₂ : Scheduler} {directory : Directory}
      (hidle : core.drained.scheduler.installIdle idle = (.ok (), s₁))
      (hcleanup : s₁.installCleanup cleanup = (.ok (), s₂))
      (hids : directory.ids = s.directory.ids) (hparked : directory.parked = []) :
      Opened core idle cleanup s ((s.withDirectory directory).withCore s.currentCore
        ((core.after s₂).setFlags { online := true }))

theorem Opened.ids {idle cleanup : Task} (h : Opened core idle cleanup s s₁) :
    s₁.directory.ids = s.directory.ids := by
  cases h with
  | manned _ _ hids => exact hids

/-- With its idle and cleanup task built, a core goes online. What it is left to do is to place the
tasks that were parked. -/
theorem ensures_opened {idle cleanup : Task} {post : Except Stop Unit → System → Prop}
    (h : s.Sound (cleanup :: idle :: hand)) (hcore : s.core? s.currentCore = some core)
    (hnone : core.members = [])
    (hpost : ∀ s₁, Preserves s (s.directory.parked ++ hand) Core.nothing none
        (.ok () : Except Stop Unit) s₁ → Opened core idle cleanup s s₁ →
      Ensures s₁ (s.directory.parked.forM fun task => do let _ ← place task) post) :
    Ensures s (goOnline core idle cleanup) post := by
  have hid := h.ordinals _ core hcore
  have hsettled := h.settled _ core hcore
  obtain ⟨s₁, s₂, hs₁, hs₂, hopen, hmem⟩ := hsettled.opened hnone (servants_ne h)
    (h.built idle (by simp)) (h.built cleanup (by simp))
  have honline : ((core.after s₂).setFlags { online := true }).isOnline = true := by
    simp [Core.isOnline, Core.setFlags, CoreFlags.union]
  have hname : ((core.after s₂).setFlags { online := true }).id = core.id := rfl
  have hput := preserves_opened h hcore hname hopen honline hnone hmem
  have hopened : Opened core idle cleanup s ((s.withDirectory ((s.directory.recordHome idle.id
      s.currentCore).recordHome cleanup.id s.currentCore).takeParked.2).withCore s.currentCore
        ((core.after s₂).setFlags { online := true })) := .manned hs₁ hs₂ rfl rfl
  -- the core was written twice, with the directory in between
  have hset : ∀ directory, (((s.withCore s.currentCore (core.after s₂)).withDirectory
        directory).withCore s.currentCore ((core.after s₂).setFlags { online := true })) =
      (s.withDirectory directory).withCore s.currentCore
        ((core.after s₂).setFlags { online := true }) := by
    intro directory
    simp only [System.withCore, System.withDirectory, List.set_set]
  have hafter : ∀ directory, ((s.withCore s.currentCore (core.after s₂)).withDirectory
      directory).core? s.currentCore = some (core.after s₂) :=
    fun _ => System.core?_withCore_self hcore _
  rw [goOnline]
  refine Ensures.bind_ok (ensures_install hcore hid hsettled.sound hs₁ hs₂) ?_
  rw [hid]
  refine Ensures.bind_ok (Ensures.onDirectory _ ⟨rfl, rfl⟩) ?_
  refine Ensures.bind_ok (Ensures.updateCore (hafter _) _ ⟨rfl, rfl⟩) ?_
  refine Ensures.quiet (quiet_note _) fun _ => ?_
  refine Ensures.bind_ok (Ensures.onDirectory _ ⟨rfl, rfl⟩) ?_
  rw [hset]
  exact hpost _ hput hopened

theorem ensures_bringUp (h : s.Sound hand) :
    Ensures s bringUp (Preserves s hand Core.nothing none) := by
  cases hcore : s.core? s.currentCore with
  | none => exact Ensures.localCore_none hcore (.same h rfl)
  | some core =>
    refine Ensures.localCore hcore ?_
    split
    · exact Ensures.pure (.same h trivial)
    · rename_i hoffline
      have hnone := (h.offline _ core hcore (Bool.not_eq_true _ ▸ hoffline)).members
      refine Ensures.bind ((ensures_buildServants h).mono fun r s₁ hr => ?_)
      have hbuilt := hr.preserves ()
      obtain ⟨⟨ids, rfl⟩, -⟩ := hr
      cases r with
      | error e => exact hbuilt
      | ok servants =>
        refine ensures_opened hbuilt.sound hcore hnone fun s₂ hput _ => ?_
        exact (ensures_placeAll _ hput.sound).mono fun r s' hr => hbuilt.trans (hput.trans hr)

/-! ### The end of a task -/

theorem preserves_exited {id : TaskId} (h : s.Sound hand) (hcore : s.core? c = some core)
    (hin : id ∈ core.members)
    (hstep : Core.Step s.config.mailboxSize Core.nothing (some id) [] core core') (a : α) :
    Preserves s hand Core.nothing (some id) (.ok a : Except Stop α)
      ((s.withDirectory (s.directory.forget id).2).withCore c core') := by
  have hkept : ∀ j i, s.directory.homeOf j = some i → some id ≠ some j →
      (s.directory.forget id).2.homeOf j = some i := by
    intro j i hhome hgone
    have hforget : (s.directory.forget id).2.homeOf j =
        if j = id then none else s.directory.homeOf j := Table.get?_erase s.directory.homes id j
    rw [hforget, if_neg fun e => hgone (congrArg some e.symm)]
    exact hhome
  exact ⟨trivial, rfl, h.forgotten hcore hin hstep,
    h.passes_withCore hcore hstep.carries (fun _ _ => rfl) hkept⟩

/-- An exit is refused, and then nothing was done but to take over the inbox, or the current task is
over and the directory has forgotten it. -/
theorem ensures_exit_of (h : s.Sound hand) (hcore : s.core? s.currentCore = some core)
    {post : Except Stop TaskId → System → Prop}
    (hrefused : core.drained.scheduler.exit = (.error .noCurrentTask, core.drained.scheduler) →
      post (.error (.failed .noCurrentTask))
        (s.withCore s.currentCore (core.after core.drained.scheduler)))
    (hended : ∀ id t switch scheduler,
      core.drained.scheduler.exit = (.ok ⟨id, switch⟩, scheduler) →
      core.drained.scheduler.task? id = some t → scheduler.Coherent →
      Scheduler.Rearranged (core.drained.scheduler.retired id t) scheduler →
      post (.ok id) ((s.withDirectory (s.directory.forget id).2).withCore s.currentCore
        (core.after scheduler))) : Ensures s exit post := by
  have hid := h.ordinals _ core hcore
  refine ensures_locked hcore hid (h.settled _ core hcore).sound ?_
  rw [hid]
  rcases he : core.drained.scheduler.exit with ⟨result, scheduler⟩
  refine Ensures.bind ((ensures_request hcore he).mono ?_)
  rintro r s₁ ⟨rfl, rfl⟩
  rcases (coherent_drained h hcore).exit he with
    ⟨rfl, rfl⟩ | ⟨id, t, switch, rfl, -, -, ht, hco, hres, hr⟩
  · refine ⟨rfl, _, System.core?_withCore_self hcore _, ?_⟩
    rw [System.withCore_withCore]
    exact hrefused he
  · -- the id is forgotten while the task is still current: both changes are seen at once
    refine Ensures.bind_ok (Ensures.onDirectory _ ⟨rfl, rfl⟩) ?_
    have hcore₁ : (s.withDirectory (s.directory.forget id).2).core? s.currentCore = some core :=
      hcore
    have hget := System.core?_withCore_self hcore₁
      { core.drained with scheduler := scheduler }
    have hpost : post (.ok id) (((s.withDirectory (s.directory.forget id).2).withCore s.currentCore
        { core.drained with scheduler := scheduler }).withCore s.currentCore
          (core.after scheduler)) := by
      rw [System.withCore_withCore]
      exact hended id t switch scheduler he ht hco hr
    dsimp only
    split
    · exact Ensures.quiet (quiet_note _) fun _ => Ensures.pure ⟨_, hget, hres, hpost⟩
    · exact Ensures.pure ⟨_, hget, hres, hpost⟩

theorem ensures_exit (h : s.Sound hand) :
    Ensures s exit fun r s' => Preserves s hand Core.nothing r.toOption r s' := by
  cases hcore : s.core? s.currentCore with
  | none => exact ensures_locked_none hcore (.same h rfl)
  | some core =>
    have hsettled := h.settled _ core hcore
    refine ensures_exit_of h hcore (fun _ => .drained h hcore rfl)
      fun id t _ scheduler _ ht hco hr => ?_
    have hin : id ∈ core.members :=
      (hsettled.sound.contains_drained id).1 (Option.isSome_of_mem ht)
    exact preserves_exited h hcore hin (hsettled.step_retired ht hco hr) id

end Microkernel.Kernel
