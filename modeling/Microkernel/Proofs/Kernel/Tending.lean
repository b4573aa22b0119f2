/-
No cleanup task sleeps on its work.

While tasks that are over wait on a core to be reclaimed, the cleanup task of the core is ready: who
ends wakes it, and it is parked only if there is nothing to reclaim. It must not wait for something
else in between (`Attends`).

* **`Operation.Does.tended`**: no work on a scheduler strands a task that is over;
* **`tended_bringUp`**: a core that goes online has a cleanup task that is ready;
* **`Reachable.tended_run`**: so while the cleanup tasks attend to their work, all cores are tended.

Design notes: a `receive` tries several times, and each try is made in the name of the task that is
current by then. So it is looked up for each try whether the cleanup task is made to wait.
-/
import Microkernel.Proofs.Kernel.Isolation
import Microkernel.Proofs.Scheduler.Cleanup

namespace Microkernel.Kernel

variable {α γ : Type} {k k' : Kernel} {f : Books → γ} {W : Scheduler → Scheduler → Prop}
  {L : Core → Core → Prop} {core : Core}

/-! ### Who waits -/

/-- The cleanup task of the core that runs. -/
def localCleanup (k : Kernel) : Option TaskId :=
  k.localCore?.bind fun core => core.scheduler.cleanup

/-- The tasks that an operation may make wait, as they ask for it. -/
def waiters (k : Kernel) : Operation → List (Option TaskId)
  | .sleep _ => [k.currentTask]
  | operation => (k.asks operation).map Inquiry.task

/-- No cleanup task sleeps or asks for mail. -/
def Attends : Kernel → List Operation → Prop
  | _, [] => True
  | k, operation :: rest =>
    (∀ id, k.localCleanup = some id → some id ∉ k.waiters operation) ∧
      (k.step operation).2.Attends rest

instance decidableAttends : (k : Kernel) → (operations : List Operation) →
    Decidable (k.Attends operations)
  | _, [] => .isTrue trivial
  | k, operation :: rest =>
    have := decidableAttends (k.step operation).2 rest
    inferInstanceAs (Decidable ((∀ id ∈ k.localCleanup, some id ∉ k.waiters operation) ∧
      (k.step operation).2.Attends rest))

/-- The task that asks for the operation may have to wait. -/
def Operation.waits : Operation → Bool
  | .sleep _ | .tryReceive _ | .receive _ => true
  | _ => false

theorem currentTask_mem_waiters {operation : Operation} (hsingle : operation.isSingle = true)
    (hwaits : operation.waits = true) : k.currentTask ∈ k.waiters operation := by
  cases operation with
  | sleep _ => exact List.mem_singleton.2 rfl
  | tryReceive filter => exact List.mem_cons_self
  | receive _ => cases hsingle
  | _ => cases hwaits

/-! ### Work on a scheduler -/

theorem tended_accepts {task : Task} {before now : Scheduler}
    (h : Scheduler.Accepts task before now) (hb : before.Tended) : now.Tended := by
  have hafter := h.work.coherent hb.coherent
  cases h with
  | refuse => exact hb
  | join =>
    have hco := (hb.coherent.step (.schedule task)).1
    exact hb.of_tends ((hb.coherent.tends_schedule task).trans hco.tends_reschedule) hafter

/-- Work strands no task that is over, unless it makes the cleanup task wait. -/
theorem Operation.Does.tended {operation : Operation} {before now : Scheduler}
    (h : operation.Does before now) (hb : before.Tended)
    (hwaits : operation.waits = true → ∀ id, before.cleanup = some id → before.current ≠ some id) :
    now.Tended := by
  have hco := hb.coherent
  have hafter := h.work.coherent hco
  cases h with
  | rest => exact hb
  | start => exact hb.of_tends hco.tends_start hafter
  | startAsked => exact hb.of_tends hco.tends_start hafter
  | turn => exact hb.of_tends hco.tends_reschedule hafter
  | tick => exact hb.of_tends hco.tends_tick hafter
  | sleep => exact hb.of_tends (hco.tends_block (hwaits rfl) _) hafter
  | wake _ task =>
    exact hb.of_tends ((hco.tends_wake task).trans (hco.wake task).1.tends_reschedule) hafter
  | changePriority => exact hb.of_tends (hco.tends_changePriority _ _) hafter
  | exit => exact hb.exit
  | reap => exact hb.reap
  | park _ _ hnone => exact hb.park hnone _
  | deliver => exact hb.of_tends (hco.tends_deliver _ _) hafter
  | hand _ id message =>
    have hdelivered := (hco.step (.deliver id message)).1
    exact hb.of_tends ((hco.tends_deliver id message).trans hdelivered.tends_reschedule) hafter
  | receive => exact hb.of_tends (hco.tends_receive (hwaits rfl) _) hafter
  | spawn _ _ _ _ h => exact tended_accepts h hb
  | spawnUser _ _ _ _ _ h => exact tended_accepts h hb

/-! ### Tended cores -/

/-- Every core that has not halted is tended. -/
def Tended (k : Kernel) : Prop :=
  ∀ c core, k.core? c = some core → core.flags.faulted = false → core.scheduler.Tended

theorem tended_new {config : Config} {apics : List Nat} (h : Kernel.new config apics = .ok k) :
    k.Tended := by
  obtain ⟨-, -, hcores⟩ := parts_of_new h
  intro c core hcore _
  obtain ⟨apic, rfl⟩ := hcores c core hcore
  exact Scheduler.tended_new _ _

theorem Tended.of_cores (h : k.Tended) (hcores : k'.cores = k.cores) : k'.Tended := by
  intro c core hcore
  rw [core?, hcores] at hcore
  exact h c core hcore

/-- A core that takes over its inbox stays tended. -/
theorem tended_drained (h : core.scheduler.Tended) : core.drained.scheduler.Tended := by
  obtain ⟨hjoined, htends⟩ := h.coherent.tends_joinAll core.inbox.tasks
  obtain ⟨hdelivered, htends'⟩ := hjoined.tends_deliverAll [] core.inbox.mail
  exact h.of_tends (htends.trans htends') hdelivered

/-- What becomes of the core that runs is up to its work; to no other core comes more than a task or
some mail in its inbox. -/
theorem Coursed.keeps_scheduler (h : Coursed f W L k k') {P : Scheduler → Prop} {c : CoreId}
    (hcore : k.core? c = some core) (hP : P core.scheduler)
    (hW : c = k.machine.currentCore → ∀ s, W core.drained.scheduler s → P s)
    (hL : ∀ core core', L core core' → core'.scheduler = core.scheduler) :
    ∃ core', k'.core? c = some core' ∧ (core'.flags.faulted = true ∨ P core'.scheduler) := by
  cases h.change.of_core hcore with
  | rests hrests => exact ⟨core, hrests, .inr hP⟩
  | left hleft hrests => exact ⟨_, hrests, .inr ((hL _ _ hleft).symm ▸ hP)⟩
  | @runs core' hlocal hfares hruns =>
    refine ⟨core', hruns, ?_⟩
    cases hfares with
    | stays hsame => exact .inr ((Core.scheduler_of_contents hsame).symm ▸ hP)
    | halted hfaulted => exact .inl hfaulted
    | works hwork hsame =>
      exact .inr ((Core.scheduler_of_contents hsame).symm ▸ hW hlocal _ hwork)

theorem Coursed.tended (h : Coursed f W L k k') (hk : k.Tended)
    (hW : ∀ core, k.localCore? = some core → ∀ s, W core.drained.scheduler s →
      core.drained.scheduler.Tended → s.Tended)
    (hL : ∀ core core', L core core' → core'.scheduler = core.scheduler) : k'.Tended := by
  intro c core' hcore' hunfaulted
  obtain ⟨core, hcore, hcontinues⟩ := h.onward.cores c core' hcore'
  have hbefore : core.scheduler.Tended := by
    refine hk c core hcore (Bool.eq_false_iff.2 fun hfaulted => ?_)
    rw [hcontinues.faulted hfaulted] at hunfaulted
    cases hunfaulted
  have hworks : c = k.machine.currentCore → ∀ s, W core.drained.scheduler s → s.Tended := by
    rintro rfl s hwork
    exact hW core hcore s hwork (tended_drained hbefore)
  obtain ⟨core₁, hcore₁, hkept⟩ := h.keeps_scheduler hcore hbefore hworks hL
  obtain rfl := Option.some.inj (hcore'.symm.trans hcore₁)
  refine hkept.resolve_left fun hfaulted => ?_
  rw [hfaulted] at hunfaulted
  cases hunfaulted

/-! ### Bringing up a core -/

/-- The cores stay tended. -/
def Tending (k k' : Kernel) : Prop :=
  k.Numbered → Onward k k' ∧ (k.Tended → k'.Tended)

instance : Std.Refl Tending where
  refl k _ := ⟨.refl k, id⟩

instance : Trans Tending Tending Tending where
  trans {_ _ _} h h' hk :=
    have ⟨honward, htended⟩ := h hk
    have ⟨honward', htended'⟩ := h' (honward.numbered hk)
    ⟨honward.trans honward', fun hk => htended' (htended hk)⟩

theorem Respects.tending {x : Action α} (hx : Respects (Course f W L) x)
    (hW : ∀ s s', W s s' → s.Tended → s'.Tended)
    (hL : ∀ core core', L core core' → core'.scheduler = core.scheduler) : Respects Tending x :=
  hx.mono fun _ _ h hk =>
    ⟨(h hk).onward, fun htended => (h hk).tended htended (fun _ _ _ => hW _ _) hL⟩

theorem Respects.outside_tending {x : Action α} (hx : Respects (Outside f) x) :
    Respects Tending x :=
  hx.mono fun _ _ h _ => ⟨h.onward, fun htended => htended.of_cores h.cores⟩

theorem tending_setFlags (c : CoreId) (flags : CoreFlags) :
    Respects Tending (updateCore c fun core => core.setFlags flags) := by
  intro k _
  have honward := (beside_setFlags c flags k).toOnward
  refine ⟨honward, fun hk i core' hcore' hunfaulted => ?_⟩
  have hset : (k.perform (updateCore c fun core => core.setFlags flags)).2 =
      k.modifyCore c fun core => core.setFlags flags := rfl
  obtain ⟨core, hcore, hcontinues⟩ := honward.cores i core' hcore'
  have hbefore : core.scheduler.Tended := by
    refine hk i core hcore (Bool.eq_false_iff.2 fun hfaulted => ?_)
    rw [hcontinues.faulted hfaulted] at hunfaulted
    cases hunfaulted
  rw [hset, core?_modifyCore, hcore] at hcore'
  split at hcore' <;> cases hcore' <;> exact hbefore

theorem tending_place (task : Task) : Respects Tending (place task) :=
  (course_place (f := fun _ => ()) fun _ => rfl).tending (fun _ _ h => tended_accepts h)
    fun _ _ h => h.secluded.scheduler

/-- A core without tasks is tended when it has got its two servants. -/
theorem Coursed.tended_installs {idle cleanup : Task} {size : Nat}
    (h : Coursed f (Scheduler.Installs idle cleanup) (fun _ _ => False) k k') (hk : k.Tended)
    (hcore : k.localCore? = some core) (hsound : core.Sound size) (hnone : core.members = [])
    (hne : cleanup.id ≠ idle.id) : k'.Tended := by
  refine h.tended hk (fun core₁ hcore₁ s hinstalls hdrained => ?_) fun _ _ hleft => hleft.elim
  obtain rfl : core = core₁ := Option.some.inj (hcore.symm.trans hcore₁)
  cases hinstalls with
  | refuse => exact hdrained
  | install =>
    -- the core had no tasks, so both are new to its scheduler
    refine hdrained.coherent.tended_installServants (fun id => ?_) hne
    rw [← Bool.not_eq_true, hsound.contains_drained, hnone]
    exact List.not_mem_nil

/-- A core gets a cleanup task when it goes online. -/
theorem tended_bringUp (h : k.system.Sound []) (hk : k.Tended) :
    k.Gives bringUp Tended fun _ => Tended := by
  refine .localCore hk fun core hcore => ?_
  split
  · exact .pure hk
  rename_i hoffline
  have hfound : k.system.core? k.machine.currentCore = some core := hcore
  have hnone := (h.offline _ core hfound (Bool.not_eq_true _ ▸ hoffline)).members
  have hsound := (h.settled _ core hfound).sound
  refine .bind (Q := fun servants k₁ => Outside (fun _ => ()) k k₁ ∧
    servants.2.id ≠ servants.1.id) ?_ fun servants k₁ hbuilt => ?_
  · refine (Gives.of_respects (outside_buildServants fun _ _ => rfl)).ensuring
      (ensures_buildServants h) (fun e k₁ _ hout => hk.of_cores hout.cores)
      fun servants k₁ hbuilt hout => ⟨hout, servants_ne hbuilt.2⟩
  obtain ⟨hout, hne⟩ := hbuilt
  have hnumbered : k₁.Numbered := hout.onward.numbered h.ordinals
  have hinstalled : ∀ k₂, Course (fun _ => ()) (Scheduler.Installs servants.1 servants.2)
      (fun _ _ => False) k₁ k₂ → k₂.Numbered ∧ k₂.Tended := fun k₂ hcourse =>
    ⟨(hcourse hnumbered).onward.numbered hnumbered, (hcourse hnumbered).tended_installs
      (hk.of_cores hout.cores) (hout.localCore?.trans hcore) hsound hnone hne⟩
  refine .after (course_installServants _ _) (fun k₂ hcourse => (hinstalled k₂ hcourse).2)
    fun _ k₂ hcourse => ?_
  obtain ⟨hnumbered₂, htended₂⟩ := hinstalled k₂ hcourse
  -- from here on no scheduler is touched but by tasks that join
  have hrest : Respects Tending (do
      onDirectory fun d =>
        ((), (d.recordHome servants.1.id core.id).recordHome servants.2.id core.id)
      updateCore core.id fun c => c.setFlags { online := true }
      note (.online core.id core.apic servants.1.id servants.2.id)
      releaseParked) := by
    refine (outside_onDirectory (f := fun _ => ()) fun _ => ⟨rfl, rfl, rfl⟩).outside_tending.bind
      fun _ => (tending_setFlags _ _).bind fun _ =>
        (outside_note (f := fun _ => ()) _).outside_tending.bind fun _ => ?_
    refine (outside_onDirectory_of (f := fun _ => ()) fun _ => rfl).outside_tending.bind
      fun tasks => ?_
    exact .forM (fun task => (tending_place task).bind fun _ => .pure ()) tasks
  exact (Gives.of_respects hrest).mono (fun _ h => (h hnumbered₂).2 htended₂)
    fun _ _ h => (h hnumbered₂).2 htended₂

/-! ### One operation -/

/-- While a core takes over its inbox, the same tasks stay current and cleanup task. -/
theorem drained_same (h : k.system.Sound []) (hcore : k.localCore? = some core) :
    core.drained.scheduler.current = k.currentTask ∧
      core.drained.scheduler.cleanup = k.localCleanup := by
  have hsettled := h.settled _ core hcore
  have hdelivered := hsettled.sound.delivered.same
  have hmanned := hsettled.sound.manned
  rw [localCleanup, currentTask, hcore]
  exact ⟨(hdelivered.current.trans hmanned.current).trans hsettled.current.symm,
    hdelivered.cleanup.trans hmanned.cleanup⟩

/-- Work that keeps the cleanup task of a scheduler keeps that of the core. -/
theorem Coursed.localCleanup_eq (h : Coursed f W (fun _ _ => False) k k') (hk : k.system.Sound [])
    (hk' : k'.system.Sound []) (hW : ∀ core, k.localCore? = some core → ∀ s,
      W core.drained.scheduler s → s.cleanup = core.drained.scheduler.cleanup) :
    k'.localCleanup = k.localCleanup := by
  cases h.change with
  | rests hcores => rw [localCleanup, localCleanup, localCore?, localCore?, core?, core?, hcores,
      h.onward.currentCore]
  | left _ hleft => exact hleft.elim
  | @runs core core' hcore hfares hcores =>
    have hcore' : k'.localCore? = some core' := by
      rw [localCore?, h.onward.currentCore, core?_set hcore hcores, if_pos rfl]
    have hsame : ∀ core : Core, ∀ k : Kernel, k.localCore? = some core →
        k.localCleanup = core.scheduler.cleanup := by
      intro core k hcore
      rw [localCleanup, hcore]
      rfl
    rw [hsame core' k' hcore']
    cases hfares with
    | stays hkept =>
      rw [Core.scheduler_of_contents hkept]
      exact (hsame core k hcore).symm
    | halted hfaulted => exact absurd ⟨core', hcore', hfaulted⟩ (unfaulted_of_sound hk')
    | works hwork hkept =>
      rw [Core.scheduler_of_contents hkept]
      exact (hW core hcore _ hwork).trans (drained_same hk hcore).2

theorem tended_tryReceive (h : k.system.Sound []) (hk : k.Tended) (filter : Option Filter)
    (hwho : ∀ id, k.localCleanup = some id → k.currentTask ≠ some id) :
    (k.perform (tryReceive filter)).2.Tended ∧
      (k.perform (tryReceive filter)).2.localCleanup = k.localCleanup := by
  have hcoursed := course_tryReceive (f := fun _ => ()) (L := fun _ _ => False) filter k h.ordinals
  have hasks : ∀ core, k.localCore? = some core → ∀ id,
      core.drained.scheduler.cleanup = some id → core.drained.scheduler.current ≠ some id := by
    intro core hcore id hid
    obtain ⟨hcurrent, hcleanup⟩ := drained_same h hcore
    rw [hcurrent]
    exact hwho id (hcleanup.symm.trans hid)
  refine ⟨hcoursed.tended hk (fun core hcore s hdoes hdrained =>
    hdoes.tended hdrained fun _ => hasks core hcore) fun _ _ hleft => hleft.elim, ?_⟩
  refine hcoursed.localCleanup_eq h (ensures_tryReceive h filter k rfl).sound
    fun core hcore s hdoes => ?_
  have hco := (h.settled _ core hcore).sound.drained.coherent
  cases hdoes with
  | rest => rfl
  | receive => exact (hco.tends_receive (hasks core hcore) filter).cleanup

/-- Each try is made in the name of the task that is current by then. -/
theorem tended_receiveWithin (tries : Nat) (h : k.system.Sound []) (hk : k.Tended)
    {filter : Option Filter} (hwho : ∀ id, k.localCleanup = some id →
      some id ∉ (asksWithin tries filter k).map Inquiry.task) :
    (k.perform (receiveWithin tries filter)).2.Tended := by
  induction tries generalizing k with
  | zero => exact hk
  | succ tries ih =>
    rw [asksWithin] at hwho
    obtain ⟨htended, hcleanup⟩ := tended_tryReceive h hk filter fun id hid he =>
      hwho id hid (List.mem_cons.2 (.inl he.symm))
    have hsound := (ensures_tryReceive h filter k rfl).sound
    rw [receiveWithin, perform_bind]
    rcases htry : k.perform (tryReceive filter) with ⟨e | _ | message, k'⟩
    all_goals rw [htry] at htended hcleanup hsound hwho
    -- another task may be current by now, but the cleanup task is the same
    · exact htended
    · refine ih hsound htended fun id hid hin => hwho id (hcleanup.symm.trans hid) ?_
      exact List.mem_cons_of_mem _ hin
    · exact htended

theorem tended_step (h : k.system.Sound []) (hk : k.Tended) {operation : Operation}
    (hwho : ∀ id, k.localCleanup = some id → some id ∉ k.waiters operation) :
    (k.step operation).2.Tended := by
  cases hsingle : operation.isSingle with
  | true =>
    have hspares : operation.Spares fun _ => () := by cases operation <;> simp [Operation.Spares]
    refine (course_actionOf hsingle hspares k h.ordinals).tended hk
      (fun core hcore s hdoes hdrained => hdoes.tended hdrained fun hwaits id hid he => ?_)
      fun _ _ hleft => hleft.secluded.scheduler
    obtain ⟨hcurrent, hcleanup⟩ := drained_same h hcore
    refine hwho id (hcleanup.symm.trans hid) ?_
    rw [← he, hcurrent]
    exact currentTask_mem_waiters hsingle hwaits
  | false =>
    cases operation with
    | bringUp =>
      rw [step_bringUp]
      exact (tended_bringUp h hk).always
    | receive filter =>
      rw [step_receive]
      exact tended_receiveWithin _ h hk hwho
    | turnTo _ => exact hk
    | _ => cases hsingle

/-- While the cleanup tasks attend to their work, no task that is over is stranded. -/
theorem Reachable.tended_run (h : k.Reachable) (hk : k.Tended) {operations : List Operation}
    (hattends : k.Attends operations) : (k.run operations).Tended := by
  induction operations generalizing k with
  | nil => exact hk
  | cons operation rest ih =>
    rw [h.run_cons]
    exact ih (h.step operation) (tended_step h.sound hk hattends.1) hattends.2

end Microkernel.Kernel
