/-
The cleanup task of a core is parked.

A cleanup task that has reclaimed every task that was over is parked until another one ends. It is
parked as a task that waits for mail, and that wait looks at the mailbox as it is.

* **`Operation.Does.atRest`**: no work on a scheduler disturbs a cleanup task that is at rest;
* **`Reachable.atRest_run`**: so it rests until a task ends on its core, it is woken by its name, or
  it gets mail;
* **`park_lasts`**: a cleanup task is at rest once it is parked, if its mailbox is empty by then; if
  it is not, a tick readies it, although nothing has come;
* **`park_undone`**: that is what happens after a ping that the cleanup task leaves in its mailbox.

Design notes: what ends the rest on purpose is said of the operations of a run (`LetsRest`), but for
mail, which may come with any operation. It is counted at the end instead.
-/
import Microkernel.Proofs.Kernel.Population
import Microkernel.Proofs.Kernel.Reschedules
import Microkernel.Proofs.Kernel.Tending
import Microkernel.Proofs.Scheduler.Parking

namespace Microkernel.Kernel

variable {γ : Type} {s : System} {hand : List Task} {k k' : Kernel} {f : Books → γ}
  {W : Scheduler → Scheduler → Prop} {L : Core → Core → Prop} {c : CoreId} {core : Core}
  {id : TaskId} {n : Nat}

/-! ### Work on a scheduler -/

theorem atRest_drained (h : core.scheduler.AtRest id n) : core.drained.scheduler.AtRest id n :=
  (h.joinAll core.inbox.tasks).deliverAll [] core.inbox.mail

theorem atRest_accepts {task : Task} {before now : Scheduler}
    (h : Scheduler.Accepts task before now) (hb : before.AtRest id n) : now.AtRest id n := by
  cases h with
  | refuse => exact hb
  | join => exact (hb.schedule task).reschedule

/-- Work leaves a cleanup task at rest, if it does not wake it and no task ends. -/
theorem Operation.Does.atRest {operation : Operation} {before now : Scheduler} {size : Nat}
    (h : operation.Does before now) (hb : before.AtRest id n) (hmail : before.SoundMail size)
    (hwake : operation ≠ .wake id) (hexit : operation = .exit → before.exit.1.isOk = false) :
    now.AtRest id n := by
  cases h with
  | rest => exact hb
  | start => exact hb.start
  | startAsked => exact hb.start
  | turn => exact hb.reschedule
  | tick => exact hb.tick
  | sleep => exact hb.block _
  | wake _ task => exact (hb.wake fun e => hwake (by rw [e])).reschedule
  | changePriority => exact hb.changePriority _ _
  | exit => exact hb.exit_of_failed (hexit rfl)
  | reap => exact hb.reap
  | park => exact hb.block _
  | deliver => exact hb.deliver _ _
  | hand => exact (hb.deliver _ _).reschedule
  | receive => exact hb.receive hmail _
  | spawn _ _ _ _ h => exact atRest_accepts h hb
  | spawnUser _ _ _ _ _ h => exact atRest_accepts h hb

/-! ### A core whose cleanup task is at rest -/

/-- The cleanup task of the core is at rest. -/
def AtRest (k : Kernel) (c : CoreId) (id : TaskId) (n : Nat) : Prop :=
  ∃ core, k.core? c = some core ∧ core.scheduler.AtRest id n

/-- The task is not woken by its name, and no task ends on the core. -/
def LetsRest (c : CoreId) (id : TaskId) : Kernel → List Operation → Prop
  | _, [] => True
  | k, operation :: rest =>
    operation ≠ .wake id ∧ (k.machine.currentCore = c → k.ends operation = none) ∧
      LetsRest c id (k.step operation).2 rest

instance decidableLetsRest (c : CoreId) (id : TaskId) :
    (k : Kernel) → (operations : List Operation) → Decidable (LetsRest c id k operations)
  | _, [] => .isTrue trivial
  | k, operation :: rest =>
    have := decidableLetsRest c id (k.step operation).2 rest
    inferInstanceAs (Decidable (operation ≠ .wake id ∧
      (k.machine.currentCore = c → k.ends operation = none) ∧
        LetsRest c id (k.step operation).2 rest))

/-- A call leaves the cleanup task at rest, if its work does. -/
theorem Coursed.atRest (h : Coursed f W L k k') (hk' : k'.system.Sound hand)
    (hrest : k.AtRest c id n)
    (hW : ∀ core, k.localCore? = some core → c = k.machine.currentCore → ∀ s,
      W core.drained.scheduler s → core.drained.scheduler.AtRest id n → s.AtRest id n)
    (hL : ∀ core core', L core core' → core'.scheduler = core.scheduler) : k'.AtRest c id n := by
  obtain ⟨core, hcore, hbefore⟩ := hrest
  have hworks : c = k.machine.currentCore → ∀ s, W core.drained.scheduler s → s.AtRest id n := by
    rintro rfl s hwork
    exact hW core hcore rfl s hwork (atRest_drained hbefore)
  obtain ⟨core', hcore', hkept⟩ := h.keeps_scheduler hcore hbefore hworks hL
  -- a single call may leave a faulted core behind, but not in a sound system
  exact ⟨core', hcore',
    hkept.resolve_left fun hfaulted => unfaulted_of_sound hk' ⟨core', hcore', hfaulted⟩⟩

/-- An exit that the scheduler grants is answered with the task. -/
theorem ensures_exit_answers (h : s.Sound hand) (hcore : s.core? s.currentCore = some core) :
    Ensures s exit fun r _ => core.drained.scheduler.exit.1.isOk = true → ∃ id, r = .ok id := by
  refine ensures_exit_of h hcore (fun hrefused hok => ?_) fun id _ _ _ _ _ _ _ _ => ⟨id, rfl⟩
  rw [hrefused] at hok
  cases hok

theorem exit_failed_of_ends (h : k.system.Sound hand) (hcore : k.localCore? = some core)
    (hends : k.ends .exit = none) : core.drained.scheduler.exit.1.isOk = false := by
  rw [← Bool.not_eq_true]
  intro hok
  obtain ⟨id, hid⟩ := ensures_exit_answers h hcore k rfl hok
  have hstep : k.step .exit = k.perform (exit >>= fun id => return .task id) := rfl
  rw [ends, hstep, perform_bind] at hends
  rcases hr : k.perform exit with ⟨r, k'⟩
  rw [hr] at hid hends
  subst hid
  cases hends

/-! ### One operation -/

/-- A try to receive disturbs nobody. -/
theorem atRest_tryReceive (h : k.system.Sound []) (hrest : k.AtRest c id n)
    (filter : Option Filter) : (k.perform (tryReceive filter)).2.AtRest c id n := by
  have hcoursed := course_tryReceive (f := fun _ => ()) (L := fun _ _ => False) filter k h.ordinals
  refine hcoursed.atRest (ensures_tryReceive h filter k rfl).sound hrest
    (fun core hcore _ s hdoes hdrained => ?_) fun _ _ hleft => hleft.elim
  exact hdoes.atRest hdrained (h.settled _ core hcore).sound.drained.mailboxes
    (fun e => by cases e) fun e => by cases e

/-- A core that is not online has no tasks, and one that is online is not brought up again. -/
theorem atRest_bringUp (h : k.Reachable) (hrest : k.AtRest c id n) :
    (k.step .bringUp).2.AtRest c id n := by
  obtain ⟨core, hcore, hbefore⟩ := hrest
  by_cases hlocal : c = k.machine.currentCore
  · subst hlocal
    have honline : core.isOnline = true := by
      rw [← Bool.not_eq_false]
      intro hoffline
      have hin : id ∈ core.members := (Core.mem_members_iff id).2 (.inl hbefore.contains)
      rw [(h.sound.offline _ core hcore hoffline).members] at hin
      cases hin
    rw [step_bringUp_of_online hcore honline]
    exact ⟨core, hcore, hbefore⟩
  · have hown : Own k (k.perform bringUp).2 := (own_bringUp h.sound).always
    exact ⟨core, by rw [step_bringUp, hown.others c hlocal, hcore], hbefore⟩

theorem atRest_step (h : k.Reachable) (hrest : k.AtRest c id n) {operation : Operation}
    (hwake : operation ≠ .wake id)
    (hends : k.machine.currentCore = c → k.ends operation = none) :
    (k.step operation).2.AtRest c id n := by
  have hsound := h.sound
  cases hsingle : operation.isSingle with
  | true =>
    have hspares : operation.Spares fun _ => () := by cases operation <;> simp [Operation.Spares]
    refine (course_actionOf hsingle hspares k hsound.ordinals).atRest (h.step operation).sound hrest
      (fun core hcore hlocal s hdoes hdrained => ?_) fun _ _ hleft => hleft.secluded.scheduler
    have hmail := (hsound.settled _ core hcore).sound.drained.mailboxes
    refine hdoes.atRest hdrained hmail hwake fun hexit => ?_
    subst hexit
    exact exit_failed_of_ends hsound hcore (hends hlocal.symm)
  | false =>
    -- two of these make several calls, and each of those keeps the cleanup task at rest
    cases operation with
    | bringUp => exact atRest_bringUp h hrest
    | receive filter =>
      rw [step_receive]
      have hkept : ∀ k₁ : Kernel, k₁.system.Sound [] ∧ k₁.AtRest c id n →
          (k₁.perform (tryReceive filter)).2.system.Sound [] ∧
            (k₁.perform (tryReceive filter)).2.AtRest c id n := by
        rintro k₁ ⟨hk₁, hrest₁⟩
        exact ⟨(ensures_tryReceive hk₁ filter k₁ rfl).sound, atRest_tryReceive hk₁ hrest₁ filter⟩
      exact (receiveWithin_keeps hkept _ ⟨hsound, hrest⟩).2
    | turnTo _ => exact hrest
    | _ => cases hsingle

/-- The cleanup task rests until a task ends on its core, it is woken by its name, or it gets
mail. -/
theorem Reachable.atRest_run (h : k.Reachable) (hrest : k.AtRest c id n)
    {operations : List Operation} (hlets : k.LetsRest c id operations) :
    (k.run operations).AtRest c id n := by
  induction operations generalizing k with
  | nil => exact hrest
  | cons operation rest ih =>
    obtain ⟨hwake, hends, hlets⟩ := hlets
    rw [h.run_cons]
    exact ih (h.step operation) (atRest_step h hrest hwake hends) hlets

/-! ### Parking -/

/-- The cleanup task is blocked in the end, if no task waits to be reclaimed. -/
theorem ensures_parkCleanup_blocks (h : k.system.Sound []) (hcore : k.localCore? = some core)
    (hcurrent : k.currentTask = some id) (hcleanup : k.localCleanup = some id)
    (hnone : core.scheduler.exited = []) :
    Ensures k.system parkCleanup fun r s' => r = .ok () ∧
      s' = k.system.withCore k.machine.currentCore
        (core.after (core.drained.scheduler.block (.mail none)).2) := by
  have hcore : k.system.core? k.system.currentCore = some core := hcore
  obtain ⟨hcurrent', hcleanup'⟩ := drained_same h hcore
  rw [hcurrent] at hcurrent'
  rw [hcleanup] at hcleanup'
  have hexited := (h.settled _ core hcore).sound.exited_drained.trans hnone
  have hco := coherent_drained h hcore
  have hworking := hco.working?_of_cleanup hcleanup' hcurrent'
  refine ensures_locked_sound h (fun hno => nomatch hno.symm.trans hcore) fun core₁ hcore₁ => ?_
  obtain rfl : core = core₁ := Option.some.inj (hcore.symm.trans hcore₁)
  refine Ensures.bind (Ensures.coreAt (core?_drained hcore) ?_)
  dsimp only
  rw [hcleanup']
  dsimp only
  rw [if_pos hcurrent']
  refine Ensures.pure (Ensures.coreAt (core?_drained hcore) ?_)
  rw [hexited, List.isEmpty_nil, if_pos rfl]
  have hblock := (Prod.eta (core.drained.scheduler.block (.mail none))).symm
  rcases hco.block hblock with ⟨-, hno, -⟩ | ⟨switch, hok, -, hres, -⟩
  · rw [hworking] at hno
    cases hno
  · refine Ensures.bind ((ensures_askScheduler hcore hblock).mono ?_)
    rintro r s₁ ⟨rfl, rfl⟩
    rw [hok]
    exact Ensures.pure (Locked.ok hres ⟨rfl, rfl⟩)

theorem step_parkCleanup (h : k.system.Sound []) (hcore : k.localCore? = some core)
    (hcurrent : k.currentTask = some id) (hcleanup : k.localCleanup = some id)
    (hnone : core.scheduler.exited = []) :
    (k.step .parkCleanup).1 = .ok .done ∧
      ∃ core', (k.step .parkCleanup).2.core? k.machine.currentCore = some core' ∧
        core'.scheduler = (core.drained.scheduler.block (.mail none)).2 := by
  obtain ⟨hok, hsystem⟩ := ensures_parkCleanup_blocks h hcore hcurrent hcleanup hnone k rfl
  have hstep : k.step .parkCleanup = k.perform (parkCleanup >>= fun _ => return .done) := rfl
  rw [hstep, perform_bind]
  rcases hr : k.perform parkCleanup with ⟨r, k'⟩
  rw [hr] at hok hsystem
  dsimp only at hok hsystem
  subst hok
  refine ⟨rfl, core.after (core.drained.scheduler.block (.mail none)).2, ?_, rfl⟩
  have hcore : k.system.core? k.machine.currentCore = some core := hcore
  show k'.system.core? k.machine.currentCore = _
  rw [hsystem]
  exact System.core?_withCore_self hcore _

/-- Parking the cleanup task works if no task waits to be reclaimed. If the mailbox of the cleanup
task is empty once its core has taken over its inbox, the cleanup task is blocked and not current
then, and stays so in every run, until a task ends on its core, it is woken by its name, or its
mailbox accepts a message. If there is a message in its mailbox, it is ready by the next tick. -/
theorem park_lasts (h : k.Reachable) (hcore : k.localCore? = some core)
    (hcurrent : k.currentTask = some id) (hcleanup : k.localCleanup = some id)
    (hnone : core.scheduler.exited = []) :
    let parked := (k.step .parkCleanup).2
    let accepted := core.drained.scheduler.accepted id
    (k.step .parkCleanup).1 = .ok .done ∧
      (core.drained.scheduler.box id = [] →
        (∃ core', parked.core? k.machine.currentCore = some core' ∧
          core'.scheduler.Withdrawn id ∧ core'.scheduler.accepted id = accepted) ∧
        ∀ operations, parked.LetsRest k.machine.currentCore id operations →
          ∃ core', (parked.run operations).core? k.machine.currentCore = some core' ∧
            accepted ≤ core'.scheduler.accepted id ∧
            (core'.scheduler.accepted id = accepted → core'.scheduler.Withdrawn id)) ∧
      (core.drained.scheduler.box id ≠ [] →
        ∃ core', parked.core? k.machine.currentCore = some core' ∧
          (core'.scheduler.started = true → id ∈ core'.scheduler.tick.2.ready.toList)) := by
  intro parked accepted
  have hsound := (h.sound.settled _ core hcore).sound.drained
  have hco := hsound.coherent
  obtain ⟨hcurrent', hcleanup'⟩ := drained_same h.sound hcore
  rw [hcurrent] at hcurrent'
  rw [hcleanup] at hcleanup'
  obtain ⟨t, ht⟩ := Option.isSome_iff_exists.1 (hco.contains_cleanup hcleanup')
  have ht : core.drained.scheduler.task? id = some t := ht
  have hunread : t.mailbox.unread = (core.drained.scheduler.box id).length := by
    rw [(hsound.mailboxes id t ht).1.unread_eq, Scheduler.box, ht]
    rfl
  obtain ⟨hok, core', hcore', hblocked⟩ :=
    step_parkCleanup h.sound hcore hcurrent hcleanup hnone
  refine ⟨hok, fun hempty => ?_, fun hmail => ⟨core', hcore', fun hstarted => ?_⟩⟩
  -- what was accepted before the park is what the later counts are compared with
  · rw [hempty, List.length_nil] at hunread
    obtain ⟨hrest, hnew⟩ := hco.atRest_park hcleanup' hcurrent' ht hunread
    rw [← Scheduler.accepted_of_task? ht, ← hblocked] at hrest hnew
    refine ⟨⟨core', hcore', hrest.withdrawn hnew, hnew⟩, fun operations hlets => ?_⟩
    obtain ⟨core'', hcore'', hrest'⟩ :=
      (h.step .parkCleanup).atRest_run ⟨core', hcore', hrest⟩ hlets
    exact ⟨core'', hcore'', hrest'.accepted, hrest'.withdrawn⟩
  · rw [hblocked] at hstarted ⊢
    refine hco.ready_tick_park hcleanup' hcurrent' ht (fun hunread' => hmail ?_) hstarted
    rwa [hunread, List.length_eq_zero_iff] at hunread'

/-- Dispatching has begun with the cleanup task, which shares its core with a task. -/
def idling : Kernel :=
  pair.run [.bringUp, .spawn "other" 0x1000 .other, .start]

/-- The other task goes to sleep, the idle task fails to end, and the clock wakes the other task. -/
def undisturbed : List Operation :=
  [.tick, .sleep 10, .exit, .tick, .tick]

theorem park_lasts_idling : ∃ core,
    ((idling.step .parkCleanup).2.run undisturbed).core? 0 = some core ∧
      core.scheduler.Withdrawn 1 := by
  have hreachable : idling.Reachable := (Reachable.new new_pair).run _
  have hlocal : idling.machine.currentCore = 0 := by decide +kernel
  have hcurrent : idling.currentTask = some 1 := by decide +kernel
  have hcleanup : idling.localCleanup = some 1 := by decide +kernel
  have hlets : (idling.step .parkCleanup).2.LetsRest 0 1 undisturbed := by decide +kernel
  have hfound : (idling.localCore?.map fun core => (core.scheduler.exited,
      core.drained.scheduler.box 1, core.drained.scheduler.accepted 1)) = some ([], [], 0) := by
    decide +kernel
  have hend : (((idling.step .parkCleanup).2.run undisturbed).core? 0).map
      (fun core => core.scheduler.accepted 1) = some 0 := by
    decide +kernel
  obtain ⟨core, hcore, hfound⟩ := Option.map_eq_some_iff.1 hfound
  obtain ⟨hnone, hfound⟩ := Prod.mk.inj hfound
  obtain ⟨hempty, haccepted⟩ := Prod.mk.inj hfound
  obtain ⟨-, hlasts, -⟩ := park_lasts hreachable hcore hcurrent hcleanup hnone
  rw [hlocal, haccepted] at hlasts
  obtain ⟨core', hcore', -, hwithdrawn⟩ := (hlasts hempty).2 undisturbed hlets
  rw [hcore'] at hend
  exact ⟨core', hcore', hwithdrawn (Option.some.inj hend)⟩

/-- The cleanup task has sent itself a ping when it is parked. Nobody wakes it, no task ends, and no
mail comes, but the next tick makes it current. -/
theorem park_undone :
    let pinged := idling.run [.send (.task 1) (.scheduler (.ping 1))]
    let parked := (pinged.step .parkCleanup).2
    let ticked := parked.run [.tick]
    pinged.Reachable ∧ pinged.currentTask = some 1 ∧ pinged.localCleanup = some 1 ∧
      pinged.localCore?.map (fun core => core.scheduler.exited) = some [] ∧
      (pinged.step .parkCleanup).1 = .ok .done ∧
      (parked.core? 0).map (fun core => decide (core.scheduler.Withdrawn 1)) = some true ∧
      parked.LetsRest 0 1 [.tick] ∧
      (ticked.core? 0).map (fun core => core.scheduler.accepted 1) =
        (parked.core? 0).map (fun core => core.scheduler.accepted 1) ∧
      (ticked.core? 0).map (fun core => decide (core.scheduler.Withdrawn 1)) = some false ∧
      ticked.currentTask = some 1 :=
  ⟨((Reachable.new new_pair).run _).run _, by decide +kernel⟩

end Microkernel.Kernel
