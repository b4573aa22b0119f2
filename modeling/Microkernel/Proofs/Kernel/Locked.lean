/-
Operations that only move tasks.

`Preserves s hand d gone r s'` collects what an operation owes to the system: no core stops and no
record is found broken, the invariant holds again, and no message is lost. Ticks, sleeping, waking,
the begin of dispatching and the work of the cleanup task are shown to keep that promise with
nothing accepted, returned or gone.

* **`ensures_locked_sound`**: the rule for operations under the lock that change one scheduler;
* **`Preserves.rearranged`**: the case of an operation that only moves tasks.
-/
import Microkernel.Proofs.Kernel.Dispatch
import Microkernel.Proofs.Kernel.System
import Microkernel.Proofs.Task.Launch

namespace Microkernel.Kernel

variable {α β : Type} {s : System} {hand : List Task} {c : CoreId} {core : Core}

/-- The result says neither that a core halted nor that a record was found broken. -/
def Harmless : Except Stop α → Prop
  | .ok _ => True
  | .error (.failed e) => e.isFatal = false
  | .error (.halted _) => False

/-- The outcome keeps the invariant, and the mail is accounted for. -/
structure Preserves (s : System) (hand : List Task) (d : TaskId → Delivery) (gone : Option TaskId)
    (r : Except Stop α) (s' : System) : Prop where
  harmless : Harmless r
  config : s'.config = s.config
  sound : s'.Sound hand
  passes : s.Passes s.config.mailboxSize d gone s'

theorem Preserves.same {r : Except Stop α} (h : s.Sound hand) (hr : Harmless r) :
    Preserves s hand Core.nothing none r s :=
  ⟨hr, rfl, h, System.Passes.refl s⟩

/-- An error stays the same for a caller who waits for another result. -/
theorem Preserves.error {e : Stop} {s' : System} {d : TaskId → Delivery} {gone : Option TaskId}
    (h : Preserves s hand d gone (.error e : Except Stop α) s') :
    Preserves s hand d gone (.error e : Except Stop β) s' :=
  ⟨by cases e <;> exact h.harmless, h.config, h.sound, h.passes⟩

theorem Preserves.ok {r : Except Stop α} {b : β} {s' : System} {d : TaskId → Delivery}
    {gone : Option TaskId} (h : Preserves s hand d gone r s') :
    Preserves s hand d gone (.ok b : Except Stop β) s' :=
  ⟨trivial, h.config, h.sound, h.passes⟩

/-- An action that loses nothing, and another after it. -/
theorem Preserves.trans {r : Except Stop α} {r' : Except Stop β} {s₁ s₂ : System}
    {hand' : List Task} {d : TaskId → Delivery} {gone : Option TaskId}
    (h : Preserves s hand Core.nothing none r s₁) (h' : Preserves s₁ hand' d gone r' s₂) :
    Preserves s hand' d gone r' s₂ := by
  have hpasses := h'.passes
  rw [h.config] at hpasses
  exact ⟨h'.harmless, h'.config.trans h.config, h'.sound, h.passes.quiet_trans hpasses⟩

/-- One core made a step. -/
theorem Preserves.step {r : Except Stop α} {core' : Core} {d : TaskId → Delivery}
    (h : s.Sound hand) (hcore : s.core? c = some core) (hr : Harmless r)
    (hstep : Core.Step s.config.mailboxSize d none [] core core')
    (hd : ∀ id, id ∉ core.members → d id = {}) :
    Preserves s hand d none r (s.withCore c core') :=
  have hpasses : s.Passes s.config.mailboxSize d none
      ((s.withDirectory s.directory).withCore c core') :=
    h.passes_withCore hcore hstep.carries hd fun _ _ hi _ => hi
  ⟨hr, rfl, h.withCore hcore hstep, hpasses⟩

theorem Preserves.rearranged {r : Except Stop α} {scheduler : Scheduler} (h : s.Sound hand)
    (hcore : s.core? c = some core) (hr : Harmless r) (hco : scheduler.Coherent)
    (hmoved : Scheduler.Rearranged core.drained.scheduler scheduler) :
    Preserves s hand Core.nothing none r (s.withCore c (core.after scheduler)) :=
  .step h hcore hr ((h.settled c core hcore).step_rearranged hco hmoved) fun _ _ => rfl

/-! ### The lock -/

/-- The operation has changed the scheduler of the core and nothing else; what is shown to the
others then satisfies `post`, and the switch that is asked for can be made. -/
def Locked (s : System) (c : CoreId) (core : Core) (post : Except Stop α → System → Prop)
    (r : Except Stop (α × Option Switch)) (s₁ : System) : Prop :=
  ∃ scheduler, s₁ = s.withCore c { core.drained with scheduler := scheduler } ∧
    match r with
    | .ok (value, switch) => scheduler.Resolved switch ∧
        post (.ok value) (s.withCore c (core.after scheduler))
    | .error (.failed e) => e.isFatal = false ∧
        post (.error (.failed e)) (s.withCore c (core.after scheduler))
    | .error (.halted _) => False

theorem Locked.ok {post : Except Stop α → System → Prop} {scheduler : Scheduler} {value : α}
    {switch : Option Switch} (hres : scheduler.Resolved switch)
    (hpost : post (.ok value) (s.withCore c (core.after scheduler))) :
    Locked s c core post (.ok (value, switch))
      (s.withCore c { core.drained with scheduler := scheduler }) :=
  ⟨scheduler, rfl, hres, hpost⟩

theorem Locked.error {post : Except Stop α → System → Prop} {scheduler : Scheduler} {e : Error}
    (he : e.isFatal = false)
    (hpost : post (.error (.failed e)) (s.withCore c (core.after scheduler))) :
    Locked s c core post (.error (.failed e))
      (s.withCore c { core.drained with scheduler := scheduler }) :=
  ⟨scheduler, rfl, he, hpost⟩

/-- An operation under the lock that changes the scheduler of its core and nothing else. -/
theorem ensures_locked_at {size : Nat} (hcore : s.core? s.currentCore = some core)
    (hid : core.id = s.currentCore) (hsound : core.Sound size)
    {operation : CoreId → Action (α × Option Switch)} {post : Except Stop α → System → Prop}
    (hop : Ensures (s.withCore s.currentCore core.drained) (operation s.currentCore)
      (Locked s s.currentCore core post)) : Ensures s (locked operation) post := by
  refine ensures_locked hcore hid hsound ?_
  rw [hid]
  refine hop.mono fun r s₁ hr => ?_
  obtain ⟨scheduler, rfl, hpost⟩ := hr
  have hget := System.core?_withCore_self hcore { core.drained with scheduler := scheduler }
  match r with
  | .ok (value, switch) =>
    refine ⟨_, hget, hpost.1, ?_⟩
    rw [System.withCore_withCore]
    exact hpost.2
  | .error (.failed e) =>
    refine ⟨hpost.1, _, hget, ?_⟩
    rw [System.withCore_withCore]
    exact hpost.2
  | .error (.halted _) => exact hpost

theorem ensures_locked_sound (h : s.Sound hand)
    {operation : CoreId → Action (α × Option Switch)} {post : Except Stop α → System → Prop}
    (hnone : s.core? s.currentCore = none → post (.error (.failed .invalidCore)) s)
    (hop : ∀ core, s.core? s.currentCore = some core →
      Ensures (s.withCore s.currentCore core.drained) (operation s.currentCore)
        (Locked s s.currentCore core post)) : Ensures s (locked operation) post := by
  cases hcore : s.core? s.currentCore with
  | none => exact ensures_locked_none hcore (hnone hcore)
  | some core =>
    exact ensures_locked_at hcore (h.ordinals _ core hcore) (h.settled _ core hcore).sound
      (hop core hcore)

/-- The core as it is found under the lock. -/
theorem core?_drained (hcore : s.core? c = some core) :
    (s.withCore c core.drained).core? c = some core.drained :=
  System.core?_withCore_self hcore _

section Scheduler

variable {before scheduler : Scheduler}

/-- An operation of the scheduler under the lock. -/
theorem ensures_onScheduler (hcore : s.core? c = some core) {g : Scheduler → α × Scheduler}
    {a : α} (hg : g before = (a, scheduler)) :
    Ensures (s.withCore c { core.drained with scheduler := before }) (onScheduler c g)
      fun r s₁ => r = .ok a ∧
        s₁ = s.withCore c { core.drained with scheduler := scheduler } := by
  refine Ensures.onScheduler (System.core?_withCore_self hcore _) g ?_
  rw [hg, System.withCore_withCore]
  exact ⟨rfl, rfl⟩

/-- An operation of the scheduler that may fail. -/
theorem ensures_askScheduler (hcore : s.core? c = some core)
    {g : Scheduler → Except Error α × Scheduler} {result : Except Error α}
    (hg : g before = (result, scheduler)) :
    Ensures (s.withCore c { core.drained with scheduler := before }) (askScheduler c g)
      fun r s₁ => r = result.mapError .failed ∧
        s₁ = s.withCore c { core.drained with scheduler := scheduler } := by
  refine Ensures.bind_ok (ensures_onScheduler hcore hg) (Ensures.ofExcept ?_)
  cases result <;> exact ⟨rfl, rfl⟩

/-- An operation of the scheduler that may fail and is reported. -/
theorem ensures_request (hcore : s.core? c = some core)
    {operation : Scheduler.Operation} {g : Scheduler → Except Error α × Scheduler}
    {answer : α → Scheduler.Answer} {result : Except Error α}
    (hg : g before = (result, scheduler)) :
    Ensures (s.withCore c { core.drained with scheduler := before }) (request c operation g answer)
      fun r s₁ => r = result.mapError .failed ∧
        s₁ = s.withCore c { core.drained with scheduler := scheduler } := by
  refine Ensures.request (System.core?_withCore_self hcore _) _ _ _ ?_
  dsimp only
  rw [hg, System.withCore_withCore]
  cases result <;> exact ⟨rfl, rfl⟩

theorem ensures_enqueue (hcore : s.core? c = some core) {task : Task} {result : Except Error Unit}
    (hs : before.schedule task = (result, scheduler)) :
    Ensures (s.withCore c { core.drained with scheduler := before }) (enqueue c task)
      fun r s₁ => r = result.mapError .failed ∧
        s₁ = s.withCore c { core.drained with scheduler := scheduler } := by
  rw [enqueue]
  exact ensures_request hcore hs

end Scheduler

/-- Under the lock, the scheduler is coherent. -/
theorem coherent_drained (h : s.Sound hand) (hcore : s.core? c = some core) :
    core.drained.scheduler.Coherent :=
  (h.settled c core hcore).sound.drained.coherent

/-- Nothing was done under the lock but to drain the inbox. -/
theorem Preserves.drained {r : Except Stop α} (h : s.Sound hand) (hcore : s.core? c = some core)
    (hr : Harmless r) :
    Preserves s hand Core.nothing none r
      (s.withCore c (core.after core.drained.scheduler)) :=
  .rearranged h hcore hr (coherent_drained h hcore) (.refl _)

/-! ### Operations that move tasks -/

/-- An operation of the scheduler that only moves tasks and may ask for a switch. -/
theorem ensures_dispatch (h : s.Sound hand) (hcore : s.core? c = some core) (a : α)
    {g : Scheduler → Option Switch × Scheduler}
    (hg : ∀ s switch s', s.Coherent → g s = (switch, s') →
      s'.Coherent ∧ s'.Resolved switch ∧ Scheduler.Rearranged s s') :
    Ensures (s.withCore c core.drained) (do return (a, ← onScheduler c g))
      (Locked s c core (Preserves s hand Core.nothing none)) := by
  rcases hgs : g core.drained.scheduler with ⟨switch, scheduler⟩
  obtain ⟨hco, hres, hr⟩ := hg _ _ _ (coherent_drained h hcore) hgs
  refine Ensures.bind_ok (ensures_onScheduler hcore hgs) (Ensures.pure (Locked.ok hres ?_))
  exact .rearranged h hcore trivial hco hr

theorem ensures_reschedule (h : s.Sound hand) :
    Ensures s (handleInterrupt .reschedule) (Preserves s hand Core.nothing none) := by
  rw [handleInterrupt]
  refine ensures_locked_sound h (fun _ => .same h rfl) fun core hcore => ?_
  exact ensures_dispatch h hcore () fun _ _ _ hco hs => hco.reschedule hs

theorem ensures_tick (h : s.Sound hand) :
    Ensures s tick (Preserves s hand Core.nothing none) := by
  refine ensures_locked_sound h (fun _ => .same h rfl) fun core hcore => ?_
  refine Ensures.coreAt (core?_drained hcore) ?_
  dsimp only
  split
  · rcases ht : core.drained.scheduler.tick with ⟨switch, scheduler⟩
    obtain ⟨hco, hres, hr⟩ := (coherent_drained h hcore).tick ht
    refine Ensures.quiet (quiet_tally _ _) fun _ =>
      Ensures.bind_ok (ensures_onScheduler hcore ht) ?_
    refine Ensures.coreAt (System.core?_withCore_self hcore _) ?_
    exact Ensures.quiet (quiet_tally _ _) fun _ =>
      Ensures.pure (Locked.ok hres (.rearranged h hcore trivial hco hr))
  · exact Ensures.pure (Locked.ok (Scheduler.resolved_none _) (.drained h hcore trivial))

/-- Blocking the current task. -/
theorem block_cases (h : s.Sound hand) (hcore : s.core? c = some core) (reason : BlockReason) :
    ∃ result scheduler, core.drained.scheduler.block reason = (result, scheduler) ∧
      scheduler.Coherent ∧ Scheduler.Rearranged core.drained.scheduler scheduler ∧
      match result with
      | .ok switch => scheduler.Resolved switch
      | .error e => e.isFatal = false := by
  have hco := coherent_drained h hcore
  rcases hb : core.drained.scheduler.block reason with ⟨result, scheduler⟩
  rcases hco.block hb with ⟨rfl, -, rfl⟩ | ⟨switch, rfl, hco', hres, hr⟩
  · exact ⟨_, _, rfl, hco, .refl _, rfl⟩
  · exact ⟨_, _, rfl, hco', hr, hres⟩

theorem ensures_sleep (h : s.Sound hand) (milliseconds : Nat) :
    Ensures s (sleep milliseconds) (Preserves s hand Core.nothing none) := by
  refine ensures_locked_sound h (fun _ => .same h rfl) fun core hcore => ?_
  obtain ⟨result, scheduler, hb, hco, hr, hresult⟩ :=
    block_cases h hcore (.sleep milliseconds)
  refine Ensures.bind ((ensures_request hcore hb).mono ?_)
  rintro r s₁ ⟨rfl, rfl⟩
  cases result with
  | error e => exact Locked.error hresult (.rearranged h hcore hresult hco hr)
  | ok switch =>
    exact Ensures.quiet (quiet_tally _ _) fun _ =>
      Ensures.pure (Locked.ok hresult (.rearranged h hcore trivial hco hr))

/-- Work under the lock after which the scheduler is as the inbox left it. -/
theorem ensures_idle (h : s.Sound hand) (hcore : s.core? c = some core) (a : α) :
    Ensures (s.withCore c core.drained) (pure (a, none))
      (Locked s c core (Preserves s hand Core.nothing none)) :=
  Ensures.pure (Locked.ok (Scheduler.resolved_none _) (.drained h hcore trivial))

theorem ensures_checkLocal (h : s.Sound hand) (task : TaskId) {f : Unit → Action β}
    (hf : Ensures s (f ()) (Preserves s hand Core.nothing none)) :
    Ensures s (checkLocal task >>= f) (Preserves s hand Core.nothing none) := by
  refine Ensures.bind (Ensures.get fun k hk => ?_)
  split
  · exact Ensures.fail (.same h rfl)
  · split
    · exact Ensures.pure hf
    · exact Ensures.fail (.same h rfl)

theorem ensures_wake (h : s.Sound hand) (task : TaskId) :
    Ensures s (wake task) (Preserves s hand Core.nothing none) := by
  refine ensures_checkLocal h task ?_
  refine ensures_locked_sound h (fun _ => .same h rfl) fun core hcore => ?_
  rcases hw : core.drained.scheduler.wake task with ⟨woken, scheduler⟩
  obtain ⟨hco, hr⟩ := (coherent_drained h hcore).wake task
  rw [hw] at hco hr
  refine Ensures.bind_ok (ensures_onScheduler hcore hw) ?_
  cases woken with
  | false =>
    exact Ensures.pure (Locked.ok (Scheduler.resolved_none _)
      (.rearranged h hcore trivial hco hr))
  | true =>
    rcases hs : scheduler.reschedule with ⟨switch, scheduler'⟩
    obtain ⟨hco', hres, hr'⟩ := hco.reschedule hs
    refine Ensures.quiet (quiet_tally _ _) fun _ =>
      Ensures.bind_ok (ensures_onScheduler hcore hs) ?_
    exact Ensures.pure (Locked.ok hres (.rearranged h hcore trivial hco' (hr.trans hr')))

theorem ensures_changePriority (h : s.Sound hand) (task : TaskId) (priority : Priority) :
    Ensures s (changePriority task priority) (Preserves s hand Core.nothing none) := by
  refine ensures_checkLocal h task ?_
  refine ensures_locked_sound h (fun _ => .same h rfl) fun core hcore => ?_
  rcases hc : core.drained.scheduler.changePriority task priority with ⟨result, scheduler⟩
  obtain ⟨hresult, hco, hr, -⟩ := (coherent_drained h hcore).changePriority hc
  refine Ensures.bind ((ensures_askScheduler hcore hc).mono ?_)
  -- a task that is not there is refused, which breaks nothing
  rintro r s₁ ⟨rfl, rfl⟩
  rcases hresult with ⟨rfl, -⟩ | rfl
  · exact Locked.error rfl (.rearranged h hcore rfl hco hr)
  · exact Ensures.pure (Locked.ok (Scheduler.resolved_none _)
      (.rearranged h hcore trivial hco hr))

/-! ### The cleanup task -/

theorem ensures_checkCleanup (hcore : s.core? c = some core)
    {f : Unit → Action (α × Option Switch)} {post : Except Stop α → System → Prop}
    (herror : post (.error (.failed .noCurrentTask))
      (s.withCore c (core.after core.drained.scheduler)))
    (hf : Ensures (s.withCore c core.drained) (f ()) (Locked s c core post)) :
    Ensures (s.withCore c core.drained) (checkCleanup c >>= f) (Locked s c core post) := by
  have hfail : Locked s c core post (.error (.failed .noCurrentTask))
      (s.withCore c core.drained) := ⟨core.drained.scheduler, rfl, rfl, herror⟩
  refine Ensures.bind (Ensures.coreAt (core?_drained hcore) ?_)
  dsimp only
  split
  · exact Ensures.fail hfail
  · split
    · exact Ensures.pure hf
    · exact Ensures.fail hfail

theorem ensures_parkCleanup (h : s.Sound hand) :
    Ensures s parkCleanup (Preserves s hand Core.nothing none) := by
  refine ensures_locked_sound h (fun _ => .same h rfl) fun core hcore => ?_
  refine ensures_checkCleanup hcore (.drained h hcore rfl) ?_
  refine Ensures.coreAt (core?_drained hcore) ?_
  split
  · obtain ⟨result, scheduler, hb, hco, hr, hresult⟩ := block_cases h hcore (.mail none)
    refine Ensures.bind ((ensures_askScheduler hcore hb).mono ?_)
    rintro r s₁ ⟨rfl, rfl⟩
    cases result with
    | error e => exact Locked.error hresult (.rearranged h hcore hresult hco hr)
    | ok switch => exact Ensures.pure (Locked.ok hresult (.rearranged h hcore trivial hco hr))
  · exact ensures_idle h hcore ()

theorem ensures_runCleanup (h : s.Sound hand) :
    Ensures s runCleanup (Preserves s hand Core.nothing none) := by
  have hreaped : Ensures s
      (locked fun id => do
        checkCleanup id
        return (← onScheduler id Scheduler.reap, none))
      (Preserves s hand Core.nothing none) := by
    refine ensures_locked_sound h (fun _ => .same h rfl) fun core hcore => ?_
    refine ensures_checkCleanup hcore (.drained h hcore rfl) ?_
    have hreap : core.drained.scheduler.reap =
        (core.drained.scheduler.exited, core.drained.scheduler.reap.2) := rfl
    refine Ensures.bind_ok (ensures_onScheduler hcore hreap) ?_
    refine Ensures.pure (Locked.ok (Scheduler.resolved_none _) ?_)
    exact .step h hcore trivial (h.settled _ core hcore).step_reaped fun _ _ => rfl
  refine Ensures.bind (hreaped.mono fun r s' hr => ?_)
  match r with
  | .error e => exact hr.error
  | .ok reaped =>
    refine Ensures.quiet (quiet_forM (fun _ => quiet_note _) _) fun _ => ?_
    have hreleased : Quiet (onMachine fun m => ((), reaped.foldl (fun m t => t.release m) m)) :=
      quiet_onMachine fun m => (Task.grows_releaseAll reaped m).currentCore
    refine Ensures.quiet hreleased fun _ => ?_
    exact Ensures.quiet (quiet_tally _ _) fun _ => Ensures.pure hr.ok

/-! ### The begin of dispatching -/

theorem ensures_startLocal (h : s.Sound hand) :
    Ensures s startLocal (Preserves s hand Core.nothing none) := by
  cases hcore : s.core? s.currentCore with
  | none => exact ensures_locked_none hcore (.same h rfl)
  | some core =>
    have hid := h.ordinals _ core hcore
    have hsettled := h.settled _ core hcore
    refine ensures_locked hcore hid hsettled.sound ?_
    rw [hid]
    refine Ensures.coreAt (core?_drained hcore) ?_
    split
    · refine Ensures.pure ⟨core.drained, core?_drained hcore, Scheduler.resolved_none _, ?_⟩
      rw [System.withCore_withCore]
      exact .drained h hcore trivial
    · rcases hs : core.drained.scheduler.start with ⟨switch, scheduler⟩
      obtain ⟨hco, hres, hr⟩ := (coherent_drained h hcore).start hs
      -- the flag is set before the first switch, under the same lock
      refine Ensures.bind_ok (Ensures.updateCore (core?_drained hcore) _ ⟨rfl, rfl⟩) ?_
      rw [System.withCore_withCore]
      have hstart : Ensures (s.withCore s.currentCore (core.drained.setFlags { started := true }))
          (onScheduler s.currentCore Scheduler.start) fun r s₁ => r = .ok switch ∧
            s₁ = s.withCore s.currentCore
              { core.drained.setFlags { started := true } with scheduler := scheduler } := by
        refine Ensures.onScheduler (System.core?_withCore_self hcore _) _ ?_
        have hbefore : (core.drained.setFlags { started := true }).scheduler =
            core.drained.scheduler := rfl
        rw [System.withCore_withCore, hbefore, hs]
        exact ⟨rfl, rfl⟩
      refine Ensures.quiet (quiet_note _) fun _ => Ensures.bind_ok hstart ?_
      refine Ensures.pure ⟨_, System.core?_withCore_self hcore _, hres, ?_⟩
      rw [System.withCore_withCore]
      have hmoved := hsettled.step_rearranged hco hr
      have hflags : Core.Step s.config.mailboxSize Core.nothing none [] (core.after scheduler)
          ((core.after scheduler).setFlags { started := true }) :=
        hmoved.settled.step_setFlags rfl rfl
      exact .step h hcore trivial (hmoved.trans hflags) fun _ _ => rfl

end Microkernel.Kernel
