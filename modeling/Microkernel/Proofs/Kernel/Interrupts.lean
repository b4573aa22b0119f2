/-
Interrupts and timers.

Sending an interrupt uses the machine and nothing else, so what an interrupt brings about is
brought about by the core that it is sent to (`handleInterrupt`). Arming a timer sets a flag of
its core that no operation on tasks looks at.

* **`quiet_interruptOthers`**: a broadcast leaves the system alone;
* **`ensures_handleInterrupt`**: a core that is interrupted keeps the invariant and loses no mail.
-/
import Microkernel.Proofs.Kernel.Locked

namespace Microkernel.Kernel

variable {α β : Type} {s : System} {hand : List Task} {c : CoreId} {core : Core}

/-! ### Sending interrupts -/

theorem grows_broadcast (m : Machine) (cores : List Core) (kind : InterruptKind)
    (exclude : CoreId) : m.Grows (broadcast m cores kind exclude).2 := by
  rw [broadcast]
  generalize broadcastTargets cores exclude = targets
  induction targets generalizing m with
  | nil => exact .refl m
  | cons target targets ih =>
    have hsent : m.Grows (m.sendInterrupt target.apic kind) :=
      ⟨rfl, rfl, rfl, Nat.le_refl _, Nat.le_refl _, List.prefix_append _ _⟩
    exact hsent.trans (ih _)

theorem quiet_interruptOthers (kind : InterruptKind) : Quiet (interruptOthers kind) := by
  intro k
  refine ⟨(), _, rfl, ?_⟩
  simp only [system]
  congr 1
  exact (grows_broadcast _ _ _ _).currentCore

theorem quiet_flushTlb : Quiet flushTlb :=
  quiet_onMachine fun _ => rfl

theorem ensures_interrupt (hcore : s.core? c = some core) (kind : InterruptKind) :
    Ensures s (interrupt c kind) fun r s' => r = .ok () ∧ s' = s := by
  refine Ensures.coreAt hcore ?_
  exact Ensures.quiet (quiet_onMachine fun _ => rfl) fun _ =>
    Ensures.of_quiet (quiet_tally _ _) fun _ => ⟨rfl, rfl⟩

/-! ### Timers and caches -/

/-- Work on the machine keeps everything else. -/
theorem Quiet.preserves {x : Action α} (hx : Quiet x) (h : s.Sound hand) :
    Ensures s x (Preserves s hand Core.nothing none) :=
  Ensures.of_quiet hx fun _ => .same h trivial

theorem ensures_armTimer (h : s.Sound hand) :
    Ensures s armTimer (Preserves s hand Core.nothing none) := by
  cases hcore : s.core? s.currentCore with
  | none => exact Ensures.localCore_none hcore (.same h rfl)
  | some core =>
    have hid := h.ordinals _ core hcore
    have hflags : Core.Step s.config.mailboxSize Core.nothing none [] core
        (core.setFlags { timerArmed := true }) :=
      (h.settled _ core hcore).step_setFlags rfl rfl
    refine Ensures.localCore hcore (Ensures.get fun k hk => ?_)
    refine Ensures.quiet (quiet_onMachine fun _ => rfl) fun _ => ?_
    rw [hid]
    exact Ensures.updateCore hcore _ (.step h hcore trivial hflags fun _ _ => rfl)

/-- An action that tells the other cores, after another. -/
theorem ensures_broadcast {x : Action Unit} (kind : InterruptKind)
    (hx : Ensures s x (Preserves s hand Core.nothing none)) :
    Ensures s (do x; interruptOthers kind) (Preserves s hand Core.nothing none) := by
  refine Ensures.bind (hx.mono fun r s' hr => ?_)
  cases r with
  | error e => exact hr.error
  | ok _ => exact Ensures.of_quiet (quiet_interruptOthers kind) fun _ => hr.ok

theorem ensures_invalidateTlb (h : s.Sound hand) :
    Ensures s invalidateTlb (Preserves s hand Core.nothing none) :=
  ensures_broadcast _ (quiet_flushTlb.preserves h)

theorem ensures_setupTimeslice (h : s.Sound hand) :
    Ensures s setupTimeslice (Preserves s hand Core.nothing none) :=
  ensures_broadcast _ (ensures_armTimer h)

theorem ensures_start (h : s.Sound hand) :
    Ensures s start (Preserves s hand Core.nothing none) :=
  Ensures.quiet (quiet_interruptOthers _) fun _ => ensures_startLocal h

theorem ensures_handleInterrupt (h : s.Sound hand) (kind : InterruptKind) :
    Ensures s (handleInterrupt kind) (Preserves s hand Core.nothing none) := by
  cases kind with
  | reschedule => exact ensures_reschedule h
  | startScheduler => exact ensures_startLocal h
  | invalidateTlb => exact quiet_flushTlb.preserves h
  | setupTimeslice => exact ensures_armTimer h

end Microkernel.Kernel
