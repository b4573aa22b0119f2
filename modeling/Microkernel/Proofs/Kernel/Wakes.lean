/-
The count of the wakes.

`wakings` says how many tasks an operation takes from a blocked queue to a ready ring, as the queues
before and after it show, and `uncounted` how many of these are not counted.

* **`reckoned`**: an operation raises the count by the wakes that are not among the uncounted ones;
* **`wakes_add_missed`**: so the count falls short of the wakes of a run by the uncounted ones;
* **`wake_not_counted`**: the end of a task wakes the cleanup task, and this is not counted.

Design notes: a task that one operation queues as blocked and readies again is in the ready ring
before and after it, so the queues do not show that. It is the current task, and `suspends` tells
from the answer whether it was queued as blocked.
-/
import Microkernel.Proofs.Kernel.Counting
import Microkernel.Proofs.Kernel.Population
import Microkernel.Proofs.Kernel.Tending
import Microkernel.Proofs.Kernel.Wakeups

namespace Microkernel.Kernel

open Scheduler (Drifts Readies)

variable {α β : Type} {k k' k'' : Kernel} {c : CoreId} {core core' : Core} {operation : Operation}

/-! ### What is readied -/

/-- How many tasks of a core were readied on the way from `k` to `k'`, where `suspended` is the task
of the core that runs that was queued as blocked on the way, if one was. -/
def readiedOn (k k' : Kernel) (suspended : Option TaskId) (c : CoreId) : Nat :=
  match k.core? c, k'.core? c with
  | some core, some core' =>
    core.scheduler.readied core'.scheduler
      (if c = k.machine.currentCore then suspended else none)
  | _, _ => 0

/-- How many tasks were readied on the way from `k` to `k'`, on all cores. -/
def readied (k k' : Kernel) (suspended : Option TaskId) : Nat :=
  ∑ c ∈ Finset.range k.cores.length, k.readiedOn k' suspended c

/-- The task that an operation with this answer has queued as blocked. -/
def suspended (k : Kernel) : Operation → Except Stop Answer → Option TaskId
  | .sleep _, .ok _ => k.currentTask
  | .tryReceive _, .ok (.message none) => k.currentTask
  | .parkCleanup, .ok _ =>
    (k.localCore?.filter fun core => core.scheduler.exited.isEmpty).bind Core.current
  | _, _ => none

/-- The task that an operation queues as blocked, if it queues one. -/
def suspends (k : Kernel) (operation : Operation) : Option TaskId :=
  k.suspended operation (k.step operation).1

/-! ### Calls that ready without counting -/

section Skips

variable {s : System} {hand : List Task} {suspended : Option TaskId}

/-- No wake was counted. -/
def SameWakes (k k' : Kernel) : Prop :=
  k'.metrics.wakes = k.metrics.wakes

instance : Std.Refl SameWakes where
  refl _ := rfl

instance : Trans SameWakes SameWakes SameWakes where
  trans {_ _ _} h h' := Eq.trans h' h

theorem Respects.sameWakes {x : Action α} (hx : Respects Unmoved x) : Respects SameWakes x :=
  hx.mono fun _ _ h => h.wakes

theorem wakes_bind {x : Action α} {f : α → Action β} (hf : ∀ a, Respects SameWakes (f a)) :
    (k.perform (x >>= f)).2.metrics.wakes = (k.perform x).2.metrics.wakes := by
  rw [perform_bind]
  rcases k.perform x with ⟨_ | a, k'⟩
  · rfl
  · exact hf a k'

theorem sameWakes_onScheduler (g : Scheduler → α × Scheduler) :
    Respects SameWakes (onScheduler c g) := by
  intro k
  rw [perform_onScheduler]
  cases k.core? c <;> rfl

theorem sameWakes_askScheduler (g : Scheduler → Except Error α × Scheduler) :
    Respects SameWakes (askScheduler c g) :=
  (sameWakes_onScheduler g).bind fun _ => .ofExcept _

theorem sameWakes_request (operation : Scheduler.Operation)
    (g : Scheduler → Except Error α × Scheduler) (answer : α → Scheduler.Answer) :
    Respects SameWakes (request c operation g answer) :=
  (Respects.coreAt c).bind fun _ => (sameWakes_askScheduler g).bind fun _ =>
    (Respects.forM (fun event => (unmoved_note event).sameWakes) _).bind fun _ => .pure _

/-- Taking over an inbox readies tasks and counts these wakes. -/
theorem wakes_drainInbox (h : k.system.Sound hand) (hk : k.Fit) (hcore : k.core? c = some core) :
    ∃ n, Readies n core.scheduler core.drained.scheduler ∧
      (k.perform (drainInbox c)).2.metrics.wakes = k.metrics.wakes + n := by
  have hbalanced := balances_drainInbox c k hk
  have hfound : k.system.core? c = some core := hcore
  obtain ⟨-, hsystem⟩ := ensures_drainInbox hfound (h.settled c core hcore).sound k rfl
  generalize (k.perform (drainInbox c)).2 = k' at *
  obtain ⟨core', hcore', hprompt, hdrifts⟩ := hbalanced.drifts c core hcore
  have hget : k'.system.core? c = some core.drained :=
    hsystem ▸ System.core?_withCore_self hfound core.drained
  cases hcore'.symm.trans hget
  have hadd := hdrifts.readied_add (hk c core hcore).coherent hprompt.coherent
  have hset := blockedTasks_set hcore (congrArg System.cores hsystem)
  have hcount := hbalanced.count
  refine ⟨core.scheduler.readied core.drained.scheduler none, ⟨hprompt, hdrifts, ?_⟩, ?_⟩ <;> omega

/-- A call whose operation counts no wake: only those of taking over the inbox are counted. -/
theorem wakes_locked (h : k.system.Sound hand) (hk : k.Fit) (hcore : k.localCore? = some core)
    {operation : CoreId → Action (α × Option Switch)}
    (hop : ∀ c, Respects SameWakes (operation c)) :
    ∃ n, Readies n core.scheduler core.drained.scheduler ∧
      (k.perform (locked operation)).2.metrics.wakes = k.metrics.wakes + n := by
  let masked : Kernel := { k with machine := k.machine.maskInterrupts.2 }
  have hmask : k.perform (onMachine Machine.maskInterrupts) =
      (.ok k.machine.maskInterrupts.1, masked) := rfl
  have hmasked : masked.system.Sound hand := h
  have hcore' : masked.core? k.machine.currentCore = some core := hcore
  obtain ⟨n, hreadies, hwakes⟩ := wakes_drainInbox hmasked hk hcore'
  have hlocal : k.perform localCore = (.ok core, k) := perform_coreAt hcore
  have hid : core.id = k.machine.currentCore := h.ordinals _ core hcore
  refine ⟨n, hreadies, Eq.trans ?_ hwakes⟩
  rw [locked, perform_bind, hlocal]
  dsimp only
  rw [hid, perform_bind, hmask]
  dsimp only
  rw [perform_bind]
  rcases hdrained : masked.perform (drainInbox k.machine.currentCore) with ⟨_ | _, k'⟩
  · rfl
  · exact ((hop k.machine.currentCore).attempt.bind fun r =>
      (unmoved_conclude _ _ r).sameWakes) k'

/-- The core that runs has taken over its inbox, and then its queues were stirred. -/
def Stirred (s : System) (core : Core) (suspended : Option TaskId) (s' : System) : Prop :=
  ∃ core' directory, s' = (s.withDirectory directory).withCore s.currentCore core' ∧
    Scheduler.Stirs suspended core.drained.scheduler core'.scheduler

theorem Stirred.of_after {scheduler : Scheduler}
    (h : Scheduler.Stirs suspended core.drained.scheduler scheduler) :
    Stirred s core suspended (s.withCore s.currentCore (core.after scheduler)) :=
  ⟨core.after scheduler, s.directory, rfl, h⟩

theorem stirred_sleep (h : s.Sound hand) (hcore : s.core? s.currentCore = some core)
    (hprompt : core.drained.scheduler.Prompt) (milliseconds : Nat) :
    Ensures s (sleep milliseconds) fun r s' =>
      Stirred s core (r.toOption.bind fun _ => core.drained.scheduler.current) s' := by
  refine ensures_locked_at hcore (h.ordinals _ core hcore) (h.settled _ core hcore).sound ?_
  obtain ⟨result, scheduler, hb, -, -, hresult⟩ := block_cases h hcore (.sleep milliseconds)
  have hstirs := hprompt.stirs_block (.sleep milliseconds)
  rw [hb] at hstirs
  refine Ensures.bind ((ensures_request hcore hb).mono ?_)
  rintro r s₁ ⟨rfl, rfl⟩
  cases result with
  | error e => exact Locked.error hresult (.of_after hstirs)
  | ok switch =>
    exact Ensures.quiet (quiet_tally _ _) fun _ =>
      Ensures.pure (Locked.ok hresult (.of_after hstirs))

/-- Nobody is queued as blocked if a task waits to be reclaimed. -/
theorem stirred_parkCleanup (h : s.Sound hand) (hcore : s.core? s.currentCore = some core)
    (hprompt : core.drained.scheduler.Prompt) :
    Ensures s parkCleanup fun r s' =>
      Stirred s core (r.toOption.bind fun _ =>
        if core.drained.scheduler.exited.isEmpty then core.drained.scheduler.current else none)
        s' := by
  refine ensures_locked_at hcore (h.ordinals _ core hcore) (h.settled _ core hcore).sound ?_
  refine ensures_checkCleanup hcore (.of_after hprompt.stirs_self) ?_
  refine Ensures.coreAt (core?_drained hcore) ?_
  split
  · obtain ⟨result, scheduler, hb, -, -, hresult⟩ := block_cases h hcore (.mail none)
    have hstirs := hprompt.stirs_block (.mail none)
    rw [hb] at hstirs
    refine Ensures.bind ((ensures_askScheduler hcore hb).mono ?_)
    rintro r s₁ ⟨rfl, rfl⟩
    cases result with
    | error e => exact Locked.error hresult (.of_after hstirs)
    | ok switch => exact Ensures.pure (Locked.ok hresult (.of_after hstirs))
  · exact Ensures.pure (Locked.ok (Scheduler.resolved_none _) (.of_after hprompt.stirs_self))

/-- Whom a try to receive with this result queues as blocked. -/
def waits (current : Option TaskId) : Except Stop (Option Message) → Option TaskId
  | .ok none => current
  | _ => none

theorem stirred_tryReceive (h : s.Sound hand) (hcore : s.core? s.currentCore = some core)
    (hprompt : core.drained.scheduler.Prompt) (filter : Option Filter) :
    Ensures s (tryReceive filter) fun r s' =>
      Stirred s core (waits core.drained.scheduler.current r) s' := by
  refine Ensures.bind (Ensures.mono (?_ : Ensures s _ fun r s' =>
    Stirred s core (waits core.drained.scheduler.current r) s') fun r s' hr => ?_)
  · have hsound := (h.settled _ core hcore).sound
    refine ensures_locked_at hcore (h.ordinals _ core hcore) hsound ?_
    rcases hr : core.drained.scheduler.receive filter with ⟨result, scheduler⟩
    have hstirs := hprompt.stirs_receive filter
    rw [hr] at hstirs
    refine Ensures.bind ((ensures_askScheduler hcore hr).mono ?_)
    rintro r s₁ ⟨rfl, rfl⟩
    rcases (coherent_drained h hcore).receive
      (fun id t ht => (hsound.drained.mailboxes id t ht).1) hr with
      ⟨rfl, -, -⟩ | ⟨-, -, -, -, -, -, -, -, ⟨message, rfl, -, -⟩ | ⟨switch, rfl, -, hres, -⟩⟩
    · obtain ⟨switch, hwaiting, -⟩ | ⟨-, hstirs⟩ := hstirs
      · cases hwaiting
      · exact Locked.error rfl (.of_after hstirs)
    · obtain ⟨switch, hwaiting, -⟩ | ⟨-, hstirs⟩ := hstirs
      · cases hwaiting
      · exact Ensures.pure (Locked.ok (Scheduler.resolved_none _) (.of_after hstirs))
    · obtain ⟨-, -, hstirs⟩ := hstirs.resolve_right fun hnot => hnot.1 switch rfl
      exact Ensures.pure (Locked.ok hres (.of_after hstirs))
  · rcases r with e | _ | message
    · exact hr
    · exact Ensures.pure hr
    · exact Ensures.quiet (quiet_tally _ _) fun _ => Ensures.pure hr

theorem stirred_exit (h : s.Sound hand) (hcore : s.core? s.currentCore = some core)
    (hprompt : core.drained.scheduler.Prompt) :
    Ensures s exit fun _ s' => Stirred s core none s' := by
  refine ensures_exit_of h hcore (fun _ => .of_after hprompt.stirs_self)
    fun id _ _ scheduler he _ _ _ => ?_
  have hstirs := hprompt.stirs_exit
  rw [he] at hstirs
  exact ⟨core.after scheduler, (s.directory.forget id).2, rfl, hstirs⟩

end Skips

/-! ### One operation -/

/-- How many tasks an operation that is no receive takes from a blocked queue to a ready ring. -/
def wakings (k : Kernel) (operation : Operation) : Nat :=
  k.readied (k.step operation).2 (k.suspends operation)

/-- How many of these wakes are not counted: those after the core has taken over its inbox, in an
operation that may skip wakes. -/
def uncounted (k : Kernel) (operation : Operation) : Nat :=
  match operation.skips, k.localCore?, (k.step operation).2.localCore? with
  | true, some core, some core' =>
    core.drained.scheduler.readied core'.scheduler (k.suspends operation)
  | _, _, _ => 0

/-- The count has grown by the wakes there were on the way, but for those that were missed. -/
structure Reckons (k : Kernel) (missed all : Nat) (k' : Kernel) : Prop where
  fit : k'.Fit
  wakes : k'.metrics.wakes + missed = k.metrics.wakes + all

theorem Reckons.trans {missed all missed' all' : Nat} (h : Reckons k missed all k')
    (h' : Reckons k' missed' all' k'') : Reckons k (missed + missed') (all + all') k'' := by
  refine ⟨h'.fit, ?_⟩
  have hwakes := h.wakes
  have hwakes' := h'.wakes
  omega

/-- An operation raises the count by the wakes that are not uncounted. -/
def Reckoned (k : Kernel) (operation : Operation) : Prop :=
  Reckons k (k.uncounted operation) (k.wakings operation) (k.step operation).2

/-- Only the core that runs has changed. -/
theorem readied_set (hk : k.Fit) (hcore : k.localCore? = some core)
    (hcores : k'.cores = k.cores.set k.machine.currentCore core') (suspended : Option TaskId) :
    k.readied k' suspended = core.scheduler.readied core'.scheduler suspended := by
  have hfound : k.core? k.machine.currentCore = some core := hcore
  have hget := core?_set hfound hcores
  have hlt : k.machine.currentCore < k.cores.length := (List.getElem?_eq_some_iff.1 hfound).1
  rw [readied, Finset.sum_eq_single k.machine.currentCore]
  · rw [readiedOn, hfound, hget, if_pos rfl]
    simp
  · intro c _ hc
    rw [readiedOn, hget, if_neg hc, if_neg hc]
    cases hother : k.core? c with
    | none => rfl
    | some other =>
      have hco := (hk c other hother).coherent
      have hadd := (Drifts.refl other.scheduler).readied_add hco hco
      dsimp only
      omega
  · exact fun hout => absurd (Finset.mem_range.2 hlt) hout

/-- What is readied is what the blocked queues lose. -/
theorem Balanced.wakes (h : Balanced 0 k k') (hk : k.Fit) :
    k'.metrics.wakes = k.metrics.wakes + k.readied k' none := by
  have hreadied : k.readied k' none + k'.blockedTasks = k.blockedTasks := by
    rw [readied, blockedTasks, blockedTasks, h.cores, ← Finset.sum_add_distrib]
    refine Finset.sum_congr rfl fun c hc => ?_
    obtain ⟨core, hcore⟩ : ∃ core, k.core? c = some core :=
      ⟨_, List.getElem?_eq_getElem (Finset.mem_range.1 hc)⟩
    obtain ⟨core', hcore', hprompt, hdrifts⟩ := h.drifts c core hcore
    have hadd := hdrifts.readied_add (hk c core hcore).coherent hprompt.coherent
    rw [readiedOn, blockedOn, blockedOn, hcore, hcore', ite_self]
    exact hadd
  have hcount := h.count
  omega

theorem suspends_of_error {e : Stop} (h : (k.step operation).1 = .error e) :
    k.suspends operation = none := by
  rw [suspends, h]
  cases operation <;> rfl

theorem suspends_of_counts (h : operation.skips = false) : k.suspends operation = none := by
  cases operation <;> first | rfl | cases h

theorem reckoned_of_counts (hk : k.Fit) (h : operation.skips = false) : k.Reckoned operation := by
  have hbalanced := balances_actionOf h k hk
  refine ⟨hbalanced.fit, ?_⟩
  rw [uncounted, wakings, suspends_of_counts h, h]
  exact hbalanced.wakes hk

/-- An operation that does not count what it readies after the core has taken over its inbox. -/
theorem reckoned_of_stirred (h : k.system.Sound []) (hk : k.Fit) (hskips : operation.skips = true)
    (hcore : k.localCore? = some core) {n : Nat}
    (hreadies : Readies n core.scheduler core.drained.scheduler)
    (hwakes : (k.step operation).2.metrics.wakes = k.metrics.wakes + n)
    (hstirred : Stirred k.system core (k.suspends operation) (k.step operation).2.system) :
    k.Reckoned operation := by
  obtain ⟨core', directory, hsystem, hstirs⟩ := hstirred
  have hcores : (k.step operation).2.cores = k.cores.set k.machine.currentCore core' :=
    congrArg System.cores hsystem
  have hget := core?_set hcore hcores
  have hcurrent : (k.step operation).2.machine.currentCore = k.machine.currentCore :=
    congrArg System.currentCore hsystem
  have hlocal : (k.step operation).2.localCore? = some core' := by
    rw [localCore?, hcurrent, hget, if_pos rfl]
  have hsame : core.drained.scheduler.current = core.scheduler.current := by
    rw [(drained_same h hcore).1, currentTask, hcore]
    exact (h.settled _ core hcore).current
  have hadd := hreadies.readied_add (hk _ core hcore) hsame hstirs
  refine ⟨fun c core₁ hcore₁ => ?_, ?_⟩
  · rw [hget] at hcore₁
    split at hcore₁
    · cases hcore₁
      exact hstirs.prompt
    · exact hk c core₁ hcore₁
  · rw [uncounted, wakings, hskips, hcore, hlocal, readied_set hk hcore hcores, hwakes]
    dsimp only
    omega

theorem perform_locked_none (hcore : k.localCore? = none)
    (body : CoreId → Action (α × Option Switch)) :
    k.perform (locked body) = (.error (.failed .invalidCore), k) := by
  have hlocal : k.perform localCore = (.error (.failed .invalidCore), k) :=
    perform_coreAt_none hcore
  rw [locked, perform_bind, hlocal]

/-- One call under the lock, and work outside of the cores after it. -/
theorem reckoned_of_locked (h : k.system.Sound []) (hk : k.Fit) (hskips : operation.skips = true)
    {body : CoreId → Action (α × Option Switch)} {g : α → Action Answer}
    (haction : actionOf operation = locked body >>= g)
    (hbody : ∀ c, Respects SameWakes (body c)) (hg : ∀ a, Respects SameWakes (g a))
    (hstirred : ∀ core, k.localCore? = some core → core.drained.scheduler.Prompt →
      Stirred k.system core (k.suspends operation) (k.step operation).2.system) :
    k.Reckoned operation := by
  cases hcore : k.localCore? with
  | none =>
    -- nothing is done
    have hstep : k.step operation = (.error (.failed .invalidCore), k) := by
      rw [step, haction, perform_bind, perform_locked_none hcore]
    have hwakes := (Balanced.refl hk).wakes hk
    refine ⟨by rwa [hstep], ?_⟩
    rw [uncounted, wakings, suspends_of_error (congrArg Prod.fst hstep), hskips, hcore, hstep]
    exact hwakes
  | some core =>
    obtain ⟨n, hreadies, hwakes⟩ := wakes_locked h hk hcore hbody
    refine reckoned_of_stirred h hk hskips hcore hreadies ?_ (hstirred core hcore hreadies.prompt)
    rw [step, haction, wakes_bind hg, hwakes]

theorem perform_map (x : Action α) (f : α → Answer) :
    k.perform (do return f (← x)) = ((k.perform x).1.map f, (k.perform x).2) := by
  rw [perform_bind]
  rcases k.perform x with ⟨_ | _, _⟩ <;> rfl

theorem reckoned_sleep (h : k.system.Sound []) (hk : k.Fit) (milliseconds : Nat) :
    k.Reckoned (.sleep milliseconds) := by
  have hstep : k.step (.sleep milliseconds) = _ := perform_map (sleep milliseconds) fun _ => .done
  refine reckoned_of_locked h hk rfl rfl (fun c => ?_) (fun _ => .pure _)
    fun core hcore hprompt => ?_
  · exact (sameWakes_request _ _ _).bind fun _ =>
      (unmoved_tally (by decide) _).sameWakes.bind fun _ => .pure _
  · have hstirred := stirred_sleep h hcore hprompt milliseconds k rfl
    rw [(drained_same h hcore).1] at hstirred
    rw [suspends, hstep]
    cases hr : (k.perform (sleep milliseconds)).1 <;> rw [hr] at hstirred <;> exact hstirred

theorem reckoned_exit (h : k.system.Sound []) (hk : k.Fit) : k.Reckoned .exit := by
  have hstep : k.step .exit = _ := perform_map exit .task
  refine reckoned_of_locked h hk rfl rfl (fun c => ?_) (fun _ => .pure _)
    fun core hcore hprompt => ?_
  · refine (sameWakes_request _ _ _).bind fun exit =>
      (unmoved_onDirectory _).sameWakes.bind fun known => ?_
    split
    · exact (unmoved_note _).sameWakes.bind fun _ => .pure _
    · exact .pure _
  · rw [hstep]
    exact stirred_exit h hcore hprompt k rfl

theorem reckoned_parkCleanup (h : k.system.Sound []) (hk : k.Fit) : k.Reckoned .parkCleanup := by
  have hstep : k.step .parkCleanup = _ := perform_map parkCleanup fun _ => .done
  refine reckoned_of_locked h hk rfl rfl (fun c => ?_) (fun _ => .pure _)
    fun core hcore hprompt => ?_
  · refine (Respects.checkCleanup c).bind fun _ => (Respects.coreAt c).bind fun core => ?_
    split
    · exact (sameWakes_askScheduler _).bind fun _ => .pure _
    · exact .pure _
  · have hstirred := stirred_parkCleanup h hcore hprompt k rfl
    have hwho : (k.localCore?.filter fun core => core.scheduler.exited.isEmpty).bind Core.current =
        if core.drained.scheduler.exited.isEmpty then core.drained.scheduler.current else none := by
      rw [(drained_same h hcore).1, (h.settled _ core hcore).sound.exited_drained, currentTask,
        hcore, Option.filter_some]
      split <;> rfl
    rw [← hwho] at hstirred
    rw [suspends, hstep]
    cases hr : (k.perform parkCleanup).1 <;> rw [hr] at hstirred <;> exact hstirred

theorem reckoned_tryReceive (h : k.system.Sound []) (hk : k.Fit) (filter : Option Filter) :
    k.Reckoned (.tryReceive filter) := by
  have hstep : k.step (.tryReceive filter) = _ := perform_map (tryReceive filter) .message
  refine reckoned_of_locked h hk rfl (bind_assoc _ _ _) (fun c => ?_) (fun received => ?_)
    fun core hcore hprompt => ?_
  · refine (sameWakes_askScheduler _).bind fun reception => ?_
    cases reception <;> exact .pure _
  · cases received with
    | none => exact .pure _
    | some message => exact (unmoved_tally (by decide) _).sameWakes.bind fun _ => .pure _
  · have hstirred := stirred_tryReceive h hcore hprompt filter k rfl
    rw [(drained_same h hcore).1] at hstirred
    rw [suspends, hstep]
    rcases hr : (k.perform (tryReceive filter)).1 with _ | (_ | _) <;> rw [hr] at hstirred <;>
      exact hstirred

/-- An operation that is no receive counts its wakes, but for those that it skips. -/
theorem reckoned (h : k.system.Sound []) (hk : k.Fit)
    (hsingle : ∀ filter, operation ≠ .receive filter) : k.Reckoned operation := by
  cases hskips : operation.skips with
  | false => exact reckoned_of_counts hk hskips
  | true =>
    cases operation with
    | sleep milliseconds => exact reckoned_sleep h hk milliseconds
    | exit => exact reckoned_exit h hk
    | parkCleanup => exact reckoned_parkCleanup h hk
    | tryReceive filter => exact reckoned_tryReceive h hk filter
    | receive filter => exact absurd rfl (hsingle filter)
    | _ => cases hskips

/-! ### Runs -/

/-- What tries to receive come to, up to the one that finds a message. -/
def overTries (count : Kernel → Operation → Nat) : Nat → Option Filter → Kernel → Nat
  | 0, _, _ => 0
  | tries + 1, filter, k =>
    count k (.tryReceive filter) +
      match k.step (.tryReceive filter) with
      | (.ok (.message none), k) => overTries count tries filter k
      | _ => 0

/-- What an operation comes to, where a receive is the tries that it consists of. -/
def inFull (count : Kernel → Operation → Nat) (k : Kernel) : Operation → Nat
  | .receive filter => overTries count k.tries filter k
  | operation => count k operation

/-- What a run comes to. -/
def total (count : Kernel → Operation → Nat) : Kernel → List Operation → Nat
  | _, [] => 0
  | k, operation :: rest => inFull count k operation + total count (k.step operation).2 rest

theorem reckons_receiveWithin (tries : Nat) (h : k.system.Sound []) (hk : k.Fit)
    (filter : Option Filter) :
    Reckons k (overTries uncounted tries filter k) (overTries wakings tries filter k)
      (k.perform (receiveWithin tries filter)).2 := by
  induction tries generalizing k with
  | zero => exact ⟨hk, rfl⟩
  | succ tries ih =>
    have hone := reckoned_tryReceive h hk filter
    have hsound := (ensures_tryReceive h filter k rfl).sound
    have hstep : k.step (.tryReceive filter) = _ := perform_map (tryReceive filter) .message
    rw [receiveWithin, perform_bind, overTries, overTries]
    rw [Reckoned, hstep] at hone
    rw [hstep]
    rcases htry : k.perform (tryReceive filter) with ⟨r, k'⟩
    rw [htry] at hone hsound
    rcases r with _ | _ | _
    · exact hone
    -- the task that was current waits, and another one tries in its place
    · exact hone.trans (ih hsound hone.fit)
    · exact hone

theorem reckons_step (h : k.system.Sound []) (hk : k.Fit) (operation : Operation) :
    Reckons k (inFull uncounted k operation) (inFull wakings k operation)
      (k.step operation).2 := by
  by_cases hreceive : ∃ filter, operation = .receive filter
  · obtain ⟨filter, rfl⟩ := hreceive
    rw [step_receive]
    exact reckons_receiveWithin k.tries h hk filter
  · have hone := reckoned h hk fun filter e => hreceive ⟨filter, e⟩
    cases operation with
    | receive filter => exact absurd ⟨filter, rfl⟩ hreceive
    | _ => exact hone

theorem fit_new {config : Config} {apics : List Nat} (h : Kernel.new config apics = .ok k) :
    k.Fit := by
  obtain ⟨-, -, hcores⟩ := parts_of_new h
  intro c core hcore
  obtain ⟨apic, rfl⟩ := hcores c core hcore
  exact .new c config.timeslice

theorem Reachable.reckons_run (h : k.Reachable) (hk : k.Fit) (operations : List Operation) :
    Reckons k (total uncounted k operations) (total wakings k operations) (k.run operations) := by
  induction operations generalizing k with
  | nil => exact ⟨hk, rfl⟩
  | cons operation rest ih =>
    have hone := reckons_step h.sound hk operation
    rw [h.run_cons]
    exact hone.trans (ih (h.step operation) hone.fit)

/-- The count of the wakes falls short of how often tasks were taken from a blocked queue to the
ready ring by those times when an operation that sleeps, receives, parks the cleanup task or ends a
task did so after its core had taken over the inbox. -/
theorem wakes_add_missed {config : Config} {apics : List Nat}
    (h : Kernel.new config apics = .ok k) (operations : List Operation) :
    (k.run operations).metrics.wakes + total uncounted k operations =
      total wakings k operations := by
  have hwakes := ((Reachable.new h).reckons_run (fit_new h) operations).wakes
  have hnone : k.metrics.wakes = 0 := by
    rw [Kernel.new] at h
    split at h
    · cases h
    · cases h
      rfl
  rwa [hnone, Nat.zero_add] at hwakes

/-- With the cleanup task parked, a task sleeps until the clock wakes it, and ends. -/
def napThenExit : List Operation :=
  [.bringUp, .spawn "task" 0x1000 .other, .start, .parkCleanup, .sleep 10, .tick, .exit]

theorem wakes_add_missed_napThenExit :
    (pair.run napThenExit).metrics.wakes = 1 ∧ total wakings pair napThenExit = 2 := by
  have hwakes := wakes_add_missed new_pair napThenExit
  have hcount : (pair.run napThenExit).metrics.wakes = 1 := by decide +kernel
  have hmissed : total uncounted pair napThenExit = 1 := by decide +kernel
  rw [hcount, hmissed] at hwakes
  exact ⟨hcount, hwakes.symm⟩

/-- The end of a task wakes the cleanup task, and the count stays as it was. -/
theorem wake_not_counted :
    let operations : List Operation :=
      [.bringUp, .spawn "task" 0x1000 .other, .start, .parkCleanup, .exit]
    Kernel.new { Config.withCores 2 with mailboxSize := 20 } [0, 1] = .ok pair ∧
      (pair.run operations).metrics.wakes = 0 ∧ total wakings pair operations = 1 := by
  refine ⟨new_pair, ?_⟩
  decide +kernel

end Microkernel.Kernel
