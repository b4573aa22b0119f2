/-
Calls under the lock, and the context switches that they make.

All work on a scheduler is done by `locked`. What is done there does not touch the machine
(`Untouched`), so that a call makes at most the one switch that comes at its end.

* **`Turned`**: the switches that a change of the current task of a core calls for;
* **`perform_locked`**: a call under the lock makes exactly these, if what it does is a turn of the
  scheduler (`Works`).

Design notes: nothing is assumed of the tasks and the mail in the inbox. If one of them cannot be
taken over the core halts, without a switch and with the same task current, and the law of switches
holds then too.
-/
import Microkernel.Proofs.Kernel.Books
import Microkernel.Proofs.Kernel.Dispatch
import Microkernel.Proofs.Scheduler.Turning

namespace Microkernel

/-! ### Switches that a change of the current task calls for -/

/-- What is recorded of the address spaces that were loaded, after a switch. -/
def ContextSwitch.load (loads : Nat × Nat) (switch : ContextSwitch) : Nat × Nat :=
  match switch.activated with
  | none => loads
  | some root => (loads.1 + 1, root)

/-- The record of a switch that was carried out on a core. -/
def PreparedSwitch.onCore (p : PreparedSwitch) (c : CoreId) : ContextSwitch where
  core := c
  saved := p.saved
  resumed := p.resumed
  stackTop := p.stackTop
  activated := p.activated

/-- The switches on a core whose scheduler goes from `s` to `s'`: none if the same task is current,
one that saves into the boot context if no task was current, and otherwise one that saves into the
context of the task that was current. What is loaded is the context of the task that is current
then, and its address space if that is another one. -/
inductive Turned (c : CoreId) (s s' : Scheduler) : List ContextSwitch → Prop
  | stays (hsame : s'.current = s.current)
      (hkept : ∀ id t', s.current = some id → s'.task? id = some t' →
        ∃ t, s.task? id = some t ∧ t'.context = t.context) : Turned c s s' []
  | begins {id : TaskId} {t : Task} (hnone : s.current = none) (hcurrent : s'.current = some id)
      (ht : s'.task? id = some t) :
      Turned c s s' [⟨c, none, t.stackPointer, t.stack.top, some t.space⟩]
  | passes {id next : TaskId} {t t' : Task} (hbefore : s.current = some id)
      (hleft : s.task? id = some t) (hleaves : s.Leaves id t s')
      (hafter : s'.current = some next) (hnext : s'.task? next = some t') (hne : id ≠ next) :
      Turned c s s' [⟨c, some t.stack.top, t'.stackPointer, t'.stack.top,
        if t.space = t'.space then none else some t'.space⟩]

namespace Turned

variable {c : CoreId} {s s' : Scheduler} {l : List ContextSwitch}

theorem core_eq (h : Turned c s s' l) {sw : ContextSwitch} (hsw : sw ∈ l) : sw.core = c := by
  cases h with
  | stays => cases hsw
  | begins => rw [List.mem_singleton.1 hsw]
  | passes => rw [List.mem_singleton.1 hsw]

theorem length_le (h : Turned c s s' l) : l.length ≤ 1 := by
  cases h <;> simp

/-- A switch is made exactly when the current task changes. -/
theorem ne_nil_iff (h : Turned c s s' l) : l ≠ [] ↔ s'.current ≠ s.current := by
  cases h with
  | stays hsame => exact iff_of_false (fun hne => hne rfl) fun hne => hne hsame
  | begins hnone hcurrent =>
    rw [hnone, hcurrent]
    exact iff_of_true (List.cons_ne_nil _ _) (Option.some_ne_none _)
  | passes hbefore _ _ hafter _ hne =>
    rw [hbefore, hafter]
    exact iff_of_true (List.cons_ne_nil _ _) fun he => hne (Option.some.inj he).symm

end Turned

namespace Scheduler

variable {s s' : Scheduler} {new : List Task} {id : TaskId} {t : Task}

/-- The task that is left is found, even if older tasks with its id are over. -/
theorem Leaves.leavingTask? (h : s.Leaves id t s') :
    ∃ t', s'.leavingTask? id = some t' ∧ t'.context = t.context := by
  obtain ⟨t', hcontext, hlive | ⟨hgone, hid, hexited⟩⟩ := h
  · exact ⟨t', by rw [Scheduler.leavingTask?, hlive, Option.some_or], hcontext⟩
  · refine ⟨t', ?_, hcontext⟩
    rw [Scheduler.leavingTask?, hgone, Option.none_or, hexited, List.reverse_append,
      List.reverse_singleton, List.singleton_append]
    exact List.find?_cons_of_pos (decide_eq_true hid)

/-- The current task of a coherent scheduler is live. -/
theorem Coherent.task?_current (h : s.Coherent) (hid : s.current = some id) :
    ∃ t, s.task? id = some t :=
  Option.isSome_iff_exists.1 (h.contains_current hid)

theorem Turn.turned_none (h : Turn s new none s') (hco : s.Coherent) (c : CoreId) :
    Turned c s s' [] := by
  refine .stays (h.passes.stays rfl) fun id t' hid ht' => ?_
  obtain ⟨t, ht⟩ := hco.task?_current hid
  obtain ⟨t₁, hcontext, hlive | ⟨hgone, -⟩⟩ := h.leaves id t hid ht
  · obtain rfl : t₁ = t' := Option.some.inj (hlive.symm.trans ht')
    exact ⟨t, ht, hcontext⟩
  · -- what is current is live
    rw [hgone] at ht'
    cases ht'

/-- The switch that a turn asks for can be resolved, and is the one that is called for. -/
theorem Turn.turned_some {sw : Switch} (h : Turn s new (some sw) s') (hco : s.Coherent)
    (c : CoreId) : ∃ prepared, s'.prepare sw = .ok prepared ∧
      Turned c s s' [prepared.onCore c] := by
  obtain ⟨hleaving, hentering, hother⟩ := h.passes.turns sw rfl
  obtain ⟨next, hnext⟩ := h.coherent.task?_current hentering
  rw [Scheduler.prepare, hnext, hleaving]
  cases hcurrent : s.current with
  | none => exact ⟨_, rfl, .begins hcurrent hentering hnext⟩
  | some id =>
    obtain ⟨t, ht⟩ := hco.task?_current hcurrent
    have hleaves := h.leaves id t hcurrent ht
    obtain ⟨t', ht', hcontext⟩ := hleaves.leavingTask?
    obtain ⟨hstack, -, hspace⟩ := Context.mk.inj hcontext
    have hne : id ≠ sw.entering := fun he => hother (hcurrent.trans (congrArg some he))
    dsimp only
    rw [ht']
    refine ⟨_, rfl, ?_⟩
    have hturned := Turned.passes (c := c) hcurrent ht hleaves hentering hnext hne
    rw [← hstack, ← hspace] at hturned
    simp only [PreparedSwitch.onCore, Option.map_some, Option.some.injEq]
    exact hturned

end Scheduler

namespace Core

/-- Another state of the core, with the same tasks on their way to it. -/
structure Alike (c c' : Core) : Prop where
  id : c'.id = c.id
  online : c'.isOnline = c.isOnline
  arriving : c'.inbox.tasks = c.inbox.tasks

theorem Alike.refl (c : Core) : c.Alike c :=
  ⟨rfl, rfl, rfl⟩

theorem Alike.trans {c c' c'' : Core} (h : c.Alike c') (h' : c'.Alike c'') : c.Alike c'' :=
  ⟨h'.id.trans h.id, h'.online.trans h.online, h'.arriving.trans h.arriving⟩

end Core

namespace Kernel

variable {α β : Type} {s : System} {c : CoreId} {core : Core} {k : Kernel}

/-! ### Actions that do not touch the machine -/

/-- The machine is the same. -/
def SameMachine (k k' : Kernel) : Prop :=
  k'.machine = k.machine

instance : Std.Refl SameMachine where
  refl _ := rfl

instance : Trans SameMachine SameMachine SameMachine where
  trans {_ _ _} h h' := Eq.trans h' h

instance : Blind SameMachine where
  note _ _ := rfl
  tally _ _ _ _ := rfl
  updateCore _ _ _ := rfl

/-- The action leaves the machine as it is. -/
def Untouched (x : Action α) : Prop :=
  ∀ k : Kernel, (k.perform x).2.machine = k.machine

namespace Untouched

variable {x : Action α} {f : α → Action β}

theorem pure (a : α) : Untouched (Pure.pure a : Action α) :=
  Respects.pure (R := SameMachine) a

theorem bind (hx : Untouched x) (hf : ∀ a, Untouched (f a)) : Untouched (x >>= f) :=
  Respects.bind (R := SameMachine) hx hf

theorem note (event : Event) : Untouched (Kernel.note event) :=
  fun _ => rfl

theorem tally (counter : Counter) (amount : Nat) : Untouched (Kernel.tally counter amount) :=
  fun _ => rfl

theorem updateCore (id : CoreId) (g : Core → Core) : Untouched (Kernel.updateCore id g) :=
  fun _ => rfl

theorem onDirectory (g : Directory → α × Directory) : Untouched (Kernel.onDirectory g) :=
  fun _ => rfl

theorem coreAt (id : CoreId) : Untouched (Kernel.coreAt id) :=
  Respects.coreAt (R := SameMachine) id

theorem onScheduler (id : CoreId) (g : Scheduler → α × Scheduler) :
    Untouched (Kernel.onScheduler id g) :=
  Respects.onScheduler (R := SameMachine) id g

theorem askScheduler (id : CoreId) (g : Scheduler → Except Error α × Scheduler) :
    Untouched (Kernel.askScheduler id g) :=
  Respects.askScheduler (R := SameMachine) id g

theorem request (id : CoreId) (operation : Scheduler.Operation)
    (g : Scheduler → Except Error α × Scheduler) (answer : α → Scheduler.Answer) :
    Untouched (Kernel.request id operation g answer) :=
  Respects.request (R := SameMachine) id operation g answer

theorem drainInbox (id : CoreId) : Untouched (Kernel.drainInbox id) :=
  Respects.drainInbox (R := SameMachine) id

end Untouched

/-! ### Taking over the inbox -/

/-- The core has taken in at most the given tasks, and the same task is current. -/
def TakesIn (s : System) (c : CoreId) (core : Core) (tasks : List Task) (s' : System) : Prop :=
  ∃ core', s' = s.withCore c core' ∧ core.Alike core' ∧
    Scheduler.Calm core.scheduler tasks core'.scheduler

theorem TakesIn.after {s' : System} {core₁ : Core} {tasks tasks' : List Task}
    (halike : core.Alike core₁) (hcalm : Scheduler.Calm core.scheduler tasks core₁.scheduler)
    (h : TakesIn (s.withCore c core₁) c core₁ tasks' s') :
    TakesIn s c core (tasks ++ tasks') s' := by
  obtain ⟨core', rfl, halike', hcalm'⟩ := h
  exact ⟨core', System.withCore_withCore _ _, halike.trans halike', hcalm.trans hcalm'⟩

theorem ensures_coreFault_takesIn (hcore : s.core? c = some core)
    (hco : core.scheduler.Coherent) (e : Error) :
    Ensures s (coreFault c e : Action α) fun _ s' => TakesIn s c core [] s' := by
  refine Ensures.quiet (quiet_note _) fun _ =>
    Ensures.bind_ok (Ensures.updateCore hcore _ ⟨rfl, rfl⟩) (Ensures.get fun k _ => ?_)
  have hfaulted : core.Alike (core.setFlags { faulted := true }) := ⟨rfl, Bool.or_false _, rfl⟩
  intro k' hk'
  exact ⟨_, hk', hfaulted, .refl hco⟩

/-- A core that cannot take in a task halts. -/
theorem ensures_takeOver_takesIn (hcore : s.core? c = some core)
    (hco : core.scheduler.Coherent) (tasks : List Task) :
    Ensures s (takeOver c tasks) fun _ s' => TakesIn s c core tasks s' := by
  induction tasks generalizing s core with
  | nil =>
    exact Ensures.pure ⟨core, (System.withCore_self hcore).symm, .refl core, .refl hco⟩
  | cons task rest ih =>
    have hcalm := hco.calm_schedule task
    have hcore₁ := System.core?_withCore_self hcore
      { core with scheduler := (core.scheduler.schedule task).2 }
    have halike : core.Alike { core with scheduler := (core.scheduler.schedule task).2 } :=
      ⟨rfl, rfl, rfl⟩
    refine Ensures.bind (Ensures.attempt (Ensures.request hcore _ _ _ ?_))
    cases (core.scheduler.schedule task).1 with
    | ok _ => exact (ih hcore₁ hcalm.coherent).mono fun _ _ h => h.after halike hcalm
    | error e =>
      refine (ensures_coreFault_takesIn hcore₁ hcalm.coherent e).mono fun _ _ h => ?_
      obtain ⟨core', hs', halike', hcalm'⟩ := h
      have hrest : TakesIn _ c _ rest _ := ⟨core', hs', halike', hcalm'.mono rest⟩
      exact hrest.after halike hcalm

theorem ensures_deliverAll_takesIn (hcore : s.core? c = some core)
    (hco : core.scheduler.Coherent) (stalled : List TaskId) (mail : List Mail) :
    Ensures s (deliverAll c stalled mail) fun _ s' => TakesIn s c core [] s' := by
  have hcalm := hco.calm_deliverAll stalled mail
  refine (ensures_deliverAll hcore stalled mail).mono fun _ s' h => ?_
  exact ⟨_, h.2, ⟨rfl, rfl, rfl⟩, hcalm⟩

/-- Whether or not a core can take in what waits in its inbox, the same task is current, and no task
waits in the inbox then. -/
theorem ensures_drainInbox_takesIn (hcore : s.core? c = some core)
    (hco : core.scheduler.Coherent) :
    Ensures s (drainInbox c) fun _ s' => ∃ core', s' = s.withCore c core' ∧
      core'.id = core.id ∧ core'.isOnline = core.isOnline ∧ core'.inbox.tasks = [] ∧
      Scheduler.Calm core.scheduler core.inbox.tasks core'.scheduler := by
  refine Ensures.coreAt hcore (Ensures.bind_ok (Ensures.updateCore hcore _ ⟨rfl, rfl⟩) ?_)
  have hempty := System.core?_withCore_self hcore
    { core with inbox := (core.inbox.takeTasks.2).takeMail.2 }
  refine Ensures.bind ((ensures_takeOver_takesIn hempty hco core.inbox.tasks).mono
    fun r s₁ h₁ => ?_)
  obtain ⟨core₁, rfl, halike₁, hcalm₁⟩ := h₁
  rw [System.withCore_withCore]
  cases r with
  | error e => exact ⟨core₁, rfl, halike₁.id, halike₁.online, halike₁.arriving, hcalm₁⟩
  | ok _ =>
    have hcore₁ := System.core?_withCore_self hcore core₁
    refine Ensures.bind ((ensures_deliverAll_takesIn hcore₁ hcalm₁.coherent [] _).mono
      fun r s₂ h₂ => ?_)
    obtain ⟨core₂, rfl, halike₂, hcalm₂⟩ := h₂
    have halike := halike₁.trans halike₂
    have hcalm : Scheduler.Calm core.scheduler core.inbox.tasks core₂.scheduler := by
      have hboth := hcalm₁.trans hcalm₂
      rwa [List.append_nil] at hboth
    rw [System.withCore_withCore]
    cases r with
    | error e => exact ⟨core₂, rfl, halike.id, halike.online, halike.arriving, hcalm⟩
    | ok retained =>
      refine Ensures.updateCore (System.core?_withCore_self hcore core₂) _ ?_
      rw [System.withCore_withCore]
      exact ⟨_, rfl, halike.id, halike.online, halike.arriving, hcalm⟩


/-! ### Work under the lock -/

/-- The work was a turn of the scheduler of the core, with the given new tasks, and it has answered
the switch. After an error there is none. -/
structure Worked (s : System) (c : CoreId) (core : Core) (new : List Task) (Q : Scheduler → Prop)
    (r : Except Stop (α × Option Switch)) (s' : System) (core' : Core) (directory : Directory) :
    Prop where
  system : s' = (s.withCore c core').withDirectory directory
  parked : directory.parked = s.directory.parked
  alike : core.Alike core'
  staffed : core'.scheduler.Staffed
  turn : Scheduler.Turn core.scheduler new (r.toOption.bind Prod.snd) core'.scheduler
  answer : ∀ a, r = .ok a → Q core'.scheduler

/-- Work for the lock: it leaves the machine alone, and is a turn of every scheduler that satisfies
`pre`. After it, the scheduler satisfies `Q` if there was no error. -/
structure Works (c : CoreId) (pre : Scheduler → Prop) (new : List Task) (Q : Scheduler → Prop)
    (x : Action (α × Option Switch)) : Prop where
  untouched : Untouched x
  worked : ∀ s core, s.core? c = some core → core.scheduler.Coherent → pre core.scheduler →
    Ensures s x fun r s' => ∃ core' directory, Worked s c core new Q r s' core' directory

/-! ### The machine under the lock -/

/-- The result of the action and the kernel that it leaves satisfy `post`. -/
def Leads (k : Kernel) (x : Action α) (post : Except Stop α → Kernel → Prop) : Prop :=
  post (k.perform x).1 (k.perform x).2

namespace Leads

variable {x : Action α} {f : α → Action β} {post : Except Stop α → Kernel → Prop}
  {post' : Except Stop β → Kernel → Prop}

theorem mono {stronger : Except Stop α → Kernel → Prop} (h : k.Leads x stronger)
    (himp : ∀ r k', stronger r k' → post r k') : k.Leads x post :=
  himp _ _ h

theorem bind (h : k.Leads x fun r k' => match r with
      | .ok a => k'.Leads (f a) post'
      | .error e => post' (.error e) k') : k.Leads (x >>= f) post' := by
  rw [Leads, perform_bind]
  rw [Leads] at h
  rcases hr : k.perform x with ⟨_ | a, k'⟩ <;> rw [hr] at h <;> exact h

theorem attempt {post : Except Stop (Except Error α) → Kernel → Prop}
    (h : k.Leads x fun r k' => match r with
      | .ok a => post (.ok (.ok a)) k'
      | .error (.failed e) => post (.ok (.error e)) k'
      | .error (.halted core) => post (.error (.halted core)) k') :
    k.Leads (Kernel.attempt x) post := by
  rw [Leads, perform_attempt]
  rw [Leads] at h
  rcases hr : k.perform x with ⟨(_ | _) | a, k'⟩ <;> rw [hr] at h <;> exact h

/-- What is known of the system holds, and the machine is as it was. -/
theorem of_ensures {post : Except Stop α → System → Prop} (h : Ensures k.system x post)
    (hx : Untouched x) : k.Leads x fun r k' => post r k'.system ∧ k'.machine = k.machine :=
  ⟨h k rfl, hx k⟩

end Leads

/-- The machine has made switches and loaded the address spaces that they ask for, and has handed
out and sent nothing. -/
structure Switched (m : Machine) (l : List ContextSwitch) (m' : Machine) : Prop where
  currentCore : m'.currentCore = m.currentCore
  switches : m'.switches = m.switches ++ l
  loads : m'.loads = l.foldl ContextSwitch.load m.loads
  heap : m'.heap = m.heap
  nextRoot : m'.nextRoot = m.nextRoot
  interrupts : m'.interrupts = m.interrupts

theorem Switched.refl (m : Machine) : Switched m [] m :=
  ⟨rfl, (List.append_nil _).symm, rfl, rfl, rfl, rfl⟩

theorem Switched.trans {m m' m'' : Machine} {l l' : List ContextSwitch} (h : Switched m l m')
    (h' : Switched m' l' m'') : Switched m (l ++ l') m'' :=
  ⟨h'.currentCore.trans h.currentCore, by rw [h'.switches, h.switches, List.append_assoc],
    by rw [h'.loads, h.loads, List.foldl_append], h'.heap.trans h.heap,
    h'.nextRoot.trans h.nextRoot, h'.interrupts.trans h.interrupts⟩

theorem Switched.issued {m m' : Machine} {l : List ContextSwitch} (h : Switched m l m') {a : Asset}
    (ha : m.Issued a) : m'.Issued a := by
  cases a with
  | stack top =>
    rw [Machine.Issued, h.heap]
    exact ha
  | space root =>
    rw [Machine.Issued, h.nextRoot]
    exact ha

theorem leads_mask :
    k.Leads (onMachine Machine.maskInterrupts) fun r k' => (∃ enabled, r = .ok enabled) ∧
      k'.system = k.system ∧ Switched k.machine [] k'.machine :=
  ⟨⟨_, rfl⟩, rfl, rfl, (List.append_nil _).symm, rfl, rfl, rfl, rfl⟩

theorem leads_unmask (enabled : Bool) :
    k.Leads (unmask enabled) fun r k' => r = .ok () ∧ k'.system = k.system ∧
      Switched k.machine [] k'.machine :=
  ⟨rfl, rfl, rfl, (List.append_nil _).symm, rfl, rfl, rfl, rfl⟩

theorem leads_performSwitch (prepared : Option PreparedSwitch) :
    k.Leads (performSwitch prepared) fun r k' => r = .ok () ∧ k'.system = k.system ∧
      Switched k.machine (prepared.toList.map (·.onCore k.machine.currentCore)) k'.machine := by
  cases prepared with
  | none => exact ⟨rfl, rfl, .refl _⟩
  | some prepared =>
    obtain ⟨saved, resumed, stackTop, activated, preempted⟩ := prepared
    cases activated <;> cases preempted <;> exact ⟨rfl, rfl, rfl, rfl, rfl, rfl, rfl, rfl⟩

/-- The switch of a turn is made. -/
theorem leads_prepareSwitch {s₀ : Scheduler} {new : List Task} {switch : Option Switch}
    (hcore : k.system.core? c = some core) (hco : s₀.Coherent)
    (h : Scheduler.Turn s₀ new switch core.scheduler) :
    k.Leads (prepareSwitch c switch) fun r k' => k' = k ∧ ∃ prepared, r = .ok prepared ∧
      Turned c s₀ core.scheduler (prepared.toList.map (·.onCore c)) := by
  cases switch with
  | none => exact ⟨rfl, none, rfl, h.turned_none hco c⟩
  | some switch =>
    obtain ⟨prepared, hprepared, hturned⟩ := h.turned_some hco c
    rw [prepareSwitch, Leads, perform_bind, perform_coreAt hcore]
    dsimp only
    rw [hprepared]
    exact ⟨rfl, some prepared, rfl, hturned⟩

/-- The core `c` is the given one now, with the tasks and the state that it had. -/
def Shows (k : Kernel) (c : CoreId) (core core' : Core) (k' : Kernel) : Prop :=
  k'.system = k.system.withCore c core' ∧ core.Alike core' ∧ core'.scheduler = core.scheduler

theorem leads_coreFault (hcore : k.system.core? c = some core) (e : Error) :
    k.Leads (coreFault c e : Action α) fun r k' => (∀ a, r ≠ .ok a) ∧ k'.machine = k.machine ∧
      ∃ core', Shows k c core core' k' := by
  have hsystem := System.system_modifyCore (k := k.noted (.fault c e)) hcore
    fun core => core.setFlags { faulted := true }
  exact ⟨fun a ha => (by cases ha), rfl, _, hsystem, ⟨rfl, Bool.or_false _, rfl⟩, rfl⟩

theorem leads_publish (hcore : k.system.core? c = some core) :
    k.Leads (publish c) fun r k' => r = .ok () ∧ k'.machine = k.machine ∧
      Shows k c core core.publish k' :=
  ⟨rfl, rfl, System.system_modifyCore hcore Core.publish, ⟨rfl, rfl, rfl⟩, rfl⟩

/-- The end of work under the lock makes the switch of the turn. -/
theorem leads_conclude {s₀ : Scheduler} {new : List Task}
    (hcore : k.system.core? c = some core) (hc : k.machine.currentCore = c) (hco : s₀.Coherent)
    (enabled : Bool)
    (r : Except Error (α × Option Switch))
    (h : Scheduler.Turn s₀ new (r.toOption.bind Prod.snd) core.scheduler) :
    k.Leads
      (match r with
        | .error e =>
          if e.isFatal then
            coreFault c e
          else do
            publish c
            unmask enabled
            fail e
        | .ok (value, switch) => do
          let prepared ← prepareSwitch c switch
          publish c
          performSwitch prepared
          unmask enabled
          return value)
      fun r' k' => (∀ a, r' = .ok a → ∃ switch, r = .ok (a, switch)) ∧
        (∃ core', Shows k c core core' k') ∧
        ∃ l, Switched k.machine l k'.machine ∧ Turned c s₀ core.scheduler l := by
  cases r with
  | error e =>
    -- whatever fails leaves the current task as it is, so that no switch is due
    have hturned : Turned c s₀ core.scheduler [] := h.turned_none hco c
    dsimp only
    split
    · refine (leads_coreFault hcore e).mono fun r' k' hr' => ?_
      obtain ⟨hfailed, hmachine, core', hshows⟩ := hr'
      exact ⟨fun a ha => absurd ha (hfailed a), ⟨core', hshows⟩, [], hmachine ▸ .refl _, hturned⟩
    · refine Leads.bind ((leads_publish hcore).mono fun r' k' hr' => ?_)
      obtain ⟨rfl, hmachine, hsystem, hshows⟩ := hr'
      refine Leads.bind ((leads_unmask enabled).mono fun r'' k'' hr'' => ?_)
      obtain ⟨rfl, hsystem', hswitched⟩ := hr''
      rw [hmachine] at hswitched
      exact ⟨fun a ha => (by cases ha), ⟨_, hsystem'.trans hsystem, hshows⟩, [], hswitched,
        hturned⟩
  | ok p =>
    obtain ⟨value, switch⟩ := p
    have hturn : Scheduler.Turn s₀ new switch core.scheduler := h
    refine Leads.bind ((leads_prepareSwitch hcore hco hturn).mono fun r' k' hr' => ?_)
    obtain ⟨rfl, prepared, rfl, hturned⟩ := hr'
    refine Leads.bind ((leads_publish hcore).mono fun r' k' hr' => ?_)
    obtain ⟨rfl, hmachine, hsystem, hshows⟩ := hr'
    refine Leads.bind ((leads_performSwitch prepared).mono fun r₁ k₁ h₁ => ?_)
    obtain ⟨rfl, hsystem₁, hswitched₁⟩ := h₁
    refine Leads.bind ((leads_unmask enabled).mono fun r₂ k₂ h₂ => ?_)
    obtain ⟨rfl, hsystem₂, hswitched₂⟩ := h₂
    have hswitched := hswitched₁.trans hswitched₂
    rw [hmachine, List.append_nil, hc] at hswitched
    refine ⟨fun a ha => ?_, ⟨_, hsystem₂.trans (hsystem₁.trans hsystem), hshows⟩, _, hswitched,
      hturned⟩
    cases ha
    exact ⟨switch, rfl⟩

/-- What a call under the lock leaves behind: the tasks that waited in the inbox have been taken
in, and the switches are those that the change of the current task calls for. -/
structure Handled (k : Kernel) (core : Core) (new : List Task) (core' : Core)
    (l : List ContextSwitch) (k' : Kernel) : Prop where
  system : ∃ directory, k'.system = (k.system.withCore core.id core').withDirectory directory ∧
    directory.parked = k.directory.parked
  machine : Switched k.machine l k'.machine
  id : core'.id = core.id
  online : core'.isOnline = core.isOnline
  arriving : core'.inbox.tasks = []
  staffed : core'.scheduler.Staffed
  turn : ∃ switch, Scheduler.Turn core.scheduler (core.inbox.tasks ++ new) switch core'.scheduler
  turned : Turned core.id core.scheduler core'.scheduler l

/-- Interrupts are masked, and what waited in the inbox of the core has been taken in as far as
possible. -/
structure Drained (k : Kernel) (core core' : Core) (k' : Kernel) : Prop where
  system : k'.system = k.system.withCore core.id core'
  machine : Switched k.machine [] k'.machine
  id : core'.id = core.id
  online : core'.isOnline = core.isOnline
  arriving : core'.inbox.tasks = []
  calm : Scheduler.Calm core.scheduler core.inbox.tasks core'.scheduler

theorem leads_drainInbox (hfound : k.system.core? core.id = some core)
    (hco : core.scheduler.Coherent) {k₁ : Kernel} (hsystem : k₁.system = k.system)
    (hmachine : Switched k.machine [] k₁.machine) :
    k₁.Leads (drainInbox core.id) fun _ k' => ∃ core', Drained k core core' k' := by
  rw [← hsystem] at hfound
  refine (Leads.of_ensures (ensures_drainInbox_takesIn hfound hco) (.drainInbox _)).mono
    fun r k' h => ?_
  obtain ⟨⟨core', hsystem', hid, honline, harriving, hcalm⟩, hmachine'⟩ := h
  rw [hsystem] at hsystem'
  exact ⟨core', hsystem', hmachine' ▸ hmachine, hid, honline, harriving, hcalm⟩

namespace Drained

variable {core₁ core₂ : Core} {k₁ k₂ : Kernel} {new : List Task} {Q : Scheduler → Prop}

theorem found (h : Drained k core core₁ k₁) (hfound : k.system.core? core.id = some core) :
    k₁.system.core? core.id = some core₁ := by
  rw [h.system]
  exact System.core?_withCore_self hfound core₁

/-- Nothing is done after the inbox has been taken in. -/
theorem handled (h : Drained k core core₁ k₁) (hco : core.scheduler.Coherent)
    (hstaffed : core₁.scheduler.Staffed) : Handled k core new core₁ [] k₁ := by
  have hturn := (h.calm.trans ((Scheduler.Calm.refl h.calm.coherent).mono new)).turn
  exact ⟨⟨k.directory, h.system, rfl⟩, h.machine, h.id, h.online, h.arriving, hstaffed,
    ⟨none, hturn⟩, hturn.turned_none hco _⟩

/-- Work is done after the inbox has been taken in, and then it is concluded. -/
theorem handled_worked (h : Drained k core core₁ k₁) {r : Except Stop (α × Option Switch)}
    {directory : Directory} (hw : Worked k₁.system core.id core₁ new Q r k₂.system core₂ directory)
    (hmachine : k₂.machine = k₁.machine) {core' : Core} {l : List ContextSwitch} {k' : Kernel}
    (hshows : Shows k₂ core.id core₂ core' k') (hswitched : Switched k₂.machine l k'.machine)
    (hturned : Turned core.id core.scheduler core₂.scheduler l) :
    Handled k core new core' l k' := by
  obtain ⟨hsystem, halike, hscheduler⟩ := hshows
  have hturn := h.calm.turn_trans hw.turn
  have hparked : k₁.directory.parked = k.directory.parked :=
    congrArg (fun s : System => s.directory.parked) h.system
  rw [← hscheduler] at hturned hturn
  rw [hmachine] at hswitched
  refine ⟨⟨directory, ?_, hw.parked.trans hparked⟩, h.machine.trans hswitched,
    (hw.alike.trans halike).id.trans h.id, (hw.alike.trans halike).online.trans h.online,
    (hw.alike.trans halike).arriving.trans h.arriving, hscheduler ▸ hw.staffed, ⟨_, hturn⟩,
    hturned⟩
  rw [hsystem, hw.system, h.system]
  simp only [System.withCore, System.withDirectory, List.set_set]

end Drained

/-- A call under the lock takes in what waits in the inbox, and makes the switch of the work. -/
theorem leads_locked {new : List Task} {pre Q : Scheduler → Prop}
    (hcore : k.localCore? = some core) (hid : core.id = k.machine.currentCore)
    (hco : core.scheduler.Coherent)
    {operation : CoreId → Action (α × Option Switch)}
    (hop : Works core.id pre new Q (operation core.id))
    (hpre : ∀ s, Scheduler.Calm core.scheduler core.inbox.tasks s → pre s ∧ s.Staffed) :
    k.Leads (locked operation) fun r k' => ∃ core' l, Handled k core new core' l k' ∧
      ∀ a, r = .ok a → Q core'.scheduler := by
  have hlocal : k.perform localCore = (.ok core, k) := perform_coreAt hcore
  have hfound : k.system.core? core.id = some core := by
    rw [hid]
    exact hcore
  refine Leads.bind ?_
  rw [Leads, hlocal]
  refine Leads.bind (leads_mask.mono fun r k₁ h₁ => ?_)
  obtain ⟨⟨enabled, rfl⟩, hsystem₁, hmasked⟩ := h₁
  refine Leads.bind ((leads_drainInbox hfound hco hsystem₁ hmasked).mono fun r k₂ h₂ => ?_)
  obtain ⟨core₂, hdrained⟩ := h₂
  obtain ⟨hpre₂, hstaffed₂⟩ := hpre _ hdrained.calm
  cases r with
  | error e => exact ⟨core₂, [], hdrained.handled hco hstaffed₂, fun a ha => (by cases ha)⟩
  | ok _ =>
    -- the work begins with what the inbox has left, and knows nothing of the machine
    have hfound₂ := hdrained.found hfound
    refine Leads.bind (Leads.attempt ((Leads.of_ensures (hop.worked _ _ hfound₂
      hdrained.calm.coherent hpre₂) hop.untouched).mono fun r k₃ h₃ => ?_))
    obtain ⟨⟨core₃, directory, hworked⟩, hmachine₃⟩ := h₃
    have hfound₃ : k₃.system.core? core.id = some core₃ := by
      rw [hworked.system]
      exact System.core?_withCore_self hfound₂ core₃
    have hc : k₃.machine.currentCore = core.id := by
      rw [hmachine₃, hdrained.machine.currentCore, hid]
    have hturn := hdrained.calm.turn_trans hworked.turn
    -- an error that halts the core skips the conclusion, any other one is passed on after it
    match r with
    | .ok p =>
      refine (leads_conclude hfound₃ hc hco enabled (.ok p) hturn).mono fun r k' h => ?_
      obtain ⟨-, ⟨core', hshows⟩, l, hswitched, hturned⟩ := h
      exact ⟨core', l, hdrained.handled_worked hworked hmachine₃ hshows hswitched hturned,
        fun a ha => hshows.2.2 ▸ hworked.answer p rfl⟩
    | .error (.failed e) =>
      refine (leads_conclude hfound₃ hc hco enabled (.error e) hturn).mono fun r k' h => ?_
      obtain ⟨hanswer, ⟨core', hshows⟩, l, hswitched, hturned⟩ := h
      refine ⟨core', l, hdrained.handled_worked hworked hmachine₃ hshows hswitched hturned,
        fun a ha => ?_⟩
      obtain ⟨switch, hswitch⟩ := hanswer a ha
      cases hswitch
    | .error (.halted _) =>
      have hshows : Shows k₃ core.id core₃ core₃ k₃ :=
        ⟨(System.withCore_self hfound₃).symm, .refl core₃, rfl⟩
      exact ⟨core₃, [], hdrained.handled_worked hworked hmachine₃ hshows (.refl _)
        (hturn.turned_none hco _), fun a ha => (by cases ha)⟩

end Kernel

end Microkernel
