/-
Reschedule interrupts on their way.

Whoever leaves something for another core sends it a reschedule interrupt. The interrupt is on its
way until the core handles one, which it may do at any time, with other operations of any core in
between (`inFlight`). Until then the core may find what was left for it at any other call, and
not every call passes the turn.

* **`Reachable.undisturbed`**: a core that rests and is sent nothing goes on resting, and its mail
  is what it was or what was refused when the core took over its inbox;
* **`Reachable.handled`**: a core that handles an interrupt rests afterwards;
* **`no_reschedule_lost`**: so for what waits for a core, and for what the core neglects, there is
  an interrupt on its way.

Design notes: interrupts are told apart by the controller that they go to, so an interrupt for one
core counts for every core with the same controller. No two cores need to have different ones.
-/
import Microkernel.Proofs.Kernel.Courses
import Microkernel.Proofs.Kernel.Delivery
import Microkernel.Proofs.Kernel.Wakeups

namespace Microkernel

open Scheduler (Work heldRule)

namespace Core

variable {core core' : Core} {size : Nat} {s : Scheduler} {runs : Prop}

/-! ### Cores at rest -/

/-- No interrupt has to tell the core of anything: there is no task in its inbox, the core neglects
none, and the mail in its inbox would ready none. -/
structure Rested (core : Core) : Prop where
  tasks : core.inbox.tasks = []
  diligent : ¬ core.scheduler.Neglects
  held : core.scheduler.Obeys (heldRule core.inbox.mail)

/-- What is left in the inbox was refused. -/
theorem Sound.refuses_drained (h : core.Sound size) :
    core.drained.scheduler.Refuses core.drained.inbox.mail := by
  have hdelivered := h.delivered
  refine hdelivered.coherent.refuses_of_full (fun id t ht message rest hmail => ?_) fun id hid => ?_
  · obtain ⟨t', ht', hsend⟩ := hdelivered.refused id message rest List.not_mem_nil hmail
    obtain rfl : t' = t := Option.some.inj (ht'.symm.trans ht)
    exact hsend
  · by_contra hdead
    rw [hdelivered.same.contains, hdelivered.same.idle] at hdead
    exact hid (hdelivered.dropped id List.not_mem_nil hdead)

theorem Rested.diligent_drained (h : core.Rested) (hsound : core.Sound size) :
    ¬ core.drained.scheduler.Neglects := by
  have hheld : core.scheduler.Obeys ((heldRule core.inbox.mail).but []) :=
    fun id t ht _ => h.held id t ht
  have hsame : core.drained.scheduler = (core.scheduler.deliverAll [] core.inbox.mail).2 := by
    show ((core.scheduler.joinAll core.inbox.tasks).deliverAll [] core.inbox.mail).2 = _
    rw [h.tasks]
    rfl
  rw [hsame]
  exact (hsound.coherent.unturned_deliverAll hheld).diligent h.diligent

/-- A call leaves the core at rest, if it does not neglect a task at the end. -/
theorem Sound.rested (h : core.Sound size) (hwork : Work core.drained.scheduler s)
    (hs : ¬ s.Neglects)
    (hsame : core'.contents = ({ core.drained with scheduler := s } : Core).contents) :
    core'.Rested := by
  have hinbox : core'.inbox = core.drained.inbox := by rw [inbox_of_contents hsame]
  have hscheduler : core'.scheduler = s := by rw [scheduler_of_contents hsame]
  have hco := h.drained.coherent
  have hfull := hco.full_of_refuses h.refuses_drained
  refine ⟨hinbox ▸ rfl, hscheduler ▸ hs, ?_⟩
  rw [hinbox, hscheduler]
  exact hwork.held hco h.drained.mailboxes hfull

/-- What becomes of a core to which nothing is sent. If it runs, it may have taken over its
inbox. -/
structure GoesOn (runs : Prop) (core core' : Core) : Prop where
  rested : core.Rested → core'.Rested
  mail : core'.inbox.mail = core.inbox.mail ∨
    runs ∧ core'.inbox.mail = core.drained.inbox.mail

theorem GoesOn.of_contents (h : core'.contents = core.contents) : GoesOn runs core core' := by
  have hinbox := inbox_of_contents h
  have hscheduler := scheduler_of_contents h
  refine ⟨fun hrested => ⟨?_, ?_, ?_⟩, .inl (congrArg Inbox.mail hinbox)⟩
  · rw [hinbox]
    exact hrested.tasks
  · rw [hscheduler]
    exact hrested.diligent
  · rw [hscheduler, hinbox]
    exact hrested.held

theorem Sound.goesOn (h : core.Sound size) (hruns : runs) (hwork : Work core.drained.scheduler s)
    (hsame : core'.contents = ({ core.drained with scheduler := s } : Core).contents) :
    GoesOn runs core core' := by
  refine ⟨fun hrested => h.rested hwork ?_ hsame, .inr ⟨hruns, ?_⟩⟩
  · exact hwork.diligent h.drained.coherent (hrested.diligent_drained h)
  · rw [inbox_of_contents hsame]

/-- There is nothing in the inbox of the core, and it has come to neglect no task. -/
structure Unasked (before core : Core) : Prop where
  tasks : core.inbox.tasks = []
  mail : core.inbox.mail = []
  coherent : core.scheduler.Coherent
  diligent : ¬ before.scheduler.Neglects → ¬ core.scheduler.Neglects

/-- Whatever is asked of such a core, it finds nothing in its inbox. -/
theorem Unasked.called {before : Core} (h : Unasked before core)
    (hwork : Work core.drained.scheduler s) :
    Unasked before { core.drained with scheduler := s } := by
  have hsame : core.drained.scheduler = core.scheduler := by
    show ((core.scheduler.joinAll core.inbox.tasks).deliverAll [] core.inbox.mail).2 = _
    rw [h.tasks, h.mail]
    rfl
  rw [hsame] at hwork
  exact ⟨rfl, mail_drained_of_nil h.mail, hwork.coherent h.coherent,
    fun hbefore => hwork.diligent h.coherent (h.diligent hbefore)⟩

/-- What the core shows to the others does not matter. -/
theorem Unasked.contents_iff {before : Core} : Unasked before core.contents ↔ Unasked before core :=
  ⟨fun h => ⟨h.tasks, h.mail, h.coherent, h.diligent⟩,
    fun h => ⟨h.tasks, h.mail, h.coherent, h.diligent⟩⟩

theorem Unasked.goesOn {before : Core} (h : Unasked before core) (hmail : before.inbox.mail = []) :
    GoesOn runs before core := by
  refine ⟨fun hrested => ⟨h.tasks, h.diligent hrested.diligent, ?_⟩, .inl (h.mail.trans hmail.symm)⟩
  rw [h.mail]
  exact Scheduler.obeys_heldRule_nil _

end Core

namespace Kernel

variable {k k' k'' : Kernel} {c : CoreId} {core core' : Core} {hand hand' : List Task} {size : Nat}

/-! ### What becomes of a core that is sent nothing -/

/-- Every core to which nothing is sent goes on. -/
def Undisturbed (k k' : Kernel) : Prop :=
  ∀ c core core', k.core? c = some core → k'.core? c = some core' → ¬ k.Alerted k' c →
    Core.GoesOn (c = k.machine.currentCore) core core'

theorem Undisturbed.of_cores (h : ∀ c, k'.core? c = k.core? c) : Undisturbed k k' := by
  intro c core core' hcore hcore' _
  rw [h c, hcore] at hcore'
  cases hcore'
  exact .of_contents rfl

theorem contents_eq_of_held (hsame : k'.held c = k.held c) (hcore : k.core? c = some core)
    (hcore' : k'.core? c = some core') : core'.contents = core.contents := by
  rw [held, held, hcore, hcore'] at hsame
  exact Option.some.inj hsame

theorem Once.undisturbed (h : Once k k') (hk : k.system.Sound hand) (hk' : k'.system.Sound hand') :
    Undisturbed k k' := by
  intro c core core' hcore hcore' hquiet
  cases (h hk.ordinals).2 c with
  | stays hsame => exact .of_contents (contents_eq_of_held hsame hcore hcore')
  | alerted halerted => exact absurd halerted hquiet
  | halted hfaulted => exact absurd hfaulted (unfaulted_of_sound hk')
  | called hlocal hcore₀ hwork hcalled =>
    cases hcore.symm.trans hcore₀
    rw [held, hcore'] at hcalled
    exact (hk.settled c core hcore).sound.goesOn hlocal hwork (Option.some.inj hcalled)

/-- Any number of calls keep what one of them keeps, if the core is sent nothing. -/
theorem Stepwise.keeps {P : Core → Prop} (h : Stepwise k k') (hk : k.Numbered)
    (hcall : c = k.machine.currentCore → ∀ (core : Core) (s : Scheduler), P core.contents →
      Work core.drained.scheduler s → P ({ core.drained with scheduler := s } : Core).contents)
    (hP : ∀ x, k.held c = some x → P x) (hquiet : ¬ k.Alerted k' c) (hunfaulted : ¬ k'.Faulted c) :
    ∀ x, k'.held c = some x → P x := by
  induction h with
  | refl => exact hP
  | tail hbefore hstep ih =>
    have honward := Stepwise.onward hbefore hk
    obtain ⟨honward', hfares⟩ := hstep (honward.numbered hk)
    have hkept := ih (fun halerted => hquiet (honward'.alerted_before halerted))
      fun hfaulted => hunfaulted (honward'.faulted hfaulted)
    intro x hx
    cases hfares c with
    | stays hsame => exact hkept x (hsame ▸ hx)
    | alerted halerted => exact absurd (honward.alerted_after halerted) hquiet
    | halted hfaulted => exact absurd hfaulted hunfaulted
    | called hlocal hcore hwork hcalled =>
      rw [hcalled] at hx
      cases hx
      refine hcall (hlocal.trans honward.currentCore) _ _ (hkept _ ?_) hwork
      rw [held, hcore]
      rfl

/-! ### Bringing up a core -/

/-- A core that finds nothing in its inbox, however often it is called. -/
theorem Stepwise.goesOn (h : Stepwise k k') (hk : k.system.Sound hand)
    (hk' : k'.system.Sound hand') (hcore : k.core? c = some core)
    (hcore' : k'.core? c = some core') (hquiet : ¬ k.Alerted k' c)
    (hempty : c = k.machine.currentCore → core.inbox.tasks = [] ∧ core.inbox.mail = []) :
    Core.GoesOn (c = k.machine.currentCore) core core' := by
  have hheld : k.held c = some core.contents := by rw [held, hcore, Option.map_some]
  have hheld' : k'.held c = some core'.contents := by rw [held, hcore', Option.map_some]
  have hunfaulted : ¬ k'.Faulted c := unfaulted_of_sound hk'
  by_cases hc : c = k.machine.currentCore
  · obtain ⟨htasks, hmail⟩ := hempty hc
    have hbefore : core.Unasked core :=
      ⟨htasks, hmail, (hk.settled c core hcore).sound.coherent, fun hs => hs⟩
    have hafter : core.Unasked core'.contents := by
      refine h.keeps hk.ordinals (fun _ x s hx hwork => ?_) (fun x hx => ?_) hquiet hunfaulted _
        hheld'
      · exact Core.Unasked.contents_iff.2 ((Core.Unasked.contents_iff.1 hx).called hwork)
      · rw [hheld] at hx
        cases hx
        exact Core.Unasked.contents_iff.2 hbefore
    exact (Core.Unasked.contents_iff.1 hafter).goesOn hmail
  · refine .of_contents ?_
    refine h.keeps (P := fun x => x = core.contents) hk.ordinals (fun e => absurd e hc) ?_ hquiet
      hunfaulted _ hheld'
    intro x hx
    exact Option.some.inj (hx.symm.trans hheld)

/-- A core that is online is not brought up again. -/
theorem step_bringUp_of_online (hcore : k.localCore? = some core) (honline : core.isOnline = true) :
    (k.step .bringUp).2 = k := by
  have hlocal : k.perform localCore = (.ok core, k) := perform_coreAt hcore
  rw [step_bringUp, bringUp, perform_bind, hlocal]
  dsimp only
  rw [if_pos honline]
  rfl

theorem undisturbed_bringUp (hk : k.system.Sound hand)
    (hk' : (k.step .bringUp).2.system.Sound hand') : Undisturbed k (k.step .bringUp).2 := by
  intro c core core' hcore hcore' hquiet
  have hchain : Stepwise k (k.step .bringUp).2 := by
    rw [step_bringUp]
    exact stepwise_bringUp k
  by_cases honline : c = k.machine.currentCore ∧ core.isOnline = true
  · obtain ⟨rfl, honline⟩ := honline
    rw [step_bringUp_of_online hcore honline, hcore] at hcore'
    cases hcore'
    exact .of_contents rfl
  · -- there is nothing for a core that is not online
    refine hchain.goesOn hk hk' hcore hcore' hquiet fun hc => ?_
    have hoffline : core.isOnline = false := by
      rw [← Bool.not_eq_true]
      exact fun h => honline ⟨hc, h⟩
    obtain ⟨hmembers, hmail⟩ := hk.offline c core hcore hoffline
    exact ⟨List.map_eq_nil_iff.1 (List.append_eq_nil_iff.1 hmembers).2, hmail⟩

/-! ### Receiving -/

/-- A try that found no message took over the inbox of the core, and the next try will leave the
same mail there. -/
def Exhausts (s : System) (core : Core) (r : Except Stop (Option Message)) (s' : System) : Prop :=
  r = .ok none → ∃ core', s'.core? s.currentCore = some core' ∧
    core'.inbox.mail = core.drained.inbox.mail ∧ core'.drained.inbox.mail = core.drained.inbox.mail

theorem ensures_takeMessage_exhausts {s : System} (h : s.Sound hand)
    (hcore : s.core? s.currentCore = some core) (filter : Option Filter) :
    Ensures s
      (locked fun id => do
        match ← askScheduler id (·.receive filter) with
        | .received message => return (some message, none)
        | .waiting switch => return (none, switch))
      (Exhausts s core) := by
  have hsound := (h.settled _ core hcore).sound
  have hmail := hsound.drained.mailboxes
  have hco := hsound.drained.coherent
  refine ensures_locked_at hcore (h.ordinals _ core hcore) hsound ?_
  rcases hr : core.drained.scheduler.receive filter with ⟨result, scheduler⟩
  refine Ensures.bind ((ensures_askScheduler hcore hr).mono ?_)
  rintro r s₁ ⟨rfl, rfl⟩
  rcases hco.receive (fun id t ht => (hmail id t ht).1) hr with
    ⟨rfl, -, rfl⟩ | ⟨id, t, mailbox, -, -, -, -, -, ⟨message, rfl, rfl, -⟩ |
      ⟨switch, rfl, -, hres, -, -⟩⟩
  · exact Locked.error rfl fun hnone => by cases hnone
  · exact Ensures.pure (Locked.ok (Scheduler.resolved_none _) fun hnone => by cases hnone)
  · -- the task that waits has made no room
    have hwaits : (core.drained.scheduler.receive filter).1 = .ok (.waiting switch) := by rw [hr]
    have hrefuses := hco.refuses_receive hmail hsound.refuses_drained hwaits
    rw [hr] at hrefuses
    have hleft : scheduler.deliverAll [] core.drained.inbox.mail =
        (core.drained.inbox.mail, scheduler) := hrefuses.deliverAll
    refine Ensures.pure (Locked.ok hres fun _ => ⟨core.after scheduler, ?_, rfl, ?_⟩)
    · exact System.core?_withCore_self hcore _
    · show (scheduler.deliverAll [] core.drained.inbox.mail).1 = core.drained.inbox.mail
      rw [hleft]

theorem ensures_tryReceive_exhausts {s : System} (h : s.Sound hand)
    (hcore : s.core? s.currentCore = some core) (filter : Option Filter) :
    Ensures s (tryReceive filter) (Exhausts s core) := by
  refine Ensures.bind ((ensures_takeMessage_exhausts h hcore filter).mono fun r s' hr => ?_)
  match r with
  | .error e => exact fun hnone => by cases hnone
  | .ok none => exact Ensures.pure fun _ => hr rfl
  | .ok (some message) =>
    exact Ensures.quiet (quiet_tally _ _) fun _ => Ensures.pure fun hnone => by cases hnone

/-- The tries after one that found no message find the mail that it has left. -/
theorem Undisturbed.after_try (h : Undisturbed k k') (h' : Undisturbed k' k'')
    (honward : Onward k k') (honward' : Onward k' k'')
    (hexhausts : ∀ core, k.localCore? = some core → Exhausts k.system core (.ok none) k'.system) :
    Undisturbed k k'' := by
  intro c core core'' hcore hcore'' hquiet
  obtain ⟨core', hcore', -⟩ := honward.kept c core hcore
  have hgoes := h c core core' hcore hcore'
    fun halerted => hquiet (honward'.alerted_before halerted)
  have hgoes' := h' c core' core'' hcore' hcore''
    fun halerted => hquiet (honward.alerted_after halerted)
  refine ⟨fun hrested => hgoes'.rested (hgoes.rested hrested), ?_⟩
  by_cases hc : c = k.machine.currentCore
  · subst hc
    obtain ⟨core₁, hcore₁, hmail, hmail'⟩ := hexhausts core hcore rfl
    cases hcore'.symm.trans hcore₁
    refine .inr ⟨rfl, ?_⟩
    rcases hgoes'.mail with hsame | ⟨-, hsame⟩
    · exact hsame.trans hmail
    · exact hsame.trans hmail'
  · have hsame := hgoes.mail.resolve_right fun hruns => hc hruns.1
    have hsame' := hgoes'.mail.resolve_right fun hruns => hc (hruns.1.trans honward.currentCore)
    exact .inl (hsame'.trans hsame)

theorem undisturbed_receiveWithin (tries : Nat) (hk : k.system.Sound hand)
    (filter : Option Filter) : Undisturbed k (k.perform (receiveWithin tries filter)).2 := by
  induction tries generalizing k with
  | zero => exact .of_cores fun _ => rfl
  | succ tries ih =>
    have hsound := (ensures_tryReceive hk filter k rfl).sound
    have honce := once_tryReceive filter k
    have hfirst := honce.undisturbed hk hsound
    have hexhausts := fun core (hcore : k.localCore? = some core) =>
      ensures_tryReceive_exhausts hk hcore filter k rfl
    rw [receiveWithin, perform_bind]
    rcases hr : k.perform (tryReceive filter) with ⟨r, k'⟩
    rw [hr] at hsound honce hfirst hexhausts
    cases r with
    | error e => exact hfirst
    | ok received =>
      cases received with
      | some message => exact hfirst
      | none =>
        have hchain := stepwise_receiveWithin tries filter k'
        exact hfirst.after_try (ih hsound) (honce hk.ordinals).1 (hchain.onward hsound.ordinals)
          hexhausts

/-! ### One operation -/

/-- A core that is sent nothing in an operation goes on. -/
theorem Reachable.undisturbed (h : k.Reachable) (operation : Operation) :
    Undisturbed k (k.step operation).2 := by
  have hk' := (h.step operation).sound
  cases hsingle : operation.isSingle with
  | true =>
    have honce : Once k (k.step operation).2 := once_actionOf hsingle k
    exact honce.undisturbed h.sound hk'
  | false =>
    cases operation with
    | bringUp => exact undisturbed_bringUp h.sound hk'
    | receive filter =>
      rw [step_receive]
      exact undisturbed_receiveWithin _ h.sound filter
    | turnTo next => exact .of_cores fun _ => rfl
    | _ => cases hsingle

/-- No operation brings a core into being. -/
theorem Reachable.core?_before (h : k.Reachable) {operation : Operation}
    (hcore' : (k.step operation).2.core? c = some core') : ∃ core, k.core? c = some core := by
  by_cases hturn : ∃ next, operation = .turnTo next
  · obtain ⟨next, rfl⟩ := hturn
    exact ⟨core', hcore'⟩
  · have hchain : Stepwise k (k.step operation).2 :=
      stepwise_actionOf (fun next e => hturn ⟨next, e⟩) k
    obtain ⟨core, hcore, -⟩ := (hchain.onward h.sound.ordinals).cores c core' hcore'
    exact ⟨core, hcore⟩

/-- A core that handles a reschedule interrupt takes over its inbox and rests then. -/
theorem Reachable.handled (h : k.Reachable) (hcore : k.localCore? = some core)
    (hcore' : (k.step (.handleInterrupt .reschedule)).2.core? k.machine.currentCore = some core') :
    core'.Rested ∧ core'.inbox.mail = core.drained.inbox.mail := by
  have hstep : (k.step (.handleInterrupt .reschedule)).2 =
      (k.perform (handleInterrupt .reschedule)).2 := perform_answer _ fun _ => .done
  obtain ⟨core₁, hcalled⟩ := called_locked (W := fun s s' => s' = s.reschedule.2)
    h.sound.ordinals hcore fun c s => performs_reschedule () rfl
  obtain ⟨directory, hsystem⟩ := hcalled.system
  have hget : (k.step (.handleInterrupt .reschedule)).2.system.core? k.machine.currentCore =
      some core₁ := by
    rw [hstep, handleInterrupt, hsystem]
    exact System.core?_withCore_self (s := k.system) hcore core₁
  cases hcore'.symm.trans hget
  have hsound := (h.sound.settled _ core hcore).sound
  rcases hcalled.work with hfaulted | ⟨s, rfl, hsame⟩
  · exact absurd ⟨core', hcore', hfaulted⟩ (unfaulted_of_sound (h.step _).sound)
  · refine ⟨hsound.rested (.turn _) hsound.drained.coherent.diligent_reschedule hsame, ?_⟩
    rw [Core.inbox_of_contents hsame]

/-! ### What a run brings for a core -/

/-- The core handles a reschedule interrupt. -/
abbrev Handles (k : Kernel) (c : CoreId) (operation : Operation) : Prop :=
  operation = .handleInterrupt .reschedule ∧ k.machine.currentCore = c

/-- The mail in the inbox of a core. -/
def mailAt (k : Kernel) (c : CoreId) : List Mail :=
  ((k.core? c).map fun core => core.inbox.mail).getD []

theorem mailAt_eq (hcore : k.core? c = some core) : k.mailAt c = core.inbox.mail := by
  rw [mailAt, hcore]
  rfl

/-- The reschedule interrupts that an operation sends to a core. -/
def alerts (c : CoreId) (k : Kernel) (operation : Operation) : List SentInterrupt :=
  ((k.step operation).2.machine.interrupts.drop k.machine.interrupts.length).filter fun i =>
    i.kind = .reschedule ∧ (k.core? c).map Core.apic = some i.target

/-- The mail that an operation leaves for a core, behind the mail that is there. -/
def arrivals (c : CoreId) (k : Kernel) (operation : Operation) : List Mail :=
  ((k.step operation).2.mailAt c).drop (k.mailAt c).length

/-- What a run brings for a core since it last handled a reschedule interrupt, behind what there was
when the run began. -/
def since {α : Type} (c : CoreId) (brings : Kernel → Operation → List α) :
    List α → Kernel → List Operation → List α
  | found, _, [] => found
  | found, k, operation :: rest =>
    since c brings ((if k.Handles c operation then [] else found) ++ brings k operation)
      (k.step operation).2 rest

/-- The reschedule interrupts on their way to a core. The core handles all that have reached it at
once. -/
def inFlight (k : Kernel) (c : CoreId) (operations : List Operation) : List SentInterrupt :=
  since c (alerts c) [] k operations

/-- The mail that was left for a core since it last handled a reschedule interrupt. A core that
handles one takes over its inbox, so whatever was left since it last did so is among this mail. -/
def arrived (k : Kernel) (c : CoreId) (operations : List Operation) : List Mail :=
  since c (arrivals c) [] k operations

theorem Reachable.run_concat (h : k.Reachable) (operations : List Operation)
    (operation : Operation) :
    k.run (operations ++ [operation]) = ((k.run operations).step operation).2 := by
  induction operations generalizing k with
  | nil =>
    rw [List.nil_append, h.run_cons]
    rfl
  | cons first rest ih => rw [List.cons_append, h.run_cons, h.run_cons, ih (h.step first)]

theorem Reachable.since_concat {α : Type} (h : k.Reachable) (c : CoreId)
    (brings : Kernel → Operation → List α) (found : List α) (operations : List Operation)
    (operation : Operation) :
    since c brings found k (operations ++ [operation]) =
      (if (k.run operations).Handles c operation then [] else since c brings found k operations) ++
        brings (k.run operations) operation := by
  induction operations generalizing k found with
  | nil => rfl
  | cons first rest ih =>
    rw [List.cons_append, since, ih (h.step first), h.run_cons]
    rfl

theorem not_alerted_of_alerts {operation : Operation} (hcore : k.core? c = some core)
    (h : alerts c k operation = []) : ¬ k.Alerted (k.step operation).2 c := by
  rintro ⟨core₁, hcore₁, i, hi, htarget, hkind⟩
  cases hcore.symm.trans hcore₁
  have hsent : i ∈ alerts c k operation := by
    refine List.mem_filter.2 ⟨hi, decide_eq_true ⟨hkind, ?_⟩⟩
    rw [hcore, htarget]
    rfl
  rw [h] at hsent
  cases hsent

/-- What is there already does not arrive, nor does what is left of it. -/
theorem arrivals_of_mail {operation : Operation} (hsound : core.Sound size)
    (hcore : k.core? c = some core) (hcore' : (k.step operation).2.core? c = some core')
    (h : core'.inbox.mail = core.inbox.mail ∨ core'.inbox.mail = core.drained.inbox.mail) :
    arrivals c k operation = [] := by
  rw [arrivals, mailAt_eq hcore, mailAt_eq hcore']
  refine List.drop_eq_nil_of_le ?_
  rcases h with h | h
  · exact Nat.le_of_eq (congrArg List.length h)
  · exact (congrArg List.length h).trans_le hsound.delivered.sublist.length_le

/-! ### Interrupts on their way -/

/-- In the operation the core took over its inbox, and what was left of the mail was refused. -/
structure Leaves (k : Kernel) (c : CoreId) (operation : Operation) (mail : List Mail) : Prop where
  runs : k.machine.currentCore = c
  tried : ∃ core, k.core? c = some core ∧ core.drained.inbox.mail = mail ∧
    core.drained.scheduler.Refuses mail ∧
      (operation = .handleInterrupt .reschedule ∨ core.inbox.mail ≠ mail)
  left : (k.step operation).2.mailAt c = mail

/-- A core that no interrupt is on its way to: it rests, no mail has come since, and what is in its
inbox was refused. -/
structure Served (k : Kernel) (c : CoreId) (operations : List Operation) (core : Core) : Prop where
  rested : core.Rested
  arrived : k.arrived c operations = []
  refused : core.inbox.mail ≠ [] → ∃ before operation after,
    operations = before ++ operation :: after ∧ (k.run before).Leaves c operation core.inbox.mail

section

variable {operations : List Operation} {operation : Operation}

theorem served_new {config : Config} {apics : List Nat} (h : Kernel.new config apics = .ok k)
    (hcore : k.core? c = some core) : Served k c [] core := by
  obtain ⟨-, -, hcores⟩ := parts_of_new h
  obtain ⟨apic, rfl⟩ := hcores c core hcore
  refine ⟨⟨rfl, fun hneglects => ?_, Scheduler.obeys_heldRule_nil _⟩, rfl,
    fun hmail => absurd rfl hmail⟩
  exact absurd hneglects.ready fun hready => hready rfl

/-- A core that handles an interrupt is served by it. -/
theorem served_of_handles (hk : k.Reachable) (hcore : (k.run operations).core? c = some core)
    (hcore' : ((k.run operations).step operation).2.core? c = some core')
    (hhandles : (k.run operations).Handles c operation) :
    Served k c (operations ++ [operation]) core' := by
  have hrun := hk.run operations
  have hsound := (hrun.sound.settled c core hcore).sound
  have harrived := hk.since_concat c (arrivals c) [] operations operation
  rw [if_pos hhandles, List.nil_append] at harrived
  obtain ⟨rfl, rfl⟩ := hhandles
  obtain ⟨hrested, hmail⟩ := hrun.handled hcore hcore'
  refine ⟨hrested, ?_, fun _ => ⟨operations, _, [], rfl, rfl, ?_, mailAt_eq hcore'⟩⟩
  · exact harrived.trans (arrivals_of_mail hsound hcore hcore' (.inr hmail))
  · exact ⟨core, hcore, hmail.symm, hmail ▸ hsound.refuses_drained, .inl rfl⟩

/-- A core that is served and that is sent nothing stays so. -/
theorem Served.step (h : Served k c operations core) (hk : k.Reachable)
    (hcore : (k.run operations).core? c = some core)
    (hcore' : ((k.run operations).step operation).2.core? c = some core')
    (hhandles : ¬ (k.run operations).Handles c operation)
    (halerts : alerts c (k.run operations) operation = []) :
    Served k c (operations ++ [operation]) core' := by
  have hrun := hk.run operations
  have hsound := (hrun.sound.settled c core hcore).sound
  have hgoes := hrun.undisturbed operation c core core' hcore hcore'
    (not_alerted_of_alerts hcore halerts)
  refine ⟨hgoes.rested h.rested, ?_, fun hne => ?_⟩
  · have harrived := hk.since_concat c (arrivals c) [] operations operation
    have hbefore : since c (arrivals c) [] k operations = [] := h.arrived
    rw [if_neg hhandles, hbefore, List.nil_append] at harrived
    exact harrived.trans (arrivals_of_mail hsound hcore hcore' (hgoes.mail.imp_right And.right))
  · by_cases hsame : core'.inbox.mail = core.inbox.mail
    · -- what is there was refused before
      rw [hsame] at hne
      obtain ⟨before, tried, after, rfl, hleaves⟩ := h.refused hne
      refine ⟨before, tried, after ++ [operation], ?_, hsame ▸ hleaves⟩
      rw [List.append_assoc, List.cons_append]
    · obtain ⟨hruns, hmail⟩ := hgoes.mail.resolve_left hsame
      refine ⟨operations, operation, [], rfl, hruns.symm, ?_, mailAt_eq hcore'⟩
      exact ⟨core, hcore, hmail.symm, hmail ▸ hsound.refuses_drained, .inr fun e => hsame e.symm⟩

end

/-- Every core that no interrupt is on its way to is served. -/
theorem served_of_inFlight {config : Config} {apics : List Nat}
    (h : Kernel.new config apics = .ok k) {operations : List Operation}
    (hcore : (k.run operations).core? c = some core) (hnone : k.inFlight c operations = []) :
    Served k c operations core := by
  have hk := Reachable.new h
  induction operations using List.reverseRecOn generalizing core with
  | nil => exact served_new h hcore
  | append_singleton operations operation ih =>
    rw [hk.run_concat] at hcore
    rw [inFlight, hk.since_concat] at hnone
    obtain ⟨hbefore, halerts⟩ := List.append_eq_nil_iff.1 hnone
    obtain ⟨core₀, hcore₀⟩ := (hk.run operations).core?_before hcore
    by_cases hhandles : (k.run operations).Handles c operation
    · exact served_of_handles hk hcore₀ hcore hhandles
    · rw [if_neg hhandles] at hbefore
      exact (ih hcore₀ hbefore).step hk hcore₀ hcore hhandles halerts

/-- However late cores handle the reschedule interrupts that are sent to them, one is on its way to
every core that has a task in its inbox, or mail that was left there since it last took over its
inbox, and to every core that dispatches and has its idle task current though another task is
ready. When none is on its way, there is no such task, and what mail there is was refused when the
core last tried to deliver it. -/
theorem no_reschedule_lost {config : Config} {apics : List Nat}
    (h : Kernel.new config apics = .ok k) (operations : List Operation)
    (hcore : (k.run operations).core? c = some core) :
    (core.inbox.tasks ≠ [] ∨ k.arrived c operations ≠ [] ∨ core.scheduler.Neglects →
      k.inFlight c operations ≠ []) ∧
    (k.inFlight c operations = [] →
      core.inbox.tasks = [] ∧ ¬ core.scheduler.Neglects ∧
        (core.inbox.mail ≠ [] → ∃ before operation after,
          operations = before ++ operation :: after ∧
            (k.run before).Leaves c operation core.inbox.mail)) := by
  have hserved := fun hnone => served_of_inFlight h hcore hnone
  constructor
  · intro hwaits hnone
    obtain ⟨hrested, harrived, -⟩ := hserved hnone
    rcases hwaits with htasks | hmail | hneglects
    · exact htasks hrested.tasks
    · exact hmail harrived
    · exact hrested.diligent hneglects
  · intro hnone
    obtain ⟨hrested, -, hrefused⟩ := hserved hnone
    exact ⟨hrested.tasks, hrested.diligent, hrefused⟩

/-- The first core spawns two tasks, and the second of them is left for the other core. -/
def handover : List Operation :=
  opening ++ [.turnTo 0, .spawn "first" 0x1000 .other, .spawn "second" 0x1000 .other]

/-- The other core looks, and then two messages are left for its task. It has room for one. -/
def crowding : List Operation :=
  handover ++ [.turnTo 1, .handleInterrupt .reschedule, .turnTo 0] ++ mailing ++
    [.handleInterrupt .reschedule]

/-- The interrupt for the task is on its way, and of the messages one was refused. -/
theorem no_reschedule_lost_crowding :
    (∃ core, (pair.run handover).core? 1 = some core ∧ core.inbox.tasks ≠ [] ∧
      pair.inFlight 1 handover ≠ []) ∧
    ∃ core, (pair.run crowding).core? 1 = some core ∧ pair.inFlight 1 crowding = [] ∧
      core.inbox.mail ≠ [] ∧ ∃ before operation after, crowding = before ++ operation :: after ∧
        (pair.run before).Leaves 1 operation core.inbox.mail := by
  have htasks : ((pair.run handover).core? 1).map (fun core => core.inbox.tasks.length) =
      some 1 := by
    decide +kernel
  have hmail : ((pair.run crowding).core? 1).map (fun core => core.inbox.mail.length) = some 1 := by
    decide +kernel
  have hnone : pair.inFlight 1 crowding = [] := by decide +kernel
  obtain ⟨core, hcore, htasks⟩ := Option.map_eq_some_iff.1 htasks
  obtain ⟨core', hcore', hmail⟩ := Option.map_eq_some_iff.1 hmail
  have hne : core.inbox.tasks ≠ [] := fun e => by simp [e] at htasks
  have hne' : core'.inbox.mail ≠ [] := fun e => by simp [e] at hmail
  have hsent := (no_reschedule_lost new_pair handover hcore).1 (.inl hne)
  obtain ⟨-, -, hrefused⟩ := (no_reschedule_lost new_pair crowding hcore').2 hnone
  exact ⟨⟨core, hcore, hne, hsent⟩, core', hcore', hnone, hne', hrefused hne'⟩

end Kernel

end Microkernel
