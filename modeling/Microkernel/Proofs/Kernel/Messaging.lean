/-
Sending and receiving.

What a message comes to is said before it is sent: `System.sent` names the task that it resolves
to, and whether it goes into the mailbox at once or into the inbox of another core. Its sender is
the task that runs. What is received is returned to the task that runs afterwards.

* **`ensures_send`**: a message that is accepted goes there, and no other message is touched;
* **`ensures_tryReceive`**, **`ensures_receive`**: a message that is returned was in the mailbox of
  the task that gets it, and is in there no more.

Design notes: a message to the service registry is used up by the kernel, except for a lookup,
where the reply is what goes to a task.
-/
import Microkernel.Proofs.Kernel.Lifetime

namespace Microkernel

namespace Directory

variable {d : Directory} {recipient : Recipient}

theorem isFatal_of_resolve {e : Error} (h : d.resolve recipient = .error e) :
    e.isFatal = false := by
  rw [resolve] at h
  split at h
  · rename_i hresolve
    cases h
    cases recipient with
    | task id => cases hresolve
    | service service =>
      rw [Registry.resolve] at hresolve
      split at hresolve <;> cases hresolve
      rfl
    | registry =>
      rw [Registry.resolve] at hresolve
      split at hresolve <;> cases hresolve
      rfl
  · split at h <;> cases h
    rfl

theorem homeOf_of_resolve {id : TaskId} {home : CoreId} (h : d.resolve recipient = .ok (id, home)) :
    d.homeOf id = some home := by
  rw [resolve] at h
  split at h
  · cases h
  · split at h
    · cases h
    · rename_i hhome
      cases h
      exact hhome

end Directory

namespace System

/-- The task that runs: the current one of the core whose turn it is. -/
def running (s : System) : Option TaskId :=
  (s.core? s.currentCore).bind fun core => core.scheduler.current

/-- What a message comes to that is brought to its recipient. -/
def routed (s : System) (message : Message) : TaskId → Delivery :=
  match s.directory.resolve message.recipient with
  | .error _ => Core.nothing
  | .ok (id, home) =>
    Core.only id
      (if home = s.currentCore then { direct := [message] } else { posted := [message] })

/-- The message that the kernel answers when a task asks it something about services. -/
def reply (s : System) (sender : TaskId) : Body → Option Message
  | .services (.lookup service) =>
    some ⟨kernelSender, .task sender,
      .services (.reply service (s.directory.registry.provider? service))⟩
  | _ => none

/-- The message that goes to a task when the running task sends something. -/
def outgoing (s : System) (recipient : Recipient) (body : Body) : Option Message :=
  let sender := s.running.getD kernelSender
  if recipient = .registry ∧ s.directory.registry.registryTask = none then s.reply sender body
  else some ⟨sender, recipient, body⟩

/-- What a message comes to, if there is one. -/
def routed? (s : System) (message : Option Message) : TaskId → Delivery :=
  (message.map s.routed).getD Core.nothing

/-- What comes of sending, if it is accepted. -/
def sent (s : System) (recipient : Recipient) (body : Body) : TaskId → Delivery :=
  s.routed? (s.outgoing recipient body)

end System

namespace Kernel

variable {α β : Type} {s s' : System} {hand : List Task} {c : CoreId} {core core' : Core}

/-- A delivery that takes place unless there is an error. -/
def accepted (d : TaskId → Delivery) : Except Stop α → TaskId → Delivery
  | .ok _ => d
  | .error _ => Core.nothing

/-- A message goes to the task that runs. -/
def received : Except Stop (Option Message) → System → TaskId → Delivery
  | .ok (some message), s =>
    (s.running.map (Core.only · { returned := [message] })).getD Core.nothing
  | _, _ => Core.nothing

/-! ### Sending -/

theorem only_of_not_mem {id : TaskId} {d : Delivery} (hin : id ∈ core.members) (j : TaskId)
    (hj : j ∉ core.members) : Core.only id d j = {} := by
  rw [Core.only, if_neg]
  rintro rfl
  exact hj hin

theorem ensures_deliverLocally (h : s.Sound hand) {id : TaskId}
    (hhome : s.directory.homeOf id = some s.currentCore) (message : Message) :
    Ensures s (deliverLocally id message) fun r s' =>
      Preserves s hand (accepted (Core.only id { direct := [message] }) r) none r s' := by
  refine ensures_locked_sound h (fun _ => .same h rfl) fun core hcore => ?_
  have hsettled := h.settled _ core hcore
  have hin := (h.homeOf_iff_mem hcore id).1 hhome
  rcases hd : core.drained.scheduler.deliver id message with ⟨result, scheduler⟩
  refine Ensures.bind ((ensures_askScheduler hcore hd).mono ?_)
  rintro r s₁ ⟨rfl, rfl⟩
  rcases (coherent_drained h hcore).deliver hd with
    ⟨rfl, rfl, -⟩ | ⟨t, ht, -, ⟨e, rfl, rfl, hsend⟩ |
      ⟨woken, mailbox, rfl, hsend, hco, hr, -⟩⟩
  · exact Locked.error rfl (.drained h hcore rfl)
  · have he := (hsettled.sound.delivered.sound id t ht).1.isFatal_of_send hsend
    exact Locked.error he (.drained h hcore he)
  · cases woken with
    | false =>
      have hstep := hsettled.step_delivered ht hsend hco hr
      refine Ensures.pure (Locked.ok (Scheduler.resolved_none _) ?_)
      exact .step h hcore trivial hstep (only_of_not_mem hin)
    | true =>
      rcases hs : scheduler.reschedule with ⟨switch, scheduler'⟩
      obtain ⟨hco', hres, hr'⟩ := hco.reschedule hs
      have hstep := hsettled.step_delivered ht hsend hco' (hr.trans hr')
      refine Ensures.quiet (quiet_tally _ _) fun _ =>
        Ensures.bind_ok (ensures_onScheduler hcore hs) (Ensures.pure (Locked.ok hres ?_))
      exact .step h hcore trivial hstep (only_of_not_mem hin)

theorem ensures_post (h : s.Sound hand) {id : TaskId} (hhome : s.directory.homeOf id = some c)
    (message : Message) :
    Ensures s (post c id message) fun r s' =>
      Preserves s hand (accepted (Core.only id { posted := [message] }) r) none r s' := by
  obtain ⟨core, hcore, hin⟩ := (h.homes id c).1 hhome
  cases hencode : message.encode with
  | error e =>
    rw [post, hencode]
    exact Ensures.bind (Ensures.fail (.same h (Message.isFatal_of_encode hencode)))
  | ok frame =>
    rw [post, hencode]
    refine Ensures.bind_ok (Ensures.pure ⟨rfl, rfl⟩) (Ensures.coreAt hcore ?_)
    cases hpush : core.inbox.pushMail (id, message) with
    | error e =>
      obtain ⟨rfl, -⟩ := Inbox.pushMail_eq_error.1 hpush
      exact Ensures.bind (Ensures.fail (.same h rfl))
    | ok inbox =>
      have hstep := (h.settled c core hcore).step_pushMail hin hpush ⟨frame, hencode⟩
      refine Ensures.bind_ok (Ensures.pure ⟨rfl, rfl⟩) ?_
      refine Ensures.bind_ok (Ensures.updateCore hcore _ ⟨rfl, rfl⟩) ?_
      refine (ensures_interrupt (System.core?_withCore_self hcore _) _).mono fun r s' hr => ?_
      obtain ⟨rfl, rfl⟩ := hr
      exact .step h hcore trivial hstep (only_of_not_mem hin)

theorem ensures_route (h : s.Sound hand) (message : Message) :
    Ensures s (route message) fun r s' =>
      Preserves s hand (accepted (s.routed message) r) none r s' := by
  refine Ensures.get fun k hk => ?_
  subst hk
  rw [System.routed]
  cases hresolve : k.system.directory.resolve message.recipient with
  | error e =>
    have he : e.isFatal = false := Directory.isFatal_of_resolve hresolve
    have hdirectory : k.directory.resolve message.recipient = .error e := hresolve
    rw [hdirectory]
    exact Ensures.bind (Ensures.fail (.same h he))
  | ok target =>
    obtain ⟨id, home⟩ := target
    have hdirectory : k.directory.resolve message.recipient = .ok (id, home) := hresolve
    have hhome := Directory.homeOf_of_resolve hresolve
    rw [hdirectory]
    refine Ensures.bind_ok (Ensures.pure ⟨rfl, rfl⟩) ?_
    have hbring : Ensures k.system
        (if home = k.machine.currentCore then deliverLocally id message else post home id message)
        fun r s' => Preserves k.system hand (accepted (Core.only id
          (if home = k.system.currentCore then { direct := [message] }
            else { posted := [message] })) r) none r s' := by
      have hcurrent : k.machine.currentCore = k.system.currentCore := rfl
      rw [hcurrent]
      by_cases hlocal : home = k.system.currentCore
      · rw [if_pos hlocal, if_pos hlocal]
        exact ensures_deliverLocally h (hlocal ▸ hhome) message
      · rw [if_neg hlocal, if_neg hlocal]
        exact ensures_post h hhome message
    refine Ensures.bind (Ensures.attempt (hbring.mono fun r s' hr => ?_))
    match r with
    | .ok () => exact Ensures.of_quiet (quiet_tally _ _) fun _ => hr
    | .error (.halted _) => exact hr.harmless.elim
    | .error (.failed e) =>
      have hfail : Ensures s' (fail e) fun r s' => Preserves k.system hand
          (accepted (Core.only id (if home = k.system.currentCore then { direct := [message] }
            else { posted := [message] })) r) none r s' := Ensures.fail hr
      cases e with
      | mailboxFull => exact Ensures.quiet (quiet_tally _ _) fun _ => hfail
      | _ => exact hfail

/-! ### The service registry -/

/-- The directory knows of other providers. -/
theorem preserves_registry (h : s.Sound hand) (registry : Registry) :
    Preserves s hand Core.nothing none (.ok () : Except Stop Unit)
      (s.withDirectory { s.directory with registry := registry }) :=
  ⟨trivial, rfl, h.withDirectory h.ids h.built (fun _ => rfl) h.parked, .withDirectory fun _ => rfl⟩

theorem ensures_registerProvider (h : s.Sound hand) (service : Service) (task : TaskId) :
    Ensures s (registerProvider service task) (Preserves s hand Core.nothing none) := by
  refine Ensures.bind_ok (Ensures.onDirectory _ ⟨rfl, rfl⟩) ?_
  have hregistry := preserves_registry h (s.directory.registry.register service task).2
  split
  · exact Ensures.of_quiet (quiet_note _) fun _ => hregistry
  · exact Ensures.pure hregistry

theorem ensures_unregisterProvider (h : s.Sound hand) (service : Service) (task : TaskId) :
    Ensures s (unregisterProvider service task) (Preserves s hand Core.nothing none) :=
  Ensures.bind_ok (Ensures.onDirectory _ ⟨rfl, rfl⟩)
    (Ensures.pure (preserves_registry h (s.directory.registry.unregister service task).2))

theorem ensures_setRegistryTask (h : s.Sound hand) (task : Option TaskId) :
    Ensures s (setRegistryTask task) (Preserves s hand Core.nothing none) :=
  Ensures.onDirectory _ (preserves_registry h (s.directory.registry.setRegistryTask task))

/-- Nothing is accepted, whatever the result. -/
theorem Preserves.none_accepted {r : Except Stop α} (h : Preserves s hand Core.nothing none r s') :
    Preserves s hand (accepted Core.nothing r) none r s' := by
  cases r <;> exact h

/-- The task that runs is the one that the core shows to the others. -/
theorem currentTask_eq_running {k : Kernel} (h : k.system.Sound hand) :
    k.currentTask = k.system.running := by
  show (k.system.core? k.system.currentCore).bind Core.current = _
  rw [System.running]
  cases hcore : k.system.core? k.system.currentCore with
  | none => rfl
  | some core => exact (h.settled _ core hcore).current

theorem ensures_answerRegistry (h : s.Sound hand) (message : Message) :
    Ensures s (answerRegistry message) fun r s' =>
      Preserves s hand (accepted (s.routed? (s.reply message.sender message.body)) r) none r
        s' := by
  obtain ⟨sender, recipient, body⟩ := message
  -- only a lookup has a reply; other requests change the registry or are refused
  have hrefused : ∀ {body}, s.reply sender body = none →
      Ensures s (fail .malformedMessage : Action Unit) fun r s' =>
        Preserves s hand (accepted (s.routed? (s.reply sender body)) r) none r s' :=
    fun _ => Ensures.fail (.same h rfl)
  have hquiet : ∀ {x : Action Unit}, Ensures s x (Preserves s hand Core.nothing none) →
      Ensures s x fun r s' => Preserves s hand (accepted Core.nothing r) none r s' :=
    fun hx => hx.mono fun _ _ hr => hr.none_accepted
  match body with
  | .services (.register service) => exact hquiet (ensures_registerProvider h service sender)
  | .services (.unregister service) => exact hquiet (ensures_unregisterProvider h service sender)
  | .services (.lookup service) =>
    refine Ensures.get fun k hk => ?_
    subst hk
    exact ensures_route h _
  | .services (.reply _ _) => exact hrefused rfl
  | .scheduler _ => exact hrefused rfl
  | .verbatim _ _ _ => exact hrefused rfl

theorem ensures_send (h : s.Sound hand) (recipient : Recipient) (body : Body) :
    Ensures s (send recipient body) fun r s' =>
      Preserves s hand (accepted (s.sent recipient body) r) none r s' := by
  refine Ensures.get fun k hk => ?_
  subst hk
  dsimp only
  rw [currentTask_eq_running h, System.sent, System.outgoing]
  have hregistry : k.directory.registry = k.system.directory.registry := rfl
  rw [hregistry]
  split
  · exact ensures_answerRegistry h _
  · exact ensures_route h _

/-! ### Receiving -/

theorem running_withCore (hcore : s.core? s.currentCore = some core) (core' : Core) :
    (s.withCore s.currentCore core').running = core'.scheduler.current := by
  have hget : (s.withCore s.currentCore core').core?
      (s.withCore s.currentCore core').currentCore = some core' :=
    System.core?_withCore_self hcore core'
  rw [System.running, hget]
  rfl

/-- One try under the lock. -/
theorem ensures_takeMessage (h : s.Sound hand) (filter : Option Filter) :
    Ensures s
      (locked fun id => do
        match ← askScheduler id (·.receive filter) with
        | .received message => return (some message, none)
        | .waiting switch => return (none, switch))
      fun r s' => Preserves s hand (received r s') none r s' := by
  refine ensures_locked_sound h (fun _ => .same h rfl) fun core hcore => ?_
  have hsettled := h.settled _ core hcore
  have hmail := hsettled.sound.drained.mailboxes
  rcases hr : core.drained.scheduler.receive filter with ⟨result, scheduler⟩
  refine Ensures.bind ((ensures_askScheduler hcore hr).mono ?_)
  rintro r s₁ ⟨rfl, rfl⟩
  rcases (coherent_drained h hcore).receive (fun id t ht => (hmail id t ht).1) hr with
    ⟨rfl, -, rfl⟩ | ⟨id, t, mailbox, hworking, ht, hmailbox, hmessages, hcap,
      ⟨message, rfl, rfl, hfind⟩ | ⟨switch, rfl, hco, hres, hmoved, hfind⟩⟩
  · exact Locked.error rfl (.drained h hcore rfl)
  · -- the task that receives keeps running, so what is returned is returned to it
    have hco := (coherent_drained h hcore).withMailbox id mailbox
    have hcurrent := (Scheduler.working?_eq_some hworking).1
    have hstep := hsettled.step_received ht hmailbox hcap hmessages hfind hco (.refl _)
    have hin : id ∈ core.members :=
      (hsettled.sound.contains_drained id).1 (Option.isSome_of_mem ht)
    refine Ensures.pure (Locked.ok (Scheduler.resolved_none _) ?_)
    have hafter : (core.after (core.drained.scheduler.withMailbox id mailbox)).scheduler.current =
        some id := hcurrent
    rw [received, running_withCore hcore, hafter]
    exact .step h hcore trivial hstep (only_of_not_mem hin)
  · have hstep := hsettled.step_searched ht hmailbox hcap hmessages hfind hco hmoved
    exact Ensures.pure (Locked.ok hres (.step h hcore trivial hstep fun _ _ => rfl))

theorem ensures_tryReceive (h : s.Sound hand) (filter : Option Filter) :
    Ensures s (tryReceive filter) fun r s' => Preserves s hand (received r s') none r s' := by
  refine Ensures.bind ((ensures_takeMessage h filter).mono fun r s' hr => ?_)
  match r with
  | .error e => exact hr
  | .ok none => exact Ensures.pure hr
  | .ok (some message) => exact Ensures.quiet (quiet_tally _ _) fun _ => Ensures.pure hr

theorem ensures_receiveWithin (tries : Nat) (h : s.Sound hand) (filter : Option Filter) :
    Ensures s (receiveWithin tries filter) fun r s' =>
      Preserves s hand (received (r.map some) s') none r s' := by
  induction tries generalizing s with
  | zero => exact Ensures.fail (.same h rfl)
  | succ tries ih =>
    refine Ensures.bind ((ensures_tryReceive h filter).mono fun r s₁ hr => ?_)
    match r with
    | .error e => exact hr.error
    | .ok (some message) => exact Ensures.pure hr.ok
    | .ok none => exact (ih hr.sound).mono fun r s₂ hr₂ => hr.trans hr₂

theorem ensures_receive (h : s.Sound hand) (filter : Option Filter) :
    Ensures s (receive filter) fun r s' =>
      Preserves s hand (received (r.map some) s') none r s' := by
  cases hcore : s.core? s.currentCore with
  | none => exact Ensures.localCore_none hcore (.same h rfl)
  | some core => exact Ensures.localCore hcore (ensures_receiveWithin _ h filter)

end Kernel

end Microkernel
