/-
Every message is delivered once, to the task that has its recipient's id then.

`s.post id` is the mail of a task: what waits in the inbox of its home core, and what is in its
mailbox.

* **`mail_delivered_once`**: while a task does not end, its mail and the messages accepted for it
  are in the inbox, in the mailbox or returned, each of them once and in order (`Carried`), and
  those accepted are the ones that were sent to it, signed by the task that sent them (`Mailed`);
* **`inherits_iff`**: mail outlives its recipient, and goes to a new task with the same id exactly
  if the new task is handed to the core where that mail waits, and the first message of it fits.

Design notes: that a message waits for an id says nothing about when the id was handed out. The
mail that a new task finds waiting can therefore only be meant for a task before it.
-/
import Microkernel.Proofs.Kernel.Safety

namespace Microkernel

/-- The mail of a task: none while it has no home. -/
def System.post (s : System) (id : TaskId) : Post :=
  match (s.directory.homeOf id).bind s.core? with
  | some core => core.post id
  | none => ⟨[], []⟩

theorem System.Resident.post_eq {s : System} {id : TaskId} {c : CoreId} {core : Core}
    (h : s.Resident id c core) : s.post id = core.post id := by
  rw [System.post, h.home, Option.bind_some, h.found]

namespace Kernel

variable {k : Kernel} {id : TaskId} {c : CoreId} {core : Core}

/-! ### Who sent a message -/

/-- The sender is the running task, or the kernel when there is none; the kernel also sends the
replies of the service registry, unless a task is the registry. -/
def Signed (s : System) (recipient : Recipient) (message : Message) : Prop :=
  message.sender = s.running.getD kernelSender ∨
    recipient = .registry ∧ s.directory.registry.registryTask = none ∧
      message.sender = kernelSender

theorem signed_of_outgoing {s : System} {recipient : Recipient} {body : Body} {message : Message}
    (h : s.outgoing recipient body = some message) : Signed s recipient message := by
  rw [System.outgoing] at h
  split at h
  · rename_i hregistry
    unfold System.reply at h
    split at h
    · cases h
      exact .inr ⟨hregistry.1, hregistry.2, rfl⟩
    · cases h
  · cases h
    exact .inl rfl

/-- The messages of a delivery that were accepted. -/
def accepts (d : Delivery) : List Message :=
  d.posted ++ d.direct

theorem accepts_append (d d' : Delivery) : (accepts (d ++ d')).Perm (accepts d ++ accepts d') := by
  show ((d.posted ++ d'.posted) ++ (d.direct ++ d'.direct)).Perm _
  refine List.perm_iff_count.2 fun message => ?_
  rw [accepts, accepts]
  simp only [List.count_append]
  omega

theorem accepts_received (r : Except Stop (Option Message)) (s : System) :
    accepts (received r s id) = [] := by
  match r with
  | .error _ => rfl
  | .ok none => rfl
  | .ok (some message) =>
    rw [received]
    cases s.running with
    | none => rfl
    | some j =>
      rw [Option.map_some, Option.getD_some, Core.only]
      split <;> rfl

theorem accepts_delivered {s s' : System} {operation : Operation}
    (h : ∀ recipient body, operation ≠ .send recipient body) (r : Except Stop Answer) :
    accepts (delivered s operation r s' id) = [] := by
  cases operation with
  | send recipient body => exact absurd rfl (h recipient body)
  | tryReceive filter =>
    match r with
    | .ok (.message message) => exact accepts_received (.ok message) s'
    | .ok .done | .ok (.task _) | .ok (.flag _) | .ok (.count _) | .error _ => rfl
  | receive filter =>
    match r with
    | .ok (.message message) => exact accepts_received (.ok message) s'
    | .ok .done | .ok (.task _) | .ok (.flag _) | .ok (.count _) | .error _ => rfl
  | _ => rfl

/-- The message goes to the task when the running task sends this. -/
def Addresses (s : System) (recipient : Recipient) (body : Body) (id : TaskId)
    (message : Message) : Prop :=
  s.outgoing recipient body = some message ∧
    ∃ home, s.directory.resolve message.recipient = .ok (id, home)

/-- One message is accepted by the task that it resolves to, and none by any other task. -/
theorem accepts_sent_cases (s : System) (recipient : Recipient) (body : Body) (id : TaskId) :
    (∃ message, Addresses s recipient body id message ∧
        accepts (s.sent recipient body id) = [message]) ∨
      (∀ message, ¬ Addresses s recipient body id message) ∧
        accepts (s.sent recipient body id) = [] := by
  rw [System.sent, System.routed?]
  cases hout : s.outgoing recipient body with
  | none => exact .inr ⟨fun message h => (by cases hout.symm.trans h.1), rfl⟩
  | some m =>
    rw [Option.map_some, Option.getD_some, System.routed]
    cases hresolve : s.directory.resolve m.recipient with
    | error e =>
      refine .inr ⟨?_, rfl⟩
      rintro message ⟨h, home, hhome⟩
      obtain rfl := Option.some_inj.1 (hout.symm.trans h)
      cases hresolve.symm.trans hhome
    | ok target =>
      obtain ⟨j, home⟩ := target
      dsimp only [Core.only]
      by_cases hj : id = j
      · subst hj
        rw [if_pos rfl]
        refine .inl ⟨m, ⟨hout, home, hresolve⟩, ?_⟩
        split <;> rfl
      · rw [if_neg hj]
        refine .inr ⟨?_, rfl⟩
        rintro message ⟨h, home', hhome⟩
        obtain rfl := Option.some_inj.1 (hout.symm.trans h)
        cases hresolve.symm.trans hhome
        exact hj rfl

/-- The operation sends the message to the task, which accepts it. -/
def Sends (k : Kernel) (operation : Operation) (id : TaskId) (message : Message) : Prop :=
  ∃ recipient body answer, operation = .send recipient body ∧
    (k.step operation).1 = .ok answer ∧ Addresses k.system recipient body id message ∧
      Signed k.system recipient message

/-- The messages were sent to the task in the run and accepted, one after the other. -/
inductive Mailed : Kernel → TaskId → List Operation → List Message → Prop
  | nil {k : Kernel} {id : TaskId} : Mailed k id [] []
  | sent {k : Kernel} {id : TaskId} {operation : Operation} {rest : List Operation}
      {message : Message} {messages : List Message} (h : k.Sends operation id message)
      (hrest : Mailed (k.step operation).2 id rest messages) :
      Mailed k id (operation :: rest) (message :: messages)
  | other {k : Kernel} {id : TaskId} {operation : Operation} {rest : List Operation}
      {messages : List Message} (h : ∀ message, ¬ k.Sends operation id message)
      (hrest : Mailed (k.step operation).2 id rest messages) :
      Mailed k id (operation :: rest) messages

/-- What is accepted in a step was sent in it. -/
theorem accepts_delivery_cases (k : Kernel) (operation : Operation) (id : TaskId) :
    (∃ message, k.Sends operation id message ∧ accepts (k.delivery operation id) = [message]) ∨
      (∀ message, ¬ k.Sends operation id message) ∧ accepts (k.delivery operation id) = [] := by
  by_cases hsend : ∃ recipient body, operation = .send recipient body
  · obtain ⟨recipient, body, rfl⟩ := hsend
    rw [delivery]
    cases hr : (k.step (.send recipient body)).1 with
    | error e =>
      refine .inr ⟨?_, rfl⟩
      rintro message ⟨_, _, _, -, h, -⟩
      cases hr.symm.trans h
    | ok answer =>
      rcases accepts_sent_cases k.system recipient body id with ⟨message, haddr, h⟩ | ⟨hnone, h⟩
      · exact .inl ⟨message, ⟨_, _, answer, rfl, hr, haddr, signed_of_outgoing haddr.1⟩, h⟩
      · refine .inr ⟨?_, h⟩
        rintro message ⟨_, _, _, he, -, haddr, -⟩
        cases he
        exact hnone message haddr
  · have hother : accepts (k.delivery operation id) = [] :=
      accepts_delivered (fun recipient body he => hsend ⟨recipient, body, he⟩) _
    refine .inr ⟨?_, hother⟩
    rintro message ⟨recipient, body, -, he, -⟩
    exact hsend ⟨recipient, body, he⟩

/-- Every message that is accepted in a run was sent in it, and is accepted once. -/
theorem mailed_deliveries (k : Kernel) (operations : List Operation) (id : TaskId) :
    ∃ messages, k.Mailed id operations messages ∧
      (accepts (k.deliveries operations id)).Perm messages := by
  induction operations generalizing k with
  | nil => exact ⟨[], .nil, .nil⟩
  | cons operation rest ih =>
    obtain ⟨messages, hmailed, hperm⟩ := ih (k.step operation).2
    have hsplit : (accepts (k.deliveries (operation :: rest) id)).Perm
        (accepts (k.delivery operation id) ++ messages) :=
      (accepts_append _ _).trans (hperm.append_left _)
    rcases accepts_delivery_cases k operation id with ⟨message, hsends, h⟩ | ⟨hnone, h⟩
    · rw [h] at hsplit
      exact ⟨message :: messages, .sent hsends hmailed, hsplit⟩
    · rw [h] at hsplit
      exact ⟨messages, .other hnone hmailed, hsplit⟩

/-! ### Once and in order -/

/-- While a task does not end it stays at home, and its mail and the messages that are accepted
for it are, each of them once and in order, in the inbox, in the mailbox or returned. What is
accepted was sent to the task, each message once, and is signed by the task that sent it. -/
theorem mail_delivered_once (h : k.Reachable) (hid : k.system.Resident id c core)
    {operations : List Operation} (hspares : k.Spares id operations) :
    ∃ core' arrivals messages, (k.run operations).system.Resident id c core' ∧
      Carried k.config.mailboxSize (k.deliveries operations id) arrivals (core.post id)
        (core'.post id) ∧
      k.Mailed id operations messages ∧
      (accepts (k.deliveries operations id)).Perm messages := by
  obtain ⟨core', hid', arrivals, hcarried⟩ := h.passes hid hspares
  obtain ⟨messages, hmailed, hperm⟩ := mailed_deliveries k operations id
  exact ⟨core', arrivals, messages, hid', hcarried, hmailed, hperm⟩

/-- The first core sends two messages to the task of the second, whose turn it is then. -/
def mailing : List Operation :=
  [.send (.task 5) (.scheduler (.ping 1)), .send (.task 5) (.scheduler (.ping 2)), .turnTo 1]

/-- The task receives one of them, and the mailbox has room for the other. -/
def exchange : List Operation :=
  mailing ++ [.handleInterrupt .reschedule, .tryReceive none, .handleInterrupt .reschedule]

theorem mail_delivered_once_exchange :
    ∃ core core' arrivals messages, atWork.system.Resident 5 1 core ∧
      atWork.Spares 5 exchange ∧ (atWork.run exchange).system.Resident 5 1 core' ∧
      Carried atWork.config.mailboxSize (atWork.deliveries exchange 5) arrivals (core.post 5)
        (core'.post 5) ∧
      atWork.Mailed 5 exchange messages ∧
      (accepts (atWork.deliveries exchange 5)).Perm messages := by
  have hcore : ((atWork.core? 1).map fun core => core.scheduler.idle) = some (some 2) := by
    decide +kernel
  obtain ⟨core, hcore, hidle⟩ := Option.map_eq_some_iff.1 hcore
  have hworking : core.scheduler.idle ≠ some 5 := by
    rw [hidle]
    decide
  have hid : atWork.system.Resident 5 1 core := ⟨by decide +kernel, hcore, hworking⟩
  have hspares : atWork.Spares 5 exchange := by
    refine ⟨?_, ?_, ?_, ?_, ?_, ?_, trivial⟩
    all_goals exact fun h => by cases h
  obtain ⟨core', arrivals, messages, hdelivered⟩ :=
    mail_delivered_once reachable_atWork hid hspares
  exact ⟨core, core', arrivals, messages, hid, hspares, hdelivered⟩

/-! ### Mail that outlives its recipient -/

/-- A task is asked for. -/
def isSpawn : Operation → Bool
  | .spawn _ _ _ | .spawnUser _ _ _ _ => true
  | _ => false

/-- A task that was spawned has an empty mailbox. -/
theorem arrived_of_spawn (h : k.Reachable) {operation : Operation}
    (hspawn : isSpawn operation = true) (hok : (k.step operation).1 = .ok (.task id)) :
    Arrived (k.step operation).2.system id := by
  have hanswer : ∀ {x : Action TaskId}, Ensures k.system x (Spawned k.system []) →
      Ensures k.system (do return Answer.task (← x)) fun r s' =>
        ∀ id, r = .ok (.task id) → Arrived s' id := by
    intro x hx
    refine ensures_answer (hx.mono fun r s' hr id hid => ?_)
    cases r with
    | error e => cases hid
    | ok j =>
      cases hid
      exact hr.arrived id rfl
  cases operation with
  | spawn name entry priority =>
    exact hanswer (ensures_spawn h.sound name entry priority) k rfl id hok
  | spawnUser name entry path priority =>
    exact hanswer (ensures_spawnUser h.sound name entry path priority) k rfl id hok
  | _ => cases hspawn

theorem box_of_arrived {s : System} (h : Arrived s id) : (s.post id).box = [] := by
  rw [System.post]
  cases hcore : (s.directory.homeOf id).bind s.core? with
  | none => rfl
  | some core =>
    obtain ⟨c, hhome, hcore⟩ := Option.bind_eq_some_iff.1 hcore
    exact (h.fresh c core hhome hcore).2

/-- In some run in which the task does not end, a message that waited for its id before comes
into its mailbox. -/
def Inherits (k : Kernel) (id : TaskId) : Prop :=
  ∃ operations arrivals message rest more, k.Spares id operations ∧
    Carried k.config.mailboxSize (k.deliveries operations id) arrivals (k.system.post id)
      ((k.run operations).system.post id) ∧
    (k.system.post id).waiting = message :: rest ∧
    Arrival.along .inbox arrivals = message :: more

/-- The interrupt after new work was left makes a core look into its inbox. -/
theorem ensures_reschedule_inbox {s : System} {hand : List Task} (h : s.Sound hand)
    (hcore : s.core? s.currentCore = some core) :
    Ensures s (actionOf (.handleInterrupt .reschedule)) fun _ s' =>
      ∃ core', s'.core? s.currentCore = some core' ∧ core'.inbox = core.drained.inbox := by
  refine ensures_answer (f := fun _ => .done) ?_
  rw [handleInterrupt]
  refine ensures_locked_at hcore (h.ordinals _ core hcore) (h.settled _ core hcore).sound ?_
  rcases hs : core.drained.scheduler.reschedule with ⟨switch, scheduler⟩
  obtain ⟨-, hres, -⟩ := (coherent_drained h hcore).reschedule hs
  refine Ensures.bind_ok (ensures_onScheduler hcore hs) (Ensures.pure (Locked.ok hres ?_))
  exact ⟨_, System.core?_withCore_self hcore _, rfl⟩

/-- A task with mail is at home. -/
theorem home_of_waiting {s : System} {hand : List Task} (h : s.Sound hand) {message : Message}
    {rest : List Message} (hwaiting : (s.post id).waiting = message :: rest) :
    ∃ c core, s.directory.homeOf id = some c ∧ s.core? c = some core ∧ id ∈ core.members := by
  cases hhome : s.directory.homeOf id with
  | none =>
    rw [System.post, hhome] at hwaiting
    cases hwaiting
  | some c =>
    obtain ⟨core, hcore, hin⟩ := (h.homes id c).1 hhome
    exact ⟨c, core, rfl, hcore, hin⟩

/-- Its core turns to a task with an empty mailbox, and the first message that waits comes in. -/
theorem inherits_of_fits (h : k.Reachable) (harrived : Arrived k.system id) {message : Message}
    {rest : List Message} (hwaiting : (k.system.post id).waiting = message :: rest)
    (hfits : message.Fits k.config.mailboxSize) : k.Inherits id := by
  obtain ⟨c, core, hhome, hcore, hin⟩ := home_of_waiting h.sound hwaiting
  obtain ⟨hidle, hbox⟩ := harrived.fresh c core hhome hcore
  have hid : k.system.Resident id c core := ⟨hhome, hcore, hidle⟩
  have hmail : mailFor id core.inbox.mail = message :: rest := by
    rw [hid.post_eq] at hwaiting
    exact hwaiting
  have hspares : k.Spares id [.turnTo c, .handleInterrupt .reschedule] :=
    ⟨fun e => (by cases e), fun e => (by cases e), trivial⟩
  obtain ⟨core', hid', arrivals, hcarried⟩ := h.passes hid hspares
  have hdrained : core'.inbox = core.drained.inbox := by
    -- the interrupt makes the core look into its inbox
    have hturn := h.step (.turnTo c)
    obtain ⟨core₁, hcore₁, hinbox⟩ := ensures_reschedule_inbox hturn.sound hcore _ rfl
    have hfound := hid'.found
    rw [h.run_cons, hturn.run_cons] at hfound
    obtain rfl : core₁ = core' := Option.some_inj.1 (hcore₁.symm.trans hfound)
    exact hinbox
  -- Something came in: otherwise the first message would go on waiting.
  have hinbox : message :: rest =
      Arrival.along .inbox arrivals ++ mailFor id core'.inbox.mail := by
    rw [← hmail]
    exact (List.append_nil _).symm.trans hcarried.inbox
  cases halong : Arrival.along .inbox arrivals with
  | nil =>
    rw [halong, hdrained] at hinbox
    exact ((h.sound.settled c core hcore).sound.entered_first hin hidle hbox hmail hfits
      hinbox.symm).elim
  | cons first more =>
    rw [halong] at hinbox
    obtain rfl : message = first := (List.cons.inj hinbox).1
    rw [← hid.post_eq, ← hid'.post_eq] at hcarried
    exact ⟨_, arrivals, message, rest, more, hspares, hcarried, hwaiting, halong⟩

/-- What came along the inbox had room in the mailbox. -/
theorem fits_of_inherits (h : k.Inherits id) :
    ∃ message rest, (k.system.post id).waiting = message :: rest ∧
      message.Fits k.config.mailboxSize := by
  obtain ⟨_, arrivals, message, rest, more, _, hcarried, hwaiting, halong⟩ := h
  have hmem : message ∈ Arrival.along .inbox arrivals := halong ▸ List.mem_cons_self
  obtain ⟨a, ha, rfl⟩ := Arrival.exists_of_mem_along hmem
  exact ⟨a.message, rest, hwaiting, hcarried.fits a ha⟩

/-- While tasks are parked no mail waits anywhere. -/
theorem no_mail_of_parked {s : System} {hand : List Task} (h : s.Sound hand)
    (hparked : s.directory.parked ≠ []) : ∀ core ∈ s.cores, core.inbox.mail = [] := by
  intro core hin
  obtain ⟨i, hcore⟩ := List.getElem?_of_mem hin
  exact (h.offline i core hcore (h.parked hparked i core hcore)).mail

/-- A new task has an empty mailbox. It takes over mail for the task that had its id before exactly
if such mail waits in the inbox of the core where the new task is, and the first message of it
fits a mailbox. If the new task is parked, no mail waits at all. -/
theorem inherits_iff (h : k.Reachable) {operation : Operation} (hspawn : isSpawn operation = true)
    (hok : (k.step operation).1 = .ok (.task id)) :
    ((k.step operation).2.system.post id).box = [] ∧
      ((k.step operation).2.Inherits id ↔
        ∃ message rest, ((k.step operation).2.system.post id).waiting = message :: rest ∧
          message.Fits k.config.mailboxSize) ∧
      ((k.step operation).2.directory.homeOf id = none →
        ∀ core ∈ (k.step operation).2.cores, core.inbox.mail = []) := by
  have hstep := h.step operation
  have harrived := arrived_of_spawn h hspawn hok
  have hconfig : (k.step operation).2.config = k.config := (h.preserves operation).config
  refine ⟨box_of_arrived harrived, ⟨fun hinherits => ?_, ?_⟩, fun hnowhere => ?_⟩
  · rw [← hconfig]
    exact fits_of_inherits hinherits
  · rintro ⟨message, rest, hwaiting, hfits⟩
    exact inherits_of_fits hstep harrived hwaiting (hconfig ▸ hfits)
  · refine no_mail_of_parked hstep.sound fun hnone => ?_
    have hin := harrived.parked hnowhere
    rw [hnone] at hin
    cases hin

/-- Task 5 ends when one of the messages is in its mailbox and the other still waits. -/
def abandoned : Kernel :=
  atWork.run (mailing ++ [.exit, .turnTo 0])

theorem reachable_abandoned : abandoned.Reachable :=
  reachable_atWork.run _

theorem inherits_iff_abandoned :
    (abandoned.step (.spawn "third" 0x1000 .other)).2.Inherits 5 := by
  have hspawned : (abandoned.step (.spawn "third" 0x1000 .other)).1 = .ok (.task 5) := by
    decide +kernel
  have hwaiting : ((abandoned.step (.spawn "third" 0x1000 .other)).2.system.post 5).waiting =
      [⟨1, .task 5, .scheduler (.ping 2)⟩] := by
    decide +kernel
  refine (inherits_iff reachable_abandoned rfl hspawned).2.1.2 ⟨_, _, hwaiting, _, rfl, ?_⟩
  decide +kernel

/-- A message that was accepted for task 5 is received by the task that was spawned when task 5 had
ended. -/
theorem mail_not_discarded :
    atWork.Reachable ∧ ∃ message,
      (atWork.run [.send (.task 5) (.scheduler (.ping 1))]).Sends
        (.send (.task 5) (.scheduler (.ping 2))) 5 message ∧
      ((atWork.run mailing).step .exit).1 = .ok (.task 5) ∧
      (abandoned.step (.spawn "third" 0x1000 .other)).1 = .ok (.task 5) ∧
      (((abandoned.step (.spawn "third" 0x1000 .other)).2.run
        [.turnTo 1, .handleInterrupt .reschedule, .tick]).step (.tryReceive none)).1 =
          .ok (.message (some message)) := by
  refine ⟨reachable_atWork, ⟨1, .task 5, .scheduler (.ping 2)⟩,
    ⟨_, _, .done, rfl, ?_, ⟨?_, 1, ?_⟩, .inl ?_⟩, ?_, ?_, ?_⟩
  all_goals decide +kernel

end Kernel

end Microkernel
