/-
Messages that overtake others on their way into a mailbox.

What other cores send to a task waits in the inbox of the task's core, in the order in which it was
accepted, and what does not fit the mailbox goes on waiting there with all that is behind it. A
message that is sent on the core of the task itself does not wait behind it: it goes into the
mailbox if it fits. So it overtakes, if its frame is shorter than that of the first message that
waits.

* **`Core.Took.carried`**: a message that is sent on the core of the task comes behind all that the
  inbox could give, and in front of the rest;
* **`overtaken_by_shorter`**: whenever a message comes into a mailbox past others that wait, it was
  sent on the core of the task and is shorter than the first of them, and a message that is sent
  there is accepted exactly if it fits what is left of the mailbox.

Design notes: `InTurn` speaks of the messages that wait at the begin. Which of them is the first at
some later point is known from how many have come through the inbox by then.
-/
import Microkernel.Proofs.Kernel.Delivery

namespace Microkernel

/-- The frame of one message is shorter than that of another. -/
def Message.Shorter (m m' : Message) : Prop :=
  ∃ frame frame', m.encode = .ok frame ∧ m'.encode = .ok frame' ∧ frame.length < frame'.length

/-! ### Arrivals past messages that wait -/

/-- A message that arrives directly, while some of the messages wait that did so at the begin, is
shorter than the first of them. -/
def InTurn (waiting : List Message) (arrivals : List Arrival) : Prop :=
  ∀ before a after, arrivals = before ++ a :: after → a.route = .direct →
    ∀ m, waiting[(Arrival.along .inbox before).length]? = some m → a.message.Shorter m

theorem inTurn_of_no_direct {waiting : List Message} {arrivals : List Arrival}
    (h : Arrival.along .direct arrivals = []) : InTurn waiting arrivals := by
  rintro before a after rfl hdirect m -
  rw [Arrival.along_append] at h
  have hnone := (List.append_eq_nil_iff.1 h).2
  have hpos : decide (a.route = .direct) = true := decide_eq_true hdirect
  rw [Arrival.along, List.filter_cons, if_pos hpos] at hnone
  cases hnone

/-- One message arrives directly, behind others that came through the inbox. -/
theorem inTurn_behind {waiting messages : List Message} {message : Message}
    (h : ∀ m, waiting[messages.length]? = some m → message.Shorter m) :
    InTurn waiting (messages.map (Arrival.mk .inbox) ++ [⟨.direct, message⟩]) := by
  intro before a after hsplit hdirect m hm
  rcases List.eq_nil_or_concat after with rfl | ⟨later, last, rfl⟩
  · obtain ⟨rfl, hlast⟩ := List.append_inj' hsplit rfl
    obtain rfl := List.singleton_inj.1 hlast
    rw [Arrival.along_map_self] at hm
    exact h m hm
  · -- all others came through the inbox
    rw [List.concat_eq_append, ← List.cons_append, ← List.append_assoc] at hsplit
    obtain ⟨hmap, -⟩ := List.append_inj' hsplit rfl
    have hin : a ∈ messages.map (Arrival.mk .inbox) := by simp [hmap]
    obtain ⟨message', -, rfl⟩ := List.mem_map.1 hin
    cases hdirect

/-- Runs that follow each other. The messages that wait in between are those that waited at the
begin, but for what has come through the inbox, and further ones behind them. -/
theorem InTurn.trans {size : Nat} {d : Delivery} {arrivals arrivals' : List Arrival} {p p' : Post}
    (h : InTurn p.waiting arrivals) (hcarried : Carried size d arrivals p p')
    (h' : InTurn p'.waiting arrivals') : InTurn p.waiting (arrivals ++ arrivals') := by
  intro before a after hsplit hdirect m hm
  rcases List.append_eq_append_iff.1 hsplit with ⟨between, rfl, hrest⟩ | ⟨between, hrest, hafter⟩
  · -- the message arrived in the second run
    refine h' between a after hrest hdirect m ?_
    have hlater : (p.waiting ++ d.posted)[(Arrival.along .inbox (arrivals ++ between)).length]? =
        some m := by
      rw [List.getElem?_append_left (List.getElem?_eq_some_iff.1 hm).1]
      exact hm
    rw [hcarried.inbox, Arrival.along_append, List.length_append,
      List.getElem?_append_right (Nat.le_add_right _ _), Nat.add_sub_cancel_left] at hlater
    exact hlater
  · cases between with
    | nil =>
      -- it is the first arrival of the second run
      rw [List.append_nil] at hrest
      subst hrest
      rw [List.nil_append] at hafter
      refine h' [] a after hafter.symm hdirect m ?_
      have hlater : (p.waiting ++ d.posted)[(Arrival.along .inbox arrivals).length]? = some m := by
        rw [List.getElem?_append_left (List.getElem?_eq_some_iff.1 hm).1]
        exact hm
      rw [hcarried.inbox, List.getElem?_append_right (Nat.le_refl _), Nat.sub_self] at hlater
      exact hlater
    | cons first between =>
      obtain ⟨rfl, -⟩ := List.cons.inj hafter
      exact h before a between hrest hdirect m hm

/-! ### Room in a mailbox -/

theorem Mailbox.Sound.send_eq_ok_iff {mailbox : Mailbox} (h : mailbox.Sound) {message : Message}
    {frame : Bytes} (hencode : message.encode = .ok frame) :
    (∃ mailbox', mailbox.send message = .ok mailbox') ↔
      mailbox.used + frame.length ≤ mailbox.capacity := by
  cases hsend : mailbox.send message with
  | ok mailbox' =>
    refine ⟨fun _ => Nat.le_of_not_lt fun hfull => ?_, fun _ => ⟨mailbox', rfl⟩⟩
    rw [(h.send_eq_error hencode).2 ⟨rfl, hfull⟩] at hsend
    cases hsend
  | error e =>
    refine ⟨fun ⟨_, hok⟩ => (by cases hok), fun hroom => ?_⟩
    exact absurd ((h.send_eq_error hencode).1 hsend).2 (Nat.not_lt.2 hroom)

namespace Core

variable {c c' : Core} {size : Nat} {id : TaskId} {message : Message}

/-- The message fits what is left of the mailbox when the inbox has been taken over. -/
def HasRoom (c : Core) (id : TaskId) (message : Message) : Prop :=
  ∃ t frame, c.drained.scheduler.task? id = some t ∧ message.encode = .ok frame ∧
    t.mailbox.used + frame.length ≤ t.mailbox.capacity

theorem Sound.send_eq_ok_iff (h : c.Sound size) {t : Task}
    (ht : c.drained.scheduler.task? id = some t) :
    (∃ mailbox, t.mailbox.send message = .ok mailbox) ↔ c.HasRoom id message := by
  have hmailbox := (h.delivered.sound id t ht).1
  constructor
  · rintro ⟨mailbox, hsend⟩
    obtain ⟨-, -, -, -, frame, hframe, -⟩ := hmailbox.send_ok hsend
    exact ⟨t, frame, ht, hframe, (hmailbox.send_eq_ok_iff hframe).1 ⟨mailbox, hsend⟩⟩
  · rintro ⟨t', frame, ht', hframe, hroom⟩
    rw [ht] at ht'
    cases ht'
    exact (hmailbox.send_eq_ok_iff hframe).2 hroom

/-- For the first message that goes on waiting there is no room. -/
theorem Sound.not_hasRoom (h : c.Sound size) {rest : List Message}
    (hmail : mailFor id c.drained.inbox.mail = message :: rest) : ¬ c.HasRoom id message := by
  obtain ⟨t, ht, hsend⟩ := h.delivered.refused id message rest List.not_mem_nil hmail
  rw [← h.send_eq_ok_iff ht, hsend]
  rintro ⟨mailbox, hok⟩
  cases hok

/-- A message for which there is room is shorter than one for which there is none. -/
theorem HasRoom.shorter (h : c.HasRoom id message) {m : Message} {frame : Bytes}
    (hframe : m.encode = .ok frame) (hnone : ¬ c.HasRoom id m) : message.Shorter m := by
  obtain ⟨t, frame', ht, hframe', hroom⟩ := h
  refine ⟨frame', frame, hframe', hframe, Nat.lt_of_not_le fun hle => hnone ?_⟩
  exact ⟨t, frame, ht, hframe, by omega⟩

/-- The message was put into the mailbox of the task, when the inbox had been taken over. -/
def Took (id : TaskId) (message : Message) (c c' : Core) : Prop :=
  ∃ t mailbox scheduler, c.drained.scheduler.task? id = some t ∧
    t.mailbox.send message = .ok mailbox ∧
    Scheduler.Rearranged (c.drained.scheduler.withMailbox id mailbox) scheduler ∧
    c' = c.after scheduler

/-- The message comes behind those that the inbox could give. -/
theorem Took.carried (h : c.Sound size) (hid : id ∈ c.members) (hidle : c.scheduler.idle ≠ some id)
    (htook : Took id message c c') :
    ∃ arrivals, Carried size { direct := [message] } arrivals (c.post id) (c'.post id) ∧
      InTurn (c.post id).waiting arrivals := by
  obtain ⟨t, mailbox, scheduler, ht, hsend, hr, rfl⟩ := htook
  have hroom := (h.send_eq_ok_iff ht).1 ⟨mailbox, hsend⟩
  obtain ⟨hbefore, hsize⟩ := h.delivered.sound id t ht
  obtain ⟨-, hmessages, -, -, frame, hframe, hfits⟩ := hbefore.send_ok hsend
  have hidle' : (c.scheduler.joinAll c.inbox.tasks).idle ≠ some id := h.manned.idle ▸ hidle
  obtain ⟨messages, hmail, hentered, -, hfit⟩ :=
    h.delivered.entered id ((h.contains_joinAll id).2 hid) hidle'
  have hbox : scheduler.box id = c.box id ++ messages.map Message.onWire ++ [message.onWire] := by
    rw [hr.box, Scheduler.box_withMailbox mailbox id (Option.isSome_of_mem ht), if_pos rfl,
      hmessages, ← h.box_joinAll, ← hentered, Scheduler.box, ht]
    rfl
  have hpost : (c.after scheduler).post id =
      ⟨mailFor id c.drained.inbox.mail, scheduler.box id⟩ := post_after id
  refine ⟨messages.map (Arrival.mk .inbox) ++ [⟨.direct, message⟩], ?_, ?_⟩
  · have hcome : Carried size {} (messages.map (Arrival.mk .inbox)) (c.post id)
        ⟨mailFor id c.drained.inbox.mail, c.box id ++ messages.map Message.onWire⟩ := by
      refine ⟨?_, Arrival.along_map_of_ne (by decide) messages, ?_, ?_, fun a ha => ?_⟩
      · rw [Arrival.along_map_self]
        exact (List.append_nil _).trans hmail
      · rw [Arrival.map_stored_mk]
        exact List.Perm.refl _
      · rw [Arrival.map_stored_mk]
        exact List.Sublist.refl _
      · obtain ⟨m, hm, rfl⟩ := List.mem_map.1 ha
        exact hfit m hm
    have hdirect : Carried size { direct := [message] } [⟨.direct, message⟩]
        ⟨mailFor id c.drained.inbox.mail, c.box id ++ messages.map Message.onWire⟩
        ((c.after scheduler).post id) := by
      rw [hpost]
      refine ⟨List.append_nil _, rfl, ?_, ?_, fun a ha => ?_⟩
      · rw [hbox]
        exact List.Perm.refl _
      · rw [hbox]
        exact List.Sublist.refl _
      · obtain rfl := List.mem_singleton.1 ha
        exact ⟨frame, hframe, hsize ▸ hfits⟩
    exact hcome.trans hdirect
  · refine inTurn_behind fun m hm => ?_
    have hwaiting : (messages ++ mailFor id c.drained.inbox.mail)[messages.length]? = some m :=
      hmail ▸ hm
    rw [List.getElem?_append_right (Nat.le_refl _), Nat.sub_self,
      ← List.head?_eq_getElem?] at hwaiting
    obtain ⟨rest, hrest⟩ := List.head?_eq_some_iff.1 hwaiting
    -- what waits in an inbox has a frame
    have hin : m ∈ mailFor id c.drained.inbox.mail := hrest ▸ List.mem_cons_self
    obtain ⟨mail, hkept, rfl⟩ := List.mem_map.1 hin
    obtain ⟨frame', hframe'⟩ := h.drained.encodable mail (List.mem_filter.1 hkept).1
    exact hroom.shorter hframe' (h.not_hasRoom hrest)

end Core

namespace Kernel

variable {k : Kernel} {s : System} {hand : List Task} {id : TaskId} {c : CoreId} {core : Core}
  {message : Message}

/-! ### Sending on the core of the recipient -/

/-- The message was put into the mailbox, or the mailbox refused it. -/
def Tried (s : System) (core : Core) (id : TaskId) (message : Message) (r : Except Stop Unit)
    (s' : System) : Prop :=
  (r = .ok () ∧ ∃ core', s'.core? s.currentCore = some core' ∧ Core.Took id message core core') ∨
    ∃ e, r = .error (.failed e) ∧ ∀ t, core.drained.scheduler.task? id = some t →
      core.scheduler.idle ≠ some id → t.mailbox.send message = .error e

theorem tried_deliverLocally (h : s.Sound hand) (hcore : s.core? s.currentCore = some core)
    (id : TaskId) (message : Message) :
    Ensures s (deliverLocally id message) (Tried s core id message) := by
  have hsound := (h.settled _ core hcore).sound
  refine ensures_locked_at hcore (h.ordinals _ core hcore) hsound ?_
  rcases hd : core.drained.scheduler.deliver id message with ⟨result, scheduler⟩
  refine Ensures.bind ((ensures_askScheduler hcore hd).mono ?_)
  rintro r s₁ ⟨rfl, rfl⟩
  rcases (coherent_drained h hcore).deliver hd with
    ⟨rfl, rfl, hnot⟩ | ⟨t, ht, -, ⟨e, rfl, rfl, hsend⟩ |
      ⟨woken, mailbox, rfl, hsend, hco, hr, -⟩⟩
  · refine Locked.error rfl (.inr ⟨_, rfl, fun t ht hidle => absurd ⟨?_, ?_⟩ hnot⟩)
    · exact Option.isSome_of_mem ht
    · rw [hsound.idle_drained]
      exact hidle
  · have he := (hsound.delivered.sound id t ht).1.isFatal_of_send hsend
    refine Locked.error he (.inr ⟨e, rfl, fun t' ht' _ => ?_⟩)
    rw [ht] at ht'
    cases ht'
    exact hsend
  · have htook : ∀ scheduler', Scheduler.Rearranged scheduler scheduler' →
        Tried s core id message (.ok ())
          (s.withCore s.currentCore (core.after scheduler')) := fun scheduler' hr' =>
      .inl ⟨rfl, _, System.core?_withCore_self hcore _,
        t, mailbox, scheduler', ht, hsend, hr.trans hr', rfl⟩
    cases woken with
    | false =>
      exact Ensures.pure (Locked.ok (Scheduler.resolved_none _) (htook scheduler (.refl _)))
    | true =>
      rcases hs : scheduler.reschedule with ⟨switch, scheduler'⟩
      obtain ⟨-, hres, hr'⟩ := hco.reschedule hs
      exact Ensures.quiet (quiet_tally _ _) fun _ =>
        Ensures.bind_ok (ensures_onScheduler hcore hs)
          (Ensures.pure (Locked.ok hres (htook scheduler' hr')))

theorem tried_route (h : s.Sound hand) (hcore : s.core? s.currentCore = some core)
    (hresolve : s.directory.resolve message.recipient = .ok (id, s.currentCore)) :
    Ensures s (route message) (Tried s core id message) := by
  refine Ensures.get fun k hk => ?_
  subst hk
  have hdirectory : k.directory.resolve message.recipient = .ok (id, k.machine.currentCore) :=
    hresolve
  rw [hdirectory]
  refine Ensures.bind_ok (Ensures.pure ⟨rfl, rfl⟩) ?_
  dsimp only
  rw [if_pos rfl]
  refine Ensures.bind (Ensures.attempt ((tried_deliverLocally h hcore id message).mono
    fun r s' hr => ?_))
  rcases hr with ⟨rfl, htook⟩ | ⟨e, rfl, hrefused⟩
  · exact Ensures.of_quiet (quiet_tally _ _) fun _ => .inl ⟨rfl, htook⟩
  · have hfail : Ensures s' (fail e) (Tried k.system core id message) :=
      Ensures.fail (.inr ⟨e, rfl, hrefused⟩)
    cases e with
    | mailboxFull => exact Ensures.quiet (quiet_tally _ _) fun _ => hfail
    | _ => exact hfail

theorem tried_send (h : s.Sound hand) (hcore : s.core? s.currentCore = some core)
    {recipient : Recipient} {body : Body} (hout : s.outgoing recipient body = some message)
    (hresolve : s.directory.resolve message.recipient = .ok (id, s.currentCore)) :
    Ensures s (send recipient body) (Tried s core id message) := by
  refine Ensures.get fun k hk => ?_
  subst hk
  dsimp only
  rw [currentTask_eq_running h]
  rw [System.outgoing] at hout
  have hregistry : k.directory.registry = k.system.directory.registry := rfl
  rw [hregistry]
  split
  · rename_i hanswer
    rw [if_pos hanswer] at hout
    unfold System.reply at hout
    -- only a lookup is answered with a message
    split at hout
    · cases hout
      refine Ensures.get fun k' hk' => ?_
      have hsame : k'.directory.registry = k.system.directory.registry :=
        congrArg (fun s : System => s.directory.registry) hk'
      rw [hsame]
      exact tried_route h hcore hresolve
    · cases hout
  · rename_i hroute
    rw [if_neg hroute] at hout
    cases hout
    exact tried_route h hcore hresolve

theorem tried_step (h : k.Reachable) (hcore : k.system.core? k.machine.currentCore = some core)
    {recipient : Recipient} {body : Body}
    (haddr : Addresses k.system recipient body id message)
    (hhome : k.system.directory.homeOf id = some k.machine.currentCore) :
    ∃ r, Tried k.system core id message r (k.step (.send recipient body)).2.system ∧
      (k.step (.send recipient body)).1 = r.map fun _ => .done := by
  obtain ⟨hout, home, hresolve⟩ := haddr
  obtain rfl : home = k.machine.currentCore :=
    Option.some.inj ((Directory.homeOf_of_resolve hresolve).symm.trans hhome)
  have hstep : Ensures k.system (actionOf (.send recipient body)) fun r' s' =>
      ∃ r, Tried k.system core id message r s' ∧ r' = r.map fun _ => .done :=
    ensures_answer ((tried_send h.sound hcore hout hresolve).mono fun r s' hr => ⟨r, hr, rfl⟩)
  exact hstep k rfl

/-- A message that is accepted is put into the mailbox on the core of its recipient, and is left in
the inbox of that core on all others. -/
theorem delivery_send {recipient : Recipient} {body : Body} {answer : Answer}
    (hok : (k.step (.send recipient body)).1 = .ok answer)
    (hout : k.system.outgoing recipient body = some message)
    (hresolve : k.system.directory.resolve message.recipient = .ok (id, c)) :
    k.delivery (.send recipient body) id =
      if c = k.machine.currentCore then { direct := [message] } else { posted := [message] } := by
  rw [delivery, hok, delivered, System.sent, System.routed?, hout, Option.map_some,
    Option.getD_some, System.routed, hresolve]
  exact if_pos rfl

/-- Only what is sent on the core of a task comes to it directly. -/
theorem direct_delivery_cases (k : Kernel) (operation : Operation) (id : TaskId) :
    (k.delivery operation id).direct = [] ∨
      ∃ recipient body message answer, operation = .send recipient body ∧
        (k.step operation).1 = .ok answer ∧ Addresses k.system recipient body id message ∧
        k.system.directory.homeOf id = some k.machine.currentCore ∧
        k.delivery operation id = { direct := [message] } := by
  rcases accepts_delivery_cases k operation id with ⟨message, hsends, -⟩ | ⟨-, hnone⟩
  · obtain ⟨recipient, body, answer, rfl, hok, ⟨hout, home, hresolve⟩, -⟩ := hsends
    have hdelivery := delivery_send hok hout hresolve
    by_cases hlocal : home = k.machine.currentCore
    · rw [if_pos hlocal] at hdelivery
      subst hlocal
      exact .inr ⟨recipient, body, message, answer, rfl, hok, ⟨hout, _, hresolve⟩,
        Directory.homeOf_of_resolve hresolve, hdelivery⟩
    · rw [if_neg hlocal] at hdelivery
      exact .inl (by rw [hdelivery])
  · exact .inl (List.append_eq_nil_iff.1 hnone).2

/-! ### Runs -/

/-- What one operation brings into the mailbox of a task that does not end. -/
theorem Reachable.carried_step (h : k.Reachable) (hid : k.system.Resident id c core)
    {operation : Operation} (hends : k.ends operation ≠ some id) :
    ∃ core' arrivals, (k.step operation).2.system.Resident id c core' ∧
      Carried k.config.mailboxSize (k.delivery operation id) arrivals (core.post id)
        (core'.post id) ∧
      InTurn (core.post id).waiting arrivals := by
  obtain ⟨core', hid', arrivals, hcarried⟩ := (h.preserves operation).passes id c core hid hends
  rcases direct_delivery_cases k operation id with
    hnone | ⟨recipient, body, message, answer, rfl, hok, haddr, hhome, hdirect⟩
  · exact ⟨core', arrivals, hid', hcarried, inTurn_of_no_direct (hcarried.direct.trans hnone)⟩
  · obtain rfl : c = k.machine.currentCore := Option.some.inj (hid.home.symm.trans hhome)
    obtain ⟨r, htried, hr⟩ := tried_step h hid.found haddr hhome
    rcases htried with ⟨-, core'', hcore'', htook⟩ | ⟨e, rfl, -⟩
    · obtain rfl : core'' = core' := Option.some.inj (hcore''.symm.trans hid'.found)
      obtain ⟨arrivals', hcarried', hturn⟩ := htook.carried
        (h.sound.settled _ core hid.found).sound ((h.sound.homeOf_iff_mem hid.found id).1 hid.home)
        hid.working
      exact ⟨core'', arrivals', hid', hdirect ▸ hcarried', hturn⟩
    · rw [hr] at hok
      cases hok

/-- The mail of a task that does not end, on the way through a run. -/
theorem Reachable.carried_run (h : k.Reachable) (hid : k.system.Resident id c core)
    {operations : List Operation} (hspares : k.Spares id operations) :
    ∃ core' arrivals, (k.run operations).system.Resident id c core' ∧
      Carried k.config.mailboxSize (k.deliveries operations id) arrivals (core.post id)
        (core'.post id) ∧
      InTurn (core.post id).waiting arrivals := by
  induction operations generalizing k core with
  | nil =>
    have htransit : Transit k.config.mailboxSize {} (core.post id) (core.post id) :=
      Transit.refl _
    obtain ⟨arrivals, hcarried⟩ := htransit
    exact ⟨core, arrivals, hid, hcarried, inTurn_of_no_direct hcarried.direct⟩
  | cons operation rest ih =>
    obtain ⟨hends, hspares⟩ := hspares
    obtain ⟨core₁, arrivals₁, hid₁, hcarried₁, hturn₁⟩ := h.carried_step hid hends
    obtain ⟨core₂, arrivals₂, hid₂, hcarried₂, hturn₂⟩ := ih (h.step operation) hid₁ hspares
    have hconfig : (k.step operation).2.config = k.config := (h.preserves operation).config
    rw [hconfig] at hcarried₂
    rw [h.run_cons]
    exact ⟨core₂, arrivals₁ ++ arrivals₂, hid₂, hcarried₁.trans hcarried₂,
      hturn₁.trans hcarried₁ hturn₂⟩

/-- On the core of the recipient a message is accepted exactly if there is room for it in the
mailbox, whatever waits in the inbox. -/
theorem sends_iff_hasRoom (h : k.Reachable) (hid : k.system.Resident id k.machine.currentCore core)
    {recipient : Recipient} {body : Body} (haddr : Addresses k.system recipient body id message) :
    (k.step (.send recipient body)).1 = .ok .done ↔ core.HasRoom id message := by
  have hsound := (h.sound.settled _ core hid.found).sound
  obtain ⟨r, htried, hr⟩ := tried_step h hid.found haddr hid.home
  rw [hr]
  rcases htried with ⟨rfl, _, -, t, mailbox, -, ht, hsend, -⟩ | ⟨e, rfl, hrefused⟩
  · exact ⟨fun _ => (hsound.send_eq_ok_iff ht).1 ⟨mailbox, hsend⟩, fun _ => rfl⟩
  · refine ⟨fun hok => (by cases hok), fun hroom => ?_⟩
    obtain ⟨t, frame, ht, hframe, hfits⟩ := hroom
    obtain ⟨mailbox, hsend⟩ := (hsound.send_eq_ok_iff ht).2 ⟨t, frame, ht, hframe, hfits⟩
    rw [hrefused t ht hid.working] at hsend
    cases hsend

/-- While a task does not end, its mail comes into the mailbox in the order in which it was
accepted, but for messages that are sent on its own core: such a message comes past others that
wait exactly if there is room for it, and then it is shorter than the first of them. -/
theorem overtaken_by_shorter (h : k.Reachable) (hid : k.system.Resident id c core)
    {operations : List Operation} (hspares : k.Spares id operations) :
    (∃ core' arrivals, (k.run operations).system.Resident id c core' ∧
        Carried k.config.mailboxSize (k.deliveries operations id) arrivals (core.post id)
          (core'.post id) ∧
        InTurn (core.post id).waiting arrivals) ∧
      (k.machine.currentCore = c → ∀ recipient body message,
        Addresses k.system recipient body id message →
        ((k.step (.send recipient body)).1 = .ok .done ↔ core.HasRoom id message)) ∧
      ∀ message rest, mailFor id core.drained.inbox.mail = message :: rest →
        ¬ core.HasRoom id message := by
  refine ⟨h.carried_run hid hspares, ?_, fun message rest hmail => ?_⟩
  · rintro rfl recipient body message haddr
    exact sends_iff_hasRoom h hid haddr
  · exact (h.sound.settled c core hid.found).sound.not_hasRoom hmail

/-! ### A mailbox that is almost full -/

/-- Data of a number of bytes. -/
def bulk (n : Nat) : Body :=
  .verbatim .vfs 0 (List.replicate n 0)

/-- Two cores that nothing was asked of yet. A mailbox has room for 60 bytes. -/
def wide : Kernel :=
  { pair with config := { Config.withCores 2 with mailboxSize := 60 } }

theorem new_wide : Kernel.new { Config.withCores 2 with mailboxSize := 60 } [0, 1] = .ok wide :=
  rfl

/-- The first core has sent two messages to task 5 of the second core. The second core has looked
into its inbox: one message is in the mailbox, and there is no room for the other. -/
def crowded : Kernel :=
  wide.run (opening ++ [.turnTo 0, .spawn "first" 0x1000 .other, .spawn "second" 0x1000 .other,
    .send (.task 5) (bulk 14), .send (.task 5) (bulk 20), .turnTo 1,
    .handleInterrupt .reschedule])

theorem reachable_crowded : crowded.Reachable :=
  (Reachable.new new_wide).run _

/-- The cleanup task of the second core sends a ping to task 5, which receives two messages then. -/
def pingPast : List Operation :=
  [.send (.task 5) (.scheduler (.ping 1)), .tick, .tryReceive none]

theorem overtaken_by_shorter_crowded :
    ∃ core core' arrivals, crowded.system.Resident 5 1 core ∧ crowded.Spares 5 pingPast ∧
      (crowded.run pingPast).system.Resident 5 1 core' ∧
      Carried crowded.config.mailboxSize (crowded.deliveries pingPast 5) arrivals (core.post 5)
        (core'.post 5) ∧
      InTurn (core.post 5).waiting arrivals ∧
      core.HasRoom 5 ⟨3, .task 5, .scheduler (.ping 1)⟩ ∧
      ¬ core.HasRoom 5 ⟨1, .task 5, bulk 20⟩ := by
  have hcore : ((crowded.core? 1).map fun core =>
      (core.scheduler.idle, mailFor 5 core.drained.inbox.mail)) =
        some (some 2, [⟨1, .task 5, bulk 20⟩]) := by
    decide +kernel
  obtain ⟨core, hcore, hparts⟩ := Option.map_eq_some_iff.1 hcore
  obtain ⟨hidle, hmail⟩ := Prod.mk.inj hparts
  have hworking : core.scheduler.idle ≠ some 5 := by
    rw [hidle]
    decide
  have hid : crowded.system.Resident 5 1 core := ⟨by decide +kernel, hcore, hworking⟩
  have hspares : crowded.Spares 5 pingPast := by
    refine ⟨?_, ?_, ?_, trivial⟩
    all_goals exact fun h => by cases h
  obtain ⟨⟨core', arrivals, hid', hcarried, hturn⟩, haccepted, hrefused⟩ :=
    overtaken_by_shorter reachable_crowded hid hspares
  have haddr : Addresses crowded.system (.task 5) (.scheduler (.ping 1)) 5
      ⟨3, .task 5, .scheduler (.ping 1)⟩ := by
    refine ⟨?_, 1, ?_⟩
    all_goals decide +kernel
  exact ⟨core, core', arrivals, hid, hspares, hid', hcarried, hturn,
    (haccepted (by decide +kernel) _ _ _ haddr).1 (by decide +kernel), hrefused _ [] hmail⟩

/-- A message waits for room in the mailbox, when another one is sent to the same task. The task
receives the other message first. -/
theorem later_message_overtakes :
    crowded.Reachable ∧
      (crowded.system.post 5).waiting = [⟨1, .task 5, bulk 20⟩] ∧
      crowded.Sends (.send (.task 5) (.scheduler (.ping 1))) 5
        ⟨3, .task 5, .scheduler (.ping 1)⟩ ∧
      ((crowded.run pingPast).step (.tryReceive none)).1 =
        .ok (.message (some ⟨3, .task 5, .scheduler (.ping 1)⟩)) ∧
      ((crowded.run (pingPast ++ [.tryReceive none])).step (.tryReceive none)).1 =
        .ok (.message (some ⟨1, .task 5, bulk 20⟩)) := by
  refine ⟨reachable_crowded, ?_, ⟨_, _, .done, rfl, ?_, ⟨?_, 1, ?_⟩, .inl ?_⟩, ?_, ?_⟩
  all_goals decide +kernel

end Kernel

end Microkernel
