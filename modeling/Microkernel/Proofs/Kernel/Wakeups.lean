/-
No task waits for mail that it has got.

Whoever receives asks for mail in the name of the task that is current, and if that task has to
wait, in the name of the next one. `k.history operations` lists what a run asks for, so that
`lastAsked` tells what a task that waits is waiting for.

* **`no_wakeup_lost`**: in every kernel that can be reached, a task that is blocked and is not the
  cleanup task of its core has not got what it asked for last;
* **`meets_step`**: one operation keeps that up.

Design notes: a request is noted when it is made, before it is known whether the task has to wait.
This does no harm, since the current task is never one that waits.
-/
import Microkernel.Proofs.Kernel.Runs
import Microkernel.Proofs.Kernel.Stable
import Microkernel.Proofs.Scheduler.Waiting

namespace Microkernel

namespace Scheduler

variable {s : Scheduler}

theorem current_schedule (task : Task) : (s.schedule task).2.current = s.current := by
  rw [schedule]
  split <;> rfl

theorem Coherent.current_deliver (h : s.Coherent) (recipient : TaskId) (message : Message) :
    (s.deliver recipient message).2.current = s.current := by
  rcases h.deliver (Prod.eta (s.deliver recipient message)).symm with
    ⟨-, hsame, -⟩ | ⟨-, -, -, ⟨-, -, hsame, -⟩ | ⟨-, -, -, -, -, -, hcurrent⟩⟩
  · rw [hsame]
  · rw [hsame]
  · exact hcurrent

end Scheduler

namespace Kernel

variable {k : Kernel}

/-! ### What is asked for -/

/-- Mail was asked for in the name of the task that was current on a core. -/
structure Inquiry where
  core : CoreId
  task : Option TaskId
  filter : Option Filter

/-- What a task of a core asked for last. -/
def lastAsked (history : List Inquiry) (c : CoreId) (id : TaskId) : Option (Option Filter) :=
  (history.reverse.find? fun inquiry =>
    inquiry.core = c ∧ inquiry.task = some id).map Inquiry.filter

/-- The task that is current asks for mail. -/
def inquiry (k : Kernel) (filter : Option Filter) : Inquiry :=
  ⟨k.machine.currentCore, k.currentTask, filter⟩

/-- What is asked for by trying to receive a number of times, until there is a message. -/
def asksWithin : Nat → Option Filter → Kernel → List Inquiry
  | 0, _, _ => []
  | tries + 1, filter, k =>
    k.inquiry filter ::
      match k.perform (tryReceive filter) with
      | (.ok none, k) => asksWithin tries filter k
      | _ => []

/-- How often a receive tries at most. -/
def tries (k : Kernel) : Nat :=
  match k.localCore? with
  | none => 0
  | some core => core.scheduler.tasks.entries.length + core.inbox.tasks.length + 1

/-- What an operation asks for. -/
def asks (k : Kernel) : Operation → List Inquiry
  | .tryReceive filter => asksWithin 1 filter k
  | .receive filter => asksWithin k.tries filter k
  | _ => []

/-- What a run asks for. -/
def history : Kernel → List Operation → List Inquiry
  | _, [] => []
  | k, operation :: rest => k.asks operation ++ (k.step operation).2.history rest

theorem asks_of_filter? {operation : Operation} (h : operation.filter? = none) :
    k.asks operation = [] := by
  cases operation <;> first | rfl | cases h

theorem lastAsked_append (history : List Inquiry) (inquiry : Inquiry) (c : CoreId) (id : TaskId) :
    lastAsked (history ++ [inquiry]) c id =
      if inquiry.core = c ∧ inquiry.task = some id then some inquiry.filter
      else lastAsked history c id := by
  rw [lastAsked, List.reverse_append, List.reverse_singleton, List.singleton_append,
    List.find?_cons]
  by_cases hmatch : inquiry.core = c ∧ inquiry.task = some id
  · simp [hmatch]
  · rw [if_neg hmatch, decide_eq_false hmatch]
    rfl

/-! ### What every core keeps -/

variable {size : Nat} {history : List Inquiry}

/-- No task of the core waits for mail that it has got. -/
def Watch (size : Nat) (history : List Inquiry) (c : CoreId) (s : Scheduler) : Prop :=
  s.Watchful size (lastAsked history c)

theorem stable_watch : Stable size (Watch size history) where
  schedule _ _ _ h hnew := h.schedule hnew.mailbox
  deliver _ _ recipient message h := h.deliver recipient message
  installServants _ _ _ _ h hidle hcleanup := h.installServants hidle.mailbox hcleanup.mailbox
  start _ _ h := h.start
  reschedule _ _ h := h.reschedule
  tick _ _ h := h.tick
  sleep _ _ milliseconds h := h.sleep milliseconds
  park _ _ h hcurrent := h.park hcurrent
  wake _ _ id h := h.wake id
  exit _ _ h := h.exit
  reap _ _ h := h.reap
  changePriority _ _ id priority h := h.changePriority id priority

/-- The current task asks for mail. It is not blocked, so that nobody waits for what it asks. -/
theorem Watch.asking {c : CoreId} {s : Scheduler} (h : Watch size history c s) {inquiry : Inquiry}
    (hcurrent : inquiry.core = c → s.current = inquiry.task) :
    Watch size (history ++ [inquiry]) c s := by
  refine Scheduler.Watchful.asking h fun id hblocked => ?_
  rw [lastAsked_append, if_neg]
  rintro ⟨hcore, htask⟩
  have hout := h.coherent.not_blocked_of_current ((hcurrent hcore).trans htask)
  rw [hout] at hblocked
  cases hblocked

/-! ### Receiving -/

/-- While the inbox is drained, the task that asks stays current. -/
theorem drains_watch (inquiry : Inquiry) :
    Drains size fun c s =>
      Watch size history c s ∧ (c = inquiry.core → s.current = inquiry.task) where
  schedule c s task h hnew := ⟨stable_watch.schedule c s task h.1 hnew, fun hc =>
    (Scheduler.current_schedule task).trans (h.2 hc)⟩
  deliver c s recipient message h := ⟨stable_watch.deliver c s recipient message h.1, fun hc =>
    (h.1.coherent.current_deliver recipient message).trans (h.2 hc)⟩

theorem meets_tryReceive (h : k.system.Sound []) (hk : k.system.Meets size (Watch size history))
    (filter : Option Filter) :
    (k.perform (tryReceive filter)).2.system.Meets size
      (Watch size (history ++ [k.inquiry filter])) := by
  have hcurrent : ∀ c core, k.system.core? c = some core → c = k.machine.currentCore →
      core.scheduler.current = k.currentTask := by
    rintro c core hcore rfl
    have hlocal : k.localCore? = some core := hcore
    rw [currentTask, hlocal]
    exact (h.settled _ core hcore).current.symm
  have hasked : k.system.Meets size fun c s => Watch size (history ++ [k.inquiry filter]) c s ∧
      (c = (k.inquiry filter).core → s.current = (k.inquiry filter).task) :=
    ⟨hk.config, hk.ordinals, fun c core hcore =>
      ⟨(hk.schedulers c core hcore).asking fun hc => hcurrent c core hcore hc.symm,
        hcurrent c core hcore⟩, hk.arriving, hk.parked⟩
  refine ensures_tryReceive_meets (drains_watch _) (fun _ _ h => h.1) hasked
    (fun scheduler hs => ?_) k rfl
  obtain ⟨hwatch, hrunning⟩ := hs
  refine Scheduler.Watchful.receive hwatch fun id hworking => ?_
  have htask : k.currentTask = some id :=
    (hrunning rfl).symm.trans (Scheduler.working?_eq_some hworking).1
  exact (lastAsked_append _ _ _ _).trans (if_pos ⟨rfl, htask⟩)

theorem meets_receiveWithin (tries : Nat) (h : k.system.Sound [])
    (hk : k.system.Meets size (Watch size history)) (filter : Option Filter) :
    (k.perform (receiveWithin tries filter)).2.system.Meets size
      (Watch size (history ++ asksWithin tries filter k)) := by
  induction tries generalizing k history with
  | zero =>
    rw [asksWithin, List.append_nil]
    exact hk
  | succ tries ih =>
    have hone := meets_tryReceive h hk filter
    have hsound := (ensures_tryReceive h filter k rfl).sound
    rw [receiveWithin, perform_bind, asksWithin]
    rcases htry : k.perform (tryReceive filter) with ⟨r, k'⟩
    rw [htry] at hone hsound
    match r with
    | .error _ => exact hone
    | .ok (some _) => exact hone
    | .ok none =>
      -- the task that was current waits, and another one tries in its place
      have hrest := ih hsound hone
      rw [List.append_assoc] at hrest
      exact hrest

/-- A receive is so many tries, or none if there is no core that runs. -/
theorem perform_receive (filter : Option Filter) :
    (k.perform (receive filter)).2 = (k.perform (receiveWithin k.tries filter)).2 := by
  have hlocal : k.perform localCore =
      (k.localCore?.elim (.error (.failed .invalidCore)) .ok, k) :=
    perform_coreAt_eq k k.machine.currentCore
  rw [receive, perform_bind, hlocal, tries]
  cases k.localCore? <;> rfl

theorem perform_answer {α : Type} (x : Action α) (f : α → Answer) :
    (k.perform (do return f (← x))).2 = (k.perform x).2 := by
  rw [perform_bind]
  rcases k.perform x with ⟨_ | _, _⟩ <;> rfl

theorem step_bringUp (k : Kernel) : (k.step .bringUp).2 = (k.perform bringUp).2 :=
  perform_answer _ fun _ => .done

theorem step_spawn (k : Kernel) (name : String) (entry : Nat) (priority : Priority) :
    (k.step (.spawn name entry priority)).2 = (k.perform (spawn name entry priority)).2 :=
  perform_answer _ .task

theorem step_spawnUser (k : Kernel) (name : String) (entry : Nat) (path : Option String)
    (priority : Priority) : (k.step (.spawnUser name entry path priority)).2 =
      (k.perform (spawnUser name entry path priority)).2 :=
  perform_answer _ .task

theorem step_receive (k : Kernel) (filter : Option Filter) :
    (k.step (.receive filter)).2 = (k.perform (receiveWithin k.tries filter)).2 := by
  have hstep : (k.step (.receive filter)).2 = (k.perform (receive filter)).2 :=
    perform_answer _ fun message => .message (some message)
  rw [hstep, perform_receive]

theorem meets_step (h : k.system.Sound []) (hk : k.system.Meets size (Watch size history))
    (operation : Operation) :
    (k.step operation).2.system.Meets size (Watch size (history ++ k.asks operation)) := by
  cases hfilter : operation.filter? with
  | none =>
    rw [asks_of_filter? hfilter, List.append_nil]
    exact (keeps_actionOf stable_watch hfilter).ensures hk k rfl
  | some filter =>
    cases operation with
    | tryReceive filter =>
      have hstep : (k.step (.tryReceive filter)).2 = (k.perform (tryReceive filter)).2 :=
        perform_answer _ _
      rw [hstep]
      have hone := meets_tryReceive h hk filter
      rw [asks, asksWithin]
      split <;> exact hone
    | receive filter =>
      rw [step_receive]
      exact meets_receiveWithin k.tries h hk filter
    | _ => cases hfilter

/-! ### Runs -/

theorem meets_of_new {P : CoreId → Scheduler → Prop} {config : Config} {apics : List Nat}
    (h : Kernel.new config apics = .ok k) (hP : ∀ c, P c (.new c config.timeslice)) :
    k.system.Meets config.mailboxSize P := by
  obtain ⟨hconfig, hdirectory, hcores⟩ := parts_of_new h
  refine ⟨congrArg Config.mailboxSize hconfig, (sound_new h).ordinals, fun c core hcore => ?_,
    fun c core hcore t ht => ?_, fun t ht => ?_⟩
  · obtain ⟨apic, rfl⟩ := hcores c core hcore
    exact hP c
  · obtain ⟨apic, rfl⟩ := hcores c core hcore
    cases ht
  · have hparked : k.system.directory.parked = [] := congrArg Directory.parked hdirectory
    rw [hparked] at ht
    cases ht

theorem meets_new {config : Config} {apics : List Nat} (h : Kernel.new config apics = .ok k) :
    k.system.Meets config.mailboxSize (Watch config.mailboxSize []) :=
  meets_of_new h fun c => Scheduler.Watchful.new c config.timeslice

theorem Reachable.meets_run (h : k.Reachable) (hk : k.system.Meets size (Watch size history))
    (operations : List Operation) : (k.run operations).system.Meets size
      (Watch size (history ++ k.history operations)) := by
  induction operations generalizing k history with
  | nil =>
    rw [Kernel.history, List.append_nil]
    exact hk
  | cons operation rest ih =>
    have hrest := ih (h.step operation) (meets_step h.sound hk operation)
    rw [List.append_assoc] at hrest
    rw [h.run_cons]
    exact hrest

/-- No task waits for mail that it has got. -/
structure Attentive (k : Kernel) (history : List Inquiry) : Prop where
  /-- A task that is blocked waits for what it asked for last; only a cleanup task need not. -/
  waiting : ∀ c core, k.core? c = some core → ∀ id t, core.scheduler.task? id = some t →
    t.state = .blocked → core.scheduler.cleanup ≠ some id →
    t.mailbox.Sound ∧ ∃ filter, lastAsked history c id = some filter ∧ t.Unanswered filter
  /-- Tasks on their way to a scheduler do not wait. -/
  arriving : ∀ core ∈ k.cores, ∀ t ∈ core.inbox.tasks, t.state = .ready
  parked : ∀ t ∈ k.directory.parked, t.state = .ready

theorem attentive_of_meets (h : k.system.Meets size (Watch size history)) :
    k.Attentive history where
  waiting c core hcore id t ht hblocked hcleanup := by
    have hwatch := h.schedulers c core hcore
    obtain ⟨-, hcase⟩ := hwatch.obeys id t ht hblocked
    exact ⟨(hwatch.mail id t ht).1, hcase.resolve_left hcleanup⟩
  arriving core hin t ht := by
    obtain ⟨c, hcore⟩ := List.getElem?_of_mem hin
    exact (h.arriving c core hcore t ht).state
  parked t ht := (h.parked t ht).state

/-- Whatever is asked of a new kernel, on whatever cores, no task is left waiting for mail that it
has got. -/
theorem no_wakeup_lost {config : Config} {apics : List Nat} (h : Kernel.new config apics = .ok k)
    (operations : List Operation) : (k.run operations).Attentive (k.history operations) :=
  attentive_of_meets ((Reachable.new h).meets_run (meets_new h) operations)

/-- A task gets a ping, and then waits for something else. -/
def pickyWait : List Operation :=
  opening ++ [.turnTo 0, .spawn "picky" 0x1000 .other, .tick,
    .send (.task 4) (.scheduler (.ping 1)), .tryReceive (some ⟨.vfs, none⟩)]

theorem no_wakeup_lost_pickyWait :
    Kernel.new { Config.withCores 2 with mailboxSize := 20 } [0, 1] = .ok pair ∧
      (pair.run pickyWait).Attentive (pair.history pickyWait) ∧
      lastAsked (pair.history pickyWait) 0 4 = some (some ⟨.vfs, none⟩) ∧
      (((pair.run pickyWait).core? 0).bind fun core => core.scheduler.task? 4).map
        (fun t => (t.state, t.waitSince, t.mailbox.unread)) = some (.blocked, some 1, 1) := by
  refine ⟨new_pair, no_wakeup_lost new_pair pickyWait, ?_, ?_⟩
  all_goals decide +kernel

end Kernel

end Microkernel
