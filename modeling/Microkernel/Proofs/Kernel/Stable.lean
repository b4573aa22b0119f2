/-
What every operation of the kernel keeps.

A property of schedulers that is `Stable` holds of the scheduler of each core after every operation
of the kernel, if it did before, whether the operation answers, fails or halts the core. Each
operation is put together from small actions that keep it.

* **`keeps_actionOf`**: every operation but receiving keeps a stable property;
* **`ensures_tryReceive_meets`**: receiving keeps a property that the receive of the core that runs
  keeps;
* **`Steady.keeps_actionOf`**: every operation of the kernel keeps what schedulers keep on their
  own.
-/
import Microkernel.Proofs.Kernel.Keeping
import Microkernel.Proofs.Scheduler.Order

namespace Microkernel.Kernel

variable {α β : Type} {size : Nat} {P : CoreId → Scheduler → Prop} {c : CoreId}

/-! ### Interrupts and timers -/

theorem keeps_interrupt (kind : InterruptKind) :
    Keeps (System.Meets size P) (interrupt c kind) :=
  yields_coreAt.keeps.bind fun _ => (quiet_onMachine fun _ => rfl).keeps.bind fun _ =>
    (quiet_tally _ _).keeps

theorem keeps_localCore : Keeps (System.Meets size P) localCore :=
  Yields.get fun _ _ => yields_coreAt.keeps

theorem keeps_armTimer : Keeps (System.Meets size P) armTimer :=
  keeps_localCore.bind fun _ => Yields.get fun _ _ =>
    (quiet_onMachine fun _ => rfl).keeps.bind fun _ => keeps_setFlags _

theorem keeps_startLocal (hP : Stable size P) : Keeps (System.Meets size P) startLocal := by
  refine keeps_locked hP.toDrains fun c => yields_coreAt.keeps.bind fun core => ?_
  split
  · exact .pure trivial
  · exact (keeps_setFlags _).bind fun _ => (quiet_note _).keeps.bind fun _ =>
      (keeps_onScheduler (hP.start c)).bind fun _ => .pure trivial

theorem keeps_reschedule (hP : Stable size P) (a : α) :
    Keeps (System.Meets size P) (do return (a, ← onScheduler c Scheduler.reschedule)) :=
  (keeps_onScheduler (hP.reschedule c)).bind fun _ => .pure trivial

theorem keeps_handleInterrupt (hP : Stable size P) (kind : InterruptKind) :
    Keeps (System.Meets size P) (handleInterrupt kind) := by
  cases kind with
  | reschedule =>
    rw [handleInterrupt]
    exact keeps_locked hP.toDrains fun _ => keeps_reschedule hP ()
  | startScheduler =>
    rw [handleInterrupt]
    exact keeps_startLocal hP
  | invalidateTlb => exact quiet_flushTlb.keeps
  | setupTimeslice => exact keeps_armTimer

theorem keeps_tick (hP : Stable size P) : Keeps (System.Meets size P) tick := by
  refine keeps_locked hP.toDrains fun c => yields_coreAt.keeps.bind fun core => ?_
  dsimp only
  split
  · exact (quiet_tally _ _).keeps.bind fun _ => (keeps_onScheduler (hP.tick c)).bind fun _ =>
      yields_coreAt.keeps.bind fun _ => (quiet_tally _ _).keeps.bind fun _ => .pure trivial
  · exact .pure trivial

/-! ### New tasks -/

theorem yields_giveUp {id : TaskId} (event : Error → Event) (e : Error) {Q : α → Prop} :
    Yields (System.Meets size P) (giveUp id event e) Q :=
  (keeps_onDirectory fun _ => rfl).bind fun _ => (quiet_note _).keeps.bind fun _ => .fail e

/-- However a task is built, it is new. -/
theorem yields_build {name : String} {priority : Priority}
    {make : Launcher → TaskId → Machine → Except Error Task × Machine}
    (hmake : ∀ l id m, Launcher.Outcome l ⟨id, name, priority⟩ m (make l id m))
    (event : Error → Event) :
    Yields (System.Meets size P) (buildTask make event) (Task.IsNew size) := by
  refine (keeps_onDirectory fun _ => rfl).bind fun result => ?_
  refine Yields.bind (Yields.ofExcept fun _ _ => trivial) fun id _ => Yields.get fun k hk => ?_
  intro s hs
  refine Ensures.bind (Ensures.onMachine (fun m => (hmake _ id m).grows.currentCore) fun m => ?_)
  cases hresult : (make k.launcher id m).1 with
  | error e => exact yields_giveUp event e s hs
  | ok task =>
    have hbuilt := (hmake k.launcher id m).task task hresult
    refine Yields.pure ⟨?_, hbuilt.state, hbuilt.lastCore⟩ s hs
    have hsize : k.config.mailboxSize = size := hk.config
    rw [hbuilt.mailbox, ← hsize]
    rfl

theorem yields_buildKernelTask (name : String) (entry : Nat) (priority : Priority) :
    Yields (System.Meets size P) (buildKernelTask name entry priority) (Task.IsNew size) := by
  rw [buildKernelTask_eq]
  exact yields_build (fun _ _ m => Launcher.outcome_kernelTask m entry) _

theorem yields_buildUserTask (name : String) (entry : Nat) (path : Option String)
    (priority : Priority) :
    Yields (System.Meets size P) (buildUserTask name entry path priority) (Task.IsNew size) := by
  rw [buildUserTask_eq]
  exact yields_build (fun _ _ m => Launcher.outcome_userTask m entry path) _

theorem keeps_handOver {task : Task} (hnew : task.IsNew size) :
    Keeps (System.Meets size P) (handOver c task) := by
  have hpushed : Keeps (System.Meets size P) (updateCore c fun c =>
      { c.reserveLoad task.priority.weight with inbox := c.inbox.pushTask task }) := by
    refine keeps_updateCore _ (fun _ => rfl) fun core h => ⟨h.1, fun t ht => ?_⟩
    rcases List.mem_append.1 ht with ht | ht
    · exact h.2 t ht
    · rw [List.mem_singleton.1 ht]
      exact hnew
  exact yields_coreAt.keeps.bind fun _ => hpushed.bind fun _ => keeps_interrupt _

theorem keeps_place (hP : Stable size P) {task : Task} (hnew : task.IsNew size) :
    Keeps (System.Meets size P) (place task) := by
  refine Yields.get fun k _ => ?_
  split
  · have hparked : Keeps (System.Meets size P) (onDirectory fun d => ((), d.park task)) := by
      refine yields_onDirectory fun d hd => ⟨fun t ht => ?_, trivial⟩
      rcases List.mem_append.1 ht with ht | ht
      · exact hd t ht
      · rw [List.mem_singleton.1 ht]
        exact hnew
    exact hparked.bind fun _ => (quiet_note _).keeps.bind fun _ => .pure trivial
  · rename_i c _
    have hrest : ∀ {x : Action Unit}, Keeps (System.Meets size P) x →
        Keeps (System.Meets size P) (do x; note (.placed task.id c); return Placement.core c) :=
      fun hx => hx.bind fun _ => (quiet_note _).keeps.bind fun _ => .pure trivial
    refine (keeps_onDirectory fun _ => rfl).bind fun _ => ?_
    split
    · exact hrest (keeps_locked hP.toDrains fun _ =>
        (keeps_enqueue hP.toDrains hnew).bind fun _ => keeps_reschedule hP ())
    · exact hrest (keeps_handOver hnew)

theorem keeps_launch (hP : Stable size P) {task : Task} (hnew : task.IsNew size) :
    Keeps (System.Meets size P) (launch task) :=
  (keeps_place hP hnew).bind fun _ => (quiet_tally _ _).keeps.bind fun _ => .pure trivial

theorem keeps_spawn (hP : Stable size P) (name : String) (entry : Nat) (priority : Priority) :
    Keeps (System.Meets size P) (spawn name entry priority) :=
  Yields.bind (yields_buildKernelTask name entry priority) fun _ => keeps_launch hP

theorem keeps_spawnUser (hP : Stable size P) (name : String) (entry : Nat) (path : Option String)
    (priority : Priority) : Keeps (System.Meets size P) (spawnUser name entry path priority) :=
  Yields.bind (yields_buildUserTask name entry path priority) fun _ => keeps_launch hP

/-! ### Bringing up a core -/

theorem yields_buildServants :
    Yields (System.Meets size P) buildServants
      fun servants => servants.1.IsNew size ∧ servants.2.IsNew size := by
  refine Yields.bind (yields_buildKernelTask _ _ _) fun idle hidle =>
    Yields.bind (yields_buildKernelTask _ _ _).attempt fun r hr => ?_
  cases r with
  | ok cleanup => exact .pure ⟨hidle, hr cleanup rfl⟩
  | error e =>
    exact (keeps_onDirectory fun _ => rfl).bind fun _ =>
      (quiet_onMachine fun m => (idle.grows_release m).currentCore).keeps.bind fun _ => .fail e

/-- The cleanup task is installed only if the idle task was. -/
theorem keeps_installServants (hP : Stable size P) {idle cleanup : Task} (hidle : idle.IsNew size)
    (hcleanup : cleanup.IsNew size) :
    Keeps (System.Meets size P)
      (do
        askScheduler c (·.installIdle idle)
        request c (.installCleanup cleanup) (·.installCleanup cleanup) fun _ => .done
        return (((), none) : Unit × Option Switch)) := by
  refine .of_ensures fun s hs => ?_
  cases hcore : s.core? c with
  | none => exact Ensures.bind (Ensures.bind (ensures_coreAt_none hcore hs))
  | some core =>
    obtain ⟨hfirst, hsecond⟩ := hP.installServants c core.scheduler idle cleanup
      (hs.schedulers c core hcore) hidle hcleanup
    have hs₁ := hs.withScheduler hcore hfirst
    refine Ensures.bind (Ensures.askScheduler hcore _ ?_)
    cases hresult : (core.scheduler.installIdle idle).1 with
    | error e => exact hs₁
    | ok _ =>
      have hget := System.core?_withCore_self hcore
        { core with scheduler := (core.scheduler.installIdle idle).2 }
      have hs₂ := hs₁.withScheduler hget (hsecond hresult)
      refine Ensures.bind (Ensures.request hget _ _ _ ?_)
      dsimp only
      split
      · exact Ensures.pure hs₂
      · exact hs₂

theorem keeps_releaseParked (hP : Stable size P) : Keeps (System.Meets size P) releaseParked := by
  have htaken : Yields (System.Meets size P) (onDirectory Directory.takeParked)
      fun tasks => ∀ t ∈ tasks, t.IsNew size :=
    yields_onDirectory fun d hd => ⟨fun t ht => (by cases ht), hd⟩
  exact Yields.bind htaken fun tasks hnew => Keeps.forM tasks fun task hin =>
    (keeps_place hP (hnew task hin)).bind fun _ => .pure trivial

theorem keeps_bringUp (hP : Stable size P) : Keeps (System.Meets size P) bringUp := by
  refine keeps_localCore.bind fun core => ?_
  split
  · exact .pure trivial
  · refine Yields.bind yields_buildServants fun servants hnew => ?_
    exact (keeps_locked hP.toDrains fun c => keeps_installServants hP hnew.1 hnew.2).bind
      fun _ => (keeps_onDirectory fun _ => rfl).bind fun _ => (keeps_setFlags _).bind fun _ =>
        (quiet_note _).keeps.bind fun _ => keeps_releaseParked hP

/-! ### Sleeping, waking and the end of tasks -/

theorem keeps_sleep (hP : Stable size P) (milliseconds : Nat) :
    Keeps (System.Meets size P) (sleep milliseconds) :=
  keeps_locked hP.toDrains fun c =>
    (keeps_request fun scheduler h => hP.sleep c scheduler milliseconds h).bind fun _ =>
      (quiet_tally _ _).keeps.bind fun _ => .pure trivial

theorem keeps_checkLocal (task : TaskId) : Keeps (System.Meets size P) (checkLocal task) := by
  refine Yields.get fun k _ => ?_
  split
  · exact .fail _
  · split
    · exact .pure trivial
    · exact .fail _

theorem keeps_wake (hP : Stable size P) (task : TaskId) :
    Keeps (System.Meets size P) (wake task) := by
  refine (keeps_checkLocal task).bind fun _ => keeps_locked hP.toDrains fun c =>
    (keeps_onScheduler fun scheduler h => hP.wake c scheduler task h).bind fun woken => ?_
  split
  · exact (quiet_tally _ _).keeps.bind fun _ => keeps_reschedule hP true
  · exact .pure trivial

theorem keeps_changePriority (hP : Stable size P) (task : TaskId) (priority : Priority) :
    Keeps (System.Meets size P) (changePriority task priority) :=
  (keeps_checkLocal task).bind fun _ => keeps_locked hP.toDrains fun c =>
    (keeps_askScheduler fun scheduler h => hP.changePriority c scheduler task priority h).bind
      fun _ => .pure trivial

theorem keeps_exit (hP : Stable size P) : Keeps (System.Meets size P) exit := by
  refine keeps_locked hP.toDrains fun c => (keeps_request (hP.exit c)).bind fun exit =>
    (keeps_onDirectory fun _ => rfl).bind fun known => ?_
  split
  · exact (quiet_note _).keeps.bind fun _ => .pure trivial
  · exact .pure trivial

theorem keeps_checkCleanup : Keeps (System.Meets size P) (checkCleanup c) := by
  refine yields_coreAt.keeps.bind fun core => ?_
  dsimp only
  split
  · exact .fail _
  · split
    · exact .pure trivial
    · exact .fail _

theorem keeps_runCleanup (hP : Stable size P) : Keeps (System.Meets size P) runCleanup :=
  (keeps_locked hP.toDrains fun c => keeps_checkCleanup.bind fun _ =>
    (keeps_onScheduler (hP.reap c)).bind fun _ => .pure trivial).bind fun reaped =>
      (quiet_forM (fun _ => quiet_note _) _).keeps.bind fun _ =>
        (quiet_onMachine fun m => (Task.grows_releaseAll reaped m).currentCore).keeps.bind fun _ =>
          (quiet_tally _ _).keeps.bind fun _ => .pure trivial

/-- Only the cleanup task gets as far as to be parked. -/
theorem keeps_parkCleanup (hP : Stable size P) : Keeps (System.Meets size P) parkCleanup := by
  refine keeps_locked hP.toDrains fun c => .of_ensures fun s hs => ?_
  cases hcore : s.core? c with
  | none => exact Ensures.bind (ensures_coreAt_none hcore hs)
  | some core =>
    refine Ensures.bind (Ensures.coreAt hcore ?_)
    dsimp only
    split
    · exact Ensures.fail hs
    · rename_i cleanup hcleanup
      split
      · rename_i hcurrent
        refine Ensures.pure (Ensures.coreAt hcore ?_)
        split
        · have hpark := hP.park c core.scheduler (hs.schedulers c core hcore)
            (hcurrent.trans hcleanup.symm)
          have hs₁ := hs.withScheduler hcore hpark
          refine Ensures.bind (Ensures.askScheduler hcore _ ?_)
          split
          · exact Ensures.pure hs₁
          · exact hs₁
        · exact Ensures.pure hs
      · exact Ensures.fail hs

/-! ### Messages -/

theorem keeps_deliverLocally (hP : Stable size P) (recipient : TaskId) (message : Message) :
    Keeps (System.Meets size P) (deliverLocally recipient message) := by
  refine keeps_locked hP.toDrains fun c =>
    (keeps_askScheduler fun scheduler h => hP.deliver c scheduler recipient message h).bind
      fun woken => ?_
  split
  · exact (quiet_tally _ _).keeps.bind fun _ => keeps_reschedule hP ()
  · exact .pure trivial

theorem keeps_post (recipient : TaskId) (message : Message) :
    Keeps (System.Meets size P) (post c recipient message) := by
  refine Yields.bind (Yields.ofExcept fun _ _ => trivial) fun _ _ =>
    Yields.bind yields_coreAt fun target htarget => ?_
  refine Yields.bind (Q := fun inbox => ∀ t ∈ inbox.tasks, t.IsNew size)
    (Yields.ofExcept fun inbox hpush => ?_) fun inbox hinbox => ?_
  · rw [Inbox.tasks_of_pushMail hpush]
    exact htarget.2
  · have hleft : Keeps (System.Meets size P) (updateCore c fun c => { c with inbox := inbox }) :=
      keeps_updateCore _ (fun _ => rfl) fun _ h => ⟨h.1, hinbox⟩
    exact hleft.bind fun _ => keeps_interrupt _

theorem keeps_route (hP : Stable size P) (message : Message) :
    Keeps (System.Meets size P) (route message) := by
  refine Yields.get fun k _ => Yields.bind (Yields.ofExcept fun _ _ => trivial) fun target _ => ?_
  have hbrought : Keeps (System.Meets size P)
      (if target.2 = k.machine.currentCore then deliverLocally target.1 message
        else post target.2 target.1 message) := by
    split
    · exact keeps_deliverLocally hP _ _
    · exact keeps_post _ _
  refine hbrought.attempt.bind fun outcome => ?_
  split
  · exact (quiet_tally _ _).keeps
  · exact (quiet_tally _ _).keeps.bind fun _ => .fail _
  · exact .fail _

theorem keeps_registerProvider (service : Service) (task : TaskId) :
    Keeps (System.Meets size P) (registerProvider service task) := by
  refine (keeps_onDirectory fun _ => rfl).bind fun before => ?_
  split
  · exact (quiet_note _).keeps
  · exact .pure trivial

theorem keeps_answerRegistry (hP : Stable size P) (message : Message) :
    Keeps (System.Meets size P) (answerRegistry message) := by
  rw [answerRegistry]
  split
  · exact keeps_registerProvider _ _
  · exact (keeps_onDirectory fun _ => rfl).bind fun _ => .pure trivial
  · exact Yields.get fun _ _ => keeps_route hP _
  all_goals exact .fail _

theorem keeps_send (hP : Stable size P) (recipient : Recipient) (body : Body) :
    Keeps (System.Meets size P) (send recipient body) := by
  refine Yields.get fun k _ => ?_
  dsimp only
  split
  · exact keeps_answerRegistry hP _
  · exact keeps_route hP _

/-- One try to receive. The property that holds afterwards may be one that only the receive of the
core that runs brings about. -/
theorem ensures_tryReceive_meets {s : System} {P' : CoreId → Scheduler → Prop}
    (hd : Drains size P) (hP : ∀ c scheduler, P c scheduler → P' c scheduler)
    (hs : s.Meets size P) {filter : Option Filter}
    (hreceive : ∀ scheduler, P s.currentCore scheduler →
      P' s.currentCore (scheduler.receive filter).2) :
    Ensures s (tryReceive filter) fun _ s' => s'.Meets size P' := by
  refine Ensures.bind ((ensures_locked_meets hd hP hs fun s' hs' => ?_).mono fun r s' hs' => ?_)
  · cases hcore : s'.core? s.currentCore with
    | none => exact Ensures.bind (Ensures.bind (ensures_coreAt_none hcore (hs'.mono hP)))
    | some core =>
      have hs₁ := (hs'.mono hP).withScheduler hcore (hreceive _ (hs'.schedulers _ core hcore))
      refine Ensures.bind (Ensures.askScheduler hcore _ ?_)
      cases (core.scheduler.receive filter).1 with
      | error e => exact hs₁
      | ok reception => cases reception <;> exact Ensures.pure hs₁
  · match r with
    | .error e => exact hs'
    | .ok none => exact Ensures.pure hs'
    | .ok (some message) => exact Ensures.quiet (quiet_tally _ _) fun _ => Ensures.pure hs'

/-! ### All operations -/

/-- What an operation asks for, if it asks for mail. -/
def Operation.filter? : Operation → Option (Option Filter)
  | .tryReceive filter | .receive filter => some filter
  | _ => none

theorem keeps_turnTo (c : CoreId) :
    Keeps (System.Meets size P) (onMachine fun m => ((), { m with currentCore := c })) := by
  refine .of_ensures fun s hs => ?_
  rintro k rfl
  exact ⟨hs.config, hs.ordinals, hs.schedulers, hs.arriving, hs.parked⟩

theorem keeps_actionOf (hP : Stable size P) {operation : Operation}
    (hother : operation.filter? = none) : Keeps (System.Meets size P) (actionOf operation) := by
  have hanswer : ∀ {α : Type} {x : Action α} (f : α → Answer), Keeps (System.Meets size P) x →
      Keeps (System.Meets size P) (do return f (← x)) :=
    fun f hx => hx.bind fun _ => .pure trivial
  cases operation with
  | bringUp => exact hanswer (fun _ => .done) (keeps_bringUp hP)
  | spawn name entry priority => exact hanswer .task (keeps_spawn hP name entry priority)
  | spawnUser name entry path priority =>
    exact hanswer .task (keeps_spawnUser hP name entry path priority)
  | start =>
    exact hanswer (fun _ => .done)
      ((quiet_interruptOthers _).keeps.bind fun _ => keeps_startLocal hP)
  | exit => exact hanswer .task (keeps_exit hP)
  | sleep milliseconds => exact hanswer (fun _ => .done) (keeps_sleep hP milliseconds)
  | wake task => exact hanswer .flag (keeps_wake hP task)
  | tick => exact hanswer (fun _ => .done) (keeps_tick hP)
  | send recipient body => exact hanswer (fun _ => .done) (keeps_send hP recipient body)
  | tryReceive filter => cases hother
  | receive filter => cases hother
  | changePriority task priority =>
    exact hanswer (fun _ => .done) (keeps_changePriority hP task priority)
  | invalidateTlb =>
    exact hanswer (fun _ => .done)
      (quiet_flushTlb.keeps.bind fun _ => (quiet_interruptOthers _).keeps)
  | setupTimeslice =>
    exact hanswer (fun _ => .done) (keeps_armTimer.bind fun _ => (quiet_interruptOthers _).keeps)
  | handleInterrupt kind => exact hanswer (fun _ => .done) (keeps_handleInterrupt hP kind)
  | runCleanup => exact hanswer .count (keeps_runCleanup hP)
  | parkCleanup => exact hanswer (fun _ => .done) (keeps_parkCleanup hP)
  | setRegistryTask task => exact hanswer (fun _ => .done) (keeps_onDirectory fun _ => rfl)
  | turnTo core => exact hanswer (fun _ => .done) (keeps_turnTo core)
  | setFault fault on => exact hanswer (fun _ => .done) (quiet_onMachine fun _ => rfl).keeps
  | setLevel level =>
    have hquiet : Quiet (modify fun k : Kernel =>
        { k with journal := { k.journal with level := level } }) := fun _ => ⟨_, _, rfl, rfl⟩
    exact hanswer (fun _ => .done) hquiet.keeps

/-! ### Properties that a scheduler keeps on its own -/

/-- Whatever is asked of a scheduler keeps the property, as long as the tasks that it is handed are
new. -/
def Steady (size : Nat) (P : CoreId → Scheduler → Prop) : Prop :=
  ∀ c s (operation : Scheduler.Operation), P c s →
    (∀ task, operation.task? = some task → task.IsNew size) → P c (s.step operation).2

namespace Steady

variable (hP : Steady size P)

include hP

theorem step {s : Scheduler} (operation : Scheduler.Operation) (h : P c s)
    (hnone : operation.task? = none) : P c (s.step operation).2 :=
  hP c s operation h fun task htask => by
    rw [hnone] at htask
    cases htask

theorem join {s : Scheduler} (operation : Scheduler.Operation) {task : Task} (h : P c s)
    (htask : operation.task? = some task) (hnew : task.IsNew size) : P c (s.step operation).2 :=
  hP c s operation h fun task' htask' => by
    obtain rfl := Option.some_inj.1 (htask.symm.trans htask')
    exact hnew

theorem stable : Stable size P where
  schedule _ _ task h hnew := hP.join (.schedule task) h rfl hnew
  deliver _ _ recipient message h := hP.step (.deliver recipient message) h rfl
  installServants _ _ idle cleanup h hidle hcleanup :=
    have hfirst := hP.join (.installIdle idle) h rfl hidle
    ⟨hfirst, fun _ => hP.join (.installCleanup cleanup) hfirst rfl hcleanup⟩
  start _ _ h := hP.step .start h rfl
  reschedule _ _ h := hP.step .reschedule h rfl
  tick _ _ h := hP.step .tick h rfl
  sleep _ _ milliseconds h := hP.step (.block (.sleep milliseconds)) h rfl
  park _ _ h _ := hP.step (.block (.mail none)) h rfl
  wake _ _ id h := hP.step (.wake id) h rfl
  exit _ _ h := hP.step .exit h rfl
  reap _ _ h := hP.step .reap h rfl
  changePriority _ _ id priority h := hP.step (.changePriority id priority) h rfl

theorem keeps_tryReceive (filter : Option Filter) :
    Keeps (System.Meets size P) (tryReceive filter) :=
  .of_ensures fun _ hs => ensures_tryReceive_meets hP.stable.toDrains (fun _ _ h => h) hs
    fun _ h => hP.step (.receive filter) h rfl

theorem keeps_receiveWithin (tries : Nat) (filter : Option Filter) :
    Keeps (System.Meets size P) (receiveWithin tries filter) := by
  induction tries with
  | zero => exact .fail _
  | succ tries ih =>
    refine (hP.keeps_tryReceive filter).bind fun received => ?_
    cases received with
    | none => exact ih
    | some message => exact .pure trivial

/-- Every operation of the kernel keeps what schedulers keep on their own. -/
theorem keeps_actionOf (operation : Operation) :
    Keeps (System.Meets size P) (actionOf operation) := by
  cases hfilter : operation.filter? with
  | none => exact Kernel.keeps_actionOf hP.stable hfilter
  | some filter =>
    cases operation with
    | tryReceive filter =>
      exact (hP.keeps_tryReceive filter).bind fun _ => .pure trivial
    | receive filter =>
      exact (keeps_localCore.bind fun _ => hP.keeps_receiveWithin _ filter).bind fun _ _ =>
        .pure trivial
    | _ => cases hfilter

end Steady

end Microkernel.Kernel
