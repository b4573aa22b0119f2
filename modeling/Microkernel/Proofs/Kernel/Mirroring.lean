/-
Operations that do not look at the memory of tasks.

Carried out in kernels that are alike, an action answers the same in both and leaves them alike,
also when it hands on tasks that differ in their memory between the two (`Mirrors`).

* **`mirrors_locked`**, **`mirrors_call`**: what is done under the lock of a core, given that it
  comes to the same switch;
* **`mirrors_place`**, **`mirrors_launch`**, **`mirrors_goOnline`**: what is done with a task that
  was built;
* **`mirrors_exit`**, **`mirrors_runCleanup`**: the end of a task and its reclaiming;
* **`mirrors_send`**, **`mirrors_receive`**: messages.

Design notes: which core a task is placed on depends on the published loads, and what a task weighs
on its priority. The words that are saved and loaded at a context switch are not compared, so
nothing here depends on where a stack is.
-/
import Microkernel.Proofs.Kernel.Alike
import Microkernel.Proofs.Kernel.Lifetime

namespace Microkernel

/-! ### The directory -/

namespace Directory.Alike

variable {d d' : Directory}

theorem generateId (h : d.Alike d') :
    d'.generateId.1 = d.generateId.1 ∧ d.generateId.2.Alike d'.generateId.2 := by
  obtain ⟨ids, hids, hids'⟩ := h.ids
  have hsame : d.ids.generate.1 = d'.ids.generate.1 :=
    hids.generate_congr hids' h.limit.symm fun _ => Iff.rfl
  have hlimit : d'.ids.generate.2.limit = d.ids.generate.2.limit := by
    rw [IdPool.limit_generate, IdPool.limit_generate, h.limit]
  refine ⟨hsame.symm, ?_, hlimit, h.homes, h.registry, h.parked⟩
  cases hg : d.ids.generate.1 with
  | ok id =>
    exact ⟨id :: ids, (hids.generate_ok (Prod.ext hg rfl)).2,
      (hids'.generate_ok (Prod.ext (hsame.symm.trans hg) rfl)).2⟩
  | error e =>
    exact ⟨ids, (hids.generate_error (Prod.ext hg rfl)).2,
      (hids'.generate_error (Prod.ext (hsame.symm.trans hg) rfl)).2⟩

theorem freeId (h : d.Alike d') (id : TaskId) :
    (d'.freeId id).1 = (d.freeId id).1 ∧ (d.freeId id).2.Alike (d'.freeId id).2 := by
  obtain ⟨ids, hids, hids'⟩ := h.ids
  have hsame : (d'.ids.release id).1 = (d.ids.release id).1 := by
    rw [hids.release_fst, hids'.release_fst]
  have hlimit : (d'.ids.release id).2.limit = (d.ids.release id).2.limit := by
    rw [IdPool.limit_release, IdPool.limit_release, h.limit]
  refine ⟨hsame, ?_, hlimit, h.homes, h.registry, h.parked⟩
  by_cases hid : id ∈ ids
  · exact ⟨ids.erase id, hids.release hid, hids'.release hid⟩
  · have hkept : ∀ {p : IdPool}, p.Holds ids → (p.release id).2.Holds ids := by
      intro p hp
      rw [hp.release_of_notMem hid]
      exact hp
    exact ⟨ids, hkept hids, hkept hids'⟩

theorem recordHome (h : d.Alike d') (id : TaskId) (c : CoreId) :
    (d.recordHome id c).Alike (d'.recordHome id c) :=
  ⟨h.ids, h.limit, congrArg (·.insert id c) h.homes, h.registry, h.parked⟩

theorem park (h : d.Alike d') {task task' : Task} (htask : task'.bare = task.bare) :
    (d.park task).Alike (d'.park task') := by
  refine ⟨h.ids, h.limit, h.homes, h.registry, ?_⟩
  rw [Directory.park, Directory.park, List.map_append, List.map_append, h.parked,
    List.map_singleton, List.map_singleton, htask]

theorem register (h : d.Alike d') (service : Service) (task : TaskId) :
    (d'.register service task).1 = (d.register service task).1 ∧
      (d.register service task).2.Alike (d'.register service task).2 := by
  rw [Directory.register, Directory.register, h.registry]
  exact ⟨rfl, h.ids, h.limit, h.homes, rfl, h.parked⟩

theorem unregister (h : d.Alike d') (service : Service) (task : TaskId) :
    (d'.unregister service task).1 = (d.unregister service task).1 ∧
      (d.unregister service task).2.Alike (d'.unregister service task).2 := by
  rw [Directory.unregister, Directory.unregister, h.registry]
  exact ⟨rfl, h.ids, h.limit, h.homes, rfl, h.parked⟩

theorem forget (h : d.Alike d') (id : TaskId) :
    (d'.forget id).1 = (d.forget id).1 ∧ (d.forget id).2.Alike (d'.forget id).2 := by
  have hgone : ({ d with
      homes := d.homes.erase id
      registry := (d.registry.remove id).2 } : Directory).Alike
        { d' with
          homes := d'.homes.erase id
          registry := (d'.registry.remove id).2 } :=
    ⟨h.ids, h.limit, congrArg (·.erase id) h.homes, congrArg (fun r => (r.remove id).2) h.registry,
      h.parked⟩
  exact hgone.freeId id

theorem resolve (h : d.Alike d') (recipient : Recipient) :
    d'.resolve recipient = d.resolve recipient := by
  rw [Directory.resolve, Directory.resolve, h.registry]
  cases d.registry.resolve recipient with
  | error e => rfl
  | ok id =>
    dsimp only
    rw [Directory.homeOf, Directory.homeOf, h.homes]

end Directory.Alike

namespace Kernel

variable {α β : Type} {c : CoreId} {rel : α → β → Prop}

/-! ### Work on the scheduler of a core -/

theorem mirrors_scheduler {f f' g : Scheduler → α × Scheduler} (hf : Scheduler.Bares f g)
    (hf' : Scheduler.Bares f' g) : Mirrors Eq (onScheduler c f) (onScheduler c f') :=
  .onScheduler fun _ _ h => ⟨(hf.same hf' h).1.symm, (hf.same hf' h).2⟩

theorem mirrors_asked {f f' g : Scheduler → Except Error α × Scheduler} (hf : Scheduler.Bares f g)
    (hf' : Scheduler.Bares f' g) : Mirrors Eq (askScheduler c f) (askScheduler c f') :=
  .askScheduler fun _ _ h => ⟨.of_eq (hf.same hf' h).1.symm, (hf.same hf' h).2⟩

theorem mirrors_requested {f f' g : Scheduler → Except Error α × Scheduler}
    {operation operation' : Scheduler.Operation} {answer : α → Scheduler.Answer}
    (hf : Scheduler.Bares f g) (hf' : Scheduler.Bares f' g) :
    Mirrors Eq (request c operation f answer) (request c operation' f' answer) :=
  .request fun _ _ h => ⟨.of_eq (hf.same hf' h).1.symm, (hf.same hf' h).2⟩

theorem mirrors_note (event event' : Event) : Mirrors Eq (note event) (note event') :=
  (Aloof.note event).mirrors (.note event')

theorem mirrors_tally (counter : Counter) (amount amount' : Nat) :
    Mirrors Eq (tally counter amount) (tally counter amount') :=
  (Aloof.tally counter amount).mirrors (.tally counter amount')

theorem mirrors_coreFault (e : Error) :
    Mirrors rel (coreFault c e : Action α) (coreFault c e : Action β) := by
  refine (mirrors_note _ _).bind fun _ _ _ => (Mirrors.updateCore fun core core' h => ?_).bind
    fun _ _ _ => .get fun k k' hk => ?_
  · obtain ⟨hid, hapic, hflags, hrest⟩ := Core.bare_eq_iff.1 h
    exact Core.bare_eq_iff.2 ⟨hid, hapic, congrArg (·.union { faulted := true }) hflags, hrest⟩
  · rw [hk.machine.currentCore]
    exact fun _ _ h => ⟨.error _, h⟩

theorem mirrors_enqueue {task task' : Task} (h : task'.bare = task.bare) :
    Mirrors Eq (enqueue c task) (enqueue c task') :=
  mirrors_requested (Scheduler.bares_schedule task) (h ▸ Scheduler.bares_schedule task')

/-- Taking over tasks that differ in their memory only. -/
theorem mirrors_takeOver {tasks tasks' : List Task}
    (h : tasks'.map Task.bare = tasks.map Task.bare) :
    Mirrors Eq (takeOver c tasks) (takeOver c tasks') := by
  induction tasks generalizing tasks' with
  | nil =>
    rw [List.map_eq_nil_iff.1 h]
    exact .pure rfl
  | cons task rest ih =>
    obtain ⟨task', rest', rfl, htask, hrest⟩ := List.map_eq_cons_iff.1 h
    refine (mirrors_enqueue htask).attempt.bind fun r r' hr => ?_
    cases hr with
    | ok _ => exact ih hrest
    | error e => exact mirrors_coreFault e

theorem mirrors_deliverAll (stalled : List TaskId) (mail : List Mail) :
    Mirrors Eq (deliverAll c stalled mail) (deliverAll c stalled mail) := by
  induction mail generalizing stalled with
  | nil => exact .pure rfl
  | cons mail rest ih =>
    obtain ⟨recipient, message⟩ := mail
    rw [deliverAll]
    split
    · exact (ih stalled).bind fun _ _ h => .pure (h ▸ rfl)
    · have hbares := Scheduler.bares_deliver recipient message
      refine (mirrors_asked hbares hbares).attempt.bind fun r r' hr => ?_
      rw [← hr.eq]
      rcases r with e | _ | _
      · have hdropped : Mirrors Eq
            (do note (.mailDropped message.sender recipient e); deliverAll c stalled rest)
            (do note (.mailDropped message.sender recipient e); deliverAll c stalled rest) :=
          (mirrors_note _ _).bind fun _ _ _ => ih stalled
        cases e <;> first | exact hdropped | exact (ih _).bind fun _ _ h => .pure (h ▸ rfl)
      · exact ih stalled
      · exact (mirrors_tally _ _ _).bind fun _ _ _ => ih stalled

theorem mirrors_drainInbox : Mirrors Eq (drainInbox c) (drainInbox c) := by
  refine (Mirrors.coreAt c).bind fun core core' hcore => ?_
  obtain ⟨-, -, -, -, -, -, htasks, hmail, -⟩ := Core.bare_eq_iff.1 hcore
  refine (Mirrors.updateCore fun core core' h => ?_).bind fun _ _ _ =>
    (mirrors_takeOver htasks).bind fun _ _ _ => ?_
  · obtain ⟨hid, hapic, hflags, hload, hcurrent, hscheduler, -, -, hcapacity⟩ :=
      Core.bare_eq_iff.1 h
    exact Core.bare_eq_iff.2
      ⟨hid, hapic, hflags, hload, hcurrent, hscheduler, rfl, rfl, hcapacity⟩
  · rw [hmail]
    refine (mirrors_deliverAll _ _).bind fun retained _ hretained =>
      .updateCore fun core core' h => ?_
    obtain ⟨hid, hapic, hflags, hload, hcurrent, hscheduler, htasks, hmail, hcapacity⟩ :=
      Core.bare_eq_iff.1 h
    refine Core.bare_eq_iff.2
      ⟨hid, hapic, hflags, hload, hcurrent, hscheduler, htasks, ?_, hcapacity⟩
    rw [Inbox.restoreMail, Inbox.restoreMail, hmail, hretained]

/-- The same switch is resolved into stack pointers that have nothing in common, if it is. -/
theorem mirrors_prepareSwitch (switch : Option Switch) :
    Mirrors (fun _ _ => True) (prepareSwitch c switch) (prepareSwitch c switch) := by
  cases switch with
  | none => exact .pure trivial
  | some switch =>
    refine (Mirrors.coreAt c).bind fun core core' hcore => ?_
    have hscheduler : core'.scheduler.bare = core.scheduler.bare := congrArg Core.scheduler hcore
    have hprepare := core'.scheduler.prepare_bare switch
    rw [hscheduler, core.scheduler.prepare_bare switch] at hprepare
    cases hleft : core.scheduler.prepare switch <;>
      cases hright : core'.scheduler.prepare switch <;> rw [hleft, hright] at hprepare
    · cases hprepare
      exact mirrors_coreFault _
    · cases hprepare
    · cases hprepare
    · exact .pure trivial

theorem aloof_performSwitch (prepared : Option PreparedSwitch) :
    Aloof (performSwitch prepared) := by
  cases prepared with
  | none => exact .pure
  | some prepared =>
    obtain ⟨saved, resumed, stackTop, activated, preempted⟩ := prepared
    cases activated <;> cases preempted <;> exact fun _ => ⟨_, rfl, rfl, ⟨rfl, rfl⟩⟩

theorem mirrors_publish : Mirrors Eq (publish c) (publish c) := by
  refine .updateCore fun core core' h => ?_
  obtain ⟨hid, hapic, hflags, -, -, hscheduler, hinbox⟩ := Core.bare_eq_iff.1 h
  exact Core.bare_eq_iff.2 ⟨hid, hapic, hflags, (congrArg Scheduler.score hscheduler :),
    (congrArg Scheduler.current hscheduler :), hscheduler, hinbox⟩

theorem aloof_unmask (enabled : Bool) : Aloof (unmask enabled) :=
  .onMachine fun _ => ⟨rfl, rfl⟩

/-- Work under the lock, which comes to the same switch. -/
theorem mirrors_locked {operation : CoreId → Action (α × Option Switch)}
    {operation' : CoreId → Action (β × Option Switch)}
    (h : ∀ c, Mirrors (fun a b => rel a.1 b.1 ∧ a.2 = b.2) (operation c) (operation' c)) :
    Mirrors rel (locked operation) (locked operation') := by
  refine Mirrors.localCore.bind fun core core' hcore => ?_
  have hid : core'.id = core.id := (congrArg Core.id hcore :)
  rw [hid]
  have hmask : Mirrors (fun _ _ => True) (onMachine Machine.maskInterrupts)
      (onMachine Machine.maskInterrupts) :=
    .onMachine fun _ _ hm => ⟨trivial, hm.currentCore, hm.faults⟩
  refine hmask.bind fun enabled enabled' _ => mirrors_drainInbox.bind fun _ _ _ =>
    (h core.id).attempt.bind fun r r' hr => ?_
  cases hr with
  | error e =>
    dsimp only
    split
    · exact mirrors_coreFault e
    · exact mirrors_publish.bind fun _ _ _ =>
        ((aloof_unmask enabled).mirrors (aloof_unmask enabled')).bind fun _ _ _ => .fail e
  | @ok a b hab =>
    obtain ⟨value, switch⟩ := a
    obtain ⟨value', switch'⟩ := b
    obtain ⟨hvalue, hswitch⟩ := hab
    obtain rfl : switch = switch' := hswitch
    exact (mirrors_prepareSwitch switch).bind fun prepared prepared' _ =>
      mirrors_publish.bind fun _ _ _ =>
        ((aloof_performSwitch prepared).mirrors (aloof_performSwitch prepared')).bind fun _ _ _ =>
          ((aloof_unmask enabled).mirrors (aloof_unmask enabled')).bind fun _ _ _ => .pure hvalue

/-- Work under the lock that answers the same. -/
theorem mirrors_call {operation operation' : CoreId → Action (α × Option Switch)}
    (h : ∀ c, Mirrors Eq (operation c) (operation' c)) :
    Mirrors Eq (locked operation) (locked operation') :=
  mirrors_locked fun c => (h c).mono fun _ _ hab => hab ▸ ⟨rfl, rfl⟩

theorem mirrors_rescheduled (a : α) :
    Mirrors Eq (do return (a, ← onScheduler c Scheduler.reschedule))
      (do return (a, ← onScheduler c Scheduler.reschedule)) :=
  (mirrors_scheduler Scheduler.bares_reschedule Scheduler.bares_reschedule).bind
    fun _ _ h => .pure (h ▸ rfl)

/-! ### Interrupts and timers -/

theorem mirrors_interrupt (kind : InterruptKind) :
    Mirrors Eq (interrupt c kind) (interrupt c kind) := by
  refine (Mirrors.coreAt c).bind fun core core' _ => ?_
  have hsent : ∀ apic, Aloof (onMachine fun m => ((), m.sendInterrupt apic kind)) :=
    fun _ => .onMachine fun _ => ⟨rfl, rfl⟩
  exact ((hsent core.apic).mirrors (hsent core'.apic)).bind fun _ _ _ => mirrors_tally _ _ _

theorem alike_broadcast (m : Machine) (cores : List Core) (kind : InterruptKind)
    (exclude : CoreId) : m.Alike (broadcast m cores kind exclude).2 := by
  simp only [broadcast]
  generalize broadcastTargets cores exclude = targets
  induction targets generalizing m with
  | nil => exact .refl m
  | cons target targets ih =>
    have hsent : m.Alike (m.sendInterrupt target.apic kind) := ⟨rfl, rfl⟩
    exact hsent.trans (ih _)

theorem mirrors_interruptOthers (kind : InterruptKind) :
    Mirrors Eq (interruptOthers kind) (interruptOthers kind) := by
  refine .get fun k k' _ => ?_
  have hsent : Mirrors (fun _ _ => True)
      (onMachine fun m => broadcast m k.cores kind m.currentCore)
      (onMachine fun m => broadcast m k'.cores kind m.currentCore) :=
    .onMachine fun _ _ hm =>
      ⟨trivial, hm.after (alike_broadcast _ _ _ _) (alike_broadcast _ _ _ _)⟩
  exact hsent.bind fun _ _ _ => mirrors_tally _ _ _

theorem mirrors_setFlags (flags : CoreFlags) :
    Mirrors Eq (updateCore c (·.setFlags flags)) (updateCore c (·.setFlags flags)) := by
  refine .updateCore fun core core' h => ?_
  obtain ⟨hid, hapic, hflags, hrest⟩ := Core.bare_eq_iff.1 h
  exact Core.bare_eq_iff.2 ⟨hid, hapic, congrArg (·.union flags) hflags, hrest⟩

theorem mirrors_startLocal : Mirrors Eq startLocal startLocal := by
  refine mirrors_call fun c => (Mirrors.coreAt c).bind fun core core' hcore => ?_
  have hstarted : core'.scheduler.started = core.scheduler.started :=
    (congrArg (fun core : Core => core.scheduler.started) hcore :)
  rw [hstarted]
  split
  · exact .pure rfl
  · exact (mirrors_setFlags _).bind fun _ _ _ => (mirrors_note _ _).bind fun _ _ _ =>
      (mirrors_scheduler Scheduler.bares_start Scheduler.bares_start).bind
        fun _ _ h => .pure (h ▸ rfl)

theorem mirrors_start : Mirrors Eq start start :=
  (mirrors_interruptOthers _).bind fun _ _ _ => mirrors_startLocal

theorem mirrors_tick : Mirrors Eq tick tick := by
  refine mirrors_call fun c => (Mirrors.coreAt c).bind fun core core' hcore => ?_
  have hstarted : core'.scheduler.started = core.scheduler.started :=
    (congrArg (fun core : Core => core.scheduler.started) hcore :)
  dsimp only
  rw [hstarted]
  split
  · exact (mirrors_tally _ _ _).bind fun _ _ _ =>
      (mirrors_scheduler Scheduler.bares_tick Scheduler.bares_tick).bind fun _ _ h =>
        (Mirrors.coreAt c).bind fun _ _ _ => (mirrors_tally _ _ _).bind fun _ _ _ => .pure (h ▸ rfl)
  · exact .pure rfl

theorem aloof_flushTlb : Aloof flushTlb :=
  .onMachine fun _ => ⟨rfl, rfl⟩

theorem mirrors_armTimer : Mirrors Eq armTimer armTimer := by
  refine Mirrors.localCore.bind fun core core' hcore => .get fun k k' _ => ?_
  have hid : core'.id = core.id := (congrArg Core.id hcore :)
  have harmed : ∀ timeslice, Aloof (onMachine fun m => ((), m.setTimer .periodic timeslice)) :=
    fun _ => .onMachine fun _ => ⟨rfl, rfl⟩
  rw [hid]
  exact ((harmed k.config.timeslice).mirrors (harmed k'.config.timeslice)).bind
    fun _ _ _ => mirrors_setFlags _

theorem mirrors_handleInterrupt (kind : InterruptKind) :
    Mirrors Eq (handleInterrupt kind) (handleInterrupt kind) := by
  cases kind with
  | reschedule =>
    rw [handleInterrupt]
    exact mirrors_call fun _ => mirrors_rescheduled ()
  | startScheduler =>
    rw [handleInterrupt]
    exact mirrors_startLocal
  | invalidateTlb => exact aloof_flushTlb.mirrors aloof_flushTlb
  | setupTimeslice => exact mirrors_armTimer

/-! ### Placing tasks -/

theorem Alike.candidates {k k' : Kernel} (h : k.Alike k') : k'.candidates = k.candidates := by
  have hbare : ∀ k : Kernel, k.candidates =
      ((k.cores.map Core.bare).filter Core.isOnline).map fun c => (c.id, c.load) := by
    intro k
    rw [Kernel.candidates, List.filter_map, List.map_map]
    rfl
  rw [hbare, hbare, h.cores]

section Placing

variable {task task' : Task}

theorem mirrors_handOver (h : task'.bare = task.bare) :
    Mirrors Eq (handOver c task) (handOver c task') := by
  refine (Mirrors.coreAt c).bind fun _ _ _ => (Mirrors.updateCore fun core core' hcore => ?_).bind
    fun _ _ _ => mirrors_interrupt _
  have hpriority : task'.priority = task.priority := (congrArg Task.priority h :)
  obtain ⟨hid, hapic, hflags, hload, hcurrent, hscheduler, htasks, hmail, hcapacity⟩ :=
    Core.bare_eq_iff.1 hcore
  refine Core.bare_eq_iff.2
    ⟨hid, hapic, hflags, ?_, hcurrent, hscheduler, ?_, hmail, hcapacity⟩
  · exact congrArg₂ (· + ·) hload (congrArg Priority.weight hpriority)
  · show (core'.inbox.tasks ++ [task']).map Task.bare = (core.inbox.tasks ++ [task]).map Task.bare
    rw [List.map_append, List.map_append, htasks, List.map_singleton, List.map_singleton, h]

theorem mirrors_takeIn (h : task'.bare = task.bare) :
    Mirrors Eq
      (locked fun id => do
        enqueue id task
        return ((), ← onScheduler id Scheduler.reschedule))
      (locked fun id => do
        enqueue id task'
        return ((), ← onScheduler id Scheduler.reschedule)) :=
  mirrors_call fun _ => (mirrors_enqueue h).bind fun _ _ _ => mirrors_rescheduled ()

theorem mirrors_place (h : task'.bare = task.bare) : Mirrors Eq (place task) (place task') := by
  have hid : task'.id = task.id := (congrArg Task.id h :)
  have hlast : task'.lastCore = task.lastCore := (congrArg Task.lastCore h :)
  refine .get fun k k' hk => ?_
  rw [hk.candidates, hlast]
  split
  · refine (Mirrors.onDirectory fun d d' hd => ⟨(rfl : () = ()), hd.park h⟩).bind fun _ _ _ =>
      (mirrors_note _ _).bind fun _ _ _ => .pure rfl
  · rename_i home _
    refine (Mirrors.onDirectory fun d d' hd => ⟨(rfl : () = ()), ?_⟩).bind fun _ _ _ => ?_
    · rw [hid]
      exact hd.recordHome _ _
    · rw [hk.machine.currentCore]
      split
      · exact (mirrors_takeIn h).bind fun _ _ _ => (mirrors_note _ _).bind fun _ _ _ => .pure rfl
      · exact (mirrors_handOver h).bind fun _ _ _ => (mirrors_note _ _).bind fun _ _ _ => .pure rfl

theorem mirrors_launch (h : task'.bare = task.bare) : Mirrors Eq (launch task) (launch task') := by
  have hid : task'.id = task.id := (congrArg Task.id h :)
  exact (mirrors_place h).bind fun _ _ _ => (mirrors_tally _ _ _).bind fun _ _ _ =>
    .pure hid.symm

end Placing

theorem mirrors_placeAll {tasks tasks' : List Task}
    (h : tasks'.map Task.bare = tasks.map Task.bare) :
    Mirrors Eq (tasks.forM fun task => do let _ ← place task)
      (tasks'.forM fun task => do let _ ← place task) := by
  induction tasks generalizing tasks' with
  | nil =>
    rw [List.map_eq_nil_iff.1 h]
    exact .pure rfl
  | cons task rest ih =>
    obtain ⟨task', rest', rfl, htask, hrest⟩ := List.map_eq_cons_iff.1 h
    exact ((mirrors_place htask).bind fun _ _ _ => .pure (rfl : () = ())).bind fun _ _ _ => ih hrest

theorem mirrors_releaseParked : Mirrors Eq releaseParked releaseParked := by
  have htaken : Mirrors (fun tasks tasks' => tasks'.map Task.bare = tasks.map Task.bare)
      (onDirectory Directory.takeParked) (onDirectory Directory.takeParked) :=
    .onDirectory fun _ _ hd => ⟨hd.parked, hd.ids, hd.limit, hd.homes, hd.registry, rfl⟩
  exact htaken.bind fun _ _ h => mirrors_placeAll h

/-- What is left of bringing up a core, with servants that differ in their memory only. -/
theorem mirrors_goOnline {core core' : Core} {idle idle' cleanup cleanup' : Task}
    (hcore : core'.bare = core.bare) (hidle : idle'.bare = idle.bare)
    (hcleanup : cleanup'.bare = cleanup.bare) :
    Mirrors Eq (goOnline core idle cleanup) (goOnline core' idle' cleanup') := by
  have hid : core'.id = core.id := (congrArg Core.id hcore :)
  have hidle' : idle'.id = idle.id := (congrArg Task.id hidle :)
  have hcleanup' : cleanup'.id = cleanup.id := (congrArg Task.id hcleanup :)
  have hinstalled : Mirrors Eq
      (locked fun id => do
        askScheduler id (·.installIdle idle)
        request id (.installCleanup cleanup) (·.installCleanup cleanup) fun _ => .done
        return ((), none))
      (locked fun id => do
        askScheduler id (·.installIdle idle')
        request id (.installCleanup cleanup') (·.installCleanup cleanup') fun _ => .done
        return ((), none)) :=
    mirrors_call fun _ =>
      (mirrors_asked (Scheduler.bares_installIdle idle)
        (hidle ▸ Scheduler.bares_installIdle idle')).bind fun _ _ _ =>
          (mirrors_requested (Scheduler.bares_installCleanup cleanup)
            (hcleanup ▸ Scheduler.bares_installCleanup cleanup')).bind fun _ _ _ => .pure rfl
  rw [goOnline, goOnline, hid, hidle', hcleanup']
  exact hinstalled.bind fun _ _ _ =>
    (Mirrors.onDirectory fun _ _ hd => ⟨(rfl : () = ()), (hd.recordHome _ _).recordHome _ _⟩).bind
      fun _ _ _ => (mirrors_setFlags _).bind fun _ _ _ => (mirrors_note _ _).bind fun _ _ _ =>
        mirrors_releaseParked

/-! ### Sleeping and waking -/

theorem mirrors_sleep (milliseconds : Nat) : Mirrors Eq (sleep milliseconds) (sleep milliseconds) :=
  mirrors_call fun _ => (mirrors_requested (Scheduler.bares_block _) (Scheduler.bares_block _)).bind
    fun _ _ h => (mirrors_tally _ _ _).bind fun _ _ _ => .pure (h ▸ rfl)

theorem mirrors_checkLocal (task : TaskId) : Mirrors Eq (checkLocal task) (checkLocal task) := by
  refine .get fun k k' hk => ?_
  rw [Directory.homeOf, Directory.homeOf, hk.directory.homes, hk.machine.currentCore]
  split
  · exact .fail _
  · split
    · exact .pure rfl
    · exact .fail _

theorem mirrors_wake (task : TaskId) : Mirrors Eq (wake task) (wake task) := by
  refine (mirrors_checkLocal task).bind fun _ _ _ => mirrors_call fun c =>
    (mirrors_scheduler (Scheduler.bares_wake task) (Scheduler.bares_wake task)).bind
      fun woken _ h => ?_
  subst h
  cases woken with
  | true => exact (mirrors_tally _ _ _).bind fun _ _ _ => mirrors_rescheduled true
  | false => exact .pure rfl

theorem mirrors_changePriority (task : TaskId) (priority : Priority) :
    Mirrors Eq (changePriority task priority) (changePriority task priority) :=
  (mirrors_checkLocal task).bind fun _ _ _ => mirrors_call fun _ =>
    (mirrors_asked (Scheduler.bares_changePriority task priority)
      (Scheduler.bares_changePriority task priority)).bind fun _ _ _ => .pure rfl

/-! ### The end of tasks -/

theorem mirrors_exit : Mirrors Eq exit exit := by
  refine mirrors_call fun c =>
    (mirrors_requested Scheduler.bares_exit Scheduler.bares_exit).bind fun ended _ h => ?_
  subst h
  refine (Mirrors.onDirectory fun _ _ hd => ⟨(hd.forget ended.task).1.symm,
    (hd.forget ended.task).2⟩).bind fun forgotten _ h => ?_
  subst h
  cases forgotten with
  | true => exact .pure rfl
  | false => exact (mirrors_note _ _).bind fun _ _ _ => .pure rfl

theorem mirrors_checkCleanup : Mirrors Eq (checkCleanup c) (checkCleanup c) := by
  refine (Mirrors.coreAt c).bind fun core core' hcore => ?_
  have hcleanup : core'.scheduler.cleanup = core.scheduler.cleanup :=
    (congrArg (fun core : Core => core.scheduler.cleanup) hcore :)
  have hcurrent : core'.scheduler.current = core.scheduler.current :=
    (congrArg (fun core : Core => core.scheduler.current) hcore :)
  dsimp only
  rw [hcleanup, hcurrent]
  split
  · exact .fail _
  · split
    · exact .pure rfl
    · exact .fail _

theorem mirrors_runCleanup : Mirrors Eq runCleanup runCleanup := by
  have hreap : ∀ c, Mirrors (fun tasks tasks' => tasks'.map Task.bare = tasks.map Task.bare)
      (onScheduler c Scheduler.reap) (onScheduler c Scheduler.reap) := by
    refine fun c => .onScheduler fun s s' h => ?_
    have hreaped := s'.reap_bare
    rw [h, s.reap_bare] at hreaped
    exact Prod.mk.inj hreaped.symm
  have hreaped : Mirrors (fun tasks tasks' => tasks'.map Task.bare = tasks.map Task.bare)
      (locked fun id => do
        checkCleanup id
        return (← onScheduler id Scheduler.reap, none))
      (locked fun id => do
        checkCleanup id
        return (← onScheduler id Scheduler.reap, none)) :=
    mirrors_locked fun c => mirrors_checkCleanup.bind fun _ _ _ => (hreap c).bind
      fun _ _ h => .pure ⟨h, rfl⟩
  refine hreaped.bind fun tasks tasks' h => ?_
  have hlength : tasks'.length = tasks.length := by
    rw [← List.length_map Task.bare, h, List.length_map]
  have hnoted : ∀ tasks : List Task,
      Aloof (tasks.forM fun task => note (.reaping task.id task.name)) :=
    fun tasks => .forM (fun _ => .note _) tasks
  have hreleased : ∀ tasks : List Task,
      Aloof (onMachine fun m => ((), tasks.foldl (fun m task => task.release m) m)) :=
    fun tasks => .onMachine fun m => Task.alike_releaseAll tasks m
  rw [hlength]
  exact ((hnoted tasks).mirrors (hnoted tasks')).bind fun _ _ _ =>
    ((hreleased tasks).mirrors (hreleased tasks')).bind fun _ _ _ =>
      (mirrors_tally _ _ _).bind fun _ _ _ => .pure rfl

theorem mirrors_parkCleanup : Mirrors Eq parkCleanup parkCleanup := by
  refine mirrors_call fun c => mirrors_checkCleanup.bind fun _ _ _ =>
    (Mirrors.coreAt c).bind fun core core' hcore => ?_
  have hexited : core'.scheduler.exited.map Task.bare = core.scheduler.exited.map Task.bare :=
    (congrArg (fun core : Core => core.scheduler.exited) hcore :)
  have hempty : core'.scheduler.exited.isEmpty = core.scheduler.exited.isEmpty := by
    rw [← List.isEmpty_map, hexited, List.isEmpty_map]
  rw [hempty]
  split
  · exact (mirrors_asked (Scheduler.bares_block _) (Scheduler.bares_block _)).bind
      fun _ _ h => .pure (h ▸ rfl)
  · exact .pure rfl

/-! ### Messages -/

theorem mirrors_deliverLocally (recipient : TaskId) (message : Message) :
    Mirrors Eq (deliverLocally recipient message) (deliverLocally recipient message) := by
  have hbares := Scheduler.bares_deliver recipient message
  refine mirrors_call fun c => (mirrors_asked hbares hbares).bind fun woken _ h => ?_
  subst h
  cases woken with
  | true => exact (mirrors_tally _ _ _).bind fun _ _ _ => mirrors_rescheduled ()
  | false => exact .pure rfl

theorem mirrors_post (recipient : TaskId) (message : Message) :
    Mirrors Eq (post c recipient message) (post c recipient message) := by
  refine (Mirrors.ofExcept (.of_eq rfl)).bind fun _ _ _ => (Mirrors.coreAt c).bind
    fun core core' hcore => ?_
  obtain ⟨-, -, -, -, -, -, htasks, hmail, hcapacity⟩ := Core.bare_eq_iff.1 hcore
  have hpushed : Agree (fun inbox inbox' : Inbox =>
      inbox'.tasks.map Task.bare = inbox.tasks.map Task.bare ∧ inbox'.mail = inbox.mail ∧
        inbox'.capacity = inbox.capacity)
      (core.inbox.pushMail (recipient, message)) (core'.inbox.pushMail (recipient, message)) := by
    rw [Inbox.pushMail, Inbox.pushMail, hmail, hcapacity]
    split
    · exact .error _
    · exact .ok ⟨htasks, rfl, rfl⟩
  refine (Mirrors.ofExcept hpushed).bind fun inbox inbox' hinbox =>
    (Mirrors.updateCore fun core core' h => ?_).bind fun _ _ _ => mirrors_interrupt _
  obtain ⟨hid, hapic, hflags, hload, hcurrent, hscheduler, -⟩ := Core.bare_eq_iff.1 h
  exact Core.bare_eq_iff.2 ⟨hid, hapic, hflags, hload, hcurrent, hscheduler, hinbox⟩

theorem mirrors_route (message : Message) : Mirrors Eq (route message) (route message) := by
  refine .get fun k k' hk => ?_
  rw [hk.directory.resolve]
  refine (Mirrors.ofExcept (.of_eq rfl)).bind fun target _ h => ?_
  subst h
  obtain ⟨recipient, home⟩ := target
  have hbrought : Mirrors Eq
      (if home = k.machine.currentCore then deliverLocally recipient message
        else post home recipient message)
      (if home = k'.machine.currentCore then deliverLocally recipient message
        else post home recipient message) := by
    rw [hk.machine.currentCore]
    split
    · exact mirrors_deliverLocally recipient message
    · exact mirrors_post recipient message
  refine hbrought.attempt.bind fun outcome outcome' h => ?_
  cases h with
  | ok _ => exact mirrors_tally _ _ _
  | error e =>
    cases e <;> first | exact .fail _ | exact (mirrors_tally _ _ _).bind fun _ _ _ => .fail _

theorem mirrors_registerProvider (service : Service) (task : TaskId) :
    Mirrors Eq (registerProvider service task) (registerProvider service task) := by
  refine (Mirrors.onDirectory fun _ _ hd => ⟨(hd.register service task).1.symm,
    (hd.register service task).2⟩).bind fun before _ h => ?_
  subst h
  cases before with
  | none => exact .pure rfl
  | some previous => exact mirrors_note _ _

theorem mirrors_unregisterProvider (service : Service) (task : TaskId) :
    Mirrors Eq (unregisterProvider service task) (unregisterProvider service task) :=
  (Mirrors.onDirectory fun _ _ hd => ⟨(hd.unregister service task).1.symm,
    (hd.unregister service task).2⟩).bind fun _ _ _ => .pure rfl

theorem mirrors_answerRegistry (message : Message) :
    Mirrors Eq (answerRegistry message) (answerRegistry message) := by
  rw [answerRegistry]
  split
  · exact mirrors_registerProvider _ _
  · exact mirrors_unregisterProvider _ _
  · refine .get fun k k' hk => ?_
    rw [hk.directory.registry]
    exact mirrors_route _
  all_goals exact .fail _

theorem Alike.currentTask {k k' : Kernel} (h : k.Alike k') : k'.currentTask = k.currentTask := by
  have hcore := h.core? k.machine.currentCore
  rw [Kernel.currentTask, Kernel.currentTask, localCore?, localCore?, h.machine.currentCore]
  cases hleft : k.core? k.machine.currentCore <;> cases hright : k'.core? k.machine.currentCore <;>
    rw [hleft, hright] at hcore
  · cases hcore
  · cases hcore
  · exact (congrArg Core.current (Option.some.inj hcore) :)

theorem mirrors_send (recipient : Recipient) (body : Body) :
    Mirrors Eq (send recipient body) (send recipient body) := by
  refine .get fun k k' hk => ?_
  dsimp only
  rw [hk.currentTask, hk.directory.registry]
  split
  · exact mirrors_answerRegistry _
  · exact mirrors_route _

theorem mirrors_tryReceive (filter : Option Filter) :
    Mirrors Eq (tryReceive filter) (tryReceive filter) := by
  rw [tryReceive]
  refine Mirrors.bind (mirrors_call fun c => (mirrors_asked (Scheduler.bares_receive filter)
    (Scheduler.bares_receive filter)).bind fun got _ h => ?_) fun received _ h => ?_
  · subst h
    cases got <;> exact .pure rfl
  · subst h
    cases received with
    | none => exact .pure rfl
    | some message => exact (mirrors_tally _ _ _).bind fun _ _ _ => .pure rfl

theorem mirrors_receiveWithin (tries : Nat) (filter : Option Filter) :
    Mirrors Eq (receiveWithin tries filter) (receiveWithin tries filter) := by
  induction tries with
  | zero => exact .fail _
  | succ tries ih =>
    refine (mirrors_tryReceive filter).bind fun received _ h => ?_
    subst h
    cases received with
    | none => exact ih
    | some message => exact .pure rfl

theorem mirrors_receive (filter : Option Filter) :
    Mirrors Eq (receive filter) (receive filter) := by
  refine Mirrors.localCore.bind fun core core' hcore => ?_
  have htries : ∀ core : Core, core.scheduler.tasks.entries.length + core.inbox.tasks.length =
      core.bare.scheduler.tasks.entries.length + core.bare.inbox.tasks.length :=
    fun _ => congrArg₂ (· + ·) (List.length_map _).symm (List.length_map _).symm
  rw [htries core, htries core', hcore]
  exact mirrors_receiveWithin _ filter

end Kernel

end Microkernel
