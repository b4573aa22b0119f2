/-
Every operation of the kernel is a chain of calls under the lock.

* **`trails_build`**: a task that was built has a stack and an address space that nobody had;
* **`trails_place`**, **`orderly_bringUp`**: a task in hand comes to a core with an idle task;
* **`orderly_actionOf`**: every operation is a chain of calls, and leaves an orderly kernel.
-/
import Microkernel.Proofs.Kernel.Interrupts
import Microkernel.Proofs.Kernel.Trails

namespace Microkernel.Kernel

variable {α β : Type} {k k' : Kernel} {hand : List Task} {c : CoreId} {core : Core}

/-! ### Calls without new tasks -/

theorem turns_reschedule (a : α) :
    Turns c (do return (a, ← onScheduler c Scheduler.reschedule)) :=
  .turn (asks_onScheduler _) id (fun _ hco hs => hco.turn_reschedule (hco.attended hs))
    fun _ => .pure a

theorem orderly_startLocal : Orderly startLocal := by
  refine orderly_locked fun c => .still (.coreAt c) fun core => ?_
  split
  · exact .pure ()
  · refine .updateCore (fun _ => ⟨rfl, Bool.or_false _, rfl⟩) (fun _ => rfl) ?_
    refine .still (.note _) fun _ => ?_
    exact .turn (asks_onScheduler _) id (fun _ hco hs => hco.turn_start (hco.attended hs))
      fun _ => .pure ()

theorem orderly_tick : Orderly tick := by
  refine orderly_locked fun c => .still (.coreAt c) fun core => ?_
  dsimp only
  split
  · refine .still (.tally _ _) fun _ => ?_
    exact .turn (asks_onScheduler _) id (fun _ hco hs => hco.turn_tick (hco.attended hs))
      fun _ => .coreAt fun _ => .quiet (quiet_tally _ _) (.tally _ _) fun _ => .pure ()
  · exact .pure ()

theorem orderly_sleep (milliseconds : Nat) : Orderly (sleep milliseconds) :=
  orderly_locked fun _ => .turn (asks_request _ _ _) id
    (fun _ hco hs => hco.turn_block (hco.attended hs) _)
    fun _ => .quiet (quiet_tally _ _) (.tally _ _) fun _ => .pure ()

theorem light_checkLocal (task : TaskId) : Light (checkLocal task) := by
  refine .get fun k => ?_
  split
  · exact .fail _
  · split
    · exact .pure ()
    · exact .fail _

theorem orderly_wake (task : TaskId) : Orderly (wake task) := by
  refine (light_checkLocal task).orderly.bind fun _ => orderly_locked fun c =>
    .calm (asks_onScheduler _) (fun _ hco => hco.calm_wake task) fun woken => ?_
  split
  · exact .still (.tally _ _) fun _ => turns_reschedule true
  · exact .pure false

theorem orderly_changePriority (task : TaskId) (priority : Priority) :
    Orderly (changePriority task priority) :=
  (light_checkLocal task).orderly.bind fun _ => orderly_locked fun _ =>
    .calm (asks_askScheduler _) (fun _ hco => hco.calm_changePriority task priority)
      fun _ => .pure ()

theorem orderly_exit : Orderly exit := by
  refine orderly_locked fun c => .turn (asks_request _ _ _) Exit.switch
    (fun _ hco hs => hco.turn_exit (hco.attended hs)) fun exit => ?_
  refine .onDirectory (fun _ => rfl) fun known => ?_
  split
  · exact .quiet (quiet_note _) (.note _) fun _ => .pure _
  · exact .pure _

theorem orderly_runCleanup : Orderly runCleanup := by
  have hreaped : Orderly (locked fun id => do
      checkCleanup id
      return (← onScheduler id Scheduler.reap, none)) :=
    orderly_locked fun c => .still (.checkCleanup c) fun _ =>
      .turn (asks_onScheduler _) (fun _ => none) (fun _ hco _ => hco.turn_reap) fun tasks =>
        .pure tasks
  refine hreaped.bind fun tasks => ?_
  have hreleased : Light (onMachine fun m => ((), tasks.foldl (fun m t => t.release m) m)) :=
    .onMachine fun m => Task.grows_releaseAll tasks m
  exact ((Light.forM (fun _ => .note _) _).bind fun _ => hreleased.bind fun _ =>
    (Light.tally _ _).bind fun _ => .pure _).orderly

theorem orderly_parkCleanup : Orderly parkCleanup := by
  refine orderly_locked fun c => .still (.checkCleanup c) fun _ => .still (.coreAt c) fun core => ?_
  split
  · exact .turn (asks_askScheduler _) id (fun _ hco hs => hco.turn_block (hco.attended hs) _)
      fun _ => .pure ()
  · exact .pure ()

/-! ### Interrupts and timers -/

theorem light_interrupt (kind : InterruptKind) : Light (interrupt c kind) := by
  refine (Light.coreAt c).bind fun target => (Light.onMachine fun m => ?_).bind fun _ => .tally _ _
  exact ⟨rfl, rfl, rfl, Nat.le_refl _, Nat.le_refl _, List.prefix_append _ _⟩

theorem light_interruptOthers (kind : InterruptKind) : Light (interruptOthers kind) :=
  .get fun k => (Light.onMachine fun m => grows_broadcast m k.cores kind m.currentCore).bind
    fun _ => .tally _ _

theorem light_localCore : Light localCore :=
  .get fun _ => .coreAt _

theorem light_flushTlb : Light flushTlb :=
  .onMachine fun _ => ⟨rfl, rfl, rfl, Nat.le_refl _, Nat.le_refl _, List.prefix_refl _⟩

theorem light_armTimer : Light armTimer := by
  refine light_localCore.bind fun core => .get fun k => (Light.onMachine fun m => ?_).bind fun _ =>
    .updateCore _ fun core => ?_
  · exact ⟨rfl, rfl, rfl, Nat.le_refl _, Nat.le_refl _, List.prefix_refl _⟩
  · simp [Core.holding, Core.setFlags, Core.isOnline, CoreFlags.union]

theorem orderly_handleInterrupt (kind : InterruptKind) : Orderly (handleInterrupt kind) := by
  cases kind with
  | reschedule =>
    rw [handleInterrupt]
    exact orderly_locked fun _ => turns_reschedule ()
  | startScheduler =>
    rw [handleInterrupt]
    exact orderly_startLocal
  | invalidateTlb => exact light_flushTlb.orderly
  | setupTimeslice => exact light_armTimer.orderly

/-! ### New tasks -/

/-- A task that was built is nobody else's. -/
theorem Ordered.built {m : Machine} {task : Task} (h : k.Ordered hand)
    (hgrows : k.machine.Grows m)
    (hfresh : ∀ a ∈ task.assets, ¬ k.machine.Issued a ∧ m.Issued a) :
    ({ k with machine := m } : Kernel).Ordered (task :: hand) := by
  have hsame : ({ k with machine := m } : Kernel).assets = k.assets := rfl
  refine ⟨h.ordinals, h.coherent, h.staffed, fun a => ?_, fun a ha => ?_⟩
  · have hothers := h.unique a
    have htask := List.nodup_iff_count.1 task.nodup_assets a
    rw [List.flatMap_cons, List.count_append, hsame]
    by_cases ha : a ∈ task.assets
    · -- what the machine hands out now, nobody has
      have hnone : a ∉ hand.flatMap Task.assets ++ k.assets :=
        fun hin => (hfresh a ha).1 (h.issued a hin)
      have hzero := List.count_eq_zero.2 hnone
      rw [List.count_append] at hzero
      omega
    · have hzero := List.count_eq_zero.2 ha
      omega
  · rw [List.flatMap_cons, List.append_assoc] at ha
    rcases List.mem_append.1 ha with ha | ha
    · exact (hfresh a ha).2
    · exact hgrows.issued (h.issued a ha)

theorem trails_giveUp {Q : α → Kernel → Prop} (h : k.Ordered hand) {id : TaskId}
    (event : Error → Event) (e : Error) : k.Trails (giveUp id event e) Q :=
  (Light.onDirectory fun _ => rfl).trails_bind h fun _ _ _ h =>
    (Light.note _).trails_bind h fun _ _ _ h => .fail h.forget e

/-- However a task is built, it is nobody else's. -/
theorem trails_build {name : String} {priority : Priority}
    {make : Launcher → TaskId → Machine → Except Error Task × Machine}
    (hmake : ∀ l id m, Launcher.Outcome l ⟨id, name, priority⟩ m (make l id m))
    (event : Error → Event) (h : k.Ordered hand) :
    k.Trails (buildTask make event)
      fun task k' => k'.machine.currentCore = k.machine.currentCore ∧
        k'.Ordered (task :: hand) := by
  refine (Light.onDirectory fun _ => rfl).trails_bind h fun result k₁ haside₁ h₁ => ?_
  refine Trails.bind (Q := fun _ k' => k' = k₁) (.ofExcept h₁.forget fun _ _ => rfl)
    fun id k₂ hk₂ => Trails.get ?_
  subst hk₂
  have hout := hmake k₂.launcher id k₂.machine
  have haside : Aside k₂ { k₂ with machine := (make k₂.launcher id k₂.machine).2 } :=
    ⟨rfl, rfl, hout.grows⟩
  refine Trails.bind (Q := fun result k' => result = (make k₂.launcher id k₂.machine).1 ∧
    k' = { k₂ with machine := (make k₂.launcher id k₂.machine).2 })
    ⟨haside.apart.follows, rfl, rfl⟩ fun result k₃ hk₃ => ?_
  obtain ⟨hresult, rfl⟩ := hk₃
  cases result with
  | error e => exact trails_giveUp (haside.ordered h₁) event e
  | ok task =>
    exact .pure ⟨hout.grows.currentCore.trans haside₁.machine.currentCore,
      h₁.built hout.grows (hout.assets task hresult.symm)⟩

theorem trails_buildKernelTask (h : k.Ordered hand) (name : String) (entry : Nat)
    (priority : Priority) :
    k.Trails (buildKernelTask name entry priority) fun task k' =>
      k'.machine.currentCore = k.machine.currentCore ∧ k'.Ordered (task :: hand) := by
  rw [buildKernelTask_eq]
  exact trails_build (fun _ _ m => Launcher.outcome_kernelTask m entry) _ h

theorem trails_buildUserTask (h : k.Ordered hand) (name : String) (entry : Nat)
    (path : Option String) (priority : Priority) :
    k.Trails (buildUserTask name entry path priority) fun task k' =>
      k'.machine.currentCore = k.machine.currentCore ∧ k'.Ordered (task :: hand) := by
  rw [buildUserTask_eq]
  exact trails_build (fun _ _ m => Launcher.outcome_userTask m entry path) _ h

/-! ### Tasks in hand -/

/-- A task in hand comes to the inbox of a core with an idle task. -/
theorem trails_handOver {task : Task} (h : k.Ordered (task :: hand)) (hidle : k.Idles c) :
    k.Trails (handOver c task) fun _ k' => k'.Ordered hand := by
  refine Trails.coreAt h.forget fun core hcore => ?_
  have hone : k.Ordered ([task] ++ hand) := h
  have hsystem := System.system_modifyCore (k := k) hcore fun c =>
    { c.reserveLoad task.priority.weight with inbox := c.inbox.pushTask task }
  have hpushed : Ordered hand (k.modifyCore c fun c =>
      { c.reserveLoad task.priority.weight with inbox := c.inbox.pushTask task }) := by
    refine hone.replaced hcore (congrArg System.cores hsystem) rfl (fun _ ha => ha) rfl
      (h.coherent c core hcore) (.inl (hidle core hcore)) fun a => ?_
    simp only [Core.assets, Core.reserveLoad, Inbox.pushTask, List.flatMap_append,
      List.count_append]
    omega
  have hfollows : Follows k (k.modifyCore c fun c =>
      { c.reserveLoad task.priority.weight with inbox := c.inbox.pushTask task }) :=
    Apart.follows ⟨map_modifyCore fun _ _ => rfl, rfl, rfl⟩
  exact Trails.bind (Q := fun _ k' => k'.Ordered hand) ⟨hfollows, hpushed⟩ fun _ _ h =>
    (light_interrupt _).trails h

/-- Tasks go from the hand to the directory, or the other way. -/
theorem Ordered.withDirectory {hand' : List Task} {directory : Directory} (h : k.Ordered hand)
    (hperm : (hand' ++ directory.parked).Perm (hand ++ k.directory.parked)) :
    ({ k with directory := directory } : Kernel).Ordered hand' := by
  have hassets := hperm.flatMap_right Task.assets
  rw [List.flatMap_append, List.flatMap_append] at hassets
  have hcount : ∀ a, (hand'.flatMap Task.assets).count a +
      ({ k with directory := directory } : Kernel).assets.count a =
        (hand.flatMap Task.assets).count a + k.assets.count a := by
    intro a
    have ha := hassets.count_eq a
    rw [List.count_append, List.count_append] at ha
    simp only [assets, List.count_append]
    omega
  refine ⟨h.ordinals, h.coherent, h.staffed, fun a => Nat.le_trans (Nat.le_of_eq (hcount a))
    (h.unique a), fun a ha => h.issued a ?_⟩
  have hpos := List.count_pos_iff.2 ha
  rw [List.count_append, hcount, ← List.count_append] at hpos
  exact List.count_pos_iff.1 hpos

/-- A task in hand waits in the directory. -/
theorem trails_park {task : Task} (h : k.Ordered (task :: hand)) :
    k.Trails (onDirectory fun d => ((), d.park task)) fun _ k' => k'.Ordered hand := by
  have hfollows : Follows k { k with directory := k.directory.park task } :=
    Apart.follows ⟨rfl, rfl, rfl⟩
  refine ⟨hfollows, h.withDirectory ?_⟩
  rw [Directory.park, ← List.append_assoc]
  exact List.perm_append_singleton task _

/-- The tasks that waited are in hand. -/
theorem trails_takeParked (h : k.Ordered hand) :
    k.Trails (onDirectory Directory.takeParked) fun tasks k' => k'.Ordered (tasks ++ hand) := by
  have hfollows : Follows k { k with directory := k.directory.takeParked.2 } :=
    Apart.follows ⟨rfl, rfl, rfl⟩
  have hperm : (k.directory.parked ++ hand ++ []).Perm (hand ++ k.directory.parked) := by
    rw [List.append_nil]
    exact List.perm_append_comm
  exact ⟨hfollows, h.withDirectory hperm⟩

/-- A task in hand comes to the core that runs, which has an idle task. -/
theorem works_takeIn (task : Task) :
    Works c (fun s => s.idle.isSome = true) [task] (fun _ => True)
      (do
        enqueue c task
        return ((), ← onScheduler c Scheduler.reschedule)) := by
  have hasks : Asks c (·.schedule task) (enqueue c task) := asks_request _ _ _
  have hone : Works c (fun s => s.idle.isSome = true) ([task] ++ []) (fun _ => True)
      (enqueue c task >>= fun _ => do return ((), ← onScheduler c Scheduler.reschedule)) := by
    refine .calm hasks (fun s hco hs => ?_) fun _ => turns_reschedule ()
    have hcalm := hco.calm_schedule task
    exact ⟨hcalm, .inl (hcalm.idle hs), fun _ _ => .inl (hcalm.idle hs)⟩
  exact hone

theorem trails_place {task : Task} (h : k.Ordered (task :: hand)) :
    k.Trails (place task) fun _ k' => k'.Ordered hand := by
  refine Trails.get ?_
  split
  · exact (trails_park h).bind fun _ _ h => (Light.note _).trails_bind h fun _ _ _ h => .pure h
  · rename_i c hchosen
    refine (Light.onDirectory fun _ => rfl).trails_bind h fun _ k' haside h' => ?_
    have hidle := haside.idles (h.idles hchosen)
    have hrest : ∀ {x : Action Unit}, (k'.Trails x fun _ k' => k'.Ordered hand) →
        k'.Trails (do x; note (.placed task.id c); return Placement.core c)
          fun _ k' => k'.Ordered hand :=
      fun hx => hx.bind fun _ _ h => (Light.note _).trails_bind h fun _ _ _ h => .pure h
    split
    · rename_i hlocal
      have hone : k'.Ordered ([task] ++ hand) := h'
      refine hrest ((trails_locked hone (fun _ => works_takeIn task) fun core hcore s hs =>
        hs.idle (hidle core ?_)).mono fun _ _ hr => hr.1)
      rw [hlocal, ← haside.machine.currentCore]
      exact hcore
    · exact hrest (trails_handOver h' hidle)

theorem trails_launch {task : Task} (h : k.Ordered (task :: hand)) :
    k.Trails (launch task) fun _ k' => k'.Ordered hand :=
  (trails_place h).bind fun _ _ h => (Light.tally _ _).trails_bind h fun _ _ _ h => .pure h

theorem orderly_spawn (name : String) (entry : Nat) (priority : Priority) :
    Orderly (spawn name entry priority) :=
  fun _ _ h => (trails_buildKernelTask h name entry priority).bind fun _ _ h => trails_launch h.2

theorem orderly_spawnUser (name : String) (entry : Nat) (path : Option String)
    (priority : Priority) : Orderly (spawnUser name entry path priority) :=
  fun _ _ h => (trails_buildUserTask h name entry path priority).bind fun _ _ h =>
    trails_launch h.2

/-! ### Bringing up a core -/

theorem trails_buildServants (h : k.Ordered hand) :
    k.Trails buildServants fun servants k' => k'.machine.currentCore = k.machine.currentCore ∧
      k'.Ordered (servants.1 :: servants.2 :: hand) := by
  refine (trails_buildKernelTask h _ _ _).bind fun idle k₁ h₁ => ?_
  refine (trails_buildKernelTask h₁.2 _ _ _).attempt.bind fun r k₂ h₂ => ?_
  cases r with
  | ok cleanup =>
    have hordered : ({ k₂ with directory := k₂.directory } : Kernel).Ordered
        (idle :: cleanup :: hand) := h₂.2.withDirectory (List.Perm.swap _ _ _)
    exact .pure ⟨h₂.1.trans h₁.1, hordered⟩
  | error e =>
    refine (Light.onDirectory fun _ => rfl).trails_bind h₂ fun _ _ _ h => ?_
    exact (Light.onMachine fun m => idle.grows_release m).trails_bind h fun _ _ _ h => .fail h e

/-- The idle task is installed first, and the core has it from then on. -/
theorem works_installServants (idle cleanup : Task) :
    Works c Scheduler.Staffed [idle, cleanup] (fun s => s.idle.isSome = true)
      (do
        askScheduler c (·.installIdle idle)
        request c (.installCleanup cleanup) (·.installCleanup cleanup) fun _ => .done
        return (((), none) : Unit × Option Switch)) := by
  have hcleanup : Works c (fun s => s.idle.isSome = true) ([cleanup] ++ [])
      (fun s => s.idle.isSome = true)
      (request c (.installCleanup cleanup) (·.installCleanup cleanup) (fun _ => .done) >>=
        fun _ => Pure.pure (((), none) : Unit × Option Switch)) := by
    refine .calm (asks_request _ _ _) (fun s hco hs => ?_) fun _ =>
      .pure () fun _ hs => ⟨.inl hs, hs⟩
    have hcalm := hco.calm_installCleanup cleanup
    exact ⟨hcalm, .inl (hcalm.idle hs), fun _ _ => hcalm.idle hs⟩
  have hboth : Works c Scheduler.Staffed ([idle] ++ ([cleanup] ++ []))
      (fun s => s.idle.isSome = true)
      (askScheduler c (·.installIdle idle) >>= fun _ =>
        request c (.installCleanup cleanup) (·.installCleanup cleanup) (fun _ => .done) >>=
          fun _ => Pure.pure (((), none) : Unit × Option Switch)) := by
    refine .calm (asks_askScheduler _) (fun s hco hs => ?_) fun _ => hcleanup
    have hcalm := hco.calm_installIdle idle
    rcases hco.installIdle (Prod.eta (s.installIdle idle)).symm with
      ⟨hresult, -, hsame⟩ | ⟨-, -, -, -, hidle, -⟩
    · refine ⟨hcalm, by rw [hsame]; exact hs, fun b hb => ?_⟩
      rw [hresult] at hb
      cases hb
    · have hsome : (s.installIdle idle).2.idle.isSome = true := hidle ▸ rfl
      exact ⟨hcalm, .inl hsome, fun _ _ => hsome⟩
  exact hboth

/-- A core with an idle task may go online. -/
theorem trails_setOnline (h : k.Ordered hand) (hidle : k.Idles c) :
    k.Trails (updateCore c fun c => c.setFlags { online := true }) fun _ k' => k'.Ordered hand := by
  have hfollows : Follows k (k.modifyCore c fun c => c.setFlags { online := true }) :=
    Apart.follows ⟨map_modifyCore fun _ _ => rfl, rfl, rfl⟩
  refine ⟨hfollows, ?_⟩
  cases hcore : k.core? c with
  | none =>
    have hlen : k.cores.length ≤ c := List.getElem?_eq_none_iff.1 hcore
    have hsame : Ordered hand (k.modifyCore c fun c => c.setFlags { online := true }) := by
      rw [modifyCore, List.modify_eq_self hlen]
      exact h
    exact hsame
  | some core =>
    have hnone : k.Ordered ([] ++ hand) := h
    have hsystem := System.system_modifyCore (k := k) hcore fun c => c.setFlags { online := true }
    exact hnone.replaced hcore (congrArg System.cores hsystem) rfl (fun _ ha => ha) rfl
      (h.coherent c core hcore) (.inl (hidle core hcore)) fun _ => Nat.le_add_left _ _

theorem orderly_releaseParked : Orderly releaseParked := by
  intro k hand h
  refine (trails_takeParked h).bind fun tasks k' h' => ?_
  induction tasks generalizing k' with
  | nil => exact .pure h'
  | cons task tasks ih =>
    exact Trails.bind ((trails_place h').bind fun _ _ h => .pure h) fun _ k'' h'' => ih k'' h''

theorem orderly_bringUp : Orderly bringUp := by
  intro k hand h
  refine Trails.localCore h.forget fun core hcore => ?_
  split
  · exact .pure h
  · refine (trails_buildServants h).bind fun servants k₁ h₁ => ?_
    have hboth : k₁.Ordered ([servants.1, servants.2] ++ hand) := h₁.2
    refine (trails_locked hboth (fun _ => works_installServants servants.1 servants.2)
      fun core hcore s hs => hboth.staffed_of_calm hcore hs).bind fun _ k₂ h₂ => ?_
    refine (Light.onDirectory fun _ => rfl).trails_bind h₂.1 fun _ k₃ haside h₃ => ?_
    have hidle : k₂.Idles core.id := by
      rw [h.ordinals _ core hcore, ← h₁.1]
      exact h₂.2
    refine (trails_setOnline h₃ (haside.idles hidle)).bind fun _ k₄ h₄ => ?_
    exact ((Light.note _).orderly.bind fun _ => orderly_releaseParked) k₄ hand h₄

/-! ### Messages -/

theorem orderly_deliverLocally (recipient : TaskId) (message : Message) :
    Orderly (deliverLocally recipient message) := by
  refine orderly_locked fun c => .calm (asks_askScheduler _)
    (fun _ hco => hco.calm_deliver recipient message) fun woken => ?_
  split
  · exact .still (.tally _ _) fun _ => turns_reschedule ()
  · exact .pure ()

/-- Mail that is left for a core is not a task. -/
theorem orderly_post (recipient : TaskId) (message : Message) :
    Orderly (post c recipient message) := by
  refine (Light.ofExcept _).orderly.bind fun _ k hand h => ?_
  refine Trails.coreAt h.forget fun target htarget => ?_
  refine Trails.bind (Q := fun inbox k' => k' = k ∧ inbox.tasks = target.inbox.tasks)
    (.ofExcept h.forget fun _ hpush => ⟨rfl, Inbox.tasks_of_pushMail hpush⟩) fun inbox k' h' => ?_
  obtain ⟨rfl, htasks⟩ := h'
  have haside : Aside k' (k'.modifyCore c fun c => { c with inbox := inbox }) := by
    refine ⟨map_modifyCore fun core hcore => ?_, rfl, .refl _⟩
    obtain rfl : core = target := Option.some.inj (hcore.symm.trans htarget)
    simp only [Core.holding, Core.isOnline, htasks]
  exact Trails.bind (Q := fun _ k' => k'.Ordered hand)
    ⟨haside.apart.follows, haside.ordered h⟩ fun _ _ h => (light_interrupt _).trails h

theorem orderly_route (message : Message) : Orderly (route message) := by
  refine .get fun k => (Light.ofExcept _).orderly.bind fun target k₁ hand h₁ => ?_
  have hbrought : Orderly
      (if target.2 = k.machine.currentCore then deliverLocally target.1 message
        else post target.2 target.1 message) := by
    split
    · exact orderly_deliverLocally _ _
    · exact orderly_post _ _
  refine (hbrought k₁ hand h₁).attempt.bind fun outcome k₂ h₂ => ?_
  match outcome with
  | .ok () => exact (Light.tally _ _).trails h₂
  | .error e =>
    cases e with
    | mailboxFull => exact (Light.tally _ _).trails_bind h₂ fun _ _ _ h => .fail h _
    | _ => exact .fail h₂ _

theorem light_registerProvider (service : Service) (task : TaskId) :
    Light (registerProvider service task) := by
  refine (Light.onDirectory fun _ => rfl).bind fun previous => ?_
  split
  · exact .note _
  · exact .pure ()

theorem orderly_answerRegistry (message : Message) : Orderly (answerRegistry message) := by
  obtain ⟨sender, recipient, body⟩ := message
  match body with
  | .services (.register service) => exact (light_registerProvider service sender).orderly
  | .services (.unregister service) =>
    exact ((Light.onDirectory fun _ => rfl).bind fun _ => .pure ()).orderly
  | .services (.lookup service) => exact .get fun _ => orderly_route _
  | .services (.reply _ _) => exact .fail _
  | .scheduler _ => exact .fail _
  | .verbatim _ _ _ => exact .fail _

theorem orderly_send (recipient : Recipient) (body : Body) : Orderly (send recipient body) := by
  refine .get fun k => ?_
  dsimp only
  split
  · exact orderly_answerRegistry _
  · exact orderly_route _

theorem orderly_tryReceive (filter : Option Filter) : Orderly (tryReceive filter) := by
  refine Orderly.bind (orderly_locked fun c => .turn (asks_askScheduler _) Reception.switch
    (fun _ hco hs => hco.turn_receive (hco.attended hs) filter) fun reception => ?_)
    fun received => ?_
  · cases reception with
    | received message => exact .pure _
    | waiting switch => exact .pure _
  · split
    · exact ((Light.tally _ _).bind fun _ => .pure _).orderly
    · exact .pure _

theorem orderly_receiveWithin (tries : Nat) (filter : Option Filter) :
    Orderly (receiveWithin tries filter) := by
  induction tries with
  | zero => exact .fail _
  | succ tries ih =>
    refine (orderly_tryReceive filter).bind fun message => ?_
    cases message with
    | some message => exact .pure _
    | none => exact ih

/-! ### Every operation -/

/-- Another core gets its turn. -/
theorem orderly_turnTo (c : CoreId) :
    Orderly (onMachine fun m => ((), { m with currentCore := c })) := by
  intro k hand h
  have hfollows : Follows k { k with machine := { k.machine with currentCore := c } } :=
    Apart.follows ⟨rfl, rfl, rfl⟩
  exact ⟨hfollows, h.ordinals, h.coherent, h.staffed, h.unique, h.issued⟩

theorem orderly_actionOf (operation : Operation) : Orderly (actionOf operation) := by
  have hanswer : ∀ {α : Type} {x : Action α} (f : α → Answer), Orderly x →
      Orderly (do return f (← x)) := fun f hx => hx.bind fun _ => .pure _
  cases operation with
  | bringUp => exact hanswer _ orderly_bringUp
  | spawn name entry priority => exact hanswer _ (orderly_spawn name entry priority)
  | spawnUser name entry path priority =>
    exact hanswer _ (orderly_spawnUser name entry path priority)
  | start => exact hanswer _ ((light_interruptOthers _).orderly.bind fun _ => orderly_startLocal)
  | exit => exact hanswer _ orderly_exit
  | sleep milliseconds => exact hanswer _ (orderly_sleep milliseconds)
  | wake task => exact hanswer _ (orderly_wake task)
  | tick => exact hanswer _ orderly_tick
  | send recipient body => exact hanswer _ (orderly_send recipient body)
  | tryReceive filter => exact hanswer _ (orderly_tryReceive filter)
  | receive filter =>
    exact hanswer _ (light_localCore.orderly.bind fun _ => orderly_receiveWithin _ filter)
  | changePriority task priority => exact hanswer _ (orderly_changePriority task priority)
  | invalidateTlb =>
    exact hanswer _ (light_flushTlb.bind fun _ => light_interruptOthers _).orderly
  | setupTimeslice =>
    exact hanswer _ (light_armTimer.bind fun _ => light_interruptOthers _).orderly
  | handleInterrupt kind => exact hanswer _ (orderly_handleInterrupt kind)
  | runCleanup => exact hanswer _ orderly_runCleanup
  | parkCleanup => exact hanswer _ orderly_parkCleanup
  | setRegistryTask task => exact hanswer _ (Light.onDirectory fun _ => rfl).orderly
  | turnTo c => exact hanswer _ (orderly_turnTo c)
  | setFault fault on =>
    have hset : Light (onMachine fun m => ((), { m with faults := m.faults.set fault on })) :=
      .onMachine fun _ => ⟨rfl, rfl, rfl, Nat.le_refl _, Nat.le_refl _, List.prefix_refl _⟩
    exact hanswer _ hset.orderly
  | setLevel level =>
    have hset : Light (modify fun k : Kernel =>
        { k with journal := { k.journal with level := level } }) := fun _ => ⟨rfl, rfl, .refl _⟩
    exact hanswer _ hset.orderly

end Microkernel.Kernel
