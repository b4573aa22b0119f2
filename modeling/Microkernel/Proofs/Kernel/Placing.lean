/-
Placing tasks.

A task in hand comes to the core that is chosen for it, or is parked while no core is online.
It comes with an empty mailbox and a home (`Placed`), and the mail of all other tasks is where it
was.

* **`ensures_place`**: a task in hand is never refused;
* **`ensures_placeAll`**: neither are the tasks that were parked;
* **`ensures_spawn`**, **`ensures_spawnUser`**: building and placing.
-/
import Microkernel.Proofs.Kernel.Building

namespace Microkernel

/-! ### The choice of a core -/

namespace Directory

theorem better_mem (last : Option CoreId) (a b : CoreId × Nat) :
    better last a b = a ∨ better last a b = b := by
  simp only [better]
  split
  · exact .inr rfl
  · exact .inl rfl

theorem foldl_better_mem (last : Option CoreId) (first : CoreId × Nat) (l : List (CoreId × Nat)) :
    l.foldl (better last) first ∈ first :: l := by
  induction l generalizing first with
  | nil => exact List.mem_cons_self
  | cons a l ih =>
    rw [List.foldl_cons]
    rcases List.mem_cons.1 (ih (better last first a)) with hfirst | hrest
    · rw [hfirst]
      rcases better_mem last first a with h | h
      · rw [h]
        exact List.mem_cons_self
      · rw [h]
        exact List.mem_cons_of_mem _ List.mem_cons_self
    · exact List.mem_cons_of_mem _ (List.mem_cons_of_mem _ hrest)

/-- The chosen core is one of the candidates. -/
theorem mem_of_chooseCore {last : Option CoreId} {candidates : List (CoreId × Nat)} {c : CoreId}
    (h : chooseCore last candidates = some c) : ∃ load, (c, load) ∈ candidates := by
  cases candidates with
  | nil => cases h
  | cons first rest =>
    cases h
    exact ⟨_, foldl_better_mem last first rest⟩

theorem eq_nil_of_chooseCore {last : Option CoreId} {candidates : List (CoreId × Nat)}
    (h : chooseCore last candidates = none) : candidates = [] := by
  cases candidates with
  | nil => rfl
  | cons first rest => cases h

end Directory

namespace Kernel

variable {α β : Type} {s s' : System} {hand : List Task} {c : CoreId} {core core' : Core}

theorem mem_candidates {k : Kernel} {c : CoreId} {load : Nat} :
    (c, load) ∈ k.candidates ↔
      ∃ core ∈ k.cores, core.isOnline = true ∧ core.id = c ∧ core.load = load := by
  simp only [candidates, List.mem_map, List.mem_filter, Prod.mk.injEq]
  exact ⟨fun ⟨core, ⟨hin, honline⟩, h⟩ => ⟨core, hin, honline, h⟩,
    fun ⟨core, hin, honline, h⟩ => ⟨core, ⟨hin, honline⟩, h⟩⟩

theorem chosen_online {k : Kernel}
    (hordinals : ∀ i core, k.system.core? i = some core → core.id = i) {last : Option CoreId}
    (hc : Directory.chooseCore last k.candidates = some c) :
    ∃ core, k.system.core? c = some core ∧ core.isOnline = true := by
  obtain ⟨load, hload⟩ := Directory.mem_of_chooseCore hc
  obtain ⟨core, hin, honline, hid, -⟩ := mem_candidates.1 hload
  obtain ⟨i, hi⟩ := List.getElem?_of_mem hin
  have hcore : k.system.core? i = some core := hi
  have hci : c = i := hid.symm.trans (hordinals i core hcore)
  exact ⟨core, hci ▸ hcore, honline⟩

theorem offline_of_none_chosen {k : Kernel} {last : Option CoreId}
    (hc : Directory.chooseCore last k.candidates = none) (i : CoreId) (core : Core)
    (hcore : k.system.core? i = some core) : core.isOnline = false := by
  have hnone := Directory.eq_nil_of_chooseCore hc
  cases honline : core.isOnline with
  | false => rfl
  | true =>
    have hin : (core.id, core.load) ∈ k.candidates :=
      mem_candidates.2 ⟨core, List.mem_of_getElem? hcore, honline, rfl, rfl⟩
    rw [hnone] at hin
    cases hin

/-! ### A task comes to a core -/

/-- The task is parked, or has a home, is not the idle task there, and has an empty mailbox. -/
structure Arrived (s : System) (id : TaskId) : Prop where
  fresh : ∀ c core, s.directory.homeOf id = some c → s.core? c = some core →
    core.scheduler.idle ≠ some id ∧ core.box id = []
  parked : s.directory.homeOf id = none → id ∈ s.directory.parked.map Task.id

/-- The task was accepted. -/
structure Placed (s : System) (hand : List Task) (id : TaskId) (r : Except Stop α)
    (s' : System) : Prop where
  ok : ∃ a, r = .ok a
  preserves : Preserves s hand Core.nothing none r s'
  arrived : Arrived s' id

/-- The action after a task was accepted. -/
theorem Placed.ok_of {r : Except Stop α} {id : TaskId} (h : Placed s hand id r s') (b : β) :
    Placed s hand id (.ok b : Except Stop β) s' :=
  ⟨⟨b, rfl⟩, h.preserves.ok, h.arrived⟩

theorem placed_homed {task : Task} (h : s.Sound (task :: hand)) (hcore : s.core? c = some core)
    (honline : core.isOnline = true)
    (hstep : Core.Step s.config.mailboxSize Core.nothing none [task.id] core core')
    (hidle : core'.scheduler.idle ≠ some task.id) (hbox : core'.box task.id = []) (a : α) :
    Placed s hand task.id (.ok a)
      ((s.withDirectory (s.directory.recordHome task.id c)).withCore c core') := by
  have hhome : ∀ id, (s.directory.recordHome task.id c).homeOf id =
      if id = task.id then some c else s.directory.homeOf id :=
    fun id => Table.get?_insert s.directory.homes task.id c id
  have hkept : ∀ id i, s.directory.homeOf id = some i → none ≠ some id →
      (s.directory.recordHome task.id c).homeOf id = some i := by
    intro id i hid _
    have hne : id ≠ task.id := by
      rintro rfl
      rw [h.homeOf_eq_none List.mem_cons_self] at hid
      cases hid
    rw [hhome, if_neg hne]
    exact hid
  have hpasses := h.passes_withCore hcore hstep.carries (fun _ _ => rfl) hkept
  have hhomed : (s.directory.recordHome task.id c).homeOf task.id = some c :=
    (hhome task.id).trans (if_pos rfl)
  refine ⟨⟨a, rfl⟩, ⟨trivial, rfl, h.homed hcore honline hstep, hpasses⟩,
    ⟨fun i x hi hx => ?_, fun hi => ?_⟩⟩
  · obtain rfl : c = i := Option.some_inj.1 (hhomed.symm.trans hi)
    have hget : (s.withDirectory (s.directory.recordHome task.id c)).core? c = some core := hcore
    rw [System.core?_withCore_self hget] at hx
    cases hx
    exact ⟨hidle, hbox⟩
  · cases hhomed.symm.trans hi

/-- A new task is in no scheduler, and is not an idle task. -/
theorem fresh_of_hand {task : Task} (h : s.Sound (task :: hand)) (hcore : s.core? c = some core) :
    task.id ∉ core.members ∧ core.scheduler.idle ≠ some task.id := by
  have hnot : task.id ∉ core.members :=
    fun hin => h.not_mem_residents List.mem_cons_self (System.mem_residents_of_mem hcore hin)
  refine ⟨hnot, fun hidle => hnot ((Core.mem_members_iff _).2 (.inl ?_))⟩
  exact ((h.settled c core hcore).sound.coherent.queued.live _).2 (.inr (.inr hidle))

/-- A task is left in the inbox of a core. -/
theorem ensures_leave (hcore : s.core? c = some core) (task : Task) :
    Ensures s (handOver c task) fun r s' => r = .ok () ∧
      s' = s.withCore c
        { core.reserveLoad task.priority.weight with inbox := core.inbox.pushTask task } := by
  refine Ensures.coreAt hcore (Ensures.bind_ok (Ensures.updateCore hcore _ ⟨rfl, rfl⟩) ?_)
  exact ensures_interrupt (System.core?_withCore_self hcore _) _

theorem ensures_handOver {task : Task} (h : s.Sound (task :: hand))
    (hcore : s.core? c = some core) (honline : core.isOnline = true) :
    Ensures (s.withDirectory (s.directory.recordHome task.id c)) (handOver c task)
      (Placed s hand task.id) := by
  obtain ⟨hfresh, hidle⟩ := fresh_of_hand h hcore
  have hcore₁ : (s.withDirectory (s.directory.recordHome task.id c)).core? c = some core := hcore
  have hmailbox := h.built task List.mem_cons_self
  have hstep := (h.settled c core hcore).step_pushTask hfresh hmailbox
  refine (ensures_leave hcore₁ task).mono fun r s' hr => ?_
  obtain ⟨rfl, rfl⟩ := hr
  refine placed_homed h hcore honline hstep hidle ?_ ()
  have htask := Core.task?_pushTask (c := core) task task.priority.weight task.id
  have hnone : core.task? task.id = none := by
    have hiff := Core.isSome_task?_iff (c := core) task.id
    cases hx : core.task? task.id with
    | none => rfl
    | some _ => exact absurd (hiff.1 (by rw [hx]; rfl)) hfresh
  rw [hnone, Option.none_or, if_pos rfl] at htask
  rw [Core.box, htask, Option.map_some, Option.getD_some, hmailbox, Mailbox.messages_new]

/-- A task that the core has not got yet is queued on the core that runs now. -/
theorem ensures_join {size : Nat} (hcore : s.core? s.currentCore = some core)
    (hid : core.id = s.currentCore) (hsound : core.Sound size) {task : Task}
    (hfresh : task.id ∉ core.members) :
    Ensures s
      (locked fun id => do
        enqueue id task
        return ((), ← onScheduler id Scheduler.reschedule))
      fun r s' => r = .ok () ∧ ∃ joined scheduler,
        Scheduler.Joined core.drained.scheduler task joined ∧
          joined.idle = core.drained.scheduler.idle ∧ scheduler.Coherent ∧
          Scheduler.Rearranged joined scheduler ∧
          s' = s.withCore s.currentCore (core.after scheduler) := by
  refine ensures_locked_at hcore hid hsound ?_
  -- a new task is not refused
  have hnew : core.drained.scheduler.contains task.id = false := by
    rw [← Bool.not_eq_true, hsound.contains_drained]
    exact hfresh
  rcases hs : core.drained.scheduler.schedule task with ⟨result, joined⟩
  rcases hsound.drained.coherent.schedule hs with
    ⟨-, hrefused, -⟩ | ⟨rfl, -, hco, hj, -, hidle, -⟩
  · rw [hnew] at hrefused
    cases hrefused
  rcases hr : joined.reschedule with ⟨switch, scheduler⟩
  obtain ⟨hco', hres, hmoved⟩ := hco.reschedule hr
  refine Ensures.bind_ok (ensures_enqueue hcore hs) ?_
  refine Ensures.bind_ok (ensures_onScheduler hcore hr) (Ensures.pure (Locked.ok hres ?_))
  exact ⟨rfl, joined, scheduler, hj, hidle, hco', hmoved, rfl⟩

theorem ensures_takeIn {task : Task} (h : s.Sound (task :: hand))
    (hcore : s.core? s.currentCore = some core) (honline : core.isOnline = true) :
    Ensures (s.withDirectory (s.directory.recordHome task.id s.currentCore))
      (locked fun id => do
        enqueue id task
        return ((), ← onScheduler id Scheduler.reschedule))
      (Placed s hand task.id) := by
  obtain ⟨hfresh, hidle⟩ := fresh_of_hand h hcore
  have hsettled := h.settled _ core hcore
  have hmailbox := h.built task List.mem_cons_self
  have hcore₁ : (s.withDirectory (s.directory.recordHome task.id s.currentCore)).core?
      s.currentCore = some core := hcore
  refine (ensures_join hcore₁ (h.ordinals _ core hcore) hsettled.sound hfresh).mono
    fun r s' hr => ?_
  obtain ⟨rfl, joined, scheduler, hj, hidle₁, hco, hmoved, rfl⟩ := hr
  have hstep := hsettled.step_joined hfresh hmailbox hj hidle₁ hco hmoved
  refine placed_homed h hcore honline hstep ?_ ?_ ()
  · have hsame : (core.after scheduler).scheduler.idle = core.scheduler.idle :=
      hmoved.idle.trans (hidle₁.trans hsettled.sound.idle_drained)
    rw [hsame]
    exact hidle
  · have hbox : (core.after scheduler).box task.id = scheduler.box task.id :=
      Core.box_of_no_arrivals rfl task.id
    rw [hbox, hmoved.box, Scheduler.box, hj.task?, if_pos rfl, Option.map_some, Option.getD_some,
      hmailbox, Mailbox.messages_new]

theorem ensures_place {task : Task} (h : s.Sound (task :: hand)) :
    Ensures s (place task) (Placed s hand task.id) := by
  refine Ensures.get fun k hk => ?_
  subst hk
  split
  · rename_i hnone
    -- no core is online, so the task is parked
    have hoffline := offline_of_none_chosen hnone
    refine Ensures.bind_ok (Ensures.onDirectory _ ⟨rfl, rfl⟩) ?_
    have hnowhere : k.system.directory.homeOf task.id = none :=
      h.homeOf_eq_none List.mem_cons_self
    refine Ensures.quiet (quiet_note _) fun _ => Ensures.pure ⟨⟨_, rfl⟩, ?_,
      ⟨fun c core hc hcore => ?_, fun _ => ?_⟩⟩
    · exact ⟨trivial, rfl, h.park hoffline, .withDirectory fun _ => rfl⟩
    · cases hnowhere.symm.trans hc
    · exact List.mem_map_of_mem (List.mem_append_right _ List.mem_cons_self)
  · rename_i c hchosen
    obtain ⟨core, hcore, honline⟩ := chosen_online h.ordinals hchosen
    refine Ensures.bind_ok (Ensures.onDirectory _ ⟨rfl, rfl⟩) ?_
    -- the home is recorded first; between that and the arrival the invariant does not hold
    have hrest : ∀ {x : Action Unit}, Ensures (k.system.withDirectory
          (k.system.directory.recordHome task.id c)) x (Placed k.system hand task.id) →
        Ensures (k.system.withDirectory (k.system.directory.recordHome task.id c))
          (do x; note (.placed task.id c); return Placement.core c)
          (Placed k.system hand task.id) := by
      intro x hx
      refine Ensures.bind (hx.mono fun r s' hr => ?_)
      obtain ⟨a, rfl⟩ := hr.ok
      exact Ensures.quiet (quiet_note _) fun _ => Ensures.pure (hr.ok_of _)
    split
    · rename_i hlocal
      subst hlocal
      exact hrest (ensures_takeIn h hcore honline)
    · exact hrest (ensures_handOver h hcore honline)

/-- The tasks that were parked are placed one after the other. -/
theorem ensures_placeAll (tasks : List Task) (h : s.Sound (tasks ++ hand)) :
    Ensures s (tasks.forM fun task => do let _ ← place task)
      (Preserves s hand Core.nothing none) := by
  induction tasks generalizing s with
  | nil => exact Ensures.pure (.same h trivial)
  | cons task tasks ih =>
    refine Ensures.bind (Ensures.bind ((ensures_place h).mono fun r s' hr => ?_))
    obtain ⟨placement, rfl⟩ := hr.ok
    refine Ensures.pure ((ih hr.preserves.sound).mono fun r' s'' hr' => ?_)
    exact hr.preserves.trans hr'

/-! ### New tasks -/

/-- If a task was spawned, it has arrived. -/
structure Spawned (s : System) (hand : List Task) (r : Except Stop TaskId) (s' : System) :
    Prop where
  preserves : Preserves s hand Core.nothing none r s'
  arrived : ∀ id, r = .ok id → Arrived s' id

theorem Built.preserves {tasks : α → List Task} {r : Except Stop α} (b : β) :
    Built tasks s hand r s' → match r with
      | .ok a => Preserves s (tasks a ++ hand) Core.nothing none (.ok b : Except Stop β) s'
      | .error e => Preserves s hand Core.nothing none (.error e : Except Stop β) s' := by
  rintro ⟨⟨ids, rfl⟩, h⟩
  have hpasses : s.Passes s.config.mailboxSize Core.nothing none (s.withIds ids) :=
    .withDirectory fun _ => rfl
  match r with
  | .ok a => exact ⟨trivial, rfl, h, hpasses⟩
  | .error (.failed e) => exact ⟨h.1, rfl, h.2, hpasses⟩
  | .error (.halted _) => exact h.elim

theorem ensures_launch {task : Task} (h : s.Sound (task :: hand)) :
    Ensures s (launch task) (Spawned s hand) := by
  refine Ensures.bind ((ensures_place h).mono fun r s' hr => ?_)
  obtain ⟨placement, rfl⟩ := hr.ok
  refine Ensures.quiet (quiet_tally _ _) fun _ => Ensures.pure ⟨hr.preserves.ok, fun id hid => ?_⟩
  cases hid
  exact hr.arrived

/-- A task is built and launched. -/
theorem ensures_spawned {x : Action Task} (hx : Ensures s x (Built ([·]) s hand)) :
    Ensures s (do launch (← x)) (Spawned s hand) := by
  refine Ensures.bind (hx.mono fun r s' hr => ?_)
  have hbuilt := hr.preserves (0 : TaskId)
  cases r with
  | error e => exact ⟨hbuilt, fun id hid => by cases hid⟩
  | ok task =>
    refine (ensures_launch hbuilt.sound).mono fun r' s'' hr' => ?_
    exact ⟨hbuilt.trans hr'.preserves, hr'.arrived⟩

theorem ensures_spawn (h : s.Sound hand) (name : String) (entry : Nat) (priority : Priority) :
    Ensures s (spawn name entry priority) (Spawned s hand) :=
  ensures_spawned (ensures_buildKernelTask h name entry priority)

theorem ensures_spawnUser (h : s.Sound hand) (name : String) (entry : Nat) (path : Option String)
    (priority : Priority) : Ensures s (spawnUser name entry path priority) (Spawned s hand) :=
  ensures_spawned (ensures_buildUserTask h name entry path priority)

end Kernel

end Microkernel
