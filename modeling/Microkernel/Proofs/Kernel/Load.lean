/-
The load that the cores publish, and the choice of a core for a task.

`k.loadAt c` is the load that a core really has: the weights of the live tasks that are at home
there, its idle task apart. The load that it publishes is kept in three places: the scheduler counts
its own tasks, a task that is left in the inbox is counted by the one who leaves it, and every call
under the lock publishes the count of the scheduler anew.

* **`placed_by_true_load`**: the published load is the real one, and the core that is chosen for a
  task is the best one by it (`Best`);
* **`Directory.preferred_of_chooseCore`**: what is chosen has the lowest cost, and of those with
  the lowest cost the lowest ordinal.

Design notes: loads are natural numbers, so that no sum of weights is ever cut off.
-/
import Mathlib.Data.List.Nodup
import Microkernel.Proofs.Kernel.Safety
import Microkernel.Proofs.Kernel.Undeliverable
import Microkernel.Proofs.Scheduler.Load

namespace Microkernel

namespace Directory

variable {last : Option CoreId} {a b c : CoreId × Nat}

/-! ### The best candidate -/

/-- What a core with its load costs a task that ran last on the core `last`: a thousand, or three
less on that core, and the load. -/
def cost (last : Option CoreId) (candidate : CoreId × Nat) : Nat :=
  1000 - (if last = some candidate.1 then 3 else 0) + candidate.2

/-- The cost of `a` is lower than that of `b`, or it is the same and the ordinal is not greater. -/
def Preferred (last : Option CoreId) (a b : CoreId × Nat) : Prop :=
  cost last a < cost last b ∨ cost last a = cost last b ∧ a.1 ≤ b.1

/-- The candidate that is kept is the one with the lower cost, and of equal ones the lower core. -/
theorem better_eq (last : Option CoreId) (a b : CoreId × Nat) : better last a b =
    if cost last b < cost last a ∨ cost last b = cost last a ∧ b.1 < a.1 then b else a :=
  rfl

theorem Preferred.refl (last : Option CoreId) (a : CoreId × Nat) : Preferred last a a :=
  .inr ⟨rfl, Nat.le_refl _⟩

theorem Preferred.trans (h : Preferred last a b) (h' : Preferred last b c) :
    Preferred last a c := by
  rcases h with h | ⟨h, hle⟩
  · rcases h' with h' | ⟨h', -⟩
    · exact .inl (Nat.lt_trans h h')
    · exact .inl (h' ▸ h)
  · rcases h' with h' | ⟨h', hle'⟩
    · exact .inl (Nat.lt_of_le_of_lt (Nat.le_of_eq h) h')
    · exact .inr ⟨h.trans h', Nat.le_trans hle hle'⟩

theorem preferred_better (last : Option CoreId) (a b : CoreId × Nat) :
    Preferred last (better last a b) a ∧ Preferred last (better last a b) b := by
  rw [better_eq]
  split
  · rename_i h
    exact ⟨h.imp id fun h => ⟨h.1, Nat.le_of_lt h.2⟩, .refl last b⟩
  · rename_i h
    obtain ⟨hcost, hordinal⟩ := not_or.1 h
    refine ⟨.refl last a, (Nat.lt_or_eq_of_le (Nat.not_lt.1 hcost)).imp id fun heq => ?_⟩
    exact ⟨heq, Nat.not_lt.1 fun hlt => hordinal ⟨heq.symm, hlt⟩⟩

theorem preferred_foldl (last : Option CoreId) (first : CoreId × Nat) (l : List (CoreId × Nat)) :
    ∀ x ∈ first :: l, Preferred last (l.foldl (better last) first) x := by
  induction l generalizing first with
  | nil =>
    intro x hx
    rw [List.mem_singleton.1 hx]
    exact .refl last first
  | cons a l ih =>
    intro x hx
    obtain ⟨hfirst, ha⟩ := preferred_better last first a
    have hbest := ih (better last first a) _ List.mem_cons_self
    rcases List.mem_cons.1 hx with rfl | hx
    · exact hbest.trans hfirst
    · rcases List.mem_cons.1 hx with rfl | hx
      · exact hbest.trans ha
      · exact ih (better last first a) x (List.mem_cons_of_mem _ hx)

/-- The core that is chosen is the best of the candidates. -/
theorem preferred_of_chooseCore {candidates : List (CoreId × Nat)} {core : CoreId}
    (h : chooseCore last candidates = some core) :
    ∃ load, (core, load) ∈ candidates ∧ ∀ x ∈ candidates, Preferred last (core, load) x := by
  cases candidates with
  | nil => cases h
  | cons first rest =>
    cases h
    exact ⟨_, foldl_better_mem last first rest, preferred_foldl last first rest⟩

end Directory

namespace Kernel

variable {k : Kernel} {s : System} {c : CoreId} {core : Core} {last : Option CoreId} {size : Nat}

/-- The load of a core: the weights of the live tasks that are at home there, without its idle
task. -/
def loadAt (k : Kernel) (c : CoreId) : Nat :=
  loadOf ((k.core? c).bind fun core => core.scheduler.idle)
    (k.liveTasks.filter fun t => decide (k.directory.homeOf t.id = some c))

/-- The core is online, and no online core is better for a task that ran last on the core `last`:
none costs less by its real load, and of those that cost as much none has a lower ordinal. -/
def Best (k : Kernel) (last : Option CoreId) (c : CoreId) : Prop :=
  (∃ core, k.core? c = some core ∧ core.isOnline = true) ∧
    ∀ c' core', k.core? c' = some core' → core'.isOnline = true →
      Directory.Preferred last (c, k.loadAt c) (c', k.loadAt c')

/-! ### The published load -/

/-- The tasks of a core are those that are at home there. -/
theorem Conserved.perm_tasks (h : k.Conserved) (hcore : k.core? c = some core) :
    (k.liveTasks.filter fun t => decide (k.directory.homeOf t.id = some c)).Perm
      (core.scheduler.tasks.values ++ core.inbox.tasks) := by
  have hin := List.mem_of_getElem? hcore
  have hsub : (core.scheduler.tasks.values ++ core.inbox.tasks).Sublist k.liveTasks := by
    refine List.Sublist.trans ?_ (List.sublist_append_left _ _)
    rw [List.flatMap_def]
    exact List.sublist_flatten_of_mem (List.mem_map_of_mem hin)
  have hnodup : k.liveTasks.Nodup := List.Nodup.of_map Task.id h.nodup
  refine (List.perm_ext_iff_of_nodup (hnodup.filter _) (hnodup.sublist hsub)).2 fun t => ?_
  rw [List.mem_filter, decide_eq_true_iff, h.home, List.mem_append]
  constructor
  · rintro ⟨ht, core', hcore', hid⟩
    obtain rfl : core = core' := Option.some.inj (hcore.symm.trans hcore')
    -- a live task with this id is on the core, and there is no other one
    have hthere : ∃ t' ∈ core.scheduler.tasks.values ++ core.inbox.tasks, t'.id = t.id := by
      rcases hid with hid | ⟨t', ht', hid⟩
      · obtain ⟨t', ht'⟩ := Option.isSome_iff_exists.1 hid
        exact ⟨t', List.mem_append_left _ (Table.mem_values.2 ⟨_, ht'⟩),
          h.named core hin _ t' ht'⟩
      · exact ⟨t', List.mem_append_right _ ht', hid⟩
    obtain ⟨t', ht', hid⟩ := hthere
    obtain rfl := List.inj_on_of_nodup_map h.nodup (hsub.subset ht') ht hid
    exact List.mem_append.1 ht'
  · intro ht
    refine ⟨hsub.subset (List.mem_append.2 ht), core, hcore, ht.imp (fun ht => ?_) fun ht => ?_⟩
    · obtain ⟨id, hid⟩ := Table.mem_values.1 ht
      rw [h.named core hin id t hid]
      exact Option.isSome_of_mem hid
    · exact ⟨t, ht, rfl⟩

theorem steady_weighed : Steady size fun _ s => s.Coherent ∧ s.Weighed :=
  fun _ _ operation h _ => ⟨(h.1.step operation).1, h.1.weighed_step h.2 operation⟩

theorem Reachable.weighed (h : k.Reachable) (hcore : k.core? c = some core) :
    core.scheduler.Weighed := by
  have hmeets := h.meets (fun _ => steady_weighed) fun c timeslice =>
    ⟨Scheduler.coherent_new c timeslice, Scheduler.weighed_new c timeslice⟩
  exact (hmeets.schedulers c core hcore).2

/-- A core publishes the load that it has. -/
theorem Reachable.load_eq (h : k.Reachable) (hcore : k.core? c = some core) :
    core.load = k.loadAt c := by
  have hsettled := h.sound.settled c core hcore
  have harriving : core.arrivingWeight = loadOf core.scheduler.idle core.inbox.tasks :=
    (loadOf_eq_sum fun t ht =>
      hsettled.sound.coherent.idle_ne_of_fresh (hsettled.sound.fresh t ht)).symm
  calc core.load = core.scheduler.score + core.arrivingWeight := hsettled.load
    _ = loadOf core.scheduler.idle (core.scheduler.tasks.values ++ core.inbox.tasks) := by
      rw [h.weighed hcore, harriving, loadOf_append]
    _ = k.loadAt c := by
      rw [loadAt, hcore]
      exact (loadOf_perm (h.conserved.perm_tasks hcore)).symm

/-! ### The chosen core -/

theorem Reachable.best_of_chosen (h : k.Reachable)
    (hc : Directory.chooseCore last k.candidates = some c) : k.Best last c := by
  obtain ⟨load, hin, hbest⟩ := Directory.preferred_of_chooseCore hc
  have hcandidate : ∀ i core, k.core? i = some core → core.isOnline = true →
      (i, k.loadAt i) ∈ k.candidates := by
    intro i core hcore honline
    exact mem_candidates.2 ⟨core, List.mem_of_getElem? hcore, honline,
      h.sound.ordinals i core hcore, h.load_eq hcore⟩
  obtain ⟨core, hcores, honline, rfl, rfl⟩ := mem_candidates.1 hin
  obtain ⟨i, hi⟩ := List.getElem?_of_mem hcores
  have hcore : k.core? core.id = some core := by
    rw [h.sound.ordinals i core hi]
    exact hi
  rw [h.load_eq hcore] at hbest
  exact ⟨⟨core, hcore, honline⟩, fun i core' hcore' honline' =>
    hbest _ (hcandidate i core' hcore' honline')⟩

theorem exists_chosen (honline : ∃ core ∈ k.cores, core.isOnline = true) (last : Option CoreId) :
    ∃ c, Directory.chooseCore last k.candidates = some c := by
  obtain ⟨core, hin, honline⟩ := honline
  cases hc : Directory.chooseCore last k.candidates with
  | some c => exact ⟨c, rfl⟩
  | none =>
    obtain ⟨i, hi⟩ := List.getElem?_of_mem hin
    rw [offline_of_none_chosen hc i core hi] at honline
    cases honline

/-- The task has come to the core, and nothing else was changed. -/
def Lands (s : System) (c : CoreId) (id : TaskId) (r : Except Stop Unit) (s' : System) : Prop :=
  r = .ok () ∧ ∃ core', s' = s.withCore c core' ∧ id ∈ core'.members

theorem ensures_join_lands {task : Task} (hcore : s.core? s.currentCore = some core)
    (hid : core.id = s.currentCore) (hsound : core.Sound size) (hfresh : task.id ∉ core.members) :
    Ensures s
      (locked fun id => do
        enqueue id task
        return ((), ← onScheduler id Scheduler.reschedule))
      (Lands s s.currentCore task.id) := by
  refine (ensures_join hcore hid hsound hfresh).mono fun r s' hr => ?_
  obtain ⟨rfl, joined, scheduler, hj, -, -, hmoved, rfl⟩ := hr
  refine ⟨rfl, core.after scheduler, rfl, (Core.mem_after task.id).2 ?_⟩
  rw [hmoved.contains]
  exact (hj.contains task.id).2 (.inl rfl)

theorem ensures_leave_lands (hcore : s.core? c = some core) (task : Task) :
    Ensures s (handOver c task) (Lands s c task.id) := by
  refine (ensures_leave hcore task).mono fun r s' hr => ?_
  obtain ⟨rfl, rfl⟩ := hr
  refine ⟨rfl, _, rfl, (Core.mem_members_iff task.id).2 (.inr (List.mem_map_of_mem ?_))⟩
  exact List.mem_append_right _ (List.mem_singleton.2 rfl)

/-- A task that is nowhere yet comes to the core that is chosen for it. -/
theorem ensures_place_on (hordinals : ∀ i core, k.system.core? i = some core → core.id = i)
    (hsettled : ∀ i core, k.system.core? i = some core → core.Settled size) {task : Task}
    (hfresh : ∀ i core, k.system.core? i = some core → task.id ∉ core.members)
    (hc : Directory.chooseCore task.lastCore k.candidates = some c) :
    Ensures k.system (place task) fun r s' => r = .ok (.core c) ∧
      s'.directory.homeOf task.id = some c ∧
      ∃ core, s'.core? c = some core ∧ task.id ∈ core.members := by
  obtain ⟨core, hcore, -⟩ := chosen_online hordinals hc
  refine Ensures.get fun k' hk' => ?_
  have hcores : k'.cores = k.cores := congrArg System.cores hk'
  have hsame : k'.candidates = k.candidates := by rw [candidates, candidates, hcores]
  have hcurrent : k'.machine.currentCore = k.system.currentCore := congrArg System.currentCore hk'
  rw [hsame, hc]
  refine Ensures.bind_ok (Ensures.onDirectory _ ⟨rfl, rfl⟩) ?_
  let s₁ := k.system.withDirectory (k.system.directory.recordHome task.id c)
  have hcore₁ : s₁.core? c = some core := hcore
  have hhomed : s₁.directory.homeOf task.id = some c :=
    (Table.get?_insert k.system.directory.homes task.id c task.id).trans (if_pos rfl)
  -- on either way the task comes to the core, and then this is reported
  have hrest : ∀ {x : Action Unit}, Ensures s₁ x (Lands s₁ c task.id) →
      Ensures s₁ (do x; note (.placed task.id c); return Placement.core c) fun r s' =>
        r = .ok (.core c) ∧ s'.directory.homeOf task.id = some c ∧
          ∃ core, s'.core? c = some core ∧ task.id ∈ core.members := by
    intro x hx
    refine Ensures.bind (hx.mono fun r s' hr => ?_)
    obtain ⟨rfl, core', rfl, hin⟩ := hr
    exact Ensures.quiet (quiet_note _) fun _ => Ensures.pure
      ⟨rfl, hhomed, core', System.core?_withCore_self hcore₁ core', hin⟩
  split
  · rename_i hlocal
    obtain rfl : c = k.system.currentCore := hlocal.trans hcurrent
    exact hrest (ensures_join_lands hcore₁ (hordinals _ core hcore)
      (hsettled _ core hcore).sound (hfresh _ core hcore))
  · exact hrest (ensures_leave_lands hcore₁ task)

/-- The task has its home on the core, and is there. -/
def Houses (k : Kernel) (c : CoreId) (id : TaskId) : Prop :=
  k.directory.homeOf id = some c ∧ k.IsOn id c

theorem houses_iff (id : TaskId) : k.Houses c id ↔ k.system.directory.homeOf id = some c ∧
    ∃ core, k.system.core? c = some core ∧ id ∈ core.members :=
  and_congr_right fun _ => isOn_iff id c

theorem Reachable.place_best (h : k.Reachable) {task : Task} (hnew : ∀ c, ¬ k.IsOn task.id c)
    (honline : ∃ core ∈ k.cores, core.isOnline = true) :
    ∃ c, k.Best task.lastCore c ∧ (k.perform (place task)).1 = .ok (.core c) ∧
      (k.perform (place task)).2.Houses c task.id := by
  obtain ⟨c, hc⟩ := exists_chosen honline task.lastCore
  obtain ⟨hok, hhouses⟩ := ensures_place_on h.sound.ordinals h.sound.settled
    (fun i core hcore hin => hnew i ((isOn_iff task.id i).2 ⟨core, hcore, hin⟩)) hc k rfl
  exact ⟨c, h.best_of_chosen hc, hok, (houses_iff task.id).2 hhouses⟩

/-- The task that was answered is on the core that was the best one for a task that never ran. -/
def Settles (k : Kernel) (r : Except Stop TaskId) (s' : System) : Prop :=
  ∀ id, r = .ok id → ∃ c, k.Best none c ∧ s'.directory.homeOf id = some c ∧
    ∃ core, s'.core? c = some core ∧ id ∈ core.members

/-- A task that was built just before never ran on any core. -/
theorem ensures_launch_on (h : k.Reachable) (honline : ∃ core ∈ k.cores, core.isOnline = true)
    {x : Action Task} (hbuilt : Ensures k.system x (Built ([·]) k.system []))
    (hnew : Ensures k.system x fun r _ => ∀ task, r = .ok task → task.lastCore = none) :
    Ensures k.system (do launch (← x)) (Settles k) := by
  obtain ⟨c, hc⟩ := exists_chosen honline none
  have hboth : Ensures k.system x fun r s' => Built ([·]) k.system [] r s' ∧
      ∀ task, r = .ok task → task.lastCore = none :=
    fun k' hk' => ⟨hbuilt k' hk', hnew k' hk'⟩
  refine Ensures.bind (hboth.mono fun r s₁ hr => ?_)
  obtain ⟨⟨⟨ids, rfl⟩, hsound⟩, hlast⟩ := hr
  cases r with
  | error e => exact fun id hid => (by cases hid)
  | ok task =>
    intro k₁ hk₁
    have hcores : k₁.cores = k.cores := congrArg System.cores hk₁
    have hsame : k₁.candidates = k.candidates := by rw [candidates, candidates, hcores]
    rw [← hlast task rfl, ← hsame] at hc
    rw [← hk₁] at hsound
    have hplace := ensures_place_on hsound.ordinals hsound.settled
      (fun i core hcore => (fresh_of_hand hsound hcore).1) hc
    have hbest : k.Best none c := by
      rw [hsame, hlast task rfl] at hc
      exact h.best_of_chosen hc
    have hlaunch : Ensures k₁.system (launch task) (Settles k) := by
      refine Ensures.bind (hplace.mono fun r s' hr => ?_)
      obtain ⟨rfl, hhome, hin⟩ := hr
      refine Ensures.quiet (quiet_tally _ _) fun _ => Ensures.pure fun id hid => ?_
      cases hid
      exact ⟨c, hbest, hhome, hin⟩
    exact hlaunch k₁ rfl

/-- The operation builds a task and places it. -/
def Operation.spawns : Operation → Bool
  | .spawn _ _ _ | .spawnUser _ _ _ _ => true
  | _ => false

theorem Reachable.spawn_best (h : k.Reachable) (honline : ∃ core ∈ k.cores, core.isOnline = true)
    {operation : Operation} (hspawns : operation.spawns = true) {id : TaskId}
    (hid : (k.step operation).1 = .ok (.task id)) :
    ∃ c, k.Best none c ∧ (k.step operation).2.Houses c id := by
  have hmeets := h.meets (fun _ => steady_weighed) fun c timeslice =>
    ⟨Scheduler.coherent_new c timeslice, Scheduler.weighed_new c timeslice⟩
  have hlaunched : ∀ {x : Action Task}, Ensures k.system x (Built ([·]) k.system []) →
      Yields (System.Meets k.config.mailboxSize fun _ s => s.Coherent ∧ s.Weighed) x
        (Task.IsNew k.config.mailboxSize) →
      Ensures k.system (do launch (← x)) (Settles k) :=
    fun hbuilt hnew => ensures_launch_on h honline hbuilt
      ((hnew _ hmeets).mono fun r s' hr task htask => (hr.2 task htask).lastCore)
  have hanswer : ∀ {x : Action TaskId}, Ensures k.system x (Settles k) →
      Ensures k.system (do return Answer.task (← x)) fun r s' =>
        ∀ id, r = .ok (.task id) → Settles k (.ok id) s' := by
    intro x hx
    refine ensures_answer (hx.mono fun r s' hr id hid => ?_)
    cases r with
    | error e => cases hid
    | ok id' =>
      cases hid
      exact hr
  have hhouses : Settles k (.ok id) (k.step operation).2.system := by
    cases operation with
    | spawn name entry priority =>
      exact hanswer (hlaunched (ensures_buildKernelTask h.sound name entry priority)
        (yields_buildKernelTask name entry priority)) k rfl id hid
    | spawnUser name entry path priority =>
      exact hanswer (hlaunched (ensures_buildUserTask h.sound name entry path priority)
        (yields_buildUserTask name entry path priority)) k rfl id hid
    | _ => cases hspawns
  obtain ⟨c, hbest, hhouses⟩ := hhouses id rfl
  exact ⟨c, hbest, (houses_iff id).2 hhouses⟩

/-- In every kernel that can be reached, each core publishes the load that it has and the task that
is current there. So, while some core is online, a task that is nowhere yet is put on the best core
by these loads, and so is every task that is spawned. -/
theorem placed_by_true_load (h : k.Reachable) :
    (∀ c core, k.core? c = some core →
      core.load = k.loadAt c ∧ core.current = core.scheduler.current) ∧
    ((∃ core ∈ k.cores, core.isOnline = true) →
      (∀ task, (∀ c, ¬ k.IsOn task.id c) → ∃ c, k.Best task.lastCore c ∧
        (k.perform (place task)).1 = .ok (.core c) ∧
          (k.perform (place task)).2.Houses c task.id) ∧
      ∀ operation, operation.spawns = true → ∀ id, (k.step operation).1 = .ok (.task id) →
        ∃ c, k.Best none c ∧ (k.step operation).2.Houses c id) :=
  ⟨fun c core hcore => ⟨h.load_eq hcore, (h.sound.settled c core hcore).current⟩,
    fun honline => ⟨fun _ hnew => h.place_best hnew honline,
      fun _ hspawns _ hid => h.spawn_best honline hspawns hid⟩⟩

/-- A task that ran on the second core before. -/
def wanderer : Task :=
  { Scheduler.plainTask 9 with lastCore := some 1 }

/-- Both cores have the same load, and a task comes back to the second one, where it ran last. Then
task 4 of the first core becomes more urgent, and a third task is spawned. -/
theorem placed_by_true_load_risen :
    [0, 1].map atWork.loadAt = [2, 2] ∧ (∀ c, ¬ atWork.IsOn 9 c) ∧ atWork.Best (some 1) 1 ∧
    (atWork.perform (place wanderer)).1 = .ok (.core 1) ∧
    (atWork.perform (place wanderer)).2.Houses 1 9 ∧
    (∀ c core, (atWork.run [.changePriority 4 .ui]).core? c = some core →
      core.load = (atWork.run [.changePriority 4 .ui]).loadAt c) ∧
    [0, 1].map (atWork.run [.changePriority 4 .ui]).loadAt = [8, 2] ∧
    ∃ c, (atWork.run [.changePriority 4 .ui]).Best none c ∧
      ((atWork.run [.changePriority 4 .ui]).step (.spawn "third" 0x1000 .other)).2.Houses c 6 := by
  have hnew : ∀ c, ¬ atWork.IsOn 9 c := by
    intro c hon
    have hhome : atWork.directory.homeOf 9 = none := by decide +kernel
    rw [(reachable_atWork.conserved.home 9 c).2 hon] at hhome
    cases hhome
  have honline : ∃ core ∈ atWork.cores, core.isOnline = true := by decide +kernel
  obtain ⟨c, hbest, hplaced, hhouses⟩ :=
    ((placed_by_true_load reachable_atWork).2 honline).1 wanderer hnew
  have hsecond : (atWork.perform (place wanderer)).1 = .ok (.core 1) := by decide +kernel
  obtain rfl : 1 = c := by
    rw [hsecond] at hplaced
    cases hplaced
    rfl
  refine ⟨by decide +kernel, hnew, hbest, hplaced, hhouses, ?_⟩
  have hloads := placed_by_true_load (reachable_atWork.run [.changePriority 4 .ui])
  have honline : ∃ core ∈ (atWork.run [.changePriority 4 .ui]).cores, core.isOnline = true := by
    decide +kernel
  refine ⟨fun c core hcore => (hloads.1 c core hcore).1, by decide +kernel, ?_⟩
  exact (hloads.2 honline).2 (.spawn "third" 0x1000 .other) rfl 6 (by decide +kernel)

end Kernel

end Microkernel
