/-
What holds in every kernel that can be reached.

* **`tasks_conserved`**: the ids in use are those of the live tasks, every live task is in one
  place, and the directory knows its core (`Conserved`);
* **`never_halts`**: no operation halts a core or finds its records broken, and every inbox and
  every mailbox holds what it should (`Intact`).

Design notes: the live tasks are listed place by place, so that a list without repetitions says
that no task is in two places. Both theorems are about the state after any operations on any
cores, whatever allocations fail meanwhile.
-/
import Microkernel.Proofs.Kernel.Runs

namespace Microkernel

namespace Kernel

variable {k : Kernel}

/-! ### The live tasks -/

/-- The live tasks: those in the scheduler and in the inbox of each core, and the parked ones. -/
def liveTasks (k : Kernel) : List Task :=
  (k.cores.flatMap fun core => core.scheduler.tasks.values ++ core.inbox.tasks) ++
    k.directory.parked

/-- The task is in the scheduler or in the inbox of the core. -/
def IsOn (k : Kernel) (id : TaskId) (c : CoreId) : Prop :=
  ∃ core, k.core? c = some core ∧
    (core.scheduler.contains id = true ∨ ∃ t ∈ core.inbox.tasks, t.id = id)

/-- Ids, homes and places of tasks agree. -/
structure Conserved (k : Kernel) : Prop where
  /-- No task is in two places, and no two tasks share an id. -/
  nodup : (k.liveTasks.map Task.id).Nodup
  /-- The ids in use are those of the live tasks. -/
  allocated : ∀ id, k.directory.ids.isAllocated id = true ↔ id ∈ k.liveTasks.map Task.id
  count : k.directory.liveIds = k.liveTasks.length
  /-- A task is under its own id in the scheduler. -/
  named : ∀ core ∈ k.cores, ∀ id t, core.scheduler.task? id = some t → t.id = id
  home : ∀ id c, k.directory.homeOf id = some c ↔ k.IsOn id c
  online : ∀ id c, k.directory.homeOf id = some c →
    ∃ core, k.core? c = some core ∧ core.isOnline = true
  parked : k.directory.parked ≠ [] → ∀ core ∈ k.cores, core.isOnline = false

theorem isOn_iff (id : TaskId) (c : CoreId) :
    k.IsOn id c ↔ ∃ core, k.system.core? c = some core ∧ id ∈ core.members := by
  refine exists_congr fun core => and_congr_right fun _ => ?_
  rw [Core.mem_members_iff, List.mem_map]

theorem named_of_sound (h : k.system.Sound []) {core : Core} (hcore : core ∈ k.cores) (id : TaskId)
    (t : Task) (ht : core.scheduler.task? id = some t) : t.id = id := by
  obtain ⟨i, hi⟩ := List.getElem?_of_mem hcore
  exact (h.settled i core hi).sound.coherent.queued.named id t ht

theorem map_id_liveTasks (h : k.system.Sound []) : k.liveTasks.map Task.id = k.system.liveIds := by
  rw [liveTasks, List.map_append, List.map_flatMap, System.liveIds, System.residents,
    List.flatMap_def, List.flatMap_def]
  refine congrArg (fun members => List.flatten members ++ _) ?_
  refine List.map_congr_left fun core hcore => ?_
  rw [List.map_append, Table.map_values (named_of_sound h hcore)]
  rfl

theorem Reachable.conserved (h : k.Reachable) : k.Conserved := by
  have hsound := h.sound
  have hlive := map_id_liveTasks hsound
  have hids : k.directory.ids.Holds (k.liveTasks.map Task.id) := hlive ▸ hsound.ids
  have hhome : ∀ id c, k.directory.homeOf id = some c ↔ k.IsOn id c :=
    fun id c => (hsound.homes id c).trans (isOn_iff id c).symm
  refine ⟨hids.nodup, hids.mem_iff, ?_, fun core hcore => named_of_sound hsound hcore, hhome,
    fun id c hid => ?_, fun hne core hcore => ?_⟩
  · rw [← List.length_map (f := Task.id)]
    exact hids.allocated
  · obtain ⟨core, hcore, hin⟩ := (hsound.homes id c).1 hid
    exact ⟨core, hcore, hsound.isOnline_of_mem hcore hin⟩
  · obtain ⟨i, hi⟩ := List.getElem?_of_mem hcore
    exact hsound.parked hne i core hi

/-- In every kernel that can be reached, the ids in use are those of the live tasks, and every task is
in one place. -/
theorem tasks_conserved (h : k.Reachable) : k.Conserved :=
  h.conserved

theorem tasks_conserved_atWork :
    atWork.Conserved ∧ atWork.liveTasks.map Task.id = [0, 1, 4, 2, 3, 5] :=
  ⟨tasks_conserved reachable_atWork, by decide +kernel⟩

/-! ### Nothing breaks -/

/-- No core has stopped, and inboxes and mailboxes can be read. -/
structure Intact (k : Kernel) : Prop where
  unfaulted : ∀ core ∈ k.cores, core.flags.faulted = false
  coherent : ∀ core ∈ k.cores, core.scheduler.Coherent
  /-- The tasks in an inbox are new to the core, and differ from each other. -/
  arriving : ∀ core ∈ k.cores, (core.inbox.tasks.map Task.id).Nodup ∧
    ∀ t ∈ core.inbox.tasks, core.scheduler.contains t.id = false
  /-- Every mailbox is a ring of frames, each of which is a message. -/
  readable : ∀ t ∈ k.liveTasks, t.mailbox.Sound

theorem intact_of_sound (h : k.system.Sound []) : k.Intact := by
  have hsettled : ∀ core ∈ k.cores, core.Settled k.config.mailboxSize := by
    intro core hcore
    obtain ⟨i, hi⟩ := List.getElem?_of_mem hcore
    exact h.settled i core hi
  refine ⟨fun core hcore => (hsettled core hcore).unfaulted,
    fun core hcore => (hsettled core hcore).sound.coherent,
    fun core hcore => ⟨(hsettled core hcore).sound.distinct, (hsettled core hcore).sound.fresh⟩,
    fun t ht => ?_⟩
  rcases List.mem_append.1 ht with ht | ht
  · obtain ⟨core, hcore, ht⟩ := List.mem_flatMap.1 ht
    have hsound := (hsettled core hcore).sound
    rcases List.mem_append.1 ht with ht | ht
    · obtain ⟨id, hid⟩ := Table.mem_values.1 ht
      exact (hsound.mailboxes id t hid).1
    · exact (hsound.arriving t ht).1
  · rw [h.built t ht]
    exact Mailbox.sound_new _

/-- In every kernel that can be reached, no operation halts a core or finds a record broken, so that
no run is cut short. -/
theorem never_halts (h : k.Reachable) :
    k.Intact ∧ ∀ operation, (∀ core, (k.step operation).1 ≠ .error (.halted core)) ∧
      (k.step operation).1 ≠ .error (.failed .invalidQueueState) ∧
      ∀ rest, k.run (operation :: rest) = (k.step operation).2.run rest := by
  refine ⟨intact_of_sound h.sound, fun operation => ?_⟩
  have hharmless := (h.preserves operation).harmless
  refine ⟨fun core he => ?_, fun he => ?_, h.run_cons operation⟩
  · rw [he] at hharmless
    exact hharmless
  · rw [he] at hharmless
    cases hharmless

theorem never_halts_atWork :
    atWork.Intact ∧ (atWork.step .exit).1 ≠ .error (.failed .invalidQueueState) :=
  have h := never_halts reachable_atWork
  ⟨h.1, (h.2 .exit).2.1⟩

end Kernel

end Microkernel
