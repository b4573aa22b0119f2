/-
Tasks that end are reclaimed, each of them once.

`k.endings operations` lists the tasks that end in a run, and `k.reclaimings operations` those that
are reclaimed, each with its core. A task is told apart by its kernel stack, since its id is free
for a new task as soon as it ends.

* **`ledger_distinct`**: no two tasks ever get the same stack, whatever was reclaimed before;
* **`perm_step`**: in an operation tasks end and are reclaimed on their own core;
* **`exits_reclaimed`**: who ends is reclaimed once, by the cleanup task of its core, when nobody
  uses its stack, and is not stranded before that.

Design notes: the lists are compared as multisets with their cores, so that one permutation says
that nothing is reclaimed twice, on another core, or without having ended.
-/
import Mathlib.Algebra.Ring.Nat
import Microkernel.Proofs.Kernel.ContextSwitches
import Microkernel.Proofs.Kernel.Courses
import Microkernel.Proofs.Kernel.Ledger
import Microkernel.Proofs.Kernel.Tending

namespace Microkernel

/-! ### Stacks -/

/-- Where the kernel stack of a task ends. -/
def Holdings.top (held : Holdings) : Nat :=
  held.stack.top

/-- No two tasks have the same stack, and none of the stacks will be handed out again. -/
structure Machine.Distinct (past l : List Holdings) (m : Machine) : Prop where
  nodup : ((past ++ l).map Holdings.top).Nodup
  issued : ∀ held ∈ past ++ l, held.top ≤ m.heap.next

namespace Machine.Distinct

variable {past past' l l' : List Holdings} {m m' : Machine}

theorem perm (h : m.Distinct past l) (hperm : (past ++ l).Perm (past' ++ l')) :
    m.Distinct past' l' where
  nodup := (hperm.map Holdings.top).nodup_iff.1 h.nodup
  issued held hheld := h.issued held (hperm.mem_iff.2 hheld)

theorem mono (h : m.Distinct past l) (hgrows : m.heap.next ≤ m'.heap.next) :
    m'.Distinct past l where
  nodup := h.nodup
  issued held hheld := Nat.le_trans (h.issued held hheld) hgrows

theorem tail {held : Holdings} (h : m.Distinct past (held :: l)) : m.Distinct past l := by
  have hsub : (past ++ l).Sublist (past ++ held :: l) :=
    (List.sublist_cons_self held l).append_left past
  exact ⟨h.nodup.sublist (hsub.map _), fun held hheld => h.issued held (hsub.subset hheld)⟩

/-- A task that was built has a stack that nobody had before. -/
theorem entered (h : m.Distinct past l) {launcher : Launcher} {request : TaskRequest}
    {result : Except Error Task × Machine} (hbuilt : Launcher.Outcome launcher request m result) :
    Entered (Machine.Distinct past) l result := by
  have hkept := h.mono hbuilt.grows.heap
  rw [Entered]
  cases hresult : result.1 with
  | error e => exact hkept
  | ok task =>
    obtain ⟨hfresh, hissued⟩ := hbuilt.assets task hresult (.stack task.stack.top)
      (List.mem_cons_self)
    have hnew : ∀ held ∈ past ++ l, held.top ≠ task.holdings.top := fun held hheld he =>
      hfresh (Nat.le_trans (Nat.le_of_eq he.symm) (h.issued held hheld))
    have hperm : (task.holdings :: (past ++ l)).Perm (past ++ task.holdings :: l) :=
      List.perm_middle.symm
    refine ⟨(hperm.map Holdings.top).nodup_iff.1 (List.nodup_cons.2 ⟨fun hin => ?_, h.nodup⟩),
      fun held hheld => ?_⟩
    · obtain ⟨held, hheld, he⟩ := List.mem_map.1 hin
      exact hnew held hheld he
    · rcases List.mem_cons.1 (hperm.mem_iff.2 hheld) with rfl | hheld
      · exact hissued
      · exact hkept.issued held hheld

end Machine.Distinct

/-- Whatever was reclaimed, no stack is handed out a second time. -/
theorem ledger_distinct (past : List Holdings) : Ledger (Machine.Distinct past) where
  perm hperm h := h.perm (hperm.append_left past)
  memory hmemory h := h.mono (Nat.le_of_eq (congrArg (fun m : Memory => m.heap.next) hmemory.symm))
  kernelTask _ _ entry h := h.entered (Launcher.outcome_kernelTask _ entry)
  userTask _ _ entry path h := h.entered (Launcher.outcome_userTask _ entry path)
  release task h := h.tail.mono (task.grows_release _).heap

namespace Kernel

variable {k k' : Kernel}

/-! ### What ends and what is reclaimed -/

/-- The tasks that end in an operation, with the core that they ran on. -/
def endedBy (k : Kernel) (operation : Operation) : List (CoreId × Holdings) :=
  match k.ends operation with
  | some id =>
    (k.liveTasks.find? fun t => t.id = id).toList.map fun t => (k.machine.currentCore, t.holdings)
  | none => []

/-- The tasks that an operation reclaims, with their core: as many of those that wait there as it
answers. -/
def reclaimedBy (k : Kernel) : Operation → List (CoreId × Holdings)
  | .runCleanup =>
    match (k.step .runCleanup).1, k.localCore? with
    | .ok (.count n), some core =>
      (core.remains.take n).map fun held => (k.machine.currentCore, held)
    | _, _ => []
  | _ => []

/-- The ids that the exits of a run answer. -/
def exits (k : Kernel) (operations : List Operation) : List TaskId :=
  k.gathered (fun k operation => (k.ends operation).toList) operations

/-- The tasks that end in a run. -/
def endings (k : Kernel) (operations : List Operation) : List (CoreId × Holdings) :=
  k.gathered endedBy operations

/-- The tasks that are reclaimed in a run. -/
def reclaimings (k : Kernel) (operations : List Operation) : List (CoreId × Holdings) :=
  k.gathered reclaimedBy operations

/-- The tasks that wait to be reclaimed, with their core. -/
def unreclaimed (k : Kernel) : List (CoreId × Holdings) :=
  k.cores.flatMap fun core => core.remains.map fun held => (core.id, held)

theorem unreclaimed_eq (hk : k.Numbered) :
    k.unreclaimed = (k.system.remains.mapIdx fun c l => l.map fun held => (c, held)).flatten := by
  rw [unreclaimed, List.flatMap_def, System.remains]
  refine congrArg List.flatten (List.ext_getElem? fun c => ?_)
  rw [List.getElem?_map, List.getElem?_mapIdx, List.getElem?_map]
  have hnumbered := hk c
  rw [core?] at hnumbered
  show k.cores[c]?.map _ = (k.cores[c]?.map _).map _
  cases hcore : k.cores[c]? with
  | none => rfl
  | some core =>
    rw [Option.map_some, Option.map_some, Option.map_some, hnumbered core hcore]

theorem held_unreclaimed (k : Kernel) :
    k.unreclaimed.map Prod.snd = k.system.remains.flatten := by
  rw [unreclaimed, List.map_flatMap, System.remains, List.flatMap_def]
  refine congrArg List.flatten (List.map_congr_left fun core _ => ?_)
  rw [List.map_map]
  exact List.map_id _

/-! ### The end of a task -/

/-- A live task is found by its id. -/
theorem find?_liveTasks (h : k.system.Sound []) {held : Holdings}
    (hin : held ∈ k.system.population) :
    ∃ t, (k.liveTasks.find? fun t => decide (t.id = held.id)) = some t ∧ t.holdings = held := by
  rw [← k.holdings_liveTasks] at hin
  obtain ⟨t, ht, rfl⟩ := List.mem_map.1 hin
  have hnodup : (k.liveTasks.map Task.id).Nodup := by
    rw [map_id_liveTasks h]
    exact h.ids.nodup
  -- the ids of live tasks are different, so the one that is found is the one that is meant
  obtain ⟨t', ht'⟩ : ∃ t', (k.liveTasks.find? fun t' => decide (t'.id = t.id)) = some t' :=
    Option.isSome_iff_exists.1 (List.find?_isSome.2 ⟨t, ht, decide_eq_true rfl⟩)
  have hid : t'.id = t.id := by simpa using List.find?_some ht'
  obtain rfl := List.inj_on_of_nodup_map hnodup (List.mem_of_find?_eq_some ht') ht hid
  exact ⟨t', ht', rfl⟩

/-- A task that ends was on the core that runs. -/
theorem endedBy_of_loses (h : k.system.Sound []) {core core' : Core} {gone : Holdings}
    (hcore : k.localCore? = some core) (hloses : core.Loses gone core')
    (hends : k.ends .exit = some gone.id) :
    k.endedBy .exit = [(k.machine.currentCore, gone)] := by
  have hin : gone ∈ k.system.population := by
    refine List.mem_append_left _ (List.mem_flatMap.2 ⟨core, List.mem_of_getElem? hcore, ?_⟩)
    exact hloses.live.subset List.mem_cons_self
  obtain ⟨t, ht, rfl⟩ := find?_liveTasks h hin
  rw [endedBy, hends]
  dsimp only
  rw [ht]
  rfl

theorem endedBy_of_none {operation : Operation} (hends : k.ends operation = none) :
    k.endedBy operation = [] := by
  rw [endedBy, hends]

/-! ### One operation -/

theorem reclaimedBy_eq_nil {operation : Operation} (hcleanup : operation ≠ .runCleanup) :
    k.reclaimedBy operation = [] := by
  cases operation <;> first | rfl | exact absurd rfl hcleanup

/-- Who calls for the reclaiming of tasks gets all that wait on the core, or nothing. -/
theorem reclaimedBy_of_ok {core : Core} (hcore : k.localCore? = some core)
    (h : (k.step .runCleanup).1 = .ok (.count core.scheduler.exited.length)) :
    k.reclaimedBy .runCleanup = core.remains.map fun held => (k.machine.currentCore, held) := by
  have hlength : core.scheduler.exited.length = core.remains.length := (List.length_map _).symm
  rw [reclaimedBy, h, hcore]
  dsimp only
  rw [hlength, List.take_length]

theorem reclaimedBy_of_error {e : Stop} (h : (k.step .runCleanup).1 = .error e) :
    k.reclaimedBy .runCleanup = [] := by
  rw [reclaimedBy, h]

theorem unreclaimed_of_remains (hk : k.Numbered) (hk' : k'.Numbered)
    (h : k'.system.remains = k.system.remains) : k'.unreclaimed = k.unreclaimed := by
  rw [unreclaimed_eq hk, unreclaimed_eq hk', h]

/-- What waits on the core that runs is part of what waits on all cores. -/
theorem perm_unreclaimed {core core' : Core} {gone new : List Holdings} (hk : k.Numbered)
    (hk' : k'.Numbered) (hcore : k.localCore? = some core)
    (hcores : k'.cores = k.cores.set k.machine.currentCore core')
    (h : (gone ++ core'.remains).Perm (new ++ core.remains)) :
    ((gone.map fun held => (k.machine.currentCore, held)) ++ k'.unreclaimed).Perm
      ((new.map fun held => (k.machine.currentCore, held)) ++ k.unreclaimed) := by
  have hcore : k.core? k.machine.currentCore = some core := hcore
  have hid : core.id = k.machine.currentCore := hk _ core hcore
  have hid' : core'.id = k.machine.currentCore := by
    refine hk' _ core' ?_
    rw [core?_set hcore hcores, if_pos rfl]
  rw [unreclaimed, unreclaimed, hcores]
  refine System.perm_flatMap_set hcore
    (fun core => core.remains.map fun held => (core.id, held)) ?_
  rw [hid, hid', ← List.map_append, ← List.map_append]
  exact h.map _

/-- Only the end of a task and the reclaiming of tasks change what waits. -/
theorem unreclaimed_step (h : k.system.Sound []) {operation : Operation}
    (hexit : operation ≠ .exit) (hcleanup : operation ≠ .runCleanup) :
    (k.step operation).2.unreclaimed = k.unreclaimed := by
  -- the ledger does not matter, so it may be any
  have hledger : Ledger fun _ _ => True := by
    refine ⟨fun _ _ => trivial, fun _ _ => trivial, fun l r e _ => ?_, fun l r e p _ => ?_,
      fun _ _ => trivial⟩
    all_goals
      rw [Entered]
      split <;> trivial
  have hlisted : k.Listed (fun _ _ => True) k.system.remains [] := ⟨h, rfl, trivial⟩
  exact unreclaimed_of_remains h.ordinals (preserves_step h operation).sound.ordinals
    (hlisted.step hledger hexit hcleanup).remains

/-- In an operation tasks end and are reclaimed on their own core. -/
theorem perm_step (h : k.system.Sound []) (operation : Operation) :
    (k.unreclaimed ++ k.endedBy operation).Perm
      (k.reclaimedBy operation ++ (k.step operation).2.unreclaimed) := by
  have hk : k.Numbered := h.ordinals
  have hk' : (k.step operation).2.Numbered := (preserves_step h operation).sound.ordinals
  by_cases hexit : operation = .exit
  · subst hexit
    have hexited := exited_step h
    rw [reclaimedBy_eq_nil (by simp)]
    generalize hends : k.ends .exit = id at hexited
    cases hexited with
    | @ended _ core core' gone hcore hsystem hloses =>
      have hperm : ([] ++ core'.remains).Perm ([gone] ++ core.remains) := by
        rw [hloses.remains]
        exact List.perm_append_singleton _ _
      rw [endedBy_of_loses h hcore hloses hends]
      exact List.perm_append_comm.trans
        (perm_unreclaimed hk hk' hcore (congrArg System.cores hsystem) hperm).symm
    | refused hshifts =>
      rw [endedBy_of_none hends, List.append_nil, unreclaimed_of_remains hk hk' hshifts.remains]
      exact .refl _
  by_cases hcleanup : operation = .runCleanup
  · subst hcleanup
    rw [endedBy_of_none rfl, List.append_nil]
    have hcleaned := cleanedUp_step h
    generalize hr : (k.step .runCleanup).1 = r at hcleaned
    cases hcleaned with
    | @reclaimed _ core core' _ hcore hcores _ hremains =>
      have hperm : (core.remains ++ core'.remains).Perm ([] ++ core.remains) := by
        rw [hremains, List.append_nil]
        exact .refl _
      rw [reclaimedBy_of_ok hcore hr]
      exact (perm_unreclaimed hk hk' hcore hcores hperm).symm
    | refused hshifts =>
      rw [reclaimedBy_of_error hr, unreclaimed_of_remains hk hk' hshifts.remains]
      exact .refl _
  · rw [endedBy_of_none (ends_eq_none hexit), reclaimedBy_eq_nil hcleanup, List.append_nil,
      unreclaimed_step h hexit hcleanup]
    exact .refl _

theorem ids_endedBy (h : k.system.Sound []) (operation : Operation) :
    (k.endedBy operation).map (fun gone => gone.2.id) = (k.ends operation).toList := by
  by_cases hexit : operation = .exit
  · subst hexit
    have hexited := exited_step h
    generalize hends : k.ends .exit = id at hexited
    cases hexited with
    | ended hcore _ hloses =>
      rw [endedBy_of_loses h hcore hloses hends]
      rfl
    | refused =>
      rw [endedBy_of_none hends]
      rfl
  · rw [endedBy_of_none (ends_eq_none hexit), ends_eq_none hexit]
    rfl

/-- The tasks that are reclaimed are counted. -/
theorem reaped_step (h : k.system.Sound []) (operation : Operation) :
    (k.step operation).2.metrics.tasksReaped =
      k.metrics.tasksReaped + (k.reclaimedBy operation).length := by
  by_cases hcleanup : operation = .runCleanup
  · subst hcleanup
    have hcleaned := cleanedUp_step h
    generalize hr : (k.step .runCleanup).1 = r at hcleaned
    cases hcleaned with
    | reclaimed hcore _ _ _ _ _ _ hreaped =>
      rw [reclaimedBy_of_ok hcore hr, List.length_map, Core.remains, List.length_map]
      exact hreaped
    | refused _ hbooks =>
      rw [reclaimedBy_of_error hr]
      exact congrArg Books.reaped hbooks
  · have hspares : operation.Spares Books.reaped := by
      cases operation <;>
        first | trivial | exact fun _ _ => rfl | exact fun _ _ _ => rfl
    rw [reclaimedBy_eq_nil hcleanup]
    exact books_step h.ordinals hspares

/-- No task gets the stack of one that is reclaimed. -/
theorem distinct_step {past : List Holdings} (h : k.system.Sound [])
    (hk : k.machine.Distinct past k.system.existing) (operation : Operation) :
    (k.step operation).2.machine.Distinct (past ++ (k.reclaimedBy operation).map Prod.snd)
      (k.step operation).2.system.existing := by
  by_cases hcleanup : operation = .runCleanup
  · subst hcleanup
    have hkept := ledger_step (ledger_distinct past) h hk .runCleanup
    have hcleaned := cleanedUp_step h
    generalize hr : (k.step .runCleanup).1 = r at hcleaned
    generalize (k.step .runCleanup).2 = k' at hcleaned hkept ⊢
    cases hcleaned with
    | @reclaimed _ core core' m hcore hcores hlive hremains hdirectory hmemory hmachine =>
      have hgiven : (k.reclaimedBy .runCleanup).map Prod.snd = core.remains := by
        rw [reclaimedBy_of_ok hcore hr, List.map_map]
        exact List.map_id _
      have hgrows := (Task.grows_releaseAll core.scheduler.exited m).heap
      have hheap : m.heap = k.machine.heap := congrArg Memory.heap hmemory
      rw [hheap] at hgrows
      have hperm : (past ++ k.system.existing).Perm
          ((past ++ core.remains) ++ k'.system.existing) := by
        rw [List.append_assoc]
        exact (existing_reclaimed hcore hcores hdirectory hlive hremains).symm.append_left past
      rw [hgiven, hmachine]
      exact (hk.perm hperm).mono hgrows
    | refused =>
      rw [reclaimedBy_of_error hr, List.map_nil, List.append_nil]
      exact hkept
  · rw [reclaimedBy_eq_nil hcleanup, List.map_nil, List.append_nil]
    exact ledger_step (ledger_distinct past) h hk operation

/-- Nothing waits on a core where tasks were reclaimed. -/
theorem returned_step (h : k.system.Sound []) {n : Nat}
    (hn : (k.step .runCleanup).1 = .ok (.count n)) :
    (k.reclaimedBy .runCleanup).length = n ∧
      ∀ gone ∈ (k.step .runCleanup).2.unreclaimed, gone.1 ≠ k.machine.currentCore := by
  have hnumbered := (preserves_step h .runCleanup).sound.ordinals
  have hcleaned := cleanedUp_step h
  generalize hr : (k.step .runCleanup).1 = r at hcleaned
  generalize (k.step .runCleanup).2 = k' at hcleaned hnumbered ⊢
  cases hcleaned with
  | @reclaimed _ core core' _ hcore hcores _ hremains =>
    refine ⟨?_, fun gone hgone he => ?_⟩
    · obtain rfl : core.scheduler.exited.length = n := by simpa using hr.symm.trans hn
      rw [reclaimedBy_of_ok hcore hr, List.length_map, Core.remains, List.length_map]
    · obtain ⟨other, hother, hgone⟩ := List.mem_flatMap.1 hgone
      obtain ⟨held, hheld, rfl⟩ := List.mem_map.1 hgone
      obtain ⟨c, hc⟩ := List.getElem?_of_mem hother
      obtain rfl : other.id = c := hnumbered c other hc
      have hget : k'.core? k.machine.currentCore = some core' := by
        rw [core?_set hcore hcores, if_pos rfl]
      have he : other.id = k.machine.currentCore := he
      rw [he] at hc
      obtain rfl : other = core' := Option.some.inj (hc.symm.trans hget)
      rw [hremains] at hheld
      cases hheld
  | refused => cases hr.symm.trans hn

/-! ### Runs -/

theorem perm_run (h : k.Reachable) (operations : List Operation) :
    (k.unreclaimed ++ k.endings operations).Perm
      (k.reclaimings operations ++ (k.run operations).unreclaimed) := by
  induction operations generalizing k with
  | nil => exact .of_eq (List.append_nil _)
  | cons operation rest ih =>
    rw [h.run_cons, endings, reclaimings, gathered, gathered, ← List.append_assoc]
    calc List.Perm _ ((k.reclaimedBy operation ++ (k.step operation).2.unreclaimed) ++
            (k.step operation).2.endings rest) := (perm_step h.sound operation).append_right _
      List.Perm _ (k.reclaimedBy operation ++ ((k.step operation).2.reclaimings rest ++
            ((k.step operation).2.run rest).unreclaimed)) := by
        rw [List.append_assoc]
        exact (ih (h.step operation)).append_left _
      List.Perm _ _ := .of_eq (List.append_assoc _ _ _).symm

theorem ids_endings (h : k.Reachable) (operations : List Operation) :
    (k.endings operations).map (fun gone => gone.2.id) = k.exits operations := by
  induction operations generalizing k with
  | nil => rfl
  | cons operation rest ih =>
    rw [endings, exits, gathered, gathered, List.map_append, ids_endedBy h.sound]
    exact congrArg _ (ih (h.step operation))

theorem reaped_run (h : k.Reachable) (operations : List Operation) :
    (k.run operations).metrics.tasksReaped =
      k.metrics.tasksReaped + (k.reclaimings operations).length := by
  induction operations generalizing k with
  | nil => rfl
  | cons operation rest ih =>
    rw [h.run_cons, ih (h.step operation), reaped_step h.sound, reclaimings, reclaimings, gathered,
      List.length_append, Nat.add_assoc]

/-- In the induction `past` grows by what each operation reclaims. -/
theorem distinct_run {past : List Holdings} (h : k.Reachable)
    (hk : k.machine.Distinct past k.system.existing) (operations : List Operation) :
    (k.run operations).machine.Distinct (past ++ (k.reclaimings operations).map Prod.snd)
      (k.run operations).system.existing := by
  induction operations generalizing k past with
  | nil =>
    rw [reclaimings, gathered, List.map_nil, List.append_nil]
    exact hk
  | cons operation rest ih =>
    have hrest := ih (h.step operation) (distinct_step h.sound hk operation)
    rw [List.append_assoc, ← List.map_append] at hrest
    rw [h.run_cons]
    exact hrest

theorem length_unreclaimed (k : Kernel) :
    k.unreclaimed.length = (k.cores.map fun core => core.scheduler.exited.length).sum := by
  rw [unreclaimed, List.length_flatMap]
  refine congrArg List.sum (List.map_congr_left fun core _ => ?_)
  rw [List.length_map, Core.remains, List.length_map]

/-- Nobody uses the stack of a task. -/
structure Left (k : Kernel) (gone : Holdings) : Prop where
  live : ∀ t ∈ k.liveTasks, t.stack.top ≠ gone.top
  loaded : ∀ c core, k.core? c = some core →
    (k.switchesOn c).getLast?.map ContextSwitch.stackTop ≠ some gone.top
  /-- If its id is queued again, it is that of another task. -/
  queued : ∀ c core, k.core? c = some core → ∀ id, core.scheduler.current = some id ∨
    id ∈ core.scheduler.ready.toList ∨ id ∈ core.scheduler.blocked.toList →
      ∃ t, core.scheduler.task? id = some t ∧ t.stack.top ≠ gone.top

/-- A stack that no live task has is used by nobody. -/
theorem left_of_live (h : k.system.Sound []) {loaded : List (CoreId × Nat)}
    (hwired : k.AllWired loaded) {gone : Holdings}
    (hlive : ∀ t ∈ k.liveTasks, t.stack.top ≠ gone.top) : k.Left gone := by
  have hother : ∀ c core, k.core? c = some core → ∀ id t, core.scheduler.task? id = some t →
      t.stack.top ≠ gone.top := by
    intro c core hcore id t ht
    have hin := List.mem_of_getElem? hcore
    refine hlive t (List.mem_append_left _ (List.mem_flatMap.2 ⟨core, hin, ?_⟩))
    exact List.mem_append_left _ (Table.mem_values.2 ⟨id, ht⟩)
  refine ⟨hlive, fun c core hcore => ?_, fun c core hcore id hid => ?_⟩
  all_goals have hco := (h.settled c core hcore).sound.coherent
  · have hchain := hwired c core hcore
    cases hcurrent : core.scheduler.current with
    | none =>
      rw [hchain.start hcurrent]
      exact nofun
    | some id =>
      obtain ⟨t, ht⟩ := Option.isSome_iff_exists.1 (hco.contains_current hcurrent)
      have ht : core.scheduler.task? id = some t := ht
      rw [(hchain.current id t hcurrent ht).1]
      exact fun he => hother c core hcore id t ht (Option.some.inj he)
  · have hcontains : core.scheduler.contains id = true := by
      rcases hid with hid | hid | hid
      · exact hco.contains_current hid
      · exact hco.queued.contains_of_ready hid
      · exact (hco.queued.live id).2 (.inr (.inl hid))
    obtain ⟨t, ht⟩ := Option.isSome_iff_exists.1 hcontains
    exact ⟨t, ht, hother c core hcore id t ht⟩

/-- What becomes of the tasks that end in a run. -/
structure Reclaims (k : Kernel) (operations : List Operation) : Prop where
  /-- Who has ended was reclaimed on its core, or waits there. -/
  accounted : (k.endings operations).Perm
    (k.reclaimings operations ++ (k.run operations).unreclaimed)
  /-- They are all different tasks, so that nobody is reclaimed twice. -/
  distinct : ((k.endings operations).map fun gone => gone.2.top).Nodup
  named : (k.endings operations).map (fun gone => gone.2.id) = k.exits operations
  counted : (k.run operations).metrics.tasksReaped +
    ((k.run operations).cores.map fun core => core.scheduler.exited.length).sum =
      (k.exits operations).length
  left : ∀ gone ∈ k.endings operations, (k.run operations).Left gone.2
  /-- Who reclaims tasks gets all that wait on the core. -/
  returned : ∀ n, ((k.run operations).step .runCleanup).1 = .ok (.count n) →
    ((k.run operations).reclaimedBy .runCleanup).length = n ∧
      ∀ gone ∈ ((k.run operations).step .runCleanup).2.unreclaimed,
        gone.1 ≠ (k.run operations).machine.currentCore
  tended : ∀ core ∈ (k.run operations).cores, core.isOnline = true → core.scheduler.exited ≠ [] →
    ∃ id, core.scheduler.cleanup = some id ∧ id ∈ core.scheduler.ready.toList

/-- A core that is online has an idle task, and so a cleanup task. -/
theorem Tended.ready (h : k.Tended) (hsound : k.system.Sound []) (hordered : k.Ordered [])
    {core : Core} (hin : core ∈ k.cores) (honline : core.isOnline = true)
    (hsome : core.scheduler.exited ≠ []) :
    ∃ id, core.scheduler.cleanup = some id ∧ id ∈ core.scheduler.ready.toList := by
  obtain ⟨c, hc⟩ := List.getElem?_of_mem hin
  obtain ⟨-, happointed, hawake⟩ := h c core hc (hsound.settled c core hc).unfaulted
  have hidle : core.scheduler.idle.isSome = true := by
    refine (hordered.staffed c core hc).resolve_right fun hoffline => ?_
    rw [honline] at hoffline
    cases hoffline.1
  obtain ⟨id, hid⟩ := Option.isSome_iff_exists.1 (happointed hidle)
  exact ⟨id, hid, hawake hsome id hid⟩

theorem endings_accounted {config : Config} {apics : List Nat} (h : Kernel.new config apics = .ok k)
    (operations : List Operation) : (k.endings operations).Perm
      (k.reclaimings operations ++ (k.run operations).unreclaimed) := by
  obtain ⟨-, -, hcores⟩ := parts_of_new h
  have hnone : k.unreclaimed = [] := by
    refine List.flatMap_eq_nil_iff.2 fun core hin => ?_
    obtain ⟨c, hc⟩ := List.getElem?_of_mem hin
    obtain ⟨apic, rfl⟩ := hcores c core hc
    rfl
  have hperm := perm_run (Reachable.new h) operations
  rw [hnone] at hperm
  exact hperm

/-- The tasks that have ended and the live ones have different stacks. -/
theorem endings_distinct {config : Config} {apics : List Nat} (h : Kernel.new config apics = .ok k)
    (operations : List Operation) :
    ((k.endings operations).map fun gone => gone.2.top).Nodup ∧
      ∀ gone ∈ k.endings operations, ∀ t ∈ (k.run operations).liveTasks,
        t.stack.top ≠ gone.2.top := by
  obtain ⟨hexisting, hmachine⟩ := existing_new h
  have hnew : k.machine.Distinct [] k.system.existing := by
    rw [hexisting]
    exact ⟨List.nodup_nil, nofun⟩
  have hnodup := (distinct_run (Reachable.new h) hnew operations).nodup
  have hheld := (endings_accounted h operations).map Prod.snd
  rw [List.map_append, held_unreclaimed] at hheld
  -- the live ones are put last
  have hperm : ((k.reclaimings operations).map Prod.snd ++ (k.run operations).system.existing).Perm
      ((k.endings operations).map Prod.snd ++ (k.run operations).liveTasks.map Task.holdings) := by
    rw [holdings_liveTasks, System.existing]
    calc List.Perm _ ((k.reclaimings operations).map Prod.snd ++
            ((k.run operations).system.remains.flatten ++ (k.run operations).system.population)) :=
          List.perm_append_comm.append_left _
      List.Perm _ _ := by
        rw [← List.append_assoc]
        exact hheld.symm.append_right _
  rw [List.nil_append] at hnodup
  have hnodup := (hperm.map Holdings.top).nodup_iff.1 hnodup
  rw [List.map_append, List.map_map, List.map_map] at hnodup
  obtain ⟨hended, -, hapart⟩ := List.nodup_append.1 hnodup
  refine ⟨hended, fun gone hgone t ht he => ?_⟩
  exact hapart _ (List.mem_map_of_mem hgone) _ (List.mem_map_of_mem ht) he.symm

/-- Every task that ends is reclaimed once: until then it waits on its core, where the cleanup task
is ready to reclaim it, and nobody uses its stack any more. The ids of the tasks that wait may
belong to others already. -/
theorem exits_reclaimed {config : Config} {apics : List Nat} (h : Kernel.new config apics = .ok k)
    (operations : List Operation) (hattends : k.Attends operations) : k.Reclaims operations := by
  have hreachable := Reachable.new h
  have hsound := (hreachable.run operations).sound
  obtain ⟨⟨loaded, hchained⟩, hordered⟩ := follows_run (ordered_new h) operations
  have hwired := hchained.allWired (allWired_new h)
  have htended := hreachable.tended_run (tended_new h) hattends
  have haccounted := endings_accounted h operations
  obtain ⟨hdistinct, hapart⟩ := endings_distinct h operations
  have hnamed := ids_endings hreachable operations
  refine ⟨haccounted, hdistinct, hnamed, ?_,
    fun gone hgone => left_of_live hsound hwired (hapart gone hgone),
    fun n hn => returned_step hsound hn,
    fun core hin honline hsome => htended.ready hsound hordered hin honline hsome⟩
  have hlength := haccounted.length_eq
  rw [List.length_append, length_unreclaimed] at hlength
  have hreaped := reaped_run hreachable operations
  have hzero : k.metrics.tasksReaped = 0 := by
    rw [Kernel.new] at h
    split at h
    · cases h
    · cases h
      rfl
  rw [← hnamed, List.length_map, hlength, hreaped, hzero, Nat.zero_add]

/-- Two tasks with the same id end. The first one is not reclaimed yet when its id is used again,
and the second one ends while the cleanup task is interrupted between reclaiming and being parked.
-/
def sameId : List Operation :=
  opening ++ [.turnTo 0, .spawn "first" 0x1000 .other, .tick, .exit,
    .spawn "second" 0x2000 .other, .runCleanup, .tick, .exit, .parkCleanup, .runCleanup,
    .parkCleanup]

theorem exits_reclaimed_sameId :
    Kernel.new { Config.withCores 2 with mailboxSize := 20 } [0, 1] = .ok pair ∧
      pair.Attends sameId ∧ pair.Reclaims sameId ∧
      (pair.reclaimings sameId).map (fun gone => (gone.1, gone.2.id)) = [(0, 4), (0, 4)] :=
  have hattends : pair.Attends sameId := by decide +kernel
  ⟨new_pair, hattends, exits_reclaimed new_pair sameId hattends, by decide +kernel⟩

end Kernel

end Microkernel
