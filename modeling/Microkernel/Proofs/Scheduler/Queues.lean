/-
The queues of a scheduler.

`s.Queued ring waiting` says that the ready ring and the blocked queue of `s` are the given
sequences, and that every live task is in exactly one of the two or is the idle task. An
operation that only chooses and moves tasks (`Rearranged`) leaves alone what the tasks own.

* **`Queued.makeReady`**, **`Queued.unblockWakeable`**: tasks move to the end of the ready ring;
* **`Queued.suspend`**: the task that blocks moves to its place in the blocked queue;
* **`Queued.switchToNext`**: after a choice the current task is ready or idle, and the switch
  is one from the task that was current to the task that is.

Design notes: `Queued` says nothing about the current task, since it is wrong about it between
the removal of the current task from the ready ring and the choice of the next one.
`Scheduler.Coherent` adds it back.
-/
import Microkernel.Proofs.TaskQueue
import Microkernel.Scheduler.Basic

namespace Microkernel

/-- What scheduling leaves alone of a task. -/
def Task.fixed (t : Task) : Task :=
  { t with state := .ready, priority := .idle, wakeTime := 0, lastCore := none, waitSince := none }

namespace Scheduler

variable {s : Scheduler}

/-! ### Changes that move no belongings -/

/-- `s'` has the tasks of `s`, with everything that they own. -/
structure Rearranged (s s' : Scheduler) : Prop where
  fixed : ∀ id, (s'.task? id).map Task.fixed = (s.task? id).map Task.fixed
  exited : s'.exited = s.exited
  idle : s'.idle = s.idle
  cleanup : s'.cleanup = s.cleanup
  core : s'.core = s.core

namespace Rearranged

theorem refl (s : Scheduler) : Rearranged s s :=
  ⟨fun _ => rfl, rfl, rfl, rfl, rfl⟩

theorem trans {s s' s'' : Scheduler} (h : Rearranged s s') (h' : Rearranged s' s'') :
    Rearranged s s'' where
  fixed id := (h'.fixed id).trans (h.fixed id)
  exited := h'.exited.trans h.exited
  idle := h'.idle.trans h.idle
  cleanup := h'.cleanup.trans h.cleanup
  core := h'.core.trans h.core

theorem task?_of_task? {s s' : Scheduler} (h : Rearranged s s') {id : TaskId} {t : Task}
    (ht : s.task? id = some t) : ∃ t', s'.task? id = some t' ∧ t'.fixed = t.fixed := by
  have hfixed := h.fixed id
  rw [ht, Option.map_some] at hfixed
  exact Option.map_eq_some_iff.1 hfixed

theorem symm {s s' : Scheduler} (h : Rearranged s s') : Rearranged s' s where
  fixed id := (h.fixed id).symm
  exited := h.exited.symm
  idle := h.idle.symm
  cleanup := h.cleanup.symm
  core := h.core.symm

theorem contains {s s' : Scheduler} (h : Rearranged s s') (id : TaskId) :
    s'.contains id = s.contains id := by
  have hfixed := congrArg Option.isSome (h.fixed id)
  rwa [Option.isSome_map, Option.isSome_map] at hfixed

end Rearranged

theorem task?_modifyTask (id : TaskId) (f : Task → Task) (j : TaskId) :
    (s.modifyTask id f).task? j = if j = id then (s.task? j).map f else s.task? j :=
  Table.get?_modify s.tasks id f j

@[simp] theorem contains_modifyTask (id : TaskId) (f : Task → Task) (j : TaskId) :
    (s.modifyTask id f).contains j = s.contains j := by
  have h := congrArg Option.isSome (task?_modifyTask (s := s) id f j)
  refine Eq.trans h ?_
  split
  · rw [Option.isSome_map]
    rfl
  · rfl

/-- A change of one task in what scheduling may change. -/
theorem Rearranged.of_modify {s' : Scheduler} (id : TaskId) (f : Task → Task)
    (hf : ∀ t, (f t).fixed = t.fixed) (htasks : s'.tasks = s.tasks.modify id f)
    (hexited : s'.exited = s.exited) (hidle : s'.idle = s.idle)
    (hcleanup : s'.cleanup = s.cleanup) (hcore : s'.core = s.core) : Rearranged s s' where
  fixed j := by
    rw [task?, htasks, Table.get?_modify]
    split
    · rw [Option.map_map]
      congr 1
      funext t
      exact hf t
    · rfl
  exited := hexited
  idle := hidle
  cleanup := hcleanup
  core := hcore

theorem current_makeReadyAll (l : List TaskId) (s : Scheduler) :
    (l.foldl makeReady s).current = s.current := by
  induction l generalizing s with
  | nil => rfl
  | cons id l ih => exact ih (s.makeReady id)

theorem current_unblockWakeable (s : Scheduler) :
    s.unblockWakeable.2.current = s.current :=
  current_makeReadyAll _ s

theorem current_wake (s : Scheduler) (id : TaskId) : (s.wake id).2.current = s.current := by
  rw [wake]
  split <;> rfl

/-- After a choice of the next task the turn stays where it is, nobody is current, or a task is
entered: the one that was chosen, or else the idle task. -/
theorem switchToNext_cases (s : Scheduler) (hint : Option TaskId) (preempted : Bool) :
    (s.switchToNext hint preempted).2 = (s.selectNext hint).2 ∨
      (s.switchToNext hint preempted).2 = { (s.selectNext hint).2 with current := none } ∨
        ∃ next, (s.selectNext hint).1.or (s.selectNext hint).2.idle = some next ∧
          (s.switchToNext hint preempted).2 = (s.selectNext hint).2.enter s.current next := by
  rw [switchToNext]
  rcases s.selectNext hint with ⟨choice, s₁⟩
  dsimp only
  split
  · split
    · exact .inl rfl
    · exact .inr (.inl rfl)
  · rename_i next hnext
    split
    · exact .inl rfl
    · exact .inr (.inr ⟨next, hnext, rfl⟩)

/-! ### The two queues -/

/-- Every live task is in the ready ring, in the blocked queue, or idle. -/
structure Queued (s : Scheduler) (ring waiting : List TaskId) : Prop where
  ready : s.ready.Spells ring
  blocked : s.blocked.Spells waiting
  named : ∀ id t, s.task? id = some t → t.id = id
  live : ∀ id, s.contains id = true ↔ id ∈ ring ∨ id ∈ waiting ∨ s.idle = some id
  apart : ∀ id, id ∈ ring → id ∉ waiting
  idle : ∀ id, s.idle = some id → id ∉ ring ∧ id ∉ waiting
  cleanup : ∀ id, s.cleanup = some id → id ∈ ring ∨ id ∈ waiting

theorem queued_new (core : CoreId) (timeslice : Nat) : (new core timeslice).Queued [] [] where
  ready := TaskQueue.spells_empty
  blocked := TaskQueue.spells_empty
  named id t h := by cases h
  live id := by simp [new, contains, Table.contains]
  apart id h := by cases h
  idle id h := by cases h
  cleanup id h := by cases h

namespace Queued

variable {ring waiting : List TaskId}

theorem contains_of_ready (h : s.Queued ring waiting) {id : TaskId} (hid : id ∈ ring) :
    s.contains id = true :=
  (h.live id).2 (.inl hid)

theorem contains_of_blocked (h : s.Queued ring waiting) {id : TaskId} (hid : id ∈ waiting) :
    s.contains id = true :=
  (h.live id).2 (.inr (.inl hid))

/-- What depends on the tasks through their ids only is kept by a rearrangement that fills
the queues with the same ids. -/
theorem rearranged (h : s.Queued ring waiting) {s' : Scheduler} (hr : Rearranged s s')
    {ring' waiting' : List TaskId} (hready : s'.ready.Spells ring')
    (hblocked : s'.blocked.Spells waiting') (hapart : ∀ id, id ∈ ring' → id ∉ waiting')
    (hmem : ∀ id, (id ∈ ring' ∨ id ∈ waiting') ↔ (id ∈ ring ∨ id ∈ waiting)) :
    s'.Queued ring' waiting' where
  ready := hready
  blocked := hblocked
  named id t' ht' := by
    obtain ⟨t, ht, hfixed⟩ := hr.symm.task?_of_task? ht'
    have hid : t.fixed.id = t'.fixed.id := by rw [hfixed]
    exact hid.symm.trans (h.named id t ht)
  live id := by
    rw [hr.contains, h.live, hr.idle, ← or_assoc, ← or_assoc, hmem]
  apart := hapart
  idle id hid := by
    rw [hr.idle] at hid
    obtain ⟨hr, hb⟩ := h.idle id hid
    have hnone : ¬ (id ∈ ring' ∨ id ∈ waiting') := by
      rw [hmem]
      exact not_or.2 ⟨hr, hb⟩
    exact not_or.1 hnone
  cleanup id hid := by
    rw [hr.cleanup] at hid
    exact (hmem id).2 (h.cleanup id hid)

/-- A blocked task goes to the end of the ready ring. -/
theorem makeReady (h : s.Queued ring waiting) {a b : List TaskId} {id : TaskId}
    (hb : waiting = a ++ id :: b) :
    (s.makeReady id).Queued (ring ++ [id]) (a ++ b) ∧ Rearranged s (s.makeReady id) := by
  have hid : id ∈ waiting := by simp [hb]
  have hnot : id ∉ ring := fun hmem => h.apart id hmem hid
  have hr : Rearranged s (s.makeReady id) :=
    Rearranged.of_modify id (fun t => { t with state := .ready, waitSince := none })
      (fun _ => rfl) rfl rfl rfl rfl rfl
  have hnodup := h.blocked.nodup
  rw [hb] at hnodup
  refine ⟨h.rearranged hr (h.ready.append hnot) (h.blocked.remove hb) ?_ ?_, hr⟩
  · intro j hj
    have hapart := h.apart j
    grind
  · intro j
    grind

/-- Readying some of the blocked tasks, one after the other. -/
theorem makeReadyAll (h : s.Queued ring waiting) (p : TaskId → Bool) :
    ((waiting.filter p).foldl Scheduler.makeReady s).Queued (ring ++ waiting.filter p)
        (waiting.filter fun id => !p id) ∧
      Rearranged s ((waiting.filter p).foldl Scheduler.makeReady s) := by
  -- the tasks in front of `b` have been looked at, and those in `a` stay
  have hgen : ∀ (b a ring : List TaskId) (s : Scheduler), s.Queued ring (a ++ b) →
      ((b.filter p).foldl Scheduler.makeReady s).Queued (ring ++ b.filter p)
        (a ++ b.filter fun id => !p id) ∧
      Rearranged s ((b.filter p).foldl Scheduler.makeReady s) := by
    intro b
    induction b with
    | nil =>
      intro a ring s h
      rw [List.append_nil] at h
      simpa using ⟨h, Rearranged.refl s⟩
    | cons id b ih =>
      intro a ring s h
      by_cases hp : p id = true
      · obtain ⟨hstep, hr⟩ := h.makeReady rfl
        obtain ⟨hrest, hr'⟩ := ih a (ring ++ [id]) (s.makeReady id) hstep
        rw [List.filter_cons_of_pos hp, List.foldl_cons]
        refine ⟨?_, hr.trans hr'⟩
        simpa [hp] using hrest
      · have hsplit : a ++ id :: b = (a ++ [id]) ++ b := by simp
        rw [hsplit] at h
        rw [List.filter_cons_of_neg hp]
        have := ih (a ++ [id]) ring s h
        simpa [hp] using this
  simpa using hgen waiting [] ring s h

theorem unblockWakeable (h : s.Queued ring waiting) :
    s.unblockWakeable.2.Queued (ring ++ waiting.filter s.isWakeable)
        (waiting.filter fun id => !s.isWakeable id) ∧
      Rearranged s s.unblockWakeable.2 := by
  rw [Scheduler.unblockWakeable, h.blocked.toList_eq]
  exact h.makeReadyAll s.isWakeable

theorem wake (h : s.Queued ring waiting) (id : TaskId) :
    ∃ ring' waiting', (s.wake id).2.Queued ring' waiting' ∧ Rearranged s (s.wake id).2 ∧
      ∀ j, j ∈ ring → j ∈ ring' := by
  rw [Scheduler.wake]
  split
  · rename_i hid
    obtain ⟨a, b, hab⟩ := List.append_of_mem ((h.blocked.contains_iff id).1 hid)
    obtain ⟨hq, hr⟩ := h.makeReady hab
    exact ⟨_, _, hq, hr, fun j hj => List.mem_append_left [id] hj⟩
  · exact ⟨ring, waiting, h, Rearranged.refl s, fun j hj => hj⟩

/-- The task that blocks leaves the ready ring for its place in the blocked queue. -/
theorem suspend (h : s.Queued ring waiting) {a b : List TaskId} {id : TaskId}
    (hready : ring = a ++ id :: b) (reason : BlockReason) :
    ∃ waiting', (∀ j, j ∈ waiting' ↔ j = id ∨ j ∈ waiting) ∧
      (({ s with ready := (s.ready.remove id).2 } : Scheduler).suspend id reason).Queued
        (a ++ b) waiting' ∧
      Rearranged s (({ s with ready := (s.ready.remove id).2 } : Scheduler).suspend id reason) := by
  have hid : id ∈ ring := by simp [hready]
  have hnot : id ∉ waiting := h.apart id hid
  have hnodup := h.ready.nodup
  rw [hready] at hnodup
  -- where the task stands among those that are blocked does not matter
  have hapart : ∀ waiting' : List TaskId, (∀ j, j ∈ waiting' ↔ j = id ∨ j ∈ waiting) →
      ∀ j, j ∈ a ++ b → j ∉ waiting' := by
    intro waiting' hmem j hj
    have := h.apart j
    rw [hmem]
    grind
  have hsame : ∀ waiting' : List TaskId, (∀ j, j ∈ waiting' ↔ j = id ∨ j ∈ waiting) →
      ∀ j, (j ∈ a ++ b ∨ j ∈ waiting') ↔ (j ∈ ring ∨ j ∈ waiting) := by
    intro waiting' hmem j
    rw [hmem, hready]
    grind
  cases reason with
  | sleep milliseconds =>
    have hr : Rearranged s
        (({ s with ready := (s.ready.remove id).2 } : Scheduler).suspend id
          (.sleep milliseconds)) :=
      Rearranged.of_modify id
        (fun t => { t with state := .sleeping, wakeTime := s.wakeTimeOf milliseconds })
        (fun _ => rfl) rfl rfl rfl rfl rfl
    -- a sleeper stands in front of the first task that sleeps longer
    have hblocked : ∃ waiting', (∀ j, j ∈ waiting' ↔ j = id ∨ j ∈ waiting) ∧
        (s.blocked.insertBefore id (s.blocked.toList.find?
          (s.sleepsBeyond (s.wakeTimeOf milliseconds)))).2.Spells waiting' := by
      rw [h.blocked.toList_eq]
      cases hfind : waiting.find? (s.sleepsBeyond (s.wakeTimeOf milliseconds)) with
      | none => exact ⟨waiting ++ [id], fun j => by grind, h.blocked.append hnot⟩
      | some before =>
        obtain ⟨c, d, hcd⟩ := List.append_of_mem (List.mem_of_find?_eq_some hfind)
        exact ⟨c ++ id :: before :: d, fun j => by grind, h.blocked.insertBefore hcd hnot⟩
    obtain ⟨waiting', hmem, hspells⟩ := hblocked
    exact ⟨waiting', hmem, h.rearranged hr (h.ready.remove hready) hspells
      (hapart waiting' hmem) (hsame waiting' hmem), hr⟩
  | mail since =>
    have hr : Rearranged s
        (({ s with ready := (s.ready.remove id).2 } : Scheduler).suspend id (.mail since)) :=
      Rearranged.of_modify id (fun t => { t with state := .blocked, waitSince := since })
        (fun _ => rfl) rfl rfl rfl rfl rfl
    have hmem : ∀ j, j ∈ waiting ++ [id] ↔ j = id ∨ j ∈ waiting := fun j => by grind
    exact ⟨waiting ++ [id], hmem, h.rearranged hr (h.ready.remove hready)
      (h.blocked.append hnot) (hapart _ hmem) (hsame _ hmem), hr⟩

/-- Fields that neither name a task nor order one do not matter. -/
theorem congr (h : s.Queued ring waiting) {s' : Scheduler} (htasks : s'.tasks = s.tasks)
    (hready : s'.ready = s.ready) (hblocked : s'.blocked = s.blocked)
    (hidle : s'.idle = s.idle) (hcleanup : s'.cleanup = s.cleanup) :
    s'.Queued ring waiting where
  ready := hready ▸ h.ready
  blocked := hblocked ▸ h.blocked
  named id t ht := h.named id t (by rwa [task?, htasks] at ht)
  live id := by rw [Scheduler.contains, htasks, hidle]; exact h.live id
  apart := h.apart
  idle id hid := h.idle id (hidle ▸ hid)
  cleanup id hid := h.cleanup id (hcleanup ▸ hid)

theorem selectNext (h : s.Queued ring waiting) (hint : Option TaskId) :
    ∃ ring' waiting', (s.selectNext hint).2.Queued ring' waiting' ∧
      Rearranged s (s.selectNext hint).2 ∧ (s.selectNext hint).2.current = s.current ∧
      ∀ id, (s.selectNext hint).1 = some id → id ∈ ring' := by
  rw [Scheduler.selectNext]
  split
  · -- the ring is empty, so tasks that can be woken are readied before the choice
    obtain ⟨hq, hr⟩ := h.unblockWakeable
    refine ⟨_, _, hq, hr, current_unblockWakeable s, fun id hid => ?_⟩
    have hhead : s.unblockWakeable.2.ready.head = some id := hid
    rw [hq.ready.head] at hhead
    exact List.mem_of_mem_head? hhead
  · split
    · rename_i id hid
      refine ⟨_, _, h, Rearranged.refl s, rfl, fun j hj => ?_⟩
      cases hj
      exact (h.ready.contains_iff id).1 (Option.mem_filter_iff.1 hid).2
    · split
      · rename_i id hid
        have hmem : id ∈ ring := (h.ready.contains_iff id).1 (Option.mem_filter_iff.1 hid).2
        refine ⟨_, _, h, Rearranged.refl s, rfl, fun j hj => ?_⟩
        -- the choice is the task behind the current one, or the head again
        obtain ⟨a, b, hab⟩ := List.append_of_mem hmem
        rw [h.ready.next_eq hab, h.ready.head] at hj
        rcases Option.or_eq_some_iff.1 hj with hj | ⟨-, hj⟩
        · rw [hab]
          exact List.mem_append_right a (List.mem_cons_of_mem id (List.mem_of_mem_head? hj))
        · exact List.mem_of_mem_head? hj
      · refine ⟨_, _, h, Rearranged.refl s, rfl, fun j hj => ?_⟩
        rw [h.ready.head] at hj
        exact List.mem_of_mem_head? hj

/-- When the turn passes on, the current task goes on, or no task is current, or another one is
entered, which is not blocked. -/
theorem switchToNext_cases (h : s.Queued ring waiting) (hint : Option TaskId) (preempted : Bool) :
    (s.switchToNext hint preempted).2 = (s.selectNext hint).2 ∨
      (s.switchToNext hint preempted).2 = { (s.selectNext hint).2 with current := none } ∨
        ∃ next, (s.selectNext hint).2.blocked.contains next = false ∧
          (s.switchToNext hint preempted).2 = (s.selectNext hint).2.enter s.current next := by
  obtain ⟨ring', waiting', hq, -, -, hchoice⟩ := h.selectNext hint
  refine (s.switchToNext_cases hint preempted).imp_right fun hs => hs.imp_right ?_
  rintro ⟨next, hnext, hs⟩
  refine ⟨next, ?_, hs⟩
  rw [← Bool.not_eq_true, hq.blocked.contains_iff]
  rcases Option.or_eq_some_iff.1 hnext with hchosen | ⟨-, hidle⟩
  · exact hq.apart next (hchoice next hchosen)
  · exact (hq.idle next hidle).2

theorem enter (h : s.Queued ring waiting) (previous : Option TaskId) (next : TaskId) :
    (s.enter previous next).Queued ring waiting ∧ Rearranged s (s.enter previous next) := by
  have hpause : ∀ t : Task, (pause t).fixed = t.fixed := by
    intro t
    rw [pause]
    split <;> rfl
  -- the task that is left, if there is one, is ready again
  have hpaused : ∃ paused, Rearranged s paused ∧ paused.ready = s.ready ∧
      paused.blocked = s.blocked ∧ s.enter previous next = { paused.modifyTask next fun t =>
        { t with state := .running, lastCore := some s.core } with current := some next } := by
    cases previous with
    | none => exact ⟨s, Rearranged.refl s, rfl, rfl, rfl⟩
    | some id =>
      exact ⟨s.modifyTask id pause,
        Rearranged.of_modify id pause hpause rfl rfl rfl rfl rfl, rfl, rfl, rfl⟩
  obtain ⟨paused, hr, hready, hblocked, henter⟩ := hpaused
  have hr' : Rearranged s (s.enter previous next) := by
    rw [henter]
    exact hr.trans (Rearranged.of_modify next
      (fun t => { t with state := .running, lastCore := some s.core }) (fun _ => rfl)
      rfl rfl rfl rfl rfl)
  refine ⟨h.rearranged hr' ?_ ?_ h.apart fun _ => Iff.rfl, hr'⟩
  · rw [henter]
    exact hready ▸ h.ready
  · rw [henter]
    exact hblocked ▸ h.blocked

end Queued

/-! ### The current task -/

/-- The queues are in order, and the current task is ready or idle. -/
structure Coherent (s : Scheduler) : Prop where
  queued : s.Queued s.ready.toList s.blocked.toList
  current : ∀ id, s.current = some id → s.idle = some id ∨ id ∈ s.ready.toList

theorem coherent_new (core : CoreId) (timeslice : Nat) : (new core timeslice).Coherent where
  queued := queued_new core timeslice
  current id h := by cases h

/-- A switch leads from the task that was current to the task that is. -/
structure Switches (s s' : Scheduler) (switch : Switch) : Prop where
  leaving : switch.leaving = s.current
  entering : s'.current = some switch.entering

namespace Queued

variable {ring waiting : List TaskId}

theorem coherent (h : s.Queued ring waiting)
    (hcurrent : ∀ id, s.current = some id → s.idle = some id ∨ id ∈ ring) : s.Coherent := by
  have hring := h.ready.toList_eq
  have hwaiting := h.blocked.toList_eq
  refine ⟨?_, ?_⟩
  · rw [hring, hwaiting]
    exact h
  · rw [hring]
    exact hcurrent

theorem switchToNext (h : s.Queued ring waiting) {hint : Option TaskId} {preempted : Bool}
    {switch : Option Switch} {s' : Scheduler}
    (hs : s.switchToNext hint preempted = (switch, s')) :
    s'.Coherent ∧ Rearranged s s' ∧ ∀ sw, switch = some sw → Switches s s' sw := by
  obtain ⟨ring', waiting', hq, hr, hcurrent, hchoice⟩ := h.selectNext hint
  rw [Scheduler.switchToNext] at hs
  generalize s.selectNext hint = selected at hs hq hr hcurrent hchoice
  obtain ⟨choice, s₁⟩ := selected
  simp only at hs hq hr hcurrent hchoice
  have hnext : ∀ next, choice.or s₁.idle = some next → s₁.idle = some next ∨ next ∈ ring' := by
    intro next hnext
    rcases Option.or_eq_some_iff.1 hnext with hc | ⟨-, hi⟩
    · exact .inr (hchoice next hc)
    · exact .inl hi
  split at hs
  · split at hs
    · -- the current task is in the ring and stays current
      rename_i hstay
      obtain ⟨rfl, rfl⟩ := Prod.mk.inj hs
      refine ⟨hq.coherent fun id hid => .inr ?_, hr, fun sw hsw => by cases hsw⟩
      rw [hcurrent] at hid
      rw [hid, Option.any_some] at hstay
      exact (hq.ready.contains_iff id).1 hstay
    · -- nobody is left to run
      obtain ⟨rfl, rfl⟩ := Prod.mk.inj hs
      have hq' : ({ s₁ with current := none } : Scheduler).Queued ring' waiting' :=
        hq.congr rfl rfl rfl rfl rfl
      have hr' : Rearranged s₁ { s₁ with current := none } := ⟨fun _ => rfl, rfl, rfl, rfl, rfl⟩
      exact ⟨hq'.coherent fun id hid => (by cases hid), hr.trans hr', fun sw hsw => (by cases hsw)⟩
  · rename_i next hsome
    split at hs
    · -- the choice is the task that is current already
      rename_i hsame
      obtain ⟨rfl, rfl⟩ := Prod.mk.inj hs
      refine ⟨hq.coherent fun id hid => ?_, hr, fun sw hsw => by cases hsw⟩
      rw [hcurrent, hsame] at hid
      cases hid
      exact hnext next hsome
    · obtain ⟨rfl, rfl⟩ := Prod.mk.inj hs
      obtain ⟨hq', hr'⟩ := hq.enter s.current next
      refine ⟨hq'.coherent fun id hid => ?_, hr.trans hr', fun sw hsw => ?_⟩
      · cases hid
        rw [hr'.idle]
        exact hnext next hsome
      · cases hsw
        exact ⟨rfl, rfl⟩

end Queued

end Scheduler

end Microkernel
