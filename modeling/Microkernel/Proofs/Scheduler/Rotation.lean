/-
The ready ring goes round.

The ring has no pointer. Who comes next is found from the current task, from the successor of a
task that has left the ring, or at the head of the ring. `s.turns` is the order in which the ready
tasks take their turns from now on: those behind the current task, then those in front of it.

* **`Coherent.moves`**: every operation either leaves the turn where it is and adds to the order at
  most, or passes the turn to the first in the order, and the task that had it goes to the end if
  it stays in the ring;
* **`Behind.step`**: so while a task waits, those behind it stay behind it, and a task that is
  switched away from falls in behind it;
* **`overtaken_at_most_once`**: while a task waits for its turn, each other task is switched away
  from at most once while it stays in the ring, and there are at most as many ticks as other tasks
  in the ring, and one.

Design notes: the order is compared with `List.Sublist`, since tasks that become ready join at the
end of the ring, which is in the middle of the order. A stretch of a run is a list of operations
together with the states that they are carried out in (`visits`).
-/
import Mathlib.Data.Finset.Card
import Mathlib.Data.List.TakeWhile
import Microkernel.Proofs.Scheduler.Running

namespace Microkernel

/-- Appending an id adds it at the end, or nothing if it is there already. -/
theorem TaskQueue.Spells.append_any {q : TaskQueue} {l : List TaskId} (h : q.Spells l)
    (id : TaskId) : ∃ added, (q.append id).2.Spells (l ++ added) := by
  by_cases hid : id ∈ l
  · refine ⟨[], ?_⟩
    rw [h.append_of_mem hid, List.append_nil]
    exact h
  · exact ⟨[id], h.append hid⟩

namespace Scheduler

variable {s s' : Scheduler} {ring : List TaskId}

/-! ### The order of turns -/

/-- The tasks of a ring behind the current one, then those in front of it; all of them if the
current task is not in the ring. -/
def turnsIn (ring : List TaskId) : Option TaskId → List TaskId
  | none => ring
  | some id => (ring.dropWhile (· ≠ id)).tail ++ ring.takeWhile (· ≠ id)

/-- The ready tasks in the order in which they take their turns from now on. -/
def turns (s : Scheduler) : List TaskId :=
  turnsIn s.ready.toList s.current

theorem turnsIn_split {a b : List TaskId} {id : TaskId} (h : id ∉ a) :
    turnsIn (a ++ id :: b) (some id) = b ++ a := by
  have hall : ∀ j ∈ a, decide (j ≠ id) = true := fun j hj => decide_eq_true fun e => h (e ▸ hj)
  rw [turnsIn, List.dropWhile_append_of_pos hall, List.takeWhile_append_of_pos hall]
  simp

theorem turnsIn_of_not_mem {current : Option TaskId} (h : ∀ id, current = some id → id ∉ ring) :
    turnsIn ring current = ring := by
  cases current with
  | none => rfl
  | some id =>
    have hall : ∀ j ∈ ring, decide (j ≠ id) = true :=
      fun j hj => decide_eq_true fun e => h id rfl (e ▸ hj)
    rw [turnsIn, List.dropWhile_eq_nil_iff.2 hall, List.takeWhile_eq_self_iff.2 hall]
    rfl

/-- The ready tasks but the current one take turns. -/
theorem mem_turnsIn (h : ring.Nodup) {current : Option TaskId} {id : TaskId} :
    id ∈ turnsIn ring current ↔ id ∈ ring ∧ current ≠ some id := by
  by_cases hin : ∃ c, current = some c ∧ c ∈ ring
  · obtain ⟨c, rfl, hc⟩ := hin
    obtain ⟨a, b, rfl⟩ := List.append_of_mem hc
    rw [turnsIn_split (by grind)]
    grind
  · rw [turnsIn_of_not_mem fun c hc hmem => hin ⟨c, hc, hmem⟩]
    exact ⟨fun hid => ⟨hid, fun hc => hin ⟨id, hc, hid⟩⟩, And.left⟩

/-- Tasks that join the ring do not change the order of the others. -/
theorem turnsIn_append {added : List TaskId} {current : Option TaskId}
    (h : (ring ++ added).Nodup) (hcurrent : ∀ id, current = some id → id ∉ added) :
    (turnsIn ring current).Sublist (turnsIn (ring ++ added) current) := by
  by_cases hin : ∃ c, current = some c ∧ c ∈ ring
  · obtain ⟨c, rfl, hc⟩ := hin
    obtain ⟨a, b, rfl⟩ := List.append_of_mem hc
    have ha : c ∉ a := by grind
    rw [List.append_assoc, List.cons_append, turnsIn_split ha, turnsIn_split ha]
    exact (List.sublist_append_left b added).append_right a
  · rw [turnsIn_of_not_mem fun c hc hmem => hin ⟨c, hc, hmem⟩,
      turnsIn_of_not_mem fun c hc hmem => ?_]
    · exact List.sublist_append_left ring added
    · exact (List.mem_append.1 hmem).elim (fun hr => hin ⟨c, hc, hr⟩) (hcurrent c hc)

theorem Coherent.mem_turns (h : s.Coherent) {id : TaskId} :
    id ∈ s.turns ↔ id ∈ s.ready.toList ∧ s.current ≠ some id :=
  mem_turnsIn h.queued.ready.nodup

/-! ### What an operation does to the order -/

/-- What an operation does to the turns. -/
inductive Moves (s s' : Scheduler) : Prop where
  /-- The current task stays current, and the order is added to at most. -/
  | stays (current : s'.current = s.current) (ring : ∀ id ∈ s.ready.toList, id ∈ s'.ready.toList)
    (turns : s.turns.Sublist s'.turns)
  /-- The turn passes to `next`, the first in the order, and the task that had it goes to the end
  if it stays in the ring. -/
  | passes (next : TaskId) (rest : List TaskId) (current : s'.current = some next)
    (ready : next ∈ s'.ready.toList) (differs : s.current ≠ some next)
    (turns : s.turns.Sublist (next :: rest)) (others : rest.Sublist s'.turns)
    (last : ∀ id, s.current = some id → id ∈ s'.ready.toList →
      (rest ++ [id]).Sublist s'.turns)

/-- Only tasks at the end of the ring are new. -/
structure Grown (s s' : Scheduler) : Prop where
  current : s'.current = s.current
  idle : ∀ id, s.idle = some id → s'.idle = some id
  ready : ∀ ring, s.ready.Spells ring → ∃ added, s'.ready.Spells (ring ++ added)

namespace Grown

theorem of_ready (hcurrent : s'.current = s.current)
    (hidle : ∀ id, s.idle = some id → s'.idle = some id) (hready : s'.ready = s.ready) :
    Grown s s' :=
  ⟨hcurrent, hidle, fun ring h => ⟨[], by rwa [hready, List.append_nil]⟩⟩

theorem refl (s : Scheduler) : Grown s s :=
  of_ready rfl (fun _ h => h) rfl

theorem trans {s s' s'' : Scheduler} (h : Grown s s') (h' : Grown s' s'') : Grown s s'' where
  current := h'.current.trans h.current
  idle id hid := h'.idle id (h.idle id hid)
  ready ring hring := by
    obtain ⟨added, hadded⟩ := h.ready ring hring
    obtain ⟨more, hmore⟩ := h'.ready _ hadded
    exact ⟨added ++ more, by rwa [← List.append_assoc]⟩

theorem makeReady (s : Scheduler) (id : TaskId) : Grown s (s.makeReady id) :=
  ⟨rfl, fun _ h => h, fun _ hring => hring.append_any id⟩

theorem unblockWakeable (s : Scheduler) : Grown s s.unblockWakeable.2 := by
  -- one task after the other joins
  have hall : ∀ (ids : List TaskId) (s : Scheduler), Grown s (ids.foldl Scheduler.makeReady s) := by
    intro ids
    induction ids with
    | nil => exact refl
    | cons id ids ih => exact fun s => (makeReady s id).trans (ih (s.makeReady id))
  exact hall _ s

theorem wake (s : Scheduler) (id : TaskId) : Grown s (s.wake id).2 := by
  rw [Scheduler.wake]
  split
  · exact makeReady s id
  · exact refl s

theorem wakeCleanup (s : Scheduler) : Grown s s.wakeCleanup := by
  rw [Scheduler.wakeCleanup]
  split
  · exact wake s _
  · exact refl s

theorem unblock (s : Scheduler) (id : TaskId) : Grown s (s.unblock id).2 := by
  rw [Scheduler.unblock]
  split
  · exact refl s
  · exact makeReady s id

theorem deliver (s : Scheduler) (recipient : TaskId) (message : Message) :
    Grown s (s.deliver recipient message).2 := by
  rw [Scheduler.deliver]
  split
  · exact refl s
  split
  · exact refl s
  split
  · exact refl s
  · rename_i mailbox _
    have hmail : Grown s (s.withMailbox recipient mailbox) := of_ready rfl (fun _ h => h) rfl
    dsimp only
    split
    · exact hmail.trans (makeReady (s.withMailbox recipient mailbox) recipient)
    · exact hmail

theorem schedule (s : Scheduler) (task : Task) : Grown s (s.schedule task).2 := by
  rw [Scheduler.schedule]
  split
  · exact refl s
  · exact ⟨rfl, fun _ h => h, fun _ hring => hring.append_any task.id⟩

theorem installCleanup (s : Scheduler) (task : Task) : Grown s (s.installCleanup task).2 := by
  have hjoined := schedule s task
  rw [Scheduler.installCleanup]
  generalize s.schedule task = scheduled at hjoined ⊢
  obtain ⟨result, s₁⟩ := scheduled
  cases result with
  | error e => exact hjoined
  | ok => exact ⟨hjoined.current, hjoined.idle, hjoined.ready⟩

theorem installIdle (s : Scheduler) (task : Task) : Grown s (s.installIdle task).2 := by
  rw [Scheduler.installIdle]
  split
  · exact refl s
  · rename_i haccepted
    refine of_ready rfl (fun id hid => ?_) rfl
    rw [hid] at haccepted
    simp at haccepted

theorem changePriority (s : Scheduler) (id : TaskId) (priority : Priority) :
    Grown s (s.changePriority id priority).2 := by
  rw [Scheduler.changePriority]
  split
  · exact refl s
  · exact of_ready rfl (fun _ h => h) rfl

end Grown

theorem Coherent.sublist_grown (h : s.Coherent) (h' : s'.Coherent) (hg : Grown s s') :
    s.turns.Sublist s'.turns ∧ ∀ id ∈ s.ready.toList, id ∈ s'.ready.toList := by
  obtain ⟨added, hadded⟩ := hg.ready _ h.queued.ready
  have hring : s'.ready.toList = s.ready.toList ++ added := hadded.toList_eq
  have hnodup := hadded.nodup
  refine ⟨?_, fun id hid => ?_⟩
  · rw [turns, turns, hg.current, hring]
    refine turnsIn_append hnodup fun id hid hmem => ?_
    -- a task that is current and not in the ring is idle, and never joins the ring
    rcases h.current id hid with hidle | hready
    · have hout := (h'.queued.idle id (hg.idle id hidle)).1
      rw [hring] at hout
      exact hout (List.mem_append_right _ hmem)
    · exact (List.nodup_append.1 hnodup).2.2 id hready id hmem rfl
  · rw [hring]
    exact List.mem_append_left _ hid

theorem Coherent.moves_of_grown (h : s.Coherent) (h' : s'.Coherent) (hg : Grown s s') :
    Moves s s' :=
  .stays hg.current (h.sublist_grown h' hg).2 (h.sublist_grown h' hg).1

/-- What becomes ready before the turn passes on makes no difference to the order so far. -/
theorem Coherent.moves_after_grown (h : s.Coherent) {m : Scheduler} (hm : m.Coherent)
    (hg : Grown s m) (hmoves : Moves m s') : Moves s s' := by
  obtain ⟨hturns, hring⟩ := h.sublist_grown hm hg
  have hcurrent := hg.current
  cases hmoves with
  | stays current ring turns =>
    exact .stays (current.trans hcurrent) (fun id hid => ring id (hring id hid))
      (hturns.trans turns)
  | passes next rest current ready differs turns others last =>
    rw [hcurrent] at differs last
    exact .passes next rest current ready differs (hturns.trans turns) others last

/-! ### Passing the turn -/

theorem ready_enter (previous : Option TaskId) (next : TaskId) :
    (s.enter previous next).ready = s.ready := by
  cases previous <;> rfl

theorem ready_switchToNext (hint : Option TaskId) (preempted : Bool) :
    (s.switchToNext hint preempted).2.ready = (s.selectNext hint).2.ready := by
  rcases s.switchToNext_cases hint preempted with hs | hs | ⟨next, -, hs⟩ <;> rw [hs]
  exact ready_enter s.current next

/-- Another task takes over, and the ring is left alone. -/
theorem switchToNext_eq {hint : Option TaskId} {next : TaskId}
    (hready : s.ready.isEmpty = false) (hchoice : (s.selectNext hint).1 = some next)
    (hne : s.current ≠ some next) (preempted : Bool) :
    (s.switchToNext hint preempted).2.ready = s.ready ∧
      (s.switchToNext hint preempted).2.current = some next := by
  have hsame := selectNext_of_ready hready hint
  have hselect : s.selectNext hint = (some next, s) := Prod.ext hchoice hsame
  refine ⟨by rw [ready_switchToNext, hsame], ?_⟩
  rw [Scheduler.switchToNext, hselect]
  simp only [Option.some_or, if_neg hne]
  rfl

theorem selectNext_hint (h : s.ready.Spells ring) {next : TaskId} (hnext : next ∈ ring) :
    (s.selectNext (some next)).1 = some next := by
  have hsome : ¬ s.ready.isEmpty = true := by
    rw [h.isEmpty_iff]
    exact List.ne_nil_of_mem hnext
  rw [Scheduler.selectNext, if_neg hsome, Option.filter_some, (h.contains_iff next).2 hnext]
  rfl

/-- Without a hint the first in the order is chosen. -/
theorem selectNext_none (h : s.ready.Spells ring) {next : TaskId} {l : List TaskId}
    (hturns : turnsIn ring s.current = next :: l) : (s.selectNext none).1 = some next := by
  have hmem : next ∈ ring := ((mem_turnsIn h.nodup).1 (hturns ▸ List.mem_cons_self)).1
  have hsome : ¬ s.ready.isEmpty = true := by
    rw [h.isEmpty_iff]
    exact List.ne_nil_of_mem hmem
  rw [Scheduler.selectNext, if_neg hsome, Option.filter_none]
  by_cases hin : ∃ c, s.current = some c ∧ c ∈ ring
  · obtain ⟨c, hc, hcring⟩ := hin
    obtain ⟨a, b, rfl⟩ := List.append_of_mem hcring
    have hnodup := h.nodup
    have ha : c ∉ a := by grind
    rw [hc, turnsIn_split ha] at hturns
    simp only [hc, Option.filter_some, (h.contains_iff c).2 hcring, if_true]
    rw [h.next_eq rfl, h.head]
    -- the task behind the current one, or the head of the ring
    cases b with
    | nil =>
      rw [List.nil_append] at hturns
      simp [hturns]
    | cons j b =>
      obtain ⟨rfl, -⟩ := List.cons.inj hturns
      rfl
  · have hout : ∀ c, s.current = some c → c ∉ ring := fun c hc hmem => hin ⟨c, hc, hmem⟩
    rw [turnsIn_of_not_mem hout] at hturns
    have hfilter : s.current.filter s.ready.contains = none := by
      rw [Option.filter_eq_none_iff]
      intro c hc hcontains
      exact hout c hc ((h.contains_iff c).1 hcontains)
    simp only [hfilter]
    rw [h.head, hturns]
    rfl

/-- The first in the order is ready, and takes over. -/
theorem Coherent.switchToNext_first (h : s.Coherent) {next : TaskId} {rest : List TaskId}
    (hturns : s.turns = next :: rest) (preempted : Bool) :
    (s.switchToNext none preempted).2.ready = s.ready ∧
      (s.switchToNext none preempted).2.current = some next ∧
      next ∈ s.ready.toList ∧ s.current ≠ some next := by
  obtain ⟨hnext, hne⟩ := h.mem_turns.1 (hturns ▸ List.mem_cons_self)
  have hready : s.ready.isEmpty = false := by
    rw [← Bool.not_eq_true, h.queued.ready.isEmpty_iff]
    exact List.ne_nil_of_mem hnext
  obtain ⟨hring, hcurrent⟩ := switchToNext_eq hready
    (selectNext_none h.queued.ready hturns) hne preempted
  exact ⟨hring, hcurrent, hnext, hne⟩

/-- The turn passes to the first in the order, and the current task to the end. -/
theorem Coherent.moves_switchToNext (h : s.Coherent) (hsome : s.turns ≠ []) (preempted : Bool) :
    Moves s (s.switchToNext none preempted).2 := by
  have hnodup := h.queued.ready.nodup
  obtain ⟨next, rest, hturns⟩ := List.exists_cons_of_ne_nil hsome
  obtain ⟨hring, hcurrent, hnext, hne⟩ := h.switchToNext_first hturns preempted
  have hafter : (s.switchToNext none preempted).2.turns = turnsIn s.ready.toList (some next) := by
    rw [turns, hring, hcurrent]
  rw [turns] at hturns
  by_cases hin : ∃ c, s.current = some c ∧ c ∈ s.ready.toList
  · obtain ⟨c, hc, hcring⟩ := hin
    obtain ⟨a, b, hab⟩ := List.append_of_mem hcring
    rw [hab] at hnodup hafter
    rw [hc, hab, turnsIn_split (by grind)] at hturns
    have hlast : (s.switchToNext none preempted).2.turns = rest ++ [c] := by
      rw [hafter]
      cases b with
      | nil =>
        rw [List.nil_append] at hturns
        rw [hturns, List.cons_append]
        have hnot : next ∉ ([] : List TaskId) := List.not_mem_nil
        exact (turnsIn_split hnot).trans (List.append_nil _)
      | cons j b =>
        obtain ⟨rfl, rfl⟩ := List.cons.inj hturns
        have hsplit : a ++ c :: j :: b = (a ++ [c]) ++ j :: b := by simp
        rw [hsplit, turnsIn_split (by grind)]
        exact (List.append_assoc b a [c]).symm
    refine .passes next rest hcurrent (hring ▸ hnext) hne ?_ ?_ fun id hid _ => ?_
    · rw [turns, hc, hab, turnsIn_split (by grind), hturns]
    · rw [hlast]
      exact List.sublist_append_left rest [c]
    · rw [hc] at hid
      cases hid
      rw [hlast]
  · -- nobody of the ring was current, and the head of the ring takes over
    have hout : ∀ c, s.current = some c → c ∉ s.ready.toList :=
      fun c hc hmem => hin ⟨c, hc, hmem⟩
    rw [turnsIn_of_not_mem hout] at hturns
    have hrest : (s.switchToNext none preempted).2.turns = rest := by
      rw [hafter, hturns]
      exact (turnsIn_split (List.not_mem_nil)).trans (List.append_nil _)
    refine .passes next rest hcurrent (hring ▸ hnext) hne ?_ ?_ fun id hid hmem => ?_
    · rw [turns, turnsIn_of_not_mem hout, hturns]
    · rw [hrest]
    · rw [hring] at hmem
      exact absurd hmem (hout id hid)

theorem Coherent.ticked (h : s.Coherent) (hsome : s.turns ≠ []) :
    s.ticked.Coherent ∧ Grown s s.ticked ∧ s.ticked.turns ≠ [] := by
  have hadvanced : Grown s s.advanced := .of_ready rfl (fun _ hid => hid) rfl
  have hticked : s.ticked.Coherent := h.advanced.unblockWakeable
  have hg : Grown s s.ticked := hadvanced.trans (.unblockWakeable _)
  refine ⟨hticked, hg, ?_⟩
  obtain ⟨next, rest, hturns⟩ := List.exists_cons_of_ne_nil hsome
  have hsub := (h.sublist_grown hticked hg).1
  exact List.ne_nil_of_mem (hsub.subset (hturns ▸ List.mem_cons_self))

/-- The successor of a task that has left the ring, and the order behind it. -/
theorem next_of_leaving {m : Scheduler} {a b added : List TaskId} {id : TaskId}
    (hm : m.ready.Spells (a ++ b ++ added)) (hcurrent : m.current = some id)
    (hid : id ∉ a ++ b ++ added) (hsome : b ++ a ≠ []) :
    ∃ next rest, b ++ a = next :: rest ∧ (m.selectNext b.head?).1 = some next ∧
      rest.Sublist (turnsIn (a ++ b ++ added) (some next)) := by
  have hnodup := hm.nodup
  cases b with
  | nil =>
    -- it was the last in the ring, and the head follows
    cases a with
    | nil => exact absurd rfl hsome
    | cons next a =>
      refine ⟨next, a, rfl, selectNext_none hm (l := a ++ added) ?_, ?_⟩
      · rw [turnsIn_of_not_mem fun c hc => ?_]
        · simp
        · rw [hcurrent] at hc
          cases hc
          exact hid
      · have hsplit := turnsIn_split (b := a ++ added) (List.not_mem_nil (a := next))
        have hlist : next :: a ++ [] ++ added = [] ++ next :: (a ++ added) := by simp
        rw [hlist, hsplit, List.append_nil]
        exact List.sublist_append_left a added
  | cons next b =>
    have hmem : next ∈ a ++ next :: b ++ added := by simp
    refine ⟨next, b ++ a, rfl, selectNext_hint hm hmem, ?_⟩
    have hlist : a ++ next :: b ++ added = a ++ next :: (b ++ added) := by simp
    rw [hlist, turnsIn_split (by grind)]
    exact (List.sublist_append_left b added).append_right a

/-- A task that has left the ring is followed by its successor. -/
theorem moves_leaving {m : Scheduler} {a b added : List TaskId} {id : TaskId}
    (hs : s.ready.Spells (a ++ id :: b)) (hcurrent : s.current = some id)
    (hm : m.ready.Spells (a ++ b ++ added)) (hsame : m.current = s.current)
    (hgone : id ∉ added) (hsome : s.turns ≠ []) :
    Moves s (m.switchToNext (s.ready.next id) false).2 := by
  have hnodup := hs.nodup
  have hturns : s.turns = b ++ a := by
    rw [turns, hs.toList_eq, hcurrent, turnsIn_split (by grind)]
  have hid : id ∉ a ++ b ++ added := by grind
  rw [hturns] at hsome
  rw [hs.next_eq rfl]
  obtain ⟨next, rest, horder, hchoice, hrest⟩ :=
    next_of_leaving hm (hsame.trans hcurrent) hid hsome
  have hmem : next ∈ a ++ b ++ added := by
    have hin : next ∈ b ++ a := horder ▸ List.mem_cons_self
    grind
  have hne : m.current ≠ some next := by
    rw [hsame, hcurrent]
    rintro ⟨⟩
    exact hid hmem
  have hempty : m.ready.isEmpty = false := by
    rw [← Bool.not_eq_true, hm.isEmpty_iff]
    exact List.ne_nil_of_mem hmem
  obtain ⟨hring, hafter⟩ := switchToNext_eq hempty hchoice hne false
  have hlist : (m.switchToNext b.head? false).2.ready.toList = a ++ b ++ added := by
    rw [hring, hm.toList_eq]
  have hturns' : (m.switchToNext b.head? false).2.turns =
      turnsIn (a ++ b ++ added) (some next) := by
    rw [turns, hlist, hafter]
  refine .passes next rest hafter (hlist ▸ hmem) (hsame ▸ hne) ?_ (hturns' ▸ hrest)
    fun j hj hready => ?_
  · rw [hturns, horder]
  · rw [hcurrent] at hj
    cases hj
    rw [hlist] at hready
    exact absurd hready hid

theorem Coherent.moves_suspended (h : s.Coherent) {id : TaskId} (hid : s.working? = some id)
    {hint : Option TaskId} (hhint : hint = s.ready.next id) (reason : BlockReason)
    (hsome : s.turns ≠ []) : Moves s ((s.suspended id reason).switchToNext hint false).2 := by
  obtain ⟨a, b, hab⟩ := h.ready_of_working? hid
  obtain ⟨waiting', -, hq, -⟩ := h.queued.suspend hab reason
  have hspells : (s.suspended id reason).ready.Spells (a ++ b ++ []) := by
    rw [List.append_nil]
    exact hq.ready
  rw [hhint]
  exact moves_leaving (hab ▸ h.queued.ready) (working?_eq_some hid).1 hspells
    (current_suspended id reason) List.not_mem_nil hsome

theorem Coherent.moves_retired (h : s.Coherent) {id : TaskId} (hid : s.working? = some id)
    (hcleanup : s.cleanup ≠ some id) (hsome : s.turns ≠ []) : Moves s s.exit.2 := by
  obtain ⟨a, b, hab⟩ := h.ready_of_working? hid
  have hmem : id ∈ s.ready.toList := by simp [hab]
  obtain ⟨t, ht⟩ := Option.isSome_iff_exists.1 (h.queued.contains_of_ready hmem)
  have hq := h.queued.retired hab hcleanup t
  obtain ⟨ring, waiting, hq', hr, hcurrent⟩ := hq.wakeCleanup
  obtain ⟨added, hadded⟩ := (Grown.wakeCleanup (s.retired id t)).ready _ hq.ready
  -- the task that ends is not live any more, so it is not woken
  have hgone : id ∉ added := by
    intro hin
    have hring : id ∈ ring := by
      rw [← hq'.ready.toList_eq, hadded.toList_eq]
      exact List.mem_append_right _ hin
    have hlive := hq'.contains_of_ready hring
    rw [hr.contains] at hlive
    obtain ⟨u, hu⟩ := Option.isSome_iff_exists.1 hlive
    have hu : (s.retired id t).task? id = some u := hu
    rw [task?_retired, if_pos rfl] at hu
    cases hu
  rw [h.exit_eq hid hcleanup ht]
  exact moves_leaving (hab ▸ h.queued.ready) (working?_eq_some hid).1 hadded hcurrent hgone hsome

theorem Coherent.moves_start (h : s.Coherent) (hsome : s.turns ≠ []) : Moves s s.start.2 := by
  have hstarted : ({ s with started := true } : Scheduler).Coherent := ⟨h.queued.congr rfl rfl
    rfl rfl rfl, h.current⟩
  have hg : Grown s { s with started := true } := .of_ready rfl (fun _ hid => hid) rfl
  exact h.moves_after_grown hstarted hg (hstarted.moves_switchToNext hsome false)

theorem Coherent.moves_reschedule (h : s.Coherent) (hsome : s.turns ≠ []) :
    Moves s s.reschedule.2 := by
  rw [Scheduler.reschedule]
  split
  · exact h.moves_of_grown h (.refl s)
  · exact h.moves_switchToNext hsome false

theorem Coherent.moves_selectNext (h : s.Coherent) (hsome : s.turns ≠ []) :
    Moves s (s.selectNext none).2 := by
  have hready : s.ready.isEmpty = false := by
    obtain ⟨next, rest, hturns⟩ := List.exists_cons_of_ne_nil hsome
    rw [← Bool.not_eq_true, h.queued.ready.isEmpty_iff]
    exact List.ne_nil_of_mem (h.mem_turns.1 (hturns ▸ List.mem_cons_self)).1
  rw [selectNext_of_ready hready]
  exact h.moves_of_grown h (.refl s)

theorem Coherent.moves_tick (h : s.Coherent) (hsome : s.turns ≠ []) : Moves s s.tick.2 := by
  cases hstarted : s.started with
  | false =>
    rw [tick_of_stopped hstarted]
    exact h.moves_of_grown h (.refl s)
  | true =>
    obtain ⟨hticked, hg, hsome'⟩ := h.ticked hsome
    rw [tick_of_started hstarted]
    exact h.moves_after_grown hticked hg (hticked.moves_switchToNext hsome' true)

theorem Coherent.moves_block (h : s.Coherent) (hsome : s.turns ≠ []) (reason : BlockReason) :
    Moves s (s.block reason).2 := by
  cases hworking : s.working? with
  | none =>
    rw [block_eq_of_none hworking]
    exact h.moves_of_grown h (.refl s)
  | some id =>
    rw [h.block_eq hworking]
    exact h.moves_suspended hworking rfl reason hsome

theorem Coherent.moves_receive (h : s.Coherent) (hsome : s.turns ≠ []) (filter : Option Filter) :
    Moves s (s.receive filter).2 := by
  rcases h.receive_cases filter with hs | ⟨id, t, mailbox, hworking, -, hs⟩
  · rw [hs]
    exact h.moves_of_grown h (.refl s)
  have hco := h.withMailbox id mailbox
  have hg : Grown s (s.withMailbox id mailbox) := .of_ready rfl (fun _ hid => hid) rfl
  rcases hs with hs | ⟨-, hs⟩ <;> rw [hs]
  · exact h.moves_of_grown hco hg
  · exact h.moves_after_grown hco hg (hco.moves_suspended hworking rfl _ hsome)

theorem Coherent.moves_exit (h : s.Coherent) (hsome : s.turns ≠ []) : Moves s s.exit.2 := by
  by_cases hnone : s.working? = none ∨ s.working? = s.cleanup
  · rw [exit_eq_of_none hnone]
    exact h.moves_of_grown h (.refl s)
  · obtain ⟨hworking, hcleanup⟩ := not_or.1 hnone
    obtain ⟨id, hid⟩ := Option.ne_none_iff_exists'.1 hworking
    exact h.moves_retired hid (fun e => hcleanup (hid.trans e.symm)) hsome

/-- While another task waits for its turn, an operation leaves the order alone or passes the
turn to the first in it. -/
theorem Coherent.moves (h : s.Coherent) (hsome : s.turns ≠ []) (operation : Operation) :
    Moves s (s.step operation).2 := by
  obtain ⟨h', -⟩ := h.step operation
  cases operation with
  | installIdle task => exact h.moves_of_grown h' (.installIdle s task)
  | installCleanup task => exact h.moves_of_grown h' (.installCleanup s task)
  | schedule task => exact h.moves_of_grown h' (.schedule s task)
  | start => exact h.moves_start hsome
  | reschedule => exact h.moves_reschedule hsome
  | block reason => exact h.moves_block hsome reason
  | unblock id => exact h.moves_of_grown h' (.unblock s id)
  | wake id => exact h.moves_of_grown h' (.wake s id)
  | unblockWakeable => exact h.moves_of_grown h' (.unblockWakeable s)
  | tick => exact h.moves_tick hsome
  | findNext => exact h.moves_selectNext hsome
  | runNext => exact h.moves_switchToNext hsome false
  | deliver recipient message => exact h.moves_of_grown h' (.deliver s recipient message)
  | receive filter => exact h.moves_receive hsome filter
  | exit => exact h.moves_exit hsome
  | reap => exact h.moves_of_grown h' (.of_ready rfl (fun _ hid => hid) rfl)
  | changePriority id priority => exact h.moves_of_grown h' (.changePriority s id priority)

/-! ### Falling in behind a task that waits -/

/-- A task is in the ready ring and waits for its turn. -/
def Waits (s : Scheduler) (id : TaskId) : Prop :=
  id ∈ s.ready.toList ∧ s.current ≠ some id

instance (s : Scheduler) (id : TaskId) : Decidable (s.Waits id) :=
  inferInstanceAs (Decidable (_ ∧ _))

/-- A task takes its turn after `first`. -/
def Behind (s : Scheduler) (first id : TaskId) : Prop :=
  [first, id].Sublist s.turns

/-- The task that an operation switches away from while it stays in the ready ring. -/
def rotated? (s : Scheduler) (operation : Operation) : Option TaskId :=
  s.current.filter fun id => decide (id ∈ s.ready.toList ∧
    id ∈ (s.step operation).2.ready.toList ∧ (s.step operation).2.current ≠ some id)

theorem rotated?_eq_some {operation : Operation} {id : TaskId} :
    s.rotated? operation = some id ↔ s.current = some id ∧ id ∈ s.ready.toList ∧
      id ∈ (s.step operation).2.ready.toList ∧ (s.step operation).2.current ≠ some id := by
  rw [rotated?, Option.filter_eq_some_iff, decide_eq_true_eq]

theorem Coherent.turns_ne_nil (h : s.Coherent) {id : TaskId} (hid : s.Waits id) : s.turns ≠ [] :=
  List.ne_nil_of_mem (h.mem_turns.2 hid)

/-- While a task waits, those behind it stay there, and a task that is switched away from falls
in behind it. -/
theorem Behind.step (h : s.Coherent) {first : TaskId} (hwaits : s.Waits first)
    {operation : Operation} (hwaits' : (s.step operation).2.Waits first) (id : TaskId)
    (hid : s.Behind first id ∨ s.rotated? operation = some id) :
    (s.step operation).2.Behind first id := by
  cases h.moves (h.turns_ne_nil hwaits) operation with
  | stays current ring turns =>
    rcases hid with hbehind | hrotated
    · exact hbehind.trans turns
    · obtain ⟨hcurrent, -, -, hleft⟩ := rotated?_eq_some.1 hrotated
      exact absurd (current.trans hcurrent) hleft
  | passes next rest current ready differs turns others last =>
    -- the task that waits still does, so it is not the one that took over
    have hne : first ≠ next := by
      rintro rfl
      exact hwaits'.2 current
    rcases hid with hbehind | hrotated
    · have hsub : [first, id].Sublist (next :: rest) := hbehind.trans turns
      exact (List.Sublist.of_cons_of_ne hne hsub).trans others
    · obtain ⟨hcurrent, -, hstays, -⟩ := rotated?_eq_some.1 hrotated
      have hfirst : first ∈ rest :=
        (List.mem_cons.1 (turns.subset (h.mem_turns.2 hwaits))).resolve_left hne
      have hpair : [first, id].Sublist (rest ++ [id]) :=
        (List.singleton_sublist.2 hfirst).append (List.Sublist.refl [id])
      exact hpair.trans (last id hcurrent hstays)

/-! ### Stretches of a run -/

/-- The operations of a run, each with the state that it is carried out in. -/
def visits (s : Scheduler) : List Operation → List (Scheduler × Operation)
  | [] => []
  | operation :: rest => (s, operation) :: (s.step operation).2.visits rest

/-- The tasks that are switched away from while they stay in the ready ring, in order. -/
def rotations (s : Scheduler) (operations : List Operation) : List TaskId :=
  (s.visits operations).filterMap fun visit => visit.1.rotated? visit.2

/-- How many timer ticks there are while the core is started. -/
def ticks (s : Scheduler) (operations : List Operation) : Nat :=
  (s.visits operations).countP fun visit => visit.1.started && decide (visit.2 = .tick)

/-- The tasks other than `id` that are in the ready ring when some operation is carried out. -/
def companions (s : Scheduler) (operations : List Operation) (id : TaskId) : Finset TaskId :=
  ((s.visits operations).flatMap fun visit => visit.1.ready.toList).toFinset.erase id

theorem rotations_cons (operation : Operation) (rest : List Operation) :
    s.rotations (operation :: rest) =
      (s.rotated? operation).toList ++ (s.step operation).2.rotations rest := by
  rw [rotations, visits, List.filterMap_cons]
  cases s.rotated? operation <;> rfl

/-- Who is behind a task that waits is not switched away from before that task has its turn, and
neither is a task that was switched away from once. -/
theorem Coherent.nodup_rotations (h : s.Coherent) {operations : List Operation} {id : TaskId}
    (hwaits : ∀ visit ∈ s.visits operations, visit.1.Waits id) :
    (s.rotations operations).Nodup ∧ ∀ j, s.Behind id j → j ∉ s.rotations operations := by
  induction operations generalizing s with
  | nil => exact ⟨List.nodup_nil, fun _ _ hin => by cases hin⟩
  | cons operation rest ih =>
    have hnow := hwaits _ List.mem_cons_self
    have hlater : ∀ visit ∈ (s.step operation).2.visits rest, visit.1.Waits id :=
      fun visit hin => hwaits visit (List.mem_cons_of_mem _ hin)
    obtain ⟨hnodup, hbehind⟩ := ih (h.step operation).1 hlater
    -- nobody who is behind `id` now, or falls in behind it, is switched away from later
    have hnot : ∀ j, s.Behind id j ∨ s.rotated? operation = some j →
        j ∉ (s.step operation).2.rotations rest := by
      intro j hj
      cases rest with
      | nil => exact List.not_mem_nil
      | cons later rest =>
        exact hbehind j (Behind.step h hnow (hlater _ List.mem_cons_self) j hj)
    rw [rotations_cons]
    refine ⟨?_, fun j hj hin => ?_⟩
    · refine List.nodup_append.2 ⟨?_, hnodup, ?_⟩
      · cases s.rotated? operation <;> simp
      · rintro j hj k hk rfl
        exact hnot j (.inr (Option.mem_toList.1 hj)) hk
    · rcases List.mem_append.1 hin with hrotated | hin
      · -- the current task does not wait for its turn
        obtain ⟨hcurrent, -⟩ := rotated?_eq_some.1 (Option.mem_toList.1 hrotated)
        have hmem : j ∈ s.turns := hj.subset (by simp)
        exact (h.mem_turns.1 hmem).2 hcurrent
      · exact hnot j (.inl hj) hin

/-- The current task is in the ready ring. -/
def Holds (s : Scheduler) : Prop :=
  ∃ id, s.current = some id ∧ id ∈ s.ready.toList

theorem Coherent.holds_step (h : s.Coherent) {id : TaskId} (hid : s.Waits id)
    (operation : Operation) (hholds : s.Holds) : (s.step operation).2.Holds := by
  cases h.moves (h.turns_ne_nil hid) operation with
  | stays current ring turns =>
    obtain ⟨c, hc, hring⟩ := hholds
    exact ⟨c, current.trans hc, ring c hring⟩
  | passes next rest current ready => exact ⟨next, current, ready⟩

/-- A tick passes the turn on, and the task that had it stays in the ring. -/
theorem Coherent.passes_tick (h : s.Coherent) {id : TaskId} (hid : s.Waits id)
    (hstarted : s.started = true) :
    (s.step .tick).2.Holds ∧ (s.Holds → (s.rotated? .tick).isSome) := by
  obtain ⟨hticked, hg, hsome⟩ := h.ticked (h.turns_ne_nil hid)
  obtain ⟨next, rest, hturns⟩ := List.exists_cons_of_ne_nil hsome
  obtain ⟨hring, hcurrent, hnext, hne⟩ := hticked.switchToNext_first hturns true
  have htick : (s.step .tick).2 = (s.ticked.switchToNext none true).2 := by
    show s.tick.2 = _
    rw [tick_of_started hstarted]
  rw [← htick] at hring hcurrent
  refine ⟨⟨next, hcurrent, hring ▸ hnext⟩, ?_⟩
  rintro ⟨c, hc, hin⟩
  have hstays : c ∈ (s.step .tick).2.ready.toList := by
    rw [hring]
    exact (h.sublist_grown hticked hg).2 c hin
  refine Option.isSome_iff_exists.2 ⟨c, rotated?_eq_some.2 ⟨hc, hin, hstays, ?_⟩⟩
  rw [hcurrent, ← hc, ← hg.current]
  exact fun e => hne e.symm

open Classical in
/-- Every tick but the first one switches away from a task that stays in the ring. -/
theorem Coherent.ticks_le (h : s.Coherent) {operations : List Operation} {id : TaskId}
    (hwaits : ∀ visit ∈ s.visits operations, visit.1.Waits id) :
    s.ticks operations ≤ (s.rotations operations).length + if s.Holds then 0 else 1 := by
  induction operations generalizing s with
  | nil => exact Nat.zero_le _
  | cons operation rest ih =>
    have hnow := hwaits _ List.mem_cons_self
    have hrest := ih (h.step operation).1 fun visit hin => hwaits visit (List.mem_cons_of_mem _ hin)
    have hticks : s.ticks (operation :: rest) = (s.step operation).2.ticks rest +
        if s.started = true ∧ operation = .tick then 1 else 0 := by
      rw [ticks, visits, List.countP_cons]
      simp [ticks]
    rw [hticks, rotations_cons, List.length_append]
    by_cases htick : s.started = true ∧ operation = .tick
    · obtain ⟨hstarted, rfl⟩ := htick
      obtain ⟨hholds, hrotated⟩ := h.passes_tick hnow hstarted
      rw [if_pos hholds] at hrest
      rw [if_pos ⟨hstarted, rfl⟩]
      by_cases hs : s.Holds
      · obtain ⟨c, hc⟩ := Option.isSome_iff_exists.1 (hrotated hs)
        rw [hc, if_pos hs]
        simp only [Option.toList_some, List.length_singleton]
        omega
      · rw [if_neg hs]
        omega
    · rw [if_neg htick]
      by_cases hs : s.Holds
      · rw [if_pos (h.holds_step hnow operation hs)] at hrest
        omega
      · rw [if_neg hs]
        have hone : (if (s.step operation).2.Holds then 0 else 1) ≤ 1 := by split <;> omega
        omega

/-- Only tasks that are in the ring while `id` waits are switched away from. -/
theorem rotations_subset {operations : List Operation} {id : TaskId}
    (hwaits : ∀ visit ∈ s.visits operations, visit.1.Waits id) :
    (s.rotations operations).toFinset ⊆ s.companions operations id := by
  intro j hj
  rw [List.mem_toFinset, rotations, List.mem_filterMap] at hj
  obtain ⟨visit, hvisit, hrotated⟩ := hj
  obtain ⟨hcurrent, hring, -⟩ := rotated?_eq_some.1 hrotated
  refine Finset.mem_erase.2 ⟨?_, List.mem_toFinset.2 (List.mem_flatMap.2 ⟨visit, hvisit, hring⟩)⟩
  rintro rfl
  exact (hwaits visit hvisit).2 hcurrent

/-- While a task waits for its turn, no other task is switched away from twice while it stays in
the ready ring, and there is at most one timer tick for each other task in the ring, and one. -/
theorem overtaken_at_most_once (core : CoreId) (timeslice : Nat)
    (before stretch : List Operation) (id : TaskId)
    (hwaits : ∀ visit ∈ ((new core timeslice).run before).visits stretch, visit.1.Waits id) :
    (((new core timeslice).run before).rotations stretch).Nodup ∧
      ((new core timeslice).run before).ticks stretch ≤
        1 + (((new core timeslice).run before).companions stretch id).card := by
  have hco := coherent_run core timeslice before
  obtain ⟨hnodup, -⟩ := hco.nodup_rotations hwaits
  refine ⟨hnodup, ?_⟩
  have hlength := List.toFinset_card_of_nodup hnodup
  have hcard := Finset.card_le_card (rotations_subset hwaits)
  have hticks := hco.ticks_le hwaits
  split at hticks <;> omega

/-- Four tasks take turns, and the first one has its turn. -/
def fourReady : List Operation :=
  [.installIdle (plainTask 1), .schedule (plainTask 2), .schedule (plainTask 3),
    .schedule (plainTask 4), .schedule (plainTask 5), .start]

/-- One task is preempted, one sleeps and wakes, one joins, and one is preempted for the last. -/
def uptoLast : List Operation :=
  [.tick, .block (.sleep 10), .schedule (plainTask 6), .tick]

theorem overtaken_at_most_once_uptoLast :
    (∀ visit ∈ ((new 0 10).run fourReady).visits uptoLast, visit.1.Waits 5) ∧
      (((new 0 10).run fourReady).rotations uptoLast).Nodup ∧
      ((new 0 10).run fourReady).ticks uptoLast ≤
        1 + (((new 0 10).run fourReady).companions uptoLast 5).card ∧
      ((new 0 10).run fourReady).rotations uptoLast = [2, 4] ∧
      ((new 0 10).run (fourReady ++ uptoLast)).current = some 5 := by
  have hwaits : ∀ visit ∈ ((new 0 10).run fourReady).visits uptoLast, visit.1.Waits 5 := by decide
  obtain ⟨hnodup, hticks⟩ := overtaken_at_most_once 0 10 fourReady uptoLast 5 hwaits
  exact ⟨hwaits, hnodup, hticks, by decide, by decide⟩

end Scheduler

end Microkernel
