/-
The next task in turn.

Whoever asks for the next task in turn (`findNext`) is told who `runNext` would make current. The
question may ready tasks, since an empty ready ring is filled before a task is chosen from it, but
asking again changes nothing more. While no wait ends, timer ticks pass the turn round the ring one
place at a time and do nothing else.

* **`Coherent.selectNext_again`**: a choice that has been made is made again, in the same state;
* **`findNext_agrees`**: `runNext` comes to the same after any number of questions, and the task
  that was found is current then, or the idle task if none was;
* **`Coherent.tick_quiet`**: a tick while no wait is over moves the turn to the next place;
* **`ticks_go_round`**: any number of such ticks, with what each of them answers.

Design notes: a place in the ring is a number that may be larger than the length of the ring, which
is taken modulo that length. The clock of a scheduler is a natural number, so it never overflows.
-/
import Microkernel.Proofs.Scheduler.Rotation

namespace Microkernel.Scheduler

variable {s s' : Scheduler}

/-! ### Asking and passing on -/

/-- Where no wait is over, there is nobody to ready. -/
theorem unblockWakeable_of_quiet (h : ∀ id ∈ s.blocked.toList, s.isWakeable id = false) :
    s.unblockWakeable = (0, s) := by
  have hnone : s.blocked.toList.filter s.isWakeable = [] := by
    rw [List.filter_eq_nil_iff]
    intro id hid
    rw [h id hid]
    exact Bool.false_ne_true
  rw [Scheduler.unblockWakeable, hnone]
  rfl

/-- If the ready ring is empty after a scan, the scan found nobody. -/
theorem Coherent.quiet_of_empty (h : s.Coherent)
    (hempty : s.unblockWakeable.2.ready.isEmpty = true) : s.unblockWakeable = (0, s) := by
  obtain ⟨hq, -⟩ := h.queued.unblockWakeable
  have hdue := (List.append_eq_nil_iff.1 (hq.ready.isEmpty_iff.1 hempty)).2
  refine unblockWakeable_of_quiet fun id hid => ?_
  exact Bool.eq_false_iff.2 (List.filter_eq_nil_iff.1 hdue id hid)

/-- Where no task is ready, the current one is idle, and so it is not among those that are readied
either. -/
theorem Coherent.current_not_ready (h : s.Coherent) (hempty : s.ready.isEmpty = true) :
    s.current.filter s.unblockWakeable.2.ready.contains = none := by
  have hring : s.ready.toList = [] := h.queued.ready.isEmpty_iff.1 hempty
  obtain ⟨hq, hr⟩ := h.queued.unblockWakeable
  rw [Option.filter_eq_none_iff]
  intro id hid hcontains
  rcases h.current id hid with hidle | hready
  · exact (hq.idle id (hr.idle.trans hidle)).1 ((hq.ready.contains_iff id).1 hcontains)
  · rw [hring] at hready
    cases hready

/-- A choice that has been made is made again, and readies nobody. -/
theorem Coherent.selectNext_again (h : s.Coherent) :
    (s.selectNext none).2.selectNext none = s.selectNext none := by
  cases hempty : s.ready.isEmpty with
  | false => rw [selectNext_of_ready hempty]
  | true =>
    have hchoice : s.selectNext none = (s.unblockWakeable.2.ready.head, s.unblockWakeable.2) := by
      rw [Scheduler.selectNext, if_pos hempty]
    rw [hchoice]
    cases hready : s.unblockWakeable.2.ready.isEmpty with
    | true =>
      -- nobody was readied, so the ring is filled in vain a second time
      rw [h.quiet_of_empty hready, hchoice, h.quiet_of_empty hready]
    | false =>
      rw [Scheduler.selectNext, hready, current_unblockWakeable, h.current_not_ready hempty]
      rfl

/-- The turn passes on from the choice alone. -/
theorem switchToNext_congr {hint : Option TaskId} (hcurrent : s'.current = s.current)
    (hchoice : s'.selectNext hint = s.selectNext hint) (preempted : Bool) :
    s'.switchToNext hint preempted = s.switchToNext hint preempted := by
  rw [Scheduler.switchToNext, Scheduler.switchToNext, hchoice, hcurrent]

/-- To ask first makes no difference to who runs next. -/
theorem Coherent.runNext_findNext (h : s.Coherent) : s.findNext.2.runNext = s.runNext := by
  obtain ⟨_, _, -, -, hcurrent, -⟩ := h.queued.selectNext none
  exact switchToNext_congr hcurrent h.selectNext_again false

theorem Coherent.runNext_asked (h : s.Coherent) (questions : Nat) :
    (s.run (List.replicate questions .findNext)).runNext = s.runNext := by
  induction questions generalizing s with
  | zero => rfl
  | succ questions ih => exact (ih h.findNext.1).trans h.runNext_findNext

/-- To ask for the next task is harmless, and the answer is true: `runNext` answers the same and
leaves the same state, however often it was asked for before, and makes the task that is found
current, or the idle one, if any, where none is found. -/
theorem findNext_agrees (core : CoreId) (timeslice : Nat) (operations : List Operation)
    (questions : Nat) :
    let s := (new core timeslice).run operations
    let asked := s.run (List.replicate questions .findNext)
    asked.step .runNext = s.step .runNext ∧
      (∀ id, s.findNext.1 = some id → (asked.step .runNext).2.current = some id) ∧
      (s.findNext.1 = none → (asked.step .runNext).2.current = s.idle) ∧
      s.findNext.2.findNext = s.findNext := by
  intro s asked
  have h := coherent_run core timeslice operations
  have hsame : asked.step .runNext = s.step .runNext := by
    rw [Scheduler.step, Scheduler.step, h.runNext_asked questions]
  have hcurrent : (s.step .runNext).2.current = s.findNext.1.or s.idle :=
    h.queued.current_switchToNext none false
  refine ⟨hsame, fun id hid => ?_, fun hnone => ?_, h.selectNext_again⟩
  · rw [hsame, hcurrent, hid]
    rfl
  · rw [hsame, hcurrent, hnone]
    rfl

/-! ### One place further -/

/-- No wait of a blocked task is over when the clock shows `time`. -/
def QuietAt (s : Scheduler) (time : Nat) : Prop :=
  ∀ id ∈ s.blocked.toList, ((s.task? id).any fun t => t.isWakeable time) = false

instance (s : Scheduler) (time : Nat) : Decidable (s.QuietAt time) :=
  inferInstanceAs (Decidable (∀ id ∈ _, _))

/-- Behind the last place of a ring comes its first one. -/
theorem getElem?_next {α : Type} (l : List α) {i : Nat} (h : i < l.length) :
    l[i + 1]?.or l.head? = l[(i + 1) % l.length]? := by
  rcases Nat.lt_or_eq_of_le (Nat.succ_le_of_lt h) with hlt | hlast
  · rw [Nat.mod_eq_of_lt hlt, List.getElem?_eq_getElem hlt]
    rfl
  · rw [← hlast, Nat.mod_self, List.getElem?_eq_none (Nat.le_of_eq hlast.symm),
      List.head?_eq_getElem?]
    rfl

/-- The choice is the task one place further in the ring. -/
theorem Coherent.selectNext_place (h : s.Coherent) {i : Nat} {id : TaskId}
    (hcurrent : s.current = some id) (hplace : s.ready.toList[i]? = some id) :
    s.selectNext none = (s.ready.toList[(i + 1) % s.ready.toList.length]?, s) := by
  obtain ⟨hi, hid⟩ := List.getElem?_eq_some_iff.1 hplace
  have hmem : id ∈ s.ready.toList := List.mem_of_getElem? hplace
  have hready : s.ready.isEmpty = false := by
    rw [← Bool.not_eq_true, h.queued.ready.isEmpty_iff]
    exact List.ne_nil_of_mem hmem
  have hsplit : s.ready.toList = s.ready.toList.take i ++ id :: s.ready.toList.drop (i + 1) := by
    rw [← hid, List.getElem_cons_drop, List.take_append_drop]
  rw [Scheduler.selectNext, hready, Option.filter_none, hcurrent, Option.filter_some,
    (h.queued.ready.contains_iff id).2 hmem]
  simp only [Bool.false_eq_true, if_false, if_true]
  rw [h.queued.ready.next_eq hsplit, h.queued.ready.head, List.head?_drop, getElem?_next _ hi]

/-- Entering a task changes nothing but tasks and who is current. -/
theorem enter_eq (previous : Option TaskId) (next : TaskId) : s.enter previous next =
    { s with tasks := (s.enter previous next).tasks, current := some next } := by
  cases previous <;> rfl

/-- Entering a task concerns that task and the one that is left. -/
theorem task?_enter_of_ne {previous : Option TaskId} {next id : TaskId}
    (hprevious : previous ≠ some id) (hnext : id ≠ next) :
    (s.enter previous next).task? id = s.task? id := by
  have hentered : ∀ paused : Scheduler, (paused.modifyTask next fun t =>
      { t with state := .running, lastCore := some s.core }).task? id = paused.task? id := by
    intro paused
    rw [task?_modifyTask, if_neg hnext]
  cases previous with
  | none => exact hentered s
  | some j =>
    refine (hentered (s.modifyTask j pause)).trans ?_
    rw [task?_modifyTask, if_neg fun e => hprevious (congrArg some e.symm)]

/-- The answer of a tick that moves the turn from place `i` of the ring to the next one: the task
at that place is preempted, unless it is alone in the ring. -/
def Preempts (ring : List TaskId) (i : Nat) (switch : Option Switch) : Prop :=
  if ring.length = 1 then switch = none
  else ∃ leaving entering, ring[i % ring.length]? = some leaving ∧
    ring[(i + 1) % ring.length]? = some entering ∧ switch = some ⟨some leaving, entering, true⟩

/-- The turn has moved `ticks` places on from place `i` of the ring, and no task has moved. -/
structure GoneRound (s s' : Scheduler) (i ticks : Nat) : Prop where
  ready : s'.ready = s.ready
  blocked : s'.blocked = s.blocked
  elapsed : s'.elapsed = s.elapsed + ticks * s.timeslice
  current : s'.current = s.ready.toList[(i + ticks) % s.ready.toList.length]?
  timeslice : s'.timeslice = s.timeslice
  started : s'.started = s.started
  waits : ∀ id ∈ s.blocked.toList, s'.task? id = s.task? id

namespace GoneRound

theorem trans {s'' : Scheduler} {i ticks more : Nat} (h : GoneRound s s' i ticks)
    (h' : GoneRound s' s'' (i + ticks) more) : GoneRound s s'' i (ticks + more) where
  ready := h'.ready.trans h.ready
  blocked := h'.blocked.trans h.blocked
  elapsed := by rw [h'.elapsed, h.elapsed, h.timeslice, Nat.add_mul, Nat.add_assoc]
  current := by rw [h'.current, h.ready, Nat.add_assoc]
  timeslice := h'.timeslice.trans h.timeslice
  started := h'.started.trans h.started
  waits id hid := (h'.waits id (h.blocked.symm ▸ hid)).trans (h.waits id hid)

theorem quietAt {i ticks time : Nat} (h : GoneRound s s' i ticks) (hquiet : s.QuietAt time) :
    s'.QuietAt time := by
  intro id hid
  rw [h.blocked] at hid
  rw [h.waits id hid]
  exact hquiet id hid

end GoneRound

/-- Without a wait that is over, all that a tick does before the turn passes on is to advance the
clock. -/
theorem ticked_of_quiet (h : s.QuietAt (s.elapsed + s.timeslice)) : s.ticked = s.advanced := by
  have hquiet : ∀ id ∈ s.advanced.blocked.toList, s.advanced.isWakeable id = false := h
  rw [ticked, unblockWakeable_of_quiet hquiet]

/-- A tick while no wait is over moves the turn to the next place. -/
theorem Coherent.tick_quiet (h : s.Coherent) (hstarted : s.started = true) {i : Nat}
    (hsome : s.ready.toList ≠ [])
    (hcurrent : s.current = s.ready.toList[i % s.ready.toList.length]?)
    (hquiet : s.QuietAt (s.elapsed + s.timeslice)) :
    GoneRound s s.tick.2 i 1 ∧ Preempts s.ready.toList i s.tick.1 := by
  have hlength : 0 < s.ready.toList.length := List.length_pos_iff.2 hsome
  have hnodup := h.queued.ready.nodup
  have hplace : ∀ j, ∃ id, s.ready.toList[j % s.ready.toList.length]? = some id :=
    fun j => ⟨_, List.getElem?_eq_getElem (Nat.mod_lt j hlength)⟩
  obtain ⟨leaving, hleaving⟩ := hplace i
  obtain ⟨entering, hentering⟩ := hplace (i + 1)
  have hleft : s.current = some leaving := hcurrent.trans hleaving
  have hselect : s.advanced.selectNext none = (some entering, s.advanced) := by
    have hchoice := h.advanced.selectNext_place hleft hleaving
    rwa [show s.advanced.ready = s.ready from rfl, Nat.mod_add_mod, hentering] at hchoice
  have htick : s.tick = if s.current = some entering then (none, s.advanced)
      else (some ⟨s.current, entering, true⟩, s.advanced.enter s.current entering) := by
    rw [tick_of_started hstarted, ticked_of_quiet hquiet, Scheduler.switchToNext, hselect]
    rfl
  -- the next place is the same one only if there is no other
  have hsame : s.current = some entering ↔ s.ready.toList.length = 1 := by
    rw [hleft, ← hleaving, ← hentering]
    refine ⟨fun heq => ?_, fun hone => by rw [hone, Nat.mod_one, Nat.mod_one]⟩
    have hmod := Nat.sub_mod_eq_zero_of_mod_eq
      ((List.getElem?_inj (Nat.mod_lt i hlength) hnodup).1 heq).symm
    rw [Nat.add_sub_cancel_left] at hmod
    exact Nat.dvd_one.1 (Nat.dvd_of_mod_eq_zero hmod)
  rw [htick, Preempts]
  by_cases hone : s.ready.toList.length = 1
  · rw [if_pos (hsame.2 hone), if_pos hone]
    refine ⟨⟨rfl, rfl, ?_, (hsame.2 hone).trans hentering.symm, rfl, rfl, fun _ _ => rfl⟩, rfl⟩
    rw [Nat.one_mul]
    rfl
  · have hother : ¬ s.current = some entering := fun hentered => hone (hsame.1 hentered)
    rw [if_neg hother, if_neg hone]
    refine ⟨?_, leaving, entering, hleaving, hentering, by rw [hleft]⟩
    have hmem : entering ∈ s.ready.toList := List.mem_of_getElem? hentering
    have hwaits : ∀ id ∈ s.blocked.toList,
        (s.advanced.enter s.current entering).task? id = s.task? id := by
      intro id hid
      refine task?_enter_of_ne (s := s.advanced) (fun hrun => ?_) fun hin => ?_
      · have hout := h.not_blocked_of_current hrun
        rw [(h.queued.blocked.contains_iff id).2 hid] at hout
        cases hout
      · exact h.queued.apart id (hin ▸ hmem) hid
    rw [enter_eq] at hwaits ⊢
    refine ⟨rfl, rfl, ?_, hentering.symm, rfl, rfl, hwaits⟩
    rw [Nat.one_mul]
    rfl

/-- After some ticks that woke nobody, one more is like the first. -/
theorem GoneRound.tick {i ticks : Nat} (hgone : GoneRound s s' i ticks) (h : s'.Coherent)
    (hstarted : s.started = true) (hsome : s.ready.toList ≠ [])
    (hquiet : s.QuietAt (s.elapsed + (ticks + 1) * s.timeslice)) :
    GoneRound s s'.tick.2 i (ticks + 1) ∧ Preempts s.ready.toList (i + ticks) s'.tick.1 := by
  have hlater : s'.QuietAt (s'.elapsed + s'.timeslice) := by
    have hclock : s'.elapsed + s'.timeslice = s.elapsed + (ticks + 1) * s.timeslice := by
      rw [hgone.elapsed, hgone.timeslice, Nat.succ_mul, Nat.add_assoc]
    rw [hclock]
    exact hgone.quietAt hquiet
  have hring : s'.ready.toList = s.ready.toList := by rw [hgone.ready]
  have hcurrent : s'.current = s'.ready.toList[(i + ticks) % s'.ready.toList.length]? := by
    rw [hring]
    exact hgone.current
  obtain ⟨hnext, hanswer⟩ :=
    h.tick_quiet (hgone.started.trans hstarted) (hring ▸ hsome) hcurrent hlater
  exact ⟨hgone.trans hnext, hring ▸ hanswer⟩

/-- Ticks while no wait is over move the turn on, one place each. -/
theorem Coherent.ticks_quiet (h : s.Coherent) (hstarted : s.started = true) {i : Nat}
    (hsome : s.ready.toList ≠ [])
    (hcurrent : s.current = s.ready.toList[i % s.ready.toList.length]?) {ticks : Nat}
    (hquiet : ∀ m, m < ticks → s.QuietAt (s.elapsed + (m + 1) * s.timeslice)) :
    GoneRound s (s.run (List.replicate ticks .tick)) i ticks := by
  induction ticks with
  | zero => exact ⟨rfl, rfl, by rw [Nat.zero_mul]; rfl, hcurrent, rfl, rfl, fun _ _ => rfl⟩
  | succ ticks ih =>
    have hbefore := ih fun m hm => hquiet m (Nat.lt_succ_of_lt hm)
    rw [List.replicate_succ', run_concat]
    exact (hbefore.tick (h.run _) hstarted hsome (hquiet ticks (Nat.lt_succ_self ticks))).1

/-- The ready ring goes round with the timer. In a started scheduler whose current task is at place
`i` of the ring, `ticks` ticks at whose times no blocked task could be woken leave both queues as
they are, advance the clock by a timeslice each and make the task `ticks` places further round the
ring current. Each of them preempts the task that the one before it made current, unless that task
is alone. -/
theorem ticks_go_round (core : CoreId) (timeslice : Nat) (operations : List Operation)
    (i ticks : Nat) (id : TaskId)
    (hstarted : ((new core timeslice).run operations).started = true)
    (hplace : ((new core timeslice).run operations).ready.toList[i]? = some id)
    (hcurrent : ((new core timeslice).run operations).current = some id)
    (hquiet : ∀ m, m < ticks → ((new core timeslice).run operations).QuietAt
      (((new core timeslice).run operations).elapsed +
        (m + 1) * ((new core timeslice).run operations).timeslice)) :
    let s := (new core timeslice).run operations
    let s' := s.run (List.replicate ticks .tick)
    s'.ready = s.ready ∧ s'.blocked = s.blocked ∧
      s'.elapsed = s.elapsed + ticks * s.timeslice ∧
      s'.current = s.ready.toList[(i + ticks) % s.ready.toList.length]? ∧
      ∀ m, m < ticks → ∃ switch,
        ((s.run (List.replicate m .tick)).step .tick).1 = .switched switch ∧
          Preempts s.ready.toList (i + m) switch := by
  intro s s'
  have h : s.Coherent := coherent_run core timeslice operations
  have hsome : s.ready.toList ≠ [] := List.ne_nil_of_mem (List.mem_of_getElem? hplace)
  have hround : s.current = s.ready.toList[i % s.ready.toList.length]? := by
    obtain ⟨hi, -⟩ := List.getElem?_eq_some_iff.1 hplace
    rw [Nat.mod_eq_of_lt hi]
    exact hcurrent.trans hplace.symm
  have hgone := h.ticks_quiet hstarted hsome hround hquiet
  refine ⟨hgone.ready, hgone.blocked, hgone.elapsed, hgone.current, fun m hm => ?_⟩
  have hbefore : GoneRound s (s.run (List.replicate m .tick)) i m :=
    h.ticks_quiet hstarted hsome hround fun j hj => hquiet j (hj.trans hm)
  exact ⟨_, rfl, (hbefore.tick (h.run _) hstarted hsome (hquiet m hm)).2⟩

/-- Three ready tasks take turns while a fourth one sleeps, and the last of the ring is current. -/
def threeAndSleeper : List Operation :=
  [.installIdle (plainTask 1), .schedule (plainTask 2), .schedule (plainTask 3),
    .schedule (plainTask 4), .schedule (plainTask 5), .start, .block (.sleep 50), .tick, .tick]

theorem ticks_go_round_threeAndSleeper :
    ((new 0 10).run threeAndSleeper).started = true ∧
      ((new 0 10).run threeAndSleeper).ready.toList = [3, 4, 5] ∧
      ((new 0 10).run threeAndSleeper).blocked.toList = [2] ∧
      ((new 0 10).run threeAndSleeper).current = some 5 ∧
      (let s := (new 0 10).run threeAndSleeper
       let s' := s.run (List.replicate 2 .tick)
       s'.ready = s.ready ∧ s'.blocked = s.blocked ∧ s'.elapsed = s.elapsed + 2 * s.timeslice ∧
        s'.current = s.ready.toList[(2 + 2) % s.ready.toList.length]? ∧
        ∀ m, m < 2 → ∃ switch,
          ((s.run (List.replicate m .tick)).step .tick).1 = .switched switch ∧
            Preempts s.ready.toList (2 + m) switch) := by
  exact ⟨by decide, by decide, by decide, by decide,
    ticks_go_round 0 10 threeAndSleeper 2 2 5 (by decide) (by decide) (by decide) (by decide)⟩

end Microkernel.Scheduler
