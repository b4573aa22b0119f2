/-
What each operation of a scheduler does.

There is one statement for each operation. It says that a coherent scheduler stays coherent,
which errors are possible, what happens to the tasks and what they own, and that a switch the
operation asks for can be carried out (`Resolved`).

* **`Coherent.block`**, **`Coherent.receive`**, **`Coherent.exit`**: the only error is that no task
  is current that could block or exit;
* **`Coherent.deliver`**: mail is refused to a task that is neither ready nor blocked, or by its
  mailbox;
* **`Coherent.schedule`**, **`Coherent.installIdle`**: a new task is refused only when its id is
  that of a live one.

Design notes: where an operation first changes what a task owns and then moves tasks, the
statement names the state in between (`withMailbox`, `retired`) and the rest is `Rearranged`.
-/
import Microkernel.Proofs.Mailbox
import Microkernel.Proofs.Scheduler.Queues

namespace Microkernel.Scheduler

variable {s s' : Scheduler}

/-! ### Switches that can be carried out -/

/-- The switch, if there is one, can be resolved into stacks. -/
def Resolved (s : Scheduler) (switch : Option Switch) : Prop :=
  ∀ sw, switch = some sw → ∃ prepared, s.prepare sw = .ok prepared

theorem resolved_none (s : Scheduler) : s.Resolved none :=
  fun _ h => by cases h

theorem Coherent.contains_current (h : s.Coherent) {id : TaskId} (hid : s.current = some id) :
    s.contains id = true := by
  rcases h.current id hid with hidle | hready
  · exact (h.queued.live id).2 (.inr (.inr hidle))
  · exact h.queued.contains_of_ready hready

theorem isSome_leavingTask?_of_contains {id : TaskId} (h : s.contains id = true) :
    (s.leavingTask? id).isSome := by
  have htask : (s.task? id).isSome = true := h
  rw [leavingTask?, Option.isSome_or, htask]
  rfl

theorem Rearranged.isSome_leavingTask? (h : Rearranged s s') (id : TaskId) :
    (s'.leavingTask? id).isSome = (s.leavingTask? id).isSome := by
  have hcontains : (s'.task? id).isSome = (s.task? id).isSome := h.contains id
  rw [leavingTask?, leavingTask?, Option.isSome_or, Option.isSome_or, hcontains, h.exited]

theorem Coherent.prepare (h : s.Coherent) {sw : Switch} (hentering : s.current = some sw.entering)
    (hleaving : ∀ id, sw.leaving = some id → (s.leavingTask? id).isSome) :
    ∃ prepared, s.prepare sw = .ok prepared := by
  obtain ⟨next, hnext⟩ := Option.isSome_iff_exists.1 (h.contains_current hentering)
  have htask : s.task? sw.entering = some next := hnext
  rw [Scheduler.prepare, htask]
  cases hl : sw.leaving with
  | none => exact ⟨_, rfl⟩
  | some id =>
    obtain ⟨t, ht⟩ := Option.isSome_iff_exists.1 (hleaving id hl)
    simp only [ht]
    exact ⟨_, rfl⟩

/-- Choosing the next task, while the one that was current can still be left. -/
theorem Queued.turn {ring waiting : List TaskId} (h : s.Queued ring waiting)
    (hleaving : ∀ id, s.current = some id → (s.leavingTask? id).isSome)
    {hint : Option TaskId} {preempted : Bool} {switch : Option Switch}
    (hs : s.switchToNext hint preempted = (switch, s')) :
    s'.Coherent ∧ s'.Resolved switch ∧ Rearranged s s' := by
  obtain ⟨hco, hr, hsw⟩ := h.switchToNext hs
  refine ⟨hco, fun sw hswitch => ?_, hr⟩
  have hturn := hsw sw hswitch
  refine hco.prepare hturn.entering fun id hid => ?_
  rw [hr.isSome_leavingTask?]
  exact hleaving id (hturn.leaving ▸ hid)

theorem Coherent.leavingTask? (h : s.Coherent) (id : TaskId) (hid : s.current = some id) :
    (s.leavingTask? id).isSome :=
  isSome_leavingTask?_of_contains (h.contains_current hid)

/-! ### Dispatching -/

theorem Coherent.start (h : s.Coherent) {switch : Option Switch}
    (hs : s.start = (switch, s')) : s'.Coherent ∧ s'.Resolved switch ∧ Rearranged s s' := by
  have hq : ({ s with started := true } : Scheduler).Queued s.ready.toList s.blocked.toList :=
    h.queued.congr rfl rfl rfl rfl rfl
  obtain ⟨hco, hres, hr⟩ := hq.turn h.leavingTask? hs
  exact ⟨hco, hres, hr.fixed, hr.exited, hr.idle, hr.cleanup, hr.core⟩

theorem Coherent.reschedule (h : s.Coherent) {switch : Option Switch}
    (hs : s.reschedule = (switch, s')) :
    s'.Coherent ∧ s'.Resolved switch ∧ Rearranged s s' := by
  rw [Scheduler.reschedule] at hs
  split at hs
  · obtain ⟨rfl, rfl⟩ := Prod.mk.inj hs
    exact ⟨h, resolved_none s, Rearranged.refl s⟩
  · exact h.queued.turn h.leavingTask? hs

theorem Coherent.tick (h : s.Coherent) {switch : Option Switch} (hs : s.tick = (switch, s')) :
    s'.Coherent ∧ s'.Resolved switch ∧ Rearranged s s' := by
  rw [Scheduler.tick] at hs
  split at hs
  · have hq : ({ s with elapsed := s.elapsed + s.timeslice } : Scheduler).Queued s.ready.toList
        s.blocked.toList := h.queued.congr rfl rfl rfl rfl rfl
    obtain ⟨hq', hr⟩ := hq.unblockWakeable
    -- waking the sleepers does not change who is current
    have hleaving : ∀ id, ({ s with elapsed := s.elapsed + s.timeslice } :
        Scheduler).unblockWakeable.2.current = some id →
        (({ s with elapsed := s.elapsed + s.timeslice } :
          Scheduler).unblockWakeable.2.leavingTask? id).isSome := by
      intro id hid
      rw [hr.isSome_leavingTask?]
      rw [current_unblockWakeable] at hid
      exact h.leavingTask? id hid
    obtain ⟨hco, hres, hr'⟩ := hq'.turn hleaving hs
    have hall := hr.trans hr'
    exact ⟨hco, hres, hall.fixed, hall.exited, hall.idle, hall.cleanup, hall.core⟩
  · obtain ⟨rfl, rfl⟩ := Prod.mk.inj hs
    exact ⟨h, resolved_none s, Rearranged.refl s⟩

/-! ### Blocking and waking -/

theorem working?_eq_some {id : TaskId} (h : s.working? = some id) :
    s.current = some id ∧ s.idle ≠ some id := by
  have hmem := Option.mem_filter_iff.1 h
  exact ⟨hmem.1, of_decide_eq_true hmem.2⟩

theorem Coherent.ready_of_working? (h : s.Coherent) {id : TaskId} (hid : s.working? = some id) :
    ∃ a b, s.ready.toList = a ++ id :: b := by
  obtain ⟨hcurrent, hidle⟩ := working?_eq_some hid
  exact List.append_of_mem ((h.current id hcurrent).resolve_left hidle)

theorem Coherent.block (h : s.Coherent) {reason : BlockReason}
    {result : Except Error (Option Switch)} (hb : s.block reason = (result, s')) :
    (result = .error .noCurrentTask ∧ s.working? = none ∧ s' = s) ∨
      ∃ switch, result = .ok switch ∧ s'.Coherent ∧ s'.Resolved switch ∧ Rearranged s s' := by
  rw [Scheduler.block] at hb
  split at hb
  · rename_i hnone
    obtain ⟨rfl, rfl⟩ := Prod.mk.inj hb
    exact .inl ⟨rfl, hnone, rfl⟩
  · rename_i id hid
    obtain ⟨a, b, hab⟩ := h.ready_of_working? hid
    have hmem : id ∈ s.ready.toList := by simp [hab]
    have hready : s.ready.contains id = true := (h.queued.ready.contains_iff id).2 hmem
    have hcontains : ({ s with ready := (s.ready.remove id).2 } : Scheduler).contains id = true :=
      h.queued.contains_of_ready hmem
    obtain ⟨waiting', -, hq, hr⟩ := h.queued.suspend hab reason
    -- the task that blocks is out of the ring, but its stack can still be left
    have hleaving : ∀ j, (({ s with ready := (s.ready.remove id).2 } : Scheduler).suspend id
        reason).current = some j → ((({ s with ready := (s.ready.remove id).2 } :
          Scheduler).suspend id reason).leavingTask? j).isSome := by
      intro j hj
      rw [hr.isSome_leavingTask?]
      refine h.leavingTask? j (Eq.trans ?_ hj)
      cases reason <;> rfl
    simp only [hready, hcontains] at hb
    obtain ⟨rfl, rfl⟩ := Prod.mk.inj hb
    obtain ⟨hco, hres, hr'⟩ := hq.turn hleaving rfl
    exact .inr ⟨_, rfl, hco, hres, hr.trans hr'⟩

/-- A rearrangement that leaves the queues and the current task alone. -/
theorem Coherent.of_rearranged (h : s.Coherent) (hr : Rearranged s s')
    (hready : s'.ready = s.ready) (hblocked : s'.blocked = s.blocked)
    (hcurrent : s'.current = s.current) : s'.Coherent := by
  have hq : s'.Queued s.ready.toList s.blocked.toList :=
    h.queued.rearranged hr (hready ▸ h.queued.ready) (hblocked ▸ h.queued.blocked)
      h.queued.apart fun _ => Iff.rfl
  refine hq.coherent fun j hj => ?_
  rw [hr.idle]
  exact h.current j (hcurrent ▸ hj)

theorem Coherent.makeReady (h : s.Coherent) {id : TaskId}
    (hid : id ∈ s.ready.toList ∨ id ∈ s.blocked.toList) :
    (s.makeReady id).Coherent ∧ Rearranged s (s.makeReady id) := by
  by_cases hblocked : id ∈ s.blocked.toList
  · obtain ⟨a, b, hab⟩ := List.append_of_mem hblocked
    obtain ⟨hq, hr⟩ := h.queued.makeReady hab
    refine ⟨hq.coherent fun j hj => ?_, hr⟩
    rw [hr.idle]
    exact (h.current j hj).imp_right (List.mem_append_left [id])
  · -- a task that is ready already stays where it is in the ring
    have hready := hid.resolve_right hblocked
    have hr : Rearranged s (s.makeReady id) :=
      Rearranged.of_modify id (fun t => { t with state := .ready, waitSince := none })
        (fun _ => rfl) rfl rfl rfl rfl rfl
    have hring : (s.makeReady id).ready = s.ready :=
      congrArg Prod.snd (h.queued.ready.append_of_mem hready)
    have hwaiting : (s.makeReady id).blocked = s.blocked :=
      congrArg Prod.snd (h.queued.blocked.remove_of_not_mem hblocked)
    exact ⟨h.of_rearranged hr hring hwaiting rfl, hr⟩

theorem Coherent.wake (h : s.Coherent) (id : TaskId) :
    (s.wake id).2.Coherent ∧ Rearranged s (s.wake id).2 := by
  obtain ⟨ring', waiting', hq, hr, hsub⟩ := h.queued.wake id
  refine ⟨hq.coherent fun j hj => ?_, hr⟩
  rw [current_wake] at hj
  rw [hr.idle]
  exact (h.current j hj).imp_right (hsub j)

/-! ### Messages -/

/-- The scheduler after the mailbox of one task was replaced. -/
def withMailbox (s : Scheduler) (id : TaskId) (mailbox : Mailbox) : Scheduler :=
  s.modifyTask id fun t => { t with mailbox := mailbox }

theorem task?_withMailbox (id : TaskId) (mailbox : Mailbox) (j : TaskId) :
    (s.withMailbox id mailbox).task? j = if j = id then (s.task? j).map fun t =>
      { t with mailbox := mailbox } else s.task? j :=
  task?_modifyTask id _ j

theorem Coherent.withMailbox (h : s.Coherent) (id : TaskId) (mailbox : Mailbox) :
    (s.withMailbox id mailbox).Coherent := by
  have hnamed : ∀ j t, (s.withMailbox id mailbox).task? j = some t → t.id = j := by
    intro j t ht
    rw [task?_withMailbox] at ht
    split at ht
    · obtain ⟨t', ht', rfl⟩ := Option.map_eq_some_iff.1 ht
      exact h.queued.named j t' ht'
    · exact h.queued.named j t ht
  refine ⟨⟨h.queued.ready, h.queued.blocked, hnamed, fun j => ?_, h.queued.apart, h.queued.idle,
    h.queued.cleanup⟩, h.current⟩
  rw [Scheduler.withMailbox, contains_modifyTask]
  exact h.queued.live j

/-- A live task other than the idle one can be sent mail. -/
theorem Coherent.deliverable_iff (h : s.Coherent) (id : TaskId) :
    (s.blocked.contains id || s.ready.contains id) = true ↔
      s.contains id = true ∧ s.idle ≠ some id := by
  rw [Bool.or_eq_true, h.queued.blocked.contains_iff, h.queued.ready.contains_iff, h.queued.live]
  constructor
  · intro hid
    refine ⟨hid.elim (fun hb => .inr (.inl hb)) .inl, fun hidle => ?_⟩
    obtain ⟨hr, hb⟩ := h.queued.idle id hidle
    exact hid.elim hb hr
  · rintro ⟨hr | hb | hidle, hne⟩
    · exact .inr hr
    · exact .inl hb
    · exact absurd hidle hne

theorem Coherent.deliver (h : s.Coherent) {recipient : TaskId} {message : Message}
    {result : Except Error Bool} (hd : s.deliver recipient message = (result, s')) :
    (result = .error .recipientNotFound ∧ s' = s ∧
        ¬ (s.contains recipient = true ∧ s.idle ≠ some recipient)) ∨
      ∃ t, s.task? recipient = some t ∧ s.idle ≠ some recipient ∧
        ((∃ e, result = .error e ∧ s' = s ∧ t.mailbox.send message = .error e) ∨
          ∃ woken mailbox, result = .ok woken ∧ t.mailbox.send message = .ok mailbox ∧
            s'.Coherent ∧ Rearranged (s.withMailbox recipient mailbox) s' ∧
            s'.current = s.current) := by
  have hiff := h.deliverable_iff recipient
  rw [Scheduler.deliver] at hd
  split at hd
  · rename_i hnot
    obtain ⟨rfl, rfl⟩ := Prod.mk.inj hd
    refine .inl ⟨rfl, rfl, ?_⟩
    rw [← hiff]
    simpa using hnot
  · rename_i hin
    have hin : (s.blocked.contains recipient || s.ready.contains recipient) = true := by
      revert hin
      cases s.blocked.contains recipient <;> cases s.ready.contains recipient <;> simp
    obtain ⟨hcontains, hidle⟩ := hiff.1 hin
    obtain ⟨t, ht⟩ := Option.isSome_iff_exists.1 hcontains
    have ht : s.task? recipient = some t := ht
    rw [ht] at hd
    refine .inr ⟨t, ht, hidle, ?_⟩
    simp only at hd
    split at hd
    · rename_i e he
      obtain ⟨rfl, rfl⟩ := Prod.mk.inj hd
      exact .inl ⟨e, rfl, rfl, he⟩
    · rename_i mailbox hmailbox
      have hco := h.withMailbox recipient mailbox
      split at hd
      · obtain ⟨rfl, rfl⟩ := Prod.mk.inj hd
        have hqueued : recipient ∈ s.ready.toList ∨ recipient ∈ s.blocked.toList := by
          rw [Bool.or_eq_true, h.queued.blocked.contains_iff, h.queued.ready.contains_iff] at hin
          exact hin.symm
        obtain ⟨hco', hr⟩ := hco.makeReady hqueued
        exact .inr ⟨_, mailbox, rfl, hmailbox, hco', hr, rfl⟩
      · obtain ⟨rfl, rfl⟩ := Prod.mk.inj hd
        exact .inr ⟨_, mailbox, rfl, hmailbox, hco, Rearranged.refl _, rfl⟩

theorem working?_withMailbox (id : TaskId) (mailbox : Mailbox) :
    (s.withMailbox id mailbox).working? = s.working? := rfl

theorem Coherent.receive (h : s.Coherent)
    (hmail : ∀ id t, s.task? id = some t → t.mailbox.Sound) {filter : Option Filter}
    {result : Except Error Reception} (hr : s.receive filter = (result, s')) :
    (result = .error .noCurrentTask ∧ s.working? = none ∧ s' = s) ∨
      ∃ id t mailbox, s.working? = some id ∧ s.task? id = some t ∧ mailbox.Sound ∧
        mailbox.messages = t.mailbox.messages.eraseP (Mailbox.admits filter) ∧
        mailbox.capacity = t.mailbox.capacity ∧
        ((∃ message, result = .ok (.received message) ∧ s' = s.withMailbox id mailbox ∧
            t.mailbox.messages.find? (Mailbox.admits filter) = some message) ∨
          ∃ switch, result = .ok (.waiting switch) ∧ s'.Coherent ∧ s'.Resolved switch ∧
            Rearranged (s.withMailbox id mailbox) s' ∧
            t.mailbox.messages.find? (Mailbox.admits filter) = none) := by
  rw [Scheduler.receive] at hr
  split at hr
  · rename_i hnone
    obtain ⟨rfl, rfl⟩ := Prod.mk.inj hr
    exact .inl ⟨rfl, hnone, rfl⟩
  · rename_i id hid
    obtain ⟨t, ht⟩ := Option.isSome_iff_exists.1 (h.contains_current (working?_eq_some hid).1)
    have ht : s.task? id = some t := ht
    obtain ⟨mailbox, htake, hsound, hmessages, hcap, -⟩ := (hmail id t ht).takeMessage filter
    refine .inr ⟨id, t, mailbox, hid, ht, hsound, hmessages, hcap, ?_⟩
    simp only [ht, htake] at hr
    cases hfind : t.mailbox.messages.find? (Mailbox.admits filter) with
    | some message =>
      rw [hfind] at hr
      obtain ⟨rfl, rfl⟩ := Prod.mk.inj hr
      exact .inl ⟨message, rfl, rfl, rfl⟩
    | none =>
      rw [hfind] at hr
      have hco := h.withMailbox id mailbox
      -- nothing suitable was there, so the task blocks, and that it can was seen above
      cases hb : (s.withMailbox id mailbox).block (.mail (filter.map fun _ => mailbox.sends)) with
      | mk blockResult s₁ =>
        have hblocked : (s.modifyTask id fun t => { t with mailbox := mailbox }).block
            (.mail (filter.map fun _ => mailbox.sends)) = (blockResult, s₁) := hb
        simp only [hblocked] at hr
        rcases hco.block hb with ⟨-, hnone, -⟩ | ⟨switch, rfl, hco', hres, hr'⟩
        · rw [working?_withMailbox, hid] at hnone
          cases hnone
        · obtain ⟨rfl, rfl⟩ := Prod.mk.inj hr
          exact .inr ⟨switch, rfl, hco', hres, hr', rfl⟩

/-! ### The end of tasks -/

/-- The scheduler after a task was taken off the ready ring and out of the table. -/
def retired (s : Scheduler) (id : TaskId) (task : Task) : Scheduler :=
  { s with
    ready := (s.ready.remove id).2
    tasks := s.tasks.erase id
    score := s.score - task.priority.weight
    exited := s.exited ++ [{ task with state := .exited, mailbox := task.mailbox.release }] }

theorem task?_retired (id : TaskId) (task : Task) (j : TaskId) :
    (s.retired id task).task? j = if j = id then none else s.task? j :=
  Table.get?_erase s.tasks id j

theorem Queued.retired {ring waiting a b : List TaskId} (h : s.Queued ring waiting)
    {id : TaskId} (hring : ring = a ++ id :: b) (hcleanup : s.cleanup ≠ some id) (task : Task) :
    (s.retired id task).Queued (a ++ b) waiting where
  ready := h.ready.remove hring
  blocked := h.blocked
  named j t ht := by
    rw [task?_retired] at ht
    split at ht
    · cases ht
    · exact h.named j t ht
  live j := by
    have hcontains : (s.retired id task).contains j = true ↔ j ≠ id ∧ s.contains j = true := by
      have htask := congrArg Option.isSome (task?_retired (s := s) id task j)
      have hdef : (s.retired id task).contains j = ((s.retired id task).task? j).isSome := rfl
      have hdef' : s.contains j = (s.task? j).isSome := rfl
      rw [hdef, htask, hdef']
      by_cases hj : j = id
      · simp [hj]
      · simp [hj]
    have hnodup := h.ready.nodup
    have hid : id ∈ ring := by simp [hring]
    have hwaiting := h.apart id hid
    have hidle : s.idle ≠ some id := fun hidle => (h.idle id hidle).1 hid
    rw [hcontains, h.live, hring]
    have hidle' : (s.retired id task).idle = s.idle := rfl
    rw [hidle']
    rw [hring] at hnodup
    grind
  apart j hj := h.apart j (by rw [hring]; grind)
  idle j hj := by
    obtain ⟨hr, hb⟩ := h.idle j hj
    rw [hring] at hr
    exact ⟨by grind, hb⟩
  cleanup j hj := by
    have hne : j ≠ id := fun e => hcleanup (e ▸ hj)
    have hmem := h.cleanup j hj
    rw [hring] at hmem
    grind

/-- The cleanup task is woken if there is one, and only moves between the queues. -/
theorem Queued.wakeCleanup {ring waiting : List TaskId} (h : s.Queued ring waiting) :
    ∃ ring' waiting', s.wakeCleanup.Queued ring' waiting' ∧ Rearranged s s.wakeCleanup ∧
      s.wakeCleanup.current = s.current := by
  rw [Scheduler.wakeCleanup]
  split
  · rename_i c _
    obtain ⟨ring', waiting', hq, hr, -⟩ := h.wake c
    exact ⟨ring', waiting', hq, hr, current_wake _ c⟩
  · exact ⟨_, _, h, Rearranged.refl _, rfl⟩

theorem Coherent.exit (h : s.Coherent) {result : Except Error Exit}
    (he : s.exit = (result, s')) :
    (result = .error .noCurrentTask ∧ s' = s) ∨
      ∃ id t switch, result = .ok ⟨id, switch⟩ ∧ s.working? = some id ∧ s.cleanup ≠ some id ∧
        s.task? id = some t ∧ s'.Coherent ∧ s'.Resolved switch ∧
        Rearranged (s.retired id t) s' := by
  rw [Scheduler.exit] at he
  split at he
  · obtain ⟨rfl, rfl⟩ := Prod.mk.inj he
    exact .inl ⟨rfl, rfl⟩
  · rename_i id hfilter
    obtain ⟨hid, hcleanup⟩ := Option.mem_filter_iff.1 hfilter
    have hcleanup : s.cleanup ≠ some id := of_decide_eq_true hcleanup
    obtain ⟨a, b, hab⟩ := h.ready_of_working? hid
    have hmem : id ∈ s.ready.toList := by simp [hab]
    have hready : s.ready.contains id = true := (h.queued.ready.contains_iff id).2 hmem
    obtain ⟨t, ht⟩ := Option.isSome_iff_exists.1 (h.queued.contains_of_ready hmem)
    have ht : ({ s with ready := (s.ready.remove id).2 } : Scheduler).task? id = some t := ht
    have hq := h.queued.retired hab hcleanup t
    obtain ⟨ring, waiting, hq', hr, hwoken⟩ := hq.wakeCleanup
    have hcurrent : (s.retired id t).wakeCleanup.current = s.current := hwoken
    have hleaving : ∀ j, (s.retired id t).wakeCleanup.current = some j →
        ((s.retired id t).wakeCleanup.leavingTask? j).isSome := by
      intro j hj
      rw [hcurrent, (working?_eq_some hid).1] at hj
      cases hj
      -- the task that ends is the last one of those that are over
      have hnamed := h.queued.named id t ht
      rw [hr.isSome_leavingTask?, Scheduler.leavingTask?, Option.isSome_or]
      simp [Scheduler.retired, hnamed]
    simp only [hready, ht] at he
    obtain ⟨rfl, rfl⟩ := Prod.mk.inj he
    obtain ⟨hco, hres, hr'⟩ := hq'.turn hleaving rfl
    exact .inr ⟨id, t, _, rfl, hid, hcleanup, ht, hco, hres, hr.trans hr'⟩

theorem Coherent.reap (h : s.Coherent) :
    s.reap.2.Coherent :=
  ⟨h.queued.congr rfl rfl rfl rfl rfl, h.current⟩

/-! ### New tasks and priorities -/

theorem Coherent.changePriority (h : s.Coherent) {id : TaskId} {priority : Priority}
    {result : Except Error Unit} (hc : s.changePriority id priority = (result, s')) :
    ((result = .error .recipientNotFound ∧ s' = s) ∨ result = .ok ()) ∧ s'.Coherent ∧
      Rearranged s s' ∧ s'.current = s.current := by
  rw [Scheduler.changePriority] at hc
  split at hc
  · obtain ⟨rfl, rfl⟩ := Prod.mk.inj hc
    exact ⟨.inl ⟨rfl, rfl⟩, h, Rearranged.refl s, rfl⟩
  · obtain ⟨rfl, rfl⟩ := Prod.mk.inj hc
    suffices hr : Rearranged s _ from ⟨.inr rfl, h.of_rearranged hr rfl rfl rfl, hr, rfl⟩
    exact Rearranged.of_modify id (fun t => { t with priority := priority }) (fun _ => rfl)
      rfl rfl rfl rfl rfl

/-- `s'` has the tasks of `s` and one more, which is ready. -/
structure Joined (s : Scheduler) (task : Task) (s' : Scheduler) : Prop where
  task? : ∀ j, s'.task? j =
    if j = task.id then some { task with state := .ready, lastCore := some s.core } else s.task? j
  exited : s'.exited = s.exited
  core : s'.core = s.core
  current : s'.current = s.current

theorem Joined.tasks_eq {task : Task} (h : Joined s task s') :
    s'.tasks = s.tasks.insert task.id { task with state := .ready, lastCore := some s.core } :=
  Table.ext_get? fun j => (h.task? j).trans (Table.get?_insert _ _ _ j).symm

theorem get?_of_contains_eq_false {id : TaskId} (h : s.contains id = false) :
    s.tasks.get? id = none := by
  have hcontains : (s.tasks.get? id).isSome = false := h
  simpa using hcontains

theorem Joined.contains {task : Task} (h : Joined s task s') (j : TaskId) :
    s'.contains j = true ↔ j = task.id ∨ s.contains j = true := by
  have hdef : s'.contains j = (s'.task? j).isSome := rfl
  have hdef' : s.contains j = (s.task? j).isSome := rfl
  rw [hdef, hdef', h.task?]
  by_cases hj : j = task.id
  · simp [hj]
  · simp [hj]

theorem Joined.contains_eq_false {task : Task} (h : Joined s task s') {j : TaskId}
    (hj : s.contains j = false) (hne : j ≠ task.id) : s'.contains j = false := by
  rw [← Bool.not_eq_true, h.contains]
  simp [hj, hne]

/-- A task joins a coherent scheduler in the ready ring, or as its idle task. -/
theorem Queued.joined {ring waiting ring' : List TaskId} (h : s.Queued ring waiting)
    {task : Task} (hj : Joined s task s') (hfresh : s.contains task.id = false)
    (hready : s'.ready.Spells ring') (hblocked : s'.blocked = s.blocked)
    (hmem : ∀ j, j ∈ ring' ∨ s'.idle = some j ↔ j = task.id ∨ j ∈ ring ∨ s.idle = some j)
    (hidle : ∀ j, s'.idle = some j → j ∉ ring')
    (hcleanup : ∀ j, s'.cleanup = some j → s.cleanup = some j ∨ j ∈ ring')
    (hkept : ∀ j, j ∈ ring → j ∈ ring') : s'.Queued ring' waiting := by
  have hnot : task.id ∉ waiting := by
    intro hmem
    rw [h.contains_of_blocked hmem] at hfresh
    cases hfresh
  have hapart : ∀ j, (j ∈ ring' ∨ s'.idle = some j) → j ∉ waiting := by
    intro j hj hw
    rcases (hmem j).1 hj with rfl | hring | hid
    · exact hnot hw
    · exact h.apart j hring hw
    · exact (h.idle j hid).2 hw
  refine ⟨hready, hblocked ▸ h.blocked, fun j t ht => ?_, fun j => ?_,
    fun j hj => hapart j (.inl hj), fun j hj => ⟨hidle j hj, hapart j (.inr hj)⟩, fun j hj => ?_⟩
  · rw [hj.task?] at ht
    split at ht
    · rename_i heq
      cases ht
      exact heq.symm
    · exact h.named j t ht
  · rw [hj.contains, h.live]
    have := hmem j
    grind
  · rcases hcleanup j hj with hc | hc
    · exact (h.cleanup j hc).imp_left (hkept j)
    · exact .inl hc

theorem Coherent.schedule (h : s.Coherent) {task : Task} {result : Except Error Unit}
    (hs : s.schedule task = (result, s')) :
    (result = .error .invalidQueueState ∧ s.contains task.id = true ∧ s' = s) ∨
      (result = .ok () ∧ s.contains task.id = false ∧ s'.Coherent ∧ Joined s task s' ∧
        task.id ∈ s'.ready.toList ∧ s'.idle = s.idle ∧ s'.cleanup = s.cleanup) := by
  rw [Scheduler.schedule] at hs
  split at hs
  · rename_i hcontains
    obtain ⟨rfl, rfl⟩ := Prod.mk.inj hs
    exact .inl ⟨rfl, hcontains, rfl⟩
  · rename_i hfresh
    obtain ⟨rfl, rfl⟩ := Prod.mk.inj hs
    have hfresh : s.contains task.id = false := by simpa using hfresh
    have hnot : task.id ∉ s.ready.toList := by
      intro hmem
      rw [h.queued.contains_of_ready hmem] at hfresh
      cases hfresh
    have hj : Joined s task { s with
        score := s.score + task.priority.weight
        tasks := s.tasks.insert task.id { task with state := .ready, lastCore := some s.core }
        ready := (s.ready.append task.id).2 } :=
      ⟨fun j => Table.get?_insert s.tasks task.id _ j, rfl, rfl, rfl⟩
    have hready := h.queued.ready.append hnot
    have hidle : s.idle ≠ some task.id := by
      intro hidle
      rw [(h.queued.live task.id).2 (.inr (.inr hidle))] at hfresh
      cases hfresh
    have hq := h.queued.joined hj hfresh hready rfl (fun j => by grind) (fun j hid => by
      have := (h.queued.idle j hid).1
      grind) (fun j hc => .inl hc) fun j hj => List.mem_append_left _ hj
    refine .inr ⟨rfl, hfresh, hq.coherent fun j hcurrent => ?_, hj, ?_, rfl, rfl⟩
    · exact (h.current j hcurrent).imp_right (List.mem_append_left _)
    · rw [hq.ready.toList_eq]
      exact List.mem_append_right _ (List.mem_singleton.2 rfl)

theorem Coherent.installCleanup (h : s.Coherent) {task : Task} {result : Except Error Unit}
    (hs : s.installCleanup task = (result, s')) :
    (result = .error .invalidQueueState ∧ s.contains task.id = true ∧ s' = s) ∨
      (result = .ok () ∧ s.contains task.id = false ∧ s'.Coherent ∧ Joined s task s' ∧
        s'.idle = s.idle ∧ s'.cleanup = some task.id) := by
  rw [Scheduler.installCleanup] at hs
  cases hsched : s.schedule task with
  | mk result₁ s₁ =>
    rw [hsched] at hs
    rcases h.schedule hsched with ⟨rfl, hcontains, rfl⟩ | ⟨rfl, hfresh, hco, hj, hmem, hidle, -⟩
    · obtain ⟨rfl, rfl⟩ := Prod.mk.inj hs
      exact .inl ⟨rfl, hcontains, rfl⟩
    · obtain ⟨rfl, rfl⟩ := Prod.mk.inj hs
      have hq := hco.queued
      refine .inr ⟨rfl, hfresh, ⟨⟨hq.ready, hq.blocked, hq.named, hq.live, hq.apart, hq.idle,
        fun j hj => ?_⟩, hco.current⟩, ⟨hj.task?, hj.exited, hj.core, hj.current⟩, hidle, rfl⟩
      cases hj
      exact .inl hmem

theorem Coherent.installIdle (h : s.Coherent) {task : Task} {result : Except Error Unit}
    (hs : s.installIdle task = (result, s')) :
    (result = .error .invalidQueueState ∧ (s.contains task.id = true ∨ s.idle.isSome) ∧
        s' = s) ∨
      (result = .ok () ∧ s.contains task.id = false ∧ s'.Coherent ∧ Joined s task s' ∧
        s'.idle = some task.id ∧ s'.cleanup = s.cleanup) := by
  rw [Scheduler.installIdle] at hs
  split at hs
  · rename_i hrefused
    obtain ⟨rfl, rfl⟩ := Prod.mk.inj hs
    exact .inl ⟨rfl, by simpa using hrefused, rfl⟩
  · rename_i haccepted
    obtain ⟨rfl, rfl⟩ := Prod.mk.inj hs
    obtain ⟨hfresh, hnone⟩ : s.contains task.id = false ∧ s.idle = none := by simpa using haccepted
    have hnot : task.id ∉ s.ready.toList := by
      intro hmem
      rw [h.queued.contains_of_ready hmem] at hfresh
      cases hfresh
    have hj : Joined s task { s with
        tasks := s.tasks.insert task.id { task with state := .ready, lastCore := some s.core }
        idle := some task.id } :=
      ⟨fun j => Table.get?_insert s.tasks task.id _ j, rfl, rfl, rfl⟩
    have hq := h.queued.joined hj hfresh h.queued.ready rfl (fun j => by
      rw [hnone]
      grind) (fun j hid => by
      cases hid
      exact hnot) (fun j hc => .inl hc) fun j hj => hj
    refine .inr ⟨rfl, hfresh, hq.coherent fun j hcurrent => ?_, hj, rfl, rfl⟩
    refine .inr ((h.current j hcurrent).resolve_left ?_)
    rw [hnone]
    exact fun e => by cases e

/-- A scheduler without tasks takes an idle and a cleanup task. -/
theorem Coherent.installServants (h : s.Coherent) (hnone : ∀ id, s.contains id = false)
    {idle cleanup : Task} (hne : cleanup.id ≠ idle.id) :
    ∃ s₁ s₂, s.installIdle idle = (.ok (), s₁) ∧ s₁.installCleanup cleanup = (.ok (), s₂) ∧
      s₂.Coherent ∧ Joined s idle s₁ ∧ Joined s₁ cleanup s₂ := by
  have hempty : s.idle = none := by
    cases hid : s.idle with
    | none => rfl
    | some id =>
      have hin := (h.queued.live id).2 (.inr (.inr hid))
      rw [hnone] at hin
      cases hin
  rcases hs₁ : s.installIdle idle with ⟨result, s₁⟩
  rcases h.installIdle hs₁ with ⟨-, hrefused, -⟩ | ⟨rfl, -, hco₁, hj₁, -, -⟩
  · rw [hnone, hempty] at hrefused
    simp at hrefused
  rcases hs₂ : s₁.installCleanup cleanup with ⟨result, s₂⟩
  have hfresh : s₁.contains cleanup.id = false := hj₁.contains_eq_false (hnone _) hne
  rcases hco₁.installCleanup hs₂ with ⟨-, hrefused, -⟩ | ⟨rfl, -, hco₂, hj₂, -, -⟩
  · rw [hfresh] at hrefused
    cases hrefused
  · exact ⟨s₁, s₂, rfl, hs₂, hco₂, hj₁, hj₂⟩

end Microkernel.Scheduler
