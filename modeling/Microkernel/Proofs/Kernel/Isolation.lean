/-
What an operation does to the cores that do not run.

A core is changed by the operations that it runs itself. All that the operation of another core may
do to it is to leave one task or one piece of mail at the end of its inbox, and a task that was left
there counts for its published load (`Core.Secluded`).

* **`own_bringUp`**: bringing up a core touches no other core, since tasks are parked only while no
  core is online;
* **`others_secluded`**: no operation does more to another core.

Design notes: an operation that makes several calls under the lock, such as `receive`, leaves
nothing for other cores (`Own`), so that it is enough to follow it call by call.
-/
import Microkernel.Proofs.Kernel.Courses

namespace Microkernel

namespace Core

variable {core core' : Core}

/-- What another core may make of a core. -/
structure Secluded (core core' : Core) : Prop where
  id : core'.id = core.id
  apic : core'.apic = core.apic
  scheduler : core'.scheduler = core.scheduler
  flags : core'.flags = core.flags
  current : core'.current = core.current
  /-- At most one task or piece of mail is left, and the load grows with the task. -/
  inbox : ∃ (tasks : List Task) (mail : List Mail), tasks.length + mail.length ≤ 1 ∧
    core'.inbox = { core.inbox with
      tasks := core.inbox.tasks ++ tasks, mail := core.inbox.mail ++ mail } ∧
    core'.load = core.load + (tasks.map fun t => t.priority.weight).sum

theorem Secluded.refl (core : Core) : core.Secluded core :=
  ⟨rfl, rfl, rfl, rfl, rfl, [], [], Nat.zero_le _, by simp⟩

theorem GetsTask.secluded {task : Task} (h : core.GetsTask task core') : core.Secluded core' := by
  subst h
  refine ⟨rfl, rfl, rfl, rfl, rfl, [task], [], Nat.le_refl _, ?_, ?_⟩
  · simp [Inbox.pushTask]
  · simp [reserveLoad]

theorem GetsMail.secluded (h : core.GetsMail core') : core.Secluded core' := by
  obtain ⟨mail, rfl⟩ := h
  exact ⟨rfl, rfl, rfl, rfl, rfl, [], [mail], Nat.le_refl _, by simp, by simp⟩

end Core

theorem Kernel.Operation.Leaves.secluded {operation : Kernel.Operation} {core core' : Core}
    (h : operation.Leaves core core') : core.Secluded core' := by
  cases h with
  | spawn _ _ _ _ h => exact h.secluded
  | spawnUser _ _ _ _ _ h => exact h.secluded
  | send _ _ h => exact h.secluded

namespace Kernel

variable {γ : Type} {f : Books → γ} {W : Scheduler → Scheduler → Prop}
  {L : Core → Core → Prop} {k k' k'' : Kernel} {c : CoreId} {core : Core} {hand : List Task}

/-- The cores that do not run are the same, or one of them got something. -/
theorem Coursed.secluded (h : Coursed f W L k k')
    (hL : ∀ core core', L core core' → core.Secluded core')
    (hother : c ≠ k.machine.currentCore) (hcore : k.core? c = some core) :
    ∃ core', k'.core? c = some core' ∧ core.Secluded core' := by
  cases h.change.of_core hcore with
  | rests hcore' => exact ⟨core, hcore', .refl core⟩
  | left hleft hcore' => exact ⟨_, hcore', hL _ _ hleft⟩
  | runs hlocal => exact absurd hlocal hother

/-! ### Operations that leave nothing for others -/

/-- The cores that do not run are the same. -/
structure Own (k k' : Kernel) : Prop extends Onward k k' where
  others : ∀ c, c ≠ k.machine.currentCore → k'.core? c = k.core? c

namespace Own

theorem refl (k : Kernel) : Own k k :=
  ⟨.refl k, fun _ _ => rfl⟩

theorem trans (h : Own k k') (h' : Own k' k'') : Own k k'' :=
  ⟨h.toOnward.trans h'.toOnward, fun c hc =>
    (h'.others c (h.currentCore ▸ hc)).trans (h.others c hc)⟩

end Own

theorem Outside.own (h : Outside f k k') : Own k k' :=
  ⟨h.onward, fun c _ => h.core? c⟩

theorem Coursed.own (h : Coursed f W (fun _ _ => False) k k') : Own k k' := by
  refine ⟨h.onward, fun c hc => ?_⟩
  cases h.change with
  | rests hcores => rw [core?, core?, hcores]
  | left _ hleft => exact hleft.elim
  | runs hcore _ hcores => rw [core?_set hcore hcores, if_neg hc]

theorem own_receiveWithin (hk : k.Numbered) (tries : Nat) (filter : Option Filter) :
    Own k (k.perform (receiveWithin tries filter)).2 := by
  refine receiveWithin_keeps (fun k₁ hown => ?_) tries (.refl k)
  exact hown.trans (course_tryReceive (f := fun _ => ()) filter k₁ (hown.numbered hk)).own

/-! ### Bringing up a core -/

/-- Tasks are placed on the core that runs only. -/
def Alone (k : Kernel) : Prop :=
  ∀ c core, k.core? c = some core → core.isOnline = true → c = k.machine.currentCore

theorem Own.alone (h : Own k k') (hk : k.Alone) : k'.Alone := by
  intro c core hcore honline
  by_contra hc
  rw [h.currentCore] at hc
  exact hc (hk c core ((h.others c hc).symm.trans hcore) honline)

/-- No other core is online, so a task is placed on the core that runs. -/
theorem own_place (hk : k.Numbered) (halone : k.Alone) (task : Task) :
    k.Gives (place task) (Own k) fun _ k' => Own k k' := by
  refine Gives.get ?_
  split
  · refine .after (R := Outside fun _ => ()) (outside_onDirectory_of fun _ => rfl)
      (fun _ h => h.own) fun _ k₁ h₁ => ?_
    exact .after (R := Outside fun _ => ()) (outside_note _) (fun _ h => h₁.own.trans h.own)
      fun _ k₂ h₂ => .pure (h₁.own.trans h₂.own)
  · rename_i c hchosen
    obtain ⟨core, hcore, honline⟩ := chosen_online hk hchosen
    obtain rfl : c = k.machine.currentCore := halone c core hcore honline
    refine .after (R := Outside fun _ => ()) (outside_onDirectory fun _ => ⟨rfl, rfl, rfl⟩)
      (fun _ h => h.own) fun _ k₁ h₁ => ?_
    have hown₁ := h₁.own
    rw [if_pos rfl]
    refine .after (course_takeIn (f := fun _ => ()) task)
      (fun _ h => hown₁.trans (h (hown₁.numbered hk)).own) fun _ k₂ h₂ => ?_
    have hown₂ := hown₁.trans (h₂ (hown₁.numbered hk)).own
    exact .after (R := Outside fun _ => ()) (outside_note _) (fun _ h => hown₂.trans h.own)
      fun _ k₃ h₃ => .pure (hown₂.trans h₃.own)

theorem own_placeAll (hk : k.Numbered) (halone : k.Alone) (tasks : List Task) :
    k.Gives (tasks.forM fun task => do let _ ← place task) (Own k) fun _ k' => Own k k' := by
  induction tasks generalizing k with
  | nil => exact .pure (.refl k)
  | cons task tasks ih =>
    refine .bind (.bind (S := fun _ k' => Own k k') (own_place hk halone task)
      fun _ _ hown => .pure hown) fun _ k' hown => ?_
    exact (ih (hown.numbered hk) (hown.alone halone)).mono (fun _ h => hown.trans h)
      fun _ _ h => hown.trans h

theorem own_modifyCore (k : Kernel) {g : Core → Core}
    (hg : ∀ core : Core, core.Continues (g core)) :
    Own k (k.modifyCore k.machine.currentCore g) :=
  ⟨onward_modifyCore k _ hg, fun c hc => by rw [core?_modifyCore, if_neg hc]⟩

/-- While tasks are parked no core is online, and only the core that runs goes online. -/
theorem own_bringUp (h : k.system.Sound hand) :
    k.Gives bringUp (Own k) fun _ k' => Own k k' := by
  have hk : k.Numbered := h.ordinals
  refine .localCore (.refl k) fun core hcore => ?_
  have hid : core.id = k.machine.currentCore := hk _ core hcore
  split
  · exact .pure (.refl k)
  refine .after (outside_buildServants (f := Books.parked) fun _ _ => rfl) (fun _ h => h.own)
    fun servants k₁ h₁ => ?_
  have hown₁ := h₁.own
  refine .after (course_installServants (f := Books.parked) _ _)
    (fun _ h => hown₁.trans (h (hown₁.numbered hk)).own) fun _ k₂ h₂ => ?_
  have h₂ := h₂ (hown₁.numbered hk)
  have hown₂ := hown₁.trans h₂.own
  refine .after (outside_onDirectory (f := Books.parked) fun _ => ⟨rfl, rfl, rfl⟩)
    (fun _ h => hown₂.trans h.own) fun _ k₃ h₃ => ?_
  have hown₃ := hown₂.trans h₃.own
  refine .updateCore ?_
  rw [hid, ← hown₃.currentCore]
  have hown₄ := hown₃.trans (own_modifyCore k₃ fun core => .setFlags core { online := true })
  refine .after (outside_note (f := Books.parked) _) (fun _ h => hown₄.trans h.own)
    fun _ k₅ h₅ => ?_
  have hown₅ := hown₄.trans h₅.own
  refine .onDirectory ?_
  have hparked : k₅.directory.parked = k.directory.parked := calc
    k₅.directory.parked = k₃.directory.parked := h₅.books
    _ = k₂.directory.parked := h₃.books
    _ = k₁.directory.parked := h₂.books
    _ = k.directory.parked := h₁.books
  have hemptied : Outside (fun _ => ()) k₅ { k₅ with directory := k₅.directory.takeParked.2 } :=
    ⟨rfl, .refl _, rfl⟩
  have htaken := hown₅.trans hemptied.own
  cases hnone : k.directory.parked with
  | nil =>
    show Gives _ (k₅.directory.parked.forM _) _ _
    rw [hparked, hnone]
    exact .pure htaken
  | cons task tasks =>
    -- no core was online when tasks were parked
    have hoffline : k.Alone := fun c core hcore honline => by
      have hoffline := h.parked (hnone ▸ List.cons_ne_nil _ _) c core hcore
      rw [honline] at hoffline
      cases hoffline
    exact (own_placeAll (htaken.numbered hk) (htaken.alone hoffline) _).mono
      (fun _ h => htaken.trans h) fun _ _ h => htaken.trans h

/-! ### All operations -/

/-- An operation changes its own core, and leaves at most one task or one piece of mail for one
other core. -/
theorem others_secluded (h : k.Reachable) (operation : Operation)
    (hother : c ≠ k.machine.currentCore) (hcore : k.core? c = some core) :
    ∃ core', (k.step operation).2.core? c = some core' ∧ core.Secluded core' := by
  have hk : k.Numbered := h.sound.ordinals
  cases hsingle : operation.isSingle with
  | true =>
    have hspares : operation.Spares fun _ => () := by cases operation <;> simp [Operation.Spares]
    exact (course_actionOf hsingle hspares k hk).secluded (fun _ _ h => h.secluded) hother hcore
  | false =>
    refine ⟨core, ?_, .refl core⟩
    cases operation with
    | bringUp =>
      have hown : Own k (k.perform bringUp).2 := (own_bringUp h.sound).always
      rw [step_bringUp, hown.others c hother, hcore]
    | receive filter =>
      rw [step_receive, (own_receiveWithin hk _ filter).others c hother, hcore]
    | turnTo next => exact hcore
    | _ => cases hsingle

/-- A message for a task of the other core is one piece of mail in the inbox of that core. -/
theorem others_secluded_atWork : 1 ≠ atWork.machine.currentCore ∧ ∃ core core',
    atWork.core? 1 = some core ∧
      (atWork.step (.send (.task 5) (.scheduler (.ping 1)))).2.core? 1 = some core' ∧
      core.Secluded core' ∧ core'.inbox.mail.length = 1 := by
  have hother : 1 ≠ atWork.machine.currentCore := by decide +kernel
  obtain ⟨core, hcore⟩ : ∃ core, atWork.core? 1 = some core :=
    Option.isSome_iff_exists.1 (by decide +kernel)
  obtain ⟨core', hcore', hsecluded⟩ :=
    others_secluded reachable_atWork (.send (.task 5) (.scheduler (.ping 1))) hother hcore
  refine ⟨hother, core, core', hcore, hcore', hsecluded, ?_⟩
  have hmail : (((atWork.step (.send (.task 5) (.scheduler (.ping 1)))).2.core? 1).map
      fun core => core.inbox.mail.length) = some 1 := by decide +kernel
  rw [hcore'] at hmail
  exact Option.some.inj hmail

end Kernel

end Microkernel
