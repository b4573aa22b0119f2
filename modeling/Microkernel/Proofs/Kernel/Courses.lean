/-
What becomes of the cores in an operation.

Most operations make at most one call under the lock, and otherwise leave what the cores hold as it
was or leave something for a core and send it an interrupt (`Once`). Bringing up a core makes one
call for its servants and one for each task that is parked.

* **`once_actionOf`**: every operation makes at most one call, but for those that make several and
  for the one that gives another core its turn;
* **`stepwise_bringUp`**: bringing up a core is a chain of such steps;
* **`books_step`**: an operation leaves alone of the books what it does not write there.
-/
import Microkernel.Proofs.Kernel.Effects
import Microkernel.Proofs.Kernel.Wakeups

namespace Microkernel.Kernel

open Scheduler (Work)

variable {α γ : Type} {f : Books → γ} {W : Scheduler → Scheduler → Prop} {L : Core → Core → Prop}
  {k k' : Kernel} {c : CoreId}

/-! ### At most one call -/

/-- What has become of a core: it holds what it held, or it was sent an interrupt, or it has halted,
or it is the one that runs and has been called. -/
inductive Fares (k k' : Kernel) (c : CoreId) : Prop
  | stays (h : k'.held c = k.held c)
  | alerted (h : k.Alerted k' c)
  | halted (h : k'.Faulted c)
  | called {core : Core} {s : Scheduler} (hlocal : c = k.machine.currentCore)
      (hcore : k.core? c = some core) (hwork : Work core.drained.scheduler s)
      (h : k'.held c = some ({ core.drained with scheduler := s } : Core).contents)

/-- There was at most one call under the lock. -/
def Once (k k' : Kernel) : Prop :=
  k.Numbered → Onward k k' ∧ ∀ c, Fares k k' c

theorem Beside.once (h : Beside k k') : Once k k' :=
  fun _ => ⟨h.toOnward, fun c => (h.held c).elim .stays .alerted⟩

theorem Coursed.once (h : Coursed f W L k k') (hW : ∀ s s', W s s' → Work s s') : Once k k' := by
  refine fun _ => ⟨h.onward, fun i => ?_⟩
  cases h.change with
  | rests hcores =>
    refine .stays ?_
    rw [held, held, core?, core?, hcores]
  | @left c core core' hcore _ hcores halerted =>
    by_cases hi : i = c
    · exact .alerted (hi ▸ halerted)
    · refine .stays ?_
      rw [held, core?_set hcore hcores, if_neg hi, held]
  | @runs core core' hcore hfares hcores =>
    have hget := core?_set hcore hcores i
    by_cases hi : i = k.machine.currentCore
    · rw [if_pos hi] at hget
      subst hi
      cases hfares with
      | stays hsame =>
        refine .stays ?_
        have hcore : k.core? k.machine.currentCore = some core := hcore
        rw [held, hget, held, hcore, Option.map_some, Option.map_some, hsame]
      | halted hfaulted => exact .halted ⟨core', hget, hfaulted⟩
      | works hwork hcontents =>
        refine .called rfl hcore (hW _ _ hwork) ?_
        rw [held, hget, Option.map_some, hcontents]
    · refine .stays ?_
      rw [held, hget, if_neg hi, held]

theorem Respects.once {x : Action α} (hx : Respects (Course f W L) x)
    (hW : ∀ s s', W s s' → Work s s') : Respects Once x :=
  fun k hk => (hx k hk).once hW hk

theorem Respects.outside_once {x : Action α} (hx : Respects (Outside f) x) : Respects Once x :=
  hx.mono fun _ _ h => h.beside.once

theorem once_tryReceive (filter : Option Filter) : Respects Once (tryReceive filter) :=
  (course_tryReceive (f := fun _ => ()) (L := fun _ _ => False) filter).once fun _ _ h => h.work

/-- Every operation makes at most one call, but for those that make several. -/
theorem once_actionOf {operation : Operation} (h : operation.isSingle = true) :
    Respects Once (actionOf operation) := by
  have hspares : operation.Spares fun _ => () := by cases operation <;> simp [Operation.Spares]
  exact (course_actionOf h hspares).once fun _ _ h => h.work

/-! ### Bringing up a core -/

/-- There were any number of calls. -/
abbrev Stepwise : Kernel → Kernel → Prop :=
  Relation.ReflTransGen Once

theorem Respects.stepwise {x : Action α} (hx : Respects Once x) : Respects Stepwise x :=
  hx.mono fun _ _ h => .single h

theorem stepwise_bringUp : Respects Stepwise bringUp := by
  have houtside : ∀ {α : Type} {x : Action α}, Respects (Outside fun _ => ()) x →
      Respects Stepwise x := fun hx => hx.outside_once.stepwise
  refine (houtside outside_localCore).bind fun core => ?_
  split
  · exact .pure ()
  · refine (houtside (outside_buildServants fun _ _ => rfl)).bind fun servants => ?_
    refine ((course_installServants (f := fun _ => ()) (L := fun _ _ => False) _ _).once
      fun _ _ h => h.work).stepwise.bind fun _ => ?_
    refine (houtside (outside_onDirectory fun _ => ⟨rfl, rfl, rfl⟩)).bind fun _ => ?_
    refine ((beside_setFlags _ _).mono fun _ _ h => h.once).stepwise.bind fun _ => ?_
    refine (houtside (outside_note _)).bind fun _ => ?_
    refine (houtside (outside_onDirectory_of fun _ => rfl)).bind fun tasks => ?_
    refine .forM (fun task => ?_) tasks
    exact ((course_place (f := fun _ => ()) fun _ => rfl).once
      fun _ _ h => h.work).stepwise.bind fun _ => .pure ()

/-! ### Any number of calls -/

theorem stepwise_receiveWithin (tries : Nat) (filter : Option Filter) :
    Respects Stepwise (receiveWithin tries filter) := by
  induction tries with
  | zero => exact .fail _
  | succ tries ih =>
    refine (once_tryReceive filter).stepwise.bind fun received => ?_
    cases received with
    | some message => exact .pure message
    | none => exact ih

theorem stepwise_actionOf {operation : Operation} (h : ∀ c, operation ≠ .turnTo c) :
    Respects Stepwise (actionOf operation) := by
  cases hsingle : operation.isSingle with
  | true => exact (once_actionOf hsingle).stepwise
  | false =>
    cases operation with
    | bringUp => exact stepwise_bringUp.bind fun _ => .pure _
    | receive filter =>
      have hlocal : Respects (Outside fun _ => ()) localCore := outside_localCore
      exact (hlocal.outside_once.stepwise.bind fun _ => stepwise_receiveWithin _ filter).bind
        fun _ => .pure _
    | turnTo c => exact absurd rfl (h c)
    | _ => cases hsingle

/-- A chain of calls replaces no core. -/
theorem Stepwise.onward (h : Stepwise k k') (hk : k.Numbered) : Onward k k' := by
  induction h with
  | refl => exact .refl k
  | tail _ hstep ih => exact ih.trans (hstep (ih.numbered hk)).1

/-! ### The books -/

theorem books_place {task : Task}
    (hpark : Respects (SameBooks f) (onDirectory fun d => ((), d.park task))) :
    Respects (SameBooks f) (place task) := by
  have hinterrupt : ∀ c kind, Respects (SameBooks f) (interrupt c kind) := fun c kind =>
    (Respects.coreAt c).bind fun target => Respects.bind (fun _ => rfl) fun _ =>
      Blind.tally _ _ (by decide)
  refine .get fun k => ?_
  split
  · exact hpark.bind fun _ => (Blind.note _).bind fun _ => .pure _
  · refine Respects.bind (fun _ => rfl) fun _ => ?_
    split
    · refine (books_locked fun c => ?_).bind fun _ => (Blind.note _).bind fun _ => .pure _
      exact (Respects.request c _ _ _).bind fun _ => books_reschedule ()
    · refine Respects.bind ?_ fun _ => (Blind.note _).bind fun _ => .pure _
      exact (Respects.coreAt _).bind fun _ => (Blind.updateCore _ _).bind fun _ => hinterrupt _ _

/-- A core that goes online writes nothing down but that no task is parked any more. -/
theorem books_goOnline (core : Core) (idle cleanup : Task)
    (hf : ∀ (b : Books) parked, f { b with parked := parked } = f b) :
    Respects (SameBooks f) (goOnline core idle cleanup) := by
  have hparked : ∀ {α : Type} (g : Directory → α × Directory),
      (∀ d, (g d).2.registry = d.registry ∧ (g d).2.ids.limit = d.ids.limit) →
        Respects (SameBooks f) (onDirectory g) := by
    intro α g hg k
    obtain ⟨hregistry, hlimit⟩ := hg k.directory
    have hbooks : (k.perform (onDirectory g)).2.books =
        { k.books with parked := (g k.directory).2.parked } := by
      show (⟨_, _, (g k.directory).2.registry, (g k.directory).2.ids.limit, _⟩ : Books) = _
      rw [hregistry, hlimit]
      rfl
    exact (congrArg f hbooks).trans (hf k.books _)
  refine (books_locked fun c => (Respects.askScheduler c _).bind fun _ =>
    (Respects.request c _ _ _).bind fun _ => .pure _).bind fun _ => ?_
  refine (hparked _ fun _ => ⟨rfl, rfl⟩).bind fun _ => (Blind.updateCore _ _).bind fun _ =>
    (Blind.note _).bind fun _ => (hparked _ fun _ => ⟨rfl, rfl⟩).bind fun tasks => ?_
  exact .forM (fun task => (books_place (hparked _ fun _ => ⟨rfl, rfl⟩)).bind fun _ => .pure ())
    tasks

theorem books_bringUp
    (hf : ∀ (b : Books) memory parked, f { b with memory := memory, parked := parked } = f b) :
    Respects (SameBooks f) bringUp := by
  have hbuilt : Respects (Outside f) buildServants :=
    outside_buildServants fun b memory => hf b memory b.parked
  refine (Respects.get fun _ => .coreAt _).bind fun core => ?_
  split
  · exact .pure ()
  · refine (hbuilt.mono fun _ _ h => h.books).bind fun servants => ?_
    exact books_goOnline core _ _ fun b parked => hf b b.memory parked

/-- What every try to receive keeps, all of them keep. -/
theorem receiveWithin_keeps {P : Kernel → Prop} {filter : Option Filter}
    (hP : ∀ k : Kernel, P k → P (k.perform (tryReceive filter)).2) (tries : Nat) (h : P k) :
    P (k.perform (receiveWithin tries filter)).2 := by
  induction tries generalizing k with
  | zero => exact h
  | succ tries ih =>
    have htry := hP k h
    rw [receiveWithin, perform_bind]
    rcases hr : k.perform (tryReceive filter) with ⟨e | _ | message, k₁⟩
    all_goals rw [hr] at htry
    · exact htry
    · exact ih htry
    · exact htry

theorem books_receiveWithin (hk : k.Numbered) (tries : Nat) (filter : Option Filter) :
    SameBooks f k (k.perform (receiveWithin tries filter)).2 := by
  have hkept : ∀ k₁ : Kernel, k₁.Numbered ∧ SameBooks f k k₁ →
      (k₁.perform (tryReceive filter)).2.Numbered ∧
        SameBooks f k (k₁.perform (tryReceive filter)).2 := by
    rintro k₁ ⟨hk₁, hsame⟩
    obtain ⟨honward, hbooks, -⟩ :=
      course_tryReceive (f := f) (L := fun _ _ => False) filter k₁ hk₁
    exact ⟨honward.numbered hk₁, hbooks.trans hsame⟩
  exact (receiveWithin_keeps hkept tries ⟨hk, rfl⟩).2

/-- An operation leaves alone of the books what it does not write there. -/
theorem books_step (hk : k.Numbered) {operation : Operation} (hf : operation.Spares f) :
    f (k.step operation).2.books = f k.books := by
  cases hsingle : operation.isSingle with
  | true => exact (course_actionOf hsingle hf k hk).books
  | false =>
    cases operation with
    | bringUp =>
      have hanswered : Respects (SameBooks f) (actionOf .bringUp) :=
        (books_bringUp hf).bind fun _ => .pure _
      exact hanswered k
    | receive filter =>
      rw [step_receive]
      exact books_receiveWithin hk _ filter
    | turnTo _ => rfl
    | _ => cases hsingle

end Microkernel.Kernel
