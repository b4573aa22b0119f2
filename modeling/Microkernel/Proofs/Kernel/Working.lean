/-
Work under the lock, put together from small pieces.

An operation looks at its core (`Still`), asks the scheduler of the core for something (`Asks`), and
answers the switch that comes of it (`Answers`). If what it asks for is a turn of the scheduler, the
operation is work for the lock.

* **`Works.calm`**: something that leaves the current task alone, and more work after it;
* **`Turns.turn`**: something that may pass the turn, and the answer.

Design notes: a scheduler is asked for things that can fail and for things that cannot. Both are
treated alike here, as the latter are among the former (`asks_onScheduler`).
-/
import Microkernel.Proofs.Kernel.Switching

namespace Microkernel.Kernel

open Scheduler (Calm Turn)

variable {α β : Type} {s : System} {c : CoreId} {core : Core} {new new' : List Task}
  {pre pre' Q : Scheduler → Prop}

/-! ### Looking at the kernel -/

/-- The cores, the directory and the machine are the same. -/
def SameState (k k' : Kernel) : Prop :=
  k'.system = k.system ∧ k'.machine = k.machine

instance : Std.Refl SameState where
  refl _ := ⟨rfl, rfl⟩

instance : Trans SameState SameState SameState where
  trans {_ _ _} h h' := ⟨h'.1.trans h.1, h'.2.trans h.2⟩

/-- The action leaves everything alone but for counters and the journal. -/
def Still (x : Action α) : Prop :=
  ∀ k : Kernel, (k.perform x).2.system = k.system ∧ (k.perform x).2.machine = k.machine

namespace Still

variable {x : Action α} {f : α → Action β}

theorem pure (a : α) : Still (Pure.pure a : Action α) :=
  Respects.pure (R := SameState) a

theorem fail (e : Error) : Still (Kernel.fail e : Action α) :=
  Respects.fail (R := SameState) e

theorem note (event : Event) : Still (Kernel.note event) :=
  fun _ => ⟨rfl, rfl⟩

theorem tally (counter : Counter) (amount : Nat) : Still (Kernel.tally counter amount) :=
  fun _ => ⟨rfl, rfl⟩

theorem coreAt (id : CoreId) : Still (Kernel.coreAt id) :=
  Respects.coreAt (R := SameState) id

theorem bind (hx : Still x) (hf : ∀ a, Still (f a)) : Still (x >>= f) :=
  Respects.bind (R := SameState) hx hf

theorem checkCleanup (id : CoreId) : Still (Kernel.checkCleanup id) := by
  refine (coreAt id).bind fun core => ?_
  dsimp only
  split
  · exact fail _
  · split
    · exact pure ()
    · exact fail _

theorem untouched (hx : Still x) : Untouched x :=
  fun k => (hx k).2

theorem ensures (hx : Still x) : Ensures s x fun _ s' => s' = s :=
  fun k hk => (hx k).1.trans hk

end Still

/-! ### Asking a scheduler -/

/-- The scheduler of the core is asked for `g`. -/
structure Asks (c : CoreId) (g : Scheduler → Except Error α × Scheduler) (x : Action α) :
    Prop where
  untouched : Untouched x
  asked : ∀ s core, s.core? c = some core → Ensures s x fun r s' =>
    r = (g core.scheduler).1.mapError .failed ∧
      s' = s.withCore c { core with scheduler := (g core.scheduler).2 }

theorem asks_onScheduler (g : Scheduler → α × Scheduler) :
    Asks c (fun s => (.ok (g s).1, (g s).2)) (onScheduler c g) :=
  ⟨.onScheduler c g, fun _ _ hcore => Ensures.onScheduler hcore g ⟨rfl, rfl⟩⟩

theorem asks_askScheduler (g : Scheduler → Except Error α × Scheduler) :
    Asks c g (askScheduler c g) := by
  refine ⟨.askScheduler c g, fun _ core hcore => Ensures.askScheduler hcore g ?_⟩
  cases (g core.scheduler).1 <;> exact ⟨rfl, rfl⟩

theorem asks_request (operation : Scheduler.Operation)
    (g : Scheduler → Except Error α × Scheduler) (answer : α → Scheduler.Answer) :
    Asks c g (request c operation g answer) := by
  refine ⟨.request c operation g answer, fun _ core hcore => Ensures.request hcore _ _ _ ?_⟩
  cases (g core.scheduler).1 <;> exact ⟨rfl, rfl⟩

/-- The action answers the switch, and forgets at most a task of the directory. -/
structure Answers (c : CoreId) (switch : Option Switch) (x : Action (α × Option Switch)) :
    Prop where
  untouched : Untouched x
  answered : ∀ s core, s.core? c = some core → Ensures s x fun r s' =>
    (∃ a, r = .ok (a, switch)) ∧
      ∃ directory, s' = s.withDirectory directory ∧ directory.parked = s.directory.parked

namespace Answers

variable {switch : Option Switch}

theorem pure (a : α) : Answers c switch (Pure.pure (a, switch)) :=
  ⟨.pure _, fun s _ _ => Ensures.pure ⟨⟨a, rfl⟩, s.directory, rfl, rfl⟩⟩

theorem quiet {x : Action β} {f : β → Action (α × Option Switch)} (hx : Quiet x)
    (huntouched : Untouched x) (hf : ∀ b, Answers c switch (f b)) :
    Answers c switch (x >>= f) :=
  ⟨huntouched.bind fun b => (hf b).untouched, fun s core hcore =>
    Ensures.quiet hx fun b => (hf b).answered s core hcore⟩

theorem onDirectory {g : Directory → β × Directory} {f : β → Action (α × Option Switch)}
    (hg : ∀ d, (g d).2.parked = d.parked) (hf : ∀ b, Answers c switch (f b)) :
    Answers c switch (Kernel.onDirectory g >>= f) := by
  refine ⟨(Untouched.onDirectory g).bind fun b => (hf b).untouched, fun s core hcore => ?_⟩
  refine Ensures.bind_ok (Ensures.onDirectory g ⟨rfl, rfl⟩) ?_
  have hcore' : (s.withDirectory (g s.directory).2).core? c = some core := hcore
  refine ((hf _).answered _ core hcore').mono fun r s' hr => ?_
  obtain ⟨hanswer, directory, hs', hparked⟩ := hr
  exact ⟨hanswer, directory, hs', hparked.trans (hg _)⟩

theorem coreAt {f : Core → Action (α × Option Switch)} (hf : ∀ core, Answers c switch (f core)) :
    Answers c switch (Kernel.coreAt c >>= f) :=
  ⟨(Untouched.coreAt c).bind fun core => (hf core).untouched, fun s core hcore =>
    Ensures.coreAt hcore ((hf core).answered s core hcore)⟩

end Answers

/-! ### Work -/

/-- Work for a core that has already done something quiet. -/
theorem Worked.after {r : Except Stop (α × Option Switch)} {s' : System} {core₁ core' : Core}
    {directory : Directory} (halike : core.Alike core₁)
    (hcalm : Calm core.scheduler new core₁.scheduler)
    (h : Worked (s.withCore c core₁) c core₁ new' Q r s' core' directory) :
    Worked s c core (new ++ new') Q r s' core' directory where
  system := by rw [h.system, System.withCore_withCore]
  parked := h.parked
  alike := halike.trans h.alike
  staffed := h.staffed
  turn := hcalm.turn_trans h.turn
  answer := h.answer

/-- Nothing is done any more. -/
theorem Worked.done {r : Except Stop (α × Option Switch)} (hcore : s.core? c = some core)
    (hco : core.scheduler.Coherent) (hstaffed : core.scheduler.Staffed)
    (hswitch : r.toOption.bind Prod.snd = none) (hQ : ∀ a, r = .ok a → Q core.scheduler) :
    Worked s c core new Q r s core s.directory where
  system := (System.withCore_self hcore).symm
  parked := rfl
  alike := .refl core
  staffed := hstaffed
  turn := hswitch ▸ ((Calm.refl hco).mono new).turn
  answer := hQ

variable {x : Action β} {f : β → Action (α × Option Switch)}

namespace Works

theorem pure (a : α) (hpre : ∀ s, pre s → s.Staffed ∧ Q s) :
    Works c pre [] Q (Pure.pure (a, none)) :=
  ⟨.pure _, fun s core hcore hco hp => Ensures.pure ⟨core, s.directory,
    .done hcore hco (hpre _ hp).1 rfl fun _ _ => (hpre _ hp).2⟩⟩

/-- The scheduler is asked for something that leaves the current task alone. -/
theorem calm {g : Scheduler → Except Error β × Scheduler} (hx : Asks c g x)
    (hg : ∀ s, s.Coherent → pre s → Calm s new (g s).2 ∧ (g s).2.Staffed ∧
      ∀ b, (g s).1 = .ok b → pre' (g s).2)
    (hf : ∀ b, Works c pre' new' Q (f b)) : Works c pre (new ++ new') Q (x >>= f) := by
  refine ⟨hx.untouched.bind fun b => (hf b).untouched, fun s core hcore hco hp => ?_⟩
  obtain ⟨hcalm, hstaffed, hpre'⟩ := hg _ hco hp
  have hget := System.core?_withCore_self hcore
    { core with scheduler := (g core.scheduler).2 }
  have halike : core.Alike { core with scheduler := (g core.scheduler).2 } := ⟨rfl, rfl, rfl⟩
  refine Ensures.bind ((hx.asked s core hcore).mono fun r s' hr => ?_)
  obtain ⟨rfl, rfl⟩ := hr
  cases hresult : (g core.scheduler).1 with
  | ok b =>
    refine ((hf b).worked _ _ hget hcalm.coherent (hpre' b hresult)).mono fun r s' hr => ?_
    obtain ⟨core', directory, hworked⟩ := hr
    exact ⟨core', directory, hworked.after halike hcalm⟩
  | error e =>
    exact ⟨_, _, Worked.after halike hcalm
      (.done hget hcalm.coherent hstaffed rfl fun a ha => (by cases ha))⟩

end Works

/-- Work to which no new task comes. -/
abbrev Turns (c : CoreId) (x : Action (α × Option Switch)) : Prop :=
  Works c Scheduler.Staffed [] (fun _ => True) x

namespace Turns

theorem pure (a : α) : Turns c (Pure.pure (a, none)) :=
  Works.pure a fun _ hs => ⟨hs, trivial⟩

theorem still (hx : Still x) (hf : ∀ b, Turns c (f b)) : Turns c (x >>= f) := by
  refine ⟨hx.untouched.bind fun b => (hf b).untouched, fun s core hcore hco hs => ?_⟩
  refine Ensures.bind (hx.ensures.mono fun r s' hs' => ?_)
  subst hs'
  cases r with
  | ok b => exact (hf b).worked _ core hcore hco hs
  | error e => exact ⟨core, _, .done hcore hco hs rfl fun a ha => (by cases ha)⟩

/-- Another state of the core, with the same scheduler. -/
theorem updateCore {g : Core → Core} {f : Unit → Action (α × Option Switch)}
    (halike : ∀ core : Core, core.Alike (g core))
    (hscheduler : ∀ core, (g core).scheduler = core.scheduler)
    (hf : Turns c (f ())) : Turns c (Kernel.updateCore c g >>= f) := by
  refine ⟨(Untouched.updateCore c g).bind fun _ => hf.untouched, fun s core hcore hco hs => ?_⟩
  refine Ensures.bind_ok (Ensures.updateCore hcore g ⟨rfl, rfl⟩) ?_
  have hget := System.core?_withCore_self hcore (g core)
  have hcalm : Calm core.scheduler [] (g core).scheduler := by
    rw [hscheduler]
    exact .refl hco
  rw [← hscheduler core] at hco hs
  refine (hf.worked _ _ hget hco hs).mono fun r s' hr => ?_
  obtain ⟨core', directory, hworked⟩ := hr
  exact ⟨core', directory, hworked.after (halike core) hcalm⟩

/-- The scheduler is asked for something that leaves the current task alone. -/
theorem calm {g : Scheduler → Except Error β × Scheduler} (hx : Asks c g x)
    (hg : ∀ s, s.Coherent → Calm s [] (g s).2) (hf : ∀ b, Turns c (f b)) :
    Turns c (x >>= f) := by
  have hnone : Works c Scheduler.Staffed ([] ++ []) (fun _ => True) (x >>= f) := by
    refine Works.calm hx (fun s hco hs => ?_) hf
    have hcalm := hg s hco
    exact ⟨hcalm, hcalm.turn.staffed rfl hs, fun _ _ => hcalm.turn.staffed rfl hs⟩
  exact hnone

/-- The scheduler is asked for something that may pass the turn, and the switch is answered. -/
theorem turn {g : Scheduler → Except Error β × Scheduler} (hx : Asks c g x)
    (switch : β → Option Switch)
    (hg : ∀ s, s.Coherent → s.Staffed → Turn s [] ((g s).1.toOption.bind switch) (g s).2)
    (hf : ∀ b, Answers c (switch b) (f b)) : Turns c (x >>= f) := by
  refine ⟨hx.untouched.bind fun b => (hf b).untouched, fun s core hcore hco hs => ?_⟩
  have hturn := hg _ hco hs
  have hget := System.core?_withCore_self hcore
    { core with scheduler := (g core.scheduler).2 }
  refine Ensures.bind ((hx.asked s core hcore).mono fun r s' hr => ?_)
  obtain ⟨rfl, rfl⟩ := hr
  cases hresult : (g core.scheduler).1 with
  | ok b =>
    rw [hresult] at hturn
    refine ((hf b).answered _ _ hget).mono fun r s' hr => ?_
    obtain ⟨⟨a, rfl⟩, directory, rfl, hparked⟩ := hr
    exact ⟨_, directory, rfl, hparked, ⟨rfl, rfl, rfl⟩, hturn.staffed rfl hs, hturn,
      fun _ _ => trivial⟩
  | error e =>
    rw [hresult] at hturn
    exact ⟨_, s.directory, rfl, rfl, ⟨rfl, rfl, rfl⟩, hturn.staffed rfl hs, hturn,
      fun _ _ => trivial⟩

end Turns

end Microkernel.Kernel
