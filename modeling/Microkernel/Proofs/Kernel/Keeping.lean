/-
Invariants of the schedulers, kept by the whole kernel.

An action may stop early, because of an error or because its core halts, and then it leaves the
state that it has reached. `Keeps I x` says that an action keeps an invariant of the system
however it ends, and `Yields I x Q` that what it answers also satisfies `Q`.

`s.Meets size P` is the invariant that the scheduler of each core satisfies `P` and that the tasks
that have not come to a scheduler yet are new. `Stable size P` lists what has to be shown of `P`,
one fact for each operation of a scheduler that the kernel uses.

* **`ensures_locked_meets`**: the lock keeps what taking in tasks and mail keeps;
* **`keeps_actionOf`**: every operation of the kernel keeps the invariant, receiving apart;
* **`ensures_tryReceive_meets`**: so does receiving, if it does on the core that runs.

Design notes: `Preserves` accounts for ids, homes and mail, and holds of whole operations only.
An invariant of this form says nothing of them, so that it holds in between as well, and each
small action keeps it on its own.
-/
import Microkernel.Proofs.Kernel.Building

namespace Microkernel

/-- The task has never been run, and has got no mail. -/
structure Task.IsNew (size : Nat) (t : Task) : Prop where
  mailbox : t.mailbox = .new size
  state : t.state = .ready
  lastCore : t.lastCore = none

/-- The schedulers satisfy `P`, and tasks on their way to one are new. -/
structure System.Meets (size : Nat) (P : CoreId → Scheduler → Prop) (s : System) : Prop where
  config : s.config.mailboxSize = size
  ordinals : ∀ c core, s.core? c = some core → core.id = c
  schedulers : ∀ c core, s.core? c = some core → P c core.scheduler
  arriving : ∀ c core, s.core? c = some core → ∀ t ∈ core.inbox.tasks, t.IsNew size
  parked : ∀ t ∈ s.directory.parked, t.IsNew size

/-- Taking in tasks and mail keeps the property. -/
structure Drains (size : Nat) (P : CoreId → Scheduler → Prop) : Prop where
  schedule : ∀ c s (task : Task), P c s → task.IsNew size → P c (s.schedule task).2
  deliver : ∀ c s recipient message, P c s → P c (s.deliver recipient message).2

/-- Everything that the kernel does to a scheduler keeps the property, but for receiving. -/
structure Stable (size : Nat) (P : CoreId → Scheduler → Prop) : Prop extends Drains size P where
  installServants : ∀ c s (idle cleanup : Task), P c s → idle.IsNew size → cleanup.IsNew size →
    P c (s.installIdle idle).2 ∧ ((s.installIdle idle).1 = .ok () →
      P c ((s.installIdle idle).2.installCleanup cleanup).2)
  start : ∀ c s, P c s → P c s.start.2
  reschedule : ∀ c s, P c s → P c s.reschedule.2
  tick : ∀ c s, P c s → P c s.tick.2
  sleep : ∀ c s milliseconds, P c s → P c (s.block (.sleep milliseconds)).2
  /-- Only the cleanup task waits for mail without asking for some. -/
  park : ∀ c s, P c s → s.current = s.cleanup → P c (s.block (.mail none)).2
  wake : ∀ c s id, P c s → P c (s.wake id).2
  exit : ∀ c s, P c s → P c s.exit.2
  reap : ∀ c s, P c s → P c s.reap.2
  changePriority : ∀ c s id priority, P c s → P c (s.changePriority id priority).2

namespace System.Meets

variable {size : Nat} {P : CoreId → Scheduler → Prop} {s : System} {c : CoreId} {core : Core}

theorem mono (h : s.Meets size P) {P' : CoreId → Scheduler → Prop}
    (hP : ∀ c scheduler, P c scheduler → P' c scheduler) : s.Meets size P' :=
  ⟨h.config, h.ordinals, fun c core hcore => hP c _ (h.schedulers c core hcore), h.arriving,
    h.parked⟩

theorem withCore (h : s.Meets size P) (hcore : s.core? c = some core) {core' : Core}
    (hid : core'.id = core.id) (hscheduler : P c core'.scheduler)
    (harriving : ∀ t ∈ core'.inbox.tasks, t.IsNew size) : (s.withCore c core').Meets size P := by
  have hget := System.core?_withCore hcore core'
  refine ⟨h.config, fun i x hx => ?_, fun i x hx => ?_, fun i x hx => ?_, h.parked⟩
  all_goals
    rw [hget] at hx
    split at hx
  · rename_i hi
    cases hx
    rw [hid, hi]
    exact h.ordinals c core hcore
  · exact h.ordinals i x hx
  · rename_i hi
    cases hx
    exact hi ▸ hscheduler
  · exact h.schedulers i x hx
  · cases hx
    exact harriving
  · exact h.arriving i x hx

theorem withScheduler (h : s.Meets size P) (hcore : s.core? c = some core) {scheduler : Scheduler}
    (hscheduler : P c scheduler) :
    (s.withCore c { core with scheduler := scheduler }).Meets size P :=
  h.withCore hcore rfl hscheduler (h.arriving c core hcore)

end System.Meets

namespace Kernel

variable {α β : Type} {s : System} {I : System → Prop}

/-! ### Invariants of actions -/

/-- The action keeps the invariant, and what it answers satisfies `Q`. -/
def Yields (I : System → Prop) (x : Action α) (Q : α → Prop) : Prop :=
  ∀ s, I s → Ensures s x fun r s' => I s' ∧ ∀ a, r = .ok a → Q a

/-- The action keeps the invariant. -/
abbrev Keeps (I : System → Prop) (x : Action α) : Prop :=
  Yields I x fun _ => True

namespace Yields

variable {x : Action α} {f : α → Action β} {Q : α → Prop} {R : β → Prop}

theorem mono (hx : Yields I x Q) {Q' : α → Prop} (hQ : ∀ a, Q a → Q' a) : Yields I x Q' :=
  fun s hs => (hx s hs).mono fun _ _ h => ⟨h.1, fun a ha => hQ a (h.2 a ha)⟩

theorem keeps (hx : Yields I x Q) : Keeps I x :=
  hx.mono fun _ _ => trivial

/-- Where only the invariant matters. -/
theorem ensures (hx : Yields I x Q) (hs : I s) : Ensures s x fun _ s' => I s' :=
  (hx s hs).mono fun _ _ h => h.1

theorem pure {a : α} (h : Q a) : Yields I (Pure.pure a) Q :=
  fun s hs => Ensures.pure ⟨hs, fun b hb => by cases hb; exact h⟩

theorem fail (e : Error) : Yields I (Kernel.fail e : Action α) Q :=
  fun s hs => Ensures.fail ⟨hs, fun a ha => by cases ha⟩

theorem bind (hx : Yields I x Q) (hf : ∀ a, Q a → Yields I (f a) R) : Yields I (x >>= f) R := by
  intro s hs
  refine Ensures.bind ((hx s hs).mono fun r s' hr => ?_)
  cases r with
  | ok a => exact hf a (hr.2 a rfl) s' hr.1
  | error e => exact ⟨hr.1, fun b hb => by cases hb⟩

theorem attempt (hx : Yields I x Q) :
    Yields I (Kernel.attempt x) fun r => ∀ a, r = .ok a → Q a := by
  intro s hs
  refine Ensures.attempt ((hx s hs).mono fun r s' hr => ?_)
  match r with
  | .ok a =>
    refine ⟨hr.1, fun b hb c hc => ?_⟩
    cases hb
    cases hc
    exact hr.2 _ rfl
  | .error (.failed e) =>
    refine ⟨hr.1, fun b hb c hc => ?_⟩
    cases hb
    cases hc
  | .error (.halted _) => exact ⟨hr.1, fun b hb => by cases hb⟩

theorem ofExcept {r : Except Error α} (h : ∀ a, r = .ok a → Q a) :
    Yields I (Kernel.ofExcept r) Q := by
  cases r with
  | ok a => exact pure (h a rfl)
  | error e => exact fail e

/-- Reading the state. -/
theorem get {f : Kernel → Action β} (hf : ∀ k : Kernel, I k.system → Yields I (f k) R) :
    Yields I (MonadState.get >>= f) R :=
  fun _ hs => Ensures.get fun k hk => hf k (hk ▸ hs) _ hs

end Yields

namespace Keeps

variable {x : Action α} {f : α → Action β} {R : β → Prop}

theorem of_ensures (hx : ∀ s, I s → Ensures s x fun _ s' => I s') : Keeps I x :=
  fun s hs => (hx s hs).mono fun _ _ h => ⟨h, fun _ _ => trivial⟩

theorem bind (hx : Keeps I x) (hf : ∀ a, Yields I (f a) R) : Yields I (x >>= f) R :=
  Yields.bind hx fun a _ => hf a

theorem attempt (hx : Keeps I x) : Keeps I (Kernel.attempt x) :=
  (Yields.attempt hx).keeps

theorem forM {f : β → Action Unit} (l : List β) (hf : ∀ b ∈ l, Keeps I (f b)) :
    Keeps I (l.forM f) := by
  induction l with
  | nil => exact Yields.pure trivial
  | cons b l ih =>
    exact (hf b List.mem_cons_self).bind fun _ => ih fun b' hb => hf b' (List.mem_cons_of_mem _ hb)

end Keeps

theorem Quiet.keeps {x : Action α} (hx : Quiet x) : Keeps I x :=
  .of_ensures fun _ hs => Ensures.of_quiet hx fun _ => hs

/-! ### Small actions -/

variable {size : Nat} {P : CoreId → Scheduler → Prop} {c : CoreId} {core : Core}

/-- What is known of a core that is looked at. -/
def Seen (size : Nat) (P : CoreId → Scheduler → Prop) (c : CoreId) (core : Core) : Prop :=
  P c core.scheduler ∧ ∀ t ∈ core.inbox.tasks, t.IsNew size

theorem ensures_coreAt_none {f : Core → Action β} {post : Except Stop β → System → Prop}
    (hcore : s.core? c = none) (h : post (.error (.failed .invalidCore)) s) :
    Ensures s (coreAt c >>= f) post := by
  rintro k rfl
  rw [perform_bind, perform_coreAt_none hcore]
  exact h

/-- A core that does not exist is refused; one that does is looked at. -/
theorem yields_coreAt_of {f : Core → Action β} {R : β → Prop}
    (hf : ∀ s core, s.Meets size P → s.core? c = some core →
      Ensures s (f core) fun r s' => s'.Meets size P ∧ ∀ b, r = .ok b → R b) :
    Yields (System.Meets size P) (coreAt c >>= f) R := by
  intro s hs
  cases hcore : s.core? c with
  | none => exact ensures_coreAt_none hcore ⟨hs, fun b hb => by cases hb⟩
  | some core => exact Ensures.coreAt hcore (hf s core hs hcore)

theorem yields_coreAt : Yields (System.Meets size P) (coreAt c) (Seen size P c) := by
  rw [← bind_pure (coreAt c)]
  refine yields_coreAt_of fun s core hs hcore => Ensures.pure ⟨hs, fun b hb => ?_⟩
  cases hb
  exact ⟨hs.schedulers c core hcore, hs.arriving c core hcore⟩

theorem keeps_updateCore (g : Core → Core) (hid : ∀ core, (g core).id = core.id)
    (hg : ∀ core, Seen size P c core → Seen size P c (g core)) :
    Keeps (System.Meets size P) (updateCore c g) := by
  refine .of_ensures fun s hs => ?_
  cases hcore : s.core? c with
  | some core =>
    obtain ⟨hscheduler, harriving⟩ := hg core
      ⟨hs.schedulers c core hcore, hs.arriving c core hcore⟩
    exact Ensures.updateCore hcore g (hs.withCore hcore (hid core) hscheduler harriving)
  | none =>
    rintro k rfl
    have hlen : k.cores.length ≤ c := List.getElem?_eq_none_iff.1 hcore
    have hsame : (k.modifyCore c g).system = k.system := by
      simp only [system, modifyCore, List.modify_eq_self hlen]
    exact hsame.symm ▸ hs

theorem keeps_setFlags (flags : CoreFlags) :
    Keeps (System.Meets size P) (updateCore c fun core => core.setFlags flags) :=
  keeps_updateCore (fun core => core.setFlags flags) (fun _ => rfl) fun _ h => h

theorem yields_onDirectory {g : Directory → α × Directory} {Q : α → Prop}
    (hg : ∀ d, (∀ t ∈ d.parked, t.IsNew size) →
      (∀ t ∈ (g d).2.parked, t.IsNew size) ∧ Q (g d).1) :
    Yields (System.Meets size P) (onDirectory g) Q := by
  intro s hs
  obtain ⟨hparked, hQ⟩ := hg s.directory hs.parked
  refine Ensures.onDirectory g ⟨⟨hs.config, hs.ordinals, hs.schedulers, hs.arriving, hparked⟩, ?_⟩
  intro a ha
  cases ha
  exact hQ

/-- The directory is used, and the parked tasks are left alone. -/
theorem keeps_onDirectory {g : Directory → α × Directory}
    (hg : ∀ d, (g d).2.parked = d.parked) : Keeps (System.Meets size P) (onDirectory g) :=
  yields_onDirectory fun d hd => ⟨(hg d).symm ▸ hd, trivial⟩

theorem keeps_onScheduler {g : Scheduler → α × Scheduler}
    (hg : ∀ scheduler, P c scheduler → P c (g scheduler).2) :
    Keeps (System.Meets size P) (onScheduler c g) :=
  yields_coreAt_of fun _ core hs hcore =>
    Ensures.bind_ok (Ensures.updateCore hcore _ ⟨rfl, rfl⟩) (Ensures.pure
      ⟨hs.withScheduler hcore (hg _ (hs.schedulers c core hcore)), fun _ _ => trivial⟩)

theorem keeps_askScheduler {g : Scheduler → Except Error α × Scheduler}
    (hg : ∀ scheduler, P c scheduler → P c (g scheduler).2) :
    Keeps (System.Meets size P) (askScheduler c g) :=
  (keeps_onScheduler hg).bind fun _ => .ofExcept fun _ _ => trivial

theorem keeps_request {operation : Scheduler.Operation}
    {g : Scheduler → Except Error α × Scheduler} {answer : α → Scheduler.Answer}
    (hg : ∀ scheduler, P c scheduler → P c (g scheduler).2) :
    Keeps (System.Meets size P) (request c operation g answer) :=
  yields_coreAt.keeps.bind fun _ => (keeps_askScheduler hg).bind fun _ =>
    (quiet_forM quiet_note _).keeps.bind fun _ => .pure trivial

/-! ### The lock -/

theorem yields_coreFault {Q : α → Prop} (e : Error) :
    Yields (System.Meets size P) (coreFault c e) Q := by
  refine (quiet_note _).keeps.bind fun _ =>
    (keeps_setFlags _).bind fun _ => Yields.get fun k _ => ?_
  rintro s hs k rfl
  exact ⟨hs, fun a ha => by cases ha⟩

theorem keeps_enqueue (hd : Drains size P) {task : Task} (hnew : task.IsNew size) :
    Keeps (System.Meets size P) (enqueue c task) :=
  keeps_request fun scheduler h => hd.schedule c scheduler task h hnew

theorem keeps_takeOver (hd : Drains size P) {tasks : List Task}
    (hnew : ∀ t ∈ tasks, t.IsNew size) : Keeps (System.Meets size P) (takeOver c tasks) := by
  induction tasks with
  | nil => exact .pure trivial
  | cons task tasks ih =>
    refine (keeps_enqueue hd (hnew task List.mem_cons_self)).attempt.bind fun r => ?_
    cases r with
    | ok _ => exact ih fun t ht => hnew t (List.mem_cons_of_mem _ ht)
    | error e => exact yields_coreFault e

theorem keeps_deliverAll (hd : Drains size P) (mail : List Mail) (stalled : List TaskId) :
    Keeps (System.Meets size P) (deliverAll c stalled mail) := by
  induction mail generalizing stalled with
  | nil => exact .pure trivial
  | cons mail rest ih =>
    obtain ⟨recipient, message⟩ := mail
    rw [deliverAll]
    split
    · exact (ih stalled).bind fun _ => .pure trivial
    · refine (keeps_askScheduler fun scheduler h =>
        hd.deliver c scheduler recipient message h).attempt.bind fun r => ?_
      split
      · exact (quiet_tally _ _).keeps.bind fun _ => ih stalled
      · exact ih stalled
      · exact (ih _).bind fun _ => .pure trivial
      · exact (quiet_note _).keeps.bind fun _ => ih stalled

theorem keeps_drainInbox (hd : Drains size P) : Keeps (System.Meets size P) (drainInbox c) := by
  refine Yields.bind yields_coreAt fun core hcore => ?_
  have hemptied : Keeps (System.Meets size P)
      (updateCore c fun c => { c with inbox := (c.inbox.takeTasks.2).takeMail.2 }) :=
    keeps_updateCore _ (fun _ => rfl) fun _ h => ⟨h.1, fun t ht => by cases ht⟩
  refine hemptied.bind fun _ => (keeps_takeOver hd hcore.2).bind fun _ =>
    (keeps_deliverAll hd _ []).bind fun retained => ?_
  exact keeps_updateCore _ (fun _ => rfl) fun _ h => h

theorem keeps_prepareSwitch (switch : Option Switch) :
    Keeps (System.Meets size P) (prepareSwitch c switch) := by
  cases switch with
  | none => exact .pure trivial
  | some switch =>
    refine yields_coreAt.keeps.bind fun core => ?_
    split
    · exact .pure trivial
    · exact yields_coreFault _

theorem keeps_publish : Keeps (System.Meets size P) (publish c) :=
  keeps_updateCore _ (fun _ => rfl) fun _ h => h

/-- The end of work under the lock: its outcome is published, and the switch is made. -/
theorem keeps_conclude (enabled : Bool) (r : Except Error (α × Option Switch)) :
    Keeps (System.Meets size P)
      (match r with
        | .error e =>
          if e.isFatal then
            coreFault c e
          else do
            publish c
            unmask enabled
            fail e
        | .ok (value, switch) => do
          let prepared ← prepareSwitch c switch
          publish c
          performSwitch prepared
          unmask enabled
          return value) := by
  cases r with
  | ok p =>
    exact (keeps_prepareSwitch p.2).bind fun prepared => keeps_publish.bind fun _ =>
      (quiet_performSwitch prepared).keeps.bind fun _ =>
        (quiet_unmask enabled).keeps.bind fun _ => .pure trivial
  | error e =>
    dsimp only
    split
    · exact yields_coreFault e
    · exact keeps_publish.bind fun _ => (quiet_unmask enabled).keeps.bind fun _ => .fail e

/-- The property may be another one after the operation, if it follows from the one before. -/
theorem ensures_locked_meets {P' : CoreId → Scheduler → Prop} (hd : Drains size P)
    (hP : ∀ c scheduler, P c scheduler → P' c scheduler) (hs : s.Meets size P)
    {operation : CoreId → Action (α × Option Switch)}
    (hop : ∀ s', s'.Meets size P →
      Ensures s' (operation s.currentCore) fun _ s' => s'.Meets size P') :
    Ensures s (locked operation) fun _ s' => s'.Meets size P' := by
  cases hcore : s.core? s.currentCore with
  | none => exact ensures_locked_none hcore (hs.mono hP)
  | some core =>
    refine Ensures.localCore hcore ?_
    rw [hs.ordinals _ core hcore]
    refine Ensures.quiet (quiet_onMachine fun _ => rfl) fun enabled => ?_
    refine Ensures.bind (((keeps_drainInbox hd).ensures hs).mono fun r s₁ hs₁ => ?_)
    cases r with
    | error e => exact hs₁.mono hP
    | ok _ =>
      refine Ensures.bind (Ensures.attempt ((hop s₁ hs₁).mono fun r s₂ hs₂ => ?_))
      match r with
      | .ok p => exact (keeps_conclude enabled (.ok p)).ensures hs₂
      | .error (.failed e) => exact (keeps_conclude enabled (.error e)).ensures hs₂
      | .error (.halted _) => exact hs₂

theorem keeps_locked (hd : Drains size P) {operation : CoreId → Action (α × Option Switch)}
    (hop : ∀ c, Keeps (System.Meets size P) (operation c)) :
    Keeps (System.Meets size P) (locked operation) :=
  .of_ensures fun _ hs =>
    ensures_locked_meets hd (fun _ _ h => h) hs fun _ hs' => (hop _).ensures hs'

end Kernel

end Microkernel
