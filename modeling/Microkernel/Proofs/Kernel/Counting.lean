/-
Work that counts the tasks that it readies.

Every task that is readied leaves the blocked queue of its core. So the count of the wakes and the
number of blocked tasks add up to what they did before, as long as each task that is readied is
counted and none is queued as blocked. `Balanced d k k'` says so of the way from `k` to `k'`, up to
a difference of `d`.

* **`Owes.bind`**: an action that readies tasks and answers how many, followed by one that counts
  them, keeps the balance;
* **`balances_drainInbox`**: so does a core that takes over its inbox;
* **`balances_actionOf`**: so does every operation that queues no task as blocked and ends none
  (`Operation.skips`).

Design notes: the choice of the next task may ready tasks too, and no operation counts those. It
readies none here, since no wait is over while the ready ring is empty (`Scheduler.Prompt`).
-/
import Mathlib.Algebra.BigOperators.Group.Finset.Basic
import Microkernel.Proofs.Kernel.Books
import Microkernel.Proofs.Kernel.Calls
import Microkernel.Proofs.Scheduler.Readying

namespace Microkernel.Kernel

open Scheduler (Drifts Readies woken)

variable {α β : Type} {k k' k'' : Kernel} {c : CoreId} {core core' : Core} {d : Int}

/-! ### A balance -/

/-- On every core the wait of no blocked task is over as long as the ready ring is empty. -/
def Fit (k : Kernel) : Prop :=
  ∀ c core, k.core? c = some core → core.scheduler.Prompt

def blockedOn (k : Kernel) (c : CoreId) : Nat :=
  ((k.core? c).map Core.scheduler).elim 0 fun s => s.blocked.length

/-- How many tasks are blocked, on all cores. -/
def blockedTasks (k : Kernel) : Nat :=
  ∑ c ∈ Finset.range k.cores.length, k.blockedOn c

/-- On the way from `k` to `k'` tasks are readied and nothing else is done to the queues. By `d`
more wakes are counted than tasks are readied. -/
structure Balanced (d : Int) (k k' : Kernel) : Prop where
  cores : k'.cores.length = k.cores.length
  drifts : ∀ c core, k.core? c = some core → ∃ core', k'.core? c = some core' ∧
    core'.scheduler.Prompt ∧ Drifts core.scheduler core'.scheduler
  count : (k'.metrics.wakes + k'.blockedTasks : Int) = k.metrics.wakes + k.blockedTasks + d

theorem exists_core? (h : k'.cores.length = k.cores.length) (hcore' : k'.core? c = some core') :
    ∃ core, k.core? c = some core := by
  have hlt : c < k.cores.length := h ▸ (List.getElem?_eq_some_iff.1 hcore').1
  exact ⟨k.cores[c], List.getElem?_eq_getElem hlt⟩

theorem Balanced.fit (h : Balanced d k k') : k'.Fit := by
  intro c core' hcore'
  obtain ⟨core, hcore⟩ := exists_core? h.cores hcore'
  obtain ⟨core₁, hcore₁, hprompt, -⟩ := h.drifts c core hcore
  cases hcore'.symm.trans hcore₁
  exact hprompt

/-- A fit kernel goes on to be fit, and its wakes are counted but for `d`. -/
def Balances (d : Int) (k k' : Kernel) : Prop :=
  k.Fit → Balanced d k k'

theorem Balanced.refl (h : k.Fit) : Balanced 0 k k :=
  ⟨rfl, fun c core hcore => ⟨core, hcore, h c core hcore, .refl _⟩, (Int.add_zero _).symm⟩

theorem Balanced.trans {e : Int} (h : Balanced d k k') (h' : Balanced e k' k'') :
    Balanced (d + e) k k'' := by
  refine ⟨h'.cores.trans h.cores, fun c core hcore => ?_, ?_⟩
  · obtain ⟨core', hcore', -, hdrifts⟩ := h.drifts c core hcore
    obtain ⟨core'', hcore'', hprompt, hdrifts'⟩ := h'.drifts c core' hcore'
    exact ⟨core'', hcore'', hprompt, hdrifts.trans hdrifts'⟩
  · have hcount := h.count
    have hcount' := h'.count
    omega

instance : Std.Refl (Balances 0) where
  refl _ := Balanced.refl

instance : Trans (Balances d) (Balances 0) (Balances d) where
  trans {_ _ _} h h' := fun hk =>
    have hd := h hk
    Int.add_zero d ▸ hd.trans (h' hd.fit)

/-! ### The cores in between -/

/-- One scheduler is replaced by another. -/
theorem blockedTasks_set (hcore : k.core? c = some core) (hcores : k'.cores = k.cores.set c core') :
    k'.blockedTasks + core.scheduler.blocked.length =
      k.blockedTasks + core'.scheduler.blocked.length := by
  have hlen : k'.cores.length = k.cores.length := by rw [hcores, List.length_set]
  have hlt : c < k.cores.length := (List.getElem?_eq_some_iff.1 hcore).1
  have hget : k'.core? c = some core' := by
    rw [core?, hcores, List.getElem?_set_self hlt]
  have hin : c ∈ Finset.range k.cores.length := Finset.mem_range.2 hlt
  have hrest : ∑ i ∈ (Finset.range k.cores.length).erase c, k'.blockedOn i =
      ∑ i ∈ (Finset.range k.cores.length).erase c, k.blockedOn i := by
    refine Finset.sum_congr rfl fun i hi => ?_
    have hne : c ≠ i := (Finset.ne_of_mem_erase hi).symm
    rw [blockedOn, blockedOn, core?, core?, hcores, List.getElem?_set_ne hne]
  have hbefore := Finset.add_sum_erase _ k.blockedOn hin
  have hafter := Finset.add_sum_erase _ k'.blockedOn hin
  rw [hrest] at hafter
  have hown : k.blockedOn c = core.scheduler.blocked.length := by rw [blockedOn, hcore]; rfl
  have hown' : k'.blockedOn c = core'.scheduler.blocked.length := by rw [blockedOn, hget]; rfl
  rw [blockedTasks, blockedTasks, hlen, ← hbefore, ← hafter, hown, hown']
  generalize ∑ i ∈ (Finset.range k.cores.length).erase c, k.blockedOn i = rest
  omega

theorem Balanced.of_set {n : Nat} (h : k.Fit) (hcore : k.core? c = some core)
    (hcores : k'.cores = k.cores.set c core')
    (hreadies : Readies n core.scheduler core'.scheduler)
    (hwakes : (k'.metrics.wakes : Int) = k.metrics.wakes + n + d) : Balanced d k k' := by
  refine ⟨by rw [hcores, List.length_set], fun i core₁ hcore₁ => ?_, ?_⟩
  · rw [core?, hcores, List.getElem?_set]
    by_cases hi : c = i
    · subst hi
      cases hcore.symm.trans hcore₁
      have hlt : c < k.cores.length := (List.getElem?_eq_some_iff.1 hcore).1
      exact ⟨core', by simp [hlt], hreadies.prompt, hreadies.drifts⟩
    · rw [if_neg hi]
      exact ⟨core₁, hcore₁, h i core₁ hcore₁, .refl _⟩
  · have hset := blockedTasks_set hcore hcores
    have hblocked := hreadies.blocked
    omega

/-! ### Actions that leave the queues alone -/

/-- No scheduler has changed, and no wake was counted. -/
structure Unmoved (k k' : Kernel) : Prop where
  schedulers : k'.cores.map Core.scheduler = k.cores.map Core.scheduler
  wakes : k'.metrics.wakes = k.metrics.wakes

instance : Std.Refl Unmoved where
  refl _ := ⟨rfl, rfl⟩

instance : Trans Unmoved Unmoved Unmoved where
  trans {_ _ _} h h' := ⟨h'.schedulers.trans h.schedulers, h'.wakes.trans h.wakes⟩

theorem Unmoved.core? (h : Unmoved k k') (c : CoreId) :
    (k'.core? c).map Core.scheduler = (k.core? c).map Core.scheduler := by
  rw [Kernel.core?, Kernel.core?, ← List.getElem?_map, ← List.getElem?_map, h.schedulers]

theorem Unmoved.balanced (h : Unmoved k k') (hk : k.Fit) : Balanced 0 k k' := by
  have hlen : k'.cores.length = k.cores.length := by
    simpa using congrArg List.length h.schedulers
  have hblocked : k'.blockedTasks = k.blockedTasks := by
    rw [blockedTasks, blockedTasks, hlen]
    refine Finset.sum_congr rfl fun c _ => ?_
    rw [blockedOn, blockedOn, h.core?]
  refine ⟨hlen, fun c core hcore => ?_, by rw [h.wakes, hblocked, Int.add_zero]⟩
  have hsame := h.core? c
  rw [hcore, Option.map_some, Option.map_eq_some_iff] at hsame
  obtain ⟨core', hcore', hscheduler⟩ := hsame
  refine ⟨core', hcore', ?_, ?_⟩ <;> rw [hscheduler]
  · exact hk c core hcore
  · exact .refl _

section Unmoved

variable {x : Action α} {f : α → Action β}

theorem Respects.balances (hx : Respects Unmoved x) : Respects (Balances 0) x :=
  hx.mono fun _ _ h => h.balanced

theorem unmoved_note (event : Event) : Respects Unmoved (note event) :=
  fun _ => ⟨rfl, rfl⟩

theorem unmoved_tally {counter : Counter} (hcounter : counter ≠ .wakes) (amount : Nat) :
    Respects Unmoved (tally counter amount) := by
  intro k
  have htotal := Metrics.total_add k.metrics counter .wakes amount
  rw [if_neg hcounter.symm] at htotal
  exact ⟨rfl, htotal⟩

theorem unmoved_onMachine (g : Machine → α × Machine) : Respects Unmoved (onMachine g) :=
  fun _ => ⟨rfl, rfl⟩

theorem unmoved_onDirectory (g : Directory → α × Directory) : Respects Unmoved (onDirectory g) :=
  fun _ => ⟨rfl, rfl⟩

theorem unmoved_updateCore {g : Core → Core} (hg : ∀ core, (g core).scheduler = core.scheduler)
    (c : CoreId) : Respects Unmoved (updateCore c g) := by
  refine fun k => ⟨?_, rfl⟩
  show (k.cores.modify c g).map Core.scheduler = k.cores.map Core.scheduler
  refine List.ext_getElem? fun i => ?_
  rw [List.getElem?_map, List.getElem?_map, List.getElem?_modify]
  cases k.cores[i]? with
  | none => rfl
  | some core =>
    by_cases hi : c = i
    · simp [hi, hg]
    · simp [hi]

theorem unmoved_coreFault (c : CoreId) (e : Error) :
    Respects Unmoved (coreFault c e : Action α) :=
  (unmoved_note _).bind fun _ => (unmoved_updateCore (fun _ => by rfl) c).bind fun _ =>
    .get fun _ k => Std.Refl.refl k

theorem unmoved_publish (c : CoreId) : Respects Unmoved (publish c) :=
  unmoved_updateCore (fun _ => by rfl) c

theorem unmoved_performSwitch (prepared : Option PreparedSwitch) :
    Respects Unmoved (performSwitch prepared) := by
  cases prepared with
  | none => exact .pure ()
  | some prepared =>
    obtain ⟨saved, resumed, stackTop, activated, preempted⟩ := prepared
    cases activated <;> cases preempted <;> exact fun _ => ⟨rfl, rfl⟩

theorem unmoved_prepareSwitch (c : CoreId) (switch : Option Switch) :
    Respects Unmoved (prepareSwitch c switch) := by
  cases switch with
  | none => exact .pure none
  | some switch =>
    refine (Respects.coreAt c).bind fun core => ?_
    split
    · exact .pure _
    · exact unmoved_coreFault c _

/-- What is done with the answer of an operation under the lock. -/
theorem unmoved_conclude (c : CoreId) (enabled : Bool) (r : Except Error (α × Option Switch)) :
    Respects Unmoved
      (match r with
        | .error e =>
          if e.isFatal then
            coreFault c e
          else do
            publish c
            unmask enabled
            fail e
        | .ok (value, switch) => do
          let prepared ← prepareSwitch c switch
          publish c
          performSwitch prepared
          unmask enabled
          return value) := by
  match r with
  | .error e =>
    dsimp only
    split
    · exact unmoved_coreFault c e
    · exact (unmoved_publish c).bind fun _ => (unmoved_onMachine _).bind fun _ => .fail e
  | .ok (value, switch) =>
    exact (unmoved_prepareSwitch c switch).bind fun prepared => (unmoved_publish c).bind fun _ =>
      (unmoved_performSwitch prepared).bind fun _ => (unmoved_onMachine _).bind fun _ => .pure value

theorem unmoved_localCore : Respects Unmoved localCore :=
  .get fun _ => .coreAt _

theorem unmoved_interrupt (kind : InterruptKind) (c : CoreId) :
    Respects Unmoved (interrupt c kind) :=
  (Respects.coreAt c).bind fun _ => (unmoved_onMachine _).bind fun _ =>
    unmoved_tally (by decide) _

theorem unmoved_interruptOthers (kind : InterruptKind) :
    Respects Unmoved (interruptOthers kind) :=
  .get fun _ => (unmoved_onMachine _).bind fun _ => unmoved_tally (by decide) _

theorem unmoved_armTimer : Respects Unmoved armTimer :=
  unmoved_localCore.bind fun core => .get fun _ => (unmoved_onMachine _).bind fun _ =>
    unmoved_updateCore (fun _ => by rfl) core.id

theorem unmoved_handOver (c : CoreId) (task : Task) : Respects Unmoved (handOver c task) :=
  (Respects.coreAt c).bind fun _ => (unmoved_updateCore (fun _ => by rfl) c).bind fun _ =>
    unmoved_interrupt _ c

theorem unmoved_post (c : CoreId) (recipient : TaskId) (message : Message) :
    Respects Unmoved (post c recipient message) :=
  (Respects.ofExcept _).bind fun _ => (Respects.coreAt c).bind fun _ =>
    (Respects.ofExcept _).bind fun _ => (unmoved_updateCore (fun _ => by rfl) c).bind fun _ =>
      unmoved_interrupt _ c

theorem unmoved_giveUp (id : TaskId) (event : Error → Event) (e : Error) :
    Respects Unmoved (giveUp id event e : Action α) :=
  (unmoved_onDirectory _).bind fun _ => (unmoved_note _).bind fun _ => .fail e

theorem unmoved_buildTask (make : Launcher → TaskId → Machine → Except Error Task × Machine)
    (event : Error → Event) : Respects Unmoved (buildTask make event) := by
  refine (unmoved_onDirectory _).bind fun _ => (Respects.ofExcept _).bind fun id => .get fun _ =>
    (unmoved_onMachine _).bind fun result => ?_
  cases result with
  | ok task => exact .pure task
  | error e => exact unmoved_giveUp id event e

theorem unmoved_buildKernelTask (name : String) (entry : Nat) (priority : Priority) :
    Respects Unmoved (buildKernelTask name entry priority) := by
  rw [buildKernelTask_eq]
  exact unmoved_buildTask _ _

theorem unmoved_buildUserTask (name : String) (entry : Nat) (path : Option String)
    (priority : Priority) : Respects Unmoved (buildUserTask name entry path priority) := by
  rw [buildUserTask_eq]
  exact unmoved_buildTask _ _

theorem unmoved_buildServants : Respects Unmoved buildServants := by
  refine (unmoved_buildKernelTask _ _ _).bind fun idle =>
    (unmoved_buildKernelTask _ _ _).attempt.bind fun result => ?_
  split
  · exact .pure _
  · exact (unmoved_onDirectory _).bind fun _ => (unmoved_onMachine _).bind fun _ => .fail _

theorem unmoved_registerProvider (service : Service) (task : TaskId) :
    Respects Unmoved (registerProvider service task) := by
  refine (unmoved_onDirectory _).bind fun previous => ?_
  split
  · exact unmoved_note _
  · exact .pure ()

end Unmoved

/-! ### Owing a count -/

section Owes

variable {x : Action α} {f : α → Action β} {owed : α → Nat} {g : Scheduler → α × Scheduler}

/-- The action readies as many tasks as its answer tells, and counts none of these wakes. -/
def Owes (owed : α → Nat) (x : Action α) : Prop :=
  ∀ k : Kernel, k.Fit → match k.perform x with
    | (.ok a, k') => Balanced (-(owed a : Int)) k k'
    | (.error _, k') => Balanced 0 k k'

theorem Owes.bind (hx : Owes owed x) (hf : ∀ a, Respects (Balances (owed a)) (f a)) :
    Respects (Balances 0) (x >>= f) := by
  intro k hk
  have howes := hx k hk
  rw [perform_bind]
  rcases hr : k.perform x with ⟨_ | a, k'⟩ <;> rw [hr] at howes
  · exact howes
  · have hrest := howes.trans (hf a k' howes.fit)
    rwa [Int.add_left_neg] at hrest

theorem Owes.respects (hx : Owes (fun _ => 0) x) : Respects (Balances 0) x := by
  intro k hk
  have howes := hx k hk
  rcases hr : k.perform x with ⟨_ | a, k'⟩ <;> rw [hr] at howes <;> exact howes

theorem Owes.attempt {owed : Except Error α → Nat} (herror : ∀ e, owed (.error e) = 0)
    (hx : Owes (fun a => owed (.ok a)) x) : Owes owed (attempt x) := by
  intro k hk
  have howes := hx k hk
  rw [perform_attempt]
  rcases hr : k.perform x with ⟨(e | _) | a, k'⟩ <;> rw [hr] at howes
  · dsimp only
    rw [herror e]
    exact howes
  · exact howes
  · exact howes

theorem perform_onScheduler (k : Kernel) (c : CoreId) (g : Scheduler → α × Scheduler) :
    k.perform (onScheduler c g) = match k.core? c with
      | none => (.error (.failed .invalidCore), k)
      | some core => (.ok (g core.scheduler).1,
          k.modifyCore c fun core' => { core' with scheduler := (g core.scheduler).2 }) := by
  rw [onScheduler, perform_bind, perform_coreAt_eq]
  cases k.core? c <;> rfl

theorem owes_onScheduler
    (hg : ∀ s : Scheduler, s.Prompt → Readies (owed (g s).1) s (g s).2) :
    Owes owed (onScheduler c g) := by
  intro k hk
  rw [perform_onScheduler]
  cases hcore : k.core? c with
  | none => exact .refl hk
  | some core =>
    have hcores := System.system_modifyCore (k := k) hcore
      fun core' => { core' with scheduler := (g core.scheduler).2 }
    refine .of_set hk hcore (congrArg System.cores hcores) (hg core.scheduler (hk c core hcore)) ?_
    show (k.metrics.wakes : Int) = _
    omega

theorem owes_askScheduler {g : Scheduler → Except Error α × Scheduler}
    (owed : Except Error α → Nat) (herror : ∀ e, owed (.error e) = 0)
    (hg : ∀ s : Scheduler, s.Prompt → Readies (owed (g s).1) s (g s).2) :
    Owes (fun a => owed (.ok a)) (askScheduler c g) := by
  intro k hk
  have howes := owes_onScheduler (c := c) hg k hk
  rw [askScheduler, perform_bind]
  rcases hr : k.perform (onScheduler c g) with ⟨_ | (e | a), k'⟩ <;> rw [hr] at howes
  · exact howes
  · have hnone := herror e
    dsimp only at howes
    rw [hnone] at howes
    exact howes
  · exact howes

end Owes

/-! ### Calls that count what they ready -/

section Calls

variable {f : Unit → Action β}

/-- The scheduler is asked for something that readies nobody. -/
theorem balances_onScheduler {g : Scheduler → α × Scheduler}
    (hg : ∀ s : Scheduler, s.Prompt → Readies 0 s (g s).2) :
    Respects (Balances 0) (onScheduler c g) :=
  Owes.respects (owes_onScheduler hg)

theorem balances_askScheduler {g : Scheduler → Except Error α × Scheduler}
    (hg : ∀ s : Scheduler, s.Prompt → Readies 0 s (g s).2) :
    Respects (Balances 0) (askScheduler c g) :=
  Owes.respects (owes_askScheduler (fun _ => 0) (fun _ => rfl) hg)

theorem balances_request {operation : Scheduler.Operation}
    {g : Scheduler → Except Error α × Scheduler} {answer : α → Scheduler.Answer}
    (hg : ∀ s : Scheduler, s.Prompt → Readies 0 s (g s).2) :
    Respects (Balances 0) (request c operation g answer) :=
  (Respects.coreAt c).bind fun _ => (balances_askScheduler hg).bind fun _ =>
    (Respects.forM (fun event => (unmoved_note event).balances) _).bind fun _ => .pure _

/-- Wakes that are owed are counted. -/
theorem balances_count (n : Nat) (hf : Respects (Balances 0) (f ())) :
    Respects (Balances n) (tally .wakes n >>= f) := by
  have htally : Respects (Balances n) (tally .wakes n) := by
    intro k hk
    refine ⟨rfl, fun c core hcore => ⟨core, hcore, hk c core hcore, .refl _⟩, ?_⟩
    show ((k.metrics.wakes + n : Nat) + k.blockedTasks : Int) = _
    omega
  exact htally.seq (fun _ _ h => h) fun _ => hf

theorem owes_deliver (recipient : TaskId) (message : Message) :
    Owes (fun a => woken (.ok a)) (askScheduler c (·.deliver recipient message)) :=
  owes_askScheduler _ (fun _ => rfl) fun _ hs => hs.readies_deliver recipient message

theorem balances_deliverAll (stalled : List TaskId) (mail : List Mail) :
    Respects (Balances 0) (deliverAll c stalled mail) := by
  induction mail generalizing stalled with
  | nil => exact .pure []
  | cons mail rest ih =>
    obtain ⟨recipient, message⟩ := mail
    rw [deliverAll]
    split
    · exact (ih stalled).bind fun _ => .pure _
    · refine ((owes_deliver recipient message).attempt fun _ => rfl).bind fun r => ?_
      rcases r with e | _ | _
      · have hdropped : Respects (Balances 0)
            (do note (.mailDropped message.sender recipient e); deliverAll c stalled rest) :=
          (unmoved_note _).balances.bind fun _ => ih stalled
        cases e <;> first | exact hdropped | exact (ih _).bind fun _ => .pure _
      · exact ih stalled
      · exact balances_count 1 (ih stalled)

theorem balances_takeOver (tasks : List Task) : Respects (Balances 0) (takeOver c tasks) := by
  induction tasks with
  | nil => exact .pure ()
  | cons task rest ih =>
    have henqueue : Respects (Balances 0) (enqueue c task) :=
      balances_request fun _ hs => hs.readies_schedule task
    refine henqueue.attempt.bind fun r => ?_
    cases r with
    | ok _ => exact ih
    | error e => exact (unmoved_coreFault c e).balances

theorem balances_drainInbox (c : CoreId) : Respects (Balances 0) (drainInbox c) := by
  have hset : ∀ g : Core → Core, (∀ core, (g core).scheduler = core.scheduler) →
      Respects (Balances 0) (updateCore c g) := fun _ hg => (unmoved_updateCore hg c).balances
  exact (Respects.coreAt c).bind fun core => (hset _ fun _ => by rfl).bind fun _ =>
    (balances_takeOver _).bind fun _ => (balances_deliverAll _ _).bind fun _ =>
      hset _ fun _ => by rfl

theorem balances_locked {operation : CoreId → Action (α × Option Switch)}
    (hop : ∀ c, Respects (Balances 0) (operation c)) :
    Respects (Balances 0) (locked operation) :=
  unmoved_localCore.balances.bind fun core => (unmoved_onMachine _).balances.bind fun enabled =>
    (balances_drainInbox core.id).bind fun _ => (hop core.id).attempt.bind fun r =>
      (unmoved_conclude core.id enabled r).balances

theorem balances_reschedule (a : α) :
    Respects (Balances 0) (do return (a, ← onScheduler c Scheduler.reschedule)) :=
  (balances_onScheduler fun _ hs => hs.readies_reschedule).bind fun _ => .pure _

theorem balances_tick : Respects (Balances 0) tick := by
  refine balances_locked fun c k hk => ?_
  rw [perform_bind, perform_coreAt_eq]
  cases hcore : k.core? c with
  | none => exact .refl hk
  | some core =>
    rw [Option.elim_some]
    dsimp only
    split
    · -- the wakes are counted by the length that the blocked queue has lost
      let counted : Kernel := { k with metrics := k.metrics.add .timerTicks 1 }
      let ticked : Kernel := counted.modifyCore c fun core' =>
        { core' with scheduler := core.scheduler.tick.2 }
      have hcounted : counted.core? c = some core := hcore
      have hget : ticked.core? c = some { core with scheduler := core.scheduler.tick.2 } := by
        rw [core?_modifyCore, if_pos rfl, hcounted, Option.map_some]
      have htally : k.perform (tally .timerTicks 1) = (.ok (), counted) := rfl
      rw [perform_bind, htally]
      dsimp only
      rw [perform_bind, perform_onScheduler, hcounted]
      dsimp only
      rw [perform_bind, perform_coreAt_eq, hget, Option.elim_some]
      have hcores := System.system_modifyCore (k := counted) hcounted fun core' =>
        { core' with scheduler := core.scheduler.tick.2 }
      refine .of_set hk hcore (congrArg System.cores hcores) (hk c core hcore).readies_tick ?_
      exact (Int.add_zero _).symm
    · exact .refl hk

theorem balances_startLocal : Respects (Balances 0) startLocal := by
  refine balances_locked fun c => (Respects.coreAt c).bind fun core => ?_
  split
  · exact .pure _
  · exact (unmoved_updateCore (fun _ => by rfl) c).balances.bind fun _ =>
      (unmoved_note _).balances.bind fun _ =>
        (balances_onScheduler fun _ hs => hs.readies_start).bind fun _ => .pure _

theorem balances_handleInterrupt (kind : InterruptKind) :
    Respects (Balances 0) (handleInterrupt kind) := by
  cases kind with
  | reschedule =>
    rw [handleInterrupt]
    exact balances_locked fun _ => balances_reschedule ()
  | startScheduler =>
    rw [handleInterrupt]
    exact balances_startLocal
  | invalidateTlb => exact (unmoved_onMachine _).balances
  | setupTimeslice => exact unmoved_armTimer.balances

theorem balances_wake (task : TaskId) : Respects (Balances 0) (wake task) := by
  refine (Respects.checkLocal task).bind fun _ => balances_locked fun c => ?_
  have howes : Owes Bool.toNat (onScheduler c (·.wake task)) :=
    owes_onScheduler fun _ hs => hs.readies_wake task
  refine howes.bind fun woken => ?_
  cases woken with
  | true => exact balances_count 1 (balances_reschedule true)
  | false =>
    show Respects (Balances 0) _
    exact .pure _

theorem balances_changePriority (task : TaskId) (priority : Priority) :
    Respects (Balances 0) (changePriority task priority) :=
  (Respects.checkLocal task).bind fun _ => balances_locked fun _ =>
    (balances_askScheduler fun _ hs => hs.readies_changePriority task priority).bind fun _ =>
      .pure _

theorem balances_runCleanup : Respects (Balances 0) runCleanup :=
  (balances_locked fun c => (Respects.checkCleanup c).bind fun _ =>
    (balances_onScheduler fun _ hs => hs.readies_reap).bind fun _ => .pure _).bind fun _ =>
      (Respects.forM (fun _ => (unmoved_note _).balances) _).bind fun _ =>
        (unmoved_onMachine _).balances.bind fun _ =>
          (unmoved_tally (by decide) _).balances.bind fun _ => .pure _

/-! ### New tasks -/

theorem balances_place (task : Task) : Respects (Balances 0) (place task) := by
  refine .get fun k => ?_
  split
  · exact (unmoved_onDirectory _).balances.bind fun _ => (unmoved_note _).balances.bind fun _ =>
      .pure _
  · rename_i core _
    refine (unmoved_onDirectory _).balances.bind fun _ => ?_
    split
    · exact (balances_locked fun _ =>
        (balances_request fun _ hs => hs.readies_schedule task).bind fun _ =>
          balances_reschedule ()).bind fun _ => (unmoved_note _).balances.bind fun _ => .pure _
    · exact (unmoved_handOver core task).balances.bind fun _ =>
        (unmoved_note _).balances.bind fun _ => .pure _

theorem balances_launch (task : Task) : Respects (Balances 0) (launch task) :=
  (balances_place task).bind fun _ => (unmoved_tally (by decide) _).balances.bind fun _ => .pure _

theorem balances_releaseParked : Respects (Balances 0) releaseParked :=
  (unmoved_onDirectory _).balances.bind fun tasks =>
    .forM (fun task => (balances_place task).bind fun _ => .pure ()) tasks

theorem balances_bringUp : Respects (Balances 0) bringUp := by
  refine unmoved_localCore.balances.bind fun core => ?_
  split
  · exact .pure ()
  · refine unmoved_buildServants.balances.bind fun (idle, cleanup) => ?_
    have hinstalled : Respects (Balances 0) (locked fun id => do
        askScheduler id (·.installIdle idle)
        request id (.installCleanup cleanup) (·.installCleanup cleanup) fun _ => .done
        return ((), none)) :=
      balances_locked fun _ =>
        (balances_askScheduler fun _ hs => hs.readies_installIdle idle).bind fun _ =>
          (balances_request fun _ hs => hs.readies_installCleanup cleanup).bind fun _ => .pure _
    exact hinstalled.bind fun _ => (unmoved_onDirectory _).balances.bind fun _ =>
      (unmoved_updateCore (fun _ => by rfl) core.id).balances.bind fun _ =>
        (unmoved_note _).balances.bind fun _ => balances_releaseParked

/-! ### Messages -/

theorem balances_deliverLocally (recipient : TaskId) (message : Message) :
    Respects (Balances 0) (deliverLocally recipient message) := by
  refine balances_locked fun c => (owes_deliver recipient message).bind fun woken => ?_
  cases woken with
  | true => exact balances_count 1 (balances_reschedule ())
  | false =>
    show Respects (Balances 0) _
    exact .pure _

theorem balances_route (message : Message) : Respects (Balances 0) (route message) := by
  refine .get fun k => (Respects.ofExcept _).bind fun target => ?_
  have hbrought : Respects (Balances 0)
      (if target.2 = k.machine.currentCore then deliverLocally target.1 message
        else post target.2 target.1 message) := by
    split
    · exact balances_deliverLocally _ _
    · exact (unmoved_post _ _ _).balances
  refine hbrought.attempt.bind fun outcome => ?_
  split
  · exact (unmoved_tally (by decide) _).balances
  · exact (unmoved_tally (by decide) _).balances.bind fun _ => .fail _
  · exact .fail _

theorem balances_send (recipient : Recipient) (body : Body) :
    Respects (Balances 0) (send recipient body) := by
  refine .get fun k => ?_
  dsimp only
  split
  · rw [answerRegistry]
    split
    · exact (unmoved_registerProvider _ _).balances
    · exact ((unmoved_onDirectory _).bind fun _ => .pure ()).balances
    · exact .get fun _ => balances_route _
    all_goals exact .fail _
  · exact balances_route _

end Calls

/-- The operation may ready tasks that it does not count. -/
def Operation.skips : Operation → Bool
  | .exit | .sleep _ | .tryReceive _ | .receive _ | .parkCleanup => true
  | _ => false

/-- Every other operation counts what it readies. -/
theorem balances_actionOf {operation : Operation} (h : operation.skips = false) :
    Respects (Balances 0) (actionOf operation) := by
  have hquiet : ∀ {x : Action Unit}, Respects (Balances 0) x →
      Respects (Balances 0) (do x; return Answer.done) := fun hx => hx.bind fun _ => .pure _
  cases operation with
  | bringUp => exact hquiet balances_bringUp
  | spawn name entry priority =>
    exact ((unmoved_buildKernelTask _ _ _).balances.bind balances_launch).bind fun _ => .pure _
  | spawnUser name entry path priority =>
    exact ((unmoved_buildUserTask _ _ _ _).balances.bind balances_launch).bind fun _ => .pure _
  | start =>
    exact hquiet ((unmoved_interruptOthers _).balances.bind fun _ => balances_startLocal)
  | wake task => exact (balances_wake task).bind fun _ => .pure _
  | tick => exact hquiet balances_tick
  | send recipient body => exact hquiet (balances_send recipient body)
  | changePriority task priority => exact hquiet (balances_changePriority task priority)
  | invalidateTlb =>
    exact hquiet ((unmoved_onMachine _).bind fun _ => unmoved_interruptOthers _).balances
  | setupTimeslice =>
    exact hquiet (unmoved_armTimer.bind fun _ => unmoved_interruptOthers _).balances
  | handleInterrupt kind => exact hquiet (balances_handleInterrupt kind)
  | runCleanup => exact balances_runCleanup.bind fun _ => .pure _
  | setRegistryTask task => exact hquiet (unmoved_onDirectory _).balances
  | turnTo core => exact hquiet (unmoved_onMachine _).balances
  | setFault fault on => exact hquiet (unmoved_onMachine _).balances
  | setLevel level =>
    have hset : Respects Unmoved (modify fun k : Kernel =>
        { k with journal := { k.journal with level := level } }) := fun _ => ⟨rfl, rfl⟩
    exact hquiet hset.balances
  | exit | sleep _ | tryReceive _ | receive _ | parkCleanup => cases h

end Microkernel.Kernel
