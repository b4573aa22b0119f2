/-
Mail for a service never goes to a task that is over.

A task becomes the provider of a service by a message to the service registry, which the kernel
answers while no task stands for the registry. What an operation tells the registry is
`k.registryEvents operation`; the sender of a message is the task that is current.

* **`registry_run`**: the registry is what the events of the run make of it;
* **`Reachable.home_step`**, **`Reachable.live_step`**: a task that does not end stays alive, and at
  home;
* **`registry_intact`**: a provider is alive and the registry task is alive, and a new task is
  neither, whatever its id was used for before.

Design notes: the kernel registers as a provider under `kernelSender` if no task is current. There
is no such task as long as the ids do not go that far.
-/
import Microkernel.Proofs.Kernel.Courses
import Microkernel.Proofs.Kernel.Population
import Microkernel.Proofs.Kernel.Undeliverable
import Microkernel.Proofs.Registry

namespace Microkernel.Kernel

variable {α : Type} {s s' : System} {k : Kernel} {hand : List Task} {id : TaskId} {c : CoreId}
  {operation : Operation}

/-! ### What the registry is told -/

/-- Whom a message comes from that is sent now. -/
def sender (k : Kernel) : TaskId :=
  k.currentTask.getD kernelSender

/-- What a request makes of the registry. -/
def requestEvents (sender : TaskId) : Body → List RegistryEvent
  | .services (.register service) => [.registered service sender]
  | .services (.unregister service) => [.withdrawn service sender]
  | _ => []

/-- What an operation tells the registry. If there is a registry task, requests are mail for it. -/
def registryEvents (k : Kernel) : Operation → List RegistryEvent
  | .send .registry body =>
    if k.directory.registry.registryTask = none then requestEvents k.sender body else []
  | .exit => (k.ends .exit).toList.map .ended
  | .setRegistryTask task => [.appointed task]
  | _ => []

theorem registry_route (hk : k.Numbered) (message : Message) :
    (k.perform (route message)).2.directory.registry = k.directory.registry :=
  (course_route (f := Books.registry) message message.recipient message.body k hk).books

theorem registry_registerProvider (k : Kernel) (service : Service) (task : TaskId) :
    (k.perform (registerProvider service task)).2.directory.registry =
      (k.directory.registry.register service task).2 := by
  have hasked : k.perform (onDirectory (·.register service task)) =
      (.ok (k.directory.register service task).1,
        { k with directory := (k.directory.register service task).2 }) := rfl
  rw [registerProvider, perform_bind, hasked]
  dsimp only
  split <;> rfl

theorem registry_unregisterProvider (k : Kernel) (service : Service) (task : TaskId) :
    (k.perform (unregisterProvider service task)).2.directory.registry =
      (k.directory.registry.unregister service task).2 := by
  rw [unregisterProvider, perform_bind]
  rfl

theorem registry_answerRegistry (hk : k.Numbered) (message : Message) :
    (k.perform (answerRegistry message)).2.directory.registry =
      (requestEvents message.sender message.body).foldl Registry.after k.directory.registry := by
  obtain ⟨sender, recipient, body⟩ := message
  have hrefused : (k.perform (fail .malformedMessage : Action Unit)).2.directory.registry =
      k.directory.registry := rfl
  match body with
  | .services (.register service) => exact registry_registerProvider k service sender
  | .services (.unregister service) => exact registry_unregisterProvider k service sender
  | .services (.lookup service) =>
    rw [answerRegistry]
    dsimp only
    rw [perform_bind]
    exact registry_route hk _
  | .services (.reply _ _) => exact hrefused
  | .scheduler _ => exact hrefused
  | .verbatim _ _ _ => exact hrefused

theorem registry_send (hk : k.Numbered) (recipient : Recipient) (body : Body) :
    (k.step (.send recipient body)).2.directory.registry =
      (k.registryEvents (.send recipient body)).foldl Registry.after k.directory.registry := by
  have hstep : (k.step (.send recipient body)).2 = (k.perform (send recipient body)).2 :=
    perform_answer _ fun _ => .done
  have hsend : k.perform (send recipient body) = k.perform
      (if recipient = .registry ∧ k.directory.registry.registryTask = none then
        answerRegistry ⟨k.sender, recipient, body⟩ else route ⟨k.sender, recipient, body⟩) := rfl
  rw [hstep, hsend]
  split
  · rename_i hrequest
    obtain ⟨rfl, hnone⟩ := hrequest
    rw [registryEvents, if_pos hnone]
    exact registry_answerRegistry hk _
  · rename_i hother
    rw [registry_route hk]
    cases recipient with
    | registry =>
      have hsome : k.directory.registry.registryTask ≠ none := fun hnone => hother ⟨rfl, hnone⟩
      rw [registryEvents, if_neg hsome]
      rfl
    | _ => rfl

/-- The registry is what an operation tells it. -/
theorem registry_step (h : k.system.Sound []) (operation : Operation) :
    (k.step operation).2.directory.registry =
      (k.registryEvents operation).foldl Registry.after k.directory.registry := by
  have hk : k.Numbered := h.ordinals
  cases operation with
  | send recipient body => exact registry_send hk recipient body
  | exit =>
    have hexited := exited_step h
    rw [registryEvents]
    generalize k.ends .exit = id at hexited
    generalize (k.step .exit).2 = k' at hexited ⊢
    cases hexited with
    | ended _ hsystem => exact congrArg (fun s : System => s.directory.registry) hsystem
    | refused _ hdirectory => exact congrArg Directory.registry hdirectory
  | setRegistryTask task => rfl
  | _ =>
    refine books_step (f := Books.registry) hk ?_
    first | trivial | exact fun _ _ _ => rfl

/-- The registry is what the events of the run make of it. -/
theorem registry_run (h : k.Reachable) (operations : List Operation) :
    (k.run operations).directory.registry =
      (k.gathered registryEvents operations).foldl Registry.after k.directory.registry := by
  induction operations generalizing k with
  | nil => rfl
  | cons operation rest ih =>
    rw [h.run_cons, ih (h.step operation), registry_step h.sound, gathered, List.foldl_append]

/-! ### Who stays alive -/

/-- The id belongs to a live task. -/
def IsLive (k : Kernel) (id : TaskId) : Prop :=
  id ∈ k.liveTasks.map Task.id

theorem isLive_iff (h : k.system.Sound []) : k.IsLive id ↔ id ∈ k.system.liveIds := by
  rw [IsLive, map_id_liveTasks h]

theorem isLive_of_homeOf (h : k.system.Sound []) (hhome : k.directory.homeOf id = some c) :
    k.IsLive id := by
  obtain ⟨core, hcore, hin⟩ := (h.homes id c).1 hhome
  exact (isLive_iff h).2 (List.mem_append_left _ (System.mem_residents_of_mem hcore hin))

/-- A task that does not end stays at home. -/
theorem Reachable.home_step (h : k.Reachable) (hhome : k.directory.homeOf id = some c)
    (hends : k.ends operation ≠ some id) : (k.step operation).2.directory.homeOf id = some c := by
  obtain ⟨core, hcore, hin⟩ := (h.sound.homes id c).1 hhome
  by_cases hidle : core.scheduler.idle = some id
  · -- an idle task has no mail that could be followed, but it stays idle
    obtain ⟨core', hcore'⟩ : ∃ core', (k.step operation).2.core? c = some core' := by
      by_cases hturn : ∃ i, operation = .turnTo i
      · obtain ⟨i, rfl⟩ := hturn
        exact ⟨core, hcore⟩
      · have honward := (stepwise_actionOf fun i hi => hturn ⟨i, hi⟩) k
        obtain ⟨core', hcore', -⟩ := (Stepwise.onward honward h.sound.ordinals).kept c core hcore
        exact ⟨core', hcore'⟩
    have hrun : (k.run [operation]).core? c = some core' := by
      rw [h.run_cons]
      exact hcore'
    have hidle' := (h.idle_run hcore hidle hrun).1
    have hsound := (h.step operation).sound
    refine (hsound.homes id c).2 ⟨core', hcore', (Core.mem_members_iff _).2 (.inl ?_)⟩
    exact ((hsound.settled c core' hcore').sound.coherent.queued.live id).2 (.inr (.inr hidle'))
  · obtain ⟨core', hid', -⟩ := (h.preserves operation).passes id c core ⟨hhome, hcore, hidle⟩ hends
    exact hid'.home

/-- The tasks that are alive are those whose ids were handed out. -/
theorem live_of_ids (hs : s.Sound hand) (hs' : s'.Sound [])
    (hids : s'.directory.ids = s.directory.ids) (hlive : id ∈ s.liveIds) : id ∈ s'.liveIds := by
  have hallocated := (hs.ids.mem_iff id).2 (List.mem_append_right _ hlive)
  rw [← hids] at hallocated
  exact (hs'.ids.mem_iff id).1 hallocated

/-- Building a task ends no other one, and neither does what is done with it. -/
theorem ensures_built_live {β : Type} {x : Action α} {g : α → Action β} {tasks : α → List Task}
    (hx : Ensures s x (Built tasks s []))
    (hg : ∀ a (s₁ : System), (∃ ids, s₁ = s.withIds ids) → s₁.Sound (tasks a ++ []) →
      Ensures s₁ (g a) fun _ s' => s'.directory.ids = s₁.directory.ids) :
    Ensures s (x >>= g) fun _ s' => s'.Sound [] → id ∈ s.liveIds → id ∈ s'.liveIds := by
  refine Ensures.bind (hx.mono fun r s₁ hr => ?_)
  obtain ⟨⟨ids, rfl⟩, hr⟩ := hr
  match r with
  | .error _ => exact fun _ hlive => hlive
  | .ok a =>
    exact (hg a _ ⟨ids, rfl⟩ hr).mono fun _ s' hids hs' hlive => live_of_ids hr hs' hids hlive

theorem ensures_launch_ids {task : Task} (h : s.Sound (task :: hand)) :
    Ensures s (launch task) fun _ s' => s'.directory.ids = s.directory.ids := by
  have hplaced := (ensures_place h).and (ensures_place_shifts h)
  refine Ensures.bind (hplaced.mono fun r s' hr => ?_)
  obtain ⟨placement, rfl⟩ := hr.1.ok
  exact Ensures.quiet (quiet_tally _ _) fun _ => Ensures.pure hr.2.2

theorem ensures_bringUp_live (h : s.Sound []) :
    Ensures s bringUp fun _ s' => s'.Sound [] → id ∈ s.liveIds → id ∈ s'.liveIds := by
  cases hcore : s.core? s.currentCore with
  | none => exact Ensures.localCore_none hcore fun _ hlive => hlive
  | some core =>
    refine Ensures.localCore hcore ?_
    split
    · exact Ensures.pure fun _ hlive => hlive
    · rename_i hoffline
      have hnone := (h.offline _ core hcore (Bool.not_eq_true _ ▸ hoffline)).members
      refine ensures_built_live (ensures_buildServants h) fun servants s₁ hids hsound => ?_
      obtain ⟨ids, rfl⟩ := hids
      exact (ensures_goOnline_shifts hsound hcore hnone).mono fun _ _ hr => hr.2.2

/-- A task that does not end stays alive. -/
theorem Reachable.live_step (h : k.Reachable) (hlive : k.IsLive id)
    (hends : k.ends operation ≠ some id) : (k.step operation).2.IsLive id := by
  have hsound := (h.step operation).sound
  rw [isLive_iff h.sound] at hlive
  rcases List.mem_append.1 hlive with hin | hparked
  · obtain ⟨core, hcore, hin⟩ := List.mem_flatMap.1 hin
    obtain ⟨c, hc⟩ := List.getElem?_of_mem hcore
    have hhome := (h.sound.homes id c).2 ⟨core, hc, hin⟩
    exact isLive_of_homeOf hsound (h.home_step hhome hends)
  -- tasks that are parked get a home when a core is brought up
  rw [isLive_iff hsound]
  have hspared : operation.Spares Books.parked → id ∈ (k.step operation).2.system.liveIds := by
    intro hspares
    have hsame : (k.step operation).2.directory.parked = k.directory.parked :=
      books_step h.sound.ordinals hspares
    refine List.mem_append_right _ ?_
    show id ∈ (k.step operation).2.directory.parked.map Task.id
    rw [hsame]
    exact hparked
  cases operation with
  | bringUp =>
    rw [step_bringUp] at hsound ⊢
    exact ensures_bringUp_live h.sound k rfl hsound hlive
  | spawn name entry priority =>
    rw [step_spawn] at hsound ⊢
    exact ensures_built_live (ensures_buildKernelTask h.sound name entry priority)
      (fun _ _ _ hs => ensures_launch_ids hs) k rfl hsound hlive
  | spawnUser name entry path priority =>
    rw [step_spawnUser] at hsound ⊢
    exact ensures_built_live (ensures_buildUserTask h.sound name entry path priority)
      (fun _ _ _ hs => ensures_launch_ids hs) k rfl hsound hlive
  | _ => exact hspared (by first | trivial | exact fun _ _ => rfl | exact fun _ _ _ => rfl)

/-- Ids stay below the limit that was configured. -/
theorem Reachable.limit_eq (h : k.Reachable) : k.directory.ids.limit = k.config.maxIds := by
  induction h with
  | new h =>
    obtain ⟨hconfig, hdirectory, -⟩ := parts_of_new h
    rw [hconfig]
    exact congrArg (fun d : Directory => d.ids.limit) hdirectory
  | @step k h operation ih =>
    have hconfig : (k.step operation).2.config = k.config := (h.preserves operation).config
    have hspares : operation.Spares Books.limit := by
      cases operation <;> first | trivial | exact fun _ _ => rfl | exact fun _ _ _ => rfl
    have hlimit : (k.step operation).2.directory.ids.limit = k.directory.ids.limit :=
      books_step h.sound.ordinals hspares
    rw [hlimit, ih, hconfig]

theorem Reachable.lt_maxIds (h : k.Reachable) (hlive : k.IsLive id) : id < k.config.maxIds := by
  have hallocated := (h.conserved.allocated id).2 hlive
  rw [← h.limit_eq]
  exact ((IdPool.isAllocated_iff id).1 hallocated).1

/-! ### Providers are alive -/

/-- The task that is named to stand for the registry. -/
def Operation.appointee : Operation → Option TaskId
  | .setRegistryTask task => task
  | _ => none

/-- Only live tasks are named to stand for the registry. -/
def Appoints : Kernel → List Operation → Prop
  | _, [] => True
  | k, operation :: rest => (∀ task, operation.appointee = some task → k.IsLive task) ∧
    (k.step operation).2.Appoints rest

instance (k : Kernel) (id : TaskId) : Decidable (k.IsLive id) :=
  inferInstanceAs (Decidable (id ∈ k.liveTasks.map Task.id))

instance decidableAppoints : (k : Kernel) → (operations : List Operation) →
    Decidable (k.Appoints operations)
  | _, [] => .isTrue trivial
  | k, operation :: rest =>
    have := decidableAppoints (k.step operation).2 rest
    inferInstanceAs (Decidable ((∀ task ∈ operation.appointee, k.IsLive task) ∧
      (k.step operation).2.Appoints rest))

/-- Providers have a home, and the registry task is alive. -/
structure Provisioned (k : Kernel) : Prop where
  unambiguous : k.directory.registry.Unambiguous
  provider : ∀ service task, k.directory.registry.provider? service = some task →
    task = kernelSender ∨ ∃ c, k.directory.homeOf task = some c
  registryTask : ∀ task, k.directory.registry.registryTask = some task → k.IsLive task

/-- A message comes from the kernel, or from a task that is at home on the core that runs. -/
theorem sender_cases (h : k.system.Sound []) :
    k.sender = kernelSender ∨ k.directory.homeOf k.sender = some k.machine.currentCore := by
  cases hcurrent : k.currentTask with
  | none => exact .inl (by rw [sender, hcurrent, Option.getD_none])
  | some id =>
    right
    rw [sender, hcurrent, Option.getD_some]
    obtain ⟨core, hcore, hid⟩ := Option.bind_eq_some_iff.1 hcurrent
    have hsettled := h.settled _ core hcore
    rw [hsettled.current] at hid
    refine (h.homes id _).2 ⟨core, hcore, (Core.mem_members_iff _).2 (.inl ?_)⟩
    exact hsettled.sound.coherent.contains_current hid

theorem registered_mem {service : Service} {task : TaskId}
    (h : .registered service task ∈ k.registryEvents operation) :
    task = k.sender ∧ k.ends operation = none := by
  unfold registryEvents at h
  split at h
  · split at h
    · unfold requestEvents at h
      split at h <;> simp_all [ends, ended]
    · cases h
  · simp at h
  · simp at h
  · cases h

theorem appointed_mem {task : TaskId}
    (h : .appointed (some task) ∈ k.registryEvents operation) :
    operation.appointee = some task ∧ k.ends operation = none := by
  unfold registryEvents at h
  split at h
  · split at h
    · unfold requestEvents at h
      split at h <;> simp at h
    · cases h
  · simp at h
  · rename_i who
    have hwho : some task = who := by simpa using h
    exact ⟨hwho.symm, rfl⟩
  · cases h

theorem ended_mem {task : TaskId} (h : k.ends operation = some task) :
    .ended task ∈ k.registryEvents operation := by
  by_cases hexit : operation = .exit
  · subst hexit
    rw [registryEvents, h]
    exact List.mem_singleton_self _
  · rw [ends_eq_none hexit] at h
    cases h

/-- A task becomes a provider by sending a registration itself. -/
theorem provider_step (h : k.system.Sound []) (hk : k.directory.registry.Unambiguous)
    {service : Service} {task : TaskId}
    (hprovides : (k.step operation).2.directory.registry.provider? service = some task) :
    k.ends operation ≠ some task ∧
      (task = k.sender ∨ k.directory.registry.provider? service = some task) := by
  rw [registry_step h, Registry.provider?_foldl hk] at hprovides
  rcases hprovides with ⟨before, later, hevents, -⟩ | ⟨hbefore, hkept⟩
  · have hin : .registered service task ∈ k.registryEvents operation := by
      rw [hevents]
      exact List.mem_append_right _ List.mem_cons_self
    obtain ⟨hsender, hends⟩ := registered_mem hin
    rw [hends]
    exact ⟨nofun, .inl hsender⟩
  · exact ⟨fun hends => hkept _ (ended_mem hends) rfl, .inr hbefore⟩

/-- A task comes to stand for the registry by being named. -/
theorem registryTask_step (h : k.system.Sound []) {task : TaskId}
    (hstands : (k.step operation).2.directory.registry.registryTask = some task) :
    k.ends operation ≠ some task ∧ (operation.appointee = some task ∨
      k.directory.registry.registryTask = some task) := by
  rw [registry_step h] at hstands
  rcases Registry.registryTask_foldl hstands with hin | ⟨hbefore, hnot⟩
  · obtain ⟨happointed, hends⟩ := appointed_mem hin
    rw [hends]
    exact ⟨nofun, .inl happointed⟩
  · exact ⟨fun hends => hnot (ended_mem hends), .inr hbefore⟩

/-- Who provides a service after an operation had a home before. -/
theorem Provisioned.provider_before (hk : k.Provisioned) (h : k.system.Sound []) {service : Service}
    {task : TaskId}
    (hprovides : (k.step operation).2.directory.registry.provider? service = some task) :
    k.ends operation ≠ some task ∧
      (task = kernelSender ∨ ∃ c, k.directory.homeOf task = some c) := by
  obtain ⟨hends, rfl | hbefore⟩ := provider_step h hk.unambiguous hprovides
  · exact ⟨hends, (sender_cases h).imp_right fun hhome => ⟨_, hhome⟩⟩
  · exact ⟨hends, hk.provider service task hbefore⟩

theorem Provisioned.step (hk : k.Provisioned) (h : k.Reachable)
    (happoints : ∀ task, operation.appointee = some task → k.IsLive task) :
    (k.step operation).2.Provisioned := by
  refine ⟨?_, fun service task hprovides => ?_, fun task hstands => ?_⟩
  · rw [registry_step h.sound]
    exact hk.unambiguous.foldl _
  · obtain ⟨hends, hbefore⟩ := hk.provider_before h.sound hprovides
    exact hbefore.imp_right fun ⟨c, hhome⟩ => ⟨c, h.home_step hhome hends⟩
  · obtain ⟨hends, hwho⟩ := registryTask_step h.sound hstands
    exact h.live_step (hwho.elim (happoints task) (hk.registryTask task)) hends

theorem Provisioned.run (hk : k.Provisioned) (h : k.Reachable) {operations : List Operation}
    (happoints : k.Appoints operations) : (k.run operations).Provisioned := by
  induction operations generalizing k with
  | nil => exact hk
  | cons operation rest ih =>
    rw [h.run_cons]
    exact ih (hk.step h happoints.1) (h.step operation) happoints.2

theorem registry_new {config : Config} {apics : List Nat} (h : Kernel.new config apics = .ok k) :
    k.directory.registry = .empty := by
  obtain ⟨-, hdirectory, -⟩ := parts_of_new h
  exact congrArg Directory.registry hdirectory

theorem provisioned_new {config : Config} {apics : List Nat} (h : Kernel.new config apics = .ok k) :
    k.Provisioned := by
  refine ⟨?_, fun service task hprovides => ?_, fun task hstands => ?_⟩
  · rw [registry_new h]
    exact Registry.unambiguous_empty
  · rw [registry_new h] at hprovides
    cases hprovides
  · rw [registry_new h] at hstands
    cases hstands

/-! ### The registry of a run -/

/-- What holds of the service registry after a run. -/
structure RegistryIntact (k : Kernel) (operations : List Operation) : Prop where
  /-- A service is provided by the task that sent the latest registration for it, unless the task
  has withdrawn or ended since. -/
  provider : ∀ service task,
    (k.run operations).directory.registry.provider? service = some task ↔
      Provided (k.gathered registryEvents operations) service task
  housed : ∀ service task,
    (k.run operations).directory.registry.provider? service = some task → task = kernelSender ∨
      ∃ c, (k.run operations).directory.homeOf task = some c ∧ (k.run operations).IsOn task c
  registryTask : ∀ task, (k.run operations).directory.registry.registryTask = some task →
    (k.run operations).IsLive task
  /-- A new task provides nothing, whatever its id was used for before. -/
  newcomer : ∀ operation task, (k.run operations).Appoints [operation] →
    ¬ (k.run operations).IsLive task → ((k.run operations).step operation).2.IsLive task →
      (∀ service, ((k.run operations).step operation).2.directory.registry.provider? service ≠
        some task) ∧
      ((k.run operations).step operation).2.directory.registry.registryTask ≠ some task
  /-- Mail for a service goes to the home of its provider, or nowhere. -/
  mail : ∀ service,
    (∃ task c, (k.run operations).directory.registry.provider? service = some task ∧
      (k.run operations).IsOn task c ∧
      (k.run operations).directory.resolve (.service service) = .ok (task, c)) ∨
    (∀ task, (k.run operations).directory.registry.provider? service = some task →
      ¬ (k.run operations).IsLive task) ∧
    ∀ body, ((k.run operations).step (.send (.service service) body)).1 =
      .error (.failed .recipientNotFound)

/-- A message for nobody is refused. -/
theorem step_send_of_error {service : Service} {e : Error}
    (h : k.directory.resolve (.service service) = .error e) (body : Body) :
    (k.step (.send (.service service) body)).1 = .error (.failed e) := by
  have hget : k.perform get = (.ok k, k) := rfl
  have hroute : k.perform (route ⟨k.sender, .service service, body⟩) = (.error (.failed e), k) := by
    rw [route, perform_bind, hget]
    dsimp only
    rw [perform_bind, h]
    rfl
  have hsend : k.perform (send (.service service) body) = (.error (.failed e), k) := by
    rw [send, perform_bind, hget]
    dsimp only
    rw [if_neg (by simp)]
    exact hroute
  have hstep : k.step (.send (.service service) body) =
      k.perform (send (.service service) body >>= fun _ => return .done) := rfl
  rw [hstep, perform_bind, hsend]

/-- Mail for a service goes to the home of its provider, or is refused if that is not alive. -/
theorem Provisioned.mail (hk : k.Provisioned)
    (hon : ∀ id c, k.directory.homeOf id = some c ↔ k.IsOn id c)
    (hkernel : ¬ k.IsLive kernelSender) (service : Service) :
    (∃ task c, k.directory.registry.provider? service = some task ∧ k.IsOn task c ∧
      k.directory.resolve (.service service) = .ok (task, c)) ∨
    (∀ task, k.directory.registry.provider? service = some task → ¬ k.IsLive task) ∧
    ∀ body, (k.step (.send (.service service) body)).1 = .error (.failed .recipientNotFound) := by
  cases hprovides : k.directory.registry.provider? service with
  | none =>
    refine .inr ⟨nofun, step_send_of_error ?_⟩
    rw [Directory.resolve, Registry.resolve, hprovides]
  | some task =>
    cases hhome : k.directory.homeOf task with
    | some c =>
      refine .inl ⟨task, c, rfl, (hon task c).1 hhome, ?_⟩
      rw [Directory.resolve, Registry.resolve, hprovides]
      dsimp only
      rw [hhome]
    | none =>
      refine .inr ⟨fun other he => ?_, step_send_of_error ?_⟩
      · -- who provides a service without a home is the kernel
        obtain rfl := Option.some.inj he
        rcases hk.provider service task hprovides with rfl | ⟨c, hc⟩
        · exact hkernel
        · cases hhome.symm.trans hc
      · rw [Directory.resolve, Registry.resolve, hprovides]
        dsimp only
        rw [hhome]

/-- The service registry leads to no task that is over, and to no other one that has got its id. -/
theorem registry_intact {config : Config} {apics : List Nat} (h : Kernel.new config apics = .ok k)
    (hlimit : config.maxIds ≤ 2 ^ 32 - 2) {operations : List Operation}
    (happoints : k.Appoints operations) : k.RegistryIntact operations := by
  have hreachable := (Reachable.new h).run operations
  have hsound := hreachable.sound
  have hprovisioned := (provisioned_new h).run (.new h) happoints
  -- the ids do not reach the one that stands for the kernel
  have hkernel : ∀ k' : Kernel, k'.Reachable → k'.config = config → ¬ k'.IsLive kernelSender := by
    intro k' hk' hconfig hlive
    have hlt := hk'.lt_maxIds hlive
    rw [hconfig] at hlt
    exact absurd (Nat.lt_of_lt_of_le hlt hlimit) (by decide)
  have hconfig : (k.run operations).config = config :=
    ((Reachable.new h).config_run operations).trans (parts_of_new h).1
  refine ⟨fun service task => ?_, fun service task hprovides => ?_, hprovisioned.registryTask,
    fun operation task happoints hnew hlive => ⟨fun service hprovides => ?_, fun hstands => ?_⟩,
    fun service => ?_⟩
  · rw [registry_run (.new h), registry_new h, Registry.provider?_foldl_empty]
  · refine (hprovisioned.provider service task hprovides).imp_right fun ⟨c, hhome⟩ => ⟨c, hhome, ?_⟩
    exact (hreachable.conserved.home task c).1 hhome
  · -- who provides a service by now had a home before, so it is no new task
    obtain ⟨-, rfl | ⟨c, hhome⟩⟩ := hprovisioned.provider_before hsound hprovides
    · exact hkernel _ (hreachable.step operation) ((hreachable.preserves operation).config.trans
        hconfig) hlive
    · exact hnew (isLive_of_homeOf hsound hhome)
  · obtain ⟨-, happointed | hbefore⟩ := registryTask_step hsound hstands
    · exact hnew (happoints.1 task happointed)
    · exact hnew (hprovisioned.registryTask task hbefore)
  · exact hprovisioned.mail hreachable.conserved.home (hkernel _ hreachable hconfig) service

/-- The first task provides the clock and stands for the registry when it ends, and a third one gets
its id. The second task provides the input, on the other core. -/
def heir : List Operation :=
  opening ++ [.turnTo 0, .spawn "first" 0x1000 .other, .spawn "second" 0x1000 .other, .tick,
    .send .registry (.services (.register .clock)), .turnTo 1, .tick,
    .send .registry (.services (.register .input)), .setRegistryTask (some 4), .turnTo 0, .exit,
    .spawn "third" 0x1000 .other]

theorem registry_intact_heir :
    Kernel.new { Config.withCores 2 with mailboxSize := 20 } [0, 1] = .ok pair ∧
      pair.Appoints heir ∧ pair.RegistryIntact heir ∧ (pair.run heir).IsLive 4 ∧
      (pair.run heir).directory.registry.registryTask = none ∧
      (pair.run heir).directory.registry.provider? .clock = none ∧
      (pair.run heir).directory.registry.provider? .input = some 5 :=
  have happoints : pair.Appoints heir := by decide +kernel
  ⟨new_pair, happoints, registry_intact new_pair (by decide) happoints, by decide +kernel⟩

end Microkernel.Kernel
