/-
The invariant of the whole system.

`s.Sound hand` says that every core is settled and that the ids in use are those of the tasks in
`hand`, of the tasks of the cores and of the parked tasks, each of them once. A task is at home on
the core that holds it, a core that holds tasks or mail is online, and tasks are parked only while
no core is online. The tasks in hand are those that were built and not placed yet.

`s.Passes size d gone s'` says that no message for a task is lost on the way from `s` to `s'`,
where mailboxes have the given size.

* **`Sound.withCore`**: an operation of one core keeps the invariant;
* **`Sound.passes_withCore`**: it loses no message;
* **`Sound.forgotten`**, **`Sound.homed`**: so do the end of a task and the arrival of a new one.
-/
import Microkernel.Proofs.Core.Operations
import Microkernel.Proofs.IdPool
import Microkernel.Proofs.Kernel.Actions

namespace Microkernel.System

variable {s s' : System} {hand : List Task} {c : CoreId} {core core' : Core}

/-- The tasks in the schedulers and inboxes of all cores. -/
def residents (s : System) : List TaskId :=
  s.cores.flatMap Core.members

/-- The live tasks: those of the cores and those that are parked. -/
def liveIds (s : System) : List TaskId :=
  s.residents ++ s.directory.parked.map Task.id

/-- The tasks and their ids, homes and cores agree. -/
structure Sound (hand : List Task) (s : System) : Prop where
  ordinals : ∀ i core, s.core? i = some core → core.id = i
  settled : ∀ i core, s.core? i = some core → core.Settled s.config.mailboxSize
  ids : s.directory.ids.Holds (hand.map Task.id ++ s.liveIds)
  built : ∀ t ∈ hand ++ s.directory.parked, t.mailbox = .new s.config.mailboxSize
  homes : ∀ id i, s.directory.homeOf id = some i ↔
    ∃ core, s.core? i = some core ∧ id ∈ core.members
  offline : ∀ i core, s.core? i = some core → core.isOnline = false → core.Vacant
  parked : s.directory.parked ≠ [] → ∀ i core, s.core? i = some core → core.isOnline = false

/-- The task is at home on the core, and is not its idle task. -/
structure Resident (s : System) (id : TaskId) (c : CoreId) (core : Core) : Prop where
  home : s.directory.homeOf id = some c
  found : s.core? c = some core
  working : core.scheduler.idle ≠ some id

/-- The tasks of `s`, but for `gone`, are at home where they were, and their mail is accounted
for. -/
def Passes (size : Nat) (d : TaskId → Delivery) (gone : Option TaskId) (s s' : System) : Prop :=
  ∀ id c core, s.Resident id c core → gone ≠ some id →
    ∃ core', s'.Resident id c core' ∧ Transit size (d id) (core.post id) (core'.post id)

theorem Passes.refl {size : Nat} (s : System) : Passes size Core.nothing none s s :=
  fun _ _ core h _ => ⟨core, h, Transit.refl _⟩

theorem Passes.quiet_trans {size : Nat} {s'' : System} {d : TaskId → Delivery}
    {gone : Option TaskId} (h : Passes size Core.nothing none s s')
    (h' : Passes size d gone s' s'') : Passes size d gone s s'' := by
  intro id c core hid hgone
  obtain ⟨core', hid', htransit⟩ := h id c core hid fun e => by cases e
  obtain ⟨core'', hid'', htransit'⟩ := h' id c core' hid' hgone
  exact ⟨core'', hid'', htransit.quiet_trans htransit'⟩

/-- A system without tasks. -/
theorem sound_of_empty {maxIds : Nat} (hdirectory : s.directory = .new maxIds)
    (hcores : ∀ i core, s.core? i = some core →
      core.id = i ∧ core.Settled s.config.mailboxSize ∧ core.Vacant) : s.Sound [] := by
  have hresidents : s.residents = [] := by
    refine List.flatMap_eq_nil_iff.2 fun core hin => ?_
    obtain ⟨i, hi⟩ := List.getElem?_of_mem hin
    exact (hcores i core hi).2.2.members
  have hlive : s.liveIds = [] := by
    rw [liveIds, hresidents, hdirectory]
    rfl
  refine ⟨fun i core hcore => (hcores i core hcore).1,
    fun i core hcore => (hcores i core hcore).2.1, ?_, fun t ht => ?_, fun id i => ?_,
    fun i core hcore _ => (hcores i core hcore).2.2, fun hne => ?_⟩
  · rw [hlive, hdirectory]
    exact IdPool.holds_new maxIds
  · rw [hdirectory] at ht
    cases ht
  · rw [hdirectory]
    constructor
    · intro hhome
      cases hhome
    · rintro ⟨core, hcore, hid⟩
      rw [(hcores i core hcore).2.2.members] at hid
      cases hid
  · rw [hdirectory] at hne
    exact absurd rfl hne

/-! ### Another directory -/

/-- The directory changes, but no home. -/
theorem Sound.withDirectory (h : s.Sound hand) {directory : Directory} {hand' : List Task}
    (hids : directory.ids.Holds (hand'.map Task.id ++ (s.withDirectory directory).liveIds))
    (hbuilt : ∀ t ∈ hand' ++ directory.parked, t.mailbox = .new s.config.mailboxSize)
    (hhomes : ∀ id, directory.homeOf id = s.directory.homeOf id)
    (hparked : directory.parked ≠ [] → ∀ i core, s.core? i = some core → core.isOnline = false) :
    (s.withDirectory directory).Sound hand' where
  ordinals := h.ordinals
  settled := h.settled
  ids := hids
  built := hbuilt
  homes id i := by
    have hhome : (s.withDirectory directory).directory.homeOf id = s.directory.homeOf id :=
      hhomes id
    rw [hhome]
    exact h.homes id i
  offline := h.offline
  parked := hparked

theorem Passes.withDirectory {size : Nat} {directory : Directory}
    (hhomes : ∀ id, directory.homeOf id = s.directory.homeOf id) :
    Passes size Core.nothing none s (s.withDirectory directory) := by
  intro id c core hid _
  exact ⟨core, ⟨(hhomes id).trans hid.home, hid.found, hid.working⟩, Transit.refl _⟩

/-- The system with other ids. -/
def withIds (s : System) (ids : IdPool) : System :=
  s.withDirectory { s.directory with ids := ids }

/-- Another choice of ids in use, and the tasks in hand that have them. -/
theorem Sound.withIds (h : s.Sound hand) {ids : IdPool} {hand' : List Task}
    (hids : ids.Holds (hand'.map Task.id ++ s.liveIds))
    (hbuilt : ∀ t ∈ hand', t ∈ hand ∨ t.mailbox = .new s.config.mailboxSize) :
    (s.withIds ids).Sound hand' := by
  refine h.withDirectory hids (fun t ht => ?_) (fun _ => rfl) h.parked
  rcases List.mem_append.1 ht with ht | ht
  · exact (hbuilt t ht).elim (fun ht => h.built t (List.mem_append_left _ ht)) id
  · exact h.built t (List.mem_append_right _ ht)

/-- A task in hand is parked, while no core is online. -/
theorem Sound.park {task : Task} (h : s.Sound (task :: hand))
    (hoffline : ∀ i core, s.core? i = some core → core.isOnline = false) :
    (s.withDirectory (s.directory.park task)).Sound hand := by
  have hlive : (s.withDirectory (s.directory.park task)).liveIds =
      s.liveIds ++ [task.id] := by
    simp [liveIds, residents, System.withDirectory, Directory.park]
  have hids := h.ids.perm (List.perm_append_singleton task.id
    (hand.map Task.id ++ s.liveIds)).symm
  rw [List.append_assoc, ← hlive] at hids
  refine h.withDirectory hids (fun t ht => h.built t ?_) (fun _ => rfl) fun _ => hoffline
  simp only [Directory.park, List.mem_append, List.mem_cons, List.not_mem_nil, or_false] at ht ⊢
  rcases ht with ht | ht | rfl
  · exact .inl (.inr ht)
  · exact .inr ht
  · exact .inl (.inl rfl)

/-! ### Another core in the place of one -/

/-- What is in front of one core and behind it stays when the core is replaced. -/
theorem flatMap_cores {cores : List Core} (hcore : cores[c]? = some core) {β : Type}
    (f : Core → List β) :
    ∃ before after, cores.flatMap f = before ++ (f core ++ after) ∧
      ∀ core', (cores.set c core').flatMap f = before ++ (f core' ++ after) := by
  obtain ⟨hlt, hget⟩ := List.getElem?_eq_some_iff.1 hcore
  have hdrop : cores.drop c = core :: cores.drop (c + 1) := by
    rw [List.drop_eq_getElem_cons hlt, hget]
  refine ⟨(cores.take c).flatMap f, (cores.drop (c + 1)).flatMap f, ?_, fun core' => ?_⟩
  · rw [← List.flatMap_cons, ← hdrop, ← List.flatMap_append, List.take_append_drop]
  · rw [List.set_eq_take_append_cons_drop, if_pos hlt, List.flatMap_append, List.flatMap_cons]

/-- What comes to or leaves one core comes to or leaves all of them. -/
theorem perm_flatMap_set {β : Type} {cores : List Core} (hcore : cores[c]? = some core)
    (f : Core → List β) {gone new : List β} (h : (gone ++ f core').Perm (new ++ f core)) :
    (gone ++ (cores.set c core').flatMap f).Perm (new ++ cores.flatMap f) := by
  obtain ⟨before, after, hall, hset⟩ := flatMap_cores hcore f
  rw [hall, hset]
  refine (List.perm_append_comm_assoc _ _ _).trans ?_
  refine List.Perm.trans ?_ (List.perm_append_comm_assoc _ _ _)
  rw [← List.append_assoc gone, ← List.append_assoc new]
  exact (h.append_right _).append_left _

/-- Tasks that come to or leave one core come to or leave the system. -/
theorem perm_residents_withCore (hcore : s.core? c = some core) {gone new : List TaskId}
    (h : (gone ++ core'.members).Perm (new ++ core.members)) :
    (gone ++ (s.withCore c core').residents).Perm (new ++ s.residents) :=
  perm_flatMap_set hcore Core.members h

/-- The tasks of one core are replaced, and the directory follows. -/
theorem Sound.replaced (h : s.Sound hand) (hcore : s.core? c = some core) {directory : Directory}
    {hand' : List Task} (hid : core'.id = core.id) (hsettled : core'.Settled s.config.mailboxSize)
    (hids : directory.ids.Holds
      (hand'.map Task.id ++ ((s.withDirectory directory).withCore c core').liveIds))
    (hbuilt : ∀ t ∈ hand' ++ directory.parked, t ∈ hand ++ s.directory.parked)
    (hoffline : core'.isOnline = false → core'.Vacant)
    (hparked : directory.parked ≠ [] → s.directory.parked ≠ [] ∧ core'.isOnline = false)
    (hhomes : ∀ id i, directory.homeOf id = some i ↔
      if i = c then id ∈ core'.members else s.directory.homeOf id = some i) :
    ((s.withDirectory directory).withCore c core').Sound hand' := by
  have hcore' : (s.withDirectory directory).core? c = some core := hcore
  have hget := System.core?_withCore hcore' core'
  have hother : ∀ j, (s.withDirectory directory).core? j = s.core? j := fun _ => rfl
  refine ⟨fun i x hx => ?_, fun i x hx => ?_, hids, fun t ht => h.built t (hbuilt t ht),
    fun id i => ?_, fun i x hx hoff => ?_, fun hne i x hx => ?_⟩
  · rw [hget] at hx
    split at hx
    · rename_i heq
      cases hx
      rw [hid, heq]
      exact h.ordinals c core hcore
    · exact h.ordinals i x hx
  · rw [hget] at hx
    split at hx
    · cases hx
      exact hsettled
    · exact h.settled i x hx
  · have hdirectory : ((s.withDirectory directory).withCore c core').directory = directory := rfl
    rw [hdirectory, hhomes, hget]
    by_cases hi : i = c
    · simp [hi]
    · rw [if_neg hi, if_neg hi, hother]
      exact h.homes id i
  · rw [hget] at hx
    split at hx
    · cases hx
      exact hoffline hoff
    · exact h.offline i x hx hoff
  · obtain ⟨hparked, hoffline⟩ := hparked hne
    rw [hget] at hx
    split at hx
    · cases hx
      exact hoffline
    · exact h.parked hparked i x hx

/-- The homes of the tasks of one core. -/
theorem Sound.homeOf_iff_mem (h : s.Sound hand) (hcore : s.core? c = some core) (id : TaskId) :
    s.directory.homeOf id = some c ↔ id ∈ core.members := by
  rw [h.homes, hcore]
  simp

/-- Nothing comes to a core that is not online. -/
theorem Sound.vacant_of_step (h : s.Sound hand) (hcore : s.core? c = some core) {size : Nat}
    {d : TaskId → Delivery} {gone : Option TaskId}
    (hstep : Core.Step size d gone [] core core') (hoffline : core'.isOnline = false) :
    core'.Vacant :=
  hstep.vacant (h.offline c core hcore (hstep.online ▸ hoffline))

/-- A core that is not online has neither tasks nor mail. -/
theorem Sound.isOnline_of_mem (h : s.Sound hand) (hcore : s.core? c = some core) {id : TaskId}
    (hid : id ∈ core.members) : core.isOnline = true := by
  cases hoffline : core.isOnline with
  | true => rfl
  | false =>
    rw [(h.offline c core hcore hoffline).members] at hid
    cases hid

/-- An operation of one core that keeps its tasks. -/
theorem Sound.withCore (h : s.Sound hand) (hcore : s.core? c = some core) {d : TaskId → Delivery}
    (hstep : Core.Step s.config.mailboxSize d none [] core core') :
    (s.withCore c core').Sound hand := by
  have hmem : core'.members.Perm core.members := hstep.members
  have hnone : ([] ++ core'.members).Perm ([] ++ core.members) := hmem
  have hresidents : (s.withCore c core').residents.Perm s.residents :=
    perm_residents_withCore hcore hnone
  have hids := h.ids.perm ((hresidents.symm.append_right _).append_left (hand.map Task.id))
  have hsame : s.withDirectory s.directory = s := rfl
  rw [← hsame] at hids ⊢
  refine h.replaced hcore hstep.id hstep.settled hids (fun t ht => ht)
    (h.vacant_of_step hcore hstep) (fun hne => ⟨hne, ?_⟩) fun id i => ?_
  · rw [hstep.online]
    exact h.parked hne c core hcore
  · by_cases hi : i = c
    · rw [if_pos hi, hi, h.homeOf_iff_mem hcore, hmem.mem_iff]
    · rw [if_neg hi]

/-- A task in hand is nowhere else. -/
theorem Sound.not_mem_residents (h : s.Sound hand) {task : Task} (ht : task ∈ hand) :
    task.id ∉ s.residents := by
  intro hin
  have hlive : task.id ∈ s.liveIds := List.mem_append_left _ hin
  exact (List.nodup_append.1 h.ids.nodup).2.2 _ (List.mem_map_of_mem ht) _ hlive rfl

theorem mem_residents_of_mem (hcore : s.core? c = some core) {id : TaskId}
    (hid : id ∈ core.members) : id ∈ s.residents :=
  List.mem_flatMap.2 ⟨core, List.mem_of_getElem? hcore, hid⟩

theorem Sound.homeOf_eq_none (h : s.Sound hand) {task : Task} (ht : task ∈ hand) :
    s.directory.homeOf task.id = none := by
  cases hhome : s.directory.homeOf task.id with
  | none => rfl
  | some i =>
    obtain ⟨core, hcore, hid⟩ := (h.homes task.id i).1 hhome
    exact absurd (mem_residents_of_mem hcore hid) (h.not_mem_residents ht)

/-- A task in hand has come to a core that is online. -/
theorem Sound.homed {task : Task} (h : s.Sound (task :: hand)) (hcore : s.core? c = some core)
    (honline : core.isOnline = true)
    (hstep : Core.Step s.config.mailboxSize Core.nothing none [task.id] core core') :
    ((s.withDirectory (s.directory.recordHome task.id c)).withCore c core').Sound hand := by
  have hmem : core'.members.Perm (task.id :: core.members) := hstep.members
  have hperm : ([] ++ core'.members).Perm ([task.id] ++ core.members) := hmem
  have hresidents : (s.withCore c core').residents.Perm (task.id :: s.residents) :=
    perm_residents_withCore hcore hperm
  have hlive : ((s.withCore c core').liveIds).Perm (task.id :: s.liveIds) :=
    hresidents.append_right (s.directory.parked.map Task.id)
  have hids := h.ids.perm
    (List.perm_middle.symm.trans (hlive.symm.append_left (hand.map Task.id)))
  refine h.replaced hcore hstep.id hstep.settled hids
    (fun t ht => List.mem_cons_of_mem _ ht) (fun hoffline => ?_) (fun hne => ?_) fun id i => ?_
  · rw [hstep.online, honline] at hoffline
    cases hoffline
  · -- nothing is parked, since this core is online
    have hoffline := h.parked hne c core hcore
    rw [honline] at hoffline
    cases hoffline
  · rw [Directory.homeOf, Directory.recordHome, Table.get?_insert, hmem.mem_iff, List.mem_cons]
    have hhome : s.directory.homes.get? id = some i ↔ _ := h.homes id i
    by_cases hi : i = c
    · subst hi
      rw [if_pos rfl, ← h.homeOf_iff_mem hcore]
      by_cases hid : id = task.id
      · simp [hid]
      · simp [hid, Directory.homeOf]
    · rw [if_neg hi]
      by_cases hid : id = task.id
      · subst hid
        have hne : c ≠ i := fun e => hi e.symm
        simp [hne, h.homeOf_eq_none List.mem_cons_self]
      · rw [if_neg hid, Directory.homeOf]

/-- The idle and the cleanup task have come to a core without tasks, which is online now, and the
parked tasks are in hand. -/
theorem Sound.opened {idle cleanup : Task} (h : s.Sound (cleanup :: idle :: hand))
    (hcore : s.core? c = some core) (hid : core'.id = core.id)
    (hsettled : core'.Settled s.config.mailboxSize) (honline : core'.isOnline = true)
    (hnone : core.members = []) (hmem : core'.members.Perm [cleanup.id, idle.id])
    {directory : Directory} (hids : directory.ids = s.directory.ids)
    (hparked : directory.parked = [])
    (hhomes : ∀ id, directory.homeOf id =
      if id = cleanup.id ∨ id = idle.id then some c else s.directory.homeOf id) :
    ((s.withDirectory directory).withCore c core').Sound (s.directory.parked ++ hand) := by
  have hperm : ([] ++ core'.members).Perm ([cleanup.id, idle.id] ++ core.members) := by
    rw [hnone]
    exact hmem
  have hresidents : ((s.withDirectory directory).withCore c core').residents.Perm
      ([cleanup.id, idle.id] ++ s.residents) := perm_residents_withCore hcore hperm
  have hlive : ((s.withDirectory directory).withCore c core').liveIds =
      ((s.withDirectory directory).withCore c core').residents ++ [] := by
    rw [liveIds]
    congr 1
    exact List.map_eq_nil_iff.2 hparked
  refine h.replaced hcore hid hsettled ?_ (fun t ht => ?_)
    (fun hoffline => ?_) (fun hne => absurd hparked hne) fun id i => ?_
  · -- the parked tasks go into the hand and the two go to the core: the ids are the same
    rw [hids, hlive, List.append_nil]
    refine h.ids.perm (List.perm_iff_count.2 fun id => ?_)
    have hcount := hresidents.count_eq id
    simp only [liveIds, List.map_cons, List.map_append, List.count_append, List.count_cons,
      List.count_nil] at hcount ⊢
    omega
  · rw [hparked, List.append_nil] at ht
    rcases List.mem_append.1 ht with ht | ht
    · exact List.mem_append_right _ ht
    · exact List.mem_append_left _ (List.mem_cons_of_mem _ (List.mem_cons_of_mem _ ht))
  · rw [honline] at hoffline
    cases hoffline
  · rw [hhomes, hmem.mem_iff, List.mem_cons, List.mem_singleton]
    by_cases hi : i = c
    · subst hi
      have hhome := h.homeOf_iff_mem hcore id
      rw [hnone] at hhome
      by_cases hid : id = cleanup.id ∨ id = idle.id
      · simp [hid]
      · simp [hid, hhome]
    · have hne : c ≠ i := fun e => hi e.symm
      rw [if_neg hi]
      split
      · rename_i hid
        have hhome : s.directory.homeOf id = none := by
          rcases hid with rfl | rfl
          · exact h.homeOf_eq_none List.mem_cons_self
          · exact h.homeOf_eq_none (List.mem_cons_of_mem _ List.mem_cons_self)
        simp [hne, hhome]
      · rfl

/-- A task of a core has ended. -/
theorem Sound.forgotten (h : s.Sound hand) (hcore : s.core? c = some core) {id : TaskId}
    (hin : id ∈ core.members)
    (hstep : Core.Step s.config.mailboxSize Core.nothing (some id) [] core core') :
    ((s.withDirectory (s.directory.forget id).2).withCore c core').Sound hand := by
  have hmem : (id :: core'.members).Perm core.members := hstep.members
  have hperm : ([id] ++ core'.members).Perm ([] ++ core.members) := hmem
  have hresidents : (id :: (s.withCore c core').residents).Perm s.residents :=
    perm_residents_withCore hcore hperm
  have hlive : (id :: (s.withCore c core').liveIds).Perm s.liveIds :=
    hresidents.append_right (s.directory.parked.map Task.id)
  have hall : (id :: (hand.map Task.id ++ (s.withCore c core').liveIds)).Perm
      (hand.map Task.id ++ s.liveIds) :=
    List.perm_middle.symm.trans (hlive.append_left (hand.map Task.id))
  have herase := hall.erase id
  rw [List.erase_cons_head] at herase
  have hids := (h.ids.release (hall.subset List.mem_cons_self)).perm herase.symm
  -- the id was there once, so it is in no place any more
  have hnodup := hmem.nodup_iff.2 (h.settled c core hcore).sound.nodup_members
  refine h.replaced hcore hstep.id hstep.settled hids (fun t ht => ht)
    (h.vacant_of_step hcore hstep) (fun hne => ⟨hne, ?_⟩) fun j i => ?_
  · rw [hstep.online]
    exact h.parked hne c core hcore
  · have hforget : (s.directory.forget id).2.homeOf j =
        if j = id then none else s.directory.homeOf j := Table.get?_erase s.directory.homes id j
    rw [hforget]
    by_cases hi : i = c
    · subst hi
      rw [if_pos rfl]
      by_cases hj : j = id
      · subst hj
        simp [(List.nodup_cons.1 hnodup).1]
      · rw [if_neg hj, h.homeOf_iff_mem hcore, ← hmem.mem_iff, List.mem_cons, or_iff_right hj]
    · rw [if_neg hi]
      by_cases hj : j = id
      · subst hj
        have hhome := (h.homeOf_iff_mem hcore j).2 hin
        rw [hhome, if_pos rfl]
        have hne : c ≠ i := fun e => hi e.symm
        simp [hne]
      · rw [if_neg hj]

/-- The mail of all tasks passes an operation of one core. -/
theorem Sound.passes_withCore (h : s.Sound hand) (hcore : s.core? c = some core) {size : Nat}
    {d : TaskId → Delivery} {gone : Option TaskId} {directory : Directory}
    (hcarries : Core.Carries size d gone core core') (hd : ∀ id, id ∉ core.members → d id = {})
    (hhomes : ∀ id i, s.directory.homeOf id = some i → gone ≠ some id →
      directory.homeOf id = some i) :
    s.Passes size d gone ((s.withDirectory directory).withCore c core') := by
  have hcore' : (s.withDirectory directory).core? c = some core := hcore
  have hget := System.core?_withCore hcore' core'
  intro id i x hid hgone
  by_cases hi : i = c
  · subst hi
    have hx : core = x := Option.some_inj.1 (hcore.symm.trans hid.found)
    subst hx
    have hmem := (h.homeOf_iff_mem hcore id).1 hid.home
    obtain ⟨-, hidle, htransit⟩ := hcarries id hmem hid.working hgone
    exact ⟨core', ⟨hhomes id i hid.home hgone, by rw [hget, if_pos rfl], hidle⟩, htransit⟩
  · have hnot : id ∉ core.members := by
      intro hmem
      have hhome := (h.homeOf_iff_mem hcore id).2 hmem
      rw [hid.home] at hhome
      exact hi (Option.some_inj.1 hhome)
    refine ⟨x, ⟨hhomes id i hid.home hgone, ?_, hid.working⟩, ?_⟩
    · rw [hget, if_neg hi]
      exact hid.found
    · rw [hd id hnot]
      exact Transit.refl _

end Microkernel.System
