/-
Nothing leaks, and nothing is given back twice.

The tasks in existence (`Kernel.existing`) are the live ones and those that are over and not yet
reclaimed. What they claim is all that the machine has handed out: each of them uses one block of
the kernel's heap, and each user task has an address space that maps its stack, its state segment
and the path it was started with.

* **`ledger_accounts`**: building and giving back tasks keep the accounts, whatever fails meanwhile;
* **`resources_accounted`**: so they are right in every kernel that can be reached.
-/
import Microkernel.Proofs.Kernel.Ledger
import Microkernel.Proofs.Task.Accounts

namespace Microkernel

/-- The address space of a user task. -/
def UserImage.claim (image : UserImage) : Claim :=
  ⟨image.root, image.mappings⟩

/-- The pages that a user task has mapped. -/
def UserImage.pages (image : UserImage) : Nat :=
  (image.mappings.map Mapping.pages).sum

/-- The address space of a task, unless it is the kernel's. -/
def Holdings.claim? (held : Holdings) : Option Claim :=
  held.user.map UserImage.claim

theorem Task.claim?_holdings (t : Task) : t.holdings.claim? = t.user.map UserImage.claim :=
  rfl

section

variable {m : Machine} {l : List Holdings}

/-- What the machine has handed out belongs to tasks that hold these. -/
def Machine.Serves (l : List Holdings) (m : Machine) : Prop :=
  m.Accounts l.length (l.filterMap Holdings.claim?)

theorem serves_cons_of_none {t : Task} (huser : t.user = none) :
    m.Serves (t.holdings :: l) ↔ m.Accounts (l.length + 1) (l.filterMap Holdings.claim?) := by
  have hnone : t.holdings.claim? = none := by rw [t.claim?_holdings, huser, Option.map_none]
  rw [Machine.Serves, List.filterMap_cons_none hnone, List.length_cons]

theorem serves_cons_of_some {t : Task} {image : UserImage} (huser : t.user = some image) :
    m.Serves (t.holdings :: l) ↔
      m.Accounts (l.length + 1) (image.claim :: l.filterMap Holdings.claim?) := by
  have hsome : t.holdings.claim? = some image.claim := by
    rw [t.claim?_holdings, huser, Option.map_some]
  rw [Machine.Serves, List.filterMap_cons_some hsome, List.length_cons]

theorem serves_kernelTask (h : m.Serves l) (launcher : Launcher) (request : TaskRequest)
    (entry : Nat) : Entered Machine.Serves l (launcher.kernelTask m request entry) := by
  have hbuilt := Machine.Accounts.kernelTask (l := launcher) h request entry
  rcases hm : launcher.kernelTask m request entry with ⟨result, m'⟩
  rw [hm] at hbuilt
  cases result with
  | error e => exact hbuilt
  | ok task => exact (serves_cons_of_none hbuilt.1).2 hbuilt.2

theorem serves_userTask (h : m.Serves l) (launcher : Launcher) (request : TaskRequest)
    (entry : Nat) (path : Option String) :
    Entered Machine.Serves l (launcher.userTask m request entry path) := by
  have hbuilt := Machine.Accounts.userTask (l := launcher) h request entry path
  rcases hm : launcher.userTask m request entry path with ⟨result, m'⟩
  rw [hm] at hbuilt
  cases result with
  | error e => exact hbuilt
  | ok task =>
    obtain ⟨image, huser, haccounts⟩ := hbuilt
    exact (serves_cons_of_some huser).2 haccounts

theorem serves_release (task : Task) (h : m.Serves (task.holdings :: l)) :
    (task.release m).Serves l := by
  rw [Task.release]
  cases huser : task.user with
  | none => exact ((serves_cons_of_none huser).1 h).free
  | some image => exact ((serves_cons_of_some huser).1 h).releaseSpace.free

end

/-- Building a task adds what it claims to the accounts, or nothing; giving it back takes it off. -/
theorem ledger_accounts : Ledger Machine.Serves where
  perm hperm h := by
    rw [Machine.Serves, ← hperm.length_eq]
    exact Machine.Accounts.perm h (hperm.filterMap _)
  memory hmemory h := Machine.Accounts.congr h hmemory
  kernelTask launcher request entry h := serves_kernelTask h launcher request entry
  userTask launcher request entry path h := serves_userTask h launcher request entry path
  release task h := serves_release task h

namespace Kernel

variable {k : Kernel}

/-- The tasks in existence: the live ones, and those that are over and not reclaimed. -/
def existing (k : Kernel) : List Task :=
  k.liveTasks ++ k.cores.flatMap fun core => core.scheduler.exited

theorem holdings_existing (k : Kernel) :
    (k.existing.map Task.holdings).Perm k.system.existing := by
  have hremains : (k.cores.flatMap fun core => core.scheduler.exited).map Task.holdings =
      k.system.remains.flatten := List.map_flatMap
  rw [existing, List.map_append, holdings_liveTasks, hremains]
  exact .refl _

/-- The machine has handed out what the tasks in existence have, and nothing else. -/
structure Accounted (k : Kernel) : Prop where
  /-- The blocks of the kernel's heap that were not given back. -/
  blocks : k.machine.heap.live = k.existing.length
  spaces : k.machine.userSpaces = k.existing.countP Task.isUser
  /-- The pages that are mapped for users. -/
  pages : k.machine.userPages = ((k.existing.filterMap Task.user).map UserImage.pages).sum
  /-- Each user task has an address space of its own, with its mappings and no others. -/
  backed : ∀ image ∈ k.existing.filterMap Task.user, k.machine.Backs image.claim
  distinct : ((k.existing.filterMap Task.user).map UserImage.root).Nodup

/-- In every kernel that can be reached, whatever allocations failed on the way, the machine has
handed out what the tasks in existence have. So neither a failed creation nor the end of a task
leaks anything or gives anything back twice. -/
theorem resources_accounted (h : k.Reachable) : k.Accounted := by
  have hserves : k.machine.Serves (k.existing.map Task.holdings) :=
    ledger_accounts.perm (holdings_existing k).symm (h.ledger ledger_accounts Machine.accounts_new)
  have hclaims : (k.existing.map Task.holdings).filterMap Holdings.claim? =
      (k.existing.filterMap Task.user).map UserImage.claim := by
    rw [List.filterMap_map, List.map_filterMap]
    rfl
  obtain ⟨hblocks, hspaces, hpages, hbacked, hdistinct, -, -⟩ := hserves
  rw [hclaims] at hspaces hpages hbacked hdistinct
  refine ⟨hblocks.trans (List.length_map _), hspaces.trans ?_, hpages.trans ?_,
    fun image himage => hbacked _ (List.mem_map_of_mem himage), ?_⟩
  · rw [List.length_map, List.length_filterMap_eq_countP]
    rfl
  · rw [List.map_map]
    rfl
  · rw [List.map_map] at hdistinct
    exact hdistinct

/-- A user task has ended and waits to be reclaimed; another one could not be built, since its path
could not be written. -/
def failures : List Operation :=
  opening ++ [.turnTo 0, .spawnUser "first" 0x1000 (some "/bin/first") .other, .tick, .exit,
    .setFault .writeBytes true, .spawnUser "second" 0x1000 (some "/bin/second") .other]

theorem resources_accounted_failures : (pair.run failures).Reachable ∧
    (pair.run failures).Accounted ∧
    ((pair.run failures).machine.heap.live, (pair.run failures).machine.userSpaces,
      (pair.run failures).machine.userPages) = (5, 1, 8) :=
  have h := (Reachable.new new_pair).run failures
  ⟨h, resources_accounted h, by decide +kernel⟩

end Kernel

end Microkernel
