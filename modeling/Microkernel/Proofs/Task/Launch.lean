/-
What building a task comes to.

A task is built with the id, the name and the priority that were asked for and with an empty
mailbox of the configured size (`Launcher.Built`), or the error names the resource that could not
be had. Either way another core does not get its turn, and nothing is switched (`Machine.Grows`).

A task has a kernel stack and maybe an address space of its own (`Task.assets`). What the machine
has handed out once, it never hands out again (`Machine.Issued`).

* **`Launcher.outcome_kernelTask`**, **`Launcher.outcome_userTask`**: building a task answers one
  of the two, and a task that is built has assets that nobody had before.
-/
import Microkernel.Task.Launch

namespace Microkernel

/-! ### What belongs to a task -/

/-- What a switch to a task loads, and what a switch away from it must not lose. -/
structure Context where
  stack : KernelStack
  pointer : StackPointer
  space : Nat
  deriving DecidableEq

/-- Something on the machine that belongs to one task only. -/
inductive Asset where
  | stack (top : Nat)
  | space (root : Nat)
  deriving DecidableEq

/-- The kernel stack, and the address space unless it is the kernel's. -/
def Context.assets (c : Context) : List Asset :=
  .stack c.stack.top :: if c.space = Machine.kernelRoot then [] else [.space c.space]

namespace Task

/-- The context of a task. -/
def context (t : Task) : Context :=
  ⟨t.stack, t.stackPointer, t.space⟩

/-- What belongs to a task only. -/
def assets (t : Task) : List Asset :=
  t.context.assets

theorem mem_assets {t : Task} {a : Asset} (h : a ∈ t.assets) :
    a = .stack t.stack.top ∨ a = .space t.space := by
  rcases List.mem_cons.1 h with rfl | h
  · exact .inl rfl
  · split at h
    · cases h
    · exact .inr (List.mem_singleton.1 h)

theorem nodup_assets (t : Task) : t.assets.Nodup := by
  rw [assets, Context.assets]
  split <;> simp

end Task

/-- The memory that a machine has handed out. -/
structure Memory where
  heap : Heap
  spaces : Table AddressSpace
  nextRoot : Nat
  userPages : Nat

namespace Machine

variable {m m' m'' : Machine}

def memory (m : Machine) : Memory where
  heap := m.heap
  spaces := m.spaces
  nextRoot := m.nextRoot
  userPages := m.userPages

/-- How often an address space was loaded, and which one was loaded last. -/
def loads (m : Machine) : Nat × Nat :=
  (m.activations, m.activeRoot)

/-- The machine has handed this out. -/
def Issued (m : Machine) : Asset → Prop
  | .stack top => top ≤ m.heap.next
  | .space root => root < m.nextRoot

/-- The same core runs, nothing was switched or loaded, and what was handed out or sent stays so. -/
structure Grows (m m' : Machine) : Prop where
  currentCore : m'.currentCore = m.currentCore
  switches : m'.switches = m.switches
  loads : m'.loads = m.loads
  heap : m.heap.next ≤ m'.heap.next
  roots : m.nextRoot ≤ m'.nextRoot
  interrupts : m.interrupts <+: m'.interrupts

theorem Grows.refl (m : Machine) : m.Grows m :=
  ⟨rfl, rfl, rfl, Nat.le_refl _, Nat.le_refl _, List.prefix_refl _⟩

theorem Grows.trans (h : m.Grows m') (h' : m'.Grows m'') : m.Grows m'' :=
  ⟨h'.currentCore.trans h.currentCore, h'.switches.trans h.switches, h'.loads.trans h.loads,
    Nat.le_trans h.heap h'.heap, Nat.le_trans h.roots h'.roots, h.interrupts.trans h'.interrupts⟩

theorem Grows.issued (h : m.Grows m') {a : Asset} (ha : m.Issued a) : m'.Issued a := by
  cases a with
  | stack top => exact Nat.le_trans ha h.heap
  | space root => exact Nat.lt_of_lt_of_le ha h.roots

variable (m)

/-! ### Steps that switch nothing -/

/-- A block is placed behind everything that was handed out. -/
theorem place?_eq_some {h : Heap} {align size start : Nat} (halign : 0 < align)
    (hplace : h.place? align size = some start) : h.next ≤ start ∧ 0 < size := by
  rw [Heap.place?] at hplace
  split at hplace
  · rename_i hfits
    cases hplace
    exact ⟨le_roundUp _ halign, hfits.2.1⟩
  · cases hplace

theorem grows_allocate (source : HeapSource) {align : Nat} (halign : 0 < align) (size : Nat) :
    m.Grows (m.allocate source align size).2 := by
  rw [allocate]
  split
  · exact .refl m
  · split
    · exact .refl m
    · rename_i start hplace
      obtain ⟨hstart, -⟩ := place?_eq_some halign hplace
      exact ⟨rfl, rfl, rfl, Nat.le_add_right_of_le hstart, Nat.le_refl _, List.prefix_refl _⟩

theorem allocate_eq_some {source : HeapSource} {align size base : Nat} (halign : 0 < align)
    (h : m.allocate source align size = (some base, m')) :
    m.heap.next < base + size ∧ m'.heap.next = base + size := by
  rw [allocate] at h
  split at h
  · cases h
  · split at h
    · cases h
    · rename_i start hplace
      obtain ⟨hstart, hsize⟩ := place?_eq_some halign hplace
      cases h
      exact ⟨by omega, rfl⟩

theorem grows_free (source : HeapSource) : m.Grows (m.free source) := by
  rw [free]
  split <;> exact ⟨rfl, rfl, rfl, Nat.le_refl _, Nat.le_refl _, List.prefix_refl _⟩

theorem grows_cloneSpace : m.Grows m.cloneSpace.2 := by
  rw [cloneSpace]
  split
  · exact .refl m
  · exact ⟨rfl, rfl, rfl, Nat.le_refl _, Nat.le_add_right _ _, List.prefix_refl _⟩

theorem grows_dropSpace (root : Nat) : m.Grows (m.dropSpace root) := by
  rw [dropSpace]
  split <;> exact ⟨rfl, rfl, rfl, Nat.le_refl _, Nat.le_refl _, List.prefix_refl _⟩

theorem grows_mapPages (root count : Nat) (rights : PageRights) (placement : Option Nat) :
    m.Grows (m.mapPages root count rights placement).2 := by
  have hsame : ∀ m' : Machine, m'.currentCore = m.currentCore → m'.switches = m.switches →
      m'.loads = m.loads → m'.heap = m.heap → m'.nextRoot = m.nextRoot →
      m'.interrupts = m.interrupts → m.Grows m' :=
    fun m' hcore hswitches hloads hheap hroots hinterrupts =>
      ⟨hcore, hswitches, hloads, hheap ▸ Nat.le_refl _, hroots ▸ Nat.le_refl _,
        hinterrupts ▸ List.prefix_refl _⟩
  rw [mapPages]
  split
  · exact .refl m
  · split
    · exact .refl m
    · cases placement <;> simp only <;> split <;> exact hsame _ rfl rfl rfl rfl rfl rfl

theorem grows_unmapPages (root base count : Nat) : m.Grows (m.unmapPages root base count) := by
  simp only [unmapPages]
  split <;> exact ⟨rfl, rfl, rfl, Nat.le_refl _, Nat.le_refl _, List.prefix_refl _⟩

theorem grows_write (root base : Nat) (bytes : Bytes) : m.Grows (m.write root base bytes).2 := by
  simp only [write]
  split
  · exact .refl m
  · split <;> exact ⟨rfl, rfl, rfl, Nat.le_refl _, Nat.le_refl _, List.prefix_refl _⟩

theorem grows_releaseSpace (root : Nat) (mappings : List Mapping) :
    m.Grows (releaseSpace root mappings m) := by
  rw [releaseSpace]
  refine Grows.trans ?_ (grows_dropSpace _ _)
  induction mappings generalizing m with
  | nil => exact .refl m
  | cons p mappings ih => exact (grows_unmapPages _ _ _ _).trans (ih _)

end Machine

theorem Task.grows_release (t : Task) (m : Machine) : m.Grows (t.release m) := by
  rw [release]
  split
  · exact m.grows_free _
  · exact (Machine.grows_releaseSpace _ _ _).trans (Machine.grows_free _ _)

theorem Task.grows_releaseAll (tasks : List Task) (m : Machine) :
    m.Grows (tasks.foldl (fun m task => task.release m) m) := by
  induction tasks generalizing m with
  | nil => exact .refl m
  | cons t tasks ih => exact (t.grows_release m).trans (ih _)

namespace Launcher

variable {l : Launcher} {request : TaskRequest}

/-- A new task with an empty mailbox. -/
structure Built (l : Launcher) (request : TaskRequest) (t : Task) : Prop where
  id : t.id = request.id
  name : t.name = request.name
  priority : t.priority = request.priority
  mailbox : t.mailbox = .new l.mailboxSize
  state : t.state = .ready
  lastCore : t.lastCore = none

/-- The two outcomes of building a task. -/
structure Outcome (l : Launcher) (request : TaskRequest) (m : Machine)
    (result : Except Error Task × Machine) : Prop where
  grows : m.Grows result.2
  task : ∀ t, result.1 = .ok t → l.Built request t
  assets : ∀ t, result.1 = .ok t → ∀ a ∈ t.assets, ¬ m.Issued a ∧ result.2.Issued a
  error : ∀ e, result.1 = .error e → ∃ resource, e = .allocationFailed resource

theorem built_assemble (stack : KernelStack) :
    l.Built request (assemble request stack (.new l.mailboxSize)) :=
  ⟨rfl, rfl, rfl, rfl, rfl, rfl⟩

/-- A stack that was acquired ends behind everything that was handed out before. -/
structure Acquired (m : Machine) (stack : KernelStack) (m' : Machine) : Prop where
  fresh : m.heap.next < stack.top
  issued : stack.top ≤ m'.heap.next

/-- Acquiring the memory of a task. -/
theorem acquire_cases (l : Launcher) (m : Machine) (entry : Nat) (extras : List Nat) :
    ∃ m', m.Grows m' ∧
      ((∃ stack, l.acquire m entry extras = (.ok (stack, .new l.mailboxSize), m') ∧
          Acquired m stack m') ∨
        ∃ resource, l.acquire m entry extras = (.error (.allocationFailed resource), m')) := by
  -- the stack is given back if its first frame or the mailbox cannot be had
  have halign : 0 < stackAlign := by decide
  have hallocate := m.grows_allocate .kernel halign (roundUp l.stackSize stackAlign)
  rw [acquire, KernelStack.allocate]
  rcases hm : m.allocate .kernel stackAlign (roundUp l.stackSize stackAlign) with ⟨base, m₁⟩
  rw [hm] at hallocate
  cases base with
  | none => exact ⟨m₁, hallocate, .inr ⟨_, rfl⟩⟩
  | some base =>
    have hfree : m.Grows (m₁.free .kernel) := hallocate.trans (m₁.grows_free .kernel)
    simp only [KernelStack.withFirstFrame]
    by_cases hfit : roundUp l.stackSize stackAlign <
        wordSize * (KernelStack.firstFrame Machine.entryPoints entry extras).length
    · rw [if_pos hfit]
      exact ⟨_, hfree, .inr ⟨_, rfl⟩⟩
    · rw [if_neg hfit]
      simp only [Mailbox.withCapacity]
      by_cases hlimit : l.mailboxSize < Mailbox.capacityLimit
      · rw [if_pos hlimit]
        obtain ⟨hfresh, hnext⟩ := m.allocate_eq_some halign hm
        exact ⟨_, hallocate, .inl ⟨_, rfl, hfresh, hnext ▸ Nat.le_refl _⟩⟩
      · rw [if_neg hlimit]
        exact ⟨_, hfree, .inr ⟨_, rfl⟩⟩

theorem outcome_kernelTask (m : Machine) (entry : Nat) :
    Outcome l request m (l.kernelTask m request entry) := by
  obtain ⟨m', hgrows, ⟨stack, hacquire, hstack⟩ | ⟨resource, hacquire⟩⟩ :=
    l.acquire_cases m entry []
  · rw [kernelTask, hacquire]
    refine ⟨hgrows, fun t ht => ?_, fun t ht a ha => ?_, fun e he => (by cases he)⟩
    · cases ht
      exact built_assemble stack
    · cases ht
      obtain rfl := List.mem_singleton.1 ha
      exact ⟨Nat.not_le.2 hstack.fresh, hstack.issued⟩
  · rw [kernelTask, hacquire]
    refine ⟨hgrows, fun t ht => (by cases ht), fun t ht => (by cases ht), fun e he => ?_⟩
    cases he
    exact ⟨resource, rfl⟩

/-- A user task that could not be built. -/
theorem outcome_abandon {m m' : Machine} (hgrows : m.Grows m') (root : Nat)
    (mappings : List Mapping) (resource : Resource) :
    Outcome l request m (abandon m' root mappings (.allocationFailed resource)) := by
  refine ⟨hgrows.trans (Machine.grows_releaseSpace _ _ _), fun t ht => (by cases ht),
    fun t ht => (by cases ht), fun e he => ?_⟩
  cases he
  exact ⟨resource, rfl⟩

theorem mapArguments_cases (m : Machine) (root : Nat) (path : Option String) :
    ∃ m', m.Grows m' ∧
      ((∃ arguments, mapArguments m root path = (.ok arguments, m')) ∨
        mapArguments m root path = (.error (.allocationFailed .arguments), m')) := by
  cases path with
  | none => exact ⟨m, .refl m, .inl ⟨none, rfl⟩⟩
  | some path =>
    simp only [mapArguments, mapPath]
    have hmap := m.grows_mapPages root
      (((pathBytes path).length + pageSize - 1) / pageSize) .userData (some userArgumentsBase)
    rcases hm : m.mapPages root (((pathBytes path).length + pageSize - 1) / pageSize) .userData
      (some userArgumentsBase) with ⟨base, m₁⟩
    rw [hm] at hmap
    cases base with
    | none => exact ⟨m₁, hmap, .inr rfl⟩
    | some base =>
      have hwrite := m₁.grows_write root base (pathBytes path)
      rcases hw : m₁.write root base (pathBytes path) with ⟨written, m₂⟩
      rw [hw] at hwrite
      simp only [hw]
      cases written with
      | true => exact ⟨m₂, hmap.trans hwrite, .inl ⟨_, rfl⟩⟩
      | false =>
        exact ⟨_, hmap.trans (hwrite.trans (m₂.grows_unmapPages _ _ _)), .inr rfl⟩

theorem outcome_userTaskIn {m m₀ : Machine} (hgrows : m₀.Grows m) {root : Nat}
    (hroot : ¬ m₀.Issued (.space root) ∧ m.Issued (.space root)) (entry : Nat)
    (path : Option String) : Outcome l request m₀ (l.userTaskIn m root request entry path) := by
  -- every step may fail, and what was mapped before it is then unmapped
  have hsegment := m.grows_mapPages root segmentPages .kernelData (some userSegmentBase)
  rw [userTaskIn]
  rcases hm₁ : m.mapPages root segmentPages .kernelData (some userSegmentBase) with ⟨base, m₁⟩
  rw [hm₁] at hsegment
  have hgrows₁ : m₀.Grows m₁ := hgrows.trans hsegment
  cases base with
  | none => exact outcome_abandon hgrows₁ root [] _
  | some segment =>
    have hstack := m₁.grows_mapPages root l.userStackPages .userData (some userStackBase)
    dsimp only
    rcases hm₂ : m₁.mapPages root l.userStackPages .userData (some userStackBase) with ⟨base, m₂⟩
    rw [hm₂] at hstack
    have hgrows₂ : m₀.Grows m₂ := hgrows₁.trans hstack
    cases base with
    | none => exact outcome_abandon hgrows₂ root _ _
    | some stack =>
      dsimp only
      cases hheap : m₂.createHeap root with
      | none => exact outcome_abandon hgrows₂ root _ _
      | some heap =>
        dsimp only
        obtain ⟨m₃, hgrows₃, ⟨arguments, harguments⟩ | harguments⟩ :=
          mapArguments_cases m₂ root path
        · rw [harguments]
          dsimp only
          obtain ⟨m₄, hgrows₄, ⟨kernelStack, hacquire, hkernelStack⟩ | ⟨resource, hacquire⟩⟩ :=
            l.acquire_cases m₃ Machine.entryPoints.userLaunch
              (launchWords root ⟨stack, l.userStackPages⟩ entry arguments)
          · rw [hacquire]
            dsimp only
            have hwrite := m₄.grows_write root segment
              (StateSegment.ofStackTop kernelStack.top).bytes
            rcases hm₅ : m₄.write root segment
              (StateSegment.ofStackTop kernelStack.top).bytes with ⟨written, m₅⟩
            rw [hm₅] at hwrite
            have hgrows₅ : m₀.Grows m₅ :=
              (hgrows₂.trans hgrows₃).trans (hgrows₄.trans hwrite)
            cases written with
            | false => exact outcome_abandon (hgrows₅.trans (m₅.grows_free _)) root _ _
            | true =>
              refine ⟨hgrows₅, fun t ht => ?_, fun t ht a ha => ?_, fun e he => (by cases he)⟩
              · cases ht
                exact ⟨rfl, rfl, rfl, rfl, rfl, rfl⟩
              · cases ht
                rcases Task.mem_assets ha with rfl | rfl
                · exact ⟨Nat.not_le.2 (Nat.lt_of_le_of_lt (hgrows₂.trans hgrows₃).heap
                    hkernelStack.fresh), Nat.le_trans hkernelStack.issued hwrite.heap⟩
                · exact ⟨hroot.1, ((hsegment.trans hstack).trans
                    (hgrows₃.trans (hgrows₄.trans hwrite))).issued hroot.2⟩
          · rw [hacquire]
            exact outcome_abandon ((hgrows₂.trans hgrows₃).trans hgrows₄) root _ _
        · rw [harguments]
          exact outcome_abandon (hgrows₂.trans hgrows₃) root _ _

theorem outcome_userTask (m : Machine) (entry : Nat) (path : Option String) :
    Outcome l request m (l.userTask m request entry path) := by
  rw [userTask, Machine.cloneSpace]
  by_cases hfault : m.faults.clone = true
  · rw [if_pos hfault]
    refine ⟨.refl m, fun t ht => (by cases ht), fun t ht => (by cases ht), fun e he => ?_⟩
    cases he
    exact ⟨_, rfl⟩
  · have hclone := m.grows_cloneSpace
    rw [Machine.cloneSpace, if_neg hfault] at hclone
    rw [if_neg hfault]
    exact outcome_userTaskIn hclone ⟨Nat.lt_irrefl _, Nat.lt_add_of_pos_right (by decide)⟩ entry
      path

end Launcher

end Microkernel
