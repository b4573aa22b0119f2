/-
Building the same task on two machines.

`m.Alike m'` says that two machines treat whoever builds a task alike. Then building a task comes to
the same on both:

* **`Machine.Alike.allocate`**: a block of the heap can be had on both or on neither;
* **`Launcher.rebuilt_kernelTask`**, **`Launcher.rebuilt_userTask`**: the same task is built up to
  its memory, or the same error is answered.

Design notes: a user task is built in a fresh address space, which has another root on either
machine. So not the spaces of the machines are compared, but the two that the task is built in
(`Machine.Twins`).
-/
import Microkernel.Proofs.Scheduler.Bare
import Microkernel.Proofs.Task.Launch

namespace Microkernel

namespace Machine

/-- The same core runs, and the same faults are on. -/
structure Alike (m m' : Machine) : Prop where
  currentCore : m'.currentCore = m.currentCore
  faults : m'.faults = m.faults

variable {m m' m₁ m₁' : Machine}

theorem Alike.refl (m : Machine) : m.Alike m :=
  ⟨rfl, rfl⟩

theorem Alike.symm (h : m.Alike m') : m'.Alike m :=
  ⟨h.currentCore.symm, h.faults.symm⟩

theorem Alike.trans (h : m.Alike m₁) (h' : m₁.Alike m') : m.Alike m' :=
  ⟨h'.currentCore.trans h.currentCore, h'.faults.trans h.faults⟩

theorem Alike.after (h : m.Alike m') (hm : m.Alike m₁) (hm' : m'.Alike m₁') : m₁.Alike m₁' :=
  hm.symm.trans (h.trans hm')

/-! ### Giving memory back -/

theorem alike_free (m : Machine) (source : HeapSource) : m.Alike (m.free source) := by
  rw [free]
  split <;> exact ⟨rfl, rfl⟩

theorem alike_unmapPages (m : Machine) (root base count : Nat) :
    m.Alike (m.unmapPages root base count) := by
  simp only [unmapPages]
  split <;> exact ⟨rfl, rfl⟩

theorem alike_dropSpace (m : Machine) (root : Nat) : m.Alike (m.dropSpace root) := by
  rw [dropSpace]
  split <;> exact ⟨rfl, rfl⟩

theorem alike_releaseSpace (m : Machine) (root : Nat) (mappings : List Mapping) :
    m.Alike (releaseSpace root mappings m) := by
  rw [releaseSpace]
  refine Alike.trans ?_ (alike_dropSpace _ _)
  induction mappings generalizing m with
  | nil => exact .refl m
  | cons p mappings ih => exact (m.alike_unmapPages _ _ _).trans (ih _)

end Machine

theorem Task.alike_release (t : Task) (m : Machine) : m.Alike (t.release m) := by
  rw [release]
  split
  · exact m.alike_free _
  · exact (m.alike_releaseSpace _ _).trans (Machine.alike_free _ _)

theorem Task.alike_releaseAll (tasks : List Task) (m : Machine) :
    m.Alike (tasks.foldl (fun m task => task.release m) m) := by
  induction tasks generalizing m with
  | nil => exact .refl m
  | cons t tasks ih => exact (t.alike_release m).trans (ih _)

namespace Machine

variable {m₀ m m' m₁ m₁' : Machine} {root root' : Nat}

/-! ### The two address spaces -/

/-- The machines treat whoever builds a task in an address space of either as `m₀` did. -/
structure Twins (m₀ : Machine) (root root' : Nat) (m m' : Machine) : Prop where
  left : m₀.Alike m
  right : m₀.Alike m'
  space : m'.spaces.get? root' = m.spaces.get? root

theorem Twins.alike (h : Twins m₀ root root' m m') : m.Alike m' :=
  h.left.symm.trans h.right

/-- The two spaces have changed in the same way. -/
theorem Twins.insert (h : Twins m₀ root root' m m') (space : AddressSpace) (pages pages' : Nat)
    (contents contents' : List (Page × Bytes)) : Twins m₀ root root'
      { m with
        spaces := m.spaces.insert root space
        userPages := pages
        contents := contents }
      { m' with
        spaces := m'.spaces.insert root' space
        userPages := pages'
        contents := contents' } where
  left := h.left.trans ⟨rfl, rfl⟩
  right := h.right.trans ⟨rfl, rfl⟩
  space := by rw [Table.get?_insert, Table.get?_insert, if_pos rfl, if_pos rfl]

/-- A fresh address space on either machine, or on neither. -/
theorem Alike.cloneSpace (h : m.Alike m') :
    (∃ root root', m.cloneSpace.1 = some root ∧ m'.cloneSpace.1 = some root' ∧
        Twins m root root' m.cloneSpace.2 m'.cloneSpace.2) ∨
      m.cloneSpace = (none, m) ∧ m'.cloneSpace = (none, m') := by
  by_cases hfault : m.faults.clone = true
  · exact .inr ⟨if_pos hfault, if_pos (h.faults ▸ hfault)⟩
  · rw [Machine.cloneSpace, Machine.cloneSpace, if_neg hfault, if_neg (h.faults ▸ hfault)]
    refine .inl ⟨_, _, rfl, rfl, ⟨rfl, rfl⟩, h.trans ⟨rfl, rfl⟩, ?_⟩
    rw [Table.get?_insert, Table.get?_insert, if_pos rfl, if_pos rfl]

/-- Mapping pages comes to the same in either address space. -/
theorem Twins.mapPages (h : Twins m₀ root root' m m') (count : Nat) (rights : PageRights)
    (placement : Option Nat) : ∃ base m₁ m₁', m.mapPages root count rights placement = (base, m₁) ∧
      m'.mapPages root' count rights placement = (base, m₁') ∧ Twins m₀ root root' m₁ m₁' := by
  have hfaults := h.alike.faults
  by_cases hfault : count = 0 ∨ m.faults.userPages = true
  · rw [Machine.mapPages, Machine.mapPages, if_pos hfault, if_pos (hfaults ▸ hfault)]
    exact ⟨_, _, _, rfl, rfl, h⟩
  · rw [Machine.mapPages, Machine.mapPages, if_neg hfault, if_neg (hfaults ▸ hfault), h.space]
    cases m.spaces.get? root with
    | none => exact ⟨_, _, _, rfl, rfl, h⟩
    | some space =>
      cases placement <;> dsimp only <;> split <;>
        exact ⟨_, _, _, rfl, rfl, h.insert _ _ _ _ _⟩

theorem Twins.unmapPages (h : Twins m₀ root root' m m') (base count : Nat) :
    Twins m₀ root root' (m.unmapPages root base count) (m'.unmapPages root' base count) := by
  simp only [Machine.unmapPages, h.space]
  cases m.spaces.get? root with
  | none => exact ⟨h.left.trans ⟨rfl, rfl⟩, h.right.trans ⟨rfl, rfl⟩, h.space⟩
  | some space => exact h.insert _ _ _ _ _

/-- Whether bytes can be written depends on their number only. -/
theorem Twins.write (h : Twins m₀ root root' m m') (base : Nat) {bytes bytes' : Bytes}
    (hlength : bytes'.length = bytes.length) : ∃ done m₁ m₁', m.write root base bytes = (done, m₁) ∧
      m'.write root' base bytes' = (done, m₁') ∧ Twins m₀ root root' m₁ m₁' := by
  simp only [Machine.write, h.space, hlength]
  cases hregion : (m.spaces.get? root).bind (·.regions.get? (canonical base)) with
  | none => exact ⟨_, _, _, rfl, rfl, h⟩
  | some region =>
    dsimp only
    by_cases hfault : (m.faults.writeBytes ||
        decide (region.pages * pageSize % wordSpan < bytes.length)) = true
    · rw [if_pos hfault, if_pos (h.alike.faults ▸ hfault)]
      exact ⟨_, _, _, rfl, rfl, h⟩
    · rw [if_neg hfault, if_neg (h.alike.faults ▸ hfault)]
      exact ⟨_, _, _, rfl, rfl, h.left.trans ⟨rfl, rfl⟩, h.right.trans ⟨rfl, rfl⟩, h.space⟩

theorem Twins.createHeap (h : Twins m₀ root root' m m') :
    (m.createHeap root = none ∧ m'.createHeap root' = none) ∨
      ∃ heap heap', m.createHeap root = some heap ∧ m'.createHeap root' = some heap' := by
  rw [Machine.createHeap, Machine.createHeap, h.alike.faults]
  split
  · exact .inl ⟨rfl, rfl⟩
  · exact .inr ⟨_, _, rfl, rfl⟩

/-! ### Blocks of the heap -/

/-- Only the heap has changed. -/
structure Spares (m m₁ : Machine) : Prop extends m.Alike m₁ where
  spaces : m₁.spaces = m.spaces

theorem Spares.refl (m : Machine) : m.Spares m :=
  ⟨.refl m, rfl⟩

theorem Spares.free (h : m.Spares m₁) (source : HeapSource) : m.Spares (m₁.free source) := by
  refine ⟨h.toAlike.trans (m₁.alike_free source), ?_⟩
  rw [Machine.free]
  split <;> exact h.spaces

/-- Whether a block can be placed depends on the block only. -/
theorem place?_cases (h h' : Heap) (align size : Nat) :
    (∃ base base', h.place? align size = some base ∧ h'.place? align size = some base') ∨
      h.place? align size = none ∧ h'.place? align size = none := by
  rw [Heap.place?, Heap.place?]
  split
  · exact .inl ⟨_, _, rfl, rfl⟩
  · exact .inr ⟨rfl, rfl⟩

theorem Alike.allocate (h : m.Alike m') (source : HeapSource) (align size : Nat) :
    ∃ m₁ m₁', m.Spares m₁ ∧ m'.Spares m₁' ∧
      ((∃ base base', m.allocate source align size = (some base, m₁) ∧
          m'.allocate source align size = (some base', m₁')) ∨
        m.allocate source align size = (none, m₁) ∧
          m'.allocate source align size = (none, m₁')) := by
  by_cases hfault : source = .kernel ∧ m.faults.kernelHeap = true
  · refine ⟨m, m', .refl m, .refl m', .inr ⟨if_pos hfault, if_pos ?_⟩⟩
    rwa [h.faults]
  · have hfault' : ¬ (source = .kernel ∧ m'.faults.kernelHeap = true) := by rwa [h.faults]
    rw [Machine.allocate, Machine.allocate, if_neg hfault, if_neg hfault']
    rcases place?_cases m.heap m'.heap align size with ⟨base, base', hplace, hplace'⟩ |
      ⟨hplace, hplace'⟩ <;> rw [hplace, hplace']
    · refine ⟨_, _, ?_, ?_, .inl ⟨_, _, rfl, rfl⟩⟩ <;> exact ⟨⟨rfl, rfl⟩, rfl⟩
    · exact ⟨m, m', .refl m, .refl m', .inr ⟨rfl, rfl⟩⟩

end Machine

namespace Launcher

open Machine (Twins)

variable {l : Launcher} {m₀ m m' : Machine} {root root' : Nat} {request : TaskRequest}

/-! ### Kernel stacks and mailboxes -/

/-- The same memory is acquired, or the same error is answered. The words on the stack may differ,
but not their number. -/
theorem acquire_alike (h : m.Alike m') (entry : Nat) {extras extras' : List Nat}
    (hlength : extras'.length = extras.length) :
    ∃ m₁ m₁', m.Spares m₁ ∧ m'.Spares m₁' ∧
      ((∃ stack stack' mailbox, l.acquire m entry extras = (.ok (stack, mailbox), m₁) ∧
          l.acquire m' entry extras' = (.ok (stack', mailbox), m₁')) ∨
        ∃ e, l.acquire m entry extras = (.error e, m₁) ∧
          l.acquire m' entry extras' = (.error e, m₁')) := by
  have hframe : (KernelStack.firstFrame Machine.entryPoints entry extras').length =
      (KernelStack.firstFrame Machine.entryPoints entry extras).length := by
    simp only [KernelStack.firstFrame, List.length_append, List.length_cons, hlength]
  rw [acquire, acquire, KernelStack.allocate, KernelStack.allocate]
  obtain ⟨m₁, m₁', hm₁, hm₁', ⟨base, base', hbase, hbase'⟩ | ⟨hbase, hbase'⟩⟩ :=
    h.allocate .kernel stackAlign (roundUp l.stackSize stackAlign)
  · simp only [hbase, hbase', KernelStack.withFirstFrame, hframe]
    by_cases hfit : roundUp l.stackSize stackAlign <
        wordSize * (KernelStack.firstFrame Machine.entryPoints entry extras).length
    · rw [if_pos hfit, if_pos hfit]
      exact ⟨_, _, hm₁.free .kernel, hm₁'.free .kernel, .inr ⟨_, rfl, rfl⟩⟩
    · rw [if_neg hfit, if_neg hfit]
      cases Mailbox.withCapacity l.mailboxSize with
      | error e => exact ⟨_, _, hm₁.free .kernel, hm₁'.free .kernel, .inr ⟨e, rfl, rfl⟩⟩
      | ok mailbox => exact ⟨_, _, hm₁, hm₁', .inl ⟨_, _, mailbox, rfl, rfl⟩⟩
  · simp only [hbase, hbase']
    exact ⟨_, _, hm₁, hm₁', .inr ⟨_, rfl, rfl⟩⟩

/-! ### Building a task -/

/-- The same task was built up to its memory, or the same error was answered, and the machines are
still alike. -/
structure Rebuilt (m₀ : Machine) (o o' : Except Error Task × Machine) : Prop where
  result : o'.1.map Task.bare = o.1.map Task.bare
  left : m₀.Alike o.2
  right : m₀.Alike o'.2

theorem Rebuilt.alike {o o' : Except Error Task × Machine} (h : Rebuilt m₀ o o') :
    o.2.Alike o'.2 :=
  h.left.symm.trans h.right

theorem rebuilt_kernelTask (h : m.Alike m') (entry : Nat) :
    Rebuilt m (l.kernelTask m request entry) (l.kernelTask m' request entry) := by
  rw [kernelTask, kernelTask]
  obtain ⟨m₁, m₁', hm₁, hm₁', ⟨stack, stack', mailbox, hstack, hstack'⟩ | ⟨e, he, he'⟩⟩ :=
    acquire_alike h entry (rfl : ([] : List Nat).length = 0)
  · rw [hstack, hstack']
    exact ⟨rfl, hm₁.toAlike, h.trans hm₁'.toAlike⟩
  · rw [he, he']
    exact ⟨rfl, hm₁.toAlike, h.trans hm₁'.toAlike⟩

theorem mapArguments_alike (h : Twins m₀ root root' m m') (path : Option String) :
    ∃ arguments m₁ m₁', mapArguments m root path = (arguments, m₁) ∧
      mapArguments m' root' path = (arguments, m₁') ∧ Twins m₀ root root' m₁ m₁' := by
  cases path with
  | none => exact ⟨_, m, m', rfl, rfl, h⟩
  | some path =>
    simp only [mapArguments, mapPath]
    obtain ⟨base, m₁, m₁', hm₁, hm₁', hmapped⟩ := h.mapPages
      (((pathBytes path).length + pageSize - 1) / pageSize) .userData (some userArgumentsBase)
    simp only [hm₁, hm₁']
    cases base with
    | none => exact ⟨_, _, _, rfl, rfl, hmapped⟩
    | some base =>
      obtain ⟨done, m₂, m₂', hm₂, hm₂', hwritten⟩ :=
        hmapped.write base (rfl : (pathBytes path).length = _)
      simp only [hm₂, hm₂']
      cases done with
      | true => exact ⟨_, _, _, rfl, rfl, hwritten⟩
      | false => exact ⟨_, _, _, rfl, rfl, hwritten.unmapPages _ _⟩

/-- A user task that cannot be built on either machine, for the same reason. -/
theorem rebuilt_abandon (hm : m₀.Alike m) (hm' : m₀.Alike m') (root root' : Nat)
    (mappings mappings' : List Mapping) (e : Error) :
    Rebuilt m₀ (abandon m root mappings e) (abandon m' root' mappings' e) where
  result := rfl
  left := hm.trans (m.alike_releaseSpace _ _)
  right := hm'.trans (m'.alike_releaseSpace _ _)

theorem rebuilt_userTaskIn (h : Twins m₀ root root' m m') (entry : Nat) (path : Option String) :
    Rebuilt m₀ (l.userTaskIn m root request entry path)
      (l.userTaskIn m' root' request entry path) := by
  -- whatever can be had on one machine can be had on the other
  rw [userTaskIn, userTaskIn]
  obtain ⟨base, m₁, m₁', hm₁, hm₁', hsegment⟩ :=
    h.mapPages segmentPages .kernelData (some userSegmentBase)
  rw [hm₁, hm₁']
  cases base with
  | none => exact rebuilt_abandon hsegment.left hsegment.right _ _ _ _ _
  | some segment =>
    dsimp only
    obtain ⟨base, m₂, m₂', hm₂, hm₂', hstack⟩ :=
      hsegment.mapPages l.userStackPages .userData (some userStackBase)
    rw [hm₂, hm₂']
    cases base with
    | none => exact rebuilt_abandon hstack.left hstack.right _ _ _ _ _
    | some stack =>
      dsimp only
      rcases hstack.createHeap with ⟨hheap, hheap'⟩ | ⟨heap, heap', hheap, hheap'⟩ <;>
        rw [hheap, hheap']
      · exact rebuilt_abandon hstack.left hstack.right _ _ _ _ _
      · dsimp only
        obtain ⟨arguments, m₃, m₃', hm₃, hm₃', harguments⟩ := mapArguments_alike hstack path
        rw [hm₃, hm₃']
        cases arguments with
        | error e => exact rebuilt_abandon harguments.left harguments.right _ _ _ _ _
        | ok arguments =>
          dsimp only
          have hwords : (launchWords root' ⟨stack, l.userStackPages⟩ entry arguments).length =
              (launchWords root ⟨stack, l.userStackPages⟩ entry arguments).length := rfl
          obtain ⟨m₄, m₄', hspares, hspares', hacquired⟩ :=
            acquire_alike harguments.alike Machine.entryPoints.userLaunch hwords
          have htwins : Twins m₀ root root' m₄ m₄' :=
            ⟨harguments.left.trans hspares.toAlike, harguments.right.trans hspares'.toAlike,
              by rw [hspares.spaces, hspares'.spaces, harguments.space]⟩
          rcases hacquired with ⟨kernelStack, kernelStack', mailbox, hm₄, hm₄'⟩ | ⟨e, hm₄, hm₄'⟩ <;>
            rw [hm₄, hm₄']
          · dsimp only
            have hlength : (StateSegment.ofStackTop kernelStack'.top).bytes.length =
                (StateSegment.ofStackTop kernelStack.top).bytes.length := by
              rw [StateSegment.length_bytes, StateSegment.length_bytes]
            obtain ⟨done, m₅, m₅', hm₅, hm₅', hwritten⟩ := htwins.write segment hlength
            rw [hm₅, hm₅']
            cases done with
            | false =>
              exact rebuilt_abandon (hwritten.left.trans (m₅.alike_free _))
                (hwritten.right.trans (m₅'.alike_free _)) _ _ _ _ _
            | true => exact ⟨rfl, hwritten.left, hwritten.right⟩
          · exact rebuilt_abandon htwins.left htwins.right _ _ _ _ _

theorem rebuilt_userTask (h : m.Alike m') (entry : Nat) (path : Option String) :
    Rebuilt m (l.userTask m request entry path) (l.userTask m' request entry path) := by
  rw [userTask, userTask]
  rcases h.cloneSpace with ⟨root, root', hroot, hroot', htwins⟩ | ⟨hnone, hnone'⟩
  · rw [show m.cloneSpace = (some root, m.cloneSpace.2) from Prod.ext hroot rfl,
      show m'.cloneSpace = (some root', m'.cloneSpace.2) from Prod.ext hroot' rfl]
    exact rebuilt_userTaskIn htwins entry path
  · rw [hnone, hnone']
    exact ⟨rfl, .refl m, h⟩

end Launcher

end Microkernel
