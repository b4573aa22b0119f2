/-
Where a new task starts.

A task that was built has a kernel stack of its own with a first frame on it (`OwnStack`, `Begins`),
and a user task has an address space of its own with everything in it that the launch code and the
task will look for (`UserStart`).

* **`mapPages_eq_some`**, **`write_eq_true`**: what is mapped and written is there, and the rest
  stays;
* **`acquire_eq_ok`**, **`mapArguments_eq_ok`**: the stack and the path of a new task;
* **`Launcher.starts_at_entry`**: every task that is built starts where it should, and a stack that
  is too small for the frame is refused.

Design notes: addresses of heap blocks are numbers without a bound, so the state segment names the
canonical form of a stack top; this is the top itself as long as the heap stays within its range.
The top of the user stack is a machine word, and so the remainder of a sum; it is the sum itself as
long as the pages end within the range of a word.
-/
import Microkernel.Proofs.Task.Launch
import Microkernel.Proofs.Task.Resume

namespace Microkernel

open KernelStack

/-- A task with this stack and this stack pointer that is switched to comes to `start`, with these
words on the stack. -/
structure Begins (s : KernelStack) (pointer : StackPointer) (start : Nat) (words : List Nat) :
    Prop where
  /-- The stack pointer that is loaded lies in the stack. -/
  loaded : s.base ≤ pointer.address s.top ∧ pointer.address s.top < s.top
  /-- Every word of the frame lies in the stack. -/
  frame : ∀ address word, s.wordAt? address = some word →
    s.base ≤ address ∧ address + wordSize ≤ s.top
  resumes : ∀ p : Processor, ∃ p',
    p.resume? Machine.entryPoints s pointer = some p' ∧ p'.counter = start ∧
      p'.interruptsEnabled = true ∧ s.Rests p'.stackPointer words

variable {s : KernelStack}

/-- A first frame that fits begins at its entry. -/
theorem begins_of_firstFrame {entry : Nat} {extras : List Nat}
    (hwords : s.words = firstFrame Machine.entryPoints entry extras)
    (hfits : wordSize * s.words.length ≤ s.size) :
    Begins s s.pointer entry (extras ++ [Machine.entryPoints.taskFinished]) where
  loaded := by
    have hrests := (rests_pointer hfits).top
    have htop : s.top = s.base + s.size := rfl
    have hpos : 0 < wordSize * s.words.length := by
      rw [hwords]
      exact Nat.mul_pos (by decide) (Nat.succ_pos _)
    omega
  frame _ _ hword := bounds_of_wordAt? hfits hword
  resumes p := Processor.resume?_firstFrame hwords hfits p

/-- The launch code loads the words of a user task into the registers that they are for. -/
theorem Begins.launches {pointer : StackPointer} {root top entry argument : Nat} {rest : List Nat}
    (h : Begins s pointer Machine.entryPoints.userLaunch (root :: top :: entry :: argument :: rest))
    (p : Processor) : ∃ p' p'',
      p.resume? Machine.entryPoints s pointer = some p' ∧
        p'.proceed? Machine.entryPoints s = some p'' ∧ p''.registers .cr3 = root ∧
        p''.registers .rcx = top ∧ p''.registers .rdx = entry ∧ p''.registers .rdi = argument := by
  obtain ⟨p', hresume, hcounter, -, hrests⟩ := h.resumes p
  obtain ⟨p'', hproceed, hroot, htop, hentry, hargument, -⟩ :=
    Processor.proceed?_userLaunch (by decide) hcounter hrests
  exact ⟨p', p'', hresume, hproceed, hroot, htop, hentry, hargument⟩

/-! ### Pages and their bytes -/

namespace Machine

variable {m m' : Machine} {root base : Nat}

/-- The region that a space maps at an address. -/
def regionAt? (m : Machine) (root address : Nat) : Option Region :=
  (m.spaces.get? root).bind (·.regions.get? address)

/-- The second machine has one more region in one space, and is otherwise as the first. -/
structure Maps (m m' : Machine) (root base : Nat) (region : Region) : Prop where
  regionAt?_self : m'.regionAt? root base = some region
  regionAt?_of_ne : ∀ address, address ≠ base → m'.regionAt? root address = m.regionAt? root address
  contents : m'.contents = m.contents
  heap : m'.heap = m.heap

theorem mapPages_eq_some {count address : Nat} {rights : PageRights}
    (h : m.mapPages root count rights (some address) = (some base, m')) :
    base = canonical address ∧ m.Maps m' root base ⟨count, rights⟩ := by
  rw [mapPages] at h
  split at h
  · cases h
  · cases hspace : m.spaces.get? root with
    | none =>
      rw [hspace] at h
      cases h
    | some space =>
      rw [hspace] at h
      dsimp only at h
      split at h
      · cases h
      · cases h
        refine ⟨canonical_canonical address, ?_, fun other hother => ?_, rfl, rfl⟩
        · rw [regionAt?, Table.get?_insert, if_pos rfl, Option.bind_some, Table.get?_insert,
            if_pos (canonical_canonical address)]
        · rw [canonical_canonical] at hother
          rw [regionAt?, Table.get?_insert, if_pos rfl, Option.bind_some, Table.get?_insert,
            if_neg hother, regionAt?, hspace, Option.bind_some]

/-- Bytes were written to a region that has room for them, and nothing else was. -/
structure Writes (m m' : Machine) (root base : Nat) (bytes : Bytes) : Prop where
  fits : ∃ region, m.regionAt? root (canonical base) = some region ∧
    bytes.length ≤ region.pages * pageSize
  read?_self : m'.read? root base = some bytes
  read?_of_ne : ∀ other, canonical other ≠ canonical base → m'.read? root other = m.read? root other
  spaces : m'.spaces = m.spaces
  heap : m'.heap = m.heap

theorem Writes.regionAt?_eq {bytes : Bytes} (h : m.Writes m' root base bytes)
    (other address : Nat) : m'.regionAt? other address = m.regionAt? other address := by
  rw [regionAt?, h.spaces, regionAt?]

theorem find?_forget (contents : List (Page × Bytes)) {page other : Page} (h : other ≠ page) :
    (forget contents page).find? (fun entry => entry.1 = other) =
      contents.find? fun entry => entry.1 = other := by
  rw [forget, List.find?_filter]
  congr 1
  funext entry
  by_cases hentry : entry.1 = other
  · simp [hentry, h]
  · simp [hentry]

theorem write_eq_true {bytes : Bytes} (h : m.write root base bytes = (true, m')) :
    m.Writes m' root base bytes := by
  rw [write] at h
  dsimp only at h
  split at h
  · cases h
  · rename_i region hregion
    split at h
    · cases h
    · rename_i hroom
      cases h
      rw [Bool.or_eq_true, decide_eq_true_eq, not_or, Nat.not_lt] at hroom
      have hfits := Nat.le_trans hroom.2 (Nat.mod_le _ _)
      refine ⟨⟨region, hregion, hfits⟩, ?_, fun other hother => ?_, rfl, rfl⟩
      · rw [read?, List.find?_cons_of_pos (by simp)]
        rfl
      · have hpage : (⟨root, canonical other⟩ : Page) ≠ ⟨root, canonical base⟩ :=
          fun hpage => hother (Page.mk.inj hpage).2
        rw [read?, List.find?_cons_of_neg (by simpa using hpage.symm), find?_forget _ hpage, read?]

/-- The address stands for a path: it is zero without one, and else the bytes of the path and a zero
byte are there, in pages that a user task may touch. -/
structure Finds (m : Machine) (root address : Nat) (path : Option String) : Prop where
  absent : path = none → address = 0
  present : ∀ text, path = some text →
    m.read? root address = some (text.toUTF8.data.toList ++ [0]) ∧
      ∃ pages, m.regionAt? root address = some ⟨pages, .userData⟩ ∧
        (text.toUTF8.data.toList ++ [0]).length ≤ pages * pageSize

/-- A path that is found stays where it is if its bytes and its pages do. -/
theorem Finds.congr {address : Nat} {path : Option String} (h : m.Finds root address path)
    (hread : ∀ text, path = some text → m'.read? root address = m.read? root address)
    (hregions : ∀ other, m'.regionAt? root other = m.regionAt? root other) :
    m'.Finds root address path where
  absent := h.absent
  present text htext := by
    rw [hread text htext, hregions]
    exact h.present text htext

end Machine

namespace Launcher

variable {l : Launcher} {m m' : Machine} {request : TaskRequest} {root entry : Nat}

theorem canonical_userArgumentsBase : canonical userArgumentsBase = userArgumentsBase :=
  canonical_of_lt (by decide)

theorem mapArguments_eq_ok {path : Option String} {arguments : Option Mapping}
    (h : mapArguments m root path = (.ok arguments, m')) :
    let address := (arguments.map Mapping.base).getD 0
    m'.Finds root address path ∧ (∀ text, path = some text → address = userArgumentsBase) ∧
      m'.heap = m.heap ∧
      ∀ other, other ≠ userArgumentsBase → m'.regionAt? root other = m.regionAt? root other := by
  cases path with
  | none =>
    cases h
    exact ⟨⟨fun _ => rfl, fun text htext => (by cases htext)⟩, fun text htext => (by cases htext),
      rfl, fun _ _ => rfl⟩
  | some text =>
    simp only [mapArguments, mapPath] at h
    rcases hmap : m.mapPages root (((pathBytes text).length + pageSize - 1) / pageSize) .userData
      (some userArgumentsBase) with ⟨base, m₁⟩
    rw [hmap] at h
    cases base with
    | none => cases h
    | some base =>
      obtain ⟨hbase, hmaps⟩ := Machine.mapPages_eq_some hmap
      rw [canonical_userArgumentsBase] at hbase
      subst hbase
      rcases hwrite : m₁.write root userArgumentsBase (pathBytes text) with ⟨written, m₂⟩
      simp only [hwrite] at h
      cases written with
      | false => cases h
      | true =>
        cases h
        have hwrites := Machine.write_eq_true hwrite
        obtain ⟨region, hregion, hfits⟩ := hwrites.fits
        rw [canonical_userArgumentsBase, hmaps.regionAt?_self] at hregion
        obtain rfl := Option.some.inj hregion
        refine ⟨⟨fun hnone => (by cases hnone), fun other hother => ?_⟩, fun _ _ => rfl,
          hwrites.heap.trans hmaps.heap, fun other hother => ?_⟩
        · cases hother
          exact ⟨hwrites.read?_self, _, (hwrites.regionAt?_eq _ _).trans hmaps.regionAt?_self,
            hfits⟩
        · rw [hwrites.regionAt?_eq, hmaps.regionAt?_of_ne other hother]

/-! ### The kernel stack -/

/-- A stack that was acquired has a first frame and lies behind every block that was handed out. -/
structure Framed (l : Launcher) (m m' : Machine) (stack : KernelStack) (entry : Nat)
    (extras : List Nat) : Prop where
  words : stack.words = firstFrame Machine.entryPoints entry extras
  fits : wordSize * stack.words.length ≤ stack.size
  size : stack.size = roundUp l.stackSize stackAlign
  fresh : m.heap.next ≤ stack.base
  top : stack.top = m'.heap.next
  spaces : m'.spaces = m.spaces
  contents : m'.contents = m.contents

namespace Framed

variable {stack : KernelStack} {extras : List Nat}

theorem regionAt?_eq (h : l.Framed m m' stack entry extras) (root address : Nat) :
    m'.regionAt? root address = m.regionAt? root address := by
  rw [Machine.regionAt?, h.spaces, Machine.regionAt?]

theorem read?_eq (h : l.Framed m m' stack entry extras) (root address : Nat) :
    m'.read? root address = m.read? root address := by
  rw [Machine.read?, h.contents, Machine.read?]

end Framed

theorem allocate_eq_ok {size : Nat} {stack : KernelStack}
    (h : KernelStack.allocate m size = (.ok stack, m')) :
    stack.size = roundUp size stackAlign ∧ m.heap.next ≤ stack.base ∧
      stack.top = m'.heap.next ∧ m'.spaces = m.spaces ∧ m'.contents = m.contents := by
  rw [KernelStack.allocate, Machine.allocate] at h
  by_cases hfault : HeapSource.kernel = .kernel ∧ m.faults.kernelHeap = true
  · rw [if_pos hfault] at h
    cases h
  · rw [if_neg hfault] at h
    cases hplace : m.heap.place? stackAlign (roundUp size stackAlign) with
    | none =>
      rw [hplace] at h
      cases h
    | some start =>
      rw [hplace] at h
      cases h
      exact ⟨rfl, (Machine.place?_eq_some (by decide) hplace).1, rfl, rfl, rfl⟩

theorem acquire_eq_ok {extras : List Nat} {stack : KernelStack} {mailbox : Mailbox}
    (h : l.acquire m entry extras = (.ok (stack, mailbox), m')) :
    l.Framed m m' stack entry extras := by
  rw [acquire] at h
  rcases hallocate : KernelStack.allocate m l.stackSize with ⟨_ | allocated, m₁⟩
  · rw [hallocate] at h
    cases h
  · obtain ⟨hsize, hfresh, htop, hspaces, hcontents⟩ := allocate_eq_ok hallocate
    simp only [hallocate, KernelStack.withFirstFrame] at h
    by_cases hsmall : allocated.size <
        wordSize * (firstFrame Machine.entryPoints entry extras).length
    · rw [if_pos hsmall] at h
      cases h
    · rw [if_neg hsmall, Mailbox.withCapacity] at h
      by_cases hlimit : l.mailboxSize < Mailbox.capacityLimit
      · rw [if_pos hlimit] at h
        cases h
        exact ⟨rfl, Nat.not_lt.1 hsmall, hsize, hfresh, htop, hspaces, hcontents⟩
      · rw [if_neg hlimit] at h
        cases h

theorem length_firstFrame (entries : EntryPoints) (entry : Nat) (extras : List Nat) :
    (firstFrame entries entry extras).length = savedRegisters + 3 + extras.length := by
  rw [firstFrame, List.length_append, List.length_append, List.length_replicate, List.length_cons,
    List.length_cons, List.length_singleton]
  omega

/-- A stack that is too small for the frame is refused, whether or not it could be had. -/
theorem acquire_of_small (m : Machine) (entry : Nat) (extras : List Nat)
    (h : roundUp l.stackSize stackAlign < wordSize * (savedRegisters + 3 + extras.length)) :
    ∃ m', l.acquire m entry extras = (.error (.allocationFailed .kernelStack), m') := by
  rw [acquire]
  rcases hallocate : KernelStack.allocate m l.stackSize with ⟨e | stack, m₁⟩
  · have hstack : e = .allocationFailed .kernelStack := by
      rw [KernelStack.allocate] at hallocate
      split at hallocate
      · cases hallocate
        rfl
      · cases hallocate
    subst hstack
    exact ⟨m₁, rfl⟩
  · obtain ⟨hsize, -⟩ := allocate_eq_ok hallocate
    have hsmall : stack.size < wordSize * (firstFrame Machine.entryPoints entry extras).length := by
      rw [hsize, length_firstFrame]
      exact h
    simp only [KernelStack.withFirstFrame, if_pos hsmall]
    exact ⟨_, rfl⟩

/-! ### Tasks -/

/-- A kernel stack is the last block that was handed out, behind all that had been before. -/
structure OwnStack (l : Launcher) (m m' : Machine) (stack : KernelStack) : Prop where
  size : stack.size = roundUp l.stackSize stackAlign
  fresh : m.heap.next ≤ stack.base
  top : stack.top = m'.heap.next

/-- The address that a state segment names as the kernel stack, in its bytes 4 to 11. -/
def namedStack (segment : Bytes) : Nat :=
  ofLittleEndian ((segment.drop 4).take 8)

/-- What a user task starts with: `image` is what it owns in its space, `userTop` the top of its
user stack, and `argument` the address of its path. -/
structure UserStart (l : Launcher) (m m' : Machine) (t : Task) (entry : Nat) (path : Option String)
    (image : UserImage) (userTop argument : Nat) : Prop extends l.OwnStack m m' t.stack where
  user : t.user = some image
  /-- The pages of the user stack end here, in 64 bits. -/
  userTop_eq : userTop = (image.stack.base + l.userStackPages * pageSize) % 0x10000000000000000
  /-- The space is the clone that was made for it. -/
  cloned : m.cloneSpace.1 = some t.space ∧ ¬ m.Issued (.space t.space)
  begins : Begins t.stack t.stackPointer Machine.entryPoints.userLaunch
    [t.space, userTop, entry, argument, Machine.entryPoints.taskFinished]
  /-- The launch code loads these words into the registers that they are for. -/
  launches : ∀ p : Processor, ∃ p' p'',
    p.resume? Machine.entryPoints t.stack t.stackPointer = some p' ∧
      p'.proceed? Machine.entryPoints t.stack = some p'' ∧
      p''.registers .cr3 = t.space ∧ p''.registers .rcx = userTop ∧
      p''.registers .rdx = entry ∧ p''.registers .rdi = argument
  stackPages : m'.regionAt? t.space image.stack.base = some ⟨l.userStackPages, .userData⟩
  path : m'.Finds t.space argument path
  segment : ∃ record, m'.read? t.space image.segmentPages.base = some record ∧
    namedStack record = canonical t.stack.top ∧
    (Heap.base ≤ t.stack.base → t.stack.top < Heap.base + Heap.range →
      namedStack record = t.stack.top)

theorem canonical_lt (a : Nat) : canonical a < byteSpan 8 := by
  have hspan : byteSpan 8 = 0x10000000000000000 := rfl
  unfold canonical
  dsimp only
  split <;> omega

/-- The record names the stack top behind its first four bytes. -/
theorem namedStack_bytes (top : Nat) :
    namedStack (StateSegment.ofStackTop top).bytes = canonical top := by
  rw [namedStack, StateSegment.bytes, List.append_assoc, List.append_assoc, List.append_assoc,
    List.drop_left' (length_littleEndian 4 0), List.take_left' (length_littleEndian 8 _),
    ofLittleEndian_littleEndian]
  exact Nat.mod_eq_of_lt (canonical_lt top)

theorem canonical_of_range {a : Nat} (h : Heap.base ≤ a) (hlt : a < Heap.base + Heap.range) :
    canonical a = a := by
  rw [Heap.base] at h
  rw [Heap.base, Heap.range] at hlt
  exact canonical_of_ge (by omega) (by omega)

theorem kernelTask_eq_ok {t : Task} (h : l.kernelTask m request entry = (.ok t, m')) :
    l.OwnStack m m' t.stack ∧
      Begins t.stack t.stackPointer entry [Machine.entryPoints.taskFinished] := by
  rw [kernelTask] at h
  rcases hacquire : l.acquire m entry [] with ⟨e | ⟨stack, mailbox⟩, m₁⟩
  · rw [hacquire] at h
    cases h
  · rw [hacquire] at h
    cases h
    have hframed := acquire_eq_ok hacquire
    exact ⟨⟨hframed.size, hframed.fresh, hframed.top⟩,
      begins_of_firstFrame hframed.words hframed.fits⟩

/-- A user task that is built has passed every step: its segment and its stack were mapped, then its
path, and its segment was written once there was a kernel stack. -/
theorem userTaskIn_steps {t : Task} {path : Option String}
    (h : l.userTaskIn m root request entry path = (.ok t, m')) :
    ∃ segment m₁ stack m₂ heap arguments m₃ kernelStack mailbox m₄,
      m.mapPages root segmentPages .kernelData (some userSegmentBase) = (some segment, m₁) ∧
      m₁.mapPages root l.userStackPages .userData (some userStackBase) = (some stack, m₂) ∧
      mapArguments m₂ root path = (.ok arguments, m₃) ∧
      l.acquire m₃ Machine.entryPoints.userLaunch
        (launchWords root ⟨stack, l.userStackPages⟩ entry arguments) =
          (.ok (kernelStack, mailbox), m₄) ∧
      m₄.write root segment (StateSegment.ofStackTop kernelStack.top).bytes = (true, m') ∧
      t = { assemble request kernelStack mailbox with
            space := root
            heap := heap
            user := some
              { root := root
                stack := ⟨stack, l.userStackPages⟩
                segmentPages := ⟨segment, segmentPages⟩
                segment := .ofStackTop kernelStack.top
                arguments := arguments } } := by
  rw [userTaskIn] at h
  rcases hm₁ : m.mapPages root segmentPages .kernelData (some userSegmentBase) with
    ⟨_ | segment, m₁⟩ <;> simp only [hm₁] at h
  · cases h
  rcases hm₂ : m₁.mapPages root l.userStackPages .userData (some userStackBase) with
    ⟨_ | stack, m₂⟩ <;> simp only [hm₂] at h
  · cases h
  rcases hcreate : m₂.createHeap root with _ | heap <;> simp only [hcreate] at h
  · cases h
  rcases hm₃ : mapArguments m₂ root path with ⟨_ | arguments, m₃⟩ <;> simp only [hm₃] at h
  · cases h
  rcases hm₄ : l.acquire m₃ Machine.entryPoints.userLaunch
    (launchWords root ⟨stack, l.userStackPages⟩ entry arguments) with
    ⟨_ | ⟨kernelStack, mailbox⟩, m₄⟩ <;> simp only [hm₄] at h
  · cases h
  rcases hm₅ : m₄.write root segment (StateSegment.ofStackTop kernelStack.top).bytes with
    ⟨_ | _, m₅⟩ <;> simp only [hm₅] at h
  · cases h
  · cases h
    exact ⟨segment, m₁, stack, m₂, heap, arguments, m₃, kernelStack, mailbox, m₄, rfl, hm₂, hm₃,
      hm₄, hm₅, rfl⟩

theorem userTaskIn_eq_ok {m₀ : Machine} {t : Task} {path : Option String}
    (hclone : m₀.cloneSpace = (some root, m)) (hheap : m.heap = m₀.heap)
    (hfresh : ¬ m₀.Issued (.space root))
    (h : l.userTaskIn m root request entry path = (.ok t, m')) :
    ∃ image userTop argument, UserStart l m₀ m' t entry path image userTop argument := by
  obtain ⟨segment, m₁, stack, m₂, heap, arguments, m₃, kernelStack, mailbox, m₄, hsegment, hstack,
    harguments, hacquire, hwrite, rfl⟩ := userTaskIn_steps h
  obtain ⟨rfl, hmaps₁⟩ := Machine.mapPages_eq_some hsegment
  obtain ⟨rfl, hmaps₂⟩ := Machine.mapPages_eq_some hstack
  obtain ⟨hfinds, hplace, hheap₃, hregions₃⟩ := mapArguments_eq_ok harguments
  have hframed := acquire_eq_ok hacquire
  have hwrites := Machine.write_eq_true hwrite
  have hheap₀ : m₃.heap = m₀.heap :=
    hheap₃.trans (hmaps₂.heap.trans (hmaps₁.heap.trans hheap))
  have hregions : ∀ other, m'.regionAt? root other = m₃.regionAt? root other := fun other =>
    (hwrites.regionAt?_eq _ _).trans (hframed.regionAt?_eq _ _)
  have hbegins := begins_of_firstFrame hframed.words hframed.fits
  refine ⟨_, _, (arguments.map Mapping.base).getD 0, ⟨hframed.size, ?_, ?_⟩, rfl, rfl,
    ⟨congrArg Prod.fst hclone, hfresh⟩, hbegins, hbegins.launches, ?_, ?_, _,
    hwrites.read?_self, namedStack_bytes _, fun hbase htop => ?_⟩
  · exact hheap₀ ▸ hframed.fresh
  · exact hframed.top.trans (congrArg Heap.next hwrites.heap.symm)
  · rw [hregions, hregions₃ _ (show canonical userStackBase ≠ userArgumentsBase by decide)]
    exact hmaps₂.regionAt?_self
  · refine hfinds.congr (fun text htext => ?_) hregions
    -- the segment is written to another page
    rw [hwrites.read?_of_ne _ (by rw [hplace text htext]; decide), hframed.read?_eq]
  · rw [namedStack_bytes]
    exact canonical_of_range (Nat.le_trans hbase (Nat.le_add_right _ _)) htop

theorem userTask_eq_ok {t : Task} {path : Option String}
    (h : l.userTask m request entry path = (.ok t, m')) :
    ∃ image userTop argument, UserStart l m m' t entry path image userTop argument := by
  rw [userTask] at h
  rcases hclone : m.cloneSpace with ⟨_ | root, m₁⟩
  · rw [hclone] at h
    cases h
  · rw [hclone] at h
    have hcloned := hclone
    rw [Machine.cloneSpace] at hcloned
    split at hcloned
    · cases hcloned
    · cases hcloned
      exact userTaskIn_eq_ok hclone rfl (Nat.lt_irrefl _) h

/-! ### Stacks that are too small -/

theorem kernelTask_of_small (m : Machine) (request : TaskRequest) (entry : Nat)
    (h : roundUp l.stackSize stackAlign < wordSize * (savedRegisters + 3)) :
    (l.kernelTask m request entry).1 = .error (.allocationFailed .kernelStack) := by
  obtain ⟨m', hacquire⟩ := acquire_of_small m entry [] h
  rw [kernelTask, hacquire]

/-- What comes before the stack does not depend on its size. -/
theorem userTaskIn_of_small (m : Machine) (root : Nat) (request : TaskRequest) (entry : Nat)
    (path : Option String)
    (h : roundUp l.stackSize stackAlign < wordSize * (savedRegisters + 7)) :
    ∃ e, (l.userTaskIn m root request entry path).1 = .error e ∧
      (e = .allocationFailed .kernelStack ∨
        ∀ size, ({ l with stackSize := size }.userTaskIn m root request entry path).1 =
          .error e) := by
  simp only [userTaskIn]
  rcases m.mapPages root segmentPages .kernelData (some userSegmentBase) with ⟨_ | segment, m₁⟩
  · exact ⟨_, rfl, .inr fun _ => rfl⟩
  dsimp only
  rcases m₁.mapPages root l.userStackPages .userData (some userStackBase) with ⟨_ | stack, m₂⟩
  · exact ⟨_, rfl, .inr fun _ => rfl⟩
  dsimp only
  rcases m₂.createHeap root with _ | heap
  · exact ⟨_, rfl, .inr fun _ => rfl⟩
  dsimp only
  rcases mapArguments m₂ root path with ⟨_ | arguments, m₃⟩
  · exact ⟨_, rfl, .inr fun _ => rfl⟩
  dsimp only
  obtain ⟨m₄, hacquire⟩ := acquire_of_small m₃ Machine.entryPoints.userLaunch
    (launchWords root ⟨stack, l.userStackPages⟩ entry arguments) h
  rw [hacquire]
  exact ⟨_, rfl, .inl rfl⟩

theorem userTask_of_small (m : Machine) (request : TaskRequest) (entry : Nat)
    (path : Option String)
    (h : roundUp l.stackSize stackAlign < wordSize * (savedRegisters + 7)) :
    ∃ e, (l.userTask m request entry path).1 = .error e ∧
      (e = .allocationFailed .kernelStack ∨
        ∀ size, ({ l with stackSize := size }.userTask m request entry path).1 = .error e) := by
  simp only [userTask]
  rcases m.cloneSpace with ⟨_ | root, m₁⟩
  · exact ⟨_, rfl, .inr fun _ => rfl⟩
  · exact userTaskIn_of_small m₁ root request entry path h

/-- A task that is built starts where it should. A kernel task is resumed at its entry, and returns
to where tasks are finished. A user task is resumed in the launch code, which finds the root of the
space that was cloned for it, the top of the user stack that is mapped there, the entry and the
address of the path, and its state segment names its kernel stack. A kernel stack that is too small
for the frame is refused, by a user task unless it fails already for another reason. -/
theorem starts_at_entry (l : Launcher) (m : Machine) (request : TaskRequest) (entry : Nat) :
    (∀ t m', l.kernelTask m request entry = (.ok t, m') →
        l.OwnStack m m' t.stack ∧
          Begins t.stack t.stackPointer entry [Machine.entryPoints.taskFinished]) ∧
      (∀ path t m', l.userTask m request entry path = (.ok t, m') →
        ∃ image userTop argument, UserStart l m m' t entry path image userTop argument) ∧
      (roundUp l.stackSize stackAlign < wordSize * (savedRegisters + 3) →
        (l.kernelTask m request entry).1 = .error (.allocationFailed .kernelStack)) ∧
      ∀ path, roundUp l.stackSize stackAlign < wordSize * (savedRegisters + 7) →
        ∃ e, (l.userTask m request entry path).1 = .error e ∧
          (e = .allocationFailed .kernelStack ∨
            ∀ size, ({ l with stackSize := size }.userTask m request entry path).1 = .error e) :=
  ⟨fun _ _ => kernelTask_eq_ok, fun _ _ _ => userTask_eq_ok, kernelTask_of_small m request entry,
    fun path => userTask_of_small m request entry path⟩

/-- The usual sizes are enough for both kinds of tasks, and a stack of 64 bytes is for neither. -/
theorem starts_at_entry_standard :
    let l := ofConfig .standard
    let small := { l with stackSize := 64 }
    let request : TaskRequest := ⟨4, "init", .ui⟩
    let path := some "/bin/init"
    (∃ t m', l.kernelTask .new request 0xc0de = (.ok t, m') ∧
        Begins t.stack t.stackPointer 0xc0de [Machine.entryPoints.taskFinished]) ∧
      (∃ t m' image userTop argument, l.userTask .new request 0x400000 path = (.ok t, m') ∧
        UserStart l .new m' t 0x400000 path image userTop argument) ∧
      (small.kernelTask .new request 0xc0de).1 = .error (.allocationFailed .kernelStack) ∧
      (small.userTask .new request 0x400000 path).1 = .error (.allocationFailed .kernelStack) := by
  intro l small request path
  have hkernel : (l.kernelTask .new request 0xc0de).1.toOption.isSome = true := by
    decide +kernel
  have huser : (l.userTask .new request 0x400000 path).1.toOption.isSome = true := by
    decide +kernel
  refine ⟨?_, ?_, ?_, ?_⟩
  · rcases hresult : l.kernelTask .new request 0xc0de with ⟨e | t, m'⟩
    · rw [hresult] at hkernel
      cases hkernel
    · exact ⟨t, m', rfl, ((starts_at_entry l .new request 0xc0de).1 t m' hresult).2⟩
  · rcases hresult : l.userTask .new request 0x400000 path with ⟨e | t, m'⟩
    · rw [hresult] at huser
      cases huser
    · obtain ⟨image, userTop, argument, hstart⟩ :=
        (starts_at_entry l .new request 0x400000).2.1 path t m' hresult
      exact ⟨t, m', image, userTop, argument, rfl, hstart⟩
  · exact (starts_at_entry small .new request 0xc0de).2.2.1 (by decide)
  · obtain ⟨e, herror, rfl | hall⟩ :=
      (starts_at_entry small .new request 0x400000).2.2.2 path (by decide)
    · exact herror
    · -- with the usual stack there is no error
      have hsame : (l.userTask .new request 0x400000 path).1 = .error e := hall l.stackSize
      rw [hsame] at huser
      cases huser

end Launcher

end Microkernel
