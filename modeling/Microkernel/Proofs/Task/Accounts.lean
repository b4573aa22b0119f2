/-
What tasks cost the machine.

A task that exists uses a block of the kernel's heap, and a user task claims an address space with
its mappings (`Claim`). `m.Accounts n claims` says that exactly `n` blocks are in use, that the user
spaces are those that are claimed and map what is claimed, and that the pages that are counted as
mapped are those of the claims.

* **`Accounts.mapPages`**, **`Accounts.unmapPages`** and so on: one lemma for each primitive of the
  machine;
* **`Accounts.releaseSpace`**: a claim is given back as a whole;
* **`Accounts.userTask`**: a user task that cannot be built has given back whatever it had.
-/
import Mathlib.Algebra.Ring.Nat
import Microkernel.Proofs.Task.Launch

namespace Microkernel

/-- What a space maps. -/
def AddressSpace.mappings (space : AddressSpace) : List Mapping :=
  (space.regions.map fun base region => (⟨base, region.pages⟩ : Mapping)).values

/-- An address space and what it maps. -/
structure Claim where
  root : Nat
  mappings : List Mapping

def Claim.pages (claim : Claim) : Nat :=
  (claim.mappings.map Mapping.pages).sum

theorem Claim.pages_cons (root : Nat) (p : Mapping) (mappings : List Mapping) :
    Claim.pages ⟨root, p :: mappings⟩ = p.pages + Claim.pages ⟨root, mappings⟩ :=
  List.sum_cons

namespace Machine

variable {m m' : Machine} {n root : Nat} {claim : Claim} {claims : List Claim}
  {mappings mappings' : List Mapping}

/-- The claimed space is a user space and maps what is claimed. -/
structure Backs (m : Machine) (claim : Claim) : Prop where
  space : ∃ space, m.spaces.get? claim.root = some space ∧ space.isUser = true ∧
    space.mappings.Perm claim.mappings
  canonical : ∀ p ∈ claim.mappings, canonical p.base = p.base

/-- The blocks of the kernel's heap and the user spaces in use. -/
structure Accounts (n : Nat) (claims : List Claim) (m : Machine) : Prop where
  blocks : m.heap.live = n
  spaces : m.userSpaces = claims.length
  pages : m.userPages = (claims.map Claim.pages).sum
  backed : ∀ claim ∈ claims, m.Backs claim
  /-- No space is claimed twice. -/
  distinct : (claims.map Claim.root).Nodup
  fresh : ∀ root, m.nextRoot ≤ root → m.spaces.get? root = none
  kernel : (m.spaces.get? kernelRoot).map AddressSpace.isUser = some false

theorem accounts_new : Accounts 0 [] .new := by
  refine ⟨rfl, by decide, rfl, fun claim hclaim => (by cases hclaim), List.nodup_nil,
    fun root hroot => ?_, rfl⟩
  have hne : root ≠ kernelRoot := by
    rintro rfl
    exact absurd hroot (by decide)
  exact (Table.get?_insert _ _ _ _).trans (if_neg hne)

namespace Accounts

/-- Another number of blocks is in use, and the spaces are the same. -/
theorem withBlocks (h : m.Accounts n claims) {n' : Nat} (hblocks : m'.heap.live = n')
    (hspaces : m'.spaces = m.spaces) (hroots : m'.nextRoot = m.nextRoot)
    (hpages : m'.userPages = m.userPages) : m'.Accounts n' claims where
  blocks := hblocks
  spaces := by rw [userSpaces, hspaces]; exact h.spaces
  pages := hpages.trans h.pages
  backed claim hclaim :=
    ⟨hspaces ▸ (h.backed claim hclaim).space, (h.backed claim hclaim).canonical⟩
  distinct := h.distinct
  fresh root hroot := hspaces ▸ h.fresh root (hroots ▸ hroot)
  kernel := hspaces ▸ h.kernel

/-- Only the memory of the machine matters. -/
theorem congr (h : m.Accounts n claims) (hmemory : m'.memory = m.memory) :
    m'.Accounts n claims := by
  obtain ⟨hheap, hspaces, hroots, hpages⟩ := Memory.mk.inj hmemory
  exact h.withBlocks (hheap ▸ h.blocks) hspaces hroots hpages

theorem perm {claims' : List Claim} (h : m.Accounts n claims) (hperm : claims.Perm claims') :
    m.Accounts n claims' :=
  ⟨h.blocks, h.spaces.trans hperm.length_eq, h.pages.trans (hperm.map _).sum_nat,
    fun claim hclaim => h.backed claim (hperm.mem_iff.2 hclaim),
    (hperm.map Claim.root).nodup_iff.1 h.distinct, h.fresh, h.kernel⟩

/-! ### Address spaces -/

theorem root_ne_kernelRoot (h : m.Accounts n claims) (hclaim : claim ∈ claims) :
    claim.root ≠ kernelRoot := by
  intro hroot
  obtain ⟨space, hspace, huser, -⟩ := (h.backed claim hclaim).space
  have hkernel := h.kernel
  rw [← hroot, hspace, Option.map_some, huser] at hkernel
  cases hkernel

theorem root_lt (h : m.Accounts n claims) (hclaim : claim ∈ claims) : claim.root < m.nextRoot := by
  obtain ⟨space, hspace, -⟩ := (h.backed claim hclaim).space
  refine Nat.lt_of_not_le fun hroot => ?_
  rw [h.fresh _ hroot] at hspace
  cases hspace

/-- Each claim has a space of its own. -/
theorem root_ne (h : m.Accounts n (⟨root, mappings⟩ :: claims)) (hclaim : claim ∈ claims) :
    claim.root ≠ root := by
  intro hroot
  exact (List.nodup_cons.1 h.distinct).1 (List.mem_map.2 ⟨claim, hclaim, hroot⟩)

/-- Whether a space is a user space does not depend on what it maps. -/
theorem userSpaces_insert {space space' : AddressSpace} (hspace : m.spaces.get? root = some space)
    (huser : space'.isUser = space.isUser) :
    (m.spaces.insert root space').values.countP AddressSpace.isUser = m.userSpaces := by
  have hsame : (m.spaces.insert root space').values.map AddressSpace.isUser =
      m.spaces.values.map AddressSpace.isUser := by
    refine Table.map_values_congr fun j => ?_
    rw [Table.get?_insert]
    split
    · rename_i hj
      rw [hj, hspace, Option.map_some, Option.map_some, huser]
    · rfl
  have hcount : ∀ l : List AddressSpace, l.countP AddressSpace.isUser =
      (l.map AddressSpace.isUser).countP id := by
    intro l
    rw [List.countP_map]
    rfl
  rw [userSpaces, hcount, hsame, ← hcount]

/-- A new user space maps nothing. -/
theorem cloneSpace (h : m.Accounts n claims) :
    match m.cloneSpace with
    | (some root, m') => m'.Accounts n (⟨root, []⟩ :: claims)
    | (none, m') => m'.Accounts n claims := by
  rw [Machine.cloneSpace]
  by_cases hfault : m.faults.clone = true
  · rw [if_pos hfault]
    exact h
  rw [if_neg hfault]
  have hget := Table.get?_insert m.spaces m.nextRoot (.new true)
  have hother : ∀ root, root ≠ m.nextRoot →
      (m.spaces.insert m.nextRoot (.new true)).get? root = m.spaces.get? root :=
    fun root hne => (hget root).trans (if_neg hne)
  refine ⟨h.blocks, ?_, h.pages.trans (Nat.zero_add _).symm, fun claim hclaim => ?_, ?_,
    fun root hroot => ?_, ?_⟩
  · have hperm := Table.perm_values_insert (h.fresh m.nextRoot (Nat.le_refl _)) (.new true)
    have hspaces : m.spaces.values.countP AddressSpace.isUser = claims.length := h.spaces
    show (m.spaces.insert m.nextRoot (.new true)).values.countP AddressSpace.isUser = _
    rw [hperm.countP_eq, List.countP_cons, hspaces]
    rfl
  · rcases List.mem_cons.1 hclaim with rfl | hclaim
    · exact ⟨⟨.new true, (hget _).trans (if_pos rfl), rfl, .refl _⟩, fun p hp => by cases hp⟩
    · obtain ⟨⟨space, hspace, hspaces⟩, hcanonical⟩ := h.backed claim hclaim
      have hne := Nat.ne_of_lt (h.root_lt hclaim)
      exact ⟨⟨space, (hother _ hne).trans hspace, hspaces⟩, hcanonical⟩
  · refine List.nodup_cons.2 ⟨fun hin => ?_, h.distinct⟩
    obtain ⟨claim, hclaim, hroot⟩ := List.mem_map.1 hin
    exact Nat.ne_of_lt (h.root_lt hclaim) hroot
  · have hroot : m.nextRoot + rootStep ≤ root := hroot
    have hstep : 0 < rootStep := by decide
    exact (hother root (by omega)).trans (h.fresh root (by omega))
  · have hne : kernelRoot ≠ m.nextRoot := by
      intro hroot
      have hkernel := h.kernel
      rw [h.fresh kernelRoot (Nat.le_of_eq hroot.symm)] at hkernel
      cases hkernel
    show ((m.spaces.insert m.nextRoot (.new true)).get? kernelRoot).map AddressSpace.isUser = _
    rw [hother _ hne]
    exact h.kernel

/-- The space of a claim maps something else. -/
theorem remap (h : m.Accounts n (⟨root, mappings⟩ :: claims)) (space : AddressSpace)
    (huser : space.isUser = true) (hmaps : space.mappings.Perm mappings')
    (hcanonical : ∀ p ∈ mappings', canonical p.base = p.base) (hheap : m'.heap = m.heap)
    (hspaces : m'.spaces = m.spaces.insert root space) (hroots : m'.nextRoot = m.nextRoot)
    (hpages : m'.userPages + Claim.pages ⟨root, mappings⟩ =
      m.userPages + Claim.pages ⟨root, mappings'⟩) :
    m'.Accounts n (⟨root, mappings'⟩ :: claims) := by
  have hget : ∀ j, m'.spaces.get? j = if j = root then some space else m.spaces.get? j := by
    intro j
    rw [hspaces, Table.get?_insert]
  obtain ⟨before, hbefore, hbeforeUser, -⟩ := (h.backed _ List.mem_cons_self).space
  have hlt := h.root_lt List.mem_cons_self
  have hkernel := h.root_ne_kernelRoot List.mem_cons_self
  refine ⟨hheap ▸ h.blocks, ?_, ?_, fun claim hclaim => ?_, h.distinct, fun j hj => ?_, ?_⟩
  · rw [userSpaces, hspaces, userSpaces_insert hbefore (huser.trans hbeforeUser.symm), h.spaces]
    rfl
  · have htotal := h.pages
    rw [List.map_cons, List.sum_cons] at htotal ⊢
    omega
  · rcases List.mem_cons.1 hclaim with rfl | hclaim
    · exact ⟨⟨space, (hget _).trans (if_pos rfl), huser, hmaps⟩, hcanonical⟩
    · have hbacked := h.backed claim (List.mem_cons_of_mem _ hclaim)
      obtain ⟨⟨other, hother, hothers⟩, hcanonical⟩ := hbacked
      have hne := h.root_ne hclaim
      exact ⟨⟨other, (hget _).trans ((if_neg hne).trans hother), hothers⟩, hcanonical⟩
  · have hne : j ≠ root := by
      rw [hroots] at hj
      rintro rfl
      exact absurd hlt (Nat.not_lt.2 hj)
    rw [hget, if_neg hne]
    exact h.fresh j (hroots ▸ hj)
  · rw [hget, if_neg fun e => hkernel e.symm]
    exact h.kernel

/-- The same mappings in another order. -/
theorem reorder (h : m.Accounts n (⟨root, mappings⟩ :: claims)) (hperm : mappings.Perm mappings') :
    m.Accounts n (⟨root, mappings'⟩ :: claims) := by
  obtain ⟨space, hspace, huser, hmaps⟩ := (h.backed _ List.mem_cons_self).space
  have hsame : m.spaces.insert root space = m.spaces := by
    refine Table.ext_get? fun j => ?_
    rw [Table.get?_insert]
    split
    · rename_i hj
      rw [hj, hspace]
    · rfl
  refine h.remap space huser (hmaps.trans hperm) (fun p hp => ?_) rfl hsame.symm rfl ?_
  · exact (h.backed _ List.mem_cons_self).canonical p (hperm.mem_iff.2 hp)
  · exact congrArg (m.userPages + ·) (hperm.map Mapping.pages).sum_nat

/-- A region is mapped at a fixed place, or nothing has changed. -/
theorem mapPages (h : m.Accounts n (⟨root, mappings⟩ :: claims)) (count : Nat) (rights : PageRights)
    (address : Nat) :
    match m.mapPages root count rights (some address) with
    | (some base, m') => m'.Accounts n (⟨root, ⟨base, count⟩ :: mappings⟩ :: claims)
    | (none, m') => m'.Accounts n (⟨root, mappings⟩ :: claims) := by
  obtain ⟨space, hspace, huser, hmaps⟩ := (h.backed _ List.mem_cons_self).space
  have hcanonical := (h.backed _ List.mem_cons_self).canonical
  rw [Machine.mapPages]
  by_cases hfault : count = 0 ∨ m.faults.userPages = true
  · rw [if_pos hfault]
    exact h
  rw [if_neg hfault, hspace]
  dsimp only
  by_cases htaken : space.regions.contains (canonical address) = true
  · rw [if_pos htaken]
    exact h.remap space huser hmaps hcanonical rfl rfl rfl rfl
  rw [if_neg htaken, if_pos huser, canonical_canonical]
  refine h.remap { space with
    regions := space.regions.insert (canonical address) ⟨count, rights⟩ } huser ?_ (fun p hp => ?_)
    rfl rfl rfl ?_
  · have hnone : (space.regions.map fun base region => (⟨base, region.pages⟩ : Mapping)).get?
        (canonical address) = none := by
      rw [Table.get?_map, Option.map_eq_none_iff]
      exact Option.not_isSome_iff_eq_none.1 htaken
    rw [AddressSpace.mappings, Table.map_insert]
    exact (Table.perm_values_insert hnone _).trans (hmaps.cons _)
  · rcases List.mem_cons.1 hp with rfl | hp
    · exact canonical_canonical address
    · exact hcanonical p hp
  · show m.userPages + count + Claim.pages ⟨root, mappings⟩ = _
    rw [Claim.pages_cons, Nat.add_assoc]

/-- A region is given back. -/
theorem unmapPages {p : Mapping} (h : m.Accounts n (⟨root, p :: mappings⟩ :: claims)) :
    (m.unmapPages root p.base p.pages).Accounts n (⟨root, mappings⟩ :: claims) := by
  obtain ⟨space, hspace, huser, hmaps⟩ := (h.backed _ List.mem_cons_self).space
  have hcanonical := (h.backed _ List.mem_cons_self).canonical
  have hbase := hcanonical p List.mem_cons_self
  have hregion : ∃ region, space.regions.get? p.base = some region ∧ region.pages = p.pages := by
    have hin : p ∈ space.mappings := hmaps.mem_iff.2 List.mem_cons_self
    obtain ⟨base, hbase⟩ := Table.mem_values.1 hin
    rw [Table.get?_map, Option.map_eq_some_iff] at hbase
    obtain ⟨region, hregion, rfl⟩ := hbase
    exact ⟨region, hregion, rfl⟩
  obtain ⟨region, hregion, hpages⟩ := hregion
  have hgiven : (space.isUser && (space.regions.get? p.base).any (·.pages == p.pages)) = true := by
    rw [huser, hregion]
    simp [hpages]
  simp only [Machine.unmapPages, hspace, hbase, hgiven, if_true]
  refine h.remap { space with regions := space.regions.erase p.base } huser ?_
    (fun q hq => hcanonical q (List.mem_cons_of_mem _ hq)) rfl rfl rfl ?_
  · have hfound : (space.regions.map fun base region => (⟨base, region.pages⟩ : Mapping)).get?
        p.base = some p := by
      rw [Table.get?_map, hregion, Option.map_some, hpages]
    have herased := (Table.perm_values_erase hfound).trans hmaps
    rw [AddressSpace.mappings, Table.map_erase]
    exact herased.cons_inv
  · have htotal := h.pages
    rw [List.map_cons, List.sum_cons, Claim.pages_cons] at htotal
    show m.userPages - p.pages + Claim.pages ⟨root, p :: mappings⟩ = _
    rw [Claim.pages_cons]
    omega

/-- A space that maps nothing is given back. -/
theorem dropSpace (h : m.Accounts n (⟨root, []⟩ :: claims)) :
    (m.dropSpace root).Accounts n claims := by
  obtain ⟨space, hspace, huser, -⟩ := (h.backed _ List.mem_cons_self).space
  have hne := h.root_ne_kernelRoot List.mem_cons_self
  rw [Machine.dropSpace, if_neg hne]
  have hother : ∀ j, j ≠ root → (m.spaces.erase root).get? j = m.spaces.get? j :=
    fun j hj => (Table.get?_erase m.spaces root j).trans (if_neg hj)
  refine ⟨h.blocks, ?_, h.pages.trans (Nat.zero_add _), fun claim hclaim => ?_,
    (List.nodup_cons.1 h.distinct).2, fun j hj => ?_, ?_⟩
  · have hperm := (Table.perm_values_erase hspace).countP_eq AddressSpace.isUser
    have hspaces : m.spaces.values.countP AddressSpace.isUser = claims.length + 1 := h.spaces
    rw [List.countP_cons, huser, if_pos rfl, hspaces] at hperm
    exact Nat.add_right_cancel hperm
  · obtain ⟨⟨other, hfound, hothers⟩, hcanonical⟩ := h.backed claim (List.mem_cons_of_mem _ hclaim)
    exact ⟨⟨other, (hother _ (h.root_ne hclaim)).trans hfound, hothers⟩, hcanonical⟩
  · by_cases hroot : j = root
    · rw [hroot, Table.get?_erase, if_pos rfl]
    · exact (hother j hroot).trans (h.fresh j hj)
  · show ((m.spaces.erase root).get? kernelRoot).map AddressSpace.isUser = _
    rw [hother _ fun e => hne e.symm]
    exact h.kernel

/-- A space is given back with all that it maps. -/
theorem releaseSpace (h : m.Accounts n (⟨root, mappings⟩ :: claims)) :
    (Microkernel.releaseSpace root mappings m).Accounts n claims := by
  rw [Microkernel.releaseSpace]
  induction mappings generalizing m with
  | nil => exact h.dropSpace
  | cons p mappings ih => exact ih h.unmapPages

theorem write (h : m.Accounts n claims) (root base : Nat) (bytes : Bytes) :
    (m.write root base bytes).2.Accounts n claims := by
  refine h.congr ?_
  simp only [Machine.write]
  split
  · rfl
  · split <;> rfl

/-! ### The kernel's heap -/

theorem allocate (h : m.Accounts n claims) (align size : Nat) :
    match m.allocate .kernel align size with
    | (some _, m') => m'.Accounts (n + 1) claims
    | (none, m') => m'.Accounts n claims := by
  rw [Machine.allocate]
  by_cases hfault : HeapSource.kernel = .kernel ∧ m.faults.kernelHeap = true
  · rw [if_pos hfault]
    exact h
  rw [if_neg hfault]
  cases m.heap.place? align size with
  | none => exact h
  | some start => exact h.withBlocks (congrArg (· + 1) h.blocks) rfl rfl rfl

theorem free (h : m.Accounts (n + 1) claims) : (m.free .kernel).Accounts n claims := by
  rw [Machine.free, if_pos rfl]
  exact h.withBlocks (congrArg (· - 1) h.blocks) rfl rfl rfl

end Accounts

end Machine

/-! ### Building tasks -/

namespace Machine.Accounts

variable {l : Launcher} {m : Machine} {n root : Nat} {claims : List Claim} {mappings : List Mapping}

theorem acquire (h : m.Accounts n claims) (entry : Nat) (extras : List Nat) :
    match l.acquire m entry extras with
    | (.ok _, m') => m'.Accounts (n + 1) claims
    | (.error _, m') => m'.Accounts n claims := by
  have hallocated := h.allocate stackAlign (roundUp l.stackSize stackAlign)
  rw [Launcher.acquire, KernelStack.allocate]
  rcases hm : m.allocate .kernel stackAlign (roundUp l.stackSize stackAlign) with ⟨base, m₁⟩
  rw [hm] at hallocated
  cases base with
  | none => exact hallocated
  | some base =>
    simp only [KernelStack.withFirstFrame]
    by_cases hfit : roundUp l.stackSize stackAlign <
        wordSize * (KernelStack.firstFrame Machine.entryPoints entry extras).length
    · rw [if_pos hfit]
      exact hallocated.free
    · rw [if_neg hfit]
      simp only [Mailbox.withCapacity]
      by_cases hlimit : l.mailboxSize < Mailbox.capacityLimit
      · rw [if_pos hlimit]
        exact hallocated
      · rw [if_neg hlimit]
        exact hallocated.free

theorem mapArguments (h : m.Accounts n (⟨root, mappings⟩ :: claims)) (path : Option String) :
    match Launcher.mapArguments m root path with
    | (.ok arguments, m') => m'.Accounts n (⟨root, mappings ++ arguments.toList⟩ :: claims)
    | (.error _, m') => m'.Accounts n (⟨root, mappings⟩ :: claims) := by
  cases path with
  | none =>
    show m.Accounts n (⟨root, mappings ++ []⟩ :: claims)
    rw [List.append_nil]
    exact h
  | some path =>
    have hmapped := h.mapPages (((Launcher.pathBytes path).length + pageSize - 1) / pageSize)
      .userData userArgumentsBase
    simp only [Launcher.mapArguments, Launcher.mapPath]
    rcases hm : m.mapPages root (((Launcher.pathBytes path).length + pageSize - 1) / pageSize)
      .userData (some userArgumentsBase) with ⟨base, m₁⟩
    rw [hm] at hmapped
    cases base with
    | none => exact hmapped
    | some base =>
      have hwritten := hmapped.write root base (Launcher.pathBytes path)
      rcases hw : m₁.write root base (Launcher.pathBytes path) with ⟨written, m₂⟩
      rw [hw] at hwritten
      simp only [hw]
      cases written with
      | true =>
        -- the arguments are listed behind what was mapped before
        exact hwritten.reorder (List.perm_append_singleton _ _).symm
      | false => exact hwritten.unmapPages

/-- Whatever fails, the space is given back with all that was mapped until then. -/
theorem userTaskIn (h : m.Accounts n (⟨root, []⟩ :: claims)) (request : TaskRequest) (entry : Nat)
    (path : Option String) :
    match l.userTaskIn m root request entry path with
    | (.ok task, m') => ∃ image, task.user = some image ∧
        m'.Accounts (n + 1) (⟨image.root, image.mappings⟩ :: claims)
    | (.error _, m') => m'.Accounts n claims := by
  -- one case for each allocation that may fail, with what was mapped until then on the claim
  have hsegment := h.mapPages Launcher.segmentPages .kernelData userSegmentBase
  rw [Launcher.userTaskIn]
  rcases hm₁ : m.mapPages root Launcher.segmentPages .kernelData (some userSegmentBase) with
    ⟨base, m₁⟩
  rw [hm₁] at hsegment
  cases base with
  | none => exact hsegment.releaseSpace
  | some segment =>
    have hstack := hsegment.mapPages l.userStackPages .userData userStackBase
    dsimp only
    rcases hm₂ : m₁.mapPages root l.userStackPages .userData (some userStackBase) with ⟨base, m₂⟩
    rw [hm₂] at hstack
    cases base with
    | none => exact hstack.releaseSpace
    | some stack =>
      dsimp only
      cases hheap : m₂.createHeap root with
      | none => exact hstack.releaseSpace
      | some heap =>
        have harguments := hstack.mapArguments path
        dsimp only
        rcases hm₃ : Launcher.mapArguments m₂ root path with ⟨arguments, m₃⟩
        rw [hm₃] at harguments
        cases arguments with
        | error e => exact harguments.releaseSpace
        | ok arguments =>
          have hacquired := harguments.acquire (l := l) Machine.entryPoints.userLaunch
            (Launcher.launchWords root ⟨stack, l.userStackPages⟩ entry arguments)
          dsimp only
          rcases hm₄ : l.acquire m₃ Machine.entryPoints.userLaunch
            (Launcher.launchWords root ⟨stack, l.userStackPages⟩ entry arguments) with ⟨memory, m₄⟩
          rw [hm₄] at hacquired
          cases memory with
          | error e => exact hacquired.releaseSpace
          | ok memory =>
            obtain ⟨kernelStack, mailbox⟩ := memory
            have hwritten := hacquired.write root segment
              (StateSegment.ofStackTop kernelStack.top).bytes
            dsimp only
            rcases hm₅ : m₄.write root segment (StateSegment.ofStackTop kernelStack.top).bytes with
              ⟨written, m₅⟩
            rw [hm₅] at hwritten
            cases written with
            | true => exact ⟨_, rfl, hwritten⟩
            | false => exact hwritten.free.releaseSpace

theorem userTask (h : m.Accounts n claims) (request : TaskRequest) (entry : Nat)
    (path : Option String) :
    match l.userTask m request entry path with
    | (.ok task, m') => ∃ image, task.user = some image ∧
        m'.Accounts (n + 1) (⟨image.root, image.mappings⟩ :: claims)
    | (.error _, m') => m'.Accounts n claims := by
  have hcloned := h.cloneSpace
  rw [Launcher.userTask]
  rcases hm : m.cloneSpace with ⟨root, m₁⟩
  rw [hm] at hcloned
  cases root with
  | none => exact hcloned
  | some root => exact hcloned.userTaskIn request entry path

theorem kernelTask (h : m.Accounts n claims) (request : TaskRequest) (entry : Nat) :
    match l.kernelTask m request entry with
    | (.ok task, m') => task.user = none ∧ m'.Accounts (n + 1) claims
    | (.error _, m') => m'.Accounts n claims := by
  have hacquired := h.acquire (l := l) entry []
  rw [Launcher.kernelTask]
  rcases hm : l.acquire m entry [] with ⟨memory, m₁⟩
  rw [hm] at hacquired
  cases memory with
  | error e => exact hacquired
  | ok memory => exact ⟨rfl, hacquired⟩

end Machine.Accounts

end Microkernel
