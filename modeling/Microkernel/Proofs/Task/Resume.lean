/-
What a new task finds on its stack.

`s.Rests address words` says that the words of a kernel stack from an address up to its top are
these. A stack rests with its first frame on it, and each piece of code that resumes a new task
takes some of the words and leaves the others.

* **`KernelStack.bounds_of_wordAt?`**: a word that was pushed lies in the memory of its stack;
* **`resume?_firstFrame`**: a switch to a first frame comes to the entry, with interrupts let
  through, and what rests on the stack are the extra words and where the entry returns to;
* **`proceed?_userLaunch`**: the launch code takes the four extra words of a user task, in order.

Design notes: the contract of a piece of code is about any words behind those that it takes, so that
the pieces follow each other without looking at the frame as a whole.
-/
import Microkernel.Task.Resume

namespace Microkernel

namespace KernelStack

variable {s : KernelStack} {address word : Nat} {words rest : List Nat}

/-- The words from an address up to the top of a stack. -/
structure Rests (s : KernelStack) (address : Nat) (words : List Nat) : Prop where
  top : address + wordSize * words.length = s.top
  wordAt? : ∀ index, index < words.length → s.wordAt? (address + wordSize * index) = words[index]?

/-- The words that were pushed lie below the top, one behind the other. -/
theorem rests_pointer (h : wordSize * s.words.length ≤ s.size) :
    s.Rests (s.pointer.address s.top) s.words where
  top := by
    have htop : s.size ≤ s.top := Nat.le_add_left _ _
    rw [pointer, StackPointer.address]
    omega
  wordAt? index _ := by
    rw [KernelStack.wordAt?, Nat.add_sub_cancel_left, Nat.mul_mod_right,
      Nat.mul_div_cancel_left _ (by decide)]
    exact if_pos ⟨Nat.le_add_right _ _, rfl⟩

theorem bounds_of_wordAt? (h : wordSize * s.words.length ≤ s.size)
    (hword : s.wordAt? address = some word) : s.base ≤ address ∧ address + wordSize ≤ s.top := by
  rw [KernelStack.wordAt?] at hword
  split at hword
  · rename_i haddress
    obtain ⟨hindex, -⟩ := List.getElem?_eq_some_iff.1 hword
    have htop : s.top = s.base + s.size := rfl
    rw [pointer, StackPointer.address, wordSize] at haddress hindex
    rw [wordSize] at h ⊢
    omega
  · cases hword

theorem Rests.head (h : s.Rests address (word :: rest)) : s.wordAt? address = some word :=
  h.wordAt? 0 (Nat.succ_pos _)

theorem Rests.tail (h : s.Rests address (word :: rest)) : s.Rests (address + wordSize) rest where
  top := by
    have htop := h.top
    rw [List.length_cons, Nat.mul_succ] at htop
    omega
  wordAt? index hindex := by
    have hnext := h.wordAt? (index + 1) (Nat.succ_lt_succ hindex)
    rw [List.getElem?_cons_succ, Nat.mul_succ] at hnext
    rw [← hnext]
    congr 1
    omega

end KernelStack

open KernelStack

namespace Processor

variable {s : KernelStack} {p : Processor} {code root top entry argument : Nat} {rest : List Nat}

/-! ### The pieces of code -/

theorem run?_switchCode
    (h : s.Rests p.stackPointer (List.replicate savedRegisters 0 ++ code :: rest)) :
    ∃ p', p.run? s switchCode = some p' ∧ p'.counter = code ∧ s.Rests p'.stackPointer rest := by
  have h₁ := h.tail
  have h₂ := h₁.tail
  have h₃ := h₂.tail
  have h₄ := h₃.tail
  have h₅ := h₄.tail
  have h₆ := h₅.tail
  simp [run?, switchCode, step?, pop?, load, h.head, h₁.head, h₂.head, h₃.head, h₄.head, h₅.head,
    h₆.head, h₆.tail]

theorem run?_startCode (h : s.Rests p.stackPointer (entry :: rest)) :
    ∃ p', p.run? s startCode = some p' ∧ p'.counter = entry ∧ p'.interruptsEnabled = true ∧
      s.Rests p'.stackPointer rest := by
  simp [run?, startCode, step?, pop?, load, h.head, h.tail]

theorem run?_launchCode (h : s.Rests p.stackPointer (root :: top :: entry :: argument :: rest)) :
    ∃ p', p.run? s launchCode = some p' ∧ p'.registers .cr3 = root ∧ p'.registers .rcx = top ∧
      p'.registers .rdx = entry ∧ p'.registers .rdi = argument ∧
      s.Rests p'.stackPointer rest := by
  have h₁ := h.tail
  have h₂ := h₁.tail
  have h₃ := h₂.tail
  simp [run?, launchCode, step?, pop?, load, h.head, h₁.head, h₂.head, h₃.head, h₃.tail]

/-! ### One piece after the other -/

/-- Each saved register takes a word, the return the start code, and the start code the entry. -/
theorem resume?_firstFrame {entries : EntryPoints} {extras : List Nat}
    (hwords : s.words = firstFrame entries entry extras)
    (hfits : wordSize * s.words.length ≤ s.size) (p : Processor) :
    ∃ p', p.resume? entries s s.pointer = some p' ∧ p'.counter = entry ∧
      p'.interruptsEnabled = true ∧ s.Rests p'.stackPointer (extras ++ [entries.taskFinished]) := by
  have hframe := rests_pointer hfits
  rw [hwords, firstFrame, List.append_assoc, List.cons_append, List.cons_append] at hframe
  obtain ⟨p₁, hswitch, hstart, hrest⟩ :=
    run?_switchCode (p := { p with stackPointer := s.pointer.address s.top }) hframe
  obtain ⟨p₂, hrun, hentry, hinterrupts, hextras⟩ := run?_startCode hrest
  refine ⟨p₂, ?_, hentry, hinterrupts, hextras⟩
  have hcode : codeAt entries p₁.counter = some startCode := if_pos hstart
  rw [resume?, hswitch, Option.bind_eq_bind, Option.bind_some, proceed?, hcode, Option.bind_eq_bind,
    Option.bind_some, hrun]

theorem proceed?_userLaunch {entries : EntryPoints}
    (hother : entries.userLaunch ≠ entries.taskStart) (hcounter : p.counter = entries.userLaunch)
    (h : s.Rests p.stackPointer (root :: top :: entry :: argument :: rest)) :
    ∃ p', p.proceed? entries s = some p' ∧ p'.registers .cr3 = root ∧ p'.registers .rcx = top ∧
      p'.registers .rdx = entry ∧ p'.registers .rdi = argument ∧
      s.Rests p'.stackPointer rest := by
  have hcode : codeAt entries p.counter = some launchCode := by
    rw [codeAt, hcounter, if_neg hother, if_pos rfl]
  rw [proceed?, hcode]
  exact run?_launchCode h

end Processor

end Microkernel
