/-
What a log line keeps of its text.

The text of a line comes in fragments. `LongestFit room text p` says that `p` is the longest
beginning of `text` that takes at most `room` bytes.

* **`longestFit_fitting`**: what is kept of one fragment is the longest beginning that fits;
* **`lineOf_begins_with_text`**: a line begins with the longest beginning of its whole text that
  fits, and is no more than that exactly if nothing slips in behind a fragment that was cut;
* **`lineOf_slipping`**: something can slip in.

Design notes: a fragment is cut at a character, which leaves up to three bytes of the line free. A
later fragment that begins with shorter characters fills them.
-/
import Mathlib.Data.List.Induction
import Microkernel.Log.Line

namespace Microkernel.Log

/-- `p` is the longest beginning of a text that takes at most `room` bytes. -/
structure LongestFit (room : Nat) (text p : List Char) : Prop where
  isPrefix : p <+: text
  fits : byteSize p ≤ room
  longest : ∀ q, q <+: text → byteSize q ≤ room → q <+: p

/-! ### One fragment -/

theorem byteSize_eq_utf8ByteSize (cs : List Char) :
    byteSize cs = (String.ofList cs).utf8ByteSize := by
  induction cs with
  | nil => rfl
  | cons c cs ih =>
    have hsplit : String.ofList (c :: cs) = String.singleton c ++ String.ofList cs := by
      rw [String.singleton_eq_ofList, ← String.ofList_append, List.singleton_append]
    rw [byteSize, ih, hsplit, String.utf8ByteSize_append, String.utf8ByteSize_singleton]

@[simp] theorem byteSize_append (a b : List Char) :
    byteSize (a ++ b) = byteSize a + byteSize b := by
  induction a with
  | nil => exact (Nat.zero_add _).symm
  | cons c a ih => rw [List.cons_append, byteSize, byteSize, ih, Nat.add_assoc]

theorem byteSize_replicate (n : Nat) (c : Char) :
    byteSize (List.replicate n c) = n * c.utf8Size := by
  induction n with
  | zero => exact (Nat.zero_mul _).symm
  | succ n ih => rw [List.replicate_succ, byteSize, ih, Nat.succ_mul, Nat.add_comm]

theorem byteSize_fitting_le (room : Nat) (cs : List Char) : byteSize (fitting room cs) ≤ room := by
  induction cs generalizing room with
  | nil => exact Nat.zero_le room
  | cons c cs ih =>
    rw [fitting]
    split
    · rename_i hfits
      have hrest := ih (room - c.utf8Size)
      rw [byteSize]
      omega
    · exact Nat.zero_le room

theorem fitting_isPrefix (room : Nat) (cs : List Char) : fitting room cs <+: cs := by
  induction cs generalizing room with
  | nil => exact List.prefix_refl []
  | cons c cs ih =>
    rw [fitting]
    split
    · exact (List.prefix_cons_inj c).2 (ih _)
    · exact List.nil_prefix

/-- A first part that fits is kept, and what is kept of the rest has the room behind it. -/
theorem fitting_append {room : Nat} {a : List Char} (h : byteSize a ≤ room) (b : List Char) :
    fitting room (a ++ b) = a ++ fitting (room - byteSize a) b := by
  induction a generalizing room with
  | nil => rfl
  | cons c a ih =>
    rw [byteSize] at h
    rw [List.cons_append, fitting, if_pos (Nat.le_of_add_right_le h),
      ih (Nat.le_sub_of_add_le' h), byteSize, Nat.sub_sub, List.cons_append]

theorem fitting_of_le {room : Nat} {cs : List Char} (h : byteSize cs ≤ room) :
    fitting room cs = cs := by
  have hall := fitting_append h []
  rwa [List.append_nil, fitting, List.append_nil] at hall

/-- Nothing behind a part that does not fit is kept. -/
theorem fitting_append_of_lt {room : Nat} {a : List Char} (h : room < byteSize a) (b : List Char) :
    fitting room (a ++ b) = fitting room a := by
  induction a generalizing room with
  | nil => exact absurd h (Nat.not_lt_zero room)
  | cons c a ih =>
    rw [byteSize] at h
    rw [List.cons_append, fitting, fitting]
    split
    · rw [ih (by omega)]
    · rfl

/-- The character that is dropped first needs more than what is left. -/
theorem lt_byteSize_fitting {room : Nat} {cs : List Char} (h : room < byteSize cs) :
    room < byteSize (fitting room cs) + 4 := by
  induction cs generalizing room with
  | nil => exact absurd h (Nat.not_lt_zero room)
  | cons c cs ih =>
    rw [byteSize] at h
    rw [fitting]
    split
    · have hrest := @ih (room - c.utf8Size) (by omega)
      rw [byteSize]
      omega
    · have hsize := c.utf8Size_le_four
      rw [byteSize]
      omega

theorem fitting_eq_nil_iff {room : Nat} {cs : List Char} :
    fitting room cs = [] ↔ ∀ c ∈ cs.head?, room < c.utf8Size := by
  cases cs with
  | nil => simp [fitting]
  | cons c cs => simp [fitting]

theorem longestFit_fitting (room : Nat) (text : List Char) :
    LongestFit room text (fitting room text) where
  isPrefix := fitting_isPrefix room text
  fits := byteSize_fitting_le room text
  longest q hq hfits := by
    obtain ⟨rest, rfl⟩ := hq
    rw [fitting_append hfits]
    exact List.prefix_append q _

/-! ### Fragments one after the other -/

/-- The text that fragments make up. -/
def textOf (fragments : List String) : List Char :=
  (String.join fragments).toList

theorem textOf_append (a b : List String) : textOf (a ++ b) = textOf a ++ textOf b := by
  simp only [textOf, String.toList_join, List.flatMap_append]

theorem textOf_cons (fragment : String) (rest : List String) :
    textOf (fragment :: rest) = fragment.toList ++ textOf rest := by
  simp only [textOf, String.toList_join, List.flatMap_cons]

variable {line : List Char}

theorem byteSize_addFragment_le (h : byteSize line ≤ lineSize) (fragment : String) :
    byteSize (addFragment line fragment) ≤ lineSize := by
  have hroom := byteSize_fitting_le (lineSize - byteSize line) fragment.toList
  rw [addFragment, byteSize_append]
  omega

theorem byteSize_foldl_le (h : byteSize line ≤ lineSize) (fragments : List String) :
    byteSize (fragments.foldl addFragment line) ≤ lineSize := by
  induction fragments generalizing line with
  | nil => exact h
  | cons fragment rest ih => exact ih (byteSize_addFragment_le h fragment)

/-- What is written stays. -/
theorem isPrefix_foldl (line : List Char) (fragments : List String) :
    line <+: fragments.foldl addFragment line := by
  induction fragments generalizing line with
  | nil => exact List.prefix_refl line
  | cons fragment rest ih => exact (List.prefix_append line _).trans (ih _)

/-- Fragments that fit are written in full. -/
theorem foldl_of_le {fragments : List String} (h : byteSize (line ++ textOf fragments) ≤ lineSize) :
    fragments.foldl addFragment line = line ++ textOf fragments := by
  induction fragments generalizing line with
  | nil => exact (List.append_nil line).symm
  | cons fragment rest ih =>
    rw [textOf_cons, ← List.append_assoc] at h ⊢
    have hsize := h
    simp only [byteSize_append] at hsize
    rw [List.foldl_cons, addFragment, fitting_of_le (by omega), ih h]

/-- Fragments add nothing exactly if none of them begins with a character that fits. -/
theorem foldl_eq_self_iff (h : byteSize line ≤ lineSize) {fragments : List String} :
    fragments.foldl addFragment line = line ↔
      ∀ later ∈ fragments, ∀ c ∈ later.toList.head?, lineSize < byteSize line + c.utf8Size := by
  have hroom : ∀ c : Char, lineSize - byteSize line < c.utf8Size ↔
      lineSize < byteSize line + c.utf8Size := by
    intro c
    omega
  induction fragments with
  | nil => simp
  | cons fragment rest ih =>
    have hfirst := @fitting_eq_nil_iff (lineSize - byteSize line) fragment.toList
    simp only [hroom] at hfirst
    rw [List.forall_mem_cons, ← hfirst, List.foldl_cons, addFragment]
    constructor
    · intro hall
      have hnil : fitting (lineSize - byteSize line) fragment.toList = [] := by
        have hprefix :=
          isPrefix_foldl (line ++ fitting (lineSize - byteSize line) fragment.toList) rest
        have hle := hprefix.length_le
        rw [hall, List.length_append] at hle
        exact List.length_eq_zero_iff.1 (by omega)
      rw [hnil, List.append_nil] at hall
      exact ⟨hnil, ih.1 hall⟩
    · rintro ⟨hnil, hrest⟩
      rw [hnil, List.append_nil]
      exact ih.2 hrest

theorem lineOf_append (before after : List String) (cut : String) :
    lineOf (before ++ cut :: after) = after.foldl addFragment (lineOf (before ++ [cut])) := by
  rw [← List.singleton_append, ← List.append_assoc, lineOf, List.foldl_append]
  rfl

/-! ### The fragment that is cut -/

/-- `cut` is the first fragment that does not fit. -/
structure IsCut (before : List String) (cut : String) : Prop where
  fits : byteSize (textOf before) ≤ lineSize
  exceeds : lineSize < byteSize (textOf (before ++ [cut]))

theorem exists_isCut {fragments : List String} (h : lineSize < byteSize (textOf fragments)) :
    ∃ before cut after, fragments = before ++ cut :: after ∧ IsCut before cut := by
  -- the induction is on the end of the text: the last fragment is cut, or an earlier one
  induction fragments using List.reverseRecOn with
  | nil => exact absurd h (Nat.not_lt_zero lineSize)
  | append_singleton fragments last ih =>
    by_cases hbefore : byteSize (textOf fragments) ≤ lineSize
    · exact ⟨fragments, last, [], rfl, hbefore, h⟩
    · obtain ⟨before, cut, after, rfl, hcut⟩ := ih (Nat.lt_of_not_le hbefore)
      exact ⟨before, cut, after ++ [last], by simp, hcut⟩

namespace IsCut

variable {before after : List String} {cut : String}

/-- A line up to the fragment that is cut. -/
theorem lineOf_eq (h : IsCut before cut) :
    lineOf (before ++ [cut]) = fitting lineSize (textOf (before ++ [cut])) := by
  have hbefore : before.foldl addFragment [] = textOf before :=
    @foldl_of_le [] _ h.fits
  have hcut : textOf [cut] = cut.toList := by rw [textOf_cons]; exact List.append_nil _
  rw [lineOf, List.foldl_append, hbefore, textOf_append, fitting_append h.fits, hcut]
  rfl

/-- What fits of the whole text ends in the fragment that is cut. -/
theorem fitting_eq (h : IsCut before cut) (after : List String) :
    fitting lineSize (textOf (before ++ cut :: after)) = lineOf (before ++ [cut]) := by
  rw [h.lineOf_eq, ← List.singleton_append, ← List.append_assoc, textOf_append _ after,
    fitting_append_of_lt h.exceeds]

end IsCut

/-- No fragment behind one that was cut begins with a character that fits into what was left. -/
def StaysCut (fragments : List String) : Prop :=
  ∀ before cut after, fragments = before ++ cut :: after → IsCut before cut →
    ∀ later ∈ after, ∀ c ∈ later.toList.head?,
      lineSize < byteSize (lineOf (before ++ [cut])) + c.utf8Size

/-- A line begins with as much of its text as fits, cut at a character, and never has more than
`lineSize` bytes. At most three bytes follow. Nothing follows, and the line is the longest beginning
of its text that fits, exactly if no fragment behind the one that was cut begins with a character
that still fits. -/
theorem lineOf_begins_with_text (fragments : List String) :
    ∃ p, LongestFit lineSize (textOf fragments) p ∧ p <+: lineOf fragments ∧
      (String.ofList (lineOf fragments)).utf8ByteSize ≤ lineSize ∧
      (String.ofList (lineOf fragments)).utf8ByteSize ≤ (String.ofList p).utf8ByteSize + 3 ∧
      (lineOf fragments = p ↔ StaysCut fragments) := by
  have hsize : byteSize (lineOf fragments) ≤ lineSize :=
    @byteSize_foldl_le [] (Nat.zero_le _) fragments
  simp only [← byteSize_eq_utf8ByteSize]
  refine ⟨_, longestFit_fitting lineSize (textOf fragments), ?_⟩
  by_cases hfits : byteSize (textOf fragments) ≤ lineSize
  · -- all is written, and nothing is cut
    have hall : lineOf fragments = textOf fragments := @foldl_of_le [] _ hfits
    rw [fitting_of_le hfits, hall]
    refine ⟨List.prefix_refl _, hfits, Nat.le_add_right _ _, iff_of_true rfl ?_⟩
    intro before cut after hsplit hcut
    have hexceeds := hcut.exceeds
    rw [hsplit, ← List.singleton_append, ← List.append_assoc, textOf_append, byteSize_append]
      at hfits
    omega
  · have hlt := Nat.lt_of_not_le hfits
    have hleft := lt_byteSize_fitting hlt
    obtain ⟨before, cut, after, rfl, hcut⟩ := exists_isCut hlt
    have hline := lineOf_append before after cut
    have hp := hcut.fitting_eq after
    have hsettled : byteSize (lineOf (before ++ [cut])) ≤ lineSize := by
      rw [← hp]
      exact byteSize_fitting_le _ _
    rw [hp] at hleft ⊢
    refine ⟨?_, hsize, by omega, fun heq => ?_, fun hstays => ?_⟩
    · rw [hline]
      exact isPrefix_foldl _ after
    · intro before' cut' after' hsplit hcut'
      have hp' := hcut'.fitting_eq after'
      rw [← hsplit, hp] at hp'
      have heq' := lineOf_append before' after' cut'
      rw [← hsplit, heq, hp'] at heq'
      exact (foldl_eq_self_iff (hp' ▸ hsettled)).1 heq'.symm
    · rw [hline]
      exact (foldl_eq_self_iff hsettled).2 (hstays before cut after rfl hcut)

/-- The line is one byte short of its size. -/
def padding : List Char :=
  List.replicate 511 'x'

/-- A character of two bytes is dropped from the line, and then a shorter one comes. -/
def slipping : List String :=
  [String.ofList padding, "é", "a"]

/-- The line goes on behind what was dropped, so it is not even a beginning of its text. -/
theorem lineOf_slipping :
    textOf slipping = padding ++ ['é', 'a'] ∧ lineOf slipping = padding ++ ['a'] ∧
      ¬ LongestFit lineSize (textOf slipping) (lineOf slipping) := by
  have hsize : byteSize padding = 511 := byteSize_replicate 511 'x'
  have hbefore : textOf [String.ofList padding] = padding := by
    rw [textOf_cons, String.toList_ofList]
    exact List.append_nil _
  have htext : textOf slipping = padding ++ ['é', 'a'] := by
    rw [slipping, textOf_cons, String.toList_ofList]
    rfl
  have hline : lineOf slipping = padding ++ ['a'] := by
    have hcut : lineOf [String.ofList padding, "é"] = padding := by
      rw [lineOf, List.foldl_cons, addFragment, String.toList_ofList, List.nil_append,
        fitting_of_le (by rw [hsize]; decide), List.foldl_cons, addFragment, hsize]
      exact List.append_nil _
    refine (lineOf_append [String.ofList padding] ["a"] "é").trans ?_
    rw [List.singleton_append, hcut, List.foldl_cons, addFragment, hsize]
    rfl
  refine ⟨htext, hline, fun hlongest => ?_⟩
  have hprefix := hlongest.isPrefix
  rw [hline, htext, List.prefix_append_right_inj] at hprefix
  exact absurd hprefix (by decide)

end Microkernel.Log
