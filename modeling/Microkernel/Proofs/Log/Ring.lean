/-
What the ring of log lines retains.

`written lines` is how lines stand in the ring, each with its line feed behind it, and
`newest room lines` are the last of them, as many as fit into `room` bytes together. A ring that
`Holds` lines has them in its bytes, however these lie in the buffer.

* **`Holds.evict`**: pushing out the oldest line takes that line, whole, and nothing else;
* **`Holds.makeRoom`**: room is made by giving up no more lines than necessary;
* **`Holds.push`**, **`holds_pushAll`**: after any number of lines the newest are held.

Design notes: the bounds of a ring (`InBounds`) hold of any bytes. That lines end where the ring
looks for their ends is in `Holds`, whose lines have no line feed of their own.
-/
import Mathlib.Data.List.DropRight
import Mathlib.Order.Bounds.Defs
import Microkernel.Log.Ring

namespace Microkernel.Log

/-- Lines as they stand in the ring. -/
def written (lines : List Bytes) : Bytes :=
  lines.flatMap (· ++ [lineFeed])

theorem written_cons (line : Bytes) (rest : List Bytes) :
    written (line :: rest) = line ++ lineFeed :: written rest := by
  rw [written, List.flatMap_cons, List.append_assoc, List.singleton_append, written]

theorem written_concat (lines : List Bytes) (line : Bytes) :
    written (lines ++ [line]) = written lines ++ (line ++ [lineFeed]) := by
  rw [written, List.flatMap_append, List.flatMap_singleton, written]

theorem length_written_cons (line : Bytes) (rest : List Bytes) :
    (written (line :: rest)).length = line.length + 1 + (written rest).length := by
  rw [written_cons, List.length_append, List.length_cons, Nat.add_assoc, Nat.add_comm 1]

theorem length_written_concat (lines : List Bytes) (line : Bytes) :
    (written (lines ++ [line])).length = (written lines).length + (line.length + 1) := by
  rw [written_concat, List.length_append, List.length_append, List.length_singleton]

/-- Each line takes a byte at least. -/
theorem length_le_length_written (lines : List Bytes) : lines.length ≤ (written lines).length := by
  induction lines with
  | nil => exact Nat.le_refl _
  | cons line rest ih =>
    rw [length_written_cons, List.length_cons]
    omega

/-! ### The newest lines -/

/-- The last lines, as many as fit into `room` bytes. -/
def newest (room : Nat) : List Bytes → List Bytes
  | [] => []
  | line :: rest =>
    if (written (line :: rest)).length ≤ room then line :: rest else newest room rest

theorem newest_isSuffix (room : Nat) (lines : List Bytes) : newest room lines <:+ lines := by
  induction lines with
  | nil => exact List.suffix_refl []
  | cons line rest ih =>
    rw [newest]
    split
    · exact List.suffix_refl _
    · exact ih.trans (List.suffix_cons line rest)

theorem length_written_newest_le (room : Nat) (lines : List Bytes) :
    (written (newest room lines)).length ≤ room := by
  induction lines with
  | nil => exact Nat.zero_le room
  | cons line rest ih =>
    rw [newest]
    split
    · assumption
    · exact ih

theorem newest_of_le {room : Nat} {lines : List Bytes} (h : (written lines).length ≤ room) :
    newest room lines = lines := by
  cases lines with
  | nil => rfl
  | cons line rest => exact if_pos h

/-- Any last lines that fit are among the newest ones. -/
theorem isSuffix_newest {room : Nat} {lines last : List Bytes} (hlast : last <:+ lines)
    (hfits : (written last).length ≤ room) : last <:+ newest room lines := by
  induction lines with
  | nil => exact hlast
  | cons line rest ih =>
    rw [newest]
    split
    · exact hlast
    · rename_i hwhole
      rcases List.suffix_cons_iff.1 hlast with rfl | hrest
      · exact absurd hfits hwhole
      · exact ih hrest

/-- The number of the newest lines is the greatest for which that many last lines fit. -/
theorem isGreatest_length_newest (room : Nat) (lines : List Bytes) :
    IsGreatest {k | k ≤ lines.length ∧ (written (lines.rtake k)).length ≤ room}
      (newest room lines).length := by
  have hsuffix := newest_isSuffix room lines
  have htake : lines.rtake (newest room lines).length = newest room lines :=
    (List.suffix_iff_eq_drop.1 hsuffix).symm
  refine ⟨⟨hsuffix.length_le, ?_⟩, ?_⟩
  · rw [htake]
    exact length_written_newest_le room lines
  · rintro k ⟨hk, hfits⟩
    have hlast : (lines.rtake k).length = k := by
      rw [List.rtake, List.length_drop]
      omega
    rw [← hlast]
    exact (isSuffix_newest (List.drop_suffix _ _) hfits).length_le

theorem newest_newest {a b : Nat} (h : a ≤ b) (lines : List Bytes) :
    newest a (newest b lines) = newest a lines := by
  induction lines with
  | nil => rfl
  | cons line rest ih =>
    rw [newest]
    split
    · rfl
    · rename_i hwhole
      rw [ih, newest, if_neg fun hfits => hwhole (Nat.le_trans hfits h)]

/-- A new line that fits is among the newest, which leaves the others the rest of the room. -/
theorem newest_concat {room : Nat} {line : Bytes} (h : line.length < room) (lines : List Bytes) :
    newest room (lines ++ [line]) = newest (room - (line.length + 1)) lines ++ [line] := by
  induction lines with
  | nil =>
    refine newest_of_le ?_
    rw [List.nil_append, length_written_cons]
    exact h
  | cons first rest ih =>
    have hlength := length_written_concat (first :: rest) line
    rw [List.cons_append, newest, ih, newest]
    rw [List.cons_append] at hlength
    by_cases hfits : (written (first :: rest)).length ≤ room - (line.length + 1)
    · rw [if_pos hfits, if_pos (by omega), List.cons_append]
    · rw [if_neg hfits, if_neg (by omega)]

namespace Ring

/-! ### The bytes in use -/

/-- What holds of a ring whatever its bytes are. -/
structure InBounds (r : Ring) : Prop where
  size : r.bytes.size = ringSize
  head : r.head < ringSize
  length : r.length ≤ ringSize

theorem inBounds_empty : empty.InBounds where
  size := Array.size_replicate
  head := by decide
  length := Nat.zero_le _

/-- The ring without its oldest byte. -/
def tail (r : Ring) : Ring :=
  { r with head := (r.head + 1) % ringSize, length := r.length - 1 }

theorem dropLine_succ (count : Nat) (r : Ring) :
    dropLine (count + 1) r = if r.byteAt 0 = lineFeed then r.tail else dropLine count r.tail :=
  rfl

@[simp] theorem length_contents (r : Ring) : r.contents.length = r.length := by
  rw [contents, List.length_map, List.length_range]

theorem read_eq_take (r : Ring) (size : Nat) : r.read size = r.contents.take size := by
  rw [read, contents, ← List.map_take, List.take_range, Nat.min_comm]

theorem byteAt_succ (r : Ring) (index : Nat) : r.byteAt (index + 1) = r.tail.byteAt index := by
  rw [byteAt, byteAt, tail]
  dsimp only
  rw [Nat.mod_add_mod, Nat.add_assoc, Nat.add_comm 1]

theorem contents_eq_cons {r : Ring} (h : 0 < r.length) :
    r.contents = r.byteAt 0 :: r.tail.contents := by
  have hlength : r.length = r.tail.length + 1 := (Nat.sub_add_cancel h).symm
  rw [contents, hlength, List.range_succ_eq_map, List.map_cons, List.map_map, contents]
  congr 2
  exact funext fun index => byteAt_succ r index

theorem eq_of_contents {r : Ring} {b : UInt8} {bs : Bytes} (h : r.contents = b :: bs) :
    0 < r.length ∧ r.byteAt 0 = b ∧ r.tail.contents = bs := by
  have hpos : 0 < r.length := by
    rw [← length_contents, h]
    exact Nat.succ_pos _
  rw [contents_eq_cons hpos] at h
  exact ⟨hpos, List.cons.inj h⟩

/-- A byte goes behind the others. -/
theorem contents_append {r : Ring} (h : r.InBounds) (hroom : r.length < ringSize) (b : UInt8) :
    (r.append b).contents = r.contents ++ [b] := by
  have hsize := h.size
  have hkept : ∀ index ∈ List.range r.length, (r.append b).byteAt index = r.byteAt index := by
    intro index hindex
    rw [List.mem_range] at hindex
    have hne : (r.head + r.length) % ringSize ≠ (r.head + index) % ringSize := by
      rw [ringSize] at hroom ⊢
      omega
    simp [byteAt, append, Array.getElem?_setIfInBounds_ne hne]
  have hnew : (r.append b).byteAt r.length = b := by
    have hlt : (r.head + r.length) % ringSize < r.bytes.size := by
      rw [hsize]
      exact Nat.mod_lt _ (by decide)
    simp [byteAt, append, hlt]
  rw [contents, contents]
  calc (List.range (r.append b).length).map (r.append b).byteAt
      = (List.range r.length ++ [r.length]).map (r.append b).byteAt := by
        rw [append, List.range_succ]
    _ = (List.range r.length).map r.byteAt ++ [b] := by
        rw [List.map_append, List.map_singleton, hnew, List.map_congr_left hkept]

namespace InBounds

variable {r : Ring}

theorem tail (h : r.InBounds) : r.tail.InBounds where
  size := h.size
  head := Nat.mod_lt _ (by decide)
  length := Nat.le_trans (Nat.sub_le _ _) h.length

theorem dropLine (h : r.InBounds) (count : Nat) : (dropLine count r).InBounds := by
  induction count generalizing r with
  | zero => exact h
  | succ count ih =>
    rw [dropLine_succ]
    split
    · exact h.tail
    · exact ih h.tail

theorem evict (h : r.InBounds) : r.evict.InBounds :=
  ⟨(h.dropLine r.length).size, (h.dropLine r.length).head, (h.dropLine r.length).length⟩

theorem makeRoom (h : r.InBounds) (needed count : Nat) : (makeRoom needed count r).InBounds := by
  induction count generalizing r with
  | zero => exact h
  | succ count ih =>
    rw [Ring.makeRoom]
    split
    · exact ih h.evict
    · exact h

theorem append (h : r.InBounds) (hroom : r.length < ringSize) (b : UInt8) :
    (r.append b).InBounds where
  size := by
    rw [Ring.append, Array.size_setIfInBounds]
    exact h.size
  head := h.head
  length := hroom

/-- Bytes that have room go behind the others, one after the other. -/
theorem appendAll (h : r.InBounds) {bs : Bytes} (hroom : r.length + bs.length ≤ ringSize) :
    (bs.foldl Ring.append r).InBounds ∧
      (bs.foldl Ring.append r).contents = r.contents ++ bs ∧
      (bs.foldl Ring.append r).lines = r.lines := by
  induction bs generalizing r with
  | nil => exact ⟨h, (List.append_nil _).symm, rfl⟩
  | cons b bs ih =>
    rw [List.length_cons] at hroom
    have hfirst : r.length < ringSize := by omega
    have hlength : (r.append b).length = r.length + 1 := rfl
    obtain ⟨hbounds, hcontents, hlines⟩ := ih (h.append hfirst b) (by omega)
    refine ⟨hbounds, ?_, hlines⟩
    rw [List.foldl_cons, hcontents, contents_append h hfirst, List.append_assoc,
      List.singleton_append]

end InBounds

/-! ### Lines in the ring -/

theorem lines_dropLine (count : Nat) (r : Ring) : (dropLine count r).lines = r.lines := by
  induction count generalizing r with
  | zero => rfl
  | succ count ih =>
    rw [dropLine_succ]
    split
    · rfl
    · exact ih r.tail

/-- The first line feed is where the first line ends. -/
theorem contents_dropLine {r : Ring} {line rest : Bytes} (hline : lineFeed ∉ line)
    (h : r.contents = line ++ lineFeed :: rest) : (dropLine r.length r).contents = rest := by
  induction line generalizing r with
  | nil =>
    obtain ⟨hpos, hfeed, hrest⟩ := eq_of_contents h
    rw [← Nat.sub_add_cancel hpos, dropLine_succ, if_pos hfeed, hrest]
  | cons b line ih =>
    rw [List.mem_cons, not_or] at hline
    obtain ⟨hpos, hbyte, hrest⟩ := eq_of_contents h
    have hne : r.byteAt 0 ≠ lineFeed := by
      rw [hbyte]
      exact Ne.symm hline.1
    rw [← Nat.sub_add_cancel hpos, dropLine_succ, if_neg hne]
    exact ih hline.2 hrest

/-- The ring has these lines, oldest first. -/
structure Holds (r : Ring) (lines : List Bytes) : Prop extends r.InBounds where
  contents : r.contents = written lines
  count : r.lines = lines.length
  lineFeed_notMem : ∀ line ∈ lines, lineFeed ∉ line

theorem holds_empty : empty.Holds [] where
  toInBounds := inBounds_empty
  contents := rfl
  count := rfl
  lineFeed_notMem := fun _ h => absurd h List.not_mem_nil

namespace Holds

variable {r : Ring} {line : Bytes} {lines : List Bytes}

theorem length_eq (h : r.Holds lines) : r.length = (written lines).length := by
  rw [← length_contents, h.contents]

/-- The oldest line goes, whole. -/
theorem evict (h : r.Holds (line :: lines)) : r.evict.Holds lines where
  toInBounds := h.toInBounds.evict
  contents :=
    contents_dropLine (h.lineFeed_notMem line List.mem_cons_self)
      (h.contents.trans (written_cons line lines))
  count := by
    rw [Ring.evict]
    dsimp only
    rw [lines_dropLine, h.count, List.length_cons, Nat.add_sub_cancel]
  lineFeed_notMem := fun other hother =>
    h.lineFeed_notMem other (List.mem_cons_of_mem line hother)

/-- Lines are pushed out until the others leave the room that is needed, and no longer. -/
theorem makeRoom (h : r.Holds lines) {needed count : Nat} (hneeded : needed ≤ ringSize)
    (hcount : lines.length ≤ count) :
    (makeRoom needed count r).Holds (newest (ringSize - needed) lines) := by
  induction lines generalizing r count with
  | nil =>
    have hlength : r.length = 0 := h.length_eq
    cases count with
    | zero => exact h
    | succ count =>
      rw [Ring.makeRoom, if_neg (by omega)]
      exact h
  | cons line rest ih =>
    have hlength := h.length_eq
    have hle := h.length
    cases count with
    | zero => exact absurd hcount (Nat.not_succ_le_zero _)
    | succ count =>
      rw [Ring.makeRoom, newest]
      by_cases hroom : (written (line :: rest)).length ≤ ringSize - needed
      · rw [if_neg (by omega), if_pos hroom]
        exact h
      · rw [if_pos (by omega), if_neg hroom]
        exact ih h.evict (Nat.le_of_succ_le_succ hcount)

/-- A line that goes behind the others leaves them in place. -/
theorem appendLine (h : r.Holds lines) (hline : lineFeed ∉ line)
    (hroom : r.length + (line.length + 1) ≤ ringSize) :
    let last := (line ++ [lineFeed]).foldl append r
    Holds { last with lines := last.lines + 1 } (lines ++ [line]) := by
  have hadded : r.length + (line ++ [lineFeed]).length ≤ ringSize := by
    rw [List.length_append, List.length_singleton]
    exact hroom
  obtain ⟨hbounds, hcontents, hlines⟩ := h.toInBounds.appendAll hadded
  refine ⟨⟨hbounds.size, hbounds.head, hbounds.length⟩, ?_, ?_, ?_⟩
  · rw [written_concat, ← h.contents]
    exact hcontents
  · rw [List.length_append, List.length_singleton, hlines, h.count]
  · intro other hother
    rcases List.mem_append.1 hother with hold | hnew
    · exact h.lineFeed_notMem other hold
    · rw [List.mem_singleton.1 hnew]
      exact hline

/-- A new line pushes out the oldest ones, no more than it must. -/
theorem push (h : r.Holds lines) (hline : lineFeed ∉ line) (hsize : line.length < ringSize) :
    (r.push line).Holds (newest ringSize (lines ++ [line])) := by
  have hcount : lines.length ≤ r.length := by
    rw [h.length_eq]
    exact length_le_length_written lines
  have hmade := h.makeRoom hsize hcount
  have hroom := length_written_newest_le (ringSize - (line.length + 1)) lines
  rw [← hmade.length_eq] at hroom
  rw [newest_concat hsize, Ring.push, if_neg (Nat.not_lt.2 hsize)]
  exact hmade.appendLine hline (by omega)

end Holds

/-- Adds lines one after the other. -/
def pushAll (r : Ring) (lines : List Bytes) : Ring :=
  lines.foldl push r

/-- A ring has the newest of all its lines, those that it had among them. -/
theorem Holds.pushAll {r : Ring} {before lines : List Bytes}
    (h : r.Holds (newest ringSize before))
    (hlines : ∀ line ∈ lines, lineFeed ∉ line ∧ line.length < ringSize) :
    (r.pushAll lines).Holds (newest ringSize (before ++ lines)) := by
  induction lines generalizing r before with
  | nil =>
    rw [List.append_nil]
    exact h
  | cons line rest ih =>
    obtain ⟨hline, hsize⟩ := hlines line List.mem_cons_self
    have hpushed := h.push hline hsize
    -- what was pushed out before does not come back
    rw [newest_concat hsize, newest_newest (Nat.sub_le _ _), ← newest_concat hsize] at hpushed
    have hall := ih hpushed fun other hother => hlines other (List.mem_cons_of_mem line hother)
    rwa [List.append_assoc, List.singleton_append] at hall

theorem holds_pushAll {lines : List Bytes}
    (hlines : ∀ line ∈ lines, lineFeed ∉ line ∧ line.length < ringSize) :
    (empty.pushAll lines).Holds (newest ringSize lines) := by
  have h : empty.Holds (newest ringSize []) := holds_empty
  exact h.pushAll hlines

end Ring

end Microkernel.Log
