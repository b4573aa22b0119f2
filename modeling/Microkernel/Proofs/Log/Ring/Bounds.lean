/-
The ring of log lines with checks.

The operations of `Log.Ring` cut a difference off at zero, read a missing byte as zero, and repeat a
step a number of times that is known to be enough. Here they are written once more with operations
that check (`Checked`) and with loops that end when their condition says so: there is no result if a
place is outside of the buffer, if a number falls below zero, or if a loop has not come to its end.

* **`InBounds.push?`**: whatever the bytes are, a line passes every check, and every loop ends;
* **`InBounds.copyTo?`**: the oldest bytes are copied out in two parts, into a buffer of any length;
* **`pushAll_retains_newest`**: after any lines, the ring retains the newest, whole.

Design notes: the counter of lines stops at zero in the source as well, so its difference is not
checked. The numbers of rounds are bounds for the loops, and part of what is proved.
-/
import Microkernel.Proofs.Checked
import Microkernel.Proofs.Log.Ring

namespace Microkernel.Log.Ring

open Checked

/-- Drops bytes up to and including the first line feed, in fewer than `rounds` rounds. -/
def dropLine? : Nat → Ring → Option Ring
  | 0, _ => none
  | rounds + 1, r =>
    if r.length = 0 then
      return r
    else do
      let byte ← r.bytes[r.head]?
      let head ← mod (r.head + 1) ringSize
      let length ← sub r.length 1
      let rest := { r with head, length }
      if byte = lineFeed then return rest else dropLine? rounds rest

/-- Pushes out the oldest line. -/
def evict? (r : Ring) : Option Ring := do
  let rest ← dropLine? (r.length + 1) r
  return { rest with lines := rest.lines - 1 }

/-- Pushes out oldest lines until `needed` bytes are free, in fewer than `rounds` rounds. -/
def makeRoom? (needed : Nat) : Nat → Ring → Option Ring
  | 0, _ => none
  | rounds + 1, r => do
    let free ← sub ringSize r.length
    if free < needed then makeRoom? needed rounds (← r.evict?) else return r

/-- Writes a byte behind the newest. -/
def append? (r : Ring) (b : UInt8) : Option Ring := do
  let index ← mod (r.head + r.length) ringSize
  let bytes ← set r.bytes index b
  return { r with bytes, length := r.length + 1 }

/-- Adds a line and its line feed. -/
def push? (r : Ring) (line : Bytes) : Option Ring :=
  if ringSize < line.length + 1 then
    return r
  else do
    let r ← makeRoom? (line.length + 1) (r.length + 1) r
    let r ← (line ++ [lineFeed]).foldlM append? r
    return { r with lines := r.lines + 1 }

/-- Adds lines one after the other. -/
def pushAll? (r : Ring) (lines : List Bytes) : Option Ring :=
  lines.foldlM push? r

/-- Copies the oldest bytes over the first ones of a buffer; answers how many they are. -/
def copyTo? (r : Ring) (buffer : Array UInt8) : Option (Nat × Array UInt8) := do
  let count := min r.length buffer.size
  let first := min count (← sub ringSize r.head)
  let front ← slice r.bytes r.head (r.head + first)
  let buffer ← fill buffer 0 first front
  let rest ← sub count first
  let back ← slice r.bytes 0 rest
  let buffer ← fill buffer first count back
  return (count, buffer)

/-! ### Bytes that are freed -/

theorem length_dropLine_le (count : Nat) (r : Ring) : (dropLine count r).length ≤ r.length := by
  induction count generalizing r with
  | zero => exact Nat.le_refl _
  | succ count ih =>
    rw [dropLine_succ]
    split
    · exact Nat.sub_le _ _
    · exact Nat.le_trans (ih _) (Nat.sub_le _ _)

/-- Each line that is pushed out frees a byte at least. -/
theorem length_evict_lt {r : Ring} (h : 0 < r.length) : r.evict.length < r.length := by
  obtain ⟨count, hcount⟩ := Nat.exists_eq_add_one_of_ne_zero (Nat.ne_of_gt h)
  have htail : r.tail.length = count := by
    rw [tail, hcount, Nat.add_sub_cancel]
  have hrest := length_dropLine_le count r.tail
  rw [evict, hcount, dropLine_succ]
  split
  · exact Nat.lt_succ_of_le (Nat.le_of_eq htail)
  · exact Nat.lt_succ_of_le (htail ▸ hrest)

/-! ### Copying out -/

/-- The bytes from the head on, up to the end of the ring. -/
theorem map_byteAt_head {r : Ring} {count : Nat} (h : r.head + count ≤ ringSize) :
    (List.range count).map r.byteAt =
      (List.range count).map fun k => r.bytes.getD (r.head + k) 0 := by
  refine List.map_congr_left fun k hk => ?_
  rw [List.mem_range] at hk
  rw [byteAt, Nat.mod_eq_of_lt (by omega)]

/-- The bytes behind the end of the ring are at its start. -/
theorem map_byteAt_start {r : Ring} {first count : Nat} (hfirst : r.head + first = ringSize)
    (hcount : count ≤ ringSize) :
    (List.range count).map (fun k => r.byteAt (first + k)) =
      (List.range count).map fun k => r.bytes.getD (0 + k) 0 := by
  refine List.map_congr_left fun k hk => ?_
  rw [List.mem_range] at hk
  rw [byteAt, ← Nat.add_assoc, hfirst, Nat.add_mod_left, Nat.mod_eq_of_lt (by omega), Nat.zero_add]

namespace InBounds

variable {r : Ring}

/-- The oldest bytes are those up to the end of the ring, and those at its start. -/
theorem take_contents (h : r.InBounds) {count first : Nat} (hcount : count ≤ r.length)
    (hfirst : min count (ringSize - r.head) = first) :
    r.contents.take count =
      ((List.range first).map fun k => r.bytes.getD (r.head + k) 0) ++
        (List.range (count - first)).map fun k => r.bytes.getD (0 + k) 0 := by
  have hhead := h.head
  have hlength := h.length
  have hsplit : List.range count =
      List.range first ++ (List.range (count - first)).map (first + ·) := by
    rw [← List.range_add, Nat.add_sub_of_le (by omega)]
  rw [contents, ← List.map_take, List.take_range, Nat.min_eq_left hcount, hsplit, List.map_append,
    map_byteAt_head (by omega), List.map_map]
  congr 1
  by_cases hend : r.head + count ≤ ringSize
  · have hnone : count - first = 0 := by omega
    rw [hnone]
    rfl
  · exact map_byteAt_start (by omega) (by omega)

/-- The two parts are as long together as the bytes that are copied. -/
theorem copyTo? (h : r.InBounds) (buffer : Array UInt8) :
    let count := min r.contents.length buffer.size
    r.copyTo? buffer =
      some (count, (r.contents.take count ++ buffer.toList.drop count).toArray) := by
  have hsize := h.size
  have hhead := h.head
  have hlength := h.length
  rw [length_contents]
  dsimp only
  generalize hcount : min r.length buffer.size = count
  generalize hfirst : min count (ringSize - r.head) = first
  have hfront : slice r.bytes r.head (r.head + first) = _ := slice_eq_map (by omega)
  have hback : slice r.bytes 0 (0 + (count - first)) = _ := slice_eq_map (by omega)
  rw [Nat.zero_add] at hback
  rw [h.take_contents (by omega) hfirst, Ring.copyTo?, sub_of_le (Nat.le_of_lt hhead)]
  simp only [Option.bind_eq_bind, Option.bind_some]
  rw [hcount, hfirst, hfront, sub_of_le (by omega)]
  simp only [Option.bind_some]
  rw [hback]
  generalize hf : ((List.range first).map fun k => r.bytes.getD (r.head + k) 0) = front
  generalize hb : ((List.range (count - first)).map fun k => r.bytes.getD (0 + k) 0) = back
  have hfrontLength : front.length = first := by
    rw [← hf, List.length_map, List.length_range]
  have hbackLength : front.length + back.length = count := by
    rw [hfrontLength, ← hb, List.length_map, List.length_range]
    omega
  have hfill := @fill_fill buffer front back (by omega)
  rw [hbackLength, hfrontLength] at hfill
  obtain ⟨middle, hmiddle, hlast⟩ := Option.bind_eq_some_iff.1 hfill
  simp only [Option.bind_some, hmiddle, hlast]
  rfl

/-! ### Loops that end -/

theorem getElem?_head (h : r.InBounds) : r.bytes[r.head]? = some (r.byteAt 0) := by
  have hlt : r.head < r.bytes.size := by
    rw [h.size]
    exact h.head
  rw [byteAt, Nat.add_zero, Nat.mod_eq_of_lt h.head, Array.getElem?_eq_getElem hlt,
    Array.getD_eq_getD_getElem?, Array.getElem?_eq_getElem hlt, Option.getD_some]

/-- A line ends where the bytes do, at the latest. -/
theorem dropLine? (h : r.InBounds) {count : Nat} (hcount : r.length = count) :
    Ring.dropLine? (count + 1) r = some (Ring.dropLine count r) := by
  induction count generalizing r with
  | zero =>
    rw [Ring.dropLine?, if_pos hcount]
    rfl
  | succ count ih =>
    have hnext := ih h.tail (Nat.sub_eq_of_eq_add hcount)
    rw [Ring.dropLine?, if_neg (by omega), h.getElem?_head, mod_of_pos (by decide),
      sub_of_le (by omega), dropLine_succ]
    simp only [Option.bind_eq_bind, Option.bind_some]
    split
    · rfl
    · exact hnext

theorem evict? (h : r.InBounds) : r.evict? = some r.evict := by
  rw [Ring.evict?, h.dropLine? rfl]
  rfl

theorem makeRoom? (h : r.InBounds) {needed count : Nat} (hneeded : needed ≤ ringSize)
    (hcount : r.length ≤ count) :
    Ring.makeRoom? needed (count + 1) r = some (Ring.makeRoom needed count r) := by
  induction count generalizing r with
  | zero =>
    rw [Ring.makeRoom?, sub_of_le h.length, Option.bind_eq_bind, Option.bind_some,
      if_neg (by omega)]
    rfl
  | succ count ih =>
    rw [Ring.makeRoom?, sub_of_le h.length, Option.bind_eq_bind, Option.bind_some, Ring.makeRoom]
    by_cases hroom : ringSize - r.length < needed
    · have hless : r.evict.length < r.length := length_evict_lt (by omega)
      rw [if_pos hroom, if_pos hroom, h.evict?]
      exact ih h.evict (by omega)
    · rw [if_neg hroom, if_neg hroom]
      rfl

theorem append? (h : r.InBounds) (b : UInt8) : r.append? b = some (r.append b) := by
  have hlt : (r.head + r.length) % ringSize < r.bytes.size := by
    rw [h.size]
    exact Nat.mod_lt _ (by decide)
  rw [Ring.append?, mod_of_pos (by decide), Option.bind_eq_bind, Option.bind_some, set_of_lt hlt]
  rfl

theorem appendAll? (h : r.InBounds) {bs : Bytes} (hroom : r.length + bs.length ≤ ringSize) :
    bs.foldlM Ring.append? r = some (bs.foldl Ring.append r) := by
  induction bs generalizing r with
  | nil => rfl
  | cons b bs ih =>
    rw [List.length_cons] at hroom
    have hlength : (r.append b).length = r.length + 1 := rfl
    rw [List.foldlM_cons, h.append?, Option.bind_eq_bind, Option.bind_some, List.foldl_cons]
    exact ih (h.append (by omega) b) (by omega)

theorem length_makeRoom_le (h : r.InBounds) {needed count : Nat} (hneeded : needed ≤ ringSize)
    (hcount : r.length ≤ count) :
    (Ring.makeRoom needed count r).length + needed ≤ ringSize := by
  induction count generalizing r with
  | zero =>
    rw [Ring.makeRoom]
    omega
  | succ count ih =>
    rw [Ring.makeRoom]
    split
    · have hless : r.evict.length < r.length := length_evict_lt (by omega)
      exact ih h.evict (by omega)
    · have hlength := h.length
      omega

/-- A line of any bytes passes every check, and leaves a ring in bounds. -/
theorem push? (h : r.InBounds) (line : Bytes) :
    r.push? line = some (r.push line) ∧ (r.push line).InBounds := by
  rw [Ring.push?, Ring.push]
  split
  · exact ⟨rfl, h⟩
  · rename_i hsize
    have hneeded : line.length + 1 ≤ ringSize := Nat.not_lt.1 hsize
    have hmade := h.makeRoom (line.length + 1) r.length
    have hroom := h.length_makeRoom_le hneeded (Nat.le_refl _)
    have hadded : (Ring.makeRoom (line.length + 1) r.length r).length +
        (line ++ [lineFeed]).length ≤ ringSize := by
      rw [List.length_append, List.length_singleton]
      exact hroom
    have hlast := (hmade.appendAll hadded).1
    rw [h.makeRoom? hneeded (Nat.le_refl _), Option.bind_eq_bind, Option.bind_some,
      hmade.appendAll? hadded]
    exact ⟨rfl, hlast.size, hlast.head, hlast.length⟩

theorem pushAll? (h : r.InBounds) (lines : List Bytes) :
    r.pushAll? lines = some (r.pushAll lines) := by
  induction lines generalizing r with
  | nil => rfl
  | cons line rest ih =>
    obtain ⟨hchecked, hnext⟩ := h.push? line
    rw [Ring.pushAll?, List.foldlM_cons, hchecked]
    exact ih hnext

end InBounds

/-- After any lines without a line feed of their own, the ring has the last ones, whole and in
order, and its counter is the greatest number of last lines that fit. No line on the way reads or
writes outside of the buffer, and none waits forever for room. What is read are the oldest bytes, as
many as there are or as the reader has place for, wherever the ring ends, and the rest of the
reader's buffer stays as it was. -/
theorem pushAll_retains_newest (lines : List Bytes)
    (h : ∀ line ∈ lines, lineFeed ∉ line ∧ line.length < ringSize) :
    let last := empty.pushAll lines
    last.contents = written (lines.rtake last.lines) ∧
      IsGreatest {k | k ≤ lines.length ∧ (written (lines.rtake k)).length ≤ ringSize} last.lines ∧
      empty.pushAll? lines = some last ∧
      (∀ size, last.read size = last.contents.take size) ∧
      ∀ buffer : Array UInt8,
        let count := min last.contents.length buffer.size
        last.copyTo? buffer =
          some (count, (last.contents.take count ++ buffer.toList.drop count).toArray) := by
  have hholds := holds_pushAll h
  have hlast : lines.rtake (newest ringSize lines).length = newest ringSize lines :=
    (List.suffix_iff_eq_drop.1 (newest_isSuffix ringSize lines)).symm
  refine ⟨?_, ?_, inBounds_empty.pushAll? lines, read_eq_take _, hholds.toInBounds.copyTo?⟩
  · rw [hholds.count, hlast]
    exact hholds.contents
  · rw [hholds.count]
    exact isGreatest_length_newest ringSize lines

/-- Of two lines that do not fit together, the second is retained. -/
theorem pushAll_retains_second :
    let first : Bytes := List.replicate 40000 120
    let second : Bytes := List.replicate 40000 121
    (∀ line ∈ [first, second], lineFeed ∉ line ∧ line.length < ringSize) ∧
      (empty.pushAll [first, second]).contents = written [second] := by
  intro first second
  have h : ∀ line ∈ [first, second], lineFeed ∉ line ∧ line.length < ringSize := by
    intro line hline
    rcases List.mem_pair.1 hline with rfl | rfl
    · refine ⟨fun hfeed => ?_, ?_⟩
      · exact absurd (List.eq_of_mem_replicate hfeed) (by decide)
      · rw [List.length_replicate, ringSize]
        omega
    · refine ⟨fun hfeed => ?_, ?_⟩
      · exact absurd (List.eq_of_mem_replicate hfeed) (by decide)
      · rw [List.length_replicate, ringSize]
        omega
  have hfirst : first.length = 40000 := List.length_replicate
  have hsecond : second.length = 40000 := List.length_replicate
  obtain ⟨hcontents, ⟨⟨hcount, hfits⟩, hmost⟩, -⟩ := pushAll_retains_newest [first, second] h
  -- one line fits, two do not
  have hone : 1 ≤ (empty.pushAll [first, second]).lines := by
    refine hmost ⟨by decide, ?_⟩
    have htake : [first, second].rtake 1 = [second] := rfl
    rw [htake, length_written_cons, hsecond]
    decide
  have htwo : (empty.pushAll [first, second]).lines ≠ 2 := by
    intro htwo
    have htake : [first, second].rtake 2 = [first, second] := rfl
    rw [htwo, htake, length_written_cons, length_written_cons, hfirst, hsecond] at hfits
    exact absurd hfits (by decide)
  have hlines : (empty.pushAll [first, second]).lines = 1 := by
    have hle : (empty.pushAll [first, second]).lines ≤ 2 := hcount
    omega
  rw [hlines] at hcontents
  exact ⟨h, hcontents⟩

end Microkernel.Log.Ring
