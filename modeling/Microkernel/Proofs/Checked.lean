/-
Operations that check.

The definitions that run are total: a sum may be larger than a machine word, a difference stops at
zero, a remainder by zero is the number itself, and a place outside of an array is read as nothing
and written in vain. Here the same operations have no result in these cases. A function that is
written with them has a result exactly if it makes no wrong step.
-/
import Microkernel.Address
import Microkernel.Bytes

namespace Microkernel.Checked

/-- The sum, if it is a machine word. -/
def add (a b : Nat) : Option Nat :=
  if a + b < wordSpan then some (a + b) else none

/-- The difference, if it is not below zero. -/
def sub (a b : Nat) : Option Nat :=
  if b ≤ a then some (a - b) else none

/-- The remainder, if the divisor is not zero. -/
def mod (a b : Nat) : Option Nat :=
  if b = 0 then none else some (a % b)

/-- Writes an entry, if the array has a place for it. -/
def set {α : Type} (entries : Array α) (index : Nat) (entry : α) : Option (Array α) :=
  if index < entries.size then some (entries.setIfInBounds index entry) else none

/-- The bytes from `start` to `stop`, if the buffer has them. -/
def slice (buffer : Array UInt8) (start stop : Nat) : Option Bytes :=
  if start ≤ stop ∧ stop ≤ buffer.size then
    some ((buffer.toList.drop start).take (stop - start))
  else none

/-- Writes bytes over those from `start` to `stop`, if the buffer has them and they are as many. -/
def fill (buffer : Array UInt8) (start stop : Nat) (bytes : Bytes) : Option (Array UInt8) :=
  if start ≤ stop ∧ stop ≤ buffer.size ∧ bytes.length = stop - start then
    some (buffer.toList.take start ++ bytes ++ buffer.toList.drop stop).toArray
  else none

theorem add_of_lt {a b : Nat} (h : a + b < wordSpan) : add a b = some (a + b) :=
  if_pos h

theorem sub_of_le {a b : Nat} (h : b ≤ a) : sub a b = some (a - b) :=
  if_pos h

theorem mod_of_pos {a b : Nat} (h : 0 < b) : mod a b = some (a % b) :=
  if_neg (Nat.ne_of_gt h)

theorem set_of_lt {α : Type} {entries : Array α} {index : Nat} (h : index < entries.size)
    (entry : α) : set entries index entry = some (entries.setIfInBounds index entry) :=
  if_pos h

theorem slice_eq_map {buffer : Array UInt8} {start count : Nat}
    (h : start + count ≤ buffer.size) :
    slice buffer start (start + count) =
      some ((List.range count).map fun k => buffer.getD (start + k) 0) := by
  have hslice : (buffer.toList.drop start).take count =
      (List.range count).map fun k => buffer.getD (start + k) 0 := by
    have hlength : ((buffer.toList.drop start).take count).length = count := by
      rw [List.length_take, List.length_drop, Array.length_toList]
      omega
    refine List.ext_getElem (by rw [hlength, List.length_map, List.length_range]) fun i hi _ => ?_
    rw [hlength] at hi
    have hindex : start + i < buffer.size := by omega
    simp [hindex]
  rw [slice, if_pos ⟨Nat.le_add_right _ _, h⟩, Nat.add_sub_cancel_left, hslice]

/-- Two parts are written one behind the other. -/
theorem fill_fill {buffer : Array UInt8} {front back : Bytes}
    (h : front.length + back.length ≤ buffer.size) :
    ((fill buffer 0 front.length front).bind fun buffer =>
        fill buffer front.length (front.length + back.length) back) =
      some (front ++ back ++ buffer.toList.drop (front.length + back.length)).toArray := by
  have hlist : buffer.toList.length = buffer.size := Array.length_toList
  have hfirst : fill buffer 0 front.length front =
      some (front ++ buffer.toList.drop front.length).toArray :=
    if_pos ⟨Nat.zero_le _, by omega, (Nat.sub_zero _).symm⟩
  have hsize : (front ++ buffer.toList.drop front.length).toArray.size = buffer.size := by
    rw [List.size_toArray, List.length_append, List.length_drop, hlist]
    omega
  have hbounds : front.length ≤ front.length + back.length ∧
      front.length + back.length ≤ (front ++ buffer.toList.drop front.length).toArray.size ∧
      back.length = front.length + back.length - front.length := by
    rw [hsize]
    omega
  rw [hfirst, Option.bind_some, fill, if_pos hbounds, List.take_left,
    List.drop_length_add_append, List.drop_drop]

end Microkernel.Checked
