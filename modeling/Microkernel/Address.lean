/-
Virtual addresses and page rights.

A machine word has 64 bits, so sums of addresses and sizes are remainders by `wordSpan`. The machine
uses 48 bits of an address, and the upper sixteen bits repeat bit 47.
`canonical` brings any number into that form; it is the identity on addresses that have it
(`canonical_of_lt`, `canonical_of_ge`).

`roundUp` is the ceiling of a number among the multiples of a step: it is one of them
(`dvd_roundUp`), not below the number (`le_roundUp`), and less than a step above it
(`roundUp_lt`).
-/
namespace Microkernel

/-- How many numbers fit into a machine word. -/
def wordSpan : Nat := 0x10000000000000000

/-- The canonical address with the same low 48 bits. -/
def canonical (address : Nat) : Nat :=
  let low := address % 0x1000000000000
  if low < 0x800000000000 then low else low + 0xffff000000000000

theorem canonical_of_lt {a : Nat} (h : a < 0x800000000000) : canonical a = a := by
  have : a % 0x1000000000000 = a := Nat.mod_eq_of_lt (by omega)
  simp only [canonical, this, if_pos h]

theorem canonical_of_ge {a : Nat} (h : 0xffff800000000000 ≤ a) (hlt : a < 0x10000000000000000) :
    canonical a = a := by
  unfold canonical
  have low : a % 0x1000000000000 = a - 0xffff000000000000 := by omega
  simp only [low]
  split <;> omega

theorem canonical_canonical (a : Nat) : canonical (canonical a) = canonical a := by
  unfold canonical
  dsimp only
  split <;> split <;> omega

/-- The least multiple of `step` that is not below `n`. -/
def roundUp (n step : Nat) : Nat :=
  (n + step - 1) / step * step

theorem dvd_roundUp (n step : Nat) : step ∣ roundUp n step :=
  Nat.dvd_mul_left step ((n + step - 1) / step)

theorem le_roundUp (n : Nat) {step : Nat} (h : 0 < step) : n ≤ roundUp n step := by
  have split := Nat.div_add_mod (n + step - 1) step
  have small := Nat.mod_lt (n + step - 1) h
  rw [Nat.mul_comm] at split
  unfold roundUp
  omega

theorem roundUp_lt (n : Nat) {step : Nat} (h : 0 < step) : roundUp n step < n + step := by
  have below := Nat.div_mul_le_self (n + step - 1) step
  unfold roundUp
  omega

/-- What may be done with a page. -/
structure PageRights where
  present : Bool
  writable : Bool
  user : Bool
  noExecute : Bool
  deriving DecidableEq

namespace PageRights

/-- Data that a user task may touch. -/
def userData : PageRights := ⟨true, true, true, true⟩

/-- Data that only the kernel may touch. -/
def kernelData : PageRights := ⟨true, true, false, true⟩

/-- The rights as the bits of a page-table entry. -/
def bits (r : PageRights) : Nat :=
  r.present.toNat + 2 * r.writable.toNat + 4 * r.user.toNat + 0x8000000000000000 * r.noExecute.toNat

/-- The rights among the bits of a page-table entry; other bits are ignored. -/
def ofBits (n : Nat) : PageRights where
  present := n.testBit 0
  writable := n.testBit 1
  user := n.testBit 2
  noExecute := n.testBit 63

theorem ofBits_bits (r : PageRights) : ofBits r.bits = r := by
  obtain ⟨p, w, u, x⟩ := r
  revert p w u x
  decide

end PageRights

end Microkernel
