/-
Byte strings and little-endian numbers.

`littleEndian w n` writes the low `w` bytes of `n`, least significant first, and
`ofLittleEndian` reads any byte string back as a number.

* **`ofLittleEndian_littleEndian`**: reading back gives the number modulo `byteSpan w`;
* **`littleEndian_ofLittleEndian`**: a byte string is determined by its number and length.
-/
namespace Microkernel

/-- A byte string. -/
abbrev Bytes := List UInt8

/-- The `w` low bytes of `n`, least significant first. -/
def littleEndian : Nat → Nat → Bytes
  | 0, _ => []
  | w + 1, n => UInt8.ofNat (n % 256) :: littleEndian w (n / 256)

/-- The number whose little-endian bytes are given. -/
def ofLittleEndian : Bytes → Nat
  | [] => 0
  | b :: bs => b.toNat + 256 * ofLittleEndian bs

/-- How many numbers can be told apart by `w` bytes. -/
def byteSpan : Nat → Nat
  | 0 => 1
  | w + 1 => 256 * byteSpan w

@[simp] theorem littleEndian_zero (n : Nat) : littleEndian 0 n = [] := rfl

@[simp] theorem littleEndian_succ (w n : Nat) :
    littleEndian (w + 1) n = UInt8.ofNat (n % 256) :: littleEndian w (n / 256) := rfl

@[simp] theorem ofLittleEndian_nil : ofLittleEndian [] = 0 := rfl

@[simp] theorem ofLittleEndian_cons (b : UInt8) (bs : Bytes) :
    ofLittleEndian (b :: bs) = b.toNat + 256 * ofLittleEndian bs := rfl

@[simp] theorem length_littleEndian (w n : Nat) : (littleEndian w n).length = w := by
  induction w generalizing n with
  | zero => rfl
  | succ w ih => simp [ih]

theorem ofLittleEndian_littleEndian (w n : Nat) :
    ofLittleEndian (littleEndian w n) = n % byteSpan w := by
  induction w generalizing n with
  | zero => exact (Nat.mod_one n).symm
  | succ w ih =>
    have low : (UInt8.ofNat (n % 256)).toNat = n % 256 := by
      simp
    rw [littleEndian_succ, ofLittleEndian_cons, ih, low, byteSpan, Nat.mod_mul]

theorem littleEndian_ofLittleEndian (bs : Bytes) :
    littleEndian bs.length (ofLittleEndian bs) = bs := by
  induction bs with
  | nil => rfl
  | cons b bs ih =>
    have hb : b.toNat < 256 := b.toNat_lt
    rw [List.length_cons, littleEndian_succ, ofLittleEndian_cons]
    congr 1
    · rw [Nat.add_mul_mod_self_left, Nat.mod_eq_of_lt hb, UInt8.ofNat_toNat]
    · rw [Nat.add_mul_div_left _ _ (by decide), Nat.div_eq_of_lt hb, Nat.zero_add, ih]

theorem ofLittleEndian_lt (bs : Bytes) : ofLittleEndian bs < byteSpan bs.length := by
  induction bs with
  | nil => exact Nat.one_pos
  | cons b bs ih =>
    have hb : b.toNat < 256 := b.toNat_lt
    rw [ofLittleEndian_cons, List.length_cons, byteSpan]
    omega

end Microkernel
