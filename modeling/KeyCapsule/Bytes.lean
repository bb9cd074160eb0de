/-! Byte strings as lists of bytes, and the fixed-width integer encodings that key formats use.
Writing a number and reading it back gives the number below the width, and reading is injective on
strings of one length. -/
namespace KeyCapsule

abbrev Bytes := List UInt8

namespace Bytes

def toNatLE : Bytes → Nat
  | [] => 0
  | b :: rest => b.toNat + 256 * toNatLE rest

/-- Exactly `width` bytes, least significant first; higher digits are dropped. -/
def ofNatLE : Nat → Nat → Bytes
  | 0, _ => []
  | width + 1, n => UInt8.ofNat n :: ofNatLE width (n / 256)

def toNatBE (b : Bytes) : Nat := toNatLE b.reverse

def ofNatBE (width n : Nat) : Bytes := (ofNatLE width n).reverse

def capacity : Nat → Nat
  | 0 => 1
  | width + 1 => 256 * capacity width

def zeros (n : Nat) : Bytes := List.replicate n 0

@[simp] theorem length_zeros (n : Nat) : (zeros n).length = n := by simp [zeros]

@[simp] theorem length_ofNatLE (width n : Nat) : (ofNatLE width n).length = width := by
  induction width generalizing n with
  | zero => rfl
  | succ width ih => simp [ofNatLE, ih]

@[simp] theorem length_ofNatBE (width n : Nat) : (ofNatBE width n).length = width := by
  simp [ofNatBE]

private theorem toNatLE_ofNatLE (width n : Nat) : toNatLE (ofNatLE width n) = n % capacity width := by
  induction width generalizing n with
  | zero => simp [ofNatLE, toNatLE, capacity, Nat.mod_one]
  | succ width ih =>
    have h : (UInt8.ofNat n).toNat = n % 256 := by simp
    rw [ofNatLE, toNatLE, ih, h, capacity, Nat.mod_mul]

theorem toNatBE_ofNatBE (width n : Nat) : toNatBE (ofNatBE width n) = n % capacity width := by
  simp [toNatBE, ofNatBE, toNatLE_ofNatLE]

private theorem ofNatLE_toNatLE (b : Bytes) : ofNatLE b.length (toNatLE b) = b := by
  induction b with
  | nil => rfl
  | cons x rest ih =>
    have hx : x.toNat < 256 := x.toNat_lt_size
    have hd : (x.toNat + 256 * toNatLE rest) / 256 = toNatLE rest := by omega
    have hm : UInt8.ofNat (x.toNat + 256 * toNatLE rest) = x := by
      apply UInt8.toNat_inj.1
      simp only [UInt8.toNat_ofNat']
      omega
    rw [List.length_cons, toNatLE, ofNatLE, hd, hm, ih]

theorem ofNatBE_toNatBE (b : Bytes) : ofNatBE b.length (toNatBE b) = b := by
  have h := ofNatLE_toNatLE b.reverse
  rw [List.length_reverse] at h
  rw [ofNatBE, toNatBE, h, List.reverse_reverse]

end Bytes

end KeyCapsule
