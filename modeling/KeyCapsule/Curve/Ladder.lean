import KeyCapsule.Curve.Prime

/-! The two curves on which agreement works with one coordinate alone. Keys are byte strings of one
size, kept as they came; their numbers are read only when an agreement is computed. -/
namespace KeyCapsule

inductive Ladder
  | x25519
  | x448
  deriving DecidableEq

namespace Ladder

def size : Ladder → Nat
  | x25519 => 32
  | x448 => 56

def modulus : Ladder → Nat
  | x25519 => (1 <<< 255) - 19
  | x448 => (1 <<< 448) - (1 <<< 224) - 1

def digits : Ladder → Nat
  | x25519 => 255
  | x448 => 448

/-- A quarter of the curve's coefficient less two. -/
def constant : Ladder → Nat
  | x25519 => 121665
  | x448 => 39081

def base : Ladder → Nat
  | x25519 => 9
  | x448 => 5

def cofactor : Ladder → Nat
  | x25519 => 8
  | x448 => 4

def top : Ladder → Nat
  | x25519 => 1 <<< 254
  | x448 => 1 <<< 447

/-- The multiplier of a private key: the top digit is set and the cofactor's digits are cleared. -/
def multiplier (l : Ladder) (seed : Bytes) : Nat :=
  Bytes.toNatLE seed % l.top / l.cofactor * l.cofactor + l.top

/-- The coordinate of a public key, reduced; digits above the modulus's length are ignored. -/
def coordinate (l : Ladder) (key : Bytes) : Nat :=
  Bytes.toNatLE key % (1 <<< l.digits) % l.modulus

structure Rung where
  (x₂ z₂ x₃ z₃ : Nat)

def Rung.step (p a u : Nat) (r : Rung) : Rung :=
  let s := r.x₂ + r.z₂
  let d := r.x₂ + p - r.z₂
  let ss := s * s % p
  let dd := d * d % p
  let e := ss + p - dd
  let da := (r.x₃ + p - r.z₃) * s % p
  let cb := (r.x₃ + r.z₃) * d % p
  let sum := da + cb
  let diff := da + p - cb
  ⟨ss * dd % p, e * (ss + a * e) % p, sum * sum % p, diff * diff % p * u % p⟩

def Rung.swap (r : Rung) : Rung := ⟨r.x₃, r.z₃, r.x₂, r.z₂⟩

def climb (p a u k : Nat) : Nat → Rung → Rung
  | 0, r => r
  | n + 1, r =>
    if k.testBit n then climb p a u k n (r.swap.step p a u).swap else climb p a u k n (r.step p a u)

/-- The coordinate of a multiple; that of the point at infinity is zero. -/
def multiply (l : Ladder) (k u : Nat) : Nat :=
  let p := l.modulus
  let r := climb p l.constant u k l.digits ⟨1, 0, u, 1⟩
  r.x₂ * PrimeCurve.inverse p r.z₂ % p

def encode (l : Ladder) (u : Nat) : Bytes := Bytes.ofNatLE l.size u

@[simp] theorem length_encode (l : Ladder) (u : Nat) : (l.encode u).length = l.size := by
  simp [encode]

end Ladder

end KeyCapsule
