import KeyCapsule.Bytes

/-! The three prime-order curves `y² = x³ − 3x + b`. A point is a pair of reduced coordinates on the
curve, so its uncompressed encoding is unique; multiples are computed in Jacobian coordinates. -/
namespace KeyCapsule

inductive PrimeCurve
  | p256
  | p384
  | p521
  deriving DecidableEq

namespace PrimeCurve

def name : PrimeCurve → String
  | p256 => "secp256r1"
  | p384 => "secp384r1"
  | p521 => "secp521r1"

def width : PrimeCurve → Nat
  | p256 => 32
  | p384 => 48
  | p521 => 66

def modulus : PrimeCurve → Nat
  | p256 => 0xffffffff00000001000000000000000000000000ffffffffffffffffffffffff
  | p384 => 0xfffffffffffffffffffffffffffffffffffffffffffffffffffffffffffffffeffffffff0000000000000000ffffffff
  | p521 => (1 <<< 521) - 1

def order : PrimeCurve → Nat
  | p256 => 0xffffffff00000000ffffffffffffffffbce6faada7179e84f3b9cac2fc632551
  | p384 => 0xffffffffffffffffffffffffffffffffffffffffffffffffc7634d81f4372ddf581a0db248b0a77aecec196accc52973
  | p521 => 0x01fffffffffffffffffffffffffffffffffffffffffffffffffffffffffffffffffa51868783bf2f966b7fcc0148f709a5d03bb5c9b8899c47aebb6fb71e91386409

def constant : PrimeCurve → Nat
  | p256 => 0x5ac635d8aa3a93e7b3ebbd55769886bc651d06b0cc53b0f63bce3c3e27d2604b
  | p384 => 0xb3312fa7e23ee7e4988e056be3f82d19181d9c6efe8141120314088f5013875ac656398d8a2ed19d2a85c8edd3ec2aef
  | p521 => 0x0051953eb9618e1c9a1f929a21a0b68540eea2da725b99b315f3b8b489918ef109e156193951ec7e937b1652c0bd3bb1bf073573df883d2c34f1ef451fd46b503f00

def holds (c : PrimeCurve) (x y : Nat) : Prop :=
  y * y % c.modulus = (x * x * x + (c.modulus - 3) * x + c.constant) % c.modulus

instance (c : PrimeCurve) (x y : Nat) : Decidable (c.holds x y) :=
  inferInstanceAs (Decidable (_ = _))

structure Point (c : PrimeCurve) where
  x : Nat
  y : Nat
  x_lt : x < c.modulus
  y_lt : y < c.modulus
  on_curve : c.holds x y
  deriving DecidableEq

def point? (c : PrimeCurve) (x y : Nat) : Option c.Point :=
  if h : x < c.modulus ∧ y < c.modulus ∧ c.holds x y then some ⟨x, y, h.1, h.2.1, h.2.2⟩ else none

def generator : (c : PrimeCurve) → c.Point
  | p256 => {
    x := 0x6b17d1f2e12c4247f8bce6e563a440f277037d812deb33a0f4a13945d898c296
    y := 0x4fe342e2fe1a7f9b8ee7eb4a7c0f9e162bce33576b315ececbb6406837bf51f5
    x_lt := by decide +kernel
    y_lt := by decide +kernel
    on_curve := by decide +kernel }
  | p384 => {
    x := 0xaa87ca22be8b05378eb1c71ef320ad746e1d3b628ba79b9859f741e082542a385502f25dbf55296c3a545e3872760ab7
    y := 0x3617de4a96262c6f5d9e98bf9292dc29f8f41dbd289a147ce9da3113b5f0b8c00a60b1ce1d7e819d7a431d7c90ea0e5f
    x_lt := by decide +kernel
    y_lt := by decide +kernel
    on_curve := by decide +kernel }
  | p521 => {
    x := 0x00c6858e06b70404e9cd9e3ecb662395b4429c648139053fb521f828af606b4d3dbaa14b5e77efe75928fe1dc127a2ffa8de3348b3c1856a429bf97e7e31c2e5bd66
    y := 0x011839296a789a3bc0045c8a5fb42c7d1bd998f54449579b446817afbd17273e662c97ee72995ef42640c550b9013fad0761353c7086a272c24088be94769fd16650
    x_lt := by decide +kernel
    y_lt := by decide +kernel
    on_curve := by decide +kernel }

/-- Coordinates `x / z²` and `y / z³`; the point at infinity has `z = 0`. -/
structure Jacobian where
  (x y z : Nat)

namespace Jacobian

def infinity : Jacobian := ⟨1, 1, 0⟩

/-- The difference of reduced residues. -/
@[inline] def minus (p a b : Nat) : Nat := (a + p - b) % p

def double (p : Nat) (j : Jacobian) : Jacobian :=
  let delta := j.z * j.z % p
  let gamma := j.y * j.y % p
  let beta := 4 * j.x * gamma % p
  let alpha := 3 * minus p j.x delta * (j.x + delta) % p
  let x := minus p (alpha * alpha % p) (2 * beta % p)
  let z := 2 * j.y * j.z % p
  ⟨x, minus p (alpha * minus p beta x % p) (8 * gamma * gamma % p), z⟩

def add (p : Nat) (j : Jacobian) (x₂ y₂ : Nat) : Jacobian :=
  if j.z = 0 then ⟨x₂, y₂, 1⟩
  else
    let zz := j.z * j.z % p
    let h := minus p (x₂ * zz % p) j.x
    let r := minus p (y₂ * (zz * j.z % p) % p) j.y
    if h = 0 then if r = 0 then double p j else infinity
    else
      let hh := h * h % p
      let hhh := h * hh % p
      let v := j.x * hh % p
      let x := minus p (r * r % p) ((hhh + 2 * v) % p)
      ⟨x, minus p (r * minus p v x % p) (j.y * hhh % p), j.z * h % p⟩

def multiply (p : Nat) (k x y : Nat) : Nat → Jacobian → Jacobian
  | 0, acc => acc
  | n + 1, acc =>
    let twice := double p acc
    multiply p k x y n (if k.testBit n then add p twice x y else twice)

end Jacobian

def power (p b e : Nat) : Nat → Nat → Nat
  | 0, acc => acc
  | n + 1, acc =>
    let square := acc * acc % p
    power p b e n (if e.testBit n then square * b % p else square)

def inverse (p a : Nat) : Nat := power p a (p - 2) (p.log2 + 1) 1

/-- A multiple of a point; `none` is the point at infinity. -/
def multiply (c : PrimeCurve) (k : Nat) (q : c.Point) : Option c.Point :=
  let p := c.modulus
  let j := Jacobian.multiply p k q.x q.y (k.log2 + 1) Jacobian.infinity
  if j.z = 0 then none
  else
    let i := inverse p j.z
    let ii := i * i % p
    c.point? (j.x * ii % p) (j.y * (ii * i % p) % p)

def encodedSize (c : PrimeCurve) : Nat := 1 + 2 * c.width

def Point.encode {c : PrimeCurve} (q : c.Point) : Bytes :=
  4 :: (Bytes.ofNatBE c.width q.x ++ Bytes.ofNatBE c.width q.y)

/-- Reads exactly the uncompressed encodings. -/
def decode? (c : PrimeCurve) : Bytes → Option c.Point
  | [] => none
  | mark :: rest =>
    if mark = 4 ∧ rest.length = 2 * c.width then
      c.point? (Bytes.toNatBE (rest.take c.width)) (Bytes.toNatBE (rest.drop c.width))
    else none

private theorem modulus_le (c : PrimeCurve) : c.modulus ≤ Bytes.capacity c.width := by
  cases c <;> decide +kernel

private theorem point?_eq_some_iff {c : PrimeCurve} {x y : Nat} {q : c.Point} :
    c.point? x y = some q ↔ q.x = x ∧ q.y = y := by
  constructor
  · intro h
    simp only [point?] at h
    split at h
    · cases h
      exact ⟨rfl, rfl⟩
    · cases h
  · rintro ⟨rfl, rfl⟩
    simp [point?, q.x_lt, q.y_lt, q.on_curve]

@[simp] theorem Point.length_encode {c : PrimeCurve} (q : c.Point) :
    q.encode.length = c.encodedSize := by
  simp [Point.encode, encodedSize]
  omega

theorem decode?_encode {c : PrimeCurve} (q : c.Point) : c.decode? q.encode = some q := by
  have hx : q.x % Bytes.capacity c.width = q.x :=
    Nat.mod_eq_of_lt (Nat.lt_of_lt_of_le q.x_lt c.modulus_le)
  have hy : q.y % Bytes.capacity c.width = q.y :=
    Nat.mod_eq_of_lt (Nat.lt_of_lt_of_le q.y_lt c.modulus_le)
  have hl : (Bytes.ofNatBE c.width q.x).length = c.width := by simp
  simp only [Point.encode, decode?]
  rw [if_pos ⟨by simp, by simp; omega⟩, List.take_left' hl, List.drop_left' hl,
    Bytes.toNatBE_ofNatBE, Bytes.toNatBE_ofNatBE, hx, hy]
  exact point?_eq_some_iff.2 ⟨rfl, rfl⟩

theorem encode_of_decode? {c : PrimeCurve} {data : Bytes} {q : c.Point}
    (h : c.decode? data = some q) : q.encode = data := by
  cases data with
  | nil => cases h
  | cons mark rest =>
    simp only [decode?] at h
    split at h
    case isFalse => cases h
    case isTrue hm =>
      obtain ⟨hx, hy⟩ := point?_eq_some_iff.1 h
      have h₁ : (rest.take c.width).length = c.width := by simp; omega
      have h₂ : (rest.drop c.width).length = c.width := by simp; omega
      have e₁ := Bytes.ofNatBE_toNatBE (rest.take c.width)
      have e₂ := Bytes.ofNatBE_toNatBE (rest.drop c.width)
      rw [h₁] at e₁
      rw [h₂] at e₂
      rw [Point.encode, hx, hy, e₁, e₂, List.take_append_drop, hm.1]

end PrimeCurve

end KeyCapsule
