import KeyCapsule.Curve.Prime
import KeyCapsule.Curve.Ladder

/-! Keys of the five built-in groups. A key is valid by its type, a public key has exactly one
encoding, and reading it back gives the key. -/
namespace KeyCapsule

inductive PublicKey
  | point (c : PrimeCurve) (q : c.Point)
  | coordinate (l : Ladder) (u : { b : Bytes // b.length = l.size })
  deriving DecidableEq

inductive PrivateKey
  | scalar (c : PrimeCurve) (k : { n : Nat // 0 < n ∧ n < c.order })
  | seed (l : Ladder) (s : { b : Bytes // b.length = l.size })
  deriving DecidableEq

inductive Group
  | prime (c : PrimeCurve)
  | ladder (l : Ladder)
  deriving DecidableEq

namespace PublicKey

def group : PublicKey → Group
  | point c _ => .prime c
  | coordinate l _ => .ladder l

def serialize : PublicKey → Bytes
  | point _ q => q.encode
  | coordinate _ u => u.val

def typeName : PublicKey → String
  | point .. => "ECPublicKey"
  | coordinate .x25519 _ => "X25519PublicKey"
  | coordinate .x448 _ => "X448PublicKey"

end PublicKey

namespace PrivateKey

def group : PrivateKey → Group
  | scalar c _ => .prime c
  | seed l _ => .ladder l

def typeName : PrivateKey → String
  | scalar .. => "ECPrivateKey"
  | seed .x25519 _ => "X25519PrivateKey"
  | seed .x448 _ => "X448PrivateKey"

end PrivateKey

namespace Group

def encodedSize : Group → Nat
  | prime c => c.encodedSize
  | ladder l => l.size

def decode? : Group → Bytes → Option PublicKey
  | prime c, data => (c.decode? data).map (.point c)
  | ladder l, data => if h : data.length = l.size then some (.coordinate l ⟨data, h⟩) else none

def scalar? (c : PrimeCurve) (n : Nat) : Option PrivateKey :=
  if h : 0 < n ∧ n < c.order then some (.scalar c ⟨n, h⟩) else none

def seed? (l : Ladder) (b : Bytes) : Option PrivateKey :=
  if h : b.length = l.size then some (.seed l ⟨b, h⟩) else none

end Group

namespace PublicKey

@[simp] theorem length_serialize (k : PublicKey) : k.serialize.length = k.group.encodedSize := by
  cases k with
  | point c q => exact q.length_encode
  | coordinate l u => exact u.property

theorem decode?_serialize (k : PublicKey) : k.group.decode? k.serialize = some k := by
  cases k with
  | point c q => simp [group, serialize, Group.decode?, PrimeCurve.decode?_encode]
  | coordinate l u => simp [group, serialize, Group.decode?, u.property]

theorem of_decode? {g : Group} {data : Bytes} {k : PublicKey} (h : g.decode? data = some k) :
    k.group = g ∧ k.serialize = data := by
  cases g with
  | prime c =>
    obtain ⟨q, hq, rfl⟩ := Option.map_eq_some_iff.1 h
    exact ⟨rfl, PrimeCurve.encode_of_decode? hq⟩
  | ladder l =>
    simp only [Group.decode?] at h
    split at h
    · cases h
      exact ⟨rfl, rfl⟩
    · cases h

end PublicKey

end KeyCapsule
