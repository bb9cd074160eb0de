import KeyCapsule.Hkdf.Labeled
import KeyCapsule.Suite

/-! What a suite derives: its identifier, private keys from keying material, and shared secrets. The
fields that a derivation goes by may be replaced by values of any kind; a value that cannot serve is
refused where it is first needed. With a curve, numbered candidates are drawn until one lies strictly
between zero and the order, 256 of them at most. -/
namespace KeyCapsule

structure Derivation where
  kemId : Datum
  digest : Datum
  secretSize : Datum
  privateKeySize : Datum
  /-- Keeps the low digits of a candidate's first byte. -/
  bitmask : Datum
  order : Int
  keys : KeyRule

namespace Derivation

structure Edit where
  kemId : Option Datum := none
  digest : Option Datum := none
  secretSize : Option Datum := none
  privateKeySize : Option Datum := none
  bitmask : Option Datum := none
  order : Option Int := none

/-- An edited derivation keeps its curve, but only the built-in ones derive keys by one expansion. -/
def edit (d : Derivation) (e : Edit) : Derivation where
  kemId := e.kemId.getD d.kemId
  digest := e.digest.getD d.digest
  secretSize := e.secretSize.getD d.secretSize
  privateKeySize := e.privateKeySize.getD d.privateKeySize
  bitmask := e.bitmask.getD d.bitmask
  order := e.order.getD d.order
  keys := match d.keys with
    | .expanded _ => .detached
    | other => other

def id (d : Derivation) : Except Fault Bytes :=
  (Hkdf.Labeled.field d.kemId).map fun n => Hkdf.Labeled.label "KEM" ++ Bytes.ofNatBE 2 n

def masked (d : Derivation) : Bytes → Except Fault Nat
  | [] => .error (.primitive .index "bytearray index out of range")
  | first :: rest => match d.bitmask.integer? with
    | some mask => .ok (Bytes.toNatBE ((first &&& UInt8.ofNat (mask % 256).toNat) :: rest))
    | none => .error Fault.typeMismatch

def candidate (d : Derivation) (id key : Bytes) (counter : Nat) : Except Fault Nat := do
  d.masked (← Hkdf.Labeled.expand d.digest id key (Hkdf.Labeled.label "candidate")
    [UInt8.ofNat counter] d.privateKeySize)

def sample (d : Derivation) (id key : Bytes) : Nat → Nat → Except Fault PrivateKey
  | 0, _ => .error .noScalar
  | tries + 1, counter => do
    let n ← d.candidate id key counter
    if 0 < n ∧ (n : Int) < d.order then d.keys.scalarKey n
    else sample d id key tries (counter + 1)

def expandKey (d : Derivation) (l : Ladder) (id key : Bytes) : Except Fault PrivateKey := do
  KeyRule.seedKey l
    (← Hkdf.Labeled.expand d.digest id key (Hkdf.Labeled.label "sk") (.bytes []) d.privateKeySize)

def deriveKey (d : Derivation) (material : Datum) : Except Fault PrivateKey := do
  let id ← d.id
  let key ← Hkdf.Labeled.extract d.digest id (.bytes []) (Hkdf.Labeled.label "dkp_prk") material
  match d.keys with
  | .expanded l => d.expandKey l id key
  | _ => d.sample id key 256 0

def sharedSecret (d : Derivation) (agreed context : Datum) : Except Fault Bytes := do
  let id ← d.id
  let key ← Hkdf.Labeled.extract d.digest id (.bytes []) (Hkdf.Labeled.label "eae_prk") agreed
  Hkdf.Labeled.expand d.digest id key (Hkdf.Labeled.label "shared_secret") context d.secretSize

end Derivation

namespace Suite

def derivation (s : Suite) : Derivation where
  kemId := s.kemId
  digest := s.digest
  secretSize := s.secretSize
  privateKeySize := s.privateKeySize
  bitmask := s.bitmask
  order := s.order
  keys := s.keys

def id (s : Suite) : Except Fault Bytes := s.derivation.id

def deriveKey (s : Suite) (material : Datum) : Except Fault PrivateKey :=
  s.derivation.deriveKey material

def sharedSecret (s : Suite) (agreed context : Datum) : Except Fault Bytes :=
  s.derivation.sharedSecret agreed context

end Suite

end KeyCapsule
