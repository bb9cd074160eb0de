import KeyCapsule.Datum.Sequence

/-! Keys and parameters of the stand-in algorithm. Both halves of a pair carry the same material, and
any field may hold any value until a provider checks it. -/
namespace KeyCapsule

structure MockKey where
  id : Datum
  material : Datum
  algorithm : Datum

namespace MockKey

def defaultAlgorithm : Datum := "MockKEM"

def typeName : Side → String
  | .sender => "MockPublicKey"
  | .receiver => "MockPrivateKey"

def written (side : Side) (k : MockKey) : String :=
  typeName side ++ "(key_id=" ++ k.id.quoted ++ ", algorithm=" ++ k.algorithm.quoted ++ ")"

def equals (a b : MockKey) : Bool :=
  a.id.equals b.id && a.material.equals b.material && a.algorithm.equals b.algorithm

def assign (_ : MockKey) : Except Fault Unit := .error Fault.frozen

end MockKey

structure MockParameters where
  secretSize : Datum
  encapsulationSize : Datum
  /-- Any value, of which only the truth counts. -/
  allowSlicing : Datum

namespace MockParameters

def ofList : List Datum → Except Fault MockParameters
  | [secret, encapsulation] => .ok ⟨secret, encapsulation, .bool false⟩
  | [secret, encapsulation, slicing] => .ok ⟨secret, encapsulation, slicing⟩
  | _ => .error Fault.typeMismatch

def written (p : MockParameters) : String :=
  "MockParameters(secret_size=" ++ p.secretSize.quoted ++ ", encapsulation_size="
    ++ p.encapsulationSize.quoted ++ ", allow_slicing=" ++ p.allowSlicing.quoted ++ ")"

def field (x : Datum) : Except Fault Bytes :=
  match x.integer? with
  | some n => if 0 ≤ n ∧ n < 0x10000 then .ok (Bytes.ofNatBE 2 n.toNat) else .error (.refused .packing)
  | none => .error packing
where
  packing : Fault := .primitive .packing "required argument is not an integer"

def encode (p : MockParameters) : Except Fault Bytes := do
  let secret ← field p.secretSize
  let encapsulation ← field p.encapsulationSize
  return secret ++ encapsulation ++ [if p.allowSlicing.isEmpty then 0 else 1]

end MockParameters

end KeyCapsule
