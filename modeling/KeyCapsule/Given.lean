import KeyCapsule.Key
import KeyCapsule.MockKem.Key

/-! What callers hand to a provider as a key and as parameters. Providers tell these apart by their
types alone, so of keys and objects that no provider takes only the type is kept. -/
namespace KeyCapsule

inductive KeyValue
  | publicKey (k : PublicKey)
  | privateKey (k : PrivateKey)
  | mock (side : Side) (k : MockKey)
  /-- A key on a curve of no suite. -/
  | foreign (side : Side) (curve : String)
  | plain (d : Datum)

namespace KeyValue

def typeName : KeyValue → String
  | publicKey k => k.typeName
  | privateKey k => k.typeName
  | mock side _ => MockKey.typeName side
  | foreign .sender _ => "ECPublicKey"
  | foreign .receiver _ => "ECPrivateKey"
  | plain d => d.typeName

def isAbsent : KeyValue → Bool
  | plain .none => true
  | _ => false

/-- Public keys and the stand-in's keys compare by their parts; the two halves of a pair differ, and
so do keys of unlike kinds. Private keys do not compare: each equals itself alone, whatever its
bytes. -/
def equals : KeyValue → KeyValue → Bool
  | publicKey a, publicKey b => a == b
  | mock s a, mock t b => s == t && a.equals b
  | plain a, plain b => a.equals b
  | _, _ => false

end KeyValue

inductive ParamsValue
  | absent
  /-- Parameters that name a suite by its identifier. -/
  | suiteId (id : Datum)
  | mock (p : MockParameters)
  | plain (d : Datum)

namespace ParamsValue

def ofDatum : Datum → ParamsValue
  | .none => absent
  | d => plain d

def typeName : ParamsValue → String
  | absent => "NoneType"
  | suiteId _ => "DHKEMParameters"
  | mock _ => "MockParameters"
  | plain d => d.typeName

def suiteIdWritten (id : Datum) : String := "DHKEMParameters(kem_id=" ++ id.quoted ++ ")"

end ParamsValue

end KeyCapsule
