import KeyCapsule.Datum.Sequence
import KeyCapsule.KeyAgreement

/-! Cipher suites: a group, a digest and the sizes that go with them. Five are built in, one for each
group. -/
namespace KeyCapsule

/-- How a suite makes private keys: by drawing candidates below an order, or by one expansion. A
detached suite has no curve at all. -/
inductive KeyRule
  | sampled (c : PrimeCurve)
  | expanded (l : Ladder)
  | detached
  deriving DecidableEq

namespace KeyRule

def curve? : KeyRule → Option PrimeCurve
  | sampled c => some c
  | _ => none

def checkMark (data : Datum) : Except Fault Unit := do
  if !(← data.slice .none (.int 1)).equals (.bytes [4]) then throw .compressedPoint

def keyBytes : Datum → Except Fault Bytes
  | .bytes b => .ok b
  | _ => .error Fault.typeMismatch

def decode (g : Group) (data : Datum) : Except Fault PublicKey := do
  match g.decode? (← keyBytes data) with
  | some k => return k
  | none => throw Fault.badValue

def readPublic (r : KeyRule) (data : Datum) : Except Fault PublicKey := do
  match r with
  | sampled c =>
    checkMark data
    decode (.prime c) data
  | expanded l => decode (.ladder l) data
  | detached => decode (.ladder .x448) data

def scalarKey (r : KeyRule) (n : Nat) : Except Fault PrivateKey :=
  match r with
  | sampled c => match Group.scalar? c n with
    | some k => .ok k
    | none => .error Fault.badValue
  | _ => .error Fault.typeMismatch

def seedKey (l : Ladder) (b : Bytes) : Except Fault PrivateKey :=
  match Group.seed? l b with
  | some k => .ok k
  | none => .error Fault.badValue

def readPrivate (r : KeyRule) (b : Bytes) : Except Fault PrivateKey :=
  match r with
  | sampled _ => r.scalarKey (Bytes.toNatBE b)
  | expanded l => seedKey l b
  | detached => seedKey .x448 b

/-- With a curve two keys of one curve agree, otherwise two keys of one ladder. -/
def agree (g : KeyAgreement) (r : KeyRule) (a : PrivateKey) (b : PublicKey) : Except Fault Bytes :=
  match r, a.group, b.group with
  | sampled _, .prime c, .prime d =>
    if c = d then accepted else .error Fault.badValue
  | expanded _, .ladder l, .ladder m | detached, .ladder l, .ladder m =>
    if l = m then accepted else .error Fault.typeMismatch
  | _, _, _ => .error Fault.typeMismatch
where
  accepted : Except Fault Bytes :=
    match g.exchange a b with
    | some agreed => .ok agreed
    | none => .error Fault.badValue

end KeyRule

structure Suite where
  kemId : Int
  name : String
  digest : String
  secretSize : Int
  encapsulationSize : Int
  privateKeySize : Int
  order : Int
  /-- Keeps the low digits of a candidate's first byte. -/
  bitmask : Int
  keys : KeyRule
  deriving DecidableEq

namespace Suite

def p256 : Suite where
  kemId := 0x10
  name := "DHKEM-P256-HKDF-SHA256"
  digest := "sha256"
  secretSize := 32
  encapsulationSize := 65
  privateKeySize := 32
  order := PrimeCurve.order .p256
  bitmask := 0xff
  keys := .sampled .p256

def p384 : Suite where
  kemId := 0x11
  name := "DHKEM-P384-HKDF-SHA384"
  digest := "sha384"
  secretSize := 48
  encapsulationSize := 97
  privateKeySize := 48
  order := PrimeCurve.order .p384
  bitmask := 0xff
  keys := .sampled .p384

def p521 : Suite where
  kemId := 0x12
  name := "DHKEM-P521-HKDF-SHA512"
  digest := "sha512"
  secretSize := 64
  encapsulationSize := 133
  privateKeySize := 66
  order := PrimeCurve.order .p521
  bitmask := 0x01
  keys := .sampled .p521

def x25519 : Suite where
  kemId := 0x20
  name := "DHKEM-X25519-HKDF-SHA256"
  digest := "sha256"
  secretSize := 32
  encapsulationSize := 32
  privateKeySize := 32
  order := 0
  bitmask := 0xff
  keys := .expanded .x25519

def x448 : Suite where
  kemId := 0x21
  name := "DHKEM-X448-HKDF-SHA512"
  digest := "sha512"
  secretSize := 64
  encapsulationSize := 56
  privateKeySize := 56
  order := 0
  bitmask := 0xff
  keys := .expanded .x448

def all : List Suite := [p256, p384, p521, x25519, x448]

def ofGroup : Group → Suite
  | .prime .p256 => p256
  | .prime .p384 => p384
  | .prime .p521 => p521
  | .ladder .x25519 => x25519
  | .ladder .x448 => x448

def named? (name : String) : Option Suite := all.find? fun s => s.name == name

def numbered? (id : Int) : Option Suite := all.find? fun s => s.kemId == id

def find (given : Datum) : Except Fault Suite :=
  match given.integer? with
  | some id => orUnknown (numbered? id)
  | none => match given with
    | .text name => orUnknown (named? name)
    | .list _ | .buffer _ => .error Fault.typeMismatch
    | _ => orUnknown none
where
  orUnknown : Option Suite → Except Fault Suite
    | some s => .ok s
    | none => .error (Fault.parameter (.unknownSuite given)).worded

def curve? (s : Suite) : Option PrimeCurve := s.keys.curve?

def readPublic (s : Suite) (data : Datum) : Except Fault PublicKey := s.keys.readPublic data

def agree (g : KeyAgreement) (s : Suite) (a : PrivateKey) (b : PublicKey) : Except Fault Bytes :=
  s.keys.agree g a b

end Suite

end KeyCapsule
