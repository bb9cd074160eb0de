import Mathlib.Algebra.Group.Nat.Defs
import KeyCapsule.Hkdf
import KeyCapsule.KeyAgreement

/-! Key encapsulation by Diffie-Hellman agreement as RFC 9180 prescribes it in section 4.1, octet by octet.
Labels, widths, sizes and the order of all fields are written out here once more; only digests, keyed tags
and the arithmetic of the curves are taken as they are. -/
namespace KeyCapsule.Standard

def octets (s : String) : Bytes := s.toUTF8.toList

def i2osp (n width : Nat) : Bytes :=
  (List.range width).map fun i => UInt8.ofNat (n / 256 ^ (width - 1 - i))

def os2ip (b : Bytes) : Nat := b.foldl (fun n x => 256 * n + x.toNat) 0

def extract (h : Digest) (salt material : Bytes) : Bytes :=
  Hmac.tag h (if salt = [] then List.replicate h.size 0 else salt) material

def block (h : Digest) (key info : Bytes) : Nat → Bytes
  | 0 => []
  | i + 1 => Hmac.tag h key (block h key info i ++ info ++ [UInt8.ofNat (i + 1)])

def expand (h : Digest) (key info : Bytes) (length : Nat) : Bytes :=
  let count := (length + h.size - 1) / h.size
  ((List.range count).map fun i => block h key info (i + 1)).flatten.take length

structure Parameters where
  kemId : Nat
  hash : Digest
  secretSize : Nat
  encapsulationSize : Nat
  privateKeySize : Nat

def parameters : Group → Parameters
  | .prime .p256 => ⟨0x0010, .sha256, 32, 65, 32⟩
  | .prime .p384 => ⟨0x0011, .sha384, 48, 97, 48⟩
  | .prime .p521 => ⟨0x0012, .sha512, 64, 133, 66⟩
  | .ladder .x25519 => ⟨0x0020, .sha256, 32, 32, 32⟩
  | .ladder .x448 => ⟨0x0021, .sha512, 64, 56, 56⟩

namespace Parameters

def suiteId (p : Parameters) : Bytes := octets "KEM" ++ i2osp p.kemId 2

def labeledExtract (p : Parameters) (salt : Bytes) (label : String) (material : Bytes) : Bytes :=
  extract p.hash salt (octets "HPKE-v1" ++ p.suiteId ++ octets label ++ material)

def labeledExpand (p : Parameters) (key : Bytes) (label : String) (info : Bytes) (length : Nat) : Bytes :=
  expand p.hash key (i2osp length 2 ++ octets "HPKE-v1" ++ p.suiteId ++ octets label ++ info) length

def extractAndExpand (p : Parameters) (agreed context : Bytes) : Bytes :=
  p.labeledExpand (p.labeledExtract [] "eae_prk" agreed) "shared_secret" context p.secretSize

def candidate (p : Parameters) (bitmask : UInt8) (key : Bytes) (counter : Nat) : Nat :=
  match p.labeledExpand key "candidate" (i2osp counter 1) p.privateKeySize with
  | [] => 0
  | first :: rest => os2ip ((first &&& bitmask) :: rest)

end Parameters

inductive Failure
  | deriveKeyPair
  | deserialize
  | validation
  deriving DecidableEq

/-- As long as the number at hand is zero or not below the order, it is replaced by the candidate of the
counter, which must not exceed 255. -/
def search (order : Nat) (candidate : Nat → Nat) (n counter : Nat) :
    Except Failure { n : Nat // 0 < n ∧ n < order } :=
  if h : n = 0 ∨ order ≤ n then
    if 255 < counter then .error .deriveKeyPair
    else search order candidate (candidate counter) (counter + 1)
  else .ok ⟨n, by omega⟩
termination_by 256 - counter

def bitmask : PrimeCurve → UInt8
  | .p256 | .p384 => 0xff
  | .p521 => 0x01

theorem length_expand (h : Digest) (key info : Bytes) (length : Nat) :
    (expand h key info length).length = length := by
  have hd := h.size_pos
  have hm := Nat.div_add_mod (length + h.size - 1) h.size
  have hr := Nat.mod_lt (length + h.size - 1) hd
  have hb : ∀ i, (block h key info (i + 1)).length = h.size := fun i => Hmac.length_tag _ _ _
  rw [Nat.mul_comm] at hm
  simp only [expand, List.length_take, List.length_flatten, List.map_map, Function.comp_def, hb,
    List.map_const', List.length_range, List.sum_replicate_nat]
  omega

def seed (l : Ladder) (key : Bytes) : Bytes :=
  (parameters (.ladder l)).labeledExpand key "sk" [] (parameters (.ladder l)).privateKeySize

private theorem length_seed (l : Ladder) (key : Bytes) : (seed l key).length = l.size := by
  rw [seed, Parameters.labeledExpand, length_expand]
  cases l <;> rfl

def deriveKeyPair (g : Group) (material : Bytes) : Except Failure PrivateKey :=
  let p := parameters g
  let key := p.labeledExtract [] "dkp_prk" material
  match g with
  | .prime c => (search c.order (p.candidate (bitmask c) key) 0 0).map (.scalar c)
  | .ladder l => .ok (.seed l ⟨seed l key, length_seed l key⟩)

def serialize : PublicKey → Bytes
  | .point c q => 4 :: (i2osp q.x c.width ++ i2osp q.y c.width)
  | .coordinate _ u => u.val

def deserialize (g : Group) (b : Bytes) : Except Failure PublicKey :=
  match g with
  | .prime c =>
    if b.length = 1 + 2 * c.width ∧ b.head? = some 4 then
      match c.point? (os2ip ((b.drop 1).take c.width)) (os2ip (b.drop (1 + c.width))) with
      | some q => .ok (.point c q)
      | none => .error .deserialize
    else .error .deserialize
  | .ladder l => if h : b.length = l.size then .ok (.coordinate l ⟨b, h⟩) else .error .deserialize

structure Arithmetic where
  publicOf : PrivateKey → PublicKey
  /-- The value that a private key and a public key of its group come to, before anyone looks at it.
  `none` is the point at infinity, which has no coordinate. -/
  multiply : PrivateKey → PublicKey → Option Bytes

namespace Arithmetic

/-- Agreement. The point at infinity is refused, and on a ladder also a value of all zeros. -/
def agree (a : Arithmetic) (k : PrivateKey) (q : PublicKey) : Except Failure Bytes :=
  match a.multiply k q, k.group with
  | none, _ => .error .validation
  | some z, .prime _ => .ok z
  | some z, .ladder _ => if z.all (· == 0) then .error .validation else .ok z

def encap (a : Arithmetic) (receiver : PublicKey) (material : Bytes) : Except Failure (Bytes × Bytes) := do
  let ephemeral ← deriveKeyPair receiver.group material
  let agreed ← a.agree ephemeral receiver
  let enc := serialize (a.publicOf ephemeral)
  return ((parameters receiver.group).extractAndExpand agreed (enc ++ serialize receiver), enc)

def decap (a : Arithmetic) (enc : Bytes) (receiver : PrivateKey) : Except Failure Bytes := do
  let ephemeral ← deserialize receiver.group enc
  let agreed ← a.agree receiver ephemeral
  return (parameters receiver.group).extractAndExpand agreed (enc ++ serialize (a.publicOf receiver))

def curves : Arithmetic where
  publicOf := KeyAgreement.standardPublic
  multiply
    | .scalar c k, .point d q =>
      if h : d = c then (c.multiply k.val (h ▸ q)).map fun r => i2osp r.x c.width else none
    | .seed l s, .coordinate m u =>
      if m = l then some (l.encode (l.multiply (l.multiplier s.val) (l.coordinate u.val))) else none
    | _, _ => none

end Arithmetic

end KeyCapsule.Standard
