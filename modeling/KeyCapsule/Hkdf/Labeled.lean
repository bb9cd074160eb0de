import KeyCapsule.Hkdf.Request

/-! Labeled derivation. What goes into an extraction or an expansion is a plain concatenation of a
version, a suite identifier, a label and the payload; an expansion puts its length in front. -/
namespace KeyCapsule.Hkdf.Labeled

def label (s : String) : Bytes := s.toList.map fun c => UInt8.ofNat c.toNat

def version : Bytes := label "HPKE-v1"

def material (suiteId label payload : Bytes) : Bytes := version ++ suiteId ++ label ++ payload

def info (length : Nat) (suiteId label payload : Bytes) : Bytes :=
  Bytes.ofNatBE 2 length ++ version ++ suiteId ++ label ++ payload

def extract (name suiteId salt label payload : Datum) : Except Fault Bytes := do
  let suiteId ← suiteId.joinable
  let label ← label.joinable
  let payload ← payload.joinable
  Request.extract name salt (material suiteId label payload)

def field (n : Datum) : Except Fault Nat :=
  match n.integer? with
  | some n => if n < 0 ∨ 0x10000 ≤ n then .error Fault.outOfWord else .ok n.toNat
  | none => .error Fault.noAttribute

def expand (name suiteId key label payload length : Datum) : Except Fault Bytes := do
  let n ← field length
  let suiteId ← suiteId.joinable
  let label ← label.joinable
  let payload ← payload.joinable
  Request.expand name key (info n suiteId label payload) length

theorem extract_bytes {name : String} {d : Digest} (h : Digest.named? name = some d)
    (suiteId salt label payload : Bytes) :
    extract name suiteId salt label payload
      = .ok (Hkdf.extract d salt (material suiteId label payload)) := by
  simpa [extract, bind, Except.bind] using Request.extract_bytes h salt _

theorem field_int {n : Nat} (h : n < 0x10000) : field (n : Int) = .ok n := by
  simp only [field, Datum.integer?_int]
  rw [if_neg (by omega)]
  simp

theorem expand_bytes {name : String} {d : Digest} (h : Digest.verbatim? name = some d)
    (suiteId key label payload : Bytes) {length : Nat} (hl : length ≤ limit d) :
    expand name suiteId key label payload (length : Int)
      = .ok (Hkdf.expand d key (info length suiteId label payload) length) := by
  have hd : limit d < 0x10000 := by cases d <;> decide
  have hf := field_int (n := length) (by omega)
  simpa [expand, hf, bind, Except.bind] using Request.expand_bytes h key _ hl

end KeyCapsule.Hkdf.Labeled
