import KeyCapsule.Hkdf
import KeyCapsule.Datum.Sequence

/-! Key derivation as callers ask for it: the digest by name, everything else any value. Whatever is
not a byte string, a known name or a length in range is refused, in a fixed order. -/
namespace KeyCapsule

def Digest.known (name : String) : Except Fault Digest :=
  match Digest.named? name with
  | some d => .ok d
  | none => .error Fault.badValue

namespace Hkdf.Request

/-- The digest whose size an absent salt takes. A name must not contain a NUL. -/
def sizing : Datum → Except Fault Digest
  | .text name => if name.toList.contains '\x00' then .error Fault.typeMismatch else Digest.known name
  | _ => .error Fault.typeMismatch

def terminated (name : String) : String := String.ofList (name.toList.takeWhile (· != '\x00'))

private theorem terminated_of_notMem {name : String} (h : '\x00' ∉ name.toList) : terminated name = name := by
  have ht : ∀ cs : List Char, '\x00' ∉ cs → cs.takeWhile (· != '\x00') = cs := by
    intro cs
    induction cs with
    | nil => simp
    | cons c cs ih =>
      intro hc
      have hne : c ≠ '\x00' := fun he => hc (he ▸ List.mem_cons_self)
      simp [hne, ih (fun hm => hc (List.mem_cons_of_mem _ hm))]
  rw [terminated, ht _ h, String.ofList_toList]

def tagging (name : Datum) : Except Fault Digest :=
  if name.isEmpty then .error Fault.typeMismatch
  else match name with
    | .text name => Digest.known (terminated name)
    | _ => .error Fault.noAttribute

def message : Datum → Except Fault Bytes
  | .none => .ok []
  | x => x.joinable

def salting (name salt : Datum) : Except Fault Bytes := do
  if salt.isEmpty then return Bytes.zeros (← sizing name).size
  salt.joinable

def extract (name salt material : Datum) : Except Fault Bytes := do
  let key ← salting name salt
  let d ← tagging name
  return Hmac.tag d key (← message material)

def expanding : Datum → Except Fault Digest
  | .text name => match Digest.verbatim? name with
    | some d => .ok d
    | none => .error (.unknownDigest name)
  | .list _ | .buffer _ => .error Fault.typeMismatch
  | name => .error (Fault.unknownDigest name).worded

def wordLength (length : Datum) : Except Fault Nat :=
  match length.integer? with
  | some n => if n < 0 ∨ 0x10000000000000000 ≤ n then .error Fault.outOfWord else .ok n.toNat
  | none => .error Fault.typeMismatch

/-- The text that an expansion is bound to; it may be absent but not changeable. -/
def context : Datum → Except Fault Bytes
  | .none => .ok []
  | .bytes b => .ok b
  | _ => .error Fault.typeMismatch

def terms (d : Digest) (info length : Datum) : Except Fault (Bytes × Nat) := do
  let n ← wordLength length
  let info ← context info
  if limit d < n then throw Fault.badValue
  return (info, n)

def expand (name key info length : Datum) : Except Fault Bytes := do
  let d ← expanding name
  let (info, n) ← terms d info length
  return Hkdf.expand d (← key.joinable) info n

def derive (d : Digest) (material info length : Datum) : Except Fault Bytes := do
  let (info, n) ← terms d info length
  return Hkdf.expand d (Hkdf.extract d [] (← material.joinable)) info n

theorem extract_bytes {name : String} {d : Digest} (h : Digest.named? name = some d)
    (salt material : Bytes) :
    extract name salt material = .ok (Hkdf.extract d salt material) := by
  have hn : name ≠ "" := by
    rintro rfl
    have hn : Digest.named? "" = none := by decide +kernel
    exact absurd (hn.symm.trans h) (by simp)
  have h0 := Digest.nul_notMem_of_named? h
  have ht : tagging name = .ok d := by
    simp [tagging, Datum.isEmpty, hn, Digest.known, terminated_of_notMem h0, h]
  have hs : salting name salt = .ok (saltOrZeros d salt) := by
    cases salt <;>
      simp [salting, sizing, Datum.isEmpty, saltOrZeros, Digest.known, h0, h, bind, Except.bind, pure,
        Except.pure]
  simp [extract, hs, ht, message, bind, Except.bind, pure, Except.pure, Hkdf.extract]

theorem terms_bytes (d : Digest) (info : Bytes) {length : Nat} (hl : length ≤ limit d) :
    terms d info (length : Int) = .ok (info, length) := by
  have hd : limit d < 0x10000000000000000 := by cases d <;> decide
  have hw : wordLength (.int (length : Int)) = .ok length := by
    simp only [wordLength, Datum.integer?_int]
    rw [if_neg (by omega)]
    simp
  simp [terms, hw, context, Nat.not_lt.2 hl, bind, Except.bind, pure, Except.pure]

theorem expand_bytes {name : String} {d : Digest} (h : Digest.verbatim? name = some d)
    (key info : Bytes) {length : Nat} (hl : length ≤ limit d) :
    expand name key info (length : Int) = .ok (Hkdf.expand d key info length) := by
  have hx : expanding (.text name) = .ok d := by simp [expanding, h]
  simp [expand, hx, terms_bytes d info hl, bind, Except.bind, pure, Except.pure]

theorem derive_bytes (d : Digest) (material info : Bytes) {length : Nat} (hl : length ≤ limit d) :
    derive d material info (length : Int)
      = .ok (Hkdf.expand d (Hkdf.extract d [] material) info length) := by
  simp [derive, terms_bytes d info hl, bind, Except.bind, pure, Except.pure]

end Hkdf.Request

end KeyCapsule
