import KeyCapsule.Digest.Sha2
import KeyCapsule.Digest.Md5

/-! Digests and their names. Extraction finds a digest by any of its registered spellings, without
regard to case; expansion knows three names and no other spelling. -/
namespace KeyCapsule

inductive Digest
  | md5
  | sha256
  | sha384
  | sha512
  deriving DecidableEq

namespace Digest

def size : Digest → Nat
  | md5 => 16
  | sha256 => 32
  | sha384 => 48
  | sha512 => 64

def blockSize : Digest → Nat
  | md5 => 64
  | sha256 => 64
  | sha384 => 128
  | sha512 => 128

def hash : Digest → Bytes → Bytes
  | md5 => Md5.digest
  | sha256 => Sha2.sha256
  | sha384 => Sha2.sha384
  | sha512 => Sha2.sha512

@[simp] theorem length_hash (d : Digest) (message : Bytes) : (d.hash message).length = d.size := by
  cases d <;> simp [hash, size]

theorem size_pos (d : Digest) : 0 < d.size := by cases d <;> decide

/-- The digests that expansion knows, by their exact names. -/
def verbatim? : String → Option Digest
  | "sha256" => some sha256
  | "sha384" => some sha384
  | "sha512" => some sha512
  | _ => none

def spellings : Digest → List String
  | md5 => ["md5", "ssl3-md5", "1.2.840.113549.2.5"]
  | sha256 => ["sha256", "sha-256", "sha2-256", "2.16.840.1.101.3.4.2.1"]
  | sha384 => ["sha384", "sha-384", "sha2-384", "2.16.840.1.101.3.4.2.2"]
  | sha512 => ["sha512", "sha-512", "sha2-512", "2.16.840.1.101.3.4.2.3"]

/-- Letters outside ASCII have no case here. -/
def named? (name : String) : Option Digest :=
  let folded := String.ofList (name.toList.map Char.toLower)
  [md5, sha256, sha384, sha512].find? fun d => d.spellings.contains folded

private theorem nul_notMem_spelling {d : Digest} {s : String} (h : s ∈ d.spellings) : '\x00' ∉ s.toList := by
  have all : ∀ d : Digest, ∀ s ∈ d.spellings, '\x00' ∉ s.toList := by
    intro d
    cases d <;> decide +kernel
  exact all d s h

/-- A name that is known holds no NUL. -/
theorem nul_notMem_of_named? {name : String} {d : Digest} (h : named? name = some d) :
    '\x00' ∉ name.toList := by
  intro hm
  have hs := List.find?_some h
  have hf : '\x00' ∈ (String.ofList (name.toList.map Char.toLower)).toList := by
    rw [String.toList_ofList]
    exact List.mem_map.2 ⟨_, hm, rfl⟩
  exact nul_notMem_spelling (List.contains_iff_mem.1 hs) hf

end Digest

end KeyCapsule
