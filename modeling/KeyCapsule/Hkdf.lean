import KeyCapsule.Digest

/-! Keyed message tags; with them the extraction of a pseudorandom key from keying material, and its
expansion to any length up to 255 digest outputs. A key longer than a block is hashed first, a shorter one
is filled up with zeros, so an empty key and a key of zeros up to a block give the same tag. -/
namespace KeyCapsule.Hmac

/-- The key as exactly one block. -/
def block (d : Digest) (key : Bytes) : Bytes :=
  let short := if d.blockSize < key.length then d.hash key else key
  short ++ Bytes.zeros (d.blockSize - short.length)

def tag (d : Digest) (key message : Bytes) : Bytes :=
  let k := block d key
  d.hash (k.map (· ^^^ 0x5c) ++ d.hash (k.map (· ^^^ 0x36) ++ message))

@[simp] theorem length_tag (d : Digest) (key message : Bytes) :
    (tag d key message).length = d.size := by
  simp [tag]

end KeyCapsule.Hmac

namespace KeyCapsule.Hkdf

def saltOrZeros (d : Digest) (salt : Bytes) : Bytes :=
  if salt.isEmpty then Bytes.zeros d.size else salt

def extract (d : Digest) (salt material : Bytes) : Bytes :=
  Hmac.tag d (saltOrZeros d salt) material

/-- The chained output blocks; each takes in the block before it and its own number. -/
def blocks (d : Digest) (key info : Bytes) : Nat → Nat → Bytes → Bytes
  | 0, _, _ => []
  | count + 1, number, before =>
    let next := Hmac.tag d key (before ++ info ++ [UInt8.ofNat number])
    next ++ blocks d key info count (number + 1) next

def limit (d : Digest) : Nat := 255 * d.size

def expand (d : Digest) (key info : Bytes) (length : Nat) : Bytes :=
  (blocks d key info ((length + d.size - 1) / d.size) 1 []).take length

private theorem length_blocks (d : Digest) (key info : Bytes) (count number : Nat) (before : Bytes) :
    (blocks d key info count number before).length = count * d.size := by
  induction count generalizing number before with
  | zero => simp [blocks]
  | succ count ih => simp [blocks, ih, Nat.succ_mul]; omega

@[simp] theorem length_expand (d : Digest) (key info : Bytes) (length : Nat) :
    (expand d key info length).length = length := by
  have hd := d.size_pos
  have hm := Nat.div_add_mod (length + d.size - 1) d.size
  have hr := Nat.mod_lt (length + d.size - 1) hd
  rw [Nat.mul_comm] at hm
  rw [expand, List.length_take, length_blocks]
  omega

end KeyCapsule.Hkdf
