import KeyCapsule.Bytes

/-! The SHA-2 family over machine words: padding, message schedule and rounds are shared, and a
member is told apart by rotation amounts, constants and start. Each output has its announced size. -/
namespace KeyCapsule

class Word (w : Type) extends Add w, XorOp w, AndOp w, Complement w, Inhabited w where
  /-- Bytes per word. -/
  size : Nat
  rotateRight : w → w → w
  shiftRight : w → w → w
  ofNat : Nat → w
  /-- The word with these big-endian bytes. -/
  ofBytes : Bytes → w
  /-- The big-endian bytes of a word. -/
  toBytes : w → Bytes
  length_toBytes : ∀ x, (toBytes x).length = size

instance : Word UInt32 where
  size := 4
  rotateRight x n := (x >>> n) ||| (x <<< (32 - n))
  shiftRight x n := x >>> n
  ofNat := UInt32.ofNat
  ofBytes b := b.foldl (fun acc x => (acc <<< 8) ||| x.toUInt32) 0
  toBytes x := [(x >>> 24).toUInt8, (x >>> 16).toUInt8, (x >>> 8).toUInt8, x.toUInt8]
  length_toBytes _ := rfl

instance : Word UInt64 where
  size := 8
  rotateRight x n := (x >>> n) ||| (x <<< (64 - n))
  shiftRight x n := x >>> n
  ofNat := UInt64.ofNat
  ofBytes b := b.foldl (fun acc x => (acc <<< 8) ||| x.toUInt64) 0
  toBytes x := [(x >>> 56).toUInt8, (x >>> 48).toUInt8, (x >>> 40).toUInt8, (x >>> 32).toUInt8,
    (x >>> 24).toUInt8, (x >>> 16).toUInt8, (x >>> 8).toUInt8, x.toUInt8]
  length_toBytes _ := rfl

namespace Sha2

structure Chain (w : Type) where
  (a b c d e f g h : w)

/-- What tells one member of the family from another: the rotation amounts of the four mixing
functions (the last of the schedule's amounts are shifts), the round constants and the start. -/
structure Family (w : Type) where
  bigA : w × w × w
  bigE : w × w × w
  smallA : w × w × w
  smallE : w × w × w
  constants : List w
  start : Chain w

variable {w : Type} [Word w]

@[specialize] def spin (r : w × w × w) (x : w) : w :=
  Word.rotateRight x r.1 ^^^ Word.rotateRight x r.2.1 ^^^ Word.rotateRight x r.2.2

@[specialize] def drift (r : w × w × w) (x : w) : w :=
  Word.rotateRight x r.1 ^^^ Word.rotateRight x r.2.1 ^^^ Word.shiftRight x r.2.2

/-- Extends the sixteen message words of a block to one word for each remaining round. -/
@[specialize] def schedule (f : Family w) : Nat → Nat → Array w → Array w
  | 0, _, ws => ws
  | n + 1, t, ws =>
    let next := drift f.smallE (ws.getD (t - 2) default) + ws.getD (t - 7) default
      + drift f.smallA (ws.getD (t - 15) default) + ws.getD (t - 16) default
    schedule f n (t + 1) (ws.push next)

@[specialize] def round (f : Family w) (s : Chain w) (constant message : w) : Chain w :=
  let t₁ := s.h + spin f.bigE s.e + ((s.e &&& s.f) ^^^ (~~~s.e &&& s.g)) + constant + message
  let t₂ := spin f.bigA s.a + ((s.a &&& s.b) ^^^ (s.a &&& s.c) ^^^ (s.b &&& s.c))
  ⟨t₁ + t₂, s.a, s.b, s.c, s.d + t₁, s.e, s.f, s.g⟩

@[specialize] def rounds (f : Family w) (ws : Array w) : Nat → List w → Chain w → Chain w
  | _, [], s => s
  | t, k :: ks, s => rounds f ws (t + 1) ks (round f s k (ws.getD t default))

/-- The first `n` words of a byte string, and what follows them. -/
@[specialize] def words : Nat → Bytes → Array w → Array w × Bytes
  | 0, rest, acc => (acc, rest)
  | n + 1, rest, acc =>
    words n (rest.drop (Word.size w)) (acc.push (Word.ofBytes (rest.take (Word.size w))))

@[specialize] def absorb (f : Family w) : Nat → Bytes → Chain w → Chain w
  | 0, _, s => s
  | n + 1, message, s =>
    let (block, rest) := words 16 message #[]
    let r := rounds f (schedule f (f.constants.length - 16) 16 block) 0 f.constants s
    absorb f n rest ⟨s.a + r.a, s.b + r.b, s.c + r.c, s.d + r.d, s.e + r.e, s.f + r.f, s.g + r.g,
      s.h + r.h⟩

def fill (block field length : Nat) : Nat := (2 * block - 1 - field - length % block) % block

@[specialize] def digest (f : Family w) (message : Bytes) : Bytes :=
  let block := 16 * Word.size w
  let field := 2 * Word.size w
  let padded := message ++ 0x80 :: (Bytes.zeros (fill block field message.length)
    ++ Bytes.ofNatBE field (8 * message.length))
  let s := absorb f (padded.length / block) padded f.start
  [s.a, s.b, s.c, s.d, s.e, s.f, s.g, s.h].flatMap Word.toBytes

def family256 : Family UInt32 where
  bigA := (2, 13, 22)
  bigE := (6, 11, 25)
  smallA := (7, 18, 3)
  smallE := (17, 19, 10)
  constants := [
    0x428a2f98, 0x71374491, 0xb5c0fbcf, 0xe9b5dba5, 0x3956c25b, 0x59f111f1, 0x923f82a4, 0xab1c5ed5,
    0xd807aa98, 0x12835b01, 0x243185be, 0x550c7dc3, 0x72be5d74, 0x80deb1fe, 0x9bdc06a7, 0xc19bf174,
    0xe49b69c1, 0xefbe4786, 0x0fc19dc6, 0x240ca1cc, 0x2de92c6f, 0x4a7484aa, 0x5cb0a9dc, 0x76f988da,
    0x983e5152, 0xa831c66d, 0xb00327c8, 0xbf597fc7, 0xc6e00bf3, 0xd5a79147, 0x06ca6351, 0x14292967,
    0x27b70a85, 0x2e1b2138, 0x4d2c6dfc, 0x53380d13, 0x650a7354, 0x766a0abb, 0x81c2c92e, 0x92722c85,
    0xa2bfe8a1, 0xa81a664b, 0xc24b8b70, 0xc76c51a3, 0xd192e819, 0xd6990624, 0xf40e3585, 0x106aa070,
    0x19a4c116, 0x1e376c08, 0x2748774c, 0x34b0bcb5, 0x391c0cb3, 0x4ed8aa4a, 0x5b9cca4f, 0x682e6ff3,
    0x748f82ee, 0x78a5636f, 0x84c87814, 0x8cc70208, 0x90befffa, 0xa4506ceb, 0xbef9a3f7, 0xc67178f2]
  start := ⟨0x6a09e667, 0xbb67ae85, 0x3c6ef372, 0xa54ff53a,
    0x510e527f, 0x9b05688c, 0x1f83d9ab, 0x5be0cd19⟩

def family512 : Family UInt64 where
  bigA := (28, 34, 39)
  bigE := (14, 18, 41)
  smallA := (1, 8, 7)
  smallE := (19, 61, 6)
  constants := [
    0x428a2f98d728ae22, 0x7137449123ef65cd, 0xb5c0fbcfec4d3b2f, 0xe9b5dba58189dbbc,
    0x3956c25bf348b538, 0x59f111f1b605d019, 0x923f82a4af194f9b, 0xab1c5ed5da6d8118,
    0xd807aa98a3030242, 0x12835b0145706fbe, 0x243185be4ee4b28c, 0x550c7dc3d5ffb4e2,
    0x72be5d74f27b896f, 0x80deb1fe3b1696b1, 0x9bdc06a725c71235, 0xc19bf174cf692694,
    0xe49b69c19ef14ad2, 0xefbe4786384f25e3, 0x0fc19dc68b8cd5b5, 0x240ca1cc77ac9c65,
    0x2de92c6f592b0275, 0x4a7484aa6ea6e483, 0x5cb0a9dcbd41fbd4, 0x76f988da831153b5,
    0x983e5152ee66dfab, 0xa831c66d2db43210, 0xb00327c898fb213f, 0xbf597fc7beef0ee4,
    0xc6e00bf33da88fc2, 0xd5a79147930aa725, 0x06ca6351e003826f, 0x142929670a0e6e70,
    0x27b70a8546d22ffc, 0x2e1b21385c26c926, 0x4d2c6dfc5ac42aed, 0x53380d139d95b3df,
    0x650a73548baf63de, 0x766a0abb3c77b2a8, 0x81c2c92e47edaee6, 0x92722c851482353b,
    0xa2bfe8a14cf10364, 0xa81a664bbc423001, 0xc24b8b70d0f89791, 0xc76c51a30654be30,
    0xd192e819d6ef5218, 0xd69906245565a910, 0xf40e35855771202a, 0x106aa07032bbd1b8,
    0x19a4c116b8d2d0c8, 0x1e376c085141ab53, 0x2748774cdf8eeb99, 0x34b0bcb5e19b48a8,
    0x391c0cb3c5c95a63, 0x4ed8aa4ae3418acb, 0x5b9cca4f7763e373, 0x682e6ff3d6b2b8a3,
    0x748f82ee5defb2fc, 0x78a5636f43172f60, 0x84c87814a1f0ab72, 0x8cc702081a6439ec,
    0x90befffa23631e28, 0xa4506cebde82bde9, 0xbef9a3f7b2c67915, 0xc67178f2e372532b,
    0xca273eceea26619c, 0xd186b8c721c0c207, 0xeada7dd6cde0eb1e, 0xf57d4f7fee6ed178,
    0x06f067aa72176fba, 0x0a637dc5a2c898a6, 0x113f9804bef90dae, 0x1b710b35131c471b,
    0x28db77f523047d84, 0x32caab7b40c72493, 0x3c9ebe0a15c9bebc, 0x431d67c49c100d4c,
    0x4cc5d4becb3e42b6, 0x597f299cfc657e2a, 0x5fcb6fab3ad6faec, 0x6c44198c4a475817]
  start := ⟨0x6a09e667f3bcc908, 0xbb67ae8584caa73b,
    0x3c6ef372fe94f82b, 0xa54ff53a5f1d36f1,
    0x510e527fade682d1, 0x9b05688c2b3e6c1f,
    0x1f83d9abfb41bd6b, 0x5be0cd19137e2179⟩

def family384 : Family UInt64 :=
  { family512 with
    start := ⟨0xcbbb9d5dc1059ed8, 0x629a292a367cd507,
      0x9159015a3070dd17, 0x152fecd8f70e5939,
      0x67332667ffc00b31, 0x8eb44a8768581511,
      0xdb0c2e0d64f98fa7, 0x47b5481dbefa4fa4⟩ }

theorem length_digest (f : Family w) (message : Bytes) :
    (digest f message).length = 8 * Word.size w := by
  simp only [digest, List.flatMap_cons, List.flatMap_nil, List.length_append,
    Word.length_toBytes, List.length_nil]
  omega

def sha256 (message : Bytes) : Bytes := digest family256 message
def sha512 (message : Bytes) : Bytes := digest family512 message
def sha384 (message : Bytes) : Bytes := (digest family384 message).take 48

@[simp] theorem length_sha256 (message : Bytes) : (sha256 message).length = 32 :=
  length_digest family256 message

@[simp] theorem length_sha512 (message : Bytes) : (sha512 message).length = 64 :=
  length_digest family512 message

@[simp] theorem length_sha384 (message : Bytes) : (sha384 message).length = 48 := by
  have h : (digest family384 message).length = 64 := length_digest family384 message
  rw [sha384, List.length_take, h]
  rfl

end Sha2

end KeyCapsule
