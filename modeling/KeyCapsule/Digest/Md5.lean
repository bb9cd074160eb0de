import KeyCapsule.Bytes

/-! MD5, which extraction accepts by name although expansion does not. Words are little-endian, and
the output has sixteen bytes. -/
namespace KeyCapsule.Md5

structure Chain where
  (a b c d : UInt32)

/-- The sixty-four additive constants: the integer parts of scaled sines. -/
def constants : List UInt32 := [
    0xd76aa478, 0xe8c7b756, 0x242070db, 0xc1bdceee, 0xf57c0faf, 0x4787c62a, 0xa8304613, 0xfd469501,
    0x698098d8, 0x8b44f7af, 0xffff5bb1, 0x895cd7be, 0x6b901122, 0xfd987193, 0xa679438e, 0x49b40821,
    0xf61e2562, 0xc040b340, 0x265e5a51, 0xe9b6c7aa, 0xd62f105d, 0x02441453, 0xd8a1e681, 0xe7d3fbc8,
    0x21e1cde6, 0xc33707d6, 0xf4d50d87, 0x455a14ed, 0xa9e3e905, 0xfcefa3f8, 0x676f02d9, 0x8d2a4c8a,
    0xfffa3942, 0x8771f681, 0x6d9d6122, 0xfde5380c, 0xa4beea44, 0x4bdecfa9, 0xf6bb4b60, 0xbebfbc70,
    0x289b7ec6, 0xeaa127fa, 0xd4ef3085, 0x04881d05, 0xd9d4d039, 0xe6db99e5, 0x1fa27cf8, 0xc4ac5665,
    0xf4292244, 0x432aff97, 0xab9423a7, 0xfc93a039, 0x655b59c3, 0x8f0ccc92, 0xffeff47d, 0x85845dd1,
    0x6fa87e4f, 0xfe2ce6e0, 0xa3014314, 0x4e0811a1, 0xf7537e82, 0xbd3af235, 0x2ad7d2bb, 0xeb86d391]

def amounts : Nat → UInt32
  | 0 => 7 | 1 => 12 | 2 => 17 | 3 => 22
  | 4 => 5 | 5 => 9 | 6 => 14 | 7 => 20
  | 8 => 4 | 9 => 11 | 10 => 16 | 11 => 23
  | 12 => 6 | 13 => 10 | 14 => 15 | _ => 21

def rotateLeft (x n : UInt32) : UInt32 := (x <<< n) ||| (x >>> (32 - n))

def step (block : Array UInt32) (t : Nat) (constant : UInt32) (s : Chain) : Chain :=
  let (mix, index) :=
    if t < 16 then ((s.b &&& s.c) ||| (~~~s.b &&& s.d), t)
    else if t < 32 then ((s.d &&& s.b) ||| (~~~s.d &&& s.c), (5 * t + 1) % 16)
    else if t < 48 then (s.b ^^^ s.c ^^^ s.d, (3 * t + 5) % 16)
    else (s.c ^^^ (s.b ||| ~~~s.d), 7 * t % 16)
  let turned := rotateLeft (s.a + mix + constant + block.getD index 0) (amounts (t / 16 * 4 + t % 4))
  ⟨s.d, s.b + turned, s.b, s.c⟩

def steps (block : Array UInt32) : Nat → List UInt32 → Chain → Chain
  | _, [], s => s
  | t, k :: ks, s => steps block (t + 1) ks (step block t k s)

def word (b : Bytes) : UInt32 := UInt32.ofNat (Bytes.toNatLE b)

def words : Nat → Bytes → Array UInt32 → Array UInt32
  | 0, _, acc => acc
  | n + 1, rest, acc => words n (rest.drop 4) (acc.push (word (rest.take 4)))

def absorb : Nat → Bytes → Chain → Chain
  | 0, _, s => s
  | n + 1, message, s =>
    let r := steps (words 16 message #[]) 0 constants s
    absorb n (message.drop 64) ⟨s.a + r.a, s.b + r.b, s.c + r.c, s.d + r.d⟩

def digest (message : Bytes) : Bytes :=
  let padded := message ++ 0x80 :: (Bytes.zeros ((119 - message.length % 64) % 64)
    ++ Bytes.ofNatLE 8 (8 * message.length))
  let s := absorb (padded.length / 64) padded ⟨0x67452301, 0xefcdab89, 0x98badcfe, 0x10325476⟩
  [s.a, s.b, s.c, s.d].flatMap fun x => Bytes.ofNatLE 4 x.toNat

@[simp] theorem length_digest (message : Bytes) : (digest message).length = 16 := by
  simp [digest]

end KeyCapsule.Md5
