/-! Reading text: blanks, trimming and the case maps as far as they reach ASCII, then integers, with
blanks around them, one optional sign, decimal digits of any script and single low lines between digits.
Two classes of blanks are kept apart: the four separators below the space are blank in prose but not
around a numeral. -/
namespace KeyCapsule.Text

/-- White space of the character database, with the information separators. -/
def isBlank (c : Char) : Bool :=
  let n := c.toNat
  (9 ≤ n && n ≤ 13) || (0x1c ≤ n && n ≤ 0x20) || n == 0x85 || n == 0xa0 || n == 0x1680
    || (0x2000 ≤ n && n ≤ 0x200a) || n == 0x2028 || n == 0x2029 || n == 0x202f || n == 0x205f
    || n == 0x3000

def isNumeralBlank (c : Char) : Bool := isBlank c && !(0x1c ≤ c.toNat && c.toNat ≤ 0x1f)

def trim (p : Char → Bool) (s : List Char) : List Char :=
  ((s.dropWhile p).reverse.dropWhile p).reverse

/-- Upper case, exact wherever the result is ASCII: besides the ASCII letters these are the sharp
s, the dotless i, the long s and the Latin ligatures. -/
def upper (c : Char) : List Char :=
  match c.toNat with
  | 0xdf => ['S', 'S']
  | 0x131 => ['I']
  | 0x17f => ['S']
  | 0xfb00 => ['F', 'F']
  | 0xfb01 => ['F', 'I']
  | 0xfb02 => ['F', 'L']
  | 0xfb03 => ['F', 'F', 'I']
  | 0xfb04 => ['F', 'F', 'L']
  | 0xfb05 => ['S', 'T']
  | 0xfb06 => ['S', 'T']
  | _ => [c.toUpper]

/-- Lower case, exact wherever the result is ASCII: besides the ASCII letters only the Kelvin sign
has an ASCII lower case. -/
def lower (c : Char) : Char := if c.toNat = 0x212a then 'k' else c.toLower

/-- The digit zero of each script that has decimal digits; the other nine follow it. -/
def zeros : List Nat := [
  0x30, 0x660, 0x6f0, 0x7c0, 0x966, 0x9e6, 0xa66, 0xae6, 0xb66, 0xbe6, 0xc66, 0xce6, 0xd66, 0xde6,
  0xe50, 0xed0, 0xf20, 0x1040, 0x1090, 0x17e0, 0x1810, 0x1946, 0x19d0, 0x1a80, 0x1a90, 0x1b50,
  0x1bb0, 0x1c40, 0x1c50, 0xa620, 0xa8d0, 0xa900, 0xa9d0, 0xa9f0, 0xaa50, 0xabf0, 0xff10, 0x104a0,
  0x10d30, 0x11066, 0x110f0, 0x11136, 0x111d0, 0x112f0, 0x11450, 0x114d0, 0x11650, 0x116c0,
  0x11730, 0x118e0, 0x11950, 0x11c50, 0x11d50, 0x11da0, 0x16a60, 0x16ac0, 0x16b50, 0x1d7ce,
  0x1d7d8, 0x1d7e2, 0x1d7ec, 0x1d7f6, 0x1e140, 0x1e2f0, 0x1e950, 0x1fbf0]

def digitValue? (c : Char) : Option Nat :=
  (zeros.find? fun z => z ≤ c.toNat && c.toNat < z + 10).map (c.toNat - ·)

def digits? : Bool → List Char → Option (List Nat)
  | after, [] => if after then some [] else none
  | after, c :: rest =>
    if c = '_' then if after then digits? false rest else none
    else match digitValue? c with
      | some d => (digits? true rest).map (d :: ·)
      | none => none

/-- An integer is neither read from more digits than these nor written with more. -/
def maxDigits : Nat := 4300

/-- The least number of more digits. -/
def digitBound : Nat := Nat.pow (Nat.pow (Nat.pow 10 43) 10) 10

theorem digitBound_eq : digitBound = Nat.pow 10 maxDigits := by decide +kernel

/-- Numbers of sixteen binary digits are well below it. -/
theorem lt_digitBound {n : Nat} (h : n < 0x10000) : n < digitBound :=
  Nat.lt_trans h (by decide +kernel)

def natural? (s : List Char) : Option Nat :=
  match digits? false s with
  | some ds => if ds.length ≤ maxDigits then some (ds.foldl (fun n d => 10 * n + d) 0) else none
  | none => none

def integer? (s : String) : Option Int :=
  match trim isNumeralBlank s.toList with
  | '-' :: rest => (natural? rest).map fun n => -(n : Int)
  | '+' :: rest => (natural? rest).map fun n => (n : Int)
  | rest => (natural? rest).map fun n => (n : Int)

end KeyCapsule.Text
