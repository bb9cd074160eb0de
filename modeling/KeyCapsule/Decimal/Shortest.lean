/-! Decimal texts of binary fractions: the fewest digits that still round to the fraction, the
nearest of those, and a tie to the even digit. -/
namespace KeyCapsule.Decimal

/-- The binary fraction `mantissa · 2 ^ exponent`, normalized for 53-bit precision. -/
structure Fraction where
  mantissa : Nat
  exponent : Int

def twos (q : Int) : Nat := 1 <<< q.toNat

def tens (j : Int) : Nat := Nat.pow 10 j.toNat

/-- The comparison of `c · 10 ^ j` with `x · 2 ^ q`. -/
def compareScaled (c : Nat) (j : Int) (x : Nat) (q : Int) : Ordering :=
  compare (c * tens j * twos (-q)) (x * twos q * tens (-j))

def floorScaled (j : Int) (x : Nat) (q : Int) : Nat :=
  x * twos q * tens (-j) / (tens j * twos (-q))

def leading (x : Nat) (q : Int) : Nat → Int → Int
  | 0, e => e
  | fuel + 1, e => if compareScaled 1 e x q == .gt then leading x q fuel (e - 1) else e

/-- Does `c · 10 ^ j` round to the fraction? Ends of the interval belong to an even mantissa. -/
def roundsTo (f : Fraction) (c : Nat) (j : Int) : Bool :=
  let q := f.exponent - 2
  let below := if f.mantissa = twos 52 && f.exponent > -1074 then 1 else 2
  let low := compareScaled c j (4 * f.mantissa - below) q
  let high := compareScaled c j (4 * f.mantissa + 2) q
  (low == .gt || (low == .eq && f.mantissa % 2 == 0))
    && (high == .lt || (high == .eq && f.mantissa % 2 == 0))

def nearer (f : Fraction) (c : Nat) (j : Int) : Nat :=
  match compareScaled (2 * c + 1) j (2 * f.mantissa) f.exponent with
  | .lt => c + 1
  | .gt => c
  | .eq => if c % 2 = 0 then c else c + 1

/-- Tries grids of one digit, two digits, and so on; seventeen always suffice. -/
def search (f : Fraction) (lead : Int) : Nat → Nat → Nat × Int
  | 0, n => (floorScaled (lead + 1 - n) f.mantissa f.exponent, lead + 1 - n)
  | fuel + 1, n =>
    let j := lead + 1 - n
    let c := floorScaled j f.mantissa f.exponent
    match roundsTo f c j, roundsTo f (c + 1) j with
    | true, true => (nearer f c j, j)
    | true, false => (c, j)
    | false, true => (c + 1, j)
    | false, false => search f lead fuel (n + 1)

def shortest (f : Fraction) : List Char × Int :=
  let (c, j) := search f (leading f.mantissa f.exponent 700 310) 17 1
  let digits := Nat.toDigits 10 c
  let kept := (digits.reverse.dropWhile (· == '0')).reverse
  (kept, j + digits.length - 1)

/-- How a decimal is laid out: exponents from `least` and below `bound` are written positionally
with at least one digit after the point, others with a signed exponent of two digits or more. -/
structure Layout where
  least : Int
  bound : Int

def Layout.write (layout : Layout) (digits : List Char) (e : Int) : String :=
  let n : Int := digits.length
  if layout.least ≤ e ∧ e < layout.bound then
    if e < 0 then "0." ++ String.ofList (List.replicate (-e - 1).toNat '0' ++ digits)
    else if n ≤ e + 1 then
      String.ofList (digits ++ List.replicate (e + 1 - n).toNat '0') ++ ".0"
    else String.ofList (digits.take (e + 1).toNat) ++ "." ++ String.ofList (digits.drop (e + 1).toNat)
  else
    let power := Nat.toDigits 10 e.natAbs
    String.ofList (digits.take 1) ++ (if digits.length = 1 then "" else ".")
      ++ String.ofList (digits.drop 1) ++ (if e < 0 then "e-" else "e+")
      ++ String.ofList (List.replicate (2 - power.length) '0' ++ power)

end KeyCapsule.Decimal
