import KeyCapsule.Decimal.Shortest

/-! Binary fractions of double precision, kept as exact dyadic numbers, with their order, their
reading from decimals and their text. -/
namespace KeyCapsule

inductive Binary64
  | nan
  | infinity (negative : Bool)
  | negativeZero
  | finite (value : Dyadic)
  deriving DecidableEq

namespace Binary64

/-- Reals with the two infinities; what is not a number has no place in the order. -/
inductive Extended
  | bottom
  | real (value : Dyadic)
  | top
  deriving DecidableEq

def Extended.lt : Extended → Extended → Bool
  | .bottom, .bottom => false
  | .bottom, _ => true
  | .real _, .bottom => false
  | .real x, .real y => x < y
  | .real _, .top => true
  | .top, _ => false

def extended? : Binary64 → Option Extended
  | nan => none
  | infinity negative => some (if negative then .bottom else .top)
  | negativeZero => some (.real 0)
  | finite x => some (.real x)

def isZero : Binary64 → Bool
  | negativeZero => true
  | finite x => x == 0
  | _ => false

def truncate : Binary64 → Int
  | finite x =>
    let r := x.toRat
    if r < 0 then -(-r).floor else r.floor
  | _ => 0

def ceiling : Binary64 → Int
  | finite x => x.toRat.ceil
  | _ => 0

/-- The 53-bit form of a positive dyadic number. -/
def fraction (x : Dyadic) : Decimal.Fraction :=
  match x with
  | .zero => ⟨0, 0⟩
  | .ofOdd n k _ =>
    let m := n.natAbs
    let width : Int := m.log2 + 1
    let shift : Int := min (53 - width) (1074 - k)
    ⟨m * Decimal.twos shift, -k - shift⟩

def layout : Decimal.Layout := ⟨-4, 16⟩

def text : Binary64 → String
  | nan => "nan"
  | infinity negative => if negative then "-inf" else "inf"
  | negativeZero => "-0.0"
  | finite x =>
    if x = 0 then "0.0"
    else
      let (digits, e) := Decimal.shortest (fraction x)
      (if x < 0 then "-" else "") ++ layout.write digits e

/-- The double nearest to `num / den`, a tie going to the even mantissa. -/
def ofRatio (negative : Bool) (num den : Nat) : Binary64 :=
  if num = 0 || den = 0 then if negative then negativeZero else finite 0
  else
    let guess : Int := (num.log2 : Int) - den.log2 - 53
    let scaled (q : Int) : Nat × Nat := (num * Decimal.twos (-q), den * Decimal.twos q)
    let fits (q : Int) : Bool := (scaled q).1 / (scaled q).2 < Decimal.twos 53
    let q := max (-1074) (if fits guess then guess else if fits (guess + 1) then guess + 1 else guess + 2)
    let (a, b) := scaled q
    let low := a / b
    let m := match compare (2 * (a % b)) b with
      | .lt => low
      | .gt => low + 1
      | .eq => if low % 2 = 0 then low else low + 1
    if Decimal.twos 1024 ≤ m * Decimal.twos q && 0 ≤ q then infinity negative
    else if m = 0 then if negative then negativeZero else finite 0
    else finite (Dyadic.ofIntWithPrec (if negative then -(m : Int) else m) (-q))

def nearest (x : Dyadic) : Binary64 :=
  let r := x.toRat
  ofRatio (r < 0) r.num.natAbs r.den

def plus (x : Binary64) (n : Int) : Binary64 :=
  match x with
  | finite v => nearest (v + Dyadic.ofInt n)
  | negativeZero => nearest (Dyadic.ofInt n)
  | other => other

/-- The double nearest to `± digits · 10 ^ exponent`. Exponents far outside the range need no
exact arithmetic. -/
def ofDecimal (negative : Bool) (digits : Nat) (exponent : Int) : Binary64 :=
  let size : Int := (Nat.toDigits 10 digits).length
  if digits = 0 then ofRatio negative 0 1
  else if 400 < size + exponent then infinity negative
  else if size + exponent < -400 then ofRatio negative 0 1
  else ofRatio negative (digits * Decimal.tens exponent) (Decimal.tens (-exponent))

end Binary64

end KeyCapsule
