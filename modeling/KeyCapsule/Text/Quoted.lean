import KeyCapsule.Bytes
import KeyCapsule.Text.Printable

/-! Quoted forms of texts and byte strings. A text is written between apostrophes, or between
quotation marks when it holds an apostrophe and no quotation mark; unprintable characters are
written as hexadecimal escapes. -/
namespace KeyCapsule.Text

def hexDigits : Nat → Nat → List Char
  | 0, _ => []
  | width + 1, n => hexDigits width (n / 16) ++ [Nat.digitChar (n % 16)]

def hex (b : Bytes) : String := String.ofList (b.flatMap fun x => hexDigits 2 x.toNat)

/-- At least four characters of sign and lower-case hexadecimal digits, zeros filled in after the
sign. -/
def hexField (n : Int) : String :=
  let digits := Nat.toDigits 16 n.natAbs
  let width := if n < 0 then 3 else 4
  (if n < 0 then "-" else "") ++ String.ofList (List.replicate (width - digits.length) '0' ++ digits)

def quoteMark (s : List Char) : Char :=
  if s.contains '\'' && !s.contains '"' then '"' else '\''

def escapeChar (mark c : Char) : List Char :=
  if c = mark || c = '\\' then ['\\', c]
  else if c = '\n' then ['\\', 'n']
  else if c = '\r' then ['\\', 'r']
  else if c = '\t' then ['\\', 't']
  else if isPrintable c then [c]
  else if c.toNat < 0x100 then '\\' :: 'x' :: hexDigits 2 c.toNat
  else if c.toNat < 0x10000 then '\\' :: 'u' :: hexDigits 4 c.toNat
  else '\\' :: 'U' :: hexDigits 8 c.toNat

def quoted (s : String) : String :=
  let cs := s.toList
  let mark := quoteMark cs
  String.ofList (mark :: cs.flatMap (escapeChar mark) ++ [mark])

def escapeByte (mark : Char) (b : UInt8) : List Char :=
  let c := Char.ofNat b.toNat
  if b < 0x80 && b != 0x7f then escapeChar mark c else '\\' :: 'x' :: hexDigits 2 b.toNat

def quotedBytes (b : Bytes) : String :=
  let mark := quoteMark (b.map fun x => Char.ofNat x.toNat)
  String.ofList ('b' :: mark :: b.flatMap (escapeByte mark) ++ [mark])

/-- A buffer names its kind, and escapes apostrophes also between quotation marks. -/
def quotedBuffer (b : Bytes) : String :=
  let mark := quoteMark (b.map fun x => Char.ofNat x.toNat)
  "bytearray(" ++ String.ofList ('b' :: mark :: b.flatMap (escapeByte '\'') ++ [mark]) ++ ")"

end KeyCapsule.Text
