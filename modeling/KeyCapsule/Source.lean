import KeyCapsule.Act
import KeyCapsule.Datum.Sequence

/-! Sources of randomness. A source answers a request for so many bytes with any value; only a value
of exactly that length whose bytes can be read is taken. -/
namespace KeyCapsule

structure Source (σ : Type) where
  draw : Datum → Act σ Datum

inductive SourceChoice (σ : Type)
  | absent
  | supplied (s : Source σ)
  | other (d : Datum)

namespace Source

variable {σ : Type}

/-- Judges an answer to a request for `wanted` bytes. -/
def accept (wanted answer : Datum) : Except Fault Bytes := do
  let got ← answer.size
  if !(Datum.int got).equals wanted then throw (Fault.drawLength got wanted).worded
  answer.toBytes

def read (s : Source σ) (wanted : Datum) : Act σ Bytes := do
  let answer ← s.draw wanted
  accept wanted answer

theorem accept_bytes (b : Bytes) : accept (.int b.length) (.bytes b) = .ok b := by
  simp [accept, bind, Except.bind]

end Source

def SourceChoice.resolve {σ : Type} (default : Source σ) :
    SourceChoice σ → Except Fault (Source σ)
  | .absent => .ok default
  | .supplied s => .ok s
  | .other d => .error (.parameter (.sourceType d.typeName))

/-- A choice that is used without being looked at first: what is no source cannot be asked. -/
def SourceChoice.unchecked {σ : Type} (default : Source σ) :
    SourceChoice σ → Except Fault (Source σ)
  | .absent => .ok default
  | .supplied s => .ok s
  | .other _ => .error Fault.typeMismatch

end KeyCapsule
