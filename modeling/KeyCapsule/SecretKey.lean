import KeyCapsule.Datum.Sequence

/-! Keys cut from a shared secret, the windows they are cut at, and the outcome of an encapsulation.
A key is never empty, and its written form shows its label and length but no byte of it. -/
namespace KeyCapsule

structure SecretKey where
  encoded : Bytes
  /-- What the key is meant for; the library only carries it along. -/
  algorithm : Datum
  nonempty : encoded ≠ []

namespace SecretKey

def generic : Datum := "Generic"

def ofBytes (b : Bytes) (algorithm : Datum) : Except Fault SecretKey :=
  if h : b = [] then .error .emptyKey else .ok ⟨b, algorithm, h⟩

def make (encoded algorithm : Datum) : Except Fault SecretKey := do
  if let .none := algorithm then throw (.missing .algorithm)
  if encoded.isEmpty then throw .emptyKey
  ofBytes (← encoded.toBytes) algorithm

def slice (secret start stop algorithm : Datum) : Except Fault SecretKey := do
  make (.bytes (← (← secret.slice start stop).toBytes)) algorithm

def equals (a b : SecretKey) : Bool :=
  a.algorithm.equals b.algorithm && a.encoded == b.encoded

def written (k : SecretKey) : String :=
  "SecretKey(algorithm=" ++ k.algorithm.quoted ++ ", size=" ++ toString k.encoded.length ++ ")"

def assign (_ : SecretKey) : Except Fault Unit := .error (.immutable "SecretKey")

theorem make_bytes {b : Bytes} (hb : b ≠ []) {label : Datum} (hl : label ≠ .none) :
    make (.bytes b) label = .ok ⟨b, label, hb⟩ := by
  have he : (Datum.bytes b).isEmpty = false := by
    cases b with
    | nil => exact absurd rfl hb
    | cons => rfl
  cases label with
  | none => exact absurd rfl hl
  | _ => simp [make, he, ofBytes, hb, bind, Except.bind]

end SecretKey

/-- A window of a secret is in order and inside it. An absent end is the end of the secret. -/
def checkWindow (start stop size : Datum) : Except Fault (Datum × Datum) := do
  if let .none := start then throw (.missing .start)
  let stop := if let .none := stop then size else stop
  if (← start.less (.int 0)) then throw (Fault.range start stop size).worded
  if (← stop.less start) then throw (Fault.range start stop size).worded
  if (← size.less stop) then throw (Fault.range start stop size).worded
  return (start, stop)

theorem checkWindow_int (start stop size : Int) :
    checkWindow start stop size
      = if 0 ≤ start ∧ start ≤ stop ∧ stop ≤ size then .ok (.int start, .int stop)
        else .error (Fault.range start stop size).worded := by
  simp only [checkWindow, Datum.less_int, bind, Except.bind, pure, Except.pure]
  by_cases h₁ : start < 0
  · simp [h₁, Int.not_le.2 h₁, throw, throwThe, MonadExceptOf.throw]
  · by_cases h₂ : stop < start
    · simp [h₁, h₂, Int.not_le.2 h₂, throw, throwThe, MonadExceptOf.throw]
    · by_cases h₃ : size < stop
      · simp [h₁, h₂, h₃, Int.not_le.2 h₃, throw, throwThe, MonadExceptOf.throw]
      · simp [h₁, h₂, h₃, Int.not_lt.1 h₁, Int.not_lt.1 h₂, Int.not_lt.1 h₃]

theorem checkWindow_absent (start size : Int) :
    checkWindow start .none size = checkWindow start size size := rfl

structure Encapsulated where
  key : SecretKey
  encapsulation : Datum
  params : Datum

namespace Encapsulated

def equals (a b : Encapsulated) : Bool :=
  a.key.equals b.key && a.encapsulation.equals b.encapsulation && a.params.equals b.params

def written (e : Encapsulated) : Except Fault String := do
  let size ← e.encapsulation.size
  let params ← match e.params with
    | .none => pure "None"
    | p => (p.size).map fun n => "<" ++ toString n ++ " bytes>"
  return "Encapsulated(key=" ++ e.key.written ++ ", encapsulation=<" ++ toString size
    ++ " bytes>, params=" ++ params ++ ")"

def assign (_ : Encapsulated) : Except Fault Unit := .error Fault.frozen

end Encapsulated

end KeyCapsule
