import KeyCapsule.Attributes
import KeyCapsule.DhKem
import KeyCapsule.Text.Reading

/-! Named algorithms: a name that callers use, and the provider that does the work. One algorithm is
built in and is found without regard to case. Callers may set either part to nothing or delete it. -/
namespace KeyCapsule

variable {σ : Type}

structure Kem (σ : Type) where
  algorithm : Datum
  inner : Provider σ

namespace Kem

def algorithms : List String := ["DHKEM"]

def make (algorithm : Datum) (inner : Option (Provider σ)) : Except Fault (Kem σ) :=
  match algorithm, inner with
  | .none, _ | _, none => .error (.missing .algorithmAndProvider)
  | algorithm, some inner => .ok ⟨algorithm, inner⟩

/-- The lower-case form of a name, as far as it can be compared with a text. -/
def folded : Datum → Except Fault (Option String)
  | .text s => .ok (some (String.ofList (s.toList.map Text.lower)))
  | .bytes _ | .buffer _ => .ok none
  | _ => .error Fault.noAttribute

/-- Finds a built-in algorithm. -/
def named (g : KeyAgreement) (entropy : Source σ) (algorithm : Datum) : Except Fault (Kem σ) := do
  if let .none := algorithm then throw (.missing .algorithm)
  if (← folded algorithm) == some "dhkem" then return ⟨"DHKEM", DhKem.provider g entropy⟩
  throw (.noAlgorithm algorithm)

def namePlace : String := "_algorithm"
def providerPlace : String := "_spi"

def attributes : Attributes := .placed [namePlace, providerPlace]

def written (held : Attributes) (k : Kem σ) : Except Fault String := do
  let algorithm ← held.value namePlace k.algorithm .none
  let inner ← held.value providerPlace k.inner.type (Datum.typeName .none)
  return "KEM(algorithm=" ++ algorithm.quoted ++ ", spi=" ++ inner ++ ")"

/-- A named algorithm serves wherever a provider does, but goes by no name there. Without its provider
it serves no more. -/
def provider (held : Attributes) (k : Kem σ) : Provider σ :=
  if held.held? providerPlace = some .given then { k.inner with type := "KEM", name := none }
  else .notOne "KEM"

end Kem

end KeyCapsule
