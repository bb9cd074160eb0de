import KeyCapsule.Attributes
import KeyCapsule.SecretKey

/-! Keys whose attributes were taken away. No attribute of a key can be set, but its label and its bytes
can be deleted; what needs one that is gone then fails. An encapsulation shares its key with whoever
reads it, so it notices too. -/
namespace KeyCapsule

namespace SecretKey

def labelPlace : String := "_algorithm"
def bytesPlace : String := "_encoded"

def attributes : Attributes := .placed [labelPlace, bytesPlace]

def extent (held : Attributes) (k : SecretKey) : Extent :=
  if held.held? bytesPlace = some .given then .known k.encoded.length else .lost

def writtenUnder (held : Attributes) (k : SecretKey) : Except Fault String := do
  held.require labelPlace
  held.require bytesPlace
  return k.written

/-- The bytes are looked at only if the labels are equal. -/
def equalsUnder (held other : Attributes) (a b : SecretKey) : Except Fault Bool := do
  held.require labelPlace
  other.require labelPlace
  if !a.algorithm.equals b.algorithm then return false
  held.require bytesPlace
  other.require bytesPlace
  return a.equals b

theorem writtenUnder_attributes (k : SecretKey) : k.writtenUnder attributes = .ok k.written := rfl

theorem equalsUnder_attributes (a b : SecretKey) :
    equalsUnder attributes attributes a b = .ok (a.equals b) := by
  have h : equalsUnder attributes attributes a b
      = if !a.algorithm.equals b.algorithm then .ok false else .ok (a.equals b) := rfl
  rw [h]
  cases ha : a.algorithm.equals b.algorithm <;> simp [equals, ha]

end SecretKey

namespace Encapsulated

def writtenUnder (held : Attributes) (e : Encapsulated) : Except Fault String := do
  let _ ← e.key.writtenUnder held
  e.written

def equalsUnder (held other : Attributes) (a b : Encapsulated) : Except Fault Bool := do
  if ← SecretKey.equalsUnder held other a.key b.key then
    return a.encapsulation.equals b.encapsulation && a.params.equals b.params
  else return false

end Encapsulated

end KeyCapsule
