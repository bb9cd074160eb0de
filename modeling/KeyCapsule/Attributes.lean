import KeyCapsule.Fault

/-! Attributes of objects that callers may change: an attribute holds what the object was made with, or
nothing, or it is not there. Some objects have fixed places and take no other attribute. -/
namespace KeyCapsule

inductive Held
  | given
  | nothing
  deriving DecidableEq

structure Attributes where
  /-- The names that an object has places for; without places it takes any name. -/
  places : Option (List String)
  entries : List (String × Held)

namespace Attributes

def placed (names : List String) : Attributes := ⟨some names, names.map fun name => (name, .given)⟩

def free (names : List String) : Attributes := ⟨none, names.map fun name => (name, .given)⟩

def held? (a : Attributes) (name : String) : Option Held := a.entries.lookup name

def typeAttribute : String := "__class__"

def allAttribute : String := "__dict__"

/-- The attribute for the weak references to an object without places; it cannot be changed. -/
def weakAttribute : String := "__weakref__"

def obstacle? (a : Attributes) (name : String) : Option Fault :=
  if name == typeAttribute then some Fault.typeMismatch
  else match a.places with
    | some names => if names.contains name then none else some Fault.noAttribute
    | none =>
      if name == allAttribute then some Fault.typeMismatch
      else if name == weakAttribute then some Fault.noAttribute
      else none

def clear (a : Attributes) (name : String) : Except Fault Attributes :=
  match a.obstacle? name with
  | some e => .error e
  | none => .ok { a with entries := (name, .nothing) :: a.entries }

def remove (a : Attributes) (name : String) : Except Fault Attributes :=
  if name == typeAttribute then .error Fault.typeMismatch
  else if a.places.isNone && name == allAttribute then .ok { a with entries := [] }
  else if (a.held? name).isSome then
    .ok { a with entries := a.entries.filter fun entry => entry.1 != name }
  else .error Fault.noAttribute

/-- Reads an attribute that was made with one value and holds another when it holds nothing. -/
def value {α : Type} (a : Attributes) (name : String) (given nothing : α) : Except Fault α :=
  match a.held? name with
  | some .given => .ok given
  | some .nothing => .ok nothing
  | none => .error Fault.noAttribute

def require (a : Attributes) (name : String) : Except Fault Unit := a.value name () ()

def uncallable (a : Attributes) (name : String) : Fault :=
  if (a.held? name).isSome then Fault.typeMismatch else Fault.noAttribute

def title (a : Attributes) (own shared : Datum) : Datum :=
  match a.held? "name" with
  | some .given => own
  | some .nothing => .none
  | none => shared

theorem held?_clear {a b : Attributes} {name : String} (h : a.clear name = .ok b) :
    b.held? name = some .nothing := by
  unfold clear at h
  split at h
  · cases h
  · cases h
    simp [held?]

theorem held?_remove {a b : Attributes} {name : String} (h : a.remove name = .ok b) :
    b.held? name = none := by
  unfold remove at h
  split at h
  · cases h
  · split at h
    · cases h
      rfl
    · split at h
      · cases h
        simp only [held?, List.lookup_eq_none_iff, List.mem_filter]
        exact fun entry h => bne_comm.trans h.2
      · cases h

end Attributes

end KeyCapsule
