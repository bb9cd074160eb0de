import KeyCapsule.Attributes
import KeyCapsule.Provider

/-! Providers whose attributes callers have changed. Any attribute may be set to nothing; a name that is
nothing gives way to the type's, and an operation that is nothing cannot be called. -/
namespace KeyCapsule.Provider

variable {σ α : Type}

def isNothing (held : Attributes) (operation : String) : Bool :=
  held.held? operation == some .nothing

/-- The two outer operations are called first of all, the two inner ones after the key and the source
were looked at, and parameters are settled only for a key that was admitted. -/
def under (held : Attributes) (entropy : Source σ) (p : Provider σ) : Provider σ :=
  { p with
    newEncapsulator := fun key params choice => do
      if isNothing held "new_encapsulator" then throw Fault.typeMismatch
      if isNothing held "_new_encapsulator" then
        let _ ← admitSender entropy key choice
        throw Fault.typeMismatch
      if p.settling.any (isNothing held) then
        let _ ← admitSender entropy key choice
        p.admitKey .sender key
        throw Fault.typeMismatch
      p.newEncapsulator key params choice
    newDecapsulator := fun key params => do
      if isNothing held "new_decapsulator" then throw Fault.typeMismatch
      if isNothing held "_new_decapsulator" then
        admitReceiver key
        throw Fault.typeMismatch
      if p.settling.any (isNothing held) then
        admitReceiver key
        p.admitKey .receiver key
        throw Fault.typeMismatch
      p.newDecapsulator key params }

def notOneUnder (held : Attributes) (type : String) : Provider σ where
  type := type
  name := if isNothing held "name" then some .none else none
  newEncapsulator _ _ _ := throw (held.uncallable "new_encapsulator")
  newDecapsulator _ _ := throw (held.uncallable "new_decapsulator")

end KeyCapsule.Provider
