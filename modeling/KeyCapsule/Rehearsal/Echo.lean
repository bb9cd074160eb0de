import KeyCapsule.Attributes
import KeyCapsule.Provider

/-! A provider that gives back what it was told to: one secret and one message, whatever the key. It
keeps a list of the requests that reached it. Both sides look at the provider's attributes anew each
time, so they notice when a caller takes one away. -/
namespace KeyCapsule.Echo

variable {σ α : Type}

structure Script where
  secret : Datum
  message : Datum
  /-- One answer to every question about support. -/
  supports : Option Bool := none
  sendFault : Option Fault := none
  receiveFault : Option Fault := none

structure Call where
  side : Side
  start : Datum
  stop : Datum
  label : Datum

structure Stage (σ : Type) where
  script : Script
  held : Act σ Attributes
  calls : Cell σ (List Call)

def attributes : Attributes :=
  .free ["name", "secret", "message", "supports", "enc_raise", "dec_raise", "calls"]

namespace Stage

def read (s : Stage σ) (place : String) (given nothing : α) : Act σ α := do
  (← s.held).value place given nothing

def secret (s : Stage σ) : Act σ Datum := s.read "secret" s.script.secret .none

def message (s : Stage σ) : Act σ Datum := s.read "message" s.script.message .none

def terms (s : Stage σ) (type : String) : Terms σ where
  type := type
  secretSize := do
    let n ← ((← s.secret).size : Except Fault Nat)
    return .int n
  encapsulationSize := do
    let n ← ((← s.message).size : Except Fault Nat)
    return .int n
  supports start stop label := do
    match ← s.read "supports" s.script.supports none with
    | some answer => return answer
    | none => Terms.supportsNonempty start stop label

def fault (s : Stage σ) : Side → Act σ (Option Fault)
  | .sender => s.read "enc_raise" s.script.sendFault none
  | .receiver => s.read "dec_raise" s.script.receiveFault none

def note (s : Stage σ) (c : Call) : Act σ Unit := do
  if (← s.held).held? "calls" ≠ some .given then throw Fault.noAttribute
  s.calls.modify (· ++ [c])
  match ← s.fault c.side with
  | some e => throw e
  | none => return ()

def requests (s : Stage σ) : Act σ (List Call) := do
  match ← s.read "calls" true false with
  | true => s.calls.read
  | false => throw Fault.typeMismatch

def encapsulate (s : Stage σ) (start stop label : Datum) : Act σ Encapsulated := do
  s.note ⟨.sender, start, stop, label⟩
  let key ← (SecretKey.slice (← s.secret) start stop label : Except Fault SecretKey)
  return ⟨key, ← s.message, .none⟩

def decapsulate (s : Stage σ) (start stop label : Datum) : Act σ SecretKey := do
  s.note ⟨.receiver, start, stop, label⟩
  SecretKey.slice (← s.secret) start stop label

def provider (s : Stage σ) (name : Datum) (entropy : Source σ) : Provider σ :=
  .ofRules "EchoKEM" name entropy
    (fun _ _ _ => return .ofHook (s.terms "EchoEncapsulator") s.encapsulate)
    (fun _ _ => return .ofHook (s.terms "EchoDecapsulator") fun _ => s.decapsulate)

end Stage

end KeyCapsule.Echo
