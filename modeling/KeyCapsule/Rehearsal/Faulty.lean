import KeyCapsule.Attributes
import KeyCapsule.MockKem

/-! The stand-in algorithm with chosen faults, for trying out the conformance checks. Each fault is a
small departure from the lawful side, and several may be present at once. -/
namespace KeyCapsule.Faulty

variable {σ : Type}

structure Faults where
  /-- The sender's secret size grows with every completed encapsulation. -/
  sendDrift : Bool := false
  /-- The receiver's secret size is one too large after so many answers. -/
  receiveDrift : Option Datum := none
  /-- The receiver's message size is one too large. -/
  receiveSize : Bool := false
  looseSend : Bool := false
  looseReceive : Bool := false
  acceptUnsupported : Bool := false
  sendFault : Option Fault := none
  receiveFault : Option Fault := none
  stale : Bool := false
  staleSecret : Bool := false
  shortKey : Bool := false
  wrongLength : Bool := false
  loseLabel : Bool := false
  flipAfter : Option Datum := none
  longMessage : Bool := false
  longAfter : Option Datum := none
  lengthFirst : Bool := false
  looseLength : Bool := false
  rangeUndecapsulated : Bool := false
  /-- Every message is opened, to a secret of this byte alone. -/
  lenient : Option Datum := none
  flaky : Bool := false
  mismatch : Bool := false

def filled (b : UInt8) (size : Datum) : Except Fault Bytes :=
  match size.integer? with
  | some n => .ok (List.replicate n.toNat b)
  | none => .error Fault.typeMismatch

def flipFirst (mask : UInt8) : Bytes → Bytes
  | [] => []
  | first :: rest => (first ^^^ mask) :: rest

def reached (threshold : Option Datum) (n : Nat) : Except Fault Bool :=
  match threshold with
  | some k => k.atMost (.int n)
  | none => .ok false

def positive (start : Datum) : Except Fault Bool := Datum.less (.int 0) start

def applyIf (holds : Bool) (f : SecretKey → Except Fault SecretKey) (k : SecretKey) :
    Except Fault SecretKey :=
  if holds then f k else .ok k

/-- What the faults make of a key and a message that were right. -/
def spoil (f : Faults) (p : MockParameters) (n : Nat) (start stop label : Datum)
    (r : Encapsulated) : Except Fault Encapsulated := do
  let k ← applyIf f.staleSecret (fun _ => do
    SecretKey.slice (.bytes (← filled 7 p.secretSize)) start stop label) r.key
  let k ← applyIf f.shortKey (fun k => SecretKey.ofBytes k.encoded.dropLast k.algorithm) k
  let k ← applyIf f.wrongLength (fun k => do
    if ← positive start then SecretKey.ofBytes (0 :: k.encoded) k.algorithm else return k) k
  let k ← applyIf f.loseLabel (fun k => .ok { k with algorithm := SecretKey.generic }) k
  let k ← applyIf (← reached f.flipAfter n)
    (fun k => SecretKey.ofBytes (flipFirst 1 k.encoded) k.algorithm) k
  let long ← if f.longMessage then pure true else reached f.longAfter n
  let message ← if long
    then (r.encapsulation.joinable).map fun b => Datum.bytes (b ++ [0])
    else pure r.encapsulation
  return ⟨k, message, r.params⟩

def encapsulateHook (f : Faults) (k : MockKey) (p : MockParameters) (source : Source σ)
    (completed : Cell σ Nat) (start stop label : Datum) : Act σ Encapsulated := do
  if let some e := f.sendFault then throw e
  if f.stale then
    let key ← (do SecretKey.slice (.bytes (← filled 7 p.secretSize)) start stop label : Except Fault _)
    let message ← (filled 0 p.encapsulationSize : Except Fault Bytes)
    return ⟨key, .bytes message, .none⟩
  let n ← completed.read
  let r ← MockKem.encapsulate k p source start stop label
  completed.write (n + 1)
  spoil f p n start stop label r

def sendTerms (f : Faults) (p : MockParameters) (completed : Cell σ Nat) : Terms σ :=
  { MockKem.terms "FaultyEncapsulator" p with
    secretSize := do
      let n ← completed.read
      p.secretSize.plus (if f.sendDrift then n else 0) }

def sender (f : Faults) (k : MockKey) (p : MockParameters) (source : Source σ)
    (completed : Cell σ Nat) : Encapsulator σ :=
  let t := sendTerms f p completed
  let hook := encapsulateHook f k p source completed
  { t with
    encapsulate := fun start stop label =>
      if f.looseSend then t.serve hook (.int 0) .none SecretKey.generic
      else if f.acceptUnsupported && !label.equals SecretKey.generic then hook start stop label
      else t.serve hook start stop label }

structure Counters (σ : Type) where
  sized : Cell σ Nat
  opened : Cell σ Nat

def decapsulateHook (f : Faults) (k : MockKey) (p : MockParameters) (c : Counters σ)
    (message : Bytes) (start stop label : Datum) : Act σ SecretKey := do
  if let some e := f.receiveFault then throw e
  if let some b := f.lenient then
    let b ← b.byte
    return ← (do SecretKey.slice (.bytes (← filled b p.secretSize)) start stop label : Except Fault _)
  let key ← MockKem.decapsulate k p message start stop label
  let n ← c.opened.read
  c.opened.write (n + 1)
  let key ← (applyIf f.flaky (fun key =>
    SecretKey.ofBytes (flipFirst (UInt8.ofNat (n % 2)) key.encoded) key.algorithm) key : Except Fault _)
  applyIf f.mismatch (fun key => do
    if ← positive start then SecretKey.ofBytes (flipFirst 1 key.encoded) key.algorithm
    else return key) key

def receiveTerms (f : Faults) (p : MockParameters) (c : Counters σ) : Terms σ :=
  { MockKem.terms "FaultyDecapsulator" p with
    secretSize := do
      match f.receiveDrift with
      | none => p.secretSize.plus 0
      | some k =>
        let n ← c.sized.read
        c.sized.write (n + 1)
        let late ← (k.atMost (.int n) : Except Fault Bool)
        p.secretSize.plus (if late then 1 else 0)
    encapsulationSize := p.encapsulationSize.plus (if f.receiveSize then 1 else 0) }

def wrongSize (p : MockParameters) (message : Datum) : Except Fault Bool := do
  return !(Datum.int (← message.size)).equals p.encapsulationSize

def receiver (f : Faults) (k : MockKey) (p : MockParameters) (c : Counters σ) : Decapsulator σ :=
  let t := receiveTerms f p c
  let hook := decapsulateHook f k p c
  { t with
    decapsulate := fun message start stop label => do
      if f.looseReceive then return ← t.receive hook message (.int 0) .none SecretKey.generic
      if f.lengthFirst then
        if ← (wrongSize p message : Except Fault Bool) then throw .undecapsulated
      if f.looseLength then
        if ← (wrongSize p message : Except Fault Bool) then
          let _ ← t.grant start stop label
          return ← (SecretKey.ofBytes [0] label : Except Fault _)
      if f.rangeUndecapsulated then
        (t.receive hook message start stop label).handle fun e =>
          if e.isA .secretRange then throw .undecapsulated else throw e
      else t.receive hook message start stop label }

structure Shelf (σ : Type) where
  sender : Act σ (Cell σ Nat)
  receiver : Act σ (Counters σ)

def faultsPlace : String := "faults"

/-- Faults of which a caller may have left nothing are looked at once key and parameters are good. -/
def provider (f : Except Fault Faults) (name : Datum) (shelf : Shelf σ) (entropy : Source σ) :
    Provider σ :=
  { Provider.ofRules "FaultyKEM" name entropy
      (fun key params source => do
        let k ← (MockKem.checkKey .sender key : Except Fault MockKey)
        let p ← (MockKem.checkParams params : Except Fault MockParameters)
        return sender (← f) k p source (← shelf.sender))
      (fun key params => do
        let k ← (MockKem.checkKey .receiver key : Except Fault MockKey)
        let p ← (MockKem.checkParams params : Except Fault MockParameters)
        return receiver (← f) k p (← shelf.receiver)) with
    admitKey := MockKem.admitKey
    settling := some MockKem.settling }

def faultsUnder (held : Attributes) (f : Faults) : Except Fault Faults := do
  match ← held.value faultsPlace (some f) none with
  | some f => return f
  | none => throw Fault.typeMismatch

end KeyCapsule.Faulty
