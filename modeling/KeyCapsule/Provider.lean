import KeyCapsule.Given
import KeyCapsule.SecretKey
import KeyCapsule.Source
import KeyCapsule.Suite

/-! Providers: factories of encapsulators and decapsulators. Every request is checked in one fixed
order before an algorithm sees it: absent arguments, the window, support, and on the receiving side
the length of the message. A message that cannot be opened fails in one way, whatever the reason. -/
namespace KeyCapsule

variable {σ α : Type}

/-- The terms on which a bound side serves requests. -/
structure Terms (σ : Type) where
  type : String
  suite : Option Suite := none
  secretSize : Act σ Datum
  encapsulationSize : Act σ Datum
  supports : Datum → Datum → Datum → Act σ Bool

namespace Terms

def logger : String := "kemkit.core.spi"

/-- Without a rule of its own a side supports every window that is not empty. -/
def supportsNonempty (start stop _label : Datum) : Act σ Bool := start.less stop

def grant (t : Terms σ) (start stop label : Datum) : Act σ (Datum × Datum) := do
  if let .none := label then throw (.missing .algorithm)
  let size ← t.secretSize
  let (start, stop) ← checkWindow start stop size
  if !(← t.supports start stop label) then
    throw (Fault.unsupported t.type start stop label).worded
  return (start, stop)

def serve (t : Terms σ) (hook : Datum → Datum → Datum → Act σ α) (start stop label : Datum) :
    Act σ α := do
  let (start, stop) ← t.grant start stop label
  hook start stop label

def reportFailure (t : Terms σ) : Act σ Unit :=
  Act.report (.debug logger (t.type ++ ": decapsulation failed"))

/-- A refused value says no more than that the message could not be opened. -/
def conceal (t : Terms σ) (x : Act σ α) : Act σ α :=
  x.handle fun e => do
    if e.isA .decapsulate then
      t.reportFailure
      throw e
    else if e.isA .value then
      t.reportFailure
      throw .undecapsulated
    else throw e

def receive (t : Terms σ) (hook : Bytes → Datum → Datum → Datum → Act σ α)
    (message start stop label : Datum) : Act σ α := do
  if let .none := message then throw (.missing .encapsulation)
  let (start, stop) ← t.grant start stop label
  let length ← (message.size : Except Fault Nat)
  let size ← t.encapsulationSize
  if !(Datum.int length).equals size then
    t.reportFailure
    throw .undecapsulated
  t.conceal do
    let b ← message.toBytes
    hook b start stop label

def assign (t : Terms σ) : Except Fault Unit := .error (.immutable t.type)

end Terms

structure Encapsulator (σ : Type) extends Terms σ where
  encapsulate : Datum → Datum → Datum → Act σ Encapsulated

structure Decapsulator (σ : Type) extends Terms σ where
  decapsulate : Datum → Datum → Datum → Datum → Act σ SecretKey

def Encapsulator.ofHook (t : Terms σ) (hook : Datum → Datum → Datum → Act σ Encapsulated) :
    Encapsulator σ :=
  { t with encapsulate := t.serve hook }

def Decapsulator.ofHook (t : Terms σ) (hook : Bytes → Datum → Datum → Datum → Act σ SecretKey) :
    Decapsulator σ :=
  { t with decapsulate := t.receive hook }

def Encapsulator.whole (e : Encapsulator σ) : Act σ Encapsulated :=
  e.encapsulate (.int 0) .none SecretKey.generic

def Decapsulator.whole (d : Decapsulator σ) (message : Datum) : Act σ SecretKey :=
  d.decapsulate message (.int 0) .none SecretKey.generic

structure Provider (σ : Type) where
  type : String
  /-- The name that the provider goes by, if it has such a field. -/
  name : Option Datum
  /-- Refuses keys of other kinds, before the parameters are looked at. -/
  admitKey : Side → KeyValue → Except Fault Unit := fun _ _ => .ok ()
  /-- The operation that settles the parameters of an admitted key, if it goes by a name. -/
  settling : Option String := none
  newEncapsulator : KeyValue → ParamsValue → SourceChoice σ → Act σ (Encapsulator σ)
  newDecapsulator : KeyValue → ParamsValue → Act σ (Decapsulator σ)

namespace Provider

def title (type : String) (name : Datum) : Datum := if name.isEmpty then type else name

def announce (title : Datum) (noun : String) (t : Terms σ) : Act σ Unit := do
  let secret ← t.secretSize
  let encapsulation ← t.encapsulationSize
  Act.report (.debug Terms.logger (title.plain ++ ": new " ++ noun ++ " (secret_size="
    ++ toString secret.whole ++ ", encapsulation_size=" ++ toString encapsulation.whole ++ ")"))

/-- A key must be there, and the source must be one, before a provider looks at them. -/
def admitSender (entropy : Source σ) (key : KeyValue) (choice : SourceChoice σ) : Act σ (Source σ) := do
  if key.isAbsent then throw (.key (.absent .sender))
  choice.resolve entropy

def admitReceiver (key : KeyValue) : Act σ Unit :=
  if key.isAbsent then throw (.key (.absent .receiver)) else return ()

def ofRules (type : String) (name : Datum) (entropy : Source σ)
    (bindSender : KeyValue → ParamsValue → Source σ → Act σ (Encapsulator σ))
    (bindReceiver : KeyValue → ParamsValue → Act σ (Decapsulator σ)) : Provider σ where
  type := type
  name := some name
  newEncapsulator key params choice := do
    let source ← admitSender entropy key choice
    let enc ← bindSender key params source
    announce (title type name) "encapsulator" enc.toTerms
    return enc
  newDecapsulator key params := do
    admitReceiver key
    let dec ← bindReceiver key params
    announce (title type name) "decapsulator" dec.toTerms
    return dec

def notOne (type : String) : Provider σ where
  type := type
  name := none
  newEncapsulator _ _ _ := throw Fault.noAttribute
  newDecapsulator _ _ := throw Fault.noAttribute

end Provider

end KeyCapsule
