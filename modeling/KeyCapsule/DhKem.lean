import KeyCapsule.KeyDerivation
import KeyCapsule.Provider

/-! Encapsulation by Diffie-Hellman agreement. The suite follows from the key; the ephemeral key comes
from one draw; both sides derive the secret from the agreed value, the message and the receiver's
public key. -/
namespace KeyCapsule.DhKem

variable {σ : Type}

def logger : String := "kemkit.security.dhkem"

def suiteOf : KeyValue → Except Fault Suite
  | .publicKey k => .ok (Suite.ofGroup k.group)
  | .privateKey k => .ok (Suite.ofGroup k.group)
  | .foreign _ curve => .error (.key (.unsupportedCurve curve))
  | other => .error (.key (.unsupportedType other.typeName))

/-- An identifier as a message shows it: only integers have such a form. -/
def shownId : Datum → Except Fault Int
  | .bool b => .ok (if b then 1 else 0)
  | .int n => .ok n
  | .real _ | .text _ => .error Fault.badValue
  | _ => .error Fault.typeMismatch

/-- Parameters may be absent; given ones must name the suite that the key belongs to. -/
def checkParams (s : Suite) : ParamsValue → Except Fault Unit
  | .absent => .ok ()
  | .suiteId id =>
    if id.equals (.int s.kemId) then .ok ()
    else do throw (.parameter (.otherSuite (← shownId id) s.name))
  | other => .error (.parameter (.otherType other.typeName))

def terms (type : String) (s : Suite) : Terms σ where
  type := type
  suite := some s
  secretSize := return .int s.secretSize
  encapsulationSize := return .int s.encapsulationSize
  supports := Terms.supportsNonempty

def onCurve : KeyValue → Bool
  | .publicKey (.point ..) | .privateKey (.scalar ..) | .foreign .. => true
  | _ => false

def agreeGiven (g : KeyAgreement) (r : KeyRule) (a b : KeyValue) : Except Fault Bytes :=
  match a, b with
  | .privateKey a, .publicKey b => r.agree g a b
  | .privateKey _, .foreign .sender _ | .foreign .receiver _, .publicKey _
  | .foreign .receiver _, .foreign .sender _ =>
    .error (if r.curve?.isSome && onCurve a && onCurve b then Fault.badValue else Fault.typeMismatch)
  | .privateKey _, _ | .foreign .receiver _, _ => .error Fault.typeMismatch
  | _, _ => .error Fault.noAttribute

def paramsFor (name : Datum) : Except Fault ParamsValue :=
  (Suite.find name).map fun s => .suiteId (.int s.kemId)

/-- A refused agreement tells the sender that the receiver's key is unfit. -/
def agreeWith (g : KeyAgreement) (s : Suite) (ephemeral : PrivateKey) (receiver : PublicKey) :
    Except Fault Bytes :=
  match s.agree g ephemeral receiver with
  | .error e => .error (if e.isA .value then .key .refusedAgreement else e)
  | agreed => agreed

def sealWith (g : KeyAgreement) (s : Suite) (receiver : PublicKey) (ephemeral : PrivateKey) :
    Except Fault (Bytes × Bytes) := do
  let agreed ← agreeWith g s ephemeral receiver
  let message := (g.publicOf ephemeral).serialize
  let secret ← s.sharedSecret agreed (.bytes (message ++ receiver.serialize))
  return (message, secret)

def encapsulate (g : KeyAgreement) (s : Suite) (receiver : PublicKey) (source : Source σ)
    (start stop label : Datum) : Act σ Encapsulated := do
  let material ← source.read (.int s.privateKeySize)
  let ephemeral ← s.deriveKey (.bytes material)
  let (message, secret) ← sealWith g s receiver ephemeral
  let key ← SecretKey.slice (.bytes secret) start stop label
  return ⟨key, .bytes message, .none⟩

/-- Reads the ephemeral key and agrees with it; a refused value means that the message is bad. -/
def recoverAgreed (g : KeyAgreement) (s : Suite) (receiver : PrivateKey) (message : Bytes) :
    Except Fault Bytes :=
  match (do s.agree g receiver (← s.readPublic (.bytes message))) with
  | .error e => .error (if e.isA .value then .undecapsulated else e)
  | agreed => agreed

def openWith (g : KeyAgreement) (s : Suite) (receiver : PrivateKey) (message : Bytes) :
    Except Fault Bytes := do
  let agreed ← recoverAgreed g s receiver message
  s.sharedSecret agreed (.bytes (message ++ (g.publicOf receiver).serialize))

def decapsulate (g : KeyAgreement) (s : Suite) (receiver : PrivateKey) (message : Bytes)
    (start stop label : Datum) : Act σ SecretKey := do
  let secret ← openWith g s receiver message
  SecretKey.slice (.bytes secret) start stop label

def sender (g : KeyAgreement) (s : Suite) (receiver : PublicKey) (source : Source σ) :
    Encapsulator σ :=
  .ofHook (terms "DHKEMEncapsulator" s) (encapsulate g s receiver source)

def receiver (g : KeyAgreement) (s : Suite) (key : PrivateKey) : Decapsulator σ :=
  .ofHook (terms "DHKEMDecapsulator" s) (decapsulate g s key)

def resolve (key : KeyValue) (params : ParamsValue) : Except Fault Suite := do
  let s ← suiteOf key
  checkParams s params
  return s

def reportBinding (noun : String) (s : Suite) : Act σ Unit :=
  Act.report (.debug logger ("binding " ++ noun ++ " to " ++ s.name))

def bindSender (g : KeyAgreement) (key : KeyValue) (params : ParamsValue) (source : Source σ) :
    Act σ (Encapsulator σ) := do
  match key with
  | .publicKey k =>
    let s ← resolve key params
    reportBinding "encapsulator" s
    return sender g s k source
  | .foreign .sender curve => throw (.key (.unsupportedCurve curve))
  | other => throw (.key (.otherHalf .sender other.typeName))

def bindReceiver (g : KeyAgreement) (key : KeyValue) (params : ParamsValue) :
    Act σ (Decapsulator σ) := do
  match key with
  | .privateKey k =>
    let s ← resolve key params
    reportBinding "decapsulator" s
    return receiver g s k
  | .foreign .receiver curve => throw (.key (.unsupportedCurve curve))
  | other => throw (.key (.otherHalf .receiver other.typeName))

/-- A side takes its own half of a pair on any curve; the suite tells later which curves serve. -/
def admitKey : Side → KeyValue → Except Fault Unit
  | .sender, .publicKey _ | .sender, .foreign .sender _ => .ok ()
  | .receiver, .privateKey _ | .receiver, .foreign .receiver _ => .ok ()
  | side, other => .error (.key (.otherHalf side other.typeName))

def typeName : String := "DHKEM"

def named (name : Datum) (g : KeyAgreement) (entropy : Source σ) : Provider σ :=
  { Provider.ofRules typeName name entropy (bindSender g) (bindReceiver g) with
    admitKey := admitKey
    settling := some "_resolve_suite" }

def provider (g : KeyAgreement) (entropy : Source σ) : Provider σ := named typeName g entropy

def generate (entropy : Source σ) (r : KeyRule) : Act σ PrivateKey := do
  match r with
  | .sampled c => draw (Suite.ofGroup (.prime c))
  | .expanded l => draw (Suite.ofGroup (.ladder l))
  | .detached => throw Fault.typeMismatch
where
  draw (s : Suite) : Act σ PrivateKey := do
    let material ← entropy.read (.int s.privateKeySize)
    s.deriveKey (.bytes material)

end KeyCapsule.DhKem
