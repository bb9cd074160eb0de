import KeyCapsule.Hkdf.Labeled
import KeyCapsule.Provider

/-! A stand-in algorithm with freely chosen sizes, for trying out providers. Both sides share the key
material; a message is a nonce and its tag, so a changed message is always noticed. -/
namespace KeyCapsule.MockKem

variable {σ : Type}

def tagSize : Nat := 16
def minNonceSize : Nat := 16
def keySize : Nat := 32
def maxSecretSize : Nat := 255 * 32

def derive (material info length : Datum) : Except Fault Bytes :=
  Hkdf.Request.derive .sha256 material info length

def secretOf (material : Datum) (p : MockParameters) (nonce : Datum) : Except Fault Bytes := do
  let encoded ← p.encode
  let nonce ← nonce.joinable
  derive material (Hkdf.Labeled.label "mock-kem-secret" ++ encoded ++ nonce) p.secretSize

/-- The secret of a nonce under parameters as callers hand them in. A text has an encoded form too, but
no size. -/
def secretGiven (material : Datum) (params : ParamsValue) (nonce : Datum) : Except Fault Bytes := do
  match params with
  | .mock p => secretOf material p nonce
  | .plain (.text _) =>
    let _ ← nonce.joinable
    throw Fault.noAttribute
  | _ => throw Fault.noAttribute

def tagOf (material nonce : Datum) : Except Fault Bytes := do
  let key ← derive material (Hkdf.Labeled.label "mock-kem-mac") (.int 32)
  return (Hmac.tag .sha256 key (← Hkdf.Request.message nonce)).take tagSize

def supports (p : MockParameters) (start stop label : Datum) : Act σ Bool := do
  if !(← Terms.supportsNonempty start stop label) then return false
  if !p.allowSlicing.isEmpty then return true
  return start.equals (.int 0) && stop.equals p.secretSize && label.equals SecretKey.generic

def terms (type : String) (p : MockParameters) : Terms σ where
  type := type
  secretSize := return p.secretSize
  encapsulationSize := return p.encapsulationSize
  supports := supports p

def sealWith (material : Datum) (p : MockParameters) (nonce : Bytes) :
    Except Fault (Bytes × Bytes) := do
  let secret ← secretOf material p nonce
  let tag ← tagOf material nonce
  return (nonce ++ tag, secret)

def encapsulate (k : MockKey) (p : MockParameters) (source : Source σ)
    (start stop label : Datum) : Act σ Encapsulated := do
  let size ← (p.encapsulationSize.plus (-tagSize) : Except Fault Datum)
  let nonce ← source.read size
  let (message, secret) ← sealWith k.material p nonce
  let key ← SecretKey.slice (.bytes secret) start stop label
  return ⟨key, .bytes message, .bytes (← p.encode)⟩

/-- The secret of a message whose tag is right. It is derived before the tag is looked at, so good and
bad messages take the same work. -/
def openWith (material : Datum) (p : MockParameters) (message : Bytes) : Except Fault Bytes := do
  let nonce := message.take (message.length - tagSize)
  let secret ← secretOf material p nonce
  let tag ← tagOf material nonce
  if tag != message.drop (message.length - tagSize) then throw .undecapsulated
  return secret

def decapsulate (k : MockKey) (p : MockParameters) (message : Bytes)
    (start stop label : Datum) : Act σ SecretKey := do
  let secret ← openWith k.material p message
  SecretKey.slice (.bytes secret) start stop label

def sender (k : MockKey) (p : MockParameters) (source : Source σ) : Encapsulator σ :=
  .ofHook (terms "MockEncapsulator" p) (encapsulate k p source)

def receiver (k : MockKey) (p : MockParameters) : Decapsulator σ :=
  .ofHook (terms "MockDecapsulator" p) (decapsulate k p)

def checkParams : ParamsValue → Except Fault MockParameters
  | .absent => .error (.parameter .mockAbsent)
  | .mock p => do
    let secret := p.secretSize
    let encapsulation := p.encapsulationSize
    if !(← Datum.atMost (.int 1) secret) then throw (Fault.parameter (.secretSize secret)).worded
    if !(← secret.atMost (.int maxSecretSize)) then
      throw (Fault.parameter (.secretSize secret)).worded
    if ← encapsulation.less (.int (minNonceSize + tagSize : Nat)) then
      throw (Fault.parameter (.encapsulationSize encapsulation)).worded
    if ← Datum.less (.int 0xffff) encapsulation then
      throw (Fault.parameter (.encapsulationSize encapsulation)).worded
    return p
  | other => .error (.parameter (.mockType other.typeName))

def checkKey (side : Side) (key : KeyValue) : Except Fault MockKey :=
  match side, key with
  | .sender, .mock .sender k => .ok k
  | .receiver, .mock .receiver k => .ok k
  | side, other => .error (.key (.notMock side other.typeName))

def bindSender (key : KeyValue) (params : ParamsValue) (source : Source σ) :
    Act σ (Encapsulator σ) := do
  let k ← checkKey .sender key
  return sender k (← checkParams params) source

def bindReceiver (key : KeyValue) (params : ParamsValue) : Act σ (Decapsulator σ) := do
  let k ← checkKey .receiver key
  return receiver k (← checkParams params)

def admitKey (side : Side) (key : KeyValue) : Except Fault Unit := (checkKey side key).map fun _ => ()

/-- The operation that checks the parameters of an admitted key. -/
def settling : String := "_check_params"

def typeName : String := "MockKEM"

def named (name : Datum) (entropy : Source σ) : Provider σ :=
  { Provider.ofRules typeName name entropy bindSender bindReceiver with
    admitKey := admitKey
    settling := some settling }

def provider (entropy : Source σ) : Provider σ := named typeName entropy

/-- Sixteen bytes as a random identifier: five groups of digits, with version and variant set. -/
def identifier (b : Bytes) : String :=
  let marked := (b.take 6) ++ (b.drop 6).mapIdx fun i x =>
    if i = 0 then (x &&& 0x0f) ||| 0x40 else if i = 2 then (x &&& 0x3f) ||| 0x80 else x
  let group (start stop : Nat) : String := Text.hex ((marked.take stop).drop start)
  "-".intercalate [group 0 4, group 4 6, group 6 8, group 8 10, group 10 16]

def generate (source entropy : Source σ) : Act σ MockKey := do
  let material ← source.read (.int keySize)
  let id ← entropy.read (.int 16)
  return ⟨.text (identifier id), .bytes material, MockKey.defaultAlgorithm⟩

end KeyCapsule.MockKem
