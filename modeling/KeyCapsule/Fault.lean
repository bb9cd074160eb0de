import KeyCapsule.Datum
import KeyCapsule.Kind

/-! Faults by cause. Each cause fixes its kind and its wording. The wording is put together before a
fault is raised, and a value that cannot be written makes that fail in the fault's place. Many refusals
of primitive operations are worded by the runtime alone; of those only the kind is told here. -/
namespace KeyCapsule

inductive Side
  | sender
  | receiver
  deriving DecidableEq

def Side.half : Side → String
  | sender => "public"
  | receiver => "private"

inductive Argument
  | algorithm
  | start
  | encapsulation
  | algorithmAndProvider
  deriving DecidableEq

inductive KeyFault
  | absent (side : Side)
  | otherHalf (side : Side) (type : String)
  | unsupportedCurve (curve : String)
  | unsupportedType (type : String)
  | notMock (side : Side) (type : String)
  | refusedAgreement

inductive ParameterFault
  | sourceType (type : String)
  | unknownSuite (given : Datum)
  | otherType (type : String)
  | otherSuite (id : Int) (suite : String)
  | mockAbsent
  | mockType (type : String)
  | secretSize (given : Datum)
  | encapsulationSize (given : Datum)

inductive SettingFault
  | unknownLevel (raw : String)
  | unknownSuite (raw : String)
  | notInteger (raw : String)
  | tooFewTrials

/-- What a provider under test did against its contract. -/
inductive Breach
  | sizesDisagree
  | encapsulatorSizesChanged
  | decapsulatorSizesChanged
  | keyLength
  | messageLength
  | secretDiffers
  | sharedMessage
  | sharedSecret
  | undetermined
  | rangeUndecapsulated (start stop : Datum)
  | rangeAccepted (start stop : Datum)
  | lengthAccepted (length : Nat)
  | tamperingSilent
  | unsupportedAccepted
  | slicedLength
  | slicedLabel
  | slicedDiffers
  | concurrentRepeat
  | concurrentLength
  | concurrentDiffers

inductive Fault
  | missing (argument : Argument)
  | key (cause : KeyFault)
  | parameter (cause : ParameterFault)
  | range (start stop size : Datum)
  | unsupported (type : String) (start stop label : Datum)
  | undecapsulated
  | emptyKey
  | unknownDigest (name : Datum)
  | compressedPoint
  | drawLength (got : Nat) (wanted : Datum)
  | noScalar
  | noAlgorithm (name : Datum)
  | immutable (type : String)
  | setting (cause : SettingFault)
  | breach (cause : Breach)
  /-- A fault that a source or a provider under test was told to raise. -/
  | raised (kind : Kind) (text : String)
  /-- A fault of a primitive operation. -/
  | primitive (kind : Kind) (text : String)
  /-- A fault of a primitive operation in the runtime's own words. -/
  | refused (kind : Kind)
  /-- A fault of a class that a provider or a source brings along, with the kinds it descends from. -/
  | foreign (title : String) (bases : List Kind) (text : String)
  /-- A fault whose text cannot be had: asking for it ends in another fault. -/
  | mute (title : String) (bases : List Kind) (cause : Fault)

def Argument.text : Argument → String
  | algorithm => "algorithm must not be None"
  | start => "start must not be None"
  | encapsulation => "encapsulation must not be None"
  | algorithmAndProvider => "algorithm and spi are required"

def KeyFault.text : KeyFault → String
  | absent side => side.half ++ " key must not be None"
  | otherHalf side type => "expected a " ++ side.half ++ " key, got " ++ type
  | unsupportedCurve curve => "unsupported curve for DHKEM: " ++ curve
  | unsupportedType type => "unsupported key type for DHKEM: " ++ type
  | notMock .sender type => "MockKEM expects MockPublicKey, got " ++ type
  | notMock .receiver type => "MockKEM expects MockPrivateKey, got " ++ type
  | refusedAgreement => "receiver public key rejected during key agreement"

def ParameterFault.text : ParameterFault → String
  | sourceType type => "randomness source must be callable, got " ++ type
  | unknownSuite given => "unknown DHKEM suite: " ++ given.quoted
  | otherType type => "DHKEM expects DHKEMParameters or None, got " ++ type
  | otherSuite id suite =>
    "parameters select KEM id 0x" ++ Text.hexField id ++ " but the key belongs to " ++ suite
  | mockAbsent => "MockKEM requires MockParameters"
  | mockType type => "MockKEM expects MockParameters, got " ++ type
  | secretSize given => "secret_size out of range: " ++ given.plain
  | encapsulationSize given => "encapsulation_size out of range: " ++ given.plain

def SettingFault.text : SettingFault → String
  | unknownLevel raw => "KEMKIT_LOG_LEVEL: unknown level " ++ Text.quoted raw
  | unknownSuite raw => "KEMKIT_DEFAULT_SUITE: unknown suite " ++ Text.quoted raw
  | notInteger raw => "KEMKIT_SELFTEST_TRIALS: not an integer: " ++ Text.quoted raw
  | tooFewTrials => "KEMKIT_SELFTEST_TRIALS must be at least 1"

def windowText (start stop : Datum) : String := "[" ++ start.plain ++ ", " ++ stop.plain ++ ")"

def Breach.text : Breach → String
  | sizesDisagree => "encapsulator and decapsulator disagree on sizes"
  | encapsulatorSizesChanged => "encapsulator sizes changed"
  | decapsulatorSizesChanged => "decapsulator sizes changed"
  | keyLength => "key does not span the full secret"
  | messageLength => "wrong message length"
  | secretDiffers => "recovered secret differs"
  | sharedMessage => "two encapsulations share a message"
  | sharedSecret => "two encapsulations share a secret"
  | undetermined => "decapsulating the same message twice gave different secrets"
  | rangeUndecapsulated start stop =>
    "range " ++ windowText start stop ++ " reported as a decapsulation failure"
  | rangeAccepted start stop => "range " ++ windowText start stop ++ " was accepted"
  | lengthAccepted length => toString length ++ "-byte message was accepted"
  | tamperingSilent => "tampered message decapsulated to the original secret"
  | unsupportedAccepted => "unsupported combination was accepted"
  | slicedLength => "sliced key has the wrong length"
  | slicedLabel => "sliced key lost its algorithm label"
  | slicedDiffers => "sliced secret differs after decapsulation"
  | concurrentRepeat => "concurrent calls produced a repeated secret"
  | concurrentLength => "concurrent call returned a bad message length"
  | concurrentDiffers => "concurrent round trip failed"

namespace Fault

def kind : Fault → Kind
  | missing _ => .missingArgument
  | key _ => .invalidKey
  | parameter _ => .invalidParameter
  | range .. => .secretRange
  | unsupported .. => .unsupportedCombination
  | undecapsulated => .decapsulate
  | emptyKey | unknownDigest _ | compressedPoint | setting _ => .value
  | drawLength .. | noScalar => .runtime
  | noAlgorithm _ => .lookup
  | immutable _ => .access
  | breach _ => .conformance
  | raised kind _ | primitive kind _ | refused kind => kind
  | foreign _ bases _ | mute _ bases _ => bases.headD .exception

def title : Fault → String
  | foreign title _ _ | mute title _ _ => title
  | other => other.kind.title

def undecapsulatedText : String := "decapsulation failed"

def raisedText : Kind → String → String
  | .key, text => Text.quoted text
  | .unicodeDecode, text => "'utf-8' codec can't decode byte 0xff in position 0: " ++ text
  | .decapsulate, _ => undecapsulatedText
  | _, text => text

def text : Fault → String
  | missing argument => argument.text
  | key cause => cause.text
  | parameter cause => cause.text
  | range start stop size =>
    "invalid secret range " ++ windowText start stop ++ " for a " ++ size.plain ++ "-byte secret"
  | unsupported type start stop label =>
    type ++ " does not support range " ++ windowText start stop ++ " with algorithm " ++ label.quoted
  | undecapsulated => undecapsulatedText
  | emptyKey => "empty key"
  | unknownDigest name => "unsupported hash: " ++ name.plain
  | compressedPoint => "expected an uncompressed point"
  | drawLength got wanted =>
    "randomness source returned " ++ toString got ++ " bytes, expected " ++ wanted.plain
  | noScalar => "DeriveKeyPair: no valid scalar after 256 candidates"
  | noAlgorithm name => "no built-in KEM named " ++ name.quoted
  | immutable type => type ++ " is immutable"
  | setting cause => cause.text
  | breach cause => cause.text
  | raised kind text => raisedText kind text
  | primitive _ text => text
  | foreign _ _ text => text
  | refused _ => ""
  -- what the runtime prints in place of a text that it cannot have
  | mute .. => "<exception str() failed>"

def telling : Fault → Except Fault String
  | mute _ _ cause => .error cause
  | other => .ok other.text

def writable : Fault → Bool
  | parameter (.unknownSuite given) => given.writable
  | parameter (.secretSize given) => given.writable
  | parameter (.encapsulationSize given) => given.writable
  | range start stop size => start.writable && stop.writable && size.writable
  | unsupported _ start stop label => start.writable && stop.writable && label.writable
  | unknownDigest name => name.writable
  | drawLength _ wanted => wanted.writable
  | noAlgorithm name => name.writable
  | breach (.rangeUndecapsulated start stop) => start.writable && stop.writable
  | breach (.rangeAccepted start stop) => start.writable && stop.writable
  | _ => true

/-- What writing an integer of too many digits ends in. -/
def unwritable : Fault :=
  primitive .value ("Exceeds the limit (" ++ toString Text.maxDigits ++ " digits) for integer string "
    ++ "conversion; use sys.set_int_max_str_digits() to increase the limit")

/-- The fault that comes of raising one. -/
def worded (e : Fault) : Fault := if e.writable then e else unwritable

/-- The wording of a fault made from some values: a single one speaks for itself, several stand in
parentheses. A failed decapsulation takes none and always reads the same. -/
def wording (kind : Kind) (values : List Datum) : Except Fault String :=
  match kind, values with
  | .decapsulate, [] => .ok undecapsulatedText
  | .decapsulate, _ => .error (refused .type)
  | _, [] => .ok ""
  | k, [.text s] => .ok (raisedText k s)
  | _, several =>
    if !several.all Datum.writable then .error unwritable
    else match several with
      | [d] => .ok d.plain
      | _ => .ok ("(" ++ ", ".intercalate (several.map Datum.quoted) ++ ")")

/-- The wording that a caller sees; a primitive operation's refusal shows its kind alone. -/
def shown? : Fault → Option String
  | primitive .. | refused _ | mute .. => none
  | other => some other.text

def isA : Fault → Kind → Bool
  | foreign _ bases _, ancestor | mute _ bases _, ancestor => bases.any (·.descendsFrom ancestor)
  | other, ancestor => other.kind.descendsFrom ancestor

def told (kind : Kind) (text : String) : Fault :=
  match kind with
  | .unicodeEncode => primitive .type "function takes exactly 5 arguments (1 given)"
  | .unicodeTranslate => primitive .type "function takes exactly 4 arguments (1 given)"
  | kind => raised kind text

/-! Refusals of primitive operations. -/

def typeMismatch : Fault := refused .type
def badValue : Fault := refused .value
def outOfWord : Fault := refused .overflow
def outOfMemory : Fault := refused .memory
def noAttribute : Fault := refused .access
def frozen : Fault := refused .frozenInstance
def noEntry : Fault := refused .key

def incomparable : Fault :=
  primitive .type "'<' not supported between instances of 'list' and 'int'"

theorem worded_of_writable {e : Fault} (h : e.writable = true) : e.worded = e := if_pos h

/-- What holds of a fault and of a failure to word it holds of whichever is raised. -/
theorem worded_induct {motive : Fault → Prop} {e : Fault} (he : motive e) (hu : motive unwritable) :
    motive e.worded := by
  rw [worded]
  split
  · exact he
  · exact hu

end Fault

end KeyCapsule
