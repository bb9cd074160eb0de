import KeyCapsule.Provider

/-! Checks that every provider should pass, run against one key pair, and the report of a run: which
checks passed, which failed and why. Only the whole secret under the
general label must be served; windows and labels are checked as far as the sending side supports
them. A failing check does not stop the ones after it, unless it fails by more than an exception. -/
namespace KeyCapsule

structure Report where
  /-- The name that the caller or the provider chose, of whatever kind. -/
  kemName : Datum
  passed : List String
  /-- Names of failed checks, each with its reason. -/
  failed : List (String × String)

namespace Report

def ok (r : Report) : Bool := r.failed.isEmpty

def lines (r : Report) : List String :=
  (r.kemName.plain ++ ": " ++ toString r.passed.length ++ " passed, " ++ toString r.failed.length ++ " failed")
    :: r.failed.map fun (name, reason) => "  FAIL " ++ name ++ ": " ++ reason

def summary (r : Report) : String := "\n".intercalate r.lines

end Report

variable {σ α : Type}

namespace Conformance

def logger : String := "kemkit.testing.conformance"

structure Bench (σ : Type) where
  enc : Encapsulator σ
  dec : Decapsulator σ
  trials : Int
  workers : Int

inductive Check
  | sizesAreStable
  | roundTrip
  | encapsulationIsFresh
  | decapsulationIsDeterministic
  | badRangesAreBoundaryErrors
  | wrongLengthIsDecapsulationFailure
  | tamperingIsNotSilent
  | slicingIsConsistentOrRefused
  | concurrentEncapsulation
  deriving DecidableEq

namespace Check

def all : List Check :=
  [sizesAreStable, roundTrip, encapsulationIsFresh, decapsulationIsDeterministic,
    badRangesAreBoundaryErrors, wrongLengthIsDecapsulationFailure, tamperingIsNotSilent,
    slicingIsConsistentOrRefused, concurrentEncapsulation]

def name : Check → String
  | sizesAreStable => "sizes_are_stable"
  | roundTrip => "round_trip"
  | encapsulationIsFresh => "encapsulation_is_fresh"
  | decapsulationIsDeterministic => "decapsulation_is_deterministic"
  | badRangesAreBoundaryErrors => "bad_ranges_are_boundary_errors"
  | wrongLengthIsDecapsulationFailure => "wrong_length_is_decapsulation_failure"
  | tamperingIsNotSilent => "tampering_is_not_silent"
  | slicingIsConsistentOrRefused => "slicing_is_consistent_or_refused"
  | concurrentEncapsulation => "concurrent_encapsulation"

end Check

def require (holds : Bool) (b : Breach) : Act σ Unit :=
  if holds then return () else throw (.breach b)

def times : Nat → Act σ Unit → Act σ Unit
  | 0, _ => return ()
  | n + 1, x => do
    x
    times n x

def sizes (t : Terms σ) : Act σ (Datum × Datum) := do
  return (← t.secretSize, ← t.encapsulationSize)

def sameSizes (a b : Datum × Datum) : Bool := a.1.equals b.1 && a.2.equals b.2

def shortened (message : Datum) : Except Fault Datum := message.slice .none (.int (-1))

def lengthened : Datum → Except Fault Datum
  | .bytes b => .ok (.bytes (b ++ [0]))
  | .buffer b => .ok (.buffer (b ++ [0]))
  | other => .error (.primitive .type ("can only concatenate " ++ other.typeName
      ++ " (not \"bytes\") to " ++ other.typeName))

def tampered (message : Datum) : Except Fault Bytes := do
  match ← message.toBuffer with
  | [] => throw (.primitive .index "bytearray index out of range")
  | first :: rest => return (first ^^^ 1) :: rest

def hasLength (length : Nat) (size : Datum) : Bool := (Datum.int length).equals size

def sizesAreStable (b : Bench σ) : Act σ Unit := do
  let expected ← sizes b.enc.toTerms
  require (sameSizes expected (← sizes b.dec.toTerms)) .sizesDisagree
  times b.trials.toNat do
    let _ ← b.enc.whole
    require (sameSizes (← sizes b.enc.toTerms) expected) .encapsulatorSizesChanged
    require (sameSizes (← sizes b.dec.toTerms) expected) .decapsulatorSizesChanged

def roundTrip (b : Bench σ) : Act σ Unit :=
  times b.trials.toNat do
    let r ← b.enc.whole
    require (hasLength r.key.encoded.length (← b.enc.secretSize)) .keyLength
    require (hasLength (← (r.encapsulation.size : Except Fault Nat)) (← b.enc.encapsulationSize))
      .messageLength
    require ((← b.dec.whole r.encapsulation).equals r.key) .secretDiffers

def encapsulationIsFresh (b : Bench σ) : Act σ Unit := do
  let first ← b.enc.whole
  let second ← b.enc.whole
  require (!first.encapsulation.equals second.encapsulation) .sharedMessage
  require (!first.key.equals second.key) .sharedSecret

def decapsulationIsDeterministic (b : Bench σ) : Act σ Unit := do
  let message := (← b.enc.whole).encapsulation
  require ((← b.dec.whole message).equals (← b.dec.whole message)) .undetermined

def expectRange (start stop : Datum) (request : Act σ α) : Act σ Unit := do
  match ← request.attempt with
  | .ok _ => throw (Fault.breach (.rangeAccepted start stop)).worded
  | .error e =>
    if e.isA .secretRange then return ()
    if e.isA .decapsulate then throw (Fault.breach (.rangeUndecapsulated start stop)).worded
    throw e

def expectRanges (b : Bench σ) (message start stop : Datum) : Act σ Unit := do
  let label := SecretKey.generic
  expectRange start stop (b.enc.encapsulate start stop label)
  expectRange start stop (b.dec.decapsulate message start stop label)
  -- the window is looked at before the message
  expectRange start stop do
    let short ← (shortened message : Except Fault Datum)
    b.dec.decapsulate short start stop label

def badRangesAreBoundaryErrors (b : Bench σ) : Act σ Unit := do
  let size ← b.enc.secretSize
  let message := (← b.enc.whole).encapsulation
  let beyond ← (size.plus 1 : Except Fault Datum)
  expectRanges b message (.int (-1)) size
  expectRanges b message (.int 1) (.int 0)
  expectRanges b message (.int 0) beyond

def expectFailure (b : Bench σ) (message : Datum) : Act σ Unit := do
  match ← (b.dec.whole message).attempt with
  | .ok _ => throw (.breach (.lengthAccepted (← (message.size : Except Fault Nat))))
  | .error e => if e.isA .decapsulate then return () else throw e

def wrongLengthIsDecapsulationFailure (b : Bench σ) : Act σ Unit := do
  let message := (← b.enc.whole).encapsulation
  let short ← (shortened message : Except Fault Datum)
  let long ← (lengthened message : Except Fault Datum)
  expectFailure b short
  expectFailure b long
  expectFailure b (.bytes [])

def tamperingIsNotSilent (b : Bench σ) : Act σ Unit := do
  let r ← b.enc.whole
  let message ← (tampered r.encapsulation : Except Fault Bytes)
  match ← (b.dec.whole (.bytes message)).attempt with
  | .ok recovered => require (!recovered.equals r.key) .tamperingSilent
  | .error e => if e.isA .decapsulate then return () else throw e

def slicingIsConsistentOrRefused (b : Bench σ) : Act σ Unit := do
  let size ← b.enc.secretSize
  if ← (size.less (.int 2) : Except Fault Bool) then return ()
  let label : Datum := "AES"
  if !(← b.enc.supports (.int 1) size label) then
    match ← (b.enc.encapsulate (.int 1) size label).attempt with
    | .ok _ => throw (.breach .unsupportedAccepted)
    | .error e => if e.isA .unsupportedCombination then return () else throw e
  else
    let r ← b.enc.encapsulate (.int 1) size label
    require (hasLength r.key.encoded.length (← (size.plus (-1) : Except Fault Datum))) .slicedLength
    require (r.key.algorithm.equals label) .slicedLabel
    require ((← b.dec.decapsulate r.encapsulation (.int 1) size label).equals r.key) .slicedDiffers

/-- Runs an action so many times, and lets every one of them finish. -/
def gather (x : Act σ α) : Nat → Act σ (List (Except Fault α))
  | 0 => return []
  | n + 1 => do
    let first ← x.attempt
    return first :: (← gather x n)

/-- The end of an iteration is not passed on as such. -/
def passedOn (e : Fault) : Fault :=
  if e.isA .stopIteration then .primitive .runtime "generator raised StopIteration" else e

/-- The results, unless one of them is a fault: then the first fault. -/
def settle : List (Except Fault α) → Except Fault (List α)
  | [] => .ok []
  | x :: rest => do return (← x.mapError passedOn) :: (← settle rest)

/-- Judges what concurrent requests gave: no secret twice, and each message opens to its key. -/
def judgeConcurrent (b : Bench σ) (results : List Encapsulated) : Act σ Unit := do
  let keys := (results.map fun r => r.key.encoded).eraseDups
  require (keys.length == results.length) .concurrentRepeat
  results.forM fun r => do
    require (hasLength (← (r.encapsulation.size : Except Fault Nat)) (← b.enc.encapsulationSize))
      .concurrentLength
    require ((← b.dec.whole r.encapsulation).equals r.key) .concurrentDiffers

/-- Two requests for each worker. The first result is looked at when all requests but one have begun;
the last is dropped if one of them failed. -/
def concurrentEncapsulation (b : Bench σ) : Act σ Unit := do
  if b.workers < 1 then throw (.primitive .value "max_workers must be greater than 0")
  let begun ← gather b.enc.whole (2 * b.workers.toNat - 1)
  let results ← (settle begun : Except Fault (List Encapsulated))
  let last ← (settle (← gather b.enc.whole 1) : Except Fault (List Encapsulated))
  judgeConcurrent b (results ++ last)

def Check.run (b : Bench σ) : Check → Act σ Unit
  | .sizesAreStable => Conformance.sizesAreStable b
  | .roundTrip => Conformance.roundTrip b
  | .encapsulationIsFresh => Conformance.encapsulationIsFresh b
  | .decapsulationIsDeterministic => Conformance.decapsulationIsDeterministic b
  | .badRangesAreBoundaryErrors => Conformance.badRangesAreBoundaryErrors b
  | .wrongLengthIsDecapsulationFailure => Conformance.wrongLengthIsDecapsulationFailure b
  | .tamperingIsNotSilent => Conformance.tamperingIsNotSilent b
  | .slicingIsConsistentOrRefused => Conformance.slicingIsConsistentOrRefused b
  | .concurrentEncapsulation => Conformance.concurrentEncapsulation b

def reason (e : Fault) : String :=
  if e.isA .conformance then e.text else e.title ++ ": " ++ e.text

/-- What a check came to. A fault that is no ordinary exception is not judged but ends the whole run,
and so does what comes of asking a fault for its text. -/
def judge (x : Act σ Unit) : Act σ (Except Fault Unit) := do
  match ← x.attempt with
  | .ok () => return .ok ()
  | .error e =>
    if !e.isA .exception then throw e
    match e.telling with
    | .ok _ => return .error e
    | .error cause => throw cause

def verdicts (title : Datum) (b : Bench σ) : List Check → Act σ (List (Check × Except Fault Unit))
  | [] => return []
  | c :: rest => do
    let verdict ← judge (c.run b)
    Act.report (.debug logger (title.plain ++ ": " ++ c.name))
    return (c, verdict) :: (← verdicts title b rest)

def passed? : Check × Except Fault Unit → Option String
  | (c, .ok _) => some c.name
  | (_, .error _) => none

def failed? : Check × Except Fault Unit → Option (String × String)
  | (_, .ok _) => none
  | (c, .error e) => some (c.name, reason e)

def reportOf (title : Datum) (vs : List (Check × Except Fault Unit)) : Report :=
  ⟨title, vs.filterMap passed?, vs.filterMap failed?⟩

def run (title : Datum) (b : Bench σ) : Act σ Report := do
  return reportOf title (← verdicts title b Check.all)

/-- The name under which a provider is reported; an empty one gives way to the provider's own. -/
def titleOf (p : Provider σ) (name : Datum) : Except Fault Datum :=
  if name.isEmpty then
    match p.name with
    | some own => .ok (Provider.title p.type own)
    | none => .error Fault.noAttribute
  else .ok name

def check (p : Provider σ) (sender receiver : KeyValue) (params : ParamsValue)
    (trials workers : Int) (choice : SourceChoice σ) (name : Datum) : Act σ Report := do
  let title ← (titleOf p name : Except Fault Datum)
  let enc ← p.newEncapsulator sender params choice
  let dec ← p.newDecapsulator receiver params
  run title ⟨enc, dec, trials, workers⟩

end Conformance

end KeyCapsule
