import KeyCapsule.CommandLine
import KeyCapsule.Conformance
import KeyCapsule.DhKem
import KeyCapsule.Settings

/-! What the program does with an accepted command line. Nothing is tested before the settings, the
number of trials and every selected suite are known to be good. -/
namespace KeyCapsule.SelfTest

open CommandLine

variable {σ : Type}

def logger : String := "kemkit.frontend.cli.app"

inductive Task
  | list
  | test (suites : List Suite) (trials : Int)
  /-- A self-test that has no number of trials to compare with the least one. -/
  | uncounted

inductive Refusal
  | settings (cause : Fault)
  | tooFewTrials
  | unknownSuite (name : String)

def Refusal.text : Refusal → String
  | settings cause => "configuration error: " ++ cause.text
  | tooFewTrials => "--trials must be at least 1"
  | unknownSuite name => "unknown suite: " ++ name

def select (suite : Option String) (all : Bool) (default : Suite) : Except Refusal (List Suite) :=
  if all then .ok Suite.all
  else match suite.filter fun name => !name.isEmpty with
    | none => .ok [default]
    | some name => match Suite.named? name with
      | some s => .ok [s]
      | none => .error (.unknownSuite name)

def plan (env : Environment) (r : Request) : Except Refusal (Int × Task) := do
  let settings ← (Settings.load env).mapError .settings
  let level := if r.verbose then Level.debug else settings.logLevel
  match r.command with
  | .suites => return (level, .list)
  | .uncounted => return (level, .uncounted)
  | .selftest suite all trials =>
    let trials := trials.getD settings.trials
    if trials < 1 then throw .tooFewTrials
    return (level, .test (← select suite all settings.suite) trials)

inductive Entry
  | output (line : String)
  | record (r : Record)
  | complaint (line : String)

structure Tools (σ : Type) where
  generate : Suite → Act σ PrivateKey
  check : Suite → PrivateKey → Int → Act σ Report

def standardTools (g : KeyAgreement) (entropy : Source σ) : Tools σ where
  generate s := DhKem.generate entropy s.keys
  check s key trials :=
    Conformance.check (DhKem.provider g entropy) (.publicKey (g.publicOf key)) (.privateKey key)
      .absent trials 8 .absent s.name

def suiteLine (s : Suite) : String :=
  let filler := String.ofList (List.replicate (28 - s.name.length) ' ')
  s.name ++ filler ++ " id=0x" ++ Text.hexField s.kemId ++ " secret=" ++ toString s.secretSize
    ++ " encapsulation=" ++ toString s.encapsulationSize

def examine (t : Tools σ) (trials : Int) (s : Suite) : Act σ Report := do
  let key ← t.generate s
  Act.report (.info logger ("checking " ++ s.name))
  t.check s key trials

structure Run (σ : Type) where
  entries : List Entry
  /-- The exit code, or the fault that no one answered for. -/
  ending : Except Fault Nat
  state : σ

def Run.code (r : Run σ) : Nat :=
  match r.ending with
  | .ok code => code
  | .error _ => 1

def Run.lastWords? (r : Run σ) : Option String :=
  match r.ending with
  | .ok _ => none
  | .error e => some (e.title ++ ": " ++ e.text)

/-- Tests suites one after the other. A fault ends the run. -/
def examineAll (t : Tools σ) (trials : Int) : List Suite → Nat → σ → Run σ
  | [], code, state => ⟨[], .ok code, state⟩
  | s :: rest, code, state =>
    let outcome := examine t trials s state
    let records := outcome.log.map Entry.record
    match outcome.result with
    | .error e => ⟨records, .error e, outcome.state⟩
    | .ok report =>
      let later := examineAll t trials rest (if report.ok then code else 1) outcome.state
      { later with entries := records ++ .output report.summary :: later.entries }

def perform (t : Tools σ) (state : σ) : Task → Run σ
  | .list => ⟨Suite.all.map fun s => .output (suiteLine s), .ok 0, state⟩
  | .test suites trials => examineAll t trials suites 0 state
  | .uncounted => ⟨[], .error Fault.incomparable, state⟩

/-- What comes through to the one destination. Only log records can be held back. -/
def shown (logging : Logging) : List Entry → List Entry
  | [] => []
  | .record r :: rest =>
    let (logging, destinations) := logging.log r
    if destinations.isEmpty then shown logging rest else .record r :: shown logging rest
  | entry :: rest => entry :: shown logging rest

def standardOutput : Nat := 0

def answer (t : Tools σ) (state : σ) (env : Environment) (r : Request) : Run σ :=
  match plan env r with
  | .error refusal => ⟨[.complaint refusal.text], .ok 2, state⟩
  | .ok (level, task) =>
    let run := perform t state task
    { run with entries := shown (Logging.configure {} level standardOutput) run.entries }

def Entry.output? (stamp : String) : Entry → Option String
  | output line => some line
  | record r => some (r.written stamp)
  | complaint _ => none

def Entry.complaint? : Entry → Option String
  | complaint line => some line
  | _ => none

end KeyCapsule.SelfTest
