import KeyCapsule.CommandLine.Grammar

/-! The command line: a listing of the suites, and a self-test of one suite or of all. -/
namespace KeyCapsule.CommandLine

inductive Command
  | suites
  | selftest (suite : Option String) (all : Bool) (trials : Option Int)
  /-- A self-test whose number of trials was written without a value. -/
  | uncounted
  deriving DecidableEq

structure Request where
  verbose : Bool
  command : Command
  deriving DecidableEq

inductive General
  | help
  | verbose
  deriving DecidableEq

inductive Testing
  | help
  | suite
  | all
  | trials
  deriving DecidableEq

def general : Grammar General where
  program := "kemkit"
  spellings := [("-h", .help), ("--help", .help), ("-v", .verbose), ("--verbose", .verbose)]
  takesValue _ := false
  title
    | .help => "-h/--help"
    | .verbose => "-v/--verbose"

def listing : Grammar Unit where
  program := "kemkit suites"
  spellings := [("-h", ()), ("--help", ())]
  takesValue _ := false
  title _ := "-h/--help"

def testing : Grammar Testing where
  program := "kemkit selftest"
  spellings := [("-h", .help), ("--help", .help), ("--suite", .suite), ("--all", .all),
    ("--trials", .trials)]
  takesValue
    | .suite | .trials => true
    | .help | .all => false
  title
    | .help => "-h/--help"
    | .suite => "--suite"
    | .all => "--all"
    | .trials => "--trials"

structure Test where
  suite : Option String := none
  all : Bool := false
  /-- What was last written for the number of trials, be it without a value. -/
  trials : Option (Option Int) := none

def Test.command (t : Test) : Command :=
  match t.trials with
  | none => .selftest t.suite t.all none
  | some (some n) => .selftest t.suite t.all (some n)
  | some none => .uncounted

/-- One suite and all suites exclude each other. A suite written without a value counts as written,
with an empty name. -/
def Test.act (option : Testing) (value : Option String) (t : Test) : Except Stop Test :=
  match option with
  | .help => .error .help
  | .suite =>
    if t.all then testing.complain .suite "not allowed with argument --all"
    else .ok { t with suite := some (value.getD "") }
  | .all =>
    if t.suite.isSome then testing.complain .all "not allowed with argument --suite"
    else .ok { t with all := true }
  | .trials => match value with
    | none => .ok { t with trials := some none }
    | some text => match Text.integer? text with
      | some n => .ok { t with trials := some (some n) }
      | none => testing.complain .trials ("invalid int value: " ++ Text.quoted text)

structure Draft where
  verbose : Bool := false
  command : Option Command := none

def readCommand (args : List String) (d : Draft) : Except Stop (Draft × List String) :=
  match args with
  | "suites" :: rest => do
    let ((), left) ← listing.read ⟨fun _ _ _ => .error .help, none⟩ rest ()
    return ({ d with command := some .suites }, left)
  | "selftest" :: rest => do
    let (t, left) ← testing.read ⟨Test.act, none⟩ rest {}
    return ({ d with command := some t.command }, left)
  | other => .error (.misuse general.program ("argument command: invalid choice: "
      ++ Text.quoted (other.headD "") ++ " (choose from 'suites', 'selftest')"))

def Draft.act (option : General) (_ : Option String) (d : Draft) : Except Stop Draft :=
  match option with
  | .help => .error .help
  | .verbose => .ok { d with verbose := true }

def parse (args : List String) : Except Stop Request := do
  let (d, left) ← general.read ⟨Draft.act, some readCommand⟩ args {}
  match d.command with
  | none => .error (.misuse general.program "the following arguments are required: command")
  | some command =>
    if left.isEmpty then return ⟨d.verbose, command⟩
    else .error (.misuse general.program ("unrecognized arguments: " ++ " ".intercalate left))

def Stop.line? : Stop → Option String
  | .help => none
  | .misuse program text => some (program ++ ": error: " ++ text)

def Stop.exitCode : Stop → Nat
  | .help => 0
  | .misuse .. => 2

end KeyCapsule.CommandLine
