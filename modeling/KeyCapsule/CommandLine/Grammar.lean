import KeyCapsule.Text.Reading
import KeyCapsule.Text.Quoted

/-! Options on a command line. Long options may be cut short as long as they stay unique, and may
carry their value after an equals sign, where two dashes alone stand for no value at all;
single-letter options take no value and may be written together. What no option claims is left
over. -/
namespace KeyCapsule.CommandLine

inductive Stop
  | help
  | misuse (program text : String)
  deriving DecidableEq

structure Grammar (o : Type) where
  program : String
  /-- Every spelling of every option, in the order in which they are declared. -/
  spellings : List (String × o)
  takesValue : o → Bool
  /-- How messages name an option. -/
  title : o → String

inductive Token (o : Type)
  | argument
  | divider
  /-- Looks like an option but is none. -/
  | unknown
  /-- An option, and the text written together with it, after an equals sign or not. -/
  | option (option : o) (long : Bool) (attached : Option String)

namespace Grammar

variable {o σ α : Type}

def complain (g : Grammar o) (option : o) (text : String) : Except Stop α :=
  .error (.misuse g.program ("argument " ++ g.title option ++ ": " ++ text))

def find? (g : Grammar o) (spelling : String) : Option o := g.spellings.lookup spelling

def isDigits (cs : List Char) : Bool := cs.all fun c => (Text.digitValue? c).isSome

/-- Numbers with a minus sign are no options; a line end after one does not matter. -/
def isNegative (cs : List Char) : Bool :=
  let cs := if cs.getLast? == some '\n' then cs.dropLast else cs
  match cs with
  | '-' :: rest =>
    let (whole, fraction) := rest.span (· != '.')
    isDigits whole && match fraction with
      | [] => !whole.isEmpty
      | _ :: digits => isDigits digits && !digits.isEmpty
  | _ => false

def partition (cs : List Char) : List Char × Option (List Char) :=
  let (head, tail) := cs.span (· != '=')
  (head, tail.tail?)

def expansions (g : Grammar o) (start : List Char) : List (String × o) :=
  g.spellings.filter fun (spelling, _) => start.isPrefixOf spelling.toList

/-- An argument that is no exact spelling: an abbreviation, letters written together, or neither. -/
def classifyLoose (g : Grammar o) (arg : String) : Except Stop (Token o) :=
  match arg.toList with
  | '-' :: '-' :: _ =>
    let (start, attached) := partition arg.toList
    match g.expansions start with
    | [] => .ok none'
    | [(_, option)] => .ok (.option option true (attached.map String.ofList))
    | several => .error (.misuse g.program ("ambiguous option: " ++ arg ++ " could match "
        ++ ", ".intercalate (several.map (·.1))))
  | '-' :: letter :: rest =>
    match g.find? (String.ofList ['-', letter]) with
    | some option => .ok (.option option false (some (String.ofList rest)))
    | none => .ok none'
  | _ => .ok .argument
where
  none' : Token o :=
    if isNegative arg.toList || arg.toList.contains ' ' then .argument else .unknown

def classify (g : Grammar o) (arg : String) : Except Stop (Token o) :=
  let isLong := "--".toList.isPrefixOf arg.toList
  if arg.toList.head? != some '-' then .ok .argument
  else match g.find? arg with
    | some option => .ok (.option option isLong none)
    | none =>
      if arg == "-" then .ok .argument
      else
        let (head, attached) := partition arg.toList
        match attached, g.find? (String.ofList head) with
        | some text, some option => .ok (.option option isLong (some (String.ofList text)))
        | _, _ => g.classifyLoose arg

def tokens (g : Grammar o) : List String → Except Stop (List (String × Token o))
  | [] => .ok []
  | arg :: rest =>
    if arg = "--" then .ok ((arg, .divider) :: rest.map fun a => (a, .argument))
    else do
      let token ← g.classify arg
      return (arg, token) :: (← g.tokens rest)

def ignored (g : Grammar o) (option : o) (attached : List Char) : Except Stop α :=
  g.complain option ("ignored explicit argument " ++ Text.quoted (String.ofList attached))

/-- Single-letter options written together: every letter must be one, an equals sign included. -/
def cluster (g : Grammar o) (option : o) : List Char → Except Stop (List o)
  | [] => g.ignored option []
  | letter :: rest =>
    match g.find? (String.ofList ['-', letter]) with
    | none => g.ignored option (letter :: rest)
    | some next =>
      if rest.isEmpty then .ok [option, next]
      else (g.cluster next rest).map (option :: ·)

/-- The value that an option has after an equals sign. Two dashes alone are taken for the divider and
leave the option without one. -/
def attachedValue (text : String) : Option String := if text = "--" then none else some text

/-- What takes the place of options: each is acted on in turn, and the rest may go to a command. -/
structure Actions (o σ : Type) where
  /-- Options that take no value, or were left without one, are acted on with none. -/
  act : o → Option String → σ → Except Stop σ
  /-- Takes a command with all that follows it, and gives back what it left over. -/
  command : Option (List String → σ → Except Stop (σ × List String))

def actAll (a : Actions o σ) (options : List o) (s : σ) : Except Stop σ :=
  options.foldlM (fun s option => a.act option none s) s

def run (g : Grammar o) (a : Actions o σ) :
    List (String × Token o) → List String → σ → Except Stop (σ × List String)
  | [], left, s => .ok (s, left)
  | (arg, .unknown) :: rest, left, s => run g a rest (left ++ [arg]) s
  | (arg, .argument) :: rest, left, s =>
    match a.command with
    | some command => do
      let (s, more) ← command (arg :: rest.map (·.1)) s
      return (s, left ++ more)
    | none => run g a rest (left ++ [arg]) s
  | (arg, .divider) :: rest, left, s =>
    match a.command, rest with
    | some command, _ :: _ => do
      let (s, more) ← command (arg :: rest.map (·.1)) s
      return (s, left ++ more)
    | _, _ => .ok (s, left ++ arg :: rest.map (·.1))
  | (_, .option option long attached) :: rest, left, s =>
    match g.takesValue option, attached, rest with
    | true, some text, rest => do run g a rest left (← a.act option (attachedValue text) s)
    | true, none, (value, .argument) :: rest => do run g a rest left (← a.act option (some value) s)
    | true, none, _ => g.complain option "expected one argument"
    | false, none, rest => do run g a rest left (← a.act option none s)
    | false, some text, rest =>
      if long then g.ignored option text.toList
      else do
        let options ← g.cluster option text.toList
        run g a rest left (← actAll a options s)

def read (g : Grammar o) (a : Actions o σ) (args : List String) (s : σ) :
    Except Stop (σ × List String) := do
  g.run a (← g.tokens args) [] s

end Grammar

end KeyCapsule.CommandLine
