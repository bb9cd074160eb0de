import KeyCapsule.Act

/-! Where log records go. All destinations stand at the root of the loggers, and the first configuration
installs the only one; every later one moves the level of the library's own loggers. A logger without a
level of its own takes that of the nearest logger above it that has one. -/
namespace KeyCapsule

namespace Level

def debug : Int := 10
def info : Int := 20
def warning : Int := 30
def error : Int := 40
def critical : Int := 50

def written (level : Int) : String :=
  match [(critical, "CRITICAL"), (error, "ERROR"), (warning, "WARNING"), (info, "INFO"),
    (debug, "DEBUG"), (0, "NOTSET")].lookup level with
  | some name => name
  | none => "Level " ++ toString level

def named? (name : String) : Option Int :=
  [("CRITICAL", critical), ("FATAL", critical), ("ERROR", error), ("WARN", warning),
    ("WARNING", warning), ("INFO", info), ("DEBUG", debug), ("NOTSET", 0)].lookup name

end Level

def Logging.root : String := ""

def Logging.library : String := "kemkit"

structure Logging where
  /-- The streams that the root writes to. -/
  destinations : List Nat := []
  /-- Loggers that were asked for. Only these can stand above another one. -/
  known : List String := []
  /-- Levels that were set, the latest first. -/
  levels : List (String × Int) := [(Logging.root, Level.warning)]
  /-- What was found out about a logger and a level since a level was last set. -/
  verdicts : List ((String × Int) × Bool) := []

namespace Logging

/-- Names from their ends on: the known loggers above one, the nearest first. A logger may stand in front
of each dot. Where it is not known the search goes on behind the character next to the dot, even if that
is a dot itself. -/
def line (known : List Char → Bool) : List Char → List (List Char)
  | [] => []
  | [_] => []
  | c :: d :: rest =>
    if c = '.' then
      if known (d :: rest) then (d :: rest) :: line known (d :: rest) else line known rest
    else line known (d :: rest)

def above (l : Logging) (logger : String) : List String :=
  (line (fun cs => l.known.contains (String.ofList cs.reverse)) logger.toList.reverse).map fun cs =>
    String.ofList cs.reverse

def level (l : Logging) (logger : String) : Int := (l.levels.lookup logger).getD 0

def setLevel (l : Logging) (logger : String) (level : Int) : Logging :=
  { l with known := logger :: l.known, levels := (logger, level) :: l.levels, verdicts := [] }

/-- The first level that is set on the way up some loggers to the root. -/
def firstLevel (l : Logging) : List String → Int
  | [] => l.level root
  | logger :: rest => if l.level logger = 0 then l.firstLevel rest else l.level logger

def threshold (l : Logging) (logger : String) : Int := l.firstLevel (logger :: l.above logger)

def install (l : Logging) (stream : Nat) (level : Int) : Logging :=
  if l.destinations.isEmpty then { l with destinations := [stream] }.setLevel root level else l

def configure (l : Logging) (level : Int) (stream : Nat) : Logging :=
  (l.install stream Level.warning).setLevel library level

def admits (l : Logging) (logger : String) (level : Int) : Bool := 0 < level && l.threshold logger ≤ level

/-- Decides on a record, and keeps the verdict for all records of its logger and level. -/
def judge (l : Logging) (logger : String) (level : Int) : Logging × Bool :=
  match l.verdicts.lookup (logger, level) with
  | some verdict => (l, verdict)
  | none =>
    let l := { l with known := logger :: l.known }
    let verdict := l.admits logger level
    ({ l with verdicts := ((logger, level), verdict) :: l.verdicts }, verdict)

def log (l : Logging) (r : Record) : Logging × List Nat :=
  let (l, verdict) := l.judge r.logger r.level
  (l, if verdict then l.destinations else [])

def deliver (l : Logging) : List Record → List (Nat × Record)
  | [] => []
  | r :: rest =>
    let (l, destinations) := l.log r
    destinations.map (·, r) ++ l.deliver rest

def received (stream : Nat) (written : List (Nat × Record)) : List Record :=
  (written.filter fun w => w.1 = stream).map (·.2)

end Logging

def Record.origin (r : Record) : String := if r.logger.isEmpty then "root" else r.logger

def Record.written (stamp : String) (r : Record) : String :=
  "[" ++ stamp ++ "] " ++ Level.written r.level ++ " " ++ r.origin ++ ": " ++ r.text

namespace Logging

def configured (l : Logging) (calls : List (Int × Nat)) : Logging :=
  calls.foldl (fun l (level, stream) => l.configure level stream) l

def streams (stamp : String) (levels : List Int) (records : List Record) : List (List String) :=
  let written := (configured {} levels.zipIdx).deliver records
  (List.range levels.length).map fun stream => (received stream written).map (Record.written stamp)

end Logging

end KeyCapsule
