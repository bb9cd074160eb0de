import KeyCapsule.Logging
import KeyCapsule.Suite
import KeyCapsule.Text.Reading

/-! Settings from environment variables. An absent or empty variable leaves the default; anything
else must be a known level, a known suite, or a positive number of trials. -/
namespace KeyCapsule

structure Settings where
  logLevel : Int := Level.info
  suite : Suite := Suite.x25519
  trials : Int := 8

abbrev Environment := String → Option String

namespace Settings

def given? (env : Environment) (name : String) : Option String :=
  (env name).filter fun raw => !raw.isEmpty

/-- Blanks around a level's name and the case of its letters do not matter. -/
def readLevel (raw : String) : Except Fault Int :=
  let name := String.ofList ((Text.trim Text.isBlank raw.toList).flatMap Text.upper)
  match Level.named? name with
  | some level => .ok level
  | none => .error (.setting (.unknownLevel raw))

def readSuite (raw : String) : Except Fault Suite :=
  match Suite.named? raw with
  | some s => .ok s
  | none => .error (.setting (.unknownSuite raw))

def readTrials (raw : String) : Except Fault Int :=
  match Text.integer? raw with
  | some n => if n < 1 then .error (.setting .tooFewTrials) else .ok n
  | none => .error (.setting (.notInteger raw))

def read {α : Type} (env : Environment) (name : String) (default : α)
    (reader : String → Except Fault α) : Except Fault α :=
  match given? env name with
  | some raw => reader raw
  | none => .ok default

def load (env : Environment) : Except Fault Settings := do
  let defaults : Settings := {}
  let logLevel ← read env "KEMKIT_LOG_LEVEL" defaults.logLevel readLevel
  let suite ← read env "KEMKIT_DEFAULT_SUITE" defaults.suite readSuite
  let trials ← read env "KEMKIT_SELFTEST_TRIALS" defaults.trials readTrials
  return ⟨logLevel, suite, trials⟩

end Settings

end KeyCapsule
