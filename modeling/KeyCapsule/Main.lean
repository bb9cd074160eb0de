import KeyCapsule.SelfTest
import KeyCapsule.Source.Scripted
import Std.Time.Format

/-! The program: it reads its arguments and environment, takes a seed from the operating system, and
puts out what the request came to. -/
namespace KeyCapsule.Main

def stamp : IO String := do
  let now ← Std.Time.PlainDateTime.now
  return now.time.format "HH:mm:ss"

def environment : IO Environment := do
  let names := ["KEMKIT_LOG_LEVEL", "KEMKIT_DEFAULT_SUITE", "KEMKIT_SELFTEST_TRIALS"]
  let values ← names.mapM fun name => do return (name, (← IO.getEnv name).getD "")
  return fun name => values.lookup name

def put (time : String) (entry : SelfTest.Entry) : IO Unit := do
  if let some line := entry.output? time then IO.println line
  if let some line := entry.complaint? then IO.eprintln line

def run (request : CommandLine.Request) : IO UInt32 := do
  let seed ← IO.getRandomBytes 32
  let entropy := Source.generator seed.toList Cell.whole
  let tools := SelfTest.standardTools KeyAgreement.standard entropy
  let answer := SelfTest.answer tools 0 (← environment) request
  let time ← stamp
  answer.entries.forM (put time)
  if let some line := answer.lastWords? then IO.eprintln line
  return UInt32.ofNat answer.code

end KeyCapsule.Main

def main (args : List String) : IO UInt32 := do
  match KeyCapsule.CommandLine.parse args with
  | .ok request => KeyCapsule.Main.run request
  | .error stop =>
    if let some line := stop.line? then IO.eprintln line
    return UInt32.ofNat stop.exitCode
