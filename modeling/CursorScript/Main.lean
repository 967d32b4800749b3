import CursorScript.CommandLine
import CursorScript.BuiltIn

/-!
The program: reads the command line, runs the script and prints as it goes.
-/
namespace CursorScript.CommandLine

def readFile (path : String) : IO FileContent := do
  match ← (IO.FS.readBinFile path).toBaseIO with
  | .ok data => return .bytes data
  | .error (.noFileOrDirectory ..) => return .missing
  | .error _ => return .directory

def flush (run : Run) : IO Run := do
  let out ← IO.getStdout
  out.putStr run.context.output
  out.flush
  return { run with context := { run.context with output := "" } }

/-- Gives a run ticks until it ends. -/
partial def drive (allowance : Nat) (run : Run) : IO (Except Error Unit) := do
  let (result, run) := run.tick allowance
  let run ← flush run
  match result with
  | .error e => return .error e
  | .ok .running => drive allowance run
  | .ok _ => return .ok ()

def carryOut (job : Job) : IO (Except Error Unit) := do
  match job.begin .builtIn "" (← readFile job.script) with
  | (.error e, _) => return .error e
  | (.ok (), run) => drive job.allowance run

end CursorScript.CommandLine

open CursorScript CommandLine in
def main (words : List String) : IO UInt32 := do
  let seed ← IO.monoNanosNow
  match CommandLine.read words seed with
  | .error message =>
    IO.eprint (complaint message)
    return 2
  | .ok job =>
    match ← carryOut job with
    | .ok () => return 0
    | .error e =>
      IO.eprint (report e (← readFile job.script))
      return 1
