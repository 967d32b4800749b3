import CursorScript.Decimal.Read
import CursorScript.Library.Standard
import CursorScript.Report
import CursorScript.Run

/-!
The command line: which script to run, with which settings, and what to say if that fails.
-/
namespace CursorScript.CommandLine

structure Request where
  script : Option String
  maxDepth : Nat
  /-- How many milliseconds a tick may take. -/
  tickTime : Nat
  animation : Option Nat
  args : List String
deriving DecidableEq, Repr

def Request.empty : Request := ⟨none, RunConfig.standard.maxDepth, 3, none, []⟩

def usage : String :=
  "usage: archit <script> [--animate N] [--max-depth N] [--tick-ms N] [-- args...]"

def numberOf (option : String) (limit : Nat) (value : String) : Except String Nat :=
  match (Decimal.readUnsigned? value.toList).filter (· < limit) with
  | some n => .ok n
  | none => .error (option ++ " expects a number, received " ++ Text.quoted value)

/-- The three options that take a number. -/
inductive Setting where
  | animate
  | maxDepth
  | tickTime
deriving DecidableEq, Repr

def Setting.name : Setting → String
  | animate => "--animate"
  | maxDepth => "--max-depth"
  | tickTime => "--tick-ms"

def Setting.ofName? (word : String) : Option Setting :=
  [animate, maxDepth, tickTime].find? fun setting => setting.name == word

def Setting.limit : Setting → Nat
  | animate => Nat.pow 2 32
  | maxDepth => Nat.pow 2 64
  | tickTime => Nat.pow 2 64

def Request.apply (request : Request) (setting : Setting) (n : Nat) : Request :=
  match setting with
  | .animate => { request with animation := some n }
  | .maxDepth => { request with maxDepth := n }
  | .tickTime => { request with tickTime := n }

/-- Reads the words of a command line after those that `request` came from. -/
def readWords (request : Request) : List String → Except String Request
  | [] => .ok request
  | "--" :: rest => .ok { request with args := rest }
  | word :: rest =>
    match Setting.ofName? word with
    | some setting =>
      match rest with
      | [] => .error (word ++ " needs a value")
      | value :: rest =>
        match numberOf word setting.limit value with
        | .error message => .error message
        | .ok n => readWords (request.apply setting n) rest
    | none =>
      if "--".toList.isPrefixOf word.toList then .error ("unknown option " ++ word)
      else if request.script.isNone then readWords { request with script := some word } rest
      else .error ("unexpected argument " ++ Text.quoted word)

structure Job where
  script : String
  config : RunConfig
  options : RunOptions
  /-- How many items of work go into one tick. -/
  allowance : Nat

def itemsPerMillisecond : Nat := 1000

/-- Reads a command line; `seed` is for the random numbers of the run. -/
def read (words : List String) (seed : Nat) : Except String Job := do
  let request ← readWords .empty words
  match request.script with
  | none => .error "no script given"
  | some script =>
    return { script := script
             config := ⟨request.maxDepth, none⟩
             options := ⟨request.animation, none, " ".intercalate request.args, seed, false⟩
             allowance := request.tickTime * itemsPerMillisecond }

/-- What is said about a command line that cannot be read. -/
def complaint (message : String) : String := message ++ "\n" ++ usage ++ "\n"

/-- What is said about an error: it is shown in the script if that can be read. -/
def report (e : Error) (file : FileContent) : String :=
  match file.text with
  | .ok source => Report.render e source.toList
  | .error _ => e.message ++ "\n"

def Job.begin (outside : Outside) (job : Job) (stamp : String) (file : FileContent) :
    Except Error Unit × Run :=
  (Run.new job.script stamp job.options job.config).start (.standard outside) file

structure Exit where
  code : Nat
  stdout : String
  stderr : String
deriving DecidableEq, Repr

def exitOf (result : Except Error Unit) (run : Run) (file : FileContent) : Exit :=
  match result with
  | .ok () => ⟨0, run.context.output, ""⟩
  | .error e => ⟨1, run.context.output, report e file⟩

/-- Carries out a command line, given what is found under a path, with at most `fuel` ticks. -/
def execute (outside : Outside) (words : List String) (seed : Nat) (files : String → FileContent)
    (fuel : Nat) : Exit :=
  match read words seed with
  | .error message => ⟨2, "", complaint message⟩
  | .ok job =>
    let file := files job.script
    match job.begin outside "" file with
    | (.error e, run) => exitOf (.error e) run file
    | (.ok (), run) =>
      let (result, run) := run.complete job.allowance fuel
      exitOf result run file

end CursorScript.CommandLine
