import CursorScript.Analysis.Typing
import CursorScript.Grammar.Stmt
import CursorScript.Machine.Step

/-!
One script from loading to its end. A run is given to its host a tick at a time; between ticks it
is a value that can be looked at, kept or dropped.
-/
namespace CursorScript

inductive RunState where
  | notStarted
  | running
  /-- Ended early, by an error or by the host. -/
  | stopped
  | finished
deriving DecidableEq, Repr

def RunState.name : RunState → String
  | notStarted => "NotStarted"
  | running => "Running"
  | stopped => "Stopped"
  | finished => "Finished"

/-- What is found under the path of a script. -/
inductive FileContent where
  | missing
  | directory
  | bytes (data : ByteArray)

def FileContent.text : FileContent → Except String String
  | missing => .error "file does not exist"
  | directory => .error "path is a directory"
  | bytes data =>
    match String.fromUTF8? data with
    | some text => .ok text
    | none => .error "stream did not contain valid UTF-8"

structure RunConfig where
  /-- How many calls a run may have active at once. -/
  maxDepth : Nat
  /-- The animation speed of runs that ask for none. -/
  animation : Option Nat

/-- The settings of a host that chooses none. -/
def RunConfig.standard : RunConfig := ⟨512, none⟩

/-- Settings of a single run. -/
structure RunOptions where
  /-- With a speed `n` the run does something in every `n`-th tick only, and a tick ends with its
  first call. -/
  animation : Option Nat
  metadata : Option String
  args : String
  seed : Nat
  /-- Whether what is printed is thrown away. -/
  silent : Bool

def RunOptions.standard : RunOptions := ⟨none, none, "", 0, false⟩

structure Run where
  path : String
  /-- The time at which it was made. -/
  stamp : String
  state : RunState
  /-- The script, once it was read. -/
  source : Option String
  machine : Option Machine
  context : Context
  /-- The error that stopped it. -/
  error : Option Error
  /-- The call that the last animated tick ended with. -/
  lastCall : Option String
  animation : Option Nat
  maxDepth : Nat
  ticks : Nat

namespace Run

/-- The last part of a path; a path that ends in none is taken whole. -/
def lastPart (path : String) : String :=
  match ((path.splitOn "/").filter fun part => part != "" && part != ".").getLast? with
  | none => path
  | some ".." => path
  | some part => part

def new (path stamp : String) (options : RunOptions) (config : RunConfig) : Run :=
  let context := Context.initial options.args options.seed
  { path := path
    stamp := stamp
    state := .notStarted
    source := none
    machine := none
    context := { context with metadata := options.metadata, silent := options.silent }
    error := none
    lastCall := none
    animation := options.animation.or config.animation
    maxDepth := config.maxDepth
    ticks := 0 }

def fileName (r : Run) : String := lastPart r.path

def id (r : Run) : String := r.fileName ++ "@" ++ r.stamp

def isActive (r : Run) : Bool :=
  match r.state with
  | .notStarted => true
  | .running => true
  | .stopped => false
  | .finished => false

/-- The place of errors that concern the file as a whole. -/
def filePosition (r : Run) : Position := Position.start r.fileName

def failed (r : Run) (e : Error) : Run := { r with state := .stopped, error := some e }

def readSource (r : Run) (file : FileContent) : Except Error String :=
  file.text.mapError fun reason => ⟨.scriptUnavailable r.path reason, r.filePosition⟩

/-- A machine before the first statement of a script. -/
def prepare (r : Run) (library : Library) (source : String) : Except Error Machine := do
  let program ← Program.ofSource source r.fileName
  let tables ← program.analyse library
  return .initial program tables r.maxDepth

/-- Reads and analyses the script; nothing of it runs yet. A run that cannot start is stopped. -/
def start (r : Run) (library : Library) (file : FileContent) : Except Error Unit × Run :=
  if r.state ≠ .notStarted then
    (.error (.internal ("run " ++ r.id ++ " was already started") r.filePosition), r)
  else
    match r.readSource file with
    | .error e => (.error e, r.failed e)
    | .ok source =>
      let r := { r with source := some source }
      match r.prepare library source with
      | .error e => (.error e, r.failed e)
      | .ok machine => (.ok (), { r with machine := some machine, state := .running })

/-- Runs at most `allowance` items of work; if `animated`, a call is the last of them. -/
def runItems (animated : Bool) : (allowance : Nat) → Machine → Context → Machine.Step
  | 0, machine, context => ⟨.ok none, machine, context⟩
  | allowance + 1, machine, context =>
    if machine.isFinished then ⟨.ok none, machine, context⟩
    else
      let result := machine.step context
      match result.outcome with
      | .error _ => result
      | .ok none => runItems animated allowance result.machine result.context
      | .ok (some _) =>
        if animated then result
        else runItems animated allowance result.machine result.context

/-- Whether an animated run rests in a tick; a speed of zero counts as one. -/
def rests (animation : Option Nat) (tick : Nat) : Bool :=
  match animation with
  | none => false
  | some speed => tick % max speed 1 != 0

def settle (r : Run) (result : Machine.Step) : Except Error RunState × Run :=
  let r := { r with machine := some result.machine, context := result.context }
  match result.outcome with
  | .error e => (.error e, r.failed e)
  | .ok call =>
    let r := { r with lastCall := call.or r.lastCall }
    let r := if result.machine.isFinished then { r with state := .finished } else r
    (.ok r.state, r)

/-- Gives a run one tick, in which it runs at most `allowance` items of work, and at least one. -/
def tick (r : Run) (allowance : Nat) : Except Error RunState × Run :=
  if r.state ≠ .running then (.ok r.state, r)
  else
    let r := { r with ticks := r.ticks + 1 }
    if rests r.animation r.ticks then (.ok r.state, r)
    else
      match r.machine with
      | none =>
        let e := Error.internal "running without a program" r.filePosition
        (.error e, r.failed e)
      | some machine =>
        r.settle (runItems r.animation.isSome (max allowance 1) machine r.context)

def stop (r : Run) : Run := if r.isActive then { r with state := .stopped } else r

/-- Gives a run ticks until it is no longer running, but at most `fuel`. -/
def complete (allowance : Nat) : (fuel : Nat) → Run → Except Error Unit × Run
  | 0, r => (.ok (), r)
  | fuel + 1, r =>
    match r.tick allowance with
    | (.error e, r) => (.error e, r)
    | (.ok state, r) => if state = .running then complete allowance fuel r else (.ok (), r)

def printedSince (r before : Run) : String :=
  String.ofList (r.context.output.toList.drop before.context.output.length)

end Run

end CursorScript
