import CursorScript.Run

/-!
A host with a library and any number of active runs, to each of which it gives a tick in turn. Runs
leave when they end or when they are stopped, and are handed back.
-/
namespace CursorScript

structure Session where
  library : Library
  config : RunConfig
  /-- How many items of work a run may do in one tick. -/
  allowance : Nat
  /-- The active runs, in the order in which they were started. -/
  runs : List Run
  /-- All that runs have printed, in the order in which they did. -/
  output : String

namespace Session

def new (library : Library) (config : RunConfig) (allowance : Nat) : Session :=
  ⟨library, config, allowance, [], ""⟩

def start (s : Session) (path stamp : String) (file : FileContent) (options : RunOptions) :
    Except Error String × Session :=
  match (Run.new path stamp options s.config).start s.library file with
  | (.error e, _) => (.error e, s)
  | (.ok (), run) => (.ok run.id, { s with runs := s.runs ++ [run] })

/-- Gives every active run a tick, with the allowance for its place among the runs; those that end
are handed back. -/
def tickWith (s : Session) (allowance : Nat → Nat) : List Run × Session :=
  let ticked := s.runs.zipIdx.map fun (r, place) => (r.tick (allowance place)).2
  let printed := (ticked.zip s.runs).map fun (after, before) => after.printedSince before
  let (active, ended) := ticked.partition fun r => r.state = .running
  (ended, { s with runs := active, output := s.output ++ String.join printed })

/-- Gives every active run a tick with the allowance of the host. -/
def tick (s : Session) : List Run × Session := s.tickWith fun _ => s.allowance

/-- Stops all active runs with an id and hands them back. -/
def stop (s : Session) (id : String) : List Run × Session :=
  let (stopped, active) := s.runs.partition fun r => r.id = id
  (stopped.map Run.stop, { s with runs := active })

def activeIds (s : Session) : List String := s.runs.map Run.id

def isIdle (s : Session) : Bool := s.runs.isEmpty

def find? (s : Session) (id : String) : Option Run := s.runs.find? fun r => r.id = id

/-- Gives ticks until the host is idle, but at most `times`. The number of ticks given, the runs
that ended, and the host afterwards. -/
def tickTimes : (times : Nat) → Session → Nat × List Run × Session
  | 0, s => (0, [], s)
  | times + 1, s =>
    if s.isIdle then (0, [], s)
    else
      let (ended, s) := s.tick
      let (ticks, later, s) := tickTimes times s
      (ticks + 1, ended ++ later, s)

/-- Runs a script beside the active ones, for at most `fuel` ticks. -/
def complete (s : Session) (path stamp : String) (file : FileContent) (options : RunOptions)
    (fuel : Nat) : Except Error Run × Session :=
  match (Run.new path stamp options s.config).start s.library file with
  | (.error e, _) => (.error e, s)
  | (.ok (), run) =>
    let (result, ended) := run.complete s.allowance fuel
    (result.map fun () => ended, { s with output := s.output ++ ended.context.output })

def register (s : Session) (declaration : String) (host : HostFunction) :
    Library.Registration × Session :=
  let result := s.library.register declaration host
  (result, { s with library := result.library })

def registerFamily (s : Session) (family : Family) : Library.Registration × Session :=
  let result := s.library.registerFamily family
  (result, { s with library := result.library })

end Session

end CursorScript
