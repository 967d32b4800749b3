import CursorScript.Machine.Step

/-!
Runs of a machine with what can be watched from outside: how much work was pending and how many
calls were active after each item, and which calls were made.
-/
namespace CursorScript.Machine

structure Glimpse where
  pending : Nat
  depth : Nat
  call : Option String
deriving DecidableEq, Repr

structure Trace where
  machine : Machine
  context : Context
  /-- What was seen after each item, the latest first. -/
  glimpses : List Glimpse
  /-- What the machine failed with. -/
  error : Option Error

namespace Trace

def initial (m : Machine) (context : Context) : Trace := ⟨m, context, [], none⟩

def extend (t : Trace) : Trace :=
  let result := t.machine.step t.context
  match result.outcome with
  | .error e => ⟨result.machine, result.context, t.glimpses, some e⟩
  | .ok call =>
    let glimpse := ⟨result.machine.pending, result.machine.depth, call⟩
    ⟨result.machine, result.context, glimpse :: t.glimpses, none⟩

/-- Runs until nothing is left to do, an item fails, or `fuel` items were run. -/
def extendWithin : (fuel : Nat) → Trace → Trace
  | 0, t => t
  | fuel + 1, t =>
    if t.machine.isFinished || t.error.isSome then t else extendWithin fuel t.extend

/-- The number of items that were run without an error. -/
def steps (t : Trace) : Nat := t.glimpses.length

def calls (t : Trace) : List String := t.glimpses.reverse.filterMap Glimpse.call

end Trace

def trace (m : Machine) (context : Context) (limit : Nat) : Trace :=
  (Trace.initial m context).extendWithin limit

/-- The most work that was pending before or after an item. -/
def Trace.mostPending (t : Trace) (start : Machine) : Nat :=
  t.glimpses.foldl (fun most g => max most g.pending) start.pending

/-- The most calls that were active before or after an item. -/
def Trace.deepest (t : Trace) (start : Machine) : Nat :=
  t.glimpses.foldl (fun most g => max most g.depth) start.depth

end CursorScript.Machine
