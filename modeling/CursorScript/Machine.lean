import CursorScript.Analysis.Tables
import CursorScript.Stack

/-!
The state of an evaluation. What is left to do is a stack of work items, values wait on a second
stack, and each active call has a frame of variables. All of it is plain data, so an evaluation can
be left between any two items and taken up again.
-/
namespace CursorScript

inductive Loop where
  /-- Tests the condition again. -/
  | whileTrue (mark : Mark) (condition : Expr) (body : Block Stmt)
  /-- Runs the body so many more times. -/
  | times (remaining : Nat) (body : Block Stmt)

/-- An item of work. Items that come after others take the values which those left. -/
inductive Work where
  | stmt (s : Stmt)
  | expr (e : Expr)
  /-- Throws a value away. -/
  | discard (p : Position)
  /-- Gives a new variable its value. -/
  | declare (symbol : Nat) (p : Position)
  /-- Gives a variable a value, which an operator may compute from the one it has. -/
  | store (symbol : Nat) (operator : Option Operator) (p : Position)
  /-- Goes on with one of two branches. -/
  | branch (p : Position) (body : Block Stmt) (other : Option Stmt)
  /-- Enters the body of a loop if its condition held. -/
  | whileTest (mark : Mark) (condition : Expr) (body : Block Stmt)
  /-- Enters the body of a loop if its count is not zero. -/
  | repeatCount (p : Position) (body : Block Stmt)
  /-- Goes on with a loop whose body has run. -/
  | again (loop : Loop)
  | applyBinary (operator : Operator) (p : Position)
  | applyUnary (operator : Operator) (p : Position)
  | joinText (parts : List (Part Expr)) (p : Position)
  | makeList (count : Nat) (p : Position)
  | makeMap (count : Nat) (p : Position)
  /-- Leaves the value of a function body that ran to its end. -/
  | pushUnit
  /-- Leaves the innermost call. -/
  | leaveCall (p : Position)
  /-- Calls a function. -/
  | invoke (function : Function) (span : Span) (arity : Nat)
  /-- The bottom of a call. -/
  | returnPointer
  /-- The bottom of one round of a loop, where `break` leads. -/
  | breakPointer
  /-- The end of a loop body, where `continue` leads. -/
  | continuePointer

namespace Work

def isReturnPointer : Work → Bool
  | returnPointer => true
  | _ => false

def isBreakPointer : Work → Bool
  | breakPointer => true
  | _ => false

def isContinuePointer : Work → Bool
  | continuePointer => true
  | _ => false

def describe : Work → String
  | invoke function _ arity => "Invoke(" ++ function.name ++ ", " ++ toString arity ++ ")"
  | returnPointer => "ReturnPointer"
  | breakPointer => "BreakPointer"
  | continuePointer => "ContinuePointer"
  | _ => "Thunk"

end Work

abbrev Frame := List (Nat × Value)

def Frame.set (symbol : Nat) (value : Value) : Frame → Frame
  | [] => [(symbol, value)]
  | (other, old) :: rest =>
    if other = symbol then (symbol, value) :: rest else (other, old) :: Frame.set symbol value rest

/-- Setting a symbol changes that symbol and no other. -/
theorem Frame.lookup_set (symbol other : Nat) (value : Value) (frame : Frame) :
    (Frame.set symbol value frame).lookup other =
      if other = symbol then some value else frame.lookup other := by
  induction frame with
  | nil =>
    by_cases same : other = symbol
    · simp [Frame.set, same]
    · have differ : (other == symbol) = false := by simp [same]
      simp [Frame.set, List.lookup_cons, differ, same]
  | cons entry rest ih =>
    obtain ⟨first, old⟩ := entry
    by_cases same : other = symbol
    · subst same
      by_cases here : first = other
      · simp [Frame.set, here]
      · have differ : (other == first) = false := by simp [Ne.symm here]
        simp [Frame.set, here, List.lookup_cons, differ, ih]
    · have differ : (other == symbol) = false := by simp [same]
      by_cases here : first = symbol
      · subst here
        simp [Frame.set, List.lookup_cons, differ, same]
      · cases found : other == first <;>
          simp [Frame.set, here, List.lookup_cons, found, ih, same]

def Frame.assign? (symbol : Nat) (value : Value) (frame : Frame) : Option Frame :=
  if (frame.lookup symbol).isSome then some (Frame.set symbol value frame) else none

/-- The state of an evaluation. -/
structure Machine where
  tables : Tables
  /-- How many calls may be active at once. -/
  maxDepth : Nat
  /-- The frames of the active calls, the innermost first; the last is the script's own. -/
  frames : Stack Frame
  /-- What is left to do, the next item first. -/
  work : Stack Work
  /-- The values that wait, the newest first. -/
  values : List Value

namespace Machine

/-- The items for statements, the first of which comes next. -/
def itemsOf (block : Block Stmt) : List Work := block.body.map .stmt

/-- A machine before the first statement of a script. -/
def initial (program : Program) (tables : Tables) (maxDepth : Nat) : Machine :=
  ⟨tables, maxDepth, .ofList [[]], .ofList (itemsOf program), []⟩

def isFinished (m : Machine) : Bool := m.work.items.isEmpty

def pending (m : Machine) : Nat := m.work.size

def depth (m : Machine) : Nat := m.frames.size - 1

def global? (m : Machine) (symbol : Nat) : Option Value :=
  m.frames.items.getLast?.bind fun frame => frame.lookup symbol

/-- The value of a variable, in the innermost frame that has it. -/
def lookup? (m : Machine) (symbol : Nat) : Option Value :=
  m.frames.items.findSome? fun frame => frame.lookup symbol

/-- An action on a machine. One that fails leaves the machine as far as it came. -/
abbrev Act := EStateM Error Machine

namespace Act

/-- Fails for a reason that no checked script gives. -/
def broken {α : Type} (message : String) (p : Position) : Act α := throw (.internal message p)

/-- Puts items on top of the work, the first of them topmost. -/
def schedule (items : List Work) : Act Unit :=
  modify fun m => { m with work := m.work.pushAll items }

/-- Takes the topmost item away if it is the bottom of a round. -/
def retireBreakPointer : Act Unit :=
  modify fun m =>
    match m.work.items with
    | .breakPointer :: _ => { m with work := m.work.tail }
    | _ => m

def push (value : Value) : Act Unit := modify fun m => { m with values := value :: m.values }

def pop (p : Position) : Act Value := do
  let m ← get
  match m.values with
  | [] => broken "value stack underflow" p
  | value :: rest =>
    set { m with values := rest }
    return value

/-- Takes the newest `count` values, the oldest of them first. -/
def popMany (count : Nat) (p : Position) : Act (List Value) := do
  let m ← get
  let taken := m.values.take count
  if taken.length < count then broken "value stack underflow" p
  set { m with values := m.values.drop count }
  return taken.reverse

def popLogic (p : Position) : Act Bool := do
  match ← pop p with
  | .logic b => return b
  | other => broken ("expected a logic value, found " ++ other.kindName) p

/-- Takes the number of rounds of a loop; a negative one counts as zero. -/
def popCount (p : Position) : Act Nat := do
  match ← pop p with
  | .number n => return n.toNat
  | other => broken ("expected a number of iterations, found " ++ other.kindName) p

def recorded {α : Type} (what : String) (table : Tables → Table α) (id : Nat) (p : Position) :
    Act α := do
  match (table (← get).tables).get? id with
  | some entry => return entry
  | none => broken ("no " ++ what ++ " recorded for node " ++ describeNode id) p

def symbol (id : Nat) (p : Position) : Act Nat := recorded "symbol" Tables.symbols id p

def operator (id : Nat) (p : Position) : Act Operator := recorded "operator" Tables.operators id p

def function (id : Nat) (p : Position) : Act Function := recorded "function" Tables.functions id p

/-- Gives a variable of the innermost frame its value. -/
def declare (symbol : Nat) (value : Value) : Act Unit :=
  modify fun m =>
    match m.frames.items with
    | [] => m
    | frame :: _ => { m with frames := m.frames.tail.push (Frame.set symbol value frame) }

def read (symbol : Nat) (p : Position) : Act Value := do
  match (← get).lookup? symbol with
  | some value => return value
  | none => broken ("variable " ++ describeSymbol symbol ++ " read before it was declared") p

def assign (symbol : Nat) (value : Value) (p : Position) : Act Unit := do
  let m ← get
  match m.frames.replace? (Frame.assign? symbol value) with
  | some frames => set { m with frames := frames }
  | none => broken ("variable " ++ describeSymbol symbol ++ " assigned before it was declared") p

/-- Drops work up to and including the topmost item that `isTarget` picks. -/
def unwindTo (isTarget : Work → Bool) (statement : String) (p : Position) : Act Unit := do
  let m ← get
  match m.work.below? isTarget with
  | some rest => set { m with work := rest }
  | none =>
    set { m with work := .ofList [] }
    broken (statement ++ " without a target") p

/-- Leaves the innermost call; its value stays on the stack. -/
def unwindReturn (p : Position) : Act Unit := do
  unwindTo Work.isReturnPointer "return" p
  modify fun m => { m with frames := m.frames.tail }

def unwindBreak (p : Position) : Act Unit := unwindTo Work.isBreakPointer "break" p

/-- Ends the current round of the innermost loop. -/
def unwindContinue (p : Position) : Act Unit := unwindTo Work.isContinuePointer "continue" p

/-- Gives the failure of an operator its place. -/
def located {α : Type} (p : Position) : Except Cause α → Act α
  | .ok a => return a
  | .error cause => throw ⟨cause, p⟩

end Act

end Machine

end CursorScript
