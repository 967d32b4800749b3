import CursorScript.Proofs.Configuration

/-!
A structured semantics of scripts. It follows the tree: the value of an expression comes from the
values of its parts, evaluated from left to right and all of them, and a statement ends in one of
four ways which the statement around it looks at. There are no work items and no waiting values.

Each form is given what the phrases inside it mean; `meaning` ties the knot, and its bound is a bound
on the nesting of phrases, calls and rounds of `while` loops. What analysis would have refused has no
meaning.
-/
namespace CursorScript

/-- What running a phrase can change: the variables, and what the host sees. -/
structure World where
  frames : List Frame
  context : Context

inductive Ending where
  | normal
  | broke
  | continued
  | returned (value : Value)

/-- What a phrase does: it gives a result, fails with an error, or has no meaning. -/
abbrev Eval := OptionT (EStateM Error World)

namespace Eval

def known {α : Type} (entry : Option α) : Eval α := OptionT.mk (pure entry)

def fault {α : Type} (cause : Cause) (p : Position) : Eval α := OptionT.mk (throw ⟨cause, p⟩)

/-- The result of an operator; its failure is placed at `p`. -/
def located {α : Type} (p : Position) : Except Cause α → Eval α
  | .ok a => return a
  | .error cause => fault cause p

/-- The value of a variable, in the innermost frame that has it. -/
def read (x : Nat) : Eval Value := do
  known ((← get).frames.findSome? fun frame => frame.lookup x)

/-- Gives a new variable of the innermost frame its value. -/
def declare (x : Nat) (v : Value) : Eval Unit := do
  let w ← get
  match w.frames with
  | [] => failure
  | frame :: outer => set { w with frames := Frame.set x v frame :: outer }

/-- Changes a variable, in the innermost frame that has it. -/
def assign (x : Nat) (v : Value) : Eval Unit := do
  let w ← get
  let frames ← known (Stack.replaceFirst? (Frame.assign? x v) w.frames)
  set { w with frames := frames }

def truth : Value → Eval Bool
  | .logic b => return b
  | _ => failure

def rounds : Value → Eval Nat
  | .number n => return n.toNat
  | _ => failure

end Eval

structure Meaning where
  expr : Expr → Eval Value
  stmt : Stmt → Eval Ending
  /-- A `while` loop that is about to test its condition. -/
  loop : Expr → Block Stmt → Eval Ending

namespace Meaning
open Eval

/-- Values of expressions from left to right. -/
def exprs (M : Meaning) : List Expr → Eval (List Value)
  | [] => return []
  | e :: rest => do
    let v ← M.expr e
    let vs ← M.exprs rest
    return v :: vs

/-- Entries of a map literal, the key of each before its value. -/
def entries (M : Meaning) : List (Expr × Expr) → Eval (List (Value × Value))
  | [] => return []
  | (k, v) :: rest => do
    let key ← M.expr k
    let value ← M.expr v
    let others ← M.entries rest
    return (key, value) :: others

def text (M : Meaning) : List (Part Expr) → Eval String
  | [] => return ""
  | .text chars :: rest => do return chars ++ (← M.text rest)
  | .embed e :: rest => do
    let v ← M.expr e
    return v.describe ++ (← M.text rest)

/-- Statements in turn, up to the first that does not end normally. -/
def stmts (M : Meaning) : List Stmt → Eval Ending
  | [] => return .normal
  | s :: rest => do
    match ← M.stmt s with
    | .normal => M.stmts rest
    | ending => return ending

def native (f : Function) (run : NativeBody) (span : Span) (arguments : List Value) :
    Eval Value := do
  let w ← get
  match run w.context arguments with
  | .ok (v, context) =>
    set { w with context := context }
    return v
  | .error message => fault (.nativeCallFailed f.name message) span.start

def result : Ending → Eval Value
  | .normal => return .unit
  | .returned v => return v
  | .broke => failure
  | .continued => failure

/-- A call of a function of the script, whose body runs in a frame of its own. -/
def script (σ : Setting) (M : Meaning) (decl : FunctionDecl Stmt) (span : Span)
    (arguments : List Value) : Eval Value := do
  let w ← get
  if σ.maxDepth ≤ w.frames.length - 1 then fault (.recursionLimit σ.maxDepth) span.start
  else
    let frame ← known (σ.bind? decl.parameters arguments [])
    set { w with frames := frame :: w.frames }
    let ending ← M.stmts decl.body.body
    modify fun w => { w with frames := w.frames.tail }
    result ending

def call (σ : Setting) (M : Meaning) (f : Function) (span : Span) (arguments : List Value) :
    Eval Value :=
  match f.body with
  | .native run => native f run span arguments
  | .script decl => M.script σ decl span arguments

/-- One round of a loop, and what comes `after` it unless it was left. -/
def round (M : Meaning) (body : Block Stmt) (after : Eval Ending) : Eval Ending := do
  match ← M.stmts body.body with
  | .normal => after
  | .continued => after
  | .broke => return .normal
  | .returned v => return .returned v

def times (M : Meaning) (body : Block Stmt) : Nat → Eval Ending
  | 0 => return .normal
  | n + 1 => M.round body (M.times body n)

def whileTrue (M : Meaning) (condition : Expr) (body : Block Stmt) : Eval Ending := do
  if ← truth (← M.expr condition) then M.round body (M.loop condition body) else return .normal

def ofExpr (σ : Setting) (M : Meaning) : Expr → Eval Value
  | .number _ n => return .number n
  | .real _ x => return .real x
  | .logic _ b => return .logic b
  | .string _ s => return .string s
  | .material _ space name => return .material ⟨space.getD Material.defaultSpace, name⟩
  | .member _ name => return .literal name
  | .symbol s => do read (← known (σ.tables.symbols.get? s.mark.id))
  | .interpolation _ parts => do return .string (← M.text parts)
  | .binary mark left token right => do
    let op ← known (σ.tables.operators.get? mark.id)
    let a ← M.expr left
    let b ← M.expr right
    located token.span.start (op.applyBinary a b)
  | .unary mark _ operand => do
    let op ← known (σ.tables.operators.get? mark.id)
    let a ← M.expr operand
    located mark.start (op.applyUnary a)
  | .index mark collection index => do
    let op ← known (σ.tables.operators.get? mark.id)
    let a ← M.expr collection
    let b ← M.expr index
    located index.start (op.applyBinary a b)
  | .call mark _ arguments => do
    let f ← known (σ.tables.functions.get? mark.id)
    let values ← M.exprs arguments
    M.call σ f mark.span values
  | .list _ elements => do return .list (← M.exprs elements)
  | .map _ entries => do return .map (Value.entriesOf (← M.entries entries))

/-- A statement, given what the phrases in it mean. A compound assignment reads its target after
its right side was evaluated. -/
def ofStmt (σ : Setting) (M : Meaning) : Stmt → Eval Ending
  | .block b => M.stmts b.body
  | .expression _ e => do
    let _ ← M.expr e
    return .normal
  | .declare mark _ _ value => do
    let x ← known (σ.tables.symbols.get? mark.id)
    declare x (← M.expr value)
    return .normal
  | .assign mark target token value => do
    let x ← known (σ.tables.symbols.get? target.mark.id)
    if token.kind = .assignment then
      assign x (← M.expr value)
      return .normal
    else
      let op ← known (σ.tables.operators.get? mark.id)
      let v ← M.expr value
      let current ← read x
      assign x (← located mark.start (op.applyBinary current v))
      return .normal
  | .branch _ condition body other => do
    if ← truth (← M.expr condition) then M.stmts body.body
    else M.stmts other.toList
  | .whileLoop _ condition body => M.whileTrue condition body
  | .repeatLoop _ count body => do M.times body (← rounds (← M.expr count))
  | .function _ => return .normal
  | .ret _ (some value) => do return .returned (← M.expr value)
  | .ret _ none => return .returned .unit
  | .brk _ => return .broke
  | .cont _ => return .continued

def nothing : Meaning := ⟨fun _ => failure, fun _ => failure, fun _ _ => failure⟩

end Meaning

namespace Setting

/-- What phrases mean that nest others at most `bound` deep. -/
def meaning (σ : Setting) : (bound : Nat) → Meaning
  | 0 => .nothing
  | bound + 1 =>
    let M := σ.meaning bound
    ⟨M.ofExpr σ, M.ofStmt σ, M.whileTrue⟩

/-- An expression has the value `v`, and leaves the world `w'`. -/
def Evaluates (σ : Setting) (w : World) (e : Expr) (v : Value) (w' : World) : Prop :=
  ∃ bound, ((σ.meaning bound).expr e).run.run w = .ok (some v) w'

/-- An expression fails in the world `w'`. -/
def EvaluationFails (σ : Setting) (w : World) (e : Expr) (error : Error) (w' : World) : Prop :=
  ∃ bound, ((σ.meaning bound).expr e).run.run w = .error error w'

/-- A statement ends as `ending` says, and leaves the world `w'`. -/
def Executes (σ : Setting) (w : World) (s : Stmt) (ending : Ending) (w' : World) : Prop :=
  ∃ bound, ((σ.meaning bound).stmt s).run.run w = .ok (some ending) w'

/-- A statement fails in the world `w'`. -/
def ExecutionFails (σ : Setting) (w : World) (s : Stmt) (error : Error) (w' : World) : Prop :=
  ∃ bound, ((σ.meaning bound).stmt s).run.run w = .error error w'

end Setting

end CursorScript
