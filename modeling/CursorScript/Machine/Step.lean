import CursorScript.Machine

/-!
Running a machine, one item of work at a time. An expression leaves one value; a statement leaves
none. Work inside an expression or a statement is put on top of what follows it, so nothing here
calls itself.
-/
namespace CursorScript.Machine
open Act

/-- Items for expressions, from left to right. -/
def operands (exprs : List Expr) : List Work := exprs.map .expr

/-- The text of interpolated pieces, given the values of what is embedded. -/
def joinParts : List (Part Expr) → List Value → String
  | [], _ => ""
  | .text chars :: rest, values => chars ++ joinParts rest values
  | .embed _ :: rest, value :: values => value.describe ++ joinParts rest values
  | .embed _ :: rest, [] => joinParts rest []

def pairs : List Value → List (Value × Value)
  | key :: value :: rest => (key, value) :: pairs rest
  | _ => []

/-- The expressions of a map literal in the order in which they are evaluated. -/
def entryOperands (entries : List (Expr × Expr)) : List Expr :=
  entries.flatMap fun (key, value) => [key, value]

def visitExpr : Expr → Act Unit
  | .number _ n => push (.number n)
  | .real _ x => push (.real x)
  | .logic _ b => push (.logic b)
  | .string _ s => push (.string s)
  | .material _ space name => push (.material ⟨space.getD Material.defaultSpace, name⟩)
  | .member _ name => push (.literal name)
  | .symbol s => do
    let id ← symbol s.mark.id s.mark.start
    push (← read id s.mark.start)
  | .interpolation mark parts =>
    schedule (operands (Part.embedded parts) ++ [.joinText parts mark.start])
  | .binary mark left token right => do
    let chosen ← operator mark.id mark.start
    schedule [.expr left, .expr right, .applyBinary chosen token.span.start]
  | .unary mark _ operand => do
    let chosen ← operator mark.id mark.start
    schedule [.expr operand, .applyUnary chosen mark.start]
  | .index mark collection index => do
    let chosen ← operator mark.id mark.start
    schedule [.expr collection, .expr index, .applyBinary chosen index.start]
  | .call mark _ arguments => do
    let callee ← function mark.id mark.start
    schedule (operands arguments ++ [.invoke callee mark.span arguments.length])
  | .list mark elements =>
    schedule (operands elements ++ [.makeList elements.length mark.start])
  | .map mark entries =>
    schedule (operands (entryOperands entries) ++ [.makeMap entries.length mark.start])

def visitStmt : Stmt → Act Unit
  | .block block => schedule (itemsOf block)
  | .expression mark e => schedule [.expr e, .discard mark.start]
  | .declare mark _ _ value => do
    let id ← symbol mark.id mark.start
    schedule [.expr value, .declare id mark.start]
  | .assign mark target token value => do
    let id ← symbol target.mark.id mark.start
    let chosen ←
      if token.kind = .assignment then pure none
      else pure (some (← operator mark.id mark.start))
    schedule [.expr value, .store id chosen mark.start]
  | .branch mark condition body other => schedule [.expr condition, .branch mark.start body other]
  | .whileLoop mark condition body => schedule [.expr condition, .whileTest mark condition body]
  | .repeatLoop mark count body => schedule [.expr count, .repeatCount mark.start body]
  | .function _ => return ()
  | .ret mark (some value) => schedule [.expr value, .leaveCall mark.start]
  | .ret mark none => do
    schedule [.leaveCall mark.start]
    push .unit
  | .brk mark => unwindBreak mark.start
  | .cont mark => unwindContinue mark.start

def enterRound (body : Block Stmt) (next : Loop) : Act Unit :=
  schedule (itemsOf body ++ [.continuePointer, .again next, .breakPointer])

def enterTimes (body : Block Stmt) : Nat → Act Unit
  | 0 => return ()
  | n + 1 => enterRound body (.times n body)

def continueLoop : Loop → Act Unit
  | .whileTrue mark condition body => schedule [.expr condition, .whileTest mark condition body]
  | .times remaining body => enterTimes body remaining

def store (id : Nat) (chosen : Option Operator) (p : Position) : Act Unit := do
  let value ← pop p
  match chosen with
  | none => assign id value p
  | some op =>
    let current ← read id p
    let result ← located p (op.applyBinary current value)
    assign id result p

def applyBinary (op : Operator) (p : Position) : Act Unit := do
  let right ← pop p
  let left ← pop p
  push (← located p (op.applyBinary left right))

def applyUnary (op : Operator) (p : Position) : Act Unit := do
  let operand ← pop p
  push (← located p (op.applyUnary operand))

def bindParameters : List Parameter → List Value → Frame → Act Frame
  | parameter :: parameters, value :: values, frame => do
    let id ← symbol parameter.mark.id parameter.mark.start
    bindParameters parameters values (Frame.set id value frame)
  | _, _, frame => return frame

def enterFunction (decl : FunctionDecl Stmt) (span : Span) (arguments : List Value) :
    Act Unit := do
  let m ← get
  if m.maxDepth ≤ m.depth then throw ⟨.recursionLimit m.maxDepth, span.start⟩
  let frame ← bindParameters decl.parameters arguments []
  modify fun m => { m with frames := m.frames.push frame }
  schedule (itemsOf decl.body ++ [.pushUnit, .returnPointer])

/-- Calls a function with the newest values. Gives a description of the call, and the context as
the function left it. -/
def invoke (f : Function) (span : Span) (arity : Nat) (context : Context) :
    Act (String × Context) := do
  let arguments ← popMany arity span.start
  let description := f.describeCall arguments
  match f.body with
  | .native run =>
    match run context arguments with
    | .ok (value, context) =>
      push value
      return (description, context)
    | .error message => throw ⟨.nativeCallFailed f.name message, span.start⟩
  | .script decl =>
    enterFunction decl span arguments
    return (description, context)

def perform : Work → Act Unit
  | .stmt s => visitStmt s
  | .expr e => visitExpr e
  | .discard p => do
    let _ ← pop p
  | .declare id p => do
    declare id (← pop p)
  | .store id chosen p => store id chosen p
  | .branch p body other => do
    if ← popLogic p then schedule (itemsOf body)
    else schedule (other.toList.map .stmt)
  | .whileTest mark condition body => do
    if ← popLogic mark.start then enterRound body (.whileTrue mark condition body)
  | .repeatCount p body => do
    enterTimes body (← popCount p)
  | .again loop => do
    retireBreakPointer
    continueLoop loop
  | .applyBinary op p => applyBinary op p
  | .applyUnary op p => applyUnary op p
  | .joinText parts p => do
    let values ← popMany (Part.embedded parts).length p
    push (.string (joinParts parts values))
  | .makeList count p => do
    push (.list (← popMany count p))
  | .makeMap count p => do
    let values ← popMany (count * 2) p
    push (.map (Value.entriesOf (pairs values)))
  | .pushUnit => push .unit
  | .leaveCall p => unwindReturn p
  | .invoke .. => return ()
  | .returnPointer => modify fun m => { m with frames := m.frames.tail }
  | .breakPointer => return ()
  | .continuePointer => return ()

structure Step where
  outcome : Except Error (Option String)
  machine : Machine
  context : Context

/-- Runs the next item of work. -/
def step (m : Machine) (context : Context) : Step :=
  match m.work.items with
  | [] => ⟨.ok none, m, context⟩
  | .invoke f span arity :: _ =>
    match (invoke f span arity context).run { m with work := m.work.tail } with
    | .ok (description, context) m => ⟨.ok (some description), m, context⟩
    | .error e m => ⟨.error e, m, context⟩
  | item :: _ =>
    match (perform item).run { m with work := m.work.tail } with
    | .ok () m => ⟨.ok none, m, context⟩
    | .error e m => ⟨.error e, m, context⟩

end CursorScript.Machine
