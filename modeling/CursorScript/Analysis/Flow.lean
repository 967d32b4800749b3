import CursorScript.Error
import CursorScript.Tree

/-!
Code that cannot be reached, and functions that may end without a return. A sequence of statements
ends early at a `return`, or at a conditional both of whose branches end early; in the body of a
loop also at `break` and `continue`. A loop never ends the sequence that it stands in.
-/
namespace CursorScript.Flow

inductive Body where
  | function
  | loop
deriving DecidableEq, Repr

mutual

def endsEarly (body : Body) : Stmt → Except Error Bool
  | .ret .. => .ok true
  | .brk _ => .ok (body = .loop)
  | .cont _ => .ok (body = .loop)
  | .block ⟨_, stmts⟩ => sequenceEnds body stmts
  | .branch _ _ ⟨_, stmts⟩ other => do
    let first ← sequenceEnds body stmts
    let second ← otherEnds body other
    return first && second
  | .expression .. => .ok false
  | .declare .. => .ok false
  | .assign .. => .ok false
  | .whileLoop .. => .ok false
  | .repeatLoop .. => .ok false
  | .function _ => .ok false

/-- Whether the other branch of a conditional ends early; without one it does not. -/
def otherEnds (body : Body) : Option Stmt → Except Error Bool
  | none => .ok false
  | some stmt => endsEarly body stmt

/-- Whether a sequence of statements ends early; nothing may follow the statement that ends it. -/
def sequenceEnds (body : Body) : List Stmt → Except Error Bool
  | [] => .ok false
  | stmt :: rest => do
    let ended ← endsEarly body stmt
    match rest with
    | [] => return ended
    | next :: others =>
      if ended then throw ⟨.unreachableCode, next.mark.start⟩
      sequenceEnds body (next :: others)

end

/-- Checks the body of a function; one with a return type has to end early. -/
def checkFunction (decl : FunctionDecl Stmt) : Except Error Unit := do
  let ended ← sequenceEnds .function decl.body.body
  if !ended ∧ decl.returns.isSome then
    throw ⟨.missingReturn decl.name, decl.mark.start⟩

def checkLoop (body : Block Stmt) : Except Error Unit := do
  let _ ← sequenceEnds .loop body.body

end CursorScript.Flow
