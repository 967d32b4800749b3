import CursorScript.Analysis.Flow
import CursorScript.Analysis.Tables
import CursorScript.Scope

/-!
Analysis of a script: every expression gets a type, every use of a variable its symbol, every call
its function and every operation its operator. The first fault ends it.
-/
namespace CursorScript.Typing

/-- What analysis knows so far. -/
structure State where
  scopes : ScopeChain
  tables : Tables
  /-- The symbol of the next variable. -/
  nextSymbol : Nat

abbrev Check := StateT State (Except Error)

structure Surroundings where
  /-- The name and the return type of the innermost function. -/
  function : Option (String × Option Ty)
  /-- Whether there is a loop between the statement and that function. -/
  inLoop : Bool

namespace Surroundings

def top : Surroundings := ⟨none, false⟩

def loop (s : Surroundings) : Surroundings := { s with inLoop := true }

def ofDecl (decl : FunctionDecl Stmt) : Surroundings := ⟨some (decl.name, decl.returns), false⟩

end Surroundings

def fail {α : Type} (cause : Cause) (p : Position) : Check α := throw ⟨cause, p⟩

/-- Fails because a node was recorded before. -/
def writtenTwice {α : Type} (what : String) (mark : Mark) : Check α :=
  throw (.internal (what ++ " for " ++ describeNode mark.id ++ " written twice") mark.start)

def recordSymbol (mark : Mark) (symbol : Nat) : Check Unit := do
  let s ← get
  match s.tables.symbols.record? mark.id symbol with
  | some symbols => set { s with tables := { s.tables with symbols := symbols } }
  | none => writtenTwice "symbol" mark

def recordFunction (mark : Mark) (function : Function) : Check Unit := do
  let s ← get
  match s.tables.functions.record? mark.id function with
  | some functions => set { s with tables := { s.tables with functions := functions } }
  | none => writtenTwice "function" mark

def recordOperator (mark : Mark) (operator : Operator) : Check Unit := do
  let s ← get
  match s.tables.operators.record? mark.id operator with
  | some operators => set { s with tables := { s.tables with operators := operators } }
  | none => writtenTwice "operator" mark

def openScope : Check Unit := modify fun s => { s with scopes := s.scopes.push }

def closeScope : Check Unit := modify fun s => { s with scopes := s.scopes.pop }

/-- Declares a variable under the next symbol; `taken` is what to say if its name is taken. -/
def declareVariable (mark : Mark) (name : String) (type : Ty) (taken : Cause) : Check Unit := do
  let s ← get
  match s.scopes.addVariable? name ⟨type, s.nextSymbol, mark.id⟩ with
  | none => fail taken mark.start
  | some scopes =>
    set { s with scopes := scopes, nextSymbol := s.nextSymbol + 1 }
    recordSymbol mark s.nextSymbol

def declareFunction (decl : FunctionDecl Stmt) : Check Unit := do
  let s ← get
  match s.scopes.addFunction? (.ofDecl decl) with
  | none => fail (.functionAlreadyDeclared decl.name) decl.mark.start
  | some scopes => set { s with scopes := scopes }

def variableOf (symbol : Symbol) : Check Variable := do
  let s ← get
  match s.scopes.lookup? symbol.name symbol.up with
  | some v => return v
  | none =>
    fail (.variableNotDeclared symbol.name (s.scopes.suggestions symbol.name)) symbol.mark.start

def functionOf (mark : Mark) (callee : String) (arguments : List Ty) : Check Function := do
  let s ← get
  match s.scopes.function? callee arguments with
  | some f => return f
  | none =>
    fail (.functionNotFound callee (Ty.describeAll arguments) (s.scopes.suggestions callee))
      mark.start

/-- Records the function that a call means, and gives its return type. -/
def resolveCall (mark : Mark) (callee : String) (arguments : List Ty) : Check (Option Ty) := do
  let function ← functionOf mark callee arguments
  recordFunction mark function
  return function.returns

/-- Refuses an empty collection whose type nothing fixes. -/
def refuseEmpty (type : Ty) (e : Expr) : Check Unit := do
  if type.isPseudo then fail .emptyCollectionOperand e.start

/-- The type that elements have in common once there is one more: literal types are joined, all
others have to be equal. -/
def commonType (current : Option Ty) (next : Ty) (e : Expr) : Check Ty := do
  refuseEmpty next e
  match current, next with
  | none, _ => return next
  | some (.literal members), .literal more => return .literal (members.union more)
  | some current, next =>
    if current = next then return current
    else fail (.elementTypeMismatch current.describe next.describe) e.start

/-- Records the operator that a node was given, or fails. -/
def chooseOperator (mark : Mark) (choice : Option (Operator × Ty)) (cause : Cause)
    (p : Position) : Check Ty := do
  match choice with
  | some (operator, type) =>
    recordOperator mark operator
    return type
  | none => fail cause p

mutual

def expr : Expr → Check Ty
  | .number .. => return .number
  | .real .. => return .real
  | .logic .. => return .logic
  | .string .. => return .string
  | .material .. => return .material
  | .member _ name => return .literal (.singleton name)
  | .interpolation _ parts => do
    embeddedParts parts
    return .string
  | .symbol symbol => do
    let v ← variableOf symbol
    recordSymbol symbol.mark v.symbol
    return v.type
  | .binary mark left operator right => do
    let leftType ← expr left
    refuseEmpty leftType left
    let rightType ← expr right
    refuseEmpty rightType right
    chooseOperator mark (Operator.binary? operator.kind leftType rightType)
      (.operatorTypeError operator.kind.symbol leftType.describe rightType.describe)
      operator.span.start
  | .unary mark operator operand => do
    let type ← expr operand
    refuseEmpty type operand
    chooseOperator mark (Operator.unary? operator.kind type)
      (.unaryOperatorTypeError operator.kind.symbol type.describe) mark.start
  | .index mark collection index => do
    let collectionType ← expr collection
    refuseEmpty collectionType collection
    let indexType ← expr index
    refuseEmpty indexType index
    chooseOperator mark (Operator.index? collectionType indexType)
      (.indexTypeError collectionType.describe indexType.describe) index.start
  | .call mark callee arguments => do
    match ← resolveCall mark callee (← argumentTypes callee arguments) with
    | some type => return type
    | none => fail (.typeMatchError "a value" ("nothing from " ++ callee)) mark.start
  | .list _ elements => do
    match ← elementType none elements with
    | some type => return .list type
    | none => return .emptyList
  | .map _ entries => do
    match ← entryTypes none none entries with
    | (some key, some value) => return .map key value
    | _ => return .emptyMap

def embeddedParts : List (Part Expr) → Check Unit
  | [] => return ()
  | .text _ :: rest => embeddedParts rest
  | .embed e :: rest => do
    let type ← expr e
    if !type.isPlain then fail (.interpolationTypeError type.describe) e.start
    embeddedParts rest

def argumentTypes (callee : String) : List Expr → Check (List Ty)
  | [] => return []
  | e :: rest => do
    let type ← expr e
    if type.isPseudo then fail (.emptyCollectionArgument callee) e.start
    return type :: (← argumentTypes callee rest)

def elementType (current : Option Ty) : List Expr → Check (Option Ty)
  | [] => return current
  | e :: rest => do
    let type ← commonType current (← expr e) e
    elementType (some type) rest

/-- The types that the keys and the values of a map have in common with those before them. -/
def entryTypes (key value : Option Ty) : List (Expr × Expr) → Check (Option Ty × Option Ty)
  | [] => return (key, value)
  | (k, v) :: rest => do
    let keyType ← commonType key (← expr k) k
    let valueType ← commonType value (← expr v) v
    entryTypes (some keyType) (some valueType) rest

end

/-- Checks an expression that stands alone; only there may a call have no value. -/
def loneExpr : Expr → Check Unit
  | .call mark callee arguments => do
    let _ ← resolveCall mark callee (← argumentTypes callee arguments)
  | e => do
    let _ ← expr e

def condition (statement : String) (expected : Ty) (e : Expr) : Check Unit := do
  let type ← expr e
  if type ≠ expected then
    fail (.conditionTypeError statement expected.describe type.describe) e.start

/-- Checks a declaration; the name is not yet known inside its own value. -/
def declaration (mark : Mark) (name : String) (type : Ty) (value : Expr) : Check Unit := do
  let valueType ← expr value
  if !type.acceptsBinding valueType then
    fail (.typeMatchError type.describe valueType.describe) value.start
  declareVariable mark name type (.variableAlreadyDeclared name)

def assignment (mark : Mark) (target : Symbol) (operator : Token) (value : Expr) :
    Check Unit := do
  let v ← variableOf target
  let valueType ← expr value
  if operator.kind = .assignment then
    if !v.type.acceptsBinding valueType then
      fail (.typeMatchError v.type.describe valueType.describe) value.start
  else
    match Operator.compound? operator.kind v.type valueType with
    | some chosen => recordOperator mark chosen
    | none =>
      fail (.operatorTypeError operator.kind.symbol v.type.describe valueType.describe) mark.start
  recordSymbol target.mark v.symbol

def returns (here : Surroundings) (mark : Mark) (value : Option Expr) : Check Unit := do
  match here.function with
  | none => fail .returnOutsideFunction mark.start
  | some (name, expected) =>
    match value, expected with
    | none, none => return ()
    | none, some _ => fail (.missingReturnValue name) mark.start
    | some value, none => fail (.unexpectedReturnValue name) value.start
    | some value, some expected =>
      let type ← expr value
      if !expected.acceptsBinding type then
        fail (.returnTypeMismatch expected.describe type.describe) value.start

def insideLoop (here : Surroundings) (mark : Mark) (statement : String) : Check Unit := do
  if !here.inLoop then fail (.outsideLoop statement) mark.start

def parameters : List Parameter → Check Unit
  | [] => return ()
  | p :: rest => do
    declareVariable p.mark p.name p.type (.duplicateParameter p.name)
    parameters rest

mutual

def stmt (here : Surroundings) : Stmt → Check Unit
  | .block ⟨_, body⟩ => do
    openScope
    stmts here body
    closeScope
  | .expression _ e => loneExpr e
  | .declare mark name type value => declaration mark name type value
  | .assign mark target operator value => assignment mark target operator value
  | .branch _ test ⟨_, body⟩ other => do
    condition "if" .logic test
    openScope
    stmts here body
    closeScope
    otherStmt here other
  | .whileLoop _ test ⟨mark, body⟩ => do
    condition "while" .logic test
    Flow.checkLoop ⟨mark, body⟩
    openScope
    stmts here.loop body
    closeScope
  | .repeatLoop _ count ⟨mark, body⟩ => do
    condition "repeat" .number count
    Flow.checkLoop ⟨mark, body⟩
    openScope
    stmts here.loop body
    closeScope
  | .function ⟨mark, name, params, result, ⟨bodyMark, body⟩⟩ => do
    let decl : FunctionDecl Stmt := ⟨mark, name, params, result, ⟨bodyMark, body⟩⟩
    declareFunction decl
    Flow.checkFunction decl
    openScope
    parameters params
    stmts (.ofDecl decl) body
    closeScope
  | .ret mark value => returns here mark value
  | .brk mark => insideLoop here mark "break"
  | .cont mark => insideLoop here mark "continue"

def otherStmt (here : Surroundings) : Option Stmt → Check Unit
  | none => return ()
  | some s => stmt here s

def stmts (here : Surroundings) : List Stmt → Check Unit
  | [] => return ()
  | s :: rest => do
    stmt here s
    stmts here rest

end

def program (p : Program) : Check Unit := do
  openScope
  stmts .top p.body
  closeScope

end CursorScript.Typing

namespace CursorScript

def Program.analyse (p : Program) (library : Library) : Except Error Tables :=
  ((Typing.program p).run ⟨.base library, .empty, 0⟩).map fun (_, s) => s.tables

end CursorScript
