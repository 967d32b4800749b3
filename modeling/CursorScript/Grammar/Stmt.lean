import CursorScript.Grammar.Expr
import CursorScript.Grammar.Types

/-!
Statements, and scripts as sequences of them. As with expressions, each form is given how the
expressions and statements inside it are read.
-/
namespace CursorScript.Grammar
open Parse

def expressionStmt (expr : ExprReader) : Parse Stmt := do
  let inner ← expr .loosest
  let _ ← expect .semicolon
  return .expression (← markFrom inner.start) inner

/-- `var name: type = value;`. -/
def declareStmt (expr : ExprReader) : Parse Stmt := do
  let start := (← take).span.start
  let name ← expectWith .identifier "expected identifier during variable declaration"
  let _ ← expectWith .colon "expected `:` and a type after the variable name"
  let type ← type
  let _ ← expectWith .assignment "expected `=` and an initial value"
  let value ← expr .loosest
  let _ ← expect .semicolon
  return .declare (← markFrom start) name.value type value

/-- `target = value;`, or one of the forms that compute first. -/
def assignStmt (expr : ExprReader) : Parse Stmt := do
  let start ← place
  let target ← scopedSymbol
  let operator ← current
  if operator.kind ≠ .assignment ∧ !operator.kind.isCompoundAssignment then
    unexpectedWith "expected an assignment operator"
  let _ ← take
  let value ← expr .loosest
  let _ ← expect .semicolon
  return .assign (← markFrom start) target operator value

/-- A call without parentheses: a name, arguments between commas and a semicolon. -/
def commandStmt (expr : ExprReader) : Parse Stmt := do
  let name ← take
  let start := name.span.start
  let arguments ← itemsBefore .semicolon fun _ => do
    let argument ← expr .loosest
    separator .semicolon "expected `,` between arguments"
    return argument
  let call := Expr.call (← markFrom start) name.value arguments
  let _ ← expect .semicolon
  return .expression (← markFrom start) call

/-- A statement that starts with a name: an assignment, an expression that starts with a call, or
a call without parentheses. -/
def namedStmt (expr : ExprReader) : Parse Stmt := do
  let next := (← get).peekKind 1
  if next = .assignment ∨ next.isCompoundAssignment then assignStmt expr
  else if next = .openParen then expressionStmt expr
  else commandStmt expr

def block (stmt : Parse Stmt) : Parse (Block Stmt) := do
  let start := (← expectWith .openCurly "expected `\x7b` to open a block").span.start
  let body ← itemsBefore .closeCurly fun _ => do
    if (← kind) = .eof then unexpectedWith "expected `\x7d` to close the block"
    stmt
  let _ ← expect .closeCurly
  return ⟨← markFrom start, body⟩

/-- `if condition` and a block, and perhaps `else` with a block or another conditional. -/
def branchStmt (expr : ExprReader) (stmt : Parse Stmt) : Parse Stmt := do
  let start := (← take).span.start
  let condition ← expr .loosest
  let body ← block stmt
  let other ←
    if (← kind) = .wordElse then do
      let _ ← take
      if (← kind) = .wordIf then pure (some (← stmt))
      else pure (some (.block (← block stmt)))
    else pure none
  return .branch (← markFrom start) condition body other

/-- `while condition` and a block. -/
def whileStmt (expr : ExprReader) (stmt : Parse Stmt) : Parse Stmt := do
  let start := (← take).span.start
  let condition ← expr .loosest
  let body ← block stmt
  return .whileLoop (← markFrom start) condition body

/-- `repeat count` and a block. -/
def repeatStmt (expr : ExprReader) (stmt : Parse Stmt) : Parse Stmt := do
  let start := (← take).span.start
  let count ← expr .loosest
  let body ← block stmt
  return .repeatLoop (← markFrom start) count body

/-- One parameter `name: type`, whose name none of those before it has. -/
def parameter (before : List Parameter) : Parse Parameter := do
  let name ← expectWith .identifier "expected a parameter name"
  let _ ← expectWith .colon "expected `:` and a parameter type"
  let type ← type
  if before.any (fun other => other.name = name.value) then
    fail (.duplicateParameter name.value) name.span.start
  let parameter := ⟨← markFrom name.span.start, name.value, type⟩
  separator .closeParen "expected `,` between parameters"
  return parameter

/-- `(name: type, …)`. -/
def parameters : Parse (List Parameter) := do
  let _ ← expect .openParen
  let parameters ← itemsBefore .closeParen parameter
  let _ ← expect .closeParen
  return parameters

def returnType : Parse (Option Ty) := do
  if (← kind) = .colon then
    let _ ← take
    return some (← type)
  else return none

/-- `function name(…): type` and a block. -/
def functionStmt (stmt : Parse Stmt) : Parse Stmt := do
  let start := (← take).span.start
  let name ← expectWith .identifier "expected a function name"
  let parameters ← parameters
  let returns ← returnType
  let body ← block stmt
  return .function ⟨← markFrom start, name.value, parameters, returns, body⟩

/-- `return;` or `return value;`. -/
def returnStmt (expr : ExprReader) : Parse Stmt := do
  let start := (← take).span.start
  let value ← if (← kind) = .semicolon then pure none else pure (some (← expr .loosest))
  let _ ← expect .semicolon
  return .ret (← markFrom start) value

/-- `break;`. -/
def breakStmt : Parse Stmt := do
  let start := (← take).span.start
  let _ ← expect .semicolon
  return .brk (← markFrom start)

/-- `continue;`. -/
def continueStmt : Parse Stmt := do
  let start := (← take).span.start
  let _ ← expect .semicolon
  return .cont (← markFrom start)

def statement (expr : ExprReader) (stmt : Parse Stmt) : Parse Stmt := do
  match ← kind with
  | .wordVar => declareStmt expr
  | .identifier => namedStmt expr
  | .caret => assignStmt expr
  | .wordIf => branchStmt expr stmt
  | .wordWhile => whileStmt expr stmt
  | .wordRepeat => repeatStmt expr stmt
  | .openCurly => return .block (← block stmt)
  | .wordFunction => functionStmt stmt
  | .wordReturn => returnStmt expr
  | .wordBreak => breakStmt
  | .wordContinue => continueStmt
  | _ => expressionStmt expr

/-- A statement in which others are nested at most `fuel` deep. -/
def stmtWithin : (fuel : Nat) → Parse Stmt
  | 0 => unexpected
  | fuel + 1 => statement (exprWithin fuel) (stmtWithin fuel)

def program : Parse Program := do
  let start ← place
  let fuel := (← get).limit
  let body ← itemsBefore .eof fun _ => stmtWithin fuel
  return ⟨⟨← freshId, ⟨start, ← place⟩⟩, body⟩

/-- `native name(…): type;`. -/
def nativeSignature : Parse NativeDecl := do
  let start := (← expectWith .wordNative "expected `native`").span.start
  let name ← expectWith .identifier "expected a function name"
  let parameters ← parameters
  let returns ← returnType
  let _ ← expect .semicolon
  return ⟨← spanFrom start, name.value, parameters, returns⟩

/-- Reads all tokens with `reader`, which has to leave none; `message` says what was expected if
it does. -/
def whole {α : Type} (reader : Parse α) (message : String) : Parse α := do
  let result ← reader
  if (← kind) ≠ .eof then unexpectedWith message
  return result

end CursorScript.Grammar

namespace CursorScript
open Grammar

def Program.ofTokens (tokens : List Token) (file : String) : Except Error Program :=
  (program.run (Stream.ofTokens tokens file 0)).map Prod.fst

def Program.ofSource (source file : String) : Except Error Program := do
  Program.ofTokens (← Token.tokenize source file) file

/-- The head of a host function from its text. -/
def NativeDecl.ofSource (source : String) : Except Error NativeDecl := do
  let tokens ← Token.tokenize source "<native>"
  let reader := whole nativeSignature "expected end of native declaration"
  (reader.run (Stream.ofTokens tokens "<native>" 0)).map Prod.fst

def Ty.ofSource (source file : String) : Except Error Ty := do
  let tokens ← Token.tokenize source file
  let reader := whole type "expected end of type"
  (reader.run (Stream.ofTokens tokens file 0)).map Prod.fst

end CursorScript
