import CursorScript.Token
import CursorScript.Ty

/-!
Parse trees. Every node carries a mark: an identity that is unique in its tree, under which
analysis keeps what it finds, and the span of the script that the node was read from.
-/
namespace CursorScript

structure Mark where
  id : Nat
  span : Span
deriving DecidableEq, Repr

def Mark.start (mark : Mark) : Position := mark.span.start

/-- A use of a variable; `up` enclosing scopes are skipped before the name is looked up. -/
structure Symbol where
  mark : Mark
  name : String
  up : Nat
deriving DecidableEq, Repr

/-- A piece of an interpolated text: characters, or something embedded. -/
inductive Part (ε : Type) where
  | text (chars : String)
  | embed (expr : ε)

inductive Expr where
  | number (mark : Mark) (value : Nat)
  | real (mark : Mark) (value : Float)
  | logic (mark : Mark) (value : Bool)
  | string (mark : Mark) (value : String)
  | interpolation (mark : Mark) (parts : List (Part Expr))
  | material (mark : Mark) (space : Option String) (name : String)
  /-- A single member of a literal type. -/
  | member (mark : Mark) (name : String)
  | symbol (symbol : Symbol)
  | binary (mark : Mark) (left : Expr) (operator : Token) (right : Expr)
  | unary (mark : Mark) (operator : Token) (operand : Expr)
  | index (mark : Mark) (collection index : Expr)
  | call (mark : Mark) (callee : String) (arguments : List Expr)
  | list (mark : Mark) (elements : List Expr)
  | map (mark : Mark) (entries : List (Expr × Expr))

def Expr.mark : Expr → Mark
  | number mark _ => mark
  | real mark _ => mark
  | logic mark _ => mark
  | string mark _ => mark
  | interpolation mark _ => mark
  | material mark _ _ => mark
  | member mark _ => mark
  | symbol s => s.mark
  | binary mark .. => mark
  | unary mark .. => mark
  | index mark .. => mark
  | call mark .. => mark
  | list mark _ => mark
  | map mark _ => mark

def Expr.start (e : Expr) : Position := e.mark.start

def Part.embedded {ε : Type} : List (Part ε) → List ε
  | [] => []
  | text _ :: rest => embedded rest
  | embed e :: rest => e :: embedded rest

structure Parameter where
  mark : Mark
  name : String
  type : Ty
deriving DecidableEq, Repr

structure Block (σ : Type) where
  mark : Mark
  body : List σ

structure FunctionDecl (σ : Type) where
  mark : Mark
  name : String
  parameters : List Parameter
  returns : Option Ty
  body : Block σ

inductive Stmt where
  | block (block : Block Stmt)
  | expression (mark : Mark) (expr : Expr)
  | declare (mark : Mark) (name : String) (type : Ty) (value : Expr)
  | assign (mark : Mark) (target : Symbol) (operator : Token) (value : Expr)
  /-- The other branch, if there is one, is a block or another conditional. -/
  | branch (mark : Mark) (condition : Expr) (body : Block Stmt) (other : Option Stmt)
  | whileLoop (mark : Mark) (condition : Expr) (body : Block Stmt)
  | repeatLoop (mark : Mark) (count : Expr) (body : Block Stmt)
  | function (decl : FunctionDecl Stmt)
  | ret (mark : Mark) (value : Option Expr)
  | brk (mark : Mark)
  | cont (mark : Mark)

def Stmt.mark : Stmt → Mark
  | block b => b.mark
  | expression mark _ => mark
  | declare mark .. => mark
  | assign mark .. => mark
  | branch mark .. => mark
  | whileLoop mark .. => mark
  | repeatLoop mark .. => mark
  | function decl => decl.mark
  | ret mark _ => mark
  | brk mark => mark
  | cont mark => mark

/-- A whole script. -/
abbrev Program := Block Stmt

/-- The head of a function that the host provides. -/
structure NativeDecl where
  span : Span
  name : String
  parameters : List Parameter
  returns : Option Ty
deriving DecidableEq, Repr

end CursorScript
