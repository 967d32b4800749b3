import CursorScript.Library
import CursorScript.Suggest

/-!
Scopes. A chain of scopes stands on a library; names are looked up from the innermost scope
outward, and the library comes last.
-/
namespace CursorScript

structure Variable where
  type : Ty
  symbol : Nat
  declaration : Nat
deriving DecidableEq, Repr

/-- One scope, with its variables and functions in the order of their definition. -/
structure Scope where
  vars : List (String × Variable)
  functions : List Function

namespace Scope

def empty : Scope := ⟨[], []⟩

def lookup? (scope : Scope) (name : String) : Option Variable := scope.vars.lookup name

/-- The overload with exactly these parameter types. -/
def function? (scope : Scope) (name : String) (arguments : List Ty) : Option Function :=
  scope.functions.find? fun f => f.name == name && f.parameterTypes == arguments

/-- The overload defined first that takes these arguments once literal types are widened. -/
def widened? (scope : Scope) (name : String) (arguments : List Ty) : Option Function :=
  scope.functions.find? fun f => f.name == name && f.acceptsWidened arguments

def names (scope : Scope) : List String :=
  (NameSet.ofList (scope.vars.map Prod.fst ++ scope.functions.map Function.name)).names

def addVariable? (scope : Scope) (name : String) (v : Variable) : Option Scope :=
  if (scope.lookup? name).isSome then none
  else some { scope with vars := scope.vars ++ [(name, v)] }

/-- Adds a function, unless there is an overload with the same parameter types. -/
def addFunction? (scope : Scope) (f : Function) : Option Scope :=
  if (scope.function? f.name f.parameterTypes).isSome then none
  else some { scope with functions := scope.functions ++ [f] }

end Scope

/-- A chain of scopes, the innermost first, on top of a library. -/
structure ScopeChain where
  scopes : List Scope
  library : Library

namespace ScopeChain

def base (library : Library) : ScopeChain := ⟨[], library⟩

def push (chain : ScopeChain) : ScopeChain := { chain with scopes := .empty :: chain.scopes }

def pop (chain : ScopeChain) : ScopeChain := { chain with scopes := chain.scopes.tail }

def depth (chain : ScopeChain) : Nat := chain.scopes.length

/-- Changes the innermost scope, which is opened first if there is none; nothing changes if
`change` refuses. -/
def modify? (chain : ScopeChain) (change : Scope → Option Scope) : Option ScopeChain :=
  match chain.scopes with
  | [] => (change .empty).map fun scope => { chain with scopes := [scope] }
  | scope :: outer => (change scope).map fun scope => { chain with scopes := scope :: outer }

/-- Adds a variable to the innermost scope, unless its name is taken there. -/
def addVariable? (chain : ScopeChain) (name : String) (v : Variable) : Option ScopeChain :=
  chain.modify? fun scope => scope.addVariable? name v

/-- Adds a function to the innermost scope, unless the overload is there. -/
def addFunction? (chain : ScopeChain) (f : Function) : Option ScopeChain :=
  chain.modify? fun scope => scope.addFunction? f

/-- The variable of a name, once the innermost `up` scopes are skipped. -/
def lookup? (chain : ScopeChain) (name : String) (up : Nat) : Option Variable :=
  (chain.scopes.drop up).findSome? fun scope => scope.lookup? name

/-- The nearest overload with exactly these parameter types. -/
def exactly? (chain : ScopeChain) (name : String) (arguments : List Ty) : Option Function :=
  (chain.scopes.findSome? fun scope => scope.function? name arguments).or
    (chain.library.function? name arguments)

/-- The nearest overload that takes these arguments once literal types are widened. -/
def widened? (chain : ScopeChain) (name : String) (arguments : List Ty) : Option Function :=
  (chain.scopes.findSome? fun scope => scope.widened? name arguments).or
    (chain.library.widened? name arguments)

/-- The function that a call means: an exact overload anywhere comes before a nearer one that has
to be widened. -/
def function? (chain : ScopeChain) (name : String) (arguments : List Ty) : Option Function :=
  (chain.exactly? name arguments).or (chain.widened? name arguments)

def names (chain : ScopeChain) : List String :=
  chain.scopes.flatMap Scope.names ++ chain.library.names

def suggestions (chain : ScopeChain) (name : String) : List String :=
  Suggest.similar name chain.names

end ScopeChain

end CursorScript
