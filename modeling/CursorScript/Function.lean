import CursorScript.Context
import CursorScript.Tree

/-!
Functions that a call can be resolved to. Two functions with the same name and parameter types are
the same overload.
-/
namespace CursorScript

/-- What a function provided by the host does: it fails with a message, or gives a value and the
context as it left it. -/
abbrev NativeBody := Context → List Value → Except String (Value × Context)

inductive FunctionBody where
  | native (run : NativeBody)
  | script (decl : FunctionDecl Stmt)

structure Function where
  name : String
  parameterTypes : List Ty
  parameterNames : List String
  returns : Option Ty
  body : FunctionBody

namespace Function

def ofDecl (decl : FunctionDecl Stmt) : Function :=
  { name := decl.name
    parameterTypes := decl.parameters.map Parameter.type
    parameterNames := decl.parameters.map Parameter.name
    returns := decl.returns
    body := .script decl }

def isNative (f : Function) : Bool :=
  match f.body with
  | .native _ => true
  | .script _ => false

def signature (f : Function) : String := f.name ++ "(" ++ Ty.describeAll f.parameterTypes ++ ")"

/-- Where the function comes from, its signature and its return type. -/
def describe (f : Function) : String :=
  let head := (if f.isNative then "native " else "script ") ++ f.signature
  match f.returns with
  | some type => head ++ ": " ++ type.describe
  | none => head

def describeCall (f : Function) (arguments : List Value) : String :=
  f.name ++ "(" ++ ", ".intercalate (arguments.map Value.describe) ++ ")"

/-- Whether the function takes arguments of these types once each literal type is widened to the
one declared. -/
def acceptsWidened (f : Function) (arguments : List Ty) : Bool :=
  f.parameterTypes.length = arguments.length &&
    (f.parameterTypes.zip arguments).all fun (expected, actual) => expected.accepts actual

end Function

end CursorScript
