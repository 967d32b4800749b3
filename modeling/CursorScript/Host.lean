import CursorScript.Function

/-!
Functions of the host. A host function has a signature of host types, each of which stands for a
type of the host's own data; values are read into that data before the function runs, and its
answer is written back.
-/
namespace CursorScript

/-- How a host function sees a parameter or its answer. -/
inductive HostType where
  | number
  | real
  | logic
  | string
  | material
  | list (element : HostType)
  /-- Any value, as it is. -/
  | any
deriving DecidableEq, Repr

namespace HostType

def Carrier : HostType → Type
  | number => Int
  | real => Float
  | logic => Bool
  | string => String
  | material => Material
  | list element => List element.Carrier
  | any => Value

/-- The host type that a declared type needs: members of literal types are strings, and maps are
values as they are. -/
def ofTy : Ty → HostType
  | .simple .number => number
  | .simple .real => real
  | .simple .logic => logic
  | .simple .string => string
  | .simple .material => material
  | .literal _ => string
  | .list element => list (ofTy element)
  | .map .. => any
  | .emptyList => any
  | .emptyMap => any

/-- Whether a parameter of this host type can take what a declared type needs. -/
def fits : HostType → HostType → Bool
  | any, _ => true
  | list host, list declared => fits host declared
  | host, declared => host == declared

def describe : HostType → String
  | number => "BigInt"
  | real => "f64"
  | logic => "bool"
  | string => "String"
  | material => "Material"
  | list element => "Vec<" ++ element.describe ++ ">"
  | any => "Value"

def mismatch {α : Type} (expected : String) (value : Value) : Except String α :=
  .error ("expected " ++ expected ++ ", received " ++ value.kindName)

def read : (t : HostType) → Value → Except String t.Carrier
  | number, .number n => .ok n
  | number, v => mismatch "number" v
  | real, .real x => .ok x
  | real, v => mismatch "real" v
  | logic, .logic b => .ok b
  | logic, v => mismatch "logic" v
  | string, .string s => .ok s
  | string, .literal name => .ok name
  | string, v => mismatch "string" v
  | material, .material m => .ok m
  | material, v => mismatch "material" v
  | list element, .list items => items.mapM (read element)
  | list _, v => mismatch "list" v
  | any, v => .ok v

def write : (t : HostType) → t.Carrier → Value
  | number, n => .number n
  | real, x => .real x
  | logic, b => .logic b
  | string, s => .string s
  | material, m => .material m
  | list element, items => .list (List.map (write element) items)
  | any, v => v

def Carriers : List HostType → Type
  | [] => Unit
  | t :: ts => t.Carrier × Carriers ts

def Answer : Option HostType → Type
  | none => Unit
  | some t => t.Carrier

/-- Reads arguments one after the other; arguments without a parameter are ignored. -/
def readAll : (ts : List HostType) → List Value → Except String (Carriers ts)
  | [], _ => .ok ()
  | _ :: _, [] => .error "missing argument"
  | t :: ts, v :: vs => do
    let first ← t.read v
    let others ← readAll ts vs
    return (first, others)

def writeAnswer : (t : Option HostType) → Answer t → Value
  | none, _ => .unit
  | some t, a => t.write a

end HostType

structure HostFunction where
  parameters : List HostType
  returns : Option HostType
  run : HostType.Carriers parameters → Context → Except String (HostType.Answer returns × Context)

namespace HostFunction

def call (f : HostFunction) : NativeBody := fun context arguments => do
  let data ← HostType.readAll f.parameters arguments
  let (answer, context) ← f.run data context
  return (HostType.writeAnswer f.returns answer, context)

/-- A function of one argument that cannot fail and leaves the context alone. -/
def ofMap (a r : HostType) (f : a.Carrier → r.Carrier) : HostFunction :=
  ⟨[a], some r, fun (x, _) context => .ok (f x, context)⟩

/-- A function of one argument that can fail and leaves the context alone. -/
def ofTry (a r : HostType) (f : a.Carrier → Except String r.Carrier) : HostFunction :=
  ⟨[a], some r, fun (x, _) context => (f x).map (·, context)⟩

/-- A function of two arguments that cannot fail and leaves the context alone. -/
def ofMap2 (a b r : HostType) (f : a.Carrier → b.Carrier → r.Carrier) : HostFunction :=
  ⟨[a, b], some r, fun (x, y, _) context => .ok (f x y, context)⟩

/-- Whether the host function fits a declared signature; the answer is looked at first, then the
number of parameters, then each of them. -/
def checkSignature (f : HostFunction) (parameters : List Ty) (returns : Option Ty) :
    Except String Unit := do
  match returns, f.returns with
  | none, none => pure ()
  | some declared, some host =>
    let wanted := HostType.ofTy declared
    if !host.fits wanted then
      throw ("return types do not match, expected " ++ wanted.describe ++ ", found " ++
        host.describe)
  | some declared, none =>
    throw ("declared to return " ++ declared.describe ++ " but the function returns nothing")
  | none, some host =>
    throw ("declared without a return type but the function returns " ++ host.describe)
  if f.parameters.length ≠ parameters.length then
    throw ("parameter counts do not match, declared " ++ toString parameters.length ++
      ", found " ++ toString f.parameters.length)
  for ((declared, host), index) in (parameters.zip f.parameters).zipIdx do
    let wanted := HostType.ofTy declared
    if !host.fits wanted then
      throw ("parameter " ++ toString index ++ " has non-matching types, expected " ++
        wanted.describe ++ ", found " ++ host.describe)

end HostFunction

/-- The function that binds a host function under a declared name and signature. -/
def Function.ofHost (name : String) (parameters : List (String × Ty)) (returns : Option Ty)
    (host : HostFunction) : Function :=
  { name := name
    parameterTypes := parameters.map Prod.snd
    parameterNames := parameters.map Prod.fst
    returns := returns
    body := .native host.call }

end CursorScript
