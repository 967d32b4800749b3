import CursorScript.Grammar.Stmt
import CursorScript.Host

/-!
Libraries of host functions. A library holds functions with fixed signatures and families of
functions that are resolved from the argument types of each call. Registering a function either
adds it or leaves the library as it was.
-/
namespace CursorScript

/-- A family of functions: the overload for given argument types, if there is one. -/
structure Family where
  name : String
  resolve : List Ty → Option Function

structure Library where
  natives : List Function
  families : List Family

namespace Library

def empty : Library := ⟨[], []⟩

def family? (lib : Library) (name : String) : Option Family :=
  lib.families.find? (fun family => family.name == name)

/-- The overload with exactly these argument types; families come after functions with a fixed
signature. -/
def function? (lib : Library) (name : String) (arguments : List Ty) : Option Function :=
  match lib.natives.find? (fun f => f.name == name && f.parameterTypes == arguments) with
  | some f => some f
  | none => (lib.family? name).bind fun family => family.resolve arguments

/-- The first overload that takes these argument types once literal types are widened. -/
def widened? (lib : Library) (name : String) (arguments : List Ty) : Option Function :=
  lib.natives.find? fun f => f.name == name && f.acceptsWidened arguments

def names (lib : Library) : List String :=
  (NameSet.ofList (lib.natives.map Function.name ++ lib.families.map Family.name)).names

/-- The number of functions with a fixed signature. -/
def nativeCount (lib : Library) : Nat := lib.natives.length

def hasFamily (lib : Library) (name : String) : Bool := (lib.family? name).isSome

inductive Level where
  | info
  | error
deriving DecidableEq, Repr

structure LogLine where
  level : Level
  message : String
deriving DecidableEq, Repr

def LogLine.describe (line : LogLine) : String :=
  (match line.level with
    | .info => "INFO "
    | .error => "ERROR ") ++ line.message

structure Registration where
  library : Library
  registered : Bool
  log : LogLine

def refuse (lib : Library) (message : String) : Registration := ⟨lib, false, ⟨.error, message⟩⟩

def register (lib : Library) (declaration : String) (host : HostFunction) : Registration :=
  match NativeDecl.ofSource declaration with
  | .error e =>
    lib.refuse ("Error while parsing native function declaration " ++ Text.quoted declaration ++
      ": " ++ e.message)
  | .ok decl =>
    match host.checkSignature (decl.parameters.map Parameter.type) decl.returns with
    | .error message =>
      lib.refuse ("Error while type checking native function " ++ decl.name ++ ": " ++ message)
    | .ok () =>
      let parameters := decl.parameters.map fun p => (p.name, p.type)
      let function := Function.ofHost decl.name parameters decl.returns host
      let known := lib.natives.any fun f =>
        f.name == function.name && f.parameterTypes == function.parameterTypes
      if known then
        lib.refuse ("Tried to register two identical native functions: " ++ function.signature)
      else
        { library := { lib with natives := lib.natives ++ [function] }
          registered := true
          log := ⟨.info, "Successfully registered native function: " ++ function.signature⟩ }

def registerFamily (lib : Library) (family : Family) : Registration :=
  if lib.hasFamily family.name then
    lib.refuse ("Tried to register two identical dynamic functions: " ++ family.name)
  else
    { library := { lib with families := lib.families ++ [family] }
      registered := true
      log := ⟨.info, "Successfully registered dynamic function: " ++ family.name⟩ }

end Library

end CursorScript
