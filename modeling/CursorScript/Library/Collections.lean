import CursorScript.Library

/-!
Families of functions: printing takes a value of any type, and the others any list or map.
-/
namespace CursorScript.Library

def familyMember (name : String) (parameters : List (String × Ty)) (returns : Option Ty)
    (run : NativeBody) : Function :=
  { name := name
    parameterTypes := parameters.map Prod.snd
    parameterNames := parameters.map Prod.fst
    returns := returns
    body := .native run }

def printBody : NativeBody := fun context arguments =>
  .ok (.unit, context.print (" ".intercalate (arguments.map Value.describe)))

def sizeBody : NativeBody := fun context arguments =>
  match arguments with
  | .list items :: _ => .ok (.number items.length, context)
  | .map entries :: _ => .ok (.number entries.length, context)
  | _ => .error "expected a list or a map"

def appendBody : NativeBody := fun context arguments =>
  match arguments with
  | .list items :: item :: _ => .ok (.list (items ++ [item]), context)
  | _ => .error "expected a list and an element"

def hasBody : NativeBody := fun context arguments =>
  match arguments with
  | [.map entries, key] => .ok (.logic (Value.hasKey entries key), context)
  | _ => .error "expected a map and a key"

def keysBody : NativeBody := fun context arguments =>
  match arguments with
  | .map entries :: _ => .ok (.list (Value.keysOf entries), context)
  | _ => .error "expected a map"

def printFamily : Family where
  name := "print"
  resolve := fun types =>
    match types with
    | [type] =>
      if type.isPseudo then none
      else some (familyMember "print" [("value", type)] none printBody)
    | _ => none

def sizeFamily : Family where
  name := "size"
  resolve := fun types =>
    match types with
    | [.list element] =>
      some (familyMember "size" [("collection", .list element)] (some .number) sizeBody)
    | [.map key value] =>
      some (familyMember "size" [("collection", .map key value)] (some .number) sizeBody)
    | _ => none

def appendFamily : Family where
  name := "append"
  resolve := fun types =>
    match types with
    | [.list element, item] =>
      if element.accepts item then
        some (familyMember "append" [("list", .list element), ("element", item)]
          (some (.list element)) appendBody)
      else none
    | _ => none

def hasKeyFamily : Family where
  name := "has"
  resolve := fun types =>
    match types with
    | [.map key value, candidate] =>
      if key.accepts candidate then
        some (familyMember "has" [("map", .map key value), ("key", candidate)] (some .logic)
          hasBody)
      else none
    | _ => none

def keysFamily : Family where
  name := "keys"
  resolve := fun types =>
    match types with
    | [.map key value] =>
      some (familyMember "keys" [("map", .map key value)] (some (.list key)) keysBody)
    | _ => none

def collections : List Family :=
  [printFamily, sizeFamily, appendFamily, hasKeyFamily, keysFamily]

end CursorScript.Library
