import CursorScript.Grammar.Stream

/-!
Types as they are written: a primitive's name, `[element]`, `|key -> value|` or `<member, …>`.
-/
namespace CursorScript.Grammar
open Parse

def primitiveType : Parse Ty := do
  let token ← expect .identifier
  match Primitive.ofName? token.value with
  | some primitive => return .simple primitive
  | none => fail (.unknownType token.value) token.span.start

/-- Members between commas, after those in `before`; `fuel` bounds their number. -/
def literalMembers : (fuel : Nat) → (before : NameSet) → Parse NameSet
  | 0, _ => unexpected
  | fuel + 1, before => do
    let member ← expectWith .identifier "expected a literal member"
    let members := before.insert member.value
    if (← kind) = .comma then
      let _ ← take
      literalMembers fuel members
    else return members

/-- `<member, …>`. -/
def literalType : Parse Ty := do
  let _ ← expect .less
  let members ← literalMembers (← get).limit .empty
  let _ ← expectWith .greater "expected `>` after literal members"
  return .literal members

/-- `[element]`, given how an element type is read. -/
def listType (inner : Parse Ty) : Parse Ty := do
  let _ ← expect .openBracket
  let element ← inner
  let _ ← expectWith .closeBracket "expected `]` after list element type"
  return .list element

/-- `|key -> value|`, given how its parts are read. -/
def mapType (inner : Parse Ty) : Parse Ty := do
  let _ ← expect .pipe
  let key ← inner
  let _ ← expectWith .arrow "expected `->` between map key and value types"
  let value ← inner
  let _ ← expectWith .pipe "expected `|` after map value type"
  return .map key value

/-- A type whose parts are nested at most `fuel` deep. -/
def typeWithin : (fuel : Nat) → Parse Ty
  | 0 => unexpected
  | fuel + 1 => do
    match ← kind with
    | .identifier => primitiveType
    | .openBracket => listType (typeWithin fuel)
    | .pipe => mapType (typeWithin fuel)
    | .less => literalType
    | _ => unexpectedWith "expected a type"

def type : Parse Ty := do typeWithin (← get).limit

end CursorScript.Grammar
