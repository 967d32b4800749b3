import CursorScript.Error
import CursorScript.Token
import CursorScript.Ty
import CursorScript.Value

/-!
Operators. Analysis picks one operator for a node from the types of its operands; evaluation
applies it to values without looking at types again.
-/
namespace CursorScript

inductive Operator where
  | addNumbers
  | addReals
  | concatStrings
  | subtractNumbers
  | subtractReals
  | multiplyNumbers
  | multiplyReals
  | divideNumbers
  | divideReals
  | moduloNumbers
  | moduloReals
  | powerNumbers
  | powerReals
  | equals
  | notEquals
  | greaterNumbers
  | greaterReals
  | greaterEqualsNumbers
  | greaterEqualsReals
  | lessNumbers
  | lessReals
  | lessEqualsNumbers
  | lessEqualsReals
  | and
  | or
  | not
  | listIndex
  | mapGet
  | negateNumber
  | negateReal
deriving DecidableEq, Repr

namespace Operator

def names : List (Operator × String) :=
  [(addNumbers, "AddNumbers"), (addReals, "AddReals"), (concatStrings, "ConcatStrings"),
   (subtractNumbers, "SubtractNumbers"), (subtractReals, "SubtractReals"),
   (multiplyNumbers, "MultiplyNumbers"), (multiplyReals, "MultiplyReals"),
   (divideNumbers, "DivideNumbers"), (divideReals, "DivideReals"),
   (moduloNumbers, "ModuloNumbers"), (moduloReals, "ModuloReals"),
   (powerNumbers, "PowerNumbers"), (powerReals, "PowerReals"), (equals, "Equals"),
   (notEquals, "NotEquals"), (greaterNumbers, "GreaterNumbers"), (greaterReals, "GreaterReals"),
   (greaterEqualsNumbers, "GreaterEqualsNumbers"), (greaterEqualsReals, "GreaterEqualsReals"),
   (lessNumbers, "LessNumbers"), (lessReals, "LessReals"),
   (lessEqualsNumbers, "LessEqualsNumbers"), (lessEqualsReals, "LessEqualsReals"),
   (and, "And"), (or, "Or"), (not, "Not"), (listIndex, "ListIndex"), (mapGet, "MapGet"),
   (negateNumber, "NegateNumber"), (negateReal, "NegateReal")]

def name (operator : Operator) : String := (names.lookup operator).getD ""

def ofName? (name : String) : Option Operator :=
  (names.find? (fun entry => entry.2 == name)).map Prod.fst

/-- The first choice for two numbers, the second for two reals, nothing otherwise. -/
def forNumeric {α : Type} (left right : Ty) (numbers reals : α) : Option α :=
  match left, right with
  | .simple .number, .simple .number => some numbers
  | .simple .real, .simple .real => some reals
  | _, _ => none

def arithmetic (left right : Ty) (numbers reals : Operator) : Option (Operator × Ty) :=
  forNumeric left right (numbers, .number) (reals, .real)

def comparison (left right : Ty) (numbers reals : Operator) : Option (Operator × Ty) :=
  forNumeric left right (numbers, .logic) (reals, .logic)

def logical (left right : Ty) (operator : Operator) : Option (Operator × Ty) :=
  if left = .logic ∧ right = .logic then some (operator, .logic) else none

/-- A test whether two values are equal; one of the types has to accept the other. -/
def equality (left right : Ty) (operator : Operator) : Option (Operator × Ty) :=
  if left.accepts right ∨ right.accepts left then some (operator, .logic) else none

/-- The operator between two operands, and the type of the result. -/
def binary? (token : TokenKind) (left right : Ty) : Option (Operator × Ty) :=
  if left.isPseudo ∨ right.isPseudo then none
  else
    match token with
    | .plus =>
      if left = .string ∧ right = .string then some (concatStrings, .string)
      else arithmetic left right addNumbers addReals
    | .dash => arithmetic left right subtractNumbers subtractReals
    | .star => arithmetic left right multiplyNumbers multiplyReals
    | .slash => arithmetic left right divideNumbers divideReals
    | .percent => arithmetic left right moduloNumbers moduloReals
    | .caret => arithmetic left right powerNumbers powerReals
    | .equals => equality left right equals
    | .notEquals => equality left right notEquals
    | .greater => comparison left right greaterNumbers greaterReals
    | .greaterEquals => comparison left right greaterEqualsNumbers greaterEqualsReals
    | .less => comparison left right lessNumbers lessReals
    | .lessEquals => comparison left right lessEqualsNumbers lessEqualsReals
    | .wordAnd => logical left right and
    | .wordOr => logical left right or
    | _ => none

def compoundBase? : TokenKind → Option TokenKind
  | .plusEquals => some .plus
  | .minusEquals => some .dash
  | .starEquals => some .star
  | .slashEquals => some .slash
  | .percentEquals => some .percent
  | _ => none

/-- The operator of a compound assignment, which takes numbers or reals only. -/
def compound? (token : TokenKind) (target value : Ty) : Option Operator := do
  let base ← compoundBase? token
  let _ ← forNumeric target value () ()
  let (operator, _) ← binary? base target value
  return operator

/-- The operator before an operand, and the type of the result. -/
def unary? (token : TokenKind) (operand : Ty) : Option (Operator × Ty) :=
  match token, operand with
  | .dash, .simple .number => some (negateNumber, .number)
  | .dash, .simple .real => some (negateReal, .real)
  | .wordNot, .simple .logic => some (not, .logic)
  | _, _ => none

/-- The operator of an index: lists take a number, maps what their keys accept. -/
def index? (collection index : Ty) : Option (Operator × Ty) :=
  match collection with
  | .list element => if index = .number then some (listIndex, element) else none
  | .map key value => if key.accepts index then some (mapGet, value) else none
  | _ => none

def maxExponent : Int := 65536

def divideWhole (a b : Int) : Except Cause Value :=
  if b = 0 then .error .divisionByZero else .ok (.number (Int.tdiv a b))

def moduloWhole (a b : Int) : Except Cause Value :=
  if b = 0 then .error .divisionByZero else .ok (.number (Int.emod a b))

/-- A power of numbers, for exponents that are neither negative nor too large. -/
def powerWhole (a b : Int) : Except Cause Value :=
  if 0 ≤ b ∧ b ≤ maxExponent then .ok (.number (Int.pow a b.toNat))
  else .error (.invalidExponent (Decimal.writeWhole b))

def divideReal (a b : Float) : Except Cause Value :=
  if b == 0.0 then .error .divisionByZero else .ok (.real (a / b))

def moduloReal (a b : Float) : Except Cause Value :=
  if b == 0.0 then .error .divisionByZero else .ok (.real (Decimal.modulo a b))

def elementAt (items : List Value) (index : Int) : Except Cause Value :=
  let outside := Except.error (.indexOutOfBounds (Decimal.writeWhole index) items.length)
  if index < 0 then outside
  else match items[index.toNat]? with
    | some value => .ok value
    | none => outside

def valueUnder (entries : List (Value × Value)) (key : Value) : Except Cause Value :=
  match Value.lookup? entries key with
  | some value => .ok value
  | none => .error (.missingKey key.describe)

def applyBinary (operator : Operator) (left right : Value) : Except Cause Value :=
  match operator, left, right with
  | addNumbers, .number a, .number b => .ok (.number (a + b))
  | addReals, .real a, .real b => .ok (.real (a + b))
  | concatStrings, .string a, .string b => .ok (.string (a ++ b))
  | subtractNumbers, .number a, .number b => .ok (.number (a - b))
  | subtractReals, .real a, .real b => .ok (.real (a - b))
  | multiplyNumbers, .number a, .number b => .ok (.number (a * b))
  | multiplyReals, .real a, .real b => .ok (.real (a * b))
  | divideNumbers, .number a, .number b => divideWhole a b
  | divideReals, .real a, .real b => divideReal a b
  | moduloNumbers, .number a, .number b => moduloWhole a b
  | moduloReals, .real a, .real b => moduloReal a b
  | powerNumbers, .number a, .number b => powerWhole a b
  | powerReals, .real a, .real b => .ok (.real (Float.pow a b))
  | equals, a, b => .ok (.logic (a.equal b))
  | notEquals, a, b => .ok (.logic (!a.equal b))
  | greaterNumbers, .number a, .number b => .ok (.logic (b < a))
  | greaterReals, .real a, .real b => .ok (.logic (b < a))
  | greaterEqualsNumbers, .number a, .number b => .ok (.logic (b ≤ a))
  | greaterEqualsReals, .real a, .real b => .ok (.logic (b ≤ a))
  | lessNumbers, .number a, .number b => .ok (.logic (a < b))
  | lessReals, .real a, .real b => .ok (.logic (a < b))
  | lessEqualsNumbers, .number a, .number b => .ok (.logic (a ≤ b))
  | lessEqualsReals, .real a, .real b => .ok (.logic (a ≤ b))
  | and, .logic a, .logic b => .ok (.logic (a && b))
  | or, .logic a, .logic b => .ok (.logic (a || b))
  | listIndex, .list items, .number index => elementAt items index
  | mapGet, .map entries, key => valueUnder entries key
  | operator, left, right =>
    .error (.internalError
      (operator.name ++ " applied to " ++ left.kindName ++ " and " ++ right.kindName))

def applyUnary (operator : Operator) (operand : Value) : Except Cause Value :=
  match operator, operand with
  | negateNumber, .number n => .ok (.number (-n))
  | negateReal, .real x => .ok (.real (-x))
  | not, .logic b => .ok (.logic (!b))
  | operator, operand =>
    .error (.internalError (operator.name ++ " applied to " ++ operand.kindName))

end Operator

end CursorScript
