import CursorScript.Host

/-!
Functions on numbers and reals.
-/
namespace CursorScript.Library

/-- The ratio of a circle's circumference to its diameter. -/
def pi : Float := 3.141592653589793

def wholeNumber (mode : Decimal.Rounding) (x : Float) : Except String Int :=
  match Decimal.toWhole? mode x with
  | some n => .ok n
  | none => .error (Decimal.write x ++ " cannot be converted to a number")

def logarithm (base x : Float) : Float := x.log / base.log

def signOfReal (x : Float) : Int := if x > 0.0 then 1 else if x < 0.0 then -1 else 0

def realFunction (name parameter : String) (f : Float → Float) : Function :=
  .ofHost name [(parameter, .real)] (some .real) (.ofMap .real .real f)

def roundingFunction (name : String) (mode : Decimal.Rounding) : Function :=
  .ofHost name [("value", .real)] (some .number) (.ofTry .real .number (wholeNumber mode))

def arithmetic : List Function :=
  [realFunction "sqrt" "value" Float.sqrt,
   .ofHost "sqrt" [("value", .number)] (some .real)
     (.ofMap .number .real fun n => (Float.ofInt n).sqrt),
   realFunction "abs" "value" Float.abs,
   .ofHost "abs" [("value", .number)] (some .number)
     (.ofMap .number .number fun n => Int.ofNat (Int.natAbs n)),
   roundingFunction "floor" .floor,
   roundingFunction "ceil" .ceiling,
   roundingFunction "round" .nearestAway,
   realFunction "sin" "value" Float.sin,
   realFunction "cos" "value" Float.cos,
   realFunction "tan" "value" Float.tan,
   .ofHost "log" [("base", .real), ("value", .real)] (some .real)
     (.ofMap2 .real .real .real logarithm),
   .ofHost "log" [("base", .number), ("value", .number)] (some .real)
     (.ofMap2 .number .number .real fun base n => logarithm (Float.ofInt base) (Float.ofInt n)),
   .ofHost "sign" [("value", .real)] (some .number) (.ofMap .real .number signOfReal),
   .ofHost "sign" [("value", .number)] (some .number) (.ofMap .number .number Int.sign),
   realFunction "to_radians" "degrees" fun x => x * (pi / 180.0),
   realFunction "to_degrees" "radians" fun x => x * (180.0 / pi)]

end CursorScript.Library
