/-!
Reals as binary fractions. A finite real is a sign, a natural number and a power of two; rounding
to whole numbers and remainders are computed on these parts without any error.
-/
namespace CursorScript.Decimal

inductive Parts where
  | undefined
  | infinite (negative : Bool)
  | finite (negative : Bool) (mantissa : Nat) (exponent : Int)
deriving DecidableEq, Repr

def parts (x : Float) : Parts :=
  let bits := x.toBits.toNat
  let negative := bits / Nat.pow 2 63 % 2 == 1
  let biased : Nat := bits / Nat.pow 2 52 % 2048
  let fraction : Nat := bits % Nat.pow 2 52
  if biased = 2047 then
    if fraction = 0 then .infinite negative else .undefined
  else if biased = 0 then .finite negative fraction (-1074)
  else .finite negative (fraction + Nat.pow 2 52) ((biased : Int) - 1075)

def signed (negative : Bool) (x : Float) : Float := if negative then -x else x

inductive Rounding where
  | floor
  | ceiling
  | truncate
  | nearestAway

/-- Rounds `numerator / denominator` to a whole number; halves go away from zero. -/
def Rounding.apply (mode : Rounding) (numerator : Int) (denominator : Nat) : Int :=
  match mode with
  | .floor => Int.fdiv numerator denominator
  | .ceiling => -Int.fdiv (-numerator) denominator
  | .truncate => Int.tdiv numerator denominator
  | .nearestAway =>
    let half := (2 * numerator.natAbs + denominator) / (2 * denominator)
    if numerator < 0 then -(half : Int) else half

/-- The whole number next to `x` as `mode` says; none for an infinite or undefined real. -/
def toWhole? (mode : Rounding) (x : Float) : Option Int :=
  match parts x with
  | .finite negative mantissa exponent =>
    let m : Int := if negative then -(mantissa : Int) else mantissa
    if 0 ≤ exponent then some (m * Nat.pow 2 exponent.toNat)
    else some (mode.apply m (Nat.pow 2 (-exponent).toNat))
  | _ => none

/-- The real `mantissa * 2 ^ exponent`, for a mantissa of at most 53 bits. -/
def ofBinary (mantissa : Nat) (exponent : Int) : Float :=
  Float.scaleB (Float.ofNat mantissa) exponent

/-- The remainder of `x / y` with the sign of `x`, exact; undefined for an infinite `x` or a
zero `y`. -/
def remainder (x y : Float) : Float :=
  match parts x, parts y with
  | .finite negative m e, .finite _ n f =>
    if n = 0 then 0.0 / 0.0
    else
      let low := min e f
      let r := (m * Nat.pow 2 (e - low).toNat) % (n * Nat.pow 2 (f - low).toNat)
      signed negative (ofBinary r low)
  | .finite .., .infinite _ => x
  | _, _ => 0.0 / 0.0

/-- The remainder that is never negative: a negative one is raised by the size of `y`. -/
def modulo (x y : Float) : Float :=
  let r := remainder x y
  if r < 0.0 then r + y.abs else r

/-- Whether `x` is neither infinite nor undefined. -/
def isFinite (x : Float) : Bool :=
  match parts x with
  | .finite .. => true
  | _ => false

end CursorScript.Decimal
