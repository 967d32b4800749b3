import CursorScript.Decimal.Binary
import CursorScript.Decimal.Whole

/-!
The fewest decimal digits that read back as a given real. A real stands for the interval of
numbers that round to it; for one digit, two digits and so on the two neighbours of the real on
that decimal grid are tried, and the first grid with a point in the interval wins.
-/
namespace CursorScript.Decimal

def digitCount (n : Nat) : Nat := (digitsOf n).length

structure Ratio where
  numerator : Nat
  denominator : Nat

def Ratio.scale (r : Ratio) (power : Int) : Ratio :=
  if 0 ≤ power then ⟨r.numerator * Nat.pow 10 power.toNat, r.denominator⟩
  else ⟨r.numerator, r.denominator * Nat.pow 10 (-power).toNat⟩

/-- The place of the leading digit: the least `e` with `r < 10 ^ e`, for a positive `r`. -/
def Ratio.leading (r : Ratio) : Int :=
  let guess : Int := (digitCount r.numerator : Int) - digitCount r.denominator
  let scaled := r.scale (-guess)
  if scaled.numerator < scaled.denominator then guess else guess + 1

/-- The interval of numbers that round to `mantissa * 2 ^ exponent`, in units of
`2 ^ (exponent - 2)`; its ends belong to it if the mantissa is even. -/
structure Interval where
  low : Nat
  middle : Nat
  high : Nat
  closed : Bool

/-- The interval around a mantissa; it is half as wide below a power of two. -/
def Interval.around (mantissa : Nat) (exponent : Int) : Interval :=
  let narrow := mantissa = Nat.pow 2 52 ∧ -1074 < exponent
  { low := if narrow then 4 * mantissa - 1 else 4 * mantissa - 2
    middle := 4 * mantissa
    high := 4 * mantissa + 2
    closed := mantissa % 2 = 0 }

structure Digits where
  value : Nat
  power : Int
deriving DecidableEq, Repr

/-- Drops trailing zeros; `fuel` bounds their number. -/
def Digits.strip : (fuel : Nat) → Digits → Digits
  | 0, d => d
  | fuel + 1, d =>
    if d.value ≠ 0 ∧ d.value % 10 = 0 then Digits.strip fuel ⟨d.value / 10, d.power + 1⟩ else d

/-- The neighbour of the middle on the grid of `10 ^ power` that lies in the interval, the nearer
one if both do, the upper one if they are equally near. -/
def gridPoint? (unit : Ratio) (interval : Interval) (power : Int) : Option Nat :=
  let grid := unit.scale (-power)
  let place (n : Nat) := n * grid.numerator
  let point (d : Nat) := d * grid.denominator
  let lower := place interval.middle / grid.denominator
  let upper := lower + 1
  let inside (d : Nat) : Bool :=
    if interval.closed then place interval.low ≤ point d && point d ≤ place interval.high
    else place interval.low < point d && point d < place interval.high
  match inside lower, inside upper with
  | true, true =>
    if place interval.middle - point lower < point upper - place interval.middle then some lower
    else some upper
  | true, false => some lower
  | false, true => some upper
  | false, false => none

/-- Tries ever finer grids, from the one with `count` digits on. -/
def searchGrids (unit : Ratio) (interval : Interval) (leading : Int) :
    (fuel count : Nat) → Digits
  | 0, _ => ⟨0, 0⟩
  | fuel + 1, count =>
    let power := leading - count
    match gridPoint? unit interval power with
    | some d => Digits.strip (count + 1) ⟨d, power⟩
    | none => searchGrids unit interval leading fuel (count + 1)

def shortest (mantissa : Nat) (exponent : Int) : Digits :=
  let unit : Ratio :=
    if 2 ≤ exponent then ⟨Nat.pow 2 (exponent - 2).toNat, 1⟩
    else ⟨1, Nat.pow 2 (2 - exponent).toNat⟩
  let value : Ratio := ⟨4 * mantissa * unit.numerator, unit.denominator⟩
  searchGrids unit (Interval.around mantissa exponent) value.leading 18 1

end CursorScript.Decimal
