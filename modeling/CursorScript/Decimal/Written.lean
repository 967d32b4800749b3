import CursorScript.Decimal.Shortest

/-!
Reals as text. Two layouts write the same digits: one keeps a fraction on whole reals and turns to
an exponent for very large and very small ones, the other is always positional.
-/
namespace CursorScript.Decimal

structure Layout where
  /-- A real whose leading digit stands before this place is written positionally. -/
  positionalBelow : Option Int
  /-- A real whose leading digit stands at or after this place is written positionally. -/
  positionalFrom : Option Int
  /-- Whether a whole real keeps the fraction `.0`. -/
  keepsFraction : Bool

/-- Values are written with an exponent from 10^16 on and below 10^-4, and whole ones keep `.0`. -/
def Layout.value : Layout := ⟨some 16, some (-3), true⟩

/-- Bounds in messages are written without an exponent and without `.0`. -/
def Layout.bound : Layout := ⟨none, none, false⟩

/-- Whether digits whose leading one stands at `leading` are written positionally. -/
def Layout.isPositional (layout : Layout) (leading : Int) : Bool :=
  layout.positionalBelow.all (leading ≤ ·) && layout.positionalFrom.all (· ≤ leading)

def positional (keepsFraction : Bool) (digits : List Char) (leading : Int) : List Char :=
  let count : Int := digits.length
  let zeros (n : Int) := List.replicate n.toNat '0'
  if leading ≤ 0 then ['0', '.'] ++ zeros (-leading) ++ digits
  else if count ≤ leading then
    digits ++ zeros (leading - count) ++ (if keepsFraction then ['.', '0'] else [])
  else digits.take leading.toNat ++ ['.'] ++ digits.drop leading.toNat

/-- `digits` with the point after the first and the exponent behind. -/
def scientific (digits : List Char) (leading : Int) : List Char :=
  let exponent := (toString (leading - 1)).toList
  match digits with
  | [] => ['0']
  | [d] => [d, 'e'] ++ exponent
  | d :: rest => [d, '.'] ++ rest ++ ['e'] ++ exponent

def Layout.write (layout : Layout) (x : Float) : String :=
  match parts x with
  | .undefined => "NaN"
  | .infinite negative => if negative then "-inf" else "inf"
  | .finite negative mantissa exponent =>
    let body :=
      if mantissa = 0 then if layout.keepsFraction then ['0', '.', '0'] else ['0']
      else
        let shortest := shortest mantissa exponent
        let digits := Nat.toDigits 10 shortest.value
        let leading := shortest.power + digits.length
        if layout.isPositional leading then positional layout.keepsFraction digits leading
        else scientific digits leading
    String.ofList (if negative then '-' :: body else body)

def write (x : Float) : String := Layout.value.write x

end CursorScript.Decimal
