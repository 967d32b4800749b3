import CursorScript.Decimal.Shortest

/-!
Reading whole numbers and reals. A sign may stand in front; a real may have a fraction, an
exponent, or be one of the words for an infinite or undefined real in any case.
-/
namespace CursorScript.Decimal

def isDigit (c : Char) : Bool := '0' ≤ c && c ≤ '9'

/-- The value of a row of digits read from the left, after `acc`. -/
def digitsValue (acc : Nat) (digits : List Char) : Nat :=
  digits.foldl (fun n c => 10 * n + (c.toNat - '0'.toNat)) acc

/-- Reads a non-empty row of digits and nothing else. -/
def readNat? (chars : List Char) : Option Nat :=
  if chars ≠ [] ∧ chars.all isDigit then some (digitsValue 0 chars) else none

def readUnsigned? : List Char → Option Nat
  | '+' :: rest => readNat? rest
  | chars => readNat? chars

/-- Reads a whole number with an optional sign in front; the two signs do not combine. -/
def readInt? : List Char → Option Int
  | '-' :: rest => (readNat? rest).map (fun n => -(n : Int))
  | chars => (readUnsigned? chars).map Int.ofNat

/-- The real nearest to `mantissa * 10 ^ power`; far outside the range it is infinite or zero. -/
def ofDecimal (mantissa : Nat) (power : Int) : Float :=
  if mantissa = 0 then 0.0
  else
    let leading := digitCount mantissa + power
    if 310 < leading then 1.0 / 0.0
    else if leading < -330 then 0.0
    else if 0 ≤ power then Float.ofScientific (mantissa * Nat.pow 10 power.toNat) false 0
    else Float.ofScientific mantissa true (-power).toNat

/-- The power after an exponent mark: nothing, or a mark and a signed row of digits. -/
def readExponent? : List Char → Option Int
  | [] => some 0
  | c :: rest =>
    if c = 'e' ∨ c = 'E' then
      match rest with
      | '-' :: digits => (readNat? digits).map (fun n => -(n : Int))
      | digits => (readUnsigned? digits).map Int.ofNat
    else none

/-- Reads an unsigned real in decimal notation. -/
def readMagnitude? (chars : List Char) : Option Float :=
  let whole := chars.takeWhile isDigit
  let rest := chars.dropWhile isDigit
  let (fraction, rest) :=
    match rest with
    | '.' :: more => (more.takeWhile isDigit, more.dropWhile isDigit)
    | _ => ([], rest)
  if whole = [] ∧ fraction = [] then none
  else
    (readExponent? rest).map fun power =>
      ofDecimal (digitsValue 0 (whole ++ fraction)) (power - fraction.length)

/-- Reads an unsigned real, also one of the words for an infinite or undefined one. -/
def readUnsignedReal? (chars : List Char) : Option Float :=
  let word := String.ofList (chars.map Char.toLower)
  if word = "inf" ∨ word = "infinity" then some (1.0 / 0.0)
  else if word = "nan" then some (0.0 / 0.0)
  else readMagnitude? chars

def readReal? : List Char → Option Float
  | '-' :: rest => (readUnsignedReal? rest).map (- ·)
  | '+' :: rest => readUnsignedReal? rest
  | chars => readUnsignedReal? chars

end CursorScript.Decimal
