/-!
What can be wrong with a written pattern, and how it is shown: the pattern with marks under the
faulty stretch, and the wording.
-/
namespace CursorScript.Pattern

structure Extent where
  first : Nat
  last : Nat
deriving DecidableEq, Repr

inductive Mistake where
  | classEscape
  | classRangeOrder
  | classRangeBound
  | unclosedClass
  | decimalTooLarge
  | emptyHex
  | hexNotCharacter
  | hexDigit
  | endInEscape
  | unknownEscape
  | danglingNegation
  | repeatedFlag
  | repeatedNegation
  | endInFlags
  | unknownFlag
  | repeatedGroupName
  | emptyGroupName
  | groupNameCharacter
  | endInGroupName
  | unclosedGroup
  | unopenedGroup
  | tooDeep (limit : Nat)
  | countOrder
  | emptyCount
  | unclosedCount
  | nothingToRepeat
  | backReference
  | lookAround
deriving DecidableEq, Repr

def Mistake.message : Mistake → String
  | classEscape => "invalid escape sequence found in character class"
  | classRangeOrder => "invalid character class range, the start must be <= the end"
  | classRangeBound => "invalid range boundary, must be a literal"
  | unclosedClass => "unclosed character class"
  | decimalTooLarge => "decimal literal invalid"
  | emptyHex => "hexadecimal literal empty"
  | hexNotCharacter => "hexadecimal literal is not a Unicode scalar value"
  | hexDigit => "invalid hexadecimal digit"
  | endInEscape => "incomplete escape sequence, reached end of pattern prematurely"
  | unknownEscape => "unrecognized escape sequence"
  | danglingNegation => "dangling flag negation operator"
  | repeatedFlag => "duplicate flag"
  | repeatedNegation => "flag negation operator repeated"
  | endInFlags => "expected flag but got end of regex"
  | unknownFlag => "unrecognized flag"
  | repeatedGroupName => "duplicate capture group name"
  | emptyGroupName => "empty capture group name"
  | groupNameCharacter => "invalid capture group character"
  | endInGroupName => "unclosed capture group name"
  | unclosedGroup => "unclosed group"
  | unopenedGroup => "unopened group"
  | tooDeep limit =>
    "exceed the maximum number of nested parentheses/brackets (" ++ toString limit ++ ")"
  | countOrder => "invalid repetition count range, the start must be <= the end"
  | emptyCount => "repetition quantifier expects a valid decimal"
  | unclosedCount => "unclosed counted repetition"
  | nothingToRepeat => "repetition operator missing expression"
  | backReference => "backreferences are not supported"
  | lookAround => "look-around, including look-ahead and look-behind, is not supported"

structure Fault where
  extent : Extent
  /-- An earlier stretch that the mistake is about as well. -/
  earlier : Option Extent
  mistake : Mistake
deriving DecidableEq, Repr

def fault {α : Type} (first last : Nat) (mistake : Mistake) : Except Fault α :=
  .error ⟨⟨first, last⟩, none, mistake⟩

def faultAfter {α : Type} (first last : Nat) (earlier : Extent) (mistake : Mistake) :
    Except Fault α :=
  .error ⟨⟨first, last⟩, some earlier, mistake⟩

def lineColumn (chars : List Char) (place : Nat) : Nat × Nat :=
  let before := chars.take place
  ((before.filter (· == '\n')).length, (before.reverse.takeWhile (· != '\n')).length)

def splitLines : List Char → List (List Char)
  | [] => [[]]
  | c :: cs =>
    if c = '\n' then [] :: splitLines cs
    else match splitLines cs with
      | [] => [[c]]
      | line :: rest => (c :: line) :: rest

def withoutReturn (line : List Char) : List Char :=
  if line.getLast? = some '\r' then line.dropLast else line

/-- A number with blanks before it, `width` characters long. -/
def padded (width n : Nat) : String :=
  let digits := toString n
  String.ofList (List.replicate (width - digits.length) ' ') ++ digits

/-- Marks under stretches of one line, given by their first columns and widths in ascending order;
`column` is where the next mark would stand. A stretch without width is marked once. -/
def marksFrom (column : Nat) : List (Nat × Nat) → List Char
  | [] => []
  | (first, width) :: rest =>
    let marks := max 1 width
    List.replicate (first - column) ' ' ++ List.replicate marks '^' ++
      marksFrom (max column first + marks) rest

def Fault.extents (f : Fault) : List Extent :=
  match f.earlier with
  | none => [f.extent]
  | some e => if e.first ≤ f.extent.first then [e, f.extent] else [f.extent, e]

/-- The lines of a pattern with marks under the faulty ones; the lines of a pattern with several are
numbered. -/
def Fault.notate (f : Fault) (chars : List Char) : String :=
  let lines := splitLines chars
  let width := (toString lines.length).length
  let spots := f.extents.filterMap fun e =>
    let (line, first) := lineColumn chars e.first
    let (lastLine, last) := lineColumn chars e.last
    if line = lastLine then some (line, first, last - first) else none
  let shown := lines.zipIdx.map fun (line, n) =>
    let margin := if 1 < lines.length then padded width (n + 1) ++ ": " else "    "
    let here := (spots.filter (·.1 == n)).map (·.2)
    let note :=
      if here.isEmpty then ""
      else String.ofList (List.replicate margin.length ' ' ++ marksFrom 0 here) ++ "\n"
    margin ++ String.ofList (withoutReturn line) ++ "\n" ++ note
  String.join shown

def Fault.longStretches (f : Fault) (chars : List Char) : String :=
  String.join (f.extents.filterMap fun e =>
    let (line, first) := lineColumn chars e.first
    let (lastLine, last) := lineColumn chars e.last
    if line = lastLine then none
    else some ("on line " ++ toString (line + 1) ++ " (column " ++ toString (first + 1) ++
      ") through line " ++ toString (lastLine + 1) ++ " (column " ++ toString last ++ ")\n"))

def Fault.describe (f : Fault) (chars : List Char) : String :=
  let ruler := String.ofList (List.replicate 79 '~') ++ "\n"
  let shown :=
    if chars.contains '\n' then ruler ++ f.notate chars ++ ruler ++ f.longStretches chars
    else f.notate chars
  "regex parse error:\n" ++ shown ++ "error: " ++ f.mistake.message

end CursorScript.Pattern
