import CursorScript.Position

/-!
Lines of a script: a text is cut after each newline, and a byte offset is looked up among the
lines.
-/
namespace CursorScript.Source

/-- Cuts `chars` after each newline; every line keeps its newline and no line is empty. -/
def lines : List Char → List (List Char)
  | [] => []
  | c :: cs =>
    if c = '\n' then [c] :: lines cs
    else match lines cs with
      | [] => [[c]]
      | line :: rest => (c :: line) :: rest

/-- Cutting into lines loses nothing. -/
theorem flatten_lines (chars : List Char) : (lines chars).flatten = chars := by
  induction chars with
  | nil => rfl
  | cons c cs ih =>
    rw [lines]
    split
    · simp [ih]
    · split
      · next h => rw [h] at ih; simp at ih; simp [ih]
      · next h => rw [h] at ih; simp at ih; simp [ih]

structure LinePlace where
  number : Nat
  text : List Char
  offset : Nat
deriving DecidableEq, Repr

/-- Looks `offset` up among lines, the first of which starts at byte `start`; past the end the
answer is the end of the last line seen. -/
def findLine (offset : Nat) : (number start : Nat) → LinePlace → List (List Char) → LinePlace
  | _, _, last, [] => last
  | number, start, _, line :: rest =>
    let stop := start + Text.byteLength line
    if start ≤ offset ∧ offset < stop then ⟨number, line, offset - start⟩
    else findLine offset (number + 1) stop ⟨number, line, Text.byteLength line⟩ rest

def lineAt (chars : List Char) (offset : Nat) : LinePlace :=
  findLine offset 1 0 ⟨1, [], 0⟩ (lines chars)

end CursorScript.Source
