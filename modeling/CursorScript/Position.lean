import CursorScript.Text.Blank

/-!
Positions and spans. An offset counts bytes from zero; lines and columns count from one, and a
column counts characters. `Position.after` is the only way positions are made from text: it walks
over the characters that lie in between.
-/
namespace CursorScript

structure Position where
  offset : Nat
  line : Nat
  column : Nat
  file : String
deriving DecidableEq, Repr, Inhabited

namespace Position

def start (file : String) : Position := ⟨0, 1, 1, file⟩

def unknown : Position := start "<null>"

/-- The place after the one character `c`: a newline opens the next line. -/
def advance (p : Position) (c : Char) : Position :=
  if c = '\n' then ⟨p.offset + c.utf8Size, p.line + 1, 1, p.file⟩
  else ⟨p.offset + c.utf8Size, p.line, p.column + 1, p.file⟩

def after (p : Position) (text : List Char) : Position := text.foldl advance p

@[simp] theorem after_nil (p : Position) : p.after [] = p := rfl

@[simp] theorem after_cons (p : Position) (c : Char) (text : List Char) :
    p.after (c :: text) = (p.advance c).after text := rfl

theorem after_append (p : Position) (s t : List Char) : p.after (s ++ t) = (p.after s).after t := by
  simp [after, List.foldl_append]

@[simp] theorem advance_file (p : Position) (c : Char) : (p.advance c).file = p.file := by
  unfold advance; split <;> rfl

@[simp] theorem advance_offset (p : Position) (c : Char) :
    (p.advance c).offset = p.offset + c.utf8Size := by
  unfold advance; split <;> rfl

@[simp] theorem after_offset (p : Position) (text : List Char) :
    (p.after text).offset = p.offset + Text.byteLength text := by
  induction text generalizing p with
  | nil => simp
  | cons c text ih => simp [ih, Nat.add_assoc]

def describe (p : Position) : String := s!"{p.file}:{p.line}:{p.column}"

end Position

/-- The stretch of a script from `start` up to `stop`. -/
structure Span where
  start : Position
  stop : Position
deriving DecidableEq, Repr, Inhabited

def Span.empty (p : Position) : Span := ⟨p, p⟩

end CursorScript
