import CursorScript.Position

/-!
Interpolated texts: characters with expressions between braces. A brace is closed by the brace
that matches it, texts between double quotes apart; a backslash takes the next character with it.
-/
namespace CursorScript.Grammar

structure BraceSearch where
  /-- Braces opened and not yet closed. -/
  depth : Nat
  inText : Bool
  escaped : Bool

def BraceSearch.start : BraceSearch := ⟨0, false, false⟩

/-- The state after `c`, if `c` is not the closing brace. -/
def BraceSearch.step (s : BraceSearch) (c : Char) : Option BraceSearch :=
  if s.inText then
    if s.escaped then some { s with escaped := false }
    else if c = '\\' then some { s with escaped := true }
    else if c = '\x22' then some { s with inText := false }
    else some s
  else if c = '\x22' then some { s with inText := true }
  else if c = '\x7b' then some { s with depth := s.depth + 1 }
  else if c = '\x7d' then
    if s.depth = 0 then none else some { s with depth := s.depth - 1 }
  else some s

def closeBrace? (s : BraceSearch) : List Char → Option (List Char × List Char)
  | [] => none
  | c :: cs =>
    match s.step c with
    | none => some ([], cs)
    | some s => (closeBrace? s cs).map fun (inner, behind) => (c :: inner, behind)

theorem length_closeBrace?_lt {cs inner behind : List Char} (s : BraceSearch)
    (h : closeBrace? s cs = some (inner, behind)) : inner.length + behind.length < cs.length := by
  induction cs generalizing s inner behind with
  | nil => simp [closeBrace?] at h
  | cons c cs ih =>
    simp only [closeBrace?] at h
    split at h
    · cases h; simp
    · obtain ⟨⟨i, b⟩, hb, he⟩ := Option.map_eq_some_iff.1 h
      cases he
      have := ih _ hb
      simp; omega

inductive Piece where
  /-- Characters, escapes included. -/
  | chars (raw : List Char)
  /-- The text between two braces, and where it starts. -/
  | code (source : List Char) (start : Position)
  /-- A brace that is not closed, with all that follows it, and where it stands. -/
  | unclosed (raw : List Char) (start : Position)
deriving DecidableEq, Repr

/-- The characters read so far, the latest first, as a piece, if there are any. -/
def Piece.ofChars (before : List Char) : List Piece :=
  if before = [] then [] else [.chars before.reverse]

/-- Cuts a text that starts at `p` into pieces; `before` are the characters read since the last
piece, the latest first. Nothing is said about characters before a brace that is not closed. -/
def pieces (p : Position) (before : List Char) (raw : List Char) : List Piece :=
  match raw with
  | [] => Piece.ofChars before
  | c :: cs =>
    if c = '\\' then
      match cs with
      | [] => Piece.ofChars (c :: before)
      | e :: rest => pieces ((p.advance c).advance e) (e :: c :: before) rest
    else if c = '\x7b' then
      match _closed : closeBrace? .start cs with
      | none => [.unclosed (c :: cs) p]
      | some (inner, behind) =>
        let start := p.advance c
        Piece.ofChars before ++
          .code inner start :: pieces ((start.after inner).advance '\x7d') [] behind
    else pieces (p.advance c) (c :: before) cs
termination_by raw.length
decreasing_by
  · simp only [List.length_cons]; omega
  · have := length_closeBrace?_lt _ _closed
    simp only [List.length_cons]; omega
  · simp only [List.length_cons]; omega

end CursorScript.Grammar
