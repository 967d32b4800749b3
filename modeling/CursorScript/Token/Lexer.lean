import CursorScript.Error
import CursorScript.Token
import CursorScript.Token.Escape

/-!
From text to tokens. A script is cut into lexemes, each the first that one of the scanners finds
at the front of what is left; blanks and comments are dropped and the rest become tokens. Main
statement: a lexeme and what is left after it make up the text again, and no lexeme is empty.
-/
namespace CursorScript

/-- A stretch of text that belongs together; blanks and comments have no token kind. -/
structure Lexeme where
  kind : Option TokenKind
  text : List Char
deriving DecidableEq, Repr

namespace Lexeme

/-- Cuts a lexeme off the front of a text. -/
abbrev Scanner := List Char → Option (Lexeme × List Char)

/-- The longest run that starts with a `first` character and goes on with `next` ones. -/
def run? (first next : Char → Bool) : List Char → Option (List Char × List Char)
  | [] => none
  | c :: cs => if first c then some (c :: cs.takeWhile next, cs.dropWhile next) else none

def isDigit (c : Char) : Bool := '0' ≤ c && c ≤ '9'
def isNumeral (c : Char) : Bool := isDigit c || c == '_'
def isNameStart (c : Char) : Bool := c.isAlpha || c == '_'
def isNameChar (c : Char) : Bool := c.isAlphanum || c == '_'
def isPathChar (c : Char) : Bool := isNameChar c || c == '/' || c == '.'

/-- The body of a text up to its closing `quote`, and what follows the quote. A backslash takes the
next character with it, which may not be a newline. -/
def body? (quote : Char) : List Char → Option (List Char × List Char)
  | [] => none
  | c :: cs =>
    if c = quote then some ([], cs)
    else if c = '\\' then
      match cs with
      | [] => none
      | e :: rest =>
        if e = '\n' then none
        else (body? quote rest).map fun (inner, behind) => (c :: e :: inner, behind)
    else (body? quote cs).map fun (inner, behind) => (c :: inner, behind)

def blanks : Scanner := fun cs =>
  (run? Text.isBlank Text.isBlank cs).map fun (text, rest) => (⟨none, text⟩, rest)

def comment : Scanner
  | '/' :: '/' :: cs =>
    some (⟨none, '/' :: '/' :: cs.takeWhile (· != '\n')⟩, cs.dropWhile (· != '\n'))
  | _ => none

def real : Scanner := fun cs =>
  match run? isDigit isNumeral cs with
  | some (whole, '.' :: behind) =>
    (run? isDigit isNumeral behind).map fun (fraction, rest) =>
      (⟨some .real, whole ++ '.' :: fraction⟩, rest)
  | _ => none

def number : Scanner := fun cs =>
  (run? isDigit isNumeral cs).map fun (text, rest) => (⟨some .number, text⟩, rest)

def word : Scanner := fun cs =>
  (run? isNameStart isNameChar cs).map fun (text, rest) =>
    (⟨some (.ofWord (String.ofList text)), text⟩, rest)

def delimited (kind : TokenKind) (quote : Char) : Scanner
  | [] => none
  | c :: cs =>
    if c = quote then
      (body? quote cs).map fun (inner, rest) => (⟨some kind, c :: inner ++ [quote]⟩, rest)
    else none

/-- A hash sign and a name, which a colon and a path may follow. -/
def material : Scanner
  | '#' :: cs =>
    match run? isNameStart isNameChar cs with
    | none => none
    | some (name, ':' :: behind) =>
      match run? isNameStart isPathChar behind with
      | some (path, rest) => some (⟨some .material, '#' :: name ++ ':' :: path⟩, rest)
      | none => some (⟨some .material, '#' :: name⟩, ':' :: behind)
    | some (name, rest) => some (⟨some .material, '#' :: name⟩, rest)
  | _ => none

def fixed (text : List Char) (kind : TokenKind) : Scanner := fun cs =>
  if text ≠ [] ∧ text.isPrefixOf cs then some (⟨some kind, text⟩, cs.drop text.length) else none

def spelling : Scanner := fun cs =>
  TokenKind.spellings.findSome? fun (text, kind) => fixed text.toList kind cs

def scanners : List Scanner :=
  [blanks, comment, real, number, word, delimited .string '\x22', delimited .interpolation '\x60',
   material, spelling]

/-- The lexeme at the front of a text, and what is left after it. -/
def first? : Scanner := fun cs => scanners.findSome? (fun scan => scan cs)

/-- A scanner that loses nothing and takes something. -/
def Faithful (scan : Scanner) : Prop :=
  ∀ cs lexeme rest, scan cs = some (lexeme, rest) →
    lexeme.text ++ rest = cs ∧ lexeme.text ≠ []

theorem run?_append {first next : Char → Bool} {cs text rest : List Char}
    (h : run? first next cs = some (text, rest)) : text ++ rest = cs ∧ text ≠ [] := by
  cases cs with
  | nil => simp [run?] at h
  | cons c cs =>
    simp only [run?] at h
    split at h
    · cases h; simp [List.takeWhile_append_dropWhile]
    · cases h

theorem body?_append (quote : Char) (cs : List Char) :
    ∀ inner rest, body? quote cs = some (inner, rest) → inner ++ quote :: rest = cs := by
  fun_induction body? quote cs with
  | case1 => simp
  | case2 => simp
  | case3 => simp
  | case4 => simp
  | case5 e rest _ _ ih =>
    intro inner behind hb
    obtain ⟨⟨i, b⟩, hi, he⟩ := Option.map_eq_some_iff.1 hb
    cases he
    simp [ih _ _ hi]
  | case6 c cs _ _ ih =>
    intro inner behind hb
    obtain ⟨⟨i, b⟩, hi, he⟩ := Option.map_eq_some_iff.1 hb
    cases he
    simp [ih _ _ hi]

theorem faithful_run {first next : Char → Bool} (make : List Char → Lexeme)
    (text_make : ∀ text, (make text).text = text) :
    Faithful fun cs => (run? first next cs).map fun (text, rest) => (make text, rest) := by
  intro cs lexeme rest h
  obtain ⟨⟨text, behind⟩, hr, he⟩ := Option.map_eq_some_iff.1 h
  cases he
  simpa [text_make] using run?_append hr

theorem faithful_comment : Faithful comment := by
  intro cs lexeme rest h
  unfold comment at h
  split at h
  · cases h; simp [List.takeWhile_append_dropWhile]
  · cases h

theorem faithful_real : Faithful real := by
  intro cs lexeme rest h
  simp only [real] at h
  split at h
  · next whole behind hw =>
    obtain ⟨⟨fraction, r⟩, hf, he⟩ := Option.map_eq_some_iff.1 h
    cases he
    obtain ⟨rfl, -⟩ := run?_append hw
    obtain ⟨rfl, -⟩ := run?_append hf
    simp
  · cases h

theorem faithful_delimited (kind : TokenKind) (quote : Char) :
    Faithful (delimited kind quote) := by
  intro cs lexeme rest h
  unfold delimited at h
  split at h
  · cases h
  · split at h
    · next hq =>
      obtain ⟨⟨inner, r⟩, hb, he⟩ := Option.map_eq_some_iff.1 h
      cases he
      simp [← body?_append _ _ _ _ hb]
    · cases h

theorem faithful_material : Faithful material := by
  intro cs lexeme rest h
  unfold material at h
  split at h
  · split at h
    · cases h
    · next name behind hn =>
      obtain ⟨rfl, -⟩ := run?_append hn
      split at h
      · next path r hp =>
        obtain ⟨rfl, -⟩ := run?_append hp
        cases h; simp
      · cases h; simp
    · next name r _ hn =>
      obtain ⟨rfl, -⟩ := run?_append hn
      cases h; simp
  · cases h

theorem faithful_fixed (text : List Char) (kind : TokenKind) : Faithful (fixed text kind) := by
  intro cs lexeme rest h
  simp only [fixed] at h
  split at h
  · next hp =>
    cases h
    obtain ⟨tail, rfl⟩ := List.isPrefixOf_iff_prefix.1 hp.2
    exact ⟨by simp, hp.1⟩
  · cases h

theorem faithful_spelling : Faithful spelling := by
  intro cs lexeme rest h
  obtain ⟨⟨text, kind⟩, -, hf⟩ := List.exists_of_findSome?_eq_some h
  exact faithful_fixed _ _ cs lexeme rest hf

theorem faithful_first? : Faithful first? := by
  intro cs lexeme rest h
  obtain ⟨scan, hmem, hs⟩ := List.exists_of_findSome?_eq_some h
  simp only [scanners, List.mem_cons, List.not_mem_nil, or_false] at hmem
  rcases hmem with rfl | rfl | rfl | rfl | rfl | rfl | rfl | rfl | rfl
  · exact faithful_run (⟨none, ·⟩) (fun _ => rfl) cs lexeme rest hs
  · exact faithful_comment cs lexeme rest hs
  · exact faithful_real cs lexeme rest hs
  · exact faithful_run (⟨some .number, ·⟩) (fun _ => rfl) cs lexeme rest hs
  · exact faithful_run (fun text => ⟨some (.ofWord (String.ofList text)), text⟩) (fun _ => rfl)
      cs lexeme rest hs
  · exact faithful_delimited .string _ cs lexeme rest hs
  · exact faithful_delimited .interpolation _ cs lexeme rest hs
  · exact faithful_material cs lexeme rest hs
  · exact faithful_spelling cs lexeme rest hs

theorem length_first?_lt {cs : List Char} {lexeme : Lexeme} {rest : List Char}
    (h : first? cs = some (lexeme, rest)) : rest.length < cs.length := by
  obtain ⟨rfl, hne⟩ := faithful_first? _ _ _ h
  have := List.length_pos_iff.2 hne
  simp; omega

end Lexeme

namespace Token

/-- What stands between the first and the last character of a delimited text. -/
def inside (text : List Char) : List Char := (text.drop 1).dropLast

/-- The value of a token: a text loses its quotes and its escapes, an interpolation its quotes and
a material its sign. -/
def valueOf (kind : TokenKind) (text : List Char) (p : Position) : Except Error String :=
  match kind with
  | .string =>
    match Escape.unescape (inside text) with
    | .ok chars => .ok (String.ofList chars)
    | .error escape =>
      .error ⟨.unexpectedTokenDetailed escape "invalid escape sequence in string", p⟩
  | .interpolation => .ok (String.ofList (inside text))
  | .material => .ok (String.ofList (text.drop 1))
  | _ => .ok (String.ofList text)

def scan (p : Position) (cs : List Char) : Except Error (List Token) :=
  match cs with
  | [] => .ok [ending p]
  | c :: behind =>
    match _found : Lexeme.first? (c :: behind) with
    | none => .error ⟨.unrecognisedToken (String.singleton c), p⟩
    | some (⟨none, text⟩, rest) => scan (p.after text) rest
    | some (⟨some kind, text⟩, rest) => do
      let value ← valueOf kind text p
      let others ← scan (p.after text) rest
      return ⟨kind, value, ⟨p, p.after text⟩⟩ :: others
termination_by cs.length
decreasing_by
  · exact Lexeme.length_first?_lt _found
  · exact Lexeme.length_first?_lt _found

section equations
variable {c : Char} {behind text rest : List Char}

theorem scan_nil (p : Position) : scan p [] = .ok [ending p] := by
  unfold scan
  rfl

theorem scan_refused (p : Position) (found : Lexeme.first? (c :: behind) = none) :
    scan p (c :: behind) = .error ⟨.unrecognisedToken (String.singleton c), p⟩ := by
  unfold scan
  split <;> simp_all

theorem scan_skip (p : Position)
    (found : Lexeme.first? (c :: behind) = some (⟨none, text⟩, rest)) :
    scan p (c :: behind) = scan (p.after text) rest := by
  conv => lhs; unfold scan
  split <;> simp_all

theorem scan_token (p : Position) {kind : TokenKind}
    (found : Lexeme.first? (c :: behind) = some (⟨some kind, text⟩, rest)) :
    scan p (c :: behind) = (do
      let value ← valueOf kind text p
      let others ← scan (p.after text) rest
      return ⟨kind, value, ⟨p, p.after text⟩⟩ :: others) := by
  conv => lhs; unfold scan
  split <;> simp_all

end equations

def tokenize (source : String) (file : String) : Except Error (List Token) :=
  scan (Position.start file) source.toList

end Token

end CursorScript
