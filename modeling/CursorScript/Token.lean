import CursorScript.Position

/-!
Tokens: what a script consists of once blanks and comments are gone.
-/
namespace CursorScript

inductive TokenKind where
  | eof
  | number
  | real
  | string
  | interpolation
  | material
  | identifier
  | openBracket
  | closeBracket
  | openCurly
  | closeCurly
  | openParen
  | closeParen
  | assignment
  | equals
  | notEquals
  | less
  | lessEquals
  | greater
  | greaterEquals
  | semicolon
  | colon
  | comma
  | arrow
  | pipe
  | caret
  | plusEquals
  | minusEquals
  | starEquals
  | slashEquals
  | percentEquals
  | plus
  | dash
  | slash
  | star
  | percent
  | wordVar
  | wordFunction
  | wordNative
  | wordReturn
  | wordIf
  | wordElse
  | wordWhile
  | wordRepeat
  | wordBreak
  | wordContinue
  | wordAnd
  | wordOr
  | wordNot
  | wordTrue
  | wordFalse
deriving DecidableEq, Repr

namespace TokenKind

def names : List (TokenKind × String) :=
  [(eof, "EOF"), (number, "Number"), (real, "Real"), (string, "String"),
   (interpolation, "Interpolation"), (material, "Material"), (identifier, "Identifier"),
   (openBracket, "OpenBracket"), (closeBracket, "CloseBracket"), (openCurly, "OpenCurly"),
   (closeCurly, "CloseCurly"), (openParen, "OpenParen"), (closeParen, "CloseParen"),
   (assignment, "Assignment"), (equals, "Equals"), (notEquals, "NotEquals"), (less, "Less"),
   (lessEquals, "LessEquals"), (greater, "Greater"), (greaterEquals, "GreaterEquals"),
   (semicolon, "Semicolon"), (colon, "Colon"), (comma, "Comma"), (arrow, "Arrow"),
   (pipe, "Pipe"), (caret, "Caret"), (plusEquals, "PlusEquals"), (minusEquals, "MinusEquals"),
   (starEquals, "StarEquals"), (slashEquals, "SlashEquals"), (percentEquals, "PercentEquals"),
   (plus, "Plus"), (dash, "Dash"), (slash, "Slash"), (star, "Star"), (percent, "Percent"),
   (wordVar, "Var"), (wordFunction, "Function"), (wordNative, "Native"), (wordReturn, "Return"),
   (wordIf, "If"), (wordElse, "Else"), (wordWhile, "While"),
   (wordRepeat, "Repeat"), (wordBreak, "Break"), (wordContinue, "Continue"),
   (wordAnd, "And"), (wordOr, "Or"), (wordNot, "Not"), (wordTrue, "True"), (wordFalse, "False")]

def name (kind : TokenKind) : String := (names.lookup kind).getD ""

def ofName? (name : String) : Option TokenKind :=
  (names.find? (fun entry => entry.2 == name)).map Prod.fst

def reserved : List (String × TokenKind) :=
  [("var", wordVar), ("function", wordFunction), ("native", wordNative), ("return", wordReturn),
   ("if", wordIf), ("else", wordElse), ("while", wordWhile),
   ("repeat", wordRepeat), ("break", wordBreak), ("continue", wordContinue),
   ("and", wordAnd), ("or", wordOr), ("not", wordNot), ("true", wordTrue), ("false", wordFalse)]

def ofWord (word : String) : TokenKind := (reserved.lookup word).getD identifier

/-- Tokens with one spelling, in the order in which they are tried: no spelling stands behind one
that it begins with. -/
def spellings : List (String × TokenKind) :=
  [("[", openBracket), ("]", closeBracket), ("\x7b", openCurly), ("\x7d", closeCurly),
   ("(", openParen), (")", closeParen), ("==", equals), ("!=", notEquals), ("=", assignment),
   ("<=", lessEquals), ("<", less), (">=", greaterEquals), (">", greater), ("->", arrow),
   (";", semicolon), (":", colon), (",", comma), ("|", pipe), ("^", caret), ("+=", plusEquals),
   ("-=", minusEquals), ("*=", starEquals), ("/=", slashEquals), ("%=", percentEquals),
   ("+", plus), ("-", dash), ("/", slash), ("*", star), ("%", percent)]

def isCompoundAssignment : TokenKind → Bool
  | plusEquals => true
  | minusEquals => true
  | starEquals => true
  | slashEquals => true
  | percentEquals => true
  | _ => false

def symbol : TokenKind → String
  | assignment => "="
  | equals => "=="
  | notEquals => "!="
  | less => "<"
  | lessEquals => "<="
  | greater => ">"
  | greaterEquals => ">="
  | plusEquals => "+="
  | minusEquals => "-="
  | starEquals => "*="
  | slashEquals => "/="
  | percentEquals => "%="
  | plus => "+"
  | dash => "-"
  | slash => "/"
  | star => "*"
  | percent => "%"
  | caret => "^"
  | openBracket => "[]"
  | wordAnd => "and"
  | wordOr => "or"
  | wordNot => "not"
  | _ => "?"

end TokenKind

/-- A token: its kind, its text after escapes, and where it stands. -/
structure Token where
  kind : TokenKind
  value : String
  span : Span
deriving DecidableEq, Repr

def Token.ending (p : Position) : Token := ⟨.eof, "EOF", Span.empty p⟩

end CursorScript
