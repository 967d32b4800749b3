import CursorScript.Decimal.Read
import CursorScript.Grammar.Stream
import CursorScript.Grammar.Interpolation
import CursorScript.Text.Search
import CursorScript.Token.Lexer

/-!
Expressions, by operator precedence. Each form is read by a function of its own that is given how
the expressions inside it are read; `exprWithin` ties the knot.
-/
namespace CursorScript.Grammar
open Parse

inductive Power where
  | loosest
  | disjunction
  | conjunction
  | relational
  | additive
  | multiplicative
  | power
  | unary
  | call
deriving DecidableEq, Repr

def Power.rank : Power → Nat
  | loosest => 0
  | disjunction => 1
  | conjunction => 2
  | relational => 3
  | additive => 4
  | multiplicative => 5
  | power => 6
  | unary => 7
  | call => 8

/-- How tightly a token binds the expression before it; tokens that continue no expression bind
it loosest. -/
def Power.ofToken : TokenKind → Power
  | .wordOr => disjunction
  | .wordAnd => conjunction
  | .less => relational
  | .lessEquals => relational
  | .greater => relational
  | .greaterEquals => relational
  | .equals => relational
  | .notEquals => relational
  | .plus => additive
  | .dash => additive
  | .star => multiplicative
  | .slash => multiplicative
  | .percent => multiplicative
  | .caret => power
  | .openParen => call
  | .openBracket => call
  | _ => loosest

/-- How tightly the right operand of a binary operator has to bind: powers group to the right, all
else to the left. -/
def Power.ofRight (kind : TokenKind) : Power :=
  if kind = .caret then multiplicative else ofToken kind

/-- A reader of expressions that bind tighter than a given power. -/
abbrev ExprReader := Power → Parse Expr

def digitsOf (text : String) : List Char := text.toList.filter (· != '_')

def atom : Parse Expr := do
  let token ← current
  let mark : Mark := ⟨← freshId, token.span⟩
  let expr : Expr ←
    match token.kind with
    | .number =>
      match Decimal.readNat? (digitsOf token.value) with
      | some value => pure (.number mark value)
      | none => fail (.numberParseError token.value) token.span.start
    | .real =>
      match Decimal.readReal? (digitsOf token.value) with
      | some value => pure (.real mark value)
      | none => fail (.numberParseError token.value) token.span.start
    | .string => pure (.string mark token.value)
    | .wordTrue => pure (.logic mark true)
    | .wordFalse => pure (.logic mark false)
    | .material =>
      match Text.splitOnce? ':' token.value.toList with
      | none => pure (.material mark none token.value)
      | some (space, name) =>
        pure (.material mark (some (String.ofList space)) (String.ofList name))
    | .identifier => pure (.symbol ⟨mark, token.value, 0⟩)
    | _ => unexpected
  let _ ← take
  return expr

/-- Carets, one for each scope to skip, and a name. -/
def scopedSymbol : Parse Symbol := do
  let start ← place
  let up := ((← get).rest.takeWhile (fun token => token.kind = .caret)).length
  modify (Nat.repeat Stream.advance up)
  let name ← expectWith .identifier "expected a variable name"
  return ⟨← markFrom start, name.value, up⟩

/-- A minus sign or `not` before an operand. -/
def unaryExpr (expr : ExprReader) : Parse Expr := do
  let operator ← take
  let operand ← expr .unary
  return .unary ⟨← freshId, ⟨operator.span.start, operand.mark.span.stop⟩⟩ operator operand

/-- An expression in parentheses, which leave no trace. -/
def grouping (expr : ExprReader) : Parse Expr := do
  let _ ← take
  let inner ← expr .loosest
  let _ ← expectWith .closeParen "expected `)` to close the group"
  return inner

/-- Expressions between commas up to and with `close`; a comma may stand behind the last. -/
def exprList (expr : ExprReader) (close : TokenKind) : Parse (List Expr) := do
  let items ← itemsBefore close fun _ => do
    let item ← expr .loosest
    separator close "expected `,` between items"
    return item
  let _ ← expect close
  return items

/-- `[element, …]`. -/
def listExpr (expr : ExprReader) : Parse Expr := do
  let start := (← take).span.start
  let elements ← exprList expr .closeBracket
  return .list (← markFrom start) elements

def mapEntry (expr : ExprReader) : Parse (Expr × Expr) := do
  let key ← expr .loosest
  let _ ← expectWith .colon "expected `:` between map key and value"
  let value ← expr .loosest
  separator .closeCurly "expected `,` between map entries"
  return (key, value)

/-- A brace, entries `key: value` and a brace. -/
def mapExpr (expr : ExprReader) : Parse Expr := do
  let start := (← take).span.start
  let entries ← itemsBefore .closeCurly fun _ => mapEntry expr
  let _ ← expect .closeCurly
  return .map (← markFrom start) entries

/-- `<member>`. -/
def memberExpr : Parse Expr := do
  let start := (← take).span.start
  let member ← expectWith .identifier "expected an enum member"
  let _ ← expectWith .greater "expected `>` after enum member"
  return .member (← markFrom start) member.value

/-- Reads an expression that is a fragment of a text, and all of it; identities go on from those
of the enclosing script. -/
def fragment (expr : ExprReader) (source : List Char) (start : Position) : Parse Expr := do
  let outer ← get
  let tokens ← StateT.lift (Token.scan start source)
  set (Stream.ofTokens tokens start.file outer.nextId)
  let inner ← expr .loosest
  if (← kind) ≠ .eof then unexpectedWith "expected `\x7d` after embedded expression"
  set { outer with nextId := (← get).nextId }
  return inner

/-- The pieces of an interpolated text whose token starts at `start`. -/
def interpolationParts (expr : ExprReader) (start : Position) :
    List Piece → Parse (List (Part Expr))
  | [] => return []
  | .chars raw :: rest => do
    match Escape.unescape raw with
    | .ok chars =>
      let others ← interpolationParts expr start rest
      return .text (String.ofList chars) :: others
    | .error escape =>
      fail (.unexpectedTokenDetailed escape "invalid escape sequence in string") start
  | .code source place :: rest => do
    let inner ← fragment expr source place
    let others ← interpolationParts expr start rest
    return .embed inner :: others
  | .unclosed raw place :: _ =>
    fail (.unexpectedTokenDetailed (String.ofList raw) "unterminated `\x7b` in interpolated string")
      place

def interpolation (expr : ExprReader) : Parse Expr := do
  let token ← take
  let start := token.span.start
  let inside := start.advance '\x60'
  let parts ← interpolationParts expr start (pieces inside [] token.value.toList)
  return .interpolation ⟨← freshId, token.span⟩ parts

def operand (expr : ExprReader) : Parse Expr := do
  match ← kind with
  | .number | .real | .string | .wordTrue | .wordFalse | .material | .identifier => atom
  | .caret => return .symbol (← scopedSymbol)
  | .interpolation => interpolation expr
  | .less => memberExpr
  | .openBracket => listExpr expr
  | .openCurly => mapExpr expr
  | .dash | .wordNot => unaryExpr expr
  | .openParen => grouping expr
  | _ => unexpected

/-- `left` as the callee of the arguments in parentheses. -/
def callExpr (expr : ExprReader) (left : Expr) : Parse Expr := do
  match left with
  | .symbol ⟨mark, name, 0⟩ =>
    let _ ← take
    let arguments ← exprList expr .closeParen
    return .call (← markFrom mark.start) name arguments
  | _ => unexpectedWith "only named functions can be called"

/-- `left` as the collection of the index in brackets. -/
def indexExpr (expr : ExprReader) (left : Expr) : Parse Expr := do
  let _ ← take
  let index ← expr .loosest
  let _ ← expectWith .closeBracket "expected `]` after index"
  return .index (← markFrom left.start) left index

/-- `left` as the left operand of the operator ahead. -/
def binaryExpr (expr : ExprReader) (left : Expr) : Parse Expr := do
  let operator ← take
  let right ← expr (.ofRight operator.kind)
  return .binary ⟨← freshId, ⟨left.start, right.mark.span.stop⟩⟩ left operator right

/-- `left` continued by the token ahead. -/
def continuation (expr : ExprReader) (left : Expr) : Parse Expr := do
  match ← kind with
  | .openParen => callExpr expr left
  | .openBracket => indexExpr expr left
  | _ => binaryExpr expr left

/-- Continues `left` as long as the token ahead binds tighter than `outer`; `fuel` bounds the
number of continuations. -/
def climb (expr : ExprReader) (outer : Power) : (fuel : Nat) → (left : Expr) → Parse Expr
  | 0, _ => unexpected
  | fuel + 1, left => do
    if (Power.ofToken (← kind)).rank ≤ outer.rank then return left
    climb expr outer fuel (← continuation expr left)

/-- An expression in which others are nested at most `fuel` deep. -/
def exprWithin : (fuel : Nat) → ExprReader
  | 0, _ => unexpected
  | fuel + 1, outer => do
    let left ← operand (exprWithin fuel)
    climb (exprWithin fuel) outer (← get).limit left

end CursorScript.Grammar
