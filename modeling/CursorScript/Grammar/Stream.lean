import CursorScript.Error
import CursorScript.Tree

/-!
Reading tokens one after the other. A stream stands before a token, never goes past the closing
one, and hands out the identities of nodes in order.
-/
namespace CursorScript.Grammar

/-- The number of tokens and of characters in their values: no more nodes can be nested in them, as
each takes a token, or a character of an interpolated text. -/
def weight : List Token → Nat
  | [] => 0
  | token :: rest => token.value.length + 1 + weight rest

theorem weight_tail_le (tokens : List Token) : weight tokens.tail ≤ weight tokens := by
  cases tokens <;> simp [weight]

/-- A place among the tokens of a script. -/
structure Stream where
  /-- The tokens ahead, without the closing one. -/
  rest : List Token
  /-- The closing token. -/
  last : Token
  /-- Where the token taken last ends. -/
  finish : Position
  /-- The identity of the next node. -/
  nextId : Nat
  /-- More than can be nested or listed in what is ahead. -/
  limit : Nat
  weight_lt : weight rest < limit

namespace Stream

def current (s : Stream) : Token := s.rest.headD s.last

/-- The kind of the token after `n` others. -/
def peekKind (s : Stream) (n : Nat) : TokenKind := (s.rest.getD n s.last).kind

/-- The stream behind the token ahead; it stays before the closing one. -/
def advance (s : Stream) : Stream :=
  { s with
    rest := s.rest.tail
    finish := (s.rest.head?.map fun token => token.span.stop).getD s.finish
    weight_lt := Nat.lt_of_le_of_lt (weight_tail_le s.rest) s.weight_lt }

/-- A stream before the first of `tokens`; a closing token is added if there is none. -/
def ofTokens (tokens : List Token) (file : String) (nextId : Nat) : Stream :=
  let (rest, last) :=
    match tokens.getLast? with
    | none => ([], Token.ending (Position.start file))
    | some token =>
      if token.kind = .eof then (tokens.dropLast, token)
      else (tokens, Token.ending token.span.stop)
  ⟨rest, last, (rest.headD last).span.start, nextId, weight rest + 1, Nat.lt_succ_self _⟩

end Stream

/-- A reader of tokens. -/
abbrev Parse := StateT Stream (Except Error)

namespace Parse

def current : Parse Token := do return (← get).current

def kind : Parse TokenKind := do return (← get).current.kind

def place : Parse Position := do return (← get).current.span.start

def take : Parse Token := do
  let token ← current
  modify Stream.advance
  return token

/-- Fails at `p`. -/
def fail {α : Type} (cause : Cause) (p : Position) : Parse α := throw ⟨cause, p⟩

def unexpected {α : Type} : Parse α := do
  let token ← current
  fail (.unexpectedToken token.value) token.span.start

/-- Refuses the token ahead and says what was expected. -/
def unexpectedWith {α : Type} (message : String) : Parse α := do
  let token ← current
  fail (.unexpectedTokenDetailed token.value message) token.span.start

def expect (wanted : TokenKind) : Parse Token := do
  if (← kind) = wanted then take else unexpected

/-- Takes a token of the given kind, or says what was expected. -/
def expectWith (wanted : TokenKind) (message : String) : Parse Token := do
  if (← kind) = wanted then take else unexpectedWith message

def freshId : Parse Nat := do
  let c ← get
  set { c with nextId := c.nextId + 1 }
  return c.nextId

/-- The span from `start` to the end of the token taken last. -/
def spanFrom (start : Position) : Parse Span := do return ⟨start, (← get).finish⟩

/-- A fresh mark for the node that started at `start` and ends with the token taken last. -/
def markFrom (start : Position) : Parse Mark := do
  let id ← freshId
  return ⟨id, ← spanFrom start⟩

/-- Reads items until the token ahead is of the kind `close`. Each item sees the ones before it, the
latest first. `fuel` bounds their number. -/
def itemsUntil {α : Type} (close : TokenKind) (item : List α → Parse α) :
    (fuel : Nat) → (before : List α) → Parse (List α)
  | 0, _ => unexpected
  | fuel + 1, before => do
    if (← kind) = close then return before.reverse
    let next ← item before
    itemsUntil close item fuel (next :: before)

/-- Reads items until the token ahead is of the kind `close`; every item takes a token, so there
are no more items than tokens. -/
def itemsBefore {α : Type} (close : TokenKind) (item : List α → Parse α) : Parse (List α) := do
  itemsUntil close item (← get).limit []

/-- Takes a comma, unless the token ahead is of the kind `close`. -/
def separator (close : TokenKind) (message : String) : Parse Unit := do
  if (← kind) = close then return ()
  let _ ← expectWith .comma message

end Parse

end CursorScript.Grammar
