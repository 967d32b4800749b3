import CursorScript.Decimal.Whole
import CursorScript.Grammar.Stmt
import CursorScript.Proofs.Identities
import CursorScript.Proofs.Unplaced

/-!
Trees written as words. An operand is put in parentheses exactly if its outermost operator does not
bind tightly enough for its place; a lone expression is put in parentheses unless it is a call.
`Printable` says of which trees the words can be read again.
-/
namespace CursorScript

/-- A token without its place. -/
abbrev Word := TokenKind × String

def TokenKind.spelled (kind : TokenKind) : Word :=
  (kind, (((spellings ++ reserved).find? fun entry => entry.2 == kind).map Prod.fst).getD "")

@[simp] theorem TokenKind.fst_spelled (kind : TokenKind) : kind.spelled.1 = kind := rfl

def TokenKind.tightness : TokenKind → Nat
  | wordOr => 1
  | wordAnd => 2
  | less | lessEquals | greater | greaterEquals | equals | notEquals => 3
  | plus | dash => 4
  | star | slash | percent => 5
  | caret => 6
  | _ => 0

/-- How tightly the left operand of an operator has to bind; powers group to the right. -/
def TokenKind.leastLeft (kind : TokenKind) : Nat :=
  if kind = .caret then kind.tightness + 1 else kind.tightness

/-- How tightly the right operand of an operator has to bind; all but powers group to the left. -/
def TokenKind.leastRight (kind : TokenKind) : Nat :=
  if kind = .caret then kind.tightness else kind.tightness + 1

/-- How tightly `-` and `not` bind the operand behind them. -/
def unaryTightness : Nat := 7

/-- How tightly calls and indices bind, and all that has no operator. -/
def callTightness : Nat := 8

def Expr.tightness : Expr → Nat
  | .binary _ _ operator _ => operator.kind.tightness
  | .unary .. => unaryTightness
  | _ => callTightness

def between (left right : TokenKind) (words : List Word) : List Word :=
  left.spelled :: words ++ [right.spelled]

/-- The words of an operand: in parentheses if it does not bind as tightly as it has to. -/
def fitted (least tightness : Nat) (words : List Word) : List Word :=
  if tightness < least then between .openParen .closeParen words else words

def commas : List (List Word) → List Word
  | [] => []
  | [words] => words
  | words :: next :: rest => words ++ TokenKind.comma.spelled :: commas (next :: rest)

def Ty.print : Ty → List Word
  | .simple kind => [(.identifier, kind.name)]
  | .list element => between .openBracket .closeBracket element.print
  | .map key value =>
    between .pipe .pipe (key.print ++ TokenKind.arrow.spelled :: value.print)
  | .literal members =>
    between .less .greater (commas (members.names.map fun name => [(.identifier, name)]))
  | .emptyList => []
  | .emptyMap => []

def Symbol.print (s : Symbol) : List Word :=
  List.replicate s.up TokenKind.caret.spelled ++ [(.identifier, s.name)]

section
variable (write : Float → String)

mutual

def Expr.print : Expr → List Word
  | .number _ value => [(.number, Decimal.writeNat value)]
  | .real _ value => [(.real, write value)]
  | .logic _ true => [TokenKind.wordTrue.spelled]
  | .logic _ false => [TokenKind.wordFalse.spelled]
  | .string _ value => [(.string, value)]
  | .interpolation .. => []
  | .material _ none name => [(.material, name)]
  | .material _ (some space) name => [(.material, space ++ ":" ++ name)]
  | .member _ name => between .less .greater [(.identifier, name)]
  | .symbol s => s.print
  | .binary _ left operator right =>
    fitted operator.kind.leastLeft left.tightness left.print ++
      operator.word :: fitted operator.kind.leastRight right.tightness right.print
  | .unary _ operator operand =>
    operator.word :: fitted unaryTightness operand.tightness operand.print
  | .index _ collection place =>
    fitted callTightness collection.tightness collection.print ++
      between .openBracket .closeBracket place.print
  | .call _ callee arguments =>
    (.identifier, callee) :: between .openParen .closeParen (commas (printAll arguments))
  | .list _ elements => between .openBracket .closeBracket (commas (printAll elements))
  | .map _ entries => between .openCurly .closeCurly (commas (printEntries entries))

def Expr.printAll : List Expr → List (List Word)
  | [] => []
  | e :: rest => e.print :: printAll rest

def Expr.printEntries : List (Expr × Expr) → List (List Word)
  | [] => []
  | (key, value) :: rest =>
    (key.print ++ TokenKind.colon.spelled :: value.print) :: printEntries rest

end

/-- The words of a lone expression: a call as it is, all else in parentheses. -/
def Expr.printLone : Expr → List Word
  | .call mark callee arguments => (Expr.call mark callee arguments).print write
  | e => between .openParen .closeParen (e.print write)

def Parameter.print (p : Parameter) : List Word :=
  (.identifier, p.name) :: TokenKind.colon.spelled :: p.type.print

def printReturns : Option Ty → List Word
  | some type => TokenKind.colon.spelled :: type.print
  | none => []

/-- The words of a function's head behind its name. -/
def printSignature (parameters : List Parameter) (returns : Option Ty) : List Word :=
  between .openParen .closeParen (commas (parameters.map Parameter.print)) ++ printReturns returns

mutual

def Stmt.print : Stmt → List Word
  | .block ⟨_, body⟩ => between .openCurly .closeCurly (printAll body)
  | .expression _ e => e.printLone write ++ [TokenKind.semicolon.spelled]
  | .declare _ name type value =>
    TokenKind.wordVar.spelled :: (.identifier, name) :: TokenKind.colon.spelled ::
      (type.print ++ TokenKind.assignment.spelled ::
        (value.print write ++ [TokenKind.semicolon.spelled]))
  | .assign _ target operator value =>
    target.print ++ operator.word :: (value.print write ++ [TokenKind.semicolon.spelled])
  | .branch _ condition ⟨_, body⟩ other =>
    TokenKind.wordIf.spelled :: (condition.print write ++
      (between .openCurly .closeCurly (printAll body) ++ printOther other))
  | .whileLoop _ condition ⟨_, body⟩ =>
    TokenKind.wordWhile.spelled :: (condition.print write ++
      between .openCurly .closeCurly (printAll body))
  | .repeatLoop _ count ⟨_, body⟩ =>
    TokenKind.wordRepeat.spelled :: (count.print write ++
      between .openCurly .closeCurly (printAll body))
  | .function ⟨_, name, parameters, returns, ⟨_, body⟩⟩ =>
    TokenKind.wordFunction.spelled :: (.identifier, name) ::
      (printSignature parameters returns ++ between .openCurly .closeCurly (printAll body))
  | .ret _ none => [TokenKind.wordReturn.spelled, TokenKind.semicolon.spelled]
  | .ret _ (some value) =>
    TokenKind.wordReturn.spelled :: (value.print write ++ [TokenKind.semicolon.spelled])
  | .brk _ => [TokenKind.wordBreak.spelled, TokenKind.semicolon.spelled]
  | .cont _ => [TokenKind.wordContinue.spelled, TokenKind.semicolon.spelled]

def Stmt.printOther : Option Stmt → List Word
  | none => []
  | some s => TokenKind.wordElse.spelled :: s.print

def Stmt.printAll : List Stmt → List Word
  | [] => []
  | s :: rest => s.print ++ printAll rest

end

def Program.print (p : Program) : List Word :=
  Stmt.printAll write p.body ++ [(Token.ending .unknown).word]

/-- Whether there are words for a type: all parts have names, and each literal type has a member. -/
def Ty.Printable : Ty → Prop
  | .simple _ => True
  | .list element => element.Printable
  | .map key value => key.Printable ∧ value.Printable
  | .literal members => members.names ≠ []
  | .emptyList => False
  | .emptyMap => False

mutual

/-- Whether there are words for an expression: no text with expressions in it, reals that are read
back from what `write` makes of them, colons in materials only where a colon is written, and
operators in their places. -/
def Expr.Printable : Expr → Prop
  | .number .. => True
  | .real _ value => Decimal.readReal? (Grammar.digitsOf (write value)) = some value
  | .logic .. => True
  | .string .. => True
  | .interpolation .. => False
  | .material _ none name => ':' ∉ name.toList
  | .material _ (some space) _ => ':' ∉ space.toList
  | .member .. => True
  | .symbol _ => True
  | .binary _ left operator right =>
    0 < operator.kind.tightness ∧ left.Printable ∧ right.Printable
  | .unary _ operator operand =>
    (operator.kind = .dash ∨ operator.kind = .wordNot) ∧ operand.Printable
  | .index _ collection place => collection.Printable ∧ place.Printable
  | .call _ _ arguments => AllPrintable arguments
  | .list _ elements => AllPrintable elements
  | .map _ entries => EntriesPrintable entries

def Expr.AllPrintable : List Expr → Prop
  | [] => True
  | e :: rest => e.Printable ∧ AllPrintable rest

def Expr.EntriesPrintable : List (Expr × Expr) → Prop
  | [] => True
  | (key, value) :: rest => key.Printable ∧ value.Printable ∧ EntriesPrintable rest

end

mutual

/-- Whether there are words for a statement: behind `else` stands a block or a conditional,
parameters have names of their own, and values are assigned by an operator for it. -/
def Stmt.Printable : Stmt → Prop
  | .block ⟨_, body⟩ => AllPrintable body
  | .expression _ e => e.Printable write
  | .declare _ _ type value => type.Printable ∧ value.Printable write
  | .assign _ _ operator value =>
    (operator.kind = .assignment ∨ operator.kind.isCompoundAssignment = true) ∧
      value.Printable write
  | .branch _ condition ⟨_, body⟩ other =>
    condition.Printable write ∧ AllPrintable body ∧ OtherPrintable other
  | .whileLoop _ condition ⟨_, body⟩ => condition.Printable write ∧ AllPrintable body
  | .repeatLoop _ count ⟨_, body⟩ => count.Printable write ∧ AllPrintable body
  | .function ⟨_, _, parameters, returns, ⟨_, body⟩⟩ =>
    (parameters.map Parameter.name).Nodup ∧ (∀ p ∈ parameters, p.type.Printable) ∧
      (∀ type ∈ returns, type.Printable) ∧ AllPrintable body
  | .ret _ value => ∀ e ∈ value, e.Printable write
  | .brk _ => True
  | .cont _ => True

def Stmt.OtherPrintable : Option Stmt → Prop
  | none => True
  | some s => s.followsElse = true ∧ s.Printable

def Stmt.AllPrintable : List Stmt → Prop
  | [] => True
  | s :: rest => s.Printable ∧ AllPrintable rest

end

/-- Whether there are words for a script. -/
def Program.Printable (p : Program) : Prop := Stmt.AllPrintable write p.body

@[simp] theorem between_append (left right : TokenKind) (words more : List Word) :
    between left right words ++ more = left.spelled :: (words ++ right.spelled :: more) := by
  simp [between]

@[simp] theorem Expr.printAll_eq (es : List Expr) : printAll write es = es.map (print write) := by
  induction es with
  | nil => rfl
  | cons e rest ih => simp [printAll, ih]

@[simp] theorem Expr.printEntries_eq (entries : List (Expr × Expr)) :
    printEntries write entries = entries.map fun entry =>
      entry.1.print write ++ TokenKind.colon.spelled :: entry.2.print write := by
  induction entries with
  | nil => rfl
  | cons entry rest ih => simp [printEntries, ih]

theorem Expr.allPrintable_iff {es : List Expr} :
    AllPrintable write es ↔ ∀ e ∈ es, e.Printable write := by
  induction es with
  | nil => simp [AllPrintable]
  | cons e rest ih => simp [AllPrintable, ih]

theorem Expr.entriesPrintable_iff {entries : List (Expr × Expr)} :
    EntriesPrintable write entries ↔
      ∀ entry ∈ entries, entry.1.Printable write ∧ entry.2.Printable write := by
  induction entries with
  | nil => simp [EntriesPrintable]
  | cons entry rest ih => simp [EntriesPrintable, ih, and_assoc]

def TokenKind.startsExpr (kind : TokenKind) : Prop :=
  kind ∈ [number, real, string, wordTrue, wordFalse, material, identifier, caret, less, openBracket,
    openCurly, dash, wordNot, openParen]

theorem startsExpr_fitted {words : List Word} (least tightness : Nat)
    (h : ∃ word rest, words = word :: rest ∧ word.1.startsExpr) :
    ∃ word rest, fitted least tightness words = word :: rest ∧ word.1.startsExpr := by
  unfold fitted
  split
  · exact ⟨_, _, rfl, by simp [TokenKind.startsExpr]⟩
  · exact h

theorem Symbol.startsExpr_print (s : Symbol) :
    ∃ word rest, s.print = word :: rest ∧ word.1.startsExpr := by
  obtain ⟨mark, name, up⟩ := s
  cases up with
  | zero => exact ⟨_, _, rfl, by simp [TokenKind.startsExpr]⟩
  | succ up => exact ⟨_, _, rfl, by simp [TokenKind.startsExpr]⟩

/-- The words of an expression start with one that starts expressions. -/
theorem Expr.startsExpr_print : ∀ e : Expr, e.Printable write →
    ∃ word rest, e.print write = word :: rest ∧ word.1.startsExpr
  | .number .., _ => ⟨_, _, rfl, by simp [TokenKind.startsExpr]⟩
  | .real .., _ => ⟨_, _, rfl, by simp [TokenKind.startsExpr]⟩
  | .logic _ true, _ => ⟨_, _, rfl, by simp [TokenKind.startsExpr]⟩
  | .logic _ false, _ => ⟨_, _, rfl, by simp [TokenKind.startsExpr]⟩
  | .string .., _ => ⟨_, _, rfl, by simp [TokenKind.startsExpr]⟩
  | .material _ none _, _ => ⟨_, _, rfl, by simp [TokenKind.startsExpr]⟩
  | .material _ (some _) _, _ => ⟨_, _, rfl, by simp [TokenKind.startsExpr]⟩
  | .member .., _ => ⟨_, _, rfl, by simp [TokenKind.startsExpr]⟩
  | .symbol s, _ => s.startsExpr_print
  | .binary _ left operator _, h => by
    obtain ⟨word, rest, first, starts⟩ :=
      startsExpr_fitted operator.kind.leastLeft left.tightness (startsExpr_print left h.2.1)
    exact ⟨word, _, by rw [print, first]; rfl, starts⟩
  | .unary _ operator operand, h => by
    refine ⟨_, _, rfl, ?_⟩
    rcases h.1 with kind | kind <;> simp [TokenKind.startsExpr, Token.word, kind]
  | .index _ collection _, h => by
    obtain ⟨word, rest, first, starts⟩ :=
      startsExpr_fitted callTightness collection.tightness (startsExpr_print collection h.1)
    exact ⟨word, _, by rw [print, first]; rfl, starts⟩
  | .call .., _ => ⟨_, _, rfl, by simp [TokenKind.startsExpr]⟩
  | .list .., _ => ⟨_, _, rfl, by simp [TokenKind.startsExpr]⟩
  | .map .., _ => ⟨_, _, rfl, by simp [TokenKind.startsExpr]⟩

end

end CursorScript
