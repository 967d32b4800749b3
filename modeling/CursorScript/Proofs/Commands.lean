import CursorScript.Proofs.Rereading
import Mathlib.Data.List.Forall2

/-!
Calls as commands. A call that stands as a statement may be written without its parentheses. The
statement is then read by a loop of its own, which never sees the name as an operand; both ways of
writing still give the same call, as a first argument that is no group cannot continue a name in
either of them.
-/
namespace CursorScript
open Grammar

abbrev argumentWords (arguments : List (List Token)) : List Word :=
  commas (arguments.map fun tokens => tokens.map Token.word)

def commandWords (name : String) (arguments : List (List Token)) : List Word :=
  (.identifier, name) :: (argumentWords arguments ++ [TokenKind.semicolon.spelled])

def callWords (name : String) (arguments : List (List Token)) : List Word :=
  (.identifier, name) ::
    (between .openParen .closeParen (argumentWords arguments) ++ [TokenKind.semicolon.spelled])

def TokenKind.Opens (kind : TokenKind) : Prop := kind.startsExpr ∨ kind = .interpolation

namespace Grammar

theorem refuses_operand {expr : ExprReader} {words : List Word} (h : ¬(headKind words).Opens) :
    Refuses words (operand expr) := by
  refine refuses_kind ?_
  revert h
  cases headKind words <;> intro h
  all_goals first
    | exact refuses_unexpected
    | exact absurd (by simp [TokenKind.Opens, TokenKind.startsExpr]) h

theorem opens_of_isRead {tokens : List Token} {e : Expr} (h : e.IsRead tokens) :
    ∃ token rest, tokens = token :: rest ∧ token.kind.Opens := by
  obtain ⟨s, t, rfl, last, read, _⟩ := h
  have faces : s.Faces (s.rest.map Token.word) := ⟨rfl, last⟩
  have opened : (headKind (s.rest.map Token.word)).Opens := by
    by_contra closed
    cases enough : s.limit with
    | zero => exact absurd s.weight_lt (by omega)
    | succ fuel =>
      rw [enough] at read
      exact (refuses_operand closed).bind s e t faces read
  cases rest : s.rest with
  | nil =>
    rw [rest] at opened
    simp [headKind, TokenKind.Opens, TokenKind.startsExpr] at opened
  | cons token others =>
    rw [rest] at opened
    exact ⟨token, others, rfl, opened⟩

section
variable {arguments : List (List Token)} {es : List Expr} {close : TokenKind} {fuel : Nat}
  {more : List Word}

theorem load_commaTail (rest : List (List Word)) : load (commas rest) ≤ load (commaTail rest) := by
  cases rest with
  | nil => exact Nat.le_refl _
  | cons words rest => exact Nat.le_of_lt (load_lt_cons _ _)

theorem closes_arguments (h : close = .semicolon ∨ close = .closeParen) :
    ¬close.Opens ∧ close ≠ .comma ∧ (Power.ofToken close).rank = 0 := by
  rcases h with rfl | rfl <;>
    simp [TokenKind.Opens, TokenKind.startsExpr, Power.ofToken, Power.rank]

/-- Arguments that can be read on their own are read one by one up to what closes their list. -/
theorem consumes_arguments (read : List.Forall₂ Expr.IsRead arguments es)
    (closes : close = .semicolon ∨ close = .closeParen) (stop : headKind more = close)
    (room : load (argumentWords arguments) ≤ fuel) (message : String) (limit : Nat)
    (enough : load (argumentWords arguments) < limit) (before : List Expr) :
    Consumes (Parse.itemsUntil close (fun _ => do
        let item ← exprWithin fuel .loosest
        Parse.separator close message
        return item) limit before)
      (argumentWords arguments ++ more) more
      fun found => found.map Expr.bare = before.reverse.map Expr.bare ++ es.map Expr.bare := by
  obtain ⟨unopened, differ, loose⟩ := closes_arguments closes
  induction read generalizing limit before with
  | nil =>
    cases limit with
    | zero => omega
    | succ limit =>
      refine consumes_kind ?_
      rw [if_pos (show headKind (argumentWords [] ++ more) = close from stop)]
      exact .pure (by simp)
  | @cons tokens e arguments es first others ih =>
    obtain ⟨token, rest, starts, opens⟩ := opens_of_isRead first
    have ahead : headKind (commaTail (arguments.map fun tokens => tokens.map Token.word) ++ more) =
        .comma ∨ headKind (commaTail (arguments.map fun tokens => tokens.map Token.word) ++ more) =
          close := by
      cases arguments with
      | nil => exact .inr (by simpa [commaTail] using stop)
      | cons => exact .inl (by simp [commaTail])
    have behind : load (argumentWords arguments) ≤ _ := load_commaTail _
    have positive : 0 < load (tokens.map Token.word) := by
      rw [starts]
      exact Nat.zero_lt_of_lt (load_lt_cons _ _)
    rw [argumentWords, List.map_cons, commas_cons] at room enough ⊢
    rw [load_append] at room enough
    rw [List.append_assoc]
    cases limit with
    | zero => omega
    | succ limit =>
      refine consumes_kind ?_
      rw [if_neg (by
        rw [starts]
        rintro rfl
        exact unopened opens)]
      have alone : Consumes (exprWithin fuel .loosest) _ _ _ :=
        consumes_of_isRead first (pull_eq_zero loose ahead) (by omega)
      have item := alone.bind fun found same => (consumes_separator message _ stop differ).bind
        fun _ _ => Consumes.pure (b := found) same
      refine item.bind fun found same => ?_
      refine (ih (by omega) limit (by omega) (found :: before)).imp fun all alike => ?_
      simp [alike, same]

theorem consumes_bracketed (read : List.Forall₂ Expr.IsRead arguments es)
    (room : load (argumentWords arguments) ≤ fuel) :
    Consumes (exprList (exprWithin fuel) .closeParen)
      (argumentWords arguments ++ TokenKind.closeParen.spelled :: more) more
      fun found => found.map Expr.bare = es.map Expr.bare := by
  refine (consumes_get.bind fun s faces => consumes_arguments read (.inr rfl) rfl room _ _
    faces.load_lt []).bind fun found same => ?_
  exact (consumes_expect rfl).bind fun _ _ => .pure (by simpa using same)

/-- The word behind the name of a call without parentheses shows that it is one. -/
theorem second_of_command (more : List Word)
    (read : List.Forall₂ Expr.IsRead arguments es)
    (ungrouped : ∀ first ∈ arguments.head?, ∀ token ∈ first.head?, token.kind ≠ .openParen) :
    ∃ word rest, argumentWords arguments ++ TokenKind.semicolon.spelled :: more = word :: rest ∧
      (word.1.Opens ∨ word.1 = .semicolon) ∧ word.1 ≠ .openParen := by
  cases read with
  | nil => exact ⟨_, _, rfl, .inr rfl, nofun⟩
  | cons first others =>
    obtain ⟨token, rest, rfl, opens⟩ := opens_of_isRead first
    rw [argumentWords, List.map_cons, commas_cons]
    exact ⟨_, _, rfl, .inl opens, ungrouped _ rfl token rfl⟩

theorem not_assignment_of_opens {kind : TokenKind} (h : kind.Opens ∨ kind = .semicolon) :
    ¬(kind = .assignment ∨ kind.isCompoundAssignment) := by
  revert h
  cases kind <;> simp [TokenKind.Opens, TokenKind.startsExpr, TokenKind.isCompoundAssignment]

/-- The tree that both ways of writing a call stand for. -/
abbrev callStmt (name : String) (arguments : List Expr) : Stmt :=
  .expression ⟨0, .nowhere⟩ (.call ⟨0, .nowhere⟩ name arguments)

theorem consumes_commandStmt (read : List.Forall₂ Expr.IsRead arguments es) (name : String)
    (room : load (commandWords name arguments) ≤ fuel) :
    Consumes (commandStmt (exprWithin fuel)) (commandWords name arguments ++ more) more
      fun found => found.bare = (callStmt name es).bare := by
  have inside : load (argumentWords arguments) ≤ fuel := by
    simp only [commandWords, load, load_append] at room
    omega
  rw [commandWords, List.cons_append, List.append_assoc, List.singleton_append]
  refine consumes_take.bind fun token is => ?_
  refine (consumes_get.bind fun s faces => consumes_arguments read (.inl rfl) rfl inside _ _
    faces.load_lt []).bind fun found same => ?_
  refine (consumes_markFrom _).bind fun mark _ => (consumes_expect rfl).bind fun _ _ => ?_
  refine (consumes_markFrom _).bind fun mark' _ => .pure ?_
  simp only [Stmt.bare, Stmt.remark, Expr.remark, Expr.remarkAll_eq, same,
    show token.value = name from congrArg Prod.snd is, List.reverse_nil, List.map_nil,
    List.nil_append]

/-- The parentheses bind tighter than anything, so the name before them is their callee. -/
theorem consumes_calledName (read : List.Forall₂ Expr.IsRead arguments es) (name : String)
    (room : load (callWords name arguments) ≤ fuel) :
    Consumes (expressionStmt (exprWithin fuel)) (callWords name arguments ++ more) more
      fun found => found.bare = (callStmt name es).bare := by
  simp only [callWords, between, load, load_append] at room
  cases fuel with
  | zero => omega
  | succ fuel =>
    rw [callWords, List.cons_append, List.append_assoc, between_append, List.singleton_append]
    have opened : Opens fuel .loosest
        ((.identifier, name) :: TokenKind.openParen.spelled :: (argumentWords arguments ++
          TokenKind.closeParen.spelled :: TokenKind.semicolon.spelled :: more))
        (TokenKind.openParen.spelled :: (argumentWords arguments ++
          TokenKind.closeParen.spelled :: TokenKind.semicolon.spelled :: more))
        (.symbol ⟨⟨0, .nowhere⟩, name, 0⟩) := by
      refine .of_operand ((consumes_operand_literal (fun mark => rfl) _).imp ?_)
      rintro _ ⟨mark, rfl⟩
      rfl
    have called : Opens fuel .loosest _ (TokenKind.semicolon.spelled :: more)
        (.call ⟨0, .nowhere⟩ name es) :=
      opened.continued (by decide) (by simp; omega) fun left same => ?_
    · refine (called.consumes (Nat.zero_le _)).bind fun found same => ?_
      refine (consumes_expect rfl).bind fun _ _ => (consumes_markFrom _).bind fun mark _ => .pure ?_
      simp only [Stmt.bare, Stmt.remark, same]
    · have callee : callee? left = some name := by
        rw [← callee?_remark (fun _ => ⟨0, .nowhere⟩) left]
        exact congrArg callee? same
      refine consumes_kind ?_
      rw [headKind_cons]
      show Consumes (callExpr (exprWithin fuel) left) _ _ _
      rw [callExpr_eq, callee]
      refine consumes_take.bind fun _ _ => ?_
      refine (consumes_bracketed read (by omega)).bind fun found alike => ?_
      refine (consumes_markFrom _).bind fun mark _ => .pure ?_
      simp only [Expr.bare, Expr.remark, Expr.remarkAll_eq, alike]

end

end Grammar

/-- A call without parentheses and a call with them are read as the same statement, whatever the
arguments are, if each of these is an expression on its own and the first does not start with a
parenthesis. -/
theorem command_read_as_call {name : String} {arguments : List (List Token)} {es : List Expr}
    (read : List.Forall₂ Expr.IsRead arguments es)
    (ungrouped : ∀ first ∈ arguments.head?, ∀ token ∈ first.head?, token.kind ≠ .openParen)
    {more more' : List Word} {s s' : Stream}
    (ahead : s.Faces (commandWords name arguments ++ more))
    (ahead' : s'.Faces (callWords name arguments ++ more'))
    {fuel fuel' : Nat} (room : weight s.rest < fuel) (room' : weight s'.rest < fuel') :
    ∃ command call t t',
      (stmtWithin fuel).run s = .ok (command, t) ∧ t.Faces more ∧
      (stmtWithin fuel').run s' = .ok (call, t') ∧ t'.Faces more' ∧
      command.bare = (callStmt name es).bare ∧ call.bare = (callStmt name es).bare := by
  have loaded := load_words_le s.rest
  have loaded' := load_words_le s'.rest
  rw [ahead.ahead, load_append] at loaded
  rw [ahead'.ahead, load_append] at loaded'
  cases fuel with
  | zero => omega
  | succ fuel =>
  cases fuel' with
  | zero => omega
  | succ fuel' =>
    have command : Consumes (stmtWithin (fuel + 1)) (commandWords name arguments ++ more) more
        fun found => found.bare = (callStmt name es).bare := by
      -- What stands behind the name opens an expression or ends the statement, so nothing is
      -- assigned to the name, and no group makes it a callee.
      obtain ⟨word, rest, second, opens, apart⟩ := second_of_command more read ungrouped
      have next : commandWords name arguments ++ more = (.identifier, name) :: word :: rest := by
        rw [← second]
        simp [commandWords]
      refine consumes_kind (consumes_get.bind fun s faces => ?_)
      rw [next] at faces
      dsimp only
      rw [faces.peek, if_neg (not_assignment_of_opens opens), if_neg apart]
      exact consumes_commandStmt read name (by omega)
    have call : Consumes (stmtWithin (fuel' + 1)) (callWords name arguments ++ more') more'
        fun found => found.bare = (callStmt name es).bare := by
      refine consumes_kind (consumes_get.bind fun s faces => ?_)
      dsimp only
      have peeked : s.peekKind 1 = .openParen := faces.peek
      rw [peeked, if_neg (by decide), if_pos rfl]
      exact consumes_calledName read name (by omega)
    obtain ⟨found, t, ran, left, same⟩ := command s ahead
    obtain ⟨found', t', ran', left', same'⟩ := call s' ahead'
    exact ⟨found, found', t, t', ran, left, ran', left', same, same'⟩

/-- Arguments whose first words could as well continue an expression. -/
def wryArguments : List (List Token) :=
  [[TokenKind.dash.spelled, (.identifier, "x")],
    [TokenKind.openBracket.spelled, (.identifier, "y"), TokenKind.closeBracket.spelled],
    [TokenKind.less.spelled, (.identifier, "north"), TokenKind.greater.spelled],
    [TokenKind.caret.spelled, (.identifier, "z")],
    [TokenKind.openCurly.spelled, TokenKind.closeCurly.spelled]].map
      (·.map fun word => ⟨word.1, word.2, .nowhere⟩)

def wryExprs : List Expr :=
  [.unary ⟨1, .nowhere⟩ ⟨.dash, "-", .nowhere⟩ (.symbol ⟨⟨0, .nowhere⟩, "x", 0⟩),
    .list ⟨1, .nowhere⟩ [.symbol ⟨⟨0, .nowhere⟩, "y", 0⟩], .member ⟨0, .nowhere⟩ "north",
    .symbol ⟨⟨0, .nowhere⟩, "z", 1⟩, .map ⟨0, .nowhere⟩ []]

theorem wryArguments_read : List.Forall₂ Expr.IsRead wryArguments wryExprs := by
  have alone : ∀ (tokens : List Token) (e : Expr), (Stream.ofTokens tokens "" 0).rest = tokens →
      (Stream.ofTokens tokens "" 0).last.kind = .eof →
      (∃ t, (exprWithin (Stream.ofTokens tokens "" 0).limit .loosest).run (.ofTokens tokens "" 0) =
        .ok (e, t) ∧ t.rest = []) → e.IsRead tokens :=
    fun tokens e whole last ⟨t, read, done⟩ => ⟨_, t, whole, last, read, done⟩
  refine .cons (alone _ _ rfl rfl ⟨_, rfl, rfl⟩) (.cons (alone _ _ rfl rfl ⟨_, rfl, rfl⟩) ?_)
  refine .cons (alone _ _ rfl rfl ⟨_, rfl, rfl⟩) (.cons (alone _ _ rfl rfl ⟨_, rfl, rfl⟩) ?_)
  exact .cons (alone _ _ rfl rfl ⟨_, rfl, rfl⟩) .nil

theorem command_read_as_call_wry : ∃ command call t t',
      (stmtWithin 100).run (.ofTokens ((commandWords "turn" wryArguments).map
        fun word => ⟨word.1, word.2, .nowhere⟩) "" 0) = .ok (command, t) ∧ t.Faces [] ∧
      (stmtWithin 100).run (.ofTokens ((callWords "turn" wryArguments).map
        fun word => ⟨word.1, word.2, .nowhere⟩) "" 0) = .ok (call, t') ∧ t'.Faces [] ∧
      command.bare = (callStmt "turn" wryExprs).bare ∧
      call.bare = (callStmt "turn" wryExprs).bare :=
  command_read_as_call wryArguments_read (by decide) ⟨rfl, rfl⟩ ⟨rfl, rfl⟩ (by decide) (by decide)

end CursorScript
