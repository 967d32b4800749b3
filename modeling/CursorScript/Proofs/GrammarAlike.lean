import CursorScript.Grammar.Stmt
import CursorScript.Proofs.Unplaced

/-!
Reading does not look at places. Two lists of tokens with the same kinds and values are read with
the same success, into trees that differ in their spans alone, or refused for the same cause. Texts
with expressions inside are cut and read again from the places where they stand; this too gives the
same tokens wherever they stand.
-/
namespace CursorScript

theorem Token.matched_valueOf (kind : TokenKind) (text : List Char) (p p' : Position) :
    Matched Eq (valueOf kind text p) (valueOf kind text p') := by
  unfold valueOf
  split
  · split
    · exact .done rfl
    · exact .failed rfl
  · exact .done rfl
  · exact .done rfl
  · exact .done rfl

/-- What a text is cut into does not depend on where it starts. -/
theorem Token.matched_scan (p p' : Position) (cs : List Char) :
    Matched (fun tokens tokens' => tokens.map word = tokens'.map word) (scan p cs) (scan p' cs) := by
  fun_induction scan p cs generalizing p' with
  | case1 p =>
    rw [scan_nil]
    exact .done rfl
  | case2 p c behind found =>
    rw [scan_refused p' found]
    exact .failed rfl
  | case3 p c behind text rest found ih =>
    rw [scan_skip p' found]
    exact ih _
  | case4 p c behind kind text rest found ih =>
    rw [scan_token p' found]
    refine (matched_valueOf kind text p p').bind ?_
    rintro value _ rfl
    refine (ih (p'.after text)).bind fun tokens tokens' same => ?_
    exact .done (congrArg ((kind, value) :: ·) same)

namespace Grammar

def Piece.unplaced : Piece → Piece
  | chars raw => chars raw
  | code source _ => code source .unknown
  | unclosed raw _ => unclosed raw .unknown

theorem pieces_unclosed (p : Position) (before : List Char) {cs : List Char}
    (h : closeBrace? .start cs = none) :
    pieces p before ('\x7b' :: cs) = [.unclosed ('\x7b' :: cs) p] := by
  unfold pieces
  simp only [Char.reduceEq, if_false, if_true]
  split <;> simp_all

theorem pieces_code (p : Position) (before : List Char) {cs inner behind : List Char}
    (h : closeBrace? .start cs = some (inner, behind)) :
    pieces p before ('\x7b' :: cs) =
      Piece.ofChars before ++ .code inner (p.advance '\x7b') ::
        pieces (((p.advance '\x7b').after inner).advance '\x7d') [] behind := by
  conv => lhs; unfold pieces
  simp only [Char.reduceEq, if_false, if_true]
  split <;> simp_all

/-- An interpolated text has the same pieces wherever it stands. -/
theorem pieces_unplaced (p p' : Position) (before raw : List Char) :
    (pieces p before raw).map Piece.unplaced = (pieces p' before raw).map Piece.unplaced := by
  fun_induction pieces p before raw generalizing p' with
  | case1 p before => simp [pieces]
  | case2 p before => simp [pieces]
  | case3 p before e rest ih =>
    rw [ih ((p'.advance '\\').advance e)]
    conv => rhs; unfold pieces
    simp
  | case4 p before cs closed =>
    rw [pieces_unclosed p' before closed]
    rfl
  | case5 p before cs inner behind closed _ start ih =>
    rw [pieces_code p' before closed, List.map_append, List.map_append, List.map_cons,
      List.map_cons, ih (((p'.advance '\x7b').after inner).advance '\x7d')]
    rfl
  | case6 p before c cs plain unbraced ih =>
    rw [ih (p'.advance c)]
    conv => rhs; unfold pieces
    simp [plain, unbraced]

/-- Streams that differ in places alone. -/
structure Stream.Alike (s s' : Stream) : Prop where
  rest : s.rest.map Token.word = s'.rest.map Token.word
  last : s.last.word = s'.last.word
  nextId : s.nextId = s'.nextId
  limit : s.limit = s'.limit

abbrev Steady {α : Type} (reader : Parse α) (rel : α → α → Prop) : Prop :=
  Agrees Stream.Alike reader reader rel

theorem Stream.Alike.current {s s' : Stream} (h : s.Alike s') :
    s.current.word = s'.current.word := by
  have rest := h.rest
  unfold Stream.current
  cases ahead : s.rest with
  | nil =>
    cases ahead' : s'.rest with
    | nil => exact h.last
    | cons token' more' => simp [ahead, ahead'] at rest
  | cons token more =>
    cases ahead' : s'.rest with
    | nil => simp [ahead, ahead'] at rest
    | cons token' more' =>
      rw [ahead, ahead', List.map_cons, List.map_cons] at rest
      exact (List.cons.inj rest).1

theorem Stream.Alike.peekKind {s s' : Stream} (h : s.Alike s') (n : Nat) :
    s.peekKind n = s'.peekKind n := by
  have kinds : ∀ t : Stream, t.peekKind n = ((t.rest.map Token.word).getD n t.last.word).1 := by
    intro t
    simp [Stream.peekKind, List.getD_eq_getElem?_getD, Token.word]
    cases t.rest[n]? <;> rfl
  rw [kinds, kinds, h.rest, h.last]

theorem Stream.Alike.advance {s s' : Stream} (h : s.Alike s') : s.advance.Alike s'.advance := by
  refine ⟨?_, h.last, h.nextId, h.limit⟩
  simp [Stream.advance, List.map_tail, h.rest]

theorem Stream.Alike.repeat {s s' : Stream} (h : s.Alike s') (n : Nat) :
    (Nat.repeat Stream.advance n s).Alike (Nat.repeat Stream.advance n s') := by
  induction n with
  | zero => exact h
  | succ n ih => exact ih.advance

theorem weight_eq {tokens tokens' : List Token}
    (h : tokens.map Token.word = tokens'.map Token.word) : weight tokens = weight tokens' := by
  induction tokens generalizing tokens' with
  | nil =>
    cases tokens' with
    | nil => rfl
    | cons => simp at h
  | cons token rest ih =>
    cases tokens' with
    | nil => simp at h
    | cons token' rest' =>
      obtain ⟨first, others⟩ := List.cons.inj h
      simp [weight, Token.value_eq first, ih others]

theorem alike_ofTokens {tokens tokens' : List Token}
    (h : tokens.map Token.word = tokens'.map Token.word) (file file' : String) (id : Nat) :
    (Stream.ofTokens tokens file id).Alike (Stream.ofTokens tokens' file' id) := by
  have made : ∀ (rest rest' : List Token) (last last' : Token),
      rest.map Token.word = rest'.map Token.word → last.word = last'.word →
      Stream.Alike
        ⟨rest, last, (rest.headD last).span.start, id, weight rest + 1, Nat.lt_succ_self _⟩
        ⟨rest', last', (rest'.headD last').span.start, id, weight rest' + 1, Nat.lt_succ_self _⟩ :=
    fun rest rest' last last' ahead closing => ⟨ahead, closing, rfl, congrArg (· + 1) (weight_eq ahead)⟩
  have ends : (tokens.getLast?).map Token.word = (tokens'.getLast?).map Token.word := by
    rw [← List.getLast?_map, ← List.getLast?_map, h]
  unfold Stream.ofTokens
  cases found : tokens.getLast? with
  | none =>
    cases found' : tokens'.getLast? with
    | none => exact made [] [] _ _ rfl rfl
    | some token' => simp [found, found'] at ends
  | some token =>
    cases found' : tokens'.getLast? with
    | none => simp [found, found'] at ends
    | some token' =>
      have same : token.word = token'.word := by simpa [found, found'] using ends
      have kinds := Token.kind_eq same
      dsimp only
      rw [kinds]
      split
      · exact made _ _ _ _ (by rw [List.map_dropLast, List.map_dropLast, h]) same
      · exact made _ _ _ _ h rfl

section readers
variable {α β : Type} {rel : α → α → Prop}

theorem agrees_current : Steady Parse.current fun t t' => t.word = t'.word :=
  fun _ _ h => .done ⟨h.current, h⟩

theorem agrees_kind : Steady Parse.kind Eq := fun _ _ h => .done ⟨Token.kind_eq h.current, h⟩

/-- Readers that look at the kind of the token ahead see the same one. -/
theorem agrees_kind_bind {next next' : TokenKind → Parse α}
    (h : ∀ kind, Agrees Stream.Alike (next kind) (next' kind) rel) :
    Agrees Stream.Alike (Parse.kind >>= next) (Parse.kind >>= next') rel := by
  refine agrees_kind.bind ?_
  rintro kind _ rfl
  exact h kind

theorem agrees_place : Steady Parse.place fun _ _ => True := fun _ _ h => .done ⟨trivial, h⟩

theorem agrees_take : Steady Parse.take fun t t' => t.word = t'.word :=
  fun _ _ h => .done ⟨h.current, h.advance⟩

theorem agrees_fail (cause : Cause) (p p' : Position) :
    Agrees Stream.Alike (Parse.fail cause p : Parse α) (Parse.fail cause p') rel := .throw rfl

theorem agrees_fail_bind (cause : Cause) (p p' : Position) {next next' : β → Parse α} :
    Agrees Stream.Alike (Parse.fail cause p >>= next) (Parse.fail cause p' >>= next') rel :=
  fun _ _ _ => .failed rfl

theorem agrees_unexpected : Steady (Parse.unexpected : Parse α) rel := by
  refine agrees_current.bind fun token token' same => ?_
  rw [Token.value_eq same]
  exact agrees_fail _ _ _

theorem agrees_unexpectedWith (message : String) :
    Steady (Parse.unexpectedWith message : Parse α) rel := by
  refine agrees_current.bind fun token token' same => ?_
  rw [Token.value_eq same]
  exact agrees_fail _ _ _

theorem agrees_unexpected_bind {next next' : β → Parse α} :
    Agrees Stream.Alike (Parse.unexpected >>= next) (Parse.unexpected >>= next') rel :=
  fun s s' alike => by
    have never : Steady (Parse.unexpected : Parse β) fun _ _ => False := agrees_unexpected
    exact never.bind (fun _ _ => False.elim) s s' alike

theorem agrees_unexpectedWith_bind {message : String} {next next' : β → Parse α} :
    Agrees Stream.Alike (Parse.unexpectedWith message >>= next)
      (Parse.unexpectedWith message >>= next') rel :=
  fun s s' alike => by
    have never : Steady (Parse.unexpectedWith message : Parse β) fun _ _ => False :=
      agrees_unexpectedWith message
    exact never.bind (fun _ _ => False.elim) s s' alike

theorem agrees_expect (wanted : TokenKind) :
    Steady (Parse.expect wanted) fun t t' => t.word = t'.word := by
  refine agrees_kind_bind fun kind => ?_
  split
  · exact agrees_take
  · exact agrees_unexpected

theorem agrees_expectWith (wanted : TokenKind) (message : String) :
    Steady (Parse.expectWith wanted message) fun t t' => t.word = t'.word := by
  refine agrees_kind_bind fun kind => ?_
  split
  · exact agrees_take
  · exact agrees_unexpectedWith message

theorem agrees_freshId : Steady Parse.freshId Eq :=
  fun _ _ h => .done ⟨h.nextId, h.rest, h.last, congrArg (· + 1) h.nextId, h.limit⟩

theorem agrees_markFrom (start start' : Position) :
    Agrees Stream.Alike (Parse.markFrom start) (Parse.markFrom start') fun mark mark' =>
      mark.unplaced = mark'.unplaced :=
  fun _ _ h => .done ⟨congrArg (Mark.mk · Span.nowhere) h.nextId,
    h.rest, h.last, congrArg (· + 1) h.nextId, h.limit⟩

theorem agrees_separator (close : TokenKind) (message : String) :
    Steady (Parse.separator close message) fun _ _ => True := by
  refine agrees_kind_bind fun kind => ?_
  split
  · exact .pure trivial
  · exact (agrees_expectWith _ _).bind fun _ _ _ => .pure trivial

theorem agrees_itemsUntil {γ : Type} {view : α → γ} {close : TokenKind} {item : List α → Parse α}
    (h : ∀ before before', before.map view = before'.map view →
      Agrees Stream.Alike (item before) (item before') fun a a' => view a = view a')
    (fuel : Nat) {before before' : List α} (same : before.map view = before'.map view) :
    Agrees Stream.Alike (Parse.itemsUntil close item fuel before)
      (Parse.itemsUntil close item fuel before') fun all all' => all.map view = all'.map view := by
  induction fuel generalizing before before' with
  | zero => exact agrees_unexpected
  | succ fuel ih =>
    refine agrees_kind_bind fun kind => ?_
    split
    · exact .pure (by rw [List.map_reverse, List.map_reverse, same])
    · refine (h before before' same).bind fun a a' first => ih ?_
      rw [List.map_cons, List.map_cons, first, same]

theorem agrees_itemsBefore {γ : Type} (view : α → γ) {close : TokenKind} {item : List α → Parse α}
    (h : ∀ before before', before.map view = before'.map view →
      Agrees Stream.Alike (item before) (item before') fun a a' => view a = view a') :
    Steady (Parse.itemsBefore close item) fun all all' => all.map view = all'.map view := by
  refine Agrees.get.bind fun s s' alike => ?_
  rw [alike.limit]
  exact agrees_itemsUntil h _ rfl

end readers

theorem agrees_primitiveType : Steady primitiveType Eq := by
  refine (agrees_expect _).bind fun token token' same => ?_
  rw [Token.value_eq same]
  split
  · exact .pure rfl
  · exact agrees_fail _ _ _

theorem agrees_literalMembers (fuel : Nat) (before : NameSet) :
    Steady (literalMembers fuel before) Eq := by
  induction fuel generalizing before with
  | zero => exact agrees_unexpected
  | succ fuel ih =>
    refine (agrees_expectWith _ _).bind fun member member' same => agrees_kind_bind fun kind => ?_
    rw [Token.value_eq same]
    split
    · exact agrees_take.bind fun _ _ _ => ih _
    · exact .pure rfl

theorem agrees_literalType : Steady literalType Eq := by
  refine (agrees_expect _).bind fun _ _ _ => Agrees.get.bind fun s s' alike => ?_
  rw [alike.limit]
  refine (agrees_literalMembers _ _).bind ?_
  rintro members _ rfl
  exact (agrees_expectWith _ _).bind fun _ _ _ => .pure rfl

theorem agrees_typeWithin (fuel : Nat) : Steady (typeWithin fuel) Eq := by
  induction fuel with
  | zero => exact agrees_unexpected
  | succ fuel ih =>
    refine agrees_kind_bind fun kind => ?_
    have chosen : ∀ reader : Parse Ty, Steady reader Eq → Agrees Stream.Alike reader reader Eq :=
      fun _ => id
    refine chosen _ ?_
    split
    · exact agrees_primitiveType
    · refine (agrees_expect _).bind fun _ _ _ => ih.bind ?_
      rintro element _ rfl
      exact (agrees_expectWith _ _).bind fun _ _ _ => .pure rfl
    · refine (agrees_expect _).bind fun _ _ _ => ih.bind ?_
      rintro key _ rfl
      refine (agrees_expectWith _ _).bind fun _ _ _ => ih.bind ?_
      rintro value _ rfl
      exact (agrees_expectWith _ _).bind fun _ _ _ => .pure rfl
    · exact agrees_literalType
    · exact agrees_unexpectedWith _

theorem agrees_type : Steady type Eq := by
  refine Agrees.get.bind fun s s' alike => ?_
  rw [alike.limit]
  exact agrees_typeWithin _

/-- Expressions that differ in places alone. -/
abbrev SameExpr (e e' : Expr) : Prop := e.unplaced = e'.unplaced

abbrev SameStmt (s s' : Stmt) : Prop := s.unplaced = s'.unplaced

theorem agrees_atom : Steady atom SameExpr := by
  refine agrees_current.bind fun token token' same => agrees_freshId.bind ?_
  rintro id _ rfl
  obtain ⟨kind, value, span⟩ := token
  obtain ⟨kind', value', span'⟩ := token'
  obtain ⟨rfl, rfl⟩ := Prod.mk.inj same
  have taken : ∀ e e' : Expr, SameExpr e e' →
      Agrees Stream.Alike (do let _ ← Parse.take; return e)
        (do let _ ← Parse.take; return e') SameExpr :=
    fun e e' alike => agrees_take.bind fun _ _ _ => .pure alike
  cases kind <;> dsimp only <;> try exact agrees_unexpected_bind
  case number =>
    split
    · exact .pure_bind (taken _ _ rfl)
    · exact agrees_fail_bind _ _ _
  case real =>
    split
    · exact .pure_bind (taken _ _ rfl)
    · exact agrees_fail_bind _ _ _
  case material =>
    split <;> exact .pure_bind (taken _ _ rfl)
  all_goals exact .pure_bind (taken _ _ rfl)

theorem agrees_skip (n : Nat) :
    Steady (modify (Nat.repeat Stream.advance n)) fun _ _ => True :=
  fun _ _ h => .done ⟨trivial, h.repeat n⟩

theorem length_takeWhile_caret (tokens : List Token) :
    (tokens.takeWhile fun token => token.kind = .caret).length =
      ((tokens.map Token.word).takeWhile fun word => word.1 = .caret).length := by
  rw [List.takeWhile_map, List.length_map]
  rfl

theorem agrees_scopedSymbol :
    Steady scopedSymbol fun s s' => s.remark Mark.unplaced = s'.remark Mark.unplaced := by
  refine agrees_place.bind fun start start' _ => Agrees.get.bind fun s s' alike => ?_
  rw [length_takeWhile_caret, length_takeWhile_caret, alike.rest]
  refine (agrees_skip _).bind fun _ _ _ => (agrees_expectWith _ _).bind fun name name' same => ?_
  refine (agrees_markFrom _ _).bind fun mark mark' marks => .pure ?_
  simp only [Symbol.remark, marks, Token.value_eq same]

def callee? : Expr → Option String
  | .symbol ⟨_, name, 0⟩ => some name
  | _ => none

theorem callee?_remark (f : Mark → Mark) (e : Expr) : callee? (e.remark f) = callee? e := by
  cases e with
  | symbol s =>
    obtain ⟨mark, name, up⟩ := s
    cases up <;> rfl
  | _ => rfl

theorem callExpr_eq (expr : ExprReader) (left : Expr) :
    callExpr expr left = match callee? left with
      | some name => do
        let _ ← Parse.take
        let arguments ← exprList expr .closeParen
        return .call (← Parse.markFrom left.start) name arguments
      | none => Parse.unexpectedWith "only named functions can be called" := by
  cases left with
  | symbol s =>
    obtain ⟨mark, name, up⟩ := s
    cases up <;> rfl
  | _ => rfl

section
variable {expr : ExprReader} (reads : ∀ outer, Steady (expr outer) SameExpr)
include reads

theorem agrees_unaryExpr : Steady (unaryExpr expr) SameExpr := by
  refine agrees_take.bind fun token token' same => (reads _).bind fun e e' inner => ?_
  refine agrees_freshId.bind ?_
  rintro id _ rfl
  refine .pure ?_
  simp only [SameExpr, Expr.unplaced, Expr.remark, Token.unplaced_eq_iff.2 same, inner]
  rfl

theorem agrees_grouping : Steady (grouping expr) SameExpr :=
  agrees_take.bind fun _ _ _ => (reads _).bind fun _ _ inner =>
    (agrees_expectWith _ _).bind fun _ _ _ => .pure inner

theorem agrees_exprList (close : TokenKind) :
    Steady (exprList expr close) fun es es' => es.map Expr.unplaced = es'.map Expr.unplaced := by
  refine (agrees_itemsBefore Expr.unplaced fun _ _ _ => ?_).bind fun _ _ items =>
    (agrees_expect _).bind fun _ _ _ => .pure items
  exact (reads _).bind fun _ _ item => (agrees_separator _ _).bind fun _ _ _ => .pure item

theorem agrees_listExpr : Steady (listExpr expr) SameExpr := by
  refine agrees_take.bind fun _ _ _ => (agrees_exprList reads _).bind fun es es' items => ?_
  refine (agrees_markFrom _ _).bind fun mark mark' marks => .pure ?_
  simp only [SameExpr, Expr.unplaced, Expr.remark, Expr.remarkAll_eq, marks, items]

theorem agrees_mapEntry :
    Steady (mapEntry expr) fun entry entry' =>
      (entry.1.unplaced, entry.2.unplaced) = (entry'.1.unplaced, entry'.2.unplaced) :=
  (reads _).bind fun _ _ key => (agrees_expectWith _ _).bind fun _ _ _ =>
    (reads _).bind fun _ _ value => (agrees_separator _ _).bind fun _ _ _ =>
      .pure (Prod.ext key value)

theorem agrees_mapExpr : Steady (mapExpr expr) SameExpr := by
  refine agrees_take.bind fun _ _ _ =>
    (agrees_itemsBefore (fun entry => (entry.1.unplaced, entry.2.unplaced))
      fun _ _ _ => agrees_mapEntry reads).bind fun entries entries' items => ?_
  refine (agrees_expect _).bind fun _ _ _ => (agrees_markFrom _ _).bind fun mark mark' marks => ?_
  refine .pure ?_
  simp only [SameExpr, Expr.unplaced, Expr.remark, Expr.remarkEntries_eq, marks, items]

omit reads in
theorem agrees_memberExpr : Steady memberExpr SameExpr := by
  refine agrees_take.bind fun _ _ _ => (agrees_expectWith _ _).bind fun member member' same => ?_
  refine (agrees_expectWith _ _).bind fun _ _ _ => (agrees_markFrom _ _).bind fun _ _ marks => ?_
  refine .pure ?_
  simp only [SameExpr, Expr.unplaced, Expr.remark, marks, Token.value_eq same]

/-- A fragment is read alike wherever the text around it stands. -/
theorem agrees_fragment (source : List Char) (start start' : Position) :
    Agrees Stream.Alike (fragment expr source start) (fragment expr source start') SameExpr := by
  refine Agrees.get.bind fun outer outer' alike => ?_
  refine (Agrees.lift (Token.matched_scan _ _ _)).bind fun ts ts' words => ?_
  have inside := alike_ofTokens words start.file start'.file outer.nextId
  rw [← alike.nextId]
  refine (Agrees.set inside).bind fun _ _ _ => (reads _).bind fun e e' inner => ?_
  refine agrees_kind_bind fun kind => ?_
  have closed : Agrees Stream.Alike
      (do set { outer with nextId := (← get).nextId }; return e)
      (do set { outer' with nextId := (← get).nextId }; return e') SameExpr := by
    refine Agrees.get.bind fun s s' now => ?_
    refine (Agrees.set ?_).bind fun _ _ _ => .pure inner
    exact ⟨alike.rest, alike.last, now.nextId, alike.limit⟩
  split
  · exact agrees_unexpectedWith_bind
  · exact .pure_bind closed

theorem agrees_interpolationParts (start start' : Position) {parts parts' : List Piece}
    (same : parts.map Piece.unplaced = parts'.map Piece.unplaced) :
    Agrees Stream.Alike (interpolationParts expr start parts) (interpolationParts expr start' parts')
      fun all all' => Expr.remarkParts Mark.unplaced all = Expr.remarkParts Mark.unplaced all' := by
  induction parts generalizing parts' with
  | nil =>
    cases parts' with
    | nil => exact .pure rfl
    | cons => simp at same
  | cons piece rest ih =>
    cases parts' with
    | nil => simp at same
    | cons piece' rest' =>
      obtain ⟨first, others⟩ := List.cons.inj same
      cases piece with
      | chars raw =>
        cases piece' <;> simp [Piece.unplaced] at first
        subst first
        unfold interpolationParts
        split
        · refine (ih others).bind fun all all' alike => .pure ?_
          simp only [Expr.remarkParts, alike]
        · exact agrees_fail _ _ _
      | code source place =>
        cases piece' <;> simp [Piece.unplaced] at first
        subst first
        unfold interpolationParts
        refine (agrees_fragment reads _ _ _).bind fun e e' inner => ?_
        refine (ih others).bind fun all all' alike => .pure ?_
        simp only [Expr.remarkParts, alike, inner]
      | unclosed raw place =>
        cases piece' <;> simp [Piece.unplaced] at first
        subst first
        exact agrees_fail _ _ _

theorem agrees_interpolation : Steady (interpolation expr) SameExpr := by
  refine agrees_take.bind fun token token' same => ?_
  rw [Token.value_eq same]
  refine (agrees_interpolationParts reads _ _ (pieces_unplaced _ _ [] _)).bind
    fun parts parts' alike => ?_
  refine agrees_freshId.bind ?_
  rintro id _ rfl
  refine .pure ?_
  simp only [SameExpr, Expr.unplaced, Expr.remark, alike]
  rfl

theorem agrees_operand : Steady (operand expr) SameExpr := by
  refine agrees_kind_bind fun kind => ?_
  have chosen : ∀ reader : Parse Expr, Steady reader SameExpr →
      Agrees Stream.Alike reader reader SameExpr := fun _ => id
  refine chosen _ ?_
  split
  · exact agrees_atom
  · exact agrees_atom
  · exact agrees_atom
  · exact agrees_atom
  · exact agrees_atom
  · exact agrees_atom
  · exact agrees_atom
  · refine agrees_scopedSymbol.bind fun s s' same => .pure ?_
    simp only [SameExpr, Expr.unplaced, Expr.remark, same]
  · exact agrees_interpolation reads
  · exact agrees_memberExpr
  · exact agrees_listExpr reads
  · exact agrees_mapExpr reads
  · exact agrees_unaryExpr reads
  · exact agrees_unaryExpr reads
  · exact agrees_grouping reads
  · exact agrees_unexpected

theorem agrees_callExpr {left left' : Expr} (same : SameExpr left left') :
    Agrees Stream.Alike (callExpr expr left) (callExpr expr left') SameExpr := by
  have names : callee? left = callee? left' := by
    rw [← callee?_remark Mark.unplaced left, ← callee?_remark Mark.unplaced left']
    exact congrArg callee? same
  rw [callExpr_eq, callExpr_eq, names]
  split
  · refine agrees_take.bind fun _ _ _ => (agrees_exprList reads _).bind fun es es' items => ?_
    refine (agrees_markFrom _ _).bind fun mark mark' marks => .pure ?_
    simp only [SameExpr, Expr.unplaced, Expr.remark, Expr.remarkAll_eq, marks, items]
  · exact agrees_unexpectedWith _

theorem agrees_indexExpr {left left' : Expr} (same : SameExpr left left') :
    Agrees Stream.Alike (indexExpr expr left) (indexExpr expr left') SameExpr := by
  refine agrees_take.bind fun _ _ _ => (reads _).bind fun e e' inner => ?_
  refine (agrees_expectWith _ _).bind fun _ _ _ => (agrees_markFrom _ _).bind fun _ _ marks => ?_
  refine .pure ?_
  simp only [SameExpr, Expr.unplaced, Expr.remark, marks, same, inner]

theorem agrees_binaryExpr {left left' : Expr} (same : SameExpr left left') :
    Agrees Stream.Alike (binaryExpr expr left) (binaryExpr expr left') SameExpr := by
  refine agrees_take.bind fun token token' words => ?_
  rw [Token.kind_eq words]
  refine (reads _).bind fun e e' inner => agrees_freshId.bind ?_
  rintro id _ rfl
  refine .pure ?_
  simp only [SameExpr, Expr.unplaced, Expr.remark, Token.unplaced_eq_iff.2 words, same, inner]
  rfl

theorem agrees_continuation {left left' : Expr} (same : SameExpr left left') :
    Agrees Stream.Alike (continuation expr left) (continuation expr left') SameExpr := by
  refine agrees_kind_bind fun kind => ?_
  split
  · exact agrees_callExpr reads same
  · exact agrees_indexExpr reads same
  · exact agrees_binaryExpr reads same

theorem agrees_climb (outer : Power) (fuel : Nat) {left left' : Expr} (same : SameExpr left left') :
    Agrees Stream.Alike (climb expr outer fuel left) (climb expr outer fuel left') SameExpr := by
  induction fuel generalizing left left' with
  | zero => exact agrees_unexpected
  | succ fuel ih =>
    refine agrees_kind_bind fun kind => ?_
    split
    · exact .pure same
    · exact (agrees_continuation reads same).bind fun _ _ next => ih next

end

theorem agrees_exprWithin (fuel : Nat) (outer : Power) :
    Steady (exprWithin fuel outer) SameExpr := by
  induction fuel generalizing outer with
  | zero => exact agrees_unexpected
  | succ fuel ih =>
    refine (agrees_operand ih).bind fun left left' same => Agrees.get.bind fun s s' alike => ?_
    rw [alike.limit]
    exact agrees_climb ih outer _ same

theorem agrees_returnType : Steady returnType Eq := by
  refine agrees_kind_bind fun kind => ?_
  split
  · refine agrees_take.bind fun _ _ _ => agrees_type.bind ?_
    rintro type _ rfl
    exact .pure rfl
  · exact .pure rfl

section
variable {expr : ExprReader} (reads : ∀ outer, Steady (expr outer) SameExpr)
include reads

theorem agrees_expressionStmt : Steady (expressionStmt expr) SameStmt := by
  refine (reads _).bind fun e e' inner => (agrees_expect _).bind fun _ _ _ => ?_
  refine (agrees_markFrom _ _).bind fun mark mark' marks => .pure ?_
  simp only [SameStmt, Stmt.unplaced, Stmt.remark, marks, inner]

theorem agrees_declareStmt : Steady (declareStmt expr) SameStmt := by
  refine agrees_take.bind fun _ _ _ => (agrees_expectWith _ _).bind fun name name' same => ?_
  refine (agrees_expectWith _ _).bind fun _ _ _ => agrees_type.bind ?_
  rintro type _ rfl
  refine (agrees_expectWith _ _).bind fun _ _ _ => (reads _).bind fun e e' value => ?_
  refine (agrees_expect _).bind fun _ _ _ => (agrees_markFrom _ _).bind fun mark mark' marks => ?_
  refine .pure ?_
  simp only [SameStmt, Stmt.unplaced, Stmt.remark, marks, Token.value_eq same, value]

theorem agrees_assignStmt : Steady (assignStmt expr) SameStmt := by
  refine agrees_place.bind fun start start' _ => agrees_scopedSymbol.bind fun s s' target => ?_
  refine agrees_current.bind fun operator operator' same => ?_
  have assigned : Agrees Stream.Alike
      (do let _ ← Parse.take
          let value ← expr .loosest
          let _ ← Parse.expect .semicolon
          return Stmt.assign (← Parse.markFrom start) s operator value)
      (do let _ ← Parse.take
          let value ← expr .loosest
          let _ ← Parse.expect .semicolon
          return Stmt.assign (← Parse.markFrom start') s' operator' value) SameStmt := by
    refine agrees_take.bind fun _ _ _ => (reads _).bind fun e e' value => ?_
    refine (agrees_expect _).bind fun _ _ _ => (agrees_markFrom _ _).bind fun _ _ marks => ?_
    refine .pure ?_
    simp only [SameStmt, Stmt.unplaced, Stmt.remark, marks, target, Token.unplaced_eq_iff.2 same,
      value]
  rw [Token.kind_eq same]
  split
  · exact agrees_unexpectedWith_bind
  · exact .pure_bind assigned

theorem agrees_commandStmt : Steady (commandStmt expr) SameStmt := by
  refine agrees_take.bind fun name name' same => ?_
  refine (agrees_itemsBefore Expr.unplaced fun _ _ _ => ?item).bind fun es es' items => ?_
  case item =>
    exact (reads _).bind fun _ _ item => (agrees_separator _ _).bind fun _ _ _ => .pure item
  refine (agrees_markFrom _ _).bind fun inner inner' inners => (agrees_expect _).bind fun _ _ _ => ?_
  refine (agrees_markFrom _ _).bind fun mark mark' marks => .pure ?_
  simp only [SameStmt, Stmt.unplaced, Stmt.remark, Expr.remark, Expr.remarkAll_eq, inners, marks,
    Token.value_eq same, items]

theorem agrees_namedStmt : Steady (namedStmt expr) SameStmt := by
  refine Agrees.get.bind fun s s' alike => ?_
  rw [alike.peekKind]
  dsimp only
  split
  · exact agrees_assignStmt reads
  · split
    · exact agrees_expressionStmt reads
    · exact agrees_commandStmt reads

theorem agrees_returnStmt : Steady (returnStmt expr) SameStmt := by
  refine agrees_take.bind fun _ _ _ => agrees_kind_bind fun kind => ?_
  have returned : ∀ (start start' : Position) (value value' : Option Expr),
      value.map Expr.unplaced = value'.map Expr.unplaced →
      Agrees Stream.Alike
        (do let _ ← Parse.expect .semicolon; return Stmt.ret (← Parse.markFrom start) value)
        (do let _ ← Parse.expect .semicolon; return Stmt.ret (← Parse.markFrom start') value')
        SameStmt := by
    intro start start' value value' same
    refine (agrees_expect _).bind fun _ _ _ => (agrees_markFrom _ _).bind fun _ _ marks => ?_
    refine .pure ?_
    simp only [SameStmt, Stmt.unplaced, Stmt.remark, marks, same]
  split
  · exact .pure_bind (returned _ _ _ _ rfl)
  · refine (reads _).bind fun e e' inner => .pure_bind (returned _ _ _ _ ?_)
    exact congrArg some inner

end

theorem agrees_breakStmt : Steady breakStmt SameStmt := by
  refine agrees_take.bind fun _ _ _ => (agrees_expect _).bind fun _ _ _ => ?_
  refine (agrees_markFrom _ _).bind fun mark mark' marks => .pure ?_
  simp only [SameStmt, Stmt.unplaced, Stmt.remark, marks]

theorem agrees_continueStmt : Steady continueStmt SameStmt := by
  refine agrees_take.bind fun _ _ _ => (agrees_expect _).bind fun _ _ _ => ?_
  refine (agrees_markFrom _ _).bind fun mark mark' marks => .pure ?_
  simp only [SameStmt, Stmt.unplaced, Stmt.remark, marks]

abbrev SameParameter (p p' : Parameter) : Prop :=
  p.remark Mark.unplaced = p'.remark Mark.unplaced

theorem agrees_parameter (before before' : List Parameter)
    (same : before.map (Parameter.remark Mark.unplaced) =
      before'.map (Parameter.remark Mark.unplaced)) :
    Agrees Stream.Alike (parameter before) (parameter before') SameParameter := by
  refine (agrees_expectWith _ _).bind fun name name' words => (agrees_expectWith _ _).bind
    fun _ _ _ => agrees_type.bind ?_
  rintro type _ rfl
  have named : ∀ all : List Parameter, all.any (fun other => other.name = name'.value) =
      (all.map (Parameter.remark Mark.unplaced)).any fun other => other.name = name'.value := by
    intro all
    rw [List.any_map]
    rfl
  have marked : Agrees Stream.Alike
      (do let parameter : Parameter := ⟨← Parse.markFrom name.span.start, name'.value, type⟩
          Parse.separator .closeParen "expected `,` between parameters"
          return parameter)
      (do let parameter : Parameter := ⟨← Parse.markFrom name'.span.start, name'.value, type⟩
          Parse.separator .closeParen "expected `,` between parameters"
          return parameter) SameParameter := by
    refine (agrees_markFrom _ _).bind fun mark mark' marks => (agrees_separator _ _).bind
      fun _ _ _ => .pure ?_
    simp only [SameParameter, Parameter.remark, marks]
  rw [Token.value_eq words, named before, named before', same]
  split
  · exact agrees_fail_bind _ _ _
  · exact .pure_bind marked

theorem agrees_parameters :
    Steady parameters fun ps ps' => ps.map (Parameter.remark Mark.unplaced) =
      ps'.map (Parameter.remark Mark.unplaced) :=
  (agrees_expect _).bind fun _ _ _ => (agrees_itemsBefore _ agrees_parameter).bind
    fun _ _ all => (agrees_expect _).bind fun _ _ _ => .pure all

section
variable {expr : ExprReader} {stmt : Parse Stmt}
  (reads : ∀ outer, Steady (expr outer) SameExpr) (inner : Steady stmt SameStmt)
include inner

theorem agrees_block : Steady (block stmt) fun b b' => b.unplaced = b'.unplaced := by
  refine (agrees_expectWith _ _).bind fun _ _ _ => ?_
  refine (agrees_itemsBefore Stmt.unplaced fun _ _ _ => ?item).bind fun body body' items => ?_
  case item =>
    refine agrees_kind_bind fun kind => ?_
    split
    · exact agrees_unexpectedWith_bind
    · exact inner
  refine (agrees_expect _).bind fun _ _ _ => (agrees_markFrom _ _).bind fun _ _ marks => .pure ?_
  simp only [Block.unplaced, Block.remark, marks, items]

theorem agrees_functionStmt : Steady (functionStmt stmt) SameStmt := by
  refine agrees_take.bind fun _ _ _ => (agrees_expectWith _ _).bind fun name name' same => ?_
  refine agrees_parameters.bind fun ps ps' all => agrees_returnType.bind ?_
  rintro returns _ rfl
  refine (agrees_block inner).bind fun body body' blocks => ?_
  refine (agrees_markFrom _ _).bind fun mark mark' marks => .pure ?_
  obtain ⟨inside, bodies⟩ := Block.mk.inj blocks
  simp only [SameStmt, Stmt.unplaced, Stmt.remark, Stmt.remarkAll_eq, marks, Token.value_eq same,
    inside, bodies]
  rw [all]

include reads

theorem agrees_branchStmt : Steady (branchStmt expr stmt) SameStmt := by
  refine agrees_take.bind fun token token' _ => (reads _).bind fun e e' condition => ?_
  refine (agrees_block inner).bind fun body body' blocks => agrees_kind_bind fun kind => ?_
  obtain ⟨inside, bodies⟩ := Block.mk.inj blocks
  have joined : ∀ other other' : Option Stmt, other.map Stmt.unplaced = other'.map Stmt.unplaced →
      Agrees Stream.Alike
        (do return Stmt.branch (← Parse.markFrom token.span.start) e body other)
        (do return Stmt.branch (← Parse.markFrom token'.span.start) e' body' other') SameStmt := by
    intro other other' others
    refine (agrees_markFrom _ _).bind fun mark mark' marks => .pure ?_
    simp only [SameStmt, Stmt.unplaced, Stmt.remark, Stmt.remarkAll_eq, Stmt.remarkOther_eq, marks,
      condition, inside, bodies, others]
  split
  · refine agrees_take.bind fun _ _ _ => agrees_kind_bind fun kind => ?_
    split
    · exact inner.bind fun s s' same => .pure_bind (joined _ _ (congrArg some same))
    · refine (agrees_block inner).bind fun b b' same => .pure_bind (joined _ _ ?_)
      simp only [Option.map_some, Stmt.unplaced, Stmt.remark_block, same]
  · exact .pure_bind (joined _ _ rfl)

theorem agrees_whileStmt : Steady (whileStmt expr stmt) SameStmt := by
  refine agrees_take.bind fun _ _ _ => (reads _).bind fun e e' condition => ?_
  refine (agrees_block inner).bind fun body body' blocks => ?_
  refine (agrees_markFrom _ _).bind fun mark mark' marks => .pure ?_
  obtain ⟨inside, bodies⟩ := Block.mk.inj blocks
  simp only [SameStmt, Stmt.unplaced, Stmt.remark, Stmt.remarkAll_eq, marks, condition, inside,
    bodies]

theorem agrees_repeatStmt : Steady (repeatStmt expr stmt) SameStmt := by
  refine agrees_take.bind fun _ _ _ => (reads _).bind fun e e' count => ?_
  refine (agrees_block inner).bind fun body body' blocks => ?_
  refine (agrees_markFrom _ _).bind fun mark mark' marks => .pure ?_
  obtain ⟨inside, bodies⟩ := Block.mk.inj blocks
  simp only [SameStmt, Stmt.unplaced, Stmt.remark, Stmt.remarkAll_eq, marks, count, inside, bodies]

theorem agrees_statement : Steady (statement expr stmt) SameStmt := by
  refine agrees_kind_bind fun kind => ?_
  have chosen : ∀ reader : Parse Stmt, Steady reader SameStmt →
      Agrees Stream.Alike reader reader SameStmt := fun _ => id
  refine chosen _ ?_
  split
  · exact agrees_declareStmt reads
  · exact agrees_namedStmt reads
  · exact agrees_assignStmt reads
  · exact agrees_branchStmt reads inner
  · exact agrees_whileStmt reads inner
  · exact agrees_repeatStmt reads inner
  · refine (agrees_block inner).bind fun b b' same => .pure ?_
    simp only [SameStmt, Stmt.unplaced, Stmt.remark_block, same]
  · exact agrees_functionStmt inner
  · exact agrees_returnStmt reads
  · exact agrees_breakStmt
  · exact agrees_continueStmt
  · exact agrees_expressionStmt reads

end

theorem agrees_stmtWithin (fuel : Nat) : Steady (stmtWithin fuel) SameStmt := by
  induction fuel with
  | zero => exact agrees_unexpected
  | succ fuel ih => exact agrees_statement (agrees_exprWithin fuel) ih

theorem agrees_program : Steady program fun p p' => p.unplaced = p'.unplaced := by
  refine agrees_place.bind fun start start' _ => Agrees.get.bind fun s s' alike => ?_
  rw [alike.limit]
  refine (agrees_itemsBefore Stmt.unplaced fun _ _ _ => agrees_stmtWithin _).bind
    fun body body' items => ?_
  refine agrees_freshId.bind ?_
  rintro id _ rfl
  refine agrees_place.bind fun _ _ _ => .pure ?_
  simp only [Program.unplaced, Program.remark, Block.remark, items]
  rfl

end Grammar

/-- Scripts whose tokens are the same words are read as trees that differ in their spans alone, or
refused for the same cause. -/
theorem Program.matched_ofTokens {tokens tokens' : List Token}
    (words : tokens.map Token.word = tokens'.map Token.word) (file file' : String) :
    Matched (fun p p' => Program.unplaced p = Program.unplaced p') (ofTokens tokens file)
      (ofTokens tokens' file') :=
  (Grammar.agrees_program _ _ (Grammar.alike_ofTokens words file file' 0)).map Prod.fst
    fun _ _ read => read.1

end CursorScript
