import CursorScript.Proofs.Charts
import CursorScript.Proofs.Nodes

/-!
Trees at places of a chart. A reader that is given tokens at places that a chart shows makes nodes
from their ends, so the nodes stand at such places too, and so does what the reader fails with.
Expressions inside texts are read from tokens of their own, which stand where the text does.
-/
namespace CursorScript
open Position (Within)

structure Mark.Placed (chart : Chart) (mark : Mark) : Prop where
  start : chart.Good mark.span.start
  stop : chart.Good mark.span.stop

def Node.Placed (chart : Chart) (n : Node) : Prop := ∀ q, n.Shows q → chart.Good q

namespace Node
variable {chart : Chart} {n : Node}

theorem Placed.mark (h : n.Placed chart) : n.mark.Placed chart :=
  ⟨h _ (shows_start (mem_postorder_self n)),
    h _ ⟨n, mem_postorder_self n, by simp [positions]⟩⟩

/-- A node is placed if its own mark is, and all that it holds. -/
theorem placed_of_mark (mark : n.mark.Placed chart)
    (operator : ∀ token ∈ n.operator?, token.Placed chart)
    (children : ∀ child ∈ n.children, child.Placed chart) : n.Placed chart := by
  rintro q ⟨inner, mem, shown⟩
  rw [postorder_eq, List.mem_append, List.mem_singleton] at mem
  rcases mem with deeper | rfl
  · obtain ⟨child, held, inside⟩ := List.mem_flatMap.1 deeper
    exact children child held q ⟨inner, inside, shown⟩
  · simp only [positions, List.flatMap_cons, List.mem_append, List.mem_flatMap, List.mem_map,
      Option.mem_toList, List.mem_cons, List.not_mem_nil, or_false] at shown
    rcases shown with (rfl | rfl) | ⟨_, ⟨token, kept, rfl⟩, rfl | rfl⟩
    · exact mark.start
    · exact mark.stop
    · exact (operator token kept).start
    · exact (operator token kept).stop

/-- A node that keeps no operator. -/
theorem placed_of_children (mark : n.mark.Placed chart) (plain : n.operator? = none)
    (children : ∀ child ∈ n.children, child.Placed chart) : n.Placed chart := by
  refine placed_of_mark mark ?_ children
  simp [plain]

end Node

namespace Grammar
variable {chart : Chart}

structure Stream.Placed (chart : Chart) (s : Stream) : Prop where
  rest : ∀ token ∈ s.rest, token.Placed chart
  last : s.last.Placed chart
  finish : chart.Good s.finish

def Landed {α : Type} (chart : Chart) (post : α → Prop) :
    Except Error (α × Stream) → Prop
  | .error e => chart.Good e.position
  | .ok (a, s) => post a ∧ s.Placed chart

/-- A reader of placed tokens fails at a place of the chart, or reads something that is as `post`
says. -/
def Reads {α : Type} (chart : Chart) (reader : Parse α) (post : α → Prop) :
    Prop :=
  ∀ s : Stream, s.Placed chart → Landed chart post (reader.run s)

section rules
variable {α β : Type} {reader : Parse α} {next : α → Parse β} {mid : α → Prop} {post : β → Prop}

theorem Reads.bind (h : Reads chart reader mid)
    (rest : ∀ a, mid a → Reads chart (next a) post) :
    Reads chart (reader >>= next) post := by
  intro s placed
  have ran := h s placed
  rw [StateT.run_bind]
  cases done : reader.run s with
  | error e =>
    rw [done] at ran
    exact ran
  | ok result =>
    rw [done] at ran
    exact rest result.1 ran.1 result.2 ran.2

theorem Reads.then (h : Reads chart reader mid)
    (rest : ∀ a, Reads chart (next a) post) : Reads chart (reader >>= next) post :=
  h.bind fun a _ => rest a

theorem Reads.pure {b : β} (h : post b) : Reads chart (pure b : Parse β) post :=
  fun _ placed => ⟨h, placed⟩

theorem Reads.pure_bind {a : α} (h : Reads chart (next a) post) :
    Reads chart (Pure.pure a >>= next) post := by
  rwa [LawfulMonad.pure_bind]

theorem Reads.fail {p : Position} (h : chart.Good p) (cause : Cause) :
    Reads chart (Parse.fail cause p : Parse β) post := fun _ _ => h

theorem Reads.fail_bind {p : Position} (h : chart.Good p) (cause : Cause) :
    Reads chart (Parse.fail cause p >>= next) post := fun _ _ => h

end rules

theorem Stream.Placed.current {s : Stream} (h : s.Placed chart) :
    s.current.Placed chart := by
  unfold Stream.current
  cases held : s.rest with
  | nil => exact h.last
  | cons token rest => exact h.rest token (by simp [held])

theorem Stream.Placed.advance {s : Stream} (h : s.Placed chart) :
    s.advance.Placed chart := by
  refine ⟨fun token mem => h.rest token (List.mem_of_mem_tail mem), h.last, ?_⟩
  cases held : s.rest with
  | nil => simpa [Stream.advance, held] using h.finish
  | cons token rest =>
    have first := h.rest token (by simp [held])
    simpa [Stream.advance, held] using first.stop

theorem Stream.Placed.repeat {s : Stream} (h : s.Placed chart) (n : Nat) :
    (Nat.repeat Stream.advance n s).Placed chart := by
  induction n with
  | zero => exact h
  | succ n ih => exact ih.advance

section readers
variable {α : Type} {post : α → Prop}

theorem reads_get : Reads chart get fun s : Stream => s.Placed chart :=
  fun _ placed => ⟨placed, placed⟩

theorem reads_current : Reads chart Parse.current (Token.Placed chart) :=
  fun _ placed => ⟨placed.current, placed⟩

theorem reads_kind : Reads chart Parse.kind fun _ => True := fun _ placed => ⟨trivial, placed⟩

theorem reads_place : Reads chart Parse.place (chart.Good) :=
  fun _ placed => ⟨placed.current.start, placed⟩

theorem reads_take : Reads chart Parse.take (Token.Placed chart) :=
  fun _ placed => ⟨placed.current, placed.advance⟩

theorem reads_unexpected : Reads chart (Parse.unexpected : Parse α) post :=
  reads_current.bind fun _ token => .fail token.start _

theorem reads_unexpected_bind {β : Type} {next : β → Parse α} :
    Reads chart (Parse.unexpected >>= next) post := fun _ placed => placed.current.start

theorem reads_unexpectedWith_bind {β : Type} {next : β → Parse α} {message : String} :
    Reads chart (Parse.unexpectedWith message >>= next) post :=
  fun _ placed => placed.current.start

theorem reads_unexpectedWith (message : String) :
    Reads chart (Parse.unexpectedWith message : Parse α) post :=
  reads_current.bind fun _ token => .fail token.start _

theorem reads_expect (wanted : TokenKind) :
    Reads chart (Parse.expect wanted) (Token.Placed chart) := by
  refine reads_kind.then fun kind => ?_
  split
  · exact reads_take
  · exact reads_unexpected

theorem reads_expectWith (wanted : TokenKind) (message : String) :
    Reads chart (Parse.expectWith wanted message) (Token.Placed chart) := by
  refine reads_kind.then fun kind => ?_
  split
  · exact reads_take
  · exact reads_unexpectedWith message

theorem reads_freshId : Reads chart Parse.freshId fun _ => True :=
  fun _ placed => ⟨trivial, placed.rest, placed.last, placed.finish⟩

theorem reads_markFrom {start : Position} (h : chart.Good start) :
    Reads chart (Parse.markFrom start) (Mark.Placed chart) :=
  fun _ placed => ⟨⟨h, placed.finish⟩, placed.rest, placed.last, placed.finish⟩

theorem reads_separator (close : TokenKind) (message : String) :
    Reads chart (Parse.separator close message) fun _ => True := by
  refine reads_kind.then fun kind => ?_
  split
  · exact .pure trivial
  · exact (reads_expectWith _ _).then fun _ => .pure trivial

theorem reads_itemsUntil {close : TokenKind} {item : List α → Parse α}
    (h : ∀ before, Reads chart (item before) post) (fuel : Nat) (before : List α)
    (read : ∀ a ∈ before, post a) :
    Reads chart (Parse.itemsUntil close item fuel before) fun all => ∀ a ∈ all, post a := by
  induction fuel generalizing before with
  | zero => exact reads_unexpected
  | succ fuel ih =>
    refine reads_kind.then fun kind => ?_
    split
    · exact .pure (by simpa using read)
    · exact (h before).bind fun a first => ih (a :: before) (List.forall_mem_cons.2 ⟨first, read⟩)

theorem reads_itemsBefore {close : TokenKind} {item : List α → Parse α}
    (h : ∀ before, Reads chart (item before) post) :
    Reads chart (Parse.itemsBefore close item) fun all => ∀ a ∈ all, post a :=
  reads_get.then fun _ => reads_itemsUntil h _ [] (by simp)

end readers

theorem reads_primitiveType : Reads chart primitiveType fun _ => True := by
  refine (reads_expect _).bind fun token placed => ?_
  split
  · exact .pure trivial
  · exact .fail placed.start _

theorem reads_literalMembers (fuel : Nat) (before : NameSet) :
    Reads chart (literalMembers fuel before) fun _ => True := by
  induction fuel generalizing before with
  | zero => exact reads_unexpected
  | succ fuel ih =>
    refine (reads_expectWith _ _).then fun member => reads_kind.then fun kind => ?_
    split
    · exact reads_take.then fun _ => ih _
    · exact .pure trivial

theorem reads_typeWithin (fuel : Nat) : Reads chart (typeWithin fuel) fun _ => True := by
  induction fuel with
  | zero => exact reads_unexpected
  | succ fuel ih =>
    refine reads_kind.then fun kind => ?_
    split
    · exact reads_primitiveType
    · exact (reads_expect _).then fun _ => ih.then fun _ => (reads_expectWith _ _).then fun _ =>
        .pure trivial
    · exact (reads_expect _).then fun _ => ih.then fun _ => (reads_expectWith _ _).then fun _ =>
        ih.then fun _ => (reads_expectWith _ _).then fun _ => .pure trivial
    · exact (reads_expect _).then fun _ => reads_get.then fun _ =>
        (reads_literalMembers _ _).then fun _ => (reads_expectWith _ _).then fun _ => .pure trivial
    · exact reads_unexpectedWith _

theorem reads_type : Reads chart type fun _ => True :=
  reads_get.then fun _ => reads_typeWithin _

theorem reads_returnType : Reads chart returnType fun _ => True := by
  refine reads_kind.then fun kind => ?_
  split
  · exact reads_take.then fun _ => reads_type.then fun _ => .pure trivial
  · exact .pure trivial

theorem reads_atom :
    Reads chart atom fun e => (Node.expr e).Placed chart := by
  refine reads_current.bind fun token placed => reads_freshId.then fun id => ?_
  have mark : Mark.Placed chart ⟨id, token.span⟩ := ⟨placed.start, placed.stop⟩
  have made : ∀ e : Expr, e.mark = ⟨id, token.span⟩ → (Node.expr e).operator? = none →
      (Node.expr e).children = [] →
      Reads chart (Pure.pure e >>= fun e => Parse.take >>= fun _ => Pure.pure e) fun e =>
        (Node.expr e).Placed chart := by
    intro e same plain none
    refine .pure_bind (reads_take.then fun _ => .pure ?_)
    refine Node.placed_of_children ?_ plain (by simp [none])
    rw [Node.mark, same]
    exact mark
  dsimp only
  split
  · split
    · exact made _ rfl rfl rfl
    · exact .fail_bind placed.start _
  · split
    · exact made _ rfl rfl rfl
    · exact .fail_bind placed.start _
  · exact made _ rfl rfl rfl
  · exact made _ rfl rfl rfl
  · exact made _ rfl rfl rfl
  · split
    · exact made _ rfl rfl rfl
    · exact made _ rfl rfl rfl
  · exact made _ rfl rfl rfl
  · exact reads_unexpected_bind

theorem reads_scopedSymbol :
    Reads chart scopedSymbol fun symbol => symbol.mark.Placed chart := by
  have skipped : ∀ up, Reads chart (modify (Nat.repeat Stream.advance up)) fun _ => True :=
    fun up s placed => ⟨trivial, placed.repeat up⟩
  refine reads_place.bind fun start true => reads_get.then fun _ => (skipped _).then fun _ => ?_
  exact (reads_expectWith _ _).then fun _ => (reads_markFrom true).bind fun _ mark => .pure mark

def ReadsExprsPlaced (chart : Chart) (expr : ExprReader) : Prop :=
  ∀ outer, Reads chart (expr outer) fun e => (Node.expr e).Placed chart

theorem placed_ofTokens {tokens : List Token} {file : String}
    (h : ∀ token ∈ tokens, token.Placed chart)
    (opens : tokens = [] → chart.Good (Position.start file)) (nextId : Nat) :
    (Stream.ofTokens tokens file nextId).Placed chart := by
  have placed : ∀ (rest : List Token) (last : Token), (∀ token ∈ rest, token.Placed chart) →
      last.Placed chart → Stream.Placed chart
        ⟨rest, last, (rest.headD last).span.start, nextId, weight rest + 1,
          Nat.lt_succ_self _⟩ := by
    intro rest last ahead closing
    refine ⟨ahead, closing, ?_⟩
    cases rest with
    | nil => exact closing.start
    | cons token more => exact (ahead token List.mem_cons_self).start
  unfold Stream.ofTokens
  cases found : tokens.getLast? with
  | none =>
    have start := opens (List.getLast?_eq_none_iff.1 found)
    exact placed [] _ (by simp) (Token.placed_ending start)
  | some token =>
    have closing := h token (List.mem_of_getLast? found)
    dsimp only
    split
    · exact placed _ _ (fun other mem => h other (List.dropLast_subset _ mem)) closing
    · exact placed _ _ h (Token.placed_ending closing.stop)

section expressions
variable {expr : ExprReader} (reads : ReadsExprsPlaced chart expr)
include reads

theorem reads_unaryExpr :
    Reads chart (unaryExpr expr) fun e => (Node.expr e).Placed chart := by
  refine reads_take.bind fun token operator => (reads _).bind fun e operand => ?_
  refine reads_freshId.then fun id => .pure ?_
  refine Node.placed_of_mark ⟨operator.start, operand.mark.stop⟩ ?_ ?_
  · rintro _ ⟨⟩
    exact operator
  · simpa [Node.children] using operand

theorem reads_grouping :
    Reads chart (grouping expr) fun e => (Node.expr e).Placed chart :=
  reads_take.then fun _ => (reads _).bind fun _ inner => (reads_expectWith _ _).then fun _ =>
    .pure inner

theorem reads_exprList (close : TokenKind) :
    Reads chart (exprList expr close) fun es =>
      ∀ e ∈ es, (Node.expr e).Placed chart := by
  refine (reads_itemsBefore fun _ => ?_).bind fun es items =>
    (reads_expect _).then fun _ => .pure items
  exact (reads _).bind fun _ item => (reads_separator _ _).then fun _ => .pure item

theorem reads_listExpr :
    Reads chart (listExpr expr) fun e => (Node.expr e).Placed chart := by
  refine reads_take.bind fun token start => (reads_exprList reads _).bind fun es elements => ?_
  refine (reads_markFrom start.start).bind fun mark placed => .pure ?_
  exact Node.placed_of_children placed rfl (List.forall_mem_map.2 elements)

theorem reads_mapEntry :
    Reads chart (mapEntry expr) fun entry =>
      (Node.expr entry.1).Placed chart ∧ (Node.expr entry.2).Placed chart :=
  (reads _).bind fun _ key => (reads_expectWith _ _).then fun _ => (reads _).bind fun _ value =>
    (reads_separator _ _).then fun _ => .pure ⟨key, value⟩

theorem reads_mapExpr :
    Reads chart (mapExpr expr) fun e => (Node.expr e).Placed chart := by
  refine reads_take.bind fun token start =>
    (reads_itemsBefore fun _ => reads_mapEntry reads).bind fun entries placed => ?_
  refine (reads_expect _).then fun _ => (reads_markFrom start.start).bind fun mark here => .pure ?_
  refine Node.placed_of_children here rfl fun child held => ?_
  obtain ⟨entry, mem, either⟩ := List.mem_flatMap.1 held
  simp only [List.mem_cons, List.not_mem_nil, or_false] at either
  rcases either with rfl | rfl
  · exact (placed entry mem).1
  · exact (placed entry mem).2

omit reads in
theorem reads_memberExpr :
    Reads chart memberExpr fun e => (Node.expr e).Placed chart :=
  reads_take.bind fun _ token => (reads_expectWith _ _).then fun _ =>
    (reads_expectWith _ _).then fun _ => (reads_markFrom token.start).bind fun _ mark =>
      .pure (Node.placed_of_children mark rfl (by simp [Node.children]))

/-- What is embedded in a text is read from tokens that stand where it does. -/
theorem reads_fragment {source : List Char} {start : Position} (h : chart.Sits start source) :
    Reads chart (fragment expr source start) fun e => (Node.expr e).Placed chart := by
  have scanned : Reads chart (StateT.lift (Token.scan start source)) fun tokens =>
      tokens ≠ [] ∧ ∀ token ∈ tokens, token.Placed chart := by
    intro s placed
    obtain ⟨faults, tokens⟩ := Token.placed_of_scan start source h
    rw [StateT.run_lift]
    cases done : Token.scan start source with
    | error e => exact faults e done
    | ok read => exact ⟨⟨Token.ne_nil_of_scan done, tokens read done⟩, placed⟩
  have goOn : ∀ s : Stream, s.Placed chart → Reads chart (set s) fun _ => True :=
    fun s placed _ _ => ⟨trivial, placed⟩
  refine reads_get.bind fun outer placed => scanned.bind fun tokens ⟨nonempty, inside⟩ => ?_
  have opens : tokens = [] → chart.Good (Position.start start.file) :=
    fun none => absurd none nonempty
  refine (goOn _ (placed_ofTokens inside opens outer.nextId)).then fun _ => ?_
  refine (reads _).bind fun e inner => reads_kind.then fun kind => ?_
  dsimp only
  split
  · exact reads_unexpectedWith_bind
  · refine reads_get.then fun last => (goOn _ ?_).then fun _ => .pure inner
    exact ⟨placed.rest, placed.last, placed.finish⟩

theorem reads_interpolationParts {start : Position} (h : chart.Good start) :
    ∀ pieces : List Piece, (∀ piece ∈ pieces, piece.Placed chart) →
      Reads chart (interpolationParts expr start pieces) fun parts =>
        ∀ e ∈ Part.embedded parts, (Node.expr e).Placed chart
  | [], _ => .pure (by simp [Part.embedded])
  | .chars raw :: rest, placed => by
    have others := reads_interpolationParts h rest (List.forall_mem_cons.1 placed).2
    unfold interpolationParts
    split
    · exact others.bind fun _ more => .pure more
    · exact .fail h _
  | .code source place :: rest, placed => by
    obtain ⟨first, more⟩ := List.forall_mem_cons.1 placed
    refine (reads_fragment reads first).bind fun e inner => ?_
    refine (reads_interpolationParts h rest more).bind fun parts others => .pure ?_
    exact List.forall_mem_cons.2 ⟨inner, others⟩
  | .unclosed raw place :: rest, placed => .fail (List.forall_mem_cons.1 placed).1 _

/-- Only tokens between backticks are read as interpolated texts. -/
theorem reads_interpolation {s : Stream} (placed : s.Placed chart)
    (kind : s.current.kind = .interpolation) :
    Landed chart (fun e => (Node.expr e).Placed chart)
      ((interpolation expr).run s) := by
  have token := placed.current
  have stands : chart.Sits (s.current.span.start.advance '\x60') s.current.value.toList :=
    token.inside kind
  have parts := reads_interpolationParts reads token.start _ (placed_pieces _ [] _ stands)
  have made : Reads chart (do
      let parts ← interpolationParts expr s.current.span.start
        (pieces (s.current.span.start.advance '\x60') [] s.current.value.toList)
      return Expr.interpolation ⟨← Parse.freshId, s.current.span⟩ parts)
      fun e => (Node.expr e).Placed chart := by
    refine parts.bind fun parts inner => reads_freshId.then fun id => .pure ?_
    exact Node.placed_of_children ⟨token.start, token.stop⟩ rfl (List.forall_mem_map.2 inner)
  exact made s.advance placed.advance

theorem reads_operand :
    Reads chart (operand expr) fun e => (Node.expr e).Placed chart := by
  intro s placed
  have looked : ∀ next : TokenKind → Parse Expr,
      Landed chart (fun e => (Node.expr e).Placed chart) ((next s.current.kind).run s) →
      Landed chart (fun e => (Node.expr e).Placed chart)
        ((Parse.kind >>= next).run s) := fun _ h => h
  refine looked _ ?_
  split
  iterate 7 exact reads_atom s placed
  · refine (reads_scopedSymbol.bind fun symbol mark => .pure ?_) s placed
    exact Node.placed_of_children mark rfl (by simp [Node.children])
  · next kind => exact reads_interpolation reads placed kind
  · exact reads_memberExpr s placed
  · exact reads_listExpr reads s placed
  · exact reads_mapExpr reads s placed
  · exact reads_unaryExpr reads s placed
  · exact reads_unaryExpr reads s placed
  · exact reads_grouping reads s placed
  · exact reads_unexpected s placed

variable {left : Expr} (before : (Node.expr left).Placed chart)
include before

theorem reads_callExpr :
    Reads chart (callExpr expr left) fun e => (Node.expr e).Placed chart := by
  unfold callExpr
  split
  · refine reads_take.then fun _ => (reads_exprList reads _).bind fun es arguments => ?_
    refine (reads_markFrom before.mark.start).bind fun mark placed => .pure ?_
    exact Node.placed_of_children placed rfl (List.forall_mem_map.2 arguments)
  · exact reads_unexpectedWith _

theorem reads_indexExpr :
    Reads chart (indexExpr expr left) fun e => (Node.expr e).Placed chart := by
  refine reads_take.then fun _ => (reads _).bind fun e inside =>
    (reads_expectWith _ _).then fun _ => ?_
  refine (reads_markFrom before.mark.start).bind fun mark placed => .pure ?_
  refine Node.placed_of_children placed rfl ?_
  simpa [Node.children] using ⟨before, inside⟩

theorem reads_binaryExpr :
    Reads chart (binaryExpr expr left) fun e => (Node.expr e).Placed chart := by
  refine reads_take.bind fun token operator => (reads _).bind fun e right => ?_
  refine reads_freshId.then fun id => .pure ?_
  refine Node.placed_of_mark ⟨before.mark.start, right.mark.stop⟩ ?_ ?_
  · rintro _ ⟨⟩
    exact operator
  · simpa [Node.children] using ⟨before, right⟩

theorem reads_climb (outer : Power) (fuel : Nat) :
    Reads chart (climb expr outer fuel left) fun e => (Node.expr e).Placed chart := by
  induction fuel generalizing left with
  | zero => exact reads_unexpected
  | succ fuel ih =>
    refine reads_kind.then fun kind => ?_
    split
    · exact .pure before
    · refine .bind ?_ fun e more => ih more
      refine reads_kind.then fun kind => ?_
      split
      · exact reads_callExpr reads before
      · exact reads_indexExpr reads before
      · exact reads_binaryExpr reads before

end expressions

theorem reads_exprWithin (fuel : Nat) : ReadsExprsPlaced chart (exprWithin fuel) := by
  induction fuel with
  | zero => exact fun _ => reads_unexpected
  | succ fuel ih =>
    exact fun outer => (reads_operand ih).bind fun _ left => reads_get.then fun _ =>
      reads_climb ih left outer _

abbrev ReadsStmtsPlaced (chart : Chart) (stmt : Parse Stmt) : Prop :=
  Reads chart stmt fun s => (Node.stmt s).Placed chart

section statements
variable {expr : ExprReader} {stmt : Parse Stmt} (reads : ReadsExprsPlaced chart expr)
  (body : ReadsStmtsPlaced chart stmt)

section plain
include reads

theorem reads_expressionStmt : ReadsStmtsPlaced chart (expressionStmt expr) := by
  refine (reads _).bind fun e inner => (reads_expect _).then fun _ => ?_
  refine (reads_markFrom inner.mark.start).bind fun mark placed => .pure ?_
  exact Node.placed_of_children placed rfl (by simpa [Node.children] using inner)

theorem reads_declareStmt : ReadsStmtsPlaced chart (declareStmt expr) := by
  refine reads_take.bind fun token start => (reads_expectWith _ _).then fun _ =>
    (reads_expectWith _ _).then fun _ => reads_type.then fun _ =>
    (reads_expectWith _ _).then fun _ =>
    (reads _).bind fun e value => (reads_expect _).then fun _ => ?_
  refine (reads_markFrom start.start).bind fun mark placed => .pure ?_
  exact Node.placed_of_children placed rfl (by simpa [Node.children] using value)

theorem reads_assignStmt : ReadsStmtsPlaced chart (assignStmt expr) := by
  refine reads_place.bind fun p start => reads_scopedSymbol.bind fun symbol target =>
    reads_current.bind fun token operator => ?_
  dsimp only
  split
  · exact reads_unexpectedWith_bind
  · refine reads_take.then fun _ => (reads _).bind fun e value => (reads_expect _).then fun _ =>
      (reads_markFrom start).bind fun mark placed => .pure ?_
    refine Node.placed_of_mark placed ?_ ?_
    · rintro _ ⟨⟩
      exact operator
    · have left : (Node.target symbol).Placed chart :=
        Node.placed_of_children target rfl (by simp [Node.children])
      simpa [Node.children] using ⟨left, value⟩

theorem reads_commandStmt : ReadsStmtsPlaced chart (commandStmt expr) := by
  refine reads_take.bind fun name start => ?_
  have item : Reads chart (do
      let argument ← expr .loosest
      Parse.separator .semicolon "expected `,` between arguments"
      return argument) fun e => (Node.expr e).Placed chart :=
    (reads _).bind fun e inner => (reads_separator _ _).then fun _ => .pure inner
  refine (reads_itemsBefore fun _ => item).bind fun es arguments => ?_
  refine (reads_markFrom start.start).bind fun inner called => (reads_expect _).then fun _ =>
    (reads_markFrom start.start).bind fun mark placed => .pure ?_
  have call : (Node.expr (.call inner name.value es)).Placed chart :=
    Node.placed_of_children called rfl (List.forall_mem_map.2 arguments)
  exact Node.placed_of_children placed rfl (by simpa [Node.children] using call)

theorem reads_namedStmt : ReadsStmtsPlaced chart (namedStmt expr) := by
  refine reads_get.then fun stream => ?_
  dsimp only
  split
  · exact reads_assignStmt reads
  · split
    · exact reads_expressionStmt reads
    · exact reads_commandStmt reads

theorem reads_returnStmt : ReadsStmtsPlaced chart (returnStmt expr) := by
  refine reads_take.bind fun token start => reads_kind.then fun kind => ?_
  have finish : ∀ value : Option Expr, (∀ e ∈ value, (Node.expr e).Placed chart) →
      ReadsStmtsPlaced chart (do
        let _ ← Parse.expect .semicolon
        return Stmt.ret (← Parse.markFrom token.span.start) value) := by
    intro value inner
    refine (reads_expect _).then fun _ =>
      (reads_markFrom start.start).bind fun mark placed => .pure ?_
    refine Node.placed_of_children placed rfl ?_
    simpa [Node.children] using inner
  dsimp only
  split
  · exact .pure_bind (finish none (by simp))
  · exact (reads _).bind fun e value => .pure_bind (finish (some e) (by simpa using value))

end plain

theorem reads_breakStmt : ReadsStmtsPlaced chart breakStmt :=
  reads_take.bind fun _ token => (reads_expect _).then fun _ =>
    (reads_markFrom token.start).bind fun _ mark =>
      .pure (Node.placed_of_children mark rfl (by simp [Node.children]))

theorem reads_continueStmt : ReadsStmtsPlaced chart continueStmt :=
  reads_take.bind fun _ token => (reads_expect _).then fun _ =>
    (reads_markFrom token.start).bind fun _ mark =>
      .pure (Node.placed_of_children mark rfl (by simp [Node.children]))

theorem reads_parameters :
    Reads chart parameters fun ps => ∀ p ∈ ps, (Node.parameter p).Placed chart := by
  have item : ∀ before, Reads chart (parameter before) fun p =>
      (Node.parameter p).Placed chart := by
    intro before
    refine (reads_expectWith _ _).bind fun name start => (reads_expectWith _ _).then fun _ =>
      reads_type.then fun type => ?_
    dsimp only
    split
    · exact .fail_bind start.start _
    · exact (reads_markFrom start.start).bind fun mark placed => (reads_separator _ _).then fun _ =>
        .pure (Node.placed_of_children placed rfl (by simp [Node.children]))
  exact (reads_expect _).then fun _ => (reads_itemsBefore item).bind fun ps all =>
    (reads_expect _).then fun _ => .pure all

section nested
include body

theorem reads_block :
    Reads chart (block stmt) fun b => b.mark.Placed chart ∧
      ∀ s ∈ b.body, (Node.stmt s).Placed chart := by
  have item : ReadsStmtsPlaced chart (do
      if (← Parse.kind) = .eof then Parse.unexpectedWith "expected `\x7d` to close the block"
      stmt) := by
    refine reads_kind.then fun kind => ?_
    dsimp only
    split
    · exact reads_unexpectedWith_bind
    · exact body
  exact (reads_expectWith _ _).bind fun _ start =>
    (reads_itemsBefore fun _ => item).bind fun _ all =>
    (reads_expect _).then fun _ => (reads_markFrom start.start).bind fun _ mark => .pure ⟨mark, all⟩

omit body in
theorem placed_block {b : Block Stmt}
    (h : b.mark.Placed chart ∧ ∀ s ∈ b.body, (Node.stmt s).Placed chart) :
    (Node.block b).Placed chart :=
  Node.placed_of_children h.1 rfl (List.forall_mem_map.2 h.2)

include reads

theorem reads_branchStmt : ReadsStmtsPlaced chart (branchStmt expr stmt) := by
  refine reads_take.bind fun token start => (reads _).bind fun e condition =>
    (reads_block body).bind fun b inside => ?_
  have finish : ∀ other : Option Stmt, (∀ s ∈ other, (Node.stmt s).Placed chart) →
      ReadsStmtsPlaced chart (do
        return Stmt.branch (← Parse.markFrom token.span.start) e b other) := by
    intro other more
    refine (reads_markFrom start.start).bind fun mark placed => .pure ?_
    refine Node.placed_of_children placed rfl ?_
    refine List.forall_mem_cons.2 ⟨condition, List.forall_mem_cons.2 ⟨placed_block inside, ?_⟩⟩
    simpa using more
  refine reads_kind.then fun kind => ?_
  dsimp only
  split
  · refine reads_take.then fun _ => reads_kind.then fun kind => ?_
    split
    · exact body.bind fun s other => .pure_bind (finish (some s) (by simpa using other))
    · refine (reads_block body).bind fun b' other => .pure_bind (finish (some (.block b')) ?_)
      have block : (Node.stmt (.block b')).Placed chart :=
        Node.placed_of_children other.1 rfl (List.forall_mem_map.2 other.2)
      simpa using block
  · exact .pure_bind (finish none (by simp))

theorem reads_whileStmt : ReadsStmtsPlaced chart (whileStmt expr stmt) := by
  refine reads_take.bind fun token start => (reads _).bind fun e condition =>
    (reads_block body).bind fun b inside =>
    (reads_markFrom start.start).bind fun mark placed => .pure ?_
  refine Node.placed_of_children placed rfl ?_
  simpa [Node.children] using ⟨condition, placed_block inside⟩

theorem reads_repeatStmt : ReadsStmtsPlaced chart (repeatStmt expr stmt) := by
  refine reads_take.bind fun token start => (reads _).bind fun e count =>
    (reads_block body).bind fun b inside =>
    (reads_markFrom start.start).bind fun mark placed => .pure ?_
  refine Node.placed_of_children placed rfl ?_
  simpa [Node.children] using ⟨count, placed_block inside⟩

omit reads in
theorem reads_functionStmt : ReadsStmtsPlaced chart (functionStmt stmt) := by
  refine reads_take.bind fun token start => (reads_expectWith _ _).then fun _ =>
    reads_parameters.bind fun ps parameters => reads_returnType.then fun _ =>
    (reads_block body).bind fun b inside =>
    (reads_markFrom start.start).bind fun mark placed => .pure ?_
  refine Node.placed_of_children placed rfl fun child held => ?_
  rcases List.mem_append.1 held with parameter | block
  · obtain ⟨p, mem, rfl⟩ := List.mem_map.1 parameter
    exact parameters p mem
  · cases List.mem_singleton.1 block
    exact placed_block inside

theorem reads_statement : ReadsStmtsPlaced chart (statement expr stmt) := by
  refine reads_kind.then fun kind => ?_
  split
  · exact reads_declareStmt reads
  · exact reads_namedStmt reads
  · exact reads_assignStmt reads
  · exact reads_branchStmt reads body
  · exact reads_whileStmt reads body
  · exact reads_repeatStmt reads body
  · refine (reads_block body).bind fun b inside => .pure ?_
    exact Node.placed_of_children inside.1 rfl (List.forall_mem_map.2 inside.2)
  · exact reads_functionStmt body
  · exact reads_returnStmt reads
  · exact reads_breakStmt
  · exact reads_continueStmt
  · exact reads_expressionStmt reads

end nested

end statements

theorem reads_stmtWithin (fuel : Nat) : ReadsStmtsPlaced chart (stmtWithin fuel) := by
  induction fuel with
  | zero => exact reads_unexpected
  | succ fuel ih => exact reads_statement (reads_exprWithin fuel) ih

theorem reads_program : Reads chart program fun p => (Node.block p).Placed chart := by
  refine reads_place.bind fun start here => reads_get.then fun stream => ?_
  refine (reads_itemsBefore fun _ => reads_stmtWithin _).bind fun body all => ?_
  refine reads_freshId.then fun id => reads_place.bind fun stop there => .pure ?_
  exact Node.placed_of_children ⟨here, there⟩ rfl (List.forall_mem_map.2 all)

end Grammar

/-- A tree that is read from placed tokens is placed, and so is the error if there is no tree. -/
theorem Program.landed_ofTokens {chart : Chart} {tokens : List Token} {file : String}
    (h : ∀ token ∈ tokens, token.Placed chart)
    (opens : tokens = [] → chart.Good (Position.start file)) :
    (∀ e, Program.ofTokens tokens file = .error e → chart.Good e.position) ∧
    ∀ p, Program.ofTokens tokens file = .ok p → (Node.block p).Placed chart := by
  have ran := Grammar.reads_program _ (Grammar.placed_ofTokens h opens 0)
  unfold Program.ofTokens
  cases done : Grammar.program.run (Grammar.Stream.ofTokens tokens file 0) with
  | error e =>
    rw [done] at ran
    refine ⟨fun e' failed => ?_, nofun⟩
    cases failed
    exact ran
  | ok result =>
    rw [done] at ran
    refine ⟨nofun, fun p read => ?_⟩
    cases read
    exact ran.1

/-- The same for all places of a script. -/
theorem Program.placed_of_ofTokens {script : List Char} {file : String} {tokens : List Token}
    (h : ∀ token ∈ tokens, token.Placed (.whole script file)) :
    (∀ e, Program.ofTokens tokens file = .error e → Within script file e.position) ∧
    ∀ p, Program.ofTokens tokens file = .ok p → (Node.block p).Placed (.whole script file) :=
  landed_ofTokens h fun _ => (Position.sits_start script file).within

end CursorScript
