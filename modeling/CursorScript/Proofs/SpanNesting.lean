import CursorScript.Proofs.Rows

/-!
Spans nest. A reader goes on from where the token that it took last ends, so a node covers what was
taken between its first token and its last, and what it holds lies inside it, one behind the other.
What is embedded in a text is read from tokens of its own, which lie between the quotes of the text.
-/
namespace CursorScript
open CursorScript.Span (Row)

namespace Grammar
open Node (Laid)

/-- The tokens ahead follow the one that was taken last, and the closing one stands behind them. -/
structure Stream.Ordered (s : Stream) : Prop where
  row : Row s.finish.offset (s.rest.map Token.span) s.last.span.start.offset
  last : s.last.kind = .eof
  quoted : ∀ token ∈ s.rest, token.Quoted

structure Stream.Behind (s t : Stream) : Prop where
  ordered : t.Ordered
  last : t.last = s.last
  finish : s.finish.offset ≤ t.finish.offset

structure Stream.Same (s t : Stream) : Prop where
  rest : t.rest = s.rest
  last : t.last = s.last
  finish : t.finish = s.finish

structure Stream.Took (s : Stream) (token : Token) (t : Stream) : Prop where
  current : token = s.current
  behind : s.Behind t
  start : s.finish.offset ≤ token.span.start.offset
  filled : token.span.start.offset < token.span.stop.offset
  stop : token.span.stop = t.finish

structure Stream.Read (s : Stream) (nodes : List Node) (t : Stream) : Prop where
  behind : s.Behind t
  laid : Laid s.finish.offset nodes t.finish.offset

namespace Stream
variable {s t u v : Stream} {token : Token} {nodes more : List Node} {n : Node}

theorem Behind.trans (h : s.Behind t) (next : t.Behind u) : s.Behind u :=
  ⟨next.ordered, next.last.trans h.last, Nat.le_trans h.finish next.finish⟩

theorem Ordered.behind (h : s.Ordered) : s.Behind s := ⟨h, rfl, Nat.le_refl _⟩

theorem Same.behind (h : s.Same t) (ordered : s.Ordered) : s.Behind t := by
  refine ⟨⟨?_, ?_, ?_⟩, h.last, Nat.le_of_eq (congrArg _ h.finish.symm)⟩
  · rw [h.rest, h.last, h.finish]
    exact ordered.row
  · rw [h.last]
    exact ordered.last
  · rw [h.rest]
    exact ordered.quoted

theorem Same.trans (h : s.Same t) (next : t.Same u) : s.Same u :=
  ⟨next.rest.trans h.rest, next.last.trans h.last, next.finish.trans h.finish⟩

theorem Same.current (h : s.Same t) : t.current = s.current := by
  rw [Stream.current, Stream.current, h.rest, h.last]

/-- The token ahead starts behind the one that was taken last. -/
theorem Ordered.le_current (h : s.Ordered) : s.finish.offset ≤ s.current.span.start.offset := by
  have row := h.row
  unfold current
  cases held : s.rest with
  | nil => exact row.le
  | cons token rest =>
    rw [held] at row
    exact (row.bounds (by simp)).1

theorem Took.lt (h : s.Took token t) : token.span.start.offset < t.finish.offset :=
  h.stop ▸ h.filled

theorem Ordered.took_cons (h : s.Ordered) {rest : List Token} (held : s.rest = token :: rest) :
    s.Took token s.advance := by
  have row := h.row
  have quoted := h.quoted
  rw [held] at row quoted
  obtain ⟨le, filled, _⟩ := row.bounds List.mem_cons_self
  have finish : s.advance.finish = token.span.stop := by simp [advance, held]
  have ahead : s.advance.rest = rest := by simp [advance, held]
  refine ⟨by simp [current, held], ⟨⟨?_, h.last, ?_⟩, rfl, ?_⟩, le, filled, finish.symm⟩
  · rw [finish, ahead]
    cases row with | cons _ _ others => exact others
  · rw [ahead]
    exact (List.forall_mem_cons.1 quoted).2
  · rw [finish]
    exact Nat.le_trans le (Nat.le_of_lt filled)

/-- The token ahead is one of the script unless it is the closing one. -/
theorem Ordered.exists_cons (h : s.Ordered) (real : s.current.kind ≠ .eof) :
    ∃ rest, s.rest = s.current :: rest := by
  unfold current at real ⊢
  cases held : s.rest with
  | nil =>
    rw [held] at real
    exact absurd h.last real
  | cons token rest => exact ⟨rest, rfl⟩

theorem Ordered.took (h : s.Ordered) (real : s.current.kind ≠ .eof) :
    s.Took s.current s.advance := by
  obtain ⟨rest, held⟩ := h.exists_cons real
  exact h.took_cons held

/-- Whatever the token ahead is, the next one stands behind it. -/
theorem Ordered.advance (h : s.Ordered) : s.Behind s.advance ∧
    s.current.span.start.offset ≤ s.advance.current.span.start.offset := by
  cases held : s.rest with
  | nil =>
    -- The stream stays before the closing token.
    have same : s.Same s.advance :=
      ⟨by simp [Stream.advance, held], rfl, by simp [Stream.advance, held]⟩
    exact ⟨same.behind h, Nat.le_of_eq (by rw [same.current])⟩
  | cons token rest =>
    have took := h.took_cons held
    refine ⟨took.behind, ?_⟩
    rw [← took.current]
    exact Nat.le_trans (Nat.le_of_lt took.lt) took.behind.ordered.le_current

theorem Ordered.repeat (h : s.Ordered) (n : Nat) : s.Behind (Nat.repeat Stream.advance n s) ∧
    s.current.span.start.offset ≤ (Nat.repeat Stream.advance n s).current.span.start.offset := by
  induction n with
  | zero => exact ⟨h.behind, Nat.le_refl _⟩
  | succ n ih =>
    obtain ⟨behind, le⟩ := ih
    obtain ⟨next, le'⟩ := behind.ordered.advance
    exact ⟨behind.trans next, Nat.le_trans le le'⟩

theorem Behind.read (h : s.Behind t) : s.Read [] t := ⟨h, .nil h.finish⟩

theorem Read.append (h : s.Read nodes t) (next : t.Read more u) : s.Read (nodes ++ more) u :=
  ⟨h.behind.trans next.behind, h.laid.append next.laid⟩

theorem Read.after (h : t.Read nodes u) (before : s.Behind t) : s.Read nodes u :=
  ⟨before.trans h.behind, h.laid.mono before.finish (Nat.le_refl _)⟩

theorem Read.upto (h : s.Read nodes t) (next : t.Behind u) : s.Read nodes u :=
  ⟨h.behind.trans next, h.laid.mono (Nat.le_refl _) next.finish⟩

/-- A node that holds nothing and ends with the token taken last. -/
theorem Behind.leaf {start : Position} (h : s.Behind t) (none : n.children = [])
    (span : n.mark.span = ⟨start, t.finish⟩) (le : s.finish.offset ≤ start.offset)
    (filled : start.offset < t.finish.offset) : s.Read [n] t := by
  have nothing : Laid start.offset n.children t.finish.offset := none ▸ .nil (Nat.le_of_lt filled)
  exact ⟨h, nothing.close span (Nat.le_refl _) (Nat.le_refl _) filled le (Nat.le_refl _)⟩

/-- A node that starts with a token and ends with the token taken last. -/
theorem Took.close (took : s.Took token t) (held : t.Read n.children u)
    (span : n.mark.span = ⟨token.span.start, u.finish⟩) (next : u.Behind v) : s.Read [n] v := by
  refine ⟨(took.behind.trans held.behind).trans next, ?_⟩
  exact held.laid.close span (Nat.le_of_lt took.lt) (Nat.le_refl _)
    (Nat.lt_of_lt_of_le took.lt held.behind.finish) took.start next.finish

/-- A node that starts with the first one that it holds and ends with the token taken last. -/
theorem Read.lead {first : Node} (held : s.Read n.children t)
    (children : n.children = first :: more)
    (span : n.mark.span = ⟨first.mark.span.start, t.finish⟩) (next : t.Behind u) : s.Read [n] u :=
  ⟨held.behind.trans next, held.laid.lead children span (Nat.le_refl _) next.finish⟩

end Stream

/-- If a reader that starts at a stream succeeds, it ends as `post` says. -/
def Ends {α : Type} (s : Stream) (reader : Parse α) (post : α → Stream → Prop) : Prop :=
  ∀ a t, reader.run s = .ok (a, t) → post a t

def Passes {α : Type} (reader : Parse α) : Prop :=
  ∀ s : Stream, s.Ordered → Ends s reader fun _ t => s.Behind t

/-- A reader goes on in a stream and reads nodes from the tokens that it takes. -/
def Lays {α : Type} (reader : Parse α) (nodes : α → List Node) : Prop :=
  ∀ s : Stream, s.Ordered → Ends s reader fun a t => s.Read (nodes a) t

section rules
variable {α β : Type} {s : Stream} {reader : Parse α} {next : α → Parse β}
  {mid : α → Stream → Prop} {post : β → Stream → Prop}

theorem Ends.bind (h : Ends s reader mid) (rest : ∀ a t, mid a t → Ends t (next a) post) :
    Ends s (reader >>= next) post := by
  intro b u ran
  obtain ⟨a, t, first, second⟩ := run_bind_ok ran
  exact rest a t (h a t first) b u second

theorem Ends.pure {b : β} (h : post b s) : Ends s (pure b : Parse β) post := by
  rintro b t ⟨⟩
  exact h

theorem Ends.pure_bind {a : α} (h : Ends s (next a) post) : Ends s (Pure.pure a >>= next) post := by
  rwa [LawfulMonad.pure_bind]

theorem Ends.mono {pre post : α → Stream → Prop} (h : Ends s reader pre)
    (weaker : ∀ a t, pre a t → post a t) : Ends s reader post :=
  fun a t ran => weaker a t (h a t ran)

theorem Ends.fail (cause : Cause) (p : Position) : Ends s (Parse.fail cause p) post := nofun

theorem Ends.fail_bind (cause : Cause) (p : Position) :
    Ends s (Parse.fail cause p >>= next) post := nofun

theorem Ends.unexpected : Ends s (Parse.unexpected : Parse β) post := nofun

theorem Ends.unexpected_bind : Ends s (Parse.unexpected >>= next) post := nofun

theorem Ends.unexpectedWith {message : String} :
    Ends s (Parse.unexpectedWith message : Parse β) post := nofun

theorem Ends.unexpectedWith_bind {message : String} :
    Ends s (Parse.unexpectedWith message >>= next) post := nofun

theorem Ends.get {next : Stream → Parse β} (h : Ends s (next s) post) :
    Ends s (get >>= next) post := h

theorem Ends.kind {next : TokenKind → Parse β} (h : Ends s (next s.current.kind) post) :
    Ends s (Parse.kind >>= next) post := h

theorem Ends.current {next : Token → Parse β} (h : Ends s (next s.current) post) :
    Ends s (Parse.current >>= next) post := h

theorem Ends.place {next : Position → Parse β} (h : Ends s (next s.current.span.start) post) :
    Ends s (Parse.place >>= next) post := h

theorem Ends.fresh {next : Nat → Parse β} (h : ∀ id t, s.Same t → Ends t (next id) post) :
    Ends s (Parse.freshId >>= next) post := h s.nextId _ ⟨rfl, rfl, rfl⟩

theorem Ends.mark {start : Position} {next : Mark → Parse β}
    (h : ∀ id t, s.Same t → Ends t (next ⟨id, start, s.finish⟩) post) :
    Ends s (Parse.markFrom start >>= next) post := h s.nextId _ ⟨rfl, rfl, rfl⟩

theorem Ends.lift {result : Except Error α} (h : ∀ a, result = .ok a → Ends s (next a) post) :
    Ends s (StateT.lift result >>= next) post := by
  intro b u ran
  cases done : result with
  | error e =>
    rw [done] at ran
    cases ran
  | ok a =>
    rw [done] at ran
    exact h a done b u ran

theorem Ends.set {t : Stream} {next : PUnit → Parse β} (h : Ends t (next ⟨⟩) post) :
    Ends s (set t >>= next) post := h

theorem Passes.bind (h : Passes reader) (rest : ∀ a, Passes (next a)) : Passes (reader >>= next) :=
  fun s ordered => (h s ordered).bind fun a t behind =>
    (rest a t behind.ordered).mono fun _ _ further => behind.trans further

theorem Passes.pure (a : α) : Passes (pure a : Parse α) := fun _ ordered => .pure ordered.behind

end rules

section readers
variable {α : Type} {s : Stream}

theorem passes_get : Passes get := by
  rintro s ordered _ _ ⟨⟩
  exact ordered.behind

theorem passes_kind : Passes Parse.kind := by
  rintro s ordered _ _ ⟨⟩
  exact ordered.behind

theorem passes_take : Passes Parse.take := by
  rintro s ordered _ _ ⟨⟩
  exact ordered.advance.1

theorem passes_fail (cause : Cause) (p : Position) : Passes (Parse.fail cause p : Parse α) :=
  fun _ _ => .fail cause p

theorem passes_unexpected : Passes (Parse.unexpected : Parse α) := fun _ _ => .unexpected

theorem passes_unexpectedWith (message : String) :
    Passes (Parse.unexpectedWith message : Parse α) := fun _ _ => .unexpectedWith

/-- Takes the token ahead, which is not the closing one. -/
theorem ends_take (ordered : s.Ordered) (real : s.current.kind ≠ .eof) :
    Ends s Parse.take fun token t => s.Took token t := by
  rintro token t ⟨⟩
  exact ordered.took real

theorem ends_expectWith {wanted : TokenKind} {message : String} (ordered : s.Ordered)
    (real : wanted ≠ .eof) :
    Ends s (Parse.expectWith wanted message) fun token t => s.Took token t := by
  refine .kind ?_
  split
  · next same => exact ends_take ordered (same ▸ real)
  · exact .unexpectedWith

theorem passes_expect (wanted : TokenKind) : Passes (Parse.expect wanted) := by
  refine passes_kind.bind fun kind => ?_
  split
  · exact passes_take
  · exact passes_unexpected

theorem passes_expectWith (wanted : TokenKind) (message : String) :
    Passes (Parse.expectWith wanted message) := by
  refine passes_kind.bind fun kind => ?_
  split
  · exact passes_take
  · exact passes_unexpectedWith message

theorem passes_separator (close : TokenKind) (message : String) :
    Passes (Parse.separator close message) := by
  refine passes_kind.bind fun kind => ?_
  split
  · exact .pure _
  · exact (passes_expectWith _ _).bind fun _ => .pure _

theorem lays_itemsUntil {nodes : α → List Node} {close : TokenKind} {item : List α → Parse α}
    (h : ∀ before, Lays (item before) nodes) (fuel : Nat) (before : List α) (s : Stream)
    (ordered : s.Ordered) : Ends s (Parse.itemsUntil close item fuel before) fun all t =>
      ∃ more, all = before.reverse ++ more ∧ s.Read (more.flatMap nodes) t := by
  induction fuel generalizing before s with
  | zero => exact .unexpected
  | succ fuel ih =>
    refine .kind ?_
    split
    · exact .pure ⟨[], by simp, ordered.behind.read⟩
    · refine (h before s ordered).bind fun a t first => ?_
      refine (ih (a :: before) t first.behind.ordered).mono ?_
      rintro all u ⟨more, rfl, others⟩
      exact ⟨a :: more, by simp, first.append others⟩

theorem lays_itemsBefore {nodes : α → List Node} {close : TokenKind} {item : List α → Parse α}
    (h : ∀ before, Lays (item before) nodes) :
    Lays (Parse.itemsBefore close item) fun all => all.flatMap nodes := by
  refine fun s ordered => .get ((lays_itemsUntil h s.limit [] s ordered).mono ?_)
  rintro all t ⟨more, rfl, read⟩
  exact read

theorem lays_nodesBefore {node : α → Node} {close : TokenKind} {item : List α → Parse α}
    (h : ∀ before, Lays (item before) fun a => [node a]) :
    Lays (Parse.itemsBefore close item) fun all => all.map node := by
  simpa only [List.map_eq_flatMap] using lays_itemsBefore h

end readers

theorem passes_primitiveType : Passes primitiveType := by
  refine (passes_expect _).bind fun token => ?_
  split
  · exact .pure _
  · exact passes_fail _ _

theorem passes_literalMembers (fuel : Nat) (before : NameSet) :
    Passes (literalMembers fuel before) := by
  induction fuel generalizing before with
  | zero => exact passes_unexpected
  | succ fuel ih =>
    refine (passes_expectWith _ _).bind fun member => passes_kind.bind fun kind => ?_
    split
    · exact passes_take.bind fun _ => ih _
    · exact .pure _

theorem passes_typeWithin (fuel : Nat) : Passes (typeWithin fuel) := by
  induction fuel with
  | zero => exact passes_unexpected
  | succ fuel ih =>
    refine passes_kind.bind fun kind => ?_
    split
    · exact passes_primitiveType
    · exact (passes_expect _).bind fun _ => ih.bind fun _ => (passes_expectWith _ _).bind fun _ =>
        .pure _
    · exact (passes_expect _).bind fun _ => ih.bind fun _ => (passes_expectWith _ _).bind fun _ =>
        ih.bind fun _ => (passes_expectWith _ _).bind fun _ => .pure _
    · exact (passes_expect _).bind fun _ => passes_get.bind fun _ =>
        (passes_literalMembers _ _).bind fun _ => (passes_expectWith _ _).bind fun _ => .pure _
    · exact passes_unexpectedWith _

theorem passes_type : Passes type := passes_get.bind fun _ => passes_typeWithin _

theorem passes_returnType : Passes returnType := by
  refine passes_kind.bind fun kind => ?_
  split
  · exact passes_take.bind fun _ => passes_type.bind fun _ => .pure _
  · exact .pure _

theorem ends_atom {s : Stream} (ordered : s.Ordered) :
    Ends s atom fun e t => s.Read [.expr e] t := by
  refine .current (.fresh fun id t same => ?_)
  have made : ∀ e : Expr, e.mark = ⟨id, s.current.span⟩ → (Node.expr e).children = [] →
      s.current.kind ≠ .eof →
      Ends t (Pure.pure e >>= fun e => Parse.take >>= fun _ => Pure.pure e) fun e u =>
        s.Read [.expr e] u := by
    intro e mark none real
    have behind := same.behind ordered
    refine .pure_bind ((ends_take behind.ordered (same.current ▸ real)).bind ?_)
    intro token u took
    obtain rfl : token = s.current := took.current.trans same.current
    refine .pure (Stream.Behind.leaf (behind.trans took.behind) none ?_ ordered.le_current took.lt)
    rw [← took.stop]
    exact congrArg Mark.span mark
  dsimp only
  split
  · next kind =>
    split
    · exact made _ rfl rfl (by simp [kind])
    · exact .fail_bind _ _
  · next kind =>
    split
    · exact made _ rfl rfl (by simp [kind])
    · exact .fail_bind _ _
  · next kind => exact made _ rfl rfl (by simp [kind])
  · next kind => exact made _ rfl rfl (by simp [kind])
  · next kind => exact made _ rfl rfl (by simp [kind])
  · next kind =>
    split
    · exact made _ rfl rfl (by simp [kind])
    · exact made _ rfl rfl (by simp [kind])
  · next kind => exact made _ rfl rfl (by simp [kind])
  · exact .unexpected_bind

/-- The name of a variable starts with the token ahead. -/
theorem ends_scopedSymbol {s : Stream} (ordered : s.Ordered) :
    Ends s scopedSymbol fun symbol t => s.Behind t ∧
      symbol.mark.span = ⟨s.current.span.start, t.finish⟩ ∧
      s.current.span.start.offset < t.finish.offset := by
  have skipped : ∀ up, Ends s (modify (Nat.repeat Stream.advance up)) fun _ t =>
      s.Behind t ∧ s.current.span.start.offset ≤ t.current.span.start.offset := by
    rintro up _ t ⟨⟩
    exact ordered.repeat up
  refine .place (.get ((skipped _).bind fun _ t ⟨behind, le⟩ => ?_))
  refine (ends_expectWith behind.ordered (by decide)).bind fun name u took => ?_
  refine .mark fun id v same => .pure ⟨?_, ?_, ?_⟩
  · exact (behind.trans took.behind).trans (same.behind took.behind.ordered)
  · rw [same.finish]
  · rw [same.finish]
    exact Nat.lt_of_le_of_lt (took.current ▸ le) took.lt

theorem ofTokens_ending (ahead : List Token) (p : Position) (file : String) (nextId : Nat) :
    (Stream.ofTokens (ahead ++ [Token.ending p]) file nextId).rest = ahead ∧
    (Stream.ofTokens (ahead ++ [Token.ending p]) file nextId).last = Token.ending p ∧
    (Stream.ofTokens (ahead ++ [Token.ending p]) file nextId).finish =
      (Stream.ofTokens (ahead ++ [Token.ending p]) file nextId).current.span.start := by
  simp [Stream.ofTokens, Stream.current, Token.ending]

/-- The tokens of a text lie between its ends. -/
theorem ordered_ofTokens {p : Position} {cs : List Char} {tokens : List Token}
    (scanned : Token.scan p cs = .ok tokens) (file : String) (nextId : Nat) :
    (Stream.ofTokens tokens file nextId).Ordered ∧
    p.offset ≤ (Stream.ofTokens tokens file nextId).finish.offset ∧
    (Stream.ofTokens tokens file nextId).last.span.start = p.after cs := by
  obtain ⟨ahead, rfl, row, quoted⟩ := Token.row_scan scanned
  obtain ⟨rest, last, finish⟩ := ofTokens_ending ahead (p.after cs) file nextId
  have closing : (Token.ending (p.after cs)).span.start = p.after cs := rfl
  rw [Stream.current, rest, last] at finish
  refine ⟨⟨?_, by rw [last]; rfl, by rwa [rest]⟩, ?_, by rw [last, closing]⟩
  · rw [rest, last, finish]
    cases ahead with
    | nil => exact .nil (Nat.le_refl _)
    | cons token others =>
      cases row with | cons _ filled row => exact .cons (Nat.le_refl _) filled row
  · rw [finish]
    cases ahead with
    | nil => exact row.le
    | cons token others => exact (row.bounds List.mem_cons_self).1

/-- A reader of expressions reads them from the tokens that it takes. -/
def LaysExprs (expr : ExprReader) : Prop := ∀ outer, Lays (expr outer) fun e => [.expr e]

section expressions
variable {expr : ExprReader} (lays : LaysExprs expr) {s : Stream}
include lays

theorem ends_unaryExpr (ordered : s.Ordered) (real : s.current.kind ≠ .eof) :
    Ends s (unaryExpr expr) fun e t => s.Read [.expr e] t := by
  refine (ends_take ordered real).bind fun token t took => ?_
  refine (lays .unary t took.behind.ordered).bind fun e u operand => ?_
  refine .fresh fun id v same => .pure ?_
  obtain ⟨le, filled, ge⟩ := operand.laid.bounds
  have next := same.behind operand.behind.ordered
  refine ⟨(took.behind.trans operand.behind).trans next, ?_⟩
  refine Laid.close operand.laid.snug rfl (Nat.le_of_lt took.lt) (Nat.le_refl _) ?_ took.start ?_
  · exact Nat.lt_trans (Nat.lt_of_lt_of_le took.lt le) filled
  · exact Nat.le_trans ge next.finish

theorem ends_grouping (ordered : s.Ordered) (real : s.current.kind ≠ .eof) :
    Ends s (grouping expr) fun e t => s.Read [.expr e] t := by
  refine (ends_take ordered real).bind fun token t took => ?_
  refine (lays .loosest t took.behind.ordered).bind fun e u inner => ?_
  refine (passes_expectWith _ _ u inner.behind.ordered).bind fun _ v closed => .pure ?_
  exact (inner.after took.behind).upto closed

/-- An expression and the comma behind it. -/
theorem lays_separated (close : TokenKind) (message : String) : Lays (do
      let item ← expr .loosest
      Parse.separator close message
      return item) fun e => [.expr e] := fun s ordered =>
  (lays .loosest s ordered).bind fun _ t read =>
    (passes_separator _ _ t read.behind.ordered).bind fun _ _ next => .pure (read.upto next)

theorem lays_exprList (close : TokenKind) : Lays (exprList expr close) fun es => es.map .expr := by
  refine fun s ordered =>
    (lays_nodesBefore (fun _ => lays_separated lays _ _) s ordered).bind fun es t read => ?_
  exact (passes_expect _ t read.behind.ordered).bind fun _ u next => .pure (read.upto next)

theorem ends_listExpr (ordered : s.Ordered) (real : s.current.kind ≠ .eof) :
    Ends s (listExpr expr) fun e t => s.Read [.expr e] t := by
  refine (ends_take ordered real).bind fun token t took => ?_
  refine (lays_exprList lays _ t took.behind.ordered).bind fun es u elements => ?_
  exact .mark fun id v same => .pure (took.close elements rfl (same.behind elements.behind.ordered))

theorem lays_mapEntry : Lays (mapEntry expr) fun entry => [.expr entry.1, .expr entry.2] := by
  refine fun s ordered => (lays .loosest s ordered).bind fun key t first => ?_
  refine (passes_expectWith _ _ t first.behind.ordered).bind fun _ u colon => ?_
  refine (lays .loosest u colon.ordered).bind fun value v second => ?_
  refine (passes_separator _ _ v second.behind.ordered).bind fun _ w next => .pure ?_
  exact ((first.upto colon).append second).upto next

theorem ends_mapExpr (ordered : s.Ordered) (real : s.current.kind ≠ .eof) :
    Ends s (mapExpr expr) fun e t => s.Read [.expr e] t := by
  refine (ends_take ordered real).bind fun token t took => ?_
  refine (lays_itemsBefore (fun _ => lays_mapEntry lays) t took.behind.ordered).bind
    fun entries u read => ?_
  refine (passes_expect _ u read.behind.ordered).bind fun _ v closed => ?_
  refine .mark fun id w same => .pure ?_
  exact took.close (read.upto closed) rfl (same.behind closed.ordered)

omit lays in
theorem ends_memberExpr (ordered : s.Ordered) (real : s.current.kind ≠ .eof) :
    Ends s memberExpr fun e t => s.Read [.expr e] t := by
  refine (ends_take ordered real).bind fun token t took => ?_
  refine (passes_expectWith _ _ t took.behind.ordered).bind fun _ u named => ?_
  refine (passes_expectWith _ _ u named.ordered).bind fun _ v closed => ?_
  refine .mark fun id w same => .pure ?_
  exact took.close (named.trans closed).read rfl (same.behind closed.ordered)

/-- What is embedded in a text lies where its source does. -/
theorem ends_fragment (source : List Char) (place : Position) :
    Ends s (fragment expr source place) fun e t => s.Same t ∧
      Laid place.offset [.expr e] (place.after source).offset := by
  refine .get (.lift fun tokens scanned => .set ?_)
  obtain ⟨ordered, lower, closing⟩ := ordered_ofTokens scanned place.file s.nextId
  refine (lays .loosest _ ordered).bind fun e u read => .kind ?_
  dsimp only
  split
  · exact .unexpectedWith_bind
  · -- The reader can go no further than the closing token, which stands at the end of the source.
    refine .get (.set (.pure ⟨⟨rfl, rfl, rfl⟩, read.laid.mono lower ?_⟩))
    rw [← closing, ← read.behind.last]
    exact read.behind.ordered.row.le

theorem ends_interpolationParts (start : Position) : ∀ {s : Stream} {lo hi : Nat}
    {pieces : List Piece}, Piece.Row lo pieces hi →
      Ends s (interpolationParts expr start pieces) fun parts t => s.Same t ∧
        Laid lo ((Part.embedded parts).map .expr) hi
  | _, _, _, [], .nil le => .pure ⟨⟨rfl, rfl, rfl⟩, .nil le⟩
  | s, _, _, .chars raw :: rest, .chars row => by
    unfold interpolationParts
    split
    · exact (ends_interpolationParts start row).bind fun _ _ others => .pure others
    · exact .fail _ _
  | s, _, _, .code source place :: rest, .code le row => by
    refine (ends_fragment lays source place).bind fun e t ⟨same, inner⟩ => ?_
    refine (ends_interpolationParts start row).bind fun parts u ⟨same', others⟩ => .pure ?_
    exact ⟨same.trans same', (inner.append others).mono le (Nat.le_refl _)⟩
  | _, _, _, .unclosed raw place :: rest, .unclosed => .fail _ _

/-- The expressions inside a text lie between its quotes. -/
theorem ends_interpolation (ordered : s.Ordered) (kind : s.current.kind = .interpolation) :
    Ends s (interpolation expr) fun e t => s.Read [.expr e] t := by
  have real : s.current.kind ≠ .eof := by simp [kind]
  obtain ⟨rest, held⟩ := ordered.exists_cons real
  have quoted := ordered.quoted s.current (by simp [held]) kind
  refine (ends_take ordered real).bind fun token t took => ?_
  obtain rfl := took.current
  refine (ends_interpolationParts lays _ (row_pieces _ [] _)).bind fun parts u ⟨same, inner⟩ => ?_
  refine .fresh fun id v same' => .pure ?_
  -- Fragments take no token of the script itself.
  have next := (same.trans same').behind took.behind.ordered
  have stop := congrArg Position.offset took.stop
  refine ⟨took.behind.trans next, Laid.close inner rfl ?_ ?_ took.filled took.start ?_⟩
  · simp
  · rw [quoted]
    simp only [Position.after_offset, Position.advance_offset, Text.byteLength_append,
      List.cons_append, Text.byteLength_cons]
    omega
  · exact Nat.le_trans (Nat.le_of_eq stop) next.finish

theorem lays_operand : Lays (operand expr) fun e => [.expr e] := by
  refine fun s ordered => .kind ?_
  split
  iterate 7 exact ends_atom ordered
  · refine (ends_scopedSymbol ordered).bind fun symbol t ⟨behind, span, filled⟩ => .pure ?_
    exact behind.leaf rfl span ordered.le_current filled
  · next kind => exact ends_interpolation lays ordered kind
  · next kind => exact ends_memberExpr ordered (by simp [kind])
  · next kind => exact ends_listExpr lays ordered (by simp [kind])
  · next kind => exact ends_mapExpr lays ordered (by simp [kind])
  · next kind => exact ends_unaryExpr lays ordered (by simp [kind])
  · next kind => exact ends_unaryExpr lays ordered (by simp [kind])
  · next kind => exact ends_grouping lays ordered (by simp [kind])
  · exact .unexpected

variable {t : Stream} {left : Expr} (before : s.Read [.expr left] t)
include before

theorem ends_callExpr :
    Ends t (callExpr expr left) fun e u => s.Read [.expr e] u := by
  unfold callExpr
  split
  · next mark name =>
    obtain ⟨le, filled, ge⟩ := before.laid.bounds
    refine (passes_take t before.behind.ordered).bind fun _ u opened => ?_
    refine (lays_exprList lays _ u opened.ordered).bind fun es v arguments => ?_
    refine .mark fun id w same => .pure ?_
    have next := same.behind arguments.behind.ordered
    have lower := Nat.le_trans ge opened.finish
    refine ⟨((before.behind.trans opened).trans arguments.behind).trans next, ?_⟩
    refine Laid.close arguments.laid rfl (Nat.le_trans (Nat.le_of_lt filled) lower)
      (Nat.le_refl _) ?_ le next.finish
    exact Nat.lt_of_lt_of_le filled (Nat.le_trans lower arguments.behind.finish)
  · exact .unexpectedWith

theorem ends_indexExpr : Ends t (indexExpr expr left) fun e u => s.Read [.expr e] u := by
  refine (passes_take t before.behind.ordered).bind fun _ u opened => ?_
  refine (lays .loosest u opened.ordered).bind fun e v inside => ?_
  refine (passes_expectWith _ _ v inside.behind.ordered).bind fun _ w closed => ?_
  refine .mark fun id x same => .pure ?_
  exact Stream.Read.lead (((before.upto opened).append inside).upto closed) rfl rfl
    (same.behind closed.ordered)

theorem ends_binaryExpr : Ends t (binaryExpr expr left) fun e u => s.Read [.expr e] u := by
  refine (passes_take t before.behind.ordered).bind fun _ u operator => ?_
  refine (lays _ u operator.ordered).bind fun e v right => .fresh fun id w same => .pure ?_
  have next := same.behind right.behind.ordered
  have both := (before.upto operator).laid.append right.laid.snug
  refine ⟨((before.behind.trans operator).trans right.behind).trans next, ?_⟩
  exact both.lead rfl rfl (Nat.le_refl _) (Nat.le_trans right.laid.bounds.2.2 next.finish)

theorem ends_climb (outer : Power) (fuel : Nat) :
    Ends t (climb expr outer fuel left) fun e u => s.Read [.expr e] u := by
  induction fuel generalizing left t with
  | zero => exact .unexpected
  | succ fuel ih =>
    refine .kind ?_
    split
    · exact .pure before
    · refine .bind ?_ fun e u more => ih more
      refine .kind ?_
      split
      · exact ends_callExpr lays before
      · exact ends_indexExpr lays before
      · exact ends_binaryExpr lays before

end expressions

theorem lays_exprWithin (fuel : Nat) : LaysExprs (exprWithin fuel) := by
  induction fuel with
  | zero => exact fun _ _ _ => .unexpected
  | succ fuel ih =>
    exact fun outer s ordered => (lays_operand ih s ordered).bind fun e t left =>
      .get (ends_climb ih left outer _)

/-- A reader of statements reads them from the tokens that it takes. -/
abbrev LaysStmts (stmt : Parse Stmt) : Prop := Lays stmt fun s => [.stmt s]

section statements
variable {expr : ExprReader} {stmt : Parse Stmt} (lays : LaysExprs expr) (body : LaysStmts stmt)
  {s : Stream}

section plain
include lays

theorem lays_expressionStmt : LaysStmts (expressionStmt expr) := by
  refine fun s ordered => (lays .loosest s ordered).bind fun e t inner => ?_
  refine (passes_expect _ t inner.behind.ordered).bind fun _ u closed => ?_
  exact .mark fun id v same => .pure ((inner.upto closed).lead rfl rfl (same.behind closed.ordered))

theorem ends_declareStmt (ordered : s.Ordered) (real : s.current.kind ≠ .eof) :
    Ends s (declareStmt expr) fun made t => s.Read [.stmt made] t := by
  refine (ends_take ordered real).bind fun token t took => ?_
  refine (passes_expectWith _ _ t took.behind.ordered).bind fun _ u named => ?_
  refine (passes_expectWith _ _ u named.ordered).bind fun _ v colon => ?_
  refine (passes_type v colon.ordered).bind fun _ w typed => ?_
  refine (passes_expectWith _ _ w typed.ordered).bind fun _ x assigned => ?_
  refine (lays .loosest x assigned.ordered).bind fun e y value => ?_
  refine (passes_expect _ y value.behind.ordered).bind fun _ z closed => ?_
  refine .mark fun id _ same => .pure ?_
  have before := ((named.trans colon).trans typed).trans assigned
  exact took.close ((value.after before).upto closed) rfl (same.behind closed.ordered)

theorem lays_assignStmt : LaysStmts (assignStmt expr) := by
  refine fun s ordered => .place ?_
  refine (ends_scopedSymbol ordered).bind fun symbol t ⟨behind, span, filled⟩ => .current ?_
  have target : s.Read [.target symbol] t := behind.leaf rfl span ordered.le_current filled
  dsimp only
  split
  · exact .unexpectedWith_bind
  · refine (passes_take t behind.ordered).bind fun _ u operator => ?_
    refine (lays .loosest u operator.ordered).bind fun e v value => ?_
    refine (passes_expect _ v value.behind.ordered).bind fun _ w closed => .mark fun id _ same => ?_
    have both := ((target.upto operator).append value).upto closed
    refine .pure (Stream.Read.lead both rfl ?_ (same.behind closed.ordered))
    exact congrArg (Span.mk · w.finish) (congrArg Span.start span).symm

theorem ends_commandStmt (ordered : s.Ordered) (real : s.current.kind ≠ .eof) :
    Ends s (commandStmt expr) fun made t => s.Read [.stmt made] t := by
  refine (ends_take ordered real).bind fun name t took => ?_
  refine (lays_nodesBefore (fun _ => lays_separated lays _ _) t took.behind.ordered).bind
    fun es u arguments => ?_
  refine .mark fun id v same => ?_
  have call : s.Read [.expr (.call ⟨id, name.span.start, u.finish⟩ name.value es)] v :=
    took.close arguments rfl (same.behind arguments.behind.ordered)
  refine (passes_expect _ v call.behind.ordered).bind fun _ w closed => ?_
  refine .mark fun _ _ same => .pure ?_
  exact (call.upto closed).lead rfl rfl (same.behind closed.ordered)

theorem ends_namedStmt (ordered : s.Ordered) (real : s.current.kind ≠ .eof) :
    Ends s (namedStmt expr) fun made t => s.Read [.stmt made] t := by
  refine .get ?_
  dsimp only
  split
  · exact lays_assignStmt lays s ordered
  · split
    · exact lays_expressionStmt lays s ordered
    · exact ends_commandStmt lays ordered real

theorem ends_returnStmt (ordered : s.Ordered) (real : s.current.kind ≠ .eof) :
    Ends s (returnStmt expr) fun made t => s.Read [.stmt made] t := by
  refine (ends_take ordered real).bind fun token t took => .kind ?_
  have finish : ∀ (value : Option Expr) (u : Stream), t.Read (value.toList.map .expr) u →
      Ends u (do
        let _ ← Parse.expect .semicolon
        return Stmt.ret (← Parse.markFrom token.span.start) value) fun made v =>
          s.Read [.stmt made] v := by
    intro value u read
    refine (passes_expect _ u read.behind.ordered).bind fun _ v closed => ?_
    refine .mark fun _ _ same => .pure ?_
    exact took.close (read.upto closed) rfl (same.behind closed.ordered)
  dsimp only
  split
  · exact .pure_bind (finish none t took.behind.ordered.behind.read)
  · exact (lays .loosest t took.behind.ordered).bind fun e u value =>
      .pure_bind (finish (some e) u value)

end plain

/-- A statement that is a word and a semicolon. -/
theorem ends_wordStmt (make : Mark → Stmt) (mark : ∀ m, (Node.stmt (make m)).mark = m)
    (none : ∀ m, (Node.stmt (make m)).children = []) (ordered : s.Ordered)
    (real : s.current.kind ≠ .eof) : Ends s (do
      let start := (← Parse.take).span.start
      let _ ← Parse.expect .semicolon
      return make (← Parse.markFrom start)) fun made t => s.Read [.stmt made] t := by
  refine (ends_take ordered real).bind fun token t took => ?_
  refine (passes_expect _ t took.behind.ordered).bind fun _ u closed => ?_
  refine .mark fun _ _ same => .pure ?_
  refine took.close ?_ (congrArg Mark.span (mark _)) (same.behind closed.ordered)
  rw [none]
  exact closed.read

theorem lays_parameter (before : List Parameter) :
    Lays (parameter before) fun p => [.parameter p] := by
  refine fun s ordered => (ends_expectWith ordered (by decide)).bind fun name t took => ?_
  refine (passes_expectWith _ _ t took.behind.ordered).bind fun _ u colon => ?_
  refine (passes_type u colon.ordered).bind fun type v typed => ?_
  dsimp only
  split
  · exact .fail_bind _ _
  · refine .mark fun id w same => ?_
    have next := same.behind typed.ordered
    refine (passes_separator _ _ w next.ordered).bind fun _ x closed => .pure ?_
    exact took.close (colon.trans typed).read rfl (next.trans closed)

theorem lays_parameters : Lays parameters fun ps => ps.map .parameter := by
  refine fun s ordered => (passes_expect _ s ordered).bind fun _ t opened => ?_
  refine (lays_nodesBefore lays_parameter t opened.ordered).bind fun ps u read => ?_
  refine (passes_expect _ u read.behind.ordered).bind fun _ v closed => .pure ?_
  exact (read.after opened).upto closed

section nested
include body

theorem lays_block : Lays (block stmt) fun b => [.block b] := by
  have item : LaysStmts (do
      if (← Parse.kind) = .eof then Parse.unexpectedWith "expected `\x7d` to close the block"
      stmt) := by
    refine fun s ordered => .kind ?_
    dsimp only
    split
    · exact .unexpectedWith_bind
    · exact body s ordered
  refine fun s ordered => (ends_expectWith ordered (by decide)).bind fun token t took => ?_
  refine (lays_nodesBefore (fun _ => item) t took.behind.ordered).bind fun stmts u read => ?_
  refine (passes_expect _ u read.behind.ordered).bind fun _ v closed => ?_
  refine .mark fun _ _ same => .pure ?_
  exact took.close (read.upto closed) rfl (same.behind closed.ordered)

theorem lays_blockStmt : LaysStmts (do return .block (← block stmt)) := fun s ordered =>
  (lays_block body s ordered).bind fun _ _ read =>
    .pure ⟨read.behind, read.laid.congr rfl rfl⟩

include lays

theorem ends_branchStmt (ordered : s.Ordered) (real : s.current.kind ≠ .eof) :
    Ends s (branchStmt expr stmt) fun made t => s.Read [.stmt made] t := by
  refine (ends_take ordered real).bind fun token t took => ?_
  refine (lays .loosest t took.behind.ordered).bind fun e u condition => ?_
  refine (lays_block body u condition.behind.ordered).bind fun b v inside => .kind ?_
  have both := condition.append inside
  have finish : ∀ (other : Option Stmt) (w : Stream), v.Read (other.toList.map .stmt) w →
      Ends w (do return Stmt.branch (← Parse.markFrom token.span.start) e b other) fun made x =>
        s.Read [.stmt made] x := fun other w more => .mark fun _ _ same =>
    .pure (took.close (both.append more) rfl (same.behind more.behind.ordered))
  dsimp only
  split
  · refine (passes_take v both.behind.ordered).bind fun _ w otherwise => .kind ?_
    split
    · exact (body w otherwise.ordered).bind fun inner x other =>
        .pure_bind (finish (some inner) x (other.after otherwise))
    · refine (lays_block body w otherwise.ordered).bind fun b' x other => .pure_bind ?_
      have inner : w.Read [.stmt (.block b')] x := ⟨other.behind, other.laid.congr rfl rfl⟩
      exact finish (some (.block b')) x (inner.after otherwise)
  · exact .pure_bind (finish none v both.behind.ordered.behind.read)

/-- A statement that is a word, an expression and a block. -/
theorem ends_loopStmt (make : Mark → Expr → Block Stmt → Stmt)
    (mark : ∀ m e b, (Node.stmt (make m e b)).mark = m)
    (children : ∀ m e b, (Node.stmt (make m e b)).children = [.expr e, .block b])
    (ordered : s.Ordered) (real : s.current.kind ≠ .eof) : Ends s (do
      let start := (← Parse.take).span.start
      let e ← expr .loosest
      let b ← block stmt
      return make (← Parse.markFrom start) e b) fun made t => s.Read [.stmt made] t := by
  refine (ends_take ordered real).bind fun token t took => ?_
  refine (lays .loosest t took.behind.ordered).bind fun e u first => ?_
  refine (lays_block body u first.behind.ordered).bind fun b v inside => ?_
  refine .mark fun _ _ same => .pure ?_
  refine took.close ?_ (congrArg Mark.span (mark _ e b)) (same.behind inside.behind.ordered)
  rw [children]
  exact first.append inside

omit lays in
theorem ends_functionStmt (ordered : s.Ordered) (real : s.current.kind ≠ .eof) :
    Ends s (functionStmt stmt) fun made t => s.Read [.stmt made] t := by
  refine (ends_take ordered real).bind fun token t took => ?_
  refine (passes_expectWith _ _ t took.behind.ordered).bind fun name u named => ?_
  refine (lays_parameters u named.ordered).bind fun ps v parameters => ?_
  refine (passes_returnType v parameters.behind.ordered).bind fun _ w typed => ?_
  refine (lays_block body w typed.ordered).bind fun b x inside => .mark fun _ _ same => .pure ?_
  have held := ((parameters.after named).upto typed).append inside
  exact took.close held rfl (same.behind inside.behind.ordered)

theorem lays_statement : LaysStmts (statement expr stmt) := by
  refine fun s ordered => .kind ?_
  split
  · next kind => exact ends_declareStmt lays ordered (by simp [kind])
  · next kind => exact ends_namedStmt lays ordered (by simp [kind])
  · exact lays_assignStmt lays s ordered
  · next kind => exact ends_branchStmt lays body ordered (by simp [kind])
  · next kind =>
    exact ends_loopStmt lays body .whileLoop (fun _ _ _ => rfl) (fun _ _ _ => rfl) ordered
      (by simp [kind])
  · next kind =>
    exact ends_loopStmt lays body .repeatLoop (fun _ _ _ => rfl) (fun _ _ _ => rfl) ordered
      (by simp [kind])
  · exact lays_blockStmt body s ordered
  · next kind => exact ends_functionStmt body ordered (by simp [kind])
  · next kind => exact ends_returnStmt lays ordered (by simp [kind])
  · next kind =>
    exact ends_wordStmt .brk (fun _ => rfl) (fun _ => rfl) ordered (by simp [kind])
  · next kind =>
    exact ends_wordStmt .cont (fun _ => rfl) (fun _ => rfl) ordered (by simp [kind])
  · exact lays_expressionStmt lays s ordered

end nested

end statements

theorem lays_stmtWithin (fuel : Nat) : LaysStmts (stmtWithin fuel) := by
  induction fuel with
  | zero => exact fun _ _ => .unexpected
  | succ fuel ih => exact lays_statement (lays_exprWithin fuel) ih

theorem ends_program {s : Stream} (ordered : s.Ordered) (first : s.finish = s.current.span.start) :
    Ends s program fun p _ => (Node.block p).Nested := by
  refine .place (.get ?_)
  refine (lays_nodesBefore (fun _ => lays_stmtWithin _) s ordered).bind fun stmts t read => ?_
  refine .fresh fun id u same => .place (.pure ?_)
  refine Node.nested_of_children ?_ read.laid.nested
  refine read.laid.row.mono (Nat.le_of_eq (congrArg _ first.symm)) ?_
  rw [← same.finish]
  exact (same.behind read.behind.ordered).ordered.le_current

end Grammar

theorem Program.nested_of_ofSource {source file : String} {p : Program}
    (h : Program.ofSource source file = .ok p) : (Node.block p).Nested := by
  obtain ⟨tokens, scanned, parsed⟩ := Program.exists_tokens h
  obtain ⟨ordered, _, _⟩ := Grammar.ordered_ofTokens scanned file 0
  obtain ⟨ahead, rfl, _⟩ := Token.row_scan scanned
  obtain ⟨_, _, first⟩ := Grammar.ofTokens_ending ahead _ file 0
  unfold Program.ofTokens at parsed
  cases ran : Grammar.program.run (Grammar.Stream.ofTokens _ file 0) with
  | error e =>
    rw [ran] at parsed
    cases parsed
  | ok result =>
    rw [ran] at parsed
    cases parsed
    exact Grammar.ends_program ordered first _ _ ran

/-- In the tree of a script every node but the root covers something, what a node holds lies inside
it, and of two nodes that it holds the first ends before the second starts. -/
theorem spans_nest {source file : String} {p : Program}
    (read : Program.ofSource source file = .ok p) :
    (∀ n, (Node.block p).Holds n → n.mark.span.Filled) ∧
    ∀ n ∈ p.nodes,
      (∀ child ∈ n.children, child.mark.span.Inside n.mark.span) ∧
      n.children.Pairwise fun child next => child.mark.span.Before next.mark.span := by
  have nested := Program.nested_of_ofSource read
  have below : ∀ n ∈ p.nodes, ∀ child ∈ n.children, n.mark.span.start.offset ≤
      child.mark.span.start.offset ∧ child.mark.span.Filled ∧
      child.mark.span.stop.offset ≤ n.mark.span.stop.offset := fun n mem child held =>
    (nested n mem).bounds (List.mem_map_of_mem held)
  refine ⟨fun n inside => ?_, fun n mem => ⟨fun child held => ?_, ?_⟩⟩
  · cases inside with
    | single held => exact (below _ (Node.mem_postorder_self _) n held).2.1
    | tail above held => exact (below _ (Node.mem_postorder.2 (.inl above)) n held).2.1
  · obtain ⟨lower, _, upper⟩ := below n mem child held
    exact ⟨lower, upper⟩
  · exact List.pairwise_map.1 (nested n mem).pairwise

/-- Parentheses that leave no node, and an expression inside a text. -/
def groupedSource : String := " x = (f)(-(1), `<\x7b(y)\x7d>`)[(2)] ; "

/-- The spans of a script's nodes, each behind those of what it holds. -/
def Program.offsets (p : Program) : List (Nat × Nat) :=
  p.nodes.map fun n => (n.mark.span.start.offset, n.mark.span.stop.offset)

theorem spans_nest_grouped :
    ∃ p, Program.ofSource groupedSource "" = .ok p ∧
      p.offsets = [(1, 2), (11, 12), (9, 12), (19, 20), (15, 24), (6, 25), (27, 28), (6, 30),
        (1, 32), (1, 33)] ∧
      (∀ n, (Node.block p).Holds n → n.mark.span.Filled) ∧
      ∀ n ∈ p.nodes,
        (∀ child ∈ n.children, child.mark.span.Inside n.mark.span) ∧
        n.children.Pairwise fun child next => child.mark.span.Before next.mark.span := by
  have listed : (Program.ofSource groupedSource "").toOption.map Program.offsets =
      some [(1, 2), (11, 12), (9, 12), (19, 20), (15, 24), (6, 25), (27, 28), (6, 30), (1, 32),
        (1, 33)] := by decide +kernel
  obtain ⟨p, read, offsets⟩ := Option.map_eq_some_iff.1 listed
  have parsed := eq_ok_of_toOption read
  exact ⟨p, parsed, offsets, spans_nest parsed⟩

end CursorScript
