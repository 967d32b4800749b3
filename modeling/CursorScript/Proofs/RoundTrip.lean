import CursorScript.Proofs.ExprRoundTrip
import CursorScript.Proofs.Nodes

/-!
Reading scripts that were written. Main statement: the words of a script that can be written are
read back as that script, but for identities and places.
-/
namespace CursorScript

section
variable (write : Float → String)

theorem Expr.startsExpr_printLone (e : Expr) :
    ∃ word rest, e.printLone write = word :: rest ∧ word.1.startsExpr := by
  cases e <;> exact ⟨_, _, rfl, by simp [TokenKind.startsExpr]⟩

/-- No statement starts with a word that closes a block or goes on with a conditional. -/
theorem Stmt.starts_print (s : Stmt) : ∃ word rest, s.print write = word :: rest ∧
    word.1 ≠ .closeCurly ∧ word.1 ≠ .eof ∧ word.1 ≠ .wordElse := by
  have starts : ∀ kind : TokenKind, kind.startsExpr →
      kind ≠ .closeCurly ∧ kind ≠ .eof ∧ kind ≠ .wordElse := by
    intro kind
    cases kind <;> simp [TokenKind.startsExpr]
  cases s with
  | expression mark e =>
    obtain ⟨word, rest, first, opens⟩ := e.startsExpr_printLone write
    exact ⟨word, _, by rw [print, first]; rfl, starts _ opens⟩
  | assign mark target operator value =>
    obtain ⟨word, rest, first, opens⟩ := target.startsExpr_print
    exact ⟨word, _, by rw [print, first]; rfl, starts _ opens⟩
  | ret mark value => cases value <;> exact ⟨_, _, rfl, by simp⟩
  | _ => exact ⟨_, _, rfl, by simp⟩

end

theorem Stmt.bare_block {b b' : Block Stmt} (h : b.body.map bare = b'.body.map bare) :
    (Stmt.block b).bare = (Stmt.block b').bare := by
  simp only [bare, remark_block, Block.remark, h]

namespace Grammar

theorem Stream.Faces.peek {s : Stream} {first second : Word} {more : List Word}
    (h : s.Faces (first :: second :: more)) : s.peekKind 1 = second.1 := by
  have ahead := h.ahead
  unfold Stream.peekKind
  cases rest : s.rest with
  | nil => simp [rest] at ahead
  | cons token others =>
    cases others with
    | nil => simp [rest] at ahead
    | cons token' others' =>
      simp only [rest, List.map_cons, List.cons.injEq] at ahead
      exact congrArg Prod.fst ahead.2.1

section forms
variable {write : Float → String} {fuel : Nat} {more : List Word}

theorem consumes_lone {e : Expr} (printable : e.Printable write)
    (room : (e.printLone write ++ more).length ≤ fuel) (stop : pull more = 0) :
    Consumes (exprWithin fuel .loosest) (e.printLone write ++ more) more
      fun found => found.bare = e.bare := by
  have enclosed : ∀ e : Expr, e.Printable write →
      (between .openParen .closeParen (e.print write) ++ more).length ≤ fuel →
      Consumes (exprWithin fuel .loosest) (between .openParen .closeParen (e.print write) ++ more)
        more fun found => found.bare = e.bare := by
    intro e printable room
    cases fuel with
    | zero => simp at room
    | succ fuel =>
      have inner : Consumes (grouping (exprWithin fuel))
          (between .openParen .closeParen (e.print write) ++ more) more
          fun found => found.bare = e.bare := by
        refine (spells e printable).consumes_grouping printable ?_
        simp only [between_append, List.length_cons, List.length_append] at room ⊢
        omega
      exact Opens.consumes (.of_operand (consumes_kind inner)) (Nat.le_of_eq stop)
  cases e with
  | call mark callee arguments =>
    exact (spells _ printable).consumes_loosest printable room stop
  | _ => exact enclosed _ printable room

theorem consumes_expressionStmt (mark : Mark) {e : Expr} (printable : e.Printable write)
    (room : (e.printLone write ++ TokenKind.semicolon.spelled :: more).length ≤ fuel) :
    Consumes (expressionStmt (exprWithin fuel))
      (e.printLone write ++ TokenKind.semicolon.spelled :: more) more
      fun found => found.bare = (Stmt.expression mark e).bare := by
  refine (consumes_lone printable room rfl).bind fun found same => ?_
  refine (consumes_expect rfl).bind fun _ _ => (consumes_markFrom _).bind fun mark' _ => .pure ?_
  simp only [Stmt.bare, Stmt.remark, same]

theorem consumes_declareStmt {mark : Mark} {name : String} {type : Ty} {value : Expr}
    (printable : type.Printable ∧ value.Printable write)
    (room : ((Stmt.declare mark name type value).print write ++ more).length ≤ fuel) :
    Consumes (declareStmt (exprWithin fuel))
      ((Stmt.declare mark name type value).print write ++ more) more
      fun found => found.bare = (Stmt.declare mark name type value).bare := by
  simp only [Stmt.print, List.cons_append, List.append_assoc, List.nil_append] at room ⊢
  refine consumes_take.bind fun _ _ => (consumes_expectWith _ rfl).bind fun token is => ?_
  refine (consumes_expectWith _ rfl).bind fun _ _ => (consumes_type printable.1 _).bind ?_
  rintro _ rfl
  refine (consumes_expectWith _ rfl).bind fun _ _ => ?_
  refine ((spells value printable.2).consumes_loosest printable.2 ?_ rfl).bind fun found same => ?_
  · simp only [List.length_append, List.length_cons] at room ⊢
    omega
  refine (consumes_expect rfl).bind fun _ _ => (consumes_markFrom _).bind fun mark' _ => .pure ?_
  simp only [Stmt.bare, Stmt.remark, show token.value = name from congrArg Prod.snd is, same]

theorem consumes_assignStmt {mark : Mark} {target : Symbol} {operator : Token} {value : Expr}
    (printable : (Stmt.assign mark target operator value).Printable write)
    (room : ((Stmt.assign mark target operator value).print write ++ more).length ≤ fuel) :
    Consumes (assignStmt (exprWithin fuel))
      ((Stmt.assign mark target operator value).print write ++ more) more
      fun found => found.bare = (Stmt.assign mark target operator value).bare := by
  simp only [Stmt.print, List.cons_append, List.append_assoc, List.nil_append] at room ⊢
  refine consumes_place.bind fun start _ => (consumes_scopedSymbol target _).bind ?_
  rintro _ ⟨mark', rfl⟩
  refine consumes_current.bind fun token is => ?_
  have assigns : ¬(token.kind ≠ .assignment ∧ !token.kind.isCompoundAssignment) := by
    rw [Token.kind_eq is]
    rcases printable.1 with plain | compound
    · simp [plain]
    · simp [compound]
  dsimp only
  rw [if_neg assigns]
  refine consumes_take.bind fun _ _ => ?_
  refine ((spells value printable.2).consumes_loosest printable.2 ?_ rfl).bind fun found same => ?_
  · simp only [List.length_append, List.length_cons] at room ⊢
    omega
  refine (consumes_expect rfl).bind fun _ _ => (consumes_markFrom _).bind fun mark'' _ => .pure ?_
  simp only [Stmt.bare, Stmt.remark, Token.unplaced_eq_iff.2 is, same]
  rfl

theorem consumes_returnStmt {mark : Mark} {value : Option Expr}
    (printable : ∀ e ∈ value, e.Printable write)
    (room : ((Stmt.ret mark value).print write ++ more).length ≤ fuel) :
    Consumes (returnStmt (exprWithin fuel)) ((Stmt.ret mark value).print write ++ more) more
      fun found => found.bare = (Stmt.ret mark value).bare := by
  cases value with
  | none =>
    refine consumes_take.bind fun _ _ => consumes_kind ?_
    refine (consumes_expect rfl).bind fun _ _ => (consumes_markFrom _).bind fun mark' _ => ?_
    exact .pure rfl
  | some value =>
    have printed := printable value rfl
    obtain ⟨word, rest, first, opens⟩ := value.startsExpr_print write printed
    simp only [Stmt.print, List.cons_append, List.append_assoc, List.nil_append] at room ⊢
    have goes :
        headKind (value.print write ++ TokenKind.semicolon.spelled :: more) ≠ .semicolon := by
      rw [first, List.cons_append, headKind_cons]
      intro is
      simp [is, TokenKind.startsExpr] at opens
    refine consumes_take.bind fun _ _ => consumes_kind ?_
    rw [if_neg goes]
    refine ((spells value printed).consumes_loosest printed ?_ rfl).bind fun found same => ?_
    · simp only [List.length_append, List.length_cons] at room ⊢
      omega
    refine .pure_bind ((consumes_expect rfl).bind fun _ _ => ?_)
    refine (consumes_markFrom _).bind fun mark' _ => .pure ?_
    simp only [Stmt.bare, Stmt.remark, Option.map_some, same]

/-- A word and a semicolon are read as the statement that `make` makes of them. -/
theorem consumes_wordStmt {word : Word} (mark : Mark) (make : Mark → Stmt)
    (same : ∀ mark', (make mark').bare = (make mark).bare) :
    Consumes
      (do
        let start := (← Parse.take).span.start
        let _ ← Parse.expect .semicolon
        return make (← Parse.markFrom start))
      (word :: TokenKind.semicolon.spelled :: more) more
      fun found => found.bare = (make mark).bare := by
  refine consumes_take.bind fun _ _ => (consumes_expect rfl).bind fun _ _ => ?_
  exact (consumes_markFrom _).bind fun mark' _ => .pure (same mark')

theorem consumes_parameter {all done rest before : List Parameter} {p : Parameter}
    (split : all = done ++ p :: rest) (nodup : (all.map Parameter.name).Nodup)
    (printable : p.type.Printable)
    (same : before.reverse.map Parameter.bare = done.map Parameter.bare)
    (stop : headKind more = .closeParen) :
    Consumes (parameter before) (p.print ++ (commaTail (rest.map Parameter.print) ++ more))
      (commas (rest.map Parameter.print) ++ more) (·.bare = p.bare) := by
  have fresh : ¬before.any (fun other => other.name = p.name) := by
    intro taken
    obtain ⟨other, mem, name⟩ := List.any_eq_true.1 taken
    have seen : other.bare ∈ done.map Parameter.bare := by
      rw [← same]
      exact List.mem_map_of_mem (List.mem_reverse.2 mem)
    obtain ⟨first, earlier, alike⟩ := List.mem_map.1 seen
    have names : first.name = p.name :=
      (congrArg Parameter.name alike).trans (of_decide_eq_true name)
    rw [split, List.map_append, List.map_cons, List.nodup_append] at nodup
    exact nodup.2.2 first.name (List.mem_map_of_mem earlier) p.name (by simp) names
  refine (consumes_expectWith _ rfl).bind fun token is => ?_
  have named : token.value = p.name := congrArg Prod.snd is
  refine (consumes_expectWith _ rfl).bind fun _ _ => (consumes_type printable _).bind ?_
  rintro _ rfl
  rw [named, if_neg fresh]
  refine (consumes_markFrom _).bind fun mark _ => ?_
  exact (consumes_separator _ _ stop (by simp)).bind fun _ _ => .pure rfl

theorem consumes_parameters {ps : List Parameter} (nodup : (ps.map Parameter.name).Nodup)
    (printable : ∀ p ∈ ps, p.type.Printable) :
    Consumes parameters (between .openParen .closeParen (commas (ps.map Parameter.print)) ++ more)
      more fun found => found.map Parameter.bare = ps.map Parameter.bare := by
  rw [between_append]
  refine (consumes_expect rfl).bind fun _ _ => ?_
  refine (consumes_listed Parameter.bare Parameter.print rfl ?_ ?_).bind fun found same =>
    (consumes_expect rfl).bind fun _ _ => .pure same
  · exact fun p _ => ⟨_, _, rfl, by simp⟩
  · intro done before p rest split same _ _
    exact consumes_parameter split nodup (printable p (by simp [split])) same rfl

theorem consumes_returnType {returns : Option Ty} (printable : ∀ type ∈ returns, type.Printable)
    (stop : headKind more ≠ .colon) :
    Consumes returnType (printReturns returns ++ more) more (· = returns) := by
  cases returns with
  | none =>
    refine consumes_kind ?_
    rw [printReturns, List.nil_append, if_neg stop]
    exact .pure rfl
  | some type =>
    refine consumes_kind (consumes_take.bind fun _ _ => ?_)
    refine (consumes_type (printable type rfl) _).bind ?_
    rintro _ rfl
    exact .pure rfl

variable (write) in
/-- The words of a statement are read back as that statement, unless `else` stands behind them. -/
def SpellsStmt (s : Stmt) : Prop :=
  ∀ (fuel : Nat) (more : List Word), (s.print write ++ more).length < fuel →
    headKind more ≠ .wordElse →
    Consumes (stmtWithin fuel) (s.print write ++ more) more fun found => found.bare = s.bare

theorem headKind_printAll (body : List Stmt) (stop : headKind more ≠ .wordElse) :
    headKind (Stmt.printAll write body ++ more) ≠ .wordElse := by
  cases body with
  | nil => exact stop
  | cons s rest =>
    obtain ⟨word, words, first, _, _, apart⟩ := s.starts_print write
    rw [Stmt.printAll, first]
    exact apart

/-- Statements are read one by one up to what closes their sequence. -/
theorem consumes_body {body : List Stmt} (spells : ∀ s ∈ body, SpellsStmt write s)
    {close : TokenKind} (closes : close = .closeCurly ∨ close = .eof) (stop : headKind more = close)
    (room : (Stmt.printAll write body ++ more).length < fuel) {item : List Stmt → Parse Stmt}
    (reads : ∀ before words rest post, headKind words ≠ .eof →
      Consumes (stmtWithin fuel) words rest post → Consumes (item before) words rest post) :
    Consumes (Parse.itemsBefore close item) (Stmt.printAll write body ++ more) more
      fun found => found.map Stmt.bare = body.map Stmt.bare := by
  refine consumes_itemsBefore Stmt.bare (Stmt.printAll write) stop rfl ?_
  intro done before s rest split _ bound
  have mem : s ∈ body := by simp [split]
  obtain ⟨word, words, first, curly, ends, _⟩ := s.starts_print write
  have apart : headKind more ≠ .wordElse := by
    rw [stop]
    rcases closes with rfl | rfl <;> simp
  rw [Stmt.printAll, List.append_assoc]
  have longer : 0 < (s.print write).length := by simp [first]
  refine ⟨?_, by simp; omega, reads _ _ _ _ (by rw [first]; exact ends) ?_⟩
  · rw [first]
    rcases closes with rfl | rfl
    · exact curly
    · exact ends
  · refine spells s mem fuel _ ?_ (headKind_printAll rest apart)
    simp only [Stmt.printAll, List.length_append] at room bound ⊢
    omega

theorem consumes_block {body : List Stmt} (spells : ∀ s ∈ body, SpellsStmt write s)
    (room : (between .openCurly .closeCurly (Stmt.printAll write body) ++ more).length ≤ fuel) :
    Consumes (block (stmtWithin fuel))
      (between .openCurly .closeCurly (Stmt.printAll write body) ++ more) more
      fun found => found.body.map Stmt.bare = body.map Stmt.bare := by
  rw [between_append] at room ⊢
  have inside :
      (Stmt.printAll write body ++ TokenKind.closeCurly.spelled :: more).length < fuel := by
    simp only [List.length_cons] at room
    omega
  refine (consumes_expectWith _ rfl).bind fun _ _ => ?_
  refine (consumes_body spells (.inl rfl) rfl inside ?_).bind fun found same => ?_
  · intro before words rest post goes reads
    refine consumes_kind ?_
    rw [if_neg goes]
    exact reads
  exact (consumes_expect rfl).bind fun _ _ => (consumes_markFrom _).bind fun mark' _ => .pure same

theorem SpellsStmt.of_statement {s : Stmt}
    (h : ∀ (fuel : Nat) (more : List Word), (s.print write ++ more).length ≤ fuel →
      headKind more ≠ .wordElse →
      Consumes (statement (exprWithin fuel) (stmtWithin fuel)) (s.print write ++ more) more
        fun found => found.bare = s.bare) : SpellsStmt write s := by
  intro fuel more room stop
  cases fuel with
  | zero => omega
  | succ fuel => exact h fuel more (by omega) stop

theorem spells_block {mark : Mark} {body : List Stmt} (spells : ∀ s ∈ body, SpellsStmt write s) :
    SpellsStmt write (.block ⟨mark, body⟩) := by
  refine .of_statement fun fuel more room _ => consumes_kind ?_
  exact (consumes_block spells room).bind fun found same => .pure (Stmt.bare_block same)

theorem spells_expression {mark : Mark} {e : Expr} (printable : e.Printable write) :
    SpellsStmt write (.expression mark e) := by
  refine .of_statement fun fuel more room _ => consumes_kind ?_
  rw [Stmt.print, List.append_assoc, List.singleton_append] at room ⊢
  have read := consumes_expressionStmt mark printable room
  cases e with
  | call place callee arguments =>
    refine consumes_get.bind fun s faces => ?_
    have next : s.peekKind 1 = .openParen := faces.peek
    dsimp only
    rw [next, if_neg (by simp [TokenKind.isCompoundAssignment]), if_pos rfl]
    exact read
  | _ => exact read

theorem spells_assign {mark : Mark} {target : Symbol} {operator : Token} {value : Expr}
    (printable : (Stmt.assign mark target operator value).Printable write) :
    SpellsStmt write (.assign mark target operator value) := by
  refine .of_statement fun fuel more room _ => consumes_kind ?_
  have read := consumes_assignStmt printable room
  obtain ⟨place, name, up⟩ := target
  cases up with
  | zero =>
    refine consumes_get.bind fun s faces => ?_
    have next : s.peekKind 1 = operator.kind := faces.peek
    dsimp only
    rw [next, if_pos printable.1]
    exact read
  | succ up => exact read

/-- What stands behind `else` is read back. -/
def SpellsElse (write : Float → String) : Option Stmt → Prop
  | none => True
  | some (.block ⟨_, body⟩) => ∀ s ∈ body, SpellsStmt write s
  | some (.branch mark condition body other) => SpellsStmt write (.branch mark condition body other)
  | some _ => False

/-- A word, an expression and a block are read before anything that may stand behind them. -/
theorem consumes_guarded {word : Word} {e : Expr} {body : List Stmt}
    {behind : List Word} {next : Token → Expr → Block Stmt → Parse Stmt} {post : Stmt → Prop}
    (printable : e.Printable write) (spells : ∀ s ∈ body, SpellsStmt write s)
    (room : (e.print write ++ (between .openCurly .closeCurly (Stmt.printAll write body) ++
      behind)).length < fuel)
    (rest : ∀ token e' b', e'.bare = e.bare → b'.body.map Stmt.bare = body.map Stmt.bare →
      Consumes (next token e' b') behind more post) :
    Consumes
      (do
        let token ← Parse.take
        let e' ← exprWithin fuel .loosest
        let b' ← block (stmtWithin fuel)
        next token e' b')
      (word ::
        (e.print write ++ (between .openCurly .closeCurly (Stmt.printAll write body) ++ behind)))
      more post := by
  have short : (between .openCurly .closeCurly (Stmt.printAll write body) ++ behind).length ≤
      fuel := by
    simp only [List.length_append] at room ⊢
    omega
  refine consumes_take.bind fun token _ => ?_
  refine ((Grammar.spells e printable).consumes_loosest printable (Nat.le_of_lt room) rfl).bind
    fun e' same => ?_
  exact (consumes_block spells short).bind fun b' ran => rest token e' b' same ran

theorem spells_branch {mark inner : Mark} {condition : Expr} {body : List Stmt}
    {other : Option Stmt} (printable : condition.Printable write)
    (spells : ∀ s ∈ body, SpellsStmt write s) (otherwise : SpellsElse write other) :
    SpellsStmt write (.branch mark condition ⟨inner, body⟩ other) := by
  refine .of_statement fun fuel more room stop => consumes_kind ?_
  simp only [Stmt.print, List.cons_append, List.append_assoc] at room ⊢
  refine consumes_guarded printable spells room fun token condition' body' tested ran => ?_
  -- Whatever is read behind the block, the conditional is made of it in the same way.
  have joined : ∀ other', other'.map Stmt.bare = other.map Stmt.bare →
      Consumes (do return Stmt.branch (← Parse.markFrom token.span.start) condition' body' other')
        more more
        fun found => found.bare = (Stmt.branch mark condition ⟨inner, body⟩ other).bare := by
    intro other' same
    refine (consumes_markFrom _).bind fun mark' _ => .pure ?_
    simp only [Stmt.bare, Stmt.remark, Stmt.remarkAll_eq, Stmt.remarkOther_eq, tested, ran, same]
  refine consumes_kind ?_
  cases other with
  | none =>
    rw [Stmt.printOther, List.nil_append, if_neg stop]
    exact .pure_bind (joined none rfl)
  | some s =>
    have shorter : (s.print write ++ more).length < fuel := by
      simp only [Stmt.printOther, List.length_append, List.length_cons] at room ⊢
      omega
    refine consumes_take.bind fun _ _ => consumes_kind ?_
    cases s with
    | block block' =>
      obtain ⟨mark', body'⟩ := block'
      refine (consumes_block otherwise (Nat.le_of_lt shorter)).bind fun found same => ?_
      exact .pure_bind (joined _ (congrArg some (Stmt.bare_block same)))
    | branch mark' condition' body' other' =>
      refine (otherwise fuel more shorter stop).bind fun found same => ?_
      exact .pure_bind (joined _ (congrArg some same))
    | _ => exact otherwise.elim

theorem spells_while {mark inner : Mark} {condition : Expr} {body : List Stmt}
    (printable : condition.Printable write) (spells : ∀ s ∈ body, SpellsStmt write s) :
    SpellsStmt write (.whileLoop mark condition ⟨inner, body⟩) := by
  refine .of_statement fun fuel more room _ => consumes_kind ?_
  rw [Stmt.print, List.cons_append, List.append_assoc] at room ⊢
  refine consumes_guarded printable spells room fun token condition' body' tested ran => ?_
  refine (consumes_markFrom _).bind fun mark' _ => .pure ?_
  simp only [Stmt.bare, Stmt.remark, Stmt.remarkAll_eq, tested, ran]

theorem spells_repeat {mark inner : Mark} {count : Expr} {body : List Stmt}
    (printable : count.Printable write) (spells : ∀ s ∈ body, SpellsStmt write s) :
    SpellsStmt write (.repeatLoop mark count ⟨inner, body⟩) := by
  refine .of_statement fun fuel more room _ => consumes_kind ?_
  rw [Stmt.print, List.cons_append, List.append_assoc] at room ⊢
  refine consumes_guarded printable spells room fun token count' body' counted ran => ?_
  refine (consumes_markFrom _).bind fun mark' _ => .pure ?_
  simp only [Stmt.bare, Stmt.remark, Stmt.remarkAll_eq, counted, ran]

theorem spells_function {mark inner : Mark} {name : String} {ps : List Parameter}
    {returns : Option Ty} {body : List Stmt} (nodup : (ps.map Parameter.name).Nodup)
    (types : ∀ p ∈ ps, p.type.Printable) (result : ∀ type ∈ returns, type.Printable)
    (spells : ∀ s ∈ body, SpellsStmt write s) :
    SpellsStmt write (.function ⟨mark, name, ps, returns, ⟨inner, body⟩⟩) := by
  refine .of_statement fun fuel more room _ => consumes_kind ?_
  simp only [Stmt.print, printSignature, List.cons_append, List.append_assoc] at room ⊢
  simp only [List.length_append, List.length_cons] at room
  refine consumes_take.bind fun _ _ => (consumes_expectWith _ rfl).bind fun token is => ?_
  refine (consumes_parameters nodup types).bind fun ps' same => ?_
  have curly : ∀ words, headKind (TokenKind.openCurly.spelled :: words) ≠ .colon := by simp
  refine (consumes_returnType result (curly _)).bind ?_
  rintro _ rfl
  refine (consumes_block spells ?_).bind fun body' ran => ?_
  · simp only [List.length_append]
    omega
  refine (consumes_markFrom _).bind fun mark' _ => .pure ?_
  have heads : ps'.map (·.remark fun _ => ⟨0, .nowhere⟩) =
      ps.map (·.remark fun _ => ⟨0, .nowhere⟩) := same
  simp only [Stmt.bare, Stmt.remark, Stmt.remarkAll_eq, heads, ran,
    show token.value = name from congrArg Prod.snd is]

mutual

/-- The words of every statement are read back. -/
theorem spells_stmt : ∀ s : Stmt, s.Printable write → SpellsStmt write s
  | .block ⟨_, body⟩, h => spells_block (spells_stmts body h)
  | .expression .., h => spells_expression h
  | .declare .., h => .of_statement fun _ _ room _ => consumes_kind (consumes_declareStmt h room)
  | .assign .., h => spells_assign h
  | .branch _ _ ⟨_, body⟩ other, h =>
    spells_branch h.1 (spells_stmts body h.2.1) (spells_other other h.2.2)
  | .whileLoop _ _ ⟨_, body⟩, h => spells_while h.1 (spells_stmts body h.2)
  | .repeatLoop _ _ ⟨_, body⟩, h => spells_repeat h.1 (spells_stmts body h.2)
  | .function ⟨_, _, _, _, ⟨_, body⟩⟩, h =>
    spells_function h.1 h.2.1 h.2.2.1 (spells_stmts body h.2.2.2)
  | .ret _ none, h => .of_statement fun _ _ room _ => consumes_kind (consumes_returnStmt h room)
  | .ret _ (some _), h => .of_statement fun _ _ room _ => consumes_kind (consumes_returnStmt h room)
  | .brk mark, _ =>
    .of_statement fun _ _ _ _ => consumes_kind (consumes_wordStmt mark .brk fun _ => rfl)
  | .cont mark, _ =>
    .of_statement fun _ _ _ _ => consumes_kind (consumes_wordStmt mark .cont fun _ => rfl)

theorem spells_other : ∀ other : Option Stmt, Stmt.OtherPrintable write other →
    SpellsElse write other
  | none, _ => trivial
  | some (.block ⟨_, body⟩), h => spells_stmts body h.2
  | some (.branch mark condition body other), h =>
    spells_stmt (.branch mark condition body other) h.2

theorem spells_stmts : ∀ body : List Stmt, Stmt.AllPrintable write body →
    ∀ s ∈ body, SpellsStmt write s
  | [], _ => by simp
  | s :: rest, h => List.forall_mem_cons.2 ⟨spells_stmt s h.1, spells_stmts rest h.2⟩

end

end forms

theorem Stream.faces_ofTokens {tokens : List Token} {words : List Word} (file : String) (id : Nat)
    (h : tokens.map Token.word = words ++ [(Token.ending .unknown).word]) :
    (Stream.ofTokens tokens file id).Faces words := by
  obtain ⟨rest, last, rfl, ahead, ends⟩ := List.map_eq_append_iff.1 h
  obtain ⟨token, rfl, closes⟩ := List.map_eq_singleton_iff.1 ends
  have kind : token.kind = .eof := congrArg Prod.fst closes
  refine ⟨?_, ?_⟩
  · simp [Stream.ofTokens, kind, ahead]
  · simp [Stream.ofTokens, kind]

theorem consumes_program {write : Float → String} {p : Program} (printable : p.Printable write) :
    Consumes program (Stmt.printAll write p.body) [] fun found => found.bare = p.bare := by
  refine consumes_place.bind fun start _ => consumes_get.bind fun s faces => ?_
  have body : Consumes (Parse.itemsBefore .eof fun _ => stmtWithin s.limit)
      (Stmt.printAll write p.body ++ []) [] fun found =>
      found.map Stmt.bare = p.body.map Stmt.bare := by
    have room : (Stmt.printAll write p.body ++ []).length < s.limit := by
      simpa using faces.length_lt
    exact consumes_body (spells_stmts p.body printable) (.inr rfl) rfl room
      fun _ _ _ _ _ reads => reads
  rw [List.append_nil] at body
  refine body.bind fun found same => consumes_freshId.bind fun id _ => ?_
  refine consumes_place.bind fun stop _ => .pure ?_
  simp only [Program.bare, Program.remark, Block.remark, same]

end Grammar

/-- The words of a script that can be written, wherever they stand, are read back as that script,
but for identities and places. -/
theorem Program.ofTokens_print {write : Float → String} {p : Program}
    (printable : p.Printable write) (tokens : List Token) (file : String)
    (h : tokens.map Token.word = p.print write) :
    ∃ q, Program.ofTokens tokens file = .ok q ∧ q.bare = p.bare := by
  have faces := Grammar.Stream.faces_ofTokens file 0 h
  obtain ⟨q, s, ran, _, same⟩ := Grammar.consumes_program printable _ faces
  exact ⟨q, by rw [ofTokens, ran]; rfl, same⟩

/-- A script with operators that group to the left and to the right, signs before powers, an index
behind a call, and `else` before another conditional. -/
def knottySource : String :=
  "function f(n: number): [real] \x7b return [2.5, -(n ^ 2) ^ n]; \x7d
  if not f(3)[0] == (2 ^ 3) ^ 2 or <top> == #a:b \x7b ^x += (1 + 2) * 3; \x7d
  else if f(1) \x7b (-x); \x7d"

/-- The tree of that script; nodes and operators stand nowhere. -/
def knotty : Program :=
  let here : Mark := ⟨0, .nowhere⟩
  let operator (kind : TokenKind) : Token := ⟨kind, kind.symbol, .nowhere⟩
  let number (n : Nat) : Expr := .number here n
  let name (text : String) : Expr := .symbol ⟨here, text, 0⟩
  let join (left : Expr) (kind : TokenKind) (right : Expr) : Expr :=
    .binary here left (operator kind) right
  let sign (kind : TokenKind) (e : Expr) : Expr := .unary here (operator kind) e
  let call (argument : Nat) : Expr := .call here "f" [number argument]
  let result := Expr.list here [.real here (Decimal.ofDecimal 25 (-1)),
    join (sign .dash (join (name "n") .caret (number 2))) .caret (name "n")]
  let condition := join
    (join (sign .wordNot (.index here (call 3) (number 0))) .equals
      (join (join (number 2) .caret (number 3)) .caret (number 2)))
    .wordOr (join (.member here "top") .equals (.material here (some "a") "b"))
  let sum := join (join (number 1) .plus (number 2)) .star (number 3)
  ⟨here,
    [.function ⟨here, "f", [⟨here, "n", .number⟩], some (.list .real),
      ⟨here, [.ret here (some result)]⟩⟩,
     .branch here condition ⟨here, [.assign here ⟨here, "x", 1⟩ (operator .plusEquals) sum]⟩
      (some (.branch here (call 1) ⟨here, [.expression here (sign .dash (name "x"))]⟩ none))]⟩

theorem knotty_printable : Program.Printable (fun _ => "2.5") knotty := by
  have reads : Decimal.readReal? (Grammar.digitsOf "2.5") = some (Decimal.ofDecimal 25 (-1)) := rfl
  simp [Program.Printable, knotty, Stmt.AllPrintable, Stmt.Printable, Stmt.OtherPrintable,
    Stmt.followsElse, Expr.Printable, Expr.AllPrintable, Ty.Printable, Ty.number, Ty.real,
    TokenKind.tightness, TokenKind.isCompoundAssignment, reads]

theorem Program.ofTokens_print_knotty : Program.Printable (fun _ => "2.5") knotty ∧
    ∃ tokens q, Token.tokenize knottySource "knotty" = .ok tokens ∧
      tokens.map Token.word = knotty.print (fun _ => "2.5") ∧
      Program.ofTokens tokens "knotty" = .ok q ∧ q.bare = knotty.bare := by
  have cut : (Token.tokenize knottySource "knotty").toOption.map (List.map Token.word) =
      some (knotty.print fun _ => "2.5") := by decide +kernel
  obtain ⟨tokens, here, words⟩ := Option.map_eq_some_iff.1 cut
  obtain ⟨q, read, same⟩ := Program.ofTokens_print knotty_printable tokens "knotty" words
  exact ⟨knotty_printable, tokens, q, eq_ok_of_toOption here, words, read, same⟩

end CursorScript
