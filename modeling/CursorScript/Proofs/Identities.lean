import CursorScript.Grammar.Stmt

/-!
Identities of nodes. The nodes of a tree that was read from tokens have identities that ascend in
the order in which the nodes end, so no two nodes share one and a node has a greater identity than
all it holds. Besides, what stands behind `else` is a block or another conditional.
-/
namespace CursorScript

mutual

def Expr.ids : Expr → List Nat
  | .number mark _ => [mark.id]
  | .real mark _ => [mark.id]
  | .logic mark _ => [mark.id]
  | .string mark _ => [mark.id]
  | .interpolation mark parts => idsOfParts parts ++ [mark.id]
  | .material mark _ _ => [mark.id]
  | .member mark _ => [mark.id]
  | .symbol s => [s.mark.id]
  | .binary mark left _ right => left.ids ++ right.ids ++ [mark.id]
  | .unary mark _ operand => operand.ids ++ [mark.id]
  | .index mark collection place => collection.ids ++ place.ids ++ [mark.id]
  | .call mark _ arguments => idsOfAll arguments ++ [mark.id]
  | .list mark elements => idsOfAll elements ++ [mark.id]
  | .map mark entries => idsOfEntries entries ++ [mark.id]

def Expr.idsOfAll : List Expr → List Nat
  | [] => []
  | e :: rest => e.ids ++ idsOfAll rest

def Expr.idsOfParts : List (Part Expr) → List Nat
  | [] => []
  | .text _ :: rest => idsOfParts rest
  | .embed e :: rest => e.ids ++ idsOfParts rest

def Expr.idsOfEntries : List (Expr × Expr) → List Nat
  | [] => []
  | (key, value) :: rest => key.ids ++ value.ids ++ idsOfEntries rest

end

mutual

def Stmt.ids : Stmt → List Nat
  | .block ⟨mark, body⟩ => idsOfAll body ++ [mark.id]
  | .expression mark e => e.ids ++ [mark.id]
  | .declare mark _ _ value => value.ids ++ [mark.id]
  | .assign mark target _ value => target.mark.id :: value.ids ++ [mark.id]
  | .branch mark condition ⟨inner, body⟩ other =>
    condition.ids ++ (idsOfAll body ++ [inner.id]) ++ idsOfOther other ++ [mark.id]
  | .whileLoop mark condition ⟨inner, body⟩ =>
    condition.ids ++ (idsOfAll body ++ [inner.id]) ++ [mark.id]
  | .repeatLoop mark count ⟨inner, body⟩ =>
    count.ids ++ (idsOfAll body ++ [inner.id]) ++ [mark.id]
  | .function ⟨mark, _, parameters, _, ⟨inner, body⟩⟩ =>
    parameters.map (fun p => p.mark.id) ++ (idsOfAll body ++ [inner.id]) ++ [mark.id]
  | .ret mark value => (value.map Expr.ids).getD [] ++ [mark.id]
  | .brk mark => [mark.id]
  | .cont mark => [mark.id]

def Stmt.idsOfOther : Option Stmt → List Nat
  | none => []
  | some s => s.ids

def Stmt.idsOfAll : List Stmt → List Nat
  | [] => []
  | s :: rest => s.ids ++ idsOfAll rest

end

def Program.ids (p : Program) : List Nat := Stmt.idsOfAll p.body ++ [p.mark.id]

def Stmt.followsElse : Stmt → Bool
  | .block _ => true
  | .branch .. => true
  | _ => false

mutual

/-- Whether only blocks and conditionals stand behind `else`. -/
def Stmt.shaped : Stmt → Bool
  | .block ⟨_, body⟩ => allShaped body
  | .branch _ _ ⟨_, body⟩ other => allShaped body && otherShaped other
  | .whileLoop _ _ ⟨_, body⟩ => allShaped body
  | .repeatLoop _ _ ⟨_, body⟩ => allShaped body
  | .function ⟨_, _, _, _, ⟨_, body⟩⟩ => allShaped body
  | _ => true

def Stmt.otherShaped : Option Stmt → Bool
  | none => true
  | some s => s.followsElse && s.shaped

def Stmt.allShaped : List Stmt → Bool
  | [] => true
  | s :: rest => s.shaped && allShaped rest

end

theorem Expr.idsOfAll_eq (es : List Expr) : Expr.idsOfAll es = es.flatMap Expr.ids := by
  induction es with
  | nil => rfl
  | cons e rest ih => simp [Expr.idsOfAll, ih]

theorem Expr.idsOfEntries_eq (entries : List (Expr × Expr)) :
    Expr.idsOfEntries entries = entries.flatMap fun entry => entry.1.ids ++ entry.2.ids := by
  induction entries with
  | nil => rfl
  | cons entry rest ih => simp [Expr.idsOfEntries, ih]

theorem Stmt.idsOfAll_eq (body : List Stmt) : Stmt.idsOfAll body = body.flatMap Stmt.ids := by
  induction body with
  | nil => rfl
  | cons s rest ih => simp [Stmt.idsOfAll, ih]

theorem Stmt.allShaped_iff {body : List Stmt} :
    Stmt.allShaped body = true ↔ ∀ s ∈ body, s.shaped = true := by
  induction body with
  | nil => simp [Stmt.allShaped]
  | cons s rest ih => simp [Stmt.allShaped, ih]

structure Numbered (lo : Nat) (ids : List Nat) (hi : Nat) : Prop where
  le : lo ≤ hi
  ascending : ids.Pairwise (· < ·)
  within : ∀ id ∈ ids, lo ≤ id ∧ id < hi

namespace Numbered
variable {lo mid hi : Nat} {ids more : List Nat}

theorem nil (n : Nat) : Numbered n [] n := ⟨Nat.le_refl n, .nil, by simp⟩

theorem single (n : Nat) : Numbered n [n] (n + 1) := ⟨Nat.le_succ n, by simp, by simp⟩

theorem append (h : Numbered lo ids mid) (next : Numbered mid more hi) :
    Numbered lo (ids ++ more) hi := by
  refine ⟨Nat.le_trans h.le next.le, List.pairwise_append.2 ⟨h.ascending, next.ascending, ?_⟩, ?_⟩
  · intro a first b second
    exact Nat.lt_of_lt_of_le (h.within a first).2 (next.within b second).1
  · intro id mem
    rcases List.mem_append.1 mem with mem | mem
    · have bounds := h.within id mem
      exact ⟨bounds.1, Nat.lt_of_lt_of_le bounds.2 next.le⟩
    · have bounds := next.within id mem
      exact ⟨Nat.le_trans h.le bounds.1, bounds.2⟩

/-- One more node, which holds those before it. -/
theorem close (h : Numbered lo ids hi) : Numbered lo (ids ++ [hi]) (hi + 1) :=
  h.append (single hi)

theorem of_le (h : Numbered mid ids hi) (le : lo ≤ mid) : Numbered lo ids hi :=
  ⟨Nat.le_trans le h.le, h.ascending, fun id mem =>
    ⟨Nat.le_trans le (h.within id mem).1, (h.within id mem).2⟩⟩

end Numbered

/-- A statement whose nodes are numbered from `lo` up to `hi`, and that is well shaped. -/
def Stmt.InOrder (lo : Nat) (s : Stmt) (hi : Nat) : Prop := Numbered lo s.ids hi ∧ s.shaped = true

namespace Grammar

/-- Whenever a reader succeeds, what it read and the next identity are as `post` says. -/
def Numbers {α : Type} (n : Nat) (reader : Parse α) (post : α → Nat → Prop) : Prop :=
  ∀ s a s', s.nextId = n → reader.run s = .ok (a, s') → post a s'.nextId

def Quiet {α : Type} (reader : Parse α) : Prop :=
  ∀ s a s', reader.run s = .ok (a, s') → s'.nextId = s.nextId

section rules
variable {α β : Type} {n : Nat} {reader : Parse α} {next : α → Parse β} {post : β → Nat → Prop}

/-- What a reader followed by another does, if both succeed. -/
theorem run_bind_ok {σ ε : Type} {first : StateT σ (Except ε) α} {next : α → StateT σ (Except ε) β}
    {s s' : σ} {b : β} (h : (first >>= next).run s = .ok (b, s')) :
    ∃ a t, first.run s = .ok (a, t) ∧ (next a).run t = .ok (b, s') := by
  rw [StateT.run_bind] at h
  cases ran : first.run s with
  | error e =>
    rw [ran] at h
    cases h
  | ok result =>
    rw [ran] at h
    exact ⟨result.1, result.2, rfl, h⟩

theorem Numbers.bind {mid : α → Nat → Prop} (h : Numbers n reader mid)
    (rest : ∀ a k, mid a k → Numbers k (next a) post) : Numbers n (reader >>= next) post := by
  intro s b s' start ran
  obtain ⟨a, t, first, second⟩ := run_bind_ok ran
  exact rest a t.nextId (h s a t start first) t b s' rfl second

theorem Numbers.any (rest : ∀ a k, Numbers k (next a) post) : Numbers n (reader >>= next) post := by
  intro s b s' _ ran
  obtain ⟨a, t, _, second⟩ := run_bind_ok ran
  exact rest a t.nextId t b s' rfl second

theorem Numbers.quiet (h : Quiet reader) (rest : ∀ a, Numbers n (next a) post) :
    Numbers n (reader >>= next) post := by
  intro s b s' start ran
  obtain ⟨a, t, first, second⟩ := run_bind_ok ran
  exact rest a t b s' ((h s a t first).trans start) second

theorem Numbers.pure {b : β} (h : post b n) : Numbers n (pure b : Parse β) post := by
  intro s b s' start ran
  cases ran
  exact start ▸ h

theorem Numbers.pure_bind {a : α} (h : Numbers n (next a) post) :
    Numbers n (Pure.pure a >>= next) post := by
  rwa [LawfulMonad.pure_bind]

theorem Numbers.mono {pre : α → Nat → Prop} {post : α → Nat → Prop} (h : Numbers n reader pre)
    (weaker : ∀ a k, pre a k → post a k) : Numbers n reader post :=
  fun s a s' start ran => weaker a _ (h s a s' start ran)

theorem Numbers.fail (cause : Cause) (p : Position) : Numbers n (Parse.fail cause p) post := by
  intro s b s' _ ran
  cases ran

theorem Numbers.fresh {next : Nat → Parse β} (rest : Numbers (n + 1) (next n) post) :
    Numbers n (Parse.freshId >>= next) post := by
  intro s b s' start ran
  obtain ⟨id, t, first, second⟩ := run_bind_ok ran
  cases first
  rw [start] at second
  exact rest _ b s' rfl second

theorem Numbers.mark {start : Position} {next : Mark → Parse β}
    (rest : ∀ mark : Mark, mark.id = n → Numbers (n + 1) (next mark) post) :
    Numbers n (Parse.markFrom start >>= next) post := by
  intro s b s' begin ran
  obtain ⟨mark, t, first, second⟩ := run_bind_ok ran
  cases first
  exact rest _ begin _ b s' (congrArg (· + 1) begin) second

end rules

section quiet
variable {α β : Type}

theorem Quiet.bind {reader : Parse α} {next : α → Parse β} (h : Quiet reader)
    (rest : ∀ a, Quiet (next a)) : Quiet (reader >>= next) := by
  intro s b s' ran
  obtain ⟨a, t, first, second⟩ := run_bind_ok ran
  exact (rest a t b s' second).trans (h s a t first)

theorem Quiet.pure (a : α) : Quiet (pure a : Parse α) := by
  intro s a s' ran
  cases ran
  rfl

theorem Quiet.fail (cause : Cause) (p : Position) : Quiet (Parse.fail cause p : Parse α) := by
  intro s a s' ran
  cases ran

theorem quiet_get : Quiet (get : Parse Stream) := by
  intro s a s' ran
  cases ran
  rfl

theorem quiet_kind : Quiet Parse.kind := by
  intro s a s' ran
  cases ran
  rfl

theorem quiet_current : Quiet Parse.current := by
  intro s a s' ran
  cases ran
  rfl

theorem quiet_place : Quiet Parse.place := by
  intro s a s' ran
  cases ran
  rfl

theorem quiet_take : Quiet Parse.take := by
  intro s a s' ran
  cases ran
  rfl

theorem quiet_unexpected : Quiet (Parse.unexpected : Parse α) :=
  quiet_current.bind fun _ => .fail _ _

theorem quiet_unexpectedWith (message : String) : Quiet (Parse.unexpectedWith message : Parse α) :=
  quiet_current.bind fun _ => .fail _ _

theorem quiet_expect (wanted : TokenKind) : Quiet (Parse.expect wanted) := by
  refine quiet_kind.bind fun kind => ?_
  split
  · exact quiet_take
  · exact quiet_unexpected

theorem quiet_expectWith (wanted : TokenKind) (message : String) :
    Quiet (Parse.expectWith wanted message) := by
  refine quiet_kind.bind fun kind => ?_
  split
  · exact quiet_take
  · exact quiet_unexpectedWith message

theorem quiet_separator (close : TokenKind) (message : String) :
    Quiet (Parse.separator close message) := by
  refine quiet_kind.bind fun kind => ?_
  split
  · exact .pure _
  · exact (quiet_expectWith _ _).bind fun _ => .pure _

theorem quiet_primitiveType : Quiet primitiveType := by
  refine (quiet_expect _).bind fun token => ?_
  split
  · exact .pure _
  · exact .fail _ _

theorem quiet_literalMembers (fuel : Nat) (before : NameSet) :
    Quiet (literalMembers fuel before) := by
  induction fuel generalizing before with
  | zero => exact quiet_unexpected
  | succ fuel ih =>
    refine (quiet_expectWith _ _).bind fun member => quiet_kind.bind fun kind => ?_
    split
    · exact quiet_take.bind fun _ => ih _
    · exact .pure _

theorem quiet_literalType : Quiet literalType :=
  (quiet_expect _).bind fun _ => quiet_get.bind fun _ => (quiet_literalMembers _ _).bind fun _ =>
    (quiet_expectWith _ _).bind fun _ => .pure _

theorem quiet_typeWithin (fuel : Nat) : Quiet (typeWithin fuel) := by
  induction fuel with
  | zero => exact quiet_unexpected
  | succ fuel ih =>
    refine quiet_kind.bind fun kind => ?_
    split
    · exact quiet_primitiveType
    · exact (quiet_expect _).bind fun _ => ih.bind fun _ => (quiet_expectWith _ _).bind fun _ =>
        .pure _
    · exact (quiet_expect _).bind fun _ => ih.bind fun _ => (quiet_expectWith _ _).bind fun _ =>
        ih.bind fun _ => (quiet_expectWith _ _).bind fun _ => .pure _
    · exact quiet_literalType
    · exact quiet_unexpectedWith _

theorem quiet_type : Quiet type := quiet_get.bind fun _ => quiet_typeWithin _

theorem quiet_returnType : Quiet returnType := by
  refine quiet_kind.bind fun kind => ?_
  split
  · exact quiet_take.bind fun _ => quiet_type.bind fun _ => .pure _
  · exact .pure _

theorem Numbers.unexpected {n : Nat} {post : α → Nat → Prop} :
    Numbers n (Parse.unexpected : Parse α) post := .quiet quiet_current fun _ => .fail _ _

theorem Numbers.unexpectedWith {n : Nat} {message : String} {post : α → Nat → Prop} :
    Numbers n (Parse.unexpectedWith message : Parse α) post := .quiet quiet_current fun _ => .fail _ _

end quiet

theorem numbers_itemsUntil {α : Type} {ids : α → List Nat} {good : α → Prop} {close : TokenKind}
    {item : List α → Parse α}
    (h : ∀ before n, Numbers n (item before) fun a k => Numbered n (ids a) k ∧ good a)
    (fuel : Nat) (before : List α) (n : Nat) :
    Numbers n (Parse.itemsUntil close item fuel before) fun all k =>
      ∃ more, all = before.reverse ++ more ∧ Numbered n (more.flatMap ids) k ∧
        ∀ a ∈ more, good a := by
  induction fuel generalizing before n with
  | zero => exact .unexpected
  | succ fuel ih =>
    refine .quiet quiet_kind fun kind => ?_
    split
    · exact .pure ⟨[], by simp, .nil n, by simp⟩
    · refine .bind (h before n) fun a k first => (ih (a :: before) k).mono ?_
      rintro all m ⟨more, rfl, numbered, rest⟩
      refine ⟨a :: more, by simp, first.1.append numbered, ?_⟩
      exact List.forall_mem_cons.2 ⟨first.2, rest⟩

theorem numbers_itemsBefore {α : Type} {ids : α → List Nat} {good : α → Prop} {close : TokenKind}
    {item : List α → Parse α}
    (h : ∀ before n, Numbers n (item before) fun a k => Numbered n (ids a) k ∧ good a) (n : Nat) :
    Numbers n (Parse.itemsBefore close item) fun all k =>
      Numbered n (all.flatMap ids) k ∧ ∀ a ∈ all, good a := by
  refine .quiet quiet_get fun s => (numbers_itemsUntil h s.limit [] n).mono ?_
  rintro all k ⟨more, rfl, numbered, rest⟩
  exact ⟨numbered, rest⟩

/-- A reader of expressions numbers their nodes in the order in which they end. -/
def ReadsExprs (expr : ExprReader) : Prop :=
  ∀ outer n, Numbers n (expr outer) fun e k => Numbered n e.ids k

section expressions
variable {expr : ExprReader} (reads : ReadsExprs expr) (n : Nat)
include reads

theorem numbers_unaryExpr : Numbers n (unaryExpr expr) fun e k => Numbered n e.ids k :=
  .quiet quiet_take fun _ => .bind (reads _ n) fun _ _ operand => .fresh (.pure operand.close)

theorem numbers_grouping : Numbers n (grouping expr) fun e k => Numbered n e.ids k :=
  .quiet quiet_take fun _ => .bind (reads _ n) fun _ _ inner =>
    .quiet (quiet_expectWith _ _) fun _ => .pure inner

theorem numbers_exprList (close : TokenKind) :
    Numbers n (exprList expr close) fun es k => Numbered n (Expr.idsOfAll es) k := by
  have item : ∀ (before : List Expr) (n : Nat),
      Numbers n (do
        let item ← expr .loosest
        Parse.separator close "expected `,` between items"
        return item) fun e k => Numbered n e.ids k ∧ True := fun _ n =>
    .bind (reads _ n) fun _ _ first => .quiet (quiet_separator _ _) fun _ => .pure ⟨first, trivial⟩
  refine .bind (numbers_itemsBefore item n) fun es k items => .quiet (quiet_expect _) fun _ => ?_
  exact .pure (Expr.idsOfAll_eq es ▸ items.1)

theorem numbers_listExpr : Numbers n (listExpr expr) fun e k => Numbered n e.ids k := by
  refine .quiet quiet_take fun _ => .bind (numbers_exprList reads n _) fun es k elements => ?_
  refine .mark fun mark here => .pure ?_
  subst here
  exact elements.close

theorem numbers_mapEntry :
    Numbers n (mapEntry expr) fun entry k => Numbered n (entry.1.ids ++ entry.2.ids) k :=
  .bind (reads _ n) fun _ _ key => .quiet (quiet_expectWith _ _) fun _ =>
    .bind (reads _ _) fun _ _ value => .quiet (quiet_separator _ _) fun _ =>
      .pure (key.append value)

theorem numbers_mapExpr : Numbers n (mapExpr expr) fun e k => Numbered n e.ids k := by
  have entry : ∀ (before : List (Expr × Expr)) (n : Nat), Numbers n (mapEntry expr) fun e k =>
      Numbered n (e.1.ids ++ e.2.ids) k ∧ True := fun _ n =>
    (numbers_mapEntry reads n).mono fun _ _ numbered => ⟨numbered, trivial⟩
  refine .quiet quiet_take fun _ => .bind (numbers_itemsBefore entry n) fun entries k all => ?_
  refine .quiet (quiet_expect _) fun _ => .mark fun mark here => .pure ?_
  subst here
  have numbered := Expr.idsOfEntries_eq entries ▸ all.1
  exact numbered.close

omit reads in
theorem numbers_memberExpr : Numbers n memberExpr fun e k => Numbered n e.ids k := by
  refine .quiet quiet_take fun _ => .quiet (quiet_expectWith _ _) fun _ =>
    .quiet (quiet_expectWith _ _) fun _ => .mark fun mark here => .pure ?_
  subst here
  exact .single _

/-- An embedded expression goes on with the identities of the text around it. -/
theorem numbers_fragment (source : List Char) (start : Position) :
    Numbers n (fragment expr source start) fun e k => Numbered n e.ids k := by
  intro s e s' begin ran
  obtain ⟨outer, s₁, got, ran⟩ := run_bind_ok ran
  cases got
  obtain ⟨tokens, s₂, scanned, ran⟩ := run_bind_ok ran
  obtain ⟨_, s₃, replaced, ran⟩ := run_bind_ok ran
  cases replaced
  obtain ⟨inner, s₄, read, ran⟩ := run_bind_ok ran
  have numbered := reads _ _ _ _ _ rfl read
  obtain ⟨kind, s₅, looked, ran⟩ := run_bind_ok ran
  cases looked
  dsimp only at ran
  split at ran
  · obtain ⟨_, _, failed, _⟩ := run_bind_ok ran
    cases failed
  · cases ran
    subst begin
    exact numbered

theorem numbers_interpolationParts (start : Position) (pieces : List Piece) :
    Numbers n (interpolationParts expr start pieces) fun parts k =>
      Numbered n (Expr.idsOfParts parts) k := by
  induction pieces generalizing n with
  | nil => exact .pure (.nil n)
  | cons piece rest ih =>
    cases piece with
    | chars raw =>
      unfold interpolationParts
      split
      · exact .bind (ih n) fun _ _ others => .pure others
      · exact .fail _ _
    | code source place =>
      exact .bind (numbers_fragment reads n source place) fun _ _ inner =>
        .bind (ih _) fun _ _ others => .pure (inner.append others)
    | unclosed raw place => exact .fail _ _

theorem numbers_interpolation : Numbers n (interpolation expr) fun e k => Numbered n e.ids k :=
  .quiet quiet_take fun _ => .bind (numbers_interpolationParts reads n _ _) fun _ _ parts =>
    .fresh (.pure parts.close)

omit reads in
theorem numbers_atom : Numbers n atom fun e k => Numbered n e.ids k := by
  refine .quiet quiet_current fun token => .fresh ?_
  have made : ∀ e : Expr, e.ids = [n] →
      Numbers (n + 1) (do
        let _ ← Parse.take
        return e) fun e k => Numbered n e.ids k := fun e ids =>
    .quiet quiet_take fun _ => .pure (ids ▸ .single n)
  dsimp only
  split
  · split
    · exact made _ rfl
    · exact .bind (.fail _ _) fun _ _ (h : False) => h.elim
  · split
    · exact made _ rfl
    · exact .bind (.fail _ _) fun _ _ (h : False) => h.elim
  · exact made _ rfl
  · exact made _ rfl
  · exact made _ rfl
  · split
    · exact made _ rfl
    · exact made _ rfl
  · exact made _ rfl
  · exact .bind .unexpected fun _ _ (h : False) => h.elim

omit reads in
theorem nextId_advance (s : Stream) (up : Nat) :
    (Nat.repeat Stream.advance up s).nextId = s.nextId := by
  induction up with
  | zero => rfl
  | succ up ih => exact ih

omit reads in
theorem numbers_scopedSymbol :
    Numbers n scopedSymbol fun symbol k => Numbered n [symbol.mark.id] k := by
  have skipped : ∀ up, Quiet (modify (Nat.repeat Stream.advance up) : Parse PUnit) := by
    intro up s a s' ran
    cases ran
    exact nextId_advance s up
  refine .quiet quiet_place fun _ => .quiet quiet_get fun _ => .quiet (skipped _) fun _ =>
    .quiet (quiet_expectWith _ _) fun _ => .mark fun mark here => .pure ?_
  subst here
  exact .single _

theorem numbers_operand : Numbers n (operand expr) fun e k => Numbered n e.ids k := by
  refine .quiet quiet_kind fun kind => ?_
  split
  iterate 7 exact numbers_atom n
  · exact .bind (numbers_scopedSymbol n) fun _ _ symbol => .pure symbol
  · exact numbers_interpolation reads n
  · exact numbers_memberExpr n
  · exact numbers_listExpr reads n
  · exact numbers_mapExpr reads n
  · exact numbers_unaryExpr reads n
  · exact numbers_unaryExpr reads n
  · exact numbers_grouping reads n
  · exact .unexpected

variable {lo : Nat} {left : Expr} (before : Numbered lo left.ids n)
include before

/-- The name of a function is no node of the call. -/
theorem numbers_callExpr : Numbers n (callExpr expr left) fun e k => Numbered lo e.ids k := by
  unfold callExpr
  split
  · refine .quiet quiet_take fun _ => .bind (numbers_exprList reads n _) fun es k arguments => ?_
    refine .mark fun mark here => .pure ?_
    subst here
    exact (arguments.of_le before.le).close
  · exact .unexpectedWith

theorem numbers_indexExpr : Numbers n (indexExpr expr left) fun e k => Numbered lo e.ids k := by
  refine .quiet quiet_take fun _ => .bind (reads _ n) fun index k inside => ?_
  refine .quiet (quiet_expectWith _ _) fun _ => .mark fun mark here => .pure ?_
  subst here
  exact (before.append inside).close

theorem numbers_binaryExpr : Numbers n (binaryExpr expr left) fun e k => Numbered lo e.ids k :=
  .quiet quiet_take fun _ => .bind (reads _ n) fun _ _ right =>
    .fresh (.pure (before.append right).close)

theorem numbers_continuation :
    Numbers n (continuation expr left) fun e k => Numbered lo e.ids k := by
  refine .quiet quiet_kind fun kind => ?_
  split
  · exact numbers_callExpr reads n before
  · exact numbers_indexExpr reads n before
  · exact numbers_binaryExpr reads n before

theorem numbers_climb (outer : Power) (fuel : Nat) :
    Numbers n (climb expr outer fuel left) fun e k => Numbered lo e.ids k := by
  induction fuel generalizing n left with
  | zero => exact .unexpected
  | succ fuel ih =>
    refine .quiet quiet_kind fun kind => ?_
    split
    · exact .pure before
    · exact .bind (numbers_continuation reads n before) fun e k more => ih k more

end expressions

theorem readsExprs_exprWithin (fuel : Nat) : ReadsExprs (exprWithin fuel) := by
  induction fuel with
  | zero => exact fun _ _ => .unexpected
  | succ fuel ih =>
    exact fun outer n => .bind (numbers_operand ih n) fun _ k left =>
      .quiet quiet_get fun _ => numbers_climb ih k left outer _

/-- A reader of statements numbers their nodes in the order in which they end, and a conditional is
what it reads where it finds `if`. -/
structure ReadsStmts (stmt : Parse Stmt) : Prop where
  numbers : ∀ n, Numbers n stmt (Stmt.InOrder n)
  branches : ∀ s a s', stmt.run s = .ok (a, s') → s.current.kind = .wordIf → a.followsElse = true

section statements
variable {expr : ExprReader} {stmt : Parse Stmt} (reads : ReadsExprs expr)
  (body : ReadsStmts stmt) (n : Nat)

section plain
include reads

theorem numbers_expressionStmt :
    Numbers n (expressionStmt expr) (Stmt.InOrder n) := by
  refine .bind (reads _ n) fun e k inner => .quiet (quiet_expect _) fun _ => ?_
  refine .mark fun mark here => .pure ?_
  subst here
  exact ⟨inner.close, rfl⟩

theorem numbers_declareStmt :
    Numbers n (declareStmt expr) (Stmt.InOrder n) := by
  refine .quiet quiet_take fun _ => .quiet (quiet_expectWith _ _) fun _ =>
    .quiet (quiet_expectWith _ _) fun _ => .quiet quiet_type fun _ =>
    .quiet (quiet_expectWith _ _) fun _ => .bind (reads _ n) fun e k value => ?_
  refine .quiet (quiet_expect _) fun _ => .mark fun mark here => .pure ?_
  subst here
  exact ⟨value.close, rfl⟩

theorem numbers_assignStmt :
    Numbers n (assignStmt expr) (Stmt.InOrder n) := by
  refine .quiet quiet_place fun _ => .bind (numbers_scopedSymbol n) fun symbol k target => ?_
  refine .quiet quiet_current fun operator => ?_
  dsimp only
  split
  · exact .bind .unexpectedWith fun _ _ (h : False) => h.elim
  · refine .quiet quiet_take fun _ => .bind (reads _ _) fun e m value => ?_
    refine .quiet (quiet_expect _) fun _ => .mark fun mark here => .pure ?_
    subst here
    exact ⟨(target.append value).close, rfl⟩

theorem numbers_commandStmt :
    Numbers n (commandStmt expr) (Stmt.InOrder n) := by
  have item : ∀ (before : List Expr) (n : Nat),
      Numbers n (do
        let argument ← expr .loosest
        Parse.separator .semicolon "expected `,` between arguments"
        return argument) fun e k => Numbered n e.ids k ∧ True := fun _ n =>
    .bind (reads _ n) fun _ _ first => .quiet (quiet_separator _ _) fun _ => .pure ⟨first, trivial⟩
  refine .quiet quiet_take fun _ => .bind (numbers_itemsBefore item n) fun es k arguments => ?_
  refine .mark fun call called => .quiet (quiet_expect _) fun _ => .mark fun mark here => .pure ?_
  subst called
  have numbered := Expr.idsOfAll_eq es ▸ arguments.1
  refine ⟨?_, rfl⟩
  show Numbered n (Expr.idsOfAll es ++ [call.id] ++ [mark.id]) _
  rw [here]
  exact numbered.close.close

theorem numbers_namedStmt :
    Numbers n (namedStmt expr) (Stmt.InOrder n) := by
  refine .quiet quiet_get fun stream => ?_
  dsimp only
  split
  · exact numbers_assignStmt reads n
  · split
    · exact numbers_expressionStmt reads n
    · exact numbers_commandStmt reads n

theorem numbers_returnStmt :
    Numbers n (returnStmt expr) (Stmt.InOrder n) := by
  refine .quiet quiet_take fun _ => .quiet quiet_kind fun kind => ?_
  have finish : ∀ (value : Option Expr) (p : Position) (k : Nat),
      Numbered n ((value.map Expr.ids).getD []) k →
      Numbers k (do
        let _ ← Parse.expect .semicolon
        return Stmt.ret (← Parse.markFrom p) value) (Stmt.InOrder n) := by
    intro value p k inside
    refine .quiet (quiet_expect _) fun _ => .mark fun mark here => .pure ?_
    subst here
    exact ⟨inside.close, rfl⟩
  dsimp only
  split
  · exact .pure_bind (finish none _ n (.nil n))
  · exact .bind (reads _ n) fun e k value => .pure_bind (finish (some e) _ k value)

end plain

theorem numbers_breakStmt :
    Numbers n breakStmt (Stmt.InOrder n) := by
  refine .quiet quiet_take fun _ => .quiet (quiet_expect _) fun _ => .mark fun mark here => .pure ?_
  subst here
  exact ⟨.single _, rfl⟩

theorem numbers_continueStmt :
    Numbers n continueStmt (Stmt.InOrder n) := by
  refine .quiet quiet_take fun _ => .quiet (quiet_expect _) fun _ => .mark fun mark here => .pure ?_
  subst here
  exact ⟨.single _, rfl⟩

section nested
include body

theorem numbers_block :
    Numbers n (block stmt) fun b k =>
      Numbered n (Stmt.idsOfAll b.body ++ [b.mark.id]) k ∧ Stmt.allShaped b.body = true := by
  have item : ∀ (before : List Stmt) (n : Nat),
      Numbers n (do
        if (← Parse.kind) = .eof then Parse.unexpectedWith "expected `\x7d` to close the block"
        stmt) (Stmt.InOrder n) := by
    intro _ n
    refine .quiet quiet_kind fun kind => ?_
    dsimp only
    split
    · exact .bind .unexpectedWith fun _ _ (h : False) => h.elim
    · exact body.numbers n
  refine .quiet (quiet_expectWith _ _) fun _ => .bind (numbers_itemsBefore item n) fun ss k all => ?_
  refine .quiet (quiet_expect _) fun _ => .mark fun mark here => .pure ?_
  subst here
  have numbered := Stmt.idsOfAll_eq ss ▸ all.1
  exact ⟨numbered.close, Stmt.allShaped_iff.2 all.2⟩

include reads

/-- What is read behind `else` is a block or, where it starts with `if`, a conditional. -/
theorem numbers_branchStmt :
    Numbers n (branchStmt expr stmt) (Stmt.InOrder n) := by
  refine .quiet quiet_take fun token => .bind (reads _ n) fun e k condition => ?_
  refine .bind (numbers_block body _) fun b m inside => ?_
  have finish : ∀ (other : Option Stmt) (l : Nat), Numbered m (Stmt.idsOfOther other) l →
      Stmt.otherShaped other = true →
      Numbers l (do return Stmt.branch (← Parse.markFrom token.span.start) e b other)
        (Stmt.InOrder n) := by
    intro other l numbered shaped
    refine .mark fun mark here => .pure ?_
    subst here
    obtain ⟨inner, ss⟩ := b
    exact ⟨((condition.append inside.1).append numbered).close,
      by simpa [Stmt.shaped] using ⟨inside.2, shaped⟩⟩
  refine .quiet quiet_kind fun kind => ?_
  dsimp only
  split
  · refine .quiet quiet_take fun _ => ?_
    intro s a s' start ran
    obtain ⟨kind, t, looked, ran⟩ := run_bind_ok ran
    cases looked
    split at ran
    · next conditional =>
      obtain ⟨other, u, read, ran⟩ := run_bind_ok ran
      obtain ⟨numbered, shaped⟩ := body.numbers m _ _ _ start read
      have follows := body.branches _ _ _ read conditional
      have whole : Stmt.otherShaped (some other) = true := by
        simp [Stmt.otherShaped, follows, shaped]
      exact finish (some other) _ numbered whole _ _ _ rfl ran
    · obtain ⟨other, u, read, ran⟩ := run_bind_ok ran
      obtain ⟨numbered, shaped⟩ := numbers_block body m _ _ _ start read
      have whole : Stmt.otherShaped (some (.block other)) = true := by
        simp [Stmt.otherShaped, Stmt.followsElse, Stmt.shaped, shaped]
      exact finish (some (.block other)) _ numbered whole _ _ _ rfl ran
  · exact .pure_bind (finish none m (.nil m) rfl)

theorem numbers_whileStmt :
    Numbers n (whileStmt expr stmt) (Stmt.InOrder n) := by
  refine .quiet quiet_take fun _ => .bind (reads _ n) fun e k condition => ?_
  refine .bind (numbers_block body _) fun b m inside => .mark fun mark here => .pure ?_
  subst here
  exact ⟨(condition.append inside.1).close, inside.2⟩

theorem numbers_repeatStmt :
    Numbers n (repeatStmt expr stmt) (Stmt.InOrder n) := by
  refine .quiet quiet_take fun _ => .bind (reads _ n) fun e k count => ?_
  refine .bind (numbers_block body _) fun b m inside => .mark fun mark here => .pure ?_
  subst here
  exact ⟨(count.append inside.1).close, inside.2⟩

omit reads body in
theorem numbers_parameters :
    Numbers n parameters fun ps k => Numbered n (ps.map fun p => p.mark.id) k := by
  have item : ∀ (before : List Parameter) (n : Nat), Numbers n (parameter before) fun p k =>
      Numbered n [p.mark.id] k ∧ True := by
    intro before n
    refine .quiet (quiet_expectWith _ _) fun name => .quiet (quiet_expectWith _ _) fun _ =>
      .quiet quiet_type fun type => ?_
    dsimp only
    split
    · exact .bind (.fail _ _) fun _ _ (h : False) => h.elim
    · refine .mark fun mark here => .quiet (quiet_separator _ _) fun _ => .pure ?_
      subst here
      exact ⟨.single _, trivial⟩
  refine .quiet (quiet_expect _) fun _ => .bind (numbers_itemsBefore item n) fun ps k all => ?_
  refine .quiet (quiet_expect _) fun _ => .pure ?_
  exact List.map_eq_flatMap ▸ all.1

omit reads in
theorem numbers_functionStmt :
    Numbers n (functionStmt stmt) (Stmt.InOrder n) := by
  refine .quiet quiet_take fun _ => .quiet (quiet_expectWith _ _) fun _ =>
    .bind (numbers_parameters n) fun ps k parameters => .quiet quiet_returnType fun _ =>
    .bind (numbers_block body _) fun b m inside => .mark fun mark here => .pure ?_
  subst here
  exact ⟨(parameters.append inside.1).close, inside.2⟩

theorem numbers_statement :
    Numbers n (statement expr stmt) (Stmt.InOrder n) := by
  refine .quiet quiet_kind fun kind => ?_
  split
  · exact numbers_declareStmt reads n
  · exact numbers_namedStmt reads n
  · exact numbers_assignStmt reads n
  · exact numbers_branchStmt reads body n
  · exact numbers_whileStmt reads body n
  · exact numbers_repeatStmt reads body n
  · exact .bind (numbers_block body n) fun b k inside => .pure inside
  · exact numbers_functionStmt body n
  · exact numbers_returnStmt reads n
  · exact numbers_breakStmt n
  · exact numbers_continueStmt n
  · exact numbers_expressionStmt reads n

end nested

end statements

theorem followsElse_branchStmt (expr : ExprReader) (stmt : Parse Stmt) (n : Nat) :
    Numbers n (branchStmt expr stmt) fun s _ => s.followsElse = true := by
  refine .any fun _ _ => .any fun _ _ => .any fun _ _ => .any fun _ _ => ?_
  dsimp only
  split
  · refine .any fun _ _ => .any fun _ _ => ?_
    split
    · exact .any fun _ _ => .any fun _ _ => .any fun _ _ => .pure rfl
    · exact .any fun _ _ => .any fun _ _ => .any fun _ _ => .pure rfl
  · exact .any fun _ _ => .any fun _ _ => .pure rfl

theorem readsStmts_stmtWithin (fuel : Nat) : ReadsStmts (stmtWithin fuel) := by
  induction fuel with
  | zero =>
    refine ⟨fun _ => .unexpected, fun s a s' ran _ => ?_⟩
    cases ran
  | succ fuel ih =>
    refine ⟨numbers_statement (readsExprs_exprWithin fuel) ih, fun s a s' ran conditional => ?_⟩
    obtain ⟨kind, t, looked, ran⟩ := run_bind_ok ran
    cases looked
    rw [conditional] at ran
    exact followsElse_branchStmt _ _ _ _ _ _ rfl ran

theorem numbers_program (n : Nat) :
    Numbers n program fun p k => Numbered n p.ids k ∧ Stmt.allShaped p.body = true := by
  refine .quiet quiet_place fun _ => .quiet quiet_get fun stream => ?_
  refine .bind (numbers_itemsBefore (fun _ n => (readsStmts_stmtWithin stream.limit).numbers n) n)
    fun ss k all => .fresh (.quiet quiet_place fun _ => .pure ?_)
  have numbered := Stmt.idsOfAll_eq ss ▸ all.1
  exact ⟨numbered.close, Stmt.allShaped_iff.2 all.2⟩

end Grammar

/-- The identities of a script ascend in the order in which its nodes end, and only blocks and
conditionals stand behind `else`. -/
theorem Program.ascending_of_ofSource {source file : String} {p : Program}
    (h : Program.ofSource source file = .ok p) :
    p.ids.Pairwise (· < ·) ∧ Stmt.allShaped p.body = true := by
  unfold Program.ofSource at h
  cases scanned : Token.tokenize source file with
  | error e =>
    rw [scanned] at h
    cases h
  | ok tokens =>
    rw [scanned] at h
    simp only [bind, Except.bind, Program.ofTokens] at h
    cases read : Grammar.program.run (Grammar.Stream.ofTokens tokens file 0) with
    | error e =>
      rw [read] at h
      cases h
    | ok result =>
      rw [read] at h
      cases h
      obtain ⟨numbered, shaped⟩ := Grammar.numbers_program _ _ _ _ rfl read
      exact ⟨numbered.ascending, shaped⟩

end CursorScript
