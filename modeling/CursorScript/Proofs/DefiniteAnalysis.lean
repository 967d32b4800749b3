import CursorScript.Proofs.AnalysisPoints
import CursorScript.Proofs.DefiniteTypes
import CursorScript.Proofs.NameResolution

/-!
Analysis keeps all it knows definite. A step that starts in a state without types of empty
collections leaves such a state, and hands on such a type only for a literal that is empty itself.
Main statement: this holds at every point that analysis of a script comes to.
-/
namespace CursorScript

namespace Typing
open Grammar (run_bind_ok)

/-- All that analysis knows is definite: what can be seen in the scopes, and the functions that are
recorded for calls. -/
structure State.Definite (s : State) : Prop where
  scopes : s.scopes.Definite
  recorded : ∀ id f, s.tables.functions.get? id = some f → f.isDefinite = true

/-- Whenever a step of analysis succeeds in a definite state, it leaves one, and what it gives is as
`post` says. -/
def Preserves {α : Type} (check : Check α) (post : α → Prop) : Prop :=
  ∀ s, s.Definite → ∀ a s', check.run s = .ok (a, s') → post a ∧ s'.Definite

section rules
variable {α β : Type} {check : Check α} {next : α → Check β} {mid : α → Prop} {post : β → Prop}

theorem Preserves.bind (h : Preserves check mid) (rest : ∀ a, mid a → Preserves (next a) post) :
    Preserves (check >>= next) post := by
  intro s definite b s' ran
  obtain ⟨a, t, first, second⟩ := run_bind_ok ran
  obtain ⟨found, definite'⟩ := h s definite a t first
  exact rest a found t definite' b s' second

theorem Preserves.then (h : Preserves check mid) (rest : ∀ a, Preserves (next a) post) :
    Preserves (check >>= next) post := h.bind fun a _ => rest a

theorem Preserves.pure {b : β} (h : post b) : Preserves (Pure.pure b) post := by
  intro s definite b s' ran
  cases ran
  exact ⟨h, definite⟩

theorem Preserves.fail (cause : Cause) (p : Position) : Preserves (Typing.fail cause p) post := by
  intro s _ b s' ran
  cases ran

theorem Preserves.fail_bind (cause : Cause) (p : Position) :
    Preserves (Typing.fail cause p >>= next) post := by
  intro s _ b s' ran
  obtain ⟨_, _, failed, _⟩ := run_bind_ok ran
  cases failed

theorem Preserves.mono {post : α → Prop} (h : Preserves check mid)
    (weaker : ∀ a, mid a → post a) : Preserves check post := by
  intro s definite a s' ran
  obtain ⟨found, definite'⟩ := h s definite a s' ran
  exact ⟨weaker a found, definite'⟩

theorem preserves_lift (result : Except Error α) : Preserves (liftM result) fun _ => True := by
  intro s definite a s' ran
  cases result with
  | error e => cases ran
  | ok found =>
    cases ran
    exact ⟨trivial, definite⟩

end rules

theorem preserves_recordSymbol (mark : Mark) (x : Nat) :
    Preserves (recordSymbol mark x) fun _ => True := by
  intro s definite a s' ran
  obtain ⟨t, s₁, got, ran⟩ := run_bind_ok ran
  cases got
  split at ran
  · cases ran
    exact ⟨trivial, definite.scopes, definite.recorded⟩
  · cases ran

theorem preserves_recordOperator (mark : Mark) (op : Operator) :
    Preserves (recordOperator mark op) fun _ => True := by
  intro s definite a s' ran
  obtain ⟨t, s₁, got, ran⟩ := run_bind_ok ran
  cases got
  split at ran
  · cases ran
    exact ⟨trivial, definite.scopes, definite.recorded⟩
  · cases ran

theorem preserves_recordFunction (mark : Mark) {f : Function} (h : f.isDefinite = true) :
    Preserves (recordFunction mark f) fun _ => True := by
  intro s definite a s' ran
  obtain ⟨t, s₁, got, ran⟩ := run_bind_ok ran
  cases got
  split at ran
  · next functions recorded =>
    cases ran
    refine ⟨trivial, definite.scopes, fun id g found => ?_⟩
    rw [Table.get?_record recorded] at found
    split at found
    · cases found
      exact h
    · exact definite.recorded id g found
  · cases ran

theorem preserves_variableOf (symbol : Symbol) :
    Preserves (variableOf symbol) fun v => v.type.isDefinite = true := by
  intro s definite v s' ran
  obtain ⟨t, s₁, got, ran⟩ := run_bind_ok ran
  cases got
  split at ran
  · next found =>
    cases ran
    exact ⟨definite.scopes.lookup? found, definite⟩
  · cases ran

theorem preserves_functionOf (mark : Mark) (callee : String) {types : List Ty}
    (definite : ∀ type ∈ types, type.isDefinite = true) :
    Preserves (functionOf mark callee types) fun f => f.isDefinite = true := by
  intro s known f s' ran
  obtain ⟨t, s₁, got, ran⟩ := run_bind_ok ran
  cases got
  split at ran
  · next found =>
    cases ran
    exact ⟨known.scopes.function? definite found, known⟩
  · cases ran

theorem preserves_resolveCall (mark : Mark) (callee : String) {types : List Ty}
    (definite : ∀ type ∈ types, type.isDefinite = true) :
    Preserves (resolveCall mark callee types) fun slot =>
      ∀ type ∈ slot, type.isDefinite = true :=
  .bind (preserves_functionOf mark callee definite) fun _ signature =>
    (preserves_recordFunction mark signature).then fun _ =>
      .pure (Function.isDefinite_iff.1 signature).2

theorem preserves_refuseEmpty {type : Ty} {e : Expr} (allowed : e.Allows type) :
    Preserves (refuseEmpty type e) fun _ => type.isDefinite = true := by
  unfold refuseEmpty
  split
  · exact .fail _ _
  · next known => exact .pure (allowed.isDefinite (by simpa using known))

theorem preserves_commonType {current : Option Ty} {next : Ty} {e : Expr}
    (allowed : e.Allows next) : Preserves (commonType current next e) fun type => type.isDefinite = true := by
  refine .bind (preserves_refuseEmpty allowed) fun _ definite => ?_
  split
  · exact .pure definite
  · exact .pure rfl
  · split
    · next same => exact .pure (same ▸ definite)
    · exact .fail _ _

theorem preserves_chooseOperator (mark : Mark) {choice : Option (Operator × Ty)} (cause : Cause)
    (p : Position) (h : ∀ op type, choice = some (op, type) → type.isDefinite = true) :
    Preserves (chooseOperator mark choice cause p) fun type => type.isDefinite = true := by
  unfold chooseOperator
  split
  · next op type => exact (preserves_recordOperator mark op).then fun _ => .pure (h op type rfl)
  · exact .fail _ _

/-- What the elements of a collection have in common: a definite type once there is an element. -/
structure Gathered (current : Option Ty) (none : Prop) (found : Option Ty) : Prop where
  definite : ∀ type ∈ found, type.isDefinite = true
  empty : found = .none ↔ current = .none ∧ none

theorem Gathered.start {current : Option Ty} (h : ∀ type ∈ current, type.isDefinite = true)
    {none : Prop} (here : none) : Gathered current none current := ⟨h, by simp [here]⟩

theorem Gathered.cons {current : Option Ty} {type : Ty} {none : Prop} {found : Option Ty}
    {α : Type} {a : α} {rest : List α} (h : Gathered (some type) none found) :
    Gathered current (a :: rest = []) found := by
  refine ⟨h.definite, ?_⟩
  have some : found ≠ .none := fun missing => nomatch (h.empty.1 missing).1
  simp [some]

mutual

/-- The type of an expression is one that it may have. -/
theorem preserves_expr : ∀ e, Preserves (expr e) e.Allows
  | .number .. => .pure rfl
  | .real .. => .pure rfl
  | .logic .. => .pure rfl
  | .string .. => .pure rfl
  | .material .. => .pure rfl
  | .member .. => .pure rfl
  | .interpolation _ parts => (preserves_embeddedParts parts).then fun _ => .pure rfl
  | .symbol s =>
    .bind (preserves_variableOf s) fun v definite =>
      (preserves_recordSymbol s.mark v.symbol).then fun _ => .pure definite
  | .binary mark left _ right =>
    .bind (preserves_expr left) fun _ allowed => (preserves_refuseEmpty allowed).then fun _ =>
      .bind (preserves_expr right) fun _ allowed => (preserves_refuseEmpty allowed).then fun _ =>
        preserves_chooseOperator mark _ _ fun _ _ => Operator.isDefinite_of_binary?
  | .unary mark _ operand =>
    .bind (preserves_expr operand) fun _ allowed => (preserves_refuseEmpty allowed).then fun _ =>
      preserves_chooseOperator mark _ _ fun _ _ => Operator.isDefinite_of_unary?
  | .index mark collection place =>
    .bind (preserves_expr collection) fun _ allowed =>
      .bind (preserves_refuseEmpty allowed) fun _ definite =>
        .bind (preserves_expr place) fun _ allowed => (preserves_refuseEmpty allowed).then fun _ =>
          preserves_chooseOperator mark _ _ fun _ _ chosen =>
            Operator.isDefinite_of_index? chosen definite
  | .call mark callee arguments => by
    refine .bind (preserves_argumentTypes callee arguments) fun types definite =>
      .bind (preserves_resolveCall mark callee definite) fun slot given => ?_
    split
    · exact .pure (given _ rfl)
    · exact .fail _ _
  | .list mark elements => by
    refine .bind (preserves_elementType none elements nofun) fun found gathered => ?_
    split
    · next type =>
      have held : elements ≠ [] := fun empty => nomatch gathered.empty.2 ⟨rfl, empty⟩
      cases elements with
      | nil => exact (held rfl).elim
      | cons => exact .pure (gathered.definite type rfl)
    · obtain ⟨_, rfl⟩ := gathered.empty.1 rfl
      exact .pure rfl
  | .map mark entries => by
    refine .bind (preserves_entryTypes none none entries nofun nofun) fun found gathered => ?_
    obtain ⟨keys, values⟩ := gathered
    split
    · next key value =>
      have held : entries ≠ [] := fun empty => nomatch keys.empty.2 ⟨rfl, empty⟩
      cases entries with
      | nil => exact (held rfl).elim
      | cons =>
        exact .pure (Bool.and_eq_true_iff.2 ⟨keys.definite key rfl, values.definite value rfl⟩)
    · next other =>
      -- Keys and values come in pairs, so where either has no type there is no entry.
      have empty : entries = [] := by
        cases key : found.1 with
        | none => exact (keys.empty.1 key).2
        | some K =>
          cases value : found.2 with
          | none => exact (values.empty.1 value).2
          | some V => exact (other K V (Prod.ext key value)).elim
      subst empty
      exact .pure rfl

theorem preserves_embeddedParts : ∀ parts, Preserves (embeddedParts parts) fun _ => True
  | [] => .pure trivial
  | .text _ :: rest => preserves_embeddedParts rest
  | .embed e :: rest => by
    refine (preserves_expr e).then fun type => ?_
    dsimp only
    split
    · exact .fail_bind _ _
    · exact preserves_embeddedParts rest

/-- Overloads are resolved for definite types only. -/
theorem preserves_argumentTypes (callee : String) : ∀ es,
    Preserves (argumentTypes callee es) fun types => ∀ type ∈ types, type.isDefinite = true
  | [] => .pure nofun
  | e :: rest => by
    refine .bind (preserves_expr e) fun type allowed => ?_
    dsimp only
    split
    · exact .fail_bind _ _
    · next known =>
      exact .bind (preserves_argumentTypes callee rest) fun types definite =>
        .pure (List.forall_mem_cons.2 ⟨allowed.isDefinite (by simpa using known), definite⟩)

theorem preserves_elementType : ∀ current es, (∀ type ∈ current, type.isDefinite = true) →
    Preserves (elementType current es) (Gathered current (es = []))
  | _, [], h => .pure (.start h rfl)
  | current, e :: rest, _ =>
    .bind (preserves_expr e) fun _ allowed =>
      .bind (preserves_commonType allowed) fun type definite =>
        (preserves_elementType (some type) rest (by simpa using definite)).mono fun _ => .cons

theorem preserves_entryTypes : ∀ key value entries, (∀ type ∈ key, type.isDefinite = true) →
    (∀ type ∈ value, type.isDefinite = true) →
    Preserves (entryTypes key value entries) fun found =>
      Gathered key (entries = []) found.1 ∧ Gathered value (entries = []) found.2
  | _, _, [], h, h' => .pure ⟨.start h rfl, .start h' rfl⟩
  | key, value, (k, v) :: rest, _, _ =>
    .bind (preserves_expr k) fun _ keys => .bind (preserves_commonType keys) fun K definite =>
      .bind (preserves_expr v) fun _ values => .bind (preserves_commonType values) fun V definite' =>
        (preserves_entryTypes (some K) (some V) rest (by simpa using definite)
          (by simpa using definite')).mono fun _ gathered => ⟨gathered.1.cons, gathered.2.cons⟩

end

theorem preserves_loneExpr (e : Expr) : Preserves (loneExpr e) fun _ => True := by
  unfold loneExpr
  split
  · next mark callee arguments =>
    exact .bind (preserves_argumentTypes callee arguments) fun _ definite =>
      (preserves_resolveCall mark callee definite).then fun _ => .pure trivial
  · exact (preserves_expr _).then fun _ => .pure trivial

theorem preserves_condition (statement : String) (expected : Ty) (e : Expr) :
    Preserves (condition statement expected e) fun _ => True := by
  refine (preserves_expr e).then fun type => ?_
  split
  · exact .fail _ _
  · exact .pure trivial

theorem preserves_openScope : Preserves openScope fun _ => True := by
  intro s definite a s' ran
  cases ran
  exact ⟨trivial, definite.scopes.push, definite.recorded⟩

theorem preserves_closeScope : Preserves closeScope fun _ => True := by
  intro s definite a s' ran
  cases ran
  exact ⟨trivial, definite.scopes.pop, definite.recorded⟩

theorem Preserves.inScope {body : Check Unit} (h : Preserves body fun _ => True) :
    Preserves (inScope body) fun _ => True :=
  preserves_openScope.then fun _ => h.then fun _ => preserves_closeScope

theorem preserves_declareVariable (mark : Mark) (name : String) {type : Ty} (taken : Cause)
    (h : type.isDefinite = true) :
    Preserves (declareVariable mark name type taken) fun _ => True := by
  intro s definite a s' ran
  obtain ⟨t, s₁, got, ran⟩ := run_bind_ok ran
  cases got
  split at ran
  · cases ran
  · next chain added =>
    obtain ⟨_, s₂, changed, ran⟩ := run_bind_ok ran
    cases changed
    have scopes := definite.scopes.modify? (fun _ _ known => known.addVariable? h) added
    exact preserves_recordSymbol mark s.nextSymbol ⟨chain, s.tables, s.nextSymbol + 1⟩
      ⟨scopes, definite.recorded⟩ _ _ ran

theorem preserves_declareFunction {decl : FunctionDecl Stmt}
    (h : (Function.ofDecl decl).isDefinite = true) :
    Preserves (declareFunction decl) fun _ => True := by
  intro s definite a s' ran
  obtain ⟨t, s₁, got, ran⟩ := run_bind_ok ran
  cases got
  split at ran
  · cases ran
  · next added =>
    cases ran
    have scopes := definite.scopes.modify? (fun _ _ known => known.addFunction? h) added
    exact ⟨trivial, scopes, definite.recorded⟩

theorem preserves_declaration (mark : Mark) (name : String) {type : Ty} (value : Expr)
    (h : type.isDefinite = true) : Preserves (declaration mark name type value) fun _ => True := by
  refine (preserves_expr value).then fun found => ?_
  dsimp only
  split
  · exact .fail_bind _ _
  · exact preserves_declareVariable mark name _ h

theorem preserves_assignment (mark : Mark) (target : Symbol) (token : Token) (value : Expr) :
    Preserves (assignment mark target token value) fun _ => True := by
  refine (preserves_variableOf target).then fun v => (preserves_expr value).then fun found => ?_
  dsimp only
  split
  · split
    · exact .fail_bind _ _
    · exact preserves_recordSymbol _ _
  · split
    · exact (preserves_recordOperator _ _).then fun _ => preserves_recordSymbol _ _
    · exact .fail_bind _ _

theorem preserves_returns (here : Surroundings) (mark : Mark) (value : Option Expr) :
    Preserves (returns here mark value) fun _ => True := by
  unfold returns
  split
  · exact .fail _ _
  · split
    · exact .pure trivial
    · exact .fail _ _
    · exact .fail _ _
    · refine (preserves_expr _).then fun found => ?_
      split
      · exact .fail _ _
      · exact .pure trivial

theorem preserves_insideLoop (here : Surroundings) (mark : Mark) (statement : String) :
    Preserves (insideLoop here mark statement) fun _ => True := by
  unfold insideLoop
  split
  · exact .fail _ _
  · exact .pure trivial

theorem preserves_parameters : ∀ ps, (∀ p ∈ ps, p.type.isDefinite = true) →
    Preserves (parameters ps) fun _ => True
  | [], _ => .pure trivial
  | p :: rest, h =>
    (preserves_declareVariable p.mark p.name _ (h p List.mem_cons_self)).then fun _ =>
      preserves_parameters rest fun q mem => h q (List.mem_cons_of_mem p mem)

theorem isDefinite_ofDecl {decl : FunctionDecl Stmt} (h : (Stmt.function decl).Definite) :
    (Function.ofDecl decl).isDefinite = true :=
  Function.isDefinite_iff.2 ⟨List.forall_mem_map.2 h.1, h.2.1⟩

mutual

theorem preserves_stmt : ∀ (s : Stmt) (here : Surroundings), s.Definite →
    Preserves (stmt here s) fun _ => True
  | .block ⟨_, body⟩, here, h => (preserves_stmts body here h).inScope
  | .expression _ e, _, _ => preserves_loneExpr e
  | .declare mark name _ value, _, h => preserves_declaration mark name value h
  | .assign mark target token value, _, _ => preserves_assignment mark target token value
  | .branch _ test ⟨_, body⟩ other, here, h => by
    rw [stmt_branch]
    exact (preserves_condition _ _ test).then fun _ =>
      (preserves_stmts body here h.1).inScope.then fun _ => preserves_otherStmt other here h.2
  | .whileLoop _ test ⟨_, body⟩, here, h =>
    (preserves_condition _ _ test).then fun _ => (preserves_lift _).then fun _ =>
      (preserves_stmts body here.loop h).inScope
  | .repeatLoop _ count ⟨_, body⟩, here, h =>
    (preserves_condition _ _ count).then fun _ => (preserves_lift _).then fun _ =>
      (preserves_stmts body here.loop h).inScope
  | .function ⟨mark, name, ps, result, ⟨inner, body⟩⟩, here, h => by
    rw [stmt_function]
    refine (preserves_declareFunction (isDefinite_ofDecl h)).then fun _ =>
      (preserves_lift _).then fun _ => Preserves.inScope ?_
    exact (preserves_parameters ps h.1).then fun _ => preserves_stmts body _ h.2.2
  | .ret mark value, here, _ => preserves_returns here mark value
  | .brk mark, here, _ => preserves_insideLoop here mark _
  | .cont mark, here, _ => preserves_insideLoop here mark _

theorem preserves_otherStmt : ∀ (other : Option Stmt) (here : Surroundings),
    Stmt.OtherDefinite other → Preserves (otherStmt here other) fun _ => True
  | none, _, _ => .pure trivial
  | some s, here, h => preserves_stmt s here h

theorem preserves_stmts : ∀ (body : List Stmt) (here : Surroundings), Stmt.AllDefinite body →
    Preserves (stmts here body) fun _ => True
  | [], _, _ => .pure trivial
  | s :: rest, here, h =>
    (preserves_stmt s here h.1).then fun _ => preserves_stmts rest here h.2

end

/-- The types that a job is given are definite. -/
def Job.Definite : Job → Prop
  | .expr _ => True
  | .lone _ => True
  | .resolve _ _ types => ∀ type ∈ types, type.isDefinite = true
  | .parameters ps => ∀ p ∈ ps, p.type.isDefinite = true
  | .stmt _ s => s.Definite
  | .stmts _ body => Stmt.AllDefinite body

theorem preserves_job : ∀ {job : Job}, job.Definite → Preserves job.check fun _ => True
  | .expr e, _ => (preserves_expr e).then fun _ => .pure trivial
  | .lone e, _ => preserves_loneExpr e
  | .resolve mark callee _, h => (preserves_resolveCall mark callee h).then fun _ => .pure trivial
  | .parameters ps, h => preserves_parameters ps h
  | .stmt here s, h => preserves_stmt s here h
  | .stmts here body, h => preserves_stmts body here h

theorem State.Definite.enter {s : State} (h : s.Definite) : s.enter.Definite :=
  ⟨h.scopes.push, h.recorded⟩

theorem State.Definite.passes {es : List Expr} {s t : State} (h : s.Definite)
    (passed : Passes es s t) : t.Definite := by
  induction passed with
  | nil => exact h
  | @cons e _ _ _ _ _ ran _ ih => exact ih (preserves_expr e _ h _ _ ran).2

/-- A job calls others for definite types only, in definite states. -/
theorem definite_of_calls {a b : State × Job} (h : Calls a b) (state : a.1.Definite)
    (job : a.2.Definite) : b.1.Definite ∧ b.2.Definite := by
  cases h with
  | operand _ passed => exact ⟨state.passes passed, trivial⟩
  | @resolve s t mark callee arguments types found
  | @resolveLone s t mark callee arguments types found =>
    obtain ⟨definite, later⟩ := preserves_argumentTypes callee arguments s state types t found
    exact ⟨later, definite⟩
  | lone => exact ⟨state, trivial⟩
  | block => exact ⟨state.enter, job⟩
  | branch tested => exact ⟨(preserves_condition _ _ _ _ state _ _ tested).2.enter, job.1⟩
  | other tested checked =>
    have between := (preserves_condition _ _ _ _ state _ _ tested).2
    exact ⟨((preserves_stmts _ _ job.1).inScope _ between _ _ checked).2, job.2⟩
  | whileLoop tested | repeatLoop tested =>
    exact ⟨(preserves_condition _ _ _ _ state _ _ tested).2.enter, job⟩
  | parameters declared =>
    exact ⟨(preserves_declareFunction (isDefinite_ofDecl job) _ state _ _ declared).2.enter, job.1⟩
  | function declared _ bound =>
    have before := (preserves_declareFunction (isDefinite_ofDecl job) _ state _ _ declared).2.enter
    exact ⟨(preserves_parameters _ job.1 _ before _ _ bound).2, job.2.2⟩
  | @parameter s t p rest declared =>
    have first := job p List.mem_cons_self
    exact ⟨(preserves_declareVariable _ _ _ first _ state _ _ declared).2,
      fun q mem => job q (List.mem_cons_of_mem p mem)⟩
  | first => exact ⟨state, job.1⟩
  | next checked => exact ⟨(preserves_stmt _ _ job.1 _ state _ _ checked).2, job.2⟩

end Typing

section points
open Typing
variable {tokens : List Token} {file : String} {p : Program}

theorem Program.definite_of_reaches (read : Program.ofTokens tokens file = .ok p)
    {library : Library} (known : library.Definite) {s : State} {job : Job}
    (h : p.Reaches library s job) : s.Definite ∧ job.Definite := by
  have start : (p.entry library).1.Definite :=
    ⟨ScopeChain.Definite.push ⟨nofun, known⟩, by simp [Program.entry, Tables.empty]⟩
  have run : ∀ point, Relation.ReflTransGen Calls (p.entry library) point →
      point.1.Definite ∧ point.2.Definite := by
    intro point reached
    induction reached with
    | refl => exact ⟨start, Program.definite_of_ofTokens read⟩
    | tail _ called ih => exact definite_of_calls called ih.1 ih.2
  exact run (s, job) h

/-- The types of empty collections stay with their literals. At every point of an analysis, the
variables and functions in scope and the functions recorded are of definite types, and so they are
once the job of that point is done; the type found for an expression is the one of an empty
collection only if it is that literal, and definite otherwise; and overloads are resolved for
definite types only. In a script that analysis accepts, every expression and the choice of every
call's function is such a point, and all functions recorded are of definite types. -/
theorem empty_types_confined (outside : Outside) (read : Program.ofTokens tokens file = .ok p) :
    (∀ s job, p.Reaches (.standard outside) s job → s.Definite ∧
      (∀ t, job.check.run s = .ok ((), t) → t.Definite) ∧
      (∀ e, job = .expr e → ∀ type t, (expr e).run s = .ok (type, t) → e.Allows type) ∧
      ∀ mark callee types, job = .resolve mark callee types →
        ∀ type ∈ types, type.isDefinite = true) ∧
    ∀ tables, p.analyse (.standard outside) = .ok tables →
      (∀ n ∈ p.nodes, Met (p.entry (.standard outside)) n) ∧
      (∀ mark callee arguments, .expr (.call mark callee arguments) ∈ p.nodes →
        ∃ types, Done (p.entry (.standard outside)) (.resolve mark callee types)) ∧
      ∀ id f, tables.functions.get? id = some f → f.isDefinite = true := by
  have kept : ∀ {s : State} {job : Job}, p.Reaches (.standard outside) s job →
      s.Definite ∧ job.Definite :=
    Program.definite_of_reaches read (Library.definite_standard outside)
  refine ⟨fun s job reached => ?_, fun tables accepted => ?_⟩
  · obtain ⟨state, given⟩ := kept reached
    refine ⟨state, fun t ran => (preserves_job given s state () t ran).2, ?_, ?_⟩
    · rintro e rfl type t found
      exact (preserves_expr e s state type t found).1
    · rintro mark callee types rfl
      exact given
  · have met : ∀ n ∈ p.nodes, Met (p.entry (.standard outside)) n := fun n mem =>
      Program.met_of_analyse accepted mem
    refine ⟨met, fun mark callee arguments mem => (met _ mem).resolve, ?_⟩
    obtain ⟨t, checked, rfl⟩ := Program.run_of_analyse accepted
    obtain ⟨state, given⟩ := kept .refl
    exact (preserves_job given _ state () t checked).2.recorded

/-- An empty list that is declared and appended to, and the keys of an empty map. -/
def emptiesSource : String :=
  "var xs: [number] = []; var m: |string -> [number]| = \x7b\x7d; xs = append(xs, 1); " ++
    "print(keys(m));"

def Node.emptyList? : Node → Option Mark
  | .expr (.list mark []) => some mark
  | _ => none

theorem Node.eq_of_emptyList? {n : Node} {mark : Mark} (h : n.emptyList? = some mark) :
    n = .expr (.list mark []) := by
  unfold emptyList? at h
  split at h
  · cases h
    rfl
  · cases h

/-- The literal has the type of an empty list, and the calls mean functions of definite types. -/
theorem empty_types_confined_appended :
    ∃ tokens p tables mark s t f g, Program.ofTokens tokens "" = .ok p ∧
      p.analyse (.standard .builtIn) = .ok tables ∧
      p.Reaches (.standard .builtIn) s (.expr (.list mark [])) ∧
      (expr (.list mark [])).run s = .ok (.emptyList, t) ∧ t.Definite ∧
      tables.functions.get? 8 = some f ∧ tables.functions.get? 13 = some g ∧
      f.describe = "native append([number], number): [number]" ∧
      g.describe = "native keys(|string -> [number]|): [string]" ∧
      f.isDefinite = true ∧ g.isDefinite = true := by
  have found : ((Program.ofSource emptiesSource "").toOption.bind fun p =>
      (p.analyse (.standard .builtIn)).toOption.bind fun tables =>
        ((Node.block p).under [0, 0]).bind fun n => n.emptyList?.bind fun _ =>
          (tables.functions.get? 8).bind fun f => (tables.functions.get? 13).map fun g =>
            (f.describe, g.describe)) = some ("native append([number], number): [number]",
              "native keys(|string -> [number]|): [string]") := by
    decide +kernel
  obtain ⟨p, read, found⟩ := Option.bind_eq_some_iff.1 found
  obtain ⟨tables, accepted, found⟩ := Option.bind_eq_some_iff.1 found
  obtain ⟨n, under, found⟩ := Option.bind_eq_some_iff.1 found
  obtain ⟨mark, held, found⟩ := Option.bind_eq_some_iff.1 found
  obtain ⟨f, first, found⟩ := Option.bind_eq_some_iff.1 found
  obtain ⟨g, second, found⟩ := Option.map_eq_some_iff.1 found
  simp only [Prod.mk.injEq] at found
  have mem := Node.mem_of_under _ (Node.mem_postorder_self (.block p)) under
  rw [Node.eq_of_emptyList? held] at mem
  obtain ⟨tokens, _, parsed⟩ := Program.exists_tokens (eq_ok_of_toOption read)
  have analysed := eq_ok_of_toOption accepted
  obtain ⟨points, accepts⟩ := empty_types_confined .builtIn parsed
  obtain ⟨met, _, recorded⟩ := accepts tables analysed
  rcases met _ mem with ⟨s, t, reached, ran⟩ | ⟨_, _, _, call, _⟩
  · obtain ⟨_, kept, allowed, _⟩ := points s _ reached
    obtain ⟨type, u, typed, last⟩ := Grammar.run_bind_ok ran
    cases last
    have empty : type = .emptyList := allowed _ rfl type t typed
    subst empty
    exact ⟨tokens, p, tables, mark, s, t, f, g, parsed, analysed, reached, typed, kept t ran,
      first, second, found.1, found.2, recorded 8 f first, recorded 13 g second⟩
  · cases call

end points

end CursorScript
