import CursorScript.Analysis.Typing
import CursorScript.Proofs.Unplaced

/-!
Analysis does not look at places. The analysis of a script goes step by step like that of its
shadow, the same tree without places, over a library without places: both find the same types and
symbols and choose functions that differ in places alone, or both fail for the same cause.
-/
namespace CursorScript

def FunctionBody.unplaced : FunctionBody → FunctionBody
  | native run => native run
  | script decl => script (decl.remark Mark.unplaced)

def Function.unplaced (f : Function) : Function := { f with body := f.body.unplaced }

theorem Function.ofDecl_remark (decl : FunctionDecl Stmt) :
    ofDecl (decl.remark Mark.unplaced) = (ofDecl decl).unplaced := by
  simp only [ofDecl, unplaced, FunctionBody.unplaced, FunctionDecl.remark, List.map_map]
  rfl

def Family.unplaced (family : Family) : Family :=
  { family with resolve := fun arguments => (family.resolve arguments).map Function.unplaced }

def Library.unplaced (lib : Library) : Library :=
  ⟨lib.natives.map Function.unplaced, lib.families.map Family.unplaced⟩

def Scope.unplaced (scope : Scope) : Scope :=
  { scope with functions := scope.functions.map Function.unplaced }

def ScopeChain.unplaced (chain : ScopeChain) : ScopeChain :=
  ⟨chain.scopes.map Scope.unplaced, chain.library.unplaced⟩

theorem Library.family?_unplaced (lib : Library) (name : String) :
    lib.unplaced.family? name = (lib.family? name).map Family.unplaced :=
  List.find?_map

theorem Library.function?_unplaced (lib : Library) (name : String) (arguments : List Ty) :
    lib.unplaced.function? name arguments =
      (lib.function? name arguments).map Function.unplaced := by
  have fixed : lib.unplaced.natives.find? (fun f => f.name == name && f.parameterTypes == arguments) =
      (lib.natives.find? fun f => f.name == name && f.parameterTypes == arguments).map
        Function.unplaced := List.find?_map
  unfold function?
  rw [fixed, family?_unplaced]
  cases lib.natives.find? fun f => f.name == name && f.parameterTypes == arguments with
  | some f => rfl
  | none => cases lib.family? name <;> rfl

theorem Library.widened?_unplaced (lib : Library) (name : String) (arguments : List Ty) :
    lib.unplaced.widened? name arguments =
      (lib.widened? name arguments).map Function.unplaced :=
  List.find?_map

theorem Library.names_unplaced (lib : Library) : lib.unplaced.names = lib.names := by
  simp only [names, unplaced, List.map_map]
  rfl

theorem Scope.function?_unplaced (scope : Scope) (name : String) (arguments : List Ty) :
    scope.unplaced.function? name arguments =
      (scope.function? name arguments).map Function.unplaced :=
  List.find?_map

theorem Scope.widened?_unplaced (scope : Scope) (name : String) (arguments : List Ty) :
    scope.unplaced.widened? name arguments =
      (scope.widened? name arguments).map Function.unplaced :=
  List.find?_map

theorem Scope.names_unplaced (scope : Scope) : scope.unplaced.names = scope.names := by
  simp only [names, unplaced, List.map_map]
  rfl

theorem Scope.addFunction?_unplaced (scope : Scope) (f : Function) :
    scope.unplaced.addFunction? f.unplaced = (scope.addFunction? f).map unplaced := by
  have taken : (scope.unplaced.function? f.unplaced.name f.unplaced.parameterTypes).isSome =
      (scope.function? f.name f.parameterTypes).isSome := by
    rw [function?_unplaced, Option.isSome_map]
    rfl
  unfold addFunction?
  rw [taken]
  split
  · rfl
  · simp [unplaced]

theorem Scope.addVariable?_unplaced (scope : Scope) (name : String) (v : Variable) :
    scope.unplaced.addVariable? name v = (scope.addVariable? name v).map unplaced := by
  have taken : (scope.unplaced.lookup? name).isSome = (scope.lookup? name).isSome := rfl
  unfold addVariable?
  rw [taken]
  split <;> rfl

namespace ScopeChain
variable (chain : ScopeChain)

theorem modify?_unplaced {change change' : Scope → Option Scope}
    (same : ∀ scope, change' scope.unplaced = (change scope).map Scope.unplaced) :
    chain.unplaced.modify? change' = (chain.modify? change).map unplaced := by
  obtain ⟨scopes, library⟩ := chain
  cases scopes with
  | nil =>
    have first := same .empty
    simp only [modify?, unplaced, List.map_nil]
    rw [show change' .empty = _ from first]
    cases change .empty <;> rfl
  | cons scope outer =>
    simp only [modify?, unplaced, List.map_cons, same]
    cases change scope <;> rfl

theorem lookup?_unplaced (name : String) (up : Nat) :
    chain.unplaced.lookup? name up = chain.lookup? name up := by
  simp only [lookup?, unplaced, ← List.map_drop, List.findSome?_map]
  rfl

theorem findSome?_unplaced {find find' : Scope → Option Function}
    (same : ∀ scope, find' scope.unplaced = (find scope).map Function.unplaced) :
    chain.unplaced.scopes.findSome? find' =
      (chain.scopes.findSome? find).map Function.unplaced := by
  simp only [unplaced, List.findSome?_map, List.map_findSome?]
  exact congrArg (List.findSome? · chain.scopes) (funext same)

theorem function?_unplaced (name : String) (arguments : List Ty) :
    chain.unplaced.function? name arguments =
      (chain.function? name arguments).map Function.unplaced := by
  have exact' : chain.unplaced.exactly? name arguments =
      (chain.exactly? name arguments).map Function.unplaced := by
    unfold exactly?
    rw [chain.findSome?_unplaced fun scope => scope.function?_unplaced name arguments, Option.map_or]
    exact congrArg _ (chain.library.function?_unplaced name arguments)
  have wide : chain.unplaced.widened? name arguments =
      (chain.widened? name arguments).map Function.unplaced := by
    unfold widened?
    rw [chain.findSome?_unplaced fun scope => scope.widened?_unplaced name arguments, Option.map_or]
    exact congrArg _ (chain.library.widened?_unplaced name arguments)
  unfold function?
  rw [exact', wide, Option.map_or]

theorem suggestions_unplaced (name : String) :
    chain.unplaced.suggestions name = chain.suggestions name := by
  have seen : chain.unplaced.names = chain.names := by
    have inner : chain.unplaced.scopes.flatMap Scope.names = chain.scopes.flatMap Scope.names := by
      simp only [unplaced, List.flatMap_map, Scope.names_unplaced]
    unfold names
    rw [inner]
    exact congrArg _ chain.library.names_unplaced
  unfold suggestions
  rw [seen]

end ScopeChain

/-- A table has the nodes of another, and for each node what `view` makes of its entry there. -/
def Table.Shows {α β : Type} (view : α → β) (table : Table α) (shadow : Table β) : Prop :=
  ∀ id, shadow.get? id = (table.get? id).map view

section
variable {α β : Type} {view : α → β} {table : Table α} {shadow : Table β}

theorem Table.shows_empty : Table.Shows view .empty .empty := by
  intro id
  rw [get?_empty, get?_empty]
  rfl

/-- A node is recorded in both tables, or it had been recorded in both. -/
theorem Table.Shows.record? (h : table.Shows view shadow) (id : Nat) (entry : α) :
    (table.record? id entry = none ∧ shadow.record? id (view entry) = none) ∨
      ∃ next next', table.record? id entry = some next ∧
        shadow.record? id (view entry) = some next' ∧ next.Shows view next' := by
  have seen : (shadow.get? id).isSome = (table.get? id).isSome := by rw [h id, Option.isSome_map]
  by_cases known : (table.get? id).isSome
  · refine .inl ⟨?_, ?_⟩
    · simp [Table.record?, known]
    · simp [Table.record?, seen, known]
  · have made : ∃ next, table.record? id entry = some next := by simp [Table.record?, known]
    have made' : ∃ next, shadow.record? id (view entry) = some next := by
      simp [Table.record?, seen, known]
    obtain ⟨next, here⟩ := made
    obtain ⟨next', there⟩ := made'
    refine .inr ⟨next, next', here, there, fun other => ?_⟩
    rw [get?_record here, get?_record there, h other]
    split <;> rfl

end

/-- Tables that record the same, but for places. -/
structure Tables.Shows (tables shadow : Tables) : Prop where
  symbols : tables.symbols.Shows id shadow.symbols
  functions : tables.functions.Shows Function.unplaced shadow.functions
  operators : tables.operators.Shows id shadow.operators

namespace Flow

mutual

theorem matched_endsEarly (body : Body) :
    ∀ s : Stmt, Matched Eq (endsEarly body s) (endsEarly body s.unplaced)
  | .ret .. => .done rfl
  | .brk _ => .done rfl
  | .cont _ => .done rfl
  | .block ⟨_, stmts⟩ => matched_sequenceEnds body stmts
  | .branch _ _ ⟨_, stmts⟩ other => by
    refine (matched_sequenceEnds body stmts).bind ?_
    rintro first _ rfl
    refine (matched_otherEnds body other).bind ?_
    rintro second _ rfl
    exact .done rfl
  | .expression .. => .done rfl
  | .declare .. => .done rfl
  | .assign .. => .done rfl
  | .whileLoop _ _ ⟨_, _⟩ => .done rfl
  | .repeatLoop _ _ ⟨_, _⟩ => .done rfl
  | .function ⟨_, _, _, _, ⟨_, _⟩⟩ => .done rfl

theorem matched_otherEnds (body : Body) : ∀ other : Option Stmt,
    Matched Eq (otherEnds body other) (otherEnds body (Stmt.remarkOther Mark.unplaced other))
  | none => .done rfl
  | some s => matched_endsEarly body s

theorem matched_sequenceEnds (body : Body) : ∀ stmts : List Stmt,
    Matched Eq (sequenceEnds body stmts) (sequenceEnds body (Stmt.remarkAll Mark.unplaced stmts))
  | [] => .done rfl
  | s :: [] => by
    refine (matched_endsEarly body s).bind ?_
    rintro ended _ rfl
    exact .done rfl
  | s :: next :: others => by
    refine (matched_endsEarly body s).bind ?_
    rintro ended _ rfl
    dsimp only
    cases ended with
    | true => exact .failed rfl
    | false => exact matched_sequenceEnds body (next :: others)

end

theorem matched_checkFunction (decl : FunctionDecl Stmt) :
    Matched Eq (checkFunction decl) (checkFunction (decl.remark Mark.unplaced)) := by
  have ends := matched_sequenceEnds .function decl.body.body
  rw [Stmt.remarkAll_eq] at ends
  refine ends.bind ?_
  rintro ended _ rfl
  by_cases missing : !ended ∧ decl.returns.isSome
  · have missing' : !ended ∧ (decl.remark Mark.unplaced).returns.isSome := missing
    rw [if_pos missing, if_pos missing']
    exact .failed rfl
  · have present : ¬(!ended ∧ (decl.remark Mark.unplaced).returns.isSome) := missing
    rw [if_neg missing, if_neg present]
    exact .done rfl

theorem matched_checkLoop (mark : Mark) (body : List Stmt) :
    Matched Eq (checkLoop ⟨mark, body⟩)
      (checkLoop ⟨mark.unplaced, Stmt.remarkAll Mark.unplaced body⟩) :=
  (matched_sequenceEnds .loop body).bind fun _ _ _ => .done rfl

end Flow

namespace Typing

/-- What is known of a script and of its shadow. -/
structure State.Shows (s shadow : State) : Prop where
  scopes : shadow.scopes = s.scopes.unplaced
  tables : s.tables.Shows shadow.tables
  nextSymbol : shadow.nextSymbol = s.nextSymbol

section
variable {α : Type} {rel : α → α → Prop}

theorem agrees_fail (cause : Cause) (p p' : Position) :
    Agrees State.Shows (fail cause p : Check α) (fail cause p') rel := .throw rfl

theorem agrees_writtenTwice (what : String) (mark : Mark) :
    Agrees State.Shows (writtenTwice what mark : Check α) (writtenTwice what mark.unplaced) rel :=
  .throw rfl

end

theorem agrees_recordSymbol (mark : Mark) (symbol : Nat) :
    Agrees State.Shows (recordSymbol mark symbol) (recordSymbol mark.unplaced symbol) Eq := by
  refine Agrees.get.bind fun s shadow shows => ?_
  rcases shows.tables.symbols.record? mark.id symbol with ⟨here, there⟩ | ⟨t, t', here, there, next⟩
  · rw [here, show shadow.tables.symbols.record? mark.unplaced.id symbol = none from there]
    exact agrees_writtenTwice "symbol" mark
  · rw [here, show shadow.tables.symbols.record? mark.unplaced.id symbol = some t' from there]
    exact fun _ _ _ => .done ⟨rfl, shows.scopes, { shows.tables with symbols := next },
      shows.nextSymbol⟩

theorem agrees_recordFunction (mark : Mark) (f : Function) :
    Agrees State.Shows (recordFunction mark f) (recordFunction mark.unplaced f.unplaced) Eq := by
  refine Agrees.get.bind fun s shadow shows => ?_
  rcases shows.tables.functions.record? mark.id f with ⟨here, there⟩ | ⟨t, t', here, there, next⟩
  · rw [here, show shadow.tables.functions.record? mark.unplaced.id f.unplaced = none from there]
    exact agrees_writtenTwice "function" mark
  · rw [here, show shadow.tables.functions.record? mark.unplaced.id f.unplaced = some t' from there]
    exact fun _ _ _ => .done ⟨rfl, shows.scopes, { shows.tables with functions := next },
      shows.nextSymbol⟩

theorem agrees_recordOperator (mark : Mark) (operator : Operator) :
    Agrees State.Shows (recordOperator mark operator) (recordOperator mark.unplaced operator) Eq := by
  refine Agrees.get.bind fun s shadow shows => ?_
  rcases shows.tables.operators.record? mark.id operator with
    ⟨here, there⟩ | ⟨t, t', here, there, next⟩
  · rw [here, show shadow.tables.operators.record? mark.unplaced.id operator = none from there]
    exact agrees_writtenTwice "operator" mark
  · rw [here, show shadow.tables.operators.record? mark.unplaced.id operator = some t' from there]
    exact fun _ _ _ => .done ⟨rfl, shows.scopes, { shows.tables with operators := next },
      shows.nextSymbol⟩

theorem agrees_openScope : Agrees State.Shows openScope openScope Eq :=
  fun _ _ shows => .done ⟨rfl, congrArg ScopeChain.push shows.scopes, shows.tables, shows.nextSymbol⟩

theorem agrees_closeScope : Agrees State.Shows closeScope closeScope Eq := by
  intro s shadow shows
  refine .done ⟨rfl, ?_, shows.tables, shows.nextSymbol⟩
  have popped : s.scopes.unplaced.pop = s.scopes.pop.unplaced := by
    simp only [ScopeChain.pop, ScopeChain.unplaced, List.map_tail]
  exact (congrArg ScopeChain.pop shows.scopes).trans popped

theorem agrees_declareVariable (mark : Mark) (name : String) (type : Ty) (taken : Cause) :
    Agrees State.Shows (declareVariable mark name type taken)
      (declareVariable mark.unplaced name type taken) Eq := by
  refine Agrees.get.bind fun s shadow shows => ?_
  have there : shadow.scopes.addVariable? name ⟨type, s.nextSymbol, mark.unplaced.id⟩ =
      (s.scopes.addVariable? name ⟨type, s.nextSymbol, mark.id⟩).map ScopeChain.unplaced := by
    rw [shows.scopes]
    exact s.scopes.modify?_unplaced fun scope => scope.addVariable?_unplaced name _
  rw [shows.nextSymbol, there]
  cases s.scopes.addVariable? name ⟨type, s.nextSymbol, mark.id⟩ with
  | none => exact agrees_fail _ _ _
  | some scopes =>
    refine (Agrees.set ?_).bind fun _ _ _ => agrees_recordSymbol mark s.nextSymbol
    exact ⟨rfl, shows.tables, rfl⟩

theorem agrees_declareFunction (decl : FunctionDecl Stmt) :
    Agrees State.Shows (declareFunction decl) (declareFunction (decl.remark Mark.unplaced)) Eq := by
  refine Agrees.get.bind fun s shadow shows => ?_
  have there : shadow.scopes.addFunction? (.ofDecl (decl.remark Mark.unplaced)) =
      (s.scopes.addFunction? (.ofDecl decl)).map ScopeChain.unplaced := by
    rw [shows.scopes, Function.ofDecl_remark]
    exact s.scopes.modify?_unplaced fun scope => scope.addFunction?_unplaced (.ofDecl decl)
  rw [there]
  cases s.scopes.addFunction? (.ofDecl decl) with
  | none => exact agrees_fail _ _ _
  | some scopes => exact fun _ _ _ => .done ⟨rfl, rfl, shows.tables, shows.nextSymbol⟩

theorem agrees_variableOf (symbol : Symbol) :
    Agrees State.Shows (variableOf symbol) (variableOf (symbol.remark Mark.unplaced)) Eq := by
  refine Agrees.get.bind fun s shadow shows => ?_
  have there : shadow.scopes.lookup? (symbol.remark Mark.unplaced).name
      (symbol.remark Mark.unplaced).up = s.scopes.lookup? symbol.name symbol.up := by
    rw [shows.scopes]
    exact s.scopes.lookup?_unplaced symbol.name symbol.up
  rw [there]
  cases s.scopes.lookup? symbol.name symbol.up with
  | some v => exact .pure rfl
  | none =>
    have close : shadow.scopes.suggestions (symbol.remark Mark.unplaced).name =
        s.scopes.suggestions symbol.name := by
      rw [shows.scopes]
      exact s.scopes.suggestions_unplaced symbol.name
    rw [close]
    exact agrees_fail _ _ _

theorem agrees_functionOf (mark : Mark) (callee : String) (arguments : List Ty) :
    Agrees State.Shows (functionOf mark callee arguments)
      (functionOf mark.unplaced callee arguments) fun f shadow => shadow = f.unplaced := by
  refine Agrees.get.bind fun s shadow shows => ?_
  rw [shows.scopes, s.scopes.function?_unplaced, s.scopes.suggestions_unplaced]
  cases s.scopes.function? callee arguments with
  | some f => exact .pure rfl
  | none => exact agrees_fail _ _ _

theorem agrees_resolveCall (mark : Mark) (callee : String) (arguments : List Ty) :
    Agrees State.Shows (resolveCall mark callee arguments)
      (resolveCall mark.unplaced callee arguments) Eq := by
  refine (agrees_functionOf mark callee arguments).bind ?_
  rintro f _ rfl
  exact (agrees_recordFunction mark f).bind fun _ _ _ => .pure rfl

theorem agrees_refuseEmpty (type : Ty) (e e' : Expr) :
    Agrees State.Shows (refuseEmpty type e) (refuseEmpty type e') Eq := by
  unfold refuseEmpty
  split
  · exact agrees_fail _ _ _
  · exact .pure rfl

theorem agrees_commonType (current : Option Ty) (next : Ty) (e e' : Expr) :
    Agrees State.Shows (commonType current next e) (commonType current next e') Eq := by
  refine (agrees_refuseEmpty next e e').bind fun _ _ _ => ?_
  split
  · exact .pure rfl
  · exact .pure rfl
  · split
    · exact .pure rfl
    · exact agrees_fail _ _ _

theorem agrees_chooseOperator (mark : Mark) (choice : Option (Operator × Ty)) (cause : Cause)
    (p p' : Position) :
    Agrees State.Shows (chooseOperator mark choice cause p)
      (chooseOperator mark.unplaced choice cause p') Eq := by
  unfold chooseOperator
  split
  · exact (agrees_recordOperator mark _).bind fun _ _ _ => .pure rfl
  · exact agrees_fail _ _ _

mutual

/-- An expression and its shadow have the same type. -/
theorem agrees_expr : ∀ e : Expr, Agrees State.Shows (expr e) (expr e.unplaced) Eq
  | .number .. => .pure rfl
  | .real .. => .pure rfl
  | .logic .. => .pure rfl
  | .string .. => .pure rfl
  | .material .. => .pure rfl
  | .member .. => .pure rfl
  | .interpolation _ parts => (agrees_embeddedParts parts).bind fun _ _ _ => .pure rfl
  | .symbol s => by
    refine (agrees_variableOf s).bind ?_
    rintro v _ rfl
    exact (agrees_recordSymbol s.mark v.symbol).bind fun _ _ _ => .pure rfl
  | .binary mark left operator right => by
    refine (agrees_expr left).bind ?_
    rintro leftType _ rfl
    refine (agrees_refuseEmpty leftType _ _).bind fun _ _ _ => (agrees_expr right).bind ?_
    rintro rightType _ rfl
    exact (agrees_refuseEmpty rightType _ _).bind fun _ _ _ => agrees_chooseOperator mark _ _ _ _
  | .unary mark operator operand => by
    refine (agrees_expr operand).bind ?_
    rintro type _ rfl
    exact (agrees_refuseEmpty type _ _).bind fun _ _ _ => agrees_chooseOperator mark _ _ _ _
  | .index mark collection index => by
    refine (agrees_expr collection).bind ?_
    rintro collectionType _ rfl
    refine (agrees_refuseEmpty collectionType _ _).bind fun _ _ _ => (agrees_expr index).bind ?_
    rintro indexType _ rfl
    exact (agrees_refuseEmpty indexType _ _).bind fun _ _ _ => agrees_chooseOperator mark _ _ _ _
  | .call mark callee arguments => by
    refine (agrees_argumentTypes callee arguments).bind ?_
    rintro types _ rfl
    refine (agrees_resolveCall mark callee types).bind ?_
    rintro result _ rfl
    cases result with
    | some type => exact .pure rfl
    | none => exact agrees_fail _ _ _
  | .list _ elements => by
    refine (agrees_elementType none elements).bind ?_
    rintro type _ rfl
    cases type <;> exact .pure rfl
  | .map _ entries => by
    refine (agrees_entryTypes none none entries).bind ?_
    rintro ⟨key, value⟩ _ rfl
    cases key <;> cases value <;> exact .pure rfl

theorem agrees_embeddedParts : ∀ parts : List (Part Expr), Agrees State.Shows
    (embeddedParts parts) (embeddedParts (Expr.remarkParts Mark.unplaced parts)) Eq
  | [] => .pure rfl
  | .text _ :: rest => agrees_embeddedParts rest
  | .embed e :: rest => by
    refine (agrees_expr e).bind ?_
    rintro type _ rfl
    dsimp only
    split
    · exact .throw_bind rfl
    · exact agrees_embeddedParts rest

theorem agrees_argumentTypes (callee : String) : ∀ arguments : List Expr, Agrees State.Shows
    (argumentTypes callee arguments)
    (argumentTypes callee (Expr.remarkAll Mark.unplaced arguments)) Eq
  | [] => .pure rfl
  | e :: rest => by
    refine (agrees_expr e).bind ?_
    rintro type _ rfl
    dsimp only
    split
    · exact .throw_bind rfl
    · refine (agrees_argumentTypes callee rest).bind ?_
      rintro types _ rfl
      exact .pure rfl

theorem agrees_elementType (current : Option Ty) : ∀ elements : List Expr, Agrees State.Shows
    (elementType current elements) (elementType current (Expr.remarkAll Mark.unplaced elements)) Eq
  | [] => .pure rfl
  | e :: rest => by
    refine (agrees_expr e).bind ?_
    rintro type _ rfl
    refine (agrees_commonType current type _ _).bind ?_
    rintro common _ rfl
    exact agrees_elementType (some common) rest

theorem agrees_entryTypes (key value : Option Ty) : ∀ entries : List (Expr × Expr),
    Agrees State.Shows (entryTypes key value entries)
      (entryTypes key value (Expr.remarkEntries Mark.unplaced entries)) Eq
  | [] => .pure rfl
  | (k, v) :: rest => by
    refine (agrees_expr k).bind ?_
    rintro keyType _ rfl
    refine (agrees_commonType key keyType _ _).bind ?_
    rintro commonKey _ rfl
    refine (agrees_expr v).bind ?_
    rintro valueType _ rfl
    refine (agrees_commonType value valueType _ _).bind ?_
    rintro commonValue _ rfl
    exact agrees_entryTypes (some commonKey) (some commonValue) rest

end

theorem agrees_loneExpr (e : Expr) : Agrees State.Shows (loneExpr e) (loneExpr e.unplaced) Eq := by
  have valued : ∀ e : Expr, Agrees State.Shows (do let _ ← expr e) (do let _ ← expr e.unplaced) Eq :=
    fun e => (agrees_expr e).bind fun _ _ _ => .pure rfl
  cases e with
  | call mark callee arguments =>
    refine (agrees_argumentTypes callee arguments).bind ?_
    rintro types _ rfl
    exact (agrees_resolveCall mark callee types).bind fun _ _ _ => .pure rfl
  | _ => exact valued _

theorem agrees_condition (statement : String) (expected : Ty) (e : Expr) :
    Agrees State.Shows (condition statement expected e) (condition statement expected e.unplaced)
      Eq := by
  refine (agrees_expr e).bind ?_
  rintro type _ rfl
  split
  · exact agrees_fail _ _ _
  · exact .pure rfl

theorem agrees_declaration (mark : Mark) (name : String) (type : Ty) (value : Expr) :
    Agrees State.Shows (declaration mark name type value)
      (declaration mark.unplaced name type value.unplaced) Eq := by
  refine (agrees_expr value).bind ?_
  rintro valueType _ rfl
  dsimp only
  split
  · exact .throw_bind rfl
  · exact agrees_declareVariable mark name type _

theorem agrees_assignment (mark : Mark) (target : Symbol) (operator : Token) (value : Expr) :
    Agrees State.Shows (assignment mark target operator value)
      (assignment mark.unplaced (target.remark Mark.unplaced) operator.unplaced value.unplaced)
      Eq := by
  refine (agrees_variableOf target).bind ?_
  rintro v _ rfl
  refine (agrees_expr value).bind ?_
  rintro valueType _ rfl
  have recorded := agrees_recordSymbol target.mark v.symbol
  simp only [Token.kind_unplaced]
  by_cases plain : operator.kind = .assignment
  · rw [if_pos plain, if_pos plain]
    split
    · exact .throw_bind rfl
    · exact recorded
  · rw [if_neg plain, if_neg plain]
    split
    · exact (agrees_recordOperator mark _).bind fun _ _ _ => recorded
    · exact .throw_bind rfl

theorem agrees_returns (here : Surroundings) (mark : Mark) (value : Option Expr) :
    Agrees State.Shows (returns here mark value)
      (returns here mark.unplaced (value.map Expr.unplaced)) Eq := by
  unfold returns
  cases here.function with
  | none => exact agrees_fail _ _ _
  | some declared =>
    obtain ⟨name, expected⟩ := declared
    cases value with
    | none =>
      cases expected with
      | none => exact .pure rfl
      | some type => exact agrees_fail _ _ _
    | some value =>
      cases expected with
      | none => exact agrees_fail _ _ _
      | some expected =>
        refine (agrees_expr value).bind ?_
        rintro type _ rfl
        split
        · exact agrees_fail _ _ _
        · exact .pure rfl

theorem agrees_insideLoop (here : Surroundings) (mark : Mark) (statement : String) :
    Agrees State.Shows (insideLoop here mark statement) (insideLoop here mark.unplaced statement)
      Eq := by
  unfold insideLoop
  split
  · exact agrees_fail _ _ _
  · exact .pure rfl

theorem agrees_parameters (ps : List Parameter) : Agrees State.Shows (parameters ps)
    (parameters (ps.map (Parameter.remark Mark.unplaced))) Eq := by
  induction ps with
  | nil => exact .pure rfl
  | cons p rest ih => exact (agrees_declareVariable p.mark p.name p.type _).bind fun _ _ _ => ih

mutual

/-- A statement is checked like its shadow. -/
theorem agrees_stmt (here : Surroundings) :
    ∀ s : Stmt, Agrees State.Shows (stmt here s) (stmt here s.unplaced) Eq
  | .block ⟨_, body⟩ => agrees_openScope.bind fun _ _ _ => (agrees_stmts here body).bind
      fun _ _ _ => agrees_closeScope
  | .expression _ e => agrees_loneExpr e
  | .declare mark name type value => agrees_declaration mark name type value
  | .assign mark target operator value => agrees_assignment mark target operator value
  | .branch _ test ⟨_, body⟩ other => (agrees_condition _ _ test).bind fun _ _ _ =>
      agrees_openScope.bind fun _ _ _ => (agrees_stmts here body).bind fun _ _ _ =>
        agrees_closeScope.bind fun _ _ _ => agrees_otherStmt here other
  | .whileLoop _ test ⟨mark, body⟩ => (agrees_condition _ _ test).bind fun _ _ _ =>
      (Agrees.lift (Flow.matched_checkLoop mark body)).bind fun _ _ _ =>
        agrees_openScope.bind fun _ _ _ => (agrees_stmts here.loop body).bind fun _ _ _ =>
          agrees_closeScope
  | .repeatLoop _ count ⟨mark, body⟩ => (agrees_condition _ _ count).bind fun _ _ _ =>
      (Agrees.lift (Flow.matched_checkLoop mark body)).bind fun _ _ _ =>
        agrees_openScope.bind fun _ _ _ => (agrees_stmts here.loop body).bind fun _ _ _ =>
          agrees_closeScope
  | .function ⟨mark, name, params, result, ⟨bodyMark, body⟩⟩ => by
    have declared := agrees_declareFunction ⟨mark, name, params, result, ⟨bodyMark, body⟩⟩
    have flows := Flow.matched_checkFunction ⟨mark, name, params, result, ⟨bodyMark, body⟩⟩
    simp only [FunctionDecl.remark, Block.remark, ← Stmt.remarkAll_eq] at declared flows
    exact declared.bind fun _ _ _ => (Agrees.lift flows).bind fun _ _ _ =>
      agrees_openScope.bind fun _ _ _ => (agrees_parameters params).bind fun _ _ _ =>
        (agrees_stmts _ body).bind fun _ _ _ => agrees_closeScope
  | .ret mark value => agrees_returns here mark value
  | .brk mark => agrees_insideLoop here mark _
  | .cont mark => agrees_insideLoop here mark _

theorem agrees_otherStmt (here : Surroundings) : ∀ other : Option Stmt, Agrees State.Shows
    (otherStmt here other) (otherStmt here (Stmt.remarkOther Mark.unplaced other)) Eq
  | none => .pure rfl
  | some s => agrees_stmt here s

theorem agrees_stmts (here : Surroundings) : ∀ body : List Stmt, Agrees State.Shows
    (stmts here body) (stmts here (Stmt.remarkAll Mark.unplaced body)) Eq
  | [] => .pure rfl
  | s :: rest => (agrees_stmt here s).bind fun _ _ _ => agrees_stmts here rest

end

theorem agrees_program (p : Program) :
    Agrees State.Shows (program p) (program p.unplaced) Eq := by
  have body := agrees_stmts .top p.body
  rw [Stmt.remarkAll_eq] at body
  exact agrees_openScope.bind fun _ _ _ => body.bind fun _ _ _ => agrees_closeScope

end Typing

/-- A script is found to be like its shadow, or fails for the same cause. -/
theorem Program.matched_analyse (p : Program) (library : Library) :
    Matched Tables.Shows (p.analyse library) (Program.analyse p.unplaced library.unplaced) := by
  refine (Typing.agrees_program p _ _ ?_).map _ fun _ _ checked => checked.2.tables
  exact ⟨rfl, ⟨Table.shows_empty, Table.shows_empty, Table.shows_empty⟩, rfl⟩

end CursorScript
