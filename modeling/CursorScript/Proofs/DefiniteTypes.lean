import CursorScript.Proofs.PendingWork

/-!
Types that say of every collection in them what it holds. Analysis gives `[]` and an empty map types
of their own that leave this open, and no script can write those. What operators give is definite
wherever their operands are, and so is what the standard library makes of definite arguments; all
types in a tree that was read are definite.
-/
namespace CursorScript

/-- Whether a type says of all collections in it what they hold. -/
def Ty.isDefinite : Ty → Bool
  | .simple _ => true
  | .list element => element.isDefinite
  | .map key value => key.isDefinite && value.isDefinite
  | .literal _ => true
  | .emptyList => false
  | .emptyMap => false

@[simp] theorem Ty.isDefinite_number : Ty.number.isDefinite = true := rfl

@[simp] theorem Ty.isDefinite_logic : Ty.logic.isDefinite = true := rfl

/-- Whether a function takes and gives values of definite types only. -/
def Function.isDefinite (f : Function) : Bool :=
  f.parameterTypes.all Ty.isDefinite && f.returns.all Ty.isDefinite

/-- The type that an expression may have: the one of an empty collection for exactly that literal,
and a definite one for any other expression. -/
def Expr.Allows (e : Expr) (type : Ty) : Prop :=
  match e with
  | .list _ [] => type = .emptyList
  | .map _ [] => type = .emptyMap
  | _ => type.isDefinite = true

/-- Once the empty collections are refused, what is left is definite. -/
theorem Expr.Allows.isDefinite {e : Expr} {type : Ty} (h : e.Allows type)
    (known : type.isPseudo = false) : type.isDefinite = true := by
  unfold Allows at h
  split at h
  · subst h
    cases known
  · subst h
    cases known
  · exact h

theorem Function.isDefinite_iff {f : Function} : f.isDefinite = true ↔
    (∀ type ∈ f.parameterTypes, type.isDefinite = true) ∧
      ∀ type ∈ f.returns, type.isDefinite = true := by
  simp only [isDefinite, Bool.and_eq_true, List.all_eq_true, Option.all_eq_true, Option.mem_def]

namespace Operator
variable {token : TokenKind} {left right operand type : Ty} {op : Operator}

/-- Whatever the operands are, the result of an operator between them is a simple type. -/
theorem isDefinite_of_binary? (h : binary? token left right = some (op, type)) :
    type.isDefinite = true := by
  have numeric : ∀ {numbers reals : Operator},
      arithmetic left right numbers reals = some (op, type) → type.isDefinite = true := by
    intro numbers reals chosen
    rcases eq_of_forNumeric chosen with ⟨_, _, same⟩ | ⟨_, _, same⟩ <;> cases same <;> rfl
  have compared : ∀ {numbers reals : Operator},
      comparison left right numbers reals = some (op, type) → type.isDefinite = true := by
    intro numbers reals chosen
    rcases eq_of_forNumeric chosen with ⟨_, _, same⟩ | ⟨_, _, same⟩ <;> cases same <;> rfl
  have fixed : ∀ {condition : Prop} [Decidable condition] {other : Operator},
      (if condition then some (other, Ty.logic) else none) = some (op, type) →
        type.isDefinite = true := by
    intro condition _ other chosen
    split at chosen
    · cases chosen
      rfl
    · cases chosen
  unfold binary? at h
  split at h
  · cases h
  · split at h
    case h_1 =>
      split at h
      · cases h
        rfl
      · exact numeric h
    case h_2 | h_3 | h_4 | h_5 | h_6 => exact numeric h
    case h_7 | h_8 => exact fixed h
    case h_9 | h_10 | h_11 | h_12 => exact compared h
    case h_13 | h_14 => exact fixed h
    case h_15 => cases h

theorem isDefinite_of_unary? (h : unary? token operand = some (op, type)) :
    type.isDefinite = true := by
  unfold unary? at h
  split at h <;> cases h <;> rfl

/-- What is taken out of a collection of a definite type is of a definite type. -/
theorem isDefinite_of_index? (h : index? left right = some (op, type))
    (definite : left.isDefinite = true) : type.isDefinite = true := by
  unfold index? at h
  split at h
  · split at h
    · cases h
      exact definite
    · cases h
  · split at h
    · cases h
      exact (Bool.and_eq_true_iff.1 definite).2
    · cases h
  · cases h

end Operator

/-- A library has functions of definite signatures, and its families make such functions for
arguments of definite types. -/
structure Library.Definite (library : Library) : Prop where
  natives : ∀ f ∈ library.natives, f.isDefinite = true
  families : ∀ family ∈ library.families, ∀ types f, (∀ type ∈ types, type.isDefinite = true) →
    family.resolve types = some f → f.isDefinite = true

namespace Library

theorem isDefinite_natives_standard (outside : Outside) :
    (standard outside).natives.all Function.isDefinite = true := by
  have same := map_interface_standard
    (fun seen => seen.2.1.all Ty.isDefinite && seen.2.2.all Ty.isDefinite) outside .builtIn
  have all := congrArg (List.all · id) same
  rw [List.all_map, List.all_map] at all
  exact all.trans (by decide +kernel)

theorem isDefinite_familyMember (name : String) (parameters : List (String × Ty))
    (returns : Option Ty) (run : NativeBody) :
    (familyMember name parameters returns run).isDefinite =
      (parameters.all (fun p => p.2.isDefinite) && returns.all Ty.isDefinite) := by
  simp only [Function.isDefinite, familyMember, List.all_map, Function.comp_def]

/-- A family resolves to members whose types are those of the arguments, parts of them or simple. -/
theorem isDefinite_of_collections {family : Family} (here : family ∈ collections)
    {types : List Ty} (definite : ∀ type ∈ types, type.isDefinite = true) {f : Function}
    (h : family.resolve types = some f) : f.isDefinite = true := by
  simp only [collections, List.mem_cons, List.not_mem_nil, or_false] at here
  rcases here with rfl | rfl | rfl | rfl | rfl
  · simp only [printFamily] at h
    split at h
    · next type =>
      split at h
      · cases h
      · cases h
        have value : type.isDefinite = true := by simpa using definite
        simp [isDefinite_familyMember, value]
    · cases h
  · simp only [sizeFamily] at h
    split at h
    · next element =>
      cases h
      have list : (Ty.list element).isDefinite = true := by simpa using definite
      simp [isDefinite_familyMember, list]
    · next key value =>
      cases h
      have map : (Ty.map key value).isDefinite = true := by simpa using definite
      simp [isDefinite_familyMember, map]
    · cases h
  · simp only [appendFamily] at h
    split at h
    · next element item =>
      split at h
      · cases h
        obtain ⟨list, item⟩ : (Ty.list element).isDefinite = true ∧ item.isDefinite = true := by
          simpa using definite
        simp [isDefinite_familyMember, list, item]
      · cases h
    · cases h
  · simp only [hasKeyFamily] at h
    split at h
    · next key value candidate =>
      split at h
      · cases h
        obtain ⟨map, given⟩ :
            (Ty.map key value).isDefinite = true ∧ candidate.isDefinite = true := by
          simpa using definite
        simp [isDefinite_familyMember, map, given]
      · cases h
    · cases h
  · simp only [keysFamily] at h
    split at h
    · next key value =>
      cases h
      have map : (Ty.map key value).isDefinite = true := by simpa using definite
      have keys : (Ty.list key).isDefinite = true := (Bool.and_eq_true_iff.1 map).1
      simp [isDefinite_familyMember, map, keys]
    · cases h

theorem definite_standard (outside : Outside) : (standard outside).Definite :=
  ⟨List.all_eq_true.1 (isDefinite_natives_standard outside),
    fun _ here _ _ definite found => isDefinite_of_collections here definite found⟩

variable {library : Library} (h : library.Definite) {name : String} {types : List Ty} {f : Function}
include h

theorem Definite.function? (definite : ∀ type ∈ types, type.isDefinite = true)
    (found : library.function? name types = some f) : f.isDefinite = true := by
  unfold Library.function? at found
  split at found
  · next held =>
    cases found
    exact h.natives f (List.mem_of_find?_eq_some held)
  · obtain ⟨family, held, resolved⟩ := Option.bind_eq_some_iff.1 found
    exact h.families family (List.mem_of_find?_eq_some held) types f definite resolved

theorem Definite.widened? (found : library.widened? name types = some f) :
    f.isDefinite = true := h.natives f (List.mem_of_find?_eq_some found)

end Library

mutual

/-- All types that are written in a statement are definite. -/
def Stmt.Definite : Stmt → Prop
  | .block ⟨_, body⟩ => AllDefinite body
  | .declare _ _ type _ => type.isDefinite = true
  | .branch _ _ ⟨_, body⟩ other => AllDefinite body ∧ OtherDefinite other
  | .whileLoop _ _ ⟨_, body⟩ => AllDefinite body
  | .repeatLoop _ _ ⟨_, body⟩ => AllDefinite body
  | .function ⟨_, _, parameters, returns, ⟨_, body⟩⟩ =>
    (∀ p ∈ parameters, p.type.isDefinite = true) ∧ (∀ type ∈ returns, type.isDefinite = true) ∧
      AllDefinite body
  | .expression .. => True
  | .assign .. => True
  | .ret .. => True
  | .brk _ => True
  | .cont _ => True

def Stmt.OtherDefinite : Option Stmt → Prop
  | none => True
  | some s => s.Definite

def Stmt.AllDefinite : List Stmt → Prop
  | [] => True
  | s :: rest => s.Definite ∧ AllDefinite rest

end

theorem Stmt.allDefinite_of_forall {body : List Stmt} (h : ∀ s ∈ body, s.Definite) :
    AllDefinite body := by
  induction body with
  | nil => trivial
  | cons s rest ih =>
    obtain ⟨first, others⟩ := List.forall_mem_cons.1 h
    exact ⟨first, ih others⟩

namespace Grammar

/-- Only names, brackets and members make up a type that is written. -/
theorem definite_typeWithin (fuel n : Nat) :
    Numbers n (typeWithin fuel) fun type _ => type.isDefinite = true := by
  induction fuel generalizing n with
  | zero => exact .unexpected
  | succ fuel ih =>
    refine .any fun kind n => ?_
    split
    · refine .any fun token _ => ?_
      split
      · exact .pure rfl
      · exact .fail _ _
    · exact .any fun _ n => .bind (ih n) fun _ _ element => .any fun _ _ => .pure element
    · exact .any fun _ n => .bind (ih n) fun _ n key => .any fun _ n =>
        .bind (ih n) fun _ _ value => .any fun _ _ =>
          .pure (Bool.and_eq_true_iff.2 ⟨key, value⟩)
    · exact .any fun _ _ => .any fun _ _ => .any fun _ _ => .any fun _ _ => .pure rfl
    · exact .unexpectedWith

theorem definite_type (n : Nat) : Numbers n type fun type _ => type.isDefinite = true :=
  .any fun _ _ => definite_typeWithin _ _

theorem definite_returnType (n : Nat) :
    Numbers n returnType fun returns _ => ∀ type ∈ returns, type.isDefinite = true := by
  refine .any fun kind n => ?_
  split
  · refine .any fun _ n => .bind (definite_type n) fun type _ definite => .pure ?_
    rintro _ ⟨⟩
    exact definite
  · exact .pure nofun

/-- What every item is like, all of them are like. -/
theorem forall_itemsUntil {α : Type} {good : α → Prop} {close : TokenKind}
    {item : List α → Parse α} (h : ∀ before n, Numbers n (item before) fun a _ => good a)
    (fuel : Nat) {before : List α} (earlier : ∀ a ∈ before, good a) (n : Nat) :
    Numbers n (Parse.itemsUntil close item fuel before) fun all _ => ∀ a ∈ all, good a := by
  induction fuel generalizing before n with
  | zero => exact .unexpected
  | succ fuel ih =>
    refine .any fun kind n => ?_
    split
    · exact .pure fun a mem => earlier a (List.mem_reverse.1 mem)
    · exact .bind (h before n) fun a n here => ih (List.forall_mem_cons.2 ⟨here, earlier⟩) n

theorem forall_itemsBefore {α : Type} {good : α → Prop} {close : TokenKind}
    {item : List α → Parse α} (h : ∀ before n, Numbers n (item before) fun a _ => good a)
    (n : Nat) : Numbers n (Parse.itemsBefore close item) fun all _ => ∀ a ∈ all, good a :=
  .any fun _ n => forall_itemsUntil h _ (by simp) n

theorem definite_parameters (n : Nat) :
    Numbers n parameters fun ps _ => ∀ p ∈ ps, p.type.isDefinite = true := by
  have item : ∀ before n, Numbers n (parameter before) fun p _ => p.type.isDefinite = true := by
    intro before n
    refine .any fun _ _ => .any fun _ n => .bind (definite_type n) fun type _ definite => ?_
    dsimp only
    split
    · exact .bind (.fail _ _) fun _ _ (h : False) => h.elim
    · exact .any fun _ _ => .any fun _ _ => .pure definite
  exact .any fun _ n => .bind (forall_itemsBefore item n) fun _ _ all => .any fun _ _ => .pure all

section statements
variable {stmt : Parse Stmt} (body : ∀ n, Numbers n stmt fun s _ => s.Definite) (n : Nat)
include body

theorem definite_block : Numbers n (block stmt) fun b _ => Stmt.AllDefinite b.body := by
  have item : ∀ (before : List Stmt) n, Numbers n (do
      if (← Parse.kind) = .eof then Parse.unexpectedWith "expected `\x7d` to close the block"
      stmt) fun s _ => s.Definite := by
    intro _ n
    refine .any fun kind n => ?_
    dsimp only
    split
    · exact .bind .unexpectedWith fun _ _ (h : False) => h.elim
    · exact body n
  exact .any fun _ n => .bind (forall_itemsBefore item n) fun _ _ all =>
    .any fun _ _ => .any fun _ _ => .pure (Stmt.allDefinite_of_forall all)

theorem definite_branchStmt (expr : ExprReader) :
    Numbers n (branchStmt expr stmt) fun s _ => s.Definite := by
  refine .any fun token _ => .any fun e n => .bind (definite_block body n) fun b _ inside => ?_
  have finish : ∀ (other : Option Stmt) (n : Nat), Stmt.OtherDefinite other →
      Numbers n (do return Stmt.branch (← Parse.markFrom token.span.start) e b other)
        fun s _ => s.Definite :=
    fun other n more => .any fun _ _ => .pure ⟨inside, more⟩
  refine .any fun kind n => ?_
  dsimp only
  split
  · refine .any fun _ n => .any fun kind n => ?_
    split
    · exact .bind (body n) fun s n other => .pure_bind (finish (some s) n other)
    · exact .bind (definite_block body n) fun b n other =>
        .pure_bind (finish (some (.block b)) n other)
  · exact .pure_bind (finish none n trivial)

theorem definite_functionStmt : Numbers n (functionStmt stmt) fun s _ => s.Definite :=
  .any fun _ _ => .any fun _ n => .bind (definite_parameters n) fun _ n parameters =>
    .bind (definite_returnType n) fun _ n returns => .bind (definite_block body n) fun _ _ inside =>
      .any fun _ _ => .pure ⟨parameters, returns, inside⟩

omit body in
theorem definite_declareStmt (expr : ExprReader) :
    Numbers n (declareStmt expr) fun s _ => s.Definite :=
  .any fun _ _ => .any fun _ _ => .any fun _ n => .bind (definite_type n) fun _ _ definite =>
    .any fun _ _ => .any fun _ _ => .any fun _ _ => .any fun _ _ => .pure definite

omit body in
theorem definite_assignStmt (expr : ExprReader) :
    Numbers n (assignStmt expr) fun s _ => s.Definite := by
  refine .any fun _ _ => .any fun _ _ => .any fun _ n => ?_
  dsimp only
  split
  · exact .bind .unexpectedWith fun _ _ (h : False) => h.elim
  · exact .any fun _ _ => .any fun _ _ => .any fun _ _ => .any fun _ _ => .pure trivial

omit body in
theorem definite_expressionStmt (expr : ExprReader) :
    Numbers n (expressionStmt expr) fun s _ => s.Definite :=
  .any fun _ _ => .any fun _ _ => .any fun _ _ => .pure trivial

omit body in
theorem definite_namedStmt (expr : ExprReader) :
    Numbers n (namedStmt expr) fun s _ => s.Definite := by
  refine .any fun stream n => ?_
  dsimp only
  split
  · exact definite_assignStmt n expr
  · split
    · exact definite_expressionStmt n expr
    · exact .any fun _ _ => .any fun _ _ => .any fun _ _ => .any fun _ _ => .any fun _ _ =>
        .pure trivial

omit body in
theorem definite_returnStmt (expr : ExprReader) :
    Numbers n (returnStmt expr) fun s _ => s.Definite := by
  refine .any fun _ _ => .any fun kind n => ?_
  dsimp only
  split
  · exact .pure_bind (.any fun _ _ => .any fun _ _ => .pure trivial)
  · exact .any fun _ _ => .pure_bind (.any fun _ _ => .any fun _ _ => .pure trivial)

theorem definite_statement (expr : ExprReader) :
    Numbers n (statement expr stmt) fun s _ => s.Definite := by
  refine .any fun kind n => ?_
  split
  · exact definite_declareStmt n expr
  · exact definite_namedStmt n expr
  · exact definite_assignStmt n expr
  · exact definite_branchStmt body n expr
  · exact .any fun _ _ => .any fun _ n => .bind (definite_block body n) fun _ _ inside =>
      .any fun _ _ => .pure inside
  · exact .any fun _ _ => .any fun _ n => .bind (definite_block body n) fun _ _ inside =>
      .any fun _ _ => .pure inside
  · exact .bind (definite_block body n) fun _ _ inside => .pure inside
  · exact definite_functionStmt body n
  · exact definite_returnStmt n expr
  · exact .any fun _ _ => .any fun _ _ => .any fun _ _ => .pure trivial
  · exact .any fun _ _ => .any fun _ _ => .any fun _ _ => .pure trivial
  · exact definite_expressionStmt n expr

end statements

theorem definite_stmtWithin (fuel n : Nat) :
    Numbers n (stmtWithin fuel) fun s _ => s.Definite := by
  induction fuel generalizing n with
  | zero => exact .unexpected
  | succ fuel ih => exact definite_statement ih n _

theorem definite_program (n : Nat) : Numbers n program fun p _ => Stmt.AllDefinite p.body :=
  .any fun _ _ => .any fun _ n => .bind (forall_itemsBefore (fun _ => definite_stmtWithin _) n)
    fun _ _ all => .any fun _ _ => .any fun _ _ => .pure (Stmt.allDefinite_of_forall all)

end Grammar

/-- No script can write the type of an empty collection. -/
theorem Program.definite_of_ofTokens {tokens : List Token} {file : String} {p : Program}
    (read : Program.ofTokens tokens file = .ok p) : Stmt.AllDefinite p.body := by
  unfold Program.ofTokens at read
  cases ran : Grammar.program.run (Grammar.Stream.ofTokens tokens file 0) with
  | error e =>
    rw [ran] at read
    cases read
  | ok result =>
    rw [ran] at read
    cases read
    exact Grammar.definite_program _ _ _ _ rfl ran

structure Scope.Definite (scope : Scope) : Prop where
  vars : ∀ entry ∈ scope.vars, entry.2.type.isDefinite = true
  functions : ∀ f ∈ scope.functions, f.isDefinite = true

structure ScopeChain.Definite (chain : ScopeChain) : Prop where
  scopes : ∀ scope ∈ chain.scopes, scope.Definite
  library : chain.library.Definite

theorem Scope.definite_empty : Scope.empty.Definite := ⟨nofun, nofun⟩

theorem Scope.Definite.addVariable? {scope next : Scope} (h : scope.Definite) {name : String}
    {v : Variable} (definite : v.type.isDefinite = true)
    (added : scope.addVariable? name v = some next) : next.Definite := by
  unfold Scope.addVariable? at added
  split at added
  · cases added
  · cases added
    exact ⟨List.forall_mem_append.2 ⟨h.vars, by simpa using definite⟩, h.functions⟩

theorem Scope.Definite.addFunction? {scope next : Scope} (h : scope.Definite) {f : Function}
    (definite : f.isDefinite = true) (added : scope.addFunction? f = some next) :
    next.Definite := by
  unfold Scope.addFunction? at added
  split at added
  · cases added
  · cases added
    exact ⟨h.vars, List.forall_mem_append.2 ⟨h.functions, by simpa using definite⟩⟩

namespace ScopeChain.Definite
variable {chain next : ScopeChain} (h : chain.Definite)
include h

theorem push : chain.push.Definite :=
  ⟨List.forall_mem_cons.2 ⟨Scope.definite_empty, h.scopes⟩, h.library⟩

theorem pop : chain.pop.Definite :=
  ⟨fun scope mem => h.scopes scope (List.mem_of_mem_tail mem), h.library⟩

theorem modify? {change : Scope → Option Scope}
    (kept : ∀ scope new, scope.Definite → change scope = some new → new.Definite)
    (changed : chain.modify? change = some next) : next.Definite := by
  unfold ScopeChain.modify? at changed
  split at changed
  · obtain ⟨new, made, rfl⟩ := Option.map_eq_some_iff.1 changed
    exact ⟨by simpa using kept _ new Scope.definite_empty made, h.library⟩
  · next scope outer same =>
    obtain ⟨new, made, rfl⟩ := Option.map_eq_some_iff.1 changed
    obtain ⟨inner, others⟩ := List.forall_mem_cons.1 (same ▸ h.scopes)
    exact ⟨List.forall_mem_cons.2 ⟨kept scope new inner made, others⟩, h.library⟩

theorem lookup? {name : String} {up : Nat} {v : Variable} (found : chain.lookup? name up = some v) :
    v.type.isDefinite = true := by
  obtain ⟨scope, mem, held⟩ := List.exists_of_findSome?_eq_some found
  obtain ⟨before, behind, listed, _⟩ := List.lookup_eq_some_iff.1 held
  exact (h.scopes scope (List.mem_of_mem_drop mem)).vars (name, v) (by simp [listed])

/-- A function that is found for definite arguments is definite, wherever it comes from. -/
theorem function? {name : String} {types : List Ty}
    (definite : ∀ type ∈ types, type.isDefinite = true) {f : Function}
    (found : chain.function? name types = some f) : f.isDefinite = true := by
  rcases Option.or_eq_some_iff.1 found with found | ⟨_, found⟩
  · rcases Option.or_eq_some_iff.1 found with found | ⟨_, found⟩
    · obtain ⟨scope, mem, held⟩ := List.exists_of_findSome?_eq_some found
      exact (h.scopes scope mem).functions f (List.mem_of_find?_eq_some held)
    · exact h.library.function? definite found
  · rcases Option.or_eq_some_iff.1 found with found | ⟨_, found⟩
    · obtain ⟨scope, mem, held⟩ := List.exists_of_findSome?_eq_some found
      exact (h.scopes scope mem).functions f (List.mem_of_find?_eq_some held)
    · exact h.library.widened? found

end ScopeChain.Definite

end CursorScript
