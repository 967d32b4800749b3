import CursorScript.Analysis.Typing
import CursorScript.Proofs.Layout
import Mathlib.Data.List.Sort

/-!
Scripts that analysis accepts fit the tables that it makes. Analysis of an expression changes nothing
but tables, and tables only grow, so what it records still stands in the tables of the whole script;
analysis of a statement changes the innermost scope alone. Along the way the scopes agree with the
point that analysis has reached.
-/
namespace CursorScript

def Table.Sub {α : Type} (table other : Table α) : Prop :=
  ∀ id entry, table.get? id = some entry → other.get? id = some entry

structure Tables.Sub (tables other : Tables) : Prop where
  symbols : tables.symbols.Sub other.symbols
  functions : tables.functions.Sub other.functions
  operators : tables.operators.Sub other.operators

namespace Table
variable {α : Type} {table next : Table α} {id : Nat} {entry : α}

theorem Sub.refl (table : Table α) : table.Sub table := fun _ _ h => h

theorem sub_of_record (h : table.record? id entry = some next) : table.Sub next := by
  intro other old found
  have new : table.get? id = none := by
    unfold record? at h
    split at h
    · cases h
    · next absent => simpa using absent
  rw [get?_record h]
  split
  · next same =>
    subst same
    rw [new] at found
    cases found
  · exact found

theorem get?_of_record (h : table.record? id entry = some next) : next.get? id = some entry := by
  rw [get?_record h, if_pos rfl]

end Table

theorem Tables.Sub.refl (tables : Tables) : tables.Sub tables := ⟨.refl _, .refl _, .refl _⟩

theorem Tables.Sub.trans {tables next last : Tables} (h : tables.Sub next) (more : next.Sub last) :
    tables.Sub last :=
  ⟨fun id entry found => more.symbols id entry (h.symbols id entry found),
    fun id entry found => more.functions id entry (h.functions id entry found),
    fun id entry found => more.operators id entry (h.operators id entry found)⟩

theorem Ty.accepts_trans {first second third : Ty} (h : first.accepts second = true)
    (more : second.accepts third = true) : first.accepts third = true := by
  unfold Ty.accepts at h
  split at h
  · next allowed given =>
    unfold Ty.accepts at more
    split at more
    · next same =>
      cases same
      exact NameSet.subset_iff.2 fun name mem =>
        NameSet.subset_iff.1 h name (NameSet.subset_iff.1 more name mem)
    · cases of_decide_eq_true more
      exact h
  · cases (of_decide_eq_true h : first = second)
    exact more

theorem NameSet.mem_foldl_insert {names : List String} {set : NameSet} {name : String} :
    name ∈ (names.foldl NameSet.insert set).names ↔ name ∈ set.names ∨ name ∈ names := by
  induction names generalizing set with
  | nil => simp
  | cons first rest ih =>
    rw [List.foldl_cons, ih, NameSet.mem_insert, List.mem_cons]
    tauto

theorem NameSet.mem_ofList {names : List String} {name : String} :
    name ∈ (ofList names).names ↔ name ∈ names := by
  rw [ofList, mem_foldl_insert]
  simp [empty]

theorem NameSet.eq_of_mem {a b : NameSet} (h : ∀ name, name ∈ a.names ↔ name ∈ b.names) :
    a = b := by
  obtain ⟨names, ascending⟩ := a
  obtain ⟨others, ascending'⟩ := b
  obtain rfl : names = others := ascending.eq_of_mem_iff ascending' h
  rfl

theorem NameSet.ofList_congr {names others : List String}
    (h : ∀ name, name ∈ names ↔ name ∈ others) : ofList names = ofList others :=
  eq_of_mem fun name => by rw [mem_ofList, mem_ofList, h]

theorem NameSet.mem_union {a b : NameSet} {name : String} :
    name ∈ (a.union b).names ↔ name ∈ a.names ∨ name ∈ b.names := NameSet.mem_foldl_insert

namespace Typing
open Grammar (run_bind_ok)

/-- What analysis of an expression leaves as it was. -/
structure State.Reads (s s' : State) : Prop where
  scopes : s'.scopes = s.scopes
  nextSymbol : s'.nextSymbol = s.nextSymbol
  tables : s.tables.Sub s'.tables

end Typing

structure Layout.Agrees (L : Layout) (P : Point) (chain : ScopeChain) : Prop where
  library : chain.library = L.library
  native : L.library.Native
  vars : ∀ scope ∈ chain.scopes, ∀ entry ∈ scope.vars, entry.2.symbol ∈ P.visible ∧
    ∃ d, L.declarations[entry.2.symbol]? = some d ∧ d.type = entry.2.type
  functions : ∀ scope ∈ chain.scopes, ∀ f ∈ scope.functions, L.Callable P f f.parameterTypes

/-- A function can be called at a place with what arguments of some types are once literal types are
widened. -/
def Layout.Takes (L : Layout) (P : Point) (f : Function) (types : List Ty) : Prop :=
  ∃ expected, L.Callable P f expected ∧
    List.Forall₂ (fun expected actual => expected.accepts actual = true) expected types

theorem Layout.Callable.mono {L : Layout} {P Q : Point} {f : Function} {types : List Ty}
    (h : L.Callable P f types) (visible : P.visible ⊆ Q.visible) (chain : P.chain <:+ Q.chain) :
    L.Callable Q f types := by
  unfold Callable at h ⊢
  split at h
  · exact h
  · obtain ⟨taken, same, site, listed, declared, seen, around⟩ := h
    exact ⟨taken, same, site, listed, declared, List.Subset.trans seen visible, around.trans chain⟩

theorem Layout.Agrees.mono {L : Layout} {P Q : Point} {chain : ScopeChain} (h : L.Agrees P chain)
    (visible : P.visible ⊆ Q.visible) (around : P.chain <:+ Q.chain) : L.Agrees Q chain :=
  ⟨h.library, h.native, fun scope mem entry there =>
    ⟨visible (h.vars scope mem entry there).1, (h.vars scope mem entry there).2⟩,
    fun scope mem f there => (h.functions scope mem f there).mono visible around⟩

namespace Typing
open Grammar (run_bind_ok)

/-- Whenever a step of analysis succeeds it only reads, and what it finds is as `post` says if the
scopes agree with the point and what is recorded stays. -/
def Learns {α : Type} (L : Layout) (P : Point) (check : Check α) (post : α → Prop) : Prop :=
  ∀ s a s', check.run s = .ok (a, s') → s.Reads s' ∧
    (L.Agrees P s.scopes → s'.tables.Sub L.tables → post a)

section rules
variable {α β : Type} {L : Layout} {P : Point} {check : Check α} {next : α → Check β}
  {mid : α → Prop} {post : β → Prop}

theorem Learns.bind (h : Learns L P check mid)
    (rest : ∀ a, Learns L P (next a) fun b => mid a → post b) :
    Learns L P (check >>= next) post := by
  intro s b s' ran
  obtain ⟨a, t, first, second⟩ := run_bind_ok ran
  obtain ⟨reads, found⟩ := h s a t first
  obtain ⟨reads', found'⟩ := rest a t b s' second
  refine ⟨⟨reads'.scopes.trans reads.scopes, reads'.nextSymbol.trans reads.nextSymbol,
    reads.tables.trans reads'.tables⟩, fun agrees kept => ?_⟩
  exact found' (reads.scopes.symm ▸ agrees) kept (found agrees (reads'.tables.trans kept))

theorem Learns.pure {b : β} (h : post b) : Learns L P (Pure.pure b) post := by
  intro s b s' ran
  cases ran
  exact ⟨⟨rfl, rfl, .refl _⟩, fun _ _ => h⟩

theorem Learns.fail (cause : Cause) (p : Position) : Learns L P (Typing.fail cause p) post := by
  intro s b s' ran
  cases ran

theorem Learns.mono {post : α → Prop} (h : Learns L P check mid)
    (weaker : ∀ a, mid a → post a) : Learns L P check post := by
  intro s a s' ran
  obtain ⟨reads, found⟩ := h s a s' ran
  exact ⟨reads, fun agrees kept => weaker a (found agrees kept)⟩

theorem Learns.fail_bind (cause : Cause) (p : Position) :
    Learns L P (Typing.fail cause p >>= next) post := by
  intro s b s' ran
  obtain ⟨_, _, failed, _⟩ := run_bind_ok ran
  cases failed

end rules

theorem learns_recordSymbol {L : Layout} {P : Point} (mark : Mark) (x : Nat) :
    Learns L P (recordSymbol mark x) fun _ => L.tables.symbols.get? mark.id = some x := by
  intro s a s' ran
  obtain ⟨t, s₁, got, ran⟩ := run_bind_ok ran
  cases got
  split at ran
  · next symbols recorded =>
    cases ran
    exact ⟨⟨rfl, rfl, Table.sub_of_record recorded, .refl _, .refl _⟩, fun _ kept =>
      kept.symbols _ _ (Table.get?_of_record recorded)⟩
  · cases ran

theorem learns_recordFunction {L : Layout} {P : Point} (mark : Mark) (f : Function) :
    Learns L P (recordFunction mark f) fun _ => L.tables.functions.get? mark.id = some f := by
  intro s a s' ran
  obtain ⟨t, s₁, got, ran⟩ := run_bind_ok ran
  cases got
  split at ran
  · next functions recorded =>
    cases ran
    exact ⟨⟨rfl, rfl, .refl _, Table.sub_of_record recorded, .refl _⟩, fun _ kept =>
      kept.functions _ _ (Table.get?_of_record recorded)⟩
  · cases ran

theorem learns_recordOperator {L : Layout} {P : Point} (mark : Mark) (op : Operator) :
    Learns L P (recordOperator mark op) fun _ => L.tables.operators.get? mark.id = some op := by
  intro s a s' ran
  obtain ⟨t, s₁, got, ran⟩ := run_bind_ok ran
  cases got
  split at ran
  · next operators recorded =>
    cases ran
    exact ⟨⟨rfl, rfl, .refl _, .refl _, Table.sub_of_record recorded⟩, fun _ kept =>
      kept.operators _ _ (Table.get?_of_record recorded)⟩
  · cases ran

variable {L : Layout} {P : Point}

/-- A variable that analysis finds can be seen, and its type is the one declared. -/
theorem learns_variableOf (symbol : Symbol) :
    Learns L P (variableOf symbol) fun v => v.symbol ∈ P.visible ∧
      ∃ d, L.declarations[v.symbol]? = some d ∧ d.type = v.type := by
  intro s v s' ran
  obtain ⟨t, s₁, got, ran⟩ := run_bind_ok ran
  cases got
  split at ran
  · next found =>
    cases ran
    refine ⟨⟨rfl, rfl, .refl _⟩, fun agrees _ => ?_⟩
    obtain ⟨scope, mem, held⟩ := List.exists_of_findSome?_eq_some found
    obtain ⟨before, behind, listed, _⟩ := List.lookup_eq_some_iff.1 held
    exact agrees.vars scope (List.mem_of_mem_drop mem) (symbol.name, v) (by simp [listed])
  · cases ran

theorem callable_of_isNative {f : Function} {types : List Ty} (native : f.isNative = true)
    (keeps : L.Trusted → f.parameterTypes = types ∧ f.Sound L.refuses) : L.Callable P f types := by
  unfold Function.isNative at native
  unfold Layout.Callable
  cases body : f.body with
  | native run => exact keeps
  | script decl =>
    rw [body] at native
    cases native

/-- A function that analysis finds can be called with arguments of the types given. -/
theorem takes_of_function? {chain : ScopeChain} (agrees : L.Agrees P chain) {name : String}
    {types : List Ty} {f : Function} (h : chain.function? name types = some f) :
    L.Takes P f types := by
  rcases Option.or_eq_some_iff.1 h with found | ⟨_, found⟩
  · rcases Option.or_eq_some_iff.1 found with found | ⟨_, found⟩
    · obtain ⟨scope, mem, held⟩ := List.exists_of_findSome?_eq_some found
      have matched := List.find?_some held
      simp only [Bool.and_eq_true, beq_iff_eq] at matched
      exact ⟨_, agrees.functions scope mem f (List.mem_of_find?_eq_some held),
        matched.2 ▸ f.takes_self⟩
    · rw [agrees.library] at found
      have native := agrees.native f ⟨name, types, .inl found⟩
      exact ⟨types, callable_of_isNative native fun trusted => trusted.exact found,
        List.forall₂_same.2 fun type _ => Ty.accepts_self type⟩
  · rcases Option.or_eq_some_iff.1 found with found | ⟨_, found⟩
    · obtain ⟨scope, mem, held⟩ := List.exists_of_findSome?_eq_some found
      have matched := List.find?_some held
      simp only [Bool.and_eq_true] at matched
      exact ⟨_, agrees.functions scope mem f (List.mem_of_find?_eq_some held),
        f.takes_of_acceptsWidened matched.2⟩
    · rw [agrees.library] at found
      have native := agrees.native f ⟨name, types, .inr found⟩
      have matched := List.find?_some found
      simp only [Bool.and_eq_true] at matched
      exact ⟨_, callable_of_isNative native fun trusted => ⟨rfl, trusted.widened found⟩,
        f.takes_of_acceptsWidened matched.2⟩

theorem learns_functionOf (mark : Mark) (callee : String) (types : List Ty) :
    Learns L P (functionOf mark callee types) fun f => L.Takes P f types := by
  intro s f s' ran
  obtain ⟨t, s₁, got, ran⟩ := run_bind_ok ran
  cases got
  split at ran
  · next found =>
    cases ran
    exact ⟨⟨rfl, rfl, .refl _⟩, fun agrees _ => takes_of_function? agrees found⟩
  · cases ran

theorem learns_resolveCall (mark : Mark) (callee : String) (types : List Ty) :
    Learns L P (resolveCall mark callee types) fun slot => ∃ f, slot = f.returns ∧
      L.tables.functions.get? mark.id = some f ∧ L.Takes P f types :=
  .bind (learns_functionOf mark callee types) fun f => .bind (learns_recordFunction mark f)
    fun _ => .pure fun recorded found => ⟨f, rfl, recorded, found⟩

theorem learns_refuseEmpty (type : Ty) (e : Expr) :
    Learns L P (refuseEmpty type e) fun _ => type.isPseudo = false := by
  unfold refuseEmpty
  split
  · exact .fail _ _
  · next h => exact .pure (by simpa using h)

theorem learns_commonType (current : Option Ty) (next : Ty) (e : Expr) :
    Learns L P (commonType current next e) fun type => type.accepts next = true ∧
      ∀ old ∈ current, type.accepts old = true := by
  refine .bind (learns_refuseEmpty next e) fun _ => ?_
  split
  · exact .pure fun _ => ⟨Ty.accepts_self next, by simp⟩
  · next members more =>
    refine .pure fun _ => ⟨?_, ?_⟩
    · exact NameSet.subset_iff.2 fun name mem => NameSet.mem_union.2 (.inr mem)
    · rintro old ⟨⟩
      exact NameSet.subset_iff.2 fun name mem => NameSet.mem_union.2 (.inl mem)
  · split
    · next same =>
      subst same
      exact .pure fun _ => ⟨Ty.accepts_self _, by simp⟩
    · exact .fail _ _

theorem learns_chooseOperator (mark : Mark) (choice : Option (Operator × Ty)) (cause : Cause)
    (p : Position) :
    Learns L P (chooseOperator mark choice cause p) fun type => ∃ op, choice = some (op, type) ∧
      L.tables.operators.get? mark.id = some op := by
  unfold chooseOperator
  split
  · next op type => exact .bind (learns_recordOperator mark op) fun _ => .pure fun recorded =>
      ⟨op, rfl, recorded⟩
  · exact .fail _ _

/-- Arguments of types that a function takes are arguments for its parameters. -/
theorem yieldAll_of_takes {es : List Expr} {types : List Ty} {expected : List Ty}
    (h : List.Forall₂ (fun e T => L.Yields P e (some T)) es types)
    (takes : List.Forall₂ (fun expected actual => expected.accepts actual = true) expected types) :
    L.YieldAll P es expected := by
  induction h generalizing expected with
  | nil =>
    cases takes
    exact .nil
  | cons first _ ih =>
    cases takes with
    | cons accepts others => exact .cons first (Ty.acceptsBinding_of_accepts accepts) (ih others)

/-- The one type that all elements of a list can stand for, those before them included. -/
def Gathers (L : Layout) (P : Point) (current : Option Ty) (es : List Expr) (found : Option Ty) :
    Prop :=
  (found = current ∧ es = []) ∨
    ∃ T, found = some T ∧ (∀ old ∈ current, T.accepts old = true) ∧
      L.YieldAll P es (es.map fun _ => T)

/-- The two types that all keys and all values of a map can stand for. -/
def GathersEntries (L : Layout) (P : Point) (key value : Option Ty) (entries : List (Expr × Expr))
    (found : Option Ty × Option Ty) : Prop :=
  (found = (key, value) ∧ entries = []) ∨
    ∃ K V, found = (some K, some V) ∧ (∀ old ∈ key, K.accepts old = true) ∧
      (∀ old ∈ value, V.accepts old = true) ∧
      L.YieldAll P (Machine.entryOperands entries) (entries.flatMap fun _ => [K, V])

theorem Gathers.cons {current : Option Ty} {e : Expr} {es : List Expr} {T U : Ty}
    {found : Option Ty} (first : L.Yields P e (some T))
    (common : U.accepts T = true ∧ ∀ old ∈ current, U.accepts old = true)
    (rest : Gathers L P (some U) es found) : Gathers L P current (e :: es) found := by
  obtain ⟨rfl, rfl⟩ | ⟨V, rfl, wider, others⟩ := rest
  · exact .inr ⟨U, rfl, common.2, .cons first (Ty.acceptsBinding_of_accepts common.1) .nil⟩
  · have accepts : V.accepts T = true := Ty.accepts_trans (wider U rfl) common.1
    exact .inr ⟨V, rfl, fun old mem => Ty.accepts_trans (wider U rfl) (common.2 old mem),
      .cons first (Ty.acceptsBinding_of_accepts accepts) others⟩

theorem GathersEntries.cons {key value : Option Ty} {k v : Expr} {es : List (Expr × Expr)}
    {T T' U U' : Ty} {found : Option Ty × Option Ty} (first : L.Yields P k (some T))
    (second : L.Yields P v (some U))
    (keys : T'.accepts T = true ∧ ∀ old ∈ key, T'.accepts old = true)
    (values : U'.accepts U = true ∧ ∀ old ∈ value, U'.accepts old = true)
    (rest : GathersEntries L P (some T') (some U') es found) :
    GathersEntries L P key value ((k, v) :: es) found := by
  obtain ⟨rfl, rfl⟩ | ⟨K, V, rfl, wider, wider', others⟩ := rest
  · exact .inr ⟨T', U', rfl, keys.2, values.2, .cons first (Ty.acceptsBinding_of_accepts keys.1)
      (.cons second (Ty.acceptsBinding_of_accepts values.1) .nil)⟩
  · have acceptsKey : K.accepts T = true := Ty.accepts_trans (wider T' rfl) keys.1
    have acceptsValue : V.accepts U = true := Ty.accepts_trans (wider' U' rfl) values.1
    exact .inr ⟨K, V, rfl, fun old mem => Ty.accepts_trans (wider T' rfl) (keys.2 old mem),
      fun old mem => Ty.accepts_trans (wider' U' rfl) (values.2 old mem),
      .cons first (Ty.acceptsBinding_of_accepts acceptsKey)
        (.cons second (Ty.acceptsBinding_of_accepts acceptsValue) others)⟩

mutual

/-- An expression yields the type that analysis finds for it. -/
theorem learns_expr (L : Layout) (P : Point) :
    ∀ e, Learns L P (expr e) fun T => L.Yields P e (some T)
  | .number mark n => .pure (.number mark n)
  | .real mark x => .pure (.real mark x)
  | .logic mark b => .pure (.logic mark b)
  | .string mark s => .pure (.string mark s)
  | .material mark space name => .pure (.material mark space name)
  | .member mark name => .pure (.member mark name)
  | .interpolation mark parts =>
    .bind (learns_embeddedParts L P parts) fun _ => .pure fun ⟨_, embedded⟩ =>
      .interpolation embedded
  | .symbol s => by
    refine .bind (learns_variableOf s) fun v => .bind (learns_recordSymbol s.mark v.symbol)
      fun _ => .pure ?_
    rintro recorded ⟨seen, d, declared, type⟩
    exact type ▸ .symbol recorded seen declared
  | .binary mark left token right => by
    refine .bind (learns_expr L P left) fun T => .bind (learns_refuseEmpty T left) fun _ =>
      .bind (learns_expr L P right) fun U => .bind (learns_refuseEmpty U right) fun _ =>
      (learns_chooseOperator mark _ _ _).mono ?_
    rintro R ⟨op, chosen, recorded⟩ _ second _ first
    exact .binary first second recorded (Operator.joins_of_binary? chosen)
  | .unary mark token operand => by
    refine .bind (learns_expr L P operand) fun T => .bind (learns_refuseEmpty T operand) fun _ =>
      (learns_chooseOperator mark _ _ _).mono ?_
    rintro R ⟨op, chosen, recorded⟩ _ inner
    exact .unary inner recorded (Operator.turns_of_unary? chosen)
  | .index mark collection place => by
    refine .bind (learns_expr L P collection) fun T =>
      .bind (learns_refuseEmpty T collection) fun _ => .bind (learns_expr L P place) fun U =>
      .bind (learns_refuseEmpty U place) fun _ => (learns_chooseOperator mark _ _ _).mono ?_
    rintro R ⟨op, chosen, recorded⟩ _ second _ first
    exact .index first second recorded (Operator.joins_of_index? chosen)
  | .call mark callee arguments => by
    refine .bind (learns_argumentTypes L P callee arguments) fun types =>
      .bind (learns_resolveCall mark callee types) fun slot => ?_
    split
    · refine .pure ?_
      rintro ⟨f, returns, recorded, _, callable, takes⟩ given
      exact returns ▸ .call recorded callable (yieldAll_of_takes given takes)
    · exact .fail _ _
  | .list mark elements => by
    refine .bind (learns_elementType L P none elements) fun found => ?_
    split
    · refine .pure ?_
      rintro (⟨none, _⟩ | ⟨T, same, _, all⟩)
      · cases none
      · cases same
        exact .list all
    · refine .pure ?_
      rintro (⟨_, rfl⟩ | ⟨T, same, _⟩)
      · exact .emptyList mark
      · cases same
  | .map mark entries => by
    refine .bind (learns_entryTypes L P none none entries) fun found => ?_
    split
    · refine .pure ?_
      rintro (⟨none, _⟩ | ⟨K, V, same, _, _, all⟩)
      · cases none
      · cases same
        exact .map all
    · next other =>
      refine .pure ?_
      rintro (⟨_, rfl⟩ | ⟨K, V, same, _⟩)
      · exact .emptyMap mark
      · exact (other K V same).elim

theorem learns_embeddedParts (L : Layout) (P : Point) :
    ∀ parts, Learns L P (embeddedParts parts) fun _ =>
      ∃ types, L.YieldAll P (Part.embedded parts) types
  | [] => .pure ⟨[], .nil⟩
  | .text _ :: rest => learns_embeddedParts L P rest
  | .embed e :: rest => by
    refine .bind (learns_expr L P e) fun T => ?_
    dsimp only
    split
    · exact .fail_bind _ _
    · refine (learns_embeddedParts L P rest).mono ?_
      rintro _ ⟨types, others⟩ first
      exact ⟨T :: types, .cons first (Ty.acceptsBinding_of_accepts T.accepts_self) others⟩

theorem learns_argumentTypes (L : Layout) (P : Point) (callee : String) :
    ∀ es, Learns L P (argumentTypes callee es) fun types =>
      List.Forall₂ (fun e T => L.Yields P e (some T)) es types
  | [] => .pure .nil
  | e :: rest => by
    refine .bind (learns_expr L P e) fun T => ?_
    dsimp only
    split
    · exact .fail_bind _ _
    · exact .bind (learns_argumentTypes L P callee rest) fun types => .pure fun others first =>
        .cons first others

theorem learns_elementType (L : Layout) (P : Point) :
    ∀ current es, Learns L P (elementType current es) (Gathers L P current es)
  | _, [] => .pure (.inl ⟨rfl, rfl⟩)
  | current, e :: rest =>
    .bind (learns_expr L P e) fun T => .bind (learns_commonType current T e) fun U =>
      (learns_elementType L P (some U) rest).mono fun _ others common first =>
        .cons first common others

theorem learns_entryTypes (L : Layout) (P : Point) :
    ∀ key value entries,
      Learns L P (entryTypes key value entries) (GathersEntries L P key value entries)
  | _, _, [] => .pure (.inl ⟨rfl, rfl⟩)
  | key, value, (k, v) :: rest =>
    .bind (learns_expr L P k) fun T => .bind (learns_commonType key T k) fun T' =>
      .bind (learns_expr L P v) fun U => .bind (learns_commonType value U v) fun U' =>
        (learns_entryTypes L P (some T') (some U') rest).mono
          fun _ others values second keys first => .cons first second keys values others

end

theorem learns_loneExpr (e : Expr) :
    Learns L P (loneExpr e) fun _ => ∃ slot, L.Yields P e slot := by
  unfold loneExpr
  split
  · next mark callee arguments =>
    refine .bind (learns_argumentTypes L P callee arguments) fun types =>
      .bind (learns_resolveCall mark callee types) fun slot => .pure ?_
    rintro ⟨f, _, recorded, _, callable, takes⟩ given
    exact ⟨f.returns, .call recorded callable (yieldAll_of_takes given takes)⟩
  · exact .bind (learns_expr L P _) fun T => .pure fun inner => ⟨some T, inner⟩

theorem learns_condition (statement : String) (expected : Ty) (e : Expr) :
    Learns L P (condition statement expected e) fun _ => L.Yields P e (some expected) := by
  refine .bind (learns_expr L P e) fun T => ?_
  split
  · exact .fail _ _
  · next same =>
    cases not_not.1 same
    exact .pure id

theorem learns_lift {α : Type} (result : Except Error α) :
    Learns L P (liftM result) fun a => result = .ok a := by
  intro s a s' ran
  cases result with
  | error e => cases ran
  | ok found =>
    cases ran
    exact ⟨⟨rfl, rfl, .refl _⟩, fun _ _ => rfl⟩

/-- What analysis of a statement does to the state: it changes the innermost scope, records more and
counts the symbols that are declared. -/
structure State.Grows (s s' : State) (count : Nat) : Prop where
  inner : s'.scopes.scopes ≠ []
  outer : s'.scopes.pop = s.scopes.pop
  nextSymbol : s'.nextSymbol = s.nextSymbol + count
  tables : s.tables.Sub s'.tables

end Typing

def Layout.Counts (L : Layout) (first : Nat) (declarations : List Declaration) : Prop :=
  ∀ k d, declarations[k]? = some d → L.tables.symbols.get? d.node = some (first + k)

theorem Layout.Counts.append {L : Layout} {first : Nat} {ds more : List Declaration}
    (h : L.Counts first ds) (next : L.Counts (first + ds.length) more) :
    L.Counts first (ds ++ more) := by
  intro k d found
  rcases Nat.lt_or_ge k ds.length with before | behind
  · rw [List.getElem?_append_left before] at found
    exact h k d found
  · rw [List.getElem?_append_right behind] at found
    have recorded := next _ d found
    rwa [Nat.add_assoc, Nat.add_sub_cancel' behind] at recorded

namespace Typing
open Grammar (run_bind_ok)

/-- Whenever analysis of a part of a script succeeds, it grows the state by `ds`; and if the scopes
agree with `P` before it, and `ds` are the declarations that come next, then the scopes agree with
`Q` behind it, and `post` holds. -/
def Checks (L : Layout) (P : Point) (check : Check Unit) (ds : List Declaration) (Q : Point)
    (post : Prop) : Prop :=
  ∀ s s', check.run s = .ok ((), s') → s.scopes.scopes ≠ [] → s.Grows s' ds.length ∧
    (L.Agrees P s.scopes → L.Owned P → s'.tables.Sub L.tables →
      ds <+: L.declarations.drop s.nextSymbol →
        L.Agrees Q s'.scopes ∧ L.Owned Q ∧ L.Counts s.nextSymbol ds ∧ post)

section rules
variable {L : Layout} {P Q R : Point} {ds more : List Declaration} {post next : Prop}

theorem Learns.checks {check : Check Unit} (h : Learns L P check fun _ => post) :
    Checks L P check [] P post := by
  intro s s' ran inner
  obtain ⟨reads, found⟩ := h s () s' ran
  refine ⟨⟨reads.scopes ▸ inner, by rw [reads.scopes], reads.nextSymbol, reads.tables⟩, ?_⟩
  intro agrees owned kept _
  exact ⟨reads.scopes.symm ▸ agrees, owned, by simp [Layout.Counts], found agrees kept⟩

theorem Learns.then {α : Type} {check : Check α} {mid : α → Prop} {rest : α → Check Unit}
    (h : Learns L P check mid) (checks : ∀ a, Checks L P (rest a) ds Q (mid a → post)) :
    Checks L P (check >>= rest) ds Q post := by
  intro s s' ran inner
  obtain ⟨a, t, first, second⟩ := run_bind_ok ran
  obtain ⟨reads, found⟩ := h s a t first
  obtain ⟨grows, result⟩ := checks a t s' second (reads.scopes.symm ▸ inner)
  rw [reads.nextSymbol] at result
  refine ⟨⟨grows.inner, by rw [grows.outer, reads.scopes], by rw [grows.nextSymbol, reads.nextSymbol],
    reads.tables.trans grows.tables⟩, fun agrees owned kept declared => ?_⟩
  obtain ⟨agrees', owned', counts, holds⟩ := result (reads.scopes.symm ▸ agrees) owned kept declared
  exact ⟨agrees', owned', counts, holds (found agrees (grows.tables.trans kept))⟩

theorem Checks.seq {check rest : Check Unit} (h : Checks L P check ds Q post)
    (others : Checks L Q rest more R next) :
    Checks L P (check >>= fun _ => rest) (ds ++ more) R (post ∧ next) := by
  intro s s' ran inner
  obtain ⟨_, t, first, second⟩ := run_bind_ok ran
  obtain ⟨grows, result⟩ := h s t first inner
  obtain ⟨grows', result'⟩ := others t s' second grows.inner
  rw [grows.nextSymbol] at result'
  refine ⟨⟨grows'.inner, grows'.outer.trans grows.outer, ?_, grows.tables.trans grows'.tables⟩, ?_⟩
  · rw [grows'.nextSymbol, grows.nextSymbol, List.length_append, Nat.add_assoc]
  · intro agrees owned kept declared
    have before : ds <+: L.declarations.drop s.nextSymbol :=
      (List.prefix_append ds more).trans declared
    have behind : more <+: L.declarations.drop (s.nextSymbol + ds.length) := by
      obtain ⟨last, same⟩ := declared
      refine ⟨last, ?_⟩
      rw [← List.drop_drop, ← same, List.append_assoc, List.drop_left]
    obtain ⟨agrees₁, owned₁, counts, holds⟩ :=
      result agrees owned (grows'.tables.trans kept) before
    obtain ⟨agrees₂, owned₂, counts', holds'⟩ := result' agrees₁ owned₁ kept behind
    exact ⟨agrees₂, owned₂, counts.append counts', holds, holds'⟩

theorem Checks.fail_bind {α : Type} {rest : α → Check Unit} (cause : Cause) (p : Position) :
    Checks L P (Typing.fail cause p >>= rest) ds Q post := by
  intro s s' ran _
  obtain ⟨_, _, failed, _⟩ := run_bind_ok ran
  cases failed

theorem Checks.owned {check : Check Unit} (h : Checks L P check ds Q post) :
    Checks L P check ds Q (post ∧ L.Owned P) := by
  intro s s' ran inner
  obtain ⟨grows, result⟩ := h s s' ran inner
  refine ⟨grows, fun agrees owned kept declared => ?_⟩
  obtain ⟨agrees', owned', counts, holds⟩ := result agrees owned kept declared
  exact ⟨agrees', owned', counts, holds, owned⟩

theorem Checks.mono {check : Check Unit} (h : Checks L P check ds Q post) (weaker : post → next) :
    Checks L P check ds Q next := by
  intro s s' ran inner
  obtain ⟨grows, result⟩ := h s s' ran inner
  refine ⟨grows, fun agrees owned kept declared => ?_⟩
  obtain ⟨agrees', owned', counts, holds⟩ := result agrees owned kept declared
  exact ⟨agrees', owned', counts, weaker holds⟩

/-- The order in which symbols are listed at a point does not matter. -/
theorem Checks.relist {check : Check Unit} (h : Checks L P check ds Q post)
    (chain : R.chain = Q.chain) (same : ∀ x, x ∈ R.visible ↔ x ∈ Q.visible) :
    Checks L P check ds R post := by
  intro s s' ran inner
  obtain ⟨grows, result⟩ := h s s' ran inner
  refine ⟨grows, fun agrees owned kept declared => ?_⟩
  obtain ⟨agrees', owned', counts, holds⟩ := result agrees owned kept declared
  have relisted : L.Owned R := by
    intro x seen
    rw [chain]
    exact owned' x ((same x).1 seen)
  exact ⟨agrees'.mono (fun x seen => (same x).2 seen) (chain ▸ List.suffix_refl _), relisted, counts,
    holds⟩

/-- A scope is opened for a part of a script and closed behind it. -/
def inScope (body : Check Unit) : Check Unit := do
  openScope
  body
  closeScope

/-- What is declared in a scope of its own cannot be seen behind it. -/
theorem Checks.inScope {body : Check Unit} (h : Checks L Q body ds R post)
    (visible : Q.visible = P.visible) (chain : P.chain <:+ Q.chain) :
    Checks L P (inScope body) ds P post := by
  intro s s' ran inner
  obtain ⟨_, s₁, opened, ran⟩ := run_bind_ok ran
  cases opened
  obtain ⟨_, s₂, checked, closed⟩ := run_bind_ok ran
  obtain ⟨grows, result⟩ := h _ s₂ checked (by simp [ScopeChain.push])
  cases closed
  have restored : s₂.scopes.pop = s.scopes := grows.outer
  refine ⟨⟨?_, congrArg ScopeChain.pop restored, grows.nextSymbol, grows.tables⟩, ?_⟩
  · show s₂.scopes.pop.scopes ≠ []
    rw [restored]
    exact inner
  intro agrees owned kept declared
  have agrees' : L.Agrees Q s.scopes := agrees.mono (by rw [visible]; exact List.Subset.refl _) chain
  have pushed : L.Agrees Q s.scopes.push := by
    refine ⟨agrees'.library, agrees'.native, ?_, ?_⟩
    · intro scope mem entry there
      rcases List.mem_cons.1 mem with rfl | mem
      · cases there
      · exact agrees'.vars scope mem entry there
    · intro scope mem f there
      rcases List.mem_cons.1 mem with rfl | mem
      · cases there
      · exact agrees'.functions scope mem f there
  have owned' : L.Owned Q := by
    intro x seen
    obtain ⟨d, found, owner⟩ := owned x (visible ▸ seen)
    exact ⟨d, found, fun f same => chain.subset (owner f same)⟩
  obtain ⟨_, _, counts, holds⟩ := result pushed owned' kept declared
  have agrees_restored : L.Agrees P s₂.scopes.pop := restored.symm ▸ agrees
  exact ⟨agrees_restored, owned, counts, holds⟩

end rules

end Typing

theorem ScopeChain.modify?_eq_some {chain next : ScopeChain} {change : Scope → Option Scope}
    (inner : chain.scopes ≠ []) (h : chain.modify? change = some next) :
    ∃ scope outer new, chain.scopes = scope :: outer ∧ change scope = some new ∧
      next = ⟨new :: outer, chain.library⟩ := by
  unfold modify? at h
  split at h
  · next none => exact (inner none).elim
  · next scope outer some =>
    obtain ⟨new, changed, rfl⟩ := Option.map_eq_some_iff.1 h
    exact ⟨scope, outer, new, some, changed, rfl⟩

namespace Layout
variable {L : Layout} {P : Point} {chain next : ScopeChain}

theorem Agrees.addVariable (agrees : L.Agrees P chain) (inner : chain.scopes ≠ []) {name : String}
    {v : Variable} {d : Declaration} (h : chain.addVariable? name v = some next)
    (seen : v.symbol ∈ P.visible) (declared : L.declarations[v.symbol]? = some d)
    (type : d.type = v.type) : L.Agrees P next := by
  obtain ⟨scope, outer, new, same, added, rfl⟩ := ScopeChain.modify?_eq_some inner h
  unfold Scope.addVariable? at added
  split at added
  · cases added
  · cases added
    refine ⟨agrees.library, agrees.native, ?_, ?_⟩
    · intro other mem entry there
      rcases List.mem_cons.1 mem with rfl | mem
      · rcases List.mem_append.1 there with old | added
        · exact agrees.vars scope (by simp [same]) entry old
        · cases List.mem_singleton.1 added
          exact ⟨seen, d, declared, type⟩
      · exact agrees.vars other (by simp [same, mem]) entry there
    · intro other mem f there
      rcases List.mem_cons.1 mem with rfl | mem
      · exact agrees.functions scope (by simp [same]) f there
      · exact agrees.functions other (by simp [same, mem]) f there

theorem Agrees.addFunction (agrees : L.Agrees P chain) (inner : chain.scopes ≠ []) {f : Function}
    (h : chain.addFunction? f = some next) (callable : L.Callable P f f.parameterTypes) :
    L.Agrees P next := by
  obtain ⟨scope, outer, new, same, added, rfl⟩ := ScopeChain.modify?_eq_some inner h
  unfold Scope.addFunction? at added
  split at added
  · cases added
  · cases added
    refine ⟨agrees.library, agrees.native, ?_, ?_⟩
    · intro other mem entry there
      rcases List.mem_cons.1 mem with rfl | mem
      · exact agrees.vars scope (by simp [same]) entry there
      · exact agrees.vars other (by simp [same, mem]) entry there
    · intro other mem g there
      rcases List.mem_cons.1 mem with rfl | mem
      · rcases List.mem_append.1 there with old | added
        · exact agrees.functions scope (by simp [same]) g old
        · cases List.mem_singleton.1 added
          exact callable
      · exact agrees.functions other (by simp [same, mem]) g there

end Layout

theorem ScopeChain.pop_of_modify? {chain next : ScopeChain} {change : Scope → Option Scope}
    (inner : chain.scopes ≠ []) (h : chain.modify? change = some next) :
    next.scopes ≠ [] ∧ next.pop = chain.pop := by
  obtain ⟨scope, outer, new, same, _, rfl⟩ := modify?_eq_some inner h
  exact ⟨by simp, by simp [pop, same]⟩

namespace Typing
open Grammar (run_bind_ok)
variable {L : Layout} {P : Point}

/-- A variable gets the next symbol, which is the place of its declaration among all. -/
theorem checks_declareVariable (mark : Mark) (name : String) (type : Ty) (taken : Cause) :
    Checks L P (declareVariable mark name type taken) [⟨mark.id, type, P.function⟩]
      (P.see (L.tables.symbols.get? mark.id).toList)
      (∃ x, L.tables.symbols.get? mark.id = some x ∧
        L.declarations[x]? = some ⟨mark.id, type, P.function⟩) := by
  intro s s' ran inner
  obtain ⟨t, s₁, got, ran⟩ := run_bind_ok ran
  cases got
  split at ran
  · cases ran
  · next scopes added =>
    obtain ⟨_, s₂, changed, ran⟩ := run_bind_ok ran
    cases changed
    obtain ⟨reads, recorded⟩ :=
      learns_recordSymbol (L := L) (P := P.see [s.nextSymbol]) mark s.nextSymbol _ _ _ ran
    obtain ⟨inner', outer⟩ := ScopeChain.pop_of_modify? inner added
    refine ⟨⟨reads.scopes ▸ inner', by rw [reads.scopes, outer], reads.nextSymbol, reads.tables⟩, ?_⟩
    intro agrees owned kept declared
    have found : L.declarations[s.nextSymbol]? = some ⟨mark.id, type, P.function⟩ := by
      obtain ⟨last, same⟩ := declared
      rw [← Nat.add_zero s.nextSymbol, ← List.getElem?_drop, ← same]
      rfl
    have wider : L.Agrees (P.see [s.nextSymbol]) s.scopes :=
      agrees.mono (List.subset_append_right _ _) (List.suffix_refl _)
    have agrees' := wider.addVariable inner added (by simp [Point.see]) found rfl
    have symbol := recorded agrees' kept
    rw [symbol]
    refine ⟨reads.scopes ▸ agrees', ?_, ?_, s.nextSymbol, rfl, found⟩
    · intro x seen
      rcases List.mem_append.1 seen with new | old
      · cases List.mem_singleton.1 new
        exact ⟨_, found, fun f owner => List.mem_of_mem_head? owner⟩
      · exact owned x old
    · intro k d listed
      cases k with
      | zero =>
        cases listed
        exact symbol
      | succ k => simp at listed

theorem checks_parameters {function : Nat} (ps : List Parameter) {P : Point}
    (inside : P.function = some function) :
    Checks L P (parameters ps) (ps.map (Parameter.declaration function))
      (P.see (ps.filterMap fun p => L.tables.symbols.get? p.mark.id))
      (∀ p ∈ ps, ∃ x, L.tables.symbols.get? p.mark.id = some x ∧
        L.declarations[x]? = some (p.declaration function)) := by
  induction ps generalizing P with
  | nil => exact (Learns.pure (by simp)).checks
  | cons p rest ih =>
    have first := checks_declareVariable (L := L) (P := P) p.mark p.name p.type
      (.duplicateParameter p.name)
    have others := ih (P := P.see (L.tables.symbols.get? p.mark.id).toList) inside
    rw [inside] at first
    refine Checks.mono (Checks.relist (first.seq others) ?_ fun x => ?_) fun ⟨here, there⟩ => ?_
    · rfl
    · simp only [Point.see, List.filterMap_cons]
      cases L.tables.symbols.get? p.mark.id with
      | none => simp
      | some y => simpa using or_left_comm
    · exact List.forall_mem_cons.2 ⟨here, there⟩

/-- A function can be called from where it is declared on. -/
theorem checks_declareFunction {decl : FunctionDecl Stmt} (listed : ⟨decl, P⟩ ∈ L.sites) :
    Checks L P (declareFunction decl) [] P True := by
  intro s s' ran inner
  obtain ⟨t, s₁, got, ran⟩ := run_bind_ok ran
  cases got
  split at ran
  · cases ran
  · next scopes added =>
    cases ran
    obtain ⟨inner', outer⟩ := ScopeChain.pop_of_modify? inner added
    refine ⟨⟨inner', outer, rfl, .refl _⟩, fun agrees owned _ _ => ?_⟩
    have callable : L.Callable P (.ofDecl decl) (Function.ofDecl decl).parameterTypes :=
      ⟨rfl, rfl, _, listed, rfl, List.Subset.refl _, List.suffix_refl _⟩
    exact ⟨agrees.addFunction inner added callable, owned, by simp [Layout.Counts], trivial⟩

theorem checks_declaration (mark : Mark) (name : String) (type : Ty) (value : Expr) :
    Checks L P (declaration mark name type value) [⟨mark.id, type, P.function⟩]
      (P.after L.tables (.declare mark name type value))
      (L.Fits P (.declare mark name type value)) := by
  refine (learns_expr L P value).then fun T => ?_
  dsimp only
  split
  · exact .fail_bind _ _
  · next accepts =>
    refine (checks_declareVariable mark name type _).mono ?_
    rintro ⟨x, recorded, declared⟩ inner
    exact .declare recorded declared inner (by simpa using accepts)

theorem learns_assignment (mark : Mark) (target : Symbol) (token : Token) (value : Expr) :
    Learns L P (assignment mark target token value) fun _ =>
      L.Fits P (.assign mark target token value) := by
  refine .bind (learns_variableOf target) fun v => .bind (learns_expr L P value) fun T => ?_
  have record : ∀ post : Prop, (L.tables.symbols.get? target.mark.id = some v.symbol → post) →
      Learns L P (recordSymbol target.mark v.symbol) fun _ => post := fun post h =>
    (learns_recordSymbol target.mark v.symbol).mono fun _ => h
  dsimp only
  split
  · next plain =>
    split
    · exact .fail_bind _ _
    · next accepts =>
      refine record _ ?_
      rintro recorded inner ⟨seen, d, declared, type⟩
      have accepts : d.type.acceptsBinding T = true := by
        rw [type]
        simpa using accepts
      exact .assign plain recorded seen declared inner accepts
  · next compound =>
    split
    · next op chosen =>
      refine .bind (learns_recordOperator mark op) fun _ => record _ ?_
      rintro recorded operator inner ⟨seen, d, declared, type⟩
      have joins := Operator.joins_of_compound? chosen
      rw [← type] at joins
      exact .compute compound recorded seen declared inner operator joins
    · exact .fail_bind _ _

structure Surroundings.Matches (here : Surroundings) (P : Point) : Prop where
  function : here.function.map Prod.snd = P.result
  inLoop : here.inLoop = P.around.isSome
  kept : ∀ seen ∈ P.around, seen ⊆ P.visible

theorem Surroundings.Matches.loop {here : Surroundings} (h : here.Matches P) :
    here.loop.Matches P.loop := by
  refine ⟨h.function, rfl, ?_⟩
  rintro seen ⟨⟩
  exact List.Subset.refl _

theorem Surroundings.Matches.after {here : Surroundings} (h : here.Matches P) (tables : Tables)
    (s : Stmt) : here.Matches (P.after tables s) := by
  refine ⟨by rw [Point.result_after, h.function], by rw [Point.around_after, h.inLoop], ?_⟩
  rw [Point.around_after]
  exact fun seen around => List.Subset.trans (h.kept seen around) (P.visible_after tables s)

theorem learns_returns {here : Surroundings} (h : here.Matches P) (mark : Mark)
    (value : Option Expr) :
    Learns L P (returns here mark value) fun _ => L.Fits P (.ret mark value) := by
  have result := h.function
  unfold returns
  split
  · exact .fail _ _
  · next name expected function =>
    rw [function] at result
    split
    · exact .pure (.bareRet result.symm)
    · exact .fail _ _
    · exact .fail _ _
    · next e R =>
      refine .bind (learns_expr L P e) fun T => ?_
      split
      · exact .fail _ _
      · next accepts =>
        exact .pure fun inner => .ret result.symm inner (by simpa using accepts)

theorem learns_insideLoop {here : Surroundings} (h : here.Matches P) (mark : Mark)
    (statement : String) :
    Learns L P (insideLoop here mark statement) fun _ =>
      ∃ seen, P.around = some seen ∧ seen ⊆ P.visible := by
  unfold insideLoop
  rw [h.inLoop]
  split
  · exact .fail _ _
  · next inside =>
    obtain ⟨seen, around⟩ := Option.ne_none_iff_exists'.1 (by simpa using inside)
    exact .pure ⟨seen, around, h.kept seen around⟩

end Typing

namespace Flow
open CursorScript.Stmt (anyReturns otherReturns)

mutual

/-- In the body of a function only `return` ends a statement early. -/
theorem returns_of_endsEarly : ∀ (s : Stmt) (b : Bool), endsEarly .function s = .ok b → s.returns = b
  | .ret .., _, h => Except.ok.inj h
  | .brk _, _, h => Except.ok.inj h
  | .cont _, _, h => Except.ok.inj h
  | .block ⟨_, body⟩, b, h => anyReturns_of_sequenceEnds body b h
  | .branch _ _ ⟨_, body⟩ other, b, h => by
    simp only [endsEarly, bind, Except.bind] at h
    cases first : sequenceEnds .function body with
    | error e =>
      rw [first] at h
      cases h
    | ok one =>
      cases second : otherEnds .function other with
      | error e =>
        rw [first, second] at h
        cases h
      | ok two =>
        rw [first, second] at h
        cases h
        rw [Stmt.returns, anyReturns_of_sequenceEnds body one first,
          otherReturns_of_otherEnds other two second]
  | .expression .., _, h => Except.ok.inj h
  | .declare .., _, h => Except.ok.inj h
  | .assign .., _, h => Except.ok.inj h
  | .whileLoop .., _, h => Except.ok.inj h
  | .repeatLoop .., _, h => Except.ok.inj h
  | .function _, _, h => Except.ok.inj h

theorem otherReturns_of_otherEnds : ∀ (other : Option Stmt) (b : Bool),
    otherEnds .function other = .ok b → otherReturns other = b
  | none, _, h => Except.ok.inj h
  | some s, b, h => returns_of_endsEarly s b h

theorem anyReturns_of_sequenceEnds : ∀ (body : List Stmt) (b : Bool),
    sequenceEnds .function body = .ok b → anyReturns body = b
  | [], _, h => Except.ok.inj h
  | [s], b, h => by
    simp only [sequenceEnds, bind, Except.bind] at h
    cases ended : endsEarly .function s with
    | error e =>
      rw [ended] at h
      cases h
    | ok one =>
      rw [ended] at h
      cases h
      simp [anyReturns, returns_of_endsEarly s b ended]
  | s :: next :: rest, b, h => by
    rw [sequenceEnds] at h
    cases ended : endsEarly .function s with
    | error e =>
      rw [ended] at h
      cases h
    | ok one =>
      rw [ended] at h
      cases one with
      | true => cases h
      | false =>
        have others := anyReturns_of_sequenceEnds (next :: rest) b h
        rw [anyReturns, returns_of_endsEarly s false ended, others]
        rfl

end

/-- A function with a return type that passes the check is left by `return` only. -/
theorem anyReturns_of_checkFunction {decl : FunctionDecl Stmt} (h : checkFunction decl = .ok ())
    (typed : decl.returns.isSome = true) : anyReturns decl.body.body = true := by
  simp only [checkFunction, bind, Except.bind] at h
  cases ended : sequenceEnds .function decl.body.body with
  | error e =>
    rw [ended] at h
    cases h
  | ok b =>
    rw [ended] at h
    rw [anyReturns_of_sequenceEnds _ b ended]
    cases b with
    | true => rfl
    | false => simp [typed] at h

end Flow

namespace Typing

/-- Identities that stay in order when some are left out, above which are the functions around. -/
theorem ordered_of_part {ids more chain before behind : List Nat}
    (h : (ids ++ chain).Pairwise (· < ·)) (split : ids = before ++ more ++ behind) :
    (more ++ chain).Pairwise (· < ·) := by
  have sub : more.Sublist ids := by
    rw [split]
    exact (List.infix_append before more behind).sublist
  exact h.sublist (sub.append (List.Sublist.refl chain))

/-- What is shown of a statement: it fits, and so do the bodies of the functions in it. -/
def Shown (L : Layout) (P : Point) (s : Stmt) : Prop :=
  L.Fits P s ∧ ∀ site ∈ s.sites L.tables P, L.Sound site

def ShownAll (L : Layout) (P : Point) (body : List Stmt) : Prop :=
  L.FitAll P body ∧ ∀ site ∈ Stmt.sitesOfAll L.tables P body, L.Sound site

theorem stmt_branch (here : Surroundings) (mark inner : Mark) (test : Expr) (body : List Stmt)
    (other : Option Stmt) :
    stmt here (.branch mark test ⟨inner, body⟩ other) = (do
      condition "if" .logic test
      inScope (stmts here body)
      otherStmt here other) := by
  simp only [stmt, inScope, bind_assoc]

theorem stmt_function (here : Surroundings) (decl : FunctionDecl Stmt) :
    stmt here (.function decl) = (do
      declareFunction decl
      liftM (Flow.checkFunction decl)
      inScope do
        parameters decl.parameters
        stmts (.ofDecl decl) decl.body.body) := by
  simp only [stmt, inScope, bind_assoc]

mutual

/-- A statement that analysis accepts fits the tables. -/
theorem checks_stmt (L : Layout) :
    ∀ (s : Stmt) (here : Surroundings) (P : Point), here.Matches P → s.shaped = true →
      (s.ids ++ P.chain).Pairwise (· < ·) → s.sites L.tables P ⊆ L.sites →
      Checks L P (stmt here s) (s.declarations P.function) (P.after L.tables s) (Shown L P s)
  | .block ⟨mark, body⟩, here, P, matched, shaped, ordered, listed => by
    have inner := checks_stmts L body here P matched shaped
      (@ordered_of_part _ _ _ [] _ ordered rfl) listed
    exact (inner.inScope rfl (List.suffix_refl _)).mono fun ⟨fits, sites⟩ => ⟨.block fits, sites⟩
  | .expression mark e, _, P, _, _, _, _ =>
    ((learns_loneExpr e).mono fun _ ⟨_, inner⟩ => ⟨.expression inner, by simp [Stmt.sites]⟩).checks
  | .declare mark name type value, _, P, _, _, _, _ =>
    (checks_declaration mark name type value).mono fun fits => ⟨fits, by simp [Stmt.sites]⟩
  | .assign mark target token value, _, P, _, _, _, _ =>
    ((learns_assignment mark target token value).mono fun _ fits =>
      ⟨fits, by simp [Stmt.sites]⟩).checks
  | .branch mark test ⟨inner, body⟩ other, here, P, matched, shaped, ordered, listed => by
    obtain ⟨shapedBody, shapedOther⟩ := Bool.and_eq_true_iff.1 shaped
    have first := checks_stmts L body here P matched shapedBody
      (@ordered_of_part _ _ _ test.ids _ ordered (by simp [Stmt.ids]; rfl))
      (List.append_subset.1 listed).1
    have second := checks_otherStmt L other here P matched shapedOther
      (@ordered_of_part _ _ _ (test.ids ++ (Stmt.idsOfAll body ++ [inner.id])) _ ordered rfl)
      (List.append_subset.1 listed).2
    rw [stmt_branch]
    refine (learns_condition "if" .logic test).then fun _ =>
      ((first.inScope rfl (List.suffix_refl _)).seq second).mono ?_
    rintro ⟨⟨fits, sites⟩, otherwise, others⟩ condition
    exact ⟨.branch condition fits otherwise, List.forall_mem_append.2 ⟨sites, others⟩⟩
  | .whileLoop mark test ⟨inner, body⟩, here, P, matched, shaped, ordered, listed => by
    have rounds := checks_stmts L body here.loop P.loop matched.loop shaped
      (@ordered_of_part _ _ _ test.ids _ ordered (by simp [Stmt.ids]; rfl)) listed
    have closed : Checks L P (inScope (stmts here.loop body)) _ P _ :=
      rounds.inScope rfl (List.suffix_refl _)
    refine (learns_condition "while" .logic test).then fun _ => (learns_lift _).then fun _ =>
      closed.mono ?_
    rintro ⟨fits, sites⟩ _ condition
    exact ⟨.whileLoop condition fits, sites⟩
  | .repeatLoop mark count ⟨inner, body⟩, here, P, matched, shaped, ordered, listed => by
    have rounds := checks_stmts L body here.loop P.loop matched.loop shaped
      (@ordered_of_part _ _ _ count.ids _ ordered (by simp [Stmt.ids]; rfl)) listed
    have closed : Checks L P (inScope (stmts here.loop body)) _ P _ :=
      rounds.inScope rfl (List.suffix_refl _)
    refine (learns_condition "repeat" .number count).then fun _ => (learns_lift _).then fun _ =>
      closed.mono ?_
    rintro ⟨fits, sites⟩ _ condition
    exact ⟨.repeatLoop condition fits, sites⟩
  | .function ⟨mark, name, ps, result, ⟨inner, body⟩⟩, here, P, matched, shaped, ordered, listed => by
    obtain ⟨listedBody, listedHere⟩ := List.append_subset.1 listed
    let decl : FunctionDecl Stmt := ⟨mark, name, ps, result, ⟨inner, body⟩⟩
    let entry : Point := ⟨mark.id :: P.chain, P.visible, some result, none⟩
    have order : (Stmt.idsOfAll body ++ mark.id :: P.chain).Pairwise (· < ·) := by
      refine ordered.sublist ?_
      rw [Stmt.ids, List.append_assoc]
      refine List.Sublist.append ?_ (List.Sublist.refl _)
      exact (List.infix_append' (ps.map fun p => p.mark.id) (Stmt.idsOfAll body) [inner.id]).sublist
    have bound := checks_parameters (L := L) (P := entry) ps rfl
    have inside := checks_stmts L body (.ofDecl decl) (P.inside L.tables decl)
      ⟨rfl, rfl, by simp [Point.inside]⟩ shaped
      order listedBody
    have scope : Checks L P (inScope do parameters ps; stmts (.ofDecl decl) body) _ P _ :=
      (bound.seq inside).inScope rfl (List.suffix_cons _ _)
    have listedDecl : ⟨decl, P⟩ ∈ L.sites := listedHere List.mem_cons_self
    have declared := (checks_declareFunction listedDecl).owned
    have returned : Checks L P (liftM (Flow.checkFunction decl) >>= fun _ => _) _ P
        (Flow.checkFunction decl = .ok () ∧ _) :=
      (learns_lift _).then fun _ => scope.mono fun shown returns => ⟨returns, shown⟩
    rw [stmt_function]
    refine (declared.seq returned).mono ?_
    rintro ⟨⟨_, owned⟩, returns, parameters, fits, sites⟩
    refine ⟨.function P decl, List.forall_mem_append.2 ⟨sites, ?_⟩⟩
    intro site here
    cases List.mem_singleton.1 here
    have chain : (mark.id :: P.chain).Pairwise (· < ·) := (List.pairwise_append.1 order).2.1
    exact ⟨fits, Flow.anyReturns_of_checkFunction returns, parameters,
      chain.imp fun below => Nat.ne_of_lt below, owned⟩
  | .ret mark value, _, P, matched, _, _, _ =>
    ((learns_returns matched mark value).mono fun _ fits => ⟨fits, by simp [Stmt.sites]⟩).checks
  | .brk mark, _, P, matched, _, _, _ =>
    ((learns_insideLoop matched mark _).mono fun _ ⟨_, inside, kept⟩ =>
      ⟨.brk inside kept, by simp [Stmt.sites]⟩).checks
  | .cont mark, _, P, matched, _, _, _ =>
    ((learns_insideLoop matched mark _).mono fun _ ⟨_, inside, kept⟩ =>
      ⟨.cont inside kept, by simp [Stmt.sites]⟩).checks

theorem checks_otherStmt (L : Layout) :
    ∀ (other : Option Stmt) (here : Surroundings) (P : Point), here.Matches P →
      Stmt.otherShaped other = true → (Stmt.idsOfOther other ++ P.chain).Pairwise (· < ·) →
      Stmt.sitesOfOther L.tables P other ⊆ L.sites →
      Checks L P (otherStmt here other) (Stmt.declarationsOfOther P.function other) P
        (L.FitOther P other ∧ ∀ site ∈ Stmt.sitesOfOther L.tables P other, L.Sound site)
  | none, _, P, _, _, _, _ => (Learns.pure ⟨.none P, by simp [Stmt.sitesOfOther]⟩).checks
  | some s, here, P, matched, shaped, ordered, listed => by
    obtain ⟨follows, shaped⟩ := Bool.and_eq_true_iff.1 shaped
    have inner := checks_stmt L s here P matched shaped ordered listed
    rw [Point.after_of_followsElse follows] at inner
    exact inner.mono fun ⟨fits, sites⟩ => ⟨.some follows fits, sites⟩

theorem checks_stmts (L : Layout) :
    ∀ (body : List Stmt) (here : Surroundings) (P : Point), here.Matches P →
      Stmt.allShaped body = true → (Stmt.idsOfAll body ++ P.chain).Pairwise (· < ·) →
      Stmt.sitesOfAll L.tables P body ⊆ L.sites →
      Checks L P (stmts here body) (Stmt.declarationsOfAll P.function body)
        (body.foldl (Point.after L.tables) P) (ShownAll L P body)
  | [], _, P, _, _, _, _ => (Learns.pure ⟨.nil P, by simp [Stmt.sitesOfAll]⟩).checks
  | s :: rest, here, P, matched, shaped, ordered, listed => by
    obtain ⟨shapedFirst, shapedRest⟩ := Bool.and_eq_true_iff.1 shaped
    have first := checks_stmt L s here P matched shapedFirst
      (@ordered_of_part _ _ _ [] _ ordered rfl) (List.append_subset.1 listed).1
    have below : (Stmt.idsOfAll rest ++ (P.after L.tables s).chain).Pairwise (· < ·) := by
      rw [Point.chain_after]
      exact @ordered_of_part _ _ _ s.ids [] ordered (by simp [Stmt.idsOfAll])
    have others := checks_stmts L rest here (P.after L.tables s) (matched.after L.tables s) shapedRest
      below
      (List.append_subset.1 listed).2
    rw [Point.function_after] at others
    refine (first.seq others).mono ?_
    rintro ⟨⟨fits, sites⟩, fitAll, more⟩
    exact ⟨.cons fits fitAll, List.forall_mem_append.2 ⟨sites, more⟩⟩

end

end Typing

/-- A script that was read and that analysis accepts fits the tables that analysis makes. -/
theorem Program.sound_of_analyse {source file : String} {p : Program} {library : Library}
    {tables : Tables} (read : Program.ofSource source file = .ok p) (native : library.Native)
    (accepted : p.analyse library = .ok tables) (refuses : Refusal) :
    p.Sound library refuses tables := by
  obtain ⟨ascending, shaped⟩ := Program.ascending_of_ofSource read
  unfold Program.analyse at accepted
  cases ran : (Typing.program p).run ⟨.base library, .empty, 0⟩ with
  | error e =>
    rw [ran] at accepted
    cases accepted
  | ok result =>
    obtain ⟨_, last⟩ := result
    rw [ran] at accepted
    cases accepted
    obtain ⟨_, s₁, opened, ran⟩ := Grammar.run_bind_ok ran
    cases opened
    obtain ⟨_, s₂, checked, closed⟩ := Grammar.run_bind_ok ran
    cases closed
    have ordered : (Stmt.idsOfAll p.body ++ Point.top.chain).Pairwise (· < ·) := by
      have inner := (List.pairwise_append.1 ascending).1
      simpa [Point.top] using inner
    obtain ⟨_, result⟩ := Typing.checks_stmts (p.layout library refuses s₂.tables) p.body .top .top
      ⟨rfl, rfl, by simp [Point.top]⟩ shaped
      ordered (List.Subset.refl _) _ _ checked (by simp [ScopeChain.push])
    have agrees : (p.layout library refuses s₂.tables).Agrees .top
        (ScopeChain.base library).push := by
      refine ⟨rfl, native, ?_, ?_⟩
      · intro scope mem entry there
        cases List.mem_singleton.1 mem
        cases there
      · intro scope mem f there
        cases List.mem_singleton.1 mem
        cases there
    have owned : (p.layout library refuses s₂.tables).Owned .top := by
      intro x seen
      cases seen
    obtain ⟨_, _, counts, fits, sites⟩ := result agrees owned (.refl _) (List.prefix_refl _)
    refine ⟨fits, sites, ?_, fun x d declared => ?_⟩
    · have inner := (List.pairwise_append.1 ascending).1
      have distinct := inner.sublist (Stmt.sublist_idsOfAll s₂.tables p.body .top)
      exact distinct.imp fun below => Nat.ne_of_lt below
    · rw [← Nat.zero_add x]
      exact counts x d declared

end CursorScript
