import CursorScript.Analysis.Typing
import CursorScript.BuiltIn
import CursorScript.Proofs.AnalysisSoundness
import CursorScript.Proofs.Nodes

/-!
What analysis writes into its tables. Each step of analysis is given the keys that it writes, and
writes each of them once as long as they are new, or fails at a place that the tree shows. The keys
of a whole script are new because its nodes have identities of their own. Variables and parameters
get the symbols 0, 1, 2 and so on.
-/
namespace CursorScript

inductive Record where
  | symbol
  | function
  | operator
deriving DecidableEq

/-- What is recorded for a node: a symbol for parameters and for variables where they are declared,
read or assigned to, a function for calls, an operator for operations. -/
def Node.record? : Node → Option Record
  | expr (.symbol _) => some .symbol
  | expr (.call ..) => some .function
  | expr (.binary ..) => some .operator
  | expr (.unary ..) => some .operator
  | expr (.index ..) => some .operator
  | expr _ => none
  | target _ => some .symbol
  | parameter _ => some .symbol
  | stmt (.declare ..) => some .symbol
  | stmt (.assign _ _ token _) => if token.kind.isCompoundAssignment then some .operator else none
  | stmt _ => none
  | block _ => none

def Node.declares : Node → Bool
  | parameter _ => true
  | stmt (.declare ..) => true
  | _ => false

abbrev Key := Record × Nat

def Tables.Has (tables : Tables) : Key → Prop
  | (.symbol, id) => (tables.symbols.get? id).isSome = true
  | (.function, id) => (tables.functions.get? id).isSome = true
  | (.operator, id) => (tables.operators.get? id).isSome = true

namespace Node

def key? (n : Node) : Option Key := n.record?.map (·, n.mark.id)

def keys (n : Node) : List Key := n.postorder.filterMap key?

/-- The nodes inside a node that declare something, the node included. -/
def declared (n : Node) : List Nat := (n.postorder.filter declares).map fun n => n.mark.id

theorem keys_eq (n : Node) : n.keys = n.children.flatMap keys ++ n.key?.toList := by
  rw [keys, postorder_eq, List.filterMap_append, List.filterMap_flatMap]
  refine congrArg (n.children.flatMap keys ++ ·) ?_
  cases found : n.key? <;> simp [found]

theorem declared_eq (n : Node) :
    n.declared = n.children.flatMap declared ++ if n.declares then [n.mark.id] else [] := by
  rw [declared, postorder_eq, List.filter_append, List.filter_flatMap, List.map_append,
    List.map_flatMap]
  refine congrArg (n.children.flatMap declared ++ ·) ?_
  cases found : n.declares <;> simp [found]

/-- An expression holds nothing but expressions. -/
theorem eq_expr_of_mem {e : Expr} {child : Node} (h : child ∈ (expr e).children) :
    ∃ inner, child = expr inner := by
  cases e <;> simp only [children, List.mem_map, List.mem_flatMap, List.mem_cons, List.not_mem_nil,
    or_false] at h <;> grind

theorem declared_expr (e : Expr) : (expr e).declared = [] := by
  have below : (expr e).children.flatMap declared = [] := by
    rw [List.flatMap_eq_nil_iff]
    intro child held
    obtain ⟨inner, rfl⟩ := eq_expr_of_mem held
    have smaller : sizeOf inner < sizeOf e := by simpa using sizeOf_children held
    exact declared_expr inner
  rw [declared_eq, below]
  rfl
termination_by sizeOf e

theorem keys_target (s : Symbol) : (target s).keys = [(.symbol, s.mark.id)] := by
  rw [keys_eq]
  rfl

theorem declared_target (s : Symbol) : (target s).declared = [] := by
  rw [declared_eq]
  rfl

theorem keys_parameter (p : Parameter) : (parameter p).keys = [(.symbol, p.mark.id)] := by
  rw [keys_eq]
  rfl

theorem declared_parameter (p : Parameter) : (parameter p).declared = [p.mark.id] := by
  rw [declared_eq]
  rfl

theorem keys_block (b : Block Stmt) : (block b).keys = (b.body.map stmt).flatMap keys := by
  rw [keys_eq]
  exact List.append_nil _

theorem declared_block (b : Block Stmt) :
    (block b).declared = (b.body.map stmt).flatMap declared := by
  rw [declared_eq]
  exact List.append_nil _

end Node

/-- A fault that a script gives, at a place that its tree shows. -/
def Fault (root : Node) (e : Error) : Prop :=
  (∀ message, e.cause ≠ .internalError message) ∧ root.Shows e.position

namespace Flow
variable {root : Node} {body : Body}

theorem fault_bind {α β : Type} {first : Except Error α} {next : α → Except Error β} {e : Error}
    (h : first >>= next = .error e) (one : first = .error e → Fault root e)
    (two : ∀ a, next a = .error e → Fault root e) : Fault root e := by
  cases first with
  | error found =>
    cases h
    exact one rfl
  | ok a => exact two a h

mutual

theorem fault_endsEarly : ∀ (s : Stmt) (e : Error), .stmt s ∈ root.postorder →
    endsEarly body s = .error e → Fault root e
  | .block ⟨_, stmts⟩, e, here, h => by
    refine fault_sequenceEnds stmts e (fun s mem => ?_) h
    exact Node.mem_of_child here (List.mem_map_of_mem mem)
  | .branch mark test ⟨inner, stmts⟩ other, e, here, h => by
    have block : .block ⟨inner, stmts⟩ ∈ root.postorder :=
      Node.mem_of_child here (by simp [Node.children])
    refine fault_bind h (fun failed => ?_) fun _ rest => fault_bind rest (fun failed => ?_) nofun
    · exact fault_sequenceEnds stmts e (Node.mem_of_body block) failed
    · refine fault_otherEnds other e (fun s mem => ?_) failed
      exact Node.mem_of_child here (by simp [Node.children, Option.mem_def.1 mem])
  | .ret .., _, _, h => nomatch h
  | .brk _, _, _, h => nomatch h
  | .cont _, _, _, h => nomatch h
  | .expression .., _, _, h => nomatch h
  | .declare .., _, _, h => nomatch h
  | .assign .., _, _, h => nomatch h
  | .whileLoop .., _, _, h => nomatch h
  | .repeatLoop .., _, _, h => nomatch h
  | .function _, _, _, h => nomatch h

theorem fault_otherEnds : ∀ (other : Option Stmt) (e : Error),
    (∀ s ∈ other, .stmt s ∈ root.postorder) → otherEnds body other = .error e → Fault root e
  | none, _, _, h => nomatch h
  | some s, e, here, h => fault_endsEarly s e (here s rfl) h

theorem fault_sequenceEnds : ∀ (stmts : List Stmt) (e : Error),
    (∀ s ∈ stmts, .stmt s ∈ root.postorder) → sequenceEnds body stmts = .error e → Fault root e
  | [], _, _, h => nomatch h
  | [s], e, here, h =>
    fault_bind h (fault_endsEarly s e (here s List.mem_cons_self)) nofun
  | s :: next :: rest, e, here, h => by
    rw [sequenceEnds] at h
    refine fault_bind h (fault_endsEarly s e (here s List.mem_cons_self)) fun ended h => ?_
    cases ended with
    | true =>
      cases h
      exact ⟨nofun, Node.shows_start (here next (by simp))⟩
    | false =>
      exact fault_sequenceEnds (next :: rest) e (fun s mem => here s (List.mem_cons_of_mem _ mem)) h

end

theorem fault_checkFunction {decl : FunctionDecl Stmt} {e : Error}
    (here : .stmt (.function decl) ∈ root.postorder) (h : checkFunction decl = .error e) :
    Fault root e := by
  have block : .block decl.body ∈ root.postorder :=
    Node.mem_of_child here (by simp [Node.children])
  refine fault_bind h (fault_sequenceEnds _ e (Node.mem_of_body block)) fun ended failed => ?_
  split at failed
  · cases failed
    exact ⟨nofun, Node.shows_start here⟩
  · cases failed

theorem fault_checkLoop {block : Block Stmt} {e : Error} (here : .block block ∈ root.postorder)
    (h : checkLoop block = .error e) : Fault root e :=
  fault_bind h (fault_sequenceEnds _ e (Node.mem_of_body here)) nofun

end Flow

def Function.Declared (root : Node) (f : Function) : Prop :=
  ∃ decl, f = .ofDecl decl ∧ .stmt (.function decl) ∈ root.postorder

/-- A function that a library provides or that a tree declares. -/
def Function.Known (root : Node) (library : Library) (f : Function) : Prop :=
  library.Provides f ∨ f.Declared root

namespace Table
variable {α : Type} {table next : Table α} {id : Nat} {entry : α}

theorem exists_record (new : ¬ (table.get? id).isSome = true) (entry : α) :
    ∃ next, table.record? id entry = some next := by
  unfold record?
  rw [if_neg new]
  exact ⟨_, rfl⟩

theorem isSome_record (h : table.record? id entry = some next) (other : Nat) :
    (next.get? other).isSome = true ↔ (table.get? other).isSome = true ∨ other = id := by
  rw [get?_record h]
  split <;> simp [*]

end Table

namespace Typing

/-- The functions that analysis has seen come from the tree or from the library. -/
structure State.Within (root : Node) (library : Library) (s : State) : Prop where
  chain : s.scopes.library = library
  scopes : ∀ scope ∈ s.scopes.scopes, ∀ f ∈ scope.functions, f.Declared root
  tables : ∀ id f, s.tables.functions.get? id = some f → f.Known root library

structure State.Wrote (s s' : State) (keys : List Key) (declared : List Nat) : Prop where
  has : ∀ key, s'.tables.Has key ↔ s.tables.Has key ∨ key ∈ keys
  symbols : s.tables.symbols.Sub s'.tables.symbols
  nextSymbol : s'.nextSymbol = s.nextSymbol + declared.length
  /-- The nodes that declare something have the symbols that come next. -/
  counted : ∀ k id, declared[k]? = some id →
    s'.tables.symbols.get? id = some (s.nextSymbol + k)

/-- Whenever `keys` are new, a step of analysis writes each of them and nothing else, or fails for a
reason that the script gives. `declared` are the nodes that get a symbol of their own. -/
def Writes {α : Type} (root : Node) (library : Library) (keys : List Key) (declared : List Nat)
    (check : Check α) : Prop :=
  ∀ s, keys.Nodup → (∀ key ∈ keys, ¬ s.tables.Has key) → s.Within root library →
    match check.run s with
    | .error e => Fault root e
    | .ok (_, s') => s.Wrote s' keys declared ∧ s'.Within root library

variable {root : Node} {library : Library}

section rules
variable {α β : Type} {keys more : List Key} {declared later : List Nat} {check : Check α}
  {next : α → Check β}

theorem State.Wrote.trans {s t u : State} (h : s.Wrote t keys declared)
    (rest : t.Wrote u more later) : s.Wrote u (keys ++ more) (declared ++ later) := by
  refine ⟨fun key => ?_, fun id x found => rest.symbols id x (h.symbols id x found), ?_, ?_⟩
  · rw [rest.has, h.has, List.mem_append, or_assoc]
  · rw [rest.nextSymbol, h.nextSymbol, List.length_append, Nat.add_assoc]
  · intro k id found
    rcases Nat.lt_or_ge k declared.length with before | behind
    · rw [List.getElem?_append_left before] at found
      exact rest.symbols _ _ (h.counted k id found)
    · rw [List.getElem?_append_right behind] at found
      have symbol := rest.counted _ id found
      rwa [h.nextSymbol, Nat.add_assoc, Nat.add_sub_cancel' behind] at symbol

theorem Writes.bind (h : Writes root library keys declared check)
    (rest : ∀ a, Writes root library more later (next a)) :
    Writes root library (keys ++ more) (declared ++ later) (check >>= next) := by
  intro s nodup new within
  obtain ⟨first, second, apart⟩ := List.nodup_append.1 nodup
  have ran := h s first (fun key mem => new key (List.mem_append_left _ mem)) within
  rw [StateT.run_bind]
  cases done : check.run s with
  | error e =>
    rw [done] at ran
    exact ran
  | ok result =>
    obtain ⟨a, t⟩ := result
    rw [done] at ran
    obtain ⟨wrote, within'⟩ := ran
    have fresh : ∀ key ∈ more, ¬ t.tables.Has key := by
      intro key mem had
      rcases (wrote.has key).1 had with old | here
      · exact new key (List.mem_append_right _ mem) old
      · exact apart key here key mem rfl
    have ran' := rest a t second fresh within'
    show match (next a).run t with
      | .error e => Fault root e
      | .ok (_, s') => s.Wrote s' (keys ++ more) (declared ++ later) ∧ s'.Within root library
    cases done' : (next a).run t with
    | error e =>
      rw [done'] at ran'
      exact ran'
    | ok result =>
      rw [done'] at ran'
      exact ⟨wrote.trans ran'.1, ran'.2⟩

theorem Writes.of_get {next : State → Check α}
    (h : ∀ s, (∀ key ∈ keys, ¬ s.tables.Has key) → s.Within root library →
      match (next s).run s with
      | .error e => Fault root e
      | .ok (_, s') => s.Wrote s' keys declared ∧ s'.Within root library) :
    Writes root library keys declared (get >>= next) := fun s _ => h s

theorem Writes.perm (h : Writes root library keys declared check) (same : keys.Perm more) :
    Writes root library more declared check := by
  intro s nodup new within
  have ran := h s (same.nodup_iff.2 nodup) (fun key mem => new key (same.mem_iff.1 mem)) within
  cases done : check.run s with
  | error e =>
    rw [done] at ran
    exact ran
  | ok result =>
    rw [done] at ran
    obtain ⟨wrote, within'⟩ := ran
    exact ⟨⟨fun key => by rw [wrote.has, same.mem_iff], wrote.symbols, wrote.nextSymbol,
      wrote.counted⟩, within'⟩

/-- A step that records nothing comes before others. -/
theorem Writes.after (h : ∀ a, Writes root library keys declared (next a))
    (quiet : Writes root library [] [] check) :
    Writes root library keys declared (check >>= next) := quiet.bind h

theorem State.Wrote.of_eq {s s' : State} (tables : s'.tables = s.tables)
    (nextSymbol : s'.nextSymbol = s.nextSymbol) : s.Wrote s' [] [] :=
  ⟨by simp [tables], tables ▸ .refl _, nextSymbol, by simp⟩

theorem Writes.pure (a : α) : Writes root library [] [] (pure a : Check α) :=
  fun _ _ _ within => ⟨.of_eq rfl rfl, within⟩

theorem Writes.fail {cause : Cause} {p : Position}
    (given : ∀ message, cause ≠ .internalError message) (shown : root.Shows p) :
    Writes root library keys declared (Typing.fail cause p : Check α) :=
  fun _ _ _ _ => ⟨given, shown⟩

theorem Writes.fail_bind {cause : Cause} {p : Position}
    (given : ∀ message, cause ≠ .internalError message) (shown : root.Shows p) :
    Writes root library keys declared (Typing.fail cause p >>= next) :=
  fun _ _ _ _ => ⟨given, shown⟩

/-- A condition under which analysis goes on. -/
theorem Writes.unless {cause : Cause} {p : Position} {fails : Prop} [Decidable fails]
    {next : Unit → Check α} (given : ∀ message, cause ≠ .internalError message)
    (shown : root.Shows p) (h : Writes root library keys declared (next ())) :
    Writes root library keys declared
      (if fails then Typing.fail cause p >>= next else next ()) := by
  split
  · exact .fail_bind given shown
  · exact h

theorem Writes.lift {result : Except Error α} (h : ∀ e, result = .error e → Fault root e) :
    Writes root library [] [] (liftM result : Check α) := by
  intro s _ _ within
  cases result with
  | error e => exact h e rfl
  | ok a => exact ⟨.of_eq rfl rfl, within⟩

end rules

theorem run_recordSymbol {s : State} {mark : Mark} {x : Nat} {next : Table Nat}
    (h : s.tables.symbols.record? mark.id x = some next) :
    (recordSymbol mark x).run s =
      .ok ((), { s with tables := { s.tables with symbols := next } }) := by
  simp only [recordSymbol, StateT.run_bind, StateT.run_get, pure_bind, h]
  rfl

theorem has_recordSymbol {tables : Tables} {id x : Nat} {next : Table Nat}
    (h : tables.symbols.record? id x = some next) (key : Key) :
    { tables with symbols := next }.Has key ↔ tables.Has key ∨ key ∈ [(Record.symbol, id)] := by
  obtain ⟨_ | _ | _, other⟩ := key <;> simp [Tables.Has, Table.isSome_record h]

theorem writes_recordSymbol (mark : Mark) (x : Nat) :
    Writes root library [(.symbol, mark.id)] [] (recordSymbol mark x) := by
  intro s _ new within
  obtain ⟨next, recorded⟩ := Table.exists_record (new _ List.mem_cons_self) x
  rw [run_recordSymbol recorded]
  exact ⟨⟨has_recordSymbol recorded, Table.sub_of_record recorded, rfl, by simp⟩, within.chain,
    within.scopes, within.tables⟩

theorem writes_recordFunction {f : Function} (known : f.Known root library) (mark : Mark) :
    Writes root library [(.function, mark.id)] [] (recordFunction mark f) := by
  refine .of_get fun s new within => ?_
  obtain ⟨next, recorded⟩ := Table.exists_record (new _ List.mem_cons_self) f
  rw [recorded]
  refine ⟨⟨?_, .refl _, rfl, by simp⟩, within.chain, within.scopes, ?_⟩
  · rintro ⟨_ | _ | _, id⟩ <;> simp [Tables.Has, Table.isSome_record recorded]
  · intro id g found
    rw [Table.get?_record recorded] at found
    split at found
    · cases found
      exact known
    · exact within.tables id g found

theorem writes_recordOperator (mark : Mark) (op : Operator) :
    Writes root library [(.operator, mark.id)] [] (recordOperator mark op) := by
  refine .of_get fun s new within => ?_
  obtain ⟨next, recorded⟩ := Table.exists_record (new _ List.mem_cons_self) op
  rw [recorded]
  refine ⟨⟨?_, .refl _, rfl, by simp⟩, within.chain, within.scopes, within.tables⟩
  rintro ⟨_ | _ | _, id⟩ <;> simp [Tables.Has, Table.isSome_record recorded]

theorem writes_variableOf {symbol : Symbol} (shown : root.Shows symbol.mark.start) :
    Writes root library [] [] (variableOf symbol) := by
  refine .of_get fun s _ within => ?_
  cases s.scopes.lookup? symbol.name symbol.up with
  | none => exact ⟨nofun, shown⟩
  | some v => exact ⟨.of_eq rfl rfl, within⟩

theorem known_of_function? {s : State} {name : String} {types : List Ty} {f : Function}
    (within : s.Within root library) (h : s.scopes.function? name types = some f) :
    f.Known root library := by
  have near : ∀ {pick : Scope → Option Function}, s.scopes.scopes.findSome? pick = some f →
      (∀ scope, pick scope = some f → f ∈ scope.functions) → f.Known root library := by
    intro pick found held
    obtain ⟨scope, mem, picked⟩ := List.exists_of_findSome?_eq_some found
    exact .inr (within.scopes scope mem f (held scope picked))
  rcases Option.or_eq_some_iff.1 h with found | ⟨_, found⟩
  · rcases Option.or_eq_some_iff.1 found with found | ⟨_, found⟩
    · exact near found fun scope => List.mem_of_find?_eq_some
    · exact .inl ⟨name, types, .inl (within.chain ▸ found)⟩
  · rcases Option.or_eq_some_iff.1 found with found | ⟨_, found⟩
    · exact near found fun scope => List.mem_of_find?_eq_some
    · exact .inl ⟨name, types, .inr (within.chain ▸ found)⟩

theorem writes_resolveCall {mark : Mark} (shown : root.Shows mark.start) (callee : String)
    (types : List Ty) :
    Writes root library [(.function, mark.id)] [] (resolveCall mark callee types) := by
  unfold resolveCall functionOf
  rw [bind_assoc]
  refine .of_get fun s new within => ?_
  cases found : s.scopes.function? callee types with
  | none => exact ⟨nofun, shown⟩
  | some f =>
    have recorded : Writes root library _ [] (recordFunction mark f >>= fun _ => pure f.returns) :=
      (writes_recordFunction (known_of_function? within found) mark).bind fun _ => .pure _
    exact recorded s (by simp) new within

theorem writes_refuseEmpty {e : Expr} (here : .expr e ∈ root.postorder) (type : Ty) :
    Writes root library [] [] (refuseEmpty type e) := by
  unfold refuseEmpty
  split
  · exact .fail nofun (Node.shows_start here)
  · exact .pure ()

theorem writes_commonType {e : Expr} (here : .expr e ∈ root.postorder) (current : Option Ty)
    (next : Ty) : Writes root library [] [] (commonType current next e) := by
  refine .after (fun _ => ?_) (writes_refuseEmpty here next)
  split
  · exact .pure _
  · exact .pure _
  · split
    · exact .pure _
    · exact .fail nofun (Node.shows_start here)

theorem writes_chooseOperator {mark : Mark} {choice : Option (Operator × Ty)} {cause : Cause}
    {p : Position} (given : ∀ message, cause ≠ .internalError message) (shown : root.Shows p) :
    Writes root library [(.operator, mark.id)] [] (chooseOperator mark choice cause p) := by
  unfold chooseOperator
  split
  · next op type => exact .bind (writes_recordOperator mark op) fun _ => .pure _
  · exact .fail given shown

def keysOf (es : List Expr) : List Key := es.flatMap fun e => (Node.expr e).keys

theorem keys_of_children {n : Node} {es : List Expr} (h : n.children = es.map .expr) :
    n.keys = keysOf es ++ n.key?.toList := by
  rw [Node.keys_eq, h, List.flatMap_map]
  rfl

theorem keys_of_one {n : Node} {e : Expr} (h : n.children = [.expr e]) :
    n.keys = (Node.expr e).keys ++ n.key?.toList := by
  rw [Node.keys_eq, h, List.flatMap_singleton]

theorem keys_of_two {n : Node} {left right : Expr} (h : n.children = [.expr left, .expr right]) :
    n.keys = (Node.expr left).keys ++ ((Node.expr right).keys ++ n.key?.toList) := by
  rw [Node.keys_eq, h]
  simp

theorem entryOperands_children (mark : Mark) (entries : List (Expr × Expr)) :
    (Node.expr (.map mark entries)).children = (Machine.entryOperands entries).map .expr := by
  simp [Node.children, Machine.entryOperands, List.map_flatMap]

mutual

theorem writes_expr (root : Node) (library : Library) : ∀ e, .expr e ∈ root.postorder →
    Writes root library (Node.expr e).keys [] (expr e)
  | .number .., _ => by rw [Node.keys_eq]; exact .pure _
  | .real .., _ => by rw [Node.keys_eq]; exact .pure _
  | .logic .., _ => by rw [Node.keys_eq]; exact .pure _
  | .string .., _ => by rw [Node.keys_eq]; exact .pure _
  | .material .., _ => by rw [Node.keys_eq]; exact .pure _
  | .member .., _ => by rw [Node.keys_eq]; exact .pure _
  | .interpolation mark parts, here => by
    rw [keys_of_children rfl]
    exact .bind (writes_embeddedParts root library parts (Node.mem_of_exprs here rfl)) fun _ =>
      .pure _
  | .symbol s, here => by
    rw [Node.keys_eq]
    refine .after (fun v => ?_) (writes_variableOf (Node.shows_start here))
    exact .bind (writes_recordSymbol s.mark v.symbol) fun _ => .pure _
  | .binary mark left token right, here => by
    obtain ⟨one, two⟩ := Node.mem_of_two here rfl
    rw [keys_of_two rfl]
    refine .bind (writes_expr root library left one) fun T =>
      .after (fun _ => ?_) (writes_refuseEmpty one T)
    refine .bind (writes_expr root library right two) fun U =>
      .after (fun _ => ?_) (writes_refuseEmpty two U)
    exact writes_chooseOperator nofun (Node.shows_operator here rfl)
  | .unary mark token operand, here => by
    have inner := Node.mem_of_one here rfl
    rw [keys_of_one rfl]
    refine .bind (writes_expr root library operand inner) fun T =>
      .after (fun _ => ?_) (writes_refuseEmpty inner T)
    exact writes_chooseOperator nofun (Node.shows_start here)
  | .index mark collection place, here => by
    obtain ⟨one, two⟩ := Node.mem_of_two here rfl
    rw [keys_of_two rfl]
    refine .bind (writes_expr root library collection one) fun T =>
      .after (fun _ => ?_) (writes_refuseEmpty one T)
    refine .bind (writes_expr root library place two) fun U =>
      .after (fun _ => ?_) (writes_refuseEmpty two U)
    exact writes_chooseOperator nofun (Node.shows_start two)
  | .call mark callee arguments, here => by
    rw [keys_of_children rfl]
    refine .bind (writes_argumentTypes root library callee arguments (Node.mem_of_exprs here rfl))
      fun types => .bind (writes_resolveCall (Node.shows_start here) callee types) fun slot => ?_
    split
    · exact .pure _
    · exact .fail nofun (Node.shows_start here)
  | .list mark elements, here => by
    rw [keys_of_children rfl]
    refine .bind (writes_elementType root library none elements (Node.mem_of_exprs here rfl))
      fun found => ?_
    split <;> exact .pure _
  | .map mark entries, here => by
    have held := entryOperands_children mark entries
    rw [keys_of_children held]
    refine .bind (writes_entryTypes root library none none entries (Node.mem_of_exprs here held))
      fun found => ?_
    split <;> exact .pure _

theorem writes_embeddedParts (root : Node) (library : Library) : ∀ parts,
    (∀ e ∈ Part.embedded parts, .expr e ∈ root.postorder) →
    Writes root library (keysOf (Part.embedded parts)) [] (embeddedParts parts)
  | [], _ => .pure _
  | .text _ :: rest, here => writes_embeddedParts root library rest here
  | .embed e :: rest, here => by
    obtain ⟨first, others⟩ := List.forall_mem_cons.1 here
    refine .bind (writes_expr root library e first) fun T =>
      .unless nofun (Node.shows_start first) ?_
    exact writes_embeddedParts root library rest others

theorem writes_argumentTypes (root : Node) (library : Library) (callee : String) : ∀ es,
    (∀ e ∈ es, .expr e ∈ root.postorder) →
    Writes root library (keysOf es) [] (argumentTypes callee es)
  | [], _ => .pure _
  | e :: rest, here => by
    obtain ⟨first, others⟩ := List.forall_mem_cons.1 here
    refine .bind (writes_expr root library e first) fun T =>
      .unless nofun (Node.shows_start first) ?_
    have more := writes_argumentTypes root library callee rest others
    exact (more.bind fun types => .pure (T :: types)).perm (.of_eq (List.append_nil _))

theorem writes_elementType (root : Node) (library : Library) : ∀ current es,
    (∀ e ∈ es, .expr e ∈ root.postorder) →
    Writes root library (keysOf es) [] (elementType current es)
  | _, [], _ => .pure _
  | current, e :: rest, here => by
    obtain ⟨first, others⟩ := List.forall_mem_cons.1 here
    refine .bind (writes_expr root library e first) fun T =>
      .after (fun U => ?_) (writes_commonType first current T)
    exact writes_elementType root library (some U) rest others

theorem writes_entryTypes (root : Node) (library : Library) : ∀ key value entries,
    (∀ e ∈ Machine.entryOperands entries, .expr e ∈ root.postorder) →
    Writes root library (keysOf (Machine.entryOperands entries)) [] (entryTypes key value entries)
  | _, _, [], _ => .pure _
  | key, value, (k, v) :: rest, here => by
    obtain ⟨first, others⟩ := List.forall_mem_cons.1 here
    obtain ⟨second, others⟩ := List.forall_mem_cons.1 others
    refine .bind (writes_expr root library k first) fun T =>
      .after (fun T' => ?_) (writes_commonType first key T)
    refine .bind (writes_expr root library v second) fun U =>
      .after (fun U' => ?_) (writes_commonType second value U)
    exact writes_entryTypes root library (some T') (some U') rest others

end

theorem writes_loneExpr {e : Expr} (here : .expr e ∈ root.postorder) :
    Writes root library (Node.expr e).keys [] (loneExpr e) := by
  unfold loneExpr
  split
  · next mark callee arguments =>
    rw [keys_of_children rfl]
    exact .bind (writes_argumentTypes root library callee arguments (Node.mem_of_exprs here rfl))
      fun types => .bind (writes_resolveCall (Node.shows_start here) callee types) fun _ => .pure _
  · refine ((writes_expr root library e here).bind fun _ => .pure _).perm ?_
    exact .of_eq (List.append_nil _)

theorem writes_condition {e : Expr} (here : .expr e ∈ root.postorder) (statement : String)
    (expected : Ty) :
    Writes root library (Node.expr e).keys [] (condition statement expected e) := by
  refine ((writes_expr root library e here).bind fun T => ?_).perm (.of_eq (List.append_nil _))
  split
  · exact .fail nofun (Node.shows_start here)
  · exact .pure ()

theorem mem_of_modify? {chain next : ScopeChain} {change : Scope → Option Scope}
    (h : chain.modify? change = some next) :
    next.library = chain.library ∧ ∀ scope ∈ next.scopes, scope ∈ chain.scopes ∨
      ∃ old, (old ∈ chain.scopes ∨ old = .empty) ∧ change old = some scope := by
  unfold ScopeChain.modify? at h
  split at h
  · obtain ⟨scope, changed, rfl⟩ := Option.map_eq_some_iff.1 h
    refine ⟨rfl, fun found mem => ?_⟩
    cases List.mem_singleton.1 mem
    exact .inr ⟨.empty, .inr rfl, changed⟩
  · next old outer held =>
    obtain ⟨scope, changed, rfl⟩ := Option.map_eq_some_iff.1 h
    refine ⟨rfl, fun found mem => ?_⟩
    rw [held]
    rcases List.mem_cons.1 mem with rfl | outside
    · exact .inr ⟨old, .inl List.mem_cons_self, changed⟩
    · exact .inl (List.mem_cons_of_mem _ outside)

/-- The functions in scopes still come from the tree when the innermost scope gets another function
of the tree, or none. -/
theorem State.Within.modify {s : State} (within : s.Within root library) {next : ScopeChain}
    {change : Scope → Option Scope} (h : s.scopes.modify? change = some next)
    (declared : ∀ old scope, change old = some scope → ∀ f ∈ scope.functions,
      f ∈ old.functions ∨ f.Declared root) (nextSymbol : Nat) :
    State.Within root library { s with scopes := next, nextSymbol := nextSymbol } := by
  obtain ⟨same, scopes⟩ := mem_of_modify? h
  refine ⟨same.trans within.chain, fun scope mem f held => ?_, within.tables⟩
  rcases scopes scope mem with old | ⟨old, there, changed⟩
  · exact within.scopes scope old f held
  · rcases declared old scope changed f held with before | now
    · rcases there with there | rfl
      · exact within.scopes old there f before
      · cases before
    · exact now

theorem writes_declareVariable {mark : Mark} (shown : root.Shows mark.start) (name : String)
    (type : Ty) {taken : Cause} (given : ∀ message, taken ≠ .internalError message) :
    Writes root library [(.symbol, mark.id)] [mark.id] (declareVariable mark name type taken) := by
  refine .of_get fun s new within => ?_
  cases added : s.scopes.addVariable? name ⟨type, s.nextSymbol, mark.id⟩ with
  | none => exact ⟨given, shown⟩
  | some scopes =>
    have kept : ∀ (v : Variable) (old scope : Scope), old.addVariable? name v = some scope →
        ∀ f ∈ scope.functions, f ∈ old.functions ∨ f.Declared root := by
      intro v old scope changed f held
      unfold Scope.addVariable? at changed
      split at changed
      · cases changed
      · cases changed
        exact .inl held
    have within' := within.modify added (kept _) (s.nextSymbol + 1)
    obtain ⟨next, recorded⟩ := Table.exists_record (new _ List.mem_cons_self) s.nextSymbol
    have ran := run_recordSymbol
      (s := { s with scopes := scopes, nextSymbol := s.nextSymbol + 1 }) recorded
    simp only [StateT.run_bind, StateT.run_set, pure_bind]
    rw [ran]
    refine ⟨⟨has_recordSymbol recorded, Table.sub_of_record recorded, rfl, ?_⟩, within'.chain,
      within'.scopes, within'.tables⟩
    intro k id found
    obtain ⟨rfl, rfl⟩ : k = 0 ∧ mark.id = id := by
      cases k with
      | zero => simpa using found
      | succ k => simp at found
    exact Table.get?_of_record recorded

theorem writes_declareFunction {decl : FunctionDecl Stmt}
    (here : .stmt (.function decl) ∈ root.postorder) :
    Writes root library [] [] (declareFunction decl) := by
  refine .of_get fun s new within => ?_
  cases added : s.scopes.addFunction? (.ofDecl decl) with
  | none => exact ⟨nofun, Node.shows_start here⟩
  | some scopes =>
    refine ⟨.of_eq rfl rfl, within.modify added (fun old scope changed f held => ?_) _⟩
    unfold Scope.addFunction? at changed
    split at changed
    · cases changed
    · cases changed
      rcases List.mem_append.1 held with before | now
      · exact .inl before
      · exact .inr ⟨decl, List.mem_singleton.1 now, here⟩

theorem writes_declaration {mark : Mark} {name : String} {type : Ty} {value : Expr}
    (here : .stmt (.declare mark name type value) ∈ root.postorder) :
    Writes root library (Node.stmt (.declare mark name type value)).keys
      (Node.stmt (.declare mark name type value)).declared (declaration mark name type value) := by
  have inner := Node.mem_of_one here rfl
  have declared : (Node.stmt (.declare mark name type value)).declared = [mark.id] := by
    rw [Node.declared_eq]
    simp [Node.children, Node.declared_expr, Node.declares, Node.mark, Stmt.mark]
  rw [declared, keys_of_one rfl]
  refine .bind (writes_expr root library value inner) fun T =>
    .unless nofun (Node.shows_start inner) ?_
  exact writes_declareVariable (Node.shows_start here) name type nofun

theorem isCompoundAssignment_of_compound? {kind : TokenKind} {target value : Ty} {op : Operator}
    (h : Operator.compound? kind target value = some op) : kind.isCompoundAssignment = true := by
  cases kind <;> first | rfl | cases h

/-- The operator of an assignment is recorded before the symbol of its target. -/
theorem writes_assignment {mark : Mark} {target : Symbol} {token : Token} {value : Expr}
    (here : .stmt (.assign mark target token value) ∈ root.postorder) :
    Writes root library (Node.stmt (.assign mark target token value)).keys
      (Node.stmt (.assign mark target token value)).declared
      (assignment mark target token value) := by
  obtain ⟨left, inner⟩ := Node.mem_of_two here rfl
  have declared : (Node.stmt (.assign mark target token value)).declared = [] := by
    rw [Node.declared_eq]
    simp [Node.children, Node.declared_expr, Node.declared_target, Node.declares]
  have keys : ((Node.expr value).keys ++
      ((Node.stmt (.assign mark target token value)).key?.toList ++
        [(Record.symbol, target.mark.id)])).Perm
      (Node.stmt (.assign mark target token value)).keys := by
    rw [Node.keys_eq (.stmt _)]
    simp only [Node.children, List.flatMap_cons, List.flatMap_nil, List.append_nil,
      Node.keys_target, List.singleton_append]
    rw [← List.append_assoc]
    exact List.perm_append_singleton _ _
  rw [declared]
  refine Writes.perm ?_ keys
  refine .after (fun v => .bind (writes_expr root library value inner) fun T => ?_)
    (writes_variableOf (Node.shows_start left))
  dsimp only
  split
  · next plain =>
    have none : (Node.stmt (.assign mark target token value)).key? = none := by
      simp [Node.key?, Node.record?, plain, TokenKind.isCompoundAssignment]
    rw [none]
    exact .unless nofun (Node.shows_start inner) (writes_recordSymbol target.mark v.symbol)
  · split
    · next op chosen =>
      have compound := isCompoundAssignment_of_compound? chosen
      have some : (Node.stmt (.assign mark target token value)).key? =
          some (.operator, mark.id) := by
        simp [Node.key?, Node.record?, compound, Node.mark, Stmt.mark]
      rw [some]
      exact .bind (writes_recordOperator mark op) fun _ => writes_recordSymbol target.mark v.symbol
    · exact .fail_bind nofun (Node.shows_start here)

theorem writes_returns {mark : Mark} {value : Option Expr}
    (here : .stmt (.ret mark value) ∈ root.postorder) (around : Surroundings) :
    Writes root library (Node.stmt (.ret mark value)).keys [] (returns around mark value) := by
  unfold returns
  split
  · exact .fail nofun (Node.shows_start here)
  · split
    · rw [Node.keys_eq]
      exact .pure ()
    · exact .fail nofun (Node.shows_start here)
    · next e _ =>
      have inner := Node.mem_of_one here rfl
      exact .fail nofun (Node.shows_start inner)
    · next e expected _ =>
      have inner := Node.mem_of_one here rfl
      rw [keys_of_one rfl]
      refine .bind (writes_expr root library e inner) fun T => ?_
      split
      · exact .fail nofun (Node.shows_start inner)
      · exact .pure ()

theorem writes_insideLoop {mark : Mark} (shown : root.Shows mark.start) (around : Surroundings)
    (statement : String) : Writes root library [] [] (insideLoop around mark statement) := by
  unfold insideLoop
  split
  · exact .fail nofun shown
  · exact .pure ()

theorem writes_parameters : ∀ ps : List Parameter, (∀ p ∈ ps, .parameter p ∈ root.postorder) →
    Writes root library ((ps.map .parameter).flatMap Node.keys)
      ((ps.map .parameter).flatMap Node.declared) (parameters ps)
  | [], _ => .pure ()
  | p :: rest, here => by
    obtain ⟨first, others⟩ := List.forall_mem_cons.1 here
    have declared := @writes_declareVariable root library _ (Node.shows_start first) p.name p.type
      (.duplicateParameter p.name) nofun
    rw [List.map_cons, List.flatMap_cons, List.flatMap_cons, Node.keys_parameter,
      Node.declared_parameter]
    exact .bind declared fun _ => writes_parameters rest others

theorem writes_openScope : Writes root library [] [] openScope := by
  intro s _ _ within
  refine ⟨.of_eq rfl rfl, within.chain, fun scope mem f held => ?_, within.tables⟩
  rcases List.mem_cons.1 mem with rfl | outer
  · cases held
  · exact within.scopes scope outer f held

theorem writes_closeScope : Writes root library [] [] closeScope := by
  intro s _ _ within
  refine ⟨.of_eq rfl rfl, within.chain, fun scope mem => ?_, within.tables⟩
  exact within.scopes scope (List.mem_of_mem_tail mem)

theorem Writes.inScope {keys : List Key} {declared : List Nat} {check : Check Unit}
    (h : Writes root library keys declared check) :
    Writes root library keys declared (inScope check) := by
  have closed := h.bind fun _ => writes_closeScope
  rw [List.append_nil, List.append_nil] at closed
  exact .after (fun _ => closed) writes_openScope

/-- Keys and declarations that a node has from what it holds alone. -/
theorem Writes.node {n : Node} {check : Check Unit}
    (h : Writes root library (n.children.flatMap Node.keys) (n.children.flatMap Node.declared)
      check)
    (key : n.key? = none) (declares : n.declares = false) :
    Writes root library n.keys n.declared check := by
  rw [Node.keys_eq, Node.declared_eq, key, declares]
  simpa using h

/-- The condition and the body of a loop. -/
theorem writes_loop {n : Node} {test : Expr} {block : Block Stmt} {around : Surroundings}
    (here : n ∈ root.postorder) (children : n.children = [.expr test, .block block])
    (rounds : Writes root library ((block.body.map Node.stmt).flatMap Node.keys)
      ((block.body.map Node.stmt).flatMap Node.declared) (stmts around.loop block.body))
    (statement : String) (expected : Ty) :
    Writes root library (n.children.flatMap Node.keys) (n.children.flatMap Node.declared) (do
      condition statement expected test
      Flow.checkLoop block
      inScope (stmts around.loop block.body)) := by
  obtain ⟨tested, inside⟩ := Node.mem_of_two here children
  simp only [children, List.flatMap_cons, List.flatMap_nil, List.append_nil, Node.keys_block,
    Node.declared_block, Node.declared_expr]
  exact .bind (writes_condition tested statement expected) fun _ =>
    .after (fun _ => rounds.inScope) (.lift fun e => Flow.fault_checkLoop inside)

mutual

theorem writes_stmt (root : Node) (library : Library) : ∀ (s : Stmt) (around : Surroundings),
    .stmt s ∈ root.postorder →
    Writes root library (Node.stmt s).keys (Node.stmt s).declared (stmt around s)
  | .block ⟨mark, body⟩, around, here => by
    refine .node (.inScope (writes_stmts root library body around fun s mem => ?_)) rfl rfl
    exact Node.mem_of_child here (List.mem_map_of_mem mem)
  | .expression mark e, around, here => by
    have inner := Node.mem_of_one here rfl
    refine .node ?_ rfl rfl
    simp only [Node.children, List.flatMap_singleton, Node.declared_expr]
    exact writes_loneExpr inner
  | .declare mark name type value, around, here => writes_declaration here
  | .assign mark target token value, around, here => writes_assignment here
  | .branch mark test ⟨inner, body⟩ other, around, here => by
    have condition : .expr test ∈ root.postorder := Node.mem_of_child here (by simp [Node.children])
    have block : .block ⟨inner, body⟩ ∈ root.postorder :=
      Node.mem_of_child here (by simp [Node.children])
    have first := writes_stmts root library body around (Node.mem_of_body block)
    have second := writes_otherStmt root library other around fun s mem =>
      Node.mem_of_child here (by simp [Node.children, Option.mem_def.1 mem])
    rw [stmt_branch]
    refine .node ?_ rfl rfl
    simp only [Node.children, List.flatMap_cons, Node.keys_block, Node.declared_block,
      Node.declared_expr]
    exact .bind (writes_condition condition "if" .logic) fun _ =>
      .bind first.inScope fun _ => second
  | .whileLoop mark test ⟨inner, body⟩, around, here => by
    have rounds := writes_stmts root library body around.loop
      (Node.mem_of_body (Node.mem_of_two here rfl).2)
    exact .node (writes_loop here rfl rounds "while" .logic) rfl rfl
  | .repeatLoop mark count ⟨inner, body⟩, around, here => by
    have rounds := writes_stmts root library body around.loop
      (Node.mem_of_body (Node.mem_of_two here rfl).2)
    exact .node (writes_loop here rfl rounds "repeat" .number) rfl rfl
  | .function ⟨mark, name, ps, result, ⟨inner, body⟩⟩, around, here => by
    have block : .block ⟨inner, body⟩ ∈ root.postorder :=
      Node.mem_of_child here (by simp [Node.children])
    have bound := @writes_parameters root library ps fun p mem =>
      Node.mem_of_child here (by simp [Node.children, mem])
    have inside := writes_stmts root library body
      (.ofDecl ⟨mark, name, ps, result, ⟨inner, body⟩⟩) (Node.mem_of_body block)
    rw [stmt_function]
    refine .node ?_ rfl rfl
    simp only [Node.children, List.flatMap_append, List.flatMap_singleton, Node.keys_block,
      Node.declared_block]
    refine .after (fun _ => ?_) (writes_declareFunction here)
    exact .after (fun _ => (bound.bind fun _ => inside).inScope)
      (.lift fun e => Flow.fault_checkFunction here)
  | .ret mark value, around, here => by
    have declared : (Node.stmt (.ret mark value)).declared = [] := by
      rw [Node.declared_eq]
      cases value <;> simp [Node.children, Node.declared_expr, Node.declares]
    rw [declared]
    exact writes_returns here around
  | .brk mark, around, here => .node (writes_insideLoop (Node.shows_start here) around _) rfl rfl
  | .cont mark, around, here => .node (writes_insideLoop (Node.shows_start here) around _) rfl rfl

theorem writes_otherStmt (root : Node) (library : Library) :
    ∀ (other : Option Stmt) (around : Surroundings),
      (∀ s ∈ other, .stmt s ∈ root.postorder) →
      Writes root library ((other.toList.map Node.stmt).flatMap Node.keys)
        ((other.toList.map Node.stmt).flatMap Node.declared) (otherStmt around other)
  | none, _, _ => .pure ()
  | some s, around, here => by
    simp only [Option.toList_some, List.map_cons, List.map_nil, List.flatMap_singleton]
    exact writes_stmt root library s around (here s rfl)

theorem writes_stmts (root : Node) (library : Library) :
    ∀ (body : List Stmt) (around : Surroundings), (∀ s ∈ body, .stmt s ∈ root.postorder) →
      Writes root library ((body.map Node.stmt).flatMap Node.keys)
        ((body.map Node.stmt).flatMap Node.declared) (stmts around body)
  | [], _, _ => .pure ()
  | s :: rest, around, here => by
    obtain ⟨first, others⟩ := List.forall_mem_cons.1 here
    exact .bind (writes_stmt root library s around first) fun _ =>
      writes_stmts root library rest around others

end

theorem writes_program (p : Program) (library : Library) :
    Writes (.block p) library (Node.block p).keys (Node.block p).declared (program p) := by
  rw [Node.keys_block, Node.declared_block]
  exact Writes.inScope (writes_stmts _ library p.body .top
    (Node.mem_of_body (Node.mem_postorder_self _)))

end Typing

/-- Nodes with identities of their own have keys of their own. -/
theorem Node.nodup_keys {n : Node}
    (ascending : (n.postorder.map fun inner => inner.mark.id).Pairwise (· < ·)) : n.keys.Nodup := by
  refine (List.pairwise_map.1 ascending).filterMap _ fun one two below key mem key' mem' => ?_
  obtain ⟨_, _, rfl⟩ := Option.map_eq_some_iff.1 mem
  obtain ⟨_, _, rfl⟩ := Option.map_eq_some_iff.1 mem'
  intro same
  exact Nat.ne_of_lt below (congrArg Prod.snd same)

theorem Node.mem_keys {n : Node} {record : Record} {id : Nat} :
    (record, id) ∈ n.keys ↔ ∃ inner ∈ n.postorder, inner.record? = some record ∧
      inner.mark.id = id := by
  simp [keys, key?, List.mem_filterMap, Option.map_eq_some_iff, Prod.ext_iff]

theorem Program.written_of_analyse {tokens : List Token} {file : String} {p : Program}
    (read : Program.ofTokens tokens file = .ok p) (library : Library) :
    (∀ e, p.analyse library = .error e → Fault (.block p) e) ∧
    ∀ tables, p.analyse library = .ok tables →
      (∀ key, tables.Has key ↔ key ∈ (Node.block p).keys) ∧
      (∀ k id, (Node.block p).declared[k]? = some id → tables.symbols.get? id = some k) ∧
      ∀ id f, tables.functions.get? id = some f → f.Known (.block p) library := by
  have empty : ∀ key, ¬ Tables.empty.Has key := by
    rintro ⟨_ | _ | _, id⟩ <;> simp [Tables.Has, Tables.empty]
  have within : Typing.State.Within (.block p) library ⟨.base library, .empty, 0⟩ :=
    ⟨rfl, by simp [ScopeChain.base], by simp [Tables.empty]⟩
  have ran := Typing.writes_program p library ⟨.base library, .empty, 0⟩
    (Node.nodup_keys (Program.ascending_of_ofTokens read)) (fun key _ => empty key) within
  unfold Program.analyse
  cases done : (Typing.program p).run ⟨.base library, .empty, 0⟩ with
  | error e =>
    rw [done] at ran
    refine ⟨fun e' failed => ?_, nofun⟩
    cases failed
    exact ran
  | ok result =>
    rw [done] at ran
    refine ⟨nofun, fun tables accepted => ?_⟩
    cases accepted
    obtain ⟨wrote, within'⟩ := ran
    refine ⟨fun key => ?_, fun k id found => ?_, within'.tables⟩
    · rw [wrote.has]
      exact or_iff_right (empty key)
    · rw [wrote.counted k id found, Nat.zero_add]

/-- Analysis records every node once and in the table that it belongs to, and it never finds a
record where it makes one. The nodes that declare variables and parameters have the symbols 0, 1, 2
and so on in the order of the script. -/
theorem nodes_recorded_once {tokens : List Token} {file : String} {p : Program}
    (read : Program.ofTokens tokens file = .ok p) (library : Library) :
    (∀ e, p.analyse library = .error e → ∀ message, e.cause ≠ .internalError message) ∧
    ∀ tables, p.analyse library = .ok tables →
      (∀ id, (tables.symbols.get? id).isSome = true ↔
        ∃ n ∈ p.nodes, n.record? = some .symbol ∧ n.mark.id = id) ∧
      (∀ id, (tables.functions.get? id).isSome = true ↔
        ∃ n ∈ p.nodes, n.record? = some .function ∧ n.mark.id = id) ∧
      (∀ id, (tables.operators.get? id).isSome = true ↔
        ∃ n ∈ p.nodes, n.record? = some .operator ∧ n.mark.id = id) ∧
      (p.nodes.filter Node.declares).map (fun n => tables.symbols.get? n.mark.id) =
        (List.range (p.nodes.filter Node.declares).length).map some := by
  obtain ⟨fault, written⟩ := Program.written_of_analyse read library
  refine ⟨fun e failed => (fault e failed).1, fun tables accepted => ?_⟩
  obtain ⟨has, counted, _⟩ := written tables accepted
  refine ⟨fun id => (has (.symbol, id)).trans Node.mem_keys,
    fun id => (has (.function, id)).trans Node.mem_keys,
    fun id => (has (.operator, id)).trans Node.mem_keys, ?_⟩
  refine List.ext_getElem? fun k => ?_
  rw [List.getElem?_map, List.getElem?_map]
  cases found : (p.nodes.filter Node.declares)[k]? with
  | none =>
    have behind := List.getElem?_eq_none_iff.1 found
    rw [List.getElem?_eq_none (by simpa using behind)]
    rfl
  | some n =>
    have inside := (List.getElem?_eq_some_iff.1 found).1
    have symbol := counted k n.mark.id (by
      rw [Node.declared, List.getElem?_map]
      exact congrArg (Option.map _) found)
    rw [List.getElem?_range inside, Option.map_some, Option.map_some, symbol]

/-- A script with a declaration, parameters, calls with and without a value, a compound assignment
and conditionals in a chain. -/
def recordedSource : String :=
  "function half(n:number,r:real):number{if n<2{return 0;}else if n==2{return 1;}
else{return half(n-2,r)+1;}}
var x:number=half([4][0],1.5);
x+=2;x=x-1;
print(`{x}`);"

theorem nodes_recorded_once_halving :
    ∃ tokens p tables, Program.ofTokens tokens "" = .ok p ∧
      p.analyse (.standard .builtIn) = .ok tables ∧
      tables.symbols.sorted = [(0, 0), (1, 1), (2, 0), (8, 0), (15, 0), (18, 1), (35, 2), (36, 2),
        (39, 2), (40, 2), (45, 2)] ∧
      tables.functions.sorted.map Prod.fst = [19, 34, 47] ∧
      tables.operators.sorted.map Prod.fst = [4, 10, 17, 21, 32, 38, 42] ∧
      (∀ id, (tables.operators.get? id).isSome = true ↔
        ∃ n ∈ p.nodes, n.record? = some .operator ∧ n.mark.id = id) ∧
      (p.nodes.filter Node.declares).map (fun n => tables.symbols.get? n.mark.id) =
        (List.range (p.nodes.filter Node.declares).length).map some := by
  have listed : ((Program.ofSource recordedSource "").toOption.bind fun p =>
      (p.analyse (.standard .builtIn)).toOption.map fun tables =>
        (tables.symbols.sorted, tables.functions.sorted.map Prod.fst,
          tables.operators.sorted.map Prod.fst)) =
      some ([(0, 0), (1, 1), (2, 0), (8, 0), (15, 0), (18, 1), (35, 2), (36, 2), (39, 2), (40, 2),
        (45, 2)], [19, 34, 47], [4, 10, 17, 21, 32, 38, 42]) := by decide +kernel
  obtain ⟨p, read, listed⟩ := Option.bind_eq_some_iff.1 listed
  obtain ⟨tables, accepted, listed⟩ := Option.map_eq_some_iff.1 listed
  obtain ⟨tokens, _, parsed⟩ := Program.exists_tokens (eq_ok_of_toOption read)
  have analysed := eq_ok_of_toOption accepted
  obtain ⟨_, recorded⟩ := nodes_recorded_once parsed (.standard .builtIn)
  obtain ⟨_, _, operators, numbered⟩ := recorded tables analysed
  simp only [Prod.mk.injEq] at listed
  exact ⟨tokens, p, tables, parsed, analysed, listed.1, listed.2.1, listed.2.2, operators, numbered⟩

end CursorScript
