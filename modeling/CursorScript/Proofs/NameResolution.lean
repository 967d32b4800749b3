import CursorScript.Proofs.LexicalScope

/-!
How analysis resolves names. Analysis keeps a chain of scopes that it changes as it goes from node
to node. At every node that chain lists the declarations that the node sees, so a use gets the
symbol of the declaration that it means.
-/
namespace CursorScript

/-- Whether a cause is that a variable is missing or that its name is taken. -/
def Cause.isBinding : Cause → Bool
  | variableAlreadyDeclared _ => true
  | variableNotDeclared .. => true
  | _ => false

/-- An error of analysis that speaks of a variable speaks the truth: a use that is refused means no
declaration, and a declaration that is refused is the second of its name in its scope. -/
structure Excused (top : Spot) (e : Error) : Prop where
  missing : ∀ name similar, e.cause = .variableNotDeclared name similar →
    ∃ scopes n s, top.Has ⟨scopes, n⟩ ∧ n.use? = some s ∧ s.name = name ∧
      e.position = s.mark.start ∧ ∀ d, ¬ s.Means scopes d
  taken : ∀ name, e.cause = .variableAlreadyDeclared name →
    ∃ scope scopes n, top.Has ⟨scope :: scopes, n⟩ ∧ n.binds? = some name ∧
      e.position = n.mark.start ∧ ∃ d ∈ scope, d.binds? = some name

theorem excused_of_other {top : Spot} {e : Error} (other : e.cause.isBinding = false) :
    Excused top e :=
  ⟨fun _ _ cause => by simp [cause, Cause.isBinding] at other,
    fun _ cause => by simp [cause, Cause.isBinding] at other⟩

namespace Flow
variable {body : Body}

theorem error_of_bind {α β : Type} {first : Except Error α} {next : α → Except Error β} {e : Error}
    (h : first >>= next = .error e) : first = .error e ∨ ∃ a, next a = .error e := by
  cases first with
  | error found =>
    cases h
    exact .inl rfl
  | ok a => exact .inr ⟨a, h⟩

mutual

theorem cause_endsEarly : ∀ (s : Stmt) (e : Error), endsEarly body s = .error e →
    e.cause = .unreachableCode
  | .block ⟨_, stmts⟩, e, h => cause_sequenceEnds stmts e h
  | .branch _ _ ⟨_, stmts⟩ other, e, h => by
    rcases error_of_bind h with failed | ⟨_, rest⟩
    · exact cause_sequenceEnds stmts e failed
    · rcases error_of_bind rest with failed | ⟨_, rest⟩
      · exact cause_otherEnds other e failed
      · cases rest
  | .ret .., _, h => nomatch h
  | .brk _, _, h => nomatch h
  | .cont _, _, h => nomatch h
  | .expression .., _, h => nomatch h
  | .declare .., _, h => nomatch h
  | .assign .., _, h => nomatch h
  | .whileLoop .., _, h => nomatch h
  | .repeatLoop .., _, h => nomatch h
  | .function _, _, h => nomatch h

theorem cause_otherEnds : ∀ (other : Option Stmt) (e : Error), otherEnds body other = .error e →
    e.cause = .unreachableCode
  | none, _, h => nomatch h
  | some s, e, h => cause_endsEarly s e h

theorem cause_sequenceEnds : ∀ (stmts : List Stmt) (e : Error),
    sequenceEnds body stmts = .error e → e.cause = .unreachableCode
  | [], _, h => nomatch h
  | [s], e, h => by
    rcases error_of_bind h with failed | ⟨_, rest⟩
    · exact cause_endsEarly s e failed
    · cases rest
  | s :: next :: rest, e, h => by
    rw [sequenceEnds] at h
    rcases error_of_bind h with failed | ⟨ended, failed⟩
    · exact cause_endsEarly s e failed
    · cases ended with
      | true =>
        cases failed
        rfl
      | false => exact cause_sequenceEnds (next :: rest) e failed

end

theorem isBinding_checkLoop {block : Block Stmt} {e : Error} (h : checkLoop block = .error e) :
    e.cause.isBinding = false := by
  rcases error_of_bind h with failed | ⟨_, failed⟩
  · rw [cause_sequenceEnds _ e failed]
    rfl
  · cases failed

theorem isBinding_checkFunction {decl : FunctionDecl Stmt} {e : Error}
    (h : checkFunction decl = .error e) : e.cause.isBinding = false := by
  rcases error_of_bind h with failed | ⟨_, failed⟩
  · rw [cause_sequenceEnds _ e failed]
    rfl
  · split at failed
    · cases failed
      rfl
    · cases failed

end Flow

namespace Typing

structure Lists (symbols : Table Nat) (entry : String × Variable) (d : Node) : Prop where
  name : d.binds? = some entry.1
  symbol : symbols.get? d.mark.id = some entry.2.symbol

def State.Sees (s : State) (scopes : List (List Node)) : Prop :=
  s.scopes.scopes.Forall₂ (fun scope => scope.vars.Forall₂ (Lists s.tables.symbols)) scopes

section lookup
variable {symbols : Table Nat} {name : String}

theorem not_binds_of_lookup {vars : List (String × Variable)} {scope : List Node}
    (h : vars.Forall₂ (Lists symbols) scope) (absent : vars.lookup name = none) :
    ∀ d ∈ scope, d.binds? ≠ some name := by
  induction h with
  | nil => nofun
  | @cons entry d rest others first _ ih =>
    obtain ⟨key, v⟩ := entry
    rw [List.lookup_cons] at absent
    split at absent
    · cases absent
    · next other =>
      refine List.forall_mem_cons.2 ⟨fun binds => ?_, ih absent⟩
      rw [first.name] at binds
      cases binds
      simp at other

theorem exists_of_lookup {vars : List (String × Variable)} {scope : List Node} {v : Variable}
    (h : vars.Forall₂ (Lists symbols) scope) (found : vars.lookup name = some v) :
    ∃ d ∈ scope, d.binds? = some name ∧ symbols.get? d.mark.id = some v.symbol := by
  induction h with
  | nil => cases found
  | @cons entry d rest others first _ ih =>
    obtain ⟨key, w⟩ := entry
    rw [List.lookup_cons] at found
    split at found
    · next same =>
      cases found
      cases beq_iff_eq.1 same
      exact ⟨d, List.mem_cons_self, first.name, first.symbol⟩
    · obtain ⟨d', mem, binds, symbol⟩ := ih found
      exact ⟨d', List.mem_cons_of_mem _ mem, binds, symbol⟩

theorem absent_of_findSome? {levels : List Scope} {scopes : List (List Node)}
    (h : levels.Forall₂ (fun level => level.vars.Forall₂ (Lists symbols)) scopes)
    (absent : levels.findSome? (fun level => level.lookup? name) = none) :
    ∀ scope ∈ scopes, ∀ d ∈ scope, d.binds? ≠ some name := by
  rw [List.findSome?_eq_none_iff] at absent
  induction h with
  | nil => nofun
  | cons first _ ih =>
    obtain ⟨none, others⟩ := List.forall_mem_cons.1 absent
    exact List.forall_mem_cons.2 ⟨not_binds_of_lookup first none, ih others⟩

theorem exists_nearest_of_findSome? {levels : List Scope} {scopes : List (List Node)} {v : Variable}
    (h : levels.Forall₂ (fun level => level.vars.Forall₂ (Lists symbols)) scopes)
    (found : levels.findSome? (fun level => level.lookup? name) = some v) :
    ∃ d, Nearest name scopes d ∧ symbols.get? d.mark.id = some v.symbol := by
  induction h with
  | nil => cases found
  | @cons level scope _ _ first _ ih =>
    rw [List.findSome?_cons] at found
    split at found
    · next here =>
      cases found
      obtain ⟨d, mem, binds, symbol⟩ := exists_of_lookup first here
      exact ⟨d, .of_head mem binds _, symbol⟩
    · next none =>
      obtain ⟨d, near, symbol⟩ := ih found
      exact ⟨d, near.of_tail (not_binds_of_lookup first none), symbol⟩

end lookup

/-- A step of analysis leads from one list of scopes to another and finds out something that stays
true as more symbols are recorded, or it fails with an error that speaks the truth. -/
def Finds {α : Type} (top : Spot) (scopes : List (List Node)) (check : Check α)
    (scopes' : List (List Node)) (post : Table Nat → α → Prop) : Prop :=
  ∀ s, s.Sees scopes →
    match check.run s with
    | .error e => Excused top e
    | .ok (a, s') => s'.Sees scopes' ∧ s.tables.symbols.Sub s'.tables.symbols ∧
        ∀ symbols, s'.tables.symbols.Sub symbols → post symbols a

variable {top : Spot}

section rules
variable {α β : Type} {A B C : List (List Node)} {check : Check α} {next : α → Check β}
  {P P' : Table Nat → α → Prop} {Q : Table Nat → β → Prop}

theorem Finds.bind (h : Finds top A check B P)
    (rest : ∀ a, Finds top B (next a) C fun symbols b => P symbols a → Q symbols b) :
    Finds top A (check >>= next) C Q := by
  intro s sees
  have ran := h s sees
  rw [StateT.run_bind]
  cases done : check.run s with
  | error e =>
    rw [done] at ran
    exact ran
  | ok result =>
    obtain ⟨a, t⟩ := result
    rw [done] at ran
    obtain ⟨sees', grows, found⟩ := ran
    have ran' := rest a t sees'
    show match (next a).run t with
      | .error e => Excused top e
      | .ok (b, s') => s'.Sees C ∧ s.tables.symbols.Sub s'.tables.symbols ∧
          ∀ symbols, s'.tables.symbols.Sub symbols → Q symbols b
    cases done' : (next a).run t with
    | error e =>
      rw [done'] at ran'
      exact ran'
    | ok result =>
      rw [done'] at ran'
      obtain ⟨sees'', grows', found'⟩ := ran'
      refine ⟨sees'', fun id x had => grows' id x (grows id x had), fun symbols more => ?_⟩
      exact found' symbols more (found symbols fun id x had => more id x (grows' id x had))

theorem Finds.imp (h : Finds top A check B P) (imp : ∀ symbols a, P symbols a → P' symbols a) :
    Finds top A check B P' := by
  intro s sees
  have ran := h s sees
  cases done : check.run s with
  | error e =>
    rw [done] at ran
    exact ran
  | ok result =>
    rw [done] at ran
    exact ⟨ran.1, ran.2.1, fun symbols more => imp symbols _ (ran.2.2 symbols more)⟩

/-- A step that finds out nothing comes before others. -/
theorem Finds.after (h : ∀ a, Finds top B (next a) C Q)
    (quiet : Finds top A check B fun _ _ => True) : Finds top A (check >>= next) C Q :=
  quiet.bind fun a => (h a).imp fun _ _ found _ => found

theorem Finds.pure {a : α} (found : ∀ symbols, P symbols a) :
    Finds top A (pure a : Check α) A P :=
  fun _ sees => ⟨sees, .refl _, fun symbols _ => found symbols⟩

theorem Finds.fail {cause : Cause} (other : cause.isBinding = false) (p : Position) :
    Finds top A (Typing.fail cause p : Check α) B P := fun _ _ => excused_of_other other

theorem Finds.fail_bind {cause : Cause} (other : cause.isBinding = false) (p : Position) :
    Finds top A (Typing.fail cause p >>= next) B Q := fun _ _ => excused_of_other other

/-- A condition under which analysis goes on. -/
theorem Finds.unless {cause : Cause} {p : Position} {fails : Prop} [Decidable fails]
    {next : Unit → Check α} (other : cause.isBinding = false) (h : Finds top A (next ()) B P) :
    Finds top A (if fails then Typing.fail cause p >>= next else next ()) B P := by
  split
  · exact .fail_bind other p
  · exact h

theorem Finds.lift {result : Except Error α}
    (h : ∀ e, result = .error e → e.cause.isBinding = false) :
    Finds top A (liftM result : Check α) A fun _ _ => True := by
  intro s sees
  cases result with
  | error e => exact excused_of_other (h e rfl)
  | ok a => exact ⟨sees, .refl _, fun _ _ => trivial⟩

end rules

theorem State.Sees.mono {s s' : State} {A : List (List Node)} (h : s.Sees A)
    (scopes : s'.scopes.scopes = s.scopes.scopes)
    (grows : s.tables.symbols.Sub s'.tables.symbols) : s'.Sees A := by
  unfold State.Sees
  rw [scopes]
  exact h.imp fun _ _ level => level.imp fun _ _ lists =>
    ⟨lists.name, grows _ _ lists.symbol⟩

section steps
variable {A : List (List Node)}

theorem finds_recordSymbol (mark : Mark) (x : Nat) :
    Finds top A (recordSymbol mark x) A fun symbols _ => symbols.get? mark.id = some x := by
  intro s sees
  cases recorded : s.tables.symbols.record? mark.id x with
  | none =>
    simp only [recordSymbol, StateT.run_bind, StateT.run_get, pure_bind, recorded]
    exact excused_of_other rfl
  | some next =>
    rw [run_recordSymbol recorded]
    have grows := Table.sub_of_record recorded
    exact ⟨sees.mono rfl grows, grows, fun symbols more =>
      more _ _ (Table.get?_of_record recorded)⟩

theorem finds_recordFunction (mark : Mark) (f : Function) :
    Finds top A (recordFunction mark f) A fun _ _ => True := by
  intro s sees
  simp only [recordFunction, StateT.run_bind, StateT.run_get, pure_bind]
  cases s.tables.functions.record? mark.id f with
  | none => exact excused_of_other rfl
  | some next => exact ⟨sees, .refl _, fun _ _ => trivial⟩

theorem finds_recordOperator (mark : Mark) (op : Operator) :
    Finds top A (recordOperator mark op) A fun _ _ => True := by
  intro s sees
  simp only [recordOperator, StateT.run_bind, StateT.run_get, pure_bind]
  cases s.tables.operators.record? mark.id op with
  | none => exact excused_of_other rfl
  | some next => exact ⟨sees, .refl _, fun _ _ => trivial⟩

/-- Where a use is looked up, it is found out which declaration it means. -/
theorem finds_variableOf {n : Node} {symbol : Symbol} (here : top.Has ⟨A, n⟩)
    (use : n.use? = some symbol) :
    Finds top A (variableOf symbol) A fun symbols v =>
      ∃ d, symbol.Means A d ∧ symbols.get? d.mark.id = some v.symbol := by
  intro s sees
  simp only [variableOf, StateT.run_bind, StateT.run_get, pure_bind]
  cases found : s.scopes.lookup? symbol.name symbol.up with
  | none =>
    have absent := absent_of_findSome? (List.forall₂_drop symbol.up sees) found
    refine ⟨fun name similar cause => ?_, nofun⟩
    cases cause
    refine ⟨A, n, symbol, here, use, rfl, rfl, fun d means => ?_⟩
    obtain ⟨scope, mem, declared, binds⟩ := means.exists
    exact absent scope mem d declared binds
  | some v =>
    obtain ⟨d, means, symbol⟩ := exists_nearest_of_findSome? (List.forall₂_drop _ sees) found
    exact ⟨sees, .refl _, fun symbols more => ⟨d, means, more _ _ symbol⟩⟩

theorem finds_resolveCall (mark : Mark) (callee : String) (types : List Ty) :
    Finds top A (resolveCall mark callee types) A fun _ _ => True := by
  have found : Finds top A (functionOf mark callee types) A fun _ _ => True := by
    intro s sees
    simp only [functionOf, StateT.run_bind, StateT.run_get, pure_bind]
    cases s.scopes.function? callee types with
    | none => exact excused_of_other rfl
    | some f => exact ⟨sees, .refl _, fun _ _ => trivial⟩
  exact .after (fun f => .after (fun _ => .pure fun _ => trivial) (finds_recordFunction mark f))
    found

theorem finds_refuseEmpty (type : Ty) (e : Expr) :
    Finds top A (refuseEmpty type e) A fun _ _ => True := by
  unfold refuseEmpty
  split
  · exact .fail rfl _
  · exact .pure fun _ => trivial

theorem finds_commonType (current : Option Ty) (next : Ty) (e : Expr) :
    Finds top A (commonType current next e) A fun _ _ => True := by
  refine .after (fun _ => ?_) (finds_refuseEmpty next e)
  split
  · exact .pure fun _ => trivial
  · exact .pure fun _ => trivial
  · split
    · exact .pure fun _ => trivial
    · exact .fail rfl _

theorem finds_chooseOperator {mark : Mark} {choice : Option (Operator × Ty)} {cause : Cause}
    {p : Position} (other : cause.isBinding = false) :
    Finds top A (chooseOperator mark choice cause p) A fun _ _ => True := by
  unfold chooseOperator
  split
  · next op type => exact .after (fun _ => .pure fun _ => trivial) (finds_recordOperator mark op)
  · exact .fail other p

end steps

theorem has_exprs {A : List (List Node)} {n : Node} (here : top.Has ⟨A, n⟩) (es : List Expr)
    (plain : n.members? = none) (held : n.children = es.map .expr) :
    ∀ e ∈ es, top.Has ⟨A, .expr e⟩ := by
  intro e mem
  refine here.child plain ?_
  rw [held]
  exact List.mem_map_of_mem mem

mutual

theorem finds_expr (top : Spot) (A : List (List Node)) : ∀ e, top.Has ⟨A, .expr e⟩ →
    Finds top A (expr e) A fun symbols _ => Spot.Resolved symbols ⟨A, .expr e⟩
  | .number .., _ => .pure fun _ => Spot.resolved_of_exprs [] rfl rfl nofun
  | .real .., _ => .pure fun _ => Spot.resolved_of_exprs [] rfl rfl nofun
  | .logic .., _ => .pure fun _ => Spot.resolved_of_exprs [] rfl rfl nofun
  | .string .., _ => .pure fun _ => Spot.resolved_of_exprs [] rfl rfl nofun
  | .material .., _ => .pure fun _ => Spot.resolved_of_exprs [] rfl rfl nofun
  | .member .., _ => .pure fun _ => Spot.resolved_of_exprs [] rfl rfl nofun
  | .interpolation mark parts, here =>
    .bind (finds_embeddedParts top A parts (has_exprs here _ rfl rfl)) fun _ =>
      .pure fun _ inside => Spot.resolved_of_exprs _ rfl rfl inside
  | .symbol symbol, here => by
    refine .bind (finds_variableOf here rfl) fun v =>
      .bind (finds_recordSymbol symbol.mark v.symbol) fun _ => .pure fun _ recorded means => ?_
    obtain ⟨d, means, declared⟩ := means
    refine Spot.resolved_of_children ⟨fun s use => ?_, nofun⟩ rfl nofun
    cases use
    exact ⟨d, v.symbol, means, recorded, declared⟩
  | .binary mark left token right, here => by
    have inside := has_exprs here [left, right] rfl rfl
    refine .bind (finds_expr top A left (inside left (by simp))) fun T =>
      .after (fun _ => ?_) (finds_refuseEmpty T left)
    refine .bind (finds_expr top A right (inside right (by simp))) fun U =>
      .after (fun _ => ?_) (finds_refuseEmpty U right)
    refine (finds_chooseOperator rfl).imp fun _ _ _ two one => ?_
    exact Spot.resolved_of_exprs [left, right] rfl rfl (by simp [one, two])
  | .unary mark token operand, here => by
    have inside := has_exprs here [operand] rfl rfl
    refine .bind (finds_expr top A operand (inside operand (by simp))) fun T =>
      .after (fun _ => ?_) (finds_refuseEmpty T operand)
    refine (finds_chooseOperator rfl).imp fun _ _ _ one => ?_
    exact Spot.resolved_of_exprs [operand] rfl rfl (by simp [one])
  | .index mark collection place, here => by
    have inside := has_exprs here [collection, place] rfl rfl
    refine .bind (finds_expr top A collection (inside collection (by simp))) fun T =>
      .after (fun _ => ?_) (finds_refuseEmpty T collection)
    refine .bind (finds_expr top A place (inside place (by simp))) fun U =>
      .after (fun _ => ?_) (finds_refuseEmpty U place)
    refine (finds_chooseOperator rfl).imp fun _ _ _ two one => ?_
    exact Spot.resolved_of_exprs [collection, place] rfl rfl (by simp [one, two])
  | .call mark callee arguments, here => by
    refine .bind (finds_argumentTypes top A callee arguments (has_exprs here _ rfl rfl))
      fun types => .after (fun slot => ?_) (finds_resolveCall mark callee types)
    split
    · exact .pure fun _ inside => Spot.resolved_of_exprs _ rfl rfl inside
    · exact .fail rfl _
  | .list mark elements, here => by
    refine .bind (finds_elementType top A none elements (has_exprs here _ rfl rfl)) fun found => ?_
    split <;> exact .pure fun _ inside => Spot.resolved_of_exprs _ rfl rfl inside
  | .map mark entries, here => by
    have held := entryOperands_children mark entries
    refine .bind (finds_entryTypes top A none none entries (has_exprs here _ rfl held))
      fun found => ?_
    split <;> exact .pure fun _ inside => Spot.resolved_of_exprs _ rfl held inside

theorem finds_embeddedParts (top : Spot) (A : List (List Node)) : ∀ parts,
    (∀ e ∈ Part.embedded parts, top.Has ⟨A, .expr e⟩) →
    Finds top A (embeddedParts parts) A fun symbols _ =>
      ∀ e ∈ Part.embedded parts, Spot.Resolved symbols ⟨A, .expr e⟩
  | [], _ => .pure fun _ => nofun
  | .text _ :: rest, here => finds_embeddedParts top A rest here
  | .embed e :: rest, here => by
    obtain ⟨first, others⟩ := List.forall_mem_cons.1 here
    refine .bind (finds_expr top A e first) fun T => .unless rfl ?_
    exact (finds_embeddedParts top A rest others).imp fun _ _ more one =>
      List.forall_mem_cons.2 ⟨one, more⟩

theorem finds_argumentTypes (top : Spot) (A : List (List Node)) (callee : String) : ∀ es,
    (∀ e ∈ es, top.Has ⟨A, .expr e⟩) →
    Finds top A (argumentTypes callee es) A fun symbols _ =>
      ∀ e ∈ es, Spot.Resolved symbols ⟨A, .expr e⟩
  | [], _ => .pure fun _ => nofun
  | e :: rest, here => by
    obtain ⟨first, others⟩ := List.forall_mem_cons.1 here
    refine .bind (finds_expr top A e first) fun T => .unless rfl ?_
    exact .bind (finds_argumentTypes top A callee rest others) fun types => .pure fun _ more one =>
      List.forall_mem_cons.2 ⟨one, more⟩

theorem finds_elementType (top : Spot) (A : List (List Node)) : ∀ current es,
    (∀ e ∈ es, top.Has ⟨A, .expr e⟩) →
    Finds top A (elementType current es) A fun symbols _ =>
      ∀ e ∈ es, Spot.Resolved symbols ⟨A, .expr e⟩
  | _, [], _ => .pure fun _ => nofun
  | current, e :: rest, here => by
    obtain ⟨first, others⟩ := List.forall_mem_cons.1 here
    refine .bind (finds_expr top A e first) fun T =>
      .after (fun U => ?_) (finds_commonType current T e)
    exact (finds_elementType top A (some U) rest others).imp fun _ _ more one =>
      List.forall_mem_cons.2 ⟨one, more⟩

theorem finds_entryTypes (top : Spot) (A : List (List Node)) : ∀ key value entries,
    (∀ e ∈ Machine.entryOperands entries, top.Has ⟨A, .expr e⟩) →
    Finds top A (entryTypes key value entries) A fun symbols _ =>
      ∀ e ∈ Machine.entryOperands entries, Spot.Resolved symbols ⟨A, .expr e⟩
  | _, _, [], _ => .pure fun _ => nofun
  | key, value, (k, v) :: rest, here => by
    obtain ⟨first, others⟩ := List.forall_mem_cons.1 here
    obtain ⟨second, others⟩ := List.forall_mem_cons.1 others
    refine .bind (finds_expr top A k first) fun T =>
      .after (fun T' => ?_) (finds_commonType key T k)
    refine .bind (finds_expr top A v second) fun U =>
      .after (fun U' => ?_) (finds_commonType value U v)
    exact (finds_entryTypes top A (some T') (some U') rest others).imp fun _ _ more two one =>
      List.forall_mem_cons.2 ⟨one, List.forall_mem_cons.2 ⟨two, more⟩⟩

end

section statements
variable {A : List (List Node)} {scope : List Node}

theorem finds_loneExpr {e : Expr} (here : top.Has ⟨A, .expr e⟩) :
    Finds top A (loneExpr e) A fun symbols _ => Spot.Resolved symbols ⟨A, .expr e⟩ := by
  unfold loneExpr
  split
  · next mark callee arguments =>
    refine .bind (finds_argumentTypes top A callee arguments (has_exprs here _ rfl rfl))
      fun types => .after (fun _ => ?_) (finds_resolveCall mark callee types)
    exact .pure fun _ inside => Spot.resolved_of_exprs _ rfl rfl inside
  · exact .bind (finds_expr top A e here) fun _ => .pure fun _ found => found

theorem finds_condition {e : Expr} (here : top.Has ⟨A, .expr e⟩) (statement : String)
    (expected : Ty) :
    Finds top A (condition statement expected e) A fun symbols _ =>
      Spot.Resolved symbols ⟨A, .expr e⟩ := by
  refine .bind (finds_expr top A e here) fun T => ?_
  split
  · exact .fail rfl _
  · exact .pure fun _ found => found

theorem exists_of_addVariable? {s : State} {name : String} {v : Variable}
    (sees : s.Sees (scope :: A)) (refused : s.scopes.addVariable? name v = none) :
    ∃ d ∈ scope, d.binds? = some name := by
  obtain ⟨level, levels, lists, _, chain⟩ := List.forall₂_cons_right_iff.1 sees
  simp only [ScopeChain.addVariable?, ScopeChain.modify?, chain, Scope.addVariable?,
    Option.map_eq_none_iff, ite_eq_left_iff, reduceCtorEq, imp_false, not_not] at refused
  obtain ⟨w, found⟩ := Option.isSome_iff_exists.1 refused
  obtain ⟨d, mem, binds, _⟩ := exists_of_lookup lists found
  exact ⟨d, mem, binds⟩

/-- A variable that is added comes behind the others of its scope and has a new name. -/
theorem sees_of_addVariable? {s : State} {name : String} {v : Variable} {chain : ScopeChain}
    {n : Node} {symbols : Table Nat} (sees : s.Sees (scope :: A))
    (added : s.scopes.addVariable? name v = some chain) (binds : n.binds? = some name)
    (recorded : s.tables.symbols.record? n.mark.id v.symbol = some symbols) (nextSymbol : Nat) :
    (∀ d ∈ scope, d.binds? ≠ some name) ∧
      State.Sees ⟨chain, { s.tables with symbols := symbols }, nextSymbol⟩
        ((scope ++ [n]) :: A) := by
  have later : State.Sees { s with tables := { s.tables with symbols := symbols } } (scope :: A) :=
    sees.mono rfl (Table.sub_of_record recorded)
  obtain ⟨level, levels, lists, outer, same⟩ := List.forall₂_cons_right_iff.1 later
  dsimp only at same
  simp only [ScopeChain.addVariable?, ScopeChain.modify?, same, Scope.addVariable?,
    Option.map_eq_some_iff, Option.ite_none_left_eq_some, Option.some.injEq] at added
  obtain ⟨_, ⟨free, rfl⟩, rfl⟩ := added
  refine ⟨not_binds_of_lookup lists (Option.not_isSome_iff_eq_none.1 free), .cons ?_ outer⟩
  exact List.rel_append lists (.cons ⟨binds, Table.get?_of_record recorded⟩ .nil)

/-- Where a variable is declared, its name is new in its scope. -/
theorem finds_declareVariable {n : Node} {name : String} {taken : Cause}
    (here : top.Has ⟨scope :: A, n⟩) (binds : n.binds? = some name) (type : Ty)
    (refusal : taken.isBinding = true → taken = .variableAlreadyDeclared name) :
    Finds top (scope :: A) (declareVariable n.mark name type taken) ((scope ++ [n]) :: A)
      fun _ _ => ∀ d ∈ scope, d.binds? ≠ some name := by
  intro s sees
  simp only [declareVariable, StateT.run_bind, StateT.run_get, pure_bind]
  cases added : s.scopes.addVariable? name ⟨type, s.nextSymbol, n.mark.id⟩ with
  | none =>
    obtain ⟨d, mem, same⟩ := exists_of_addVariable? sees added
    refine ⟨fun other similar cause => ?_, fun other cause => ?_⟩
    · cases cause
      cases refusal rfl
    · cases cause
      cases refusal rfl
      exact ⟨scope, A, n, here, binds, rfl, d, mem, same⟩
  | some chain =>
    simp only [StateT.run_bind, StateT.run_set, pure_bind]
    cases recorded : s.tables.symbols.record? n.mark.id s.nextSymbol with
    | none =>
      simp only [recordSymbol, StateT.run_bind, StateT.run_get, pure_bind, recorded]
      exact excused_of_other rfl
    | some symbols =>
      rw [run_recordSymbol
        (s := { s with scopes := chain, nextSymbol := s.nextSymbol + 1 }) recorded]
      obtain ⟨free, sees'⟩ := sees_of_addVariable? sees added binds recorded (s.nextSymbol + 1)
      exact ⟨sees', Table.sub_of_record recorded, fun _ _ => free⟩

theorem finds_declareFunction (decl : FunctionDecl Stmt) :
    Finds top (scope :: A) (declareFunction decl) (scope :: A) fun _ _ => True := by
  intro s sees
  obtain ⟨level, levels, lists, outer, chain⟩ := List.forall₂_cons_right_iff.1 sees
  simp only [declareFunction, StateT.run_bind, StateT.run_get, pure_bind, ScopeChain.addFunction?,
    ScopeChain.modify?, chain, Scope.addFunction?]
  generalize (level.function? (Function.ofDecl decl).name _).isSome = known
  cases known with
  | true => exact excused_of_other rfl
  | false => exact ⟨.cons lists outer, .refl _, fun _ _ => trivial⟩

theorem finds_openScope : Finds top A openScope ([] :: A) fun _ _ => True :=
  fun _ sees => ⟨.cons .nil sees, .refl _, fun _ _ => trivial⟩

theorem finds_closeScope : Finds top (scope :: A) closeScope A fun _ _ => True := by
  intro s sees
  obtain ⟨level, levels, _, outer, chain⟩ := List.forall₂_cons_right_iff.1 sees
  refine ⟨?_, .refl _, fun _ _ => trivial⟩
  simpa [State.Sees, ScopeChain.pop, chain] using outer

theorem Finds.inScope {check : Check Unit} {P : Table Nat → Unit → Prop}
    (h : Finds top ([] :: A) check (scope :: A) P) : Finds top A (inScope check) A P :=
  .after (fun _ => h.bind fun _ => finds_closeScope.imp fun _ _ _ found => found) finds_openScope

theorem finds_declaration {mark : Mark} {name : String} {type : Ty} {value : Expr}
    (here : top.Has ⟨scope :: A, .stmt (.declare mark name type value)⟩) :
    Finds top (scope :: A) (declaration mark name type value)
      ((scope ++ [.stmt (.declare mark name type value)]) :: A) fun symbols _ =>
      Spot.Resolved symbols ⟨scope :: A, .stmt (.declare mark name type value)⟩ := by
  have inner := here.child rfl (List.mem_cons_self)
  refine .bind (finds_expr top _ value inner) fun T => .unless rfl ?_
  refine (finds_declareVariable here rfl type fun _ => rfl).imp fun symbols _ free found => ?_
  refine Spot.resolved_of_children ⟨nofun, fun other binds => ?_⟩ rfl ?_
  · cases binds
    exact free
  · simpa [Node.children] using found

theorem finds_assignment {mark : Mark} {target : Symbol} {token : Token} {value : Expr}
    (here : top.Has ⟨A, .stmt (.assign mark target token value)⟩) :
    Finds top A (assignment mark target token value) A fun symbols _ =>
      Spot.Resolved symbols ⟨A, .stmt (.assign mark target token value)⟩ := by
  have left : top.Has ⟨A, .target target⟩ := here.child rfl (by simp [Node.children])
  have inner : top.Has ⟨A, .expr value⟩ := here.child rfl (by simp [Node.children])
  have ends : ∀ v : Variable, Finds top A (recordSymbol target.mark v.symbol) A fun symbols _ =>
      Spot.Resolved symbols ⟨A, .expr value⟩ →
      (∃ d, target.Means A d ∧ symbols.get? d.mark.id = some v.symbol) →
      Spot.Resolved symbols ⟨A, .stmt (.assign mark target token value)⟩ := by
    intro v
    refine (finds_recordSymbol target.mark v.symbol).imp fun symbols _ recorded found means => ?_
    obtain ⟨d, means, declared⟩ := means
    have used : Spot.Resolved symbols ⟨A, .target target⟩ := by
      refine Spot.resolved_of_children ⟨fun s use => ?_, nofun⟩ rfl nofun
      cases use
      exact ⟨d, v.symbol, means, recorded, declared⟩
    exact Spot.resolved_of_children (Spot.settled_of_plain rfl rfl) rfl
      (by simpa [Node.children] using ⟨used, found⟩)
  refine .bind (finds_variableOf left rfl) fun v => .bind (finds_expr top A value inner) fun T => ?_
  dsimp only
  split
  · exact .unless rfl (ends v)
  · split
    · next op chosen => exact .after (fun _ => ends v) (finds_recordOperator mark op)
    · exact .fail_bind rfl _

theorem finds_returns {mark : Mark} {value : Option Expr}
    (here : top.Has ⟨A, .stmt (.ret mark value)⟩) (around : Surroundings) :
    Finds top A (returns around mark value) A fun symbols _ =>
      Spot.Resolved symbols ⟨A, .stmt (.ret mark value)⟩ := by
  unfold returns
  split
  · exact .fail rfl _
  · split
    · exact .pure fun _ => Spot.resolved_of_children (Spot.settled_of_plain rfl rfl) rfl nofun
    · exact .fail rfl _
    · exact .fail rfl _
    · next e expected _ =>
      have inner : top.Has ⟨A, .expr e⟩ := here.child rfl (by simp [Node.children])
      refine .bind (finds_expr top A e inner) fun T => ?_
      split
      · exact .fail rfl _
      · refine .pure fun _ found => ?_
        exact Spot.resolved_of_children (Spot.settled_of_plain rfl rfl) rfl
          (by simpa [Node.children] using found)

theorem finds_insideLoop (around : Surroundings) (mark : Mark) (statement : String) :
    Finds top A (insideLoop around mark statement) A fun _ _ => True := by
  unfold insideLoop
  split
  · exact .fail rfl _
  · exact .pure fun _ => trivial

theorem finds_parameters (top : Spot) (A : List (List Node)) :
    ∀ (ps : List Parameter) (scope : List Node),
      Spot.Along top.Has A scope (ps.map .parameter) →
      Finds top (scope :: A) (parameters ps) ((scope ++ ps.map .parameter) :: A) fun symbols _ =>
        Spot.Along (Spot.Resolved symbols) A scope (ps.map .parameter)
  | [], scope, _ => by
    rw [List.map_nil, List.append_nil]
    exact .pure fun _ => trivial
  | p :: rest, scope, ⟨first, others⟩ => by
    have more := finds_parameters top A rest (scope ++ [.parameter p]) others
    rw [List.append_assoc] at more
    refine .bind (finds_declareVariable first rfl p.type nofun) fun _ => more.imp ?_
    refine fun symbols _ others free => ⟨?_, others⟩
    refine Spot.resolved_of_children ⟨nofun, fun other binds => ?_⟩ rfl nofun
    cases binds
    exact free

end statements

theorem filter_parameters (ps : List Parameter) :
    (ps.map Node.parameter).filter Node.declares = ps.map Node.parameter := by
  rw [List.filter_eq_self]
  intro n mem
  obtain ⟨p, _, rfl⟩ := List.mem_map.1 mem
  rfl

/-- A statement that declares nothing adds nothing to its scope. -/
theorem Finds.still {A : List (List Node)} {scope : List Node} {n : Node} {check : Check Unit}
    {P : Table Nat → Unit → Prop} (h : Finds top (scope :: A) check (scope :: A) P)
    (quiet : n.declares = false) :
    Finds top (scope :: A) check ((scope ++ [n].filter Node.declares) :: A) P := by
  simpa [quiet] using h

/-- The scope that a node opens. -/
theorem finds_scope {A : List (List Node)} {scope members : List Node} {check : Check Unit}
    (n : Node) (opens : n.members? = some members)
    (inside : Finds top ([] :: A) check (scope :: A) fun symbols _ =>
      Spot.Along (Spot.Resolved symbols) A [] members) :
    Finds top A (inScope check) A fun symbols _ => Spot.Resolved symbols ⟨A, n⟩ :=
  inside.inScope.imp fun _ _ found => Spot.resolved_of_members opens found

/-- The condition and the body of a loop. -/
theorem finds_loop {A : List (List Node)} {n : Node} {test : Expr} {block : Block Stmt}
    {scope : List Node} {around : Surroundings} (here : top.Has ⟨A, n⟩) (plain : n.members? = none)
    (use : n.use? = none) (binds : n.binds? = none)
    (children : n.children = [.expr test, .block block])
    (rounds : Finds top ([] :: A) (stmts around.loop block.body) (scope :: A) fun symbols _ =>
      Spot.Along (Spot.Resolved symbols) A [] (block.body.map .stmt))
    (statement : String) (expected : Ty) :
    Finds top A (do
      condition statement expected test
      Flow.checkLoop block
      inScope (stmts around.loop block.body)) A fun symbols _ => Spot.Resolved symbols ⟨A, n⟩ := by
  have tested : top.Has ⟨A, .expr test⟩ := here.child plain (by simp [children])
  refine .bind (finds_condition tested statement expected) fun _ => .after (fun _ => ?_)
    (.lift fun e => Flow.isBinding_checkLoop)
  refine (finds_scope (.block block) rfl rounds).imp fun symbols _ inside found => ?_
  exact Spot.resolved_of_children (Spot.settled_of_plain use binds) plain
    (by simpa [children] using ⟨found, inside⟩)

mutual

theorem finds_stmt (top : Spot) (A : List (List Node)) :
    ∀ (s : Stmt) (around : Surroundings) (scope : List Node), s.shaped = true →
      top.Has ⟨scope :: A, .stmt s⟩ →
      Finds top (scope :: A) (stmt around s)
        ((scope ++ [Node.stmt s].filter Node.declares) :: A) fun symbols _ =>
        Spot.Resolved symbols ⟨scope :: A, .stmt s⟩
  | .block ⟨mark, body⟩, around, scope, shaped, here => by
    have inside := finds_stmts top (scope :: A) body around [] shaped (here.members rfl)
    exact .still (finds_scope (.stmt (.block ⟨mark, body⟩)) rfl inside) rfl
  | .expression mark e, around, scope, _, here => by
    refine .still ((finds_loneExpr (here.child rfl List.mem_cons_self)).imp fun _ _ found => ?_) rfl
    exact Spot.resolved_of_children (Spot.settled_of_plain rfl rfl) rfl
      (by simpa [Node.children] using found)
  | .declare mark name type value, around, scope, _, here => finds_declaration here
  | .assign mark target token value, around, scope, _, here => .still (finds_assignment here) rfl
  | .branch mark test ⟨inner, body⟩ other, around, scope, shaped, here => by
    simp only [Stmt.shaped, Bool.and_eq_true] at shaped
    have tested : top.Has ⟨scope :: A, .expr test⟩ := here.child rfl (by simp [Node.children])
    have block : top.Has ⟨scope :: A, .block ⟨inner, body⟩⟩ :=
      here.child rfl (by simp [Node.children])
    have first := finds_stmts top (scope :: A) body around [] shaped.1 (block.members rfl)
    have second := finds_otherStmt top A other around scope shaped.2 fun s mem =>
      here.child rfl (by simp [Node.children, Option.mem_def.1 mem])
    rw [stmt_branch]
    refine .still ?_ rfl
    refine .bind (finds_condition tested "if" .logic) fun _ =>
      .bind (finds_scope (.block ⟨inner, body⟩) rfl first) fun _ =>
        second.imp fun symbols _ two one zero => ?_
    refine Spot.resolved_of_children (Spot.settled_of_plain rfl rfl) rfl ?_
    simpa [Node.children] using ⟨zero, one, two⟩
  | .whileLoop mark test ⟨inner, body⟩, around, scope, shaped, here => by
    have block : top.Has ⟨scope :: A, .block ⟨inner, body⟩⟩ :=
      here.child rfl (by simp [Node.children])
    have rounds := finds_stmts top (scope :: A) body around.loop [] shaped (block.members rfl)
    exact .still (finds_loop here rfl rfl rfl rfl rounds "while" .logic) rfl
  | .repeatLoop mark count ⟨inner, body⟩, around, scope, shaped, here => by
    have block : top.Has ⟨scope :: A, .block ⟨inner, body⟩⟩ :=
      here.child rfl (by simp [Node.children])
    have rounds := finds_stmts top (scope :: A) body around.loop [] shaped (block.members rfl)
    exact .still (finds_loop here rfl rfl rfl rfl rounds "repeat" .number) rfl
  | .function ⟨mark, name, ps, result, ⟨inner, body⟩⟩, around, scope, shaped, here => by
    obtain ⟨bound, inside⟩ := Spot.along_append.1 (here.members rfl)
    have first := finds_parameters top (scope :: A) ps [] bound
    rw [filter_parameters] at inside
    have second := finds_stmts top (scope :: A) body
      (.ofDecl ⟨mark, name, ps, result, ⟨inner, body⟩⟩) _ shaped inside
    -- The statements go on in the scope that the parameters are in.
    have both := first.bind fun _ => second.imp fun symbols _ inside bound =>
      Spot.along_append.2 ⟨bound, by rwa [filter_parameters]⟩
    rw [stmt_function]
    refine .still (.after (fun _ => ?_) (finds_declareFunction _)) rfl
    exact .after (fun _ => finds_scope _ rfl both) (.lift fun e => Flow.isBinding_checkFunction)
  | .ret mark value, around, scope, _, here => .still (finds_returns here around) rfl
  | .brk mark, around, scope, _, here => by
    refine .still ((finds_insideLoop around mark _).imp fun _ _ _ => ?_) rfl
    exact Spot.resolved_of_children (Spot.settled_of_plain rfl rfl) rfl nofun
  | .cont mark, around, scope, _, here => by
    refine .still ((finds_insideLoop around mark _).imp fun _ _ _ => ?_) rfl
    exact Spot.resolved_of_children (Spot.settled_of_plain rfl rfl) rfl nofun

theorem finds_otherStmt (top : Spot) (A : List (List Node)) :
    ∀ (other : Option Stmt) (around : Surroundings) (scope : List Node),
      Stmt.otherShaped other = true → (∀ s ∈ other, top.Has ⟨scope :: A, .stmt s⟩) →
      Finds top (scope :: A) (otherStmt around other) (scope :: A) fun symbols _ =>
        ∀ s ∈ other, Spot.Resolved symbols ⟨scope :: A, .stmt s⟩
  | none, _, _, _, _ => .pure fun _ => nofun
  | some s, around, scope, shaped, here => by
    simp only [Stmt.otherShaped, Bool.and_eq_true] at shaped
    -- Only a block or a conditional stands behind `else`, so nothing is declared there.
    have quiet : (Node.stmt s).declares = false := by
      cases s <;> first | rfl | cases shaped.1
    have found := finds_stmt top A s around scope shaped.2 (here s rfl)
    simp only [List.filter_cons, quiet, List.filter_nil, Bool.false_eq_true, if_false,
      List.append_nil] at found
    exact found.imp fun _ _ resolved other same => Option.some.inj same ▸ resolved

theorem finds_stmts (top : Spot) (A : List (List Node)) :
    ∀ (body : List Stmt) (around : Surroundings) (scope : List Node),
      Stmt.allShaped body = true → Spot.Along top.Has A scope (body.map .stmt) →
      Finds top (scope :: A) (stmts around body)
        ((scope ++ (body.map Node.stmt).filter Node.declares) :: A) fun symbols _ =>
        Spot.Along (Spot.Resolved symbols) A scope (body.map .stmt)
  | [], _, scope, _, _ => by
    rw [List.map_nil, List.filter_nil, List.append_nil]
    exact .pure fun _ => trivial
  | s :: rest, around, scope, shaped, ⟨first, others⟩ => by
    simp only [Stmt.allShaped, Bool.and_eq_true] at shaped
    have more := finds_stmts top A rest around _ shaped.2 others
    rw [List.append_assoc, ← List.filter_append] at more
    exact .bind (finds_stmt top A s around scope shaped.1 first) fun _ =>
      more.imp fun symbols _ others one => ⟨one, others⟩

end

end Typing

theorem Typing.finds_program {p : Program} (shaped : Stmt.allShaped p.body = true) :
    Finds ⟨[], .block p⟩ [] (program p) [] fun symbols _ =>
      Spot.Resolved symbols ⟨[], .block p⟩ := by
  have here : Spot.Has ⟨[], .block p⟩ ⟨[], .block p⟩ := .refl
  exact finds_scope (.block p) rfl (finds_stmts _ [] p.body .top [] shaped (here.members rfl))

/-- No two declarations of a script have the same symbol. -/
theorem Program.eq_of_symbols {tokens : List Token} {file : String} {p : Program} {tables : Tables}
    {library : Library} (read : Program.ofTokens tokens file = .ok p)
    (accepted : p.analyse library = .ok tables) {d other : Node} {x : Nat} (mem : d ∈ p.nodes)
    (declares : d.declares = true) (mem' : other ∈ p.nodes) (declares' : other.declares = true)
    (symbol : tables.symbols.get? d.mark.id = some x)
    (symbol' : tables.symbols.get? other.mark.id = some x) : other = d := by
  obtain ⟨_, counted, _⟩ := (Program.written_of_analyse read library).2 tables accepted
  have place : ∀ n ∈ p.nodes, n.declares = true → tables.symbols.get? n.mark.id = some x →
      (Node.block p).declared[x]? = some n.mark.id := by
    intro n mem declares symbol
    have listed : n.mark.id ∈ (Node.block p).declared :=
      List.mem_map_of_mem (List.mem_filter.2 ⟨mem, declares⟩)
    obtain ⟨k, found⟩ := List.getElem?_of_mem listed
    rw [counted k _ found] at symbol
    cases symbol
    exact found
  have ids := (place other mem' declares' symbol').symm.trans (place d mem declares symbol)
  have nodup := (Program.ascending_of_ofTokens read).imp Nat.ne_of_lt
  exact List.inj_on_of_nodup_map nodup mem' mem (Option.some.inj ids)

theorem Program.shaped_of_ofTokens {tokens : List Token} {file : String} {p : Program}
    (h : Program.ofTokens tokens file = .ok p) : Stmt.allShaped p.body = true := by
  unfold Program.ofTokens at h
  cases ran : Grammar.program.run (Grammar.Stream.ofTokens tokens file 0) with
  | error e =>
    rw [ran] at h
    cases h
  | ok result =>
    rw [ran] at h
    cases h
    exact (Grammar.numbers_program _ _ _ _ rfl ran).2

theorem Program.lexical_of_analyse {tokens : List Token} {file : String} {p : Program}
    (read : Program.ofTokens tokens file = .ok p) (library : Library) :
    match p.analyse library with
    | .error e => Excused ⟨[], .block p⟩ e
    | .ok tables => Spot.Resolved tables.symbols ⟨[], .block p⟩ := by
  have ran := Typing.finds_program (Program.shaped_of_ofTokens read) ⟨.base library, .empty, 0⟩ .nil
  unfold Program.analyse
  cases done : (Typing.program p).run ⟨.base library, .empty, 0⟩ with
  | error e =>
    rw [done] at ran
    exact ran
  | ok result =>
    rw [done] at ran
    exact ran.2.2 _ (.refl _)

/-- Names are resolved lexically. In a script that analysis accepts, a use has the symbol of the one
declaration that it means, which no other declaration has, and no scope has two variables of one
name. Where analysis refuses a script because a variable is missing, it points at a use that means
nothing, and where it does because a name is taken, at a second declaration in one scope. -/
theorem names_resolved_lexically {tokens : List Token} {file : String} {p : Program}
    (read : Program.ofTokens tokens file = .ok p) (library : Library) :
    (∀ n ∈ p.nodes, (∃ scopes, p.Has ⟨scopes, n⟩) ∨
      ∃ decl, .stmt (.function decl) ∈ p.nodes ∧ n = .block decl.body) ∧
    (∀ tables, p.analyse library = .ok tables → ∀ scopes n, p.Has ⟨scopes, n⟩ →
      (∀ s, n.use? = some s → ∃ d ∈ p.nodes, (∀ other, s.Means scopes other ↔ other = d) ∧
        ∃ x, tables.symbols.get? s.mark.id = some x ∧
          ∀ other ∈ p.nodes, other.declares = true →
            (tables.symbols.get? other.mark.id = some x ↔ other = d)) ∧
      ∀ members, n.members? = some members → (members.filterMap Node.binds?).Nodup) ∧
    ∀ e, p.analyse library = .error e →
      (∀ name similar, e.cause = .variableNotDeclared name similar →
        ∃ scopes n s, p.Has ⟨scopes, n⟩ ∧ n.use? = some s ∧ s.name = name ∧
          e.position = s.mark.start ∧ ∀ d, ¬ s.Means scopes d) ∧
      ∀ name, e.cause = .variableAlreadyDeclared name →
        ∃ scope scopes n, p.Has ⟨scope :: scopes, n⟩ ∧ n.binds? = some name ∧
          e.position = n.mark.start ∧ ∃ d ∈ scope, d.binds? = some name := by
  have self := Node.mem_postorder_self (.block p)
  have lexical := Program.lexical_of_analyse read library
  refine ⟨fun n mem => Spot.exists_has [] _ n self mem, fun tables accepted scopes n has => ?_,
    fun e refused => ?_⟩
  · rw [accepted] at lexical
    refine ⟨fun s use => ?_, fun members opens => (lexical.distinct_members has opens).nodup⟩
    obtain ⟨d, x, means, used, declared⟩ := (lexical _ has).use s use
    obtain ⟨scope, near, seen, _⟩ := means.exists
    obtain ⟨_, declarations⟩ := Spot.Has.declarations has
    have distinct : ∀ scope ∈ scopes.drop s.up, Spot.Distinct scope := fun scope mem =>
      lexical.distinct has nofun scope (List.mem_of_mem_drop mem)
    obtain ⟨mem, declares⟩ := declarations scope (List.mem_of_mem_drop near) d seen
    refine ⟨d, mem, fun other => ⟨fun also => means.unique distinct also, ?_⟩, x, used, ?_⟩
    · rintro rfl
      exact means
    · refine fun other mem' declares' => ⟨fun same => ?_, ?_⟩
      · exact Program.eq_of_symbols read accepted mem declares mem' declares' declared same
      · rintro rfl
        exact declared
  · rw [refused] at lexical
    exact ⟨lexical.missing, lexical.taken⟩

/-- The node that a path leads to, by its places among what other nodes hold. -/
def Node.under : List Nat → Node → Option Node
  | [], n => some n
  | k :: path, n => n.children[k]?.bind (under path)

theorem Node.mem_of_under {root : Node} : ∀ (path : List Nat) {n m : Node}, n ∈ root.postorder →
    n.under path = some m → m ∈ root.postorder
  | [], n, m, here, h => Option.some.inj h ▸ here
  | k :: path, n, m, here, h => by
    obtain ⟨child, held, inside⟩ := Option.bind_eq_some_iff.1 h
    exact mem_of_under path (mem_of_child here (List.mem_of_getElem? held)) inside

/-- Two variables of one name and a use that skips the nearer one. -/
def caretedSource : String := "var x:number=1;\x7bvar x:number=x;\x7bvar y:number=x+^^x;\x7d\x7d"

/-- The use with two carets means the variable of the script. -/
theorem names_resolved_lexically_careted :
    ∃ tokens p tables scopes n s d, Program.ofTokens tokens "" = .ok p ∧
      p.analyse (.standard .builtIn) = .ok tables ∧ p.Has ⟨scopes, n⟩ ∧ n.use? = some s ∧
      s.name = "x" ∧ s.up = 2 ∧ (∀ other, s.Means scopes other ↔ other = d) ∧
      tables.symbols.get? s.mark.id = some 0 ∧ tables.symbols.get? d.mark.id = some 0 := by
  have found : ((Program.ofSource caretedSource "").toOption.bind fun p =>
      (p.analyse (.standard .builtIn)).toOption.bind fun tables =>
        ((Node.block p).under [1, 1, 0, 0, 1]).bind fun n => n.use?.map fun s =>
          (s.name, s.up, tables.symbols.get? s.mark.id)) = some ("x", 2, some 0) := by
    decide +kernel
  obtain ⟨p, read, found⟩ := Option.bind_eq_some_iff.1 found
  obtain ⟨tables, accepted, found⟩ := Option.bind_eq_some_iff.1 found
  obtain ⟨n, under, found⟩ := Option.bind_eq_some_iff.1 found
  obtain ⟨s, use, found⟩ := Option.map_eq_some_iff.1 found
  simp only [Prod.mk.injEq] at found
  obtain ⟨name, up, symbol⟩ := found
  obtain ⟨tokens, _, parsed⟩ := Program.exists_tokens (eq_ok_of_toOption read)
  have analysed := eq_ok_of_toOption accepted
  have mem := Node.mem_of_under _ (Node.mem_postorder_self (.block p)) under
  obtain ⟨stands, resolved, _⟩ := names_resolved_lexically parsed (.standard .builtIn)
  rcases stands n mem with ⟨scopes, has⟩ | ⟨_, _, rfl⟩
  · obtain ⟨d, here, means, x, used, declared⟩ := (resolved tables analysed _ _ has).1 s use
    cases used.symm.trans symbol
    obtain ⟨_, _, _, binds⟩ := ((means d).2 rfl).exists
    have declares : d.declares = true := by rw [← Node.isSome_binds?, binds, Option.isSome_some]
    exact ⟨tokens, p, tables, scopes, n, s, d, parsed, analysed, has, use, name, up, means, used,
      (declared d here declares).2 rfl⟩
  · cases use

end CursorScript
