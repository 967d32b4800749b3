import CursorScript.Proofs.PendingWork

/-!
The points that analysis comes to. Analysis is done in jobs, and a job calls others in the states
that it has brought about by then, so the points of an analysis are the states and jobs that follow
from one another. Main statement: where analysis accepts a script, every expression in it is the job
of such a point, and so is the choice of a function for every call.
-/
namespace CursorScript

namespace Typing
open Grammar (run_bind_ok)

inductive Job where
  /-- To find the type of an expression. -/
  | expr (e : Expr)
  /-- To check an expression that stands alone. -/
  | lone (e : Expr)
  /-- To find the function of a call from the types of the arguments. -/
  | resolve (mark : Mark) (callee : String) (types : List Ty)
  /-- To declare parameters. -/
  | parameters (ps : List Parameter)
  /-- To check a statement. -/
  | stmt (here : Surroundings) (s : Stmt)
  /-- To check statements one after the other. -/
  | stmts (here : Surroundings) (body : List Stmt)

namespace Job

def check : Job → Check Unit
  | expr e => do let _ ← Typing.expr e
  | lone e => loneExpr e
  | resolve mark callee types => do let _ ← resolveCall mark callee types
  | parameters ps => Typing.parameters ps
  | stmt here s => Typing.stmt here s
  | stmts here body => Typing.stmts here body

/-- The expressions whose types a job asks for, in their order. -/
def operands : Job → List Expr
  | expr e => e.operands
  | lone (.call _ _ arguments) => arguments
  | lone e => [e]
  | stmt _ (.declare _ _ _ value) => [value]
  | stmt _ (.assign _ _ _ value) => [value]
  | stmt _ (.branch _ test _ _) => [test]
  | stmt _ (.whileLoop _ test _) => [test]
  | stmt _ (.repeatLoop _ count _) => [count]
  | stmt _ (.ret _ value) => value.toList
  | _ => []

end Job

def State.enter (s : State) : State := { s with scopes := s.scopes.push }

inductive Passes : List Expr → State → State → Prop
  | nil (s : State) : Passes [] s s
  | cons {e : Expr} {es : List Expr} {s t u : State} {type : Ty}
      (ran : (expr e).run s = .ok (type, t)) (others : Passes es t u) : Passes (e :: es) s u

inductive Calls : State × Job → State × Job → Prop
  -- Between two operands analysis may refuse the first, but it does nothing to the state.
  | operand {s t : State} {job : Job} {before behind : List Expr} {e : Expr}
      (held : job.operands = before ++ e :: behind) (passed : Passes before s t) :
      Calls (s, job) (t, .expr e)
  | resolve {s t : State} {mark : Mark} {callee : String} {arguments : List Expr} {types : List Ty}
      (found : (argumentTypes callee arguments).run s = .ok (types, t)) :
      Calls (s, .expr (.call mark callee arguments)) (t, .resolve mark callee types)
  | resolveLone {s t : State} {mark : Mark} {callee : String} {arguments : List Expr}
      {types : List Ty} (found : (argumentTypes callee arguments).run s = .ok (types, t)) :
      Calls (s, .lone (.call mark callee arguments)) (t, .resolve mark callee types)
  | lone {s : State} {here : Surroundings} {mark : Mark} {e : Expr} :
      Calls (s, .stmt here (.expression mark e)) (s, .lone e)
  | block {s : State} {here : Surroundings} {b : Block Stmt} :
      Calls (s, .stmt here (.block b)) (s.enter, .stmts here b.body)
  | branch {s t : State} {here : Surroundings} {mark : Mark} {test : Expr} {b : Block Stmt}
      {other : Option Stmt} (tested : (condition "if" .logic test).run s = .ok ((), t)) :
      Calls (s, .stmt here (.branch mark test b other)) (t.enter, .stmts here b.body)
  | other {s t u : State} {here : Surroundings} {mark : Mark} {test : Expr} {b : Block Stmt}
      {other : Stmt} (tested : (condition "if" .logic test).run s = .ok ((), t))
      (checked : (inScope (stmts here b.body)).run t = .ok ((), u)) :
      Calls (s, .stmt here (.branch mark test b (some other))) (u, .stmt here other)
  | whileLoop {s t : State} {here : Surroundings} {mark : Mark} {test : Expr} {b : Block Stmt}
      (tested : (condition "while" .logic test).run s = .ok ((), t))
      (ends : Flow.checkLoop b = .ok ()) :
      Calls (s, .stmt here (.whileLoop mark test b)) (t.enter, .stmts here.loop b.body)
  | repeatLoop {s t : State} {here : Surroundings} {mark : Mark} {count : Expr} {b : Block Stmt}
      (tested : (condition "repeat" .number count).run s = .ok ((), t))
      (ends : Flow.checkLoop b = .ok ()) :
      Calls (s, .stmt here (.repeatLoop mark count b)) (t.enter, .stmts here.loop b.body)
  | parameters {s t : State} {here : Surroundings} {decl : FunctionDecl Stmt}
      (declared : (declareFunction decl).run s = .ok ((), t))
      (ends : Flow.checkFunction decl = .ok ()) :
      Calls (s, .stmt here (.function decl)) (t.enter, .parameters decl.parameters)
  | function {s t u : State} {here : Surroundings} {decl : FunctionDecl Stmt}
      (declared : (declareFunction decl).run s = .ok ((), t))
      (ends : Flow.checkFunction decl = .ok ())
      (bound : (parameters decl.parameters).run t.enter = .ok ((), u)) :
      Calls (s, .stmt here (.function decl)) (u, .stmts (.ofDecl decl) decl.body.body)
  | parameter {s t : State} {p : Parameter} {rest : List Parameter}
      (declared : (declareVariable p.mark p.name p.type (.duplicateParameter p.name)).run s =
        .ok ((), t)) :
      Calls (s, .parameters (p :: rest)) (t, .parameters rest)
  | first {s : State} {here : Surroundings} {first : Stmt} {rest : List Stmt} :
      Calls (s, .stmts here (first :: rest)) (s, .stmt here first)
  | next {s t : State} {here : Surroundings} {first : Stmt} {rest : List Stmt}
      (checked : (stmt here first).run s = .ok ((), t)) :
      Calls (s, .stmts here (first :: rest)) (t, .stmts here rest)

theorem Passes.append {es more : List Expr} {s t u : State} (h : Passes es s t)
    (others : Passes more t u) : Passes (es ++ more) s u := by
  induction h with
  | nil => exact others
  | cons ran _ ih => exact .cons ran (ih others)

theorem Passes.exists_run {before behind : List Expr} {e : Expr} {s u : State}
    (h : Passes (before ++ e :: behind) s u) :
    ∃ t type v, Passes before s t ∧ (expr e).run t = .ok (type, v) := by
  induction before generalizing s with
  | nil =>
    cases h with
    | cons ran _ => exact ⟨s, _, _, .nil s, ran⟩
  | cons first rest ih =>
    cases h with
    | cons ran others =>
      obtain ⟨t, type, v, passed, found⟩ := ih others
      exact ⟨t, type, v, .cons ran passed, found⟩

/-- A step of analysis asks for the types of expressions and does nothing else to the state. -/
def Asks {α : Type} (check : Check α) (es : List Expr) : Prop :=
  ∀ s a t, check.run s = .ok (a, t) → Passes es s t

/-- A step of analysis asks for the types of expressions before it does anything to the state. -/
def Visits {α : Type} (check : Check α) (es : List Expr) : Prop :=
  ∀ s a t, check.run s = .ok (a, t) → ∃ u, Passes es s u

section rules
variable {α β : Type} {check : Check α} {next : α → Check β} {es more : List Expr}

theorem Asks.bind (h : Asks check es) (rest : ∀ a, Asks (next a) more) :
    Asks (check >>= next) (es ++ more) := by
  intro s b u ran
  obtain ⟨a, t, first, second⟩ := run_bind_ok ran
  exact (h s a t first).append (rest a t b u second)

theorem Asks.pure (a : α) : Asks (Pure.pure a : Check α) [] := by
  intro s b t ran
  cases ran
  exact .nil s

theorem Asks.fail (cause : Cause) (p : Position) : Asks (Typing.fail cause p : Check α) es := by
  intro s b t ran
  cases ran

theorem Asks.fail_bind (cause : Cause) (p : Position) : Asks (Typing.fail cause p >>= next) es := by
  intro s b t ran
  obtain ⟨_, _, failed, _⟩ := run_bind_ok ran
  cases failed

theorem Asks.then (h : Asks check es) (rest : ∀ a, Visits (next a) more) :
    Visits (check >>= next) (es ++ more) := by
  intro s b v ran
  obtain ⟨a, t, first, second⟩ := run_bind_ok ran
  obtain ⟨u, passed⟩ := rest a t b v second
  exact ⟨u, (h s a t first).append passed⟩

theorem Asks.visits (h : Asks check es) : Visits check es := fun s a t ran => ⟨t, h s a t ran⟩

theorem Visits.nothing : Visits check [] := fun s _ _ _ => ⟨s, .nil s⟩

theorem Visits.before (h : Visits check es) : Visits (check >>= next) es := by
  intro s b t ran
  obtain ⟨a, u, first, _⟩ := run_bind_ok ran
  exact h s a u first

end rules

theorem asks_expr (e : Expr) : Asks (expr e) [e] := fun _ _ t ran => .cons ran (.nil t)

theorem asks_variableOf (symbol : Symbol) : Asks (variableOf symbol) [] := by
  intro s v t ran
  obtain ⟨_, _, got, ran⟩ := run_bind_ok ran
  cases got
  split at ran
  · cases ran
    exact .nil s
  · cases ran

theorem asks_refuseEmpty (type : Ty) (e : Expr) : Asks (refuseEmpty type e) [] := by
  unfold refuseEmpty
  split
  · exact .fail _ _
  · exact .pure _

theorem asks_commonType (current : Option Ty) (next : Ty) (e : Expr) :
    Asks (commonType current next e) [] := by
  refine (asks_refuseEmpty next e).bind fun _ => ?_
  split
  · exact .pure _
  · exact .pure _
  · split
    · exact .pure _
    · exact .fail _ _

theorem asks_embeddedParts (parts : List (Part Expr)) :
    Asks (embeddedParts parts) (Part.embedded parts) := by
  induction parts with
  | nil => exact .pure _
  | cons part rest ih =>
    cases part with
    | text chars => exact ih
    | embed e =>
      refine (asks_expr e).bind fun type => ?_
      dsimp only
      split
      · exact .fail_bind _ _
      · exact ih

theorem asks_argumentTypes (callee : String) (es : List Expr) :
    Asks (argumentTypes callee es) es := by
  induction es with
  | nil => exact .pure _
  | cons e rest ih =>
    refine (asks_expr e).bind fun type => ?_
    dsimp only
    split
    · exact .fail_bind _ _
    · have others := ih.bind fun types => Asks.pure (type :: types)
      rwa [List.append_nil] at others

theorem asks_elementType (current : Option Ty) (es : List Expr) :
    Asks (elementType current es) es := by
  induction es generalizing current with
  | nil => exact .pure _
  | cons e rest ih =>
    exact (asks_expr e).bind fun type => (asks_commonType current type e).bind fun common =>
      ih (some common)

theorem asks_entryTypes (key value : Option Ty) (entries : List (Expr × Expr)) :
    Asks (entryTypes key value entries) (Machine.entryOperands entries) := by
  induction entries generalizing key value with
  | nil => exact .pure _
  | cons entry rest ih =>
    obtain ⟨k, v⟩ := entry
    exact (asks_expr k).bind fun K => (asks_commonType key K k).bind fun K' =>
      (asks_expr v).bind fun V => (asks_commonType value V v).bind fun V' =>
        ih (some K') (some V')

theorem asks_condition (statement : String) (expected : Ty) (e : Expr) :
    Asks (condition statement expected e) [e] := by
  refine (asks_expr e).bind fun type => ?_
  split
  · exact .fail _ _
  · exact .pure _

theorem visits_expr (e : Expr) : Visits (expr e) e.operands := by
  cases e with
  | interpolation mark parts => exact (asks_embeddedParts parts).visits.before
  | binary mark left token right =>
    exact (asks_expr left).then fun type => (asks_refuseEmpty type left).then fun _ =>
      (asks_expr right).then fun _ => .nothing
  | unary mark token operand => exact (asks_expr operand).visits.before
  | index mark collection place =>
    exact (asks_expr collection).then fun type => (asks_refuseEmpty type collection).then fun _ =>
      (asks_expr place).then fun _ => .nothing
  | call mark callee arguments => exact (asks_argumentTypes callee arguments).visits.before
  | list mark elements => exact (asks_elementType none elements).visits.before
  | map mark entries => exact (asks_entryTypes none none entries).visits.before
  | _ => exact .nothing

theorem visits_returns (here : Surroundings) (mark : Mark) (value : Option Expr) :
    Visits (returns here mark value) value.toList := by
  unfold returns
  split
  · exact (Asks.fail _ _).visits
  · split
    · exact .nothing
    · exact .nothing
    · exact (Asks.fail _ _).visits
    · exact (asks_expr _).visits.before

theorem visits_stmt (here : Surroundings) (s : Stmt) :
    Visits (stmt here s) (Job.stmt here s).operands := by
  cases s with
  | declare mark name type value => exact (asks_expr value).visits.before
  | assign mark target token value =>
    exact (asks_variableOf target).then fun _ => (asks_expr value).visits.before
  | branch mark test b other => exact (asks_condition _ _ test).visits.before
  | whileLoop mark test b => exact (asks_condition _ _ test).visits.before
  | repeatLoop mark count b => exact (asks_condition _ _ count).visits.before
  | ret mark value => exact visits_returns here mark value
  | _ => exact .nothing

/-- A job that is done has asked for the types of all its operands. -/
theorem visits_job (job : Job) : Visits job.check job.operands := by
  cases job with
  | expr e => exact (visits_expr e).before
  | lone e =>
    cases e with
    | call mark callee arguments => exact (asks_argumentTypes callee arguments).visits.before
    | _ => exact (asks_expr _).visits.before
  | stmt here s => exact visits_stmt here s
  | _ => exact .nothing

/-- From a point on, analysis comes to a job and gets it done. -/
def Done (top : State × Job) (job : Job) : Prop :=
  ∃ s t, Relation.ReflTransGen Calls top (s, job) ∧ job.check.run s = .ok ((), t)

section jobs
variable {top : State × Job}

/-- What a step gives does not matter to whether it is done. -/
theorem run_drop {α : Type} {check : Check α} {s t : State} {a : α}
    (h : check.run s = .ok (a, t)) : (do let _ ← check).run s = .ok ((), t) := by
  rw [StateT.run_bind, h]
  rfl

theorem Done.operand {job : Job} (h : Done top job) {e : Expr} (mem : e ∈ job.operands) :
    Done top (.expr e) := by
  obtain ⟨s, t, reached, ran⟩ := h
  obtain ⟨u, passed⟩ := visits_job job s () t ran
  obtain ⟨before, behind, held⟩ := List.append_of_mem mem
  obtain ⟨v, type, w, passed, found⟩ := (held ▸ passed).exists_run
  exact ⟨v, w, reached.tail (.operand held passed), run_drop found⟩

/-- Analysis gets done what a node asks for. The type of an expression is found, unless it is a call
that stands alone and needs none; a target is looked up with its assignment. -/
def Met (top : State × Job) : Node → Prop
  | .expr e =>
    Done top (.expr e) ∨
      ∃ mark callee arguments, e = .call mark callee arguments ∧ Done top (.lone e)
  | .target _ => True
  | .parameter p => ∃ rest, Done top (.parameters (p :: rest))
  | .block b => ∃ here, Done top (.stmts here b.body)
  | .stmt s => ∃ here, Done top (.stmt here s)

/-- The function of a call is chosen, whether or not the call has to have a value. -/
theorem Met.resolve {mark : Mark} {callee : String} {arguments : List Expr}
    (h : Met top (.expr (.call mark callee arguments))) :
    ∃ types, Done top (.resolve mark callee types) := by
  rcases h with ⟨s, t, reached, ran⟩ | ⟨_, _, _, ⟨⟩, s, t, reached, ran⟩
  · obtain ⟨_, _, ran, _⟩ := run_bind_ok ran
    obtain ⟨types, u, found, ran⟩ := run_bind_ok ran
    obtain ⟨slot, v, resolved, _⟩ := run_bind_ok ran
    exact ⟨types, u, v, reached.tail (.resolve found), run_drop resolved⟩
  · obtain ⟨types, u, found, ran⟩ := run_bind_ok ran
    obtain ⟨slot, v, resolved, _⟩ := run_bind_ok ran
    exact ⟨types, u, v, reached.tail (.resolveLone found), run_drop resolved⟩

def Covers (top : State × Job) (n : Node) : Prop := ∀ m ∈ n.postorder, Met top m

theorem covers_of_children {n : Node} (here : Met top n)
    (h : ∀ child ∈ n.children, Covers top child) : Covers top n := by
  intro m mem
  rw [Node.postorder_eq] at mem
  rcases List.mem_append.1 mem with inside | same
  · obtain ⟨child, held, inside⟩ := List.mem_flatMap.1 inside
    exact h child held m inside
  · cases List.mem_singleton.1 same
    exact here

theorem covers_expr : ∀ e : Expr, Done top (.expr e) → Covers top (.expr e) := by
  intro e done
  refine covers_of_children (.inl done) ?_
  rw [Node.children_expr]
  refine List.forall_mem_map.2 fun operand mem => ?_
  exact covers_expr operand (done.operand mem)
termination_by e => sizeOf (Node.expr e)
decreasing_by
  refine Node.sizeOf_children ?_
  rw [Node.children_expr]
  exact List.mem_map_of_mem mem

theorem covers_lone {e : Expr} (done : Done top (.lone e)) : Covers top (.expr e) := by
  cases e with
  | call mark callee arguments =>
    refine covers_of_children (.inr ⟨mark, callee, arguments, rfl, done⟩)
      (List.forall_mem_map.2 fun operand mem => ?_)
    exact covers_expr operand (done.operand mem)
  | _ => exact covers_expr _ (done.operand List.mem_cons_self)

theorem covers_parameters : ∀ ps, Done top (.parameters ps) → ∀ p ∈ ps, Covers top (.parameter p)
  | [], _ => nofun
  | p :: rest, done => by
    have first : Covers top (.parameter p) :=
      covers_of_children ⟨rest, done⟩ (by simp [Node.children])
    obtain ⟨s, t, reached, ran⟩ := done
    obtain ⟨_, u, declared, ran⟩ := run_bind_ok ran
    exact List.forall_mem_cons.2
      ⟨first, covers_parameters rest ⟨u, t, reached.tail (.parameter declared), ran⟩⟩

/-- A check that needs no state was passed. -/
theorem run_lift_ok {α β : Type} {result : Except Error α} {next : α → Check β} {s t : State}
    {b : β} (ran : ((liftM result : Check α) >>= next).run s = .ok (b, t)) :
    ∃ a, result = .ok a ∧ (next a).run s = .ok (b, t) := by
  obtain ⟨a, u, lifted, ran⟩ := run_bind_ok ran
  cases result with
  | error e => cases lifted
  | ok found =>
    cases lifted
    exact ⟨a, rfl, ran⟩

/-- The statements of a scope are a job of their own. -/
theorem Done.inScope {here : Surroundings} {body : List Stmt} {s t : State}
    (reached : Relation.ReflTransGen Calls top (s.enter, .stmts here body))
    (ran : (inScope (stmts here body)).run s = .ok ((), t)) : Done top (.stmts here body) := by
  obtain ⟨_, _, opened, ran⟩ := run_bind_ok ran
  cases opened
  obtain ⟨_, u, checked, _⟩ := run_bind_ok ran
  exact ⟨s.enter, u, reached, checked⟩

theorem covers_block {b : Block Stmt} {here : Surroundings} (done : Done top (.stmts here b.body))
    (inside : ∀ s ∈ b.body, Covers top (.stmt s)) : Covers top (.block b) :=
  covers_of_children ⟨here, done⟩ (List.forall_mem_map.2 inside)

mutual

theorem covers_stmt : ∀ (s : Stmt) (here : Surroundings), Done top (.stmt here s) →
    Covers top (.stmt s)
  | .block ⟨mark, body⟩, here, done => by
    refine covers_of_children ⟨here, done⟩ ?_
    obtain ⟨s, t, reached, ran⟩ := done
    exact List.forall_mem_map.2 (covers_stmts body here (.inScope (reached.tail .block) ran))
  | .expression mark e, here, done => by
    refine covers_of_children ⟨here, done⟩ ?_
    obtain ⟨s, t, reached, ran⟩ := done
    exact List.forall_mem_singleton.2 (covers_lone ⟨s, t, reached.tail .lone, ran⟩)
  | .declare mark name type value, here, done => by
    refine covers_of_children ⟨here, done⟩ (List.forall_mem_singleton.2 ?_)
    exact covers_expr value (done.operand List.mem_cons_self)
  | .assign mark target token value, here, done => by
    have left : Covers top (.target target) :=
      covers_of_children trivial (by simp [Node.children])
    refine covers_of_children ⟨here, done⟩ ?_
    refine List.forall_mem_cons.2 ⟨left, List.forall_mem_singleton.2 ?_⟩
    exact covers_expr value (done.operand List.mem_cons_self)
  | .branch mark test ⟨inner, body⟩ other, here, done => by
    have condition := covers_expr test (done.operand List.mem_cons_self)
    refine covers_of_children ⟨here, done⟩ ?_
    obtain ⟨s, t, reached, ran⟩ := done
    rw [Job.check, stmt_branch] at ran
    obtain ⟨_, u, tested, ran⟩ := run_bind_ok ran
    obtain ⟨_, v, checked, others⟩ := run_bind_ok ran
    have inside : Done top (.stmts here body) := .inScope (reached.tail (.branch tested)) checked
    refine List.forall_mem_cons.2 ⟨condition, List.forall_mem_cons.2 ⟨?_, ?_⟩⟩
    · exact covers_block inside (covers_stmts body here inside)
    · cases other with
      | none => exact nofun
      | some other =>
        have last : Done top (.stmt here other) :=
          ⟨v, t, reached.tail (.other tested checked), others⟩
        exact List.forall_mem_singleton.2 (covers_stmt other here last)
  | .whileLoop mark test ⟨inner, body⟩, here, done => by
    have condition := covers_expr test (done.operand List.mem_cons_self)
    refine covers_of_children ⟨here, done⟩ ?_
    refine List.forall_mem_cons.2 ⟨condition, List.forall_mem_singleton.2 ?_⟩
    obtain ⟨s, t, reached, ran⟩ := done
    obtain ⟨_, u, tested, ran⟩ := run_bind_ok ran
    obtain ⟨_, ends, ran⟩ := run_lift_ok ran
    have inside : Done top (.stmts here.loop body) :=
      .inScope (reached.tail (.whileLoop tested ends)) ran
    exact covers_block inside (covers_stmts body here.loop inside)
  | .repeatLoop mark count ⟨inner, body⟩, here, done => by
    have condition := covers_expr count (done.operand List.mem_cons_self)
    refine covers_of_children ⟨here, done⟩ ?_
    refine List.forall_mem_cons.2 ⟨condition, List.forall_mem_singleton.2 ?_⟩
    obtain ⟨s, t, reached, ran⟩ := done
    obtain ⟨_, u, tested, ran⟩ := run_bind_ok ran
    obtain ⟨_, ends, ran⟩ := run_lift_ok ran
    have inside : Done top (.stmts here.loop body) :=
      .inScope (reached.tail (.repeatLoop tested ends)) ran
    exact covers_block inside (covers_stmts body here.loop inside)
  | .function ⟨mark, name, ps, result, ⟨inner, body⟩⟩, here, done => by
    refine covers_of_children ⟨here, done⟩ ?_
    obtain ⟨s, t, reached, ran⟩ := done
    obtain ⟨_, u, declared, ran⟩ := run_bind_ok ran
    obtain ⟨_, ends, ran⟩ := run_lift_ok ran
    obtain ⟨_, _, opened, ran⟩ := run_bind_ok ran
    cases opened
    obtain ⟨_, v, bound, ran⟩ := run_bind_ok ran
    obtain ⟨_, w, checked, _⟩ := run_bind_ok ran
    have parameters : Done top (.parameters ps) :=
      ⟨_, v, reached.tail (.parameters declared ends), bound⟩
    have inside : Done top (.stmts (.ofDecl ⟨mark, name, ps, result, ⟨inner, body⟩⟩) body) :=
      ⟨v, w, reached.tail (.function declared ends bound), checked⟩
    refine List.forall_mem_append.2 ⟨List.forall_mem_map.2 (covers_parameters ps parameters), ?_⟩
    exact List.forall_mem_singleton.2 (covers_block inside (covers_stmts body _ inside))
  | .ret mark value, here, done => by
    refine covers_of_children ⟨here, done⟩ (List.forall_mem_map.2 fun e mem => ?_)
    exact covers_expr e (done.operand mem)
  | .brk mark, here, done => covers_of_children ⟨here, done⟩ (by simp [Node.children])
  | .cont mark, here, done => covers_of_children ⟨here, done⟩ (by simp [Node.children])

theorem covers_stmts : ∀ (body : List Stmt) (here : Surroundings), Done top (.stmts here body) →
    ∀ s ∈ body, Covers top (.stmt s)
  | [], _, _ => nofun
  | first :: rest, here, ⟨s, t, reached, ran⟩ => by
    obtain ⟨_, u, checked, others⟩ := run_bind_ok ran
    exact List.forall_mem_cons.2
      ⟨covers_stmt first here ⟨s, u, reached.tail .first, checked⟩,
        covers_stmts rest here ⟨u, t, reached.tail (.next checked), others⟩⟩

end

end jobs

end Typing

namespace Program
open Typing

/-- The first point of an analysis: all statements of a script, in a scope without names. -/
def entry (p : Program) (library : Library) : State × Job :=
  (⟨(ScopeChain.base library).push, .empty, 0⟩, .stmts .top p.body)

/-- Analysis of a script comes to a job in a state. -/
def Reaches (p : Program) (library : Library) (s : State) (job : Job) : Prop :=
  Relation.ReflTransGen Calls (p.entry library) (s, job)

variable {p : Program} {library : Library} {tables : Tables}

theorem run_of_analyse (accepted : p.analyse library = .ok tables) :
    ∃ t : State, (stmts .top p.body).run (p.entry library).1 = .ok ((), t) ∧ t.tables = tables := by
  unfold Program.analyse at accepted
  cases ran : (Typing.program p).run ⟨.base library, .empty, 0⟩ with
  | error e =>
    rw [ran] at accepted
    cases accepted
  | ok result =>
    obtain ⟨_, last⟩ := result
    rw [ran] at accepted
    cases accepted
    obtain ⟨_, _, opened, ran⟩ := Grammar.run_bind_ok ran
    cases opened
    obtain ⟨_, t, checked, closed⟩ := Grammar.run_bind_ok ran
    cases closed
    exact ⟨t, checked, rfl⟩

/-- In a script that analysis accepts, every node is met. -/
theorem met_of_analyse (accepted : p.analyse library = .ok tables) {n : Node} (mem : n ∈ p.nodes) :
    Met (p.entry library) n := by
  obtain ⟨t, checked, _⟩ := run_of_analyse accepted
  have all : Done (p.entry library) (.stmts .top p.body) := ⟨_, t, .refl, checked⟩
  exact covers_block all (covers_stmts p.body .top all) n mem

end Program

end CursorScript
