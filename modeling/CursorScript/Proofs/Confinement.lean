import CursorScript.Proofs.FaultPlaces

/-!
Statements that are confined: `return` stands in functions, `break` and `continue` stand in loops,
and a loop around a function does not count inside it. Analysis accepts no others, whatever the
library, and the body of every function of an accepted script is confined by itself.
-/
namespace CursorScript

mutual

/-- Whether a statement returns in a call only, and breaks and continues in a loop only. -/
def Stmt.confined (call loop : Bool) : Stmt → Bool
  | .block ⟨_, body⟩ => allConfined call loop body
  | .branch _ _ ⟨_, body⟩ other => allConfined call loop body && otherConfined call loop other
  | .whileLoop _ _ ⟨_, body⟩ => allConfined call true body
  | .repeatLoop _ _ ⟨_, body⟩ => allConfined call true body
  | .function ⟨_, _, _, _, ⟨_, body⟩⟩ => allConfined true false body
  | .ret .. => call
  | .brk _ => loop
  | .cont _ => loop
  | .expression .. => true
  | .declare .. => true
  | .assign .. => true

def Stmt.otherConfined (call loop : Bool) : Option Stmt → Bool
  | none => true
  | some s => s.confined call loop

def Stmt.allConfined (call loop : Bool) : List Stmt → Bool
  | [] => true
  | s :: rest => s.confined call loop && allConfined call loop rest

end

theorem Stmt.confined_of_mem {call loop : Bool} {body : List Stmt} {s : Stmt}
    (h : allConfined call loop body = true) (mem : s ∈ body) : s.confined call loop = true := by
  induction body with
  | nil => cases mem
  | cons first rest ih =>
    obtain ⟨here, others⟩ := Bool.and_eq_true_iff.1 h
    rcases List.mem_cons.1 mem with rfl | mem
    · exact here
    · exact ih others mem

namespace Typing
open Grammar (run_bind_ok)

variable {s s' : State}

theorem confined_of_inScope {here : Surroundings} {body : List Stmt} {confined : Prop}
    (ran : (do openScope; stmts here body; closeScope : Check Unit).run s = .ok ((), s'))
    (inner : ∀ t t', (stmts here body).run t = .ok ((), t') → confined) : confined := by
  obtain ⟨_, _, _, ran⟩ := run_bind_ok ran
  obtain ⟨_, _, checked, _⟩ := run_bind_ok ran
  exact inner _ _ checked

theorem isSome_of_returns {here : Surroundings} {mark : Mark} {value : Option Expr}
    (ran : (returns here mark value).run s = .ok ((), s')) : here.function.isSome = true := by
  unfold returns at ran
  split at ran
  · cases ran
  · next found => rw [found]; rfl

theorem inLoop_of_insideLoop {here : Surroundings} {mark : Mark} {statement : String}
    (ran : (insideLoop here mark statement).run s = .ok ((), s')) : here.inLoop = true := by
  unfold insideLoop at ran
  cases inside : here.inLoop with
  | true => rfl
  | false =>
    rw [inside] at ran
    cases ran

mutual

/-- A statement that analysis accepts is confined to what it stands in. -/
theorem confined_of_stmt : ∀ (stmt : Stmt) (here : Surroundings) (s s' : State),
    (Typing.stmt here stmt).run s = .ok ((), s') →
      stmt.confined here.function.isSome here.inLoop = true
  | .block ⟨_, body⟩, here, _, _, ran =>
    confined_of_inScope ran (confined_of_stmts body here)
  | .branch _ test ⟨_, body⟩ other, here, _, _, ran => by
    obtain ⟨_, _, _, ran⟩ := run_bind_ok ran
    obtain ⟨_, _, _, ran⟩ := run_bind_ok ran
    obtain ⟨_, _, checked, ran⟩ := run_bind_ok ran
    obtain ⟨_, _, _, ran⟩ := run_bind_ok ran
    exact Bool.and_eq_true_iff.2 ⟨confined_of_stmts body here _ _ checked,
      confined_of_otherStmt other here _ _ ran⟩
  | .whileLoop _ test ⟨_, body⟩, here, _, _, ran => by
    obtain ⟨_, _, _, ran⟩ := run_bind_ok ran
    obtain ⟨_, _, _, ran⟩ := run_bind_ok ran
    exact confined_of_inScope ran (confined_of_stmts body here.loop)
  | .repeatLoop _ count ⟨_, body⟩, here, _, _, ran => by
    obtain ⟨_, _, _, ran⟩ := run_bind_ok ran
    obtain ⟨_, _, _, ran⟩ := run_bind_ok ran
    exact confined_of_inScope ran (confined_of_stmts body here.loop)
  | .function ⟨mark, name, ps, result, ⟨inner, body⟩⟩, here, _, _, ran => by
    obtain ⟨_, _, _, ran⟩ := run_bind_ok ran
    obtain ⟨_, _, _, ran⟩ := run_bind_ok ran
    obtain ⟨_, _, _, ran⟩ := run_bind_ok ran
    obtain ⟨_, _, _, ran⟩ := run_bind_ok ran
    obtain ⟨_, _, checked, _⟩ := run_bind_ok ran
    exact confined_of_stmts body (.ofDecl ⟨mark, name, ps, result, ⟨inner, body⟩⟩) _ _ checked
  | .ret .., _, _, _, ran => isSome_of_returns ran
  | .brk _, _, _, _, ran => inLoop_of_insideLoop ran
  | .cont _, _, _, _, ran => inLoop_of_insideLoop ran
  | .expression .., _, _, _, _ => rfl
  | .declare .., _, _, _, _ => rfl
  | .assign .., _, _, _, _ => rfl

theorem confined_of_otherStmt : ∀ (other : Option Stmt) (here : Surroundings) (s s' : State),
    (otherStmt here other).run s = .ok ((), s') →
      Stmt.otherConfined here.function.isSome here.inLoop other = true
  | none, _, _, _, _ => rfl
  | some stmt, here, s, s', ran => confined_of_stmt stmt here s s' ran

theorem confined_of_stmts : ∀ (body : List Stmt) (here : Surroundings) (s s' : State),
    (stmts here body).run s = .ok ((), s') →
      Stmt.allConfined here.function.isSome here.inLoop body = true
  | [], _, _, _, _ => rfl
  | stmt :: rest, here, s, s', ran => by
    obtain ⟨_, _, first, ran⟩ := run_bind_ok ran
    exact Bool.and_eq_true_iff.2 ⟨confined_of_stmt stmt here _ _ first,
      confined_of_stmts rest here _ _ ran⟩

end

end Typing

theorem Program.confined_of_analyse {p : Program} {library : Library} {tables : Tables}
    (accepted : p.analyse library = .ok tables) : Stmt.allConfined false false p.body = true := by
  unfold Program.analyse at accepted
  cases ran : (Typing.program p).run ⟨.base library, .empty, 0⟩ with
  | error e =>
    rw [ran] at accepted
    cases accepted
  | ok result => exact Typing.confined_of_inScope ran (Typing.confined_of_stmts p.body .top)

def Node.Confined : Node → Prop
  | .stmt s => ∃ call loop, s.confined call loop = true
  | .block b => ∃ call loop, Stmt.allConfined call loop b.body = true
  | _ => True

namespace Node

theorem Confined.child {n child : Node} (h : n.Confined) (held : child ∈ n.children) :
    child.Confined := by
  have ofBody : ∀ {call loop : Bool} {body : List Stmt},
      Stmt.allConfined call loop body = true → child ∈ body.map stmt → child.Confined := by
    intro call loop body confined held
    obtain ⟨s, mem, rfl⟩ := List.mem_map.1 held
    exact ⟨call, loop, Stmt.confined_of_mem confined mem⟩
  cases n with
  | expr e =>
    obtain ⟨inner, rfl⟩ := eq_expr_of_mem held
    trivial
  | target s => cases held
  | parameter p => cases held
  | block b =>
    obtain ⟨call, loop, confined⟩ := h
    exact ofBody confined held
  | stmt s =>
    obtain ⟨call, loop, confined⟩ := h
    cases s with
    | block b => exact ofBody confined held
    | expression mark e =>
      cases List.mem_singleton.1 held
      trivial
    | declare mark name type e =>
      cases List.mem_singleton.1 held
      trivial
    | assign mark target token e =>
      rcases List.mem_pair.1 held with rfl | rfl
      · trivial
      · trivial
    | branch mark e b other =>
      obtain ⟨body, otherwise⟩ := Bool.and_eq_true_iff.1 confined
      rcases List.mem_cons.1 held with rfl | held
      · trivial
      rcases List.mem_cons.1 held with rfl | held
      · exact ⟨call, loop, body⟩
      · cases other with
        | none => cases held
        | some s =>
          cases List.mem_singleton.1 held
          exact ⟨call, loop, otherwise⟩
    | whileLoop mark e b =>
      rcases List.mem_pair.1 held with rfl | rfl
      · trivial
      · exact ⟨call, true, confined⟩
    | repeatLoop mark e b =>
      rcases List.mem_pair.1 held with rfl | rfl
      · trivial
      · exact ⟨call, true, confined⟩
    | function decl =>
      rcases List.mem_append.1 held with held | held
      · obtain ⟨p, _, rfl⟩ := List.mem_map.1 held
        trivial
      · cases List.mem_singleton.1 held
        exact ⟨true, false, confined⟩
    | ret mark value =>
      obtain ⟨e, _, rfl⟩ := List.mem_map.1 held
      trivial
    | brk mark => cases held
    | cont mark => cases held

theorem Confined.inner {root n : Node} (h : root.Confined) (mem : n ∈ root.postorder) :
    n.Confined := by
  rcases mem_postorder.1 mem with inside | rfl
  · induction inside with
    | single held => exact h.child held
    | tail inner held ih => exact (ih (mem_postorder.2 (.inl inner))).child held
  · exact h

/-- The body of a function returns, but breaks and continues in loops of its own only. -/
theorem Confined.body {root : Node} {decl : FunctionDecl Stmt} (h : root.Confined)
    (mem : .stmt (.function decl) ∈ root.postorder) :
    Stmt.allConfined true false decl.body.body = true := by
  obtain ⟨_, _, confined⟩ := h.inner mem
  exact confined

end Node

end CursorScript
