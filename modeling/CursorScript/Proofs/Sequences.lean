import CursorScript.Proofs.Recording
import Mathlib.Data.List.Nodup
import Mathlib.Data.List.Pairwise

/-!
Sequences of statements and the bodies that they belong to. A sequence is the body of a function, of
a loop or of the script, or it stands in one of these, in a block or a branch and at any depth. No
statement stands in two bodies. In an accepted script every sequence of a body passes the check of
that body: nothing follows the statement that ends it early.
-/
namespace CursorScript

namespace Stmt

def opens : Stmt → Option Flow.Body
  | .function _ => some .function
  | .whileLoop .. => some .loop
  | .repeatLoop .. => some .loop
  | _ => none

def sequence : Stmt → List Stmt
  | .block b => b.body
  | .branch _ _ b _ => b.body
  | .whileLoop _ _ b => b.body
  | .repeatLoop _ _ b => b.body
  | .function decl => decl.body.body
  | _ => []

def other? : Stmt → Option Stmt
  | .branch _ _ _ other => other
  | _ => none

end Stmt

/-- The sequences of statements of a script, each with the function or loop that it belongs to the
body of, or with none. What stands behind `else` is a sequence of its own. -/
inductive Program.Sequence (p : Program) : Option Stmt → List Stmt → Prop
  | script : Sequence p none p.body
  | body {home : Stmt} (mem : .stmt home ∈ p.nodes) (opens : home.opens.isSome = true) :
      Sequence p (some home) home.sequence
  | inner {home : Option Stmt} {seq : List Stmt} {outer : Stmt} (around : Sequence p home seq)
      (mem : outer ∈ seq) (plain : outer.opens = none) : Sequence p home outer.sequence
  | other {home : Option Stmt} {seq : List Stmt} {outer s : Stmt} (around : Sequence p home seq)
      (mem : outer ∈ seq) (behind : outer.other? = some s) : Sequence p home [s]

/-- A statement stands in a body. -/
def Program.Stands (p : Program) (home : Option Stmt) (s : Stmt) : Prop :=
  ∃ seq, p.Sequence home seq ∧ s ∈ seq

namespace Node

theorem sizeOf_le_of_mem {n child : Node} (h : child ∈ n.postorder) : sizeOf child ≤ sizeOf n := by
  rcases mem_postorder.1 h with inside | rfl
  · induction inside with
    | single held => exact Nat.le_of_lt (sizeOf_children held)
    | tail deeper held ih =>
      exact Nat.le_trans (Nat.le_of_lt (sizeOf_children held)) (ih (mem_postorder.2 (.inl deeper)))
  · exact Nat.le_refl _

/-- A node that is in two others which a node holds shows that these are one. -/
theorem eq_of_shared {n one two shared : Node} (nodup : n.postorder.Nodup)
    (held : one ∈ n.children) (held' : two ∈ n.children) (mem : shared ∈ one.postorder)
    (mem' : shared ∈ two.postorder) : one = two := by
  rw [postorder_eq] at nodup
  have apart := (List.nodup_flatMap.1 (List.nodup_append.1 nodup).1).2
  by_contra differ
  have : Std.Symm (Function.onFun List.Disjoint postorder) :=
    ⟨fun _ _ disjoint _ mem mem' => disjoint mem' mem⟩
  exact apart.forall held held' differ mem mem'

/-- No node is held by two. -/
theorem eq_of_child {root n n' child : Node} (nodup : root.postorder.Nodup)
    (mem : n ∈ root.postorder) (mem' : n' ∈ root.postorder) (held : child ∈ n.children)
    (held' : child ∈ n'.children) : n = n' := by
  have inside : ∀ {n c : Node}, n ∈ c.postorder → child ∈ n.children → child ∈ c.postorder :=
    fun mem held => mem_of_child mem held
  -- A node deeper in the tree would hold a node that is no smaller than itself.
  have smaller : ∀ {n c : Node}, n ∈ c.postorder → child ∈ n.children → child ≠ c := by
    rintro n c mem held rfl
    have := sizeOf_children held
    have := sizeOf_le_of_mem mem
    omega
  have below : ∀ {n : Node}, n ∈ root.postorder →
      n = root ∨ ∃ c ∈ root.children, n ∈ c.postorder := by
    intro n mem
    rw [postorder_eq, List.mem_append, List.mem_singleton, List.mem_flatMap] at mem
    exact mem.symm
  rcases below mem with rfl | ⟨c, first, deep⟩ <;> rcases below mem' with rfl | ⟨c', second, deep'⟩
  · rfl
  · have same := eq_of_shared nodup held second (mem_postorder_self _) (inside deep' held')
    exact absurd same (smaller deep' held')
  · have same := eq_of_shared nodup held' first (mem_postorder_self _) (inside deep held)
    exact absurd same (smaller deep held)
  · cases eq_of_shared nodup first second (inside deep held) (inside deep' held')
    have less := sizeOf_children first
    have part : c.postorder.Nodup := (postorder_sublist (.single first)).nodup nodup
    exact eq_of_child part deep deep' held held'
termination_by sizeOf root

end Node

namespace Stmt

/-- A statement directly in a block, a branch or the body of another. -/
def Holds (outer s : Stmt) : Prop := s ∈ outer.sequence ∨ outer.other? = some s

/-- Between a statement and one directly in it there is no node, or a block. -/
theorem Holds.path {outer s : Stmt} (h : outer.Holds s) :
    Node.stmt s ∈ (Node.stmt outer).children ∨
      ∃ b, Node.stmt s ∈ (Node.block b).children ∧ Node.block b ∈ (Node.stmt outer).children := by
  rcases h with mem | behind
  · cases outer with
    | block b => exact .inl (List.mem_map_of_mem mem)
    | branch mark e b other => exact .inr ⟨b, List.mem_map_of_mem mem, by simp [Node.children]⟩
    | whileLoop mark e b => exact .inr ⟨b, List.mem_map_of_mem mem, by simp [Node.children]⟩
    | repeatLoop mark e b => exact .inr ⟨b, List.mem_map_of_mem mem, by simp [Node.children]⟩
    | function decl => exact .inr ⟨decl.body, List.mem_map_of_mem mem, by simp [Node.children]⟩
    | _ => cases mem
  · cases outer with
    | branch mark e b other =>
      cases behind
      exact .inl (by simp [Node.children])
    | _ => cases behind

theorem Holds.mem {root : Node} {outer s : Stmt} (h : outer.Holds s)
    (mem : .stmt outer ∈ root.postorder) : .stmt s ∈ root.postorder := by
  rcases h.path with held | ⟨b, held, block⟩
  · exact Node.mem_of_child mem held
  · exact Node.mem_of_child (Node.mem_of_child mem block) held

/-- No statement is directly in two. -/
theorem Holds.unique {root : Node} {outer outer' s : Stmt} (nodup : root.postorder.Nodup)
    (mem : .stmt outer ∈ root.postorder) (mem' : .stmt outer' ∈ root.postorder)
    (h : outer.Holds s) (h' : outer'.Holds s) : outer = outer' := by
  rcases h.path with held | ⟨b, held, block⟩ <;> rcases h'.path with held' | ⟨b', held', block'⟩
  · cases Node.eq_of_child nodup mem mem' held held'
    rfl
  · cases Node.eq_of_child nodup mem (Node.mem_of_child mem' block') held held'
  · cases Node.eq_of_child nodup (Node.mem_of_child mem block) mem' held held'
  · cases Node.eq_of_child nodup (Node.mem_of_child mem block) (Node.mem_of_child mem' block') held
      held'
    cases Node.eq_of_child nodup mem mem' block block'
    rfl

end Stmt

namespace Program
variable {p : Program} {home : Option Stmt} {seq : List Stmt} {s : Stmt}

theorem Sequence.mem_nodes (h : p.Sequence home seq) : ∀ s ∈ seq, .stmt s ∈ p.nodes := by
  induction h with
  | script => exact Node.mem_of_body (Node.mem_postorder_self _)
  | body mem _ => exact fun s inside => Stmt.Holds.mem (.inl inside) mem
  | inner _ mem _ ih => exact fun s inside => Stmt.Holds.mem (.inl inside) (ih _ mem)
  | other _ mem behind ih =>
    intro s inside
    cases List.mem_singleton.1 inside
    exact Stmt.Holds.mem (.inr behind) (ih _ mem)

/-- A statement of the script is directly in no statement. -/
theorem not_holds_of_mem (nodup : p.nodes.Nodup) (mem : s ∈ p.body) {outer : Stmt}
    (inside : .stmt outer ∈ p.nodes) : ¬ outer.Holds s := by
  intro holds
  have top : Node.stmt s ∈ (Node.block p).children := List.mem_map_of_mem mem
  have root := Node.mem_postorder_self (.block p)
  rcases holds.path with held | ⟨b, held, block⟩
  · cases Node.eq_of_child nodup root inside top held
  · cases Node.eq_of_child nodup root (Node.mem_of_child inside block) top held
    have smaller := Node.sizeOf_children block
    have := Node.sizeOf_le_of_mem inside
    omega

/-- What a statement of a sequence is directly in. -/
theorem Sequence.cases_outer (h : p.Sequence home seq) (mem : s ∈ seq) :
    home = none ∧ s ∈ p.body ∨ ∃ outer, .stmt outer ∈ p.nodes ∧ outer.Holds s ∧
      (home = some outer ∧ outer.opens.isSome = true ∨
        outer.opens = none ∧ p.Stands home outer) := by
  cases h with
  | script => exact .inl ⟨rfl, mem⟩
  | body inside opens => exact .inr ⟨_, inside, .inl mem, .inl ⟨rfl, opens⟩⟩
  | inner around inside plain =>
    exact .inr ⟨_, around.mem_nodes _ inside, .inl mem, .inr ⟨plain, _, around, inside⟩⟩
  | @other _ _ outer _ around inside behind =>
    cases List.mem_singleton.1 mem
    have plain : outer.opens = none := by cases outer <;> first | rfl | cases behind
    exact .inr ⟨_, around.mem_nodes _ inside, .inr behind, .inr ⟨plain, _, around, inside⟩⟩

/-- Where a statement stands, what it is directly in stands too, unless it opens a body. -/
theorem Stands.outer (nodup : p.nodes.Nodup) (h : p.Stands home s) {outer : Stmt}
    (inside : .stmt outer ∈ p.nodes) (holds : outer.Holds s) (plain : outer.opens = none) :
    p.Stands home outer := by
  obtain ⟨seq, sequence, mem⟩ := h
  rcases sequence.cases_outer mem with ⟨_, top⟩ | ⟨outer', inside', holds', place⟩
  · exact absurd holds (not_holds_of_mem nodup top inside)
  · cases Stmt.Holds.unique nodup inside inside' holds holds'
    rcases place with ⟨_, opens⟩ | ⟨_, stands⟩
    · rw [plain] at opens
      cases opens
    · exact stands

/-- No statement stands in two bodies. -/
theorem Stands.unique (nodup : p.nodes.Nodup) {home' : Option Stmt} (h : p.Stands home s)
    (h' : p.Stands home' s) : home = home' := by
  obtain ⟨seq, sequence, mem⟩ := h
  induction sequence generalizing s with
  | script =>
    obtain ⟨seq', sequence', mem'⟩ := h'
    rcases sequence'.cases_outer mem' with ⟨none, _⟩ | ⟨outer, inside, holds, _⟩
    · exact none.symm
    · exact absurd holds (not_holds_of_mem nodup mem inside)
  | body inside opens =>
    obtain ⟨seq', sequence', mem'⟩ := h'
    rcases sequence'.cases_outer mem' with ⟨_, top⟩ | ⟨outer, inside', holds, place⟩
    · exact absurd (.inl mem) (not_holds_of_mem nodup top inside)
    · cases Stmt.Holds.unique nodup inside inside' (.inl mem) holds
      rcases place with ⟨same, _⟩ | ⟨plain, _⟩
      · exact same.symm
      · rw [plain] at opens
        cases opens
  | inner around inside plain ih =>
    exact ih (h'.outer nodup (around.mem_nodes _ inside) (.inl mem) plain) inside
  | @other _ _ outer _ around inside behind ih =>
    cases List.mem_singleton.1 mem
    have plain : outer.opens = none := by cases outer <;> first | rfl | cases behind
    exact ih (h'.outer nodup (around.mem_nodes _ inside) (.inr behind) plain) inside

end Program

namespace Flow
variable {mode : Body} {seq : List Stmt} {ends : Bool}

theorem sequenceEnds_singleton (s : Stmt) : sequenceEnds mode [s] = endsEarly mode s := by
  rw [sequenceEnds]
  cases endsEarly mode s <;> rfl

/-- A statement that others follow does not end early. -/
theorem ok_of_sequenceEnds {s next : Stmt} {rest : List Stmt}
    (h : sequenceEnds mode (s :: next :: rest) = .ok ends) :
    endsEarly mode s = .ok false ∧ sequenceEnds mode (next :: rest) = .ok ends := by
  rw [sequenceEnds] at h
  obtain ⟨ended, first, h⟩ := exists_of_bind_ok h
  cases ended with
  | true => cases h
  | false => exact ⟨first, h⟩

theorem sequenceEnds_of_append {before rest : List Stmt} {s : Stmt}
    (h : sequenceEnds mode (before ++ s :: rest) = .ok ends) :
    sequenceEnds mode (s :: rest) = .ok ends := by
  induction before with
  | nil => exact h
  | cons first before ih =>
    refine ih ?_
    cases before with
    | nil => exact (ok_of_sequenceEnds h).2
    | cons next before => exact (ok_of_sequenceEnds h).2

theorem exists_endsEarly_of_mem {s : Stmt} (h : sequenceEnds mode seq = .ok ends) (mem : s ∈ seq) :
    ∃ ended, endsEarly mode s = .ok ended := by
  obtain ⟨before, rest, rfl⟩ := List.append_of_mem mem
  have whole := sequenceEnds_of_append h
  cases rest with
  | nil => exact ⟨ends, by rwa [sequenceEnds_singleton] at whole⟩
  | cons next rest => exact ⟨false, (ok_of_sequenceEnds whole).1⟩

/-- A sequence that ends early does so with its last statement. -/
theorem exists_last_of_ends (h : sequenceEnds mode seq = .ok true) :
    ∃ before last, seq = before ++ [last] ∧ endsEarly mode last = .ok true := by
  induction seq with
  | nil => cases h
  | cons s rest ih =>
    cases rest with
    | nil =>
      rw [sequenceEnds_singleton] at h
      exact ⟨[], s, rfl, h⟩
    | cons next rest =>
      obtain ⟨before, last, same, ended⟩ := ih (ok_of_sequenceEnds h).2
      exact ⟨s :: before, last, by rw [same, List.cons_append], ended⟩

/-- What is in a statement that opens no body is checked with it. -/
theorem exists_sequenceEnds {outer : Stmt} (h : endsEarly mode outer = .ok ends)
    (plain : outer.opens = none) : ∃ ended, sequenceEnds mode outer.sequence = .ok ended := by
  cases outer with
  | block b => exact ⟨_, h⟩
  | branch mark e b other =>
    obtain ⟨ended, first, _⟩ := exists_of_bind_ok h
    exact ⟨ended, first⟩
  | whileLoop | repeatLoop | function => cases plain
  | _ => exact ⟨false, rfl⟩

theorem exists_otherEnds {outer s : Stmt} (h : endsEarly mode outer = .ok ends)
    (behind : outer.other? = some s) : ∃ ended, endsEarly mode s = .ok ended := by
  cases outer with
  | branch mark e b other =>
    cases behind
    obtain ⟨_, _, h⟩ := exists_of_bind_ok h
    obtain ⟨ended, second, _⟩ := exists_of_bind_ok h
    exact ⟨ended, second⟩
  | _ => cases behind

theorem exists_of_checkLoop {b : Block Stmt} (h : checkLoop b = .ok ()) :
    ∃ ends, sequenceEnds .loop b.body = .ok ends := by
  obtain ⟨ends, ended, _⟩ := exists_of_bind_ok h
  exact ⟨ends, ended⟩

/-- The body of a function with a return type ends early. -/
theorem exists_of_checkFunction {decl : FunctionDecl Stmt} (h : checkFunction decl = .ok ()) :
    ∃ ends, sequenceEnds .function decl.body.body = .ok ends ∧
      (decl.returns.isSome = true → ends = true) := by
  obtain ⟨ends, ended, h⟩ := exists_of_bind_ok h
  refine ⟨ends, ended, fun typed => ?_⟩
  cases ends with
  | true => rfl
  | false => simp [typed] at h

end Flow

def Node.Passes : Node → Prop
  | .stmt (.whileLoop _ _ b) => Flow.checkLoop b = .ok ()
  | .stmt (.repeatLoop _ _ b) => Flow.checkLoop b = .ok ()
  | .stmt (.function decl) => Flow.checkFunction decl = .ok ()
  | _ => True

def Node.AllPass (n : Node) : Prop := ∀ inner ∈ n.postorder, inner.Passes

namespace Node

theorem allPass_of_children {n : Node} (here : n.Passes) (inside : ∀ m ∈ n.children, m.AllPass) :
    n.AllPass := by
  intro inner mem
  rw [postorder_eq, List.mem_append, List.mem_singleton, List.mem_flatMap] at mem
  rcases mem with ⟨child, held, mem⟩ | rfl
  · exact inside child held inner mem
  · exact here

theorem allPass_expr (e : Expr) : (expr e).AllPass := by
  refine allPass_of_children trivial fun m held => ?_
  obtain ⟨inner, rfl⟩ := eq_expr_of_mem held
  have smaller : sizeOf inner < sizeOf e := by simpa using sizeOf_children held
  exact allPass_expr inner
termination_by sizeOf e

theorem allPass_block {b : Block Stmt} (h : ∀ s ∈ b.body, (stmt s).AllPass) :
    (block b).AllPass := by
  refine allPass_of_children trivial fun m held => ?_
  obtain ⟨s, mem, rfl⟩ := List.mem_map.1 held
  exact h s mem

/-- A loop passes with its body. -/
theorem allPass_loop {n : Node} {test : Expr} {b : Block Stmt} (here : n.Passes)
    (children : n.children = [.expr test, .block b]) (h : ∀ s ∈ b.body, (stmt s).AllPass) :
    n.AllPass := by
  refine allPass_of_children here fun m held => ?_
  rw [children] at held
  rcases List.mem_pair.1 held with rfl | rfl
  · exact allPass_expr test
  · exact allPass_block h

end Node

namespace Typing
open Grammar (run_bind_ok)

theorem ok_of_liftM {s s' : State} {result : Except Error Unit}
    (ran : (liftM result : Check Unit).run s = .ok ((), s')) : result = .ok () := by
  cases result with
  | error e => cases ran
  | ok a => rfl

theorem inner_of_inScope {s s' : State} {body : Check Unit}
    (ran : (inScope body).run s = .ok ((), s')) : ∃ t t', body.run t = .ok ((), t') := by
  obtain ⟨_, t, _, ran⟩ := run_bind_ok ran
  obtain ⟨_, t', checked, _⟩ := run_bind_ok ran
  exact ⟨t, t', checked⟩

mutual

theorem allPass_of_stmt : ∀ (stmt : Stmt) (here : Surroundings) (s s' : State),
    (Typing.stmt here stmt).run s = .ok ((), s') → (Node.stmt stmt).AllPass
  | .block ⟨mark, body⟩, here, _, _, ran => by
    obtain ⟨_, _, checked⟩ := inner_of_inScope ran
    refine Node.allPass_of_children trivial fun m held => ?_
    obtain ⟨s, mem, rfl⟩ := List.mem_map.1 held
    exact allPass_of_stmts body here _ _ checked s mem
  | .branch mark test ⟨inner, body⟩ other, here, _, _, ran => by
    rw [stmt_branch] at ran
    obtain ⟨_, _, _, ran⟩ := run_bind_ok ran
    obtain ⟨_, _, scope, ran⟩ := run_bind_ok ran
    obtain ⟨_, _, checked⟩ := inner_of_inScope scope
    refine Node.allPass_of_children trivial fun m held => ?_
    simp only [Node.children, List.mem_cons, List.mem_map, Option.mem_toList] at held
    rcases held with rfl | rfl | ⟨s, mem, rfl⟩
    · exact Node.allPass_expr test
    · exact Node.allPass_block (allPass_of_stmts body here _ _ checked)
    · exact allPass_of_otherStmt other here _ _ ran s mem
  | .whileLoop mark test ⟨inner, body⟩, here, _, _, ran => by
    obtain ⟨_, _, _, ran⟩ := run_bind_ok ran
    obtain ⟨_, _, passed, ran⟩ := run_bind_ok ran
    obtain ⟨_, _, checked⟩ := inner_of_inScope ran
    exact Node.allPass_loop (ok_of_liftM passed) rfl (allPass_of_stmts body here.loop _ _ checked)
  | .repeatLoop mark count ⟨inner, body⟩, here, _, _, ran => by
    obtain ⟨_, _, _, ran⟩ := run_bind_ok ran
    obtain ⟨_, _, passed, ran⟩ := run_bind_ok ran
    obtain ⟨_, _, checked⟩ := inner_of_inScope ran
    exact Node.allPass_loop (ok_of_liftM passed) rfl (allPass_of_stmts body here.loop _ _ checked)
  | .function ⟨mark, name, ps, result, ⟨inner, body⟩⟩, here, _, _, ran => by
    rw [stmt_function] at ran
    obtain ⟨_, _, _, ran⟩ := run_bind_ok ran
    obtain ⟨_, _, passed, ran⟩ := run_bind_ok ran
    obtain ⟨_, _, scope⟩ := inner_of_inScope ran
    obtain ⟨_, _, _, checked⟩ := run_bind_ok scope
    refine Node.allPass_of_children (ok_of_liftM passed) fun m held => ?_
    rcases List.mem_append.1 held with bound | block
    · obtain ⟨p, _, rfl⟩ := List.mem_map.1 bound
      exact Node.allPass_of_children trivial nofun
    · cases List.mem_singleton.1 block
      exact Node.allPass_block (allPass_of_stmts body _ _ _ checked)
  | .expression mark e, _, _, _, _ => by
    refine Node.allPass_of_children trivial fun m held => ?_
    cases List.mem_singleton.1 held
    exact Node.allPass_expr e
  | .declare mark name type e, _, _, _, _ => by
    refine Node.allPass_of_children trivial fun m held => ?_
    cases List.mem_singleton.1 held
    exact Node.allPass_expr e
  | .assign mark target token e, _, _, _, _ => by
    refine Node.allPass_of_children trivial fun m held => ?_
    rcases List.mem_pair.1 held with rfl | rfl
    · exact Node.allPass_of_children trivial nofun
    · exact Node.allPass_expr e
  | .ret mark value, _, _, _, _ => by
    refine Node.allPass_of_children trivial fun m held => ?_
    obtain ⟨e, _, rfl⟩ := List.mem_map.1 held
    exact Node.allPass_expr e
  | .brk _, _, _, _, _ => Node.allPass_of_children trivial nofun
  | .cont _, _, _, _, _ => Node.allPass_of_children trivial nofun

theorem allPass_of_otherStmt : ∀ (other : Option Stmt) (here : Surroundings) (s s' : State),
    (otherStmt here other).run s = .ok ((), s') → ∀ stmt ∈ other, (Node.stmt stmt).AllPass
  | none, _, _, _, _ => nofun
  | some stmt, here, s, s', ran => fun _ same =>
    Option.some.inj same ▸ allPass_of_stmt stmt here s s' ran

theorem allPass_of_stmts : ∀ (body : List Stmt) (here : Surroundings) (s s' : State),
    (stmts here body).run s = .ok ((), s') → ∀ stmt ∈ body, (Node.stmt stmt).AllPass
  | [], _, _, _, _ => nofun
  | stmt :: rest, here, s, s', ran => by
    obtain ⟨_, _, first, ran⟩ := run_bind_ok ran
    exact List.forall_mem_cons.2 ⟨allPass_of_stmt stmt here _ _ first,
      allPass_of_stmts rest here _ _ ran⟩

end

end Typing

namespace Program
variable {p : Program} {library : Library} {tables : Tables}

theorem allPass_of_analyse (accepted : p.analyse library = .ok tables) :
    (Node.block p).AllPass := by
  unfold analyse at accepted
  cases ran : (Typing.program p).run ⟨.base library, .empty, 0⟩ with
  | error e =>
    rw [ran] at accepted
    cases accepted
  | ok result =>
    obtain ⟨_, _, checked⟩ := Typing.inner_of_inScope ran
    exact Node.allPass_block (Typing.allPass_of_stmts p.body .top _ _ checked)

theorem nodup_nodes {tokens : List Token} {file : String}
    (read : Program.ofTokens tokens file = .ok p) : p.nodes.Nodup :=
  .of_map _ ((Program.ascending_of_ofTokens read).imp Nat.ne_of_lt)

/-- Every sequence of a body passes the check of the body. -/
theorem Sequence.checked (pass : (Node.block p).AllPass) {home : Option Stmt} {seq : List Stmt}
    (h : p.Sequence home seq) {mode : Flow.Body} (opens : home.bind Stmt.opens = some mode) :
    ∃ ends, Flow.sequenceEnds mode seq = .ok ends := by
  induction h with
  | script => cases opens
  | @body home mem _ =>
    have passes := pass _ mem
    cases home with
    | whileLoop mark e b =>
      cases opens
      exact Flow.exists_of_checkLoop passes
    | repeatLoop mark e b =>
      cases opens
      exact Flow.exists_of_checkLoop passes
    | function decl =>
      cases opens
      obtain ⟨ends, ended, _⟩ := Flow.exists_of_checkFunction passes
      exact ⟨ends, ended⟩
    | _ => cases opens
  | inner _ mem plain ih =>
    obtain ⟨ends, around⟩ := ih opens
    obtain ⟨ended, early⟩ := Flow.exists_endsEarly_of_mem around mem
    exact Flow.exists_sequenceEnds early plain
  | other _ mem behind ih =>
    obtain ⟨ends, around⟩ := ih opens
    obtain ⟨ended, early⟩ := Flow.exists_endsEarly_of_mem around mem
    obtain ⟨ended, second⟩ := Flow.exists_otherEnds early behind
    exact ⟨ended, by rwa [Flow.sequenceEnds_singleton]⟩

end Program

end CursorScript
