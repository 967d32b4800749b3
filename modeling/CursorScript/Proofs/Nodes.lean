import CursorScript.Proofs.Identities
import Mathlib.Logic.Relation

/-!
Trees as nodes that hold other nodes. What a node holds directly is listed in the order of the
script, and a node comes after all it holds in `Node.postorder`. Main statement: the identities of a
tree that was read from tokens ascend in that order.
-/
namespace CursorScript

/-- A node of a tree: an expression, the target of an assignment, a parameter, a block that belongs
to another node, or a statement. -/
inductive Node where
  | expr (e : Expr)
  | target (s : Symbol)
  | parameter (p : Parameter)
  | block (b : Block Stmt)
  | stmt (s : Stmt)

namespace Node

def mark : Node → Mark
  | expr e => e.mark
  | target s => s.mark
  | parameter p => p.mark
  | block b => b.mark
  | stmt s => s.mark

/-- What a node holds directly, in the order of the script. The name of the function that a call
means is no node. -/
def children : Node → List Node
  | expr (.interpolation _ parts) => (Part.embedded parts).map expr
  | expr (.binary _ left _ right) => [expr left, expr right]
  | expr (.unary _ _ operand) => [expr operand]
  | expr (.index _ collection place) => [expr collection, expr place]
  | expr (.call _ _ arguments) => arguments.map expr
  | expr (.list _ elements) => elements.map expr
  | expr (.map _ entries) => entries.flatMap fun entry => [expr entry.1, expr entry.2]
  | expr _ => []
  | target _ => []
  | parameter _ => []
  | block b => b.body.map stmt
  | stmt (.block b) => b.body.map stmt
  | stmt (.expression _ e) => [expr e]
  | stmt (.declare _ _ _ value) => [expr value]
  | stmt (.assign _ symbol _ value) => [target symbol, expr value]
  | stmt (.branch _ condition body other) => expr condition :: block body :: other.toList.map stmt
  | stmt (.whileLoop _ condition body) => [expr condition, block body]
  | stmt (.repeatLoop _ count body) => [expr count, block body]
  | stmt (.function decl) => decl.parameters.map parameter ++ [block decl.body]
  | stmt (.ret _ value) => value.toList.map expr
  | stmt (.brk _) => []
  | stmt (.cont _) => []

theorem sizeOf_embedded {parts : List (Part Expr)} {e : Expr} (h : e ∈ Part.embedded parts) :
    sizeOf e < sizeOf parts := by
  induction parts with
  | nil => cases h
  | cons part rest ih =>
    cases part with
    | text chars =>
      have := ih h
      simp only [List.cons.sizeOf_spec]
      omega
    | embed first =>
      rcases List.mem_cons.1 h with rfl | h
      · simp only [List.cons.sizeOf_spec, Part.embed.sizeOf_spec]
        omega
      · have := ih h
        simp only [List.cons.sizeOf_spec]
        omega

theorem sizeOf_body {b : Block Stmt} {s : Stmt} (h : s ∈ b.body) : sizeOf s < sizeOf b := by
  obtain ⟨mark, body⟩ := b
  have : sizeOf s < sizeOf body := List.sizeOf_lt_of_mem h
  simp only [Block.mk.sizeOf_spec]
  omega

theorem sizeOf_parameters {decl : FunctionDecl Stmt} {p : Parameter} (h : p ∈ decl.parameters) :
    sizeOf p < sizeOf decl := by
  obtain ⟨mark, name, parameters, returns, body⟩ := decl
  have : sizeOf p < sizeOf parameters := List.sizeOf_lt_of_mem h
  simp only [FunctionDecl.mk.sizeOf_spec]
  omega

theorem sizeOf_children {n child : Node} (h : child ∈ n.children) : sizeOf child < sizeOf n := by
  unfold children at h
  split at h <;> simp only [List.mem_map, List.mem_flatMap, List.mem_append, List.mem_cons,
    List.not_mem_nil, or_false, Option.mem_toList] at h
  case h_1 =>
    obtain ⟨e, mem, rfl⟩ := h
    have := sizeOf_embedded mem
    simp only [expr.sizeOf_spec, Expr.interpolation.sizeOf_spec]
    omega
  case h_2 =>
    rcases h with rfl | rfl
    all_goals
      simp only [expr.sizeOf_spec, Expr.binary.sizeOf_spec]
      omega
  case h_3 =>
    simp only [h, expr.sizeOf_spec, Expr.unary.sizeOf_spec]
    omega
  case h_4 =>
    rcases h with rfl | rfl
    all_goals
      simp only [expr.sizeOf_spec, Expr.index.sizeOf_spec]
      omega
  case h_5 =>
    obtain ⟨e, mem, rfl⟩ := h
    have := List.sizeOf_lt_of_mem mem
    simp only [expr.sizeOf_spec, Expr.call.sizeOf_spec]
    omega
  case h_6 =>
    obtain ⟨e, mem, rfl⟩ := h
    have := List.sizeOf_lt_of_mem mem
    simp only [expr.sizeOf_spec, Expr.list.sizeOf_spec]
    omega
  case h_7 =>
    obtain ⟨⟨key, value⟩, mem, held⟩ := h
    have := List.sizeOf_lt_of_mem mem
    simp only [Prod.mk.sizeOf_spec] at this
    rcases held with rfl | rfl <;> simp only [expr.sizeOf_spec, Expr.map.sizeOf_spec] <;> omega
  case h_11 | h_12 =>
    obtain ⟨s, mem, rfl⟩ := h
    have := sizeOf_body mem
    simp
    omega
  case h_13 =>
    simp only [h, expr.sizeOf_spec, stmt.sizeOf_spec, Stmt.expression.sizeOf_spec]
    omega
  case h_14 =>
    simp only [h, expr.sizeOf_spec, stmt.sizeOf_spec, Stmt.declare.sizeOf_spec]
    omega
  case h_15 =>
    rcases h with rfl | rfl
    all_goals
      simp only [target.sizeOf_spec, expr.sizeOf_spec, stmt.sizeOf_spec,
        Stmt.assign.sizeOf_spec]
      omega
  case h_16 =>
    rcases h with rfl | rfl | ⟨s, rfl, rfl⟩
    all_goals
      simp only [expr.sizeOf_spec, block.sizeOf_spec, stmt.sizeOf_spec,
        Stmt.branch.sizeOf_spec, Option.some.sizeOf_spec]
      omega
  case h_17 | h_18 =>
    rcases h with rfl | rfl
    all_goals
      simp only [expr.sizeOf_spec, block.sizeOf_spec, stmt.sizeOf_spec,
        Stmt.whileLoop.sizeOf_spec, Stmt.repeatLoop.sizeOf_spec]
      omega
  case h_19 decl =>
    rcases h with ⟨p, mem, rfl⟩ | rfl
    · have := sizeOf_parameters mem
      simp
      omega
    · cases decl
      simp
      omega
  case h_20 =>
    obtain ⟨e, rfl, rfl⟩ := h
    simp
    omega

def postorder (n : Node) : List Node :=
  n.children.attach.flatMap (fun child => postorder child.1) ++ [n]
termination_by sizeOf n
decreasing_by exact sizeOf_children child.2

theorem postorder_eq (n : Node) : n.postorder = n.children.flatMap postorder ++ [n] := by
  rw [postorder]
  simp [List.flatMap_subtype]

/-- A node is inside another, at any depth. -/
def Holds : Node → Node → Prop := Relation.TransGen fun n child => child ∈ n.children

theorem mem_postorder_self (n : Node) : n ∈ n.postorder := by
  rw [postorder_eq]
  simp

theorem flatMap_sublist {n child : Node} (h : child ∈ n.children) :
    child.postorder.Sublist (n.children.flatMap postorder) :=
  List.sublist_flatten_of_mem (List.mem_map_of_mem h)

/-- What a node holds stands before it. -/
theorem mem_of_holds {n inner : Node} (h : n.Holds inner) :
    inner ∈ n.children.flatMap postorder := by
  induction h using Relation.TransGen.head_induction_on with
  | single held => exact (flatMap_sublist held).subset (mem_postorder_self _)
  | head held _ ih =>
    refine (flatMap_sublist held).subset ?_
    rw [postorder_eq]
    exact List.mem_append_left _ ih

theorem holds_of_mem {n inner : Node} (h : inner ∈ n.children.flatMap postorder) :
    n.Holds inner := by
  obtain ⟨child, held, inside⟩ := List.mem_flatMap.1 h
  rw [postorder_eq] at inside
  rcases List.mem_append.1 inside with deeper | here
  · exact .head held (holds_of_mem deeper)
  · cases List.mem_singleton.1 here
    exact .single held
termination_by sizeOf n
decreasing_by exact sizeOf_children held

/-- The list of a node is the node and all it holds. -/
theorem mem_postorder {n inner : Node} : inner ∈ n.postorder ↔ n.Holds inner ∨ inner = n := by
  rw [postorder_eq, List.mem_append, List.mem_singleton]
  exact or_congr_left ⟨holds_of_mem, mem_of_holds⟩

theorem postorder_sublist {n inner : Node} (h : n.Holds inner) :
    inner.postorder.Sublist n.postorder := by
  have direct : ∀ {n child : Node}, child ∈ n.children → child.postorder.Sublist n.postorder := by
    intro n child held
    rw [postorder_eq n]
    exact (flatMap_sublist held).trans (List.sublist_append_left _ _)
  induction h using Relation.TransGen.head_induction_on with
  | single held => exact direct held
  | head held _ ih => exact ih.trans (direct held)

theorem mem_of_child {root n child : Node} (h : n ∈ root.postorder) (held : child ∈ n.children) :
    child ∈ root.postorder := by
  rcases mem_postorder.1 h with inside | rfl
  · exact mem_postorder.2 (.inl (inside.tail held))
  · exact mem_postorder.2 (.inl (.single held))

theorem mem_of_one {root n child : Node} (h : n ∈ root.postorder) (held : n.children = [child]) :
    child ∈ root.postorder := mem_of_child h (by simp [held])

theorem mem_of_two {root n first second : Node} (h : n ∈ root.postorder)
    (held : n.children = [first, second]) : first ∈ root.postorder ∧ second ∈ root.postorder :=
  ⟨mem_of_child h (by simp [held]), mem_of_child h (by simp [held])⟩

theorem mem_of_exprs {root n : Node} {es : List Expr} (h : n ∈ root.postorder)
    (held : n.children = es.map expr) : ∀ e ∈ es, expr e ∈ root.postorder := by
  intro e mem
  refine mem_of_child h ?_
  rw [held]
  exact List.mem_map_of_mem mem

theorem mem_of_body {root : Node} {b : Block Stmt} (h : block b ∈ root.postorder) :
    ∀ s ∈ b.body, stmt s ∈ root.postorder :=
  fun _ mem => mem_of_child h (List.mem_map_of_mem mem)

def operator? : Node → Option Token
  | expr (.binary _ _ token _) => some token
  | expr (.unary _ token _) => some token
  | stmt (.assign _ _ token _) => some token
  | _ => none

def positions (n : Node) : List Position :=
  (n.mark.span :: n.operator?.toList.map Token.span).flatMap fun span => [span.start, span.stop]

/-- A position is one of a node or of a node inside it. -/
def Shows (root : Node) (q : Position) : Prop := ∃ n ∈ root.postorder, q ∈ n.positions

theorem shows_start {root n : Node} (h : n ∈ root.postorder) : root.Shows n.mark.start :=
  ⟨n, h, by simp [positions, Mark.start]⟩

theorem shows_operator {root n : Node} {token : Token} (h : n ∈ root.postorder)
    (kept : n.operator? = some token) : root.Shows token.span.start :=
  ⟨n, h, by simp [positions, kept]⟩

def ids (n : Node) : List Nat := n.postorder.map fun inner => inner.mark.id

theorem ids_eq (n : Node) : n.ids = n.children.flatMap ids ++ [n.mark.id] := by
  rw [ids, postorder_eq, List.map_append, List.map_flatMap]
  rfl

theorem ids_target (s : Symbol) : (target s).ids = [s.mark.id] := by
  rw [ids_eq]
  rfl

theorem ids_parameter (p : Parameter) : (parameter p).ids = [p.mark.id] := by
  rw [ids_eq]
  rfl

theorem ids_block (b : Block Stmt) :
    (block b).ids = (b.body.map stmt).flatMap ids ++ [b.mark.id] := by
  rw [ids_eq]
  rfl

end Node

mutual

theorem Expr.ids_node : ∀ e : Expr, (Node.expr e).ids = e.ids
  | .number .. => by rw [Node.ids_eq]; rfl
  | .real .. => by rw [Node.ids_eq]; rfl
  | .logic .. => by rw [Node.ids_eq]; rfl
  | .string .. => by rw [Node.ids_eq]; rfl
  | .material .. => by rw [Node.ids_eq]; rfl
  | .member .. => by rw [Node.ids_eq]; rfl
  | .symbol _ => by rw [Node.ids_eq]; rfl
  | .interpolation _ parts => by
    rw [Node.ids_eq, Expr.ids, ← Expr.ids_nodeParts parts]
    rfl
  | .binary _ left _ right => by
    rw [Node.ids_eq, Expr.ids, ← Expr.ids_node left, ← Expr.ids_node right]
    simp [Node.children, Node.mark, Expr.mark]
  | .unary _ _ operand => by
    rw [Node.ids_eq, Expr.ids, ← Expr.ids_node operand]
    simp [Node.children, Node.mark, Expr.mark]
  | .index _ collection place => by
    rw [Node.ids_eq, Expr.ids, ← Expr.ids_node collection, ← Expr.ids_node place]
    simp [Node.children, Node.mark, Expr.mark]
  | .call _ _ arguments => by
    rw [Node.ids_eq, Expr.ids, ← Expr.ids_nodeAll arguments]
    rfl
  | .list _ elements => by
    rw [Node.ids_eq, Expr.ids, ← Expr.ids_nodeAll elements]
    rfl
  | .map _ entries => by
    rw [Node.ids_eq, Expr.ids, ← Expr.ids_nodeEntries entries]
    rfl

theorem Expr.ids_nodeAll : ∀ es : List Expr, (es.map Node.expr).flatMap Node.ids = Expr.idsOfAll es
  | [] => rfl
  | e :: rest => by
    rw [Expr.idsOfAll, ← Expr.ids_node e, ← Expr.ids_nodeAll rest]
    rfl

theorem Expr.ids_nodeParts : ∀ parts : List (Part Expr),
    ((Part.embedded parts).map Node.expr).flatMap Node.ids = Expr.idsOfParts parts
  | [] => rfl
  | .text _ :: rest => Expr.ids_nodeParts rest
  | .embed e :: rest => by
    rw [Expr.idsOfParts, ← Expr.ids_node e, ← Expr.ids_nodeParts rest]
    rfl

theorem Expr.ids_nodeEntries : ∀ entries : List (Expr × Expr),
    (entries.flatMap fun entry => [Node.expr entry.1, Node.expr entry.2]).flatMap Node.ids =
      Expr.idsOfEntries entries
  | [] => rfl
  | (key, value) :: rest => by
    rw [Expr.idsOfEntries, ← Expr.ids_node key, ← Expr.ids_node value, ← Expr.ids_nodeEntries rest]
    simp

end

mutual

theorem Stmt.ids_node : ∀ s : Stmt, (Node.stmt s).ids = s.ids
  | .block ⟨_, body⟩ => by
    rw [Node.ids_eq, Stmt.ids, ← Stmt.ids_nodeAll body]
    rfl
  | .expression _ e => by
    rw [Node.ids_eq, Stmt.ids, ← e.ids_node]
    simp [Node.children, Node.mark, Stmt.mark]
  | .declare _ _ _ value => by
    rw [Node.ids_eq, Stmt.ids, ← value.ids_node]
    simp [Node.children, Node.mark, Stmt.mark]
  | .assign _ target _ value => by
    rw [Node.ids_eq, Stmt.ids, ← value.ids_node]
    simp [Node.children, Node.mark, Stmt.mark, Node.ids_target]
  | .branch _ condition ⟨inner, body⟩ other => by
    rw [Node.ids_eq, Stmt.ids, ← condition.ids_node, ← Stmt.ids_nodeAll body,
      ← Stmt.ids_nodeOther other]
    simp [Node.children, Node.mark, Stmt.mark, Node.ids_block]
  | .whileLoop _ condition ⟨inner, body⟩ => by
    rw [Node.ids_eq, Stmt.ids, ← condition.ids_node, ← Stmt.ids_nodeAll body]
    simp [Node.children, Node.mark, Stmt.mark, Node.ids_block]
  | .repeatLoop _ count ⟨inner, body⟩ => by
    rw [Node.ids_eq, Stmt.ids, ← count.ids_node, ← Stmt.ids_nodeAll body]
    simp [Node.children, Node.mark, Stmt.mark, Node.ids_block]
  | .function ⟨_, _, parameters, _, ⟨inner, body⟩⟩ => by
    rw [Node.ids_eq, Stmt.ids, ← Stmt.ids_nodeAll body]
    simp [Node.children, Node.mark, Stmt.mark, Node.ids_block, Node.ids_parameter, List.flatMap_map,
      ← List.map_eq_flatMap]
  | .ret _ none => by rw [Node.ids_eq]; rfl
  | .ret _ (some e) => by
    rw [Node.ids_eq, Stmt.ids, Option.map_some, Option.getD_some, ← e.ids_node]
    simp [Node.children, Node.mark, Stmt.mark]
  | .brk _ => by rw [Node.ids_eq]; rfl
  | .cont _ => by rw [Node.ids_eq]; rfl

theorem Stmt.ids_nodeOther : ∀ other : Option Stmt,
    (other.toList.map Node.stmt).flatMap Node.ids = Stmt.idsOfOther other
  | none => rfl
  | some s => by
    rw [Stmt.idsOfOther, ← Stmt.ids_node s]
    simp

theorem Stmt.ids_nodeAll : ∀ body : List Stmt,
    (body.map Node.stmt).flatMap Node.ids = Stmt.idsOfAll body
  | [] => rfl
  | s :: rest => by
    rw [Stmt.idsOfAll, ← Stmt.ids_node s, ← Stmt.ids_nodeAll rest]
    rfl

end

def Program.nodes (p : Program) : List Node := (Node.block p).postorder

theorem Program.ids_nodes (p : Program) : (p.nodes.map fun n => n.mark.id) = p.ids := by
  have listed := Node.ids_block p
  rwa [Stmt.ids_nodeAll] at listed

theorem Program.ascending_of_ofTokens {tokens : List Token} {file : String} {p : Program}
    (h : Program.ofTokens tokens file = .ok p) :
    (p.nodes.map fun n => n.mark.id).Pairwise (· < ·) := by
  unfold Program.ofTokens at h
  cases ran : Grammar.program.run (Grammar.Stream.ofTokens tokens file 0) with
  | error e =>
    rw [ran] at h
    cases h
  | ok result =>
    rw [ran] at h
    cases h
    obtain ⟨numbered, _⟩ := Grammar.numbers_program _ _ _ _ rfl ran
    rw [Program.ids_nodes]
    exact numbered.ascending

/-- In a list of nodes with ascending identities, a node has a greater one than all it holds. -/
theorem Node.id_lt_of_holds {root n inner : Node}
    (ascending : (root.postorder.map fun n => n.mark.id).Pairwise (· < ·))
    (mem : n ∈ root.postorder) (holds : n.Holds inner) : inner.mark.id < n.mark.id := by
  have part : n.postorder.Sublist root.postorder := by
    rcases mem_postorder.1 mem with held | rfl
    · exact postorder_sublist held
    · exact List.Sublist.refl _
  have own := ascending.sublist (part.map fun n => n.mark.id)
  rw [postorder_eq, List.map_append] at own
  have before := (List.pairwise_append.1 own).2.2
  exact before _ (List.mem_map_of_mem (mem_of_holds holds)) _ (by simp)

/-- Identities ascend in the order in which nodes end. No two nodes share one, a node has a greater
one than all it holds, and the whole script has the greatest. -/
theorem identities_postordered {tokens : List Token} {file : String} {p : Program}
    (read : Program.ofTokens tokens file = .ok p) :
    (p.nodes.map fun n => n.mark.id).Pairwise (· < ·) ∧
    (p.nodes.map fun n => n.mark.id).Nodup ∧
    (∀ n ∈ p.nodes, ∀ inner, n.Holds inner → inner.mark.id < n.mark.id) ∧
    ∀ n ∈ p.nodes, n.mark.id ≤ p.mark.id := by
  have ascending := Program.ascending_of_ofTokens read
  refine ⟨ascending, ascending.imp Nat.ne_of_lt, ?_, fun n mem => ?_⟩
  · intro n mem inner holds
    exact Node.id_lt_of_holds ascending mem holds
  · rcases Node.mem_postorder.1 mem with held | rfl
    · exact Nat.le_of_lt (Node.id_lt_of_holds ascending (Node.mem_postorder_self _) held)
    · exact Nat.le_refl _

theorem eq_ok_of_toOption {α : Type} {result : Except Error α} {a : α}
    (h : result.toOption = some a) : result = .ok a := by
  cases result with
  | error e => cases h
  | ok found => exact congrArg Except.ok (Option.some.inj h)

theorem exists_ok_of_toOption {α : Type} {result : Except Error α}
    (h : result.toOption.isSome = true) : ∃ a, result = .ok a := by
  obtain ⟨a, found⟩ := Option.isSome_iff_exists.1 h
  exact ⟨a, eq_ok_of_toOption found⟩

theorem Program.exists_tokens {source file : String} {p : Program}
    (h : Program.ofSource source file = .ok p) :
    ∃ tokens, Token.tokenize source file = .ok tokens ∧ Program.ofTokens tokens file = .ok p := by
  unfold Program.ofSource at h
  cases scanned : Token.tokenize source file with
  | error e =>
    rw [scanned] at h
    cases h
  | ok tokens =>
    rw [scanned] at h
    exact ⟨tokens, rfl, h⟩

/-- A script with expressions inside texts, one of them a call. -/
def embeddedSource : String :=
  "function f(n:number):string\x7bif n<1\x7breturn `<\x7bn*2\x7d \x7b[n]\x7d>`;\x7d
else\x7b^^n-=1;\x7d
return `\x7bf(n)\x7d`;\x7d"

/-- The name of the called function took the identity 17, which no node has. -/
theorem identities_postordered_embedded :
    ∃ tokens p, Token.tokenize embeddedSource "" = .ok tokens ∧ Program.ofTokens tokens "" = .ok p ∧
      p.ids = List.range 17 ++ [18, 19, 20, 21, 22, 23, 24] ∧
      (p.nodes.map fun n => n.mark.id).Pairwise (· < ·) ∧
      (∀ n ∈ p.nodes, ∀ inner, n.Holds inner → inner.mark.id < n.mark.id) ∧
      ∀ n ∈ p.nodes, n.mark.id ≤ p.mark.id := by
  have listed : (Program.ofSource embeddedSource "").toOption.map Program.ids =
      some (List.range 17 ++ [18, 19, 20, 21, 22, 23, 24]) := by decide +kernel
  obtain ⟨p, read, ids⟩ := Option.map_eq_some_iff.1 listed
  obtain ⟨tokens, scanned, parsed⟩ := Program.exists_tokens (eq_ok_of_toOption read)
  obtain ⟨ascending, _, below, greatest⟩ := identities_postordered parsed
  exact ⟨tokens, p, scanned, parsed, ids, ascending, below, greatest⟩

end CursorScript
