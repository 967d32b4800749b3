import CursorScript.Proofs.Recording
import Mathlib.Data.List.Nodup
import Mathlib.Data.List.Pairwise

/-!
Which declaration a name means. A node of a script stands in scopes, one inside the other, and of
each of them it sees the variables and parameters that are declared before it. A use skips as many
scopes as it has carets and means the nearest declaration of its name in the others.
-/
namespace CursorScript

namespace Node

def binds? : Node → Option String
  | parameter p => some p.name
  | stmt (.declare _ name _ _) => some name
  | _ => none

def use? : Node → Option Symbol
  | expr (.symbol s) => some s
  | target s => some s
  | _ => none

/-- What stands directly in the scope that a node opens, if it opens one. The parameters of a
function and the statements of its body share a scope. -/
def members? : Node → Option (List Node)
  | block b => some (b.body.map stmt)
  | stmt (.block b) => some (b.body.map stmt)
  | stmt (.function decl) => some (decl.parameters.map parameter ++ decl.body.body.map stmt)
  | _ => none

theorem isSome_binds? (n : Node) : n.binds?.isSome = n.declares := by
  cases n with
  | stmt s => cases s <;> rfl
  | _ => rfl

end Node

/-- A node that opens a scope neither uses nor declares a variable. -/
theorem Node.plain_of_members? {n : Node} {members : List Node} (h : n.members? = some members) :
    n.use? = none ∧ n.binds? = none := by
  unfold members? at h
  split at h
  · exact ⟨rfl, rfl⟩
  · exact ⟨rfl, rfl⟩
  · exact ⟨rfl, rfl⟩
  · cases h

/-- A node with the scopes around it, the innermost first, each as the declarations in it that come
before the node. -/
structure Spot where
  scopes : List (List Node)
  node : Node

/-- From a node to one directly inside it. What stands in the scope of a node sees the declarations
in front of it; a declaration is not in front of its own value. -/
inductive Spot.Enters : Spot → Spot → Prop
  | member {scopes : List (List Node)} {n m : Node} {before behind : List Node}
      (opens : n.members? = some (before ++ m :: behind)) :
      Enters ⟨scopes, n⟩ ⟨before.filter Node.declares :: scopes, m⟩
  | child {scopes : List (List Node)} {n m : Node} (plain : n.members? = none)
      (held : m ∈ n.children) : Enters ⟨scopes, n⟩ ⟨scopes, m⟩

/-- From a node to one inside it, at any depth. -/
def Spot.Has : Spot → Spot → Prop := Relation.ReflTransGen Spot.Enters

/-- The nodes of a script, each with the scopes around it. -/
def Program.Has (p : Program) (spot : Spot) : Prop := Spot.Has ⟨[], .block p⟩ spot

/-- A declaration of a name in the nearest of some scopes that has one, the innermost first. -/
def Nearest (name : String) (scopes : List (List Node)) (d : Node) : Prop :=
  ∃ nearer scope farther, scopes = nearer ++ scope :: farther ∧
    (∀ inner ∈ nearer, ∀ other ∈ inner, other.binds? ≠ some name) ∧
    d ∈ scope ∧ d.binds? = some name

/-- The declaration that a use means: the nearest one of its name once as many scopes are skipped as
the use has carets. -/
def Symbol.Means (s : Symbol) (scopes : List (List Node)) (d : Node) : Prop :=
  Nearest s.name (scopes.drop s.up) d

theorem Nearest.of_head {name : String} {scope : List Node} {d : Node} (mem : d ∈ scope)
    (binds : d.binds? = some name) (outer : List (List Node)) : Nearest name (scope :: outer) d :=
  ⟨[], scope, outer, rfl, nofun, mem, binds⟩

theorem Nearest.of_tail {name : String} {scope : List Node} {outer : List (List Node)} {d : Node}
    (absent : ∀ other ∈ scope, other.binds? ≠ some name) (h : Nearest name outer d) :
    Nearest name (scope :: outer) d := by
  obtain ⟨nearer, found, farther, rfl, none, mem, binds⟩ := h
  exact ⟨scope :: nearer, found, farther, rfl, List.forall_mem_cons.2 ⟨absent, none⟩, mem, binds⟩

theorem Nearest.exists {name : String} {scopes : List (List Node)} {d : Node}
    (h : Nearest name scopes d) : ∃ scope ∈ scopes, d ∈ scope ∧ d.binds? = some name := by
  obtain ⟨nearer, scope, farther, rfl, _, mem, binds⟩ := h
  exact ⟨scope, by simp, mem, binds⟩

theorem Nearest.cases_head {name : String} {scope : List Node} {outer : List (List Node)} {d : Node}
    (h : Nearest name (scope :: outer) d) :
    d ∈ scope ∧ d.binds? = some name ∨
      (∀ other ∈ scope, other.binds? ≠ some name) ∧ Nearest name outer d := by
  obtain ⟨nearer, found, farther, same, absent, mem, binds⟩ := h
  cases nearer with
  | nil =>
    cases same
    exact .inl ⟨mem, binds⟩
  | cons first nearer =>
    cases same
    obtain ⟨here, others⟩ := List.forall_mem_cons.1 absent
    exact .inr ⟨here, nearer, found, farther, rfl, others, mem, binds⟩

namespace Spot

/-- What stands in a scope, one after the other, where `front` is declared in it already. -/
def Along (P : Spot → Prop) (scopes : List (List Node)) : List Node → List Node → Prop
  | _, [] => True
  | front, m :: rest =>
    P ⟨front :: scopes, m⟩ ∧ Along P scopes (front ++ [m].filter Node.declares) rest

variable {P : Spot → Prop} {scopes : List (List Node)}

theorem along_append {front some more : List Node} :
    Along P scopes front (some ++ more) ↔ Along P scopes front some ∧
      Along P scopes (front ++ some.filter Node.declares) more := by
  induction some generalizing front with
  | nil => simp [Along]
  | cons m rest ih =>
    rw [List.cons_append, Along, Along, ih, and_assoc, List.append_assoc, ← List.filter_append,
      List.singleton_append]

theorem along_iff {front members : List Node} : Along P scopes front members ↔
    ∀ before m behind, members = before ++ m :: behind →
      P ⟨(front ++ before.filter Node.declares) :: scopes, m⟩ := by
  constructor
  · rintro h before m behind rfl
    exact (along_append.1 h).2.1
  · intro h
    induction members generalizing front with
    | nil => trivial
    | cons m rest ih =>
      refine ⟨by simpa using h [] m rest rfl, ih fun before n behind same => ?_⟩
      have := h (m :: before) n behind (by rw [same, List.cons_append])
      rwa [List.append_assoc, ← List.filter_append, List.singleton_append]

variable {top : Spot} {n : Node}

theorem Has.members (h : top.Has ⟨scopes, n⟩) {members : List Node}
    (opens : n.members? = some members) : Along top.Has scopes [] members := by
  refine along_iff.2 fun before m behind same => ?_
  rw [List.nil_append]
  exact h.tail (.member (same ▸ opens))

theorem Has.child (h : top.Has ⟨scopes, n⟩) (plain : n.members? = none) {m : Node}
    (held : m ∈ n.children) : top.Has ⟨scopes, m⟩ := h.tail (.child plain held)

/-- What analysis finds out about a node: a use has the symbol of a declaration that it means, and a
declaration is the first of its name in its scope. -/
structure Settled (symbols : Table Nat) (spot : Spot) : Prop where
  use : ∀ s, spot.node.use? = some s → ∃ d x, s.Means spot.scopes d ∧
    symbols.get? s.mark.id = some x ∧ symbols.get? d.mark.id = some x
  first : ∀ name, spot.node.binds? = some name → ∀ d ∈ spot.scopes.headD [], d.binds? ≠ some name

/-- Analysis has found out about a node and all inside it. -/
def Resolved (symbols : Table Nat) (spot : Spot) : Prop :=
  ∀ inner, spot.Has inner → inner.Settled symbols

variable {symbols : Table Nat}

theorem resolved_of_children (here : Settled symbols ⟨scopes, n⟩) (plain : n.members? = none)
    (inside : ∀ m ∈ n.children, Resolved symbols ⟨scopes, m⟩) : Resolved symbols ⟨scopes, n⟩ := by
  intro inner has
  rcases has.cases_head with rfl | ⟨next, enters, has⟩
  · exact here
  · cases enters with
    | member opens => rw [plain] at opens; cases opens
    | child _ held => exact inside _ held inner has

/-- Of a node that neither uses nor declares a variable there is nothing to find out. -/
theorem settled_of_plain (use : n.use? = none) (binds : n.binds? = none) :
    Settled symbols ⟨scopes, n⟩ :=
  ⟨fun s uses => by simp [use] at uses, fun name declares => by simp [binds] at declares⟩

theorem resolved_of_members {members : List Node} (opens : n.members? = some members)
    (inside : Along (Resolved symbols) scopes [] members) :
    Resolved symbols ⟨scopes, n⟩ := by
  intro inner has
  rcases has.cases_head with rfl | ⟨next, enters, has⟩
  · obtain ⟨use, binds⟩ := Node.plain_of_members? opens
    exact settled_of_plain use binds
  · cases enters with
    | member opens' =>
      cases opens.symm.trans opens'
      exact along_iff.1 inside _ _ _ rfl inner has
    | child plain _ => rw [opens] at plain; cases plain

/-- An expression that holds others and is no use itself. -/
theorem resolved_of_exprs {e : Expr} (es : List Expr) (use : (Node.expr e).use? = none)
    (held : (Node.expr e).children = es.map .expr)
    (inside : ∀ e ∈ es, Resolved symbols ⟨scopes, .expr e⟩) :
    Resolved symbols ⟨scopes, .expr e⟩ := by
  refine resolved_of_children (settled_of_plain use rfl) rfl fun m mem => ?_
  rw [held] at mem
  obtain ⟨inner, listed, rfl⟩ := List.mem_map.1 mem
  exact inside inner listed

end Spot

namespace Node
variable {root n m : Node} {members : List Node}

theorem mem_of_members? (h : n ∈ root.postorder) (opens : n.members? = some members) :
    ∀ m ∈ members, m ∈ root.postorder := by
  intro m mem
  unfold members? at opens
  split at opens
  · cases opens
    exact mem_of_child h mem
  · cases opens
    exact mem_of_child h mem
  · cases opens
    rcases List.mem_append.1 mem with bound | inside
    · exact mem_of_child h (by simp [children, bound])
    · next decl =>
      have body : block decl.body ∈ root.postorder := mem_of_child h (by simp [children])
      exact mem_of_child body inside
  · cases opens

/-- What a node with a scope holds is in what stands in the scope. The body of a function is no node
with a scope of its own. -/
theorem exists_member (opens : n.members? = some members) (inside : m ∈ n.postorder) :
    m = n ∨ (∃ member ∈ members, sizeOf member < sizeOf n ∧ m ∈ member.postorder) ∨
      ∃ decl, n = .stmt (.function decl) ∧ m = .block decl.body := by
  rw [postorder_eq, List.mem_append, List.mem_singleton, List.mem_flatMap] at inside
  rcases inside with ⟨child, held, inside⟩ | rfl
  · unfold members? at opens
    split at opens
    · cases opens
      exact .inr (.inl ⟨child, held, sizeOf_children held, inside⟩)
    · cases opens
      exact .inr (.inl ⟨child, held, sizeOf_children held, inside⟩)
    · next decl =>
      cases opens
      have smaller := sizeOf_children held
      rcases List.mem_append.1 held with bound | body
      · exact .inr (.inl ⟨child, List.mem_append_left _ bound, smaller, inside⟩)
      · cases List.mem_singleton.1 body
        rw [postorder_eq, List.mem_append, List.mem_singleton, List.mem_flatMap] at inside
        rcases inside with ⟨s, deeper, inside⟩ | rfl
        · exact .inr (.inl ⟨s, List.mem_append_right _ deeper,
            Nat.lt_trans (sizeOf_children deeper) smaller, inside⟩)
        · exact .inr (.inr ⟨decl, rfl, rfl⟩)
    · cases opens
  · exact .inl rfl

end Node

namespace Spot

/-- Every node stands in scopes, but for the bodies of functions, which are one with them. -/
theorem exists_has {root : Node} (A : List (List Node)) (n m : Node) (here : n ∈ root.postorder)
    (inside : m ∈ n.postorder) :
    (∃ scopes, Has ⟨A, n⟩ ⟨scopes, m⟩) ∨
      ∃ decl, .stmt (.function decl) ∈ root.postorder ∧ m = .block decl.body := by
  cases opens : n.members? with
  | some members =>
    rcases Node.exists_member opens inside with
      rfl | ⟨member, mem, smaller, inside⟩ | ⟨decl, rfl, rfl⟩
    · exact .inl ⟨A, .refl⟩
    · have there := Node.mem_of_members? here opens member mem
      obtain ⟨before, behind, rfl⟩ := List.append_of_mem mem
      refine (exists_has (before.filter Node.declares :: A) member m there inside).imp_left
        fun ⟨scopes, has⟩ => ?_
      exact ⟨scopes, .head (.member opens) has⟩
    · exact .inr ⟨decl, here, rfl⟩
  | none =>
    rw [Node.postorder_eq, List.mem_append, List.mem_singleton, List.mem_flatMap] at inside
    rcases inside with ⟨child, held, inside⟩ | rfl
    · have smaller := Node.sizeOf_children held
      refine (exists_has A child m (Node.mem_of_child here held) inside).imp_left
        fun ⟨scopes, has⟩ => ?_
      exact ⟨scopes, .head (.child opens held) has⟩
    · exact .inl ⟨A, .refl⟩
termination_by sizeOf n

/-- What a node sees are declarations of the script. -/
theorem Has.declarations {p : Program} {spot : Spot} (h : p.Has spot) :
    spot.node ∈ p.nodes ∧ ∀ scope ∈ spot.scopes, ∀ d ∈ scope, d ∈ p.nodes ∧ d.declares = true := by
  induction h with
  | refl => exact ⟨Node.mem_postorder_self _, nofun⟩
  | tail _ enters ih =>
    obtain ⟨here, seen⟩ := ih
    cases enters with
    | child _ held => exact ⟨Node.mem_of_child here held, seen⟩
    | member opens =>
      have members := Node.mem_of_members? here opens
      refine ⟨members _ (by simp), List.forall_mem_cons.2 ⟨fun d mem => ?_, seen⟩⟩
      obtain ⟨listed, declares⟩ := List.mem_filter.1 mem
      exact ⟨members d (List.mem_append_left _ listed), declares⟩

section distinct
variable {symbols : Table Nat} {top : Spot}

/-- No two declarations of a scope are of one name. -/
def Distinct (scope : List Node) : Prop := scope.Pairwise fun d other => d.binds? ≠ other.binds?

theorem Along.imp {P Q : Spot → Prop} {scopes : List (List Node)} (imp : ∀ spot, P spot → Q spot)
    {front members : List Node} (h : Along P scopes front members) :
    Along Q scopes front members := by
  induction members generalizing front with
  | nil => trivial
  | cons m rest ih => exact ⟨imp _ h.1, ih h.2⟩

theorem distinct_of_along {scopes : List (List Node)} {front members : List Node}
    (h : Along (Settled symbols) scopes front members) (start : Distinct front) :
    Distinct (front ++ members.filter Node.declares) := by
  induction members generalizing front with
  | nil => simpa using start
  | cons m rest ih =>
    have next : Distinct (front ++ [m].filter Node.declares) := by
      cases declares : m.declares with
      | false => simpa [declares] using start
      | true =>
        obtain ⟨name, binds⟩ := Option.isSome_iff_exists.1 ((Node.isSome_binds? m).trans declares)
        have new := h.1.first name binds
        simpa [declares, Distinct, List.pairwise_append, binds] using ⟨start, new⟩
    have := ih h.2 next
    rwa [List.append_assoc, ← List.filter_append, List.singleton_append] at this

theorem Resolved.distinct_members (resolved : Resolved symbols top) {scopes : List (List Node)}
    {n : Node} (h : top.Has ⟨scopes, n⟩) {members : List Node} (opens : n.members? = some members) :
    Distinct (members.filter Node.declares) :=
  distinct_of_along ((h.members opens).imp resolved) .nil

theorem Resolved.distinct (resolved : Resolved symbols top) {spot : Spot} (h : top.Has spot)
    (start : ∀ scope ∈ top.scopes, Distinct scope) : ∀ scope ∈ spot.scopes, Distinct scope := by
  induction h with
  | refl => exact start
  | tail has enters ih =>
    cases enters with
    | child _ _ => exact ih
    | member opens =>
      refine List.forall_mem_cons.2 ⟨?_, ih⟩
      have whole := resolved.distinct_members has opens
      rw [List.filter_append] at whole
      exact (List.pairwise_append.1 whole).1

end distinct

end Spot

/-- Where no scope has two declarations of one name, a name means one declaration. -/
theorem Nearest.unique {name : String} {scopes : List (List Node)} {d other : Node}
    (distinct : ∀ scope ∈ scopes, Spot.Distinct scope) (h : Nearest name scopes d)
    (h' : Nearest name scopes other) : other = d := by
  induction scopes with
  | nil =>
    obtain ⟨_, mem, _⟩ := h.exists
    cases mem
  | cons scope outer ih =>
    obtain ⟨here, others⟩ := List.forall_mem_cons.1 distinct
    rcases h.cases_head with ⟨mem, binds⟩ | ⟨absent, h⟩ <;>
      rcases h'.cases_head with ⟨mem', binds'⟩ | ⟨absent', h'⟩
    · by_contra apart
      have : Std.Symm fun d other : Node => d.binds? ≠ other.binds? := ⟨fun _ _ => Ne.symm⟩
      exact here.forall mem' mem apart (binds'.trans binds.symm)
    · exact absurd binds (absent' d mem)
    · exact absurd binds' (absent other mem')
    · exact ih others h h'

theorem Spot.Distinct.nodup {members : List Node} (h : Distinct (members.filter Node.declares)) :
    (members.filterMap Node.binds?).Nodup := by
  have same : members.filterMap Node.binds? =
      (members.filter Node.declares).filterMap Node.binds? := by
    rw [List.filterMap_filter]
    refine List.filterMap_congr fun n _ => ?_
    rw [← Node.isSome_binds?]
    cases n.binds? <;> rfl
  rw [same]
  refine h.filterMap _ fun d other differ name binds name' binds' => ?_
  rintro rfl
  exact differ (binds.trans binds'.symm)

end CursorScript
