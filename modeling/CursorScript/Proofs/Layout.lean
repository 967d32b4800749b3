import CursorScript.Machine.Step
import CursorScript.Proofs.Identities
import CursorScript.Proofs.LibraryTyping

/-!
Where things stand in a script, and what it means for a script to fit its tables. A point tells what
holds at a place: the functions around it, the symbols that can be seen there, what a `return` has
to give and whether there is a loop to leave. Expressions yield types at points, statements are
checked at them, and each function has a site, the point where it is declared.
-/
namespace CursorScript

/-- A variable or a parameter: the node that declares it, its type, and the function in whose body
it stands, which for variables of the script itself is none. -/
structure Declaration where
  node : Nat
  type : Ty
  owner : Option Nat

def Parameter.declaration (function : Nat) (p : Parameter) : Declaration :=
  ⟨p.mark.id, p.type, some function⟩

mutual

def Stmt.declarations (owner : Option Nat) : Stmt → List Declaration
  | .block ⟨_, body⟩ => declarationsOfAll owner body
  | .declare mark _ type _ => [⟨mark.id, type, owner⟩]
  | .branch _ _ ⟨_, body⟩ other => declarationsOfAll owner body ++ declarationsOfOther owner other
  | .whileLoop _ _ ⟨_, body⟩ => declarationsOfAll owner body
  | .repeatLoop _ _ ⟨_, body⟩ => declarationsOfAll owner body
  | .function ⟨mark, _, parameters, _, ⟨_, body⟩⟩ =>
    parameters.map (Parameter.declaration mark.id) ++ declarationsOfAll (some mark.id) body
  | .expression .. => []
  | .assign .. => []
  | .ret .. => []
  | .brk _ => []
  | .cont _ => []

def Stmt.declarationsOfOther (owner : Option Nat) : Option Stmt → List Declaration
  | none => []
  | some s => s.declarations owner

def Stmt.declarationsOfAll (owner : Option Nat) : List Stmt → List Declaration
  | [] => []
  | s :: rest => s.declarations owner ++ declarationsOfAll owner rest

end

def Program.declarations (p : Program) : List Declaration := Stmt.declarationsOfAll none p.body

structure Point where
  /-- The functions around it, the innermost first. -/
  chain : List Nat
  /-- The symbols that can be seen. -/
  visible : List Nat
  /-- The return type of the innermost function, if there is one around. -/
  result : Option (Option Ty)
  /-- What can be seen where the innermost loop stands, if there is one in that function. -/
  around : Option (List Nat)

namespace Point

/-- Before the first statement of a script. -/
def top : Point := ⟨[], [], none, none⟩

def function (P : Point) : Option Nat := P.chain.head?

def loop (P : Point) : Point := { P with around := some P.visible }

def see (P : Point) (symbols : List Nat) : Point := { P with visible := symbols ++ P.visible }

def after (tables : Tables) (P : Point) : Stmt → Point
  | .declare mark .. => P.see (tables.symbols.get? mark.id).toList
  | _ => P

def inside (tables : Tables) (P : Point) (decl : FunctionDecl Stmt) : Point :=
  { chain := decl.mark.id :: P.chain
    visible := decl.parameters.filterMap (fun p => tables.symbols.get? p.mark.id) ++ P.visible
    result := some decl.returns
    around := none }

@[simp] theorem chain_after (tables : Tables) (P : Point) (s : Stmt) :
    (P.after tables s).chain = P.chain := by
  cases s <;> rfl

@[simp] theorem function_after (tables : Tables) (P : Point) (s : Stmt) :
    (P.after tables s).function = P.function := by
  rw [function, chain_after, function]

@[simp] theorem result_after (tables : Tables) (P : Point) (s : Stmt) :
    (P.after tables s).result = P.result := by
  cases s <;> rfl

@[simp] theorem around_after (tables : Tables) (P : Point) (s : Stmt) :
    (P.after tables s).around = P.around := by
  cases s <;> rfl

theorem visible_after (tables : Tables) (P : Point) (s : Stmt) :
    P.visible ⊆ (P.after tables s).visible := by
  cases s <;> simp [after, see]

theorem after_of_followsElse {s : Stmt} (h : s.followsElse = true) (tables : Tables) (P : Point) :
    P.after tables s = P := by
  cases s <;> first | rfl | cases h

end Point

structure Site where
  decl : FunctionDecl Stmt
  point : Point

mutual

/-- The functions that a statement declares, those inside others first. -/
def Stmt.sites (tables : Tables) (P : Point) : Stmt → List Site
  | .block ⟨_, body⟩ => sitesOfAll tables P body
  | .branch _ _ ⟨_, body⟩ other => sitesOfAll tables P body ++ sitesOfOther tables P other
  | .whileLoop _ _ ⟨_, body⟩ => sitesOfAll tables P.loop body
  | .repeatLoop _ _ ⟨_, body⟩ => sitesOfAll tables P.loop body
  | .function ⟨mark, name, parameters, returns, ⟨inner, body⟩⟩ =>
    let decl : FunctionDecl Stmt := ⟨mark, name, parameters, returns, ⟨inner, body⟩⟩
    sitesOfAll tables (P.inside tables decl) body ++ [⟨decl, P⟩]
  | .expression .. => []
  | .declare .. => []
  | .assign .. => []
  | .ret .. => []
  | .brk _ => []
  | .cont _ => []

def Stmt.sitesOfOther (tables : Tables) (P : Point) : Option Stmt → List Site
  | none => []
  | some s => s.sites tables P

def Stmt.sitesOfAll (tables : Tables) (P : Point) : List Stmt → List Site
  | [] => []
  | s :: rest => s.sites tables P ++ sitesOfAll tables (P.after tables s) rest

end

def Program.sites (p : Program) (tables : Tables) : List Site := Stmt.sitesOfAll tables .top p.body

def Site.id (site : Site) : Nat := site.decl.mark.id

mutual

theorem Stmt.sublist_ids (tables : Tables) :
    ∀ (s : Stmt) (P : Point), ((s.sites tables P).map Site.id).Sublist s.ids
  | .block ⟨_, body⟩, P => (sublist_idsOfAll tables body P).trans (List.sublist_append_left _ _)
  | .branch _ condition ⟨inner, body⟩ other, P => by
    rw [Stmt.sites, Stmt.ids, List.map_append, List.append_assoc, List.append_assoc, ← List.nil_append
      ((sitesOfAll tables P body).map Site.id ++ _)]
    refine List.Sublist.append (List.nil_sublist _) (List.Sublist.append ?_ ?_)
    · exact (sublist_idsOfAll tables body P).trans (List.sublist_append_left _ _)
    · exact (sublist_idsOfOther tables other P).trans (List.sublist_append_left _ _)
  | .whileLoop _ condition ⟨inner, body⟩, P =>
    (sublist_idsOfAll tables body P.loop).trans
      ((List.infix_append' condition.ids _ [inner.id]).sublist.trans (List.sublist_append_left _ _))
  | .repeatLoop _ count ⟨inner, body⟩, P =>
    (sublist_idsOfAll tables body P.loop).trans
      ((List.infix_append' count.ids _ [inner.id]).sublist.trans (List.sublist_append_left _ _))
  | .function ⟨mark, _, ps, _, ⟨inner, body⟩⟩, P => by
    rw [Stmt.sites, Stmt.ids, List.map_append]
    refine List.Sublist.append ?_ (List.Sublist.refl _)
    exact (sublist_idsOfAll tables body _).trans (List.infix_append' _ _ [inner.id]).sublist
  | .expression .., _ => List.nil_sublist _
  | .declare .., _ => List.nil_sublist _
  | .assign .., _ => List.nil_sublist _
  | .ret .., _ => List.nil_sublist _
  | .brk _, _ => List.nil_sublist _
  | .cont _, _ => List.nil_sublist _

theorem Stmt.sublist_idsOfOther (tables : Tables) :
    ∀ (other : Option Stmt) (P : Point),
      ((sitesOfOther tables P other).map Site.id).Sublist (idsOfOther other)
  | none, _ => List.nil_sublist _
  | some s, P => sublist_ids tables s P

/-- Functions end in the order in which their sites are listed. -/
theorem Stmt.sublist_idsOfAll (tables : Tables) :
    ∀ (body : List Stmt) (P : Point),
      ((sitesOfAll tables P body).map Site.id).Sublist (idsOfAll body)
  | [], _ => List.nil_sublist _
  | s :: rest, P => by
    rw [sitesOfAll, idsOfAll, List.map_append]
    exact (sublist_ids tables s P).append (sublist_idsOfAll tables rest (P.after tables s))

end

mutual

def Stmt.returns : Stmt → Bool
  | .ret .. => true
  | .block ⟨_, body⟩ => anyReturns body
  | .branch _ _ ⟨_, body⟩ other => anyReturns body && otherReturns other
  | .expression .. => false
  | .declare .. => false
  | .assign .. => false
  | .whileLoop .. => false
  | .repeatLoop .. => false
  | .function _ => false
  | .brk _ => false
  | .cont _ => false

def Stmt.otherReturns : Option Stmt → Bool
  | none => false
  | some s => s.returns

def Stmt.anyReturns : List Stmt → Bool
  | [] => false
  | s :: rest => s.returns || anyReturns rest

end

structure Layout where
  tables : Tables
  /-- The declaration of each symbol. -/
  declarations : List Declaration
  sites : List Site
  library : Library
  refuses : Refusal

def Program.layout (p : Program) (library : Library) (refuses : Refusal) (tables : Tables) :
    Layout :=
  ⟨tables, p.declarations, p.sites tables, library, refuses⟩

namespace Layout

/-- The functions of the host keep to their types. Nothing about values is said where they do not. -/
def Trusted (L : Layout) : Prop := L.library.Sound L.refuses

/-- A function can be called at a place with arguments of some types. One of the script has a site
all of whose functions are around the place and all of whose symbols can be seen there. -/
def Callable (L : Layout) (P : Point) (f : Function) (types : List Ty) : Prop :=
  match f.body with
  | .native _ => L.Trusted → f.parameterTypes = types ∧ f.Sound L.refuses
  | .script decl => f.parameterTypes = types ∧ f = .ofDecl decl ∧ ∃ site ∈ L.sites,
      site.decl = decl ∧ site.point.visible ⊆ P.visible ∧ site.point.chain <:+ P.chain

mutual

/-- An expression leaves a value of a type, or none at all. -/
inductive Yields (L : Layout) (P : Point) : Expr → Option Ty → Prop
  | number (mark : Mark) (n : Nat) : Yields L P (.number mark n) (some .number)
  | real (mark : Mark) (x : Float) : Yields L P (.real mark x) (some .real)
  | logic (mark : Mark) (b : Bool) : Yields L P (.logic mark b) (some .logic)
  | string (mark : Mark) (s : String) : Yields L P (.string mark s) (some .string)
  | material (mark : Mark) (space : Option String) (name : String) :
      Yields L P (.material mark space name) (some .material)
  | member (mark : Mark) (name : String) :
      Yields L P (.member mark name) (some (.literal (.singleton name)))
  | interpolation {mark : Mark} {parts : List (Part Expr)} {types : List Ty}
      (embedded : YieldAll L P (Part.embedded parts) types) :
      Yields L P (.interpolation mark parts) (some .string)
  | symbol {s : Symbol} {x : Nat} {d : Declaration}
      (recorded : L.tables.symbols.get? s.mark.id = some x) (seen : x ∈ P.visible)
      (declared : L.declarations[x]? = some d) : Yields L P (.symbol s) (some d.type)
  | binary {mark : Mark} {left right : Expr} {token : Token} {T U R : Ty} {op : Operator}
      (first : Yields L P left (some T)) (second : Yields L P right (some U))
      (chosen : L.tables.operators.get? mark.id = some op) (joins : op.Joins T U R) :
      Yields L P (.binary mark left token right) (some R)
  | unary {mark : Mark} {operand : Expr} {token : Token} {T R : Ty} {op : Operator}
      (inner : Yields L P operand (some T))
      (chosen : L.tables.operators.get? mark.id = some op) (turns : op.Turns T R) :
      Yields L P (.unary mark token operand) (some R)
  | index {mark : Mark} {collection place : Expr} {T U R : Ty} {op : Operator}
      (first : Yields L P collection (some T)) (second : Yields L P place (some U))
      (chosen : L.tables.operators.get? mark.id = some op) (joins : op.Joins T U R) :
      Yields L P (.index mark collection place) (some R)
  | call {mark : Mark} {callee : String} {arguments : List Expr} {f : Function} {types : List Ty}
      (recorded : L.tables.functions.get? mark.id = some f) (callable : L.Callable P f types)
      (given : YieldAll L P arguments types) :
      Yields L P (.call mark callee arguments) f.returns
  | list {mark : Mark} {elements : List Expr} {element : Ty}
      (all : YieldAll L P elements (elements.map fun _ => element)) :
      Yields L P (.list mark elements) (some (.list element))
  | emptyList (mark : Mark) : Yields L P (.list mark []) (some .emptyList)
  | map {mark : Mark} {entries : List (Expr × Expr)} {key value : Ty}
      (all : YieldAll L P (Machine.entryOperands entries)
        (entries.flatMap fun _ => [key, value])) :
      Yields L P (.map mark entries) (some (.map key value))
  | emptyMap (mark : Mark) : Yields L P (.map mark []) (some .emptyMap)

/-- Each expression leaves a value that the type at its place accepts. -/
inductive YieldAll (L : Layout) (P : Point) : List Expr → List Ty → Prop
  | nil : YieldAll L P [] []
  | cons {e : Expr} {rest : List Expr} {T U : Ty} {types : List Ty}
      (first : Yields L P e (some T)) (accepts : U.acceptsBinding T = true)
      (others : YieldAll L P rest types) : YieldAll L P (e :: rest) (U :: types)

end

mutual

/-- A statement keeps to the types of what it names. The body of a function is left to its site. -/
inductive Fits (L : Layout) : Point → Stmt → Prop
  | block {P : Point} {b : Block Stmt} (body : FitAll L P b.body) : Fits L P (.block b)
  | expression {P : Point} {mark : Mark} {e : Expr} {slot : Option Ty} (inner : L.Yields P e slot) :
      Fits L P (.expression mark e)
  | declare {P : Point} {mark : Mark} {name : String} {type T : Ty} {value : Expr} {x : Nat}
      (recorded : L.tables.symbols.get? mark.id = some x)
      (declared : L.declarations[x]? = some ⟨mark.id, type, P.function⟩)
      (inner : L.Yields P value (some T)) (accepts : type.acceptsBinding T = true) :
      Fits L P (.declare mark name type value)
  | assign {P : Point} {mark : Mark} {target : Symbol} {token : Token} {value : Expr} {x : Nat}
      {d : Declaration} {T : Ty} (plain : token.kind = .assignment)
      (recorded : L.tables.symbols.get? target.mark.id = some x) (seen : x ∈ P.visible)
      (declared : L.declarations[x]? = some d) (inner : L.Yields P value (some T))
      (accepts : d.type.acceptsBinding T = true) : Fits L P (.assign mark target token value)
  | compute {P : Point} {mark : Mark} {target : Symbol} {token : Token} {value : Expr} {x : Nat}
      {d : Declaration} {T : Ty} {op : Operator} (compound : token.kind ≠ .assignment)
      (recorded : L.tables.symbols.get? target.mark.id = some x) (seen : x ∈ P.visible)
      (declared : L.declarations[x]? = some d) (inner : L.Yields P value (some T))
      (chosen : L.tables.operators.get? mark.id = some op) (joins : op.Joins d.type T d.type) :
      Fits L P (.assign mark target token value)
  | branch {P : Point} {mark : Mark} {condition : Expr} {b : Block Stmt} {other : Option Stmt}
      (test : L.Yields P condition (some .logic)) (body : FitAll L P b.body)
      (otherwise : FitOther L P other) : Fits L P (.branch mark condition b other)
  | whileLoop {P : Point} {mark : Mark} {condition : Expr} {b : Block Stmt}
      (test : L.Yields P condition (some .logic)) (body : FitAll L P.loop b.body) :
      Fits L P (.whileLoop mark condition b)
  | repeatLoop {P : Point} {mark : Mark} {count : Expr} {b : Block Stmt}
      (rounds : L.Yields P count (some .number)) (body : FitAll L P.loop b.body) :
      Fits L P (.repeatLoop mark count b)
  | function (P : Point) (decl : FunctionDecl Stmt) : Fits L P (.function decl)
  | ret {P : Point} {mark : Mark} {value : Expr} {R T : Ty} (asked : P.result = some (some R))
      (inner : L.Yields P value (some T)) (accepts : R.acceptsBinding T = true) :
      Fits L P (.ret mark (some value))
  | bareRet {P : Point} {mark : Mark} (asked : P.result = some none) : Fits L P (.ret mark none)
  | brk {P : Point} {mark : Mark} {seen : List Nat} (inside : P.around = some seen)
      (kept : seen ⊆ P.visible) : Fits L P (.brk mark)
  | cont {P : Point} {mark : Mark} {seen : List Nat} (inside : P.around = some seen)
      (kept : seen ⊆ P.visible) : Fits L P (.cont mark)

/-- What stands behind `else` opens scopes of its own. -/
inductive FitOther (L : Layout) : Point → Option Stmt → Prop
  | none (P : Point) : FitOther L P none
  | some {P : Point} {s : Stmt} (follows : s.followsElse = true) (fits : Fits L P s) :
      FitOther L P (some s)

/-- Statements one after the other; each sees what those before it declared. -/
inductive FitAll (L : Layout) : Point → List Stmt → Prop
  | nil (P : Point) : FitAll L P []
  | cons {P : Point} {s : Stmt} {rest : List Stmt} (first : Fits L P s)
      (others : FitAll L (P.after L.tables s) rest) : FitAll L P (s :: rest)

end

/-- A symbol that can be seen belongs to one of the functions around, or to the script itself. -/
def Owned (L : Layout) (P : Point) : Prop :=
  ∀ x ∈ P.visible, ∃ d, L.declarations[x]? = some d ∧ ∀ f, d.owner = some f → f ∈ P.chain

structure Sound (L : Layout) (site : Site) : Prop where
  body : L.FitAll (site.point.inside L.tables site.decl) site.decl.body.body
  ends : site.decl.returns.isSome = true → Stmt.anyReturns site.decl.body.body = true
  parameters : ∀ p ∈ site.decl.parameters, ∃ x, L.tables.symbols.get? p.mark.id = some x ∧
    L.declarations[x]? = some (p.declaration site.decl.mark.id)
  distinct : (site.decl.mark.id :: site.point.chain).Nodup
  owned : L.Owned site.point

end Layout

structure Program.Sound (p : Program) (library : Library) (refuses : Refusal) (tables : Tables) :
    Prop where
  body : (p.layout library refuses tables).FitAll .top p.body
  functions : ∀ site ∈ p.sites tables, (p.layout library refuses tables).Sound site
  distinct : ((p.sites tables).map Site.id).Nodup
  /-- The nodes of declarations have the symbols 0, 1, 2 and so on. -/
  symbols : ∀ x d, p.declarations[x]? = some d → tables.symbols.get? d.node = some x

end CursorScript
