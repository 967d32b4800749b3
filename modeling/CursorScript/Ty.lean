/-!
Types of the language. Literal types list their members; a member set is kept sorted, so two
literal types are equal exactly when they have the same members. The empty collections have types
of their own until a declaration fixes what they hold.
-/
namespace CursorScript

structure NameSet where
  names : List String
  ascending : names.Pairwise (· < ·)
deriving DecidableEq

namespace NameSet

def empty : NameSet := ⟨[], List.Pairwise.nil⟩

def insertName (name : String) : List String → List String
  | [] => [name]
  | first :: rest =>
    if name < first then name :: first :: rest
    else if name = first then first :: rest
    else first :: insertName name rest

theorem mem_insertName {name other : String} {names : List String} :
    other ∈ insertName name names ↔ other = name ∨ other ∈ names := by
  induction names with
  | nil => simp [insertName]
  | cons first rest ih =>
    unfold insertName
    split
    · simp
    · split
      · next h => subst h; simp
      · simp only [List.mem_cons, ih]
        constructor
        · rintro (h | h | h) <;> simp [h]
        · rintro (h | h | h) <;> simp [h]

theorem insertName_ascending (name : String) {names : List String}
    (h : names.Pairwise (· < ·)) : (insertName name names).Pairwise (· < ·) := by
  induction names with
  | nil => simp [insertName]
  | cons first rest ih =>
    obtain ⟨below, tail⟩ := List.pairwise_cons.1 h
    unfold insertName
    split
    · next lt =>
      refine List.pairwise_cons.2 ⟨fun other mem => ?_, h⟩
      rcases List.mem_cons.1 mem with rfl | mem
      · exact lt
      · exact String.lt_trans lt (below other mem)
    · next not_lt =>
      split
      · exact h
      · next ne =>
        refine List.pairwise_cons.2 ⟨fun other mem => ?_, ih tail⟩
        rcases mem_insertName.1 mem with rfl | mem
        · exact Decidable.byContradiction fun not_above =>
            ne (String.le_antisymm not_above not_lt)
        · exact below other mem

def insert (set : NameSet) (name : String) : NameSet :=
  ⟨insertName name set.names, insertName_ascending name set.ascending⟩

def ofList (names : List String) : NameSet := names.foldl insert empty

def singleton (name : String) : NameSet := empty.insert name

def union (a b : NameSet) : NameSet := b.names.foldl insert a

def subset (a b : NameSet) : Bool := a.names.all (b.names.contains ·)

theorem mem_insert {set : NameSet} {name other : String} :
    other ∈ (set.insert name).names ↔ other = name ∨ other ∈ set.names := mem_insertName

theorem subset_iff {a b : NameSet} : a.subset b = true ↔ ∀ name ∈ a.names, name ∈ b.names := by
  simp [subset]

instance : Repr NameSet := ⟨fun set _ => repr set.names⟩

end NameSet

inductive Primitive where
  | number
  | real
  | logic
  | string
  | material
deriving DecidableEq, Repr

def Primitive.name : Primitive → String
  | .number => "number"
  | .real => "real"
  | .logic => "logic"
  | .string => "string"
  | .material => "material"

def Primitive.all : List Primitive := [.number, .real, .logic, .string, .material]

def Primitive.ofName? (name : String) : Option Primitive :=
  Primitive.all.find? (fun p => p.name == name)

inductive Ty where
  | simple (kind : Primitive)
  | list (element : Ty)
  | map (key value : Ty)
  /-- One of the listed members. -/
  | literal (members : NameSet)
  /-- The type of a list without elements that nothing has fixed yet. -/
  | emptyList
  /-- The type of a map without entries that nothing has fixed yet. -/
  | emptyMap
deriving DecidableEq, Repr

namespace Ty

def number : Ty := .simple .number
def real : Ty := .simple .real
def logic : Ty := .simple .logic
def string : Ty := .simple .string
def material : Ty := .simple .material

inductive Class where
  | simple
  | list
  | map
  | literal
  | pseudo
deriving DecidableEq, Repr

def classify : Ty → Class
  | simple _ => .simple
  | list _ => .list
  | map .. => .map
  | literal _ => .literal
  | emptyList => .pseudo
  | emptyMap => .pseudo

def isPseudo : Ty → Bool
  | emptyList => true
  | emptyMap => true
  | _ => false

/-- Whether values of the type can be embedded in a text. -/
def isPlain : Ty → Bool
  | simple _ => true
  | literal _ => true
  | _ => false

def element? : Ty → Option Ty
  | list element => some element
  | _ => none

def key? : Ty → Option Ty
  | map key _ => some key
  | _ => none

def value? : Ty → Option Ty
  | map _ value => some value
  | _ => none

def members? : Ty → Option NameSet
  | literal members => some members
  | _ => none

/-- Whether a value of type `actual` may stand where `expected` is asked for: the types are equal,
or both are literal types and all members of `actual` are members of `expected`. -/
def accepts (expected actual : Ty) : Bool :=
  match expected, actual with
  | literal allowed, literal given => given.subset allowed
  | _, _ => expected == actual

/-- Whether a value of type `actual` may be bound to a place of type `expected`; an empty
collection takes its type from the place. -/
def acceptsBinding (expected actual : Ty) : Bool :=
  match expected, actual with
  | list _, emptyList => true
  | map .., emptyMap => true
  | _, _ => expected.accepts actual

def describe : Ty → String
  | simple kind => kind.name
  | list element => "[" ++ element.describe ++ "]"
  | map key value => "|" ++ key.describe ++ " -> " ++ value.describe ++ "|"
  | literal members => "<" ++ ", ".intercalate members.names ++ ">"
  | emptyList => "[]"
  | emptyMap => "\x7b\x7d"

def describeAll (types : List Ty) : String := ", ".intercalate (types.map describe)

@[simp] theorem accepts_self (t : Ty) : t.accepts t = true := by
  unfold accepts
  split
  · next h => cases h; simp [NameSet.subset]
  · simp

theorem acceptsBinding_of_accepts {expected actual : Ty} (h : expected.accepts actual = true) :
    expected.acceptsBinding actual = true := by
  unfold acceptsBinding
  split
  · rfl
  · rfl
  · exact h

end Ty

end CursorScript
