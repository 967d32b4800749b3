import Std.Data.TreeMap
import Std.Data.TreeSet
import CursorScript.Error
import CursorScript.Function
import CursorScript.Operator

/-!
What analysis finds out about nodes, and all that evaluation needs to know about them: the symbol
of each variable, the function of each call and the operator of each operation. A node is recorded
at most once in each table.
-/
namespace CursorScript

structure Table (α : Type) where
  entries : Std.TreeMap Nat α

namespace Table
variable {α : Type}

def empty : Table α := ⟨∅⟩

def get? (table : Table α) (id : Nat) : Option α := table.entries[id]?

/-- Records something for a node, unless there is a record of it. -/
def record? (table : Table α) (id : Nat) (entry : α) : Option (Table α) :=
  if (table.get? id).isSome then none else some ⟨table.entries.insert id entry⟩

def size (table : Table α) : Nat := table.entries.size

/-- The entries in ascending order of their nodes. -/
def sorted (table : Table α) : List (Nat × α) := table.entries.toList

@[simp] theorem get?_empty (id : Nat) : (empty : Table α).get? id = none := by
  simp [empty, get?]

theorem get?_record {table next : Table α} {id : Nat} {entry : α}
    (h : table.record? id entry = some next) (other : Nat) :
    next.get? other = if other = id then some entry else table.get? other := by
  unfold record? at h
  split at h
  · simp at h
  · simp only [Option.some.injEq] at h
    subst h
    simp only [get?, Std.TreeMap.getElem?_insert, Std.compare_eq_iff_eq, @eq_comm Nat id other]

end Table

structure Tables where
  symbols : Table Nat
  functions : Table Function
  operators : Table Operator

def Tables.empty : Tables := ⟨.empty, .empty, .empty⟩

def Tables.allSymbols (tables : Tables) : List Nat :=
  (Std.TreeSet.ofList (tables.symbols.sorted.map Prod.snd)).toList

def describeNode (id : Nat) : String := "#" ++ toString id

def describeSymbol (symbol : Nat) : String := "$" ++ toString symbol

end CursorScript
