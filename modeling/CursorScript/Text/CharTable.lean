/-!
Tables of code points: ascending, disjoint, closed intervals.
-/
namespace CursorScript.Text

/-- Closed intervals of code points in ascending order. -/
abbrev CharTable := List (Nat × Nat)

/-- Whether the code point `n` lies in an interval of the table; the search stops at the first
interval that ends at or after `n`. -/
def CharTable.covers (table : CharTable) (n : Nat) : Bool :=
  match table with
  | [] => false
  | (lo, hi) :: rest => if n ≤ hi then lo ≤ n else CharTable.covers rest n

def CharTable.has (table : CharTable) (c : Char) : Bool := table.covers c.toNat

end CursorScript.Text
