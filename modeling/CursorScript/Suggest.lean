/-!
Names offered in place of one that is not known: those that a few edits turn it into. An edit
inserts, deletes or replaces a character, or swaps two neighbours, and no character is edited
twice. The distances of all prefixes of two texts make up a table, which is one array: what belongs
to the first `i` characters of one text and the first `j` of the other is at `i * width + j`.
-/
namespace CursorScript.Suggest

/-- The least number of edits between two prefixes, when those between shorter ones are in the
table. -/
def best (a b : Array Char) (table : Array Nat) (i j : Nat) : Nat :=
  let width := b.size + 1
  let cost := if a[i - 1]? = b[j - 1]? then 0 else 1
  let deleted := table.getD ((i - 1) * width + j) 0 + 1
  let inserted := table.getD (i * width + j - 1) 0 + 1
  let replaced := table.getD ((i - 1) * width + j - 1) 0 + cost
  let best := min (min deleted inserted) replaced
  if 1 < i ∧ 1 < j ∧ a[i - 1]? = b[j - 2]? ∧ a[i - 2]? = b[j - 1]? then
    min best (table.getD ((i - 2) * width + j - 2) 0 + 1)
  else best

def margins (a b : Array Char) : Array Nat :=
  let width := b.size + 1
  let blank := Array.replicate ((a.size + 1) * width) 0
  let column := (List.range (a.size + 1)).foldl (fun t i => t.setIfInBounds (i * width) i) blank
  (List.range width).foldl (fun t j => t.setIfInBounds j j) column

def fillRow (a b : Array Char) (table : Array Nat) (i : Nat) : Array Nat :=
  (List.range' 1 b.size).foldl
    (fun t j => t.setIfInBounds (i * (b.size + 1) + j) (best a b t i j)) table

def table (a b : Array Char) : Array Nat :=
  (List.range' 1 a.size).foldl (fillRow a b) (margins a b)

/-- The least number of edits that turn `a` into `b`. -/
def distance (a b : String) : Nat :=
  let a := a.toList.toArray
  let b := b.toList.toArray
  if a.isEmpty then b.size
  else if b.isEmpty then a.size
  else (table a b).getD (a.size * (b.size + 1) + b.size) 0

/-- Names at this distance or further are not offered. -/
def limit : Nat := 3

/-- A list without the later occurrences of what it repeats. -/
def distinct : List String → List String
  | [] => []
  | name :: names => name :: (distinct names).filter (· != name)

theorem mem_distinct {name : String} {names : List String} :
    name ∈ distinct names ↔ name ∈ names := by
  induction names with
  | nil => simp [distinct]
  | cons first names ih =>
    by_cases same : name = first
    · simp [distinct, same]
    · simp [distinct, same, ih]

theorem nodup_distinct (names : List String) : (distinct names).Nodup := by
  induction names with
  | nil => simp [distinct]
  | cons first names ih =>
    refine List.nodup_cons.2 ⟨by simp, ?_⟩
    exact ih.sublist List.filter_sublist

/-- The candidates close to a name, each once, in the order given. -/
def similar (name : String) (candidates : List String) : List String :=
  distinct (candidates.filter fun candidate => distance name candidate < limit)

theorem mem_similar {name other : String} {candidates : List String} :
    other ∈ similar name candidates ↔ other ∈ candidates ∧ distance name other < limit := by
  simp [similar, mem_distinct]

end CursorScript.Suggest
