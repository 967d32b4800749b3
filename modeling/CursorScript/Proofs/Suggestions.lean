import CursorScript.Proofs.AnalysisSoundness
import Mathlib.Algebra.Ring.Nat
import Mathlib.Data.List.Infix
import Mathlib.Order.Bounds.Basic
import Mathlib.Order.MinMax

/-!
Which names are offered in place of one that is not known. The distance of two texts is the least
cost of an alignment of them, in which each character of either text has one place, so that none is
edited twice. A name is offered if it can be seen and is close enough, once, and behind those of
nearer scopes and those that come before it in the alphabet.
-/
namespace CursorScript

namespace Suggest

/-- A place in an alignment of two texts: a character of each of them, a character of one of them,
or two neighbours that each text has in its own order. -/
inductive Edit where
  | keep (c : Char)
  | replace (c d : Char)
  | delete (c : Char)
  | insert (c : Char)
  | swap (c d : Char)

namespace Edit

def source : Edit → List Char
  | keep c => [c]
  | replace c _ => [c]
  | delete c => [c]
  | insert _ => []
  | swap c d => [c, d]

def target : Edit → List Char
  | keep c => [c]
  | replace _ d => [d]
  | delete _ => []
  | insert c => [c]
  | swap c d => [d, c]

def cost : Edit → Nat
  | keep _ => 0
  | _ => 1

def flip : Edit → Edit
  | keep c => keep c
  | replace c d => replace d c
  | delete c => insert c
  | insert c => delete c
  | swap c d => swap d c

@[simp] theorem source_flip (edit : Edit) : edit.flip.source = edit.target := by cases edit <;> rfl

@[simp] theorem target_flip (edit : Edit) : edit.flip.target = edit.source := by cases edit <;> rfl

@[simp] theorem cost_flip (edit : Edit) : edit.flip.cost = edit.cost := by cases edit <;> rfl

theorem length_target_le (edit : Edit) :
    edit.target.length ≤ edit.source.length + edit.cost := by
  cases edit <;> simp [source, target, cost]

end Edit

/-- The places of an alignment make up the two texts, in order. -/
structure Aligns (edits : List Edit) (a b : List Char) : Prop where
  source : edits.flatMap Edit.source = a
  target : edits.flatMap Edit.target = b

def cost (edits : List Edit) : Nat := (edits.map Edit.cost).sum

def costs (a b : List Char) : Set Nat := {n | ∃ edits, Aligns edits a b ∧ cost edits = n}

variable {a b : List Char} {n m : Nat}

theorem zero_mem_costs (a : List Char) : 0 ∈ costs a a := by
  refine ⟨a.map .keep, ⟨?_, ?_⟩, ?_⟩
  · simp [List.flatMap_map, Edit.source]
  · simp [List.flatMap_map, Edit.target]
  · simp [cost, Edit.cost, Function.comp_def]

theorem concat_mem_costs (edit : Edit) (h : n ∈ costs a b) :
    n + edit.cost ∈ costs (a ++ edit.source) (b ++ edit.target) := by
  obtain ⟨edits, ⟨rfl, rfl⟩, rfl⟩ := h
  exact ⟨edits ++ [edit], ⟨by simp, by simp⟩, by simp [cost]⟩

/-- An alignment is empty, or it has a last place. -/
theorem exists_last (h : n ∈ costs a b) : (a = [] ∧ b = [] ∧ n = 0) ∨
    ∃ (edit : Edit) (a' b' : List Char) (m : Nat), a = a' ++ edit.source ∧ b = b' ++ edit.target ∧
      m ∈ costs a' b' ∧ n = m + edit.cost := by
  obtain ⟨edits, ⟨rfl, rfl⟩, rfl⟩ := h
  rcases List.eq_nil_or_concat edits with rfl | ⟨edits, edit, rfl⟩
  · exact .inl ⟨rfl, rfl, rfl⟩
  · exact .inr ⟨edit, _, _, cost edits, by simp, by simp, ⟨edits, ⟨rfl, rfl⟩, rfl⟩,
      by simp [cost]⟩

theorem costs_symm (h : n ∈ costs a b) : n ∈ costs b a := by
  obtain ⟨edits, ⟨rfl, rfl⟩, rfl⟩ := h
  refine ⟨edits.map Edit.flip, ⟨?_, ?_⟩, ?_⟩
  · simp [List.flatMap_map]
  · simp [List.flatMap_map]
  · simp [cost, Function.comp_def]

theorem costs_comm (a b : List Char) : costs a b = costs b a :=
  Set.ext fun _ => ⟨costs_symm, costs_symm⟩

/-- An alignment without edits keeps every character. -/
theorem eq_of_zero_mem_costs (h : 0 ∈ costs a b) : a = b := by
  obtain ⟨edits, ⟨rfl, rfl⟩, free⟩ := h
  induction edits with
  | nil => rfl
  | cons edit edits ih =>
    obtain ⟨first, others⟩ : edit.cost = 0 ∧ cost edits = 0 := by simpa [cost] using free
    have kept : edit.source = edit.target := by
      cases edit <;> first | rfl | cases first
    rw [List.flatMap_cons, List.flatMap_cons, kept, ih others]

theorem length_le_of_mem_costs (h : n ∈ costs a b) : b.length ≤ a.length + n := by
  obtain ⟨edits, ⟨rfl, rfl⟩, rfl⟩ := h
  induction edits with
  | nil => simp
  | cons edit edits ih =>
    have first := edit.length_target_le
    simp only [List.flatMap_cons, List.length_append, cost, List.map_cons, List.sum_cons] at ih ⊢
    omega

theorem isLeast_nil_left (b : List Char) : IsLeast (costs [] b) b.length := by
  refine ⟨⟨b.map .insert, ⟨?_, ?_⟩, ?_⟩, fun n h => ?_⟩
  · simp [List.flatMap_map, Edit.source]
  · simp [List.flatMap_map, Edit.target]
  · simp [cost, Edit.cost, Function.comp_def]
  · simpa using length_le_of_mem_costs h

theorem isLeast_nil_right (a : List Char) : IsLeast (costs a []) a.length :=
  costs_comm [] a ▸ isLeast_nil_left a

/-- Two characters are kept or replaced. -/
theorem pair_mem_costs (c d : Char) (h : n ∈ costs a b) :
    n + (if c = d then 0 else 1) ∈ costs (a ++ [c]) (b ++ [d]) := by
  split
  · next same =>
    subst same
    exact concat_mem_costs (.keep c) h
  · exact concat_mem_costs (.replace c d) h

theorem min_mem {S : Set Nat} (h : n ∈ S) (h' : m ∈ S) : min n m ∈ S := by
  rcases min_choice n m with same | same
  · rwa [same]
  · rwa [same]

/-- The least cost for two texts, from those for the texts without what the last place takes. The
last of them counts only if the texts end with the same two characters in either order. -/
theorem isLeast_concat_concat {c d : Char} {deleted inserted kept swapped : Nat} {crossed : Prop}
    [Decidable crossed]
    (delete : IsLeast (costs a (b ++ [d])) deleted) (insert : IsLeast (costs (a ++ [c]) b) inserted)
    (keep : IsLeast (costs a b) kept) (cross : crossed ↔ [d] <:+ a ∧ [c] <:+ b)
    (swap : ∀ a' b', a = a' ++ [d] → b = b' ++ [c] → IsLeast (costs a' b') swapped) :
    IsLeast (costs (a ++ [c]) (b ++ [d]))
      (if crossed then
        min (min (min (deleted + 1) (inserted + 1)) (kept + if c = d then 0 else 1)) (swapped + 1)
      else min (min (deleted + 1) (inserted + 1)) (kept + if c = d then 0 else 1)) := by
  constructor
  · have deletes : deleted + 1 ∈ costs (a ++ [c]) (b ++ [d]) := by
      simpa [Edit.source, Edit.target, Edit.cost] using concat_mem_costs (.delete c) delete.1
    have inserts : inserted + 1 ∈ costs (a ++ [c]) (b ++ [d]) := by
      simpa [Edit.source, Edit.target, Edit.cost] using concat_mem_costs (.insert d) insert.1
    have best := min_mem (min_mem deletes inserts) (pair_mem_costs c d keep.1)
    split
    · next crossed =>
      obtain ⟨⟨a', rfl⟩, ⟨b', rfl⟩⟩ := cross.1 crossed
      have swaps : swapped + 1 ∈ costs (a' ++ [d] ++ [c]) (b' ++ [c] ++ [d]) := by
        simpa [Edit.source, Edit.target, Edit.cost] using
          concat_mem_costs (.swap d c) (swap a' b' rfl rfl).1
      exact min_mem best swaps
    · exact best
  · intro k found
    rcases exists_last found with ⟨empty, _⟩ | ⟨edit, a', b', m, left, right, rest, rfl⟩
    · simp at empty
    · cases edit with
      | keep x =>
        obtain ⟨rfl, same⟩ := List.append_inj' left rfl
        obtain ⟨rfl, same'⟩ := List.append_inj' right rfl
        cases same
        cases same'
        have least := keep.2 rest
        simp only [Edit.cost, if_true]
        split <;> omega
      | replace x y =>
        obtain ⟨rfl, _⟩ := List.append_inj' left rfl
        obtain ⟨rfl, _⟩ := List.append_inj' right rfl
        have least := keep.2 rest
        simp only [Edit.cost]
        split <;> split <;> omega
      | delete x =>
        obtain ⟨rfl, _⟩ := List.append_inj' left rfl
        have whole : b ++ [d] = b' := right.trans (List.append_nil b')
        have least := delete.2 (whole ▸ rest)
        simp only [Edit.cost]
        split <;> omega
      | insert x =>
        obtain ⟨rfl, _⟩ := List.append_inj' right rfl
        have whole : a ++ [c] = a' := left.trans (List.append_nil a')
        have least := insert.2 (whole ▸ rest)
        simp only [Edit.cost]
        split <;> omega
      | swap x y =>
        obtain ⟨rfl, same⟩ := List.append_inj' (left.trans (List.append_assoc a' [x] [y]).symm) rfl
        obtain ⟨rfl, same'⟩ := List.append_inj' (right.trans (List.append_assoc b' [y] [x]).symm) rfl
        cases same
        cases same'
        have least := (swap a' b' rfl rfl).2 rest
        rw [if_pos (cross.2 ⟨List.suffix_append a' _, List.suffix_append b' _⟩)]
        simp only [Edit.cost]
        omega

theorem foldl_range'_induction {α : Type} {P : Nat → α → Prop} {f : α → Nat → α} {x : α}
    {first count : Nat} (start : P first x)
    (step : ∀ i x, first ≤ i → i < first + count → P i x → P (i + 1) (f x i)) :
    P (first + count) ((List.range' first count).foldl f x) := by
  induction count generalizing first x with
  | zero => exact start
  | succ count ih =>
    have next := step first x (Nat.le_refl _) (by omega) start
    have done := ih next fun i x above below => step i x (by omega) (by omega)
    rw [List.range'_succ, List.foldl_cons]
    rwa [Nat.add_right_comm] at done

theorem getD_setIfInBounds (table : Array Nat) (k v m : Nat) :
    (table.setIfInBounds k v).getD m 0 =
      if k = m ∧ k < table.size then v else table.getD m 0 := by
  simp only [Array.getD_eq_getD_getElem?, Array.getElem?_setIfInBounds]
  by_cases same : k = m
  · subst same
    by_cases inside : k < table.size
    · simp [inside]
    · simp [inside]
  · simp [same]

/-- The table has the least costs for all pairs of prefixes whose place comes before one in it, and
for those of which one is empty. -/
structure Filled (a b : Array Char) (row column : Nat) (table : Array Nat) : Prop where
  size : table.size = (a.size + 1) * (b.size + 1)
  least : ∀ i ≤ a.size, ∀ j ≤ b.size, i = 0 ∨ j = 0 ∨ i < row ∨ i = row ∧ j < column →
    IsLeast (costs (a.toList.take i) (b.toList.take j)) (table.getD (i * (b.size + 1) + j) 0)

theorem place_lt {i j rows width : Nat} (row : i < rows) (column : j < width) :
    i * width + j < rows * width :=
  calc i * width + j < i * width + width := Nat.add_lt_add_left column _
    _ = (i + 1) * width := (Nat.succ_mul i width).symm
    _ ≤ rows * width := Nat.mul_le_mul_right width row

theorem place_inj {i j i' j' width : Nat} (column : j < width) (column' : j' < width)
    (same : i * width + j = i' * width + j') : i = i' ∧ j = j' := by
  rcases Nat.lt_trichotomy i i' with below | rfl | above
  · have less := place_lt below column
    omega
  · exact ⟨rfl, Nat.add_left_cancel same⟩
  · have less := place_lt above column'
    omega

/-- Numbers that are written one after the other, each at its own place. -/
theorem getD_foldl_writes {place : Nat → Nat} (apart : place.Injective) (t : Array Nat)
    (count : Nat) (inside : ∀ i < count, place i < t.size) :
    let t' := (List.range count).foldl (fun t i => t.setIfInBounds (place i) i) t
    t'.size = t.size ∧ (∀ i < count, t'.getD (place i) 0 = i) ∧
      ∀ m, (∀ i < count, place i ≠ m) → t'.getD m 0 = t.getD m 0 := by
  induction count with
  | zero => exact ⟨rfl, nofun, fun _ _ => rfl⟩
  | succ count ih =>
    obtain ⟨size, written, others⟩ := ih fun i less => inside i (Nat.lt_succ_of_lt less)
    rw [List.range_succ, List.foldl_append]
    refine ⟨by simpa using size, fun i less => ?_, fun m free => ?_⟩
    · rw [List.foldl_cons, List.foldl_nil, getD_setIfInBounds, size]
      by_cases last : count = i
      · subst last
        rw [if_pos ⟨rfl, inside count (Nat.lt_succ_self _)⟩]
      · rw [if_neg fun here => last (apart here.1)]
        exact written i (Nat.lt_of_le_of_ne (Nat.le_of_lt_succ less) (Ne.symm last))
    · rw [List.foldl_cons, List.foldl_nil, getD_setIfInBounds,
        if_neg fun here => free count (Nat.lt_succ_self _) here.1]
      exact others m fun i less => free i (Nat.lt_succ_of_lt less)

theorem filled_margins (a b : Array Char) : Filled a b 1 1 (margins a b) := by
  let blank := Array.replicate ((a.size + 1) * (b.size + 1)) 0
  have size : blank.size = (a.size + 1) * (b.size + 1) := Array.size_replicate
  have apart : Function.Injective fun i => i * (b.size + 1) := fun i i' same =>
    Nat.eq_of_mul_eq_mul_right (Nat.succ_pos b.size) same
  obtain ⟨size', column, -⟩ := getD_foldl_writes apart blank (a.size + 1)
    fun i less => size ▸ place_lt less (Nat.succ_pos b.size)
  let left := (List.range (a.size + 1)).foldl (fun t i => t.setIfInBounds (i * (b.size + 1)) i) blank
  obtain ⟨size'', row, others⟩ := getD_foldl_writes Function.injective_id left (b.size + 1)
    fun j less => by
      rw [size', size]
      simpa using place_lt (Nat.succ_pos a.size) less
  refine ⟨size''.trans (size'.trans size), fun i inA j inB place => ?_⟩
  have zero : i = 0 ∨ j = 0 := by omega
  by_cases first : i = 0
  · subst first
    have here : (margins a b).getD j 0 = j := row j (Nat.lt_succ_of_le inB)
    have least := isLeast_nil_left (b.toList.take j)
    rw [List.length_take_of_le inB] at least
    simpa [here] using least
  · obtain rfl : j = 0 := zero.resolve_left first
    have kept : (margins a b).getD (i * (b.size + 1)) 0 = i := by
      refine (others _ fun j less same => ?_).trans (column i (Nat.lt_succ_of_le inA))
      have far := Nat.le_mul_of_pos_left (b.size + 1) (Nat.pos_of_ne_zero first)
      simp only [id_eq] at same
      omega
    have least := isLeast_nil_right (a.toList.take i)
    rw [List.length_take_of_le inA] at least
    simpa [kept] using least

theorem singleton_suffix_concat_iff {c d : Char} : [c] <:+ a ++ [d] ↔ c = d := by
  constructor
  · rintro ⟨a', same⟩
    exact List.singleton_inj.1 (List.append_inj' same rfl).2
  · rintro rfl
    exact List.suffix_append a [c]

theorem singleton_suffix_take_iff {c : Char} (inside : n ≤ a.length) :
    [c] <:+ a.take n ↔ 0 < n ∧ a[n - 1]? = some c := by
  cases n with
  | zero => simp
  | succ n =>
    rw [← List.take_append_getElem inside, singleton_suffix_concat_iff]
    simp [List.getElem?_eq_getElem inside, eq_comm]

theorem eq_take_of_take_eq_concat {a' : List Char} {c : Char} (inside : n < a.length)
    (h : a.take n = a' ++ [c]) : 0 < n ∧ a' = a.take (n - 1) := by
  refine ⟨Nat.pos_of_ne_zero ?_, ?_⟩
  · rintro rfl
    simp at h
  · rw [← List.dropLast_take inside, h, List.dropLast_concat]

section cells
variable {a b : Array Char} {t : Array Nat} {i j : Nat}

/-- What is written at a place is the least cost there. -/
theorem Filled.isLeast_best (h : Filled a b (i + 1) (j + 1) t) (inA : i < a.size)
    (inB : j < b.size) :
    IsLeast (costs (a.toList.take (i + 1)) (b.toList.take (j + 1)))
      (best a b t (i + 1) (j + 1)) := by
  have endA : a.toList.take i ++ [a[i]] = a.toList.take (i + 1) :=
    List.take_append_getElem (l := a.toList) inA
  have endB : b.toList.take j ++ [b[j]] = b.toList.take (j + 1) :=
    List.take_append_getElem (l := b.toList) inB
  have delete := h.least i (Nat.le_of_lt inA) (j + 1) inB (by omega)
  have insert := h.least (i + 1) inA j (Nat.le_of_lt inB) (by omega)
  have keep := h.least i (Nat.le_of_lt inA) j (Nat.le_of_lt inB) (by omega)
  rw [← endB] at delete
  rw [← endA] at insert
  have cross : (1 < i + 1 ∧ 1 < j + 1 ∧ a[i + 1 - 1]? = b[j + 1 - 2]? ∧
      a[i + 1 - 2]? = b[j + 1 - 1]?) ↔
      [b[j]] <:+ a.toList.take i ∧ [a[i]] <:+ b.toList.take j := by
    rw [singleton_suffix_take_iff (Nat.le_of_lt inA), singleton_suffix_take_iff (Nat.le_of_lt inB)]
    simp only [Nat.add_sub_cancel, Array.getElem?_toList,
      Array.getElem?_eq_getElem inA, Array.getElem?_eq_getElem inB, Nat.lt_add_left_iff_pos]
    tauto
  have swap : ∀ a' b', a.toList.take i = a' ++ [b[j]] → b.toList.take j = b' ++ [a[i]] →
      IsLeast (costs a' b')
        (t.getD ((i + 1 - 2) * (b.size + 1) + (j + 1) - 2) 0) := by
    intro a' b' left right
    obtain ⟨posA, rfl⟩ := eq_take_of_take_eq_concat inA left
    obtain ⟨posB, rfl⟩ := eq_take_of_take_eq_concat inB right
    have least := h.least (i - 1) (by omega) (j - 1) (by omega) (by omega)
    have place : (i - 1) * (b.size + 1) + (j - 1) = (i + 1 - 2) * (b.size + 1) + (j + 1) - 2 := by
      have row : i + 1 - 2 = i - 1 := by omega
      rw [row]
      omega
    rwa [place] at least
  have least := isLeast_concat_concat delete insert keep cross swap
  rw [endA, endB] at least
  have same : a[i]? = b[j]? ↔ a[i] = b[j] := by
    simp [Array.getElem?_eq_getElem inA, Array.getElem?_eq_getElem inB]
  simpa only [best, Nat.add_sub_cancel, ← Nat.add_assoc, same] using least

theorem Filled.write (h : Filled a b (i + 1) (j + 1) t) (inA : i < a.size) (inB : j < b.size) :
    Filled a b (i + 1) (j + 2)
      (t.setIfInBounds ((i + 1) * (b.size + 1) + (j + 1)) (best a b t (i + 1) (j + 1))) := by
  refine ⟨by simpa using h.size, fun i' inA' j' inB' before => ?_⟩
  rw [getD_setIfInBounds]
  split
  · next here =>
    obtain ⟨rfl, rfl⟩ := place_inj (by omega) (by omega) here.1
    exact h.isLeast_best inA inB
  · next other =>
    refine h.least i' inA' j' inB' ?_
    by_contra later
    obtain ⟨rfl, rfl⟩ : i' = i + 1 ∧ j' = j + 1 := by omega
    exact other ⟨rfl, h.size ▸ place_lt (by omega) (by omega)⟩

theorem Filled.fillRow (h : Filled a b (i + 1) 1 t) (inA : i < a.size) :
    Filled a b (i + 2) 1 (fillRow a b t (i + 1)) := by
  have whole : Filled a b (i + 1) (1 + b.size) (Suggest.fillRow a b t (i + 1)) := by
    refine foldl_range'_induction h fun j t first last filled => ?_
    obtain ⟨j, rfl⟩ := Nat.exists_eq_add_of_le' first
    exact filled.write inA (by omega)
  exact ⟨whole.size, fun i' inA' j' inB' before => whole.least i' inA' j' inB' (by omega)⟩

theorem filled_table (a b : Array Char) : Filled a b (1 + a.size) 1 (table a b) := by
  refine foldl_range'_induction (P := fun i t => Filled a b i 1 t) (filled_margins a b) ?_
  intro i t first last filled
  obtain ⟨i, rfl⟩ := Nat.exists_eq_add_of_le' first
  exact filled.fillRow (by omega)

end cells

theorem isLeast_distance (a b : String) : IsLeast (costs a.toList b.toList) (distance a b) := by
  have least := (filled_table a.toList.toArray b.toList.toArray).least _ (Nat.le_refl _) _
    (Nat.le_refl _) (by omega)
  unfold distance
  dsimp only
  split
  · next empty =>
    have empty : a.toList = [] := by simpa using empty
    rw [empty]
    exact isLeast_nil_left b.toList
  · split
    · next empty =>
      have empty : b.toList = [] := by simpa using empty
      rw [empty]
      exact isLeast_nil_right a.toList
    · simpa using least

/-- No character is edited twice: a swap does not let another character in between. -/
example : distance "ca" "abc" = 3 := by decide

theorem distance_comm (a b : String) : distance a b = distance b a := by
  have other := isLeast_distance b a
  rw [costs_comm] at other
  exact (isLeast_distance a b).unique other

theorem distance_eq_zero {a b : String} : distance a b = 0 ↔ a = b := by
  constructor
  · intro zero
    have free := (isLeast_distance a b).1
    rw [zero] at free
    exact String.toList_inj.1 (eq_of_zero_mem_costs free)
  · rintro rfl
    exact Nat.le_zero.1 ((isLeast_distance a a).2 (zero_mem_costs a.toList))

structure FirstAt (blocks : List (List String)) (name : String) (level : Nat) : Prop where
  here : ∃ block, blocks[level]? = some block ∧ name ∈ block
  before : ∀ i < level, ∀ block, blocks[i]? = some block → name ∉ block

/-- One name comes in an earlier list than another, or in the same and before it in the
alphabet. -/
def Precedes (blocks : List (List String)) (x y : String) : Prop :=
  ∃ i j, FirstAt blocks x i ∧ FirstAt blocks y j ∧ (i < j ∨ i = j ∧ x < y)

section blocks
variable {blocks : List (List String)} {block : List String} {x y : String} {i : Nat}

theorem FirstAt.zero (h : x ∈ block) : FirstAt (block :: blocks) x 0 :=
  ⟨⟨block, rfl, h⟩, nofun⟩

theorem FirstAt.succ (h : FirstAt blocks x i) (new : x ∉ block) :
    FirstAt (block :: blocks) x (i + 1) := by
  refine ⟨h.here, fun j before other found => ?_⟩
  cases j with
  | zero =>
    cases found
    exact new
  | succ j => exact h.before j (Nat.lt_of_succ_lt_succ before) other found

theorem FirstAt.exists_of_mem (h : x ∈ blocks.flatten) : ∃ i, FirstAt blocks x i := by
  induction blocks with
  | nil => cases h
  | cons block blocks ih =>
    by_cases here : x ∈ block
    · exact ⟨0, .zero here⟩
    · obtain ⟨i, later⟩ := ih ((List.mem_append.1 h).resolve_left here)
      exact ⟨i + 1, later.succ here⟩

theorem Precedes.cons (h : Precedes blocks x y) (newX : x ∉ block) (newY : y ∉ block) :
    Precedes (block :: blocks) x y := by
  obtain ⟨i, j, first, second, order⟩ := h
  refine ⟨i + 1, j + 1, first.succ newX, second.succ newY, ?_⟩
  exact order.imp Nat.succ_lt_succ fun same => ⟨congrArg (· + 1) same.1, same.2⟩

end blocks

/-- Names of a list that repeats none come first, and only others follow. -/
theorem distinct_append {names others : List String} (once : names.Nodup) :
    distinct (names ++ others) = names ++ (distinct others).filter (fun x => x ∉ names) := by
  induction names with
  | nil => simp
  | cons first names ih =>
    obtain ⟨new, once⟩ := List.nodup_cons.1 once
    have kept : names.filter (· != first) = names := by
      rw [List.filter_eq_self]
      intro x mem
      simpa using ne_of_mem_of_not_mem mem new
    rw [List.cons_append, distinct, ih once, List.filter_append, kept, List.filter_filter,
      List.cons_append]
    simp [bne, beq_eq_decide]

/-- The order of the names that are left when later occurrences are dropped. -/
theorem pairwise_distinct {blocks : List (List String)}
    (sorted : ∀ block ∈ blocks, block.Pairwise (· < ·)) (p : String → Bool) :
    (distinct (blocks.flatten.filter p)).Pairwise (Precedes blocks) := by
  induction blocks with
  | nil => exact .nil
  | cons block blocks ih =>
    obtain ⟨ascending, others⟩ := List.forall_mem_cons.1 sorted
    have ascending' := ascending.filter p
    have once : (block.filter p).Nodup := ascending'.imp fun before => String.ne_of_lt before
    rw [List.flatten_cons, List.filter_append, distinct_append once]
    -- What follows the first block is no name of it: a name of it would have passed `p` there too.
    have later : ∀ x ∈ (distinct (blocks.flatten.filter p)).filter (fun x => x ∉ block.filter p),
        x ∉ block ∧ x ∈ blocks.flatten := by
      intro x mem
      obtain ⟨listed, new⟩ := List.mem_filter.1 mem
      obtain ⟨there, passed⟩ := List.mem_filter.1 (mem_distinct.1 listed)
      refine ⟨fun here => ?_, there⟩
      exact of_decide_eq_true new (List.mem_filter.2 ⟨here, passed⟩)
    refine List.pairwise_append.2 ⟨?_, ?_, fun x here y mem => ?_⟩
    · refine ascending'.imp_of_mem fun first second before => ?_
      exact ⟨0, 0, .zero (List.mem_of_mem_filter first), .zero (List.mem_of_mem_filter second),
        .inr ⟨rfl, before⟩⟩
    · refine ((ih others).filter _).imp_of_mem fun first second order => ?_
      exact order.cons (later _ first).1 (later _ second).1
    · obtain ⟨new, there⟩ := later y mem
      obtain ⟨i, level⟩ := FirstAt.exists_of_mem there
      exact ⟨0, i + 1, .zero (List.mem_of_mem_filter here), level.succ new, .inl (Nat.succ_pos i)⟩

end Suggest

def Scope.Declares (scope : Scope) (name : String) : Prop :=
  (∃ v, (name, v) ∈ scope.vars) ∨ ∃ f ∈ scope.functions, f.name = name

/-- A library has a function or a family of this name. -/
def Library.Offers (library : Library) (name : String) : Prop :=
  (∃ f ∈ library.natives, f.name = name) ∨ ∃ family ∈ library.families, family.name = name

theorem Scope.mem_names {scope : Scope} {name : String} :
    name ∈ scope.names ↔ scope.Declares name := by
  simp [names, NameSet.mem_ofList, Declares]

theorem Library.mem_names {library : Library} {name : String} :
    name ∈ library.names ↔ library.Offers name := by
  simp [names, NameSet.mem_ofList, Offers]

namespace ScopeChain

/-- A name can be seen at a level: in the scope of that number, counted from the innermost, or in
the library, which stands behind all scopes. -/
def SeenAt (chain : ScopeChain) (level : Nat) (name : String) : Prop :=
  (∃ scope, chain.scopes[level]? = some scope ∧ scope.Declares name) ∨
    level = chain.scopes.length ∧ chain.library.Offers name

structure Nearest (chain : ScopeChain) (name : String) (level : Nat) : Prop where
  seen : chain.SeenAt level name
  first : ∀ i < level, ¬ chain.SeenAt i name

def levels (chain : ScopeChain) : List (List String) :=
  chain.scopes.map Scope.names ++ [chain.library.names]

variable {chain : ScopeChain} {name : String} {i : Nat}

theorem flatten_levels (chain : ScopeChain) : chain.levels.flatten = chain.names := by
  simp [levels, names, List.flatMap_def]

theorem seenAt_iff : chain.SeenAt i name ↔
    ∃ block, chain.levels[i]? = some block ∧ name ∈ block := by
  rcases Nat.lt_trichotomy i chain.scopes.length with inside | rfl | outside
  · have level : chain.levels[i]? = some (chain.scopes[i].names) := by
      rw [levels, List.getElem?_append_left (by simpa using inside)]
      simp [inside]
    simp [SeenAt, level, inside, Nat.ne_of_lt inside, Scope.mem_names]
  · simp [SeenAt, levels, Library.mem_names]
  · have level : chain.levels[i]? = none := by
      rw [List.getElem?_eq_none_iff]
      simpa [levels] using Nat.succ_le_of_lt outside
    simp [SeenAt, level, Nat.le_of_lt outside, Nat.ne_of_gt outside]

theorem nearest_of_firstAt (h : Suggest.FirstAt chain.levels name i) : chain.Nearest name i := by
  refine ⟨seenAt_iff.2 h.here, fun j before seen => ?_⟩
  obtain ⟨block, found, mem⟩ := seenAt_iff.1 seen
  exact h.before j before block found mem

theorem sorted_levels (chain : ScopeChain) : ∀ block ∈ chain.levels, block.Pairwise (· < ·) := by
  intro block mem
  rcases List.mem_append.1 mem with inner | last
  · obtain ⟨scope, _, rfl⟩ := List.mem_map.1 inner
    exact NameSet.ascending _
  · cases List.mem_singleton.1 last
    exact NameSet.ascending _

theorem mem_names_iff : name ∈ chain.names ↔ ∃ level, chain.SeenAt level name := by
  rw [← flatten_levels]
  constructor
  · intro mem
    obtain ⟨i, first⟩ := Suggest.FirstAt.exists_of_mem mem
    exact ⟨i, seenAt_iff.2 first.here⟩
  · rintro ⟨i, seen⟩
    obtain ⟨block, found, mem⟩ := seenAt_iff.1 seen
    exact List.mem_flatten.2 ⟨block, List.mem_of_getElem? found, mem⟩

theorem nodup_suggestions (chain : ScopeChain) (name : String) : (chain.suggestions name).Nodup :=
  Suggest.nodup_distinct _

theorem mem_suggestions {other : String} : other ∈ chain.suggestions name ↔
    (∃ level, chain.SeenAt level other) ∧ Suggest.distance name other < Suggest.limit := by
  rw [suggestions, Suggest.mem_similar, mem_names_iff]

theorem pairwise_suggestions (chain : ScopeChain) (name : String) :
    (chain.suggestions name).Pairwise fun x y =>
      ∃ i j, chain.Nearest x i ∧ chain.Nearest y j ∧ (i < j ∨ i = j ∧ x < y) := by
  have ordered := Suggest.pairwise_distinct chain.sorted_levels fun other =>
    Suggest.distance name other < Suggest.limit
  rw [flatten_levels] at ordered
  refine ordered.imp fun ⟨i, j, first, second, order⟩ => ?_
  exact ⟨i, j, nearest_of_firstAt first, nearest_of_firstAt second, order⟩

end ScopeChain

/-- What is offered is exactly what is close and can be seen. The distance of two texts is the least
number of edits in an alignment of them; it does not depend on which text comes first, and it is
zero for equal texts only. The names that a chain of scopes offers in place of another are those
that a scope or the library has at a distance below three, each once, those of nearer scopes first
and those of one scope in alphabetical order. -/
theorem suggestions_exact :
    (∀ a b : String, IsLeast (Suggest.costs a.toList b.toList) (Suggest.distance a b) ∧
      Suggest.distance a b = Suggest.distance b a ∧ (Suggest.distance a b = 0 ↔ a = b)) ∧
    ∀ (chain : ScopeChain) (name : String), (chain.suggestions name).Nodup ∧
      (∀ other, other ∈ chain.suggestions name ↔
        (∃ level, chain.SeenAt level other) ∧ Suggest.distance name other < 3) ∧
      (chain.suggestions name).Pairwise fun x y =>
        ∃ i j, chain.Nearest x i ∧ chain.Nearest y j ∧ (i < j ∨ i = j ∧ x < y) := by
  refine ⟨fun a b => ?_, fun chain name => ?_⟩
  · exact ⟨Suggest.isLeast_distance a b, Suggest.distance_comm a b, Suggest.distance_eq_zero⟩
  · exact ⟨chain.nodup_suggestions name, fun _ => ScopeChain.mem_suggestions,
      chain.pairwise_suggestions name⟩

end CursorScript
