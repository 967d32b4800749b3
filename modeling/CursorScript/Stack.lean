/-!
Stacks that know how many items they hold, so that the size of a deep stack is at hand after every
step.
-/
namespace CursorScript

structure Stack (α : Type) where
  items : List α
  size : Nat
  size_eq : size = items.length

namespace Stack

variable {α : Type}

def ofList (items : List α) : Stack α := ⟨items, items.length, rfl⟩

def push (s : Stack α) (item : α) : Stack α :=
  ⟨item :: s.items, s.size + 1, by simp [s.size_eq]⟩

/-- Puts items on top, the first of them topmost. -/
def pushAll (s : Stack α) (items : List α) : Stack α :=
  ⟨items ++ s.items, items.length + s.size, by simp [s.size_eq]⟩

def tail (s : Stack α) : Stack α := ⟨s.items.tail, s.size - 1, by simp [s.size_eq]⟩

def listBelow (isTarget : α → Bool) : List α → Option (List α)
  | [] => none
  | item :: rest => if isTarget item then some rest else listBelow isTarget rest

/-- What is dropped ends with the target and holds no other. -/
theorem listBelow_eq_some {isTarget : α → Bool} {items rest : List α}
    (h : listBelow isTarget items = some rest) :
    ∃ dropped target, items = dropped ++ target :: rest ∧ isTarget target = true ∧
      ∀ item ∈ dropped, isTarget item = false := by
  induction items with
  | nil => simp [listBelow] at h
  | cons item items ih =>
    unfold listBelow at h
    split at h
    · next hit =>
      cases h
      exact ⟨[], item, by simp, hit, by simp⟩
    · next miss =>
      obtain ⟨dropped, target, split_eq, hit, others⟩ := ih h
      refine ⟨item :: dropped, target, by simp [split_eq], hit, fun other mem => ?_⟩
      rcases List.mem_cons.1 mem with rfl | mem
      · simpa using miss
      · exact others other mem

/-- The stack below the topmost item that `isTarget` picks, counting down as items are dropped. -/
def belowFrom (isTarget : α → Bool) :
    (items : List α) → (size : Nat) → size = items.length → Option (Stack α)
  | [], _, _ => none
  | item :: rest, size, h =>
    have fewer : size - 1 = rest.length := by simp [h]
    if isTarget item then some ⟨rest, size - 1, fewer⟩
    else belowFrom isTarget rest (size - 1) fewer

def below? (isTarget : α → Bool) (s : Stack α) : Option (Stack α) :=
  belowFrom isTarget s.items s.size s.size_eq

theorem items_belowFrom (isTarget : α → Bool) (items : List α) (size : Nat)
    (h : size = items.length) :
    (belowFrom isTarget items size h).map Stack.items = listBelow isTarget items := by
  induction items generalizing size with
  | nil => rfl
  | cons item rest ih =>
    unfold belowFrom listBelow
    split
    · rfl
    · exact ih _ _

/-- Dropping down to a target drops the items that it drops from the list. -/
theorem items_below? (isTarget : α → Bool) (s : Stack α) :
    (s.below? isTarget).map Stack.items = listBelow isTarget s.items :=
  items_belowFrom isTarget s.items s.size s.size_eq

def replaceFirst? (replacement? : α → Option α) : List α → Option (List α)
  | [] => none
  | item :: rest =>
    match replacement? item with
    | some new => some (new :: rest)
    | none => (replaceFirst? replacement? rest).map (item :: ·)

theorem length_replaceFirst? {replacement? : α → Option α} {items items' : List α}
    (h : replaceFirst? replacement? items = some items') : items'.length = items.length := by
  induction items generalizing items' with
  | nil => simp [replaceFirst?] at h
  | cons item rest ih =>
    unfold replaceFirst? at h
    split at h
    · cases h
      rfl
    · obtain ⟨rest', found, rfl⟩ := Option.map_eq_some_iff.1 h
      simp [ih found]

def replace? (replacement? : α → Option α) (s : Stack α) : Option (Stack α) :=
  match h : replaceFirst? replacement? s.items with
  | some items => some ⟨items, s.size, by rw [s.size_eq, length_replaceFirst? h]⟩
  | none => none

end Stack

end CursorScript
