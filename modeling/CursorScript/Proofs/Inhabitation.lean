import CursorScript.Function
import CursorScript.Operator

/-!
Which values are of which type, and that operators keep to the types for which analysis picks them:
applied to values of the operand types, an operator gives a value of the result type, or fails for a
reason that lies in the values.
-/
namespace CursorScript

inductive Value.Inhabits : Value → Ty → Prop
  | number (n : Int) : Inhabits (.number n) .number
  | real (x : Float) : Inhabits (.real x) .real
  | logic (b : Bool) : Inhabits (.logic b) .logic
  | string (s : String) : Inhabits (.string s) .string
  | material (m : Material) : Inhabits (.material m) .material
  | literal {name : String} {members : NameSet} (listed : name ∈ members.names) :
      Inhabits (.literal name) (.literal members)
  | list {items : List Value} {element : Ty} (all : ∀ v ∈ items, Inhabits v element) :
      Inhabits (.list items) (.list element)
  | map {entries : List (Value × Value)} {key value : Ty}
      (keys : ∀ entry ∈ entries, Inhabits entry.1 key)
      (values : ∀ entry ∈ entries, Inhabits entry.2 value) :
      Inhabits (.map entries) (.map key value)
  | emptyList : Inhabits (.list []) .emptyList
  | emptyMap : Inhabits (.map []) .emptyMap

/-- A value is what a function with the given return type leaves; without one that is `unit`. -/
def Value.Fills (v : Value) : Option Ty → Prop
  | none => v = .unit
  | some type => v.Inhabits type

namespace Value

theorem Inhabits.ne_unit {v : Value} {type : Ty} (h : v.Inhabits type) : v ≠ .unit := by
  cases h <;> exact Value.noConfusion

/-- A type that accepts another has all its values. -/
theorem Inhabits.of_accepts {v : Value} {expected actual : Ty} (h : v.Inhabits actual)
    (accepts : expected.accepts actual = true) : v.Inhabits expected := by
  unfold Ty.accepts at accepts
  split at accepts
  · next allowed given =>
    cases h with
    | literal listed => exact .literal (NameSet.subset_iff.1 accepts _ listed)
  · exact (of_decide_eq_true accepts : expected = actual) ▸ h

/-- A place that an empty collection can be bound to has the empty collection. -/
theorem Inhabits.of_acceptsBinding {v : Value} {expected actual : Ty} (h : v.Inhabits actual)
    (accepts : expected.acceptsBinding actual = true) : v.Inhabits expected := by
  unfold Ty.acceptsBinding at accepts
  split at accepts
  · cases h with
    | emptyList => exact .list (by simp)
  · cases h with
    | emptyMap => exact .map (by simp) (by simp)
  · exact h.of_accepts accepts

theorem insertEntry_forall {P : Value × Value → Prop} {key value : Value}
    {entries : List (Value × Value)} (all : ∀ entry ∈ entries, P entry) (new : P (key, value))
    (replaced : ∀ k v, P (k, v) → P (k, value)) :
    ∀ entry ∈ insertEntry key value entries, P entry := by
  induction entries with
  | nil => simpa [insertEntry] using new
  | cons entry rest ih =>
    obtain ⟨k, v⟩ := entry
    obtain ⟨first, others⟩ := List.forall_mem_cons.1 all
    unfold insertEntry
    split
    · exact List.forall_mem_cons.2 ⟨replaced k v first, others⟩
    · exact List.forall_mem_cons.2 ⟨first, ih others⟩

/-- Inserting entries of the right types one after the other gives a map of those types. -/
theorem inhabits_entriesOf {pairs : List (Value × Value)} {key value : Ty}
    (all : ∀ entry ∈ pairs, entry.1.Inhabits key ∧ entry.2.Inhabits value) :
    (Value.map (entriesOf pairs)).Inhabits (.map key value) := by
  have kept : ∀ (more before : List (Value × Value)),
      (∀ entry ∈ before, entry.1.Inhabits key ∧ entry.2.Inhabits value) →
      (∀ entry ∈ more, entry.1.Inhabits key ∧ entry.2.Inhabits value) →
      ∀ entry ∈ more.foldl (fun entries entry => insertEntry entry.1 entry.2 entries) before,
        entry.1.Inhabits key ∧ entry.2.Inhabits value := by
    intro more
    induction more with
    | nil => exact fun _ before _ => before
    | cons entry more ih =>
      intro before old new
      obtain ⟨k, v⟩ := entry
      obtain ⟨first, others⟩ := List.forall_mem_cons.1 new
      exact ih _ (insertEntry_forall old first fun _ _ old => ⟨old.1, first.2⟩) others
  have result := kept pairs [] (by simp) all
  exact .map (fun entry mem => (result entry mem).1) fun entry mem => (result entry mem).2

theorem mem_of_lookup? {entries : List (Value × Value)} {key v : Value}
    (h : lookup? entries key = some v) : ∃ entry ∈ entries, entry.2 = v := by
  obtain ⟨entry, found, rfl⟩ := Option.map_eq_some_iff.1 h
  exact ⟨entry, List.mem_of_find?_eq_some found, rfl⟩

end Value

namespace Operator

/-- The failures of operators that lie in the values they are applied to. -/
inductive Fault : Cause → Prop
  | divisionByZero : Fault .divisionByZero
  | invalidExponent (exponent : String) : Fault (.invalidExponent exponent)
  | indexOutOfBounds (index : String) (length : Nat) : Fault (.indexOutOfBounds index length)
  | missingKey (key : String) : Fault (.missingKey key)

def Keeps (type : Ty) : Except Cause Value → Prop
  | .ok v => v.Inhabits type
  | .error cause => Fault cause

/-- Between operands of two types an operator gives results of a third. -/
def Joins (op : Operator) (left right result : Ty) : Prop :=
  ∀ v w, v.Inhabits left → w.Inhabits right → Keeps result (op.applyBinary v w)

/-- Before an operand of one type an operator gives results of another. -/
def Turns (op : Operator) (operand result : Ty) : Prop :=
  ∀ v, v.Inhabits operand → Keeps result (op.applyUnary v)

theorem joins_numbers {op : Operator} {result : Ty}
    (h : ∀ a b, Keeps result (op.applyBinary (.number a) (.number b))) :
    op.Joins .number .number result := by
  intro v w hv hw
  cases hv with
  | number a =>
    cases hw with
    | number b => exact h a b

theorem joins_reals {op : Operator} {result : Ty}
    (h : ∀ a b, Keeps result (op.applyBinary (.real a) (.real b))) :
    op.Joins .real .real result := by
  intro v w hv hw
  cases hv with
  | real a =>
    cases hw with
    | real b => exact h a b

theorem joins_logic {op : Operator}
    (h : ∀ a b, Keeps .logic (op.applyBinary (.logic a) (.logic b))) :
    op.Joins .logic .logic .logic := by
  intro v w hv hw
  cases hv with
  | logic a =>
    cases hw with
    | logic b => exact h a b

theorem joins_strings {op : Operator}
    (h : ∀ a b, Keeps .string (op.applyBinary (.string a) (.string b))) :
    op.Joins .string .string .string := by
  intro v w hv hw
  cases hv with
  | string a =>
    cases hw with
    | string b => exact h a b

theorem keeps_divideWhole (a b : Int) : Keeps .number (divideWhole a b) := by
  unfold divideWhole
  split
  · exact .divisionByZero
  · exact .number _

theorem keeps_moduloWhole (a b : Int) : Keeps .number (moduloWhole a b) := by
  unfold moduloWhole
  split
  · exact .divisionByZero
  · exact .number _

theorem keeps_powerWhole (a b : Int) : Keeps .number (powerWhole a b) := by
  unfold powerWhole
  split
  · exact .number _
  · exact .invalidExponent _

theorem keeps_divideReal (a b : Float) : Keeps .real (divideReal a b) := by
  unfold divideReal
  split
  · exact .divisionByZero
  · exact .real _

theorem keeps_moduloReal (a b : Float) : Keeps .real (moduloReal a b) := by
  unfold moduloReal
  split
  · exact .divisionByZero
  · exact .real _

/-- An element of a list is of the element type. -/
theorem joins_listIndex (element : Ty) : listIndex.Joins (.list element) .number element := by
  intro v w hv hw
  cases hv with
  | list all =>
    cases hw with
    | number index =>
      show Keeps element (elementAt _ index)
      unfold elementAt
      split
      · exact .indexOutOfBounds _ _
      · split
        · next found => exact all _ (List.mem_of_getElem? found)
        · exact .indexOutOfBounds _ _

/-- The value under a key of a map is of the value type, whatever the key. -/
theorem joins_mapGet (key value index : Ty) : mapGet.Joins (.map key value) index value := by
  intro v w hv _
  cases hv with
  | map keys values =>
    show Keeps value (valueUnder _ w)
    unfold valueUnder
    split
    · next found =>
      obtain ⟨entry, mem, rfl⟩ := Value.mem_of_lookup? found
      exact values entry mem
    · exact .missingKey _

theorem eq_of_forNumeric {α : Type} {left right : Ty} {numbers reals choice : α}
    (h : forNumeric left right numbers reals = some choice) :
    (left = .number ∧ right = .number ∧ choice = numbers) ∨
      (left = .real ∧ right = .real ∧ choice = reals) := by
  unfold forNumeric at h
  split at h
  · exact .inl ⟨rfl, rfl, by simpa using h.symm⟩
  · exact .inr ⟨rfl, rfl, by simpa using h.symm⟩
  · cases h

theorem joins_arithmetic {left right type : Ty} {numbers reals op : Operator}
    (h : arithmetic left right numbers reals = some (op, type))
    (whole : ∀ a b, Keeps .number (numbers.applyBinary (.number a) (.number b)))
    (real : ∀ a b, Keeps .real (reals.applyBinary (.real a) (.real b))) :
    op.Joins left right type := by
  obtain ⟨rfl, rfl, chosen⟩ | ⟨rfl, rfl, chosen⟩ := eq_of_forNumeric h
  · cases chosen
    exact joins_numbers whole
  · cases chosen
    exact joins_reals real

theorem joins_comparison {left right type : Ty} {numbers reals op : Operator}
    (h : comparison left right numbers reals = some (op, type))
    (whole : ∀ a b, Keeps .logic (numbers.applyBinary (.number a) (.number b)))
    (real : ∀ a b, Keeps .logic (reals.applyBinary (.real a) (.real b))) :
    op.Joins left right type := by
  obtain ⟨rfl, rfl, chosen⟩ | ⟨rfl, rfl, chosen⟩ := eq_of_forNumeric h
  · cases chosen
    exact joins_numbers whole
  · cases chosen
    exact joins_reals real

theorem joins_logical {left right type : Ty} {choice op : Operator}
    (h : logical left right choice = some (op, type))
    (apply : ∀ a b, Keeps .logic (choice.applyBinary (.logic a) (.logic b))) :
    op.Joins left right type := by
  unfold logical at h
  split at h
  · next same =>
    obtain ⟨rfl, rfl⟩ := same
    cases h
    exact joins_logic apply
  · cases h

theorem joins_equality {left right type : Ty} {choice op : Operator}
    (h : equality left right choice = some (op, type))
    (apply : ∀ v w, Keeps .logic (choice.applyBinary v w)) : op.Joins left right type := by
  unfold equality at h
  split at h
  · cases h
    exact fun v w _ _ => apply v w
  · cases h

/-- The operator that analysis picks between two operands gives results of the type it names. -/
theorem joins_of_binary? {token : TokenKind} {left right type : Ty} {op : Operator}
    (h : binary? token left right = some (op, type)) : op.Joins left right type := by
  unfold binary? at h
  split at h
  · cases h
  · cases token with
    | plus =>
      dsimp only at h
      split at h
      · next same =>
        obtain ⟨rfl, rfl⟩ := same
        cases h
        exact joins_strings fun _ _ => .string _
      · exact joins_arithmetic h (fun _ _ => .number _) fun _ _ => .real _
    | dash => exact joins_arithmetic h (fun _ _ => .number _) fun _ _ => .real _
    | star => exact joins_arithmetic h (fun _ _ => .number _) fun _ _ => .real _
    | slash => exact joins_arithmetic h keeps_divideWhole keeps_divideReal
    | percent => exact joins_arithmetic h keeps_moduloWhole keeps_moduloReal
    | caret => exact joins_arithmetic h keeps_powerWhole fun _ _ => .real _
    | equals => exact joins_equality h fun _ _ => .logic _
    | notEquals => exact joins_equality h fun _ _ => .logic _
    | greater => exact joins_comparison h (fun _ _ => .logic _) fun _ _ => .logic _
    | greaterEquals => exact joins_comparison h (fun _ _ => .logic _) fun _ _ => .logic _
    | less => exact joins_comparison h (fun _ _ => .logic _) fun _ _ => .logic _
    | lessEquals => exact joins_comparison h (fun _ _ => .logic _) fun _ _ => .logic _
    | wordAnd => exact joins_logical h fun _ _ => .logic _
    | wordOr => exact joins_logical h fun _ _ => .logic _
    | _ => cases h

/-- A compound assignment computes a value of its target's own type. -/
theorem joins_of_compound? {token : TokenKind} {target value : Ty} {op : Operator}
    (h : compound? token target value = some op) : op.Joins target value target := by
  obtain ⟨base, based, h⟩ := Option.bind_eq_some_iff.1 h
  obtain ⟨_, numeric, h⟩ := Option.bind_eq_some_iff.1 h
  obtain ⟨⟨picked, type⟩, chosen, picks⟩ := Option.bind_eq_some_iff.1 h
  cases picks
  have joins := joins_of_binary? chosen
  have same : type = target := by
    obtain ⟨rfl, rfl, -⟩ | ⟨rfl, rfl, -⟩ := eq_of_forNumeric numeric
    · cases token <;> cases based <;> cases chosen <;> rfl
    · cases token <;> cases based <;> cases chosen <;> rfl
  exact same ▸ joins

theorem joins_of_index? {collection index type : Ty} {op : Operator}
    (h : index? collection index = some (op, type)) : op.Joins collection index type := by
  unfold index? at h
  split at h
  · split at h
    · next number =>
      cases h
      exact number ▸ joins_listIndex _
    · cases h
  · split at h
    · cases h
      exact joins_mapGet _ _ _
    · cases h
  · cases h

theorem turns_of_unary? {token : TokenKind} {operand type : Ty} {op : Operator}
    (h : unary? token operand = some (op, type)) : op.Turns operand type := by
  intro v hv
  unfold unary? at h
  split at h
  · cases h
    cases hv with
    | number n => exact .number _
  · cases h
    cases hv with
    | real x => exact .real _
  · cases h
    cases hv with
    | logic b => exact .logic _
  · cases h

end Operator

end CursorScript
