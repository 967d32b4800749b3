import CursorScript.Proofs.Definitions
import Mathlib.Algebra.BigOperators.Group.Finset.Basic

/-!
Scopes and libraries kept by name. A map has an entry for each name, with all overloads of the name
in the order of their definition, and a function's entry is made before it is known whether the
function is accepted. Held in this way a scope or a library accepts the same definitions and answers
the same as when it is held in lists.
-/
namespace CursorScript

structure NameMaps where
  vars : Std.HashMap String Variable
  functions : Std.HashMap String (List Function)
  families : Std.HashMap String (List Ty → Option Function)

namespace NameMaps

def empty : NameMaps := ⟨∅, ∅, ∅⟩

def addOverload (functions : Std.HashMap String (List Function)) (f : Function) :
    Std.HashMap String (List Function) × Bool :=
  let functions := functions.insertIfNew f.name []
  let overloads := functions.getD f.name []
  if overloads.any fun known => known.parameterTypes == f.parameterTypes then (functions, false)
  else (functions.insert f.name (overloads ++ [f]), true)

/-- The maps behind a definition, and whether it was accepted. -/
def define (m : NameMaps) : Entry → NameMaps × Bool
  | .var name v =>
    if m.vars.contains name then (m, false)
    else ({ m with vars := m.vars.insert name v }, true)
  | .function f =>
    let (functions, accepted) := addOverload m.functions f
    ({ m with functions }, accepted)
  | .family g =>
    if m.families.contains g.name then (m, false)
    else ({ m with families := m.families.insert g.name g.resolve }, true)

def names (m : NameMaps) : List String :=
  (NameSet.ofList (m.vars.keys ++ m.functions.keys ++ m.families.keys)).names

def answers (m : NameMaps) : Answers where
  lookup name := m.vars[name]?
  exactly name types :=
    match m.functions[name]?.bind (fun fs => fs.find? fun f => f.parameterTypes == types) with
    | some f => some f
    | none => m.families[name]?.bind fun resolve => resolve types
  widened name types := m.functions[name]?.bind fun fs => fs.find? fun f => f.acceptsWidened types
  names := m.names
  count := m.functions.fold (fun total _ fs => total + fs.length) 0
  hasFamily name := m.families.contains name

end NameMaps

def Holdings.overloads (h : Holdings) (name : String) : List Function :=
  h.functions.filter fun f => f.name == name

/-- The maps have what is held in lists, and no entry without overloads. -/
structure NameMaps.Holds (m : NameMaps) (h : Holdings) : Prop where
  vars : ∀ name, m.vars[name]? = h.vars.lookup name
  functions : ∀ name, m.functions[name]? =
    if (h.overloads name).isEmpty then none else some (h.overloads name)
  families : ∀ name,
    m.families[name]? = (h.families.find? fun g => g.name == name).map Family.resolve

namespace NameMaps
variable {m : NameMaps} {h : Holdings} {e : Entry} {name : String} {types : List Ty}

theorem holds_empty : empty.Holds ⟨[], [], []⟩ :=
  ⟨fun _ => by simp [empty], fun _ => by simp [empty, Holdings.overloads],
    fun _ => by simp [empty]⟩

theorem Holds.getD (holds : m.Holds h) (name : String) :
    m.functions.getD name [] = h.overloads name := by
  rw [Std.HashMap.getD_eq_getD_getElem?, holds.functions]
  split
  · next none => exact (List.isEmpty_iff.1 none).symm
  · rfl

theorem Holds.find? (holds : m.Holds h) (name : String) (test : Function → Bool) :
    (m.functions[name]?.bind fun fs => fs.find? test) =
      h.functions.find? fun f => f.name == name && test f := by
  have found : (h.overloads name).find? test =
      h.functions.find? fun f => f.name == name && test f := by
    simp [Holdings.overloads, List.find?_filter, beq_eq_decide]
  rw [holds.functions, ← found]
  split
  · next none => rw [List.isEmpty_iff.1 none, List.find?_nil, Option.bind_none]
  · rfl

/-- Only overloads that are there already speak against a function, so that the entry which is made
before looking at them stays behind only with the function. -/
theorem addOverload_eq (functions : Std.HashMap String (List Function)) (f : Function) :
    (addOverload functions f).2 = !(functions.getD f.name []).any
        (fun known => known.parameterTypes == f.parameterTypes) ∧
      ∀ name, (addOverload functions f).1[name]? =
        if (addOverload functions f).2 = true ∧ f.name = name then
          some (functions.getD f.name [] ++ [f])
        else functions[name]? := by
  have made : (functions.insertIfNew f.name []).getD f.name [] = functions.getD f.name [] := by
    rw [Std.HashMap.getD_insertIfNew]
    split
    · next new => exact (Std.HashMap.getD_eq_fallback new.2).symm
    · rfl
  cases known : (functions.getD f.name []).any
      fun known => known.parameterTypes == f.parameterTypes with
  | true =>
    have there : f.name ∈ functions := by
      by_contra new
      rw [Std.HashMap.getD_eq_fallback new] at known
      cases known
    simp [addOverload, made, known, Std.HashMap.getElem?_insertIfNew, there]
  | false =>
    have did : addOverload functions f =
        ((functions.insertIfNew f.name []).insert f.name (functions.getD f.name [] ++ [f]),
          true) := by
      simp only [addOverload, made, known, Bool.false_eq_true, if_false]
    rw [did]
    refine ⟨rfl, fun name => ?_⟩
    by_cases same : f.name = name
    · simp [same]
    · simp [Std.HashMap.getElem?_insert, Std.HashMap.getElem?_insertIfNew, same]

/-- A definition that is refused leaves every entry as it was, and makes none. -/
theorem define_of_refused (refused : (m.define e).2 = false) (name : String) :
    (m.define e).1.vars[name]? = m.vars[name]? ∧
      (m.define e).1.functions[name]? = m.functions[name]? ∧
      (m.define e).1.families[name]? = m.families[name]? := by
  cases e with
  | var name' v =>
    by_cases taken : m.vars.contains name' = true
    · simp [define, taken]
    · simp [define, taken] at refused
  | function f =>
    have kept := (addOverload_eq m.functions f).2 name
    have refused : (addOverload m.functions f).2 = false := refused
    exact ⟨rfl, by simpa [define, refused] using kept, rfl⟩
  | family g =>
    by_cases taken : m.families.contains g.name = true
    · simp [define, taken]
    · simp [define, taken] at refused

end NameMaps

namespace Holdings
variable {h : Holdings} {e : Entry}

theorem has_var_iff {name : String} {v : Variable} :
    h.Has (.var name v) ↔ (h.vars.lookup name).isSome = true :=
  @Scope.has_var_iff ⟨h.vars, []⟩ name v

theorem has_function_iff {f : Function} : h.Has (.function f) ↔
    (h.overloads f.name).any (fun known => known.parameterTypes == f.parameterTypes) = true := by
  simp [Has, overloads, Function.key]

theorem has_family_iff {g : Family} :
    h.Has (.family g) ↔ (h.families.find? fun other => other.name == g.name).isSome = true := by
  simp [Has]

theorem overloads_add_function (h : Holdings) (f : Function) (name : String) :
    (h.add (.function f)).overloads name =
      if f.name = name then h.overloads name ++ [f] else h.overloads name := by
  by_cases same : f.name = name
  · simp [overloads, add, List.filter_append, same]
  · simp [overloads, add, List.filter_append, same]

def entries (h : Holdings) : List Entry :=
  h.vars.map (fun (name, v) => .var name v) ++ h.functions.map .function ++ h.families.map .family

theorem foldl_add_entries (h : Holdings) : h.entries.foldl add ⟨[], [], []⟩ = h := by
  have vars : ∀ (xs : List (String × Variable)) (k : Holdings),
      (xs.map fun (name, v) => Entry.var name v).foldl add k = { k with vars := k.vars ++ xs } := by
    intro xs
    induction xs with
    | nil => simp
    | cons x xs ih => simp [ih, add]
  have functions : ∀ (fs : List Function) (k : Holdings),
      (fs.map Entry.function).foldl add k = { k with functions := k.functions ++ fs } := by
    intro fs
    induction fs with
    | nil => simp
    | cons f fs ih => simp [ih, add]
  have families : ∀ (gs : List Family) (k : Holdings),
      (gs.map Entry.family).foldl add k = { k with families := k.families ++ gs } := by
    intro gs
    induction gs with
    | nil => simp
    | cons g gs ih => simp [ih, add]
  simp [entries, List.foldl_append, vars, functions, families]

end Holdings

namespace NameMaps
variable {m : NameMaps} {h : Holdings} {e : Entry}

theorem accepts_iff (holds : m.Holds h) : (m.define e).2 = true ↔ ¬h.Has e := by
  cases e with
  | var name v =>
    have same : m.vars.contains name = (h.vars.lookup name).isSome := by
      rw [← holds.vars, Std.HashMap.isSome_getElem?_eq_contains]
    rw [Holdings.has_var_iff, ← same]
    by_cases taken : m.vars.contains name = true
    · simp [define, taken]
    · simp [define, taken]
  | function f =>
    rw [Holdings.has_function_iff, ← holds.getD]
    simp [define, (addOverload_eq m.functions f).1]
  | family g =>
    have same : m.families.contains g.name =
        (h.families.find? fun other => other.name == g.name).isSome := by
      rw [← Std.HashMap.isSome_getElem?_eq_contains, holds.families, Option.isSome_map]
    rw [Holdings.has_family_iff, ← same]
    by_cases taken : m.families.contains g.name = true
    · simp [define, taken]
    · simp [define, taken]

theorem rejects_iff (holds : m.Holds h) : (m.define e).2 = false ↔ h.Has e := by
  rw [← Bool.not_eq_true, accepts_iff holds, not_not]

/-- The maps have what is held behind a definition as they had it before. -/
theorem holds_of_accepted (holds : m.Holds h) (accepted : (m.define e).2 = true) :
    (m.define e).1.Holds (h.add e) := by
  have free : ¬h.Has e := (accepts_iff holds).1 accepted
  cases e with
  | var name v =>
    have taken : ¬m.vars.contains name = true := by
      intro taken
      simp [define, taken] at accepted
    have did : m.define (.var name v) = ({ m with vars := m.vars.insert name v }, true) := by
      simp [define, taken]
    rw [did]
    refine ⟨fun asked => ?_, holds.functions, holds.families⟩
    have looked : (h.add (.var name v)).vars.lookup asked =
        if asked = name then some v else h.vars.lookup asked :=
      congrFun (Holdings.lookup_add free) asked
    rw [looked]
    by_cases same : asked = name
    · simp [same]
    · simp [same, Std.HashMap.getElem?_insert, Ne.symm same, holds.vars]
  | function f =>
    refine ⟨holds.vars, fun asked => ?_, holds.families⟩
    have accepted : (addOverload m.functions f).2 = true := accepted
    have placed := (addOverload_eq m.functions f).2 asked
    rw [holds.getD, holds.functions] at placed
    rw [Holdings.overloads_add_function]
    by_cases same : f.name = asked
    · subst same
      simpa [define, accepted] using placed
    · simpa [define, accepted, same] using placed
  | family g =>
    have taken : ¬m.families.contains g.name = true := by
      intro taken
      simp [define, taken] at accepted
    have did : m.define (.family g) =
        ({ m with families := m.families.insert g.name g.resolve }, true) := by
      simp [define, taken]
    rw [did]
    refine ⟨holds.vars, holds.functions, fun asked => ?_⟩
    by_cases same : g.name = asked
    · subst same
      have none := Option.not_isSome_iff_eq_none.1 (mt Holdings.has_family_iff.2 free)
      simp [Holdings.add, List.find?_append, none]
    · simp [Holdings.add, List.find?_append, Std.HashMap.getElem?_insert, holds.families, same]

theorem holds_of_refused (holds : m.Holds h) (refused : (m.define e).2 = false) :
    (m.define e).1.Holds h := by
  have kept := define_of_refused refused
  exact ⟨fun name => (kept name).1.trans (holds.vars name),
    fun name => (kept name).2.1.trans (holds.functions name),
    fun name => (kept name).2.2.trans (holds.families name)⟩

theorem exactly_eq (holds : m.Holds h) : m.answers.exactly = h.answers.exactly := by
  funext name types
  have overload := holds.find? name fun f => f.parameterTypes == types
  have family : (m.families[name]?.bind fun resolve => resolve types) =
      (h.families.find? fun g => g.name == name).bind fun g => g.resolve types := by
    rw [holds.families, Option.bind_map]
    rfl
  cases found : h.functions.find? (fun f => f.name == name && f.parameterTypes == types) with
  | some f => simp only [answers, Holdings.answers, overload, found]
  | none => simp only [answers, Holdings.answers, overload, family, found]

theorem widened_eq (holds : m.Holds h) : m.answers.widened = h.answers.widened := by
  funext name types
  exact holds.find? name fun f => f.acceptsWidened types

theorem mem_functions_iff (holds : m.Holds h) (name : String) :
    name ∈ m.functions ↔ name ∈ h.functions.map Function.name := by
  rw [Std.HashMap.mem_iff_isSome_getElem?, holds.functions]
  by_cases none : (h.overloads name).isEmpty = true
  · simp_all [Holdings.overloads]
  · simp_all [Holdings.overloads]

theorem names_eq (holds : m.Holds h) : m.answers.names = h.answers.names := by
  refine congrArg NameSet.names (NameSet.ofList_congr fun name => ?_)
  have vars : name ∈ m.vars ↔ name ∈ h.vars.map Prod.fst := by
    rw [Std.HashMap.mem_iff_isSome_getElem?, holds.vars]
    exact (Holdings.has_var_iff (h := h) (v := ⟨.logic, 0, 0⟩)).symm
  have families : name ∈ m.families ↔ name ∈ h.families.map Family.name := by
    rw [Std.HashMap.mem_iff_isSome_getElem?, holds.families, Option.isSome_map]
    exact (Holdings.has_family_iff (h := h) (g := ⟨name, fun _ => none⟩)).symm
  simp only [List.mem_append, Std.HashMap.mem_keys, vars, mem_functions_iff holds, families]

/-- Each function is counted with the overloads of its name. -/
theorem count_eq (holds : m.Holds h) : m.answers.count = h.answers.count := by
  let named := h.functions.map Function.name
  have overloads : ∀ entry ∈ m.functions.toList, entry.2.length = named.count entry.1 := by
    intro (name, fs) mem
    have found := Std.HashMap.mem_toList_iff_getElem?_eq_some.1 mem
    rw [holds.functions] at found
    split at found
    · cases found
    · cases found
      rw [List.count_eq_countP, List.countP_map, List.countP_eq_length_filter]
      rfl
  have keys : m.functions.keys.toFinset = named.toFinset := by
    ext name
    simp [named, mem_functions_iff holds]
  calc m.functions.fold (fun total _ fs => total + fs.length) 0
      = (m.functions.toList.map fun entry => entry.2.length).sum := by
        rw [Std.HashMap.fold_eq_foldl_toList, List.sum_eq_foldl, List.foldl_map]
    _ = (m.functions.keys.map fun name => named.count name).sum := by
        rw [List.map_congr_left overloads, ← Std.HashMap.map_fst_toList_eq_keys, List.map_map]
        rfl
    _ = ∑ name ∈ named.toFinset, named.count name := by
        rw [← keys, List.sum_toFinset _ Std.HashMap.nodup_keys]
    _ = h.functions.length := by
        rw [List.sum_toFinset_count_eq_length, List.length_map]

theorem answers_eq (holds : m.Holds h) : m.answers = h.answers := by
  have lookup : m.answers.lookup = h.answers.lookup := funext holds.vars
  have hasFamily : m.answers.hasFamily = h.answers.hasFamily := by
    funext name
    have same := congrArg Option.isSome (holds.families name)
    rwa [Std.HashMap.isSome_getElem?_eq_contains, Option.isSome_map] at same
  exact Answers.ext lookup (exactly_eq holds) (widened_eq holds) (names_eq holds) (count_eq holds)
    hasFamily

/-- The maps behind definitions that are asked for one after the other. -/
def defineAll (m : NameMaps) (entries : List Entry) : NameMaps :=
  entries.foldl (fun m e => (m.define e).1) m

theorem distinct_of_foldl {entries : List Entry} (h' : (entries.foldl Holdings.add h).Distinct) :
    h.Distinct := by
  induction entries generalizing h with
  | nil => exact h'
  | cons e entries ih => exact (Holdings.distinct_add_iff.1 (ih h')).1

theorem holds_defineAll {entries : List Entry} (holds : m.Holds h)
    (distinct : (entries.foldl Holdings.add h).Distinct) :
    (m.defineAll entries).Holds (entries.foldl Holdings.add h) := by
  induction entries generalizing m h with
  | nil => exact holds
  | cons e entries ih =>
    have free := (Holdings.distinct_add_iff.1 (distinct_of_foldl distinct)).2
    exact ih (holds_of_accepted holds ((accepts_iff holds).2 free)) distinct

end NameMaps

/-- The maps that have what is held, filled in the order of its definition. -/
def Holdings.byName (h : Holdings) : NameMaps := NameMaps.empty.defineAll h.entries

theorem Holdings.holds_byName {h : Holdings} (distinct : h.Distinct) : h.byName.Holds h := by
  have whole := foldl_add_entries h
  have filled : h.byName.Holds (h.entries.foldl add ⟨[], [], []⟩) :=
    NameMaps.holds_defineAll NameMaps.holds_empty (whole.symm ▸ distinct)
  rwa [whole] at filled

namespace NameMaps
variable {m : NameMaps}

/-- The maps behind a call, and whether something was registered. -/
def perform (m : NameMaps) (call : Library.Call) : NameMaps × Bool :=
  match call.asked? with
  | some e => m.define e
  | none => (m, false)

def after (m : NameMaps) (calls : List Library.Call) : NameMaps :=
  calls.foldl (fun m call => (m.perform call).1) m

theorem holds_perform {lib : Library} (holds : m.Holds lib.holdings) (call : Library.Call) :
    (m.perform call).2 = (lib.perform call).registered ∧
      (m.perform call).1.Holds (lib.perform call).library.holdings := by
  rcases lib.perform_cases call with ⟨e, asked, free, registered, added⟩ | ⟨taken, refused, same⟩
  · have accepted := (accepts_iff holds).2 free
    simp only [perform, asked, registered, added]
    exact ⟨accepted, holds_of_accepted holds accepted⟩
  · rw [refused, same]
    cases asked : call.asked? with
    | none =>
      simp only [perform, asked]
      exact ⟨trivial, holds⟩
    | some e =>
      have rejected := (rejects_iff holds).2 (taken e asked)
      simp only [perform, asked]
      exact ⟨rejected, holds_of_refused holds rejected⟩

theorem holds_after {lib : Library} (holds : m.Holds lib.holdings) (calls : List Library.Call) :
    (m.after calls).Holds (lib.after calls).holdings := by
  induction calls generalizing m lib with
  | nil => exact holds
  | cons call calls ih => exact ih (holds_perform holds call).2

theorem holds_define_scope {scope : Scope} (holds : m.Holds scope.holdings)
    (d : Scope.Definition) :
    (m.define d.entry).2 = (scope.define d).2 ∧
      (m.define d.entry).1.Holds (scope.define d).1.holdings := by
  rcases scope.define_cases d with ⟨free, registered, added⟩ | ⟨taken, same⟩
  · have accepted := (accepts_iff holds).2 free
    rw [registered, added]
    exact ⟨accepted, holds_of_accepted holds accepted⟩
  · have rejected := (rejects_iff holds).2 taken
    rw [same]
    exact ⟨rejected, holds_of_refused holds rejected⟩

theorem holds_after_scope {scope : Scope} (holds : m.Holds scope.holdings)
    (definitions : List Scope.Definition) :
    (m.defineAll (definitions.map Scope.Definition.entry)).Holds
      (scope.after definitions).holdings := by
  induction definitions generalizing m scope with
  | nil => exact holds
  | cons d definitions ih => exact ih (holds_define_scope holds d).2

end NameMaps

/-- A library kept by name registers the same and answers the same as one that is kept in lists,
whatever was called before. -/
theorem library_by_name (outside : Outside) (start : Library)
    (initial : start = .empty ∨ start = .standard outside) (calls : List Library.Call) :
    (start.holdings.byName.after calls).answers = (start.after calls).answers ∧
      ∀ call, ((start.holdings.byName.after calls).perform call).2 =
        ((start.after calls).perform call).registered := by
  have distinct : start.holdings.Distinct := by
    rcases initial with rfl | rfl
    · exact Library.distinct_empty
    · exact Library.distinct_standard outside
  have holds := NameMaps.holds_after (Holdings.holds_byName distinct) calls
  refine ⟨?_, fun call => (NameMaps.holds_perform holds call).1⟩
  rw [NameMaps.answers_eq holds, Library.answers_eq]

/-- The same for a scope. -/
theorem scope_by_name (definitions : List Scope.Definition) :
    let m := NameMaps.empty.defineAll (definitions.map Scope.Definition.entry)
    m.answers = (Scope.empty.after definitions).answers ∧
      ∀ d : Scope.Definition,
        (m.define d.entry).2 = ((Scope.empty.after definitions).define d).2 := by
  have start : NameMaps.empty.Holds Scope.empty.holdings := NameMaps.holds_empty
  have holds := NameMaps.holds_after_scope start definitions
  refine ⟨?_, fun d => (NameMaps.holds_define_scope holds d).1⟩
  rw [NameMaps.answers_eq holds, Scope.answers_eq]

end CursorScript
