import CursorScript.Proofs.Definitions
import CursorScript.Proofs.LibraryTyping

/-!
Which overload a call means. The overloads that can be seen are those of each scope, from the
innermost outward, then those of the library with a fixed signature, and last the one that a family
of the library makes for the arguments. A call means the nearest overload for exactly its argument
types; if there is none, it means the first in the nearest scope that takes them.
-/
namespace CursorScript

/-- The first of the functions that fit, in the nearest of some scopes that has one. -/
inductive Chosen (fits : Function → Prop) : List (List Function) → Function → Prop
  | here {f : Function} {before behind : List Function} {outer : List (List Function)}
      (fit : fits f) (first : ∀ g ∈ before, ¬fits g) :
      Chosen fits ((before ++ f :: behind) :: outer) f
  | outward {f : Function} {scope : List Function} {outer : List (List Function)}
      (none : ∀ g ∈ scope, ¬fits g) (further : Chosen fits outer f) :
      Chosen fits (scope :: outer) f

namespace Chosen

variable {fits : Function → Prop} {scopes : List (List Function)} {f : Function}

theorem holds (h : Chosen fits scopes f) : fits f := by
  induction h with
  | here fit _ => exact fit
  | outward _ _ ih => exact ih

theorem mem (h : Chosen fits scopes f) : ∃ scope ∈ scopes, f ∈ scope := by
  induction h with
  | here _ _ => exact ⟨_, List.mem_cons_self, by simp⟩
  | outward _ _ ih =>
    obtain ⟨scope, mem, here⟩ := ih
    exact ⟨scope, List.mem_cons_of_mem _ mem, here⟩

end Chosen

/-- The search from scope to scope finds the nearest function that fits. -/
theorem chosen_iff {fits : Function → Bool} {scopes : List (List Function)} {f : Function} :
    Chosen (fits · = true) scopes f ↔
      (scopes.findSome? fun scope => scope.find? fits) = some f := by
  constructor
  · intro h
    induction h with
    | @here f before behind outer fit first =>
      have found : (before ++ f :: behind).find? fits = some f :=
        List.find?_eq_some_iff_append.2 ⟨fit, before, behind, rfl, by simpa using first⟩
      rw [List.findSome?_cons, found]
    | outward none _ ih =>
      rw [List.findSome?_cons, List.find?_eq_none.2 none]
      exact ih
  · intro h
    induction scopes with
    | nil => cases h
    | cons scope outer ih =>
      rw [List.findSome?_cons] at h
      split at h
      · next g found =>
        cases h
        obtain ⟨fit, before, behind, rfl, first⟩ := List.find?_eq_some_iff_append.1 found
        exact .here fit fun g mem => by simpa using first g mem
      · next missing => exact .outward (List.find?_eq_none.1 missing) (ih h)

theorem findSome?_eq_none_iff {fits : Function → Bool} {scopes : List (List Function)} :
    (scopes.findSome? fun scope => scope.find? fits) = none ↔
      ∀ scope ∈ scopes, ∀ g ∈ scope, ¬fits g = true := by
  simp [List.findSome?_eq_none_iff, List.find?_eq_none]

namespace Function

/-- The function has the name, and parameters of just these types. -/
def isExact (name : String) (arguments : List Ty) (f : Function) : Bool :=
  f.name == name && f.parameterTypes == arguments

def isFit (name : String) (arguments : List Ty) (f : Function) : Bool :=
  f.name == name && f.acceptsWidened arguments

/-- The function has the name, and each of its parameters accepts the argument in its place. -/
def Fits (f : Function) (name : String) (arguments : List Ty) : Prop :=
  f.name = name ∧ f.Takes arguments

variable {name : String} {arguments : List Ty} {f : Function}

theorem isExact_iff : f.isExact name arguments = true ↔ f.key = (name, arguments) := by
  simp [isExact, key]

theorem acceptsWidened_iff : f.acceptsWidened arguments = true ↔ f.Takes arguments := by
  refine ⟨takes_of_acceptsWidened, fun takes => ?_⟩
  have same := takes.length_eq
  simp only [acceptsWidened, Bool.and_eq_true, decide_eq_true_eq, List.all_eq_true]
  exact ⟨same, fun pair mem => (List.forall₂_iff_zip.1 takes).2 mem⟩

theorem isFit_iff : f.isFit name arguments = true ↔ f.Fits name arguments := by
  simp [isFit, Fits, acceptsWidened_iff]

/-- What is declared for the argument types takes them. -/
theorem fits_of_key (h : f.key = (name, arguments)) : f.Fits name arguments := by
  obtain ⟨rfl, rfl⟩ := Prod.mk.inj h
  exact ⟨rfl, f.takes_self⟩

def firsts : List Function → List Function
  | [] => []
  | f :: fs => f :: (firsts fs).filter fun g => g.key ≠ f.key

theorem firsts_eq_self {fs : List Function} (nodup : (fs.map key).Nodup) : firsts fs = fs := by
  induction fs with
  | nil => rfl
  | cons f fs ih =>
    obtain ⟨other, nodup⟩ := List.nodup_cons.1 nodup
    rw [firsts, ih nodup, List.filter_eq_self.2]
    intro g mem
    have differs : g.key ≠ f.key := fun same => other (same ▸ List.mem_map_of_mem mem)
    exact decide_eq_true differs

end Function

/-- Where keys differ, what is found by its key is what has it, in whatever order. -/
theorem find?_eq_some_iff_of_nodup {α β : Type} {key : α → β} {p : α → Bool} {k : β} {xs : List α}
    (nodup : (xs.map key).Nodup) (tests : ∀ x, p x = true ↔ key x = k) {x : α} :
    xs.find? p = some x ↔ x ∈ xs ∧ key x = k := by
  constructor
  · intro found
    exact ⟨List.mem_of_find?_eq_some found, (tests x).1 (List.find?_some found)⟩
  · rintro ⟨mem, rfl⟩
    obtain ⟨y, found⟩ := Option.isSome_iff_exists.1
      (List.find?_isSome.2 ⟨x, mem, (tests x).2 rfl⟩)
    have same := (tests y).1 (List.find?_some found)
    rw [found, List.inj_on_of_nodup_map nodup (List.mem_of_find?_eq_some found) mem same]

namespace Ty

variable {element key value actual : Ty}

theorem isPseudo_of_accepts {expected : Ty} (h : expected.accepts actual = true) :
    actual.isPseudo = expected.isPseudo := by
  unfold accepts at h
  split at h
  · rfl
  · rw [eq_of_beq h]

theorem eq_of_accepts_list (h : (list element).accepts actual = true) : actual = list element := by
  simp only [accepts, beq_iff_eq] at h
  exact h.symm

theorem eq_of_accepts_map (h : (map key value).accepts actual = true) : actual = map key value := by
  simp only [accepts, beq_iff_eq] at h
  exact h.symm

end Ty

/-- If an overload of the family takes some arguments, there is one for just these. -/
def Family.Closed (g : Family) : Prop :=
  ∀ types arguments, (g.resolve types).isSome = true →
    List.Forall₂ (fun expected actual => Ty.accepts expected actual = true) types arguments →
    (g.resolve arguments).isSome = true

namespace Library

variable {types : List Ty}

theorem resolve_print_isSome : (printFamily.resolve types).isSome = true ↔
    ∃ type, types = [type] ∧ type.isPseudo = false := by
  simp only [printFamily]
  split
  · simp
  · next other => simpa using fun type same => absurd same (other type)

theorem resolve_size_isSome : (sizeFamily.resolve types).isSome = true ↔
    (∃ element, types = [.list element]) ∨ ∃ key value, types = [.map key value] := by
  simp only [sizeFamily]
  split
  · simp
  · simp
  · next list map => simpa using ⟨list, map⟩

theorem resolve_append_isSome : (appendFamily.resolve types).isSome = true ↔
    ∃ element item, types = [.list element, item] ∧ element.accepts item = true := by
  simp only [appendFamily]
  split
  · simp
  · next other => simpa using fun element item same => absurd same (other element item)

theorem resolve_hasKey_isSome : (hasKeyFamily.resolve types).isSome = true ↔
    ∃ key value candidate, types = [.map key value, candidate] ∧ key.accepts candidate = true := by
  simp only [hasKeyFamily]
  split
  · simp
  · next other =>
    simpa using fun key value candidate same => absurd same (other key value candidate)

theorem resolve_keys_isSome : (keysFamily.resolve types).isSome = true ↔
    ∃ key value, types = [.map key value] := by
  simp only [keysFamily]
  split
  · simp
  · next other => simpa using other

/-- An overload of a family has the family's name and the types that it was asked for. -/
theorem key_collections : ∀ g ∈ collections, ∀ types f, g.resolve types = some f →
    f.key = (g.name, types) := by
  intro g mem types f resolved
  have named : f.name = g.name := by
    simp only [collections, List.mem_cons, List.not_mem_nil, or_false] at mem
    rcases mem with rfl | rfl | rfl | rfl | rfl
    · grind [printFamily, familyMember]
    · grind [sizeFamily, familyMember]
    · grind [appendFamily, familyMember]
    · grind [hasKeyFamily, familyMember]
    · grind [keysFamily, familyMember]
  exact Prod.ext named (sound_collections g mem types f resolved).1

theorem closed_print : printFamily.Closed := by
  intro types arguments h takes
  obtain ⟨type, rfl, proper⟩ := resolve_print_isSome.1 h
  cases takes with
  | cons accepts none =>
    cases none
    exact resolve_print_isSome.2 ⟨_, rfl, Ty.isPseudo_of_accepts accepts ▸ proper⟩

theorem closed_size : sizeFamily.Closed := by
  intro types arguments h takes
  rw [resolve_size_isSome] at h ⊢
  rcases h with ⟨element, rfl⟩ | ⟨key, value, rfl⟩
  · cases takes with
    | cons accepts none =>
      cases none
      exact .inl ⟨element, by rw [Ty.eq_of_accepts_list accepts]⟩
  · cases takes with
    | cons accepts none =>
      cases none
      exact .inr ⟨key, value, by rw [Ty.eq_of_accepts_map accepts]⟩

theorem closed_append : appendFamily.Closed := by
  intro types arguments h takes
  obtain ⟨element, item, rfl, fits⟩ := resolve_append_isSome.1 h
  cases takes with
  | cons list takes =>
    cases takes with
    | cons accepts none =>
      cases none
      cases Ty.eq_of_accepts_list list
      exact resolve_append_isSome.2 ⟨element, _, rfl, Ty.accepts_trans fits accepts⟩

theorem closed_hasKey : hasKeyFamily.Closed := by
  intro types arguments h takes
  obtain ⟨key, value, candidate, rfl, fits⟩ := resolve_hasKey_isSome.1 h
  cases takes with
  | cons map takes =>
    cases takes with
    | cons accepts none =>
      cases none
      cases Ty.eq_of_accepts_map map
      exact resolve_hasKey_isSome.2 ⟨key, value, _, rfl, Ty.accepts_trans fits accepts⟩

theorem closed_keys : keysFamily.Closed := by
  intro types arguments h takes
  obtain ⟨key, value, rfl⟩ := resolve_keys_isSome.1 h
  cases takes with
  | cons accepts none =>
    cases none
    exact resolve_keys_isSome.2 ⟨key, value, by rw [Ty.eq_of_accepts_map accepts]⟩

theorem closed_collections : ∀ g ∈ collections, g.Closed := by
  simp only [collections, List.forall_mem_cons]
  exact ⟨closed_print, closed_size, closed_append, closed_hasKey, closed_keys, by simp⟩

/-- A library whose keys differ and whose families keep to what they are asked for. -/
structure Regular (lib : Library) : Prop where
  distinct : lib.holdings.Distinct
  key : ∀ g ∈ lib.families, ∀ types f, g.resolve types = some f → f.key = (g.name, types)
  closed : ∀ g ∈ lib.families, g.Closed

theorem regular_standard (outside : Outside) : (standard outside).Regular :=
  ⟨distinct_standard outside, key_collections, closed_collections⟩

def made (lib : Library) (name : String) (arguments : List Ty) : List Function :=
  ((lib.family? name).bind fun g => g.resolve arguments).toList

variable {lib : Library} {name : String} {arguments : List Ty}

theorem mem_made_iff (regular : lib.Regular) {f : Function} :
    f ∈ lib.made name arguments ↔
      ∃ g ∈ lib.families, g.name = name ∧ g.resolve arguments = some f := by
  have found : ∀ {g}, lib.family? name = some g ↔ g ∈ lib.families ∧ g.name = name :=
    find?_eq_some_iff_of_nodup regular.distinct.families fun _ => beq_iff_eq
  simp only [made, Option.mem_toList, Option.bind_eq_some_iff, found, and_assoc]

theorem key_of_mem_made (regular : lib.Regular) {f : Function} (h : f ∈ lib.made name arguments) :
    f.key = (name, arguments) := by
  obtain ⟨g, mem, rfl, resolved⟩ := (mem_made_iff regular).1 h
  exact regular.key g mem arguments f resolved

/-- An overload of a family that takes the arguments is not needed for them, as the family makes one
for just these. -/
theorem exists_mem_made (regular : lib.Regular) {g : Family} {types : List Ty} {f : Function}
    (mem : g ∈ lib.families) (resolved : g.resolve types = some f) (fits : f.Fits name arguments) :
    ∃ f', f' ∈ lib.made name arguments := by
  obtain ⟨named, takes⟩ := fits
  obtain ⟨same, rfl⟩ := Prod.mk.inj (regular.key g mem types f resolved)
  have answers := regular.closed g mem _ arguments (Option.isSome_of_mem resolved) takes
  obtain ⟨f', resolved'⟩ := Option.isSome_iff_exists.1 answers
  exact ⟨f', (mem_made_iff regular).2 ⟨g, mem, same.symm.trans named, resolved'⟩⟩

/-- A function with a fixed signature comes before a family. -/
theorem function?_eq (regular : lib.Regular) :
    lib.function? name arguments =
      [lib.natives, lib.made name arguments].findSome? fun level =>
        level.find? (Function.isExact name arguments) := by
  have exact : ∀ f ∈ lib.made name arguments, f.isExact name arguments = true :=
    fun f mem => Function.isExact_iff.2 (key_of_mem_made regular mem)
  have last : (lib.made name arguments).find? (Function.isExact name arguments) =
      (lib.family? name).bind fun g => g.resolve arguments := by
    unfold made at exact ⊢
    cases answer : (lib.family? name).bind fun g => g.resolve arguments with
    | none => rfl
    | some f =>
      rw [answer] at exact
      exact List.find?_cons_of_pos (exact f (by simp))
  rw [List.findSome?_cons, List.findSome?_singleton, last]
  unfold function? Function.isExact
  split
  · next found => rw [found]
  · next missing => rw [missing]

end Library

namespace ScopeChain

/-- The overloads that a call can see, scope by scope from the innermost. -/
def overloads (chain : ScopeChain) (name : String) (arguments : List Ty) : List (List Function) :=
  chain.scopes.map Scope.functions ++ [chain.library.natives, chain.library.made name arguments]

/-- All that can be called from a chain: the functions of its scopes, those of the library with a
fixed signature, and whatever a family can make. -/
def Offers (chain : ScopeChain) (f : Function) : Prop :=
  (∃ scope ∈ chain.scopes, f ∈ scope.functions) ∨ f ∈ chain.library.natives ∨
    ∃ g ∈ chain.library.families, ∃ types, g.resolve types = some f

variable {chain : ScopeChain} {name : String} {arguments : List Ty} {f : Function}

theorem exactly?_eq (regular : chain.library.Regular) :
    chain.exactly? name arguments =
      (chain.overloads name arguments).findSome? fun level =>
        level.find? (Function.isExact name arguments) := by
  rw [exactly?, overloads, List.findSome?_append, List.findSome?_map,
    Library.function?_eq regular]
  rfl

/-- Families play no part where literal types are widened. -/
theorem widened?_eq (regular : chain.library.Regular)
    (none : ∀ level ∈ chain.overloads name arguments, ∀ g ∈ level, g.key ≠ (name, arguments)) :
    chain.widened? name arguments =
      (chain.overloads name arguments).findSome? fun level =>
        level.find? (Function.isFit name arguments) := by
  -- A family answers for just the arguments or not at all, so here it adds nothing.
  have unmade : chain.library.made name arguments = [] := by
    refine List.eq_nil_iff_forall_not_mem.2 fun f mem => ?_
    exact none _ (by simp [overloads]) f mem (Library.key_of_mem_made regular mem)
  have last : ([chain.library.natives, []].findSome? fun level =>
      level.find? (Function.isFit name arguments)) = chain.library.widened? name arguments := by
    rw [List.findSome?_cons]
    split
    · next found => exact found.symm
    · next missing => exact missing.symm
  rw [widened?, overloads, List.findSome?_append, List.findSome?_map, unmade, last]
  rfl

theorem exactly?_eq_some_iff (regular : chain.library.Regular) :
    chain.exactly? name arguments = some f ↔
      Chosen (·.key = (name, arguments)) (chain.overloads name arguments) f := by
  simp only [exactly?_eq regular, ← chosen_iff, Function.isExact_iff]

theorem exactly?_eq_none_iff (regular : chain.library.Regular) :
    chain.exactly? name arguments = none ↔
      ∀ level ∈ chain.overloads name arguments, ∀ g ∈ level, g.key ≠ (name, arguments) := by
  simp only [exactly?_eq regular, findSome?_eq_none_iff, Function.isExact_iff, ne_eq]

/-- A call means the nearest overload for just its arguments, and without one the first that fits in
the nearest scope that has any. -/
theorem function?_eq_some_iff (regular : chain.library.Regular) :
    chain.function? name arguments = some f ↔
      Chosen (·.key = (name, arguments)) (chain.overloads name arguments) f ∨
      ((∀ level ∈ chain.overloads name arguments, ∀ g ∈ level, g.key ≠ (name, arguments)) ∧
        Chosen (·.Fits name arguments) (chain.overloads name arguments) f) := by
  rw [function?, Option.or_eq_some_iff, exactly?_eq_some_iff regular, exactly?_eq_none_iff regular]
  refine or_congr_right (and_congr_right fun none => ?_)
  simp only [widened?_eq regular none, ← chosen_iff, Function.isFit_iff]

/-- What a call means is among the overloads that it can see, and takes its arguments. -/
theorem fits_of_function? (regular : chain.library.Regular)
    (h : chain.function? name arguments = some f) :
    f.Fits name arguments ∧ ∃ level ∈ chain.overloads name arguments, f ∈ level := by
  rcases (function?_eq_some_iff regular).1 h with exact | ⟨_, fit⟩
  · exact ⟨Function.fits_of_key exact.holds, exact.mem⟩
  · exact ⟨fit.holds, fit.mem⟩

theorem offers_of_mem (regular : chain.library.Regular)
    (h : ∃ level ∈ chain.overloads name arguments, f ∈ level) : chain.Offers f := by
  simp only [overloads, List.mem_append, List.mem_map, List.mem_cons, List.not_mem_nil,
    or_false] at h
  obtain ⟨_, ⟨scope, mem, rfl⟩ | rfl | rfl, here⟩ := h
  · exact .inl ⟨scope, mem, here⟩
  · exact .inr (.inl here)
  · obtain ⟨g, mem, _, resolved⟩ := (Library.mem_made_iff regular).1 here
    exact .inr (.inr ⟨g, mem, arguments, resolved⟩)

/-- If anything that can be called fits, so does something among the overloads. -/
theorem exists_mem_of_offers (regular : chain.library.Regular) (offers : chain.Offers f)
    (fits : f.Fits name arguments) :
    ∃ level ∈ chain.overloads name arguments, ∃ g ∈ level, g.Fits name arguments := by
  rcases offers with ⟨scope, mem, here⟩ | here | ⟨g, mem, types, resolved⟩
  · exact ⟨scope.functions, by simpa [overloads] using .inl ⟨scope, mem, rfl⟩, f, here, fits⟩
  · exact ⟨_, by simp [overloads], f, here, fits⟩
  · obtain ⟨f', here⟩ := Library.exists_mem_made regular mem resolved fits
    exact ⟨_, by simp [overloads], f', here,
      Function.fits_of_key (Library.key_of_mem_made regular here)⟩

/-- A call means nothing only if nothing that can be called fits. -/
theorem function?_eq_none_iff (regular : chain.library.Regular) :
    chain.function? name arguments = none ↔ ∀ f, chain.Offers f → ¬f.Fits name arguments := by
  constructor
  · intro none f offers fits
    obtain ⟨unequal, unfit⟩ := Option.or_eq_none_iff.1 none
    rw [widened?_eq regular ((exactly?_eq_none_iff regular).1 unequal),
      findSome?_eq_none_iff] at unfit
    obtain ⟨level, mem, g, here, fit⟩ := exists_mem_of_offers regular offers fits
    exact unfit level mem g here (Function.isFit_iff.2 fit)
  · intro unfit
    refine Option.eq_none_iff_forall_ne_some.2 fun f found => ?_
    obtain ⟨fits, seen⟩ := fits_of_function? regular found
    exact unfit f (offers_of_mem regular seen) fits

end ScopeChain

namespace Scope

def Definition.function? : Definition → Option Function
  | .var .. => none
  | .function f => some f

def functionsOf (ds : List Definition) : List Function := ds.filterMap Definition.function?

/-- The same definitions in another order, and no two of them for the same overload. -/
def Reordered (ds es : List Definition) : Prop :=
  ds.Perm es ∧ ((functionsOf ds).map Function.key).Nodup

theorem functionsOf_function (f : Function) (ds : List Definition) :
    functionsOf (.function f :: ds) = f :: functionsOf ds := rfl

theorem functions_define_var (scope : Scope) (name : String) (v : Variable) :
    (scope.define (.var name v)).1.functions = scope.functions := by
  rcases scope.define_cases (.var name v) with ⟨_, _, added⟩ | ⟨_, same⟩
  · exact congrArg Holdings.functions added
  · rw [same]

/-- The functions of a scope are the ones that were there, and the first definition of each other
overload. -/
theorem functions_after (scope : Scope) (ds : List Definition) :
    (scope.after ds).functions = scope.functions ++
      (Function.firsts (functionsOf ds)).filter fun f =>
        f.key ∉ scope.functions.map Function.key := by
  -- The scope is arbitrary, as each definition leaves more keys that the later ones find taken.
  induction ds generalizing scope with
  | nil => simp [after, functionsOf, Function.firsts]
  | cons d ds ih =>
    change ((scope.define d).1.after ds).functions = _
    rw [ih]
    cases d with
    | var name v =>
      rw [functions_define_var]
      rfl
    | function f =>
      rcases scope.define_cases (.function f) with ⟨free, _, added⟩ | ⟨taken, same⟩
      · have kept : (scope.define (.function f)).1.functions = scope.functions ++ [f] :=
          congrArg Holdings.functions added
        have fresh : f.key ∉ scope.functions.map Function.key := free
        rw [functionsOf_function, Function.firsts, List.filter_cons_of_pos (by simpa using fresh),
          kept, List.filter_filter, List.append_assoc]
        simp [Bool.and_comm]
      · have known : f.key ∈ scope.functions.map Function.key := taken
        rw [functionsOf_function, Function.firsts, List.filter_cons_of_neg (by simpa using known),
          same, List.filter_filter]
        congr 1
        refine List.filter_congr fun g _ => ?_
        have differs : g.key ∉ scope.functions.map Function.key → g.key ≠ f.key :=
          fun unknown eq => unknown (eq ▸ known)
        simpa using differs

theorem functions_after_empty (ds : List Definition) :
    (empty.after ds).functions = Function.firsts (functionsOf ds) := by
  rw [functions_after]
  simp [empty]

/-- The order of definitions does not matter where an overload is looked up. -/
theorem function?_after_reordered {ds es : List Definition} (reordered : Reordered ds es)
    (name : String) (arguments : List Ty) :
    (empty.after es).function? name arguments = (empty.after ds).function? name arguments := by
  obtain ⟨perm, nodup⟩ := reordered
  have moved : (functionsOf ds).Perm (functionsOf es) := perm.filterMap _
  have nodup' := (moved.map Function.key).nodup_iff.1 nodup
  have find : ∀ {fs : List Function}, (fs.map Function.key).Nodup → ∀ {f},
      fs.find? (Function.isExact name arguments) = some f ↔ f ∈ fs ∧ f.key = (name, arguments) :=
    fun nodup => find?_eq_some_iff_of_nodup nodup fun _ => Function.isExact_iff
  have all : (empty.after ds).functions = functionsOf ds := by
    rw [functions_after_empty, Function.firsts_eq_self nodup]
  have all' : (empty.after es).functions = functionsOf es := by
    rw [functions_after_empty, Function.firsts_eq_self nodup']
  refine Option.ext fun f => ?_
  change (empty.after es).functions.find? (Function.isExact name arguments) = some f ↔
    (empty.after ds).functions.find? (Function.isExact name arguments) = some f
  rw [all, all', find nodup, find nodup', moved.mem_iff]

end Scope

namespace ScopeChain

/-- A change to a chain of scopes. -/
inductive Edit where
  | push
  | pop
  | define (d : Scope.Definition)

def attempt? (chain : ScopeChain) : Scope.Definition → Option ScopeChain
  | .var name v => chain.addVariable? name v
  | .function f => chain.addFunction? f

def edit (chain : ScopeChain) : Edit → ScopeChain
  | .push => chain.push
  | .pop => chain.pop
  | .define d => (chain.attempt? d).getD chain

/-- The chain on the standard library behind some changes. -/
def built (outside : Outside) (edits : List Edit) : ScopeChain :=
  edits.foldl edit (base (.standard outside))

/-- What a change does to the definitions that were made in each open scope, the innermost first. -/
def Edit.note (notes : List (List Scope.Definition)) : Edit → List (List Scope.Definition)
  | .push => [] :: notes
  | .pop => notes.tail
  | .define d =>
    match notes with
    | [] => [[d]]
    | ds :: outer => (ds ++ [d]) :: outer

/-- The definitions that were made in each of the scopes that changes leave open. -/
def opened (edits : List Edit) : List (List Scope.Definition) := edits.foldl Edit.note []

theorem edit_eq (notes : List (List Scope.Definition)) (library : Library) (e : Edit) :
    edit ⟨notes.map Scope.empty.after, library⟩ e =
      ⟨(e.note notes).map Scope.empty.after, library⟩ := by
  cases e with
  | push => rfl
  | pop => simp [edit, pop, Edit.note]
  | define d =>
    cases notes with
    | nil => cases d <;> rfl
    | cons ds outer =>
      have last : Scope.empty.after (ds ++ [d]) = ((Scope.empty.after ds).define d).1 := by
        rw [Scope.after_append]
        rfl
      have attempted : attempt? ⟨(ds :: outer).map Scope.empty.after, library⟩ d =
          ((Scope.empty.after ds).attempt? d).map fun scope =>
            ⟨scope :: outer.map Scope.empty.after, library⟩ := by
        cases d <;> rfl
      rw [edit, attempted, Edit.note, List.map_cons, List.map_cons, last, Scope.define]
      cases (Scope.empty.after ds).attempt? d <;> rfl

/-- Each scope of a chain is what its own definitions make of an empty one. -/
theorem built_eq (outside : Outside) (edits : List Edit) :
    built outside edits = ⟨(opened edits).map Scope.empty.after, .standard outside⟩ := by
  have run : ∀ (edits : List Edit) (notes : List (List Scope.Definition)),
      edits.foldl edit ⟨notes.map Scope.empty.after, .standard outside⟩ =
        ⟨(edits.foldl Edit.note notes).map Scope.empty.after, .standard outside⟩ := by
    intro edits
    induction edits with
    | nil => exact fun _ => rfl
    | cons e edits ih =>
      intro notes
      rw [List.foldl_cons, List.foldl_cons, edit_eq, ih]
  exact run edits []

theorem regular_built (outside : Outside) (edits : List Edit) : (built outside edits).library.Regular := by
  rw [built_eq]
  exact Library.regular_standard outside

/-- A scope has no more than one overload for given arguments. -/
theorem overload_unique (outside : Outside) (edits : List Edit) {name : String} {arguments : List Ty}
    {level : List Function} (mem : level ∈ (built outside edits).overloads name arguments) {f g : Function}
    (hf : f ∈ level) (hg : g ∈ level) (same : f.key = g.key) : f = g := by
  simp only [overloads, built_eq, List.map_map, List.mem_append, List.mem_map, List.mem_cons,
    List.not_mem_nil, or_false] at mem
  obtain ⟨ds, _, rfl⟩ | rfl | rfl := mem
  · have distinct := Scope.distinct_after Scope.distinct_empty ds
    exact List.inj_on_of_nodup_map distinct.functions hf hg same
  · exact List.inj_on_of_nodup_map (Library.distinct_standard outside).functions hf hg same
  · rw [Library.made, Option.mem_toList] at hf hg
    exact Option.mem_unique hf hg

/-- Two chains whose scopes have the same definitions, but for the order of overloads, have the same
overload for given arguments. -/
theorem exactly?_reordered (outside : Outside) {edits edits' : List Edit}
    (reordered : List.Forall₂ (fun ds es => ds = es ∨ Scope.Reordered ds es) (opened edits)
      (opened edits')) (name : String) (arguments : List Ty) :
    (built outside edits').exactly? name arguments = (built outside edits).exactly? name arguments := by
  simp only [exactly?, built_eq, List.findSome?_map]
  congr 1
  generalize opened edits = notes, opened edits' = notes' at reordered
  induction reordered with
  | nil => rfl
  | @cons ds es outer outer' same _ ih =>
    have here : (Scope.empty.after es).function? name arguments =
        (Scope.empty.after ds).function? name arguments := by
      rcases same with rfl | reordered
      · rfl
      · exact Scope.function?_after_reordered reordered name arguments
    simp only [List.findSome?_cons, Function.comp_apply, here, ih]

/-- Which overload a call means, in every chain of scopes that can be built on the standard library.
The call sees the first definition of each overload in each open scope, then the library, where what
a family makes comes last. It means the nearest overload for just its arguments, of which a scope
has no more than one. If there is none, it means the first that takes the arguments in the nearest
scope that has one; and it means nothing only if nothing at all takes them. What it means has a
parameter for each argument, which accepts it. If there is an overload for just the arguments, the
order of the definitions in a scope does not matter. -/
theorem overloads_resolved (outside : Outside) (edits : List Edit) (name : String)
    (arguments : List Ty) :
    (built outside edits).overloads name arguments =
      (opened edits).map (fun ds => Function.firsts (Scope.functionsOf ds)) ++
        [(Library.standard outside).natives, (Library.standard outside).made name arguments] ∧
    (∀ f, (built outside edits).function? name arguments = some f ↔
      Chosen (·.key = (name, arguments)) ((built outside edits).overloads name arguments) f ∨
      ((∀ level ∈ (built outside edits).overloads name arguments, ∀ g ∈ level,
          g.key ≠ (name, arguments)) ∧
        Chosen (·.Fits name arguments) ((built outside edits).overloads name arguments) f)) ∧
    (∀ level ∈ (built outside edits).overloads name arguments, ∀ f ∈ level, ∀ g ∈ level,
      f.key = g.key → f = g) ∧
    ((built outside edits).function? name arguments = none ↔
      ∀ f, (built outside edits).Offers f → ¬f.Fits name arguments) ∧
    (∀ f, (built outside edits).function? name arguments = some f →
      f.name = name ∧ f.parameterTypes.length = arguments.length ∧
      List.Forall₂ (fun expected actual => Ty.accepts expected actual = true)
        f.parameterTypes arguments) ∧
    ∀ edits', List.Forall₂ (fun ds es => ds = es ∨ Scope.Reordered ds es) (opened edits)
        (opened edits') →
      (∃ level ∈ (built outside edits).overloads name arguments, ∃ f ∈ level, f.key = (name, arguments)) →
      (built outside edits').function? name arguments = (built outside edits).function? name arguments := by
  have regular := regular_built outside edits
  refine ⟨?_, fun f => function?_eq_some_iff regular, fun level mem f hf g hg same =>
    overload_unique outside edits mem hf hg same, function?_eq_none_iff regular, fun f found => ?_,
    fun edits' reordered exact => ?_⟩
  · simp only [overloads, built_eq, List.map_map, Function.comp_def, Scope.functions_after_empty]
  · obtain ⟨⟨named, takes⟩, _⟩ := fits_of_function? regular found
    exact ⟨named, takes.length_eq, takes⟩
  · have found : (built outside edits).exactly? name arguments ≠ none := by
      rw [Ne, exactly?_eq_none_iff regular]
      obtain ⟨level, mem, f, here, same⟩ := exact
      exact fun none => none level mem f here same
    obtain ⟨f, found⟩ := Option.ne_none_iff_exists'.1 found
    rw [function?, function?, exactly?_reordered outside reordered, found, Option.some_or, Option.some_or]

def sideType (side : String) : Ty := .literal (.singleton side)

def stepFunction (sides : List String) : Function where
  name := "step"
  parameterTypes := [.literal (.ofList sides)]
  parameterNames := ["side"]
  returns := none
  body := .native Library.printBody

/-- An overload for one side in an outer scope, and two for more sides in an inner one. -/
def stepEdits : List Edit :=
  [.define (.function (stepFunction ["north"])), .push,
    .define (.function (stepFunction ["north", "south"])),
    .define (.function (stepFunction ["south", "west"]))]

def stepEdits' : List Edit :=
  [.define (.function (stepFunction ["north"])), .push,
    .define (.function (stepFunction ["south", "west"])),
    .define (.function (stepFunction ["north", "south"]))]

theorem overloads_resolved_step :
    ((built .builtIn stepEdits).function? "step" [sideType "north"]).map Function.signature =
      some "step(<north>)" ∧
    (built .builtIn stepEdits').function? "step" [sideType "north"] =
      (built .builtIn stepEdits).function? "step" [sideType "north"] ∧
    ((built .builtIn stepEdits).function? "step" [sideType "south"]).map Function.signature =
      some "step(<north, south>)" ∧
    ((built .builtIn stepEdits').function? "step" [sideType "south"]).map Function.signature =
      some "step(<south, west>)" ∧
    (∃ f, (built .builtIn stepEdits).function? "append" [.list .number, .number] = some f ∧
      f.parameterTypes.length = 2) ∧
    (∀ f, (built .builtIn stepEdits).Offers f → ¬f.Fits "size" [.number]) := by
  refine ⟨by decide +kernel, ?_, by decide +kernel, by decide +kernel, ?_, ?_⟩
  · refine (overloads_resolved .builtIn stepEdits "step" [sideType "north"]).2.2.2.2.2 stepEdits'
      (.cons (.inr ⟨.swap .., by decide +kernel⟩) (.cons (.inl rfl) .nil)) ?_
    rw [(overloads_resolved .builtIn stepEdits "step" [sideType "north"]).1]
    exact ⟨_, List.mem_cons_of_mem _ List.mem_cons_self, _, List.mem_cons_self, rfl⟩
  · obtain ⟨f, found⟩ := Option.isSome_iff_exists.1 (show
      ((built .builtIn stepEdits).function? "append" [.list .number, .number]).isSome = true by
        decide +kernel)
    exact ⟨f, found, ((overloads_resolved .builtIn stepEdits "append" _).2.2.2.2.1 f found).2.1⟩
  · refine (overloads_resolved .builtIn stepEdits "size" [.number]).2.2.2.1.1 ?_
    exact Option.not_isSome_iff_eq_none.1 (by decide +kernel)

end ScopeChain

end CursorScript
