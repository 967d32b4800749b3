import CursorScript.BuiltIn
import CursorScript.Proofs.AnalysisSoundness
import Mathlib.Data.List.Nodup

/-!
Definitions take place as a whole or not at all. A scope and a library hold variables, functions
with a fixed signature and families, each of which is told apart from all others of its sort by its
key. A definition whose key is taken is refused and changes nothing; any other adds its own entry,
and all that can be asked later is answered as before but for that entry.
-/
namespace CursorScript

def Function.key (f : Function) : String × List Ty := (f.name, f.parameterTypes)

inductive Entry where
  | var (name : String) (v : Variable)
  | function (f : Function)
  | family (g : Family)

/-- All that can be asked of a scope or a library. -/
@[ext]
structure Answers where
  lookup : String → Option Variable
  exactly : String → List Ty → Option Function
  widened : String → List Ty → Option Function
  names : List String
  /-- The number of functions with a fixed signature. -/
  count : Nat
  hasFamily : String → Bool

/-- The answers once an entry has been added: they are as before, but for what the entry answers. -/
def Answers.plus (a : Answers) : Entry → Answers
  | .var name v =>
    { a with
      lookup := fun asked => if asked = name then some v else a.lookup asked
      names := NameSet.insertName name a.names }
  | .function f =>
    { a with
      exactly := fun name types => if f.key = (name, types) then some f else a.exactly name types
      widened := fun name types => (a.widened name types).or
        (if f.name = name ∧ f.acceptsWidened types = true then some f else none)
      names := NameSet.insertName f.name a.names
      count := a.count + 1 }
  | .family g =>
    { a with
      exactly := fun name types => (a.exactly name types).or
        (if g.name = name then g.resolve types else none)
      names := NameSet.insertName g.name a.names
      hasFamily := fun name => g.name == name || a.hasFamily name }

/-- What a scope or a library holds, in the order of its definition. -/
structure Holdings where
  vars : List (String × Variable)
  functions : List Function
  families : List Family

namespace Holdings

def add (h : Holdings) : Entry → Holdings
  | .var name v => { h with vars := h.vars ++ [(name, v)] }
  | .function f => { h with functions := h.functions ++ [f] }
  | .family g => { h with families := h.families ++ [g] }

/-- The key of an entry is taken. -/
def Has (h : Holdings) : Entry → Prop
  | .var name _ => name ∈ h.vars.map Prod.fst
  | .function f => f.key ∈ h.functions.map Function.key
  | .family g => g.name ∈ h.families.map Family.name

structure Distinct (h : Holdings) : Prop where
  vars : (h.vars.map Prod.fst).Nodup
  functions : (h.functions.map Function.key).Nodup
  families : (h.families.map Family.name).Nodup

def names (h : Holdings) : List String :=
  (NameSet.ofList (h.vars.map Prod.fst ++ h.functions.map Function.name ++
    h.families.map Family.name)).names

def answers (h : Holdings) : Answers where
  lookup name := h.vars.lookup name
  exactly name types :=
    match h.functions.find? (fun f => f.name == name && f.parameterTypes == types) with
    | some f => some f
    | none => (h.families.find? fun g => g.name == name).bind fun g => g.resolve types
  widened name types := h.functions.find? fun f => f.name == name && f.acceptsWidened types
  names := h.names
  count := h.functions.length
  hasFamily name := (h.families.find? fun g => g.name == name).isSome

theorem nodup_map_concat_iff {α β : Type} {key : α → β} {xs : List α} {x : α} :
    ((xs ++ [x]).map key).Nodup ↔ (xs.map key).Nodup ∧ key x ∉ xs.map key := by
  rw [List.map_append, List.map_singleton, ← List.concat_eq_append, List.nodup_concat, and_comm]

/-- An entry keeps keys apart exactly if its own is free. -/
theorem distinct_add_iff {h : Holdings} {e : Entry} : (h.add e).Distinct ↔ h.Distinct ∧ ¬h.Has e := by
  constructor
  · rintro ⟨vars, functions, families⟩
    cases e with
    | var name v =>
      obtain ⟨vars, free⟩ := nodup_map_concat_iff.1 vars
      exact ⟨⟨vars, functions, families⟩, free⟩
    | function f =>
      obtain ⟨functions, free⟩ := nodup_map_concat_iff.1 functions
      exact ⟨⟨vars, functions, families⟩, free⟩
    | family g =>
      obtain ⟨families, free⟩ := nodup_map_concat_iff.1 families
      exact ⟨⟨vars, functions, families⟩, free⟩
  · rintro ⟨⟨vars, functions, families⟩, free⟩
    cases e with
    | var name v => exact ⟨nodup_map_concat_iff.2 ⟨vars, free⟩, functions, families⟩
    | function f => exact ⟨vars, nodup_map_concat_iff.2 ⟨functions, free⟩, families⟩
    | family g => exact ⟨vars, functions, nodup_map_concat_iff.2 ⟨families, free⟩⟩

theorem names_ofList_eq {names names' : List String} (name : String)
    (same : ∀ other, other ∈ names' ↔ other = name ∨ other ∈ names) :
    (NameSet.ofList names').names = NameSet.insertName name (NameSet.ofList names).names := by
  refine congrArg NameSet.names (NameSet.eq_of_mem (b := (NameSet.ofList names).insert name) ?_)
  intro other
  rw [NameSet.mem_ofList, NameSet.mem_insert, NameSet.mem_ofList, same]

theorem names_add (h : Holdings) (e : Entry) :
    (h.add e).names = (h.answers.plus e).names := by
  cases e with
  | var name v =>
    refine names_ofList_eq name fun other => ?_
    simp only [add, List.map_append, List.map_singleton, List.mem_append, List.mem_singleton]
    tauto
  | function f =>
    refine names_ofList_eq f.name fun other => ?_
    simp only [add, List.map_append, List.map_singleton, List.mem_append, List.mem_singleton]
    tauto
  | family g =>
    refine names_ofList_eq g.name fun other => ?_
    simp only [add, List.map_append, List.map_singleton, List.mem_append, List.mem_singleton]
    tauto

theorem lookup_add {h : Holdings} {name : String} {v : Variable} (free : ¬h.Has (.var name v)) :
    (h.add (.var name v)).answers.lookup = (h.answers.plus (.var name v)).lookup := by
  have none : h.vars.lookup name = none := by
    refine List.lookup_eq_none_iff.2 fun entry mem => ?_
    simp only [bne_iff_ne, ne_eq]
    rintro rfl
    exact free (List.mem_map_of_mem mem)
  funext asked
  by_cases same : asked = name
  · simp [answers, add, Answers.plus, List.lookup_append, same, none]
  · have differs : (asked == name) = false := beq_eq_false_iff_ne.2 same
    simp [answers, add, Answers.plus, List.lookup_append, List.lookup_cons, same, differs]

theorem exactly_add_function {h : Holdings} {f : Function} (free : ¬h.Has (.function f)) :
    (h.add (.function f)).answers.exactly = (h.answers.plus (.function f)).exactly := by
  have none : h.functions.find? (fun g => g.name == f.name && g.parameterTypes == f.parameterTypes)
      = none := by
    refine List.find?_eq_none.2 fun g mem found => free ?_
    simp only [Bool.and_eq_true, beq_iff_eq] at found
    exact List.mem_map.2 ⟨g, mem, Prod.ext found.1 found.2⟩
  funext name types
  by_cases same : f.key = (name, types)
  · obtain ⟨rfl, rfl⟩ := Prod.mk.inj same
    simp [answers, add, Answers.plus, Function.key, none]
  · have differs : ¬(f.name = name ∧ f.parameterTypes = types) := by
      rwa [Function.key, Prod.mk.injEq] at same
    simp [answers, add, Answers.plus, same, differs]

theorem widened_add_function (h : Holdings) (f : Function) :
    (h.add (.function f)).answers.widened = (h.answers.plus (.function f)).widened := by
  funext name types
  simp [answers, add, Answers.plus, List.find?_singleton]

theorem exactly_add_family {h : Holdings} {g : Family} (free : ¬h.Has (.family g)) :
    (h.add (.family g)).answers.exactly = (h.answers.plus (.family g)).exactly := by
  have none : h.families.find? (fun other => other.name == g.name) = none := by
    refine List.find?_eq_none.2 fun other mem found => free ?_
    exact List.mem_map.2 ⟨other, mem, eq_of_beq found⟩
  funext name types
  simp only [answers, add, Answers.plus]
  split
  · rfl
  · by_cases same : g.name = name
    · subst same
      simp [none]
    · simp [same]

theorem hasFamily_add_family (h : Holdings) (g : Family) :
    (h.add (.family g)).answers.hasFamily = (h.answers.plus (.family g)).hasFamily := by
  funext name
  by_cases same : g.name = name
  · simp [answers, add, Answers.plus, same]
  · simp [answers, add, Answers.plus, same]

/-- An entry answers for its own key, which nothing else did, and all other answers stay. -/
theorem answers_add {h : Holdings} {e : Entry} (free : ¬h.Has e) :
    (h.add e).answers = h.answers.plus e := by
  have listed := h.names_add e
  cases e with
  | var name v =>
    have looked := lookup_add free
    simp only [answers, add, Answers.plus] at listed looked ⊢
    rw [listed, looked]
  | function f =>
    have exact := exactly_add_function free
    have widened := h.widened_add_function f
    simp only [answers, add, Answers.plus, List.length_append, List.length_singleton]
      at listed exact widened ⊢
    rw [listed, exact, widened]
  | family g =>
    have exact := exactly_add_family free
    have families := h.hasFamily_add_family g
    simp only [answers, add, Answers.plus] at listed exact families ⊢
    rw [listed, exact, families]

end Holdings

namespace Scope

def holdings (scope : Scope) : Holdings := ⟨scope.vars, scope.functions, []⟩

def answers (scope : Scope) : Answers :=
  ⟨scope.lookup?, scope.function?, scope.widened?, scope.names, scope.functions.length,
    fun _ => false⟩

theorem answers_eq (scope : Scope) : scope.answers = scope.holdings.answers := by
  have exact : scope.function? = scope.holdings.answers.exactly := by
    funext name types
    simp only [function?, holdings, Holdings.answers, List.find?_nil, Option.bind_none]
    split
    · assumption
    · assumption
  have names : scope.names = scope.holdings.answers.names := by
    simp [Scope.names, holdings, Holdings.answers, Holdings.names]
  rw [answers, exact, names]
  rfl

inductive Definition where
  | var (name : String) (v : Variable)
  | function (f : Function)

def Definition.entry : Definition → Entry
  | .var name v => .var name v
  | .function f => .function f

def attempt? (scope : Scope) : Definition → Option Scope
  | .var name v => scope.addVariable? name v
  | .function f => scope.addFunction? f

/-- The scope behind a definition, and whether it was accepted. -/
def define (scope : Scope) (d : Definition) : Scope × Bool :=
  match scope.attempt? d with
  | some after => (after, true)
  | none => (scope, false)

def after (scope : Scope) (definitions : List Definition) : Scope :=
  definitions.foldl (fun scope d => (scope.define d).1) scope

theorem has_var_iff {scope : Scope} {name : String} {v : Variable} :
    scope.holdings.Has (.var name v) ↔ (scope.lookup? name).isSome = true := by
  rw [lookup?, ← Option.ne_none_iff_isSome, Ne, List.lookup_eq_none_iff]
  constructor
  · intro mem none
    obtain ⟨entry, here, rfl⟩ := List.mem_map.1 mem
    simpa using none entry here
  · intro some
    by_contra free
    refine some fun entry mem => bne_iff_ne.2 ?_
    rintro rfl
    exact free (List.mem_map_of_mem mem)

theorem has_function_iff {scope : Scope} {f : Function} :
    scope.holdings.Has (.function f) ↔
      (scope.function? f.name f.parameterTypes).isSome = true := by
  simp [Holdings.Has, holdings, function?, Function.key, Prod.mk.injEq]

/-- What a definition does: it adds its entry, or it changes nothing as its key is taken. -/
theorem define_cases (scope : Scope) (d : Definition) :
    (¬scope.holdings.Has d.entry ∧ (scope.define d).2 = true ∧
      (scope.define d).1.holdings = scope.holdings.add d.entry) ∨
    (scope.holdings.Has d.entry ∧ scope.define d = (scope, false)) := by
  cases d with
  | var name v =>
    rw [Definition.entry, has_var_iff]
    by_cases taken : (scope.lookup? name).isSome = true
    · exact .inr ⟨taken, by simp [define, attempt?, addVariable?, taken]⟩
    · exact .inl ⟨taken, by simp [define, attempt?, addVariable?, taken],
        by simp [define, attempt?, addVariable?, taken, holdings, Holdings.add]⟩
  | function f =>
    rw [Definition.entry, has_function_iff]
    by_cases taken : (scope.function? f.name f.parameterTypes).isSome = true
    · exact .inr ⟨taken, by simp [define, attempt?, addFunction?, taken]⟩
    · exact .inl ⟨taken, by simp [define, attempt?, addFunction?, taken],
        by simp [define, attempt?, addFunction?, taken, holdings, Holdings.add]⟩

theorem after_append (scope : Scope) (some more : List Definition) :
    scope.after (some ++ more) = (scope.after some).after more := List.foldl_append

/-- Definitions keep keys apart. -/
theorem distinct_after {scope : Scope} (h : scope.holdings.Distinct) (ds : List Definition) :
    (scope.after ds).holdings.Distinct := by
  induction ds generalizing scope with
  | nil => exact h
  | cons d ds ih =>
    have next : (scope.define d).1.holdings.Distinct := by
      rcases scope.define_cases d with ⟨free, _, added⟩ | ⟨_, same⟩
      · exact added ▸ Holdings.distinct_add_iff.2 ⟨h, free⟩
      · rwa [same]
    exact ih next

theorem distinct_empty : empty.holdings.Distinct := ⟨.nil, .nil, .nil⟩

end Scope

namespace Library

def holdings (lib : Library) : Holdings := ⟨[], lib.natives, lib.families⟩

def answers (lib : Library) : Answers :=
  ⟨fun _ => none, lib.function?, lib.widened?, lib.names, lib.nativeCount, lib.hasFamily⟩

theorem answers_eq (lib : Library) : lib.answers = lib.holdings.answers := rfl

/-- A call that is to register something. -/
inductive Call where
  | native (declaration : String) (host : HostFunction)
  | family (g : Family)

/-- The entry that a call asks for; there is none if the declaration is malformed or does not fit the
host function. -/
def Call.asked? : Call → Option Entry
  | .native declaration host => do
    let decl ← (NativeDecl.ofSource declaration).toOption
    let () ← (host.checkSignature (decl.parameters.map Parameter.type) decl.returns).toOption
    return .function (.ofHost decl.name (decl.parameters.map fun p => (p.name, p.type)) decl.returns
      host)
  | .family g => some (.family g)

def perform (lib : Library) : Call → Registration
  | .native declaration host => lib.register declaration host
  | .family g => lib.registerFamily g

def after (lib : Library) (calls : List Call) : Library :=
  calls.foldl (fun lib call => (lib.perform call).library) lib

theorem has_function_iff {lib : Library} {f : Function} :
    lib.holdings.Has (.function f) ↔
      (lib.natives.any fun g =>
        g.name == f.name && g.parameterTypes == f.parameterTypes) = true := by
  simp [Holdings.Has, holdings, Function.key]

theorem has_family_iff {lib : Library} {g : Family} :
    lib.holdings.Has (.family g) ↔ lib.hasFamily g.name = true := by
  simp [Holdings.Has, holdings, hasFamily, family?]

/-- What a call does: it adds the entry that it is for, or it changes nothing, as there is no such
entry or its key is taken. -/
theorem perform_cases (lib : Library) (call : Call) :
    (∃ e, call.asked? = some e ∧ ¬lib.holdings.Has e ∧ (lib.perform call).registered = true ∧
      (lib.perform call).library.holdings = lib.holdings.add e) ∨
    ((∀ e, call.asked? = some e → lib.holdings.Has e) ∧ (lib.perform call).registered = false ∧
      (lib.perform call).library = lib) := by
  cases call with
  | native declaration host =>
    cases read : NativeDecl.ofSource declaration with
    | error e =>
      exact .inr (by simp [Call.asked?, perform, register, read, refuse, Except.toOption])
    | ok decl =>
      cases fits : host.checkSignature (decl.parameters.map Parameter.type) decl.returns with
      | error message =>
        exact .inr (by simp [Call.asked?, perform, register, read, fits, refuse, Except.toOption])
      | ok _ =>
        let f := Function.ofHost decl.name (decl.parameters.map fun p => (p.name, p.type))
          decl.returns host
        have entry : (Call.native declaration host).asked? = some (.function f) := by
          simp [Call.asked?, read, fits, Except.toOption, f]
        by_cases taken : lib.holdings.Has (.function f)
        · have known := has_function_iff.1 taken
          refine .inr ⟨fun e same => ?_, ?_⟩
          · cases entry.symm.trans same
            exact taken
          · simp [perform, register, read, fits, refuse, known, f]
        · have unknown := mt has_function_iff.2 taken
          refine .inl ⟨_, entry, taken, ?_⟩
          simp [perform, register, read, fits, unknown, holdings, Holdings.add, f]
  | family g =>
    by_cases taken : lib.holdings.Has (.family g)
    · refine .inr ⟨fun e same => ?_, ?_⟩
      · cases same
        exact taken
      · simp [perform, registerFamily, refuse, has_family_iff.1 taken]
    · have free := mt has_family_iff.2 taken
      exact .inl ⟨_, rfl, taken, by simp [perform, registerFamily, free, holdings, Holdings.add]⟩

theorem after_append (lib : Library) (some more : List Call) :
    lib.after (some ++ more) = (lib.after some).after more := List.foldl_append

/-- Calls keep keys apart. -/
theorem distinct_after {lib : Library} (h : lib.holdings.Distinct) (calls : List Call) :
    (lib.after calls).holdings.Distinct := by
  induction calls generalizing lib with
  | nil => exact h
  | cons call calls ih =>
    have next : (lib.perform call).library.holdings.Distinct := by
      rcases lib.perform_cases call with ⟨e, _, free, _, added⟩ | ⟨_, _, same⟩
      · exact added ▸ Holdings.distinct_add_iff.2 ⟨h, free⟩
      · rwa [same]
    exact ih next

theorem distinct_empty : empty.holdings.Distinct := ⟨.nil, .nil, .nil⟩

theorem distinct_standard (outside : Outside) : (standard outside).holdings.Distinct := by
  have names : (collections.map Family.name).Nodup := by decide +kernel
  have keys : ((standard .builtIn).natives.map Function.key).Nodup := by decide +kernel
  have same := map_interface_standard (fun seen => (seen.1, seen.2.1)) outside .builtIn
  exact ⟨.nil, same ▸ keys, names⟩

end Library

/-- Definitions take place as a whole or not at all, in a library that starts empty or with the
standard functions, and in a scope that starts empty. Whatever was called before: no two entries have
the same key; a call is accepted exactly if it is for an entry whose key is free; a call that is
refused leaves everything as it is, now and after all later calls; and behind one that is accepted
all that can be asked is answered as before but for the new entry. -/
theorem definitions_whole (outside : Outside) :
    (∀ start : Library, start = .empty ∨ start = .standard outside → ∀ calls : List Library.Call,
      (start.after calls).holdings.Distinct ∧
      ∀ call : Library.Call,
        (((start.after calls).perform call).registered = true ↔
          ∃ e, call.asked? = some e ∧ ¬(start.after calls).holdings.Has e) ∧
        (((start.after calls).perform call).registered = false →
          ∀ later, start.after (calls ++ call :: later) = start.after (calls ++ later)) ∧
        (((start.after calls).perform call).registered = true →
          ∃ e, call.asked? = some e ∧
            (start.after (calls ++ [call])).answers = (start.after calls).answers.plus e)) ∧
    ∀ definitions : List Scope.Definition,
      (Scope.empty.after definitions).holdings.Distinct ∧
      ∀ d : Scope.Definition,
        (((Scope.empty.after definitions).define d).2 = true ↔
          ¬(Scope.empty.after definitions).holdings.Has d.entry) ∧
        (((Scope.empty.after definitions).define d).2 = false →
          ∀ later, Scope.empty.after (definitions ++ d :: later) =
            Scope.empty.after (definitions ++ later)) ∧
        (((Scope.empty.after definitions).define d).2 = true →
          (Scope.empty.after (definitions ++ [d])).answers =
            (Scope.empty.after definitions).answers.plus d.entry) := by
  refine ⟨fun start initial calls => ?_, fun definitions => ?_⟩
  · have distinct : start.holdings.Distinct := by
      rcases initial with rfl | rfl
      · exact Library.distinct_empty
      · exact Library.distinct_standard outside
    refine ⟨Library.distinct_after distinct calls, fun call => ?_⟩
    rcases (start.after calls).perform_cases call with
      ⟨e, entry, free, accepted, added⟩ | ⟨taken, refused, same⟩
    · refine ⟨iff_of_true accepted ⟨e, entry, free⟩, by simp [accepted], fun _ => ⟨e, entry, ?_⟩⟩
      rw [Library.after_append, Library.answers_eq, Library.answers_eq, ← Holdings.answers_add free,
        ← added]
      rfl
    · refine ⟨iff_of_false (by simp [refused]) ?_, fun _ later => ?_, by simp [refused]⟩
      · rintro ⟨e, entry, free⟩
        exact free (taken e entry)
      · rw [Library.after_append, Library.after_append]
        exact congrArg (fun lib : Library => lib.after later) same
  · refine ⟨Scope.distinct_after Scope.distinct_empty definitions, fun d => ?_⟩
    rcases (Scope.empty.after definitions).define_cases d with
      ⟨free, accepted, added⟩ | ⟨taken, same⟩
    · refine ⟨iff_of_true accepted free, by simp [accepted], fun _ => ?_⟩
      rw [Scope.after_append, Scope.answers_eq, Scope.answers_eq, ← Holdings.answers_add free,
        ← added]
      rfl
    · refine ⟨iff_of_false (by simp [same]) (not_not_intro taken), fun _ later => ?_,
        by simp [same]⟩
      rw [Scope.after_append, Scope.after_append]
      exact congrArg (fun scope : Scope => scope.after later) (congrArg Prod.fst same)

def flipHost : HostFunction := .ofMap .logic .logic not

/-- Calls that register it, under the declaration that fits it, a malformed one and one for another
type. -/
def flipCall : Library.Call := .native "native flip(side: logic): logic;" flipHost

def malformedCall : Library.Call := .native "native flip(side: logic" flipHost

def misfitCall : Library.Call := .native "native flip(side: number): logic;" flipHost

def flipVariable : Scope.Definition := .var "flip" ⟨.logic, 0, 1⟩

def flipFunction : Scope.Definition :=
  .function (.ofHost "flip" [("side", .logic)] (some .logic) flipHost)

theorem definitions_whole_flip :
    (∀ call ∈ [flipCall, malformedCall, misfitCall],
      (((Library.standard .builtIn).after [flipCall]).perform call).registered = false ∧
      ∀ later, (Library.standard .builtIn).after ([flipCall] ++ call :: later) =
        (Library.standard .builtIn).after ([flipCall] ++ later)) ∧
    ((Library.empty.after []).perform flipCall).registered = true ∧
    (∃ e, flipCall.asked? = some e ∧
      (Library.empty.after ([] ++ [flipCall])).answers = (Library.empty.after []).answers.plus e) ∧
    ((Scope.empty.after [flipVariable]).define flipVariable).2 = false ∧
    (∀ later, Scope.empty.after ([flipVariable] ++ flipVariable :: later) =
      Scope.empty.after ([flipVariable] ++ later)) ∧
    ((Scope.empty.after [flipVariable]).define flipFunction).2 = true ∧
    (Scope.empty.after ([flipVariable] ++ [flipFunction])).answers =
      (Scope.empty.after [flipVariable]).answers.plus flipFunction.entry := by
  obtain ⟨libraries, scopes⟩ := definitions_whole .builtIn
  have refused : ∀ call ∈ [flipCall, malformedCall, misfitCall],
      (((Library.standard .builtIn).after [flipCall]).perform call).registered = false := by
    decide +kernel
  have registered : ((Library.empty.after []).perform flipCall).registered = true := by
    decide +kernel
  refine ⟨fun call mem => ⟨refused call mem, ?_⟩, registered, ?_, by decide +kernel, ?_,
    by decide +kernel, ?_⟩
  · exact ((libraries _ (.inr rfl) [flipCall]).2 call).2.1 (refused call mem)
  · exact ((libraries _ (.inl rfl) []).2 flipCall).2.2 registered
  · exact ((scopes [flipVariable]).2 flipVariable).2.1 (by decide +kernel)
  · exact ((scopes [flipVariable]).2 flipFunction).2.2 (by decide +kernel)

end CursorScript
