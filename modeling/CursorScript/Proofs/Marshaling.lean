import CursorScript.Proofs.LibraryTyping

/-!
Arguments of host functions. A host function is registered only if its host types fit the declared
types, and then every argument of a type that a call may have can be read: the host gets what is in
the values, in their order, and nothing about them can fail.
-/
namespace CursorScript

namespace HostType

/-- The host's data is what is in a value. A member of a literal type is given by its name. -/
def Holds : (t : HostType) → t.Carrier → Value → Prop
  | number, n, v => v = .number n
  | real, x, v => v = .real x
  | logic, b, v => v = .logic b
  | string, s, v => v = .string s ∨ v = .literal s
  | material, m, v => v = .material m
  | list element, items, v => ∃ values, v = .list values ∧ List.Forall₂ element.Holds items values
  | any, data, v => data = v

/-- The host's data for a row of parameters is what is in the values, one for one. -/
def HoldAll : (ts : List HostType) → Carriers ts → List Value → Prop
  | [], _, values => values = []
  | t :: ts, data, values =>
    ∃ v others, values = v :: others ∧ t.Holds data.1 v ∧ HoldAll ts data.2 others

theorem forall₂_of_mapM {α β : Type} {read : α → Except String β} {relation : β → α → Prop}
    (reads : ∀ item data, read item = .ok data → relation data item) {items : List α}
    {all : List β} (h : items.mapM read = .ok all) : List.Forall₂ relation all items := by
  induction items generalizing all with
  | nil =>
    cases h
    exact .nil
  | cons item items ih =>
    rw [List.mapM_cons] at h
    cases first : read item with
    | error message =>
      rw [first] at h
      cases h
    | ok data =>
      cases rest : items.mapM read with
      | error message =>
        rw [first, rest] at h
        cases h
      | ok others =>
        rw [first, rest] at h
        cases h
        exact .cons (reads item data first) (ih rest)

/-- Reading changes nothing. -/
theorem holds_of_read {t : HostType} {v : Value} {data : t.Carrier} (h : t.read v = .ok data) :
    t.Holds data v := by
  induction t generalizing v with
  | number => cases v <;> cases h; rfl
  | real => cases v <;> cases h; rfl
  | logic => cases v <;> cases h; rfl
  | string =>
    cases v with
    | string s =>
      cases h
      exact .inl rfl
    | literal name =>
      cases h
      exact .inr rfl
    | _ => cases h
  | material => cases v <;> cases h; rfl
  | any =>
    cases h
    rfl
  | list element ih =>
    cases v with
    | list values =>
      have each : ∀ item data, element.read item = .ok data → element.Holds data item :=
        fun item data read => ih read
      exact ⟨values, rfl, forall₂_of_mapM each h⟩
    | _ => cases h

theorem holdAll_of_readAll {ts : List HostType} {values : List Value} {data : Carriers ts}
    (h : readAll ts values = .ok data) (same : values.length = ts.length) :
    HoldAll ts data values := by
  induction ts generalizing values with
  | nil => exact List.length_eq_zero_iff.1 same
  | cons t ts ih =>
    cases values with
    | nil => cases same
    | cons v values =>
      rw [readAll] at h
      cases first : t.read v with
      | error message =>
        rw [first] at h
        cases h
      | ok x =>
        cases rest : readAll ts values with
        | error message =>
          rw [first, rest] at h
          cases h
        | ok others =>
          rw [first, rest] at h
          cases h
          exact ⟨v, values, rfl, holds_of_read first, ih rest (Nat.succ.inj same)⟩

theorem length_of_fitAll {hosts : List HostType} {types : List Ty} (h : fitAll hosts types = true) :
    hosts.length = types.length := by
  fun_induction fitAll hosts types with
  | case1 => rfl
  | case2 host hosts type types ih =>
    rw [List.length_cons, List.length_cons, ih (Bool.and_eq_true_iff.1 h).2]
  | case3 => cases h

theorem fitAll_of_zip {hosts : List HostType} {types : List Ty} (same : hosts.length = types.length)
    (h : ∀ entry ∈ types.zip hosts, entry.2.fits (ofTy entry.1) = true) :
    fitAll hosts types = true := by
  induction types generalizing hosts with
  | nil =>
    cases List.length_eq_zero_iff.1 same
    rfl
  | cons type types ih =>
    cases hosts with
    | nil => cases same
    | cons host hosts =>
      rw [List.zip_cons_cons, List.forall_mem_cons] at h
      exact Bool.and_eq_true_iff.2 ⟨h.1, ih (Nat.succ.inj same) h.2⟩

end HostType

namespace HostFunction

theorem ok_of_guard {c : Prop} [Decidable c] {α β : Type} {message : String}
    {next : α → Except String β} {rest : Except String β} {b : β}
    (h : (if c then throw message >>= next else rest) = .ok b) : ¬ c ∧ rest = .ok b := by
  split at h
  · cases h
  · next passed => exact ⟨passed, h⟩

/-- A loop that refuses what does not fit comes to its end only if all fits. -/
theorem forall_of_forIn {α : Type} {fits : α → Bool} {message : α → String}
    {next : α → PUnit → Except String (ForInStep PUnit)} {items : List α}
    (h : (do
      forIn items PUnit.unit fun x _ =>
        if (!fits x) = true then throw (message x) >>= next x else pure (.yield .unit)
      pure ()) = Except.ok ()) : ∀ x ∈ items, fits x = true := by
  induction items with
  | nil => simp
  | cons x items ih =>
    rw [List.forIn_cons] at h
    by_cases fit : fits x = true
    · rw [if_neg (by simp [fit])] at h
      exact List.forall_mem_cons.2 ⟨fit, ih h⟩
    · rw [if_pos (by simp [fit])] at h
      cases h

theorem fitAll_of_zipIdx {hosts : List HostType} {types : List Ty}
    (same : ¬ hosts.length ≠ types.length)
    (h : ∀ x ∈ (types.zip hosts).zipIdx, x.1.2.fits (HostType.ofTy x.1.1) = true) :
    HostType.fitAll hosts types = true := by
  refine HostType.fitAll_of_zip (Decidable.not_not.1 same) fun entry mem => ?_
  rw [← List.zipIdx_map_fst 0 (types.zip hosts)] at mem
  obtain ⟨x, listed, rfl⟩ := List.mem_map.1 mem
  exact h x listed

theorem fitAll_of_checkSignature {f : HostFunction} {types : List Ty} {returns : Option Ty}
    (h : f.checkSignature types returns = .ok ()) : HostType.fitAll f.parameters types = true := by
  unfold checkSignature at h
  dsimp only at h
  split at h
  · obtain ⟨same, h⟩ := ok_of_guard h
    exact fitAll_of_zipIdx same (forall_of_forIn h)
  · obtain ⟨_, h⟩ := ok_of_guard h
    obtain ⟨same, h⟩ := ok_of_guard h
    exact fitAll_of_zipIdx same (forall_of_forIn h)
  · cases h
  · cases h

end HostFunction

namespace Library

/-- A function that was registered is what its declaration says, and its host types fit. -/
theorem exists_of_registered {lib : Library} {declaration : String} {host : HostFunction}
    (h : (lib.register declaration host).registered = true) :
    ∃ decl f, NativeDecl.ofSource declaration = .ok decl ∧
      (lib.register declaration host).library = { lib with natives := lib.natives ++ [f] } ∧
      f.name = decl.name ∧ f.parameterTypes = decl.parameters.map Parameter.type ∧
      f.body = .native host.call ∧ HostType.fitAll host.parameters f.parameterTypes = true := by
  unfold register at h ⊢
  split at h
  · cases h
  · next decl read =>
    split at h
    · cases h
    · next checked =>
      dsimp only at h
      split at h
      · cases h
      · next fresh =>
        let parameters := decl.parameters.map fun p : Parameter => (p.name, p.type)
        have types : parameters.map Prod.snd = decl.parameters.map Parameter.type := by
          rw [List.map_map]
          rfl
        have fits := HostFunction.fitAll_of_checkSignature checked
        rw [← types] at fits
        refine ⟨decl, .ofHost decl.name parameters decl.returns host, read, ?_, rfl, types, rfl, fits⟩
        simp [fresh, parameters]

end Library

/-- Values of types that are accepted are of the types that accept them. -/
theorem Value.inhabits_of_accepts {expected types : List Ty} {values : List Value}
    (h : List.Forall₂ Value.Inhabits values types)
    (accepts : List.Forall₂ (fun declared given => declared.accepts given = true) expected types) :
    List.Forall₂ Value.Inhabits values expected := by
  induction h generalizing expected with
  | nil =>
    cases accepts
    exact .nil
  | cons first _ ih =>
    cases accepts with
    | cons accepts others => exact .cons (first.of_accepts accepts) (ih others)

/-- Every argument of a registered function can be read. Whatever types a call has that the function
takes, exactly or with its literal types widened, and whatever values of those types it is given, the
host function runs on what is in the values, in their order. -/
theorem arguments_always_read {lib : Library} {declaration : String} {host : HostFunction}
    (accepted : (lib.register declaration host).registered = true) :
    ∃ decl f, NativeDecl.ofSource declaration = .ok decl ∧
      (lib.register declaration host).library = { lib with natives := lib.natives ++ [f] } ∧
      f.name = decl.name ∧ f.parameterTypes = decl.parameters.map Parameter.type ∧
      f.body = .native host.call ∧
      ∀ types values, f.parameterTypes = types ∨ f.acceptsWidened types = true →
        List.Forall₂ Value.Inhabits values types →
        ∃ data, HostType.readAll host.parameters values = .ok data ∧
          HostType.HoldAll host.parameters data values ∧
          ∀ context, host.call context values =
            (host.run data context).map fun (answer, after) =>
              (HostType.writeAnswer host.returns answer, after) := by
  obtain ⟨decl, f, read, added, name, types, body, fits⟩ := Library.exists_of_registered accepted
  refine ⟨decl, f, read, added, name, types, body, fun given values takes inhabit => ?_⟩
  have taken : f.Takes given := by
    rcases takes with rfl | widened
    · exact f.takes_self
    · exact f.takes_of_acceptsWidened widened
  have declared := Value.inhabits_of_accepts inhabit taken
  obtain ⟨data, reads⟩ := HostType.readAll_ok_of_fitAll declared fits
  -- Values beyond the last parameter would be ignored, so their number matters.
  have same : values.length = host.parameters.length :=
    declared.length_eq.trans (HostType.length_of_fitAll fits).symm
  refine ⟨data, reads, HostType.holdAll_of_readAll reads same, fun context => ?_⟩
  rw [HostFunction.call, reads]
  change (host.run data context >>= _) = _
  cases host.run data context with
  | error message => rfl
  | ok answer => rfl

/-- The declaration of a function with a literal type, nested lists and a map. -/
def pickDeclaration : String :=
  "native pick(side: <left, right>, rows: [[<x, y>]], table: |string -> number|): string;"

/-- A host function for it, which sees members as strings and the map as it is. -/
def pickHost : HostFunction :=
  ⟨[.string, .list (.list .string), .any], some .string,
    fun (side, rows, _) context => .ok ("".intercalate (side :: rows.flatten), context)⟩

/-- Types of arguments, the first of which is narrower than the declared one. -/
def pickTypes : List Ty :=
  [.literal (.ofList ["left"]), .list (.list (.literal (.ofList ["x", "y"]))),
    .map .string .number]

def pickValues : List Value :=
  [.literal "left", .list [.list [.literal "y", .literal "x"], .list []],
    .map [(.string "k", .number 7)]]

theorem arguments_always_read_pick :
    (Library.empty.register pickDeclaration pickHost).registered = true ∧
    ∃ f, (Library.empty.register pickDeclaration pickHost).library.natives = [f] ∧
      f.parameterTypes ≠ pickTypes ∧ f.acceptsWidened pickTypes = true ∧
      List.Forall₂ Value.Inhabits pickValues pickTypes ∧
      ∃ data, HostType.readAll pickHost.parameters pickValues = .ok data ∧
        HostType.HoldAll pickHost.parameters data pickValues := by
  have registered : (Library.empty.register pickDeclaration pickHost).registered = true := by
    decide +kernel
  obtain ⟨decl, f, read, added, _, types, _, reads⟩ := arguments_always_read registered
  have declared : (NativeDecl.ofSource pickDeclaration).toOption.map
      (fun d => d.parameters.map Parameter.type) =
      some [.literal (.ofList ["left", "right"]), .list (.list (.literal (.ofList ["x", "y"]))),
        .map .string .number] := by
    decide +kernel
  rw [read] at declared
  have parameters := types.trans (Option.some.inj declared)
  have inhabit : List.Forall₂ Value.Inhabits pickValues pickTypes := by
    have row : (Value.list [.literal "y", .literal "x"]).Inhabits
        (.list (.literal (.ofList ["x", "y"]))) :=
      .list (List.forall_mem_cons.2
        ⟨.literal (by decide), List.forall_mem_singleton.2 (.literal (by decide))⟩)
    refine .cons (.literal (by decide)) (.cons (.list ?_) (.cons (.map ?_ ?_) .nil))
    · exact List.forall_mem_cons.2 ⟨row, List.forall_mem_singleton.2 (.list (by simp))⟩
    · exact List.forall_mem_singleton.2 (.string "k")
    · exact List.forall_mem_singleton.2 (.number 7)
  have widened : f.acceptsWidened pickTypes = true := by
    rw [Function.acceptsWidened, parameters]
    decide +kernel
  have narrower : f.parameterTypes ≠ pickTypes := by
    rw [parameters]
    decide +kernel
  obtain ⟨data, given, holds, _⟩ := reads pickTypes pickValues (.inr widened) inhabit
  refine ⟨registered, f, ?_, narrower, widened, inhabit, data, given, holds⟩
  rw [added]
  rfl

end CursorScript
