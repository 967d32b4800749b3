import CursorScript.Library.Standard
import CursorScript.Proofs.Inhabitation
import Mathlib.Data.List.Forall2

/-!
Functions of the standard library keep to their declared types: given values of the parameter types
they leave a value of the return type, or refuse for a reason of their own that lies in the values.
Arguments of declared types are always read, and no argument is ever missing.
-/
namespace CursorScript

theorem mapM_ok {α β : Type} {read : α → Except String β} {items : List α}
    (h : ∀ item ∈ items, ∃ data, read item = .ok data) : ∃ all, items.mapM read = .ok all := by
  induction items with
  | nil => exact ⟨[], rfl⟩
  | cons item rest ih =>
    obtain ⟨first, others⟩ := List.forall_mem_cons.1 h
    obtain ⟨data, read_item⟩ := first
    obtain ⟨all, read_rest⟩ := ih others
    exact ⟨data :: all, by simp [List.mapM_cons, read_item, read_rest, bind, Except.bind, pure,
      Except.pure]⟩

namespace HostType

/-- A value of a declared type is read by every host type that fits it. -/
theorem read_ok_of_fits {v : Value} {type : Ty} (h : v.Inhabits type) {host : HostType}
    (fits : host.fits (ofTy type) = true) : ∃ data, host.read v = .ok data := by
  induction h generalizing host with
  | number n => cases host <;> first | exact ⟨_, rfl⟩ | cases fits
  | real x => cases host <;> first | exact ⟨_, rfl⟩ | cases fits
  | logic b => cases host <;> first | exact ⟨_, rfl⟩ | cases fits
  | string s => cases host <;> first | exact ⟨_, rfl⟩ | cases fits
  | material m => cases host <;> first | exact ⟨_, rfl⟩ | cases fits
  | literal listed => cases host <;> first | exact ⟨_, rfl⟩ | cases fits
  | map keys values => cases host <;> first | exact ⟨_, rfl⟩ | cases fits
  | emptyList => cases host <;> first | exact ⟨_, rfl⟩ | cases fits
  | emptyMap => cases host <;> first | exact ⟨_, rfl⟩ | cases fits
  | list all ih =>
    cases host with
    | list element => exact mapM_ok fun item mem => ih item mem fits
    | any => exact ⟨_, rfl⟩
    | _ => cases fits

/-- Whether each parameter of a host function fits the declared type at its place. -/
def fitAll : List HostType → List Ty → Bool
  | [], [] => true
  | host :: hosts, type :: types => host.fits (ofTy type) && fitAll hosts types
  | _, _ => false

/-- Arguments of declared types are read, and none of them is missing. -/
theorem readAll_ok_of_fitAll {arguments : List Value} {types : List Ty}
    (h : List.Forall₂ Value.Inhabits arguments types) {hosts : List HostType}
    (fits : fitAll hosts types = true) : ∃ data, readAll hosts arguments = .ok data := by
  induction h generalizing hosts with
  | nil =>
    cases hosts with
    | nil => exact ⟨(), rfl⟩
    | cons host hosts => cases fits
  | cons first _ ih =>
    cases hosts with
    | nil => cases fits
    | cons host hosts =>
      obtain ⟨here, there⟩ := Bool.and_eq_true_iff.1 fits
      obtain ⟨data, read_first⟩ := read_ok_of_fits first here
      obtain ⟨others, read_others⟩ := ih there
      refine ⟨(data, others), ?_⟩
      simp only [readAll, read_first, read_others]
      rfl

def writes? : HostType → Option Ty
  | number => some .number
  | real => some .real
  | logic => some .logic
  | string => some .string
  | material => some .material
  | list element => element.writes?.map .list
  | any => none

theorem write_inhabits {host : HostType} {type : Ty} (h : host.writes? = some type)
    (data : host.Carrier) : (host.write data).Inhabits type := by
  induction host generalizing type with
  | number => cases h; exact .number _
  | real => cases h; exact .real _
  | logic => cases h; exact .logic _
  | string => cases h; exact .string _
  | material => cases h; exact .material _
  | any => cases h
  | list element ih =>
    obtain ⟨inner, written, rfl⟩ := Option.map_eq_some_iff.1 h
    refine .list fun v mem => ?_
    obtain ⟨item, _, rfl⟩ := List.mem_map.1 mem
    exact ih written item

/-- Without a host type the answer is `unit`, and with one it is of the type that is written. -/
theorem writeAnswer_fills {host : Option HostType} {returns : Option Ty}
    (h : host.map writes? = returns.map some) (answer : Answer host) :
    (writeAnswer host answer).Fills returns := by
  cases host with
  | none =>
    cases returns with
    | none => rfl
    | some type => cases h
  | some host =>
    cases returns with
    | none => cases h
    | some type => exact write_inhabits (Option.some.inj h) answer

end HostType

/-- Why functions of a host may refuse arguments of their types: the name of the function, the
arguments and what it says. -/
abbrev Refusal := String → List Value → String → Prop

namespace Library

/-- The refusals of library functions that lie in the values they are given, each with the arguments
that it is about: a number that is no coordinate, a vector that has not three numbers, a real
without a whole number, a text that is not what it is read as, a range outside of a text, a pattern
that the engine does not compile, and bounds between which there is nothing. -/
inductive Refuses (outside : Outside) : Refusal
  | step {x y z n : Int} (among : n ∈ [x, y, z]) (far : fitsCoordinate n = false) :
      Refuses outside "move" [.number x, .number y, .number z] (Decimal.writeWhole n ++ " is out of range")
  | vectorStep {x y z n : Int} (among : n ∈ [x, y, z]) (far : fitsCoordinate n = false) :
      Refuses outside "move" [.list [.number x, .number y, .number z]]
        (Decimal.writeWhole n ++ " is out of range")
  | vectorLength {items : List Value} (h : items.length ≠ 3) :
      Refuses outside "move" [.list items]
        ("expected a vector of 3 numbers, received " ++ toString items.length)
  | whole {name : String} {mode : Decimal.Rounding} {x : Float}
      (rounds : (name, mode) ∈ [("floor", .floor), ("ceil", .ceiling), ("round", .nearestAway),
        ("as_number", .truncate)])
      (h : Decimal.toWhole? mode x = none) :
      Refuses outside name [.real x] (Decimal.write x ++ " cannot be converted to a number")
  | real {text : String} (h : Decimal.readReal? (bareDigits text) = none) :
      Refuses outside "as_real" [.string text] (Text.quoted text ++ " is not a real")
  | number {text : String} (h : Decimal.readInt? (bareDigits text) = none) :
      Refuses outside "as_number" [.string text] (Text.quoted text ++ " is not a number")
  | material {text : String} (h : Material.ofText? text = none) :
      Refuses outside "as_material" [.string text] (Text.quoted text ++ " is not a material")
  | substring {text : String} {first last : Int} (h : Text.slice? text.toList first last = none) :
      Refuses outside "substring" [.string text, .number first, .number last]
        ("substring range out of bounds for length " ++ toString text.length)
  | pattern {text pattern message : String}
      (h : outside.patterns.compile ("^(?:" ++ pattern ++ ")$") = .error message) :
      Refuses outside "matches" [.string text, .string pattern] message
  | emptyNumbers {lo hi : Int} (h : hi ≤ lo) :
      Refuses outside "random" [.number lo, .number hi] "max must be greater than min"
  | farNumbers {lo hi n : Int} (among : n ∈ [lo, hi]) (far : fitsCoordinate n = false) :
      Refuses outside "random" [.number lo, .number hi] (Decimal.writeWhole n ++ " is out of range")
  | infiniteReals {lo hi : Float} (h : !Decimal.isFinite lo || !Decimal.isFinite hi) :
      Refuses outside "random" [.real lo, .real hi]
        ("bounds must be finite, received " ++ Decimal.Layout.bound.write lo ++ " and " ++
          Decimal.Layout.bound.write hi)
  | emptyReals {lo hi : Float} (h : !(lo < hi)) :
      Refuses outside "random" [.real lo, .real hi] "max must be greater than min"
  | wideReals {lo hi : Float} (h : !Decimal.isFinite (hi - lo)) :
      Refuses outside "random" [.real lo, .real hi]
        ("range from " ++ Decimal.Layout.bound.write lo ++ " to " ++
          Decimal.Layout.bound.write hi ++ " is too wide")

end Library

namespace Function
variable {refuses : Refusal}

def Answers (refuses : Refusal) (name : String) (returns : Option Ty) (arguments : List Value) :
    Except String (Value × Context) → Prop
  | .ok (v, _) => v.Fills returns
  | .error message => refuses name arguments message

/-- A function of the host keeps to its declared types. -/
def Sound (refuses : Refusal) (f : Function) : Prop :=
  ∀ run, f.body = .native run → ∀ context arguments,
    List.Forall₂ Value.Inhabits arguments f.parameterTypes →
      Answers refuses f.name f.returns arguments (run context arguments)

/-- A bound host function keeps to its types if its signature fits and its own refusals are known:
reading the arguments never fails. -/
theorem sound_ofHost {name : String} {parameters : List (String × Ty)} {returns : Option Ty}
    {host : HostFunction}
    (fits : HostType.fitAll host.parameters (parameters.map Prod.snd) = true)
    (writes : host.returns.map HostType.writes? = returns.map some)
    (own : ∀ arguments data context message,
      List.Forall₂ Value.Inhabits arguments (parameters.map Prod.snd) →
      HostType.readAll host.parameters arguments = .ok data →
      host.run data context = .error message → refuses name arguments message) :
    (ofHost name parameters returns host).Sound refuses := by
  intro run native context arguments typed
  cases native
  obtain ⟨data, read⟩ := HostType.readAll_ok_of_fitAll typed fits
  simp only [HostFunction.call, read, bind, Except.bind]
  cases ran : host.run data context with
  | ok result => exact HostType.writeAnswer_fills writes result.1
  | error message => exact own arguments data context message typed read ran

/-- A host function that cannot fail keeps to its types if its signature fits. -/
theorem sound_of_total {name : String} {parameters : List (String × Ty)} {returns : Option Ty}
    {host : HostFunction}
    (fits : HostType.fitAll host.parameters (parameters.map Prod.snd) = true)
    (writes : host.returns.map HostType.writes? = returns.map some)
    (total : ∀ data context, ∃ result, host.run data context = .ok result) :
    (ofHost name parameters returns host).Sound refuses := by
  refine sound_ofHost fits writes fun arguments data context message _ _ failed => ?_
  obtain ⟨result, ran⟩ := total data context
  rw [ran] at failed
  cases failed

end Function

namespace Value

theorem eq_of_number {v : Value} (h : v.Inhabits .number) : ∃ n, v = .number n := by
  cases h with
  | number n => exact ⟨n, rfl⟩

theorem eq_of_real {v : Value} (h : v.Inhabits .real) : ∃ x, v = .real x := by
  cases h with
  | real x => exact ⟨x, rfl⟩

theorem eq_of_string {v : Value} (h : v.Inhabits .string) : ∃ s, v = .string s := by
  cases h with
  | string s => exact ⟨s, rfl⟩

/-- Values of the numbers of a list. -/
theorem eq_of_numbers {v : Value} (h : v.Inhabits (.list .number)) :
    ∃ numbers : List Int, v = .list (numbers.map .number) := by
  cases h with
  | @list items _ all =>
    induction items with
    | nil => exact ⟨[], rfl⟩
    | cons item rest ih =>
      obtain ⟨first, others⟩ := List.forall_mem_cons.1 all
      obtain ⟨n, rfl⟩ := eq_of_number first
      obtain ⟨numbers, same⟩ := ih others
      cases same
      exact ⟨n :: numbers, rfl⟩

end Value

theorem forall₂_singleton {type : Ty} {arguments : List Value}
    (h : List.Forall₂ Value.Inhabits arguments [type]) :
    ∃ v, arguments = [v] ∧ v.Inhabits type := by
  cases h with
  | cons first rest =>
    cases rest
    exact ⟨_, rfl, first⟩

theorem forall₂_pair {first second : Ty} {arguments : List Value}
    (h : List.Forall₂ Value.Inhabits arguments [first, second]) :
    ∃ v w, arguments = [v, w] ∧ v.Inhabits first ∧ w.Inhabits second := by
  cases h with
  | cons one rest =>
    obtain ⟨w, rfl, two⟩ := forall₂_singleton rest
    exact ⟨_, w, rfl, one, two⟩

theorem forall₂_triple {first second third : Ty} {arguments : List Value}
    (h : List.Forall₂ Value.Inhabits arguments [first, second, third]) :
    ∃ v w u, arguments = [v, w, u] ∧ v.Inhabits first ∧ w.Inhabits second ∧ u.Inhabits third := by
  cases h with
  | cons one rest =>
    obtain ⟨w, u, rfl, two, three⟩ := forall₂_pair rest
    exact ⟨_, w, u, rfl, one, two, three⟩

namespace Function
variable {refuses : Refusal} {name p q : String} {a b r : HostType} {T U R : Ty}

theorem sound_ofMap {f : a.Carrier → r.Carrier} (fits : HostType.fitAll [a] [T] = true)
    (writes : r.writes? = some R) : (ofHost name [(p, T)] (some R) (.ofMap a r f)).Sound refuses :=
  sound_of_total fits (congrArg some writes) fun _ _ => ⟨_, rfl⟩

theorem sound_ofMap2 {f : a.Carrier → b.Carrier → r.Carrier}
    (fits : HostType.fitAll [a, b] [T, U] = true) (writes : r.writes? = some R) :
    (ofHost name [(p, T), (q, U)] (some R) (.ofMap2 a b r f)).Sound refuses :=
  sound_of_total fits (congrArg some writes) fun _ _ => ⟨_, rfl⟩

theorem sound_ofTry {f : a.Carrier → Except String r.Carrier}
    (fits : HostType.fitAll [a] [T] = true) (writes : r.writes? = some R)
    (own : ∀ v data message, v.Inhabits T → a.read v = .ok data → f data = .error message →
      refuses name [v] message) :
    (ofHost name [(p, T)] (some R) (.ofTry a r f)).Sound refuses := by
  refine sound_ofHost fits (congrArg some writes) fun arguments data context message typed read
    failed => ?_
  obtain ⟨v, rfl, inhabits⟩ := forall₂_singleton typed
  obtain ⟨first, none⟩ := data
  have read_first : a.read v = .ok first := by
    simp only [HostFunction.ofTry, HostType.readAll] at read
    cases here : a.read v with
    | ok data =>
      rw [here] at read
      cases read
      rfl
    | error message =>
      rw [here] at read
      cases read
  have failed_first : f first = .error message := by
    simp only [HostFunction.ofTry] at failed
    cases here : f first with
    | ok answer =>
      rw [here] at failed
      cases failed
    | error message =>
      rw [here] at failed
      cases failed
      rfl
  exact own v first message inhabits read_first failed_first

end Function

namespace Library
open CursorScript.Function (sound_ofHost sound_of_total sound_ofMap sound_ofMap2 sound_ofTry)
variable {outside : Outside} {refuses : Refusal}

theorem coordinate_error {n : Int} {message : String} (h : coordinate n = .error message) :
    fitsCoordinate n = false ∧ message = Decimal.writeWhole n ++ " is out of range" := by
  unfold coordinate at h
  split at h
  · cases h
  · next far =>
    cases h
    exact ⟨by simpa using far, rfl⟩

/-- Moving by three numbers fails at the first that is no coordinate. -/
theorem moveBy_error {x y z : Int} {context : Context} {message : String}
    (h : moveBy.run (x, y, z, ()) context = .error message) :
    ∃ n ∈ [x, y, z], fitsCoordinate n = false ∧
      message = Decimal.writeWhole n ++ " is out of range" := by
  simp only [moveBy, bind, Except.bind] at h
  split at h
  · next refused =>
    cases h
    exact ⟨x, by simp, coordinate_error refused⟩
  · split at h
    · next refused =>
      cases h
      exact ⟨y, by simp, coordinate_error refused⟩
    · split at h
      · next refused =>
        cases h
        exact ⟨z, by simp, coordinate_error refused⟩
      · cases h

theorem lookup_directions {direction : String}
    (h : direction ∈ (NameSet.ofList (directions.map Prod.fst)).names) :
    (directions.lookup direction).isSome = true := by
  have all : ∀ name ∈ (NameSet.ofList (directions.map Prod.fst)).names,
      (directions.lookup name).isSome = true := by decide
  exact all direction h

/-- A member of the type of directions is a direction. -/
theorem sound_moveDirection :
    (Function.ofHost "move" [("direction", .literal (.ofList (directions.map Prod.fst)))] none
      moveDirection).Sound refuses := by
  refine sound_ofHost rfl rfl fun arguments data context message typed read failed => ?_
  obtain ⟨v, rfl, literal⟩ := forall₂_singleton typed
  cases literal with
  | @literal name members listed =>
    cases read
    have known := lookup_directions listed
    simp only [moveDirection] at failed
    split at failed
    · cases failed
    · next unknown =>
      rw [unknown] at known
      cases known

theorem sound_moveBy :
    (Function.ofHost "move" [("x", .number), ("y", .number), ("z", .number)] none moveBy).Sound
      (Refuses outside) := by
  refine sound_ofHost rfl rfl fun arguments data context message typed read failed => ?_
  obtain ⟨v, w, u, rfl, first, second, third⟩ := forall₂_triple typed
  obtain ⟨x, rfl⟩ := Value.eq_of_number first
  obtain ⟨y, rfl⟩ := Value.eq_of_number second
  obtain ⟨z, rfl⟩ := Value.eq_of_number third
  cases read
  obtain ⟨n, among, far, rfl⟩ := moveBy_error failed
  exact .step among far

theorem read_numbers (numbers : List Int) :
    HostType.read (.list .number) (.list (numbers.map .number)) = .ok numbers := by
  show (numbers.map Value.number).mapM (HostType.read .number) = .ok numbers
  induction numbers with
  | nil => rfl
  | cons n rest ih =>
    rw [List.map_cons, List.mapM_cons, ih]
    rfl

theorem sound_moveVector :
    (Function.ofHost "move" [("vector", .list .number)] none moveVector).Sound
      (Refuses outside) := by
  refine sound_ofHost rfl rfl fun arguments data context message typed read failed => ?_
  obtain ⟨v, rfl, numbers⟩ := forall₂_singleton typed
  obtain ⟨vector, rfl⟩ := Value.eq_of_numbers numbers
  have same : data = (vector, ()) := by
    simp only [moveVector, HostType.readAll, read_numbers] at read
    cases read
    rfl
  subst same
  simp only [moveVector] at failed
  split at failed
  · next x y z =>
    obtain ⟨n, among, far, rfl⟩ := moveBy_error failed
    exact .vectorStep among far
  · next short =>
    cases failed
    have length : (vector.map Value.number).length ≠ 3 := by
      intro three
      rw [List.length_map] at three
      obtain ⟨x, y, z, rfl⟩ := List.length_eq_three.1 three
      exact short x y z rfl
    have refused := @Refuses.vectorLength outside _ length
    rwa [List.length_map] at refused

theorem sound_movement : ∀ f ∈ movement, f.Sound (Refuses outside) := by
  simp only [movement, List.forall_mem_cons]
  refine ⟨sound_moveDirection, sound_moveBy, sound_moveVector, ?_, ?_, by simp⟩
  · exact sound_of_total rfl rfl fun _ _ => ⟨_, rfl⟩
  · exact sound_of_total rfl rfl fun _ _ => ⟨_, rfl⟩

theorem sound_whole {name : String} {mode : Decimal.Rounding}
    (rounds : (name, mode) ∈ [("floor", .floor), ("ceil", .ceiling), ("round", .nearestAway),
      ("as_number", .truncate)]) : (roundingFunction name mode).Sound (Refuses outside) := by
  refine sound_ofTry rfl rfl fun v data message real read failed => ?_
  obtain ⟨x, rfl⟩ := Value.eq_of_real real
  cases read
  unfold wholeNumber at failed
  split at failed
  · cases failed
  · next none =>
    cases failed
    exact .whole rounds none

theorem sound_arithmetic : ∀ f ∈ arithmetic, f.Sound (Refuses outside) := by
  simp only [arithmetic, List.forall_mem_cons, realFunction]
  exact ⟨sound_ofMap rfl rfl, sound_ofMap rfl rfl, sound_ofMap rfl rfl, sound_ofMap rfl rfl,
    sound_whole (by simp), sound_whole (by simp), sound_whole (by simp), sound_ofMap rfl rfl,
    sound_ofMap rfl rfl, sound_ofMap rfl rfl, sound_ofMap2 rfl rfl, sound_ofMap2 rfl rfl,
    sound_ofMap rfl rfl, sound_ofMap rfl rfl, sound_ofMap rfl rfl, sound_ofMap rfl rfl, by simp⟩

/-- A function that reads a text refuses the texts that it cannot read. -/
theorem sound_ofText {name : String} {r : HostType} {R : Ty}
    {reader : String → Except String r.Carrier} (writes : r.writes? = some R)
    (own : ∀ text message, reader text = .error message → refuses name [.string text] message) :
    (Function.ofHost name [("value", .string)] (some R) (.ofTry .string r reader)).Sound
      refuses := by
  refine sound_ofTry rfl writes fun v data message string read failed => ?_
  obtain ⟨text, rfl⟩ := Value.eq_of_string string
  cases read
  exact own _ message failed

theorem realOfText_error {text message : String} (h : realOfText text = .error message) :
    Refuses outside "as_real" [.string text] message := by
  unfold realOfText at h
  split at h
  · cases h
  · next none =>
    cases h
    exact .real none

theorem numberOfText_error {text message : String} (h : numberOfText text = .error message) :
    Refuses outside "as_number" [.string text] message := by
  unfold numberOfText at h
  split at h
  · cases h
  · next none =>
    cases h
    exact .number none

theorem materialOfText_error {text message : String} (h : materialOfText text = .error message) :
    Refuses outside "as_material" [.string text] message := by
  unfold materialOfText at h
  split at h
  · cases h
  · next none =>
    cases h
    exact .material none

theorem sound_casts : ∀ f ∈ casts, f.Sound (Refuses outside) := by
  simp only [casts, List.forall_mem_cons]
  exact ⟨sound_ofMap rfl rfl, sound_ofText rfl fun _ _ => realOfText_error, sound_whole (by simp),
    sound_ofText rfl fun _ _ => numberOfText_error, sound_ofMap rfl rfl, sound_ofMap rfl rfl,
    sound_ofMap rfl rfl, sound_ofMap rfl rfl, sound_ofText rfl fun _ _ => materialOfText_error,
    by simp⟩

theorem sound_substring :
    (Function.ofHost "substring" [("text", .string), ("begin", .number), ("end", .number)]
      (some .string) substringFunction).Sound (Refuses outside) := by
  refine sound_ofHost rfl rfl fun arguments data context message typed read failed => ?_
  obtain ⟨v, w, u, rfl, one, two, three⟩ := forall₂_triple typed
  obtain ⟨text, rfl⟩ := Value.eq_of_string one
  obtain ⟨first, rfl⟩ := Value.eq_of_number two
  obtain ⟨last, rfl⟩ := Value.eq_of_number three
  cases read
  simp only [substringFunction, substring] at failed
  split at failed
  · cases failed
  · next none =>
    cases failed
    exact .substring none

theorem sound_matches :
    (Function.ofHost "matches" [("text", .string), ("pattern", .string)] (some .logic)
      (matchesFunction outside.patterns)).Sound (Refuses outside) := by
  refine sound_ofHost rfl rfl fun arguments data context message typed read failed => ?_
  obtain ⟨v, w, rfl, one, two⟩ := forall₂_pair typed
  obtain ⟨text, rfl⟩ := Value.eq_of_string one
  obtain ⟨pattern, rfl⟩ := Value.eq_of_string two
  cases read
  simp only [matchesFunction, matchWhole] at failed
  cases compiled : outside.patterns.compile ("^(?:" ++ pattern ++ ")$") with
  | ok test =>
    rw [compiled] at failed
    cases failed
  | error message =>
    rw [compiled] at failed
    cases failed
    exact .pattern compiled

theorem sound_strings : ∀ f ∈ strings outside.patterns, f.Sound (Refuses outside) := by
  simp only [strings, List.forall_mem_cons, textFunction, textTest]
  exact ⟨sound_ofMap rfl rfl, sound_ofMap rfl rfl, sound_ofMap rfl rfl, sound_ofMap2 rfl rfl,
    sound_ofMap2 rfl rfl, sound_ofMap2 rfl rfl, sound_ofMap2 rfl rfl, sound_substring,
    sound_of_total rfl rfl fun _ _ => ⟨_, rfl⟩, sound_ofMap rfl rfl, sound_ofMap rfl rfl,
    sound_ofMap2 rfl rfl, sound_ofMap2 rfl rfl, sound_matches, by simp⟩

theorem randomReal_error {lo hi : Float} {context : Context} {message : String}
    (h : randomReal outside.random lo hi context = .error message) :
    Refuses outside "random" [.real lo, .real hi] message := by
  unfold randomReal at h
  dsimp only at h
  split at h
  · next infinite =>
    cases h
    exact .infiniteReals infinite
  · split at h
    · next empty =>
      cases h
      exact .emptyReals (by simpa using empty)
    · split at h
      · next wide =>
        cases h
        exact .wideReals wide
      · cases h

theorem randomNumber_error {lo hi : Int} {context : Context} {message : String}
    (h : randomNumber outside.random lo hi context = .error message) :
    Refuses outside "random" [.number lo, .number hi] message := by
  simp only [randomNumber, bind, Except.bind] at h
  split at h
  · next empty =>
    cases h
    exact .emptyNumbers empty
  · simp only [pure, Except.pure] at h
    split at h
    · next refused =>
      cases h
      obtain ⟨far, rfl⟩ := coordinate_error refused
      exact .farNumbers (by simp) far
    · split at h
      · next refused =>
        cases h
        obtain ⟨far, rfl⟩ := coordinate_error refused
        exact .farNumbers (by simp) far
      · cases h

theorem sound_randomness : ∀ f ∈ randomness outside.random, f.Sound (Refuses outside) := by
  simp only [randomness, List.forall_mem_cons]
  refine ⟨?_, ?_, sound_of_total rfl rfl fun _ _ => ⟨_, rfl⟩, by simp⟩
  · refine sound_ofHost rfl rfl fun arguments data context message typed read failed => ?_
    obtain ⟨v, w, rfl, one, two⟩ := forall₂_pair typed
    obtain ⟨lo, rfl⟩ := Value.eq_of_real one
    obtain ⟨hi, rfl⟩ := Value.eq_of_real two
    cases read
    exact randomReal_error failed
  · refine sound_ofHost rfl rfl fun arguments data context message typed read failed => ?_
    obtain ⟨v, w, rfl, one, two⟩ := forall₂_pair typed
    obtain ⟨lo, rfl⟩ := Value.eq_of_number one
    obtain ⟨hi, rfl⟩ := Value.eq_of_number two
    cases read
    exact randomNumber_error failed

theorem sound_familyMember {name : String} {parameters : List (String × Ty)} {returns : Option Ty}
    {run : NativeBody}
    (answers : ∀ context arguments, List.Forall₂ Value.Inhabits arguments
      (parameters.map Prod.snd) → ∃ v context', run context arguments = .ok (v, context') ∧
        v.Fills returns) : (familyMember name parameters returns run).Sound refuses := by
  intro body native context arguments typed
  cases native
  obtain ⟨v, context', answered, fills⟩ := answers context arguments typed
  rw [answered]
  exact fills

theorem sound_print {parameters : List (String × Ty)} :
    (familyMember "print" parameters none printBody).Sound refuses :=
  sound_familyMember fun _ _ _ => ⟨_, _, rfl, rfl⟩

theorem sound_size_list (element : Ty) :
    (familyMember "size" [("collection", .list element)] (some .number) sizeBody).Sound
      refuses := by
  refine sound_familyMember fun context arguments typed => ?_
  obtain ⟨v, rfl, list⟩ := forall₂_singleton typed
  cases list with
  | list _ => exact ⟨_, _, rfl, .number _⟩

theorem sound_size_map (key value : Ty) :
    (familyMember "size" [("collection", .map key value)] (some .number) sizeBody).Sound
      refuses := by
  refine sound_familyMember fun context arguments typed => ?_
  obtain ⟨v, rfl, map⟩ := forall₂_singleton typed
  cases map with
  | map _ _ => exact ⟨_, _, rfl, .number _⟩

/-- What is appended is of the element type once literal types are widened. -/
theorem sound_append {element item : Ty} (accepts : element.accepts item = true) :
    (familyMember "append" [("list", .list element), ("element", item)] (some (.list element))
      appendBody).Sound refuses := by
  refine sound_familyMember fun context arguments typed => ?_
  obtain ⟨v, w, rfl, list, last⟩ := forall₂_pair typed
  cases list with
  | list all =>
    refine ⟨_, _, rfl, .list fun u mem => ?_⟩
    rcases List.mem_append.1 mem with mem | mem
    · exact all u mem
    · cases List.mem_singleton.1 mem
      exact last.of_accepts accepts

theorem sound_has (key value candidate : Ty) :
    (familyMember "has" [("map", .map key value), ("key", candidate)] (some .logic)
      hasBody).Sound refuses := by
  refine sound_familyMember fun context arguments typed => ?_
  obtain ⟨v, w, rfl, map, _⟩ := forall₂_pair typed
  cases map with
  | map _ _ => exact ⟨_, _, rfl, .logic _⟩

theorem sound_keys (key value : Ty) :
    (familyMember "keys" [("map", .map key value)] (some (.list key)) keysBody).Sound
      refuses := by
  refine sound_familyMember fun context arguments typed => ?_
  obtain ⟨v, rfl, map⟩ := forall₂_singleton typed
  cases map with
  | map keys _ =>
    refine ⟨_, _, rfl, .list fun u mem => ?_⟩
    obtain ⟨entry, listed, rfl⟩ := List.mem_map.1 mem
    exact keys entry listed

/-- A member of a family takes exactly the types it was resolved from, and keeps to them. -/
theorem sound_collections : ∀ family ∈ collections, ∀ types f, family.resolve types = some f →
    f.parameterTypes = types ∧ f.isNative = true ∧ ∀ refuses, f.Sound refuses := by
  simp only [collections, List.forall_mem_cons]
  refine ⟨fun types f h => ?_, fun types f h => ?_, fun types f h => ?_, fun types f h => ?_,
    fun types f h => ?_, by simp⟩
  · simp only [printFamily] at h
    split at h
    · split at h
      · cases h
      · cases h
        exact ⟨rfl, rfl, fun _ => sound_print⟩
    · cases h
  · simp only [sizeFamily] at h
    split at h
    · cases h
      exact ⟨rfl, rfl, fun _ => sound_size_list _⟩
    · cases h
      exact ⟨rfl, rfl, fun _ => sound_size_map _ _⟩
    · cases h
  · simp only [appendFamily] at h
    split at h
    · split at h
      · next accepts =>
        cases h
        exact ⟨rfl, rfl, fun _ => sound_append accepts⟩
      · cases h
    · cases h
  · simp only [hasKeyFamily] at h
    split at h
    · split at h
      · cases h
        exact ⟨rfl, rfl, fun _ => sound_has _ _ _⟩
      · cases h
    · cases h
  · simp only [keysFamily] at h
    split at h
    · cases h
      exact ⟨rfl, rfl, fun _ => sound_keys _ _⟩
    · cases h

end Library

namespace Function

/-- A function takes arguments of these types, once literal types are widened. -/
def Takes (f : Function) (arguments : List Ty) : Prop :=
  List.Forall₂ (fun expected actual => expected.accepts actual = true) f.parameterTypes arguments

theorem takes_self (f : Function) : f.Takes f.parameterTypes :=
  List.forall₂_same.2 fun type _ => Ty.accepts_self type

theorem takes_of_acceptsWidened {f : Function} {arguments : List Ty}
    (h : f.acceptsWidened arguments = true) : f.Takes arguments := by
  simp only [acceptsWidened, Bool.and_eq_true, decide_eq_true_eq, List.all_eq_true] at h
  exact List.forall₂_iff_zip.2 ⟨h.1, fun mem => h.2 _ mem⟩

end Function

namespace Library

def Provides (library : Library) (f : Function) : Prop :=
  ∃ name types, library.function? name types = some f ∨ library.widened? name types = some f

/-- All functions of a library are the host's. -/
def Native (library : Library) : Prop := ∀ f, library.Provides f → f.isNative = true

structure Sound (refuses : Refusal) (library : Library) : Prop where
  exact : ∀ {name types f}, library.function? name types = some f →
    f.parameterTypes = types ∧ f.Sound refuses
  widened : ∀ {name types f}, library.widened? name types = some f → f.Sound refuses

variable {outside : Outside}

theorem sound_natives : ∀ f ∈ (standard outside).natives, f.Sound (Refuses outside) := by
  simp only [standard, List.forall_mem_append]
  exact ⟨⟨⟨⟨sound_movement, sound_arithmetic⟩, sound_casts⟩, sound_strings⟩, sound_randomness⟩

theorem isNative_natives : ∀ f ∈ (standard outside).natives, f.isNative = true := by
  simp only [standard, List.forall_mem_append]
  simp [movement, arithmetic, casts, strings, randomness, realFunction, roundingFunction,
    textFunction, textTest, Function.ofHost, Function.isNative]

theorem function?_cases {library : Library} {name : String} {types : List Ty} {f : Function}
    (h : library.function? name types = some f) :
    (f ∈ library.natives ∧ f.parameterTypes = types) ∨
      ∃ family ∈ library.families, family.resolve types = some f := by
  unfold function? at h
  split at h
  · next found =>
    cases h
    have matched := List.find?_some found
    simp only [Bool.and_eq_true, beq_iff_eq] at matched
    exact .inl ⟨List.mem_of_find?_eq_some found, matched.2⟩
  · obtain ⟨family, found, resolved⟩ := Option.bind_eq_some_iff.1 h
    exact .inr ⟨family, List.mem_of_find?_eq_some found, resolved⟩

theorem native_standard (outside : Outside) : (standard outside).Native := by
  rintro f ⟨name, types, found | found⟩
  · obtain ⟨mem, _⟩ | ⟨family, mem, resolved⟩ := function?_cases found
    · exact isNative_natives f mem
    · exact (sound_collections family mem types f resolved).2.1
  · exact isNative_natives f (List.mem_of_find?_eq_some found)

theorem sound_standard (outside : Outside) : (standard outside).Sound (Refuses outside) where
  exact {name types f} found := by
    obtain ⟨mem, same⟩ | ⟨family, mem, resolved⟩ := function?_cases found
    · exact ⟨same, sound_natives f mem⟩
    · obtain ⟨same, _, sound⟩ := sound_collections family mem types f resolved
      exact ⟨same, sound _⟩
  widened found := sound_natives _ (List.mem_of_find?_eq_some found)

end Library

end CursorScript
