import CursorScript.Proofs.Marshaling
import CursorScript.Proofs.Effects

/-!
Answers of host functions. An answer is written as a value by its host type alone, so a text stays a
text, also where a member of a literal type was declared. A registered function that converts its
answers therefore keeps to its declared type with texts in place of members, and to the declared
type itself exactly if no member is among what it answers.
-/
namespace CursorScript

/-- The type with texts in place of the members of literal types. -/
def Ty.spelled : Ty → Ty
  | .literal _ => .string
  | .list element => .list element.spelled
  | type => type

theorem Value.forall_of_inhabits_list {items : List Value} {element : Ty}
    (h : (Value.list items).Inhabits (.list element)) : ∀ v ∈ items, v.Inhabits element := by
  cases h with
  | list all => exact all

namespace HostType

/-- Whether values of the host type are converted throughout, and none is passed as it is. -/
def converts : HostType → Bool
  | any => false
  | list element => element.converts
  | _ => true

/-- What the host answers denotes something of a declared type, as far as its host type leaves that
open: a text in place of a member names one that is listed. -/
def Denotes : (t : HostType) → t.Carrier → Ty → Prop
  | string, s, .literal members => s ∈ members.names
  | list element, items, .list type => List.Forall (element.Denotes · type) items
  | _, _, _ => True

def membersIn : (t : HostType) → t.Carrier → Ty → List String
  | string, s, .literal _ => [s]
  | list element, items, .list type => List.flatMap (element.membersIn · type) items
  | _, _, _ => []

theorem eq_of_fits {host wanted : HostType} (fits : host.fits wanted = true)
    (converts : host.converts = true) : host = wanted := by
  fun_induction HostType.fits host wanted with
  | case1 => cases converts
  | case2 host wanted ih => rw [ih fits converts]
  | case3 => exact eq_of_beq fits

theorem writes?_ofTy {type : Ty} (converts : (ofTy type).converts = true) :
    (ofTy type).writes? = some type.spelled := by
  induction type with
  | simple kind => cases kind <;> rfl
  | list element ih => exact congrArg (Option.map Ty.list) (ih converts)
  | literal => rfl
  | map | emptyList | emptyMap => cases converts

/-- A value that was written is of the declared type exactly if it holds no text for a member. -/
theorem inhabits_write_iff {type : Ty} (converts : (ofTy type).converts = true)
    (answer : (ofTy type).Carrier) :
    ((ofTy type).write answer).Inhabits type ↔ (ofTy type).membersIn answer type = [] := by
  induction type with
  | simple kind =>
    have written : ((ofTy (.simple kind)).write answer).Inhabits (.simple kind) := by
      refine write_inhabits ?_ answer
      exact writes?_ofTy converts
    cases kind <;> exact iff_of_true written rfl
  | literal members =>
    refine iff_of_false (fun h => ?_) (List.cons_ne_nil _ _)
    cases h
  | list element ih =>
    refine Iff.trans ?_ List.flatMap_eq_nil_iff.symm
    constructor
    · intro h item mem
      have each := Value.forall_of_inhabits_list h
      exact (ih converts item).1 (each _ (List.mem_map_of_mem mem))
    · intro none
      refine .list fun v mem => ?_
      obtain ⟨item, listed, rfl⟩ := List.mem_map.1 mem
      exact (ih converts item).2 (none item listed)
  | map | emptyList | emptyMap => cases converts

end HostType

namespace HostFunction

/-- A call that succeeds has run the host function on what was read. -/
theorem exists_of_call {parameters : List HostType} {returns : Option HostType}
    {run : HostType.Carriers parameters → Context →
      Except String (HostType.Answer returns × Context)} {c c' : Context}
    {arguments : List Value} {v : Value}
    (h : (HostFunction.mk parameters returns run).call c arguments = .ok (v, c')) :
    ∃ data answer, HostType.readAll parameters arguments = .ok data ∧
      run data c = .ok (answer, c') ∧ v = HostType.writeAnswer returns answer := by
  unfold call at h
  cases read : HostType.readAll parameters arguments with
  | error message =>
    rw [read] at h
    cases h
  | ok data =>
    rw [read] at h
    cases ran : run data c with
    | error message =>
      simp only [bind, Except.bind, ran] at h
      cases h
    | ok result =>
      simp only [bind, Except.bind, ran] at h
      cases h
      exact ⟨data, result.1, rfl, ran, rfl⟩

/-- A function that is declared to return something has an answer that fits. -/
theorem fits_of_checkSignature {f : HostFunction} {types : List Ty} {declared : Ty}
    (h : f.checkSignature types (some declared) = .ok ()) :
    ∃ host, f.returns = some host ∧ host.fits (.ofTy declared) = true := by
  unfold checkSignature at h
  cases returns : f.returns with
  | none =>
    simp only [returns] at h
    cases h
  | some host =>
    simp only [returns] at h
    obtain ⟨fit, _⟩ := ok_of_guard h
    exact ⟨host, rfl, by simpa using fit⟩

end HostFunction

namespace Library

/-- What registering a function adds, and that its host types were checked. -/
theorem library_of_registered {lib : Library} {declaration : String} {host : HostFunction}
    {decl : NativeDecl} (h : (lib.register declaration host).registered = true)
    (read : NativeDecl.ofSource declaration = .ok decl) :
    (lib.register declaration host).library = { lib with natives := lib.natives ++
        [.ofHost decl.name (decl.parameters.map fun p => (p.name, p.type)) decl.returns host] } ∧
      host.checkSignature (decl.parameters.map Parameter.type) decl.returns = .ok () := by
  unfold register at h ⊢
  simp only [read] at h ⊢
  split at h
  · cases h
  · next checked =>
    simp only [checked]
    split at h
    · cases h
    · next fresh => simp [fresh]

end Library

namespace Machine

/-- A call of a host function that succeeds leaves what the function gives in place of its
arguments. -/
theorem values_of_native {m : Machine} {c : Context} {f : Function} {span : Span} {n : Nat}
    {W : List Work} {body : NativeBody} {call : Option String}
    (work : m.work.items = .invoke f span n :: W) (native : f.body = .native body)
    (succeeds : (m.step c).outcome = .ok call) :
    ∃ v c', body c (m.values.take n).reverse = .ok (v, c') ∧
      (m.step c).machine.values = v :: m.values.drop n := by
  have enough : n ≤ m.values.length := by
    rw [m.eq_machine, work, step_invoke] at succeeds
    cases ran : (invoke f span n c).run (m.setting.machine m.frames.items W m.values) with
    | error e m' =>
      rw [ran] at succeeds
      cases succeeds
    | ok result m' =>
      obtain ⟨arguments, _, popped, _⟩ := ok_of_bind ran
      exact (ok_popMany popped).1
  have count : (m.values.take n).reverse.length = n := by simp [enough]
  have whole : m = m.setting.machine m.frames.items (.invoke f span n :: W)
      ((m.values.take n).reverse.reverse ++ m.values.drop n) := by
    rw [List.reverse_reverse, List.take_append_drop, ← work, ← m.eq_machine]
  cases given : body c (m.values.take n).reverse with
  | error message =>
    have failed := @step_native_error m.setting m.frames.items W (m.values.drop n) c f body n _
      message native count given span
    rw [← whole] at failed
    rw [failed] at succeeds
    cases succeeds
  | ok result =>
    obtain ⟨v, c'⟩ := result
    have stepped := @step_native m.setting m.frames.items W (m.values.drop n) c f body n _ v c'
      native count given span
    rw [← whole] at stepped
    rw [stepped]
    exact ⟨v, c', rfl, rfl⟩

end Machine

/-- Answers of a registered function that converts them. A call that succeeds leaves what the host
function answered, written by its host type. That is of the declared type with texts in place of
members of literal types; it is of the declared type itself exactly if there is no member in it. -/
theorem answers_typed_iff_no_member {lib : Library} {declaration : String} {host : HostFunction}
    {decl : NativeDecl} {declared : Ty}
    (accepted : (lib.register declaration host).registered = true)
    (read : NativeDecl.ofSource declaration = .ok decl) (returns : decl.returns = some declared) :
    ∃ f type run,
      (lib.register declaration host).library = { lib with natives := lib.natives ++ [f] } ∧
      f.returns = some declared ∧ host = ⟨host.parameters, some type, run⟩ ∧
      f.body = .native host.call ∧
      (type.converts = true → ∀ (m : Machine) (c : Context) (span : Span) (n : Nat) (W : List Work)
        (call : Option String), m.work.items = .invoke f span n :: W →
        (m.step c).outcome = .ok call →
        ∃ data answer after,
          HostType.readAll host.parameters (m.values.take n).reverse = .ok data ∧
          run data c = .ok (answer, after) ∧
          (m.step c).machine.values = type.write answer :: m.values.drop n ∧
          (type.write answer).Inhabits declared.spelled ∧
          ((type.write answer).Inhabits declared ↔ type.membersIn answer declared = [])) := by
  obtain ⟨added, checked⟩ := Library.library_of_registered accepted read
  rw [returns] at checked
  obtain ⟨type, answers, fits⟩ := HostFunction.fits_of_checkSignature checked
  obtain ⟨parameters, returned, run⟩ := host
  cases answers
  refine ⟨_, type, run, added, returns, rfl, rfl, ?_⟩
  intro converts m c span n W call work succeeds
  cases HostType.eq_of_fits fits converts
  obtain ⟨v, after, called, values⟩ := Machine.values_of_native work rfl succeeds
  obtain ⟨data, answer, reads, ran, rfl⟩ := HostFunction.exists_of_call called
  refine ⟨data, answer, after, reads, ran, values, ?_, ?_⟩
  · exact HostType.write_inhabits (HostType.writes?_ofTy converts) answer
  · exact HostType.inhabits_write_iff converts answer

/-- The declaration of a function that answers with a list of members. -/
def gatherDeclaration : String := "native gather(rows: [[string]]): [<left, right>];"

def gatherHost : HostFunction :=
  ⟨[.list (.list .string)], some (.list .string),
    fun (rows, _) context => .ok (List.flatten rows, context)⟩

def gatherReturns : Ty := .list (.literal (.ofList ["left", "right"]))

def callingMachine (f : Function) (argument : Value) : Machine :=
  (Setting.mk .empty 1).machine [[]]
    [.invoke f ⟨Position.start "", Position.start ""⟩ 1] [argument]

theorem gather_registered :
    (Library.empty.register gatherDeclaration gatherHost).registered = true := by decide +kernel

theorem gather_declared : ∃ decl, NativeDecl.ofSource gatherDeclaration = .ok decl ∧
    decl.returns = some gatherReturns := by
  obtain ⟨decl, _, read, _⟩ := Library.exists_of_registered gather_registered
  have parsed : (NativeDecl.ofSource gatherDeclaration).toOption.map NativeDecl.returns =
      some (some gatherReturns) := by decide +kernel
  rw [read] at parsed
  exact ⟨decl, read, Option.some.inj parsed⟩

/-- Without rows there are no members, and the empty list that is left is of the declared type. -/
theorem answers_typed_iff_no_member_none :
    (Library.empty.register gatherDeclaration gatherHost).registered = true ∧
    ∃ decl f, NativeDecl.ofSource gatherDeclaration = .ok decl ∧
      decl.returns = some gatherReturns ∧
      (Library.empty.register gatherDeclaration gatherHost).library.natives = [f] ∧
      ((callingMachine f (.list [])).step (.initial "" 0)).machine.values = [.list []] ∧
      (Value.list []).Inhabits gatherReturns := by
  obtain ⟨decl, read, returns⟩ := gather_declared
  obtain ⟨f, type, run, added, _, same, body, answers⟩ :=
    answers_typed_iff_no_member gather_registered read returns
  cases same
  have stepped := @Machine.step_native ⟨.empty, 1⟩ [[]] [] [] (.initial "" 0) f _ 1 [.list []]
    (.list []) _ body rfl rfl ⟨Position.start "", Position.start ""⟩
  obtain ⟨data, answer, after, reads, ran, values, _, typed⟩ :=
    answers rfl (callingMachine f (.list [])) (.initial "" 0) _ 1 [] _ rfl
      (congrArg Machine.Step.outcome stepped)
  cases reads
  cases ran
  refine ⟨gather_registered, decl, f, read, returns, ?_, values, typed.2 rfl⟩
  rw [added]
  rfl

/-- A member that the host answers with is left as a text, which is not of the declared type. -/
theorem member_answered_as_text :
    (Library.empty.register gatherDeclaration gatherHost).registered = true ∧
    ∃ f, (Library.empty.register gatherDeclaration gatherHost).library.natives = [f] ∧
      f.returns = some gatherReturns ∧
      HostType.Denotes (.list .string) ["left"] gatherReturns ∧
      ((callingMachine f (.list [.list [.string "left"]])).step (.initial "" 0)).outcome.isOk =
        true ∧
      ((callingMachine f (.list [.list [.string "left"]])).step (.initial "" 0)).machine.values =
        [.list [.string "left"]] ∧
      ¬ (Value.list [.string "left"]).Inhabits gatherReturns := by
  obtain ⟨decl, read, returns⟩ := gather_declared
  obtain ⟨added, _⟩ := Library.library_of_registered gather_registered read
  let f : Function := .ofHost decl.name (decl.parameters.map fun p => (p.name, p.type)) decl.returns
    gatherHost
  have stepped := @Machine.step_native ⟨.empty, 1⟩ [[]] [] [] (.initial "" 0) f _ 1
    [.list [.list [.string "left"]]] (.list [.string "left"]) _ rfl rfl rfl
    ⟨Position.start "", Position.start ""⟩
  refine ⟨gather_registered, f, by rw [added]; rfl, returns, ?_, ?_, ?_, fun h => ?_⟩
  · exact (by decide : "left" ∈ (NameSet.ofList ["left", "right"]).names)
  · exact congrArg (fun step => step.outcome.isOk) stepped
  · exact congrArg (fun step => step.machine.values) stepped
  · cases Value.forall_of_inhabits_list h (.string "left") (by simp)

end CursorScript
