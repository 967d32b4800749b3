import CursorScript.Proofs.Activation

/-!
What a step does to a machine whose three stacks fit each other: work that awaits the values on top,
calls that wait with the rest, and a frame for each. Such a machine fails for the values that it
meets, or it comes to another of the same kind; a call adds one waiting call and its end takes one
away, with one value in its place.
-/
namespace CursorScript

structure Caller where
  /-- Where the other call was made. -/
  point : Point
  /-- What is left to do afterwards. -/
  work : List Work
  /-- The values below the one that is waited for. -/
  values : List Value
  /-- What that value fills. -/
  result : Option Ty

namespace Caller

/-- The work below the innermost call, which has none if it is the script itself. -/
def exitOf (callers : List Caller) : Option (List Work) := callers.head?.map work

def resultOf (callers : List Caller) : Option (Option Ty) := callers.head?.map result

/-- The values below those of the innermost call. -/
def baseOf (callers : List Caller) : List Value := (callers.head?.map values).getD []

end Caller
open Caller

namespace Layout

theorem Admits.fills {L : Layout} {place given : Option Ty} {v : Value}
    (h : Admits place given) (fills : L.Fills v given) : L.Fills v place :=
  fun trusted => h v (fills trusted)

theorem FillAll.inhabits {L : Layout} {values : List Value} {types : List Ty}
    (h : L.FillAll values types) (trusted : L.Trusted) :
    List.Forall₂ Value.Inhabits values types :=
  List.Forall₂.imp (fun _ _ fills => fills trusted) h

/-- Values for some slots on top of others. -/
inductive Holds (L : Layout) (base : List Value) : List (Option Ty) → List Value → Prop
  | base : Holds L base [] base
  | fill {v : Value} {slot : Option Ty} {slots : List (Option Ty)} {V : List Value}
      (fills : L.Fills v slot) (rest : Holds L base slots V) : Holds L base (slot :: slots) (v :: V)

/-- Arguments that were pushed one after the other stand in reverse. -/
theorem Holds.arguments {L : Layout} {base V : List Value} {types : List Ty}
    {slots : List (Option Ty)} (h : L.Holds base (types.reverse.map some ++ slots) V) :
    ∃ args rest, V = args.reverse ++ rest ∧ L.FillAll args types ∧ L.Holds base slots rest := by
  induction types generalizing slots with
  | nil => exact ⟨[], V, rfl, .nil, h⟩
  | cons type types ih =>
    rw [List.reverse_cons, List.map_append, List.append_assoc] at h
    obtain ⟨args, rest, same, filled, h⟩ := ih h
    cases h with
    | @fill v _ _ rest fills h =>
      exact ⟨v :: args, rest, by simp [same], .cons fills filled, h⟩

inductive Suspended (L : Layout) : List Caller → Prop
  | none : Suspended L []
  | call {s : Caller} {callers : List Caller} {place : Option Ty} {slots : List (Option Ty)}
      (awaits : L.Awaits (exitOf callers) s.point (place :: slots) s.work)
      (admits : Admits place s.result) (holds : L.Holds (baseOf callers) slots s.values)
      (result : s.point.result = resultOf callers) (below : Suspended L callers) :
      Suspended L (s :: callers)

/-- The innermost call is at a place, and others wait for it. -/
structure Placed (L : Layout) (P : Point) (callers : List Caller) (fs : List Frame) : Prop where
  result : P.result = resultOf callers
  suspended : L.Suspended callers
  standing : L.Standing (P :: callers.map Caller.point) fs

structure Typed (L : Layout) (P : Point) (callers : List Caller) (fs : List Frame)
    (W : List Work) (V : List Value) : Prop where
  placed : L.Placed P callers fs
  ready : ∃ slots, L.Awaits (exitOf callers) P slots W ∧ L.Holds (baseOf callers) slots V

end Layout

/-- A machine whose stacks fit each other, with some calls that wait for the innermost. -/
structure Machine.Fitted (L : Layout) (σ : Setting) (P : Point) (callers : List Caller)
    (m : Machine) : Prop where
  setting : m.setting = σ
  typed : L.Typed P callers m.frames.items m.work.items m.values

/-- Why a machine may fail: for the values that an operator meets, for a call beyond the limit, or
because a function of the host refuses arguments of the types it asks for by a check of its own. -/
inductive Permitted (refuses : Refusal) (limit depth : Nat) (W : List Work) (V : List Value) :
    Cause → Prop
  | fault {cause : Cause} (lies : Operator.Fault cause) : Permitted refuses limit depth W V cause
  | deep {f : Function} {decl : FunctionDecl Stmt} {span : Span} {n : Nat} {K : List Work}
      (calls : W = .invoke f span n :: K) (script : f.body = .script decl) (full : limit ≤ depth) :
      Permitted refuses limit depth W V (.recursionLimit limit)
  | refused {f : Function} {run : NativeBody} {span : Span} {n : Nat} {K : List Work}
      {message : String} (calls : W = .invoke f span n :: K) (native : f.body = .native run)
      (inhabits : List.Forall₂ Value.Inhabits (V.take n).reverse f.parameterTypes)
      (refused : refuses f.name (V.take n).reverse message) :
      Permitted refuses limit depth W V (.nativeCallFailed f.name message)

namespace Layout

/-- What may come of a machine that fits, whose innermost call is at `P`. -/
inductive Outcome (L : Layout) (P : Point) (callers : List Caller) (m : Machine) :
    Machine.Step → Prop
  | fails {e : Error} {m' : Machine} {c : Context}
      (permitted : L.Trusted → Permitted L.refuses m.maxDepth m.depth m.work.items m.values e.cause) :
      Outcome L P callers m ⟨.error e, m', c⟩
  | stays {Q : Point} {m' : Machine} {c : Context} (chain : Q.chain = P.chain)
      (fitted : m'.Fitted L m.setting Q callers) : Outcome L P callers m ⟨.ok none, m', c⟩
  | answers {f : Function} {run : NativeBody} {span : Span} {n : Nat} {v : Value} {m' : Machine}
      {c : Context} {call : String} (calls : m.work.items = .invoke f span n :: m'.work.items)
      (native : f.body = .native run) (fills : L.Fills v f.returns)
      (values : m'.values = v :: m.values.drop n) (fitted : m'.Fitted L m.setting P callers) :
      Outcome L P callers m ⟨.ok (some call), m', c⟩
  | enters {f : Function} {site : Site} {span : Span} {n : Nat} {s : Caller} {m' : Machine}
      {c : Context} {call : String} (calls : m.work.items = .invoke f span n :: s.work)
      (script : f.body = .script site.decl) (known : site ∈ L.sites)
      (nested : site.point.chain <:+ P.chain) (here : s.point = P) (result : s.result = f.returns)
      (values : s.values = m.values.drop n)
      (fitted : m'.Fitted L m.setting (site.point.inside L.tables site.decl) (s :: callers)) :
      Outcome L P callers m ⟨.ok (some call), m', c⟩
  | leaves {s : Caller} {others : List Caller} {v : Value} {m' : Machine} {c : Context}
      (waits : callers = s :: others) (fills : L.Fills v s.result)
      (work : m'.work.items = s.work) (values : m'.values = v :: s.values)
      (fitted : m'.Fitted L m.setting s.point others) : Outcome L P callers m ⟨.ok none, m', c⟩

/-- The next item of work of a machine comes to one of these. -/
def Moves (L : Layout) (P : Point) (callers : List Caller) (m : Machine) (c : Context) : Prop :=
  L.Outcome P callers m (m.step c)

section placing
variable {L : Layout} {σ : Setting} {P Q : Point} {callers : List Caller} {fs fs' : List Frame}
  {W W' : List Work} {V V' : List Value} {c : Context} {item : Work}

theorem Placed.narrow (h : L.Placed P callers fs) (chain : Q.chain = P.chain)
    (result : Q.result = P.result) (visible : Q.visible ⊆ P.visible) : L.Placed Q callers fs :=
  ⟨result.trans h.result, h.suspended, h.standing.narrow chain visible⟩

/-- Work that takes no values finds none of its own call. -/
theorem Typed.of_resumes (h : L.Placed P callers fs)
    (resumes : L.Resumes (exitOf callers) P True W) : L.Typed P callers fs W (baseOf callers) :=
  ⟨h, [], .resume resumes, .base⟩

/-- An item that does its work within the call. -/
theorem Moves.of_perform (quiet : item.isInvoke = false)
    (done : (Machine.perform item).run (σ.machine fs W V) = .ok () (σ.machine fs' W' V'))
    (chain : Q.chain = P.chain) (typed : L.Typed Q callers fs' W' V') :
    L.Moves P callers (σ.machine fs (item :: W) V) c := by
  rw [Moves, Machine.step_item quiet, done]
  exact .stays chain ⟨rfl, typed⟩

theorem Moves.of_fault {cause : Cause} {p : Position} {m : Machine} (quiet : item.isInvoke = false)
    (done : (Machine.perform item).run (σ.machine fs W V) = .error ⟨cause, p⟩ m)
    (lies : L.Trusted → Operator.Fault cause) :
    L.Moves P callers (σ.machine fs (item :: W) V) c := by
  rw [Moves, Machine.step_item quiet, done]
  exact .fails fun trusted => .fault (lies trusted)

end placing

section statements
variable {L : Layout} {σ : Setting} {P Q : Point} {callers : List Caller} {fs : List Frame}
  {W : List Work} {c : Context}

theorem moves_stmt {s : Stmt} (tables : σ.tables = L.tables) (placed : L.Placed Q callers fs)
    (chain : Q.chain = P.chain) (fits : L.Fits Q s)
    (rest : L.Resumes (exitOf callers) (Q.after L.tables s) (True ∧ s.returns = false) W) :
    L.Moves P callers (σ.machine fs (.stmt s :: W) (baseOf callers)) c := by
  cases fits with
  | @block _ b body =>
    obtain ⟨mark, stmts⟩ := b
    exact .of_perform rfl (Machine.perform_block _) chain
      (.of_resumes placed (.items body (.refl _) rest))
  | expression inner =>
    have rest := rest.reached rfl
    exact .of_perform rfl (Machine.perform_expression _ _) chain
      ⟨placed, [], .expr inner (admits_refl _) (.discard rest), .base⟩
  | @declare _ mark name type T value x recorded declared inner accepts =>
    have rest := rest.reached rfl
    rw [Point.after, recorded] at rest
    refine .of_perform rfl (Machine.perform_declaration (tables ▸ recorded) name type value) chain
      ⟨placed, [], ?_, .base⟩
    exact .expr inner (admits_of_acceptsBinding accepts) (.declare declared rfl rest)
  | assign plain recorded seen declared inner accepts =>
    have rest := rest.reached rfl
    refine .of_perform rfl (Machine.perform_assignment (tables ▸ recorded) plain _) chain
      ⟨placed, [], ?_, .base⟩
    exact .expr inner (admits_of_acceptsBinding accepts) (.store seen declared rest)
  | compute compound recorded seen declared inner chosen joins =>
    have rest := rest.reached rfl
    refine .of_perform rfl
      (Machine.perform_compound (tables ▸ recorded) compound (tables ▸ chosen) _) chain
      ⟨placed, [], ?_, .base⟩
    exact .expr inner (admits_refl _) (.compute seen declared joins rest)
  | @branch _ mark condition b other test body otherwise =>
    obtain ⟨inner, stmts⟩ := b
    have rest := rest.widen (.refl _) fun goes => ⟨trivial, goes⟩
    exact .of_perform rfl (Machine.perform_branch _ _ _ _) chain
      ⟨placed, [], .expr test (admits_refl _) (.branch body otherwise rest), .base⟩
  | whileLoop test body =>
    have rest := rest.reached rfl
    exact .of_perform rfl (Machine.perform_whileLoop _ _ _) chain
      ⟨placed, [], .expr test (admits_refl _) (.whileTest ⟨test, body⟩ rest), .base⟩
  | repeatLoop rounds body =>
    have rest := rest.reached rfl
    exact .of_perform rfl (Machine.perform_repeatLoop _ _ _) chain
      ⟨placed, [], .expr rounds (admits_refl _) (.repeatCount body rest), .base⟩
  | function decl =>
    have rest := rest.reached rfl
    exact .of_perform rfl rfl chain (.of_resumes placed rest)
  | ret asked inner accepts =>
    exact .of_perform rfl (Machine.perform_return _ _) chain ⟨placed, [],
      .expr inner (admits_of_acceptsBinding accepts) (.leaveCall asked rest), .base⟩
  | bareRet asked =>
    exact .of_perform rfl (Machine.perform_bareReturn _) chain
      ⟨placed, [none], .leaveCall asked rest, .fill (fun _ => rfl) .base⟩
  | brk inside kept =>
    obtain ⟨outer, K, below, same, result, seen, rest⟩ := rest.below_break inside
    exact .of_perform rfl (Machine.perform_break below _) (same.trans chain)
      (.of_resumes (placed.narrow same result (List.Subset.trans seen kept)) rest)
  | cont inside kept =>
    obtain ⟨outer, loop, K, below, same, result, seen, rounds, rest⟩ := rest.below_continue inside
    exact .of_perform rfl (Machine.perform_continue below _) (same.trans chain)
      ⟨placed.narrow same result (List.Subset.trans seen kept), [], .again rounds rest, .base⟩

end statements

theorem inhabits_list {α : Type} {vs : List Value} {es : List α} {element : Ty}
    (h : List.Forall₂ Value.Inhabits vs (es.map fun _ => element)) :
    (Value.list vs).Inhabits (.list element) := by
  refine .list ?_
  induction es generalizing vs with
  | nil =>
    cases h
    simp
  | cons e es ih =>
    cases h with
    | cons first others =>
      intro v mem
      rcases List.mem_cons.1 mem with rfl | mem
      · exact first
      · exact ih others v mem

theorem inhabits_map {α : Type} {vs : List Value} {entries : List α} {key value : Ty}
    (h : List.Forall₂ Value.Inhabits vs (entries.flatMap fun _ => [key, value])) :
    (Value.map (Value.entriesOf (Machine.pairs vs))).Inhabits (.map key value) := by
  refine Value.inhabits_entriesOf ?_
  induction entries generalizing vs with
  | nil =>
    cases h
    simp [Machine.pairs]
  | cons entry entries ih =>
    cases h with
    | cons first h =>
      cases h with
      | cons second others =>
        intro entry mem
        rcases List.mem_cons.1 mem with rfl | mem
        · exact ⟨first, second⟩
        · exact ih others entry mem

section expressions
variable {L : Layout} {σ : Setting} {P : Point} {callers : List Caller} {fs : List Frame}
  {W : List Work} {V : List Value} {c : Context} {place : Option Ty} {slots : List (Option Ty)}

/-- An expression that leaves its value at once. -/
theorem moves_value {e : Expr} {v : Value} (placed : L.Placed P callers fs)
    (done : (Machine.perform (.expr e)).run (σ.machine fs W V) = .ok () (σ.machine fs W (v :: V)))
    (fills : L.Fills v place) (rest : L.Awaits (exitOf callers) P (place :: slots) W)
    (holds : L.Holds (baseOf callers) slots V) :
    L.Moves P callers (σ.machine fs (.expr e :: W) V) c :=
  .of_perform rfl done rfl ⟨placed, _, rest, .fill fills holds⟩

theorem moves_expr {e : Expr} {given : Option Ty} (tables : σ.tables = L.tables)
    (placed : L.Placed P callers fs) (yields : L.Yields P e given) (admits : Admits place given)
    (rest : L.Awaits (exitOf callers) P (place :: slots) W)
    (holds : L.Holds (baseOf callers) slots V) :
    L.Moves P callers (σ.machine fs (.expr e :: W) V) c := by
  cases yields with
  | number mark n => exact moves_value placed rfl (admits.fills fun _ => .number n) rest holds
  | real mark x => exact moves_value placed rfl (admits.fills fun _ => .real x) rest holds
  | logic mark b => exact moves_value placed rfl (admits.fills fun _ => .logic b) rest holds
  | string mark s => exact moves_value placed rfl (admits.fills fun _ => .string s) rest holds
  | material mark space name => exact moves_value placed rfl (admits.fills fun _ => .material _) rest holds
  | member mark name =>
    have fills : L.Fills (.literal name) (some (.literal (.singleton name))) := fun _ =>
      .literal (NameSet.mem_insert.2 (.inl rfl))
    exact moves_value placed rfl (admits.fills fills) rest holds
  | symbol recorded seen declared =>
    obtain ⟨v, held, fills⟩ := placed.standing.read seen declared
    exact moves_value placed (Machine.perform_symbol (tables ▸ recorded) held) (admits.fills fills)
      rest holds
  | interpolation embedded =>
    exact .of_perform rfl (Machine.perform_interpolation _ _) rfl ⟨placed, slots,
      .operands embedded (.joinText (length_of_yieldAll embedded) admits rest), holds⟩
  | binary first second chosen joins =>
    exact .of_perform rfl (Machine.perform_binary (tables ▸ chosen) _ _ _) rfl ⟨placed, slots,
      .expr first (admits_refl _) (.expr second (admits_refl _) (.applyBinary joins admits rest)),
      holds⟩
  | unary inner chosen turns =>
    exact .of_perform rfl (Machine.perform_unary (tables ▸ chosen) _ _) rfl ⟨placed, slots,
      .expr inner (admits_refl _) (.applyUnary turns admits rest), holds⟩
  | index first second chosen joins =>
    exact .of_perform rfl (Machine.perform_index (tables ▸ chosen) _ _) rfl ⟨placed, slots,
      .expr first (admits_refl _) (.expr second (admits_refl _) (.applyBinary joins admits rest)),
      holds⟩
  | call recorded callable arguments =>
    exact .of_perform rfl (Machine.perform_call (tables ▸ recorded) _ _) rfl ⟨placed, slots,
      .operands arguments (.invoke (length_of_yieldAll arguments) callable admits rest), holds⟩
  | list all =>
    refine .of_perform rfl (Machine.perform_list _ _) rfl ⟨placed, slots,
      .operands all (.makeList (length_of_yieldAll all) ?_ rest), holds⟩
    exact fun vs h => admits (.list vs) (inhabits_list h)
  | emptyList mark =>
    have makes : ∀ vs, List.Forall₂ Value.Inhabits vs [] → (Value.list vs).Fills place := by
      intro vs h
      cases h
      exact admits _ .emptyList
    exact .of_perform rfl (Machine.perform_list _ _) rfl ⟨placed, slots,
      .makeList rfl makes rest, holds⟩
  | @map mark entries key value all =>
    have count : (entries.flatMap fun _ => [key, value]).length = entries.length * 2 := by
      simp [List.length_flatMap]
    refine .of_perform rfl (Machine.perform_map _ _) rfl ⟨placed, slots,
      .operands all (.makeMap count ?_ rest), holds⟩
    exact fun vs h => admits (.map (Value.entriesOf (Machine.pairs vs))) (inhabits_map h)
  | emptyMap mark =>
    have makes : ∀ vs, List.Forall₂ Value.Inhabits vs [] →
        (Value.map (Value.entriesOf (Machine.pairs vs))).Fills place := by
      intro vs h
      cases h
      exact admits _ .emptyMap
    exact .of_perform rfl (Machine.perform_map _ _) rfl ⟨placed, slots,
      .makeMap rfl makes rest, holds⟩

end expressions

section behind
variable {L : Layout} {σ : Setting} {P : Point} {callers : List Caller} {fs : List Frame}
  {W : List Work} {V : List Value} {c : Context}

theorem fits_of_otherwise {other : Option Stmt} (h : L.FitOther P other) :
    L.FitAll P other.toList ∧ Stmt.anyReturns other.toList = Stmt.otherReturns other := by
  cases h with
  | none => exact ⟨.nil _, rfl⟩
  | some _ fits => exact ⟨.cons fits (.nil _), by simp [Stmt.anyReturns, Stmt.otherReturns]⟩

theorem moves_branch {b : Block Stmt} {other : Option Stmt} {p : Position} {v : Value}
    (placed : L.Placed P callers fs) (body : L.FitAll P b.body) (otherwise : L.FitOther P other)
    (rest : L.Resumes (exitOf callers) P
      ((Stmt.anyReturns b.body && Stmt.otherReturns other) = false) W)
    (logic : L.Fills v (some .logic)) :
    L.Moves P callers (σ.machine fs (.branch p b other :: W) (v :: baseOf callers)) c := by
  cases v with
  | logic test =>
    refine .of_perform rfl (Machine.perform_choose test p b other) rfl (.of_resumes placed ?_)
    cases test with
    | true =>
      refine .items body (.refl _) (rest.widen (.refl _) fun goes => ?_)
      rw [goes.2, Bool.false_and]
    | false =>
      obtain ⟨fits, returns⟩ := fits_of_otherwise otherwise
      refine .items fits (.refl _) (rest.widen (.refl _) fun goes => ?_)
      rw [← returns, goes.2, Bool.and_false]
  | _ => exact .of_fault rfl rfl fun trusted => nomatch logic trusted

theorem resumes_timesWork {b : Block Stmt} (body : L.FitAll P.loop b.body)
    (placed : L.Placed P callers fs) (rest : L.Resumes (exitOf callers) P True W) (n : Nat) :
    ∃ Q, Q.chain = P.chain ∧
      L.Typed Q callers fs (Machine.timesWork b W n) (baseOf callers) := by
  cases n with
  | zero => exact ⟨P, rfl, .of_resumes placed rest⟩
  | succ n =>
    refine ⟨P.loop, rfl, .of_resumes (placed.narrow rfl rfl (List.Subset.refl _)) ?_⟩
    exact .enterRound body body rest

theorem moves_again {loop : Loop} (placed : L.Placed P callers fs) (rounds : L.Rounds P loop)
    (rest : L.Resumes (exitOf callers) P True W) :
    L.Moves P callers (σ.machine fs (.again loop :: .breakPointer :: W) (baseOf callers)) c := by
  cases loop with
  | whileTrue mark condition body =>
    exact .of_perform rfl (Machine.perform_again_while _ _ _) rfl
      ⟨placed, [], .expr rounds.1 (admits_refl _) (.whileTest rounds rest), .base⟩
  | times n body =>
    obtain ⟨Q, chain, typed⟩ := resumes_timesWork rounds placed rest n
    exact .of_perform rfl (Machine.perform_again_times n body) chain typed

theorem moves_whileTest {mark : Mark} {condition : Expr} {b : Block Stmt} {v : Value}
    (placed : L.Placed P callers fs) (rounds : L.Rounds P (.whileTrue mark condition b))
    (rest : L.Resumes (exitOf callers) P True W) (logic : L.Fills v (some .logic)) :
    L.Moves P callers (σ.machine fs (.whileTest mark condition b :: W) (v :: baseOf callers)) c := by
  cases v with
  | logic test =>
    cases test with
    | true =>
      refine .of_perform rfl (Machine.perform_whileTest true mark condition b)
        (show P.loop.chain = P.chain from rfl)
        (.of_resumes (placed.narrow rfl rfl (List.Subset.refl _)) ?_)
      exact .enterRound rounds.2 rounds rest
    | false =>
      exact .of_perform rfl (Machine.perform_whileTest false mark condition b) rfl
        (.of_resumes placed rest)
  | _ => exact .of_fault rfl rfl fun trusted => nomatch logic trusted

theorem moves_repeatCount {b : Block Stmt} {p : Position} {v : Value}
    (placed : L.Placed P callers fs) (body : L.FitAll P.loop b.body)
    (rest : L.Resumes (exitOf callers) P True W) (number : L.Fills v (some .number)) :
    L.Moves P callers (σ.machine fs (.repeatCount p b :: W) (v :: baseOf callers)) c := by
  cases v with
  | number n =>
    obtain ⟨Q, chain, typed⟩ := resumes_timesWork body placed rest n.toNat
    exact .of_perform rfl (Machine.perform_repeatCount n p b) chain typed
  | _ => exact .of_fault rfl rfl fun trusted => nomatch number trusted

theorem moves_declare {x : Nat} {d : Declaration} {p : Position} {v : Value}
    (placed : L.Placed P callers fs) (declared : L.declarations[x]? = some d)
    (owner : d.owner = P.function) (rest : L.Resumes (exitOf callers) (P.see [x]) True W)
    (fills : L.Fills v (some d.type)) :
    L.Moves P callers (σ.machine fs (.declare x p :: W) (v :: baseOf callers)) c := by
  cases fs with
  | nil => exact absurd placed.standing.length_eq (by simp)
  | cons frame fs =>
    have standing := placed.standing.declare declared owner fills
    refine .of_perform rfl ?_ (show (P.see [x]).chain = P.chain from rfl)
      (.of_resumes ⟨placed.result, placed.suspended, standing⟩ rest)
    simp [Machine.perform]

theorem moves_store {x : Nat} {d : Declaration} {p : Position} {v : Value}
    (placed : L.Placed P callers fs) (seen : x ∈ P.visible)
    (declared : L.declarations[x]? = some d) (rest : L.Resumes (exitOf callers) P True W)
    (fills : L.Fills v (some d.type)) :
    L.Moves P callers (σ.machine fs (.store x none p :: W) (v :: baseOf callers)) c := by
  obtain ⟨fs', assigned, standing⟩ := placed.standing.assign seen declared fills
  exact .of_perform rfl (Machine.perform_store assigned p) rfl
    (.of_resumes ⟨placed.result, placed.suspended, standing⟩ rest)

theorem moves_compute {x : Nat} {d : Declaration} {T : Ty} {op : Operator} {p : Position}
    {v : Value} (placed : L.Placed P callers fs) (seen : x ∈ P.visible)
    (declared : L.declarations[x]? = some d) (joins : op.Joins d.type T d.type)
    (rest : L.Resumes (exitOf callers) P True W) (fills : L.Fills v (some T)) :
    L.Moves P callers (σ.machine fs (.store x (some op) p :: W) (v :: baseOf callers)) c := by
  obtain ⟨current, held, typed⟩ := placed.standing.read seen declared
  have keeps := fun trusted => joins current v (typed trusted) (fills trusted)
  cases applied : op.applyBinary current v with
  | ok result =>
    rw [applied] at keeps
    obtain ⟨fs', assigned, standing⟩ := placed.standing.assign seen declared keeps
    exact .of_perform rfl (Machine.perform_storeResult held applied assigned p) rfl
      (.of_resumes ⟨placed.result, placed.suspended, standing⟩ rest)
  | error cause =>
    rw [applied] at keeps
    exact .of_fault rfl (Machine.perform_store_error held applied p) keeps

end behind

section operators
variable {L : Layout} {σ : Setting} {P : Point} {callers : List Caller} {fs : List Frame}
  {W : List Work} {V : List Value} {c : Context} {place : Option Ty} {slots : List (Option Ty)}

theorem moves_applyBinary {T U R : Ty} {op : Operator} {p : Position} {left right : Value}
    (placed : L.Placed P callers fs) (joins : op.Joins T U R) (admits : Admits place (some R))
    (rest : L.Awaits (exitOf callers) P (place :: slots) W) (first : L.Fills left (some T))
    (second : L.Fills right (some U)) (holds : L.Holds (baseOf callers) slots V) :
    L.Moves P callers (σ.machine fs (.applyBinary op p :: W) (right :: left :: V)) c := by
  have keeps := fun trusted => joins left right (first trusted) (second trusted)
  cases applied : op.applyBinary left right with
  | ok result =>
    rw [applied] at keeps
    exact .of_perform rfl (Machine.perform_applyBinary applied p) rfl
      ⟨placed, _, rest, .fill (admits.fills keeps) holds⟩
  | error cause =>
    rw [applied] at keeps
    exact .of_fault rfl (Machine.perform_applyBinary_error applied p) keeps

theorem moves_applyUnary {T R : Ty} {op : Operator} {p : Position} {operand : Value}
    (placed : L.Placed P callers fs) (turns : op.Turns T R) (admits : Admits place (some R))
    (rest : L.Awaits (exitOf callers) P (place :: slots) W) (inner : L.Fills operand (some T))
    (holds : L.Holds (baseOf callers) slots V) :
    L.Moves P callers (σ.machine fs (.applyUnary op p :: W) (operand :: V)) c := by
  have keeps := fun trusted => turns operand (inner trusted)
  cases applied : op.applyUnary operand with
  | ok result =>
    rw [applied] at keeps
    exact .of_perform rfl (Machine.perform_applyUnary applied p) rfl
      ⟨placed, _, rest, .fill (admits.fills keeps) holds⟩
  | error cause =>
    rw [applied] at keeps
    exact .of_fault rfl (Machine.perform_applyUnary_error applied p) keeps

end operators

section calls
variable {L : Layout} {σ : Setting} {P : Point} {callers : List Caller} {fs : List Frame}
  {W : List Work} {V : List Value} {c : Context}

/-- A call that has its value goes, and the one that made it goes on. -/
theorem Placed.leave {s : Caller} (h : L.Placed P (s :: callers) fs) {v : Value}
    (fills : L.Fills v s.result) :
    ∃ frame fs', fs = frame :: fs' ∧ L.Typed s.point callers fs' s.work (v :: s.values) := by
  obtain ⟨frame, fs', rfl, standing⟩ := h.standing.leave
  refine ⟨frame, fs', rfl, ?_⟩
  cases h.suspended with
  | call awaits admits holds result below =>
    exact ⟨⟨result, below, standing⟩, _, awaits, .fill (admits.fills fills) holds⟩

/-- Where a call is to give something there is one that waits for it. -/
theorem Placed.caller {R : Option Ty} (h : L.Placed P callers fs) (result : P.result = some R) :
    ∃ s others, callers = s :: others ∧ s.result = R := by
  have asked := h.result
  cases callers with
  | nil =>
    rw [result] at asked
    cases asked
  | cons s others =>
    rw [result] at asked
    exact ⟨s, others, rfl, (Option.some.inj asked).symm⟩

theorem moves_leaveCall {R : Option Ty} {live : Prop} {p : Position} {v : Value}
    (placed : L.Placed P callers fs) (result : P.result = some R)
    (rest : L.Resumes (exitOf callers) P live W) (fills : L.Fills v R) :
    L.Moves P callers (σ.machine fs (.leaveCall p :: W) (v :: baseOf callers)) c := by
  obtain ⟨s, others, rfl, rfl⟩ := placed.caller result
  obtain ⟨frame, fs', rfl, typed⟩ := placed.leave fills
  rw [Moves, Machine.step_item rfl, Machine.perform_leaveCall rest.below_return]
  exact .leaves rfl fills rfl rfl ⟨rfl, typed⟩

theorem moves_returnPointer {R : Option Ty} {K : List Work} {v : Value}
    (placed : L.Placed P callers fs) (call : exitOf callers = some K)
    (result : P.result = some R) (fills : L.Fills v R) :
    L.Moves P callers (σ.machine fs (.returnPointer :: K) (v :: baseOf callers)) c := by
  obtain ⟨s, others, rfl, rfl⟩ := placed.caller result
  obtain ⟨frame, fs', rfl, typed⟩ := placed.leave fills
  cases call
  rw [Moves, Machine.step_item rfl, Machine.perform_returnPointer]
  exact .leaves rfl fills rfl rfl ⟨rfl, typed⟩

theorem moves_resume (tables : σ.tables = L.tables) (placed : L.Placed P callers fs)
    (resumes : L.Resumes (exitOf callers) P True W) :
    L.Moves P callers (σ.machine fs W (baseOf callers)) c := by
  cases resumes with
  | finish script result around =>
    exact .stays rfl ⟨rfl, .of_resumes placed (.finish script result around)⟩
  | leave call result around unit =>
    refine .of_perform rfl (Machine.run_push .unit) rfl
      ⟨placed, [none], .returnPointer call ?_, .fill (fun _ => rfl) .base⟩
    rw [result, unit trivial]
  | @stmt _ Q _ s _ within fits rest =>
    -- A statement may stand where less is seen than its call has come to hold, as behind a block.
    have narrowed := placed.narrow within.chain within.result within.visible
    exact moves_stmt tables narrowed within.chain fits rest
  | round around kept visible chain result rounds rest =>
    exact .of_perform rfl rfl chain
      ⟨placed.narrow chain result visible, [], .again rounds rest, .base⟩

theorem moves_native {f : Function} {run : NativeBody} {types : List Ty} {span : Span} {n : Nat}
    {place : Option Ty} {slots : List (Option Ty)} {args : List Value}
    (placed : L.Placed P callers fs) (native : f.body = .native run)
    (sound : L.Trusted → f.parameterTypes = types ∧ f.Sound L.refuses)
    (admits : Admits place f.returns) (rest : L.Awaits (exitOf callers) P (place :: slots) W)
    (count : args.length = n) (fills : L.FillAll args types)
    (holds : L.Holds (baseOf callers) slots V) :
    L.Moves P callers (σ.machine fs (.invoke f span n :: W) (args.reverse ++ V)) c := by
  have taken : ((args.reverse ++ V).take n).reverse = args := by simp [← count]
  have left : (args.reverse ++ V).drop n = V := by simp [← count]
  have inhabits : L.Trusted → List.Forall₂ Value.Inhabits args f.parameterTypes := by
    intro trusted
    rw [(sound trusted).1]
    exact fills.inhabits trusted
  have answers := fun trusted => (sound trusted).2 run native c args (inhabits trusted)
  cases answered : run c args with
  | ok answer =>
    obtain ⟨v, c'⟩ := answer
    rw [answered] at answers
    rw [Moves, Machine.step_native native count answered]
    refine .answers rfl native answers (by simp [left]) ⟨rfl, placed, _, rest, ?_⟩
    exact .fill (admits.fills answers) holds
  | error message =>
    rw [answered] at answers
    rw [Moves, Machine.step_native_error native count answered]
    exact .fails fun trusted =>
      .refused rfl native (taken.symm ▸ inhabits trusted) (taken.symm ▸ answers trusted)

theorem moves_script {f : Function} {site : Site} {span : Span} {n : Nat}
    {place : Option Ty} {slots : List (Option Ty)} {args : List Value}
    (tables : σ.tables = L.tables) (placed : L.Placed P callers fs) (known : site ∈ L.sites)
    (sound : L.Sound site) (declares : f = .ofDecl site.decl)
    (visible : site.point.visible ⊆ P.visible) (nested : site.point.chain <:+ P.chain)
    (admits : Admits place f.returns) (rest : L.Awaits (exitOf callers) P (place :: slots) W)
    (count : args.length = n) (fills : L.FillAll args f.parameterTypes)
    (holds : L.Holds (baseOf callers) slots V) :
    L.Moves P callers (σ.machine fs (.invoke f span n :: W) (args.reverse ++ V)) c := by
  have left : (args.reverse ++ V).drop n = V := by simp [← count]
  subst declares
  by_cases room : fs.length - 1 < σ.maxDepth
  · obtain ⟨frame, bound, standing⟩ :=
      placed.standing.enter tables sound visible nested fills
    rw [Moves, Machine.step_script rfl count room bound]
    refine @Outcome.enters L P callers _ _ site span n ⟨P, W, V, site.decl.returns⟩ _ c _ rfl rfl
      known nested rfl rfl left.symm ⟨rfl, ⟨rfl, ?_, standing⟩, [], .resume ?_, .base⟩
    · exact .call rest admits holds placed.result placed.suspended
    · refine .items sound.body (.refl _) (.leave rfl rfl rfl fun goes => ?_)
      -- A body that may be run to its end belongs to a function that returns nothing.
      cases returns : site.decl.returns with
      | none => rfl
      | some type =>
        have ends := sound.ends (by rw [returns]; rfl)
        rw [goes.2] at ends
        cases ends
  · have full := Nat.le_of_not_lt room
    rw [Moves, Machine.step_script_deep rfl count full]
    exact .fails fun _ => .deep rfl rfl full

theorem moves_invoke {f : Function} {types : List Ty} {span : Span} {n : Nat} {place : Option Ty}
    {slots : List (Option Ty)} (tables : σ.tables = L.tables)
    (sound : ∀ site ∈ L.sites, L.Sound site) (placed : L.Placed P callers fs)
    (count : types.length = n) (callable : L.Callable P f types)
    (admits : Admits place f.returns) (rest : L.Awaits (exitOf callers) P (place :: slots) W)
    (holds : L.Holds (baseOf callers) (types.reverse.map some ++ slots) V) :
    L.Moves P callers (σ.machine fs (.invoke f span n :: W) V) c := by
  obtain ⟨args, V, rfl, fills, below⟩ := holds.arguments
  have length_eq : args.length = n := fills.length_eq.trans count
  unfold Callable at callable
  split at callable
  · next run native => exact moves_native placed native callable admits rest length_eq fills below
  · next decl script =>
    obtain ⟨rfl, declares, site, known, rfl, visible, nested⟩ := callable
    exact moves_script tables placed known (sound site known) declares visible nested admits rest
      length_eq fills below

end calls

/-- The step of a machine whose stacks fit each other. -/
theorem Typed.moves {L : Layout} {σ : Setting} {P : Point} {callers : List Caller}
    {fs : List Frame} {W : List Work} {V : List Value} (h : L.Typed P callers fs W V)
    (tables : σ.tables = L.tables) (sound : ∀ site ∈ L.sites, L.Sound site) (c : Context) :
    L.Moves P callers (σ.machine fs W V) c := by
  obtain ⟨placed, slots, awaits, holds⟩ := h
  cases awaits with
  | resume rest =>
    cases holds
    exact moves_resume tables placed rest
  | again rounds rest =>
    cases holds
    exact moves_again placed rounds rest
  | expr yields admits rest => exact moves_expr tables placed yields admits rest holds
  | discard rest =>
    cases holds with
    | fill _ holds =>
      cases holds
      exact .of_perform rfl rfl rfl (.of_resumes placed rest)
  | declare declared owner rest =>
    cases holds with
    | fill fills holds =>
      cases holds
      exact moves_declare placed declared owner rest fills
  | store seen declared rest =>
    cases holds with
    | fill fills holds =>
      cases holds
      exact moves_store placed seen declared rest fills
  | compute seen declared joins rest =>
    cases holds with
    | fill fills holds =>
      cases holds
      exact moves_compute placed seen declared joins rest fills
  | branch body otherwise rest =>
    cases holds with
    | fill logic holds =>
      cases holds
      exact moves_branch placed body otherwise rest logic
  | whileTest rounds rest =>
    cases holds with
    | fill logic holds =>
      cases holds
      exact moves_whileTest placed rounds rest logic
  | repeatCount body rest =>
    cases holds with
    | fill number holds =>
      cases holds
      exact moves_repeatCount placed body rest number
  | applyBinary joins admits rest =>
    cases holds with
    | fill second holds =>
      cases holds with
      | fill first holds => exact moves_applyBinary placed joins admits rest first second holds
  | applyUnary turns admits rest =>
    cases holds with
    | fill inner holds => exact moves_applyUnary placed turns admits rest inner holds
  | joinText count admits rest =>
    obtain ⟨args, V, rfl, fills, holds⟩ := holds.arguments
    exact .of_perform rfl (Machine.perform_joinText (fills.length_eq.trans count) _) rfl
      ⟨placed, _, rest, .fill (admits.fills fun _ => .string _) holds⟩
  | makeList count makes rest =>
    obtain ⟨args, V, rfl, fills, holds⟩ := holds.arguments
    exact .of_perform rfl (Machine.perform_makeList (fills.length_eq.trans count) _) rfl
      ⟨placed, _, rest, .fill (fun trusted => makes args (fills.inhabits trusted)) holds⟩
  | makeMap count makes rest =>
    obtain ⟨args, V, rfl, fills, holds⟩ := holds.arguments
    exact .of_perform rfl (Machine.perform_makeMap (fills.length_eq.trans count) _) rfl
      ⟨placed, _, rest, .fill (fun trusted => makes args (fills.inhabits trusted)) holds⟩
  | invoke count callable admits rest =>
    exact moves_invoke tables sound placed count callable admits rest holds
  | leaveCall result rest =>
    cases holds with
    | fill fills holds =>
      cases holds
      exact moves_leaveCall placed result rest fills
  | returnPointer call result =>
    cases holds with
    | fill fills holds =>
      cases holds
      exact moves_returnPointer placed call result fills

end Layout

end CursorScript
