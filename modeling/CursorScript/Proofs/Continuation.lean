import CursorScript.Proofs.Configuration
import CursorScript.Proofs.Layout

/-!
Which work is well formed. Work that follows a statement finds no values of its own call, and work
inside an expression finds values of known types, the newest first. Down to the bottom of a call, or
of a round of a loop, nothing else can stand, so that `return`, `break` and `continue` always find
where they lead.
-/
namespace CursorScript

/-- One point sees no more than another in the same call and the same loop. -/
structure Point.Within (Q P : Point) : Prop where
  chain : Q.chain = P.chain
  result : Q.result = P.result
  around : Q.around = P.around
  visible : Q.visible ⊆ P.visible

namespace Point.Within

theorem refl (P : Point) : P.Within P := ⟨rfl, rfl, rfl, List.Subset.refl _⟩

theorem trans {R Q P : Point} (h : R.Within Q) (more : Q.Within P) : R.Within P :=
  ⟨h.chain.trans more.chain, h.result.trans more.result, h.around.trans more.around,
    List.Subset.trans h.visible more.visible⟩

theorem after (P : Point) (tables : Tables) (s : Stmt) : P.Within (P.after tables s) :=
  ⟨by simp, by simp, by simp, P.visible_after tables s⟩

end Point.Within

namespace Layout

def Rounds (L : Layout) (P : Point) : Loop → Prop
  | .whileTrue _ condition body => L.Yields P condition (some .logic) ∧ L.FitAll P.loop body.body
  | .times _ body => L.FitAll P.loop body.body

/-- Work that takes no values, up to the end of the call, below which is `exit`. Where `live` does
not hold the work is not reached but for being dropped. -/
inductive Resumes (L : Layout) (exit : Option (List Work)) : Point → Prop → List Work → Prop
  | finish {P : Point} {live : Prop} (script : exit = none) (result : P.result = none)
      (around : P.around = none) : Resumes L exit P live []
  | leave {P : Point} {live : Prop} {K : List Work} {R : Option Ty} (call : exit = some K)
      (result : P.result = some R) (around : P.around = none) (unit : live → R = none) :
      Resumes L exit P live (.pushUnit :: .returnPointer :: K)
  | stmt {P Q : Point} {live : Prop} {s : Stmt} {W : List Work} (within : Q.Within P)
      (fits : L.Fits Q s) (rest : Resumes L exit (Q.after L.tables s) (live ∧ s.returns = false) W) :
      Resumes L exit P live (.stmt s :: W)
  | round {P Q : Point} {live : Prop} {seen : List Nat} {loop : Loop} {K : List Work}
      (around : P.around = some seen) (kept : Q.visible ⊆ seen) (visible : Q.visible ⊆ P.visible)
      (chain : Q.chain = P.chain) (result : Q.result = P.result) (rounds : L.Rounds Q loop)
      (rest : Resumes L exit Q True K) :
      Resumes L exit P live (.continuePointer :: .again loop :: .breakPointer :: K)

/-- Every value that a slot holds may stand where another slot is asked for. -/
def Admits (place given : Option Ty) : Prop := ∀ v : Value, v.Fills given → v.Fills place

theorem admits_refl (slot : Option Ty) : Admits slot slot := fun _ h => h

theorem admits_of_acceptsBinding {expected actual : Ty}
    (h : expected.acceptsBinding actual = true) : Admits (some expected) (some actual) :=
  fun _ inhabits => Value.Inhabits.of_acceptsBinding inhabits h

/-- Work that takes the values of some slots, the newest first. -/
inductive Awaits (L : Layout) (exit : Option (List Work)) :
    Point → List (Option Ty) → List Work → Prop
  | resume {P : Point} {W : List Work} (rest : L.Resumes exit P True W) : Awaits L exit P [] W
  | again {P : Point} {loop : Loop} {K : List Work} (rounds : L.Rounds P loop)
      (rest : L.Resumes exit P True K) : Awaits L exit P [] (.again loop :: .breakPointer :: K)
  | expr {P : Point} {e : Expr} {given place : Option Ty} {slots : List (Option Ty)}
      {W : List Work} (yields : L.Yields P e given) (admits : Admits place given)
      (rest : Awaits L exit P (place :: slots) W) : Awaits L exit P slots (.expr e :: W)
  | discard {P : Point} {slot : Option Ty} {p : Position} {W : List Work}
      (rest : L.Resumes exit P True W) : Awaits L exit P [slot] (.discard p :: W)
  | declare {P : Point} {x : Nat} {d : Declaration} {p : Position} {W : List Work}
      (declared : L.declarations[x]? = some d) (owner : d.owner = P.function)
      (rest : L.Resumes exit (P.see [x]) True W) :
      Awaits L exit P [some d.type] (.declare x p :: W)
  | store {P : Point} {x : Nat} {d : Declaration} {p : Position} {W : List Work}
      (seen : x ∈ P.visible) (declared : L.declarations[x]? = some d)
      (rest : L.Resumes exit P True W) : Awaits L exit P [some d.type] (.store x none p :: W)
  | compute {P : Point} {x : Nat} {d : Declaration} {T : Ty} {op : Operator} {p : Position}
      {W : List Work} (seen : x ∈ P.visible) (declared : L.declarations[x]? = some d)
      (joins : op.Joins d.type T d.type) (rest : L.Resumes exit P True W) :
      Awaits L exit P [some T] (.store x (some op) p :: W)
  | branch {P : Point} {b : Block Stmt} {other : Option Stmt} {p : Position} {W : List Work}
      (body : L.FitAll P b.body) (otherwise : L.FitOther P other)
      (rest : L.Resumes exit P
        ((Stmt.anyReturns b.body && Stmt.otherReturns other) = false) W) :
      Awaits L exit P [some .logic] (.branch p b other :: W)
  | whileTest {P : Point} {mark : Mark} {condition : Expr} {b : Block Stmt} {W : List Work}
      (rounds : L.Rounds P (.whileTrue mark condition b)) (rest : L.Resumes exit P True W) :
      Awaits L exit P [some .logic] (.whileTest mark condition b :: W)
  | repeatCount {P : Point} {b : Block Stmt} {p : Position} {W : List Work}
      (body : L.FitAll P.loop b.body) (rest : L.Resumes exit P True W) :
      Awaits L exit P [some .number] (.repeatCount p b :: W)
  | applyBinary {P : Point} {T U R : Ty} {place : Option Ty} {op : Operator}
      {slots : List (Option Ty)} {p : Position} {W : List Work} (joins : op.Joins T U R)
      (admits : Admits place (some R)) (rest : Awaits L exit P (place :: slots) W) :
      Awaits L exit P (some U :: some T :: slots) (.applyBinary op p :: W)
  | applyUnary {P : Point} {T R : Ty} {place : Option Ty} {op : Operator}
      {slots : List (Option Ty)} {p : Position} {W : List Work} (turns : op.Turns T R)
      (admits : Admits place (some R)) (rest : Awaits L exit P (place :: slots) W) :
      Awaits L exit P (some T :: slots) (.applyUnary op p :: W)
  | joinText {P : Point} {parts : List (Part Expr)} {types : List Ty} {place : Option Ty}
      {slots : List (Option Ty)} {p : Position} {W : List Work}
      (count : types.length = (Part.embedded parts).length) (admits : Admits place (some .string))
      (rest : Awaits L exit P (place :: slots) W) :
      Awaits L exit P (types.reverse.map some ++ slots) (.joinText parts p :: W)
  | makeList {P : Point} {n : Nat} {types : List Ty} {place : Option Ty}
      {slots : List (Option Ty)} {p : Position} {W : List Work} (count : types.length = n)
      (makes : ∀ vs, List.Forall₂ Value.Inhabits vs types → (Value.list vs).Fills place)
      (rest : Awaits L exit P (place :: slots) W) :
      Awaits L exit P (types.reverse.map some ++ slots) (.makeList n p :: W)
  | makeMap {P : Point} {n : Nat} {types : List Ty} {place : Option Ty}
      {slots : List (Option Ty)} {p : Position} {W : List Work} (count : types.length = n * 2)
      (makes : ∀ vs, List.Forall₂ Value.Inhabits vs types →
        (Value.map (Value.entriesOf (Machine.pairs vs))).Fills place)
      (rest : Awaits L exit P (place :: slots) W) :
      Awaits L exit P (types.reverse.map some ++ slots) (.makeMap n p :: W)
  | invoke {P : Point} {f : Function} {types : List Ty} {n : Nat} {place : Option Ty}
      {slots : List (Option Ty)} {span : Span} {W : List Work} (count : types.length = n)
      (callable : L.Callable P f types) (admits : Admits place f.returns)
      (rest : Awaits L exit P (place :: slots) W) :
      Awaits L exit P (types.reverse.map some ++ slots) (.invoke f span n :: W)
  | leaveCall {P : Point} {R : Option Ty} {live : Prop} {p : Position} {W : List Work}
      (result : P.result = some R) (rest : L.Resumes exit P live W) :
      Awaits L exit P [R] (.leaveCall p :: W)
  | returnPointer {P : Point} {R : Option Ty} {K : List Work} (call : exit = some K)
      (result : P.result = some R) : Awaits L exit P [R] (.returnPointer :: K)

section scheduling
variable {L : Layout} {exit : Option (List Work)} {P Q R : Point} {W : List Work}

/-- Work that may be reached with less in sight may be reached with more. -/
theorem Resumes.widen {live less : Prop} (h : L.Resumes exit Q live W) (within : Q.Within P)
    (weaker : less → live) : L.Resumes exit P less W := by
  induction h generalizing P less with
  | finish script result around =>
    exact .finish script (within.result ▸ result) (within.around ▸ around)
  | leave call result around unit =>
    exact .leave call (within.result ▸ result) (within.around ▸ around) fun h => unit (weaker h)
  | stmt inner fits _ ih =>
    exact .stmt (inner.trans within) fits (ih (.refl _) fun h => ⟨weaker h.1, h.2⟩)
  | round around kept visible chain result rounds rest _ =>
    exact .round (within.around ▸ around) kept (List.Subset.trans visible within.visible)
      (chain.trans within.chain) (result.trans within.result) rounds rest

/-- Work behind a statement that does not return is reached. -/
theorem Resumes.reached {s : Stmt} (h : L.Resumes exit P (True ∧ s.returns = false) W)
    (goes : s.returns = false) : L.Resumes exit P True W :=
  h.widen (.refl _) fun reached => ⟨reached, goes⟩

/-- Statements that fit, in front of work that may be reached unless one of them returns. -/
theorem Resumes.items {body : List Stmt} {live : Prop} (fits : L.FitAll Q body)
    (within : R.Within Q) (rest : L.Resumes exit R (live ∧ Stmt.anyReturns body = false) W) :
    L.Resumes exit Q live (body.map .stmt ++ W) := by
  induction body generalizing Q live with
  | nil => exact rest.widen within fun h => ⟨h, rfl⟩
  | cons s body ih =>
    cases fits with
    | cons first others =>
      refine .stmt (.refl _) first (ih others (within.trans (.after Q L.tables s)) ?_)
      refine rest.widen (.refl _) fun ⟨⟨reached, goes⟩, others⟩ => ⟨reached, ?_⟩
      rw [Stmt.anyReturns, goes, others]
      rfl

/-- One round of a loop, in front of what follows the loop. -/
theorem Resumes.enterRound {body : List Stmt} {loop : Loop} (fits : L.FitAll P.loop body)
    (rounds : L.Rounds P loop) (rest : L.Resumes exit P True W) :
    L.Resumes exit P.loop True
      (body.map .stmt ++ .continuePointer :: .again loop :: .breakPointer :: W) :=
  .items fits (.refl _) (.round rfl (List.Subset.refl _) (List.Subset.refl _) rfl rfl rounds rest)

/-- Expressions in front of work that takes their values. -/
theorem Awaits.operands {es : List Expr} {types : List Ty} {slots : List (Option Ty)}
    (yields : L.YieldAll P es types)
    (rest : L.Awaits exit P (types.reverse.map some ++ slots) W) :
    L.Awaits exit P slots (Machine.operands es ++ W) := by
  induction es generalizing types slots with
  | nil =>
    cases yields
    exact rest
  | cons e es ih =>
    cases yields with
    | cons first accepts others =>
      refine .expr first (admits_of_acceptsBinding accepts) (ih others ?_)
      simpa using rest

theorem length_of_yieldAll {es : List Expr} {types : List Ty} (h : L.YieldAll P es types) :
    types.length = es.length := by
  induction es generalizing types with
  | nil =>
    cases h
    rfl
  | cons e es ih =>
    cases h with
    | cons _ _ others => simp [ih others]

theorem Resumes.below_return {K : List Work} {live : Prop} (h : L.Resumes (some K) P live W) :
    Stack.listBelow Work.isReturnPointer W = some K := by
  induction h with
  | finish script => cases script
  | leave call =>
    cases call
    rfl
  | stmt _ _ _ ih => exact ih
  | round _ _ _ _ _ _ _ ih => exact ih

/-- Inside a loop `break` leads behind it. -/
theorem Resumes.below_break {live : Prop} {seen : List Nat} (h : L.Resumes exit P live W)
    (around : P.around = some seen) :
    ∃ Q K, Stack.listBelow Work.isBreakPointer W = some K ∧ Q.chain = P.chain ∧
      Q.result = P.result ∧ Q.visible ⊆ seen ∧ L.Resumes exit Q True K := by
  induction h with
  | finish _ _ outside =>
    rw [outside] at around
    cases around
  | leave _ _ outside =>
    rw [outside] at around
    cases around
  | stmt within _ _ ih =>
    obtain ⟨Q, K, below, chain, result, kept, rest⟩ :=
      ih (by rw [Point.around_after, within.around, around])
    rw [Point.chain_after, within.chain] at chain
    rw [Point.result_after, within.result] at result
    exact ⟨Q, K, below, chain, result, kept, rest⟩
  | round inside kept _ chain result _ rest _ =>
    rw [inside] at around
    cases around
    exact ⟨_, _, rfl, chain, result, kept, rest⟩

/-- Inside a loop `continue` leads to the end of its body. -/
theorem Resumes.below_continue {live : Prop} {seen : List Nat} (h : L.Resumes exit P live W)
    (around : P.around = some seen) :
    ∃ Q loop K, Stack.listBelow Work.isContinuePointer W =
        some (.again loop :: .breakPointer :: K) ∧ Q.chain = P.chain ∧ Q.result = P.result ∧
      Q.visible ⊆ seen ∧ L.Rounds Q loop ∧ L.Resumes exit Q True K := by
  induction h with
  | finish _ _ outside =>
    rw [outside] at around
    cases around
  | leave _ _ outside =>
    rw [outside] at around
    cases around
  | stmt within _ _ ih =>
    obtain ⟨Q, loop, K, below, chain, result, kept, rest⟩ :=
      ih (by rw [Point.around_after, within.around, around])
    rw [Point.chain_after, within.chain] at chain
    rw [Point.result_after, within.result] at result
    exact ⟨Q, loop, K, below, chain, result, kept, rest⟩
  | round inside kept _ chain result rounds rest _ =>
    rw [inside] at around
    cases around
    exact ⟨_, _, _, rfl, chain, result, kept, rounds, rest⟩

end scheduling

end Layout

end CursorScript
