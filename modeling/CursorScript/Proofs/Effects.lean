import CursorScript.Proofs.Configuration

/-!
What an item of work does when it succeeds, whatever the tables record and whatever values it meets.
It leaves a value in place of those it takes, makes room for other items, unwinds, or enters or
leaves a call. The main statement lists all that a step can come to; what holds of every run follows
from it.
-/
namespace CursorScript

/-- The expressions that an expression takes the values of, in the order of their evaluation. -/
def Expr.operands : Expr → List Expr
  | .interpolation _ parts => Part.embedded parts
  | .binary _ left _ right => [left, right]
  | .unary _ _ operand => [operand]
  | .index _ collection place => [collection, place]
  | .call _ _ arguments => arguments
  | .list _ elements => elements
  | .map _ entries => Machine.entryOperands entries
  | _ => []

namespace Machine

def roundWork (body : Block Stmt) (next : Loop) : List Work :=
  itemsOf body ++ [.continuePointer, .again next, .breakPointer]

theorem timesWork_append (body : Block Stmt) (W : List Work) (n : Nat) :
    timesWork body [] n ++ W = timesWork body W n := by
  cases n <;> simp [timesWork]

end Machine

/-- What a loop that goes on puts in place of its last round. -/
def Loop.items : Loop → List Work
  | .whileTrue mark condition body => [.expr condition, .whileTest mark condition body]
  | .times remaining body => Machine.timesWork body [] remaining

namespace Work

/-- How many values an item takes that leaves one in their place. -/
def takes? : Work → Option Nat
  | applyBinary .. => some 2
  | applyUnary .. => some 1
  | joinText parts _ => some (Part.embedded parts).length
  | makeList count _ => some count
  | makeMap count _ => some (count * 2)
  | invoke _ _ arity => some arity
  | _ => none

/-- An item that takes so many values makes room for other items. -/
inductive Into : Work → Nat → List Work → Prop
  | expr {e : Expr} {last : Work} (takes : last.takes? = some e.operands.length) :
      Into (.expr e) 0 (Machine.operands e.operands ++ [last])
  | block (b : Block Stmt) : Into (.stmt (.block b)) 0 (Machine.itemsOf b)
  | expression (mark : Mark) (e : Expr) (p : Position) :
      Into (.stmt (.expression mark e)) 0 [.expr e, .discard p]
  | declaration (mark : Mark) (name : String) (type : Ty) (e : Expr) (x : Nat) (p : Position) :
      Into (.stmt (.declare mark name type e)) 0 [.expr e, .declare x p]
  | assignment (mark : Mark) (target : Symbol) (token : Token) (e : Expr) (x : Nat)
      (op : Option Operator) (p : Position) :
      Into (.stmt (.assign mark target token e)) 0 [.expr e, .store x op p]
  | conditional (mark : Mark) (e : Expr) (b : Block Stmt) (other : Option Stmt) (p : Position) :
      Into (.stmt (.branch mark e b other)) 0 [.expr e, .branch p b other]
  | whileLoop (mark : Mark) (e : Expr) (b : Block Stmt) :
      Into (.stmt (.whileLoop mark e b)) 0 [.expr e, .whileTest mark e b]
  | repeatLoop (mark : Mark) (e : Expr) (b : Block Stmt) (p : Position) :
      Into (.stmt (.repeatLoop mark e b)) 0 [.expr e, .repeatCount p b]
  | function (decl : FunctionDecl Stmt) : Into (.stmt (.function decl)) 0 []
  | return (mark : Mark) (e : Expr) (p : Position) :
      Into (.stmt (.ret mark (some e))) 0 [.expr e, .leaveCall p]
  | discard (p : Position) : Into (.discard p) 1 []
  | declare (x : Nat) (p : Position) : Into (.declare x p) 1 []
  | store (x : Nat) (op : Option Operator) (p : Position) : Into (.store x op p) 1 []
  | branch (p : Position) (b : Block Stmt) (other : Option Stmt) :
      Into (.branch p b other) 1 (Machine.itemsOf b)
  | otherBranch (p : Position) (b : Block Stmt) (other : Option Stmt) :
      Into (.branch p b other) 1 (other.toList.map .stmt)
  | round (mark : Mark) (e : Expr) (b : Block Stmt) :
      Into (.whileTest mark e b) 1 (Machine.roundWork b (.whileTrue mark e b))
  | noRound (mark : Mark) (e : Expr) (b : Block Stmt) : Into (.whileTest mark e b) 1 []
  | rounds (p : Position) (b : Block Stmt) (n : Nat) :
      Into (.repeatCount p b) 1 (Machine.timesWork b [] n)

/-- What is left when the bottom of a round is taken away. -/
def retired : List Work → List Work
  | breakPointer :: W => W
  | W => W

end Work

namespace Machine
open Act

/-- What an item may come to on top of the given frames, work and values. -/
inductive Effect (σ : Setting) (fs : List Frame) (W : List Work) (V : List Value) :
    Work → List Frame → List Work → List Value → Prop
  | answers {item : Work} {k : Nat} (takes : item.takes? = some k) (enough : k ≤ V.length)
      (v : Value) : Effect σ fs W V item fs W (v :: V.drop k)
  | evaluates (e : Expr) (v : Value) : Effect σ fs W V (.expr e) fs W (v :: V)
  | unfolds {item : Work} {k : Nat} {items : List Work} {fs' : List Frame}
      (into : item.Into k items) (enough : k ≤ V.length) (same : fs'.length = fs.length) :
      Effect σ fs W V item fs' (items ++ W) (V.drop k)
  | bareReturn (mark : Mark) (p : Position) :
      Effect σ fs W V (.stmt (.ret mark none)) fs (.leaveCall p :: W) (.unit :: V)
  | breaks (mark : Mark) {K : List Work} (below : Stack.listBelow Work.isBreakPointer W = some K) :
      Effect σ fs W V (.stmt (.brk mark)) fs K V
  | continues (mark : Mark) {K : List Work}
      (below : Stack.listBelow Work.isContinuePointer W = some K) :
      Effect σ fs W V (.stmt (.cont mark)) fs K V
  | goesOn (loop : Loop) :
      Effect σ fs W V (.again loop) fs (loop.items ++ Work.retired W) V
  | pushesUnit : Effect σ fs W V .pushUnit fs W (.unit :: V)
  | leaves (p : Position) {K : List Work}
      (below : Stack.listBelow Work.isReturnPointer W = some K) :
      Effect σ fs W V (.leaveCall p) fs.tail K V
  | ends : Effect σ fs W V .returnPointer fs.tail W V
  | endsRound : Effect σ fs W V .breakPointer fs W V
  | endsBody : Effect σ fs W V .continuePointer fs W V
  | enters {f : Function} {decl : FunctionDecl Stmt} {span : Span} {n : Nat} (frame : Frame)
      (script : f.body = .script decl) (enough : n ≤ V.length)
      (room : fs.length - 1 < σ.maxDepth) :
      Effect σ fs W V (.invoke f span n) (frame :: fs)
        (itemsOf decl.body ++ .pushUnit :: .returnPointer :: W) (V.drop n)

section actions
variable {σ : Setting} {fs : List Frame} {W : List Work} {V : List Value} {m : Machine}

theorem ok_of_bind {α β : Type} {x : Act α} {f : α → Act β} {m m' : Machine} {b : β}
    (h : (x >>= f).run m = .ok b m') :
    ∃ a middle, x.run m = .ok a middle ∧ (f a).run middle = .ok b m' := by
  rw [EStateM.run_bind] at h
  split at h
  · next a middle ran => exact ⟨a, middle, ran, h⟩
  · cases h

theorem ok_pop {p : Position} {v : Value} (h : (pop p).run (σ.machine fs W V) = .ok v m) :
    ∃ V', V = v :: V' ∧ m = σ.machine fs W V' := by
  cases V with
  | nil => cases h
  | cons first V =>
    rw [run_pop] at h
    cases h
    exact ⟨V, rfl, rfl⟩

theorem ok_popMany {count : Nat} {p : Position} {vs : List Value}
    (h : (popMany count p).run (σ.machine fs W V) = .ok vs m) :
    count ≤ V.length ∧ m = σ.machine fs W (V.drop count) := by
  have enough : count ≤ V.length := by
    refine Nat.le_of_not_lt fun few => ?_
    have short : (V.take count).length < count := by
      rw [List.length_take]
      omega
    simp only [popMany, EStateM.run_bind, EStateM.run_get, values_machine, short, if_true] at h
    cases h
  have whole : (V.take count).reverse.reverse ++ V.drop count = V := by simp
  have length : (V.take count).reverse.length = count := by simp [enough]
  have done := @run_popMany σ fs W (V.drop count) _ _ length p
  rw [whole, h] at done
  cases done
  exact ⟨enough, rfl⟩

theorem ok_popLogic {p : Position} {b : Bool}
    (h : (popLogic p).run (σ.machine fs W V) = .ok b m) :
    ∃ V', V = .logic b :: V' ∧ m = σ.machine fs W V' := by
  obtain ⟨v, _, popped, h⟩ := ok_of_bind h
  obtain ⟨V, rfl, rfl⟩ := ok_pop popped
  split at h
  · cases h
    exact ⟨V, rfl, rfl⟩
  · cases h

theorem ok_popCount {p : Position} {n : Nat}
    (h : (popCount p).run (σ.machine fs W V) = .ok n m) :
    ∃ v V', V = v :: V' ∧ m = σ.machine fs W V' := by
  obtain ⟨v, _, popped, h⟩ := ok_of_bind h
  obtain ⟨V, rfl, rfl⟩ := ok_pop popped
  split at h
  · cases h
    exact ⟨_, V, rfl, rfl⟩
  · cases h

theorem ok_recorded {α : Type} {what : String} {table : Tables → Table α} {id : Nat}
    {p : Position} {entry : α} {m m' : Machine}
    (h : (recorded what table id p).run m = .ok entry m') : m' = m := by
  obtain ⟨_, _, got, h⟩ := ok_of_bind h
  cases got
  split at h
  · cases h
    rfl
  · cases h

theorem ok_read {x : Nat} {p : Position} {v : Value} {m m' : Machine}
    (h : (Act.read x p).run m = .ok v m') : m' = m := by
  obtain ⟨_, _, got, h⟩ := ok_of_bind h
  cases got
  split at h
  · cases h
    rfl
  · cases h

theorem ok_located {α : Type} {p : Position} {result : Except Cause α} {a : α} {m m' : Machine}
    (h : (located p result).run m = .ok a m') : m' = m := by
  cases result with
  | error cause => cases h
  | ok value =>
    cases h
    rfl

theorem ok_assign {x : Nat} {v : Value} {p : Position}
    (h : (assign x v p).run (σ.machine fs W V) = .ok () m) :
    ∃ fs', fs'.length = fs.length ∧ m = σ.machine fs' W V := by
  cases replaced : Stack.replaceFirst? (Frame.assign? x v) fs with
  | none => simp [assign, replaced, broken] at h
  | some fs' =>
    rw [run_assign replaced] at h
    cases h
    exact ⟨fs', Stack.length_replaceFirst? replaced, rfl⟩

theorem ok_declare {x : Nat} {v : Value}
    (h : (Act.declare x v).run (σ.machine fs W V) = .ok () m) :
    ∃ fs', fs'.length = fs.length ∧ m = σ.machine fs' W V := by
  cases fs with
  | nil =>
    cases h
    exact ⟨[], rfl, rfl⟩
  | cons frame fs =>
    rw [run_declare] at h
    cases h
    exact ⟨Frame.set x v frame :: fs, rfl, rfl⟩

theorem ok_store {x : Nat} {op : Option Operator} {p : Position}
    (h : (store x op p).run (σ.machine fs W V) = .ok () m) :
    ∃ v V' fs', V = v :: V' ∧ fs'.length = fs.length ∧ m = σ.machine fs' W V' := by
  obtain ⟨v, _, popped, h⟩ := ok_of_bind h
  obtain ⟨V, rfl, rfl⟩ := ok_pop popped
  cases op with
  | none =>
    obtain ⟨fs', same, rfl⟩ := ok_assign h
    exact ⟨v, V, fs', rfl, same, rfl⟩
  | some op =>
    obtain ⟨current, _, found, h⟩ := ok_of_bind h
    cases ok_read found
    obtain ⟨result, _, applied, h⟩ := ok_of_bind h
    cases ok_located applied
    obtain ⟨fs', same, rfl⟩ := ok_assign h
    exact ⟨v, V, fs', rfl, same, rfl⟩

theorem ok_unwindTo {isTarget : Work → Bool} {statement : String} {p : Position}
    (h : (unwindTo isTarget statement p).run (σ.machine fs W V) = .ok () m) :
    ∃ K, Stack.listBelow isTarget W = some K ∧ m = σ.machine fs K V := by
  cases below : Stack.listBelow isTarget W with
  | none => simp [unwindTo, below, broken] at h
  | some K =>
    rw [run_unwindTo below] at h
    cases h
    exact ⟨K, rfl, rfl⟩

theorem run_retire :
    retireBreakPointer.run (σ.machine fs W V) = .ok () (σ.machine fs (Work.retired W) V) := by
  unfold retireBreakPointer
  rw [EStateM.run_modify]
  simp only [work_machine, Stack.items_ofList]
  split
  · simp [Setting.machine, Work.retired]
  · next other => rw [Work.retired.eq_2 _ other]

theorem run_continueLoop (loop : Loop) :
    (continueLoop loop).run (σ.machine fs W V) =
      .ok () (σ.machine fs (loop.items ++ W) V) := by
  cases loop with
  | whileTrue mark condition body => exact run_schedule _
  | times remaining body =>
    rw [continueLoop, run_enterTimes, Loop.items, timesWork_append]

theorem ok_bindParameters {parameters : List Parameter} {values : List Value}
    {frame frame' : Frame} {m m' : Machine}
    (h : (bindParameters parameters values frame).run m = .ok frame' m') : m' = m := by
  induction parameters generalizing values frame with
  | nil =>
    cases h
    rfl
  | cons parameter parameters ih =>
    cases values with
    | nil =>
      cases h
      rfl
    | cons value values =>
      obtain ⟨x, _, found, h⟩ := ok_of_bind h
      cases ok_recorded found
      exact ih h

theorem ok_enterFunction {decl : FunctionDecl Stmt} {span : Span} {arguments : List Value}
    (h : (enterFunction decl span arguments).run (σ.machine fs W V) = .ok () m) :
    fs.length - 1 < σ.maxDepth ∧ ∃ frame,
      m = σ.machine (frame :: fs) (itemsOf decl.body ++ .pushUnit :: .returnPointer :: W) V := by
  have room : fs.length - 1 < σ.maxDepth := by
    refine Nat.lt_of_not_le fun full => ?_
    rw [run_enterFunction_deep full] at h
    cases h
  have deep : ¬ σ.maxDepth ≤ fs.length - 1 := Nat.not_le_of_lt room
  simp only [enterFunction, EStateM.run_bind, EStateM.run_get, depth_machine, maxDepth_machine,
    deep, if_false] at h
  refine ⟨room, ?_⟩
  cases bound : (bindParameters decl.parameters arguments []).run (σ.machine fs W V) with
  | error e m' =>
    simp only [bound] at h
    cases h
  | ok frame m' =>
    cases ok_bindParameters bound
    simp only [bound, EStateM.run_modify, frames_machine, Stack.push_ofList] at h
    have scheduled := @run_schedule σ (frame :: fs) W V
      (itemsOf decl.body ++ [.pushUnit, .returnPointer])
    cases h.symm.trans scheduled
    exact ⟨frame, by simp⟩

end actions

section items
variable {σ : Setting} {fs : List Frame} {W : List Work} {V : List Value} {m : Machine}

def Comes (σ : Setting) (fs : List Frame) (W : List Work) (V : List Value) (item : Work)
    (m : Machine) : Prop :=
  ∃ fs' W' V', m = σ.machine fs' W' V' ∧ Effect σ fs W V item fs' W' V'

theorem Comes.answers {item : Work} {k : Nat} (takes : item.takes? = some k)
    (enough : k ≤ V.length) (v : Value) :
    Comes σ fs W V item (σ.machine fs W (v :: V.drop k)) :=
  ⟨_, _, _, rfl, .answers takes enough v⟩

theorem Comes.evaluates (e : Expr) (v : Value) :
    Comes σ fs W V (.expr e) (σ.machine fs W (v :: V)) :=
  ⟨_, _, _, rfl, .evaluates e v⟩

theorem Comes.unfolds {item : Work} {k : Nat} {items : List Work} {fs' : List Frame}
    (into : item.Into k items) (enough : k ≤ V.length) (same : fs'.length = fs.length) :
    Comes σ fs W V item (σ.machine fs' (items ++ W) (V.drop k)) :=
  ⟨_, _, _, rfl, .unfolds into enough same⟩

/-- An expression whose operands come first. -/
theorem comes_operands {e : Expr} {last : Work} (takes : last.takes? = some e.operands.length)
    (h : (schedule (operands e.operands ++ [last])).run (σ.machine fs W V) = .ok () m) :
    Comes σ fs W V (.expr e) m := by
  rw [run_schedule] at h
  cases h
  exact .unfolds (.expr takes) (Nat.zero_le _) rfl

theorem comes_visitExpr {e : Expr} (h : (visitExpr e).run (σ.machine fs W V) = .ok () m) :
    Comes σ fs W V (.expr e) m := by
  cases e with
  | number | real | logic | string | material | member =>
    cases h
    exact .evaluates _ _
  | symbol s =>
    obtain ⟨x, _, found, h⟩ := ok_of_bind h
    cases ok_recorded found
    obtain ⟨v, _, held, h⟩ := ok_of_bind h
    cases ok_read held
    cases h
    exact .evaluates _ v
  | interpolation mark parts => exact comes_operands rfl h
  | binary mark left token right =>
    obtain ⟨op, _, found, h⟩ := ok_of_bind h
    cases ok_recorded found
    exact comes_operands rfl h
  | unary mark token operand =>
    obtain ⟨op, _, found, h⟩ := ok_of_bind h
    cases ok_recorded found
    exact comes_operands rfl h
  | index mark collection place =>
    obtain ⟨op, _, found, h⟩ := ok_of_bind h
    cases ok_recorded found
    exact comes_operands rfl h
  | call mark callee arguments =>
    obtain ⟨f, _, found, h⟩ := ok_of_bind h
    cases ok_recorded found
    exact comes_operands rfl h
  | list mark elements => exact comes_operands rfl h
  | map mark entries =>
    refine @comes_operands _ _ _ _ _ (.map mark entries) (.makeMap entries.length mark.start) ?_ h
    exact congrArg some (length_entryOperands entries).symm

/-- A statement that makes room for other items. -/
theorem comes_schedule {s : Stmt} {items : List Work} (into : (Work.stmt s).Into 0 items)
    (h : (schedule items).run (σ.machine fs W V) = .ok () m) : Comes σ fs W V (.stmt s) m := by
  rw [run_schedule] at h
  cases h
  exact .unfolds into (Nat.zero_le _) rfl

theorem comes_visitStmt {s : Stmt} (h : (visitStmt s).run (σ.machine fs W V) = .ok () m) :
    Comes σ fs W V (.stmt s) m := by
  cases s with
  | block b => exact comes_schedule (.block b) h
  | expression mark e => exact comes_schedule (.expression mark e _) h
  | declare mark name type e =>
    obtain ⟨x, _, found, h⟩ := ok_of_bind h
    cases ok_recorded found
    exact comes_schedule (.declaration mark name type e x _) h
  | assign mark target token e =>
    obtain ⟨x, _, found, h⟩ := ok_of_bind h
    cases ok_recorded found
    dsimp only at h
    split at h
    · exact comes_schedule (.assignment mark target token e x none _) h
    · obtain ⟨op, _, chosen, h⟩ := ok_of_bind h
      cases ok_recorded chosen
      exact comes_schedule (.assignment mark target token e x (some op) _) h
  | branch mark e b other => exact comes_schedule (.conditional mark e b other _) h
  | whileLoop mark e b => exact comes_schedule (.whileLoop mark e b) h
  | repeatLoop mark e b => exact comes_schedule (.repeatLoop mark e b _) h
  | function decl =>
    cases h
    exact .unfolds (.function decl) (Nat.zero_le _) rfl
  | ret mark value =>
    cases value with
    | none =>
      cases h.symm.trans (perform_bareReturn mark)
      exact ⟨_, _, _, rfl, .bareReturn mark _⟩
    | some e => exact comes_schedule (.return mark e _) h
  | brk mark =>
    obtain ⟨K, below, rfl⟩ := ok_unwindTo h
    exact ⟨_, _, _, rfl, .breaks mark below⟩
  | cont mark =>
    obtain ⟨K, below, rfl⟩ := ok_unwindTo h
    exact ⟨_, _, _, rfl, .continues mark below⟩

theorem comes_perform {item : Work} (quiet : item.isInvoke = false)
    (h : (perform item).run (σ.machine fs W V) = .ok () m) : Comes σ fs W V item m := by
  cases item with
  | stmt s => exact comes_visitStmt h
  | expr e => exact comes_visitExpr h
  | discard p =>
    obtain ⟨v, _, popped, h⟩ := ok_of_bind h
    obtain ⟨V, rfl, rfl⟩ := ok_pop popped
    cases h
    exact .unfolds (.discard p) (by simp) rfl
  | declare x p =>
    obtain ⟨v, _, popped, h⟩ := ok_of_bind h
    obtain ⟨V, rfl, rfl⟩ := ok_pop popped
    obtain ⟨fs', same, rfl⟩ := ok_declare h
    exact .unfolds (.declare x p) (by simp) same
  | store x op p =>
    obtain ⟨v, V, fs', rfl, same, rfl⟩ := ok_store h
    exact .unfolds (.store x op p) (by simp) same
  | branch p b other =>
    obtain ⟨holds, _, popped, h⟩ := ok_of_bind h
    obtain ⟨V, rfl, rfl⟩ := ok_popLogic popped
    split at h
    · rw [run_schedule] at h
      cases h
      exact .unfolds (.branch p b other) (by simp) rfl
    · rw [run_schedule] at h
      cases h
      exact .unfolds (.otherBranch p b other) (by simp) rfl
  | whileTest mark e b =>
    obtain ⟨holds, _, popped, h⟩ := ok_of_bind h
    obtain ⟨V, rfl, rfl⟩ := ok_popLogic popped
    split at h
    · rw [enterRound, run_schedule] at h
      cases h
      exact .unfolds (.round mark e b) (by simp) rfl
    · cases h
      exact .unfolds (.noRound mark e b) (by simp) rfl
  | repeatCount p b =>
    obtain ⟨n, _, popped, h⟩ := ok_of_bind h
    obtain ⟨v, V, rfl, rfl⟩ := ok_popCount popped
    rw [run_enterTimes, ← timesWork_append] at h
    cases h
    exact .unfolds (.rounds p b n) (by simp) rfl
  | again loop =>
    obtain ⟨_, _, retired, h⟩ := ok_of_bind h
    rw [run_retire] at retired
    cases retired
    rw [run_continueLoop] at h
    cases h
    exact ⟨_, _, _, rfl, .goesOn loop⟩
  | applyBinary op p =>
    obtain ⟨right, _, popped, h⟩ := ok_of_bind h
    obtain ⟨V, rfl, rfl⟩ := ok_pop popped
    obtain ⟨left, _, popped, h⟩ := ok_of_bind h
    obtain ⟨V, rfl, rfl⟩ := ok_pop popped
    obtain ⟨v, _, applied, h⟩ := ok_of_bind h
    cases ok_located applied
    cases h
    exact @Comes.answers _ _ _ (right :: left :: V) (.applyBinary op p) 2 rfl (by simp) v
  | applyUnary op p =>
    obtain ⟨operand, _, popped, h⟩ := ok_of_bind h
    obtain ⟨V, rfl, rfl⟩ := ok_pop popped
    obtain ⟨v, _, applied, h⟩ := ok_of_bind h
    cases ok_located applied
    cases h
    exact @Comes.answers _ _ _ (operand :: V) (.applyUnary op p) 1 rfl (by simp) v
  | joinText parts p =>
    obtain ⟨vs, _, popped, h⟩ := ok_of_bind h
    obtain ⟨enough, rfl⟩ := ok_popMany popped
    cases h
    exact .answers rfl enough _
  | makeList count p =>
    obtain ⟨vs, _, popped, h⟩ := ok_of_bind h
    obtain ⟨enough, rfl⟩ := ok_popMany popped
    cases h
    exact .answers rfl enough _
  | makeMap count p =>
    obtain ⟨vs, _, popped, h⟩ := ok_of_bind h
    obtain ⟨enough, rfl⟩ := ok_popMany popped
    cases h
    exact .answers rfl enough _
  | pushUnit =>
    cases h
    exact ⟨_, _, _, rfl, .pushesUnit⟩
  | leaveCall p =>
    obtain ⟨_, _, unwound, h⟩ := ok_of_bind h
    obtain ⟨K, below, rfl⟩ := ok_unwindTo unwound
    cases h
    exact ⟨_, _, _, by simp [Setting.machine], .leaves p below⟩
  | invoke => cases quiet
  | returnPointer =>
    rw [perform_returnPointer] at h
    cases h
    exact ⟨_, _, _, rfl, .ends⟩
  | breakPointer =>
    cases h
    exact ⟨_, _, _, rfl, .endsRound⟩
  | continuePointer =>
    cases h
    exact ⟨_, _, _, rfl, .endsBody⟩

theorem comes_invoke {f : Function} {span : Span} {n : Nat} {c c' : Context} {call : String}
    (h : (invoke f span n c).run (σ.machine fs W V) = .ok (call, c') m) :
    Comes σ fs W V (.invoke f span n) m := by
  obtain ⟨arguments, _, popped, h⟩ := ok_of_bind h
  obtain ⟨enough, rfl⟩ := ok_popMany popped
  dsimp only at h
  split at h
  · split at h
    · cases h
      exact .answers rfl enough _
    · cases h
  · next decl script =>
    obtain ⟨_, _, entered, h⟩ := ok_of_bind h
    obtain ⟨room, frame, rfl⟩ := ok_enterFunction entered
    cases h
    exact ⟨_, _, _, rfl, .enters frame script enough room⟩

end items

/-- A step that succeeds has nothing to do, or comes to one of the effects of the next item. -/
theorem effect_of_next {a b : Machine × Context} (next : Next a b) :
    (a.1.work.items = [] ∧ b.1 = a.1) ∨
    ∃ item W, a.1.work.items = item :: W ∧
      Comes a.1.setting a.1.frames.items W a.1.values item b.1 := by
  obtain ⟨m, c⟩ := a
  obtain ⟨m', c'⟩ := b
  obtain ⟨call, stepped⟩ := next
  cases work : m.work.items with
  | nil =>
    rw [step, work] at stepped
    cases stepped
    exact .inl ⟨rfl, rfl⟩
  | cons item W =>
    rw [m.eq_machine, work] at stepped
    refine .inr ⟨item, W, rfl, ?_⟩
    cases quiet : item.isInvoke with
    | false =>
      rw [step_item quiet] at stepped
      cases done : (perform item).run (m.setting.machine m.frames.items W m.values) with
      | error e m' =>
        rw [done] at stepped
        cases stepped
      | ok _ m' =>
        rw [done] at stepped
        cases stepped
        exact comes_perform quiet done
    | true =>
      cases item with
      | invoke f span n =>
        rw [step_invoke] at stepped
        split at stepped
        · next description c' m' done =>
          cases stepped
          exact comes_invoke done
        · cases stepped
      | _ => cases quiet

end Machine

end CursorScript
