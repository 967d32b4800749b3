import CursorScript.Machine.Step
import Mathlib.Logic.Relation

/-!
Machines given by plain lists, and what each item of work does to them. A setting holds what no item
changes: the tables and the limit on active calls. The lemmas here are the equations by which later
proofs run a machine; nothing else unfolds the actions.
-/
namespace CursorScript

namespace Stack
variable {α : Type}

/-- The size of a stack follows from its items. -/
theorem eq_of_items {s t : Stack α} (h : s.items = t.items) : s = t := by
  obtain ⟨items, size, size_eq⟩ := s
  obtain ⟨items', size', size_eq'⟩ := t
  cases h
  cases size_eq
  cases size_eq'
  rfl

@[simp] theorem items_ofList (items : List α) : (ofList items).items = items := rfl

@[simp] theorem size_ofList (items : List α) : (ofList items).size = items.length := rfl

theorem ofList_items (s : Stack α) : ofList s.items = s := eq_of_items rfl

@[simp] theorem push_ofList (items : List α) (item : α) :
    (ofList items).push item = ofList (item :: items) := eq_of_items rfl

@[simp] theorem pushAll_ofList (items more : List α) :
    (ofList items).pushAll more = ofList (more ++ items) := eq_of_items rfl

@[simp] theorem tail_ofList (items : List α) :
    (ofList items).tail = ofList items.tail := eq_of_items rfl

@[simp] theorem below?_ofList (isTarget : α → Bool) (items : List α) :
    (ofList items).below? isTarget = (listBelow isTarget items).map ofList := by
  have h := items_below? isTarget (ofList items)
  rw [items_ofList] at h
  rw [← h]
  cases (ofList items).below? isTarget with
  | none => rfl
  | some rest => simp [ofList_items]

@[simp] theorem replace?_ofList (replacement? : α → Option α) (items : List α) :
    (ofList items).replace? replacement? = (replaceFirst? replacement? items).map ofList := by
  unfold replace?
  split
  · next found =>
    rw [items_ofList] at found
    simp only [found, Option.map_some, Option.some.injEq]
    exact eq_of_items rfl
  · next found =>
    rw [items_ofList] at found
    simp [found]

/-- Items that are no targets are passed over. -/
theorem listBelow_append {isTarget : α → Bool} {items : List α}
    (h : ∀ item ∈ items, isTarget item = false) (rest : List α) :
    listBelow isTarget (items ++ rest) = listBelow isTarget rest := by
  induction items with
  | nil => rfl
  | cons item items ih =>
    have miss := h item (by simp)
    have others : ∀ other ∈ items, isTarget other = false := fun other mem => h other (by simp [mem])
    simp [listBelow, miss, ih others]

end Stack

/-- What no item of work changes. -/
structure Setting where
  tables : Tables
  maxDepth : Nat

def Setting.machine (σ : Setting) (frames : List Frame) (work : List Work)
    (values : List Value) : Machine :=
  ⟨σ.tables, σ.maxDepth, .ofList frames, .ofList work, values⟩

namespace Machine

def setting (m : Machine) : Setting := ⟨m.tables, m.maxDepth⟩

theorem eq_machine (m : Machine) :
    m = m.setting.machine m.frames.items m.work.items m.values := by
  simp [Setting.machine, setting, Stack.ofList_items]

/-- One machine and context follow another by an item of work that did not fail. -/
def Next (a b : Machine × Context) : Prop := ∃ call, a.1.step a.2 = ⟨.ok call, b.1, b.2⟩

/-- One machine and context follow another by any number of items, none of which failed. -/
abbrev Reaches : Machine × Context → Machine × Context → Prop := Relation.ReflTransGen Next

/-- The machine and context after so many items, if none of them fails. -/
def advance : Nat → Machine × Context → Option (Machine × Context)
  | 0, a => some a
  | n + 1, a =>
    match a.1.step a.2 with
    | ⟨.ok _, m, c⟩ => advance n (m, c)
    | ⟨.error _, _, _⟩ => none

theorem reaches_of_advance {n : Nat} {a b : Machine × Context} (h : advance n a = some b) :
    Reaches a b := by
  induction n generalizing a with
  | zero =>
    cases h
    exact .refl
  | succ n ih =>
    unfold advance at h
    split at h
    · next call m c stepped => exact .head ⟨call, stepped⟩ (ih h)
    · cases h

def Step.ofResult (context : Context) : EStateM.Result Error Machine Unit → Step
  | .ok _ m => ⟨.ok none, m, context⟩
  | .error e m => ⟨.error e, m, context⟩

end Machine

namespace Work

def isInvoke : Work → Bool
  | invoke .. => true
  | _ => false

def callee? : Work → Option Function
  | invoke f _ _ => some f
  | _ => none

theorem eq_invoke_of_callee? {item : Work} {f : Function} (h : item.callee? = some f) :
    ∃ span n, item = invoke f span n := by
  cases item with
  | invoke g span n =>
    cases h
    exact ⟨span, n, rfl⟩
  | _ => cases h

/-- Whether an item reads a variable and does nothing else. -/
def isRead : Work → Bool
  | expr (.symbol _) => true
  | _ => false

theorem eq_symbol_of_isRead {item : Work} (h : item.isRead = true) :
    ∃ s, item = expr (.symbol s) := by
  unfold isRead at h
  split at h
  · exact ⟨_, rfl⟩
  · cases h

def isStore : Work → Bool
  | store .. => true
  | _ => false

theorem eq_store_of_isStore {item : Work} (h : item.isStore = true) :
    ∃ x op p, item = store x op p := by
  unfold isStore at h
  split at h
  · exact ⟨_, _, _, rfl⟩
  · cases h

end Work

namespace Machine
open Act

variable {σ : Setting} {fs : List Frame} {W : List Work} {V : List Value} {c : Context}

@[simp] theorem work_machine : (σ.machine fs W V).work = .ofList W := rfl

@[simp] theorem values_machine : (σ.machine fs W V).values = V := rfl

@[simp] theorem frames_machine : (σ.machine fs W V).frames = .ofList fs := rfl

@[simp] theorem tables_machine : (σ.machine fs W V).tables = σ.tables := rfl

@[simp] theorem maxDepth_machine : (σ.machine fs W V).maxDepth = σ.maxDepth := rfl

@[simp] theorem depth_machine : (σ.machine fs W V).depth = fs.length - 1 := rfl

theorem step_item {item : Work} (h : item.isInvoke = false) :
    (σ.machine fs (item :: W) V).step c =
      Step.ofResult c ((perform item).run (σ.machine fs W V)) := by
  cases item with
  | invoke f span arity => simp [Work.isInvoke] at h
  | _ =>
    simp only [step, work_machine, Stack.items_ofList, Stack.tail_ofList, List.tail_cons]
    split <;> simp_all [Step.ofResult, Setting.machine]

theorem step_invoke (f : Function) (span : Span) (arity : Nat) :
    (σ.machine fs (.invoke f span arity :: W) V).step c =
      match (invoke f span arity c).run (σ.machine fs W V) with
      | .ok (description, context) m => ⟨.ok (some description), m, context⟩
      | .error e m => ⟨.error e, m, c⟩ := by
  simp only [step, work_machine, Stack.items_ofList, Stack.tail_ofList, List.tail_cons]
  rfl

/-- An item that succeeds takes the machine on. -/
theorem next_of_perform {item : Work} {m : Machine} (h : item.isInvoke = false)
    (done : (perform item).run (σ.machine fs W V) = .ok () m) :
    Next (σ.machine fs (item :: W) V, c) (m, c) :=
  ⟨none, by simp [step_item h, done, Step.ofResult]⟩

@[simp] theorem run_schedule (items : List Work) :
    (schedule items).run (σ.machine fs W V) = .ok () (σ.machine fs (items ++ W) V) := by
  simp [schedule, Setting.machine]

@[simp] theorem run_push (v : Value) :
    (push v).run (σ.machine fs W V) = .ok () (σ.machine fs W (v :: V)) := rfl

@[simp] theorem run_pop (v : Value) (p : Position) :
    (pop p).run (σ.machine fs W (v :: V)) = .ok v (σ.machine fs W V) := rfl

/-- Values that were pushed one after the other are taken in that order. -/
theorem run_popMany {taken : List Value} {count : Nat} (h : taken.length = count) (p : Position) :
    (popMany count p).run (σ.machine fs W (taken.reverse ++ V)) =
      .ok taken (σ.machine fs W V) := by
  have whole : (taken.reverse ++ V).take count = taken.reverse := by simp [← h]
  have rest : (taken.reverse ++ V).drop count = V := by simp [← h]
  simp only [popMany, EStateM.run_bind, EStateM.run_get, values_machine, whole, rest]
  simp only [List.length_reverse, h, Nat.lt_irrefl, if_false, List.reverse_reverse]
  rfl

@[simp] theorem run_popLogic (b : Bool) (p : Position) :
    (popLogic p).run (σ.machine fs W (.logic b :: V)) = .ok b (σ.machine fs W V) := rfl

@[simp] theorem run_popCount (n : Int) (p : Position) :
    (popCount p).run (σ.machine fs W (.number n :: V)) = .ok n.toNat (σ.machine fs W V) := rfl

theorem run_recorded {α : Type} {what : String} {table : Tables → Table α} {id : Nat} {entry : α}
    (h : (table σ.tables).get? id = some entry) (p : Position) :
    (recorded what table id p).run (σ.machine fs W V) = .ok entry (σ.machine fs W V) := by
  simp [recorded, h]

theorem run_symbol {id x : Nat} (h : σ.tables.symbols.get? id = some x) (p : Position) :
    (symbol id p).run (σ.machine fs W V) = .ok x (σ.machine fs W V) := run_recorded h p

theorem run_operator {id : Nat} {op : Operator} (h : σ.tables.operators.get? id = some op)
    (p : Position) :
    (operator id p).run (σ.machine fs W V) = .ok op (σ.machine fs W V) := run_recorded h p

theorem run_function {id : Nat} {f : Function} (h : σ.tables.functions.get? id = some f)
    (p : Position) :
    (function id p).run (σ.machine fs W V) = .ok f (σ.machine fs W V) := run_recorded h p

@[simp] theorem run_declare (x : Nat) (v : Value) (f : Frame) :
    (declare x v).run (σ.machine (f :: fs) W V) =
      .ok () (σ.machine (Frame.set x v f :: fs) W V) := by
  simp [declare, Setting.machine]

theorem run_read {x : Nat} {v : Value} (h : fs.findSome? (fun f => f.lookup x) = some v)
    (p : Position) : (Act.read x p).run (σ.machine fs W V) = .ok v (σ.machine fs W V) := by
  simp [Act.read, lookup?, h]

theorem run_assign {x : Nat} {v : Value} {fs' : List Frame}
    (h : Stack.replaceFirst? (Frame.assign? x v) fs = some fs') (p : Position) :
    (assign x v p).run (σ.machine fs W V) = .ok () (σ.machine fs' W V) := by
  simp [assign, h, Setting.machine]

theorem run_unwindTo {isTarget : Work → Bool} {W' : List Work}
    (h : Stack.listBelow isTarget W = some W') (statement : String) (p : Position) :
    (unwindTo isTarget statement p).run (σ.machine fs W V) = .ok () (σ.machine fs W' V) := by
  simp [unwindTo, h, Setting.machine]

theorem run_unwindReturn {W' : List Work} (h : Stack.listBelow Work.isReturnPointer W = some W')
    (p : Position) :
    (unwindReturn p).run (σ.machine fs W V) = .ok () (σ.machine fs.tail W' V) := by
  simp only [unwindReturn, EStateM.run_bind, run_unwindTo h]
  simp [Setting.machine]

@[simp] theorem run_located_ok {α : Type} (a : α) (p : Position) :
    (located p (.ok a)).run (σ.machine fs W V) = .ok a (σ.machine fs W V) := rfl

@[simp] theorem run_located_error {α : Type} (cause : Cause) (p : Position) :
    (located p (.error cause : Except Cause α)).run (σ.machine fs W V) =
      .error ⟨cause, p⟩ (σ.machine fs W V) := rfl

@[simp] theorem run_retireBreakPointer :
    retireBreakPointer.run (σ.machine fs (.breakPointer :: W) V) =
      .ok () (σ.machine fs W V) := by
  simp [retireBreakPointer, Setting.machine]

end Machine

def Setting.bind? (σ : Setting) : List Parameter → List Value → Frame → Option Frame
  | parameter :: parameters, value :: values, frame =>
    (σ.tables.symbols.get? parameter.mark.id).bind fun x =>
      σ.bind? parameters values (Frame.set x value frame)
  | _, _, frame => some frame

namespace Machine
open Act

variable {σ : Setting} {fs : List Frame} {W : List Work} {V : List Value} {c : Context}

theorem run_bindParameters {parameters : List Parameter} {values : List Value}
    {frame frame' : Frame} (h : σ.bind? parameters values frame = some frame') :
    (bindParameters parameters values frame).run (σ.machine fs W V) =
      .ok frame' (σ.machine fs W V) := by
  induction parameters generalizing values frame with
  | nil =>
    simp only [Setting.bind?, Option.some.injEq] at h
    subst h
    rfl
  | cons parameter parameters ih =>
    cases values with
    | nil =>
      simp only [Setting.bind?, Option.some.injEq] at h
      subst h
      rfl
    | cons value values =>
      obtain ⟨x, found, rest⟩ := Option.bind_eq_some_iff.1 h
      simp [bindParameters, run_symbol found, ih rest]

theorem run_enterFunction {decl : FunctionDecl Stmt} {arguments : List Value} {frame : Frame}
    (room : fs.length - 1 < σ.maxDepth)
    (bound : σ.bind? decl.parameters arguments [] = some frame) (span : Span) :
    (enterFunction decl span arguments).run (σ.machine fs W V) =
      .ok () (σ.machine (frame :: fs) (itemsOf decl.body ++ .pushUnit :: .returnPointer :: W) V) := by
  have deep : ¬ σ.maxDepth ≤ fs.length - 1 := Nat.not_le_of_lt room
  have scheduled := @run_schedule σ (frame :: fs) W V
    (itemsOf decl.body ++ [.pushUnit, .returnPointer])
  simp only [enterFunction, EStateM.run_bind, EStateM.run_get, depth_machine, maxDepth_machine, deep,
    if_false, run_bindParameters bound, EStateM.run_modify, frames_machine, Stack.push_ofList]
  rw [List.append_assoc] at scheduled
  exact scheduled

theorem run_enterFunction_deep {decl : FunctionDecl Stmt} {arguments : List Value}
    (deep : σ.maxDepth ≤ fs.length - 1) (span : Span) :
    (enterFunction decl span arguments).run (σ.machine fs W V) =
      .error ⟨.recursionLimit σ.maxDepth, span.start⟩ (σ.machine fs W V) := by
  simp only [enterFunction, EStateM.run_bind, EStateM.run_get, depth_machine, maxDepth_machine, deep,
    if_true]
  rfl

theorem perform_symbol {s : Symbol} {x : Nat} {v : Value}
    (recorded : σ.tables.symbols.get? s.mark.id = some x)
    (held : fs.findSome? (fun f => f.lookup x) = some v) :
    (perform (.expr (.symbol s))).run (σ.machine fs W V) = .ok () (σ.machine fs W (v :: V)) := by
  simp [perform, visitExpr, run_symbol recorded, run_read held]

theorem perform_interpolation (mark : Mark) (parts : List (Part Expr)) :
    (perform (.expr (.interpolation mark parts))).run (σ.machine fs W V) =
      .ok () (σ.machine fs
        (operands (Part.embedded parts) ++ .joinText parts mark.start :: W) V) := by
  simp [perform, visitExpr]

theorem perform_binary {mark : Mark} {op : Operator}
    (recorded : σ.tables.operators.get? mark.id = some op) (left : Expr) (token : Token)
    (right : Expr) :
    (perform (.expr (.binary mark left token right))).run (σ.machine fs W V) =
      .ok () (σ.machine fs
        (.expr left :: .expr right :: .applyBinary op token.span.start :: W) V) := by
  simp [perform, visitExpr, run_operator recorded]

theorem perform_unary {mark : Mark} {op : Operator}
    (recorded : σ.tables.operators.get? mark.id = some op) (token : Token) (operand : Expr) :
    (perform (.expr (.unary mark token operand))).run (σ.machine fs W V) =
      .ok () (σ.machine fs (.expr operand :: .applyUnary op mark.start :: W) V) := by
  simp [perform, visitExpr, run_operator recorded]

theorem perform_index {mark : Mark} {op : Operator}
    (recorded : σ.tables.operators.get? mark.id = some op) (collection index : Expr) :
    (perform (.expr (.index mark collection index))).run (σ.machine fs W V) =
      .ok () (σ.machine fs
        (.expr collection :: .expr index :: .applyBinary op index.start :: W) V) := by
  simp [perform, visitExpr, run_operator recorded]

theorem perform_call {mark : Mark} {f : Function}
    (recorded : σ.tables.functions.get? mark.id = some f) (callee : String)
    (arguments : List Expr) :
    (perform (.expr (.call mark callee arguments))).run (σ.machine fs W V) =
      .ok () (σ.machine fs
        (operands arguments ++ .invoke f mark.span arguments.length :: W) V) := by
  simp [perform, visitExpr, run_function recorded]

theorem perform_list (mark : Mark) (elements : List Expr) :
    (perform (.expr (.list mark elements))).run (σ.machine fs W V) =
      .ok () (σ.machine fs
        (operands elements ++ .makeList elements.length mark.start :: W) V) := by
  simp [perform, visitExpr]

theorem length_entryOperands (es : List (Expr × Expr)) :
    (entryOperands es).length = es.length * 2 := by
  induction es with
  | nil => rfl
  | cons entry rest ih =>
    simp only [entryOperands, List.flatMap_cons, List.length_append, List.length_cons,
      List.length_nil] at ih ⊢
    omega

theorem perform_map (mark : Mark) (entries : List (Expr × Expr)) :
    (perform (.expr (.map mark entries))).run (σ.machine fs W V) =
      .ok () (σ.machine fs
        (operands (entryOperands entries) ++ .makeMap entries.length mark.start :: W) V) := by
  simp [perform, visitExpr]

theorem perform_declaration {mark : Mark} {x : Nat}
    (recorded : σ.tables.symbols.get? mark.id = some x) (name : String) (type : Ty)
    (value : Expr) :
    (perform (.stmt (.declare mark name type value))).run (σ.machine fs W V) =
      .ok () (σ.machine fs (.expr value :: .declare x mark.start :: W) V) := by
  simp [perform, visitStmt, run_symbol recorded]

theorem perform_assignment {mark : Mark} {target : Symbol} {token : Token} {x : Nat}
    (recorded : σ.tables.symbols.get? target.mark.id = some x)
    (plain : token.kind = .assignment) (value : Expr) :
    (perform (.stmt (.assign mark target token value))).run (σ.machine fs W V) =
      .ok () (σ.machine fs (.expr value :: .store x none mark.start :: W) V) := by
  simp [perform, visitStmt, run_symbol recorded, plain]

theorem perform_compound {mark : Mark} {target : Symbol} {token : Token} {x : Nat}
    {op : Operator} (recorded : σ.tables.symbols.get? target.mark.id = some x)
    (compound : token.kind ≠ .assignment)
    (chosen : σ.tables.operators.get? mark.id = some op) (value : Expr) :
    (perform (.stmt (.assign mark target token value))).run (σ.machine fs W V) =
      .ok () (σ.machine fs (.expr value :: .store x (some op) mark.start :: W) V) := by
  simp [perform, visitStmt, run_symbol recorded, compound, run_operator chosen]

theorem perform_block (block : Block Stmt) :
    (perform (.stmt (.block block))).run (σ.machine fs W V) =
      .ok () (σ.machine fs (itemsOf block ++ W) V) := by
  simp [perform, visitStmt]

theorem perform_expression (mark : Mark) (e : Expr) :
    (perform (.stmt (.expression mark e))).run (σ.machine fs W V) =
      .ok () (σ.machine fs (.expr e :: .discard mark.start :: W) V) := by
  simp [perform, visitStmt]

theorem perform_branch (mark : Mark) (condition : Expr) (body : Block Stmt)
    (other : Option Stmt) :
    (perform (.stmt (.branch mark condition body other))).run (σ.machine fs W V) =
      .ok () (σ.machine fs (.expr condition :: .branch mark.start body other :: W) V) := by
  simp [perform, visitStmt]

theorem perform_whileLoop (mark : Mark) (condition : Expr) (body : Block Stmt) :
    (perform (.stmt (.whileLoop mark condition body))).run (σ.machine fs W V) =
      .ok () (σ.machine fs (.expr condition :: .whileTest mark condition body :: W) V) := by
  simp [perform, visitStmt]

theorem perform_repeatLoop (mark : Mark) (count : Expr) (body : Block Stmt) :
    (perform (.stmt (.repeatLoop mark count body))).run (σ.machine fs W V) =
      .ok () (σ.machine fs (.expr count :: .repeatCount mark.start body :: W) V) := by
  simp [perform, visitStmt]

theorem perform_return (mark : Mark) (value : Expr) :
    (perform (.stmt (.ret mark (some value)))).run (σ.machine fs W V) =
      .ok () (σ.machine fs (.expr value :: .leaveCall mark.start :: W) V) := by
  simp [perform, visitStmt]

theorem perform_bareReturn (mark : Mark) :
    (perform (.stmt (.ret mark none))).run (σ.machine fs W V) =
      .ok () (σ.machine fs (.leaveCall mark.start :: W) (.unit :: V)) := by
  simp [perform, visitStmt]

theorem perform_break {W' : List Work} (h : Stack.listBelow Work.isBreakPointer W = some W')
    (mark : Mark) :
    (perform (.stmt (.brk mark))).run (σ.machine fs W V) = .ok () (σ.machine fs W' V) :=
  run_unwindTo h _ _

theorem perform_continue {W' : List Work}
    (h : Stack.listBelow Work.isContinuePointer W = some W') (mark : Mark) :
    (perform (.stmt (.cont mark))).run (σ.machine fs W V) = .ok () (σ.machine fs W' V) :=
  run_unwindTo h _ _

theorem perform_store {x : Nat} {v : Value} {fs' : List Frame}
    (h : Stack.replaceFirst? (Frame.assign? x v) fs = some fs') (p : Position) :
    (perform (.store x none p)).run (σ.machine fs W (v :: V)) = .ok () (σ.machine fs' W V) := by
  simp [perform, store, run_assign h]

theorem perform_storeResult {x : Nat} {v current result : Value} {op : Operator}
    {fs' : List Frame} (held : fs.findSome? (fun f => f.lookup x) = some current)
    (applied : op.applyBinary current v = .ok result)
    (h : Stack.replaceFirst? (Frame.assign? x result) fs = some fs') (p : Position) :
    (perform (.store x (some op) p)).run (σ.machine fs W (v :: V)) =
      .ok () (σ.machine fs' W V) := by
  simp [perform, store, run_read held, applied, run_assign h]

theorem perform_store_error {x : Nat} {v current : Value} {op : Operator} {cause : Cause}
    (held : fs.findSome? (fun f => f.lookup x) = some current)
    (applied : op.applyBinary current v = .error cause) (p : Position) :
    (perform (.store x (some op) p)).run (σ.machine fs W (v :: V)) =
      .error ⟨cause, p⟩ (σ.machine fs W V) := by
  simp [perform, store, run_read held, applied]

theorem perform_choose (b : Bool) (p : Position) (body : Block Stmt) (other : Option Stmt) :
    (perform (.branch p body other)).run (σ.machine fs W (.logic b :: V)) =
      .ok () (σ.machine fs ((if b then itemsOf body else other.toList.map .stmt) ++ W) V) := by
  cases b <;> simp [perform]

theorem perform_whileTest (b : Bool) (mark : Mark) (condition : Expr) (body : Block Stmt) :
    (perform (.whileTest mark condition body)).run (σ.machine fs W (.logic b :: V)) =
      .ok () (σ.machine fs
        (if b then itemsOf body ++ .continuePointer ::
          .again (.whileTrue mark condition body) :: .breakPointer :: W else W) V) := by
  cases b <;> simp [perform, enterRound]

/-- The work of a counted loop with `n` rounds ahead. -/
def timesWork (body : Block Stmt) (rest : List Work) : Nat → List Work
  | 0 => rest
  | n + 1 => itemsOf body ++ .continuePointer :: .again (.times n body) :: .breakPointer :: rest

theorem run_enterTimes (body : Block Stmt) (n : Nat) :
    (enterTimes body n).run (σ.machine fs W V) =
      .ok () (σ.machine fs (timesWork body W n) V) := by
  cases n <;> simp [enterTimes, enterRound, timesWork]

theorem perform_repeatCount (n : Int) (p : Position) (body : Block Stmt) :
    (perform (.repeatCount p body)).run (σ.machine fs W (.number n :: V)) =
      .ok () (σ.machine fs (timesWork body W n.toNat) V) := by
  simp [perform, run_enterTimes]

theorem perform_again_while (mark : Mark) (condition : Expr) (body : Block Stmt) :
    (perform (.again (.whileTrue mark condition body))).run
        (σ.machine fs (.breakPointer :: W) V) =
      .ok () (σ.machine fs (.expr condition :: .whileTest mark condition body :: W) V) := by
  simp [perform, continueLoop]

theorem perform_again_times (n : Nat) (body : Block Stmt) :
    (perform (.again (.times n body))).run (σ.machine fs (.breakPointer :: W) V) =
      .ok () (σ.machine fs (timesWork body W n) V) := by
  simp [perform, continueLoop, run_enterTimes]

theorem perform_applyBinary {op : Operator} {left right result : Value}
    (h : op.applyBinary left right = .ok result) (p : Position) :
    (perform (.applyBinary op p)).run (σ.machine fs W (right :: left :: V)) =
      .ok () (σ.machine fs W (result :: V)) := by
  simp [perform, applyBinary, h]

theorem perform_applyBinary_error {op : Operator} {left right : Value} {cause : Cause}
    (h : op.applyBinary left right = .error cause) (p : Position) :
    (perform (.applyBinary op p)).run (σ.machine fs W (right :: left :: V)) =
      .error ⟨cause, p⟩ (σ.machine fs W V) := by
  simp [perform, applyBinary, h]

theorem perform_applyUnary {op : Operator} {operand result : Value}
    (h : op.applyUnary operand = .ok result) (p : Position) :
    (perform (.applyUnary op p)).run (σ.machine fs W (operand :: V)) =
      .ok () (σ.machine fs W (result :: V)) := by
  simp [perform, applyUnary, h]

theorem perform_applyUnary_error {op : Operator} {operand : Value} {cause : Cause}
    (h : op.applyUnary operand = .error cause) (p : Position) :
    (perform (.applyUnary op p)).run (σ.machine fs W (operand :: V)) =
      .error ⟨cause, p⟩ (σ.machine fs W V) := by
  simp [perform, applyUnary, h]

theorem perform_joinText {parts : List (Part Expr)} {values : List Value}
    (h : values.length = (Part.embedded parts).length) (p : Position) :
    (perform (.joinText parts p)).run (σ.machine fs W (values.reverse ++ V)) =
      .ok () (σ.machine fs W (.string (joinParts parts values) :: V)) := by
  simp [perform, run_popMany h]

theorem perform_makeList {count : Nat} {values : List Value} (h : values.length = count)
    (p : Position) :
    (perform (.makeList count p)).run (σ.machine fs W (values.reverse ++ V)) =
      .ok () (σ.machine fs W (.list values :: V)) := by
  simp [perform, run_popMany h]

theorem perform_makeMap {count : Nat} {values : List Value} (h : values.length = count * 2)
    (p : Position) :
    (perform (.makeMap count p)).run (σ.machine fs W (values.reverse ++ V)) =
      .ok () (σ.machine fs W (.map (Value.entriesOf (pairs values)) :: V)) := by
  simp [perform, run_popMany h]

theorem perform_leaveCall {W' : List Work}
    (h : Stack.listBelow Work.isReturnPointer W = some W') (p : Position) :
    (perform (.leaveCall p)).run (σ.machine fs W V) = .ok () (σ.machine fs.tail W' V) :=
  run_unwindReturn h p

theorem perform_returnPointer :
    (perform .returnPointer).run (σ.machine fs W V) = .ok () (σ.machine fs.tail W V) := by
  simp [perform, Setting.machine]

theorem step_native {f : Function} {run : NativeBody} {arity : Nat} {arguments : List Value}
    {v : Value} {c' : Context} (native : f.body = .native run) (count : arguments.length = arity)
    (answered : run c arguments = .ok (v, c')) (span : Span) :
    (σ.machine fs (.invoke f span arity :: W) (arguments.reverse ++ V)).step c =
      ⟨.ok (some (f.describeCall arguments)), σ.machine fs W (v :: V), c'⟩ := by
  simp only [step_invoke, invoke, EStateM.run_bind, run_popMany count, native, answered, run_push,
    EStateM.run_pure]

theorem step_native_error {f : Function} {run : NativeBody} {arity : Nat}
    {arguments : List Value} {message : String} (native : f.body = .native run)
    (count : arguments.length = arity) (refused : run c arguments = .error message) (span : Span) :
    (σ.machine fs (.invoke f span arity :: W) (arguments.reverse ++ V)).step c =
      ⟨.error ⟨.nativeCallFailed f.name message, span.start⟩, σ.machine fs W V, c⟩ := by
  simp only [step_invoke, invoke, EStateM.run_bind, run_popMany count, native, refused]
  rfl

theorem step_script {f : Function} {decl : FunctionDecl Stmt} {arity : Nat}
    {arguments : List Value} {frame : Frame} (script : f.body = .script decl)
    (count : arguments.length = arity) (room : fs.length - 1 < σ.maxDepth)
    (bound : σ.bind? decl.parameters arguments [] = some frame) (span : Span) :
    (σ.machine fs (.invoke f span arity :: W) (arguments.reverse ++ V)).step c =
      ⟨.ok (some (f.describeCall arguments)),
        σ.machine (frame :: fs) (itemsOf decl.body ++ .pushUnit :: .returnPointer :: W) V, c⟩ := by
  simp only [step_invoke, invoke, EStateM.run_bind, run_popMany count, script,
    run_enterFunction room bound, EStateM.run_pure]

theorem step_script_deep {f : Function} {decl : FunctionDecl Stmt} {arity : Nat}
    {arguments : List Value} (script : f.body = .script decl)
    (count : arguments.length = arity) (deep : σ.maxDepth ≤ fs.length - 1) (span : Span) :
    (σ.machine fs (.invoke f span arity :: W) (arguments.reverse ++ V)).step c =
      ⟨.error ⟨.recursionLimit σ.maxDepth, span.start⟩, σ.machine fs W V, c⟩ := by
  simp only [step_invoke, invoke, EStateM.run_bind, run_popMany count, script,
    run_enterFunction_deep deep]

end Machine

end CursorScript
