import CursorScript.BuiltIn
import CursorScript.Library.Standard
import CursorScript.Machine.Trace
import CursorScript.Proofs.AnalysisAlike
import CursorScript.Proofs.GrammarAlike
import CursorScript.Proofs.Nodes

/-!
Evaluation does not look at places. A machine and its shadow, whose work and tables are the same
but for places, do the same item by item: they leave the same values, make the same calls and fail
for the same causes. With what reading and analysis do, scripts made of the same words mean the
same, however they are laid out.
-/
namespace CursorScript

def Loop.unplaced : Loop → Loop
  | whileTrue mark condition body => whileTrue mark.unplaced condition.unplaced body.unplaced
  | times remaining body => times remaining body.unplaced

def Work.unplaced : Work → Work
  | stmt s => stmt s.unplaced
  | expr e => expr e.unplaced
  | discard _ => discard .unknown
  | declare symbol _ => declare symbol .unknown
  | store symbol operator _ => store symbol operator .unknown
  | branch _ body other => branch .unknown body.unplaced (other.map Stmt.unplaced)
  | whileTest mark condition body => whileTest mark.unplaced condition.unplaced body.unplaced
  | repeatCount _ body => repeatCount .unknown body.unplaced
  | again loop => again loop.unplaced
  | applyBinary operator _ => applyBinary operator .unknown
  | applyUnary operator _ => applyUnary operator .unknown
  | joinText parts _ => joinText (Expr.remarkParts Mark.unplaced parts) .unknown
  | makeList count _ => makeList count .unknown
  | makeMap count _ => makeMap count .unknown
  | pushUnit => pushUnit
  | leaveCall _ => leaveCall .unknown
  | invoke function _ arity => invoke function.unplaced .nowhere arity
  | returnPointer => returnPointer
  | breakPointer => breakPointer
  | continuePointer => continuePointer

namespace Machine

structure Shows (m shadow : Machine) : Prop where
  tables : m.tables.Shows shadow.tables
  maxDepth : shadow.maxDepth = m.maxDepth
  frames : shadow.frames = m.frames
  work : shadow.work.items = m.work.items.map Work.unplaced
  values : shadow.values = m.values

section
variable {m shadow : Machine} (shows : m.Shows shadow)
include shows

theorem Shows.withFrames (frames : Stack Frame) :
    Shows { m with frames := frames } { shadow with frames := frames } :=
  ⟨shows.tables, shows.maxDepth, rfl, shows.work, shows.values⟩

theorem Shows.withWork {work work' : Stack Work}
    (same : work'.items = work.items.map Work.unplaced) :
    Shows { m with work := work } { shadow with work := work' } :=
  ⟨shows.tables, shows.maxDepth, shows.frames, same, shows.values⟩

theorem Shows.withValues (values : List Value) :
    Shows { m with values := values } { shadow with values := values } :=
  ⟨shows.tables, shows.maxDepth, shows.frames, shows.work, rfl⟩

end

/-- Two actions both failed for the same cause, or both gave results, which are related; the
machines that they left are shadow and shadowed. -/
inductive Mirrored {α : Type} (rel : α → α → Prop) :
    EStateM.Result Error Machine α → EStateM.Result Error Machine α → Prop
  | failed {e e' : Error} {m shadow : Machine} (same : e.cause = e'.cause) (left : m.Shows shadow) :
      Mirrored rel (.error e m) (.error e' shadow)
  | done {a a' : α} {m shadow : Machine} (results : rel a a') (left : m.Shows shadow) :
      Mirrored rel (.ok a m) (.ok a' shadow)

/-- An action on a machine is mirrored by another on its shadow. -/
def Mirrors {α : Type} (act act' : Act α) (rel : α → α → Prop) : Prop :=
  ∀ m shadow, m.Shows shadow → Mirrored rel (act.run m) (act'.run shadow)

section
variable {α β : Type} {act act' : Act α} {next next' : α → Act β} {mid : α → α → Prop}
  {rel : β → β → Prop}

theorem Mirrors.bind (h : Mirrors act act' mid)
    (rest : ∀ a a', mid a a' → Mirrors (next a) (next' a') rel) :
    Mirrors (act >>= next) (act' >>= next') rel := by
  intro m shadow shows
  have first := h m shadow shows
  rw [EStateM.run_bind, EStateM.run_bind]
  generalize act.run m = left at first
  generalize act'.run shadow = right at first
  cases first with
  | failed same left => exact .failed same left
  | done results left => exact rest _ _ results _ _ left

theorem Mirrors.pure {b b' : β} (h : rel b b') : Mirrors (pure b) (pure b') rel :=
  fun _ _ shows => .done h shows

theorem Mirrors.throw {e e' : Error} (same : e.cause = e'.cause) :
    Mirrors (throw e : Act β) (throw e') rel := fun _ _ shows => .failed same shows

theorem Mirrors.get : Mirrors get get Shows := fun _ _ shows => .done shows shows

theorem Mirrors.set {m shadow : Machine} (h : m.Shows shadow) :
    Mirrors (set m) (set shadow) fun _ _ => True := fun _ _ _ => .done trivial h

theorem Mirrors.modify {f f' : Machine → Machine}
    (h : ∀ m shadow, m.Shows shadow → (f m).Shows (f' shadow)) :
    Mirrors (modify f) (modify f') Eq := fun m shadow shows => .done rfl (h m shadow shows)

theorem mirrors_broken (message : String) (p p' : Position) :
    Mirrors (Act.broken message p : Act β) (Act.broken message p') rel := .throw rfl

end

open Act

theorem mirrors_schedule {items items' : List Work} (h : items' = items.map Work.unplaced) :
    Mirrors (schedule items) (schedule items') Eq :=
  .modify fun m shadow shows => shows.withWork (by simp [Stack.pushAll, h, shows.work])

theorem mirrors_push (value : Value) : Mirrors (push value) (push value) Eq := by
  refine .modify fun m shadow shows => ?_
  rw [shows.values]
  exact shows.withValues _

theorem mirrors_pop (p p' : Position) : Mirrors (pop p) (pop p') Eq := by
  refine Mirrors.get.bind fun m shadow shows => ?_
  rw [shows.values]
  split
  · exact mirrors_broken _ _ _
  · exact (Mirrors.set (shows.withValues _)).bind fun _ _ _ => .pure rfl

theorem mirrors_popMany (count : Nat) (p p' : Position) :
    Mirrors (popMany count p) (popMany count p') Eq := by
  refine Mirrors.get.bind fun m shadow shows => ?_
  rw [shows.values]
  dsimp only
  split
  · exact fun _ _ left => .failed rfl left
  · exact (Mirrors.set (shows.withValues _)).bind fun _ _ _ => .pure rfl

theorem mirrors_popLogic (p p' : Position) : Mirrors (popLogic p) (popLogic p') Eq := by
  refine (mirrors_pop p p').bind ?_
  rintro value _ rfl
  cases value with
  | logic b => exact .pure rfl
  | _ => exact mirrors_broken _ _ _

theorem mirrors_popCount (p p' : Position) : Mirrors (popCount p) (popCount p') Eq := by
  refine (mirrors_pop p p').bind ?_
  rintro value _ rfl
  cases value with
  | number n => exact .pure rfl
  | _ => exact mirrors_broken _ _ _

theorem mirrors_recorded {α : Type} {view : α → α} (what : String) (table : Tables → Table α)
    (h : ∀ t t' : Tables, t.Shows t' → (table t).Shows view (table t')) (id : Nat)
    (p p' : Position) :
    Mirrors (recorded what table id p) (recorded what table id p') fun a a' => a' = view a := by
  refine Mirrors.get.bind fun m shadow shows => ?_
  rw [h _ _ shows.tables id]
  cases (table m.tables).get? id with
  | some entry => exact .pure rfl
  | none => exact mirrors_broken _ _ _

theorem mirrors_symbol (id : Nat) (p p' : Position) :
    Mirrors (symbol id p) (symbol id p') fun s s' => s' = s :=
  mirrors_recorded "symbol" Tables.symbols (fun _ _ shows => shows.symbols) id p p'

theorem mirrors_operator (id : Nat) (p p' : Position) :
    Mirrors (operator id p) (operator id p') fun op op' => op' = op :=
  mirrors_recorded "operator" Tables.operators (fun _ _ shows => shows.operators) id p p'

theorem mirrors_function (id : Nat) (p p' : Position) :
    Mirrors (function id p) (function id p') fun f f' => f' = f.unplaced :=
  mirrors_recorded "function" Tables.functions (fun _ _ shows => shows.functions) id p p'

theorem mirrors_declare (symbol : Nat) (value : Value) :
    Mirrors (declare symbol value) (declare symbol value) Eq := by
  refine .modify fun m shadow shows => ?_
  rw [shows.frames]
  split
  · exact shows
  · exact shows.withFrames _

theorem mirrors_read (symbol : Nat) (p p' : Position) :
    Mirrors (read symbol p) (read symbol p') Eq := by
  refine Mirrors.get.bind fun m shadow shows => ?_
  have same : shadow.lookup? symbol = m.lookup? symbol := by simp [lookup?, shows.frames]
  rw [same]
  split
  · exact .pure rfl
  · exact mirrors_broken _ _ _

theorem mirrors_assign (symbol : Nat) (value : Value) (p p' : Position) :
    Mirrors (assign symbol value p) (assign symbol value p') Eq := by
  refine Mirrors.get.bind fun m shadow shows => ?_
  rw [shows.frames]
  split
  · exact fun _ _ _ => .done rfl (shows.withFrames _)
  · exact mirrors_broken _ _ _

theorem listBelow_unplaced {isTarget : Work → Bool}
    (h : ∀ item : Work, isTarget item.unplaced = isTarget item) (items : List Work) :
    Stack.listBelow isTarget (items.map Work.unplaced) =
      (Stack.listBelow isTarget items).map (List.map Work.unplaced) := by
  induction items with
  | nil => rfl
  | cons item rest ih =>
    simp only [List.map_cons, Stack.listBelow, h]
    split
    · rfl
    · exact ih

theorem mirrors_unwindTo {isTarget : Work → Bool}
    (h : ∀ item : Work, isTarget item.unplaced = isTarget item) (statement : String)
    (p p' : Position) :
    Mirrors (unwindTo isTarget statement p) (unwindTo isTarget statement p') Eq := by
  refine Mirrors.get.bind fun m shadow shows => ?_
  have same := listBelow_unplaced h m.work.items
  rw [← shows.work, ← Stack.items_below?, ← Stack.items_below?] at same
  cases below : m.work.below? isTarget with
  | some rest =>
    cases below' : shadow.work.below? isTarget with
    | some rest' =>
      rw [below, below'] at same
      exact fun _ _ _ => .done rfl (shows.withWork (Option.some.inj same))
    | none => simp [below, below'] at same
  | none =>
    cases below' : shadow.work.below? isTarget with
    | some rest' => simp [below, below'] at same
    | none => exact (Mirrors.set (shows.withWork rfl)).bind fun _ _ _ => mirrors_broken _ _ _

theorem mirrors_unwindReturn (p p' : Position) : Mirrors (unwindReturn p) (unwindReturn p') Eq := by
  refine (mirrors_unwindTo (by rintro ⟨⟩ <;> rfl) _ p p').bind fun _ _ _ => ?_
  refine .modify fun m shadow shows => ?_
  rw [shows.frames]
  exact shows.withFrames _

theorem mirrors_unwindBreak (p p' : Position) : Mirrors (unwindBreak p) (unwindBreak p') Eq :=
  mirrors_unwindTo (by rintro ⟨⟩ <;> rfl) _ p p'

theorem mirrors_unwindContinue (p p' : Position) :
    Mirrors (unwindContinue p) (unwindContinue p') Eq :=
  mirrors_unwindTo (by rintro ⟨⟩ <;> rfl) _ p p'

theorem mirrors_located {α : Type} (p p' : Position) (result : Except Cause α) :
    Mirrors (located p result) (located p' result) Eq := by
  cases result with
  | ok a => exact .pure rfl
  | error cause => exact .throw rfl

theorem mirrors_retireBreakPointer : Mirrors retireBreakPointer retireBreakPointer Eq := by
  refine .modify fun m shadow shows => ?_
  have same := shows.work
  cases items : m.work.items with
  | nil =>
    simp only [items, List.map_nil] at same
    simpa only [same] using shows
  | cons item rest =>
    simp only [items, List.map_cons] at same
    cases item with
    | breakPointer =>
      simp only [same, Work.unplaced]
      exact shows.withWork (by simp [Stack.tail, items, same])
    | _ => simpa only [same, Work.unplaced] using shows

theorem embedded_unplaced (parts : List (Part Expr)) :
    Part.embedded (Expr.remarkParts Mark.unplaced parts) =
      (Part.embedded parts).map Expr.unplaced := by
  induction parts with
  | nil => rfl
  | cons part rest ih => cases part <;> simp [Expr.remarkParts, Part.embedded, ih]

theorem joinParts_unplaced (parts : List (Part Expr)) (values : List Value) :
    joinParts (Expr.remarkParts Mark.unplaced parts) values = joinParts parts values := by
  induction parts generalizing values with
  | nil => rfl
  | cons part rest ih =>
    cases part <;> cases values <;> simp [Expr.remarkParts, joinParts, ih]

theorem operands_unplaced (es : List Expr) :
    operands (es.map Expr.unplaced) = (operands es).map Work.unplaced := by
  simp only [operands, List.map_map]
  rfl

theorem entryOperands_unplaced (entries : List (Expr × Expr)) :
    entryOperands (entries.map fun entry => (entry.1.unplaced, entry.2.unplaced)) =
      (entryOperands entries).map Expr.unplaced := by
  simp only [entryOperands, List.flatMap_map, List.map_flatMap]
  rfl

theorem itemsOf_unplaced (block : Block Stmt) :
    itemsOf block.unplaced = (itemsOf block).map Work.unplaced := by
  simp only [itemsOf, Block.unplaced, Block.remark, List.map_map]
  rfl

theorem mirrors_visitExpr (e : Expr) : Mirrors (visitExpr e) (visitExpr e.unplaced) Eq := by
  cases e with
  | symbol s =>
    refine (mirrors_symbol s.mark.id _ _).bind ?_
    rintro _ id rfl
    refine (mirrors_read id _ _).bind ?_
    rintro value _ rfl
    exact mirrors_push value
  | interpolation mark parts =>
    refine mirrors_schedule ?_
    rw [embedded_unplaced, operands_unplaced, List.map_append]
    rfl
  | binary mark left token right =>
    refine (mirrors_operator mark.id _ _).bind ?_
    rintro _ chosen rfl
    exact mirrors_schedule rfl
  | unary mark token operand =>
    refine (mirrors_operator mark.id _ _).bind ?_
    rintro _ chosen rfl
    exact mirrors_schedule rfl
  | index mark collection index =>
    refine (mirrors_operator mark.id _ _).bind ?_
    rintro _ chosen rfl
    refine mirrors_schedule ?_
    simp only [List.map_cons, List.map_nil, Work.unplaced, Expr.start, Expr.mark_remark]
    rfl
  | call mark callee arguments =>
    simp only [Expr.unplaced, Expr.remark, Expr.remarkAll_eq, visitExpr]
    refine (mirrors_function mark.id _ _).bind ?_
    rintro f _ rfl
    refine mirrors_schedule ?_
    rw [operands_unplaced, List.length_map, List.map_append]
    rfl
  | list mark elements =>
    simp only [Expr.unplaced, Expr.remark, Expr.remarkAll_eq, visitExpr]
    refine mirrors_schedule ?_
    rw [operands_unplaced, List.length_map, List.map_append]
    rfl
  | map mark entries =>
    simp only [Expr.unplaced, Expr.remark, Expr.remarkEntries_eq, visitExpr]
    refine mirrors_schedule ?_
    rw [entryOperands_unplaced, operands_unplaced, List.length_map, List.map_append]
    rfl
  | _ => exact mirrors_push _

theorem mirrors_visitStmt (s : Stmt) : Mirrors (visitStmt s) (visitStmt s.unplaced) Eq := by
  cases s with
  | block b =>
    rw [Stmt.unplaced, Stmt.remark_block]
    exact mirrors_schedule (itemsOf_unplaced b)
  | expression mark e => exact mirrors_schedule rfl
  | declare mark name type value =>
    refine (mirrors_symbol mark.id _ _).bind ?_
    rintro _ id rfl
    exact mirrors_schedule rfl
  | assign mark target token value =>
    refine (mirrors_symbol target.mark.id _ _).bind ?_
    rintro _ id rfl
    have stored : ∀ chosen : Option Operator, Mirrors
        (schedule [.expr value, .store id chosen mark.start])
        (schedule [.expr value.unplaced, .store id chosen mark.unplaced.start]) Eq :=
      fun chosen => mirrors_schedule rfl
    dsimp only
    by_cases plain : token.kind = .assignment
    · have plain' : token.unplaced.kind = .assignment := plain
      rw [if_pos plain, if_pos plain']
      exact stored none
    · have computed : ¬token.unplaced.kind = .assignment := plain
      rw [if_neg plain, if_neg computed]
      refine (mirrors_operator mark.id _ _).bind ?_
      rintro _ chosen rfl
      exact stored (some chosen)
  | branch mark condition body other =>
    simp only [Stmt.unplaced, Stmt.remark, Stmt.remarkAll_eq, Stmt.remarkOther_eq, visitStmt]
    exact mirrors_schedule rfl
  | whileLoop mark condition body =>
    simp only [Stmt.unplaced, Stmt.remark, Stmt.remarkAll_eq, visitStmt]
    exact mirrors_schedule rfl
  | repeatLoop mark count body =>
    simp only [Stmt.unplaced, Stmt.remark, Stmt.remarkAll_eq, visitStmt]
    exact mirrors_schedule rfl
  | function decl => exact .pure rfl
  | ret mark value =>
    cases value with
    | some value => exact mirrors_schedule rfl
    | none => exact (mirrors_schedule rfl).bind fun _ _ _ => mirrors_push .unit
  | brk mark => exact mirrors_unwindBreak _ _
  | cont mark => exact mirrors_unwindContinue _ _

theorem mirrors_enterRound (body : Block Stmt) (next : Loop) :
    Mirrors (enterRound body next) (enterRound body.unplaced next.unplaced) Eq := by
  refine mirrors_schedule ?_
  rw [itemsOf_unplaced, List.map_append]
  rfl

theorem mirrors_enterTimes (body : Block Stmt) (count : Nat) :
    Mirrors (enterTimes body count) (enterTimes body.unplaced count) Eq := by
  cases count with
  | zero => exact .pure rfl
  | succ n => exact mirrors_enterRound body (.times n body)

theorem mirrors_continueLoop (loop : Loop) :
    Mirrors (continueLoop loop) (continueLoop loop.unplaced) Eq := by
  cases loop with
  | whileTrue mark condition body => exact mirrors_schedule rfl
  | times remaining body => exact mirrors_enterTimes body remaining

theorem mirrors_store (id : Nat) (chosen : Option Operator) (p p' : Position) :
    Mirrors (store id chosen p) (store id chosen p') Eq := by
  refine (mirrors_pop p p').bind ?_
  rintro value _ rfl
  cases chosen with
  | none => exact mirrors_assign id value p p'
  | some op =>
    refine (mirrors_read id p p').bind ?_
    rintro current _ rfl
    refine (mirrors_located p p' _).bind ?_
    rintro result _ rfl
    exact mirrors_assign id result p p'

theorem mirrors_applyBinary (op : Operator) (p p' : Position) :
    Mirrors (applyBinary op p) (applyBinary op p') Eq := by
  refine (mirrors_pop p p').bind ?_
  rintro right _ rfl
  refine (mirrors_pop p p').bind ?_
  rintro left _ rfl
  refine (mirrors_located p p' _).bind ?_
  rintro result _ rfl
  exact mirrors_push result

theorem mirrors_applyUnary (op : Operator) (p p' : Position) :
    Mirrors (applyUnary op p) (applyUnary op p') Eq := by
  refine (mirrors_pop p p').bind ?_
  rintro operand _ rfl
  refine (mirrors_located p p' _).bind ?_
  rintro result _ rfl
  exact mirrors_push result

theorem mirrors_bindParameters (ps : List Parameter) (values : List Value) (frame : Frame) :
    Mirrors (bindParameters ps values frame)
      (bindParameters (ps.map (Parameter.remark Mark.unplaced)) values frame) Eq := by
  induction ps generalizing values frame with
  | nil => exact .pure rfl
  | cons p rest ih =>
    cases values with
    | nil => exact .pure rfl
    | cons value values =>
      refine (mirrors_symbol p.mark.id _ _).bind ?_
      rintro _ id rfl
      exact ih values _

theorem Shows.depth {m shadow : Machine} (shows : m.Shows shadow) : shadow.depth = m.depth := by
  simp [Machine.depth, shows.frames]

theorem Shows.pending {m shadow : Machine} (shows : m.Shows shadow) :
    shadow.pending = m.pending := by
  simp [Machine.pending, Stack.size_eq, shows.work]

theorem Shows.isFinished {m shadow : Machine} (shows : m.Shows shadow) :
    shadow.isFinished = m.isFinished := by
  simp [Machine.isFinished, shows.work]

theorem mirrors_enterFunction (decl : FunctionDecl Stmt) (span span' : Span)
    (arguments : List Value) :
    Mirrors (enterFunction decl span arguments)
      (enterFunction (decl.remark Mark.unplaced) span' arguments) Eq := by
  refine Mirrors.get.bind fun m shadow shows => ?_
  rw [shows.depth, shows.maxDepth]
  have entered : Mirrors
      (do let frame ← bindParameters decl.parameters arguments []
          modify fun m => { m with frames := m.frames.push frame }
          schedule (itemsOf decl.body ++ [.pushUnit, .returnPointer]))
      (do let frame ← bindParameters (decl.remark Mark.unplaced).parameters arguments []
          modify fun m => { m with frames := m.frames.push frame }
          schedule (itemsOf (decl.remark Mark.unplaced).body ++ [.pushUnit, .returnPointer])) Eq := by
    refine (mirrors_bindParameters decl.parameters arguments []).bind ?_
    rintro frame _ rfl
    refine (Mirrors.modify fun m shadow shows => ?_).bind fun _ _ _ => mirrors_schedule ?_
    · rw [shows.frames]
      exact shows.withFrames _
    · have body := itemsOf_unplaced decl.body
      rw [List.map_append, ← body]
      rfl
  dsimp only
  split
  · exact fun _ _ left => .failed rfl left
  · exact entered

theorem mirrors_invoke (f : Function) (span span' : Span) (arity : Nat) (context : Context) :
    Mirrors (invoke f span arity context) (invoke f.unplaced span' arity context) Eq := by
  refine (mirrors_popMany arity _ _).bind ?_
  rintro arguments _ rfl
  obtain ⟨name, types, names, returns, body⟩ := f
  cases body with
  | native run =>
    dsimp only [Function.unplaced, FunctionBody.unplaced]
    split
    · exact (mirrors_push _).bind fun _ _ _ => .pure rfl
    · exact .throw rfl
  | script decl =>
    exact (mirrors_enterFunction decl span span' arguments).bind fun _ _ _ => .pure rfl

theorem mirrors_perform (item : Work) : Mirrors (perform item) (perform item.unplaced) Eq := by
  cases item with
  | stmt s => exact mirrors_visitStmt s
  | expr e => exact mirrors_visitExpr e
  | discard p => exact (mirrors_pop _ _).bind fun _ _ _ => .pure rfl
  | declare id p =>
    refine (mirrors_pop _ _).bind ?_
    rintro value _ rfl
    exact mirrors_declare id value
  | store id chosen p => exact mirrors_store id chosen _ _
  | branch p body other =>
    refine (mirrors_popLogic _ _).bind ?_
    rintro held _ rfl
    split
    · exact mirrors_schedule (itemsOf_unplaced body)
    · exact mirrors_schedule (by cases other <;> rfl)
  | whileTest mark condition body =>
    refine (mirrors_popLogic _ _).bind ?_
    rintro held _ rfl
    split
    · exact mirrors_enterRound body (.whileTrue mark condition body)
    · exact .pure rfl
  | repeatCount p body =>
    refine (mirrors_popCount _ _).bind ?_
    rintro count _ rfl
    exact mirrors_enterTimes body count
  | again loop =>
    exact mirrors_retireBreakPointer.bind fun _ _ _ => mirrors_continueLoop loop
  | applyBinary op p => exact mirrors_applyBinary op _ _
  | applyUnary op p => exact mirrors_applyUnary op _ _
  | joinText parts p =>
    simp only [Work.unplaced, perform, embedded_unplaced, List.length_map, joinParts_unplaced]
    refine (mirrors_popMany _ _ _).bind ?_
    rintro values _ rfl
    exact mirrors_push _
  | makeList count p =>
    refine (mirrors_popMany _ _ _).bind ?_
    rintro values _ rfl
    exact mirrors_push _
  | makeMap count p =>
    refine (mirrors_popMany _ _ _).bind ?_
    rintro values _ rfl
    exact mirrors_push _
  | pushUnit => exact mirrors_push _
  | leaveCall p => exact mirrors_unwindReturn _ _
  | invoke f span arity => exact .pure rfl
  | returnPointer =>
    refine .modify fun m shadow shows => ?_
    rw [shows.frames]
    exact shows.withFrames _
  | breakPointer => exact .pure rfl
  | continuePointer => exact .pure rfl

/-- What came of an item and of its shadow. -/
structure Step.Shows (s shadow : Step) : Prop where
  outcome : Matched Eq s.outcome shadow.outcome
  machine : s.machine.Shows shadow.machine
  context : shadow.context = s.context

theorem Shows.step {m shadow : Machine} (shows : m.Shows shadow) (context : Context) :
    (m.step context).Shows (shadow.step context) := by
  have same := shows.work
  have rest : Machine.Shows { m with work := m.work.tail }
      { shadow with work := shadow.work.tail } :=
    shows.withWork (by simp [Stack.tail, same, List.map_tail])
  cases items : m.work.items with
  | nil =>
    rw [items, List.map_nil] at same
    simp only [Machine.step, items, same]
    exact ⟨.done rfl, shows, rfl⟩
  | cons item below =>
    rw [items, List.map_cons] at same
    have performed := mirrors_perform item _ _ rest
    cases item with
    | invoke f span arity =>
      have called := mirrors_invoke f span .nowhere arity context _ _ rest
      simp only [Machine.step, items, same, Work.unplaced]
      generalize (invoke f span arity context).run _ = ran at called
      generalize (invoke f.unplaced .nowhere arity context).run _ = ran' at called
      cases called with
      | failed causes left => exact ⟨.failed causes, left, rfl⟩
      | done results left =>
        subst results
        exact ⟨.done rfl, left, rfl⟩
    | _ =>
      simp only [Machine.step, items, same, Work.unplaced] at performed ⊢
      generalize (perform _).run _ = ran at performed
      generalize (perform _).run _ = ran' at performed
      cases performed with
      | failed causes left => exact ⟨.failed causes, left, rfl⟩
      | done results left => exact ⟨.done rfl, left, rfl⟩

structure Trace.Shows (t shadow : Trace) : Prop where
  machine : t.machine.Shows shadow.machine
  context : shadow.context = t.context
  glimpses : shadow.glimpses = t.glimpses
  cause : shadow.error.map Error.cause = t.error.map Error.cause

theorem Trace.Shows.extend {t shadow : Trace} (shows : t.Shows shadow) :
    t.extend.Shows shadow.extend := by
  have stepped := shows.machine.step t.context
  have outcomes := stepped.outcome
  unfold Trace.extend
  rw [shows.context, shows.glimpses]
  dsimp only
  cases result : (t.machine.step t.context).outcome with
  | error e =>
    cases result' : (shadow.machine.step t.context).outcome with
    | error e' =>
      rw [result, result'] at outcomes
      cases outcomes with
      | failed same => exact ⟨stepped.machine, stepped.context, rfl, congrArg some same.symm⟩
    | ok call' =>
      rw [result, result'] at outcomes
      cases outcomes
  | ok call =>
    cases result' : (shadow.machine.step t.context).outcome with
    | error e' =>
      rw [result, result'] at outcomes
      cases outcomes
    | ok call' =>
      rw [result, result'] at outcomes
      cases outcomes with
      | done same =>
        subst same
        refine ⟨stepped.machine, stepped.context, ?_, rfl⟩
        rw [stepped.machine.pending, stepped.machine.depth]

theorem Trace.Shows.extendWithin {t shadow : Trace} (shows : t.Shows shadow) (n : Nat) :
    (t.extendWithin n).Shows (shadow.extendWithin n) := by
  induction n generalizing t shadow with
  | zero => exact shows
  | succ n ih =>
    have failed : shadow.error.isSome = t.error.isSome := by
      rw [← Option.isSome_map (f := Error.cause), shows.cause, Option.isSome_map]
    unfold Trace.extendWithin
    rw [shows.machine.isFinished, failed]
    split
    · exact shows
    · exact ih shows.extend

/-- What can be seen of two runs is the same. -/
structure Trace.Alike (t t' : Trace) : Prop where
  glimpses : t.glimpses = t'.glimpses
  pending : t.machine.pending = t'.machine.pending
  depth : t.machine.depth = t'.machine.depth
  context : t.context = t'.context
  globals : ∀ symbol, t.machine.global? symbol = t'.machine.global? symbol
  cause : t.error.map Error.cause = t'.error.map Error.cause

theorem Trace.Shows.alike {t t' shadow : Trace} (h : t.Shows shadow) (h' : t'.Shows shadow) :
    t.Alike t' where
  glimpses := h.glimpses.symm.trans h'.glimpses
  pending := h.machine.pending.symm.trans h'.machine.pending
  depth := h.machine.depth.symm.trans h'.machine.depth
  context := h.context.symm.trans h'.context
  globals := by
    intro symbol
    unfold global?
    rw [← h.machine.frames, ← h'.machine.frames]
  cause := h.cause.symm.trans h'.cause

theorem shows_trace (p : Program) {tables shadow : Tables} (h : tables.Shows shadow)
    (maxDepth : Nat) (context : Context) (n : Nat) :
    ((initial p tables maxDepth).trace context n).Shows
      ((initial p.unplaced shadow maxDepth).trace context n) := by
  have start : (initial p tables maxDepth).Shows (initial p.unplaced shadow maxDepth) :=
    ⟨h, rfl, rfl, itemsOf_unplaced p, rfl⟩
  have begun : (Trace.initial (initial p tables maxDepth) context).Shows
      (Trace.initial (initial p.unplaced shadow maxDepth) context) := ⟨start, rfl, rfl, rfl⟩
  exact begun.extendWithin n

end Machine

/-- The same symbols and operators, and functions that differ in places alone. -/
structure Tables.Alike (tables tables' : Tables) : Prop where
  symbols : ∀ id, tables.symbols.get? id = tables'.symbols.get? id
  operators : ∀ id, tables.operators.get? id = tables'.operators.get? id
  functions : ∀ id, (tables.functions.get? id).map Function.unplaced =
    (tables'.functions.get? id).map Function.unplaced

theorem Tables.Shows.alike {tables tables' shadow : Tables} (h : tables.Shows shadow)
    (h' : tables'.Shows shadow) : tables.Alike tables' where
  symbols id := by simpa using (h.symbols id).symm.trans (h'.symbols id)
  operators id := by simpa using (h.operators id).symm.trans (h'.operators id)
  functions id := (h.functions id).symm.trans (h'.functions id)

/-- A script on one line, which divides by zero inside a text. -/
def tightSource : String := "var n:number=7;print `=\x7bn/0\x7d`;"

/-- The same words on several lines, with a comment between them. -/
def looseSource : String :=
  "var n : number = 7; // seven

  print
    `=\x7bn/0\x7d` ;"

end CursorScript
