import CursorScript.Machine.Trace
import CursorScript.Proofs.GrammarPlaces
import CursorScript.Proofs.Recording
import CursorScript.Proofs.TypeSoundness

/-!
Faults at true places. All that a machine has to do was put there by a node of the script, and says
where that node starts; so an item of work that fails does so at a place that the tree shows. With
what is known of tokens, trees and analysis, every place that is ever reported is one of the script.
-/
namespace CursorScript
open Position (Within)

def Function.Rooted (root : Node) (f : Function) : Prop :=
  ∀ decl, f.body = .script decl → .stmt (.function decl) ∈ root.postorder

/-- Everything in an item of work is a part of a tree. -/
def Work.Rooted (root : Node) : Work → Prop
  | .stmt s => .stmt s ∈ root.postorder
  | .expr e => .expr e ∈ root.postorder
  | .branch p body other => root.Shows p ∧ .block body ∈ root.postorder ∧
    ∀ s ∈ other, .stmt s ∈ root.postorder
  | .whileTest mark condition body => root.Shows mark.start ∧ .expr condition ∈ root.postorder ∧
    .block body ∈ root.postorder
  | .repeatCount p body => root.Shows p ∧ .block body ∈ root.postorder
  | .again (.whileTrue mark condition body) => root.Shows mark.start ∧
    .expr condition ∈ root.postorder ∧ .block body ∈ root.postorder
  | .again (.times _ body) => .block body ∈ root.postorder
  | .invoke f span _ => root.Shows span.start ∧ f.Rooted root
  | .discard p => root.Shows p
  | .declare _ p => root.Shows p
  | .store _ _ p => root.Shows p
  | .applyBinary _ p => root.Shows p
  | .applyUnary _ p => root.Shows p
  | .joinText _ p => root.Shows p
  | .makeList _ p => root.Shows p
  | .makeMap _ p => root.Shows p
  | .leaveCall p => root.Shows p
  | .pushUnit => True
  | .returnPointer => True
  | .breakPointer => True
  | .continuePointer => True

namespace Machine
open Act

structure Rooted (root : Node) (m : Machine) : Prop where
  work : ∀ item ∈ m.work.items, item.Rooted root
  functions : ∀ id f, m.tables.functions.get? id = some f → f.Rooted root

/-- An action failed at a place that the tree shows, or left a machine that comes from it. -/
def Lands {α : Type} (root : Node) (post : α → Prop) : EStateM.Result Error Machine α → Prop
  | .ok a m => post a ∧ m.Rooted root
  | .error e _ => root.Shows e.position

def Acts {α : Type} (root : Node) (act : Act α) (post : α → Prop) : Prop :=
  ∀ m : Machine, m.Rooted root → Lands root post (act.run m)

variable {root : Node}

section rules
variable {α β : Type} {act : Act α} {next : α → Act β} {mid : α → Prop} {post : β → Prop}

theorem Acts.bind (h : Acts root act mid) (rest : ∀ a, mid a → Acts root (next a) post) :
    Acts root (act >>= next) post := by
  intro m rooted
  have ran := h m rooted
  rw [EStateM.run_bind]
  cases done : act.run m with
  | error e m' =>
    rw [done] at ran
    exact ran
  | ok a m' =>
    rw [done] at ran
    exact rest a ran.1 m' ran.2

theorem Acts.then (h : Acts root act mid) (rest : ∀ a, Acts root (next a) post) :
    Acts root (act >>= next) post := h.bind fun a _ => rest a

theorem Acts.pure {b : β} (h : post b) : Acts root (pure b : Act β) post := fun _ kept => ⟨h, kept⟩

theorem Acts.throw {e : Error} (h : root.Shows e.position) : Acts root (throw e : Act β) post :=
  fun _ _ => h

theorem Acts.throw_bind {e : Error} (h : root.Shows e.position) :
    Acts root (MonadExcept.throw e >>= next) post := fun _ _ => h

theorem Acts.broken {p : Position} (h : root.Shows p) (message : String) :
    Acts root (Act.broken message p : Act β) post := fun _ _ => h

theorem Acts.broken_bind {p : Position} (h : root.Shows p) (message : String) :
    Acts root (Act.broken message p >>= next) post := fun _ _ => h

end rules

theorem acts_get : Acts root get fun m : Machine => m.Rooted root := fun _ kept => ⟨kept, kept⟩

/-- A change to values and frames alone. -/
theorem acts_modify {change : Machine → Machine} (work : ∀ m, (change m).work = m.work)
    (tables : ∀ m, (change m).tables = m.tables) : Acts root (modify change) fun _ => True := by
  intro m kept
  refine ⟨trivial, ?_, ?_⟩
  · rw [work]
    exact kept.work
  · rw [tables]
    exact kept.functions

theorem acts_schedule {items : List Work} (h : ∀ item ∈ items, item.Rooted root) :
    Acts root (schedule items) fun _ => True :=
  fun _ kept => ⟨trivial, List.forall_mem_append.2 ⟨h, kept.work⟩, kept.functions⟩

theorem acts_push (value : Value) : Acts root (push value) fun _ => True :=
  acts_modify (fun _ => rfl) fun _ => rfl

theorem acts_set {m : Machine} (h : m.Rooted root) : Acts root (set m) fun _ => True :=
  fun _ _ => ⟨trivial, h⟩

theorem acts_pop {p : Position} (h : root.Shows p) : Acts root (pop p) fun _ => True := by
  refine acts_get.bind fun m kept => ?_
  split
  · exact .broken h _
  · refine .then (acts_set ?_) fun _ => .pure trivial
    exact ⟨kept.work, kept.functions⟩

theorem acts_popMany {p : Position} (h : root.Shows p) (count : Nat) :
    Acts root (popMany count p) fun _ => True := by
  refine acts_get.bind fun m kept => ?_
  dsimp only
  split
  · exact .broken_bind h _
  · refine .then (acts_set ?_) fun _ => .pure trivial
    exact ⟨kept.work, kept.functions⟩

theorem acts_popLogic {p : Position} (h : root.Shows p) : Acts root (popLogic p) fun _ => True := by
  refine (acts_pop h).then fun value => ?_
  split
  · exact .pure trivial
  · exact .broken h _

theorem acts_popCount {p : Position} (h : root.Shows p) : Acts root (popCount p) fun _ => True := by
  refine (acts_pop h).then fun value => ?_
  split
  · exact .pure trivial
  · exact .broken h _

theorem acts_recorded {α : Type} {table : Tables → Table α} {id : Nat} {p : Position}
    {post : α → Prop} (h : root.Shows p) (what : String)
    (known : ∀ m : Machine, m.Rooted root → ∀ entry, (table m.tables).get? id = some entry →
      post entry) : Acts root (recorded what table id p) post := by
  refine acts_get.bind fun m kept => ?_
  split
  · next entry found => exact .pure (known m kept entry found)
  · exact .broken h _

theorem acts_symbol {p : Position} (h : root.Shows p) (id : Nat) :
    Acts root (symbol id p) fun _ => True := acts_recorded h _ fun _ _ _ _ => trivial

theorem acts_operator {p : Position} (h : root.Shows p) (id : Nat) :
    Acts root (operator id p) fun _ => True := acts_recorded h _ fun _ _ _ _ => trivial

theorem acts_function {p : Position} (h : root.Shows p) (id : Nat) :
    Acts root (function id p) fun f => f.Rooted root :=
  acts_recorded h _ fun _ kept f found => kept.functions id f found

theorem acts_declare (x : Nat) (value : Value) : Acts root (Act.declare x value) fun _ => True := by
  refine acts_modify (fun m => ?_) fun m => ?_
  · split <;> rfl
  · split <;> rfl

theorem acts_read {p : Position} (h : root.Shows p) (x : Nat) :
    Acts root (Act.read x p) fun _ => True := by
  refine acts_get.then fun m => ?_
  split
  · exact .pure trivial
  · exact .broken h _

theorem acts_assign {p : Position} (h : root.Shows p) (x : Nat) (value : Value) :
    Acts root (assign x value p) fun _ => True := by
  refine acts_get.bind fun m kept => ?_
  split
  · exact acts_set ⟨kept.work, kept.functions⟩
  · exact .broken h _

/-- What is left when work is dropped was there before. -/
theorem acts_unwindTo {p : Position} (h : root.Shows p) (isTarget : Work → Bool)
    (statement : String) : Acts root (unwindTo isTarget statement p) fun _ => True := by
  refine acts_get.bind fun m kept => ?_
  split
  · next rest found =>
    have below := Stack.items_below? isTarget m.work
    rw [found, Option.map_some] at below
    obtain ⟨dropped, target, items, _⟩ := Stack.listBelow_eq_some below.symm
    refine acts_set ⟨fun item mem => kept.work item ?_, kept.functions⟩
    simp [items, mem]
  · refine .then (acts_set ?_) fun _ => .broken h _
    exact ⟨by simp, kept.functions⟩

theorem acts_located {α : Type} {p : Position} (h : root.Shows p) (result : Except Cause α) :
    Acts root (located p result) fun _ => True := by
  cases result with
  | ok a => exact .pure trivial
  | error cause => exact .throw h

theorem rooted_itemsOf {b : Block Stmt} (h : .block b ∈ root.postorder) :
    ∀ item ∈ itemsOf b, item.Rooted root := by
  intro item mem
  obtain ⟨s, held, rfl⟩ := List.mem_map.1 mem
  exact Node.mem_of_body h s held

theorem rooted_operands {es : List Expr} (h : ∀ e ∈ es, .expr e ∈ root.postorder) :
    ∀ item ∈ operands es, item.Rooted root := by
  intro item mem
  obtain ⟨e, held, rfl⟩ := List.mem_map.1 mem
  exact h e held

/-- Operands and what is done with them. -/
theorem acts_operands {es : List Expr} {last : Work} (h : ∀ e ∈ es, .expr e ∈ root.postorder)
    (rooted : last.Rooted root) : Acts root (schedule (operands es ++ [last])) fun _ => True :=
  acts_schedule (List.forall_mem_append.2 ⟨rooted_operands h, by simpa using rooted⟩)

theorem acts_visitExpr {e : Expr} (here : .expr e ∈ root.postorder) :
    Acts root (visitExpr e) fun _ => True := by
  have start := Node.shows_start here
  cases e with
  | number | real | logic | string | material | member => exact acts_push _
  | symbol s =>
    exact (acts_symbol start _).then fun x => (acts_read start x).then fun v => acts_push v
  | interpolation mark parts => exact acts_operands (Node.mem_of_exprs here rfl) start
  | binary mark left token right =>
    obtain ⟨one, two⟩ := Node.mem_of_two here rfl
    refine (acts_operator start _).then fun op => acts_schedule ?_
    simpa using ⟨one, two, Node.shows_operator here rfl⟩
  | unary mark token operand =>
    have inner := Node.mem_of_one here rfl
    refine (acts_operator start _).then fun op => acts_schedule ?_
    simpa using ⟨inner, start⟩
  | index mark collection place =>
    obtain ⟨one, two⟩ := Node.mem_of_two here rfl
    refine (acts_operator start _).then fun op => acts_schedule ?_
    simpa using ⟨one, two, Node.shows_start two⟩
  | call mark callee arguments =>
    exact (acts_function start _).bind fun f rooted =>
      acts_operands (Node.mem_of_exprs here rfl) ⟨start, rooted⟩
  | list mark elements => exact acts_operands (Node.mem_of_exprs here rfl) start
  | map mark entries =>
    exact acts_operands (Node.mem_of_exprs here (Typing.entryOperands_children mark entries)) start

theorem acts_visitStmt {s : Stmt} (here : .stmt s ∈ root.postorder) :
    Acts root (visitStmt s) fun _ => True := by
  have start := Node.shows_start here
  have child : ∀ inner, inner ∈ (Node.stmt s).children → inner ∈ root.postorder := fun _ held =>
    Node.mem_of_child here held
  cases s with
  | block b =>
    refine acts_schedule fun item mem => ?_
    obtain ⟨s, held, rfl⟩ := List.mem_map.1 mem
    exact child _ (List.mem_map_of_mem held)
  | expression mark e =>
    have inner := child (.expr e) (by simp [Node.children])
    exact acts_schedule (by simpa using ⟨inner, start⟩)
  | declare mark name type value =>
    have inner := child (.expr value) (by simp [Node.children])
    exact (acts_symbol start _).then fun x => acts_schedule (by simpa using ⟨inner, start⟩)
  | assign mark target token value =>
    have inner := child (.expr value) (by simp [Node.children])
    refine (acts_symbol start _).then fun x => ?_
    have finish : ∀ chosen, Acts root (schedule [.expr value, .store x chosen mark.start])
        fun _ => True := fun chosen => acts_schedule (by simpa using ⟨inner, start⟩)
    dsimp only
    split
    · exact finish none
    · exact (acts_operator start _).then fun op => finish (some op)
  | branch mark condition body other =>
    have test := child (.expr condition) (by simp [Node.children])
    have block := child (.block body) (by simp [Node.children])
    have more : ∀ s ∈ other, .stmt s ∈ root.postorder := fun s mem =>
      child (.stmt s) (by simp [Node.children, Option.mem_def.1 mem])
    exact acts_schedule (by simpa using ⟨test, start, block, more⟩)
  | whileLoop mark condition body =>
    have test := child (.expr condition) (by simp [Node.children])
    have block := child (.block body) (by simp [Node.children])
    exact acts_schedule (by simpa using ⟨test, start, test, block⟩)
  | repeatLoop mark count body =>
    have test := child (.expr count) (by simp [Node.children])
    have block := child (.block body) (by simp [Node.children])
    exact acts_schedule (by simpa using ⟨test, start, block⟩)
  | function decl => exact .pure trivial
  | ret mark value =>
    cases value with
    | none =>
      have leave : (Work.leaveCall mark.start).Rooted root := start
      exact .then (acts_schedule (by simpa using leave)) fun _ => acts_push _
    | some e =>
      have inner := child (.expr e) (by simp [Node.children])
      exact acts_schedule (by simpa using ⟨inner, start⟩)
  | brk mark => exact acts_unwindTo start _ _
  | cont mark => exact acts_unwindTo start _ _

theorem acts_enterRound {body : Block Stmt} {next : Loop} (here : .block body ∈ root.postorder)
    (rooted : (Work.again next).Rooted root) : Acts root (enterRound body next) fun _ => True :=
  acts_schedule (List.forall_mem_append.2 ⟨rooted_itemsOf here, by
    simpa [Work.Rooted] using rooted⟩)

theorem acts_enterTimes {body : Block Stmt} (here : .block body ∈ root.postorder) (n : Nat) :
    Acts root (enterTimes body n) fun _ => True := by
  cases n with
  | zero => exact .pure trivial
  | succ n => exact acts_enterRound here here

theorem acts_continueLoop {loop : Loop} (rooted : (Work.again loop).Rooted root) :
    Acts root (continueLoop loop) fun _ => True := by
  cases loop with
  | whileTrue mark condition body =>
    exact acts_schedule (by simpa using ⟨rooted.2.1, rooted⟩)
  | times remaining body => exact acts_enterTimes rooted remaining

theorem acts_retireBreakPointer : Acts root retireBreakPointer fun _ => True := by
  intro m kept
  unfold retireBreakPointer
  rw [EStateM.run_modify]
  refine ⟨trivial, ?_⟩
  split
  · exact ⟨fun item mem => kept.work item (List.mem_of_mem_tail mem), kept.functions⟩
  · exact kept

theorem acts_store {p : Position} (h : root.Shows p) (x : Nat) (chosen : Option Operator) :
    Acts root (store x chosen p) fun _ => True := by
  refine (acts_pop h).then fun value => ?_
  split
  · exact acts_assign h x value
  · exact (acts_read h x).then fun current => (acts_located h _).then fun result =>
      acts_assign h x result

theorem acts_bindParameters : ∀ (ps : List Parameter) (values : List Value) (frame : Frame),
    (∀ p ∈ ps, .parameter p ∈ root.postorder) →
    Acts root (bindParameters ps values frame) fun _ => True
  | [], _, _, _ => .pure trivial
  | _ :: _, [], _, _ => .pure trivial
  | p :: ps, value :: values, frame, here => by
    obtain ⟨first, others⟩ := List.forall_mem_cons.1 here
    exact (acts_symbol (Node.shows_start first) _).then fun x =>
      acts_bindParameters ps values _ others

theorem acts_enterFunction {decl : FunctionDecl Stmt} {span : Span}
    (here : .stmt (.function decl) ∈ root.postorder) (h : root.Shows span.start)
    (arguments : List Value) : Acts root (enterFunction decl span arguments) fun _ => True := by
  have block : .block decl.body ∈ root.postorder := Node.mem_of_child here (by simp [Node.children])
  refine acts_get.then fun m => ?_
  dsimp only
  split
  · exact .throw_bind h
  · refine (acts_bindParameters decl.parameters arguments [] fun p mem => ?_).then fun frame => ?_
    · exact Node.mem_of_child here (by simp [Node.children, mem])
    · refine .then (acts_modify (fun _ => rfl) fun _ => rfl) fun _ => acts_schedule ?_
      exact List.forall_mem_append.2 ⟨rooted_itemsOf block, by simp [Work.Rooted]⟩

theorem acts_invoke {f : Function} {span : Span} (h : root.Shows span.start)
    (rooted : f.Rooted root) (arity : Nat) (c : Context) :
    Acts root (invoke f span arity c) fun _ => True := by
  refine (acts_popMany h arity).then fun arguments => ?_
  dsimp only
  split
  · split
    · exact (acts_push _).then fun _ => .pure trivial
    · exact .throw h
  · next decl body =>
    exact (acts_enterFunction (rooted decl body) h arguments).then fun _ => .pure trivial

/-- What is done for an item of work that comes from a tree comes from it as well. -/
theorem acts_perform {item : Work} (h : item.Rooted root) :
    Acts root (perform item) fun _ => True := by
  cases item with
  | stmt s => exact acts_visitStmt h
  | expr e => exact acts_visitExpr h
  | discard p => exact (acts_pop h).then fun _ => .pure trivial
  | declare x p => exact (acts_pop h).then fun value => acts_declare x value
  | store x chosen p => exact acts_store h x chosen
  | branch p body other =>
    refine (acts_popLogic h.1).then fun b => ?_
    split
    · exact acts_schedule (rooted_itemsOf h.2.1)
    · exact acts_schedule (by simpa [Work.Rooted] using h.2.2)
  | whileTest mark condition body =>
    refine (acts_popLogic h.1).then fun b => ?_
    split
    · exact acts_enterRound h.2.2 h
    · exact .pure trivial
  | repeatCount p body => exact (acts_popCount h.1).then fun n => acts_enterTimes h.2 n
  | again loop => exact acts_retireBreakPointer.then fun _ => acts_continueLoop h
  | applyBinary op p =>
    exact (acts_pop h).then fun right => (acts_pop h).then fun left =>
      (acts_located h _).then fun result => acts_push result
  | applyUnary op p =>
    exact (acts_pop h).then fun operand => (acts_located h _).then fun result => acts_push result
  | joinText parts p => exact (acts_popMany h _).then fun values => acts_push _
  | makeList count p => exact (acts_popMany h _).then fun values => acts_push _
  | makeMap count p => exact (acts_popMany h _).then fun values => acts_push _
  | leaveCall p =>
    exact (acts_unwindTo h _ _).then fun _ => acts_modify (fun _ => rfl) fun _ => rfl
  | pushUnit => exact acts_push _
  | returnPointer => exact acts_modify (fun _ => rfl) fun _ => rfl
  | invoke | breakPointer | continuePointer => exact .pure trivial

/-- A step failed at a place that the tree shows, or left a machine that comes from it. -/
def Step.Rooted (root : Node) : Step → Prop
  | ⟨.error e, _, _⟩ => root.Shows e.position
  | ⟨.ok _, m, _⟩ => m.Rooted root

theorem rooted_step {m : Machine} (h : m.Rooted root) (c : Context) : (m.step c).Rooted root := by
  have below : Rooted root { m with work := m.work.tail } :=
    ⟨fun item mem => h.work item (List.mem_of_mem_tail mem), h.functions⟩
  unfold step
  split
  · exact h
  · next f span arity rest items =>
    obtain ⟨shown, rooted⟩ := h.work (.invoke f span arity) (by simp [items])
    have ran := acts_invoke shown rooted arity c _ below
    cases done : (invoke f span arity c).run { m with work := m.work.tail } with
    | ok result m' =>
      rw [done] at ran
      exact ran.2
    | error e m' =>
      rw [done] at ran
      exact ran
  · next item rest _ items =>
    have ran := acts_perform (h.work item (by simp [items])) _ below
    cases done : (perform item).run { m with work := m.work.tail } with
    | ok result m' =>
      rw [done] at ran
      exact ran.2
    | error e m' =>
      rw [done] at ran
      exact ran

theorem rooted_of_reaches {a b : Machine × Context} (h : a.1.Rooted root) (reached : Reaches a b) :
    b.1.Rooted root := by
  induction reached with
  | refl => exact h
  | @tail m _ _ next ih =>
    obtain ⟨call, stepped⟩ := next
    have kept := rooted_step ih m.2
    rwa [stepped] at kept

end Machine

theorem Function.rooted_of_known {root : Node} {library : Library} {f : Function}
    (known : f.Known root library) (native : library.Native) : f.Rooted root := by
  intro decl script
  rcases known with provided | ⟨declared, rfl, here⟩
  · have host := native f provided
    simp [isNative, script] at host
  · cases script
    exact here

theorem Machine.rooted_initial {p : Program} {tables : Tables} {library : Library}
    (known : ∀ id f, tables.functions.get? id = some f → f.Known (.block p) library)
    (native : library.Native) (maxDepth : Nat) : (initial p tables maxDepth).Rooted (.block p) :=
  ⟨rooted_itemsOf (Node.mem_postorder_self _), fun id f found =>
    Function.rooted_of_known (known id f found) native⟩

/-- Every place that is reported is a place of the script: the ends of tokens, of nodes and of their
operators, also of those read from inside a text, and the places of errors, whether the script is
cut into tokens, read, analysed or run. A place of the script is the one behind some of its first
characters, given by their bytes, their newlines and the characters of the last line. -/
theorem reported_places_true (source file : String) :
    (∀ e, Token.tokenize source file = .error e → Within source.toList file e.position) ∧
    ∀ tokens, Token.tokenize source file = .ok tokens →
      (∀ token ∈ tokens, Within source.toList file token.span.start ∧
        Within source.toList file token.span.stop) ∧
      (∀ e, Program.ofTokens tokens file = .error e → Within source.toList file e.position) ∧
      ∀ p, Program.ofTokens tokens file = .ok p →
        (∀ n ∈ p.nodes, ∀ q ∈ n.positions, Within source.toList file q) ∧
        ∀ library : Library,
          (∀ e, p.analyse library = .error e → Within source.toList file e.position) ∧
          ∀ tables, p.analyse library = .ok tables → library.Native →
            ∀ (maxDepth : Nat) (start : Context) (m : Machine) (c : Context),
              Machine.Reaches (Machine.initial p tables maxDepth, start) (m, c) →
              ∀ e, (m.step c).outcome = .error e → Within source.toList file e.position := by
  have scanned := Token.placed_scan (Position.start file) source.toList (Position.sits_start _ file)
  refine ⟨scanned.1, fun tokens cut => ?_⟩
  have placed := scanned.2 tokens cut
  obtain ⟨faults, trees⟩ := Program.placed_of_ofTokens placed
  refine ⟨fun token mem => ⟨(placed token mem).start, (placed token mem).stop⟩, faults,
    fun p read => ?_⟩
  have tree := trees p read
  refine ⟨fun n mem q own => tree q ⟨n, mem, own⟩, fun library => ?_⟩
  obtain ⟨fault, written⟩ := Program.written_of_analyse read library
  refine ⟨fun e failed => tree _ (fault e failed).2, ?_⟩
  intro tables accepted native maxDepth start m c reached e failed
  obtain ⟨_, _, known⟩ := written tables accepted
  have rooted := Machine.rooted_of_reaches (Machine.rooted_initial known native maxDepth) reached
  have kept := Machine.rooted_step rooted c
  cases stepped : m.step c with
  | mk outcome m' c' =>
    rw [stepped] at kept failed
    cases failed
    exact tree _ kept

/-- A script with letters of two bytes that divides by zero inside a text, on its third line. -/
def dividingSource : String :=
  "print \"é\";
print `è
 \x7b1/
0\x7d`;"

theorem reported_places_true_dividing :
    ∃ tokens p tables m c e, Token.tokenize dividingSource "" = .ok tokens ∧
      Program.ofTokens tokens "" = .ok p ∧ p.analyse (.standard .builtIn) = .ok tables ∧
      Machine.Reaches (Machine.initial p tables 8, Context.initial "" 0) (m, c) ∧
      (m.step c).outcome = .error e ∧ e = ⟨.divisionByZero, ⟨25, 3, 4, ""⟩⟩ ∧
      Within dividingSource.toList "" e.position := by
  have fails : ((Program.runTo? (.standard .builtIn) dividingSource 8 (.initial "" 0) 11).bind fun a =>
      (Machine.Trace.initial a.1 a.2).extend.error) =
      some ⟨.divisionByZero, ⟨25, 3, 4, ""⟩⟩ := by decide +kernel
  obtain ⟨⟨m, c⟩, there, fails⟩ := Option.bind_eq_some_iff.1 fails
  obtain ⟨p, tables, read, accepted, reached⟩ := Program.reaches_of_runTo? there
  obtain ⟨tokens, cut, parsed⟩ := Program.exists_tokens read
  simp only [Machine.Trace.extend, Machine.Trace.initial] at fails
  cases failed : (m.step c).outcome with
  | ok call => simp [failed] at fails
  | error e =>
    simp only [failed, Option.some.injEq] at fails
    obtain ⟨_, trees⟩ := (reported_places_true dividingSource "").2 tokens cut
    obtain ⟨_, analysed⟩ := trees.2 p parsed
    have native := Library.native_standard .builtIn
    have place := (analysed (.standard .builtIn)).2 tables accepted native 8 _ m c
      reached e failed
    exact ⟨tokens, p, tables, m, c, e, cut, parsed, accepted, reached, failed, fails, place⟩

end CursorScript
