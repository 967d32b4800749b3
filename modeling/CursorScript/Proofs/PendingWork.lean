import CursorScript.Proofs.Balance

/-!
How much work can be pending. Within a call, the work above an item's place stays within the nodes
that the item stands for, and a loop that goes on puts its items where its last round stood. So the
work of each active call is bounded by the number of nodes of the script, whatever its values are
and however often its loops go round; and below the items of a loop there is always the work that
was there when it was begun.
-/
namespace CursorScript

namespace Node

def size (n : Node) : Nat := n.postorder.length

def sizes (ns : List Node) : Nat := (ns.flatMap postorder).length

theorem sizes_nil : sizes [] = 0 := rfl

theorem sizes_cons (n : Node) (ns : List Node) : sizes (n :: ns) = n.size + sizes ns := by
  rw [sizes, List.flatMap_cons, List.length_append]
  rfl

theorem size_eq (n : Node) : n.size = sizes n.children + 1 := by
  rw [size, postorder_eq, List.length_append]
  rfl

theorem size_pos (n : Node) : 1 ≤ n.size := by
  rw [size_eq]
  exact Nat.le_add_left ..

theorem length_le_sizes (ns : List Node) : ns.length ≤ sizes ns := by
  induction ns with
  | nil => exact Nat.zero_le _
  | cons n ns ih =>
    have one := n.size_pos
    rw [List.length_cons, sizes_cons]
    omega

theorem size_le_of_mem {root n : Node} (h : n ∈ root.postorder) : n.size ≤ root.size := by
  rcases mem_postorder.1 h with inside | rfl
  · exact (postorder_sublist inside).length_le
  · exact Nat.le_refl _

theorem children_expr (e : Expr) : (expr e).children = e.operands.map expr := by
  cases e with
  | map mark entries => simp [children, Expr.operands, Machine.entryOperands, List.map_flatMap]
  | _ => rfl

theorem size_body_lt (decl : FunctionDecl Stmt) :
    (block decl.body).size + 1 ≤ (stmt (.function decl)).size := by
  have child : block decl.body ∈ (stmt (.function decl)).children := by simp [children]
  have part := (flatMap_sublist child).length_le
  rw [size_eq (stmt _)]
  exact Nat.succ_le_succ part

end Node

def Loop.room : Loop → Nat
  | .whileTrue _ e b => (Node.expr e).size + (Node.block b).size + 1
  | .times _ b => (Node.block b).size + 2

namespace Work

/-- The most work that there may be at once in place of an item, calls of functions apart. -/
def room : Work → Nat
  | stmt s => (Node.stmt s).size
  | expr e => (Node.expr e).size
  | branch _ b other => (Node.block b).size + Node.sizes (other.toList.map .stmt)
  | whileTest mark e b => (Loop.whileTrue mark e b).room
  | repeatCount _ b => (Loop.times 0 b).room
  -- The bottom of the round, right below, makes up for the one that is missing.
  | again next => next.room - 1
  | _ => 1

/-- The number of items down to the bottom of the innermost call. -/
def height : List Work → Nat
  | [] => 0
  | item :: T => if item.isReturnPointer then 1 else height T + 1

/-- Each item has its room on top of what is below it in its call. -/
def Roomy (limit : Nat) : List Work → Prop
  | [] => True
  | item :: T => item.room + height T ≤ limit ∧ Roomy limit T

theorem room_pos (item : Work) : 1 ≤ item.room := by
  cases item with
  | stmt s => exact Node.size_pos _
  | expr e => exact Node.size_pos _
  | branch p b other => exact Nat.le_add_right_of_le (Node.size_pos _)
  | whileTest => exact Nat.le_add_left ..
  | repeatCount => exact Nat.le_add_left_of_le (by decide)
  | again next =>
    cases next with
    | whileTrue mark e b => exact Nat.le_add_right_of_le (Node.size_pos _)
    | times n b => exact Nat.le_add_left ..
  | _ => exact Nat.le_refl _

section roomy
variable {limit k : Nat} {item : Work} {T W : List Work}

theorem height_cons (quiet : item.isReturnPointer = false) (T : List Work) :
    height (item :: T) = height T + 1 := by
  rw [height, quiet]
  rfl

theorem height_append {items : List Work} (quiet : ∀ x ∈ items, x.isReturnPointer = false)
    (T : List Work) : height (items ++ T) = items.length + height T := by
  induction items with
  | nil => rw [List.nil_append, List.length_nil, Nat.zero_add]
  | cons x items ih =>
    rw [List.cons_append, height_cons (quiet x (by simp)), ih fun y mem => quiet y (by simp [mem]),
      List.length_cons]
    omega

theorem Roomy.below {X : List Work} (h : Roomy limit (X ++ T)) : Roomy limit T := by
  induction X with
  | nil => exact h
  | cons x X ih => exact ih h.2

theorem Roomy.height_le (h : Roomy limit W) : height W ≤ limit := by
  cases W with
  | nil => exact Nat.zero_le _
  | cons item T =>
    have fits := h.1
    have one := item.room_pos
    rw [height]
    split <;> omega

/-- In all there is no more than the limit for each call and for the script itself. -/
theorem Roomy.length_le (h : Roomy limit W) :
    W.length ≤ (W.countP isReturnPointer + 1) * limit := by
  -- The innermost call counts with what it has; every bottom that is passed stands for a limit.
  have counted : W.length ≤ height W + W.countP isReturnPointer * limit := by
    induction W with
    | nil => exact Nat.zero_le _
    | cons item T ih =>
      have below := ih h.2
      have fits := h.2.height_le
      cases bottom : item.isReturnPointer with
      | false =>
        rw [List.length_cons, height_cons bottom, List.countP_cons_of_neg (by simp [bottom])]
        omega
      | true =>
        rw [List.length_cons, height, if_pos bottom, List.countP_cons_of_pos bottom, Nat.succ_mul]
        omega
  have fits := h.height_le
  rw [Nat.succ_mul]
  omega

/-- Items that stand for nodes have each its room where all of the nodes have. -/
theorem Roomy.put {α : Type} {item : α → Work} {node : α → Node}
    (quiet : ∀ a, (item a).isReturnPointer = false) (stands : ∀ a, (item a).room = (node a).size)
    {parts : List α} (fits : Node.sizes (parts.map node) + height T ≤ limit)
    (rest : Roomy limit T) : Roomy limit (parts.map item ++ T) := by
  induction parts with
  | nil => exact rest
  | cons a parts ih =>
    rw [List.map_cons, Node.sizes_cons] at fits
    have others := ih (by omega)
    have few : parts.length ≤ Node.sizes (parts.map node) := by
      simpa using Node.length_le_sizes (parts.map node)
    have quiet_all : ∀ x ∈ parts.map item, x.isReturnPointer = false := by
      intro x mem
      obtain ⟨b, _, rfl⟩ := List.mem_map.1 mem
      exact quiet b
    refine ⟨?_, others⟩
    change (item a).room + height (parts.map item ++ T) ≤ limit
    rw [height_append quiet_all, stands, List.length_map]
    omega

theorem Roomy.operands {es : List Expr} (fits : Node.sizes (es.map .expr) + height T ≤ limit)
    (rest : Roomy limit T) : Roomy limit (Machine.operands es ++ T) :=
  .put (fun _ => rfl) (fun _ => rfl) fits rest

theorem Roomy.stmts {body : List Stmt} (fits : Node.sizes (body.map .stmt) + height T ≤ limit)
    (rest : Roomy limit T) : Roomy limit (body.map .stmt ++ T) :=
  .put (fun _ => rfl) (fun _ => rfl) fits rest

/-- The body of a block has its room where the block has. -/
theorem Roomy.itemsOf {b : Block Stmt} {n : Nat} (room : n + height T ≤ limit)
    (fits : (Node.block b).size ≤ n + 1) (rest : Roomy limit T) :
    Roomy limit (Machine.itemsOf b ++ T) := by
  rw [Node.size_eq] at fits
  refine .stmts ?_ rest
  change Node.sizes (Node.block b).children + height T ≤ limit
  omega

/-- An expression and the item that takes its value. -/
theorem Roomy.expr {e : Expr} {last : Work} (quiet : last.isReturnPointer = false)
    (value : (Node.expr e).size + 1 + height T ≤ limit) (room : last.room + height T ≤ limit)
    (rest : Roomy limit T) : Roomy limit ([.expr e, last] ++ T) := by
  refine ⟨?_, room, rest⟩
  change (Node.expr e).size + height (last :: T) ≤ limit
  rw [height_cons quiet]
  omega

/-- A round of a loop, with the items that come behind its body. -/
theorem Roomy.round {b : Block Stmt} {next : Loop} (room : next.room + height T ≤ limit)
    (body : (Node.block b).size + 2 ≤ next.room) (rest : Roomy limit T) :
    Roomy limit (Machine.roundWork b next ++ T) := by
  have one := Node.size_pos (.block b)
  rw [Machine.roundWork, List.append_assoc]
  have behind : Roomy limit ([.continuePointer, .again next, .breakPointer] ++ T) := by
    refine ⟨?_, ?_, ?_, rest⟩
    · change 1 + (height T + 1 + 1) ≤ limit
      omega
    · change next.room - 1 + (height T + 1) ≤ limit
      omega
    · change 1 + height T ≤ limit
      omega
  have above : next.room - 3 + height ([.continuePointer, .again next, .breakPointer] ++ T) ≤
      limit := by
    change next.room - 3 + (height T + 1 + 1 + 1) ≤ limit
    omega
  exact .itemsOf above (by omega) behind

theorem Roomy.rounds {b : Block Stmt} (room : (Loop.times 0 b).room + height T ≤ limit)
    (rest : Roomy limit T) (n : Nat) : Roomy limit (Machine.timesWork b [] n ++ T) := by
  cases n with
  | zero => exact rest
  | succ n => exact @Roomy.round _ _ b (.times n b) room (Nat.le_refl _) rest

theorem room_of_takes? (h : item.takes? = some k) : item.room = 1 := by
  cases item <;> first | rfl | cases h

/-- What an item makes room for has its own room in place of it. -/
theorem Roomy.unfolds {items : List Work} (h : Roomy limit (item :: W))
    (into : item.Into k items) : Roomy limit (items ++ W) := by
  obtain ⟨fits, rest⟩ := h
  cases into with
  | @expr e last takes =>
    rw [room, Node.size_eq, Node.children_expr] at fits
    rw [List.append_assoc]
    have one : last.room + height W ≤ limit := by
      rw [room_of_takes? takes]
      omega
    refine @Roomy.operands _ (last :: W) _ ?_ ⟨one, rest⟩
    rw [height_cons (isReturnPointer_of_takes? takes)]
    omega
  | block b =>
    rw [room, Node.size_eq, Node.children] at fits
    exact .stmts (by omega) rest
  | expression | declaration | assignment | «return» =>
    rw [room, Node.size_eq] at fits
    simp only [Node.children, Option.toList_some, List.map_cons, List.map_nil, Node.sizes_cons,
      Node.sizes_nil] at fits
    refine .expr rfl ?_ ?_ rest
    · omega
    · simp only [room]
      omega
  | conditional | whileLoop | repeatLoop =>
    rw [room, Node.size_eq] at fits
    simp only [Node.children, Node.sizes_cons, Node.sizes_nil] at fits
    have one := Node.size_pos (.expr ‹Expr›)
    have another := Node.size_pos (.block ‹Block Stmt›)
    refine .expr rfl ?_ ?_ rest
    · omega
    · simp only [room, Loop.room]
      omega
  | function | discard | declare | store | noRound => exact rest
  | branch p b other => exact .itemsOf fits (by rw [room]; omega) rest
  | otherBranch p b other =>
    rw [room] at fits
    exact .stmts (by omega) rest
  | round mark e b =>
    have one := Node.size_pos (.expr e)
    exact .round fits (by rw [Loop.room]; omega) rest
  | rounds p b n => exact rest.rounds fits n

/-- A loop that goes on has its room in place of its last round. -/
theorem Roomy.goesOn {next : Loop} (h : Roomy limit (.again next :: .breakPointer :: T)) :
    Roomy limit (next.items ++ T) := by
  obtain ⟨fits, _, rest⟩ := h
  rw [room, height_cons rfl] at fits
  cases next with
  | whileTrue mark e b =>
    have one := Node.size_pos (.block b)
    rw [Loop.room] at fits
    refine .expr rfl ?_ ?_ rest
    · omega
    · rw [room, Loop.room]
      omega
  | times n b =>
    rw [Loop.room] at fits
    refine rest.rounds ?_ n
    rw [Loop.room]
    omega

/-- The body of a function has its room on top of a call. -/
theorem Roomy.enters {decl : FunctionDecl Stmt} (known : (Node.stmt (.function decl)).size ≤ limit)
    (h : Roomy limit (item :: W)) :
    Roomy limit (Machine.itemsOf decl.body ++ .pushUnit :: .returnPointer :: W) := by
  obtain ⟨fits, rest⟩ := h
  have one := item.room_pos
  have another := Node.size_pos (.block decl.body)
  have whole := Node.size_body_lt decl
  have bottom : Roomy limit (.pushUnit :: .returnPointer :: W) := by
    refine ⟨?_, ?_, rest⟩
    · change 1 + 1 ≤ limit
      omega
    · change 1 + height W ≤ limit
      omega
  have above : (Node.block decl.body).size - 1 + height (.pushUnit :: .returnPointer :: W) ≤
      limit := by
    change (Node.block decl.body).size - 1 + 2 ≤ limit
    omega
  exact .itemsOf above (by omega) bottom

theorem listBelow_suffix {isTarget : Work → Bool} {K : List Work}
    (h : Stack.listBelow isTarget W = some K) : ∃ X, W = X ++ K := by
  obtain ⟨dropped, target, rfl, _⟩ := Stack.listBelow_eq_some h
  exact ⟨dropped ++ [target], by simp⟩

open Machine in
/-- Whatever an item comes to, each item has its room, as long as the bottom of a round is below
where its loop goes on and the functions that are called fit. -/
theorem Roomy.effect {σ : Setting} {fs fs' : List Frame} {V V' : List Value} {W' : List Work}
    (h : Roomy limit (item :: W)) (effect : Effect σ fs W V item fs' W' V')
    (bottom : ∀ next, item = .again next → ∃ K, W = .breakPointer :: K)
    (known : ∀ f decl span n, item = .invoke f span n → f.body = .script decl →
      (Node.stmt (.function decl)).size ≤ limit) : Roomy limit W' := by
  cases effect with
  | answers | evaluates | pushesUnit | ends | endsRound | endsBody => exact h.2
  | unfolds into => exact h.unfolds into
  | bareReturn mark p =>
    have fits := h.1
    have one := (Work.stmt (.ret mark none)).room_pos
    refine ⟨?_, h.2⟩
    change 1 + height W ≤ limit
    omega
  | breaks mark below =>
    obtain ⟨X, rfl⟩ := listBelow_suffix below
    exact h.2.below
  | continues mark below =>
    obtain ⟨X, rfl⟩ := listBelow_suffix below
    exact h.2.below
  | leaves p below =>
    obtain ⟨X, rfl⟩ := listBelow_suffix below
    exact h.2.below
  | goesOn next =>
    obtain ⟨K, rfl⟩ := bottom next rfl
    exact h.goesOn
  | @enters f decl span n frame script => exact h.enters (known f decl span n rfl script)

end roomy

def isLooping : Work → Bool
  | whileTest .. => true
  | repeatCount .. => true
  | again _ => true
  | _ => false

/-- The statement that an item goes on with, which is a loop. -/
inductive Loops : Work → Stmt → Prop
  | test (mark : Mark) (e : Expr) (b : Block Stmt) :
      Loops (.whileTest mark e b) (.whileLoop mark e b)
  | count (mark : Mark) (e : Expr) (b : Block Stmt) (p : Position) :
      Loops (.repeatCount p b) (.repeatLoop mark e b)
  | testAgain (mark : Mark) (e : Expr) (b : Block Stmt) :
      Loops (.again (.whileTrue mark e b)) (.whileLoop mark e b)
  | roundAgain (n : Nat) (mark : Mark) (e : Expr) (b : Block Stmt) :
      Loops (.again (.times n b)) (.repeatLoop mark e b)

/-- What else a loop has in the work, right below an item with which it goes on. -/
def own : Work → List Work
  | again _ => [breakPointer]
  | _ => []

end Work

namespace Machine
open Work

/-- One machine and context follow another, and all on the way have work on top of that given. -/
def ReachesAbove (K : List Work) : Machine × Context → Machine × Context → Prop :=
  Relation.ReflTransGen fun a b => Next a b ∧ ∃ own, own ≠ [] ∧ b.1.work.items = own ++ K

/-- A loop was begun on top of the given work and was not left since. -/
def InLoop (start now : Machine × Context) (s : Stmt) (K : List Work) : Prop :=
  ∃ entry, Reaches start entry ∧ entry.1.work.items = .stmt s :: K ∧ ReachesAbove K entry now

/-- Each item with which a loop goes on has, below all that is the loop's own, the work that was
there when the loop was begun. -/
def LoopsBegun (start now : Machine × Context) (W : List Work) : Prop :=
  ∀ item T, item :: T <:+ W → item.isLooping = true →
    ∃ s K, item.Loops s ∧ T = item.own ++ K ∧ InLoop start now s K

section loops
variable {start a b : Machine × Context} {s : Stmt} {item : Work} {K T W : List Work}

theorem InLoop.next (h : InLoop start a s K) (next : Next a b) {X : List Work} (more : X ≠ [])
    (work : b.1.work.items = X ++ K) : InLoop start b s K := by
  obtain ⟨entry, reached, begun, above⟩ := h
  exact ⟨entry, reached, begun, above.tail ⟨next, X, more, work⟩⟩

theorem loopsBegun_nil : LoopsBegun start a [] := by
  intro item T suffix
  simp at suffix

theorem LoopsBegun.below (h : LoopsBegun start a W) (suffix : T <:+ W) : LoopsBegun start a T :=
  fun item T' inner looping => h item T' (inner.trans suffix) looping

theorem LoopsBegun.cons (h : LoopsBegun start a T)
    (new : item.isLooping = true → ∃ s K, item.Loops s ∧ T = item.own ++ K ∧ InLoop start a s K) :
    LoopsBegun start a (item :: T) := by
  intro item' T' suffix looping
  rcases List.suffix_cons_iff.1 suffix with same | inner
  · cases same
    exact new looping
  · exact h item' T' inner looping

theorem LoopsBegun.append {items : List Work} (h : LoopsBegun start a T)
    (quiet : ∀ x ∈ items, x.isLooping = false) : LoopsBegun start a (items ++ T) := by
  induction items with
  | nil => exact h
  | cons x items ih =>
    refine (ih fun y mem => quiet y (by simp [mem])).cons fun looping => ?_
    rw [quiet x (by simp)] at looping
    cases looping

theorem LoopsBegun.stmts (h : LoopsBegun start a T) (body : List Stmt) :
    LoopsBegun start a (body.map .stmt ++ T) := by
  refine h.append fun x mem => ?_
  obtain ⟨s, _, rfl⟩ := List.mem_map.1 mem
  rfl

/-- Loops below what a step puts on the work were begun before it. -/
theorem LoopsBegun.next (h : LoopsBegun start a T) (next : Next a b) {X : List Work}
    (work : b.1.work.items = X ++ T) : LoopsBegun start b T := by
  intro item T' suffix looping
  obtain ⟨s, K, loops, rfl, inside⟩ := h item T' suffix looping
  obtain ⟨Y, rfl⟩ := suffix
  have above : b.1.work.items = (X ++ Y ++ item :: item.own) ++ K := by simp [work]
  exact ⟨s, K, loops, rfl, inside.next next (by simp) above⟩

theorem LoopsBegun.round {body : Block Stmt} {next : Loop} (h : LoopsBegun start b T)
    (loops : (Work.again next).Loops s) (inside : InLoop start b s T) :
    LoopsBegun start b (roundWork body next ++ T) := by
  rw [roundWork, List.append_assoc]
  refine LoopsBegun.stmts ?_ body.body
  have bottom : LoopsBegun start b (.breakPointer :: T) := h.cons fun looping => by cases looping
  have goes : LoopsBegun start b (.again next :: .breakPointer :: T) :=
    bottom.cons fun _ => ⟨s, T, loops, rfl, inside⟩
  exact goes.cons fun looping => by cases looping

theorem roundWork_ne_nil (body : Block Stmt) (next : Loop) : roundWork body next ≠ [] := by
  simp [roundWork]

theorem LoopsBegun.rounds {body : Block Stmt} (h : LoopsBegun start b T)
    (loops : ∀ n, (Work.again (.times n body)).Loops s) (inside : InLoop start a s T)
    (next : Next a b) {n : Nat} (work : b.1.work.items = timesWork body [] n ++ T) :
    LoopsBegun start b (timesWork body [] n ++ T) := by
  cases n with
  | zero => exact h
  | succ n => exact h.round (loops n) (inside.next next (roundWork_ne_nil body (.times n body)) work)

theorem isLooping_of_takes? {k : Nat} (h : item.takes? = some k) : item.isLooping = false := by
  cases item <;> first | rfl | cases h

/-- A loop that is begun, goes on or is left keeps the work below it. -/
theorem LoopsBegun.unfolds {k : Nat} {items : List Work} (reached : Reaches start a)
    (begun : a.1.work.items = item :: W) (h : LoopsBegun start a (item :: W)) (next : Next a b)
    (into : item.Into k items) (work : b.1.work.items = items ++ W) :
    LoopsBegun start b (items ++ W) := by
  have rest : LoopsBegun start b W := (h.below (List.suffix_cons ..)).next next work
  cases into with
  | @expr e last takes =>
    refine rest.append fun x mem => ?_
    rcases List.mem_append.1 mem with operand | final
    · obtain ⟨e, _, rfl⟩ := List.mem_map.1 operand
      rfl
    · cases List.mem_singleton.1 final
      exact isLooping_of_takes? takes
  | block b => exact rest.stmts b.body
  | expression | declaration | assignment | conditional | «return» =>
    exact rest.append (by simp [isLooping])
  | whileLoop mark e b =>
    have inside : InLoop start _ _ W :=
      InLoop.next ⟨a, reached, begun, .refl⟩ next (by simp) work
    have test := rest.cons fun _ => ⟨_, W, .test mark e b, rfl, inside⟩
    exact test.cons fun looping => by cases looping
  | repeatLoop mark e b p =>
    have inside : InLoop start _ _ W :=
      InLoop.next ⟨a, reached, begun, .refl⟩ next (by simp) work
    have count := rest.cons fun _ => ⟨_, W, .count mark e b p, rfl, inside⟩
    exact count.cons fun looping => by cases looping
  | function | discard | declare | store | noRound => exact rest
  | branch p b other => exact rest.stmts b.body
  | otherBranch p b other => exact rest.stmts other.toList
  | round mark e b =>
    obtain ⟨s, K, loops, rfl, inside⟩ := h _ _ (List.suffix_refl _) rfl
    cases loops
    exact rest.round (.testAgain mark e b) (inside.next next (roundWork_ne_nil _ _) work)
  | rounds p b n =>
    obtain ⟨s, K, loops, rfl, inside⟩ := h _ _ (List.suffix_refl _) rfl
    cases loops with
    | count mark e => exact rest.rounds (fun n => .roundAgain n mark e b) inside next work

theorem LoopsBegun.goesOn {loop : Loop} (h : LoopsBegun start a (.again loop :: W))
    (next : Next a b) (work : b.1.work.items = loop.items ++ Work.retired W) :
    LoopsBegun start b (loop.items ++ Work.retired W) := by
  obtain ⟨s, K, loops, rfl, inside⟩ := h _ _ (List.suffix_refl _) rfl
  change b.1.work.items = loop.items ++ K at work
  change LoopsBegun start b (loop.items ++ K)
  have suffix : K <:+ .again loop :: .breakPointer :: K := ⟨[.again loop, .breakPointer], rfl⟩
  have rest : LoopsBegun start b K := (h.below suffix).next next work
  cases loops with
  | testAgain mark e body =>
    have still := inside.next next (by simp [Loop.items]) work
    have test := rest.cons fun _ => ⟨_, K, .test mark e body, rfl, still⟩
    exact test.cons fun looping => by cases looping
  | roundAgain n mark e body =>
    exact rest.rounds (fun n => .roundAgain n mark e body) inside next work

/-- A step keeps what is known of the loops. -/
theorem LoopsBegun.step (reached : Reaches start a) (h : LoopsBegun start a a.1.work.items)
    (next : Next a b) : LoopsBegun start b b.1.work.items := by
  rcases effect_of_next next with ⟨done, same⟩ | ⟨item, W, work, fs', W', V', same, effect⟩
  · rw [same, done]
    exact loopsBegun_nil
  have now : b.1.work.items = W' := by rw [same, work_machine, Stack.items_ofList]
  rw [work] at h
  -- Whatever the item puts on top, the loops in what is left of the work were begun before.
  have rest : ∀ {X T : List Work}, T <:+ W → W' = X ++ T → LoopsBegun start b T :=
    fun suffix split_eq =>
      (h.below (suffix.trans (List.suffix_cons ..))).next next (now.trans split_eq)
  rw [now]
  cases effect with
  | answers | evaluates | pushesUnit | ends | endsRound | endsBody =>
    exact @rest [] _ (List.suffix_refl _) rfl
  | unfolds into => exact h.unfolds reached work next into now
  | bareReturn mark p =>
    have below := @rest [.leaveCall p] _ (List.suffix_refl _) rfl
    exact below.cons fun looping => by cases looping
  | breaks mark below =>
    obtain ⟨X, rfl⟩ := listBelow_suffix below
    exact @rest [] _ (List.suffix_append ..) rfl
  | continues mark below =>
    obtain ⟨X, rfl⟩ := listBelow_suffix below
    exact @rest [] _ (List.suffix_append ..) rfl
  | leaves p below =>
    obtain ⟨X, rfl⟩ := listBelow_suffix below
    exact @rest [] _ (List.suffix_append ..) rfl
  | goesOn loop => exact h.goesOn next now
  | @enters f decl span n frame script =>
    have below := @rest (itemsOf decl.body ++ [.pushUnit, .returnPointer]) W (List.suffix_refl _)
      (by simp)
    refine LoopsBegun.stmts ?_ decl.body.body
    exact @LoopsBegun.append _ _ _ [.pushUnit, .returnPointer] below (by simp [isLooping])

theorem loopsBegun_of_reaches (h : LoopsBegun start start start.1.work.items)
    (reached : Reaches start a) : LoopsBegun start a a.1.work.items := by
  induction reached with
  | refl => exact h
  | tail run next ih => exact ih.step run next

end loops

section steps
variable {limit : Nat} {m : Machine} {c : Context} {W : List Work}

/-- The end of a body and `continue` both lead to where the loop goes on. -/
theorem InBalance.resumes {mark : Mark} (h : m.InBalance limit)
    (work : m.work.items = .stmt (.cont mark) :: W ∨ m.work.items = .continuePointer :: W) :
    ∃ loop K m', m.step c = ⟨.ok none, m', c⟩ ∧
      m'.work.items = .again loop :: .breakPointer :: K := by
  rcases work with work | work
  · obtain ⟨call, T, below, t, k, rfl, takes, _⟩ := h.cons work
    obtain ⟨_, loop, inside, rest⟩ := takes.of_stmt
    obtain ⟨outer, next, K, found, _, _⟩ := rest.below_continue inside
    have performed := @perform_continue m.setting m.frames.items _ m.values _
      (listBelow_append_of_some found below) mark
    refine ⟨next, K ++ below, m.setting.machine m.frames.items _ m.values, ?_, rfl⟩
    rw [m.eq_machine, work, step_item rfl, performed]
    rfl
  · obtain ⟨call, T, below, t, k, rfl, takes, _⟩ := h.cons work
    cases takes with
    | behind rest =>
      cases rest with
      | @round _ next T goes rest =>
        refine ⟨next, T ++ below, m.setting.machine m.frames.items _ m.values, ?_, rfl⟩
        rw [m.eq_machine, work, step_item rfl]
        rfl
    | settle settles => cases settles
    | join takes => cases takes

theorem step_again {loop : Loop} {K : List Work}
    (work : m.work.items = .again loop :: .breakPointer :: K) :
    ∃ m', m.step c = ⟨.ok none, m', c⟩ ∧ m'.work.items = loop.items ++ K := by
  refine ⟨m.setting.machine m.frames.items (loop.items ++ K) m.values, ?_, rfl⟩
  have performed : (perform (.again loop)).run
      (m.setting.machine m.frames.items (.breakPointer :: K) m.values) =
      .ok () (m.setting.machine m.frames.items (loop.items ++ K) m.values) := by
    rw [perform, EStateM.run_bind, run_retire]
    exact run_continueLoop loop
  rw [m.eq_machine, work, step_item rfl, performed]
  rfl

end steps

section runs
variable {tokens : List Token} {file : String} {p : Program} {library : Library} {tables : Tables}
  {maxDepth : Nat} {context : Context} {a : Machine × Context}

theorem loopsBegun_of_initial (reached : Reaches (initial p tables maxDepth, context) a) :
    LoopsBegun (initial p tables maxDepth, context) a a.1.work.items := by
  refine loopsBegun_of_reaches ?_ reached
  let start := (initial p tables maxDepth, context)
  have items := (@loopsBegun_nil start start).stmts p.body
  rwa [List.append_nil] at items

theorem roomy_initial : Roomy p.nodes.length (initial p tables maxDepth).work.items := by
  have whole : p.nodes.length + height [] ≤ p.nodes.length := Nat.le_refl _
  have items : Roomy p.nodes.length (itemsOf p ++ []) :=
    .itemsOf whole (Nat.le_succ _) trivial
  rwa [List.append_nil] at items

/-- Each item has its room in all machines that are reached, within the number of nodes. -/
theorem roomy_of_reaches (read : Program.ofTokens tokens file = .ok p) (native : library.Native)
    (accepted : p.analyse library = .ok tables)
    (reached : Reaches (initial p tables maxDepth, context) a) :
    Roomy p.nodes.length a.1.work.items := by
  obtain ⟨_, _, known⟩ := (Program.written_of_analyse read library).2 tables accepted
  induction reached with
  | refl => exact roomy_initial
  | @tail a b run next ih =>
    rcases effect_of_next next with ⟨_, same⟩ | ⟨item, W, work, fs', W', V', same, effect⟩
    · rwa [same]
    have rooted := rooted_of_reaches (rooted_initial known native maxDepth) run
    have begun := loopsBegun_of_initial run
    rw [work] at ih begun
    rw [same]
    refine ih.effect effect (fun loop goes => ?_) fun f decl span n calls script => ?_
    · subst goes
      obtain ⟨s, K, _, below, _⟩ := begun _ _ (List.suffix_refl _) rfl
      exact ⟨K, below⟩
    · have mem : Work.invoke f span n ∈ a.1.work.items := by simp [work, calls]
      exact Node.size_le_of_mem ((rooted.work _ mem).2 decl script)

end runs

end Machine

/-- Pending work does not grow with the rounds of loops. In every machine that a checked script
reaches, each active call and the script itself have no more work pending than the script has nodes.
Where a loop goes on, the work below its own items is that on top of which it was begun, and it puts
its next items there; and both the end of its body and `continue` lead to where it goes on. -/
theorem pending_bounded {tokens : List Token} {file : String} {p : Program} {library : Library}
    {tables : Tables} (read : Program.ofTokens tokens file = .ok p) (native : library.Native)
    (accepted : p.analyse library = .ok tables) (maxDepth : Nat) (start : Context) {m : Machine}
    {c : Context}
    (reached : Machine.Reaches (Machine.initial p tables maxDepth, start) (m, c)) :
    m.pending ≤ (m.depth + 1) * p.nodes.length ∧
    (∀ loop W, m.work.items = .again loop :: W →
      ∃ s K m', (Work.again loop).Loops s ∧ W = .breakPointer :: K ∧
        Machine.InLoop (Machine.initial p tables maxDepth, start) (m, c) s K ∧
        m.step c = ⟨.ok none, m', c⟩ ∧ m'.work.items = loop.items ++ K) ∧
    (∀ mark W, m.work.items = .stmt (.cont mark) :: W ∨ m.work.items = .continuePointer :: W →
      ∃ loop s K m', m.step c = ⟨.ok none, m', c⟩ ∧
        m'.work.items = .again loop :: .breakPointer :: K ∧ (Work.again loop).Loops s ∧
        Machine.InLoop (Machine.initial p tables maxDepth, start) (m', c) s K) := by
  have even := Machine.inBalance_of_reaches read native accepted reached
  refine ⟨?_, fun loop W work => ?_, fun mark W work => ?_⟩
  · have roomy := Machine.roomy_of_reaches read native accepted reached
    have frames := even.balanced.frames_eq
    rw [Machine.pending, m.work.size_eq, Machine.depth, m.frames.size_eq, frames]
    exact roomy.length_le
  · have begun := Machine.loopsBegun_of_initial reached
    obtain ⟨s, K, loops, rfl, inside⟩ := begun (.again loop) W (by simp [work]) rfl
    obtain ⟨m', stepped, next⟩ := Machine.step_again work
    exact ⟨s, K, m', loops, rfl, inside, stepped, next⟩
  · obtain ⟨loop, K, m', stepped, next⟩ := even.resumes work
    have after : Machine.Next (m, c) (m', c) := ⟨none, stepped⟩
    have begun := Machine.loopsBegun_of_initial (reached.tail after)
    obtain ⟨s, K', loops, below, inside⟩ :=
      begun (.again loop) (.breakPointer :: K) (by simp [next]) rfl
    cases below
    exact ⟨loop, s, K', m', stepped, next, loops, inside⟩

namespace Work

def isContinue : Work → Bool
  | stmt (.cont _) => true
  | _ => false

theorem eq_cont_of_isContinue {item : Work} (h : item.isContinue = true) :
    ∃ mark, item = stmt (.cont mark) := by
  unfold isContinue at h
  split at h
  · exact ⟨_, rfl⟩
  · cases h

end Work

/-- A script with a function in which a loop skips the rest of a round, inside another loop. -/
def skippingSource : String :=
  "function f(n:number):number\x7brepeat 2\x7bwhile n<3\x7bn+=1;if n>1\x7bcontinue;\x7d\x7d\x7dreturn n;\x7d
print f(1);"

/-- Inside a call the inner loop skips the rest of its second round, and goes on where it was. -/
theorem pending_bounded_skipping :
    ∃ tokens p tables, Token.tokenize skippingSource "" = .ok tokens ∧
      Program.ofTokens tokens "" = .ok p ∧ p.analyse (.standard .builtIn) = .ok tables ∧
      ∃ m c mark W,
        Machine.Reaches (Machine.initial p tables 8, Context.initial "" 0) (m, c) ∧
        m.work.items = .stmt (.cont mark) :: W ∧ m.depth = 1 ∧ m.pending ≤ 2 * p.nodes.length ∧
        ∃ loop s K m' m'', m.step c = ⟨.ok none, m', c⟩ ∧
          m'.work.items = .again loop :: .breakPointer :: K ∧ (Work.again loop).Loops s ∧
          Machine.InLoop (Machine.initial p tables 8, Context.initial "" 0) (m', c) s K ∧
          m'.step c = ⟨.ok none, m'', c⟩ ∧ m''.work.items = loop.items ++ K := by
  have runs : ((Program.runTo? (.standard .builtIn) skippingSource 8 (.initial "" 0) 40).any fun a =>
      a.1.depth = 1 && a.1.work.items.head?.any Work.isContinue) = true := by
    decide +kernel
  obtain ⟨⟨m, c⟩, there, holds⟩ := (Option.any_eq_true _ _).1 runs
  simp only [Bool.and_eq_true, decide_eq_true_eq] at holds
  obtain ⟨deep, skips⟩ := holds
  obtain ⟨item, first, skips⟩ := (Option.any_eq_true _ _).1 skips
  obtain ⟨mark, rfl⟩ := Work.eq_cont_of_isContinue skips
  obtain ⟨W, work⟩ := List.head?_eq_some_iff.1 first
  obtain ⟨p, tables, read, accepted, reached⟩ := Program.reaches_of_runTo? there
  obtain ⟨tokens, cut, parsed⟩ := Program.exists_tokens read
  obtain ⟨bounded, _, resumes⟩ :=
    pending_bounded parsed (Library.native_standard .builtIn) accepted 8 _ reached
  obtain ⟨loop, s, K, m', stepped, work', loops, inside⟩ := resumes mark W (.inl work)
  have after : Machine.Next (m, c) (m', c) := ⟨none, stepped⟩
  obtain ⟨_, goesOn, _⟩ :=
    pending_bounded parsed (Library.native_standard .builtIn) accepted 8 _ (reached.tail after)
  obtain ⟨_, _, m'', _, below, _, stepped', work''⟩ := goesOn loop _ work'
  cases below
  rw [deep] at bounded
  exact ⟨tokens, p, tables, cut, parsed, accepted, m, c, mark, W, reached, work, deep, bounded, loop,
    s, _, m', m'', stepped, work', loops, inside, stepped', work''⟩

end CursorScript
