import CursorScript.Proofs.PendingWork
import CursorScript.Proofs.Sequences

/-!
Statements that end early never run to their end. Below a statement in the work of a machine there
are only statements of the same body, down to the bottom of the call or of the round that runs the
body. While a statement that ends early is at work, the last item on top of what is left of its body
ends early too, so that is never come to; it can only be dropped, by a `return` or by a `break` or
`continue` of the loop whose body it is.
-/
namespace CursorScript

namespace Work

/-- What is left of a body behind one of its statements: more statements, then the bottom of the
call or of the round that runs the body. -/
inductive Remains (p : Program) : Option Stmt → List Work → Prop
  | script : Remains p none []
  | call {decl : FunctionDecl Stmt} (mem : .stmt (.function decl) ∈ p.nodes) (K : List Work) :
      Remains p (some (.function decl)) (.pushUnit :: .returnPointer :: K)
  | round {s : Stmt} {next : Loop} (loops : (Work.again next).Loops s) (mem : .stmt s ∈ p.nodes)
      (K : List Work) :
      Remains p (some s) (.continuePointer :: .again next :: .breakPointer :: K)
  | stmt {home : Option Stmt} {K : List Work} (s : Stmt) (rest : Remains p home K) :
      Remains p home (.stmt s :: K)

def isStmt : Work → Bool
  | stmt _ => true
  | branch .. => true
  | _ => false

inductive Begins : Work → Stmt → Prop
  | stmt (s : Stmt) : Begins (.stmt s) s
  | branch (pos : Position) (mark : Mark) (e : Expr) (b : Block Stmt) (other : Option Stmt) :
      Begins (.branch pos b other) (.branch mark e b other)

/-- Each statement in the work stands in the body of which the rest is below it. -/
def Housed (p : Program) (W : List Work) : Prop :=
  ∀ item K, item :: K <:+ W → item.isStmt = true →
    ∃ home s, item.Begins s ∧ p.Stands home s ∧ Remains p home K

section housed
variable {p : Program} {home : Option Stmt} {item : Work} {K T W : List Work} {seq : List Stmt}

theorem Remains.stmts (h : Remains p home K) (body : List Stmt) :
    Remains p home (body.map .stmt ++ K) := by
  induction body with
  | nil => exact h
  | cons s rest ih => exact .stmt s ih

theorem housed_nil : Housed p [] := by
  intro item K suffix
  simp at suffix

theorem Housed.below (h : Housed p W) (suffix : T <:+ W) : Housed p T :=
  fun item K inner => h item K (inner.trans suffix)

theorem Housed.cons (h : Housed p K)
    (new : item.isStmt = true → ∃ home s, item.Begins s ∧ p.Stands home s ∧ Remains p home K) :
    Housed p (item :: K) := by
  intro item' K' suffix
  rcases List.suffix_cons_iff.1 suffix with same | inner
  · cases same
    exact new
  · exact h item' K' inner

theorem Housed.append {items : List Work} (h : Housed p K)
    (quiet : ∀ x ∈ items, x.isStmt = false) : Housed p (items ++ K) := by
  induction items with
  | nil => exact h
  | cons x items ih =>
    refine (ih fun y mem => quiet y (by simp [mem])).cons fun begins => ?_
    rw [quiet x (by simp)] at begins
    cases begins

/-- A sequence of a body on top of the rest of the body. -/
theorem Housed.stmts (h : Housed p K) (rest : Remains p home K) (sequence : p.Sequence home seq) :
    Housed p (seq.map .stmt ++ K) := by
  have part : ∀ body : List Stmt, (∀ s ∈ body, s ∈ seq) → Housed p (body.map .stmt ++ K) := by
    intro body inside
    induction body with
    | nil => exact h
    | cons s body ih =>
      obtain ⟨first, others⟩ := List.forall_mem_cons.1 inside
      exact (ih others).cons fun _ => ⟨home, s, .stmt s, ⟨seq, sequence, first⟩, rest.stmts body⟩
  exact part seq fun _ mem => mem

/-- What is in a statement that stands in a body stands in the body. -/
theorem Housed.inner (h : Housed p K) {s : Stmt} (stands : p.Stands home s)
    (rest : Remains p home K) (plain : s.opens = none) : Housed p (s.sequence.map .stmt ++ K) := by
  obtain ⟨seq, sequence, mem⟩ := stands
  exact h.stmts rest (.inner sequence mem plain)

theorem Housed.stmt {s : Stmt} (h : Housed p (.stmt s :: K)) :
    ∃ home, p.Stands home s ∧ Remains p home K := by
  obtain ⟨home, _, begins, stands, rest⟩ := h _ _ (List.suffix_refl _) rfl
  cases begins
  exact ⟨home, stands, rest⟩

theorem isStmt_of_takes? {k : Nat} (h : item.takes? = some k) : item.isStmt = false := by
  cases item <;> first | rfl | cases h

theorem Housed.round {s : Stmt} {next : Loop} {body : Block Stmt} (h : Housed p K)
    (loops : (Work.again next).Loops s) (mem : .stmt s ∈ p.nodes) (opens : s.opens.isSome = true)
    (same : s.sequence = body.body) : Housed p (Machine.roundWork body next ++ K) := by
  have bottom : Housed p (.continuePointer :: .again next :: .breakPointer :: K) :=
    @Housed.append p K [.continuePointer, .again next, .breakPointer] h (by simp [isStmt])
  have whole := bottom.stmts (.round loops mem K) (.body mem opens)
  rw [same] at whole
  simpa [Machine.roundWork, Machine.itemsOf] using whole

theorem Housed.rounds {mark : Mark} {e : Expr} {body : Block Stmt} (h : Housed p K)
    (mem : .stmt (.repeatLoop mark e body) ∈ p.nodes) (n : Nat) :
    Housed p (Machine.timesWork body [] n ++ K) := by
  cases n with
  | zero => exact h
  | succ n => exact h.round (.roundAgain n mark e body) mem rfl rfl

/-- Whatever an item makes room for, each statement in it stands in the body of which the rest is
below it. -/
theorem Housed.unfolds {k : Nat} {items : List Work} (h : Housed p (item :: K))
    (into : item.Into k items)
    (loop : item.isLooping = true → ∃ s, item.Loops s ∧ .stmt s ∈ p.nodes) :
    Housed p (items ++ K) := by
  have rest : Housed p K := h.below (List.suffix_cons ..)
  cases into with
  | @expr e last takes =>
    refine rest.append fun x mem => ?_
    rcases List.mem_append.1 mem with operand | final
    · obtain ⟨e, _, rfl⟩ := List.mem_map.1 operand
      rfl
    · cases List.mem_singleton.1 final
      exact isStmt_of_takes? takes
  | block b =>
    obtain ⟨home, stands, left⟩ := h.stmt
    exact rest.inner stands left rfl
  | expression | declaration | assignment | whileLoop | repeatLoop | «return» =>
    exact rest.append (by simp [isStmt])
  | conditional mark e b other pos =>
    obtain ⟨home, stands, left⟩ := h.stmt
    have branch := rest.cons fun _ => ⟨home, _, .branch pos mark e b other, stands, left⟩
    exact branch.cons nofun
  | function | discard | declare | store | noRound => exact rest
  | branch pos b other =>
    obtain ⟨home, _, begins, stands, left⟩ := h _ _ (List.suffix_refl _) rfl
    cases begins
    exact rest.inner stands left rfl
  | otherBranch pos b other =>
    obtain ⟨home, _, begins, ⟨seq, sequence, mem⟩, left⟩ := h _ _ (List.suffix_refl _) rfl
    cases begins
    cases other with
    | none => exact rest
    | some s => exact rest.stmts left (.other sequence mem rfl)
  | round mark e b =>
    obtain ⟨s, loops, mem⟩ := loop rfl
    cases loops
    exact rest.round (.testAgain mark e b) mem rfl rfl
  | rounds pos b n =>
    obtain ⟨s, loops, mem⟩ := loop rfl
    cases loops
    exact rest.rounds mem n

open Machine in
theorem Housed.effect {σ : Setting} {fs fs' : List Frame} {V V' : List Value} {W' : List Work}
    (h : Housed p (item :: W)) (effect : Effect σ fs W V item fs' W' V')
    (loop : item.isLooping = true → ∃ s, item.Loops s ∧ .stmt s ∈ p.nodes)
    (known : ∀ f decl span n, item = .invoke f span n → f.body = .script decl →
      .stmt (.function decl) ∈ p.nodes) : Housed p W' := by
  have rest : Housed p W := h.below (List.suffix_cons ..)
  cases effect with
  | answers | evaluates | pushesUnit | ends | endsRound | endsBody => exact rest
  | unfolds into => exact h.unfolds into loop
  | bareReturn mark pos => exact rest.cons nofun
  | breaks mark below =>
    obtain ⟨X, rfl⟩ := listBelow_suffix below
    exact rest.below (List.suffix_append ..)
  | continues mark below =>
    obtain ⟨X, rfl⟩ := listBelow_suffix below
    exact rest.below (List.suffix_append ..)
  | leaves pos below =>
    obtain ⟨X, rfl⟩ := listBelow_suffix below
    exact rest.below (List.suffix_append ..)
  | goesOn next =>
    have retired : Housed p (Work.retired W) := by
      unfold Work.retired
      split
      · exact rest.below (List.suffix_cons ..)
      · exact rest
    obtain ⟨s, loops, mem⟩ := loop rfl
    cases loops with
    | testAgain mark e b => exact retired.append (by simp [Loop.items, isStmt])
    | roundAgain n mark e b => exact retired.rounds mem n
  | @enters f decl span n frame script =>
    have mem := known f decl span n rfl script
    have bottom : Housed p (.pushUnit :: .returnPointer :: W) :=
      @Housed.append p W [.pushUnit, .returnPointer] rest (by simp [isStmt])
    exact bottom.stmts (.call mem W) (.body mem rfl)

end housed

end Work

namespace Machine
open Work

section runs
variable {tokens : List Token} {file : String} {p : Program} {library : Library} {tables : Tables}
  {maxDepth : Nat} {start : Context} {a b : Machine × Context}

theorem rooted_of_initial (read : Program.ofTokens tokens file = .ok p) (native : library.Native)
    (accepted : p.analyse library = .ok tables)
    (reached : Reaches (initial p tables maxDepth, start) a) : a.1.Rooted (.block p) := by
  obtain ⟨_, _, known⟩ := (Program.written_of_analyse read library).2 tables accepted
  exact rooted_of_reaches (rooted_initial known native maxDepth) reached

theorem housed_of_reaches (read : Program.ofTokens tokens file = .ok p) (native : library.Native)
    (accepted : p.analyse library = .ok tables)
    (reached : Reaches (initial p tables maxDepth, start) a) : Housed p a.1.work.items := by
  induction reached with
  | refl =>
    have items := Housed.stmts (@housed_nil p) .script .script
    rwa [List.append_nil] at items
  | @tail a b run next ih =>
    rcases effect_of_next next with ⟨_, same⟩ | ⟨item, W, work, fs', W', V', same, effect⟩
    · rwa [same]
    have rooted := rooted_of_initial read native accepted run
    rw [work] at ih
    rw [same]
    refine ih.effect effect (fun looping => ?_) fun f decl span n calls script => ?_
    · obtain ⟨s, K, loops, _, entry, entered, begun, _⟩ :=
        loopsBegun_of_initial run item W (by simp [work]) looping
      have there := rooted_of_initial read native accepted entered
      exact ⟨s, loops, there.work (.stmt s) (by simp [begun])⟩
    · have mem : Work.invoke f span n ∈ a.1.work.items := by simp [work, calls]
      exact (rooted.work _ mem).2 decl script

end runs

end Machine

namespace Work

def Ends (mode : Flow.Body) : Work → Prop
  | stmt s => Flow.endsEarly mode s = .ok true
  | branch _ b other =>
    Flow.sequenceEnds mode b.body = .ok true ∧ Flow.otherEnds mode other = .ok true
  | leaveCall _ => True
  | _ => False

/-- Work on top of other work, the last item of which ends early. -/
def Closing (mode : Flow.Body) (K W : List Work) : Prop :=
  ∃ above last, W = above ++ last :: K ∧ last.Ends mode

/-- How what is left of a body is dropped: down to the bottom of the call, or by `break` or
`continue` down to where the loop that the body belongs to is left or goes on. -/
inductive Leaves (home : Stmt) (K : List Work) : List Work → Prop
  | returns {W : List Work} (below : Stack.listBelow isReturnPointer K = some W) : Leaves home K W
  | breaks {rest : List Stmt} {next : Loop} {W : List Work} (loops : (Work.again next).Loops home)
      (split : K = rest.map .stmt ++ .continuePointer :: .again next :: .breakPointer :: W) :
      Leaves home K W
  | continues {rest : List Stmt} {next : Loop} {W : List Work}
      (loops : (Work.again next).Loops home)
      (split : K = rest.map .stmt ++ .continuePointer :: .again next :: .breakPointer :: W) :
      Leaves home K (.again next :: .breakPointer :: W)

section closing
variable {mode : Flow.Body} {home : Stmt} {item : Work} {K W : List Work}

theorem Leaves.stmt (h : Leaves home K W) (s : Stmt) : Leaves home (.stmt s :: K) W := by
  cases h with
  | returns below => exact .returns below
  | @breaks rest _ _ loops split => exact @breaks home _ (s :: rest) _ _ loops (by simp [split])
  | @continues rest _ _ loops split =>
    exact @continues home _ (s :: rest) _ _ loops (by simp [split])

theorem Leaves.length_lt (h : Leaves home K W) : W.length < K.length := by
  cases h with
  | returns below =>
    obtain ⟨dropped, target, rfl, _⟩ := Stack.listBelow_eq_some below
    simp
    omega
  | breaks _ split =>
    subst split
    simp
    omega
  | continues _ split =>
    subst split
    simp
    omega

/-- A `break` or `continue` that drops no bottom of a call is one of the loop that the body belongs
to. -/
theorem Remains.leaves {p : Program} {isTarget : Work → Bool} (h : Remains p (some home) K)
    (pointer : isTarget = isBreakPointer ∨ isTarget = isContinuePointer)
    (below : Stack.listBelow isTarget K = some W)
    (counts : K.countP isReturnPointer ≤ W.countP isReturnPointer) : Leaves home K W := by
  generalize found : some home = place at h
  induction h with
  | script => cases below
  | call mem K =>
    have under : Stack.listBelow isTarget K = some W := by
      rcases pointer with rfl | rfl <;> exact below
    obtain ⟨X, rfl⟩ := listBelow_suffix under
    simp only [List.countP_cons, List.countP_append, isReturnPointer, if_true] at counts
    omega
  | round loops mem K =>
    cases found
    rcases pointer with rfl | rfl
    · cases below
      exact @Leaves.breaks home _ [] _ _ loops rfl
    · cases below
      exact @Leaves.continues home _ [] _ _ loops rfl
  | stmt s _ ih =>
    refine (ih ?_ (by simpa [isReturnPointer] using counts) found).stmt s
    rcases pointer with rfl | rfl <;> exact below

/-- Where unwinding ends: in the work on top, or below it. -/
theorem listBelow_append_cases {isTarget : Work → Bool} {above rest : List Work}
    (below : Stack.listBelow isTarget (above ++ rest) = some W) :
    (∃ left, W = left ++ rest) ∨ Stack.listBelow isTarget rest = some W := by
  induction above with
  | nil => exact .inr below
  | cons x above ih =>
    rw [List.cons_append, Stack.listBelow] at below
    split at below
    · cases below
      exact .inl ⟨above, rfl⟩
    · exact ih below

/-- An item that ends early is no target of an unwinding. -/
theorem Ends.isTarget_eq {isTarget : Work → Bool} (h : item.Ends mode)
    (pointer : isTarget = isBreakPointer ∨ isTarget = isContinuePointer ∨
      isTarget = isReturnPointer) : isTarget item = false := by
  rcases pointer with rfl | rfl | rfl <;> cases item <;> first | rfl | cases h

theorem Closing.unwinds {isTarget : Work → Bool} {above : List Work} {last : Work}
    (ends : last.Ends mode) (pointer : isTarget = isBreakPointer ∨ isTarget = isContinuePointer ∨
      isTarget = isReturnPointer)
    (below : Stack.listBelow isTarget (above ++ last :: K) = some W) :
    Closing mode K W ∨ Stack.listBelow isTarget K = some W := by
  rcases listBelow_append_cases below with ⟨left, rfl⟩ | found
  · exact .inl ⟨left, last, rfl, ends⟩
  · rw [Stack.listBelow, ends.isTarget_eq pointer] at found
    exact .inr found

/-- A sequence that ends early has a last statement that does. -/
theorem Closing.of_sequence {seq : List Stmt} (h : Flow.sequenceEnds mode seq = .ok true) :
    Closing mode K (seq.map .stmt ++ K) := by
  obtain ⟨before, last, rfl, ends⟩ := Flow.exists_last_of_ends h
  exact ⟨before.map .stmt, .stmt last, by simp, ends⟩

theorem Ends.unfolds {k : Nat} {items : List Work} (h : item.Ends mode) (into : item.Into k items) :
    Closing mode K (items ++ K) := by
  cases into with
  | block b => exact .of_sequence h
  | conditional mark e b other pos =>
    obtain ⟨one, first, h⟩ := exists_of_bind_ok h
    obtain ⟨two, second, h⟩ := exists_of_bind_ok h
    obtain ⟨rfl, rfl⟩ := Bool.and_eq_true_iff.1 (Except.ok.inj h)
    exact ⟨[.expr e], .branch pos b other, rfl, first, second⟩
  | «return» mark e pos => exact ⟨[.expr e], .leaveCall pos, rfl, trivial⟩
  | branch pos b other => exact .of_sequence h.1
  | otherBranch pos b other =>
    cases other with
    | none => cases h.2
    | some s => exact ⟨[], .stmt s, rfl, h.2⟩
  | _ => cases h

/-- What an item that ends early comes to. -/
def Unwound (fs fs' : List Frame) (K W : List Work) : Prop :=
  Stack.listBelow isReturnPointer K = some W ∨ fs' = fs ∧
    ∃ isTarget, (isTarget = isBreakPointer ∨ isTarget = isContinuePointer) ∧
      Stack.listBelow isTarget K = some W

open Machine in
theorem Ends.effect {σ : Setting} {fs fs' : List Frame} {V V' : List Value} {W' : List Work}
    (h : item.Ends mode) (effect : Effect σ fs K V item fs' W' V') :
    Closing mode K W' ∨ Unwound fs fs' K W' := by
  cases effect with
  | unfolds into => exact .inl (h.unfolds into)
  | bareReturn mark pos => exact .inl ⟨[], .leaveCall pos, rfl, trivial⟩
  | breaks mark below => exact .inr (.inr ⟨rfl, _, .inl rfl, below⟩)
  | continues mark below => exact .inr (.inr ⟨rfl, _, .inr rfl, below⟩)
  | leaves pos below => exact .inr (.inl below)
  | answers takes => cases item <;> first | exact h.elim | exact nomatch takes
  | _ => cases h

/-- The bottom of a round that is taken away is above an item that ends early. -/
theorem Ends.retired {last : Work} (h : last.Ends mode) (above : List Work) :
    ∃ left, Work.retired (above ++ last :: K) = left ++ last :: K := by
  cases above with
  | nil =>
    refine ⟨[], ?_⟩
    cases last <;> first | rfl | cases h
  | cons x above =>
    cases x with
    | breakPointer => exact ⟨above, rfl⟩
    | _ => exact ⟨_ :: above, rfl⟩

open Machine in
/-- Items on top of one that ends early leave it there or drop it. -/
theorem Ends.effect_above {σ : Setting} {fs fs' : List Frame} {V V' : List Value}
    {W' above : List Work} {last : Work} (h : last.Ends mode)
    (effect : Effect σ fs (above ++ last :: K) V item fs' W' V') :
    Closing mode K W' ∨ Unwound fs fs' K W' := by
  cases effect with
  | answers | evaluates | pushesUnit | ends | endsRound | endsBody =>
    exact .inl ⟨above, last, rfl, h⟩
  | @unfolds _ _ items _ into => exact .inl ⟨items ++ above, last, by simp, h⟩
  | bareReturn mark pos => exact .inl ⟨.leaveCall pos :: above, last, rfl, h⟩
  | breaks mark below =>
    exact (Closing.unwinds h (.inl rfl) below).imp_right fun found =>
      .inr ⟨rfl, _, .inl rfl, found⟩
  | continues mark below =>
    exact (Closing.unwinds h (.inr (.inl rfl)) below).imp_right fun found =>
      .inr ⟨rfl, _, .inr rfl, found⟩
  | leaves pos below => exact (Closing.unwinds h (.inr (.inr rfl)) below).imp_right .inl
  | goesOn loop =>
    obtain ⟨left, kept⟩ := h.retired above
    exact .inl ⟨loop.items ++ left, last, by rw [kept, List.append_assoc], h⟩
  | @enters f decl span n frame script =>
    exact .inl ⟨itemsOf decl.body ++ .pushUnit :: .returnPointer :: above, last, by simp, h⟩

theorem Closing.cases_cons (h : Closing mode K (item :: W)) :
    item.Ends mode ∧ W = K ∨ ∃ above last, last.Ends mode ∧ W = above ++ last :: K := by
  obtain ⟨above, last, split, ends⟩ := h
  cases above with
  | nil =>
    cases split
    exact .inl ⟨ends, rfl⟩
  | cons x above =>
    cases split
    exact .inr ⟨above, last, ends, rfl⟩

end closing

end Work

namespace Machine
open Work

section runs
variable {tokens : List Token} {file : String} {p : Program} {library : Library} {tables : Tables}
  {maxDepth : Nat} {start : Context} {a b : Machine × Context} {mode : Flow.Body} {home : Stmt}
  {K : List Work}

/-- While an item that ends early is the last on top of the rest of a body, that rest is not come
to, but may be dropped. -/
theorem closing_next (read : Program.ofTokens tokens file = .ok p) (native : library.Native)
    (accepted : p.analyse library = .ok tables)
    (reached : Reaches (initial p tables maxDepth, start) a) (next : Next a b)
    (rest : Remains p (some home) K) (h : Closing mode K a.1.work.items) :
    Closing mode K b.1.work.items ∨ Leaves home K b.1.work.items := by
  -- A `break` keeps the frames, and in balance these count the bottoms of calls.
  have before := (inBalance_of_reaches read native accepted reached).balanced.frames_eq
  have after := (inBalance_of_reaches read native accepted (reached.tail next)).balanced.frames_eq
  rcases effect_of_next next with ⟨_, same⟩ | ⟨item, W, work, fs', W', V', same, effect⟩
  · rw [same]
    exact .inl h
  have now : b.1.work.items = W' := by rw [same, work_machine, Stack.items_ofList]
  have frames : b.1.frames.items = fs' := by rw [same, frames_machine, Stack.items_ofList]
  have ended : Closing mode K W' ∨ Unwound a.1.frames.items fs' K W' := by
    rw [work] at h
    rcases h.cases_cons with ⟨ends, rfl⟩ | ⟨above, last, ends, rfl⟩
    · exact ends.effect effect
    · exact ends.effect_above effect
  rw [now]
  refine ended.imp_right fun unwound => ?_
  rcases unwound with below | ⟨kept, isTarget, pointer, below⟩
  · exact .returns below
  · refine rest.leaves pointer below ?_
    rw [frames, kept, before, now] at after
    obtain ⟨above, last, split, _⟩ := h
    rw [split, List.countP_append, List.countP_cons] at after
    omega

/-- Work on top of the rest of a body ends early as long as it is there, where `L` is at least what
is left once that rest is dropped. -/
theorem closing_of_reachesAbove {L : List Work} (read : Program.ofTokens tokens file = .ok p)
    (native : library.Native) (accepted : p.analyse library = .ok tables)
    (reached : Reaches (initial p tables maxDepth, start) a) (rest : Remains p (some home) K)
    (low : ∀ W, Leaves home K W → W.length ≤ L.length) (h : Closing mode K a.1.work.items)
    (above : ReachesAbove L a b) :
    Reaches (initial p tables maxDepth, start) b ∧ Closing mode K b.1.work.items := by
  induction above with
  | refl => exact ⟨reached, h⟩
  | tail _ step ih =>
    obtain ⟨there, ends⟩ := ih
    obtain ⟨next, own, more, work⟩ := step
    refine ⟨there.tail next, ?_⟩
    refine (closing_next read native accepted there next rest ends).resolve_right fun leaves => ?_
    have shorter := low _ leaves
    have some := List.length_pos_iff.2 more
    rw [work, List.length_append] at shorter
    omega

/-- A call of a function of the script puts its body on the work. -/
theorem work_of_call {f : Function} {decl : FunctionDecl Stmt} {span : Span} {n : Nat}
    (work : a.1.work.items = .invoke f span n :: K) (script : f.body = .script decl)
    (next : Next a b) :
    b.1.work.items = decl.body.body.map .stmt ++ .pushUnit :: .returnPointer :: K := by
  obtain ⟨m', c'⟩ := b
  obtain ⟨call, stepped⟩ := next
  rw [a.1.eq_machine, work, step_invoke] at stepped
  split at stepped
  · next description context m ran =>
    cases stepped
    obtain ⟨arguments, _, popped, ran⟩ := ok_of_bind ran
    obtain ⟨_, rfl⟩ := ok_popMany popped
    simp only [script] at ran
    obtain ⟨_, _, entered, ran⟩ := ok_of_bind ran
    obtain ⟨_, frame, rfl⟩ := ok_enterFunction entered
    cases ran
    rfl
  · cases stepped

/-- In a machine that is reached, what is below a statement is the rest of the body in which the
statement stands. -/
theorem remains_of_reaches (read : Program.ofTokens tokens file = .ok p) (native : library.Native)
    (accepted : p.analyse library = .ok tables)
    (reached : Reaches (initial p tables maxDepth, start) a) {place : Option Stmt} {s : Stmt}
    (work : a.1.work.items = .stmt s :: K) (stands : p.Stands place s) : Remains p place K := by
  have housed := housed_of_reaches read native accepted reached
  rw [work] at housed
  obtain ⟨place', stands', rest⟩ := housed.stmt
  cases stands.unique (Program.nodup_nodes read) stands'
  exact rest

end runs

end Machine

/-- What is left when the rest of a call is dropped is the work below the call. -/
theorem Work.Leaves.eq_of_call {decl : FunctionDecl Stmt} {K W : List Work}
    (h : Leaves (.function decl) (.pushUnit :: .returnPointer :: K) W) : W = K := by
  cases h with
  | returns below => exact (Option.some.inj below).symm
  | breaks loops => cases loops
  | continues loops => cases loops

/-- The check for code that cannot be reached is right. In every sequence of statements of a
function or a loop of an accepted script, nothing follows a statement that ends early. Once a
machine comes to a statement of such a body that ends early, as in a function or as in a loop, it
never comes to what is left of the body: it has work above that until it drops it, by `return`, or
by `break` or `continue` of the loop whose body it is. And in a call of a function with a return
type, the item for a body that ran to its end is never come to. -/
theorem early_ends_never_pass {tokens : List Token} {file : String} {p : Program}
    {library : Library} {tables : Tables} (read : Program.ofTokens tokens file = .ok p)
    (native : library.Native) (accepted : p.analyse library = .ok tables) (maxDepth : Nat)
    (start : Context) :
    (∀ home mode seq, p.Sequence (some home) seq → home.opens = some mode →
      ∀ before s next rest, seq = before ++ s :: next :: rest →
        Flow.endsEarly mode s = .ok false) ∧
    (∀ home mode s, p.Stands (some home) s → Flow.endsEarly mode s = .ok true → ∀ a K,
      Machine.Reaches (Machine.initial p tables maxDepth, start) a →
      a.1.work.items = .stmt s :: K → ∀ b c, Machine.ReachesAbove K a b → Machine.Next b c →
        (∃ own, own ≠ [] ∧ c.1.work.items = own ++ K) ∨ Work.Leaves home K c.1.work.items) ∧
    ∀ f decl span n a K, Machine.Reaches (Machine.initial p tables maxDepth, start) a →
      a.1.work.items = .invoke f span n :: K → f.body = .script decl →
      decl.returns.isSome = true → ∀ b c, Machine.Next a b → Machine.ReachesAbove K b c →
        c.1.work.items ≠ .pushUnit :: .returnPointer :: K := by
  have pass := Program.allPass_of_analyse accepted
  refine ⟨fun home mode seq sequence opens before s next rest split => ?_,
    fun home mode s stands early a K reached work b c above next => ?_,
    fun f decl span n a K reached work script typed b c next above => ?_⟩
  · obtain ⟨ends, checked⟩ := sequence.checked pass opens
    rw [split] at checked
    exact (Flow.ok_of_sequenceEnds (Flow.sequenceEnds_of_append checked)).1
  · have rest := Machine.remains_of_reaches read native accepted reached work stands
    have begun : Work.Closing mode K a.1.work.items := ⟨[], .stmt s, work, early⟩
    obtain ⟨there, ends⟩ := Machine.closing_of_reachesAbove read native accepted reached rest
      (fun W leaves => Nat.le_of_lt leaves.length_lt) begun above
    refine (Machine.closing_next read native accepted there next rest ends).imp_left ?_
    rintro ⟨own, last, split, _⟩
    exact ⟨own ++ [last], by simp, by simp [split]⟩
  · have rooted := Machine.rooted_of_initial read native accepted reached
    have mem : .stmt (.function decl) ∈ p.nodes :=
      (rooted.work (.invoke f span n) (by simp [work])).2 decl script
    obtain ⟨ends, checked, returns⟩ := Flow.exists_of_checkFunction (pass _ mem)
    cases returns typed
    have begun : Work.Closing .function (.pushUnit :: .returnPointer :: K) b.1.work.items :=
      Machine.work_of_call work script next ▸ .of_sequence checked
    obtain ⟨_, own, last, split, _⟩ := Machine.closing_of_reachesAbove read native accepted
      (reached.tail next) (.call mem K) (fun W leaves => Nat.le_of_eq (leaves.eq_of_call ▸ rfl))
      begun above
    intro passed
    have longer := congrArg List.length (split.symm.trans passed)
    simp at longer
    omega

/-- What is left of the body of a loop below the last of its statements belongs to a loop. -/
theorem Work.Remains.exists_loop {p : Program} {place : Option Stmt} {K : List Work}
    (h : Remains p place (.continuePointer :: K)) :
    ∃ home, place = some home ∧ home.opens = some .loop := by
  cases h with
  | @round s next loops => exact ⟨s, rfl, by cases loops <;> rfl⟩

namespace Machine

/-- Whether the next item is a statement that ends early, the last of the body of a loop. -/
def endsRound (m : Machine) : Bool :=
  match m.work.items with
  | .stmt s :: .continuePointer :: _ => (Flow.endsEarly .loop s).toOption == some true
  | _ => false

theorem exists_of_endsRound {m : Machine} (h : m.endsRound = true) :
    ∃ s K, m.work.items = .stmt s :: .continuePointer :: K ∧ Flow.endsEarly .loop s = .ok true := by
  unfold endsRound at h
  split at h
  · next s K work => exact ⟨s, K, work, eq_ok_of_toOption (beq_iff_eq.1 h)⟩
  · cases h

end Machine

/-- Whether a function is written in a script and has a return type. -/
def Function.isTyped (f : Function) : Bool :=
  match f.body with
  | .native _ => false
  | .script decl => decl.returns.isSome

theorem Function.exists_of_isTyped {f : Function} (h : f.isTyped = true) :
    ∃ decl, f.body = .script decl ∧ decl.returns.isSome = true := by
  unfold isTyped at h
  split at h
  · cases h
  · next decl script => exact ⟨decl, script, h⟩

/-- A script with a function whose loop ends each round early. -/
def skippedSource : String :=
  "function f(n:number):number\x7b
repeat 2\x7bif n<1\x7bbreak;\x7delse\x7bcontinue;\x7d\x7dreturn n;\x7d
print f(1);"

/-- A round of the loop is left or goes on, and the call ends with a value. -/
theorem early_ends_never_pass_skipping :
    ∃ tokens p tables, Token.tokenize skippedSource "" = .ok tokens ∧
      Program.ofTokens tokens "" = .ok p ∧ p.analyse (.standard .builtIn) = .ok tables ∧
      (∃ a f decl span n K,
        Machine.Reaches (Machine.initial p tables 1, Context.initial "" 0) a ∧
        a.1.work.items = .invoke f span n :: K ∧ f.body = .script decl ∧
        decl.returns.isSome = true ∧ ∀ b c, Machine.Next a b → Machine.ReachesAbove K b c →
          c.1.work.items ≠ .pushUnit :: .returnPointer :: K) ∧
      ∃ a home s K, Machine.Reaches (Machine.initial p tables 1, Context.initial "" 0) a ∧
        a.1.work.items = .stmt s :: .continuePointer :: K ∧ p.Stands (some home) s ∧
        home.opens = some .loop ∧ Flow.endsEarly .loop s = .ok true ∧
        ∀ b c, Machine.ReachesAbove (.continuePointer :: K) a b → Machine.Next b c →
          (∃ own, own ≠ [] ∧ c.1.work.items = own ++ .continuePointer :: K) ∨
            Work.Leaves home (.continuePointer :: K) c.1.work.items := by
  have runs : ((Program.runTo? (.standard .builtIn) skippedSource 1 (.initial "" 0) 5).any fun a =>
      (a.1.work.items.head?.any fun item => item.callee?.any Function.isTyped) &&
      (Machine.advance 4 a).any fun b => b.1.endsRound) = true := by decide +kernel
  obtain ⟨a, there, holds⟩ := (Option.any_eq_true _ _).1 runs
  obtain ⟨calls, holds⟩ := Bool.and_eq_true_iff.1 holds
  obtain ⟨b, further, skips⟩ := (Option.any_eq_true _ _).1 holds
  obtain ⟨item, first, calls⟩ := (Option.any_eq_true _ _).1 calls
  obtain ⟨f, callee, typed⟩ := (Option.any_eq_true _ _).1 calls
  obtain ⟨span, n, rfl⟩ := Work.eq_invoke_of_callee? callee
  obtain ⟨K, work⟩ := List.head?_eq_some_iff.1 first
  obtain ⟨decl, script, returns⟩ := Function.exists_of_isTyped typed
  obtain ⟨s, K', work', early⟩ := Machine.exists_of_endsRound skips
  obtain ⟨p, tables, read, accepted, reached⟩ := Program.reaches_of_runTo? there
  obtain ⟨tokens, cut, parsed⟩ := Program.exists_tokens read
  have reached' := reached.trans (Machine.reaches_of_advance further)
  have native := Library.native_standard .builtIn
  have housed := Machine.housed_of_reaches parsed native accepted reached'
  rw [work'] at housed
  obtain ⟨place, stands, rest⟩ := housed.stmt
  obtain ⟨home, rfl, opens⟩ := rest.exists_loop
  obtain ⟨_, leaves, values⟩ :=
    early_ends_never_pass parsed native accepted 1 (.initial "" 0)
  exact ⟨tokens, p, tables, cut, parsed, accepted,
    ⟨a, f, decl, span, n, K, reached, work, script, returns,
      values f decl span n a K reached work script returns⟩,
    ⟨b, home, s, K', reached', work', stands, opens, early,
      leaves home .loop s stands early b _ reached' work'⟩⟩

end CursorScript
