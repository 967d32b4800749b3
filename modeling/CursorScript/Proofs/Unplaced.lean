import CursorScript.Error
import CursorScript.Tree

/-!
Trees without places. `remark` changes the marks of a tree and forgets where its operators stand, so
two trees differ in their spans alone if they become equal once `Mark.unplaced` has been applied to
all marks. Actions that are given things which differ in this way are compared by `Agrees`.
-/
namespace CursorScript

def Token.word (token : Token) : TokenKind × String := (token.kind, token.value)

def Span.nowhere : Span := .empty .unknown

def Token.unplaced (token : Token) : Token := { token with span := .nowhere }

def Mark.unplaced (mark : Mark) : Mark := { mark with span := .nowhere }

theorem Token.unplaced_eq_iff {t t' : Token} : t.unplaced = t'.unplaced ↔ t.word = t'.word := by
  simp [unplaced, word]

@[simp] theorem Token.kind_unplaced (t : Token) : t.unplaced.kind = t.kind := rfl

theorem Token.kind_eq {t t' : Token} (h : t.word = t'.word) : t.kind = t'.kind :=
  congrArg Prod.fst h

theorem Token.value_eq {t t' : Token} (h : t.word = t'.word) : t.value = t'.value :=
  congrArg Prod.snd h

def Symbol.remark (f : Mark → Mark) (s : Symbol) : Symbol := { s with mark := f s.mark }

def Parameter.remark (f : Mark → Mark) (p : Parameter) : Parameter := { p with mark := f p.mark }

mutual

/-- An expression with each mark changed, and operators that stand nowhere. -/
def Expr.remark (f : Mark → Mark) : Expr → Expr
  | .number mark value => .number (f mark) value
  | .real mark value => .real (f mark) value
  | .logic mark value => .logic (f mark) value
  | .string mark value => .string (f mark) value
  | .interpolation mark parts => .interpolation (f mark) (remarkParts f parts)
  | .material mark space name => .material (f mark) space name
  | .member mark name => .member (f mark) name
  | .symbol s => .symbol (s.remark f)
  | .binary mark left operator right =>
    .binary (f mark) (left.remark f) operator.unplaced (right.remark f)
  | .unary mark operator operand => .unary (f mark) operator.unplaced (operand.remark f)
  | .index mark collection place => .index (f mark) (collection.remark f) (place.remark f)
  | .call mark callee arguments => .call (f mark) callee (remarkAll f arguments)
  | .list mark elements => .list (f mark) (remarkAll f elements)
  | .map mark entries => .map (f mark) (remarkEntries f entries)

def Expr.remarkAll (f : Mark → Mark) : List Expr → List Expr
  | [] => []
  | e :: rest => e.remark f :: remarkAll f rest

def Expr.remarkParts (f : Mark → Mark) : List (Part Expr) → List (Part Expr)
  | [] => []
  | .text chars :: rest => .text chars :: remarkParts f rest
  | .embed e :: rest => .embed (e.remark f) :: remarkParts f rest

def Expr.remarkEntries (f : Mark → Mark) : List (Expr × Expr) → List (Expr × Expr)
  | [] => []
  | (key, value) :: rest => (key.remark f, value.remark f) :: remarkEntries f rest

end

mutual

/-- A statement with each mark changed, and operators that stand nowhere. -/
def Stmt.remark (f : Mark → Mark) : Stmt → Stmt
  | .block ⟨mark, body⟩ => .block ⟨f mark, remarkAll f body⟩
  | .expression mark e => .expression (f mark) (e.remark f)
  | .declare mark name type value => .declare (f mark) name type (value.remark f)
  | .assign mark target operator value =>
    .assign (f mark) (target.remark f) operator.unplaced (value.remark f)
  | .branch mark condition ⟨inner, body⟩ other =>
    .branch (f mark) (condition.remark f) ⟨f inner, remarkAll f body⟩ (remarkOther f other)
  | .whileLoop mark condition ⟨inner, body⟩ =>
    .whileLoop (f mark) (condition.remark f) ⟨f inner, remarkAll f body⟩
  | .repeatLoop mark count ⟨inner, body⟩ =>
    .repeatLoop (f mark) (count.remark f) ⟨f inner, remarkAll f body⟩
  | .function ⟨mark, name, parameters, returns, ⟨inner, body⟩⟩ =>
    .function ⟨f mark, name, parameters.map (·.remark f), returns, ⟨f inner, remarkAll f body⟩⟩
  | .ret mark value => .ret (f mark) (value.map (·.remark f))
  | .brk mark => .brk (f mark)
  | .cont mark => .cont (f mark)

def Stmt.remarkOther (f : Mark → Mark) : Option Stmt → Option Stmt
  | none => none
  | some s => some (s.remark f)

def Stmt.remarkAll (f : Mark → Mark) : List Stmt → List Stmt
  | [] => []
  | s :: rest => s.remark f :: remarkAll f rest

end

def Block.remark (f : Mark → Mark) (b : Block Stmt) : Block Stmt :=
  ⟨f b.mark, b.body.map (Stmt.remark f)⟩

def FunctionDecl.remark (f : Mark → Mark) (d : FunctionDecl Stmt) : FunctionDecl Stmt :=
  ⟨f d.mark, d.name, d.parameters.map (Parameter.remark f), d.returns, d.body.remark f⟩

def Program.remark (f : Mark → Mark) (p : Program) : Program := Block.remark f p

section
variable (f : Mark → Mark)

@[simp] theorem Expr.remarkAll_eq (es : List Expr) : Expr.remarkAll f es = es.map (Expr.remark f) := by
  induction es with
  | nil => rfl
  | cons e rest ih => simp [Expr.remarkAll, ih]

@[simp] theorem Expr.remarkEntries_eq (entries : List (Expr × Expr)) :
    Expr.remarkEntries f entries =
      entries.map fun entry => (entry.1.remark f, entry.2.remark f) := by
  induction entries with
  | nil => rfl
  | cons entry rest ih => simp [Expr.remarkEntries, ih]

@[simp] theorem Stmt.remarkAll_eq (body : List Stmt) :
    Stmt.remarkAll f body = body.map (Stmt.remark f) := by
  induction body with
  | nil => rfl
  | cons s rest ih => simp [Stmt.remarkAll, ih]

@[simp] theorem Stmt.remarkOther_eq (other : Option Stmt) :
    Stmt.remarkOther f other = other.map (Stmt.remark f) := by
  cases other <;> rfl

theorem Stmt.remark_block (b : Block Stmt) : (Stmt.block b).remark f = .block (b.remark f) := by
  simp [Stmt.remark, Block.remark]

@[simp] theorem Expr.mark_remark (e : Expr) : (e.remark f).mark = f e.mark := by
  cases e <;> simp [Expr.remark, Expr.mark, Symbol.remark]

end

abbrev Expr.unplaced (e : Expr) : Expr := e.remark Mark.unplaced

abbrev Stmt.unplaced (s : Stmt) : Stmt := s.remark Mark.unplaced

abbrev Block.unplaced (b : Block Stmt) : Block Stmt := b.remark Mark.unplaced

abbrev Program.unplaced (p : Program) : Program := p.remark Mark.unplaced

section agreement
variable {σ α β : Type}

/-- Both failed for the same cause, or both gave results, which are related. -/
inductive Matched (rel : α → α → Prop) : Except Error α → Except Error α → Prop
  | failed {e e' : Error} (same : e.cause = e'.cause) : Matched rel (.error e) (.error e')
  | done {a a' : α} (results : rel a a') : Matched rel (.ok a) (.ok a')

theorem Matched.bind {rel : α → α → Prop} {out : β → β → Prop} {first first' : Except Error α}
    {next next' : α → Except Error β} (h : Matched rel first first')
    (rest : ∀ a a', rel a a' → Matched out (next a) (next' a')) :
    Matched out (first >>= next) (first' >>= next') := by
  cases h with
  | failed same => exact .failed same
  | done results => exact rest _ _ results

theorem Matched.map {rel : α → α → Prop} {out : β → β → Prop} {result result' : Except Error α}
    (f : α → β) (h : Matched rel result result') (rest : ∀ a a', rel a a' → out (f a) (f a')) :
    Matched out (result.map f) (result'.map f) := by
  cases h with
  | failed same => exact .failed same
  | done results => exact .done (rest _ _ results)

theorem Matched.imp {rel out : α → α → Prop} {result result' : Except Error α}
    (h : Matched rel result result') (weaker : ∀ a a', rel a a' → out a a') :
    Matched out result result' := by
  cases h with
  | failed same => exact .failed same
  | done results => exact .done (weaker _ _ results)

theorem Matched.exists_ok {rel : α → α → Prop} {a : α} {result : Except Error α}
    (h : Matched rel (.ok a) result) : ∃ a', result = .ok a' ∧ rel a a' := by
  cases h with
  | done results => exact ⟨_, rfl, results⟩

/-- Two results match if both match a third. -/
theorem Matched.join {rel : α → α → Prop} {left right shadow : Except Error α}
    (h : Matched rel left shadow) (h' : Matched rel right shadow) :
    Matched (fun a a' => ∃ b, rel a b ∧ rel a' b) left right := by
  cases h with
  | failed same =>
    cases h' with
    | failed same' => exact .failed (same.trans same'.symm)
  | done results =>
    cases h' with
    | done results' => exact .done ⟨_, results, results'⟩

/-- Two actions match whenever they start from states that are alike, and leave such states. -/
def Agrees (alike : σ → σ → Prop) (act act' : StateT σ (Except Error) α)
    (rel : α → α → Prop) : Prop :=
  ∀ s s', alike s s' →
    Matched (fun out out' => rel out.1 out'.1 ∧ alike out.2 out'.2) (act.run s) (act'.run s')

variable {alike : σ → σ → Prop} {act act' : StateT σ (Except Error) α}
  {next next' : α → StateT σ (Except Error) β} {mid : α → α → Prop} {rel : β → β → Prop}

theorem Agrees.bind (h : Agrees alike act act' mid)
    (rest : ∀ a a', mid a a' → Agrees alike (next a) (next' a') rel) :
    Agrees alike (act >>= next) (act' >>= next') rel := by
  intro s s' start
  rw [StateT.run_bind, StateT.run_bind]
  refine (h s s' start).bind ?_
  rintro ⟨a, t⟩ ⟨a', t'⟩ ⟨results, states⟩
  exact rest a a' results t t' states

theorem Agrees.pure {b b' : β} (h : rel b b') : Agrees alike (pure b) (pure b') rel :=
  fun _ _ start => .done ⟨h, start⟩

theorem Agrees.pure_bind {a a' : α} (h : Agrees alike (next a) (next' a') rel) :
    Agrees alike (Pure.pure a >>= next) (Pure.pure a' >>= next') rel := by
  rwa [LawfulMonad.pure_bind, LawfulMonad.pure_bind]

theorem Agrees.throw {e e' : Error} (same : e.cause = e'.cause) :
    Agrees alike (throw e : StateT σ (Except Error) β) (throw e') rel := fun _ _ _ => .failed same

theorem Agrees.throw_bind {e e' : Error} (same : e.cause = e'.cause) :
    Agrees alike (MonadExcept.throw e >>= next) (MonadExcept.throw e' >>= next') rel :=
  fun _ _ _ => .failed same

theorem Agrees.get : Agrees alike get get alike := fun _ _ start => .done ⟨start, start⟩

theorem Agrees.set {s s' : σ} (h : alike s s') :
    Agrees alike (set s) (set s') fun _ _ => True := fun _ _ _ => .done ⟨trivial, h⟩

theorem Agrees.lift {first first' : Except Error α} (h : Matched mid first first') :
    Agrees alike (StateT.lift first) (StateT.lift first') mid := by
  intro s s' start
  cases h with
  | failed same => exact .failed same
  | done results => exact .done ⟨results, start⟩

end agreement

end CursorScript
