import CursorScript.Proofs.Progress

/-!
Reading ends. The readers of the grammar are given bounds on how often they repeat and how deep they
nest, taken from what is ahead. The bounds are never reached: of each loop and of each recursion one
round is written down without a bound, and the bounded reader is the only one that goes on in such
rounds. If it could go round without getting ahead, there would be others.
-/
namespace CursorScript

namespace Token
variable {cs : List Char}

/-- One round of cutting a text that starts at `p` into tokens. -/
def scanOnce (loop : Position → List Char → Except Error (List Token)) (p : Position) :
    List Char → Except Error (List Token)
  | [] => .ok [ending p]
  | c :: cs =>
    match Lexeme.first? (c :: cs) with
    | none => .error ⟨.unrecognisedToken (String.singleton c), p⟩
    | some (⟨none, text⟩, rest) => loop (p.after text) rest
    | some (⟨some kind, text⟩, rest) => do
      let value ← valueOf kind text p
      let others ← loop (p.after text) rest
      return ⟨kind, value, ⟨p, p.after text⟩⟩ :: others

theorem scan_eq_scanOnce (p : Position) (cs : List Char) : scan p cs = scanOnce scan p cs := by
  cases cs with
  | nil => exact scan_nil p
  | cons c cs =>
    dsimp only [scanOnce]
    split
    · next found => exact scan_refused p found
    · next found => exact scan_skip p found
    · next found => exact scan_token p found

/-- A text either starts with a lexeme of at least one byte, or is refused. -/
theorem scan_progress (p : Position) (nonempty : cs ≠ []) : (∃ e, scan p cs = .error e) ∨
    ∃ lexeme rest, Lexeme.first? cs = some (lexeme, rest) ∧ lexeme.text ++ rest = cs ∧
      0 < Text.byteLength lexeme.text := by
  obtain ⟨c, behind, rfl⟩ := List.exists_cons_of_ne_nil nonempty
  cases found : Lexeme.first? (c :: behind) with
  | none => exact .inl ⟨_, scan_refused p found⟩
  | some cut =>
    obtain ⟨whole, filled⟩ := Lexeme.faithful_first? _ _ _ found
    exact .inr ⟨cut.1, cut.2, rfl, whole, byteLength_pos filled⟩

/-- By induction on the length of the text, no other function does the same in rounds. -/
theorem eq_scan {loop : Position → List Char → Except Error (List Token)}
    (again : ∀ p cs, loop p cs = scanOnce loop p cs) (p : Position) (cs : List Char) :
    loop p cs = scan p cs := by
  rw [again, scan_eq_scanOnce]
  cases cs with
  | nil => rfl
  | cons c behind =>
    dsimp only [scanOnce]
    split
    · rfl
    · next found =>
      have shorter := Lexeme.length_first?_lt found
      exact eq_scan again _ _
    · next found =>
      have shorter := Lexeme.length_first?_lt found
      rw [eq_scan again]
termination_by cs.length
decreasing_by all_goals exact shorter

end Token

namespace Grammar
variable {ι α : Type} {n m k : Nat}

/-- Two readers do the same wherever a closing token stands at the end. -/
def Alike (reader reader' : Parse α) : Prop :=
  ∀ s : Stream, s.last.kind = .eof → reader.run s = reader'.run s

/-- A reader that takes at least one token if it succeeds, and never the closing one. -/
def Progresses (reader : Parse α) : Prop :=
  ∀ (s : Stream) (a : α) (t : Stream), s.last.kind = .eof → reader.run s = .ok (a, t) → s.Past 1 t

def bounded (reader : Nat → ι → Parse α) (i : ι) : Parse α := do reader (← get).limit i

/-- Going on in rounds, of which each does what `once` does with the readers of the next, comes to
these readers and to no others. -/
def Determines (once : (ι → Parse α) → ι → Parse α) (reader : ι → Parse α) : Prop :=
  ∀ other : ι → Parse α,
    (∀ i, Alike (other i) (once other i)) ↔ ∀ i, Alike (other i) (reader i)

section rules
variable {reader reader' reader'' : Parse α}

theorem Stays.symm (h : Stays n reader reader') : Stays n reader' reader :=
  fun s room => (h s room).symm

theorem Stays.trans (h : Stays n reader reader') (next : Stays n reader' reader'') :
    Stays n reader reader'' := fun s room => (h s room).trans (next s room)

theorem Alike.of_stays (h : ∀ n, Stays n reader reader') : Alike reader reader' :=
  fun s last => (h _ s (Stream.below_succ_load last)).1

/-- What is alike stays alike, if one of the two goes on. -/
theorem Alike.stays (h : Alike reader reader') (goes : Stays n reader reader) :
    Stays n reader reader' := fun s room => ⟨h s room.last, (goes s room).2⟩

theorem Progresses.spends (h : Progresses reader) : Spends n reader reader :=
  fun s room => ⟨rfl, fun a t ran => h s a t room.last ran⟩

theorem Spends.progresses (h : ∀ n, Spends n reader reader) : Progresses reader :=
  fun s a t last ran => (h _ s (Stream.below_succ_load last)).2 a t ran

theorem progresses_bounded {reader : Nat → ι → Parse α} {i : ι}
    (h : ∀ k, Progresses (reader k i)) : Progresses (bounded reader i) := fun s => h s.limit s

end rules

/-- What `once` does where some is ahead depends on its readers where less is ahead. -/
def Narrows (once once' : (ι → Parse α) → ι → Parse α) (n : Nat) : Prop :=
  ∀ f g, (∀ i, Stays n (f i) (g i)) → ∀ i, Stays (n + 1) (once f i) (once' g i)

/-- By induction on what is ahead, nothing but one solution is possible. -/
theorem determines_of_narrows {once : (ι → Parse α) → ι → Parse α} {reader : ι → Parse α}
    (narrows : ∀ n, Narrows once once n) (solves : ∀ i, Alike (reader i) (once reader i))
    (goes : ∀ n i, Stays n (reader i) (reader i)) : Determines once reader := by
  intro other
  constructor
  · intro again
    have same : ∀ n i, Stays n (reader i) (other i) := by
      intro n
      induction n with
      | zero => exact fun i => stays_zero _ _
      | succ n ih =>
        intro i s room
        have inner := narrows n _ _ ih i s room
        refine ⟨?_, (goes _ i s room).2⟩
        rw [solves i s room.last, again i s room.last, inner.1]
    exact fun i s last => (Alike.of_stays (fun n => same n i) s last).symm
  · intro same i s last
    have stays : ∀ n i, Stays n (reader i) (other i) := fun n i =>
      Alike.stays (fun s last => (same i s last).symm) (goes n i)
    have inner := narrows s.load _ _ (stays _) i s (Stream.below_succ_load last)
    rw [same i s last, solves i s last, inner.1]

section bounds
variable {reader : Nat → ι → Parse α} {step : Nat → (ι → Parse α) → ι → Parse α}
  {once : (ι → Parse α) → ι → Parse α} (unfolds : ∀ k i, reader (k + 1) i = step k (reader k) i)
  (narrows : ∀ n k, n ≤ k → Narrows (step k) once n)
include unfolds narrows

/-- Bounds that leave room for what is ahead make no difference. -/
theorem stays_of_le (n : Nat) : ∀ (k m : Nat) (i : ι), n ≤ k → n ≤ m →
    Stays n (reader k i) (reader m i) := by
  induction n with
  | zero => exact fun k m i _ _ => stays_zero _ _
  | succ n ih =>
    intro k m i le le'
    obtain ⟨k, rfl⟩ := Nat.exists_eq_add_one.2 (Nat.lt_of_lt_of_le n.succ_pos le)
    obtain ⟨m, rfl⟩ := Nat.exists_eq_add_one.2 (Nat.lt_of_lt_of_le n.succ_pos le')
    have small := Nat.le_of_succ_le_succ le
    have small' := Nat.le_of_succ_le_succ le'
    rw [unfolds, unfolds]
    have here := narrows n k small _ _ (fun i => ih k m i small small') i
    have there := narrows n m small' _ _ (fun i => ih m m i small' small') i
    exact here.trans there.symm

theorem stays_bounded (le : n ≤ k) (i : ι) : Stays n (reader k i) (bounded reader i) := by
  intro s room
  have fits : s.Below (s.load + 1) := Stream.below_succ_load room.last
  have few := room.load
  exact stays_of_le unfolds narrows (s.load + 1) k s.limit i (by omega) s.load_lt_limit s fits

theorem stays_bounded_self (n : Nat) (i : ι) :
    Stays n (bounded reader i) (bounded reader i) := by
  have fits := stays_bounded unfolds narrows (Nat.le_refl n) i
  exact fits.symm.trans fits

/-- A round uses up one of the bound and at least one of what is ahead, so the bound still leaves
room behind it. -/
theorem alike_bounded (i : ι) : Alike (bounded reader i) (once (bounded reader) i) := by
  intro s last
  obtain ⟨k, limit⟩ := Nat.exists_eq_add_one.2 (Nat.zero_lt_of_lt s.load_lt_limit)
  have few : s.load ≤ k := by
    have less := s.load_lt_limit
    omega
  have inner := narrows s.load k few _ _ (fun i => stays_bounded unfolds narrows few i) i s
    (Stream.below_succ_load last)
  have start : (bounded reader i).run s = (reader s.limit i).run s := rfl
  rw [start, limit, unfolds, inner.1]

theorem determines_bounded : Determines once (bounded reader) := by
  refine determines_of_narrows (fun n f g same i => ?_) (alike_bounded unfolds narrows)
    (stays_bounded_self unfolds narrows)
  have left := narrows n n (Nat.le_refl n) g f (fun i => (same i).symm) i
  have right := narrows n n (Nat.le_refl n) g g (fun i => (same i).symm.trans (same i)) i
  exact left.symm.trans right

end bounds

/-- One round of reading items until a token of the kind `close` is ahead. -/
def itemsOnce (close : TokenKind) (item : List α → Parse α) (loop : List α → Parse (List α))
    (before : List α) : Parse (List α) := do
  if (← Parse.kind) = close then return before.reverse
  loop ((← item before) :: before)

/-- One round of reading the members of a literal type. -/
def membersOnce (loop : NameSet → Parse NameSet) (before : NameSet) : Parse NameSet := do
  let member ← Parse.expectWith .identifier "expected a literal member"
  let members := before.insert member.value
  if (← Parse.kind) = .comma then
    let _ ← Parse.take
    loop members
  else return members

/-- One round of continuing an expression by the operators that bind tighter than `outer`. -/
def climbOnce (expr : ExprReader) (outer : Power) (loop : Expr → Parse Expr) (left : Expr) :
    Parse Expr := do
  if (Power.ofToken (← Parse.kind)).rank ≤ outer.rank then return left
  loop (← continuation expr left)

def caretsOnce (loop : Nat → Parse Nat) (up : Nat) : Parse Nat := do
  if (← Parse.kind) = .caret then
    let _ ← Parse.take
    loop (up + 1)
  else return up

def takeCarets (up : Nat) : Parse Nat := do
  let more := (← get).carets
  modify (Nat.repeat Stream.advance more)
  return up + more

theorem determines_items {close : TokenKind} {item : List α → Parse α}
    (h : ∀ before, Progresses (item before)) :
    Determines (itemsOnce close item) (bounded (Parse.itemsUntil close item)) := by
  refine @determines_bounded _ _ _ (fun _ => itemsOnce close item) _ (fun k before => rfl) ?_
  intro n k _ f g same before
  refine .kind fun kind => ?_
  split
  · exact .pure _
  · exact ((h before).spends.bind fun next => same _).stays

theorem determines_members : Determines membersOnce (bounded literalMembers) := by
  refine @determines_bounded _ _ _ (fun _ => membersOnce) _ (fun k before => rfl) ?_
  intro n k _ f g same before
  refine ((spends_expectWith (by decide) _).bind fun member => ?_).stays
  exact stays_takeIf (by decide) (fun _ => same _) (.pure _)

theorem determines_climb {expr : ExprReader} (h : ∀ outer, Progresses (expr outer))
    (outer : Power) :
    Determines (climbOnce expr outer) (bounded (climb expr outer)) := by
  refine @determines_bounded _ _ _ (fun _ => climbOnce expr outer) _ (fun k left => rfl) ?_
  intro n k _ f g same left
  refine .ahead fun s room => ?_
  split
  · exact goes_pure _
  · next tight =>
    have first : Goes 1 s (continuation expr left) (continuation expr left) :=
      enters_continuation (fun outer => (h outer).spends.stays) s room (real_of_tight tight)
    exact (first.bind fun e t past => same e t (past.below room)).mono (Nat.zero_le _)

theorem repeat_succ (f : α → α) (k : Nat) (a : α) :
    Nat.repeat f (k + 1) a = Nat.repeat f k (f a) := by
  induction k with
  | zero => rfl
  | succ k ih =>
    rw [Nat.repeat, ih]
    rfl

theorem carets_of_caret {s : Stream} (last : s.last.kind = .eof) (ahead : s.current.kind = .caret) :
    s.carets = s.advance.carets + 1 := by
  obtain ⟨rest, held⟩ := Stream.exists_cons_of_real last (by simp [ahead])
  have left : s.advance.rest = rest := by simp [Stream.advance, held]
  rw [Stream.carets, Stream.carets, left, held, List.takeWhile_cons_of_pos (by simpa using ahead),
    List.length_cons]

theorem carets_of_ne {s : Stream} (ahead : s.current.kind ≠ .caret) : s.carets = 0 := by
  unfold Stream.carets
  cases held : s.rest with
  | nil => rfl
  | cons token rest =>
    have other : token.kind ≠ .caret := by simpa [Stream.current, held] using ahead
    simp [other]

theorem alike_takeCarets (up : Nat) : Alike (takeCarets up) (caretsOnce takeCarets up) := by
  intro s last
  have counted : ∀ (up : Nat) (s : Stream), (takeCarets up).run s =
      .ok (up + s.carets, Nat.repeat Stream.advance s.carets s) := fun _ _ => rfl
  by_cases ahead : s.current.kind = .caret
  · have round : (caretsOnce takeCarets up).run s = (takeCarets (up + 1)).run s.advance := by
      refine (run_bind_of_ok (run_kind s)).trans ?_
      rw [if_pos ahead]
      rfl
    have sum : up + (s.advance.carets + 1) = up + 1 + s.advance.carets := by omega
    rw [round, counted, counted, carets_of_caret last ahead, repeat_succ, sum]
  · have round : (caretsOnce takeCarets up).run s = .ok (up, s) := by
      refine (run_bind_of_ok (run_kind s)).trans ?_
      rw [if_neg ahead]
      rfl
    rw [round, counted, carets_of_ne ahead]
    rfl

theorem determines_carets : Determines caretsOnce takeCarets := by
  refine determines_of_narrows (fun n f g same up => ?_) alike_takeCarets fun n up s room => ?_
  · exact stays_takeIf_succ (by decide) (fun _ => same _) (.pure _)
  · refine ⟨rfl, ?_⟩
    rintro _ _ ⟨⟩
    exact s.past_carets

theorem determines_type :
    Determines (fun inner (_ : Unit) => typeOnce (inner ())) (fun _ => type) :=
  @determines_bounded _ _ (fun k (_ : Unit) => typeWithin k)
    (fun _ inner _ => typeOnce (inner ())) (fun inner _ => typeOnce (inner ()))
    (fun k _ => by rw [typeWithin_succ]) fun n k _ f g same _ => (spends_typeOnce (same ())).stays

/-- Reads an expression in which others may be nested as deep as they can be. -/
def exprs : ExprReader := bounded exprWithin

/-- Reads a statement in which others may be nested as deep as they can be. -/
def stmts : Parse Stmt := do stmtWithin (← get).limit

theorem unfolds_exprWithin (k : Nat) (outer : Power) :
    exprWithin (k + 1) outer = exprOnce (exprWithin k) outer := by rw [exprWithin_succ]

theorem narrows_exprOnce (n : Nat) : Narrows exprOnce exprOnce n :=
  fun _ _ same outer => (spends_exprOnce same outer).stays

theorem determines_exprs : Determines exprOnce exprs :=
  determines_bounded unfolds_exprWithin fun n _ _ => narrows_exprOnce n

theorem progresses_exprWithin (fuel : Nat) (outer : Power) : Progresses (exprWithin fuel outer) :=
  Spends.progresses fun _ => spends_exprWithin fuel outer

theorem progresses_exprs (outer : Power) : Progresses (exprs outer) :=
  progresses_bounded fun fuel => progresses_exprWithin fuel outer

/-- Before the closing token no bound is needed. -/
theorem run_exprWithin_closing {s : Stream} (closing : s.current.kind = .eof) (k : Nat)
    (outer : Power) : (exprWithin k outer).run s = (Parse.unexpected : Parse Expr).run s := by
  cases k with
  | zero => rfl
  | succ k =>
    have first : (operand (exprWithin k)).run s = (Parse.unexpected : Parse Expr).run s := by
      refine (run_bind_of_ok (run_kind s)).trans ?_
      rw [closing]
    rw [exprWithin_succ, exprOnce, StateT.run_bind, first]
    rfl

/-- A bound may be used up by what is ahead. -/
theorem spends_exprs (k : Nat) : SpendsExprs (k + 1) (exprWithin k) exprs := by
  induction k with
  | zero =>
    intro outer s room
    refine ⟨?_, (spends_exprWithin 0 outer s room).2⟩
    have closing := room.closing
    have start : (exprs outer).run s = (exprWithin s.limit outer).run s := rfl
    rw [start, run_exprWithin_closing closing, run_exprWithin_closing closing]
  | succ k ih =>
    intro outer s room
    have inner := spends_exprOnce (fun outer => (ih outer).stays) outer s room
    have solves : Alike (exprs outer) (exprOnce exprs outer) :=
      alike_bounded unfolds_exprWithin (fun n _ _ => narrows_exprOnce n) outer
    rw [exprWithin_succ]
    exact ⟨inner.1.trans (solves s room.last).symm, inner.2⟩

theorem narrows_statement (n k : Nat) (le : n ≤ k) :
    Narrows (fun stmt (_ : Unit) => statement (exprWithin k) (stmt ()))
      (fun stmt _ => statement exprs (stmt ())) n := fun _ _ same _ =>
  (spends_statement (fun outer => (spends_exprs k outer).mono (by omega)) (same ())).stays

theorem determines_stmts :
    Determines (fun stmt (_ : Unit) => statement exprs (stmt ())) (fun _ => stmts) :=
  @determines_bounded _ _ (fun k (_ : Unit) => stmtWithin k)
    (fun k stmt _ => statement (exprWithin k) (stmt ())) (fun stmt _ => statement exprs (stmt ()))
    (fun _ _ => rfl) narrows_statement

/-- The statements of a script are read without a bound that could be reached. -/
theorem alike_program : Alike program (do
    let start ← Parse.place
    let body ← Parse.itemsBefore .eof fun _ => stmts
    return ⟨⟨← Parse.freshId, ⟨start, ← Parse.place⟩⟩, body⟩) := by
  intro s last
  have fits : Stays (s.load + 1) (stmtWithin s.limit) stmts :=
    @stays_bounded _ _ _ _ (fun k (_ : Unit) => stmtWithin k)
      (fun k stmt _ => statement (exprWithin k) (stmt ())) (fun stmt _ => statement exprs (stmt ()))
      (fun _ _ => rfl) narrows_statement s.load_lt_limit ()
  have room : s.Below (s.load + 1) := Stream.below_succ_load last
  have items := @stays_itemsBefore _ _ .eof (fun _ => stmtWithin s.limit) (fun _ => stmts)
    (fun _ => fits) s room
  have whole := items.bind fun body t past => (stays_freshId t (past.ends room)).bind
    fun id u next => (stays_place u (next.ends (past.ends room))).bind
    fun stop v _ => @goes_pure _ v (⟨⟨id, ⟨s.current.span.start, stop⟩⟩, body⟩ : Program)
  exact whole.1

/-- A loop that reads items until a token of the kind `close` is ahead ends, whatever its bound. -/
def Finishes (close : TokenKind) (item : List α → Parse α) : Prop :=
  Determines (itemsOnce close item) (bounded (Parse.itemsUntil close item))

def listed (close : TokenKind) (message : String) (_ : List Expr) : Parse Expr := do
  let item ← exprs .loosest
  Parse.separator close message
  return item

def enclosed : Parse Stmt := do
  if (← Parse.kind) = .eof then Parse.unexpectedWith "expected `\x7d` to close the block"
  stmts

theorem progresses_listed (close : TokenKind) (message : String) (before : List Expr) :
    Progresses (listed close message before) :=
  Spends.progresses fun _ => (progresses_exprs _).spends.then fun _ =>
    (stays_separator _ _).bind fun _ => .pure _

theorem progresses_mapEntry : Progresses (mapEntry exprs) :=
  Spends.progresses fun _ => (progresses_exprs _).spends.then fun _ =>
    (spends_expectWith (by decide) _).stays.bind fun _ =>
    (progresses_exprs _).spends.stays.bind fun _ => (stays_separator _ _).bind fun _ => .pure _

theorem progresses_stmtWithin (fuel : Nat) : Progresses (stmtWithin fuel) :=
  Spends.progresses fun _ => spends_stmtWithin fuel

theorem progresses_stmts : Progresses stmts :=
  @progresses_bounded _ _ (fun fuel (_ : Unit) => stmtWithin fuel) () progresses_stmtWithin

theorem progresses_enclosed : Progresses enclosed := by
  refine Spends.progresses fun n => .kind fun s room => ?_
  dsimp only
  split
  · exact ((spends_unexpectedWith _).then fun _ => progresses_stmts.spends.stays) s room
  · exact progresses_stmts.spends s room

theorem scopedSymbol_eq : scopedSymbol = (do
    let start ← Parse.place
    let up ← takeCarets 0
    let name ← Parse.expectWith .identifier "expected a variable name"
    return ⟨← Parse.markFrom start, name.value, up⟩) := by
  simp only [takeCarets, Nat.zero_add]
  rfl

/-- Every loop of the grammar ends. -/
structure LoopsEnd : Prop where
  statements : Finishes .eof fun (_ : List Stmt) => stmts
  block : block stmts = (do
      let start := (← Parse.expectWith .openCurly "expected `\x7b` to open a block").span.start
      let body ← Parse.itemsBefore .closeCurly fun _ => enclosed
      let _ ← Parse.expect .closeCurly
      return ⟨← Parse.markFrom start, body⟩) ∧
    Finishes .closeCurly fun (_ : List Stmt) => enclosed
  list (close : TokenKind) : exprList exprs close = (do
      let items ← Parse.itemsBefore close (listed close "expected `,` between items")
      let _ ← Parse.expect close
      return items) ∧
    Finishes close (listed close "expected `,` between items")
  command : commandStmt exprs = (do
      let name ← Parse.take
      let start := name.span.start
      let arguments ← Parse.itemsBefore .semicolon
        (listed .semicolon "expected `,` between arguments")
      let call := Expr.call (← Parse.markFrom start) name.value arguments
      let _ ← Parse.expect .semicolon
      return .expression (← Parse.markFrom start) call) ∧
    Finishes .semicolon (listed .semicolon "expected `,` between arguments")
  map : Finishes .closeCurly fun (_ : List (Expr × Expr)) => mapEntry exprs
  parameters : Finishes .closeParen parameter
  members : Determines membersOnce (bounded literalMembers)
  carets : scopedSymbol = (do
      let start ← Parse.place
      let up ← takeCarets 0
      let name ← Parse.expectWith .identifier "expected a variable name"
      return ⟨← Parse.markFrom start, name.value, up⟩) ∧
    Determines caretsOnce takeCarets
  operators (outer : Power) : Determines (climbOnce exprs outer) (bounded (climb exprs outer))

theorem loopsEnd : LoopsEnd where
  statements := determines_items fun _ => progresses_stmts
  block := ⟨rfl, determines_items fun _ => progresses_enclosed⟩
  list close := ⟨rfl, determines_items (progresses_listed close _)⟩
  command := ⟨rfl, determines_items (progresses_listed .semicolon _)⟩
  map := determines_items fun _ => progresses_mapEntry
  parameters := determines_items fun before => Spends.progresses fun _ => spends_parameter before
  members := determines_members
  carets := ⟨scopedSymbol_eq, determines_carets⟩
  operators := determines_climb progresses_exprs

theorem current_of_itemsUntil {close : TokenKind} {item : List α → Parse α} {fuel : Nat}
    {before all : List α} {s t : Stream}
    (ran : (Parse.itemsUntil close item fuel before).run s = .ok (all, t)) :
    t.current.kind = close := by
  induction fuel generalizing before s with
  | zero => cases ran
  | succ fuel ih =>
    obtain ⟨kind, u, looked, ran⟩ := run_bind_ok ran
    cases looked
    split at ran
    · next closed =>
      cases ran
      exact closed
    · obtain ⟨a, u, _, ran⟩ := run_bind_ok ran
      exact ih ran

/-- A script is read up to its first closing token. -/
theorem past_of_program {s t : Stream} {p : Program} (last : s.last.kind = .eof)
    (ran : program.run s = .ok (p, t)) : s.Past 0 t ∧ t.current.kind = .eof := by
  obtain ⟨start, _, looked, ran⟩ := run_bind_ok ran
  cases looked
  obtain ⟨_, _, got, ran⟩ := run_bind_ok ran
  cases got
  obtain ⟨body, u, items, ran⟩ := run_bind_ok ran
  cases ran
  have ended : (Parse.itemsUntil .eof (fun _ => stmtWithin s.limit) s.limit []).run s =
      .ok (body, u) := items
  have room := Stream.below_succ_load last
  have stays := @stays_itemsBefore _ _ .eof (fun _ => stmtWithin s.limit) _
    (fun _ => (spends_stmtWithin s.limit).stays) s room
  have past := stays.2 body u items
  have closing : u.current.kind = .eof := current_of_itemsUntil ended
  exact ⟨past.trans (Stream.Past.of_same rfl rfl), closing⟩

def Stream.tokens (s : Stream) : List Token := s.rest ++ [s.last]

theorem Stream.Past.tokens_eq {s t : Stream} (h : s.Past k t) (closing : t.current.kind = .eof) :
    t.tokens = s.tokens.dropWhile fun token => token.kind ≠ .eof := by
  obtain ⟨used, rest, _, real, last⟩ := h
  have ahead : s.tokens = used ++ t.tokens := by
    rw [tokens, rest, ← last, tokens, List.append_assoc]
  have first : t.tokens.dropWhile (fun token => token.kind ≠ .eof) = t.tokens := by
    rw [tokens]
    unfold Stream.current at closing
    cases held : t.rest with
    | nil =>
      rw [held] at closing
      have closes : t.last.kind = .eof := closing
      simp [closes]
    | cons token rest =>
      rw [held] at closing
      have closes : token.kind = .eof := closing
      simp [closes]
  rw [ahead, List.dropWhile_append_of_pos (by simpa using real), first]

theorem Stream.tokens_ofTokens {tokens : List Token} {last : Token}
    (ends : tokens.getLast? = some last) (closing : last.kind = .eof) (file : String) (id : Nat) :
    (Stream.ofTokens tokens file id).tokens = tokens ∧
      (Stream.ofTokens tokens file id).last.kind = .eof := by
  obtain ⟨front, rfl⟩ := List.getLast?_eq_some_iff.1 ends
  simp [Stream.ofTokens, Stream.tokens, closing]

end Grammar

open Grammar

/-- Cutting a text into tokens takes at least one byte in every round or fails, so it ends. Readers
of statements, of expressions and of types take at least one token if they succeed, and never the
closing one, so that their loops and what they nest end, also in the code inside texts, which is
shorter than the text. When a script is read, what is left starts with the first closing token. -/
theorem reading_ends :
    (∀ (p : Position) (cs : List Char), cs ≠ [] → (∃ e, Token.scan p cs = .error e) ∨
      ∃ lexeme rest, Lexeme.first? cs = some (lexeme, rest) ∧ lexeme.text ++ rest = cs ∧
        0 < Text.byteLength lexeme.text) ∧
    (∀ loop : Position → List Char → Except Error (List Token),
      (∀ p cs, loop p cs = Token.scanOnce loop p cs) ↔ ∀ p cs, loop p cs = Token.scan p cs) ∧
    (∀ fuel, Progresses (stmtWithin fuel) ∧ (∀ outer, Progresses (exprWithin fuel outer)) ∧
      Progresses (typeWithin fuel)) ∧
    LoopsEnd ∧
    Determines (fun inner (_ : Unit) => typeOnce (inner ())) (fun _ => type) ∧
    Determines exprOnce exprs ∧
    Determines (fun stmt (_ : Unit) => statement exprs (stmt ())) (fun _ => stmts) ∧
    (Alike program do
      let start ← Parse.place
      let body ← Parse.itemsBefore .eof fun _ => stmts
      return ⟨⟨← Parse.freshId, ⟨start, ← Parse.place⟩⟩, body⟩) ∧
    (∀ (p start : Position) (token : Token) (source : List Char),
      .code source start ∈ pieces p [] token.value.toList →
        source.length < token.value.length ∧
        Text.byteLength source < Text.byteLength token.value.toList) ∧
    ∀ (tokens : List Token) (last : Token) (file : String) (tree : Program) (t : Stream),
      tokens.getLast? = some last → last.kind = .eof →
      program.run (Stream.ofTokens tokens file 0) = .ok (tree, t) →
      t.tokens = tokens.dropWhile fun token => token.kind ≠ .eof := by
  refine ⟨fun p cs => Token.scan_progress p, fun loop => ⟨Token.eq_scan, ?_⟩, fun fuel => ?_,
    loopsEnd, determines_type, determines_exprs, determines_stmts, alike_program, ?_, ?_⟩
  · intro same p cs
    have agree : loop = Token.scan := funext fun p => funext fun cs => same p cs
    rw [agree, ← Token.scan_eq_scanOnce]
  · exact ⟨progresses_stmtWithin fuel, progresses_exprWithin fuel,
      Spends.progresses fun _ => spends_typeWithin fuel⟩
  · intro p start token source embedded
    obtain ⟨front, rest, whole⟩ := exists_of_code embedded
    have brace : 0 < '\x7b'.utf8Size := Char.utf8Size_pos _
    rw [← String.length_toList, whole]
    simp only [List.length_append, List.length_cons, Text.byteLength_append, Text.byteLength_cons]
    omega
  · intro tokens last file tree t ends closing ran
    obtain ⟨whole, closes⟩ := Stream.tokens_ofTokens ends closing file 0
    obtain ⟨past, ended⟩ := past_of_program closes ran
    rw [past.tokens_eq ended, whole]

/-- A script with code inside a text. -/
def sumSource : String := "print \x60n = \x7b1 + 2\x7d\x60; // sum"

def sumTokens : List Token :=
  match Token.scan (.start "") sumSource.toList with
  | .ok tokens => tokens
  | .error _ => []

theorem reading_ends_sum :
    (∃ lexeme rest, Lexeme.first? sumSource.toList = some (lexeme, rest) ∧
      lexeme.text ++ rest = sumSource.toList ∧ 0 < Text.byteLength lexeme.text) ∧
    (∀ p cs, Token.scan p cs = Token.scanOnce Token.scan p cs) ∧
    (∃ a t, (stmtWithin 9).run (Stream.ofTokens sumTokens "" 0) = .ok (a, t) ∧
      (Stream.ofTokens sumTokens "" 0).Past 1 t) ∧
    Alike type (typeOnce type) ∧
    (∃ text source start, sumTokens[1]? = some text ∧
      .code source start ∈ pieces (text.span.start.advance '\x60') [] text.value.toList ∧
        source.length < text.value.length ∧
        Text.byteLength source < Text.byteLength text.value.toList) ∧
    ∃ tree t, program.run (Stream.ofTokens sumTokens "" 0) = .ok (tree, t) ∧
      t.tokens = sumTokens.dropWhile fun token => token.kind ≠ .eof := by
  obtain ⟨scans, loops, readers, -, types, -, -, -, inner, whole⟩ := reading_ends
  refine ⟨?_, (loops Token.scan).2 fun _ _ => rfl, ?_, (types fun _ => type).2 (fun _ _ _ => rfl) (),
    ?_, ?_⟩
  · rcases scans (.start "") sumSource.toList (by decide +kernel) with ⟨e, refused⟩ | taken
    · obtain ⟨tokens, cut⟩ := exists_ok_of_toOption
        (by decide +kernel : (Token.scan (.start "") sumSource.toList).toOption.isSome = true)
      rw [refused] at cut
      cases cut
    · exact taken
  · obtain ⟨⟨a, t⟩, ran⟩ := exists_ok_of_toOption (by decide +kernel :
      ((stmtWithin 9).run (Stream.ofTokens sumTokens "" 0)).toOption.isSome = true)
    exact ⟨a, t, ran, (readers 9).1 _ a t (by decide +kernel) ran⟩
  · have second : ∃ text, sumTokens[1]? = some text ∧
        .code "1 + 2".toList ⟨12, 1, 13, ""⟩ ∈ pieces (text.span.start.advance '\x60') [] text.value.toList := by
      decide +kernel
    obtain ⟨text, found, embedded⟩ := second
    exact ⟨text, _, _, found, embedded, inner _ _ text _ embedded⟩
  · obtain ⟨⟨tree, t⟩, ran⟩ := exists_ok_of_toOption (by decide +kernel :
      (program.run (Stream.ofTokens sumTokens "" 0)).toOption.isSome = true)
    have last : sumTokens.getLast? = some (Token.ending ⟨27, 1, 28, ""⟩) := by decide +kernel
    exact ⟨tree, t, ran, whole sumTokens _ "" tree t last rfl ran⟩

end CursorScript
