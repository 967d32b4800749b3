import CursorScript.Proofs.Rereading

/-!
Readers make progress. A reader that succeeds has taken tokens from the front of what was ahead, and
never the closing one; readers of types, of expressions and of statements have taken at least one.
Every other reader that they call is started behind a token that was taken before, or inside the text
of one, so what it does there is all that its caller depends on.

Both are shown at once, for two copies of a reader that differ in the readers they are given: if
these do the same where less is ahead, so do the copies.
-/
namespace CursorScript.Grammar

def Stream.load (s : Stream) : Nat := Grammar.load (s.rest.map Token.word)

/-- At least `k` tokens were taken from the first stream to get to the second, none of them a closing
one. -/
def Stream.Past (k : Nat) (s t : Stream) : Prop :=
  ∃ used : List Token, s.rest = used ++ t.rest ∧ k ≤ used.length ∧
    (∀ token ∈ used, token.kind ≠ .eof) ∧ t.last = s.last

structure Stream.Below (n : Nat) (s : Stream) : Prop where
  last : s.last.kind = .eof
  load : s.load < n

namespace Stream
variable {s t u : Stream} {j k n : Nat}

theorem load_lt_limit (s : Stream) : s.load < s.limit :=
  Nat.lt_of_le_of_lt (load_words_le s.rest) s.weight_lt

theorem length_le_load (tokens : List Token) :
    tokens.length ≤ Grammar.load (tokens.map Token.word) := by
  induction tokens with
  | nil => simp [Grammar.load]
  | cons token rest ih =>
    have more := load_lt_cons token.word (rest.map Token.word)
    rw [List.length_cons, List.map_cons]
    omega

theorem Past.of_same (rest : t.rest = s.rest) (last : t.last = s.last) : s.Past 0 t :=
  ⟨[], by simp [rest], by simp, by simp, last⟩

theorem Past.trans (h : s.Past j t) (next : t.Past k u) : s.Past (j + k) u := by
  obtain ⟨used, rest, count, real, last⟩ := h
  obtain ⟨used', rest', count', real', last'⟩ := next
  refine ⟨used ++ used', ?_, ?_, ?_, last'.trans last⟩
  · rw [rest, rest', List.append_assoc]
  · rw [List.length_append]
    omega
  · exact List.forall_mem_append.2 ⟨real, real'⟩

theorem Past.mono (h : s.Past k t) (le : j ≤ k) : s.Past j t := by
  obtain ⟨used, rest, count, others⟩ := h
  exact ⟨used, rest, by omega, others⟩

theorem Past.load_le (h : s.Past k t) : t.load + k ≤ s.load := by
  obtain ⟨used, rest, count, _⟩ := h
  have longer := length_le_load used
  rw [load, load, rest, List.map_append, load_append]
  omega

theorem Past.below (h : s.Past k t) (room : s.Below (n + k)) : t.Below n := by
  have less := h.load_le
  have bound := room.load
  obtain ⟨_, _, _, _, last⟩ := h
  exact ⟨by rw [last, room.last], by omega⟩

theorem Past.ends (h : s.Past k t) (room : s.Below n) : t.Below n :=
  (h.mono (Nat.zero_le k)).below room

theorem Below.mono (h : s.Below j) (le : j ≤ k) : s.Below k :=
  ⟨h.last, Nat.lt_of_lt_of_le h.load le⟩

theorem below_succ_load (last : s.last.kind = .eof) : s.Below (s.load + 1) :=
  ⟨last, Nat.lt_succ_self _⟩

/-- The token ahead is not the closing one, so it can be taken. -/
theorem exists_cons_of_real (last : s.last.kind = .eof) (real : s.current.kind ≠ .eof) :
    ∃ rest, s.rest = s.current :: rest := by
  unfold current at real ⊢
  cases held : s.rest with
  | nil =>
    rw [held] at real
    exact absurd last real
  | cons token rest => exact ⟨rest, rfl⟩

theorem past_advance (last : s.last.kind = .eof) (real : s.current.kind ≠ .eof) :
    s.Past 1 s.advance := by
  obtain ⟨rest, held⟩ := exists_cons_of_real last real
  refine ⟨[s.current], ?_, by simp, by simpa using real, rfl⟩
  rw [held]
  simp [advance, held]

/-- Where nothing is ahead, the closing token is. -/
theorem Below.closing (h : s.Below 1) : s.current.kind = .eof := by
  have count := length_le_load s.rest
  have none : Grammar.load (s.rest.map Token.word) < 1 := h.load
  have empty : s.rest = [] := List.length_eq_zero_iff.1 (by omega)
  rw [current, empty]
  exact h.last

theorem rest_repeat (s : Stream) (k : Nat) :
    (Nat.repeat advance k s).rest = s.rest.drop k ∧ (Nat.repeat advance k s).last = s.last := by
  induction k with
  | zero => exact ⟨rfl, rfl⟩
  | succ k ih =>
    refine ⟨?_, ih.2⟩
    rw [Nat.repeat, ← List.drop_drop, ← ih.1, List.drop_one]
    rfl

def carets (s : Stream) : Nat := (s.rest.takeWhile fun token => token.kind = .caret).length

theorem past_carets (s : Stream) : s.Past 0 (Nat.repeat advance s.carets s) := by
  obtain ⟨rest, last⟩ := rest_repeat s s.carets
  have whole : (s.rest.takeWhile fun token => token.kind = .caret) ++
      (s.rest.dropWhile fun token => token.kind = .caret) = s.rest := List.takeWhile_append_dropWhile
  have behind : s.rest.drop s.carets = s.rest.dropWhile fun token => token.kind = .caret := by
    have cut := congrArg (List.drop s.carets) whole
    rw [← cut]
    exact List.drop_left
  refine ⟨s.rest.takeWhile fun token => token.kind = .caret, ?_, Nat.zero_le _, ?_, last⟩
  · rw [rest, behind, whole]
  · intro token mem closing
    have all : (s.rest.takeWhile fun token => token.kind = .caret).all
        (fun token => token.kind = .caret) = true := List.all_takeWhile
    have caret := List.all_eq_true.1 all token mem
    rw [closing] at caret
    exact absurd caret (by decide)

end Stream

variable {α β : Type} {n m : Nat} {s : Stream}

/-- Started at `s`, two readers do the same; if they succeed they have taken at least `k` tokens. -/
def Goes (k : Nat) (s : Stream) (reader reader' : Parse α) : Prop :=
  reader.run s = reader'.run s ∧ ∀ a t, reader.run s = .ok (a, t) → s.Past k t

def Stays (n : Nat) (reader reader' : Parse α) : Prop :=
  ∀ s : Stream, s.Below n → Goes 0 s reader reader'

/-- Two readers do the same wherever less than `n` is ahead, and take a token if they succeed. -/
def Spends (n : Nat) (reader reader' : Parse α) : Prop :=
  ∀ s : Stream, s.Below n → Goes 1 s reader reader'

/-- Two readers do the same wherever a token and less than `n` behind it are ahead, and take it. -/
def Enters (n : Nat) (reader reader' : Parse α) : Prop :=
  ∀ s : Stream, s.Below (n + 1) → s.current.kind ≠ .eof → Goes 1 s reader reader'

section rules
variable {reader reader' : Parse α} {next next' : α → Parse β} {j k : Nat}

theorem Goes.bind (h : Goes j s reader reader')
    (rest : ∀ a t, s.Past j t → Goes k t (next a) (next' a)) :
    Goes (j + k) s (reader >>= next) (reader' >>= next') := by
  obtain ⟨same, passes⟩ := h
  constructor
  · rw [StateT.run_bind, StateT.run_bind, ← same]
    cases ran : reader.run s with
    | error e => rfl
    | ok result => exact (rest result.1 result.2 (passes _ _ ran)).1
  · intro b u ran
    obtain ⟨a, t, first, second⟩ := run_bind_ok ran
    have past := passes a t first
    exact past.trans ((rest a t past).2 b u second)

theorem Goes.mono (h : Goes k s reader reader') (le : j ≤ k) : Goes j s reader reader' :=
  ⟨h.1, fun a t ran => (h.2 a t ran).mono le⟩

theorem Goes.symm (h : Goes k s reader reader') : Goes k s reader' reader :=
  ⟨h.1.symm, fun a t ran => h.2 a t (h.1.trans ran)⟩

theorem Goes.trans {reader'' : Parse α} (h : Goes k s reader reader')
    (next : Goes k s reader' reader'') : Goes k s reader reader'' := ⟨h.1.trans next.1, h.2⟩

theorem Goes.fails (h : ∀ a t, reader.run s ≠ .ok (a, t)) : Goes k s reader reader :=
  ⟨rfl, fun a t ran => absurd ran (h a t)⟩

theorem Stays.mono (h : Stays n reader reader') (le : m ≤ n) : Stays m reader reader' :=
  fun s room => h s (room.mono le)

theorem Spends.mono (h : Spends n reader reader') (le : m ≤ n) : Spends m reader reader' :=
  fun s room => h s (room.mono le)

theorem Spends.stays (h : Spends n reader reader') : Stays n reader reader' :=
  fun s room => (h s room).mono (Nat.zero_le _)

theorem stays_zero (reader reader' : Parse α) : Stays 0 reader reader' :=
  fun _ room => absurd room.load (Nat.not_lt_zero _)

theorem Stays.bind (h : Stays n reader reader') (rest : ∀ a, Stays n (next a) (next' a)) :
    Stays n (reader >>= next) (reader' >>= next') :=
  fun s room => (h s room).bind fun a t past => rest a t (past.ends room)

/-- What follows a reader that took a token has less ahead. -/
theorem Spends.bind (h : Spends (n + 1) reader reader') (rest : ∀ a, Stays n (next a) (next' a)) :
    Spends (n + 1) (reader >>= next) (reader' >>= next') :=
  fun s room => (h s room).bind fun a t past => rest a t (past.below room)

theorem Spends.then (h : Spends n reader reader') (rest : ∀ a, Stays n (next a) (next' a)) :
    Spends n (reader >>= next) (reader' >>= next') :=
  fun s room => (h s room).bind fun a t past => rest a t (past.ends room)

theorem Stays.spends (h : Stays n reader reader') (rest : ∀ a, Spends n (next a) (next' a)) :
    Spends n (reader >>= next) (reader' >>= next') :=
  fun s room => ((h s room).bind fun a t past => rest a t (past.ends room)).mono (by omega)

theorem Enters.bind (h : Enters n reader reader') (rest : ∀ a, Stays n (next a) (next' a)) :
    Enters n (reader >>= next) (reader' >>= next') :=
  fun s room real => (h s room real).bind fun a t past => rest a t (past.below room)

theorem goes_pure (a : α) : Goes 0 s (pure a) (pure a) := by
  refine ⟨rfl, ?_⟩
  rintro _ _ ⟨⟩
  exact .of_same rfl rfl

theorem Stays.pure (a : α) : Stays n (pure a) (pure a) := fun _ _ => goes_pure a

theorem Stays.get {next next' : Stream → Parse β} (h : ∀ s, Stays n (next s) (next' s)) :
    Stays n (get >>= next) (get >>= next') := fun s room => h s s room

theorem Stays.kind {next next' : TokenKind → Parse β}
    (h : ∀ kind, Stays n (next kind) (next' kind)) :
    Stays n (Parse.kind >>= next) (Parse.kind >>= next') := fun s room => h _ s room

theorem Stays.ahead {next next' : TokenKind → Parse β}
    (h : ∀ s, s.Below n → Goes 0 s (next s.current.kind) (next' s.current.kind)) :
    Stays n (Parse.kind >>= next) (Parse.kind >>= next') := h

theorem Goes.current {next next' : Token → Parse β}
    (h : Goes k s (next s.current) (next' s.current)) :
    Goes k s (Parse.current >>= next) (Parse.current >>= next') := h

theorem Goes.get {next next' : Stream → Parse β} (h : Goes k s (next s) (next' s)) :
    Goes k s (get >>= next) (get >>= next') := h

theorem Spends.kind {next next' : TokenKind → Parse β}
    (h : ∀ s, s.Below n → Goes 1 s (next s.current.kind) (next' s.current.kind)) :
    Spends n (Parse.kind >>= next) (Parse.kind >>= next') := h

theorem Enters.kind {next next' : TokenKind → Parse β}
    (h : ∀ s, s.Below (n + 1) → s.current.kind ≠ .eof →
      Goes 1 s (next s.current.kind) (next' s.current.kind)) :
    Enters n (Parse.kind >>= next) (Parse.kind >>= next') := h

theorem Spends.get {next next' : Stream → Parse β} (h : ∀ s, Spends n (next s) (next' s)) :
    Spends n (get >>= next) (get >>= next') := fun s room => h s s room

theorem Spends.place {next next' : Position → Parse β} (h : ∀ p, Spends n (next p) (next' p)) :
    Spends n (Parse.place >>= next) (Parse.place >>= next') := fun s room => h _ s room

end rules

section readers
variable {next next' : Token → Parse β}

theorem spends_unexpected : Spends n (Parse.unexpected : Parse α) Parse.unexpected :=
  fun _ _ => .fails nofun

theorem spends_unexpectedWith (message : String) :
    Spends n (Parse.unexpectedWith message : Parse α) (Parse.unexpectedWith message) :=
  fun _ _ => .fails nofun

theorem spends_fail (cause : Cause) (p : Position) :
    Spends n (Parse.fail cause p : Parse α) (Parse.fail cause p) := fun _ _ => .fails nofun

theorem enters_take : Enters n Parse.take Parse.take := by
  refine fun s room real => ⟨rfl, ?_⟩
  rintro _ _ ⟨⟩
  exact Stream.past_advance room.last real

/-- Takes a token of a kind, if it is ahead, and goes on where less is ahead. -/
theorem stays_takeIf_succ {wanted : TokenKind} (real : wanted ≠ .eof)
    {next next' : Token → Parse β} {other other' : Parse β}
    (h : ∀ token, Stays n (next token) (next' token)) (h' : Stays (n + 1) other other') :
    Stays (n + 1)
      (Parse.kind >>= fun kind => if kind = wanted then Parse.take >>= next else other)
      (Parse.kind >>= fun kind => if kind = wanted then Parse.take >>= next' else other') := by
  refine .ahead fun s room => ?_
  split
  · next same =>
    have taken := enters_take s (room.mono (Nat.le_succ _)) (same ▸ real)
    exact (taken.bind fun token t past => h token t (past.below room)).mono (Nat.zero_le _)
  · exact h' s room

theorem stays_takeIf {wanted : TokenKind} (real : wanted ≠ .eof) {next next' : Token → Parse β}
    {other other' : Parse β} (h : ∀ token, Stays n (next token) (next' token))
    (h' : Stays n other other') :
    Stays n (Parse.kind >>= fun kind => if kind = wanted then Parse.take >>= next else other)
      (Parse.kind >>= fun kind => if kind = wanted then Parse.take >>= next' else other') := by
  cases n with
  | zero => exact stays_zero _ _
  | succ n => exact stays_takeIf_succ real (fun token => (h token).mono (Nat.le_succ n)) h'

theorem stays_place : Stays n Parse.place Parse.place := by
  refine fun s room => ⟨rfl, ?_⟩
  rintro _ _ ⟨⟩
  exact .of_same rfl rfl

theorem stays_freshId : Stays n Parse.freshId Parse.freshId := by
  refine fun s room => ⟨rfl, ?_⟩
  rintro _ _ ⟨⟩
  exact .of_same rfl rfl

theorem stays_markFrom (start : Position) :
    Stays n (Parse.markFrom start) (Parse.markFrom start) := by
  refine fun s room => ⟨rfl, ?_⟩
  rintro _ _ ⟨⟩
  exact .of_same rfl rfl

theorem spends_expectWith {wanted : TokenKind} (real : wanted ≠ .eof) (message : String) :
    Spends n (Parse.expectWith wanted message) (Parse.expectWith wanted message) := by
  refine .kind fun s room => ?_
  split
  · next same => exact enters_take s (room.mono (Nat.le_succ n)) (same ▸ real)
  · exact spends_unexpectedWith message s room

theorem spends_expect {wanted : TokenKind} (real : wanted ≠ .eof) :
    Spends n (Parse.expect wanted) (Parse.expect wanted) := by
  refine .kind fun s room => ?_
  split
  · next same => exact enters_take s (room.mono (Nat.le_succ n)) (same ▸ real)
  · exact spends_unexpected s room

theorem stays_separator (close : TokenKind) (message : String) :
    Stays n (Parse.separator close message) (Parse.separator close message) := by
  refine .kind fun kind => ?_
  split
  · exact .pure _
  · exact (spends_expectWith (by decide) _).stays.bind fun _ => .pure _

theorem stays_itemsUntil {close : TokenKind} {item item' : List α → Parse α}
    (h : ∀ before, Stays n (item before) (item' before)) (fuel : Nat) (before : List α) :
    Stays n (Parse.itemsUntil close item fuel before)
      (Parse.itemsUntil close item' fuel before) := by
  induction fuel generalizing before with
  | zero => exact spends_unexpected.stays
  | succ fuel ih =>
    refine .kind fun kind => ?_
    split
    · exact .pure _
    · exact (h before).bind fun a => ih (a :: before)

theorem stays_itemsBefore {close : TokenKind} {item item' : List α → Parse α}
    (h : ∀ before, Stays n (item before) (item' before)) :
    Stays n (Parse.itemsBefore close item) (Parse.itemsBefore close item') :=
  .get fun _ => stays_itemsUntil h _ []

end readers

def typeOnce (inner : Parse Ty) : Parse Ty := do
  match ← Parse.kind with
  | .identifier => primitiveType
  | .openBracket => listType inner
  | .pipe => mapType inner
  | .less => literalType
  | _ => Parse.unexpectedWith "expected a type"

theorem typeWithin_succ (fuel : Nat) : typeWithin (fuel + 1) = typeOnce (typeWithin fuel) := rfl

theorem spends_primitiveType : Spends n primitiveType primitiveType := by
  refine (spends_expect (by decide)).then fun token => ?_
  split
  · exact .pure _
  · exact (spends_fail _ _).stays

theorem spends_literalMembers (fuel : Nat) (before : NameSet) :
    Spends n (literalMembers fuel before) (literalMembers fuel before) := by
  induction fuel generalizing before with
  | zero => exact spends_unexpected
  | succ fuel ih =>
    exact (spends_expectWith (by decide) _).then fun member =>
      stays_takeIf (by decide) (fun _ => (ih _).stays) (.pure _)

theorem spends_literalType : Spends n literalType literalType :=
  (spends_expect (by decide)).then fun _ => .get fun _ =>
    (spends_literalMembers _ _).stays.bind fun _ =>
    (spends_expectWith (by decide) _).stays.bind fun _ => .pure _

section types
variable {inner inner' : Parse Ty} (h : Stays n inner inner')
include h

theorem spends_listType : Spends (n + 1) (listType inner) (listType inner') :=
  (spends_expect (by decide)).bind fun _ => h.bind fun _ =>
    (spends_expectWith (by decide) _).stays.bind fun _ => .pure _

theorem spends_mapType : Spends (n + 1) (mapType inner) (mapType inner') :=
  (spends_expect (by decide)).bind fun _ => h.bind fun _ =>
    (spends_expectWith (by decide) _).stays.bind fun _ => h.bind fun _ =>
    (spends_expectWith (by decide) _).stays.bind fun _ => .pure _

/-- The parts of a type are read behind its first token. -/
theorem spends_typeOnce : Spends (n + 1) (typeOnce inner) (typeOnce inner') := by
  refine .kind fun s room => ?_
  split
  · exact spends_primitiveType s room
  · exact spends_listType h s room
  · exact spends_mapType h s room
  · exact spends_literalType s room
  · exact spends_unexpectedWith _ s room

end types

theorem spends_typeWithin (fuel : Nat) : Spends n (typeWithin fuel) (typeWithin fuel) := by
  induction fuel generalizing n with
  | zero => exact spends_unexpected
  | succ fuel ih => exact (spends_typeOnce ih.stays).mono (Nat.le_succ n)

theorem spends_type : Spends n type type := .get fun _ => spends_typeWithin _

theorem stays_returnType : Stays n returnType returnType :=
  stays_takeIf (by decide) (fun _ => spends_type.stays.bind fun _ => .pure _) (.pure _)

def exprOnce (expr : ExprReader) : ExprReader := fun outer => do
  let left ← operand expr
  climb expr outer (← get).limit left

theorem exprWithin_succ (fuel : Nat) : exprWithin (fuel + 1) = exprOnce (exprWithin fuel) := rfl

/-- Two readers of expressions do the same wherever less than `n` is ahead. -/
def StaysExprs (n : Nat) (expr expr' : ExprReader) : Prop :=
  ∀ outer, Stays n (expr outer) (expr' outer)

def SpendsExprs (n : Nat) (expr expr' : ExprReader) : Prop :=
  ∀ outer, Spends n (expr outer) (expr' outer)

theorem enters_atom : Enters n atom atom := by
  intro s room real
  refine ⟨rfl, fun e t ran => ?_⟩
  obtain ⟨token, _, got, ran⟩ := run_bind_ok ran
  cases got
  obtain ⟨id, u, fresh, ran⟩ := run_bind_ok ran
  cases fresh
  have took : s.Past 1 { s with nextId := s.nextId + 1 }.advance :=
    Stream.past_advance room.last real
  dsimp only at ran
  split at ran
  · split at ran <;> cases ran
    exact took
  · split at ran <;> cases ran
    exact took
  · cases ran
    exact took
  · cases ran
    exact took
  · cases ran
    exact took
  · split at ran <;> cases ran
    · exact took
    · exact took
  · cases ran
    exact took
  · cases ran

/-- An operator that binds tighter than what is around it is not the closing token. -/
theorem real_of_tight {kind : TokenKind} {outer : Power}
    (tight : ¬ (Power.ofToken kind).rank ≤ outer.rank) : kind ≠ .eof := by
  rintro rfl
  exact tight (Nat.zero_le _)

theorem spends_scopedSymbol : Spends n scopedSymbol scopedSymbol := by
  refine .place fun start s room => ?_
  have skipped : Goes 0 s (modify (Nat.repeat Stream.advance s.carets))
      (modify (Nat.repeat Stream.advance s.carets)) := by
    refine ⟨rfl, ?_⟩
    rintro _ _ ⟨⟩
    exact s.past_carets
  have named : Spends n
      (do let name ← Parse.expectWith .identifier "expected a variable name"
          return (⟨← Parse.markFrom start, name.value, s.carets⟩ : Symbol))
      (do let name ← Parse.expectWith .identifier "expected a variable name"
          return (⟨← Parse.markFrom start, name.value, s.carets⟩ : Symbol)) :=
    (spends_expectWith (by decide) _).then fun name => (stays_markFrom start).bind fun _ => .pure _
  exact (skipped.bind fun _ t past => named t (past.ends room)).mono (Nat.le_refl 1)

theorem enters_memberExpr : Enters n memberExpr memberExpr :=
  enters_take.bind fun _ => (spends_expectWith (by decide) _).stays.bind fun _ =>
    (spends_expectWith (by decide) _).stays.bind fun _ => (stays_markFrom _).bind fun _ => .pure _

section expressions
variable {expr expr' : ExprReader} (h : StaysExprs n expr expr')
include h

theorem enters_unaryExpr : Enters n (unaryExpr expr) (unaryExpr expr') :=
  enters_take.bind fun _ => (h _).bind fun _ => stays_freshId.bind fun _ => .pure _

theorem enters_grouping : Enters n (grouping expr) (grouping expr') :=
  enters_take.bind fun _ => (h _).bind fun _ => (spends_expectWith (by decide) _).stays.bind fun _ =>
    .pure _

theorem stays_exprList {close : TokenKind} (real : close ≠ .eof) :
    Stays n (exprList expr close) (exprList expr' close) := by
  refine (stays_itemsBefore fun _ => ?_).bind fun _ =>
    (spends_expect real).stays.bind fun _ => .pure _
  exact (h _).bind fun _ => (stays_separator _ _).bind fun _ => .pure _

theorem enters_listExpr : Enters n (listExpr expr) (listExpr expr') :=
  enters_take.bind fun _ => (stays_exprList h (by decide)).bind fun _ =>
    (stays_markFrom _).bind fun _ => .pure _

theorem stays_mapEntry : Stays n (mapEntry expr) (mapEntry expr') :=
  (h _).bind fun _ => (spends_expectWith (by decide) _).stays.bind fun _ => (h _).bind fun _ =>
    (stays_separator _ _).bind fun _ => .pure _

theorem enters_mapExpr : Enters n (mapExpr expr) (mapExpr expr') :=
  enters_take.bind fun _ => (stays_itemsBefore fun _ => stays_mapEntry h).bind fun _ =>
    (spends_expect (by decide)).stays.bind fun _ => (stays_markFrom _).bind fun _ => .pure _

/-- What is embedded in a text is read from its own tokens, of which there are fewer than `n`. -/
theorem goes_fragment {source : List Char} (room : source.length < n) (start : Position)
    (s : Stream) : Goes 0 s (fragment expr source start) (fragment expr' source start) := by
  refine ⟨?_, fun e t ran => ?_⟩
  · cases scanned : Token.scan start source with
    | error e =>
      unfold fragment
      rw [scanned]
      rfl
    | ok tokens =>
      obtain ⟨_, words, _, inside, is, _⟩ := exists_words_scan scanned start
      have faces := Stream.faces_ofTokens start.file s.nextId is
      have below : (Stream.ofTokens tokens start.file s.nextId).Below n := by
        refine ⟨faces.last, ?_⟩
        rw [Stream.load, faces.ahead]
        omega
      have opened : ∀ expr : ExprReader, (fragment expr source start).run s =
          (do let inner ← expr .loosest
              if (← Parse.kind) ≠ .eof then
                Parse.unexpectedWith "expected `\x7d` after embedded expression"
              set { s with nextId := (← get).nextId }
              return inner : Parse Expr).run (Stream.ofTokens tokens start.file s.nextId) := by
        intro expr
        unfold fragment
        rw [scanned]
        rfl
      rw [opened, opened, StateT.run_bind, StateT.run_bind, (h .loosest _ below).1]
  · obtain ⟨_, _, _, _, _, rfl⟩ := run_fragment.1 ran
    exact .of_same rfl rfl

theorem goes_interpolationParts (start : Position) : ∀ (parts : List Piece) (s : Stream),
    (∀ source place, .code source place ∈ parts → source.length < n) →
    Goes 0 s (interpolationParts expr start parts) (interpolationParts expr' start parts)
  | [], s, _ => goes_pure _
  | .chars raw :: rest, s, room => by
    have others := goes_interpolationParts start rest s fun source place later =>
      room source place (.tail _ later)
    unfold interpolationParts
    split
    · exact others.bind fun parts t _ => goes_pure _
    · exact .fails nofun
  | .code source place :: rest, s, room => by
    have inner := goes_fragment h (room source place (.head _)) place s
    have others := fun t => goes_interpolationParts start rest t fun source place later =>
      room source place (.tail _ later)
    exact inner.bind fun e t _ => (others t).bind fun parts u _ => goes_pure _
  | .unclosed raw place :: rest, s, _ => .fails nofun

theorem goes_interpolation (room : s.Below (n + 1)) (kind : s.current.kind = .interpolation) :
    Goes 1 s (interpolation expr) (interpolation expr') := by
  have real : s.current.kind ≠ .eof := by simp [kind]
  have inside : s.current.value.toList.length < n := by
    obtain ⟨rest, ahead⟩ := Stream.exists_cons_of_real room.last real
    have bound : Grammar.load (s.rest.map Token.word) < n + 1 := room.load
    rw [ahead, List.map_cons, Grammar.load] at bound
    simp only [Token.word, kind, if_true] at bound
    rw [String.length_toList]
    omega
  have took : s.Past 1 s.advance := Stream.past_advance room.last real
  have parts := goes_interpolationParts h s.current.span.start
    (pieces (s.current.span.start.advance '\x60') [] s.current.value.toList) s.advance
    fun source place mem => Nat.lt_trans (length_code_lt mem) inside
  have made := parts.bind fun parts t past => (stays_freshId t (past.ends (took.below room))).bind
    fun id u _ => @goes_pure _ u (Expr.interpolation ⟨id, s.current.span⟩ parts)
  exact ⟨made.1, fun e t ran => (took.trans (made.2 e t ran)).mono (Nat.le_refl 1)⟩

theorem spends_operand : Spends (n + 1) (operand expr) (operand expr') := by
  refine .kind fun s room => ?_
  split
  iterate 7 next ahead => exact enters_atom s (room.mono (Nat.le_succ _)) (by simp [ahead])
  · exact (spends_scopedSymbol.then fun _ => .pure _) s room
  · next ahead => exact goes_interpolation h room ahead
  · next ahead => exact enters_memberExpr s (room.mono (Nat.le_succ _)) (by simp [ahead])
  · next ahead => exact enters_listExpr h s room (by simp [ahead])
  · next ahead => exact enters_mapExpr h s room (by simp [ahead])
  · next ahead => exact enters_unaryExpr h s room (by simp [ahead])
  · next ahead => exact enters_unaryExpr h s room (by simp [ahead])
  · next ahead => exact enters_grouping h s room (by simp [ahead])
  · exact spends_unexpected s room

variable {left : Expr}

theorem enters_callExpr : Enters n (callExpr expr left) (callExpr expr' left) := by
  unfold callExpr
  split
  · exact enters_take.bind fun _ => (stays_exprList h (by decide)).bind fun _ =>
      (stays_markFrom _).bind fun _ => .pure _
  · exact fun s room _ => (spends_unexpectedWith _).mono (Nat.le_succ _) s room

theorem enters_indexExpr : Enters n (indexExpr expr left) (indexExpr expr' left) :=
  enters_take.bind fun _ => (h _).bind fun _ => (spends_expectWith (by decide) _).stays.bind fun _ =>
    (stays_markFrom _).bind fun _ => .pure _

theorem enters_binaryExpr : Enters n (binaryExpr expr left) (binaryExpr expr' left) :=
  enters_take.bind fun _ => (h _).bind fun _ => stays_freshId.bind fun _ => .pure _

theorem enters_continuation : Enters n (continuation expr left) (continuation expr' left) := by
  refine .kind fun s room real => ?_
  split
  · exact enters_callExpr h s room real
  · exact enters_indexExpr h s room real
  · exact enters_binaryExpr h s room real

theorem stays_climb (outer : Power) (fuel : Nat) (left : Expr) :
    Stays (n + 1) (climb expr outer fuel left) (climb expr' outer fuel left) := by
  induction fuel generalizing left with
  | zero => exact spends_unexpected.stays
  | succ fuel ih =>
    refine .ahead fun s room => ?_
    split
    · exact goes_pure _
    · next tight =>
      have first : Goes 1 s (continuation expr left) (continuation expr' left) :=
        enters_continuation h s room (real_of_tight tight)
      exact (first.bind fun e t past => ih e t (past.ends room)).mono (Nat.zero_le _)

theorem spends_exprOnce (outer : Power) :
    Spends (n + 1) (exprOnce expr outer) (exprOnce expr' outer) :=
  (spends_operand h).then fun left => .get fun _ => stays_climb h outer _ left

end expressions

theorem spends_exprWithin (fuel : Nat) : SpendsExprs n (exprWithin fuel) (exprWithin fuel) := by
  induction fuel generalizing n with
  | zero => exact fun _ => spends_unexpected
  | succ fuel ih =>
    exact fun outer => (spends_exprOnce (fun outer => (ih outer).stays) outer).mono (Nat.le_succ n)

section statements
variable {expr expr' : ExprReader} {stmt stmt' : Parse Stmt}

section plain
variable (h : StaysExprs n expr expr')
include h

theorem enters_declareStmt : Enters n (declareStmt expr) (declareStmt expr') :=
  enters_take.bind fun _ => (spends_expectWith (by decide) _).stays.bind fun _ =>
    (spends_expectWith (by decide) _).stays.bind fun _ => spends_type.stays.bind fun _ =>
    (spends_expectWith (by decide) _).stays.bind fun _ => (h _).bind fun _ =>
    (spends_expect (by decide)).stays.bind fun _ => (stays_markFrom _).bind fun _ => .pure _

theorem spends_assignStmt : Spends (n + 1) (assignStmt expr) (assignStmt expr') := by
  refine .place fun start => spends_scopedSymbol.bind fun target s room => .current ?_
  dsimp only
  split
  · exact ⟨rfl, nofun⟩
  · next fits =>
    have real : s.current.kind ≠ .eof := by
      intro closing
      rw [closing] at fits
      exact fits (by decide)
    have taken := enters_take s (room.mono (Nat.le_succ n)) real
    have value : Stays n
        (do let value ← expr .loosest
            let _ ← Parse.expect .semicolon
            return Stmt.assign (← Parse.markFrom start) target s.current value)
        (do let value ← expr' .loosest
            let _ ← Parse.expect .semicolon
            return Stmt.assign (← Parse.markFrom start) target s.current value) :=
      (h _).bind fun _ => (spends_expect (by decide)).stays.bind fun _ =>
        (stays_markFrom _).bind fun _ => .pure _
    exact (taken.bind fun _ t past => value t (past.ends room)).mono (Nat.zero_le _)

theorem enters_commandStmt : Enters n (commandStmt expr) (commandStmt expr') := by
  refine enters_take.bind fun name => (stays_itemsBefore fun _ => ?_).bind fun _ =>
    (stays_markFrom _).bind fun _ => (spends_expect (by decide)).stays.bind fun _ =>
    (stays_markFrom _).bind fun _ => .pure _
  exact (h _).bind fun _ => (stays_separator _ _).bind fun _ => .pure _

theorem enters_returnStmt : Enters n (returnStmt expr) (returnStmt expr') := by
  refine enters_take.bind fun token => .kind fun kind => ?_
  have finish : ∀ value : Option Expr, Stays n
      (do let _ ← Parse.expect .semicolon
          return Stmt.ret (← Parse.markFrom token.span.start) value)
      (do let _ ← Parse.expect .semicolon
          return Stmt.ret (← Parse.markFrom token.span.start) value) := fun value =>
    (spends_expect (by decide)).stays.bind fun _ => (stays_markFrom _).bind fun _ => .pure _
  dsimp only
  split
  · exact (Stays.pure _).bind fun value => finish value
  · exact (h _).bind fun e => (Stays.pure _).bind fun value => finish value

end plain

/-- A statement that starts with an expression takes a token only if the expression does. -/
theorem spends_expressionStmt (h : SpendsExprs n expr expr') :
    Spends n (expressionStmt expr) (expressionStmt expr') :=
  (h _).then fun _ => (spends_expect (by decide)).stays.bind fun _ =>
    (stays_markFrom _).bind fun _ => .pure _

theorem goes_namedStmt (h : SpendsExprs (n + 1) expr expr') (room : s.Below (n + 1))
    (real : s.current.kind ≠ .eof) : Goes 1 s (namedStmt expr) (namedStmt expr') := by
  have below : StaysExprs n expr expr' := fun outer => ((h outer).mono (Nat.le_succ n)).stays
  refine .get ?_
  dsimp only
  split
  · exact spends_assignStmt below s room
  · split
    · exact spends_expressionStmt h s room
    · exact enters_commandStmt below s room real

theorem enters_breakStmt : Enters n breakStmt breakStmt :=
  enters_take.bind fun _ => (spends_expect (by decide)).stays.bind fun _ =>
    (stays_markFrom _).bind fun _ => .pure _

theorem enters_continueStmt : Enters n continueStmt continueStmt :=
  enters_take.bind fun _ => (spends_expect (by decide)).stays.bind fun _ =>
    (stays_markFrom _).bind fun _ => .pure _

theorem spends_parameter (before : List Parameter) :
    Spends n (parameter before) (parameter before) := by
  refine (spends_expectWith (by decide) _).then fun name =>
    (spends_expectWith (by decide) _).stays.bind fun _ => spends_type.stays.bind fun type => ?_
  dsimp only
  split
  · exact (spends_fail _ _).stays.bind fun _ => (stays_markFrom _).bind fun _ =>
      (stays_separator _ _).bind fun _ => .pure _
  · exact (stays_markFrom _).bind fun _ => (stays_separator _ _).bind fun _ => .pure _

theorem stays_parameters : Stays n parameters parameters :=
  (spends_expect (by decide)).stays.bind fun _ =>
    (stays_itemsBefore fun before => (spends_parameter before).stays).bind fun _ =>
    (spends_expect (by decide)).stays.bind fun _ => .pure _

section nested
variable (body : Stays n stmt stmt')
include body

theorem stays_guarded : Stays n
    (do if (← Parse.kind) = .eof then Parse.unexpectedWith "expected `\x7d` to close the block"
        stmt)
    (do if (← Parse.kind) = .eof then Parse.unexpectedWith "expected `\x7d` to close the block"
        stmt') := by
  refine .kind fun kind => ?_
  dsimp only
  split
  · exact (spends_unexpectedWith _).stays.bind fun _ => body
  · exact body

theorem spends_block : Spends (n + 1) (block stmt) (block stmt') :=
  (spends_expectWith (by decide) _).bind fun _ =>
    (stays_itemsBefore fun _ => stays_guarded body).bind fun _ =>
    (spends_expect (by decide)).stays.bind fun _ => (stays_markFrom _).bind fun _ => .pure _

theorem stays_block : Stays n (block stmt) (block stmt') :=
  ((spends_block body).mono (Nat.le_succ n)).stays

theorem enters_functionStmt : Enters n (functionStmt stmt) (functionStmt stmt') :=
  enters_take.bind fun _ => (spends_expectWith (by decide) _).stays.bind fun _ =>
    stays_parameters.bind fun _ => stays_returnType.bind fun _ => (stays_block body).bind fun _ =>
    (stays_markFrom _).bind fun _ => .pure _

variable (h : StaysExprs n expr expr')
include h

theorem enters_branchStmt : Enters n (branchStmt expr stmt) (branchStmt expr' stmt') := by
  refine enters_take.bind fun token => (h _).bind fun e => (stays_block body).bind fun b => ?_
  have finish : ∀ other : Option Stmt, Stays n
      (do return Stmt.branch (← Parse.markFrom token.span.start) e b other)
      (do return Stmt.branch (← Parse.markFrom token.span.start) e b other) := fun other =>
    (stays_markFrom _).bind fun _ => .pure _
  dsimp only
  refine stays_takeIf (by decide) (fun _ => .kind fun kind => ?_) ((Stays.pure _).bind finish)
  split
  · exact body.bind fun s => (Stays.pure _).bind finish
  · exact (stays_block body).bind fun b => (Stays.pure _).bind finish

theorem enters_whileStmt : Enters n (whileStmt expr stmt) (whileStmt expr' stmt') :=
  enters_take.bind fun _ => (h _).bind fun _ => (stays_block body).bind fun _ =>
    (stays_markFrom _).bind fun _ => .pure _

theorem enters_repeatStmt : Enters n (repeatStmt expr stmt) (repeatStmt expr' stmt') :=
  enters_take.bind fun _ => (h _).bind fun _ => (stays_block body).bind fun _ =>
    (stays_markFrom _).bind fun _ => .pure _

end nested

/-- The statements inside a statement are read behind its first token. -/
theorem spends_statement (h : SpendsExprs (n + 1) expr expr') (body : Stays n stmt stmt') :
    Spends (n + 1) (statement expr stmt) (statement expr' stmt') := by
  have below : StaysExprs n expr expr' := fun outer => ((h outer).mono (Nat.le_succ n)).stays
  refine .kind fun s room => ?_
  split
  · next ahead => exact enters_declareStmt below s room (by simp [ahead])
  · next ahead => exact goes_namedStmt h room (by simp [ahead])
  · exact spends_assignStmt below s room
  · next ahead => exact enters_branchStmt body below s room (by simp [ahead])
  · next ahead => exact enters_whileStmt body below s room (by simp [ahead])
  · next ahead => exact enters_repeatStmt body below s room (by simp [ahead])
  · exact ((spends_block body).then fun _ => .pure _) s room
  · next ahead => exact enters_functionStmt body s room (by simp [ahead])
  · next ahead => exact enters_returnStmt below s room (by simp [ahead])
  · next ahead => exact enters_breakStmt s (room.mono (Nat.le_succ _)) (by simp [ahead])
  · next ahead => exact enters_continueStmt s (room.mono (Nat.le_succ _)) (by simp [ahead])
  · exact spends_expressionStmt h s room

end statements

theorem spends_stmtWithin (fuel : Nat) : Spends n (stmtWithin fuel) (stmtWithin fuel) := by
  induction fuel generalizing n with
  | zero => exact spends_unexpected
  | succ fuel ih => exact (spends_statement (spends_exprWithin fuel) ih.stays).mono (Nat.le_succ n)

end CursorScript.Grammar
