import CursorScript.Proofs.Lexemes
import CursorScript.Proofs.RoundTrip

/-!
Reading the same words again. What a reader of expressions makes of some words it makes of them
wherever they stand, but for identities and places: with other words behind them that do not go on
with the expression, and with any bound on nesting that leaves room for what the words themselves
can nest. So an expression that was read on its own is read in every place where it is written.
-/
namespace CursorScript

/-- An interpolated text is longer than what stands between its quotes. -/
theorem Lexeme.length_of_denotes {kind : TokenKind} {lexeme : List Char} {value : String}
    (h : Denotes kind lexeme value) (interpolated : kind = .interpolation) :
    value.length < lexeme.length := by
  have quoted : kind.isPlain = false := by
    rw [interpolated]
    rfl
  cases h with
  | interpolation =>
    simp only [String.length_ofList, List.length_append, List.length_cons]
    omega
  | word => simp [TokenKind.isPlain_ofWord] at quoted
  | spelling listed => simp [TokenKind.isPlain_of_spelling listed] at quoted
  | _ => cases interpolated

abbrev Expr.bareParts (parts : List (Part Expr)) : List (Part Expr) :=
  Expr.remarkParts (fun _ => ⟨0, .nowhere⟩) parts

namespace Grammar

/-- How deep expressions can be nested in words: each of them takes a word, or a character of an
interpolated text. -/
def load : List Word → Nat
  | [] => 0
  | word :: rest => (if word.1 = .interpolation then word.2.length else 0) + 1 + load rest

theorem load_append (words more : List Word) : load (words ++ more) = load words + load more := by
  induction words with
  | nil => simp [load]
  | cons word rest ih =>
    rw [List.cons_append, load, load, ih]
    omega

theorem load_lt_cons (word : Word) (more : List Word) : load more < load (word :: more) := by
  rw [load]
  omega

theorem load_words_le (tokens : List Token) : load (tokens.map Token.word) ≤ weight tokens := by
  induction tokens with
  | nil => exact Nat.le_refl _
  | cons token rest ih =>
    simp only [List.map_cons, load, weight, Token.word]
    split <;> omega

theorem load_drop_le (words : List Word) (n : Nat) : load (words.drop n) ≤ load words := by
  have whole := congrArg load (List.take_append_drop n words)
  rw [load_append] at whole
  omega

theorem Stream.Faces.load_lt {s : Stream} {words more : List Word} (h : s.Faces (words ++ more)) :
    load words < s.limit := by
  have weighed := load_words_le s.rest
  have bounded := s.weight_lt
  rw [h.ahead, load_append] at weighed
  omega

/-- The words of a text can nest no more than it has characters. -/
theorem load_le_of_cut {file : String} {rest before text : List Char} {body : List Token}
    (cut : Token.Cut file rest before text body) : load (body.map Token.word) ≤ text.length := by
  induction cut with
  | done => exact Nat.zero_le _
  | @token before gap lexeme text t ts blank denotes spans more ih =>
    have nonempty : lexeme ≠ [] :=
      (Lexeme.faithful_first? _ _ _ (Lexeme.first?_of_denotes denotes)).2
    have positive := List.length_pos_iff.2 nonempty
    have longer := Lexeme.length_of_denotes denotes
    simp only [List.map_cons, load, Token.word, List.length_append]
    split
    · next interpolated =>
      have := longer interpolated
      omega
    · omega

/-- Before `words` the reader gives no result. -/
def Refuses {α : Type} (words : List Word) (reader : Parse α) : Prop :=
  ∀ s a t, s.Faces words → reader.run s ≠ .ok (a, t)

/-- What `reader` reads from `words` alone, `reader'` reads from them with `extra` behind them. Both
stop before the same words, and `post` says what these have to do with the two results. -/
def Replays {α : Type} (extra words : List Word) (reader reader' : Parse α)
    (post : List Word → α → α → Prop) : Prop :=
  ∀ s s' a t, s.Faces words → s'.Faces (words ++ extra) → reader.run s = .ok (a, t) →
    ∃ a' t' more, reader'.run s' = .ok (a', t') ∧ t.Faces more ∧ t'.Faces (more ++ extra) ∧
      post more a a'

section rules
variable {α β : Type} {extra words more : List Word} {word : Word} {reader reader' : Parse α}
  {next next' : α → Parse β} {mid : List Word → α → α → Prop}
  {post post' : List Word → β → β → Prop}

theorem run_bind_of_ok {s u : Stream} {a : α} (h : reader.run s = .ok (a, u)) :
    (reader >>= next).run s = (next a).run u := by
  rw [StateT.run_bind, h]
  rfl

theorem run_kind (s : Stream) : Parse.kind.run s = .ok (s.current.kind, s) := rfl

theorem run_take (s : Stream) : Parse.take.run s = .ok (s.current, s.advance) := rfl

theorem Refuses.bind (h : Refuses words reader) : Refuses words (reader >>= next) := by
  intro s b t faces ran
  obtain ⟨a, u, first, _⟩ := run_bind_ok ran
  exact h s a u faces first

theorem refuses_unexpected : Refuses words (Parse.unexpected : Parse β) :=
  fun _ _ _ _ ran => nomatch ran

theorem refuses_unexpectedWith {message : String} :
    Refuses words (Parse.unexpectedWith message : Parse β) := fun _ _ _ _ ran => nomatch ran

theorem refuses_kind {next : TokenKind → Parse β} (h : Refuses words (next (headKind words))) :
    Refuses words (Parse.kind >>= next) := by
  intro s b t faces ran
  refine h s b t faces ?_
  rw [← faces.kind]
  exact ran

theorem Refuses.replays {reader reader' : Parse β} (h : Refuses words reader) :
    Replays extra words reader reader' post :=
  fun s _ a t faces _ ran => absurd ran (h s a t faces)

theorem Replays.bind (h : Replays extra words reader reader' mid)
    (rest : ∀ more a a', mid more a a' → Replays extra more (next a) (next' a') post) :
    Replays extra words (reader >>= next) (reader' >>= next') post := by
  intro s s' b t faces faces' ran
  obtain ⟨a, u, first, second⟩ := run_bind_ok ran
  obtain ⟨a', u', more, first', ahead, ahead', same⟩ := h s s' a u faces faces' first
  obtain ⟨b', t', last, second', result⟩ := rest more a a' same u u' b t ahead ahead' second
  refine ⟨b', t', last, ?_, result⟩
  rw [StateT.run_bind, first']
  exact second'

theorem Replays.pure {b b' : β} (h : post words b b') :
    Replays extra words (pure b) (pure b') post := by
  intro s s' a t faces faces' ran
  cases ran
  exact ⟨b', s', words, rfl, faces, faces', h⟩

theorem Replays.pure_bind {a a' : α} (h : Replays extra words (next a) (next' a') post) :
    Replays extra words (Pure.pure a >>= next) (Pure.pure a' >>= next') post := by
  rwa [LawfulMonad.pure_bind, LawfulMonad.pure_bind]

theorem Replays.imp {reader reader' : Parse β} (h : Replays extra words reader reader' post)
    (weaker : ∀ more b b', post more b b' → post' more b b') :
    Replays extra words reader reader' post' := by
  intro s s' b t faces faces' ran
  obtain ⟨b', t', more, ran', ahead, ahead', result⟩ := h s s' b t faces faces' ran
  exact ⟨b', t', more, ran', ahead, ahead', weaker more b b' result⟩

theorem Replays.get_bind {next next' : Stream → Parse β}
    (h : ∀ s s', s.Faces words → s'.Faces (words ++ extra) →
      Replays extra words (next s) (next' s') post) :
    Replays extra words (get >>= next) (get >>= next') post :=
  fun s s' b t faces faces' ran => h s s' faces faces' s s' b t faces faces' ran

/-- Before a word both readers see its kind. -/
theorem replays_kind {next next' : TokenKind → Parse β}
    (h : Replays extra (word :: more) (next word.1) (next' word.1) post) :
    Replays extra (word :: more) (Parse.kind >>= next) (Parse.kind >>= next') post := by
  intro s s' b t faces faces' ran
  refine h s s' b t faces faces' ?_ |>.imp fun b' => ?_
  · rw [← show s.current.kind = word.1 from faces.kind]
    exact ran
  · rintro ⟨t', last, ran', result⟩
    refine ⟨t', last, ?_, result⟩
    rw [← ran', ← show s'.current.kind = word.1 from faces'.kind]
    rfl

theorem replays_current :
    Replays extra (word :: more) Parse.current Parse.current fun more' t t' =>
      word :: more = more' ∧ t.word = word ∧ t'.word = word := by
  intro s s' token t faces faces' ran
  cases ran
  exact ⟨_, s', _, rfl, faces, faces', rfl, faces.current, faces'.current⟩

theorem replays_take :
    Replays extra (word :: more) Parse.take Parse.take fun more' t t' =>
      more = more' ∧ t.word = word ∧ t'.word = word := by
  intro s s' token t faces faces' ran
  cases ran
  exact ⟨_, s'.advance, more, rfl, faces.advance, faces'.advance, rfl, faces.current,
    faces'.current⟩

theorem replays_place :
    Replays extra words Parse.place Parse.place fun more' _ _ => words = more' := by
  intro s s' token t faces faces' ran
  cases ran
  exact ⟨_, s', words, rfl, faces, faces', rfl⟩

theorem replays_freshId :
    Replays extra words Parse.freshId Parse.freshId fun more' _ _ => words = more' := by
  intro s s' id t faces faces' ran
  cases ran
  exact ⟨_, _, words, rfl, ⟨faces.ahead, faces.last⟩, ⟨faces'.ahead, faces'.last⟩, rfl⟩

theorem replays_markFrom (start start' : Position) :
    Replays extra words (Parse.markFrom start) (Parse.markFrom start')
      fun more' _ _ => words = more' := by
  intro s s' id t faces faces' ran
  cases ran
  exact ⟨_, _, words, rfl, ⟨faces.ahead, faces.last⟩, ⟨faces'.ahead, faces'.last⟩, rfl⟩

theorem replays_expectWith {wanted : TokenKind} (message : String) (proper : wanted ≠ .eof) :
    Replays extra words (Parse.expectWith wanted message) (Parse.expectWith wanted message)
      fun more' t t' => load more' < load words ∧ t.word = t'.word := by
  cases words with
  | nil =>
    refine (refuses_kind ?_).replays
    rw [if_neg (show headKind [] ≠ wanted from proper.symm)]
    exact refuses_unexpectedWith
  | cons word more =>
    refine replays_kind ?_
    split
    · refine replays_take.imp ?_
      rintro _ t t' ⟨rfl, is, is'⟩
      exact ⟨load_lt_cons _ _, is.trans is'.symm⟩
    · exact refuses_unexpectedWith.replays

theorem replays_expect {wanted : TokenKind} (proper : wanted ≠ .eof) :
    Replays extra words (Parse.expect wanted) (Parse.expect wanted)
      fun more' _ _ => load more' < load words := by
  cases words with
  | nil =>
    refine (refuses_kind ?_).replays
    rw [if_neg (show headKind [] ≠ wanted from proper.symm)]
    exact refuses_unexpected
  | cons word more =>
    refine replays_kind ?_
    split
    · refine replays_take.imp ?_
      rintro _ t t' ⟨rfl, _⟩
      exact load_lt_cons _ _
    · exact refuses_unexpected.replays

theorem replays_separator {close : TokenKind} (message : String) (proper : close ≠ .eof) :
    Replays extra words (Parse.separator close message) (Parse.separator close message)
      fun more' _ _ => load more' ≤ load words := by
  have comma : Replays extra words
      (do let _ ← Parse.expectWith .comma message) (do let _ ← Parse.expectWith .comma message)
      fun more' _ _ => load more' ≤ load words := by
    refine (replays_expectWith message ?_).bind fun more' _ _ fewer => .pure ?_
    · decide
    · exact Nat.le_of_lt fewer.1
  cases words with
  | nil =>
    refine (refuses_kind ?_).replays
    rw [if_neg (show headKind [] ≠ close from proper.symm)]
    exact Refuses.bind (refuses_kind refuses_unexpectedWith)
  | cons word more =>
    refine replays_kind ?_
    split
    · exact .pure (Nat.le_refl _)
    · exact comma

/-- Items that take at least one word each are read again, as there is room for as many items as
there are words. -/
theorem replays_itemsUntil {γ : Type} {view : α → γ} {close : TokenKind} (proper : close ≠ .eof)
    {item item' : Parse α} {n : Nat}
    (items : ∀ words, load words ≤ n → Replays extra words item item' fun more' a a' =>
      load more' < load words ∧ view a' = view a)
    (closed : Refuses [] item) (fuel fuel' : Nat) {words : List Word} {before before' : List α}
    (room : load words ≤ n) (enough : load words < fuel')
    (same : before'.map view = before.map view) :
    Replays extra words (Parse.itemsUntil close (fun _ => item) fuel before)
      (Parse.itemsUntil close (fun _ => item') fuel' before')
      fun more' all all' => load more' ≤ load words ∧ all'.map view = all.map view := by
  induction fuel generalizing fuel' words before before' with
  | zero => exact refuses_unexpected.replays
  | succ fuel ih =>
    obtain ⟨fuel', rfl⟩ := Nat.exists_eq_succ_of_ne_zero (Nat.ne_of_gt (Nat.zero_lt_of_lt enough))
    cases words with
    | nil =>
      refine (refuses_kind ?_).replays
      rw [if_neg (show headKind [] ≠ close from proper.symm)]
      exact closed.bind
    | cons word more =>
      refine replays_kind ?_
      split
      · exact .pure ⟨Nat.le_refl _, by rw [List.map_reverse, List.map_reverse, same]⟩
      · refine (items _ room).bind fun more' a a' ⟨fewer, alike⟩ => ?_
        -- The item has taken a word, so the other reading still has more fuel than words.
        refine (ih fuel' (by omega) (by omega) ?_).imp fun _ _ _ ⟨left, all⟩ => ⟨by omega, all⟩
        rw [List.map_cons, List.map_cons, alike, same]

theorem replays_itemsBefore {γ : Type} (view : α → γ) {close : TokenKind} (proper : close ≠ .eof)
    {item item' : Parse α} {n : Nat}
    (items : ∀ words, load words ≤ n → Replays extra words item item' fun more' a a' =>
      load more' < load words ∧ view a' = view a)
    (closed : Refuses [] item) (room : load words ≤ n) :
    Replays extra words (Parse.itemsBefore close fun _ => item)
      (Parse.itemsBefore close fun _ => item')
      fun more' all all' => load more' ≤ load words ∧ all'.map view = all.map view :=
  .get_bind fun _ _ _ faces' => replays_itemsUntil proper items closed _ _ room faces'.load_lt rfl

end rules

/-- Two readings of some words give the same expression, but for identities and places, and take at
least one word. -/
abbrev SameTree (words more : List Word) (e e' : Expr) : Prop :=
  load more < load words ∧ e'.bare = e.bare

/-- What one reader of expressions reads, another reads again where words nest at most `n` deep. -/
def Rereads (n : Nat) (expr expr' : ExprReader) : Prop :=
  ∀ extra outer words, pull extra = 0 → load words ≤ n →
    Replays extra words (expr outer) (expr' outer) (SameTree words)

theorem replays_atom {extra : List Word} (word : Word) (more : List Word) :
    Replays extra (word :: more) atom atom (SameTree (word :: more)) := by
  refine replays_current.bind ?_
  rintro _ token token' ⟨rfl, is, is'⟩
  refine replays_freshId.bind ?_
  rintro _ id id' rfl
  obtain ⟨kind, value, span⟩ := token
  obtain ⟨kind', value', span'⟩ := token'
  obtain ⟨rfl, rfl⟩ := Prod.mk.inj (is.trans is'.symm)
  have taken : ∀ e e' : Expr, e'.bare = e.bare →
      Replays extra (word :: more) (do let _ ← Parse.take; return e)
        (do let _ ← Parse.take; return e') (SameTree (word :: more)) := by
    intro e e' same
    refine replays_take.bind ?_
    rintro _ _ _ ⟨rfl, _⟩
    exact .pure ⟨load_lt_cons _ _, same⟩
  have refused : ∀ {α : Type} {next next' : α → Parse Expr} (cause : Cause) (p p' : Position),
      Replays extra (word :: more) (Parse.fail cause p >>= next) (Parse.fail cause p' >>= next')
        (SameTree (word :: more)) := fun _ _ _ _ _ _ _ _ _ ran => nomatch ran
  cases kind <;> dsimp only <;> try exact (Refuses.bind refuses_unexpected).replays
  case number =>
    split
    · exact .pure_bind (taken _ _ rfl)
    · exact refused _ _ _
  case real =>
    split
    · exact .pure_bind (taken _ _ rfl)
    · exact refused _ _ _
  case material => split <;> exact .pure_bind (taken _ _ rfl)
  all_goals exact .pure_bind (taken _ _ rfl)

theorem replays_skip {extra words : List Word} (n : Nat) (fits : n ≤ words.length) :
    Replays extra words (modify (Nat.repeat Stream.advance n))
      (modify (Nat.repeat Stream.advance n))
      fun more' _ _ => words.drop n = more' := by
  intro s s' _ t faces faces' ran
  cases ran
  refine ⟨_, _, _, rfl, faces.repeat n, ?_, rfl⟩
  have rest := faces'.repeat n
  rwa [List.drop_append_of_le_length fits] at rest

/-- Carets are followed by a name, so there are no more of them in what stands behind. -/
theorem replays_scopedSymbol {extra : List Word} (words : List Word) :
    Replays extra words scopedSymbol scopedSymbol fun more' s s' =>
      load more' < load words ∧ (Expr.symbol s').bare = (Expr.symbol s).bare := by
  refine replays_place.bind ?_
  rintro _ start start' rfl
  refine .get_bind fun s s' faces faces' => ?_
  rw [length_takeWhile_caret, length_takeWhile_caret, faces.ahead, faces'.ahead]
  have named : ∀ up : Nat, up ≤ words.length →
      Replays extra words
        (do modify (Nat.repeat Stream.advance up)
            let name ← Parse.expectWith .identifier "expected a variable name"
            return (⟨← Parse.markFrom start, name.value, up⟩ : Symbol))
        (do modify (Nat.repeat Stream.advance up)
            let name ← Parse.expectWith .identifier "expected a variable name"
            return (⟨← Parse.markFrom start', name.value, up⟩ : Symbol))
        fun more' s s' => load more' < load words ∧
          (Expr.symbol s').bare = (Expr.symbol s).bare := by
    intro up fits
    refine (replays_skip up fits).bind ?_
    rintro _ _ _ rfl
    refine (replays_expectWith _ (by decide)).bind fun more name name' ⟨fewer, same⟩ => ?_
    refine (replays_markFrom _ _).bind ?_
    rintro _ mark mark' rfl
    have behind := load_drop_le words up
    refine .pure ⟨by omega, ?_⟩
    simp only [Expr.bare, Expr.remark, Symbol.remark, Token.value_eq same]
  by_cases all : words.takeWhile (fun word => word.1 = .caret) = words
  · -- With nothing but carets ahead, the first reader misses its name.
    refine Refuses.replays fun s a t faces ran => ?_
    rw [all] at ran
    obtain ⟨_, u, skipped, ran⟩ := run_bind_ok ran
    cases skipped
    have ahead := faces.repeat words.length
    rw [List.drop_length] at ahead
    exact Refuses.bind (refuses_kind refuses_unexpectedWith) _ a t ahead ran
  · have inside : (words ++ extra).takeWhile (fun word => word.1 = .caret) =
        words.takeWhile fun word => word.1 = .caret := by
      rw [List.takeWhile_append, if_neg]
      intro whole
      exact all ((List.takeWhile_prefix _).eq_of_length whole)
    rw [inside]
    exact named _ (List.takeWhile_prefix _).length_le

section
variable {n : Nat} {extra words : List Word} {expr expr' : ExprReader}
  (reads : Rereads n expr expr') (stop : pull extra = 0)

include reads in
theorem Rereads.refuses (outer : Power) : Refuses [] (expr outer) := by
  intro s e t faces ran
  obtain ⟨_, _, more, _, _, _, fewer, _⟩ :=
    reads [] outer [] rfl (Nat.zero_le _) s s e t faces faces ran
  exact absurd fewer (Nat.not_lt_zero _)

include reads stop

theorem replays_exprList {close : TokenKind} (proper : close ≠ .eof) (room : load words ≤ n) :
    Replays extra words (exprList expr close) (exprList expr' close)
      fun more' es es' => load more' < load words ∧ es'.map Expr.bare = es.map Expr.bare := by
  refine (replays_itemsBefore Expr.bare proper (fun words inside => ?_)
    (Refuses.bind (reads.refuses .loosest)) room).bind fun more' es es' ⟨left, same⟩ => ?_
  · refine (reads extra _ words stop inside).bind fun more' e e' ⟨fewer, same⟩ => ?_
    refine (replays_separator _ proper).bind fun _ _ _ left => .pure ⟨by omega, same⟩
  · exact (replays_expect proper).bind fun _ _ _ fewer => .pure ⟨by omega, same⟩

theorem replays_unaryExpr (word : Word) {more : List Word} (room : load more ≤ n) :
    Replays extra (word :: more) (unaryExpr expr) (unaryExpr expr') (SameTree (word :: more)) := by
  refine replays_take.bind ?_
  rintro _ operator operator' ⟨rfl, is, is'⟩
  refine (reads extra _ _ stop room).bind fun _ e e' ⟨fewer, same⟩ => replays_freshId.bind ?_
  rintro _ id id' rfl
  have taken := load_lt_cons word more
  refine .pure ⟨by omega, ?_⟩
  simp only [Expr.bare, Expr.remark, Token.unplaced_eq_iff.2 (is'.trans is.symm), same]

theorem replays_grouping (word : Word) {more : List Word} (room : load more ≤ n) :
    Replays extra (word :: more) (grouping expr) (grouping expr') (SameTree (word :: more)) := by
  refine replays_take.bind ?_
  rintro _ _ _ ⟨rfl, _⟩
  refine (reads extra _ _ stop room).bind fun _ e e' ⟨fewer, same⟩ => ?_
  refine (replays_expectWith _ (by decide)).bind fun _ _ _ ⟨left, _⟩ => ?_
  have taken := load_lt_cons word more
  exact .pure ⟨by omega, same⟩

theorem replays_listExpr (word : Word) {more : List Word} (room : load more ≤ n) :
    Replays extra (word :: more) (listExpr expr) (listExpr expr') (SameTree (word :: more)) := by
  refine replays_take.bind ?_
  rintro _ _ _ ⟨rfl, _⟩
  refine (replays_exprList reads stop (by decide) room).bind fun _ es es' ⟨fewer, same⟩ => ?_
  refine (replays_markFrom _ _).bind ?_
  rintro _ mark mark' rfl
  have taken := load_lt_cons word more
  refine .pure ⟨by omega, ?_⟩
  simp only [Expr.bare, Expr.remark, Expr.remarkAll_eq, same]

theorem replays_mapEntry (room : load words ≤ n) :
    Replays extra words (mapEntry expr) (mapEntry expr') fun more' entry entry' =>
      load more' < load words ∧
        (entry'.1.bare, entry'.2.bare) = (entry.1.bare, entry.2.bare) := by
  refine (reads extra _ _ stop room).bind fun _ k k' ⟨fewer, key⟩ => ?_
  refine (replays_expectWith _ (by decide)).bind fun _ _ _ ⟨colon, _⟩ => ?_
  refine (reads extra _ _ stop (by omega)).bind fun _ v v' ⟨less, value⟩ => ?_
  refine (replays_separator _ (by decide)).bind fun _ _ _ left => ?_
  exact .pure ⟨by omega, Prod.ext key value⟩

theorem replays_mapExpr (word : Word) {more : List Word} (room : load more ≤ n) :
    Replays extra (word :: more) (mapExpr expr) (mapExpr expr') (SameTree (word :: more)) := by
  refine replays_take.bind ?_
  rintro _ _ _ ⟨rfl, _⟩
  refine (replays_itemsBefore (fun entry : Expr × Expr => (entry.1.bare, entry.2.bare))
    (by decide) (fun words inside => replays_mapEntry reads stop inside)
    (Refuses.bind (reads.refuses .loosest)) room).bind fun _ all all' ⟨left, same⟩ => ?_
  refine (replays_expect (by decide)).bind fun _ _ _ fewer => (replays_markFrom _ _).bind ?_
  rintro _ mark mark' rfl
  have taken := load_lt_cons word more
  refine .pure ⟨by omega, ?_⟩
  simp only [Expr.bare, Expr.remark, Expr.remarkEntries_eq, same]

omit reads stop in
theorem replays_memberExpr (word : Word) (more : List Word) :
    Replays extra (word :: more) memberExpr memberExpr (SameTree (word :: more)) := by
  refine replays_take.bind ?_
  rintro _ _ _ ⟨rfl, _⟩
  refine (replays_expectWith _ (by decide)).bind fun _ member member' ⟨fewer, same⟩ => ?_
  refine (replays_expectWith _ (by decide)).bind fun _ _ _ ⟨less, _⟩ => ?_
  refine (replays_markFrom _ _).bind ?_
  rintro _ mark mark' rfl
  have taken := load_lt_cons word more
  refine .pure ⟨by omega, ?_⟩
  simp only [Expr.bare, Expr.remark, Token.value_eq same]

omit reads stop in
theorem run_fragment {expr : ExprReader} {source : List Char} {start : Position} {s t : Stream}
    {e : Expr} : (fragment expr source start).run s = .ok (e, t) ↔
      ∃ tokens u, Token.scan start source = .ok tokens ∧
        (expr .loosest).run (Stream.ofTokens tokens start.file s.nextId) = .ok (e, u) ∧
        u.current.kind = .eof ∧ { s with nextId := u.nextId } = t := by
  constructor
  · intro ran
    obtain ⟨outer, _, got, ran⟩ := run_bind_ok ran
    cases got
    obtain ⟨tokens, u, lifted, ran⟩ := run_bind_ok ran
    have scanned : Token.scan start source = .ok tokens ∧ s = u := by
      cases found : Token.scan start source <;> rw [found] at lifted <;> cases lifted
      exact ⟨rfl, rfl⟩
    obtain ⟨_, _, was, ran⟩ := run_bind_ok ran
    cases was
    obtain ⟨inner, u, read, ran⟩ := run_bind_ok ran
    obtain ⟨kind, _, seen, ran⟩ := run_bind_ok ran
    cases seen
    split at ran
    · cases ran
    · next closed =>
      cases ran
      exact ⟨tokens, u, scanned.1, read, Decidable.not_not.1 closed, rfl⟩
  · rintro ⟨tokens, u, scanned, read, closed, rfl⟩
    have lifted : (StateT.lift (Token.scan start source) : Parse (List Token)).run s =
        .ok (tokens, s) := by
      rw [scanned]
      rfl
    refine (run_bind_of_ok (a := s) rfl).trans ?_
    refine (run_bind_of_ok lifted).trans ?_
    refine (run_bind_of_ok (u := Stream.ofTokens tokens start.file s.nextId) rfl).trans ?_
    refine (run_bind_of_ok read).trans ?_
    refine (run_bind_of_ok (run_kind _)).trans ?_
    rw [if_neg (not_not_intro closed)]
    rfl

omit reads stop in
/-- A text that is cut into tokens is cut into the same words anywhere, and these nest no more than
it has characters. -/
theorem exists_words_scan {p : Position} {source : List Char} {tokens : List Token}
    (h : Token.scan p source = .ok tokens) (p' : Position) :
    ∃ tokens' words, Token.scan p' source = .ok tokens' ∧ load words ≤ source.length ∧
      tokens.map Token.word = words ++ [(Token.ending .unknown).word] ∧
      tokens'.map Token.word = words ++ [(Token.ending .unknown).word] := by
  have again := Token.matched_scan p p' source
  have first := Token.matched_scan p (.start "") source
  rw [h] at again first
  obtain ⟨tokens', scanned', same⟩ := again.exists_ok
  obtain ⟨listed, scanned, alike⟩ := first.exists_ok
  obtain ⟨body, rfl, cut⟩ := (@Token.cut_scan "" [] _ source rfl).1 listed scanned
  rw [List.map_append] at alike
  exact ⟨tokens', body.map Token.word, scanned', load_le_of_cut cut, alike, same.symm.trans alike⟩

omit stop in
/-- The words of a text are read to their end again, wherever it stands. -/
theorem Rereads.text {inner : List Word} (room : load inner ≤ n) {tokens tokens' : List Token}
    (is : tokens.map Token.word = inner ++ [(Token.ending .unknown).word])
    (is' : tokens'.map Token.word = inner ++ [(Token.ending .unknown).word]) {file file' : String}
    {id id' : Nat} {e : Expr} {t : Stream}
    (read : (expr .loosest).run (.ofTokens tokens file id) = .ok (e, t))
    (closed : t.current.kind = .eof) :
    ∃ e' t', (expr' .loosest).run (.ofTokens tokens' file' id') = .ok (e', t') ∧
      t'.current.kind = .eof ∧ e'.bare = e.bare := by
  have ahead := Stream.faces_ofTokens file id is
  have ahead' := Stream.faces_ofTokens file' id' is'
  rw [← List.append_nil inner] at ahead'
  obtain ⟨e', t', more, read', left, left', _, same⟩ :=
    reads [] .loosest inner rfl room _ _ e t ahead ahead' read
  refine ⟨e', t', read', ?_, same⟩
  rw [left'.kind, List.append_nil, ← left.kind, closed]

omit stop in
theorem replays_fragment {source : List Char} (room : source.length ≤ n) (p p' : Position) :
    Replays extra words (fragment expr source p) (fragment expr' source p')
      fun more' e e' => words = more' ∧ e'.bare = e.bare := by
  intro s s' e t faces faces' ran
  obtain ⟨tokens, u, scanned, read, closed, rfl⟩ := run_fragment.1 ran
  obtain ⟨tokens', inner, scanned', inside, is, is'⟩ := exists_words_scan scanned p'
  obtain ⟨e', u', read', closed', same⟩ := reads.text (by omega) is is' read closed
  exact ⟨e', _, words, run_fragment.2 ⟨tokens', u', scanned', read', closed', rfl⟩,
    ⟨faces.ahead, faces.last⟩, ⟨faces'.ahead, faces'.last⟩, rfl, same⟩

omit reads stop in
/-- What stands between two braces is shorter than the whole text. -/
theorem length_code_lt {p start : Position} {before raw source : List Char}
    (h : .code source start ∈ pieces p before raw) : source.length < raw.length := by
  obtain ⟨front, rest, rfl⟩ := exists_of_code h
  simp only [List.length_append, List.length_cons]
  omega

omit stop in
theorem replays_interpolationParts (start start' : Position) {parts parts' : List Piece}
    (same : parts'.map Piece.unplaced = parts.map Piece.unplaced)
    (room : ∀ source place, .code source place ∈ parts → source.length ≤ n) :
    Replays extra words (interpolationParts expr start parts)
      (interpolationParts expr' start' parts')
      fun more' all all' => words = more' ∧ Expr.bareParts all' = Expr.bareParts all := by
  induction parts generalizing parts' with
  | nil =>
    cases parts' with
    | nil => exact .pure ⟨rfl, rfl⟩
    | cons => simp at same
  | cons piece rest ih =>
    cases parts' with
    | nil => simp at same
    | cons piece' rest' =>
      obtain ⟨first, others⟩ := List.cons.inj same
      have later := ih others fun source place mem => room source place (.tail _ mem)
      cases piece with
      | chars raw =>
        cases piece' <;> simp [Piece.unplaced] at first
        subst first
        unfold interpolationParts
        split
        · refine later.bind ?_
          rintro _ all all' ⟨rfl, alike⟩
          refine .pure ⟨rfl, ?_⟩
          simp only [Expr.bareParts, Expr.remarkParts, alike]
        · refine Refuses.replays fun s all t _ ran => ?_
          cases ran
      | code source place =>
        cases piece' <;> simp [Piece.unplaced] at first
        subst first
        unfold interpolationParts
        refine (replays_fragment reads (room _ _ (.head _)) _ _).bind ?_
        rintro _ e e' ⟨rfl, inner⟩
        refine later.bind ?_
        rintro _ all all' ⟨rfl, alike⟩
        refine .pure ⟨rfl, ?_⟩
        simp only [Expr.bareParts, Expr.remarkParts, alike, inner]
      | unclosed raw place =>
        refine Refuses.replays fun s all t _ ran => ?_
        cases ran

omit stop in
theorem replays_interpolation (word : Word) {more : List Word} (room : word.2.length ≤ n) :
    Replays extra (word :: more) (interpolation expr) (interpolation expr')
      (SameTree (word :: more)) := by
  refine replays_take.bind ?_
  rintro _ token token' ⟨rfl, is, is'⟩
  have value : token'.value = token.value := Token.value_eq (is'.trans is.symm)
  rw [value]
  have inside : ∀ source place, .code source place ∈ pieces
      (token.span.start.advance '\x60') [] token.value.toList → source.length ≤ n := by
    intro source place mem
    have shorter := length_code_lt mem
    rw [String.length_toList, show token.value = word.2 from congrArg Prod.snd is] at shorter
    omega
  refine (replays_interpolationParts reads _ _ (pieces_unplaced _ _ _ _) inside).bind ?_
  rintro _ all all' ⟨rfl, alike⟩
  refine replays_freshId.bind ?_
  rintro _ id id' rfl
  refine .pure ⟨load_lt_cons _ _, ?_⟩
  simp only [Expr.bare, Expr.remark, alike]

theorem replays_operand (room : load words ≤ n + 1) :
    Replays extra words (operand expr) (operand expr') (SameTree words) := by
  cases words with
  | nil => exact (refuses_kind refuses_unexpected).replays
  | cons word more =>
    have rest : load more ≤ n := by
      have taken := load_lt_cons word more
      omega
    refine replays_kind ?_
    split
    iterate 7 exact replays_atom word more
    · refine (replays_scopedSymbol _).bind fun _ s s' ⟨fewer, same⟩ => .pure ⟨fewer, same⟩
    · next interpolated =>
      refine replays_interpolation reads word ?_
      rw [load, if_pos interpolated] at room
      omega
    · exact replays_memberExpr word more
    · exact replays_listExpr reads stop word rest
    · exact replays_mapExpr reads stop word rest
    · exact replays_unaryExpr reads stop word rest
    · exact replays_unaryExpr reads stop word rest
    · exact replays_grouping reads stop word rest
    · exact refuses_unexpected.replays

theorem replays_callExpr (word : Word) {more : List Word} {left left' : Expr}
    (same : left'.bare = left.bare) (room : load more ≤ n) :
    Replays extra (word :: more) (callExpr expr left) (callExpr expr' left')
      (SameTree (word :: more)) := by
  have names : callee? left' = callee? left := by
    rw [← callee?_remark (fun _ => ⟨0, .nowhere⟩) left',
      ← callee?_remark (fun _ => ⟨0, .nowhere⟩) left]
    exact congrArg callee? same
  rw [callExpr_eq, callExpr_eq, names]
  split
  · refine replays_take.bind ?_
    rintro _ _ _ ⟨rfl, _⟩
    refine (replays_exprList reads stop (by decide) room).bind fun _ es es' ⟨fewer, items⟩ => ?_
    refine (replays_markFrom _ _).bind ?_
    rintro _ mark mark' rfl
    have taken := load_lt_cons word more
    refine .pure ⟨by omega, ?_⟩
    simp only [Expr.bare, Expr.remark, Expr.remarkAll_eq, items]
  · exact refuses_unexpectedWith.replays

theorem replays_indexExpr (word : Word) {more : List Word} {left left' : Expr}
    (same : left'.bare = left.bare) (room : load more ≤ n) :
    Replays extra (word :: more) (indexExpr expr left) (indexExpr expr' left')
      (SameTree (word :: more)) := by
  refine replays_take.bind ?_
  rintro _ _ _ ⟨rfl, _⟩
  refine (reads extra _ _ stop room).bind fun _ e e' ⟨fewer, inner⟩ => ?_
  refine (replays_expectWith _ (by decide)).bind fun _ _ _ ⟨less, _⟩ => ?_
  refine (replays_markFrom _ _).bind ?_
  rintro _ mark mark' rfl
  have taken := load_lt_cons word more
  refine .pure ⟨by omega, ?_⟩
  simp only [Expr.bare, Expr.remark, same, inner]

theorem replays_binaryExpr (word : Word) {more : List Word} {left left' : Expr}
    (same : left'.bare = left.bare) (room : load more ≤ n) :
    Replays extra (word :: more) (binaryExpr expr left) (binaryExpr expr' left')
      (SameTree (word :: more)) := by
  refine replays_take.bind ?_
  rintro _ operator operator' ⟨rfl, is, is'⟩
  have alike := is'.trans is.symm
  rw [Token.kind_eq alike]
  refine (reads extra _ _ stop room).bind fun _ e e' ⟨fewer, inner⟩ => replays_freshId.bind ?_
  rintro _ id id' rfl
  have taken := load_lt_cons word more
  refine .pure ⟨by omega, ?_⟩
  simp only [Expr.bare, Expr.remark, Token.unplaced_eq_iff.2 alike, same, inner]

theorem replays_continuation (word : Word) {more : List Word} {left left' : Expr}
    (same : left'.bare = left.bare) (room : load more ≤ n) :
    Replays extra (word :: more) (continuation expr left) (continuation expr' left')
      (SameTree (word :: more)) := by
  refine replays_kind ?_
  split
  · exact replays_callExpr reads stop word same room
  · exact replays_indexExpr reads stop word same room
  · exact replays_binaryExpr reads stop word same room

/-- Behind all of the words the first reader stands at the end and stops; so does the second, as
what is behind them continues no expression. -/
theorem replays_climb (outer : Power) (fuel fuel' : Nat) {words : List Word} {left left' : Expr}
    (same : left'.bare = left.bare) (room : load words ≤ n) (enough : load words < fuel') :
    Replays extra words (climb expr outer fuel left) (climb expr' outer fuel' left')
      fun more' e e' => load more' ≤ load words ∧ e'.bare = e.bare := by
  induction fuel generalizing fuel' words left left' with
  | zero => exact refuses_unexpected.replays
  | succ fuel ih =>
    obtain ⟨fuel', rfl⟩ := Nat.exists_eq_succ_of_ne_zero (Nat.ne_of_gt (Nat.zero_lt_of_lt enough))
    cases words with
    | nil =>
      intro s s' e t faces faces' ran
      have ends : (Power.ofToken s.current.kind).rank ≤ outer.rank := by
        rw [faces.kind]
        exact Nat.zero_le _
      have ends' : (Power.ofToken s'.current.kind).rank ≤ outer.rank := by
        rw [faces'.kind]
        exact Nat.le_trans (Nat.le_of_eq stop) (Nat.zero_le _)
      rw [run_climb_stop ends] at ran
      cases ran
      exact ⟨left', s', [], run_climb_stop ends', faces, faces', Nat.le_refl _, same⟩
    | cons word more =>
      have taken := load_lt_cons word more
      refine replays_kind ?_
      split
      · exact .pure ⟨Nat.le_refl _, same⟩
      · refine (replays_continuation reads stop word same (by omega)).bind
          fun more' e e' ⟨fewer, alike⟩ => ?_
        refine (ih fuel' alike (by omega) (by omega)).imp fun _ _ _ ⟨less, all⟩ => ⟨by omega, all⟩

end

/-- What is read within one bound is read again within any bound that leaves room for the words. -/
theorem rereads_exprWithin (fuel fuel' : Nat) :
    Rereads fuel' (exprWithin fuel) (exprWithin fuel') := by
  induction fuel generalizing fuel' with
  | zero => exact fun _ _ _ _ _ => refuses_unexpected.replays
  | succ fuel ih =>
    intro extra outer words stop room
    cases fuel' with
    | zero =>
      cases words with
      | nil => exact (Refuses.bind (refuses_kind refuses_unexpected)).replays
      | cons word more => exact absurd (load_lt_cons word more) (by omega)
    | succ fuel' =>
      refine (replays_operand (ih fuel') stop room).bind fun more left left' ⟨fewer, same⟩ => ?_
      refine .get_bind fun s s' _ ahead => ?_
      refine (replays_climb (ih fuel') stop outer _ _ same (by omega) ahead.load_lt).imp ?_
      exact fun _ _ _ ⟨less, alike⟩ => ⟨by omega, alike⟩

theorem run_whole {α : Type} {reader : Parse α} {message : String} {s t : Stream} {a : α} :
    (whole reader message).run s = .ok (a, t) ↔
      reader.run s = .ok (a, t) ∧ t.current.kind = .eof := by
  constructor
  · intro ran
    obtain ⟨a, u, read, ran⟩ := run_bind_ok ran
    obtain ⟨kind, _, seen, ran⟩ := run_bind_ok ran
    cases seen
    split at ran
    · cases ran
    · next closed =>
      cases ran
      exact ⟨read, Decidable.not_not.1 closed⟩
  · rintro ⟨read, closed⟩
    refine (run_bind_of_ok read).trans ?_
    refine (run_bind_of_ok (run_kind _)).trans ?_
    rw [if_neg (not_not_intro closed)]
    rfl

end Grammar

open Grammar

/-- An expression is read from all of some tokens that stand alone. -/
def Expr.IsRead (tokens : List Token) (e : Expr) : Prop :=
  ∃ s t : Stream, s.rest = tokens ∧ s.last.kind = .eof ∧
    (exprWithin s.limit .loosest).run s = .ok (e, t) ∧ t.rest = []

def Expr.ofSource (source file : String) : Except Error Expr := do
  let tokens ← Token.tokenize source file
  let reader := whole (do exprWithin (← get).limit .loosest) "expected end of expression"
  (reader.run (Stream.ofTokens tokens file 0)).map Prod.fst

theorem ok_of_map {α β : Type} {f : α → β} {result : Except Error α} {b : β}
    (h : result.map f = .ok b) : ∃ a, result = .ok a ∧ f a = b := by
  cases result with
  | error e => cases h
  | ok a => exact ⟨a, rfl, Except.ok.inj h⟩

theorem Expr.ofSource_eq_ok {source file : String} {e : Expr} :
    Expr.ofSource source file = .ok e ↔ ∃ tokens t,
      Token.scan (.start file) source.toList = .ok tokens ∧
      (exprWithin (Stream.ofTokens tokens file 0).limit .loosest).run
        (Stream.ofTokens tokens file 0) = .ok (e, t) ∧ t.current.kind = .eof := by
  unfold Expr.ofSource Token.tokenize
  cases scanned : Token.scan (.start file) source.toList with
  | error cause => simp [bind, Except.bind]
  | ok tokens =>
    constructor
    · intro h
      obtain ⟨result, ran, rfl⟩ := ok_of_map h
      obtain ⟨read, closed⟩ := run_whole.1 ran
      exact ⟨tokens, result.2, rfl, read, closed⟩
    · rintro ⟨_, t, ⟨⟩, read, closed⟩
      exact congrArg (Except.map Prod.fst) (run_whole.2 ⟨read, closed⟩)

namespace Grammar

/-- An expression that tokens spell on their own is read from them wherever they stand before
something that does not continue an expression. -/
theorem consumes_of_isRead {tokens : List Token} {e : Expr} (h : e.IsRead tokens) {more : List Word}
    (stop : pull more = 0) {fuel : Nat} (room : load (tokens.map Token.word) ≤ fuel) :
    Consumes (exprWithin fuel .loosest) (tokens.map Token.word ++ more) more (·.bare = e.bare) := by
  intro s' faces'
  obtain ⟨s, t, rfl, last, read, done⟩ := h
  obtain ⟨e', t', left, read', ahead, ahead', _, same⟩ :=
    rereads_exprWithin s.limit fuel more .loosest _ stop room s s' e t ⟨rfl, last⟩ faces' read
  have nothing : left = [] := by rw [← ahead.ahead, done, List.map_nil]
  subst nothing
  exact ⟨e', t', read', ahead', same⟩

/-- The fragments of an interpolated text are read as they are on their own. -/
theorem ofSource_of_fragment {fuel : Nat} {source : List Char} {start : Position} {s t : Stream}
    {e : Expr} (h : (fragment (exprWithin fuel) source start).run s = .ok (e, t)) (file : String) :
    ∃ e', Expr.ofSource (String.ofList source) file = .ok e' ∧ e'.bare = e.bare := by
  obtain ⟨tokens, u, scanned, read, closed, rfl⟩ := run_fragment.1 h
  obtain ⟨tokens', words, scanned', _, is, is'⟩ := exists_words_scan scanned (.start file)
  have faces : (Stream.ofTokens tokens' file 0).Faces (words ++ []) := by
    rw [List.append_nil]
    exact Stream.faces_ofTokens file 0 is'
  have room := faces.load_lt
  obtain ⟨e', u', read', closed', same⟩ :=
    (rereads_exprWithin fuel _).text (Nat.le_of_lt room) is is' read closed
  rw [← String.toList_ofList (l := source)] at scanned'
  exact ⟨e', Expr.ofSource_eq_ok.2 ⟨tokens', u', scanned', read', closed'⟩, same⟩

/-- What is an expression on its own is one as a fragment. -/
theorem fragment_of_ofSource {source : List Char} {file : String} {e : Expr}
    (h : Expr.ofSource (String.ofList source) file = .ok e) {fuel : Nat}
    (room : source.length ≤ fuel) (start : Position) (s : Stream) :
    ∃ e' t, (fragment (exprWithin fuel) source start).run s = .ok (e', t) ∧ e'.bare = e.bare := by
  obtain ⟨tokens, u, scanned, read, closed⟩ := Expr.ofSource_eq_ok.1 h
  rw [String.toList_ofList] at scanned
  obtain ⟨tokens', inner, scanned', inside, is, is'⟩ := exists_words_scan scanned start
  obtain ⟨e', u', read', closed', same⟩ :=
    (rereads_exprWithin _ fuel).text (by omega) is is' read closed
  exact ⟨e', _, run_fragment.2 ⟨tokens', u', scanned', read', closed', rfl⟩, same⟩

end Grammar
end CursorScript
