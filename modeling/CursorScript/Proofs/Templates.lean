import CursorScript.Proofs.Rereading
import CursorScript.Proofs.Structured
import Mathlib.Data.List.Forall2

/-!
Interpolated texts as templates. The contents of an interpolated text are texts with fragments in
braces between them, in one way only. The search for a brace that opens a fragment and the one for
the brace that closes it follow different rules about backslashes and quotes; here both are said
without a search.
-/
namespace CursorScript
namespace Grammar

/-- Each `mark` in a text stands behind a backslash of its own. Only the last text may end in a
backslash that has nothing behind it. -/
inductive Guarded (mark : Char) (last : Bool) : List Char → Prop
  | nil : Guarded mark last []
  | lone (ends : last = true) : Guarded mark last ['\\']
  | char {c : Char} {cs : List Char} (other : c ≠ mark) (plain : c ≠ '\\')
      (rest : Guarded mark last cs) : Guarded mark last (c :: cs)
  | escape {e : Char} {cs : List Char} (rest : Guarded mark last cs) :
      Guarded mark last ('\\' :: e :: cs)

/-- The braces of a fragment match, those between double quotes apart. -/
inductive Balanced : List Char → Prop
  | nil : Balanced []
  | char {c : Char} {cs : List Char} (unquoted : c ≠ '\x22') (unopened : c ≠ '\x7b')
      (unclosed : c ≠ '\x7d') (rest : Balanced cs) : Balanced (c :: cs)
  | quoted {text cs : List Char} (guarded : Guarded '\x22' false text) (rest : Balanced cs) :
      Balanced ('\x22' :: text ++ '\x22' :: cs)
  | braces {inner cs : List Char} (inside : Balanced inner) (rest : Balanced cs) :
      Balanced ('\x7b' :: inner ++ '\x7d' :: cs)

theorem Balanced.append {front cs : List Char} (h : Balanced front) (rest : Balanced cs) :
    Balanced (front ++ cs) := by
  induction h with
  | nil => exact rest
  | char unquoted unopened unclosed _ ih => exact .char unquoted unopened unclosed ih
  | @quoted text _ guarded _ ih =>
    have whole := Balanced.quoted guarded ih
    simpa using whole
  | @braces inner _ inside _ _ ih =>
    have whole := Balanced.braces inside ih
    simpa using whole

/-- Between double quotes the search takes every guarded character. -/
theorem closeBrace?_guarded {text : List Char} (h : Guarded '\x22' false text) (depth : Nat)
    (rest : List Char) :
    closeBrace? ⟨depth, true, false⟩ (text ++ rest) =
      (closeBrace? ⟨depth, true, false⟩ rest).map fun found => (text ++ found.1, found.2) := by
  induction h with
  | nil => simp
  | lone ends => cases ends
  | char other plain _ ih =>
    simp [closeBrace?, BraceSearch.step, other, plain, ih, Function.comp_def]
  | escape _ ih => simp [closeBrace?, BraceSearch.step, ih, Function.comp_def]

/-- The search takes all of a balanced text, whatever is open before it. -/
theorem closeBrace?_balanced {front : List Char} (h : Balanced front) (depth : Nat)
    (rest : List Char) :
    closeBrace? ⟨depth, false, false⟩ (front ++ rest) =
      (closeBrace? ⟨depth, false, false⟩ rest).map fun found => (front ++ found.1, found.2) := by
  induction h generalizing depth rest with
  | nil => simp
  | char unquoted unopened unclosed _ ih =>
    simp [closeBrace?, BraceSearch.step, unquoted, unopened, unclosed, ih, Function.comp_def]
  | quoted guarded _ ih =>
    have inside := closeBrace?_guarded guarded depth
    simp [closeBrace?, BraceSearch.step, inside, ih, Function.comp_def]
  | braces _ _ ihInside ih =>
    simp [closeBrace?, BraceSearch.step, ihInside, ih, Function.comp_def]

/-- Balanced texts with a closing brace behind each but the last. -/
def Closes : Nat → List Char → Prop
  | 0, inner => Balanced inner
  | depth + 1, inner => ∃ first rest, inner = first ++ '\x7d' :: rest ∧ Balanced first ∧
      Closes depth rest

theorem Closes.prepend {depth : Nat} {front cs : List Char} (h : Closes depth cs)
    (balanced : Balanced front) : Closes depth (front ++ cs) := by
  cases depth with
  | zero => exact balanced.append h
  | succ depth =>
    obtain ⟨first, rest, rfl, begins, more⟩ := h
    exact ⟨front ++ first, rest, by simp, balanced.append begins, more⟩

/-- What a search finds starts with each character that does not end it. -/
theorem closeBrace?_cons {before after : BraceSearch} {c : Char} {cs inner behind : List Char}
    (h : closeBrace? before (c :: cs) = some (inner, behind)) (goes : before.step c = some after) :
    ∃ found, inner = c :: found ∧ closeBrace? after cs = some (found, behind) := by
  rw [closeBrace?, goes] at h
  obtain ⟨⟨found, _⟩, later, same⟩ := Option.map_eq_some_iff.1 h
  cases same
  exact ⟨found, rfl, later⟩

/-- A search that starts between double quotes and comes to an end has left them. -/
theorem leaves_quotes {depth : Nat} {cs inner behind : List Char}
    (h : closeBrace? ⟨depth, true, false⟩ cs = some (inner, behind)) :
    ∃ text tail rest, cs = text ++ '\x22' :: tail ∧ inner = text ++ '\x22' :: rest ∧
      Guarded '\x22' false text ∧ closeBrace? ⟨depth, false, false⟩ tail = some (rest, behind) := by
  cases cs with
  | nil => simp [closeBrace?] at h
  | cons c cs =>
    by_cases backslash : c = '\\'
    · subst backslash
      obtain ⟨found, rfl, later⟩ := closeBrace?_cons h rfl
      -- The backslash takes the character behind it along, whatever that is.
      cases cs with
      | nil => simp [closeBrace?] at later
      | cons e tail =>
        obtain ⟨found, rfl, next⟩ := closeBrace?_cons later rfl
        obtain ⟨text, tail, rest, rfl, rfl, guarded, ends⟩ := leaves_quotes next
        exact ⟨'\\' :: e :: text, tail, rest, rfl, rfl, .escape guarded, ends⟩
    by_cases quote : c = '\x22'
    · subst quote
      obtain ⟨found, rfl, later⟩ := closeBrace?_cons h rfl
      exact ⟨[], cs, found, rfl, rfl, .nil, later⟩
    · have goes : BraceSearch.step ⟨depth, true, false⟩ c = some ⟨depth, true, false⟩ := by
        simp [BraceSearch.step, backslash, quote]
      obtain ⟨found, rfl, later⟩ := closeBrace?_cons h goes
      obtain ⟨text, tail, rest, rfl, rfl, guarded, ends⟩ := leaves_quotes later
      exact ⟨c :: text, tail, rest, rfl, rfl, .char quote backslash guarded, ends⟩
termination_by cs.length
decreasing_by all_goals (subst_vars; simp; try omega)

theorem closes_of_closeBrace? {depth : Nat} {cs inner behind : List Char}
    (h : closeBrace? ⟨depth, false, false⟩ cs = some (inner, behind)) :
    cs = inner ++ '\x7d' :: behind ∧ Closes depth inner := by
  cases cs with
  | nil => simp [closeBrace?] at h
  | cons c cs =>
    by_cases quote : c = '\x22'
    · subst quote
      obtain ⟨found, rfl, later⟩ := closeBrace?_cons h rfl
      obtain ⟨text, tail, rest, rfl, rfl, guarded, ends⟩ := leaves_quotes later
      obtain ⟨rfl, closes⟩ := closes_of_closeBrace? ends
      exact ⟨by simp, by simpa using closes.prepend (.quoted guarded .nil)⟩
    by_cases opening : c = '\x7b'
    · subst opening
      obtain ⟨found, rfl, later⟩ := closeBrace?_cons h rfl
      obtain ⟨rfl, first, rest, rfl, begins, closes⟩ := closes_of_closeBrace? later
      exact ⟨by simp, by simpa using closes.prepend (.braces begins .nil)⟩
    by_cases closing : c = '\x7d'
    · subst closing
      cases depth with
      | zero =>
        cases h
        exact ⟨rfl, .nil⟩
      | succ depth =>
        obtain ⟨found, rfl, later⟩ := closeBrace?_cons h rfl
        obtain ⟨rfl, closes⟩ := closes_of_closeBrace? later
        exact ⟨rfl, [], found, rfl, .nil, closes⟩
    · have goes : BraceSearch.step ⟨depth, false, false⟩ c = some ⟨depth, false, false⟩ := by
        simp [BraceSearch.step, quote, opening, closing]
      obtain ⟨found, rfl, later⟩ := closeBrace?_cons h goes
      obtain ⟨rfl, closes⟩ := closes_of_closeBrace? later
      exact ⟨rfl, closes.prepend (.char quote opening closing .nil)⟩
termination_by cs.length
decreasing_by all_goals (subst_vars; simp; try omega)

/-- The search finds the brace that closes a fragment, and only that one. -/
theorem closeBrace?_eq_some_iff {cs inner behind : List Char} :
    closeBrace? .start cs = some (inner, behind) ↔
      cs = inner ++ '\x7d' :: behind ∧ Balanced inner := by
  constructor
  · exact closes_of_closeBrace?
  · rintro ⟨rfl, balanced⟩
    rw [BraceSearch.start, closeBrace?_balanced balanced]
    simp [closeBrace?, BraceSearch.step]

/-- Texts with fragments in braces between them. -/
inductive Template where
  | text (chars : List Char)
  | code (chars fragment : List Char) (rest : Template)

namespace Template

def raw : Template → List Char
  | .text chars => chars
  | .code chars fragment rest => chars ++ '\x7b' :: (fragment ++ '\x7d' :: rest.raw)

/-- Every fragment is balanced and no text holds a brace that would open one. Before a fragment, and
at the end unless it is the `last`, a text does not take the brace behind it as escaped. -/
def Proper (last : Bool) : Template → Prop
  | .text chars => Guarded '\x7b' last chars
  | .code chars fragment rest => Guarded '\x7b' false chars ∧ Balanced fragment ∧ rest.Proper last

def piece (chars : List Char) : List Piece := if chars = [] then [] else [.chars chars]

def pieces (p : Position) : Template → List Piece
  | .text chars => piece chars
  | .code chars fragment rest =>
    let start := (p.after chars).advance '\x7b'
    piece chars ++ .code fragment start :: rest.pieces ((start.after fragment).advance '\x7d')

def closed (p : Position) : Template → List Piece
  | .text _ => []
  | .code chars fragment rest =>
    let start := (p.after chars).advance '\x7b'
    piece chars ++ .code fragment start :: rest.closed ((start.after fragment).advance '\x7d')

end Template

theorem ofChars_reverse (chars : List Char) :
    Piece.ofChars chars.reverse = Template.piece chars := by
  simp [Piece.ofChars, Template.piece]

/-- Characters that open no fragment wait for the next piece. -/
theorem pieces_guarded {text : List Char} (h : Guarded '\x7b' false text) (p : Position)
    (before rest : List Char) :
    pieces p before (text ++ rest) = pieces (p.after text) (text.reverse ++ before) rest := by
  induction h generalizing p before with
  | nil => simp
  | lone ends => cases ends
  | @char c cs other plain _ ih =>
    conv => lhs; rw [List.cons_append]; unfold pieces
    simp [other, plain, ih]
  | @escape e cs _ ih =>
    conv => lhs; rw [List.cons_append, List.cons_append]; unfold pieces
    simp [ih]

theorem pieces_last {text : List Char} (h : Guarded '\x7b' true text) (p : Position)
    (before : List Char) : pieces p before text = Piece.ofChars (text.reverse ++ before) := by
  induction h generalizing p before with
  | nil => simp [pieces]
  | lone => simp [pieces]
  | @char c cs other plain _ ih =>
    unfold pieces
    simp [other, plain, ih]
  | @escape e cs _ ih =>
    unfold pieces
    simp [ih]

theorem pieces_raw {T : Template} (h : T.Proper true) (p : Position) :
    pieces p [] T.raw = T.pieces p := by
  induction T generalizing p with
  | text text => rw [Template.raw, pieces_last h, List.append_nil, ofChars_reverse]; rfl
  | code text fragment rest ih =>
    obtain ⟨guarded, balanced, more⟩ := h
    have found := closeBrace?_eq_some_iff.2
      ⟨(rfl : _ = fragment ++ '\x7d' :: rest.raw), balanced⟩
    rw [Template.raw, pieces_guarded guarded, pieces_code _ _ found, List.append_nil,
      ofChars_reverse, ih more]
    rfl

theorem pieces_raw_unclosed {T : Template} (h : T.Proper false) {behind : List Char}
    (unclosed : closeBrace? .start behind = none) (p : Position) :
    pieces p [] (T.raw ++ '\x7b' :: behind) =
      T.closed p ++ [.unclosed ('\x7b' :: behind) (p.after T.raw)] := by
  induction T generalizing p with
  | text text => rw [Template.raw, pieces_guarded h, pieces_unclosed _ _ unclosed]; rfl
  | code text fragment rest ih =>
    obtain ⟨guarded, balanced, more⟩ := h
    have found := closeBrace?_eq_some_iff.2
      ⟨(rfl : _ = fragment ++ '\x7d' :: (rest.raw ++ '\x7b' :: behind)), balanced⟩
    have shape : (Template.code text fragment rest).raw ++ '\x7b' :: behind =
        text ++ '\x7b' :: (fragment ++ '\x7d' :: (rest.raw ++ '\x7b' :: behind)) := by
      simp [Template.raw]
    rw [shape, pieces_guarded guarded, pieces_code _ _ found, List.append_nil,
      ofChars_reverse, ih more]
    simp [Template.closed, Template.raw, Position.after_append]

theorem guarded_or_opens (raw : List Char) :
    Guarded '\x7b' true raw ∨
      ∃ chars behind, Guarded '\x7b' false chars ∧ raw = chars ++ '\x7b' :: behind := by
  match raw with
  | [] => exact .inl .nil
  | c :: cs =>
    by_cases backslash : c = '\\'
    · subst backslash
      match inside : cs with
      | [] => exact .inl (.lone rfl)
      | e :: tail =>
        obtain guarded | ⟨chars, behind, guarded, rfl⟩ := guarded_or_opens tail
        · exact .inl (.escape guarded)
        · exact .inr ⟨_, behind, .escape guarded, rfl⟩
    by_cases opening : c = '\x7b'
    · exact .inr ⟨[], cs, .nil, by rw [opening]; rfl⟩
    · obtain guarded | ⟨chars, behind, guarded, rfl⟩ := guarded_or_opens cs
      · exact .inl (.char opening backslash guarded)
      · exact .inr ⟨_, behind, .char opening backslash guarded, rfl⟩
termination_by raw.length
decreasing_by all_goals (subst_vars; simp; try omega)

/-- Every text is a template, or one up to a brace that is not closed. -/
theorem exists_template (raw : List Char) :
    (∃ T : Template, T.Proper true ∧ T.raw = raw) ∨
      ∃ (T : Template) (behind : List Char), T.Proper false ∧ raw = T.raw ++ '\x7b' :: behind ∧
        closeBrace? .start behind = none := by
  obtain guarded | ⟨chars, cs, guarded, rfl⟩ := guarded_or_opens raw
  · exact .inl ⟨.text raw, guarded, rfl⟩
  cases found : closeBrace? .start cs with
  | none => exact .inr ⟨.text chars, cs, guarded, rfl, found⟩
  | some split =>
    obtain ⟨rfl, balanced⟩ := closeBrace?_eq_some_iff.1 found
    obtain ⟨T, proper, same⟩ | ⟨T, behind, proper, same, unclosed⟩ := exists_template split.2
    · exact .inl ⟨.code chars split.1 T, ⟨guarded, balanced, proper⟩, by rw [Template.raw, same]⟩
    · exact .inr ⟨.code chars split.1 T, behind, ⟨guarded, balanced, proper⟩,
        by simp [Template.raw, same], unclosed⟩
termination_by raw.length
decreasing_by
  subst_vars
  simp
  omega

theorem piece_append_inj {chars chars' : List Char} {rest rest' : List Piece}
    (h : ∀ raw, rest.head? ≠ some (.chars raw)) (h' : ∀ raw, rest'.head? ≠ some (.chars raw))
    (same : Template.piece chars ++ rest = Template.piece chars' ++ rest') :
    chars = chars' ∧ rest = rest' := by
  unfold Template.piece at same
  split at same <;> split at same
  · next first second => exact ⟨first.trans second.symm, same⟩
  · exact absurd (congrArg List.head? same) (h _)
  · exact absurd (congrArg List.head? same).symm (h' _)
  · obtain ⟨first, others⟩ := List.cons.inj same
    exact ⟨Piece.chars.inj first, others⟩

/-- Between two fragments there is at most one text, so the pieces tell where the empty ones are. -/
theorem Template.pieces_injective {T T' : Template} (p : Position) (h : T.pieces p = T'.pieces p) :
    T = T' := by
  induction T generalizing T' p with
  | text chars =>
    have alone : piece chars ++ [] = T'.pieces p := (List.append_nil _).trans h
    cases T' with
    | text chars' =>
      have same : piece chars ++ [] = piece chars' ++ [] := alone.trans (List.append_nil _).symm
      rw [(piece_append_inj (by simp) (by simp) same).1]
    | code chars' fragment' rest' => cases (piece_append_inj (by simp) (by simp) alone).2
  | code chars fragment rest ih =>
    cases T' with
    | text chars' =>
      cases (piece_append_inj (by simp) (by simp) (h.trans (List.append_nil _).symm)).2
    | code chars' fragment' rest' =>
      obtain ⟨rfl, same⟩ := piece_append_inj (by simp) (by simp) h
      obtain ⟨first, others⟩ := List.cons.inj same
      obtain ⟨rfl, -⟩ := Piece.code.inj first
      rw [ih _ others]

/-- A text is a template in one way only. -/
theorem Template.eq_of_raw {T T' : Template} (h : T.Proper true) (h' : T'.Proper true)
    (same : T.raw = T'.raw) : T = T' := by
  refine pieces_injective .unknown ?_
  rw [← pieces_raw h, ← pieces_raw h', same]

/-- A piece is read as a part: characters with their escapes resolved, a fragment as the expression
that it is on its own. -/
inductive Renders (file : String) : Piece → Part Expr → Prop
  | text {raw chars : List Char} (unescaped : Escape.unescape raw = .ok chars) :
      Renders file (.chars raw) (.text (String.ofList chars))
  | embed {source : List Char} {start : Position} {alone e : Expr}
      (read : Expr.ofSource (String.ofList source) file = .ok alone) (same : e.bare = alone.bare) :
      Renders file (.code source start) (.embed e)

theorem renders_of_run {fuel : Nat} {start : Position} {parts : List Piece} {s t : Stream}
    {all : List (Part Expr)}
    (h : (interpolationParts (exprWithin fuel) start parts).run s = .ok (all, t)) (file : String) :
    List.Forall₂ (Renders file) parts all := by
  induction parts generalizing s t all with
  | nil =>
    cases h
    exact .nil
  | cons piece rest ih =>
    cases piece with
    | chars raw =>
      unfold interpolationParts at h
      split at h
      · next chars unescaped =>
        obtain ⟨others, u, later, ran⟩ := run_bind_ok h
        cases ran
        exact .cons (.text unescaped) (ih later)
      · cases h
    | code source place =>
      obtain ⟨e, u, read, h⟩ := run_bind_ok h
      obtain ⟨others, u, later, ran⟩ := run_bind_ok h
      cases ran
      obtain ⟨alone, single, same⟩ := ofSource_of_fragment read file
      exact .cons (.embed single same.symm) (ih later)
    | unclosed raw place => cases h

theorem not_renders_unclosed {file : String} {front : List Piece} {raw : List Char}
    {place : Position} {all : List (Part Expr)} :
    ¬List.Forall₂ (Renders file) (front ++ [.unclosed raw place]) all := by
  intro h
  induction front generalizing all with
  | nil => cases h with | cons first _ => cases first
  | cons piece rest ih => cases h with | cons _ others => exact ih others

/-- Every fragment is an expression on its own, and the escapes of every text before one resolve. -/
def Template.Reads (file : String) : Template → Prop
  | .text _ => True
  | .code chars fragment rest => (∃ found, Escape.unescape chars = .ok found) ∧
      (∃ e, Expr.ofSource (String.ofList fragment) file = .ok e) ∧ rest.Reads file

theorem run_bind_error {α β : Type} {reader : Parse α} {next : α → Parse β} {s : Stream}
    {e : Error} (h : reader.run s = .error e) : (reader >>= next).run s = .error e := by
  rw [StateT.run_bind, h]
  rfl

/-- What comes before a piece that fails is read, so it is that piece that fails. -/
theorem run_closed {file : String} {T : Template} (reads : T.Reads file) {fuel : Nat}
    (room : T.raw.length ≤ fuel) {rest : List Piece} {start : Position} {error : Error}
    (fails : ∀ s, (interpolationParts (exprWithin fuel) start rest).run s = .error error)
    (p : Position) (s : Stream) :
    (interpolationParts (exprWithin fuel) start (T.closed p ++ rest)).run s = .error error := by
  induction T generalizing p s with
  | text chars => exact fails s
  | code chars fragment more ih =>
    obtain ⟨⟨found, unescaped⟩, ⟨e, alone⟩, others⟩ := reads
    simp only [Template.raw, List.length_append, List.length_cons] at room
    have behind : ∀ q s, (interpolationParts (exprWithin fuel) start
        (.code fragment q :: (more.closed ((q.after fragment).advance '\x7d') ++ rest))).run s =
          .error error := by
      intro q s
      have inside : fragment.length ≤ fuel := by omega
      obtain ⟨e', u, read, _⟩ := fragment_of_ofSource alone inside q s
      exact (run_bind_of_ok read).trans (run_bind_error (ih others (by omega) _ u))
    by_cases empty : chars = []
    · subst empty
      exact behind _ s
    · have split : (Template.code chars fragment more).closed p ++ rest = .chars chars ::
          .code fragment ((p.after chars).advance '\x7b') ::
            (more.closed ((((p.after chars).advance '\x7b').after fragment).advance '\x7d') ++
              rest) := by
        simp [Template.closed, Template.piece, empty]
      rw [split, interpolationParts, unescaped]
      exact run_bind_error (behind _ s)

end Grammar

open Machine

/-- On top of any work and any values, the machine runs an expression to its value. -/
def Setting.Leaves (σ : Setting) (w : World) (e : Expr) (v : Value) (w' : World) : Prop :=
  ∀ K V, Reaches (σ.machine w.frames (.expr e :: K) V, w.context)
    (σ.machine w'.frames K (v :: V), w'.context)

/-- The texts of parts and the values of what is embedded in them, one behind the other. -/
inductive Setting.Shows (σ : Setting) : World → List (Part Expr) → String → World → Prop
  | nil {w : World} : Shows σ w [] "" w
  | text {w w' : World} {chars shown : String} {rest : List (Part Expr)}
      (others : Shows σ w rest shown w') : Shows σ w (.text chars :: rest) (chars ++ shown) w'
  | embed {w between w' : World} {e : Expr} {v : Value} {shown : String} {rest : List (Part Expr)}
      (value : σ.Leaves w e v between) (others : Shows σ between rest shown w') :
      Shows σ w (.embed e :: rest) (v.describe ++ shown) w'

section
variable {σ : Setting} {w w' : World} {parts : List (Part Expr)} {shown : String}

/-- What is embedded is evaluated from left to right, and its values wait in the order of the
parts. -/
theorem Setting.Shows.exists_values (h : σ.Shows w parts shown w') (K : List Work)
    (V : List Value) :
    ∃ values : List Value, values.length = (Part.embedded parts).length ∧
      joinParts parts values = shown ∧
      Reaches (σ.machine w.frames (operands (Part.embedded parts) ++ K) V, w.context)
        (σ.machine w'.frames K (values.reverse ++ V), w'.context) := by
  induction h generalizing V with
  | nil => exact ⟨[], rfl, rfl, .refl⟩
  | text _ ih =>
    obtain ⟨values, count, joined, run⟩ := ih V
    exact ⟨values, count, by rw [joinParts, joined], run⟩
  | @embed w between w' e v shown rest value _ ih =>
    obtain ⟨values, count, joined, run⟩ := ih (v :: V)
    refine ⟨v :: values, by simp [Part.embedded, count], by rw [joinParts, joined], ?_⟩
    refine (value (operands (Part.embedded rest) ++ K) V).trans ?_
    simpa using run

/-- The machine joins texts and values in the order of the parts. -/
theorem Setting.Shows.leaves (h : σ.Shows w parts shown w') (mark : Mark) :
    σ.Leaves w (.interpolation mark parts) (.string shown) w' := by
  intro K V
  obtain ⟨values, count, joined, run⟩ := h.exists_values (.joinText parts mark.start :: K) V
  refine .head (next_of_perform rfl (perform_interpolation mark parts)) (run.tail ?_)
  rw [← joined]
  exact next_of_perform rfl (perform_joinText count mark.start)

end

open Grammar

/-- An interpolated text that is read is a template in exactly one way. Its node has a part for each
text that is not empty and for each fragment, in their order, and evaluates to these texts and the
values of the fragments one behind the other. A text that is well formed up to a brace that nothing
closes is refused at that brace. -/
theorem interpolation_lossless (fuel : Nat) (s : Stream) (file : String) :
    (∀ node t, (interpolation (exprWithin fuel)).run s = .ok (node, t) →
      ∃ T : Template, T.Proper true ∧ T.raw = s.current.value.toList ∧
        (∀ T' : Template, T'.Proper true → T'.raw = s.current.value.toList → T' = T) ∧
        ∃ parts, node = .interpolation node.mark parts ∧
          List.Forall₂ (Renders file) (T.pieces (s.current.span.start.advance '\x60')) parts ∧
          ∀ (σ : Setting) (w : World) (shown : String) (w' : World),
            σ.Shows w parts shown w' → σ.Leaves w node (.string shown) w') ∧
    ∀ (T : Template) (behind : List Char), T.Proper false → T.Reads file →
      (∀ inner rest, Balanced inner → behind ≠ inner ++ '\x7d' :: rest) →
      s.current.value.toList = T.raw ++ '\x7b' :: behind → s.current.value.length ≤ fuel →
      (interpolation (exprWithin fuel)).run s =
        .error ⟨.unexpectedTokenDetailed (String.ofList ('\x7b' :: behind))
          "unterminated \x60\x7b\x60 in interpolated string",
          (s.current.span.start.advance '\x60').after T.raw⟩ := by
  constructor
  · intro node t ran
    obtain ⟨token, u, took, ran⟩ := run_bind_ok ran
    cases took
    obtain ⟨parts, u, read, ran⟩ := run_bind_ok ran
    cases ran
    have rendered := renders_of_run read file
    obtain ⟨T, proper, whole⟩ | ⟨T, behind, proper, whole, unclosed⟩ :=
      exists_template s.current.value.toList
    · refine ⟨T, proper, whole, fun T' proper' whole' =>
        T'.eq_of_raw proper' proper (whole'.trans whole.symm), parts, rfl, ?_, ?_⟩
      · rwa [← whole, pieces_raw proper] at rendered
      · exact fun σ w shown w' shows => shows.leaves _
    · rw [whole, pieces_raw_unclosed proper unclosed] at rendered
      exact absurd rendered not_renders_unclosed
  · intro T behind proper reads unclosed whole room
    have missing : closeBrace? .start behind = none := by
      cases found : closeBrace? .start behind with
      | none => rfl
      | some split =>
        obtain ⟨same, balanced⟩ := closeBrace?_eq_some_iff.1 found
        exact absurd same (unclosed _ _ balanced)
    have within : T.raw.length ≤ fuel := by
      rw [← String.length_toList, whole, List.length_append] at room
      omega
    refine (run_bind_of_ok (run_take _)).trans (run_bind_error ?_)
    rw [whole, pieces_raw_unclosed proper missing]
    exact run_closed reads within (fun _ => rfl) _ _

/-- An escaped brace, a number and a brace between double quotes. -/
def bracedText : String := "\\\x7b\x7b1\x7d, \x7b\"\x7d\"\x7d"

/-- A brace that would be closed between double quotes. -/
def unclosedText : String := "a\x7b1\x7db\x7b\"\x7d\""

def interpolated (text : String) : Stream := .ofTokens [⟨.interpolation, text, .nowhere⟩] "" 0

def noTables : Setting := ⟨⟨.empty, .empty, .empty⟩, 0⟩

def Expr.embeds? : Expr → Option (String × Nat × String × String)
  | .interpolation _ [.text a, .embed (.number _ n), .text b, .embed (.string _ c)] =>
    some (a, n, b, c)
  | _ => none

theorem Expr.eq_of_embeds? {e : Expr} {a b c : String} {n : Nat}
    (h : e.embeds? = some (a, n, b, c)) : ∃ mark first second, e = .interpolation mark
      [.text a, .embed (.number first n), .text b, .embed (.string second c)] := by
  unfold embeds? at h
  split at h
  · cases h
    exact ⟨_, _, _, rfl⟩
  · cases h

theorem interpolation_lossless_braced :
    (∃ node t, (interpolation (exprWithin 20)).run (interpolated bracedText) = .ok (node, t) ∧
      (∃ T : Template, T.Proper true ∧ T.raw = bracedText.toList) ∧
      noTables.Leaves ⟨[[]], .initial "" 0⟩ node (.string "\x7b1, \x7d") ⟨[[]], .initial "" 0⟩) ∧
    (interpolation (exprWithin 20)).run (interpolated unclosedText) =
      .error ⟨.unexpectedTokenDetailed "\x7b\"\x7d\""
        "unterminated \x60\x7b\x60 in interpolated string", ⟨6, 1, 7, "<null>"⟩⟩ := by
  constructor
  · have shape : ((interpolation (exprWithin 20)).run (interpolated bracedText)).toOption.bind
        (fun result => result.1.embeds?) = some ("\x7b", 1, ", ", "\x7d") := by decide +kernel
    obtain ⟨⟨node, t⟩, read, embeds⟩ := Option.bind_eq_some_iff.1 shape
    obtain ⟨mark, first, second, rfl⟩ := Expr.eq_of_embeds? embeds
    have ran := eq_ok_of_toOption read
    obtain ⟨T, proper, whole, _, parts, same, _, leaves⟩ :=
      (interpolation_lossless 20 (interpolated bracedText) "").1 _ _ ran
    cases same
    refine ⟨_, t, ran, ⟨T, proper, whole⟩, leaves _ _ _ _ ?_⟩
    have number : noTables.Leaves ⟨[[]], .initial "" 0⟩ (.number first 1) (.number 1)
        ⟨[[]], .initial "" 0⟩ := fun K V => .single (next_of_perform rfl (run_push _))
    have string : noTables.Leaves ⟨[[]], .initial "" 0⟩ (.string second "\x7d") (.string "\x7d")
        ⟨[[]], .initial "" 0⟩ := fun K V => .single (next_of_perform rfl (run_push _))
    exact .text (.embed number (.text (.embed string .nil)))
  · refine (interpolation_lossless 20 (interpolated unclosedText) "").2
      (.code ['a'] ['1'] (.text ['b'])) ['\x22', '\x7d', '\x22'] ?_ ?_ ?_ rfl (by decide)
    · exact ⟨.char nofun nofun .nil, .char nofun nofun nofun .nil, .char nofun nofun .nil⟩
    · refine ⟨⟨['a'], by simp [Escape.unescape]; rfl⟩, ?_, trivial⟩
      have accepted : (Expr.ofSource "1" "").toBool = true := by decide +kernel
      cases alone : Expr.ofSource "1" "" with
      | error e =>
        rw [alone] at accepted
        cases accepted
      | ok e => exact ⟨e, rfl⟩
    · intro inner rest balanced same
      cases closeBrace?_eq_some_iff.2 ⟨same, balanced⟩

end CursorScript
