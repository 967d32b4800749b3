import CursorScript.Proofs.Lexemes
import CursorScript.Proofs.Nodes

/-!
Spans in a row. The tokens of a script follow one another between its ends, and so do the
expressions inside an interpolated text between its quotes. A node is nested if what it holds
follows one another inside it, and is nested too.
-/
namespace CursorScript

namespace Span

/-- There is something between the ends of a span. -/
def Filled (span : Span) : Prop := span.start.offset < span.stop.offset

structure Inside (span outer : Span) : Prop where
  start : outer.start.offset ≤ span.start.offset
  stop : span.stop.offset ≤ outer.stop.offset

/-- A span ends before another starts, or where it starts. -/
def Before (span next : Span) : Prop := span.stop.offset ≤ next.start.offset

inductive Row : Nat → List Span → Nat → Prop
  | nil {lo hi : Nat} (le : lo ≤ hi) : Row lo [] hi
  | cons {lo hi : Nat} {span : Span} {spans : List Span} (le : lo ≤ span.start.offset)
      (filled : span.Filled) (rest : Row span.stop.offset spans hi) : Row lo (span :: spans) hi

namespace Row
variable {lo mid hi lo' hi' : Nat} {span : Span} {spans more : List Span}

theorem le (h : Row lo spans hi) : lo ≤ hi := by
  induction h with
  | nil le => exact le
  | cons le filled _ ih => exact Nat.le_trans le (Nat.le_trans (Nat.le_of_lt filled) ih)

theorem mono (h : Row lo spans hi) (lower : lo' ≤ lo) (upper : hi ≤ hi') : Row lo' spans hi' := by
  induction h generalizing lo' with
  | nil le => exact .nil (Nat.le_trans lower (Nat.le_trans le upper))
  | cons le filled _ ih => exact .cons (Nat.le_trans lower le) filled (ih (Nat.le_refl _) upper)

theorem append (h : Row lo spans mid) (next : Row mid more hi) : Row lo (spans ++ more) hi := by
  induction h with
  | nil le => exact next.mono le (Nat.le_refl _)
  | cons le filled _ ih => exact .cons le filled (ih next)

theorem bounds (h : Row lo spans hi) (mem : span ∈ spans) :
    lo ≤ span.start.offset ∧ span.Filled ∧ span.stop.offset ≤ hi := by
  induction h with
  | nil => cases mem
  | cons le filled rest ih =>
    rcases List.mem_cons.1 mem with rfl | later
    · exact ⟨le, filled, rest.le⟩
    · obtain ⟨lower, own, upper⟩ := ih later
      exact ⟨Nat.le_trans le (Nat.le_trans (Nat.le_of_lt filled) lower), own, upper⟩

theorem pairwise (h : Row lo spans hi) : spans.Pairwise Before := by
  induction h with
  | nil => exact .nil
  | cons le filled rest ih => exact .cons (fun span mem => (rest.bounds mem).1) ih

end Row

end Span

open CursorScript.Span (Row)

/-- An interpolated text is as long as its token, quotes included. -/
def Token.Quoted (token : Token) : Prop :=
  token.kind = .interpolation → token.span.stop.offset =
    token.span.start.offset + Text.byteLength ('\x60' :: token.value.toList ++ ['\x60'])

namespace Token

theorem quoted_first {cs text rest : List Char} {p : Position} {kind : TokenKind} {value : String}
    (found : Lexeme.first? cs = some (⟨some kind, text⟩, rest))
    (valued : valueOf kind text p = .ok value) : Quoted ⟨kind, value, p, p.after text⟩ := by
  rintro rfl
  obtain ⟨inner, rfl⟩ := Lexeme.eq_of_interpolation found
  have same : value = String.ofList inner := by
    cases valued
    simp [inside]
  rw [same, String.toList_ofList, Position.after_offset]

/-- The tokens of a text lie between its ends, and the last one closes them. -/
theorem row_scan {p : Position} {cs : List Char} {tokens : List Token}
    (h : scan p cs = .ok tokens) : ∃ ahead, tokens = ahead ++ [ending (p.after cs)] ∧
      Row p.offset (ahead.map span) (p.after cs).offset ∧ ∀ token ∈ ahead, token.Quoted := by
  fun_induction scan p cs generalizing tokens with
  | case1 p =>
    cases h
    exact ⟨[], rfl, .nil (Nat.le_refl _), by simp⟩
  | case2 p c behind found => cases h
  | case3 p c behind text rest found ih =>
    obtain ⟨whole, _⟩ := Lexeme.faithful_first? _ _ _ found
    obtain ⟨ahead, rfl, row, quoted⟩ := ih h
    rw [← whole, Position.after_append]
    exact ⟨ahead, rfl, row.mono (by simp) (Nat.le_refl _), quoted⟩
  | case4 p c behind kind text rest found ih =>
    obtain ⟨whole, filled⟩ := Lexeme.faithful_first? _ _ _ found
    cases valued : valueOf kind text p with
    | error e =>
      rw [valued] at h
      cases h
    | ok value =>
      rw [valued] at h
      cases scanned : scan (p.after text) rest with
      | error e =>
        rw [scanned] at h
        cases h
      | ok others =>
        rw [scanned] at h
        cases h
        obtain ⟨ahead, rfl, row, quoted⟩ := ih scanned
        rw [← whole, Position.after_append]
        refine ⟨_ :: ahead, rfl, .cons (Nat.le_refl _) ?_ row, ?_⟩
        · show p.offset < (p.after text).offset
          rw [Position.after_offset]
          exact Nat.lt_add_of_pos_right (byteLength_pos filled)
        · exact List.forall_mem_cons.2 ⟨quoted_first found valued, quoted⟩

end Token

namespace Node

/-- What a node holds follows one another inside it, and so does what that holds. -/
def Nested (n : Node) : Prop :=
  ∀ inner ∈ n.postorder, Row inner.mark.span.start.offset
    (inner.children.map fun child => child.mark.span) inner.mark.span.stop.offset

structure Laid (lo : Nat) (nodes : List Node) (hi : Nat) : Prop where
  row : Row lo (nodes.map fun n => n.mark.span) hi
  nested : ∀ n ∈ nodes, n.Nested

theorem nested_of_children {n : Node} (row : Row n.mark.span.start.offset
      (n.children.map fun child => child.mark.span) n.mark.span.stop.offset)
    (children : ∀ child ∈ n.children, child.Nested) : n.Nested := by
  intro inner mem
  rw [postorder_eq, List.mem_append, List.mem_singleton] at mem
  rcases mem with deeper | rfl
  · obtain ⟨child, held, inside⟩ := List.mem_flatMap.1 deeper
    exact children child held inner inside
  · exact row

theorem Nested.row {n : Node} (h : n.Nested) : Row n.mark.span.start.offset
    (n.children.map fun child => child.mark.span) n.mark.span.stop.offset :=
  h n (mem_postorder_self n)

theorem Nested.child {n child : Node} (h : n.Nested) (held : child ∈ n.children) : child.Nested :=
  fun inner mem => h inner ((postorder_sublist (.single held)).subset mem)

namespace Laid
variable {lo mid hi lo' hi' : Nat} {nodes more : List Node} {n first : Node}
  {start stop : Position}

theorem nil (le : lo ≤ hi) : Laid lo [] hi := ⟨.nil le, by simp⟩

theorem mono (h : Laid lo nodes hi) (lower : lo' ≤ lo) (upper : hi ≤ hi') : Laid lo' nodes hi' :=
  ⟨h.row.mono lower upper, h.nested⟩

theorem append (h : Laid lo nodes mid) (next : Laid mid more hi) : Laid lo (nodes ++ more) hi := by
  refine ⟨?_, fun n mem => ?_⟩
  · rw [List.map_append]
    exact h.row.append next.row
  · rcases List.mem_append.1 mem with early | late
    · exact h.nested n early
    · exact next.nested n late

/-- Where a node that was read lies. -/
theorem bounds (h : Laid lo [n] hi) : lo ≤ n.mark.span.start.offset ∧
    n.mark.span.start.offset < n.mark.span.stop.offset ∧ n.mark.span.stop.offset ≤ hi :=
  h.row.bounds (by simp)

/-- Nodes in a row do so from where the first of them starts. -/
theorem tight (h : Laid lo (first :: nodes) hi) :
    Laid first.mark.span.start.offset (first :: nodes) hi := by
  refine ⟨?_, h.nested⟩
  cases h.row with | cons _ filled rest => exact .cons (Nat.le_refl _) filled rest

theorem snug (h : Laid lo [n] hi) : Laid lo [n] n.mark.span.stop.offset := by
  refine ⟨?_, h.nested⟩
  cases h.row with | cons le filled _ => exact .cons le filled (.nil (Nat.le_refl _))

/-- A node that reaches from before to behind what it holds. -/
theorem close (held : Laid lo n.children hi) (span : n.mark.span = ⟨start, stop⟩)
    (lower : start.offset ≤ lo) (upper : hi ≤ stop.offset) (filled : start.offset < stop.offset)
    (le : lo' ≤ start.offset) (ge : stop.offset ≤ hi') : Laid lo' [n] hi' := by
  have nested : n.Nested := by
    refine nested_of_children ?_ held.nested
    rw [span]
    exact held.row.mono lower upper
  refine ⟨?_, by simpa using nested⟩
  rw [List.map_singleton, span]
  exact .cons le filled (.nil ge)

/-- A node that starts with the first one that it holds. -/
theorem lead (held : Laid lo n.children hi) (children : n.children = first :: more)
    (span : n.mark.span = ⟨first.mark.span.start, stop⟩) (upper : hi ≤ stop.offset)
    (ge : stop.offset ≤ hi') : Laid lo [n] hi' := by
  rw [children] at held
  obtain ⟨le, filled, top⟩ := held.row.bounds List.mem_cons_self
  refine close (children ▸ held.tight) span (Nat.le_refl _) upper ?_ le ge
  exact Nat.lt_of_lt_of_le filled (Nat.le_trans top upper)

/-- Another node with the same ends that holds the same. -/
theorem congr {other : Node} (h : Laid lo [n] hi) (mark : other.mark = n.mark)
    (children : other.children = n.children) : Laid lo [other] hi := by
  have whole := h.nested n List.mem_cons_self
  obtain ⟨le, filled, ge⟩ := h.bounds
  refine close ⟨children ▸ whole.row, ?_⟩ (congrArg Mark.span mark) (Nat.le_refl _) (Nat.le_refl _)
    filled le ge
  rw [children]
  exact fun child held => whole.child held

end Laid

end Node

namespace Grammar

/-- The expressions inside a text follow one another from an offset up to another. -/
inductive Piece.Row : Nat → List Piece → Nat → Prop
  | nil {lo hi : Nat} (le : lo ≤ hi) : Row lo [] hi
  | chars {lo hi : Nat} {raw : List Char} {pieces : List Piece} (rest : Row lo pieces hi) :
      Row lo (.chars raw :: pieces) hi
  | code {lo hi : Nat} {source : List Char} {start : Position} {pieces : List Piece}
      (le : lo ≤ start.offset) (rest : Row (start.after source).offset pieces hi) :
      Row lo (.code source start :: pieces) hi
  | unclosed {lo hi : Nat} {raw : List Char} {start : Position} {pieces : List Piece} :
      Row lo (.unclosed raw start :: pieces) hi

namespace Piece.Row
variable {lo hi lo' : Nat} {pieces : List Piece}

theorem mono (h : Piece.Row lo pieces hi) (lower : lo' ≤ lo) : Piece.Row lo' pieces hi := by
  induction h generalizing lo' with
  | nil le => exact .nil (Nat.le_trans lower le)
  | chars _ ih => exact .chars (ih lower)
  | code le rest => exact .code (Nat.le_trans lower le) rest
  | unclosed => exact .unclosed

theorem ofChars_append (h : Piece.Row lo pieces hi) (before : List Char) :
    Piece.Row lo (Piece.ofChars before ++ pieces) hi := by
  unfold Piece.ofChars
  split
  · exact h
  · exact .chars h

end Piece.Row

theorem row_pieces (p : Position) (before raw : List Char) :
    Piece.Row p.offset (pieces p before raw) (p.after raw).offset := by
  have chars : ∀ (p : Position) (before raw : List Char),
      Piece.Row p.offset (Piece.ofChars before) (p.after raw).offset := by
    intro p before raw
    have nothing : Piece.Row p.offset [] (p.after raw).offset := .nil (by simp)
    simpa using nothing.ofChars_append before
  fun_induction pieces p before raw with
  | case1 p before => exact chars p before []
  | case2 p before => exact chars p _ _
  | case3 p before e rest ih => exact ih.mono (by simp; omega)
  | case4 p before cs => exact .unclosed
  | case5 p before cs inner behind closed _ start ih =>
    have ends : (p.after ('\x7b' :: cs)).offset =
        (((start.after inner).advance '\x7d').after behind).offset := by
      rw [closeBrace?_append closed, Position.after_cons, Position.after_append,
        Position.after_cons]
    rw [ends]
    refine Piece.Row.ofChars_append (.code ?_ (ih.mono ?_)) before
    · simp [start]
    · simp
  | case6 p before c cs _ _ ih => exact ih.mono (by simp)

end Grammar

end CursorScript
