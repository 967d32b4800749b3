import CursorScript.Proofs.Templates

/-!
Every text has a literal, between double quotes as well as between backticks. A backslash before
each character that would mean something else is enough: the search for the closing quote, the
search for braces and the reading of escapes all take a backslash with the character behind it.
-/
namespace CursorScript

namespace Escape

def guard (marks text : List Char) : List Char :=
  text.flatMap fun c => if c ∈ marks then ['\\', c] else [c]

/-- The characters that a backslash stands before to mean themselves. -/
def selfMarks : List Char := ['\\', '\x22', '\x60', '\x7b', '\x7d']

theorem guard_cons_mem {marks : List Char} {c : Char} (h : c ∈ marks) (text : List Char) :
    guard marks (c :: text) = '\\' :: c :: guard marks text := by
  simp [guard, h]

theorem guard_cons_not_mem {marks : List Char} {c : Char} (h : c ∉ marks) (text : List Char) :
    guard marks (c :: text) = c :: guard marks text := by
  simp [guard, h]

theorem guard_eq_nil {marks text : List Char} : guard marks text = [] ↔ text = [] := by
  cases text with
  | nil => simp [guard]
  | cons c text =>
    by_cases h : c ∈ marks
    · simp [guard_cons_mem h]
    · simp [guard_cons_not_mem h]

theorem escaped_of_mem {c : Char} (h : c ∈ selfMarks) : c ≠ 'x' ∧ c ≠ '\n' ∧ escaped c = [c] := by
  simp only [selfMarks, List.mem_cons, List.not_mem_nil, or_false] at h
  rcases h with rfl | rfl | rfl | rfl | rfl <;> decide

section
variable {marks : List Char} (meant : marks ⊆ selfMarks) (backslash : '\\' ∈ marks)
include meant backslash

/-- The escapes of a guarded text resolve to the text. -/
theorem unescape_guard (text : List Char) : unescape (guard marks text) = .ok text := by
  induction text with
  | nil => simp [guard, unescape]
  | cons c text ih =>
    by_cases h : c ∈ marks
    · obtain ⟨plain, _, same⟩ := escaped_of_mem (meant h)
      rw [guard_cons_mem h, unescape.eq_def]
      simp only [if_true, plain, if_false, ih, same]
      rfl
    · have plain : c ≠ '\\' := fun same => h (same ▸ backslash)
      rw [guard_cons_not_mem h, unescape.eq_def]
      simp only [plain, if_false, ih]
      rfl

/-- A guarded text stands between two of the quotes it guards. -/
theorem quotable_guard {quote : Char} (quoted : quote ∈ marks) (text : List Char) :
    Lexeme.Quotable quote (guard marks text) := by
  induction text with
  | nil => exact .nil
  | cons c text ih =>
    by_cases h : c ∈ marks
    · rw [guard_cons_mem h]
      exact .escape (escaped_of_mem (meant h)).2.1 ih
    · rw [guard_cons_not_mem h]
      exact .char (fun same => h (same ▸ quoted)) (fun same => h (same ▸ backslash)) ih

omit meant in
theorem guarded_guard {mark : Char} (marked : mark ∈ marks) (last : Bool) (text : List Char) :
    Grammar.Guarded mark last (guard marks text) := by
  induction text with
  | nil => exact .nil
  | cons c text ih =>
    by_cases h : c ∈ marks
    · rw [guard_cons_mem h]
      exact .escape ih
    · rw [guard_cons_not_mem h]
      exact .char (fun same => h (same ▸ marked)) (fun same => h (same ▸ backslash)) ih

end

end Escape

open Escape Grammar

/-- What a backslash stands before between double quotes. -/
def stringMarks : List Char := ['\\', '\x22']

/-- What a backslash stands before between backticks. -/
def backtickMarks : List Char := ['\\', '\x60', '\x7b']

theorem stringMarks_subset : stringMarks ⊆ selfMarks := by simp [stringMarks, selfMarks]

theorem backtickMarks_subset : backtickMarks ⊆ selfMarks := by simp [backtickMarks, selfMarks]

def stringLiteral (text : String) : String :=
  String.ofList ('\x22' :: guard stringMarks text.toList ++ ['\x22'])

def backtickLiteral (text : String) : String :=
  String.ofList ('\x60' :: guard backtickMarks text.toList ++ ['\x60'])

/-- The tokens of a source that is one lexeme: a token that spans all of it, and the closing one. -/
def soleToken (kind : TokenKind) (value source file : String) : List Token :=
  let stop := (Position.start file).after source.toList
  [⟨kind, value, ⟨.start file, stop⟩⟩, .ending stop]

theorem words_soleToken (kind : TokenKind) (value source file : String) :
    (soleToken kind value source file).map Token.word =
      [(kind, value), (Token.ending .unknown).word] := rfl

theorem tokenize_of_denotes {kind : TokenKind} {lexeme : List Char} {value : String}
    (h : Lexeme.Denotes kind lexeme value) (file : String) :
    Token.tokenize (String.ofList lexeme) file =
      .ok (soleToken kind value (String.ofList lexeme) file) := by
  unfold Token.tokenize soleToken
  rw [String.toList_ofList]
  exact Token.scan_of_denotes h _

theorem tokenize_stringLiteral (text file : String) :
    Token.tokenize (stringLiteral text) file =
      .ok (soleToken .string text (stringLiteral text) file) := by
  have quotable : Lexeme.Quotable '\x22' (guard stringMarks text.toList) :=
    quotable_guard stringMarks_subset (by decide) (by decide) _
  have denotes := Lexeme.Denotes.string quotable (unescape_guard stringMarks_subset (by decide) _)
  rw [String.ofList_toList] at denotes
  exact tokenize_of_denotes denotes file

theorem tokenize_backtickLiteral (text file : String) :
    Token.tokenize (backtickLiteral text) file =
      .ok (soleToken .interpolation (String.ofList (guard backtickMarks text.toList))
        (backtickLiteral text) file) := by
  have quotable : Lexeme.Quotable '\x60' (guard backtickMarks text.toList) :=
    quotable_guard backtickMarks_subset (by decide) (by decide) _
  exact tokenize_of_denotes (.interpolation quotable) file

def textParts (text : String) : List (Part Expr) := if text = "" then [] else [.text text]

namespace Grammar

/-- A guarded text has a single part, or none if it is empty. -/
theorem consumes_backticked (expr : ExprReader) (text : String) (more : List Word) :
    Consumes (interpolation expr)
      ((.interpolation, String.ofList (guard backtickMarks text.toList)) :: more) more
      fun e => ∃ mark, e = .interpolation mark (textParts text) := by
  refine consumes_take.bind fun token is => ?_
  have value : token.value.toList = guard backtickMarks text.toList := by
    rw [show token.value = _ from congrArg Prod.snd is, String.toList_ofList]
  have guarded : Guarded '\x7b' true (guard backtickMarks text.toList) :=
    guarded_guard (by decide) (by decide) _ _
  have unescaped : unescape (guard backtickMarks text.toList) = .ok text.toList :=
    unescape_guard backtickMarks_subset (by decide) _
  have parts : Consumes (interpolationParts expr token.span.start
      (Template.piece (guard backtickMarks text.toList))) more more (· = textParts text) := by
    unfold Template.piece textParts
    by_cases empty : text = ""
    · subst empty
      exact .pure rfl
    · rw [if_neg (by simpa [guard_eq_nil] using empty), if_neg empty, interpolationParts, unescaped]
      exact .pure_bind (.pure (by simp))
  dsimp only
  rw [value, pieces_last guarded, List.append_nil, ofChars_reverse]
  refine parts.bind ?_
  rintro _ rfl
  exact consumes_freshId.bind fun id _ => .pure ⟨_, rfl⟩

/-- An operand before something that does not continue it is all of the expression. -/
theorem consumes_lone_operand {fuel : Nat} {words more : List Word} {post : Expr → Prop}
    (h : Consumes (operand (exprWithin fuel)) words more post) (stop : pull more = 0) :
    Consumes (exprWithin (fuel + 1) .loosest) words more post := by
  refine h.bind fun left is => consumes_get.bind fun s faces => ?_
  have ends : (Power.ofToken (headKind more)).rank ≤ Power.loosest.rank := Nat.le_of_eq stop
  cases limit : s.limit with
  | zero => exact absurd s.weight_lt (by omega)
  | succ limit =>
    refine consumes_kind ?_
    rw [if_pos ends]
    exact .pure is

end Grammar

theorem ofSource_backtickLiteral (text file : String) :
    ∃ mark, Expr.ofSource (backtickLiteral text) file =
      .ok (.interpolation mark (textParts text)) := by
  have scanned := tokenize_backtickLiteral text file
  generalize tokens : soleToken .interpolation (String.ofList (guard backtickMarks text.toList))
    (backtickLiteral text) file = all at scanned
  have faces : (Stream.ofTokens all file 0).Faces
      [(.interpolation, String.ofList (guard backtickMarks text.toList))] :=
    Stream.faces_ofTokens file 0 (tokens ▸ words_soleToken ..)
  cases limit : (Stream.ofTokens all file 0).limit with
  | zero => exact absurd (Stream.ofTokens all file 0).weight_lt (by omega)
  | succ fuel =>
    have operand : Consumes (operand (exprWithin fuel))
        [(.interpolation, String.ofList (guard backtickMarks text.toList))] []
        fun e => ∃ mark, e = .interpolation mark (textParts text) :=
      consumes_kind (consumes_backticked _ text [])
    obtain ⟨_, t, read, left, mark, rfl⟩ := consumes_lone_operand operand rfl _ faces
    rw [← limit] at read
    exact ⟨mark, Expr.ofSource_eq_ok.2 ⟨all, t, scanned, read, left.kind⟩⟩

theorem shows_textParts (σ : Setting) (w : World) (text : String) :
    σ.Shows w (textParts text) text w := by
  unfold textParts
  split
  · next empty =>
    rw [empty]
    exact .nil
  · have shown : σ.Shows w [.text text] (text ++ "") w := .text .nil
    rwa [String.append_empty] at shown

/-- Every text has a literal between double quotes and one between backticks. Each is cut into one
token that spans all of it; the first has the text as its value, the second is read as a node of at
most one part that evaluates to the text. -/
theorem text_literals (text file : String) :
    Token.tokenize (stringLiteral text) file =
      .ok (soleToken .string text (stringLiteral text) file) ∧
    (∃ raw, Token.tokenize (backtickLiteral text) file =
      .ok (soleToken .interpolation raw (backtickLiteral text) file)) ∧
    ∃ mark, Expr.ofSource (backtickLiteral text) file =
        .ok (.interpolation mark (textParts text)) ∧
      ∀ (σ : Setting) (w : World),
        σ.Leaves w (.interpolation mark (textParts text)) (.string text) w := by
  refine ⟨tokenize_stringLiteral text file, ⟨_, tokenize_backtickLiteral text file⟩, ?_⟩
  obtain ⟨mark, read⟩ := ofSource_backtickLiteral text file
  exact ⟨mark, read, fun σ w => (shows_textParts σ w text).leaves mark⟩

end CursorScript
