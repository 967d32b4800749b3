import CursorScript.Grammar.Interpolation
import CursorScript.Token.Lexer

/-!
True places. A place is true of a script if it is the one behind some of the script's first
characters. A text that stands in a script has such a place, and so has all that it is cut into, also
the code inside an interpolated text.
-/
namespace CursorScript

namespace Position

/-- The place behind some text: lines are counted by the newlines in it, and columns by the
characters behind the last of them. -/
def behind (file : String) (before : List Char) : Position :=
  ⟨Text.byteLength before, 1 + before.count '\n', 1 + (before.reverse.takeWhile (· ≠ '\n')).length,
    file⟩

theorem behind_concat (file : String) (before : List Char) (c : Char) :
    behind file (before ++ [c]) = (behind file before).advance c := by
  by_cases newline : c = '\n'
  · simp [behind, advance, newline, Nat.add_assoc]
  · simp [behind, advance, newline, Nat.add_comm]

theorem behind_append (file : String) (before text : List Char) :
    behind file (before ++ text) = (behind file before).after text := by
  induction text generalizing before with
  | nil => rw [List.append_nil, after_nil]
  | cons c text ih =>
    rw [after_cons, ← behind_concat, ← ih, List.append_assoc, List.singleton_append]

/-- A place of a script. -/
def Within (script : List Char) (file : String) (p : Position) : Prop :=
  ∃ before, before <+: script ∧ p = behind file before

def Sits (script : List Char) (file : String) (p : Position) (text : List Char) : Prop :=
  ∃ before, before ++ text <+: script ∧ p = behind file before

variable {script : List Char} {file : String} {p : Position} {text more : List Char}

theorem Sits.within (h : Sits script file p text) : Within script file p := by
  obtain ⟨before, stands, rfl⟩ := h
  exact ⟨before, (List.prefix_append before text).trans stands, rfl⟩

theorem Sits.left (h : Sits script file p (text ++ more)) : Sits script file p text := by
  obtain ⟨before, stands, rfl⟩ := h
  rw [← List.append_assoc] at stands
  exact ⟨before, (List.prefix_append _ more).trans stands, rfl⟩

theorem Sits.right (h : Sits script file p (text ++ more)) :
    Sits script file (p.after text) more := by
  obtain ⟨before, stands, rfl⟩ := h
  rw [← List.append_assoc] at stands
  exact ⟨before ++ text, stands, (behind_append file before text).symm⟩

theorem Sits.tail {c : Char} (h : Sits script file p (c :: text)) :
    Sits script file (p.advance c) text := @Sits.right _ _ _ [c] text h

theorem sits_start (script : List Char) (file : String) : Sits script file (start file) script :=
  ⟨[], List.prefix_refl _, rfl⟩

end Position

namespace Lexeme

theorem ofWord_ne_interpolation (word : String) : TokenKind.ofWord word ≠ .interpolation := by
  have reserved : ∀ entry ∈ TokenKind.reserved, entry.2 ≠ .interpolation := by decide
  unfold TokenKind.ofWord
  cases found : TokenKind.reserved.lookup word with
  | none => decide
  | some kind =>
    obtain ⟨before, behind, listed, _⟩ := List.lookup_eq_some_iff.1 found
    exact reserved (word, kind) (by simp [listed])

/-- Only a text between backticks is an interpolated one. -/
theorem eq_of_interpolation {cs text rest : List Char}
    (h : first? cs = some (⟨some .interpolation, text⟩, rest)) :
    ∃ inner, text = '\x60' :: inner ++ ['\x60'] := by
  obtain ⟨scan, mem, found⟩ := List.exists_of_findSome?_eq_some h
  simp only [scanners, List.mem_cons, List.not_mem_nil, or_false] at mem
  rcases mem with rfl | rfl | rfl | rfl | rfl | rfl | rfl | rfl | rfl
  · obtain ⟨_, _, same⟩ := Option.map_eq_some_iff.1 found
    cases same
  · unfold comment at found
    split at found <;> cases found
  · unfold real at found
    split at found
    · obtain ⟨_, _, same⟩ := Option.map_eq_some_iff.1 found
      cases same
    · cases found
  · obtain ⟨_, _, same⟩ := Option.map_eq_some_iff.1 found
    cases same
  · obtain ⟨_, _, same⟩ := Option.map_eq_some_iff.1 found
    simp only [Prod.mk.injEq, Lexeme.mk.injEq, Option.some.injEq] at same
    exact absurd same.1.1 (ofWord_ne_interpolation _)
  · unfold delimited at found
    split at found
    · cases found
    · split at found
      · obtain ⟨_, _, same⟩ := Option.map_eq_some_iff.1 found
        cases same
      · cases found
  · unfold delimited at found
    split at found
    · cases found
    · split at found
      · next backtick =>
        obtain ⟨⟨inner, _⟩, _, same⟩ := Option.map_eq_some_iff.1 found
        cases same
        exact ⟨inner, by rw [backtick]⟩
      · cases found
  · unfold material at found
    split at found
    · split at found
      · cases found
      · split at found <;> cases found
      · cases found
    · cases found
  · have fixed : ∀ entry ∈ TokenKind.spellings, entry.2 ≠ .interpolation := by decide
    obtain ⟨⟨spelled, kind⟩, listed, found⟩ := List.exists_of_findSome?_eq_some found
    unfold Lexeme.fixed at found
    dsimp only at found
    split at found
    · cases found
      exact absurd rfl (fixed _ listed)
    · cases found

end Lexeme

namespace Token

theorem position_of_valueOf {kind : TokenKind} {text : List Char} {p : Position} {e : Error}
    (h : valueOf kind text p = .error e) : e.position = p := by
  unfold valueOf at h
  split at h
  · split at h <;> cases h
    rfl
  all_goals cases h

end Token

namespace Grammar

theorem eq_brace_of_step {s : BraceSearch} {c : Char} (h : s.step c = none) : c = '\x7d' := by
  unfold BraceSearch.step at h
  split at h
  · split at h
    · cases h
    · split at h
      · cases h
      · split at h <;> cases h
  · split at h
    · cases h
    · split at h
      · cases h
      · split at h
        · assumption
        · cases h

theorem closeBrace?_append {s : BraceSearch} {cs inner behind : List Char}
    (h : closeBrace? s cs = some (inner, behind)) : cs = inner ++ '\x7d' :: behind := by
  induction cs generalizing s inner behind with
  | nil => cases h
  | cons c cs ih =>
    unfold closeBrace? at h
    split at h
    · next closed =>
      cases h
      rw [eq_brace_of_step closed, List.nil_append]
    · next next _ =>
      obtain ⟨⟨inner, behind⟩, found, same⟩ := Option.map_eq_some_iff.1 h
      cases same
      rw [ih found, List.cons_append]

/-- What is embedded in a text stands between two of its braces. -/
theorem exists_of_code {p start : Position} {before raw source : List Char}
    (h : .code source start ∈ pieces p before raw) :
    ∃ front rest, raw = front ++ '\x7b' :: source ++ '\x7d' :: rest := by
  fun_induction pieces p before raw with
  | case1 p before => simp [Piece.ofChars] at h
  | case2 p before => simp [Piece.ofChars] at h
  | case3 p before e rest ih =>
    obtain ⟨front, rest, rfl⟩ := ih h
    exact ⟨'\\' :: e :: front, rest, by simp⟩
  | case4 p before cs closed => simp at h
  | case5 p before cs inner behind closed _ start ih =>
    have whole := closeBrace?_append closed
    rcases List.mem_append.1 h with early | mem
    · unfold Piece.ofChars at early
      split at early <;> simp at early
    · rcases List.mem_cons.1 mem with here | later
      · obtain ⟨rfl, _⟩ := Piece.code.inj here
        exact ⟨[], behind, by simp [whole]⟩
      · obtain ⟨front, rest, rfl⟩ := ih later
        exact ⟨'\x7b' :: inner ++ '\x7d' :: front, rest, by simp [whole]⟩
  | case6 p before c cs _ _ ih =>
    obtain ⟨front, rest, rfl⟩ := ih h
    exact ⟨c :: front, rest, by simp⟩

end Grammar

end CursorScript
