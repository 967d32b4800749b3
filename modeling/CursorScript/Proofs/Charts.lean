import CursorScript.Proofs.Lexemes

/-!
Charts of a script. What is asked of the places of a script is asked in the same way of all of them:
a chart says which places it shows, and where a text has to stand so that its tokens start and end
at such places. As no token starts or ends with a blank, a chart has to show no place that only
blanks are next to.
-/
namespace CursorScript
open Position (Within)

namespace Lexeme
variable {c : Char} {cs text rest : List Char} {kind : TokenKind} {value : String}

theorem isBlank_of_refused (h : first? (c :: cs) = none) : Text.isBlank c = false := by
  have scanned := List.findSome?_eq_none_iff.1 h blanks (by simp [scanners])
  cases blank : Text.isBlank c with
  | false => rfl
  | true => simp [blanks, run?, blank] at scanned

/-- What a token is read from starts with no blank. -/
theorem isBlank_of_first? (h : first? (c :: cs) = some (⟨some kind, text⟩, rest)) :
    Text.isBlank c = false := by
  cases blank : Text.isBlank c with
  | false => rfl
  | true => simp [first?, scanners, blanks, run?, blank] at h

def EndsDark (text : List Char) : Prop :=
  ∃ front c, text = front ++ [c] ∧ Text.isBlank c = false

theorem EndsDark.append (h : EndsDark text) (front : List Char) : EndsDark (front ++ text) := by
  obtain ⟨inner, c, rfl, dark⟩ := h
  exact ⟨front ++ inner, c, by simp, dark⟩

theorem EndsDark.cons (h : EndsDark text) (c : Char) : EndsDark (c :: text) := h.append [c]

theorem endsDark_of_run {first next : Char → Bool} (starts : ∀ c, first c = true → next c = true)
    (dark : ∀ c, next c = true → Text.isBlank c = false) (h : Run first next text) :
    EndsDark text := by
  have whole : ∀ c ∈ text, next c = true := by
    obtain ⟨start, others⟩ := h
    exact List.forall_mem_cons.2 ⟨starts _ start, others⟩
  have nonempty : text ≠ [] := by
    cases h
    simp
  have last := List.getLast_mem nonempty
  exact ⟨text.dropLast, text.getLast nonempty, (List.dropLast_concat_getLast nonempty).symm,
    dark _ (whole _ last)⟩

theorem isBlank_of_isNumeral (c : Char) (h : isNumeral c = true) : Text.isBlank c = false := by
  rcases Bool.or_eq_true_iff.1 h with digit | underscore
  · have bounds := bounds_of_isDigit digit
    exact isBlank_of_bounds bounds.1 (by omega)
  · rw [beq_iff_eq.1 underscore]
    decide

theorem isBlank_of_isNameChar (c : Char) (h : isNameChar c = true) : Text.isBlank c = false := by
  have sorts : isNameStart c = true ∨ isDigit c = true := by
    simp only [isNameChar, Char.isAlphanum, Bool.or_eq_true] at h
    simp only [isNameStart, Bool.or_eq_true]
    rcases h with (letter | digit) | underscore
    · exact .inl (.inl letter)
    · exact .inr digit
    · exact .inl (.inr underscore)
  rcases sorts with letter | digit
  · have bounds := bounds_of_isNameStart letter
    exact isBlank_of_bounds (by omega) bounds.2
  · exact isBlank_of_isNumeral c (by simp [isNumeral, digit])

theorem isBlank_of_isPathChar (c : Char) (h : isPathChar c = true) : Text.isBlank c = false := by
  simp only [isPathChar, Bool.or_eq_true, beq_iff_eq] at h
  rcases h with (name | rfl) | rfl
  · exact isBlank_of_isNameChar c name
  · decide
  · decide

theorem isNameChar_of_isNameStart (c : Char) (h : isNameStart c = true) : isNameChar c = true := by
  simp only [isNameStart, Bool.or_eq_true] at h
  rcases h with letter | underscore
  · simp [isNameChar, Char.isAlphanum, letter]
  · simp [isNameChar, underscore]

theorem endsDark_of_spelling {spelled : String} (h : (spelled, kind) ∈ TokenKind.spellings) :
    EndsDark spelled.toList := by
  have listed : ∀ entry ∈ TokenKind.spellings,
      (entry.1.toList.getLast?.any fun c => !Text.isBlank c) = true := by decide +kernel
  obtain ⟨c, last, dark⟩ := (Option.any_eq_true _ _).1 (listed _ h)
  obtain ⟨front, whole⟩ := List.getLast?_eq_some_iff.1 last
  exact ⟨front, c, whole, by simpa using dark⟩

/-- What a token stands for ends with no blank. -/
theorem endsDark_of_denotes (h : Denotes kind text value) : EndsDark text := by
  have digits : ∀ {text}, Run isDigit isNumeral text → EndsDark text := fun run =>
    endsDark_of_run (fun c digit => by simp [isNumeral, digit]) isBlank_of_isNumeral run
  have name : ∀ {text}, Run isNameStart isNameChar text → EndsDark text := fun run =>
    endsDark_of_run isNameChar_of_isNameStart isBlank_of_isNameChar run
  have path : ∀ {text}, Run isNameStart isPathChar text → EndsDark text := fun run =>
    endsDark_of_run (fun c start => by simp [isPathChar, isNameChar_of_isNameStart c start])
      isBlank_of_isPathChar run
  cases h with
  | number run => exact digits run
  | real _ run => exact ((digits run).cons '.').append _
  | word run => exact name run
  | string => exact ⟨_, '\x22', rfl, by decide⟩
  | interpolation => exact ⟨_, '\x60', rfl, by decide⟩
  | material run => exact (name run).cons '#'
  | materialPath _ run => exact ((path run).cons ':').append _
  | spelling listed => exact endsDark_of_spelling listed

end Lexeme

/-- Which places of a script are shown, and where a text may stand. A place is shown if a text ends
there, or one starts there with what is no blank, or such a character is in front of it. -/
structure Chart where
  Good : Position → Prop
  Sits : Position → List Char → Prop
  ending : ∀ {p : Position}, Sits p [] → Good p
  starting : ∀ {p : Position} {c : Char} {text : List Char}, Sits p (c :: text) →
    Text.isBlank c = false → Good p
  stopping : ∀ {p : Position} {c : Char} {text more : List Char},
    Sits p (text ++ [c] ++ more) → Text.isBlank c = false → Good (p.after (text ++ [c]))
  right : ∀ {p : Position} {text more : List Char}, Sits p (text ++ more) → Sits (p.after text) more
  left : ∀ {p : Position} {c : Char} {text more : List Char}, Sits p (text ++ c :: more) →
    Text.isBlank c = false → Sits p text

def Chart.whole (script : List Char) (file : String) : Chart where
  Good := Within script file
  Sits := Position.Sits script file
  ending := Position.Sits.within
  starting h _ := h.within
  stopping h _ := h.right.within
  right := Position.Sits.right
  left h _ := h.left

variable {chart : Chart}

theorem Chart.tail {p : Position} {c : Char} {text : List Char} (h : chart.Sits p (c :: text)) :
    chart.Sits (p.advance c) text := @Chart.right chart p [c] text h

/-- A token starts and ends at places that are shown, and an interpolated text is what the script
has there. -/
structure Token.Placed (chart : Chart) (token : Token) : Prop where
  start : chart.Good token.span.start
  stop : chart.Good token.span.stop
  inside : token.kind = .interpolation →
    chart.Sits (token.span.start.advance '\x60') token.value.toList

namespace Token

theorem placed_ending {p : Position} (h : chart.Good p) : (ending p).Placed chart := ⟨h, h, nofun⟩

/-- The first token of a text that stands in a script. -/
theorem placed_first {cs text rest : List Char} {p : Position} {kind : TokenKind} {value : String}
    (found : Lexeme.first? cs = some (⟨some kind, text⟩, rest)) (start : chart.Good p)
    (h : chart.Sits p (text ++ rest)) (valued : valueOf kind text p = .ok value) :
    Placed chart ⟨kind, value, p, p.after text⟩ := by
  have denotes : Lexeme.Denotes kind text value := Lexeme.sorted_first? found p value valued
  obtain ⟨front, last, ends, dark⟩ := Lexeme.endsDark_of_denotes denotes
  refine ⟨start, ?_, ?_⟩
  · rw [ends] at h ⊢
    exact chart.stopping h dark
  · rintro rfl
    obtain ⟨inner, rfl⟩ := Lexeme.eq_of_interpolation found
    have same : value = String.ofList inner := by
      cases valued
      simp [inside]
    rw [same, String.toList_ofList]
    have opened : chart.Sits (p.advance '\x60') (inner ++ '\x60' :: rest) := by
      simpa using chart.tail h
    exact chart.left opened (by decide)

/-- The tokens of a text that stands in a script are placed, and so is what is wrong with it. -/
theorem placed_of_scan (p : Position) (cs : List Char) (h : chart.Sits p cs) :
    (∀ e, scan p cs = .error e → chart.Good e.position) ∧
    ∀ tokens, scan p cs = .ok tokens → ∀ token ∈ tokens, token.Placed chart := by
  fun_induction scan p cs with
  | case1 p =>
    refine ⟨by rintro _ ⟨⟩, fun tokens read token mem => ?_⟩
    cases read
    cases List.mem_singleton.1 mem
    exact placed_ending (chart.ending h)
  | case2 p c behind found =>
    refine ⟨fun e failed => ?_, by rintro _ ⟨⟩⟩
    cases failed
    exact chart.starting h (Lexeme.isBlank_of_refused found)
  | case3 p c behind text rest found ih =>
    obtain ⟨whole, _⟩ := Lexeme.faithful_first? _ _ _ found
    rw [← whole] at h
    exact ih (chart.right h)
  | case4 p c behind kind text rest found ih =>
    have start := chart.starting h (Lexeme.isBlank_of_first? found)
    obtain ⟨whole, _⟩ := Lexeme.faithful_first? _ _ _ found
    rw [← whole] at h
    obtain ⟨faults, others⟩ := ih (chart.right h)
    cases valued : valueOf kind text p with
    | error e =>
      refine ⟨fun e' failed => ?_, by rintro _ ⟨⟩⟩
      cases failed
      rw [position_of_valueOf valued]
      exact start
    | ok value =>
      have first := placed_first found start h valued
      cases scanned : scan (p.after text) rest with
      | error e =>
        refine ⟨fun e' failed => ?_, by rintro _ ⟨⟩⟩
        cases failed
        exact faults e scanned
      | ok more =>
        refine ⟨by rintro _ ⟨⟩, fun tokens read => ?_⟩
        cases read
        exact List.forall_mem_cons.2 ⟨first, others more scanned⟩

theorem placed_scan {script : List Char} {file : String} (p : Position) (cs : List Char)
    (h : Position.Sits script file p cs) :
    (∀ e, scan p cs = .error e → Within script file e.position) ∧
    ∀ tokens, scan p cs = .ok tokens → ∀ token ∈ tokens, token.Placed (.whole script file) :=
  @placed_of_scan (.whole script file) p cs h

/-- A text is never cut into no tokens at all. -/
theorem ne_nil_of_scan {p : Position} {cs : List Char} {tokens : List Token}
    (h : scan p cs = .ok tokens) : tokens ≠ [] := by
  fun_induction scan p cs generalizing tokens with
  | case1 p =>
    cases h
    simp
  | case2 p c behind found => cases h
  | case3 p c behind text rest found ih => exact ih h
  | case4 p c behind kind text rest found ih =>
    cases valued : valueOf kind text p with
    | error e =>
      rw [valued] at h
      cases h
    | ok value =>
      cases others : scan (p.after text) rest with
      | error e =>
        rw [valued, others] at h
        cases h
      | ok more =>
        rw [valued, others] at h
        cases h
        simp

end Token

namespace Grammar

/-- A piece of an interpolated text stands where it says. -/
def Piece.Placed (chart : Chart) : Piece → Prop
  | .chars _ => True
  | .code source start => chart.Sits start source
  | .unclosed _ start => chart.Good start

theorem Piece.placed_ofChars {before : List Char} {piece : Piece} (h : piece ∈ ofChars before) :
    piece.Placed chart := by
  unfold ofChars at h
  split at h
  · cases h
  · cases List.mem_singleton.1 h
    exact trivial

theorem placed_pieces (p : Position) (before raw : List Char) (h : chart.Sits p raw) :
    ∀ piece ∈ pieces p before raw, piece.Placed chart := by
  fun_induction pieces p before raw with
  | case1 p before => exact fun piece => Piece.placed_ofChars
  | case2 p before => exact fun piece => Piece.placed_ofChars
  | case3 p before e rest ih => exact ih (chart.tail (chart.tail h))
  | case4 p before cs =>
    intro piece mem
    cases List.mem_singleton.1 mem
    exact chart.starting h (by decide)
  | case5 p before cs inner behind closed _ start ih =>
    have stands : chart.Sits start (inner ++ '\x7d' :: behind) :=
      closeBrace?_append closed ▸ chart.tail h
    intro piece mem
    rcases List.mem_append.1 mem with chars | code
    · exact Piece.placed_ofChars chars
    · rcases List.mem_cons.1 code with rfl | later
      · exact chart.left stands (by decide)
      · exact ih (chart.tail (chart.right stands)) piece later
  | case6 p before c cs _ _ ih => exact ih (chart.tail h)

end Grammar

end CursorScript
