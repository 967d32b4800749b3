import CursorScript.Proofs.Places

/-!
Nothing of a script is lost when it is cut into tokens. Every token stands for a stretch of the
script, its lexeme, from which alone its kind and its value are known; and between the lexemes, in
front of the first and behind the last, there are only blanks and comments. So the script can be put
together again from what it was cut into.
-/
namespace CursorScript
open Position (behind)

def TokenKind.isPlain : TokenKind → Bool
  | eof => false
  | string => false
  | interpolation => false
  | material => false
  | _ => true

theorem TokenKind.isPlain_ofWord (word : String) : (ofWord word).isPlain = true := by
  have listed : ∀ entry ∈ reserved, entry.2.isPlain = true := by decide
  unfold ofWord
  cases found : reserved.lookup word with
  | none => rfl
  | some kind =>
    obtain ⟨before, after, same, _⟩ := List.lookup_eq_some_iff.1 found
    exact listed (word, kind) (by simp [same])

theorem TokenKind.isPlain_of_spelling {spelling : String} {kind : TokenKind}
    (h : (spelling, kind) ∈ spellings) : kind.isPlain = true := by
  have listed : ∀ entry ∈ spellings, entry.2.isPlain = true := by decide
  exact listed _ h

theorem Token.valueOf_plain {kind : TokenKind} (h : kind.isPlain = true) (text : List Char)
    (p : Position) : valueOf kind text p = .ok (String.ofList text) := by
  cases kind <;> first | rfl | cases h

namespace Lexeme

/-- A text that starts with a `first` character and goes on with `next` ones. -/
inductive Run (first next : Char → Bool) : List Char → Prop
  | mk {c : Char} {cs : List Char} (starts : first c = true) (others : ∀ d ∈ cs, next d = true) :
      Run first next (c :: cs)

/-- What may stand between two `quote` characters. A backslash keeps the next character from being
one, and may not stand before a newline. -/
inductive Quotable (quote : Char) : List Char → Prop
  | nil : Quotable quote []
  | char {c : Char} {cs : List Char} (other : c ≠ quote) (plain : c ≠ '\\')
      (rest : Quotable quote cs) : Quotable quote (c :: cs)
  | escape {e : Char} {cs : List Char} (sameLine : e ≠ '\n') (rest : Quotable quote cs) :
      Quotable quote ('\\' :: e :: cs)

/-- A lexeme with the kind and the value of the token that it stands for. The value is the lexeme
itself, the contents of a text with its escapes resolved, or the contents of an interpolated text or
a material as they are. -/
inductive Denotes : TokenKind → List Char → String → Prop
  | number {text : List Char} (digits : Run isDigit isNumeral text) :
      Denotes .number text (String.ofList text)
  | real {whole fraction : List Char} (digits : Run isDigit isNumeral whole)
      (more : Run isDigit isNumeral fraction) :
      Denotes .real (whole ++ '.' :: fraction) (String.ofList (whole ++ '.' :: fraction))
  | word {text : List Char} (name : Run isNameStart isNameChar text) :
      Denotes (.ofWord (String.ofList text)) text (String.ofList text)
  | string {inner chars : List Char} (quotable : Quotable '\x22' inner)
      (unescaped : Escape.unescape inner = .ok chars) :
      Denotes .string ('\x22' :: inner ++ ['\x22']) (String.ofList chars)
  | interpolation {inner : List Char} (quotable : Quotable '\x60' inner) :
      Denotes .interpolation ('\x60' :: inner ++ ['\x60']) (String.ofList inner)
  | material {name : List Char} (named : Run isNameStart isNameChar name) :
      Denotes .material ('#' :: name) (String.ofList name)
  | materialPath {space path : List Char} (named : Run isNameStart isNameChar space)
      (more : Run isNameStart isPathChar path) :
      Denotes .material ('#' :: space ++ ':' :: path) (String.ofList (space ++ ':' :: path))
  | spelling {spelling : String} {kind : TokenKind}
      (listed : (spelling, kind) ∈ TokenKind.spellings) : Denotes kind spelling.toList spelling

inductive Skipped (rest : List Char) : List Char → Prop
  | blanks {text : List Char} (blank : Run Text.isBlank Text.isBlank text) : Skipped rest text
  | comment {line : List Char} (sameLine : '\n' ∉ line)
      (ends : rest = [] ∨ rest.head? = some '\n') : Skipped rest ('/' :: '/' :: line)

theorem run_of_run? {first next : Char → Bool} {cs text rest : List Char}
    (h : run? first next cs = some (text, rest)) : Run first next text := by
  cases cs with
  | nil => cases h
  | cons c cs =>
    rw [run?] at h
    split at h
    · next starts =>
      cases h
      exact .mk starts (List.all_eq_true.1 List.all_takeWhile)
    · cases h

theorem quotable_of_body? {quote : Char} {cs inner rest : List Char}
    (h : body? quote cs = some (inner, rest)) : Quotable quote inner := by
  fun_induction body? quote cs generalizing inner rest with
  | case1 => cases h
  | case2 =>
    cases h
    exact .nil
  | case3 => cases h
  | case4 => cases h
  | case5 e tail sameLine _ ih =>
    obtain ⟨⟨inner, _⟩, found, same⟩ := Option.map_eq_some_iff.1 h
    cases same
    exact .escape sameLine (ih found)
  | case6 c cs other plain ih =>
    obtain ⟨⟨inner, _⟩, found, same⟩ := Option.map_eq_some_iff.1 h
    cases same
    exact .char other plain (ih found)

theorem ends_dropWhile (cs : List Char) :
    cs.dropWhile (· != '\n') = [] ∨ (cs.dropWhile (· != '\n')).head? = some '\n' := by
  have stop := List.head?_dropWhile_not (· != '\n') cs
  cases rest : cs.dropWhile (· != '\n') with
  | nil => exact .inl rfl
  | cons c cs =>
    rw [rest] at stop
    exact .inr (by simpa using stop)

/-- A lexeme is as its kind says, and without a kind it is skipped. -/
def Sorted (lexeme : Lexeme) (rest : List Char) : Prop :=
  match lexeme.kind with
  | none => Skipped rest lexeme.text
  | some kind => ∀ p value, Token.valueOf kind lexeme.text p = .ok value →
    Denotes kind lexeme.text value

section scanners
variable {cs rest : List Char} {lexeme : Lexeme}

theorem sorted_plain {kind : TokenKind} {text : List Char} (plain : kind.isPlain = true)
    (denotes : Denotes kind text (String.ofList text)) : Sorted ⟨some kind, text⟩ rest := by
  intro p value valued
  rw [Token.valueOf_plain plain] at valued
  cases valued
  exact denotes

theorem sorted_comment (h : comment cs = some (lexeme, rest)) : Sorted lexeme rest := by
  unfold comment at h
  split at h
  · next cs =>
    cases h
    refine .comment (fun mem => ?_) (ends_dropWhile cs)
    have other := List.all_eq_true.1 List.all_takeWhile _ mem
    simp at other
  · cases h

theorem sorted_real (h : real cs = some (lexeme, rest)) : Sorted lexeme rest := by
  unfold real at h
  split at h
  · next whole behind found =>
    obtain ⟨⟨fraction, _⟩, more, same⟩ := Option.map_eq_some_iff.1 h
    cases same
    exact sorted_plain rfl (.real (run_of_run? found) (run_of_run? more))
  · cases h

theorem sorted_delimited {kind : TokenKind} {quote : Char}
    (h : delimited kind quote cs = some (lexeme, rest))
    (sorted : ∀ inner, Quotable quote inner → Sorted ⟨some kind, quote :: inner ++ [quote]⟩ rest) :
    Sorted lexeme rest := by
  unfold delimited at h
  split at h
  · cases h
  · split at h
    · next quoted =>
      obtain ⟨⟨inner, _⟩, found, same⟩ := Option.map_eq_some_iff.1 h
      cases same
      rw [quoted]
      exact sorted inner (quotable_of_body? found)
    · cases h

theorem sorted_string (h : delimited .string '\x22' cs = some (lexeme, rest)) :
    Sorted lexeme rest := by
  refine sorted_delimited h fun inner quotable p value valued => ?_
  have contents : Token.inside ('\x22' :: inner ++ ['\x22']) = inner := by simp [Token.inside]
  dsimp only [Token.valueOf] at valued
  rw [contents] at valued
  split at valued
  · next chars unescaped =>
    cases valued
    exact .string quotable unescaped
  · cases valued

theorem sorted_interpolation (h : delimited .interpolation '\x60' cs = some (lexeme, rest)) :
    Sorted lexeme rest := by
  refine sorted_delimited h fun inner quotable p value valued => ?_
  have contents : Token.inside ('\x60' :: inner ++ ['\x60']) = inner := by simp [Token.inside]
  cases valued
  rw [contents]
  exact .interpolation quotable

theorem sorted_material (h : material cs = some (lexeme, rest)) : Sorted lexeme rest := by
  unfold material at h
  split at h
  · split at h
    · cases h
    · next name behind found =>
      split at h
      · next path _ more =>
        cases h
        intro p value valued
        cases valued
        exact .materialPath (run_of_run? found) (run_of_run? more)
      · cases h
        intro p value valued
        cases valued
        exact .material (run_of_run? found)
    · next name _ _ found =>
      cases h
      intro p value valued
      cases valued
      exact .material (run_of_run? found)
  · cases h

theorem sorted_spelling (h : spelling cs = some (lexeme, rest)) : Sorted lexeme rest := by
  obtain ⟨⟨spelled, kind⟩, listed, found⟩ := List.exists_of_findSome?_eq_some h
  unfold fixed at found
  dsimp only at found
  split at found
  · cases found
    refine sorted_plain (TokenKind.isPlain_of_spelling listed) ?_
    rw [String.ofList_toList]
    exact .spelling listed
  · cases found

theorem sorted_first? (h : first? cs = some (lexeme, rest)) : Sorted lexeme rest := by
  obtain ⟨scan, mem, found⟩ := List.exists_of_findSome?_eq_some h
  simp only [scanners, List.mem_cons, List.not_mem_nil, or_false] at mem
  rcases mem with rfl | rfl | rfl | rfl | rfl | rfl | rfl | rfl | rfl
  · obtain ⟨⟨text, _⟩, ran, same⟩ := Option.map_eq_some_iff.1 found
    cases same
    exact .blanks (run_of_run? ran)
  · exact sorted_comment found
  · exact sorted_real found
  · obtain ⟨⟨text, _⟩, ran, same⟩ := Option.map_eq_some_iff.1 found
    cases same
    exact sorted_plain rfl (.number (run_of_run? ran))
  · obtain ⟨⟨text, _⟩, ran, same⟩ := Option.map_eq_some_iff.1 found
    cases same
    exact sorted_plain (TokenKind.isPlain_ofWord _) (.word (run_of_run? ran))
  · exact sorted_string found
  · exact sorted_interpolation found
  · exact sorted_material found
  · exact sorted_spelling found

end scanners

/-- A run goes up to a character that does not belong to it. -/
theorem run?_append_of_run {first next : Char → Bool} {text rest : List Char}
    (h : Run first next text) (stops : ∀ d ∈ rest.head?, next d = false) :
    run? first next (text ++ rest) = some (text, rest) := by
  obtain ⟨starts, others⟩ := h
  rw [List.cons_append, run?, if_pos starts, List.takeWhile_append_of_pos others,
    List.dropWhile_append_of_pos others]
  cases rest with
  | nil => simp
  | cons d rest => simp [stops d rfl]

theorem run?_of_run {first next : Char → Bool} {text : List Char} (h : Run first next text) :
    run? first next text = some (text, []) := by
  have ran := @run?_append_of_run _ _ _ [] h (by simp)
  rwa [List.append_nil] at ran

theorem body?_of_quotable {quote : Char} {inner : List Char} (h : Quotable quote inner)
    (plain : quote ≠ '\\') (rest : List Char) :
    body? quote (inner ++ quote :: rest) = some (inner, rest) := by
  induction h with
  | nil =>
    unfold body?
    simp
  | char other simple _ ih =>
    unfold body?
    simp [other, simple, ih]
  | escape sameLine _ ih =>
    unfold body?
    simp [plain.symm, sameLine, ih]

theorem bounds_of_isDigit {c : Char} (h : isDigit c = true) : 48 ≤ c.toNat ∧ c.toNat ≤ 57 := by
  simpa [isDigit, Char.le_def, UInt32.le_iff_toNat_le] using h

theorem bounds_of_isNameStart {c : Char} (h : isNameStart c = true) :
    65 ≤ c.toNat ∧ c.toNat ≤ 122 := by
  rcases Bool.or_eq_true_iff.1 h with letter | underscore
  · rcases Bool.or_eq_true_iff.1 letter with upper | lower
    · obtain ⟨low, high⟩ : 'A'.val ≤ c.val ∧ c.val ≤ 'Z'.val := of_decide_eq_true upper
      have first : 65 ≤ c.toNat := UInt32.le_iff_toNat_le.1 low
      have last : c.toNat ≤ 90 := UInt32.le_iff_toNat_le.1 high
      omega
    · obtain ⟨low, high⟩ := Bool.and_eq_true_iff.1 lower
      have first : 97 ≤ c.toNat := UInt32.le_iff_toNat_le.1 (of_decide_eq_true low)
      have last : c.toNat ≤ 122 := UInt32.le_iff_toNat_le.1 (of_decide_eq_true high)
      omega
  · rw [eq_of_beq underscore]
    decide

theorem isBlank_of_bounds {c : Char} (low : 48 ≤ c.toNat) (high : c.toNat ≤ 122) :
    Text.isBlank c = false := by
  simp only [Text.isBlank, Bool.or_eq_false_iff, Bool.and_eq_false_iff, decide_eq_false_iff_not,
    beq_eq_false_iff_ne]
  omega

theorem isDigit_of_isNameStart {c : Char} (h : isNameStart c = true) : isDigit c = false := by
  have bounds := bounds_of_isNameStart h
  cases digit : isDigit c with
  | false => rfl
  | true =>
    have low := bounds_of_isDigit digit
    omega

theorem comment_of_ne {c : Char} (h : c ≠ '/') (cs : List Char) : comment (c :: cs) = none := by
  unfold comment
  split
  · next same =>
    cases same
    exact absurd rfl h
  · rfl

theorem ne_slash_of_bounds {c : Char} (low : 48 ≤ c.toNat) : c ≠ '/' := by
  rintro rfl
  exact absurd low (by decide)

/-- Digits are no blanks and no comment. -/
theorem first?_digits {text : List Char} (h : Run isDigit isNumeral text) (rest : List Char) :
    first? (text ++ rest) =
      [real, number, word, delimited .string '\x22', delimited .interpolation '\x60', material,
        spelling].findSome? fun scan => scan (text ++ rest) := by
  obtain ⟨starts, _⟩ := h
  obtain ⟨low, high⟩ := bounds_of_isDigit starts
  have blank := isBlank_of_bounds low (by omega)
  simp [first?, scanners, blanks, run?, blank, comment_of_ne (ne_slash_of_bounds low)]

/-- What starts like a name is no blanks, no comment and no number. -/
theorem first?_name {c : Char} {cs : List Char} (h : isNameStart c = true) :
    first? (c :: cs) =
      [word, delimited .string '\x22', delimited .interpolation '\x60', material,
        spelling].findSome? fun scan => scan (c :: cs) := by
  obtain ⟨low, high⟩ := bounds_of_isNameStart h
  have blank := isBlank_of_bounds (by omega) high
  have slash := comment_of_ne (ne_slash_of_bounds (by omega : 48 ≤ c.toNat)) cs
  simp [first?, scanners, blanks, real, number, run?, blank, slash, isDigit_of_isNameStart h]

theorem first?_of_spelling {spelled : String} {kind : TokenKind}
    (h : (spelled, kind) ∈ TokenKind.spellings) :
    first? spelled.toList = some (⟨some kind, spelled.toList⟩, []) := by
  have listed : ∀ entry ∈ TokenKind.spellings,
      first? entry.1.toList = some (⟨some entry.2, entry.1.toList⟩, []) := by
    decide +kernel
  exact listed _ h

/-- A quote or a hash sign is no blank, and no comment, number or word starts with it. -/
theorem first?_sign {c : Char} (h : c ∈ ['\x22', '\x60', '#']) (cs : List Char) :
    first? (c :: cs) =
      [delimited .string '\x22', delimited .interpolation '\x60', material,
        spelling].findSome? fun scan => scan (c :: cs) := by
  have sorts : ['\x22', '\x60', '#'].all (fun d =>
      !Text.isBlank d && !isDigit d && !isNameStart d && d != '/') = true := by
    decide
  have sort := List.all_eq_true.1 sorts c h
  simp only [Bool.and_eq_true, Bool.not_eq_true', bne_iff_ne] at sort
  obtain ⟨⟨⟨blank, digit⟩, name⟩, slash⟩ := sort
  simp [first?, scanners, blanks, real, number, word, run?, blank, digit, name, comment_of_ne slash]

/-- A lexeme on its own is cut as it was among others. -/
theorem first?_of_denotes {kind : TokenKind} {text : List Char} {value : String}
    (h : Denotes kind text value) : first? text = some (⟨some kind, text⟩, []) := by
  cases h with
  | number digits =>
    have scanned := first?_digits digits []
    rw [List.append_nil] at scanned
    simp [scanned, real, number, run?_of_run digits]
  | @real whole fraction digits more =>
    have point : run? isDigit isNumeral (whole ++ '.' :: fraction) = some (whole, '.' :: fraction) :=
      run?_append_of_run digits (by simp; decide)
    simp [first?_digits digits, real, point, run?_of_run more]
  | word name =>
    have ran := run?_of_run name
    obtain ⟨starts, _⟩ := name
    simp [first?_name starts, word, ran]
  | string quotable =>
    have closed := body?_of_quotable quotable (by decide) []
    simp [first?_sign, delimited, closed]
  | interpolation quotable =>
    have closed := body?_of_quotable quotable (by decide) []
    simp [first?_sign, delimited, closed]
  | material named => simp [first?_sign, delimited, material, run?_of_run named]
  | @materialPath space path named more =>
    have colon : run? isNameStart isNameChar (space ++ ':' :: path) = some (space, ':' :: path) :=
      run?_append_of_run named (by simp; decide)
    simp [first?_sign, delimited, material, colon, run?_of_run more]
  | spelling listed => exact first?_of_spelling listed

theorem valueOf_of_denotes {kind : TokenKind} {text : List Char} {value : String}
    (h : Denotes kind text value) (p : Position) : Token.valueOf kind text p = .ok value := by
  cases h with
  | number | real => rfl
  | word => exact Token.valueOf_plain (TokenKind.isPlain_ofWord _) _ p
  | string quotable unescaped => simp [Token.valueOf, Token.inside, unescaped]
  | interpolation => simp [Token.valueOf, Token.inside]
  | material | materialPath => rfl
  | spelling listed =>
    rw [Token.valueOf_plain (TokenKind.isPlain_of_spelling listed), String.ofList_toList]

end Lexeme

namespace Token
open Lexeme

/-- Kind and value of a token are known from its lexeme alone. -/
theorem scan_of_denotes {kind : TokenKind} {text : List Char} {value : String}
    (h : Denotes kind text value) (p : Position) :
    scan p text = .ok [⟨kind, value, p, p.after text⟩, ending (p.after text)] := by
  have found := first?_of_denotes h
  have valued := valueOf_of_denotes h p
  have nonempty := (faithful_first? _ _ _ found).2
  cases text with
  | nil => exact absurd rfl nonempty
  | cons c cs =>
    rw [scan_token p found, valued, scan_nil]
    rfl

inductive Gap (rest : List Char) : List Char → Prop
  | nil : Gap rest []
  | skip {text gap : List Char} (skipped : Skipped (gap ++ rest) text) (more : Gap rest gap) :
      Gap rest (text ++ gap)

/-- A text, with what stands before it and behind it in a script, is cut into tokens: it is their
lexemes and the gaps between, before and behind them, and each token spans its lexeme. -/
inductive Cut (file : String) (rest : List Char) : List Char → List Char → List Token → Prop
  | done {before gap : List Char} (blank : Gap rest gap) : Cut file rest before gap []
  | token {before gap lexeme text : List Char} {t : Token} {ts : List Token}
      (blank : Gap (lexeme ++ text ++ rest) gap) (denotes : Denotes t.kind lexeme t.value)
      (spans : t.span = ⟨behind file (before ++ gap), behind file (before ++ gap ++ lexeme)⟩)
      (more : Cut file rest (before ++ gap ++ lexeme) text ts) :
      Cut file rest before (gap ++ lexeme ++ text) (t :: ts)

section cuts
variable {file : String} {rest before text : List Char} {body : List Token}

theorem Cut.skip {piece : List Char} (skipped : Skipped (text ++ rest) piece)
    (h : Cut file rest (before ++ piece) text body) : Cut file rest before (piece ++ text) body := by
  cases h with
  | done blank => exact .done (.skip skipped blank)
  | @token _ gap lexeme text t ts blank denotes spans more =>
    rw [← List.append_assoc, ← List.append_assoc]
    rw [List.append_assoc before piece gap] at spans more
    exact .token (.skip (by simpa using skipped) blank) denotes spans more

theorem Cut.cons {lexeme : List Char} {kind : TokenKind} {value : String}
    (denotes : Denotes kind lexeme value) (h : Cut file rest (before ++ lexeme) text body) :
    Cut file rest before (lexeme ++ text)
      (⟨kind, value, behind file before, behind file (before ++ lexeme)⟩ :: body) := by
  refine @Cut.token file rest before [] lexeme text _ body .nil denotes ?_ ?_
  · rw [List.append_nil]
  · rwa [List.append_nil]

/-- The tokens of a text are what it is cut into, and what is wrong with it stands behind a text
that is cut into tokens. -/
theorem cut_scan (p : Position) (cs : List Char) (place : p = behind file before) :
    (∀ tokens, scan p cs = .ok tokens →
      ∃ body, tokens = body ++ [ending (behind file (before ++ cs))] ∧ Cut file [] before cs body) ∧
    ∀ e, scan p cs = .error e →
      ∃ body text rest, cs = text ++ rest ∧ rest ≠ [] ∧ e.position = behind file (before ++ text) ∧
        Cut file rest before text body := by
  fun_induction scan p cs generalizing before with
  | case1 p =>
    rw [List.append_nil, ← place]
    refine ⟨fun tokens read => ?_, fun e failed => ?_⟩
    · cases read
      exact ⟨[], rfl, .done .nil⟩
    · cases failed
  | case2 p c cs missing =>
    refine ⟨fun tokens read => ?_, fun e failed => ?_⟩
    · cases read
    · cases failed
      exact ⟨[], [], c :: cs, rfl, by simp, by simp [place], .done .nil⟩
  | case3 p c cs text rest found ih =>
    -- What is skipped goes into the gap in front of the next token.
    obtain ⟨whole, _⟩ := faithful_first? _ _ _ found
    have skipped : Skipped rest text := sorted_first? found
    have place' : p.after text = behind file (before ++ text) := by
      rw [place, Position.behind_append]
    obtain ⟨goes, fails⟩ := ih place'
    rw [← whole]
    refine ⟨fun tokens read => ?_, fun e failed => ?_⟩
    · obtain ⟨body, rfl, cut⟩ := goes tokens read
      exact ⟨body, by simp, cut.skip (by simpa using skipped)⟩
    · obtain ⟨body, more, left, rfl, some_left, there, cut⟩ := fails e failed
      exact ⟨body, text ++ more, left, by simp, some_left, by simpa using there, cut.skip skipped⟩
  | case4 p c cs kind text rest found ih =>
    obtain ⟨whole, nonempty⟩ := faithful_first? _ _ _ found
    have place' : p.after text = behind file (before ++ text) := by
      rw [place, Position.behind_append]
    obtain ⟨goes, fails⟩ := ih place'
    rw [← whole]
    cases valued : valueOf kind text p with
    | error e =>
      refine ⟨fun tokens read => ?_, fun e' failed => ?_⟩
      · cases read
      · cases failed
        have there : e.position = behind file (before ++ []) := by
          rw [position_of_valueOf valued, place, List.append_nil]
        exact ⟨[], [], text ++ rest, rfl, by simp [nonempty], there, .done .nil⟩
    | ok value =>
      have denotes : Denotes kind text value := sorted_first? found p value valued
      cases scanned : scan (p.after text) rest with
      | error e =>
        refine ⟨fun tokens read => ?_, fun e' failed => ?_⟩
        · cases read
        · cases failed
          obtain ⟨body, more, left, rfl, some_left, there, cut⟩ := fails e scanned
          exact ⟨_, text ++ more, left, by simp, some_left, by simpa using there, cut.cons denotes⟩
      | ok others =>
        refine ⟨fun tokens read => ?_, fun e failed => ?_⟩
        · cases read
          obtain ⟨body, rfl, cut⟩ := goes others scanned
          refine ⟨_, ?_, cut.cons denotes⟩
          rw [place', place]
          simp
        · cases failed

theorem ne_eof_of_denotes {kind : TokenKind} {lexeme : List Char} {value : String}
    (h : Denotes kind lexeme value) : kind ≠ .eof := by
  intro same
  have not_plain : kind.isPlain = false := by
    rw [same]
    rfl
  cases h with
  | word => simp [TokenKind.isPlain_ofWord] at not_plain
  | spelling listed => simp [TokenKind.isPlain_of_spelling listed] at not_plain
  | _ => cases same

theorem byteLength_pos {cs : List Char} (h : cs ≠ []) : 0 < Text.byteLength cs := by
  cases cs with
  | nil => exact absurd rfl h
  | cons c cs =>
    have one := c.utf8Size_pos
    rw [Text.byteLength_cons]
    omega

/-- A token spans something, and the next one starts where it ends or later. -/
theorem Cut.ordered (h : Cut file rest before text body) :
    (∀ t ∈ body, t.kind ≠ .eof ∧ Text.byteLength before ≤ t.span.start.offset ∧
      t.span.start.offset < t.span.stop.offset) ∧
    body.Pairwise fun t u => t.span.stop.offset ≤ u.span.start.offset := by
  induction h with
  | done => simp
  | @token before gap lexeme text t ts blank denotes spans more ih =>
    obtain ⟨others, pairs⟩ := ih
    have first : t.span.start.offset = Text.byteLength (before ++ gap) := by rw [spans]; rfl
    have last : t.span.stop.offset = Text.byteLength (before ++ gap ++ lexeme) := by rw [spans]; rfl
    have some_bytes := byteLength_pos (faithful_first? _ _ _ (first?_of_denotes denotes)).2
    simp only [Text.byteLength_append] at first last others some_bytes
    refine ⟨List.forall_mem_cons.2 ⟨⟨ne_eof_of_denotes denotes, ?_, ?_⟩, fun u mem => ?_⟩,
      List.pairwise_cons.2 ⟨fun u mem => ?_, pairs⟩⟩
    · omega
    · omega
    · obtain ⟨kind, start, span⟩ := others u mem
      exact ⟨kind, by omega, span⟩
    · have start := (others u mem).2.1
      omega

end cuts

end Token

/-- Nothing is lost when a script is cut into tokens. The tokens before the last have spans that are
not empty, in order and apart; the script is their lexemes and the blanks and comments between,
before and behind them; and the last token is the only one of its kind and stands, empty, at the end.
If the script is refused, what stands before the place of the error is cut in the same way. And the
kind and the value of a token are known from its lexeme alone. -/
theorem tokens_lossless (source file : String) :
    (∀ tokens, Token.tokenize source file = .ok tokens →
      ∃ body, tokens = body ++ [Token.ending (behind file source.toList)] ∧
        (∀ t ∈ body, t.kind ≠ .eof ∧ t.span.start.offset < t.span.stop.offset) ∧
        body.Pairwise (fun t u => t.span.stop.offset ≤ u.span.start.offset) ∧
        Token.Cut file [] [] source.toList body) ∧
    (∀ e, Token.tokenize source file = .error e →
      ∃ body text rest, source.toList = text ++ rest ∧ e.position = behind file text ∧
        (∀ t ∈ body, t.kind ≠ .eof ∧ t.span.start.offset < t.span.stop.offset) ∧
        body.Pairwise (fun t u => t.span.stop.offset ≤ u.span.start.offset) ∧
        Token.Cut file rest [] text body) ∧
    ∀ kind lexeme value, Lexeme.Denotes kind lexeme value → ∀ p,
      Token.scan p lexeme =
        .ok [⟨kind, value, p, p.after lexeme⟩, Token.ending (p.after lexeme)] := by
  obtain ⟨goes, fails⟩ := @Token.cut_scan file [] (.start file) source.toList rfl
  refine ⟨fun tokens read => ?_, fun e failed => ?_, fun kind lexeme value denotes p => ?_⟩
  · obtain ⟨body, rfl, cut⟩ := goes tokens read
    obtain ⟨spans, pairs⟩ := cut.ordered
    exact ⟨body, rfl, fun t mem => ⟨(spans t mem).1, (spans t mem).2.2⟩, pairs, cut⟩
  · obtain ⟨body, text, rest, whole, _, there, cut⟩ := fails e failed
    obtain ⟨spans, pairs⟩ := cut.ordered
    exact ⟨body, text, rest, whole, there, fun t mem => ⟨(spans t mem).1, (spans t mem).2.2⟩, pairs,
      cut⟩
  · exact Token.scan_of_denotes denotes p

/-- A script with comments, escapes and characters of several bytes. -/
def mixedSource : String :=
  "a+=1.5;// é
\"\\x41é\"->\x60b\\\x60\x7bc\x7d\x60 #m:n/o"

/-- A script with a text that holds a wrong escape. -/
def miswrittenSource : String := "a+=\"\\xg\";"

theorem tokens_lossless_mixed :
    (∃ tokens body, Token.tokenize mixedSource "" = .ok tokens ∧
      tokens = body ++ [Token.ending (behind "" mixedSource.toList)] ∧
      body.map Token.value = ["a", "+=", "1.5", ";", "Aé", "->", "b\\\x60\x7bc\x7d", "m:n/o"] ∧
      Token.Cut "" [] [] mixedSource.toList body) ∧
    ∃ e body text rest, Token.tokenize miswrittenSource "" = .error e ∧
      miswrittenSource.toList = text ++ rest ∧ e.position = behind "" text ∧ e.position.offset = 3 ∧
      Token.Cut "" rest [] text body := by
  have accepted : (Token.tokenize mixedSource "").toOption.map (fun ts => ts.map Token.value) =
      some ["a", "+=", "1.5", ";", "Aé", "->", "b\\\x60\x7bc\x7d", "m:n/o", "EOF"] := by
    decide +kernel
  have refused : (match Token.tokenize miswrittenSource "" with
      | .ok _ => none
      | .error e => some e.position.offset) = some 3 := by
    decide +kernel
  constructor
  · cases read : Token.tokenize mixedSource "" with
    | error e =>
      rw [read] at accepted
      cases accepted
    | ok tokens =>
      obtain ⟨body, rfl, _, _, cut⟩ := (tokens_lossless mixedSource "").1 tokens read
      rw [read] at accepted
      have values := congrArg List.dropLast (Option.some.inj accepted)
      dsimp only at values
      rw [List.map_append, List.map_singleton, List.dropLast_concat] at values
      exact ⟨_, body, rfl, rfl, values, cut⟩
  · cases read : Token.tokenize miswrittenSource "" with
    | ok tokens =>
      rw [read] at refused
      cases refused
    | error e =>
      obtain ⟨body, text, rest, whole, there, _, _, cut⟩ :=
        (tokens_lossless miswrittenSource "").2.1 e read
      rw [read] at refused
      exact ⟨e, body, text, rest, rfl, whole, there, Option.some.inj refused, cut⟩

end CursorScript
