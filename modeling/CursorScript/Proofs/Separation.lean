import CursorScript.Proofs.Lexemes
import CursorScript.Proofs.Unplaced

/-!
Lexemes that are kept apart. A lexeme is cut off a text in the same way whatever stands behind it, as
long as the next character is none that it could go on with. No lexeme goes on with a blank, so the
lexemes of a script give the same tokens again when they are written with nothing but blanks between
them.
-/
namespace CursorScript
open Position (behind)

namespace TokenKind

def isSpelled (kind : TokenKind) : Bool := (spellings.map Prod.snd).contains kind

/-- Whether a lexeme of the kind could be the beginning of a longer one that goes on with `c`. -/
def goesOn (kind : TokenKind) (c : Char) : Bool :=
  match kind with
  | .number => Lexeme.isNumeral c || c == '.'
  | .real => Lexeme.isNumeral c
  | .string => false
  | .interpolation => false
  | .material => Lexeme.isPathChar c || c == ':'
  | _ => if kind.isSpelled then ['=', '>', '/'].contains c else Lexeme.isNameChar c

theorem goesOn_of_mem {spelling : String} {kind : TokenKind} (h : (spelling, kind) ∈ spellings)
    (c : Char) : kind.goesOn c = ['=', '>', '/'].contains c := by
  have spelled : kind.isSpelled = true := by
    have mem := List.mem_map_of_mem (f := Prod.snd) h
    simpa [isSpelled] using mem
  cases kind <;> first | rfl | cases spelled

theorem goesOn_ofWord (word : String) (c : Char) :
    (ofWord word).goesOn c = Lexeme.isNameChar c := by
  unfold ofWord
  cases found : reserved.lookup word with
  | none => rfl
  | some kind =>
    obtain ⟨before, after, same, _⟩ := List.lookup_eq_some_iff.1 found
    have mem : kind ∈ reserved.map Prod.snd := by simp [same]
    have kinds : reserved.map Prod.snd = [wordVar, wordFunction, wordNative, wordReturn, wordIf,
      wordElse, wordWhile, wordRepeat, wordBreak, wordContinue, wordAnd, wordOr, wordNot, wordTrue,
      wordFalse] := rfl
    cases kind <;> first | rfl | simp [kinds] at mem

end TokenKind

theorem Text.bounds_of_isBlank {c : Char} (h : isBlank c = true) :
    c.toNat ≤ 32 ∨ 128 ≤ c.toNat := by
  simp only [isBlank, Bool.or_eq_true, Bool.and_eq_true, decide_eq_true_eq, beq_iff_eq] at h
  omega

theorem Lexeme.bounds_of_isNameChar {c : Char} (h : isNameChar c = true) :
    48 ≤ c.toNat ∧ c.toNat ≤ 122 := by
  have sorts : isNameStart c = true ∨ c.isDigit = true := by
    simp only [isNameChar, Char.isAlphanum, Bool.or_eq_true] at h
    simp only [isNameStart, Bool.or_eq_true]
    rcases h with (letter | digit) | underscore
    · exact .inl (.inl letter)
    · exact .inr digit
    · exact .inl (.inr underscore)
  rcases sorts with start | digit
  · have bounds := bounds_of_isNameStart start
    omega
  · obtain ⟨low, high⟩ := Bool.and_eq_true_iff.1 digit
    have first : 48 ≤ c.toNat := UInt32.le_iff_toNat_le.1 (of_decide_eq_true low)
    have last : c.toNat ≤ 57 := UInt32.le_iff_toNat_le.1 (of_decide_eq_true high)
    omega

/-- What a lexeme goes on with can be seen. -/
theorem TokenKind.bounds_of_goesOn {kind : TokenKind} {c : Char} (h : kind.goesOn c = true) :
    33 ≤ c.toNat ∧ c.toNat ≤ 127 := by
  have sign : ∀ d ∈ ['=', '>', '/', '.', ':', '_'], 33 ≤ d.toNat ∧ d.toNat ≤ 127 := by simp
  have name : Lexeme.isNameChar c = true → 33 ≤ c.toNat ∧ c.toNat ≤ 127 := fun named => by
    have bounds := Lexeme.bounds_of_isNameChar named
    omega
  have numeral : Lexeme.isNumeral c = true → 33 ≤ c.toNat ∧ c.toNat ≤ 127 := fun part => by
    rcases Bool.or_eq_true_iff.1 part with digit | underscore
    · have bounds := Lexeme.bounds_of_isDigit digit
      omega
    · exact sign c (by simp [eq_of_beq underscore])
  unfold goesOn at h
  split at h
  · rcases Bool.or_eq_true_iff.1 h with part | point
    · exact numeral part
    · exact sign c (by simp [eq_of_beq point])
  · exact numeral h
  · cases h
  · cases h
  · simp only [Lexeme.isPathChar, Bool.or_eq_true, beq_iff_eq] at h
    rcases h with ((part | same) | same) | same
    · exact name part
    all_goals exact sign c (by simp [same])
  · split at h
    · have mem : c ∈ ['=', '>', '/'] := by simpa using h
      exact sign c (List.mem_append_left ['.', ':', '_'] mem)
    · exact name h

/-- No lexeme goes on with a blank. -/
theorem TokenKind.goesOn_blank (kind : TokenKind) {c : Char} (h : Text.isBlank c = true) :
    kind.goesOn c = false := by
  have apart := Text.bounds_of_isBlank h
  cases seen : kind.goesOn c with
  | false => rfl
  | true =>
    have bounds := bounds_of_goesOn seen
    omega

namespace Lexeme

theorem tail_of_spelling {spelled : String} {kind : TokenKind}
    (h : (spelled, kind) ∈ TokenKind.spellings) : ∀ c ∈ spelled.toList.tail, c ∈ ['=', '>'] := by
  have listed : ∀ entry ∈ TokenKind.spellings,
      entry.1.toList.tail.all (['=', '>'].contains ·) = true := by
    decide
  exact fun c mem => List.contains_iff_mem.1 (List.all_eq_true.1 (listed _ h) c mem)

/-- No spelling is found that was not there without the text behind. -/
theorem fixed_append {spelled : String} {kind : TokenKind}
    (h : (spelled, kind) ∈ TokenKind.spellings) {text rest : List Char} {d : Char}
    (some_text : text ≠ []) (stops : d ∉ ['=', '>', '/']) :
    fixed spelled.toList kind (text ++ d :: rest) =
      (fixed spelled.toList kind text).map fun (lexeme, left) => (lexeme, left ++ d :: rest) := by
  have same : spelled.toList.isPrefixOf (text ++ d :: rest) = spelled.toList.isPrefixOf text := by
    rw [Bool.eq_iff_iff, List.isPrefixOf_iff_prefix, List.isPrefixOf_iff_prefix]
    refine ⟨fun longer => ?_, fun shorter => shorter.trans (List.prefix_append _ _)⟩
    rcases Nat.lt_or_ge text.length spelled.toList.length with more | less
    · -- Then `d` is in the spelling, behind its first character.
      have front : text ++ [d] <+: text ++ d :: rest := ⟨rest, by simp⟩
      have within : text ++ [d] <+: spelled.toList :=
        List.prefix_of_prefix_length_le front longer (by simpa using Nat.succ_le_of_lt more)
      obtain ⟨others, whole⟩ := within
      obtain ⟨c, text, rfl⟩ := List.exists_cons_of_ne_nil some_text
      have listed := tail_of_spelling h d (by simp [← whole])
      exact absurd (List.mem_append_left ['/'] listed) stops
    · exact List.prefix_of_prefix_length_le longer (List.prefix_append _ _) less
  unfold fixed
  rw [same]
  split
  · next found =>
    obtain ⟨others, rfl⟩ := List.isPrefixOf_iff_prefix.1 found.2
    simp
  · rfl

/-- What is no blank, no comment and does not start like a number, a name, a text or a material, is
looked up among the spellings. -/
theorem first?_other {c : Char} {cs : List Char} (blank : Text.isBlank c = false)
    (digit : isDigit c = false) (name : isNameStart c = false) (sign : c ∉ ['\x22', '\x60', '#'])
    (slashes : comment (c :: cs) = none) : first? (c :: cs) = spelling (c :: cs) := by
  simp only [List.mem_cons, List.not_mem_nil, or_false, not_or] at sign
  obtain ⟨quote, backtick, hash⟩ := sign
  have noMaterial : material (c :: cs) = none := by
    unfold material
    split
    · next same =>
      cases same
      exact absurd rfl hash
    · rfl
  simp [first?, scanners, blanks, real, number, word, run?, delimited, blank, digit, name, quote,
    backtick, noMaterial, slashes]

theorem head_of_spelling {spelled : String} {kind : TokenKind}
    (h : (spelled, kind) ∈ TokenKind.spellings) : ∃ c cs, spelled.toList = c :: cs ∧
      Text.isBlank c = false ∧ isDigit c = false ∧ isNameStart c = false ∧
      c ∉ ['\x22', '\x60', '#'] := by
  have listed : ∀ entry ∈ TokenKind.spellings, entry.1.toList.head?.all (fun c =>
      Text.isBlank c = false ∧ isDigit c = false ∧ isNameStart c = false ∧
      c ∉ ['\x22', '\x60', '#']) = true := by
    decide
  have nonempty : ∀ entry ∈ TokenKind.spellings, entry.1.toList ≠ [] := by decide
  obtain ⟨c, cs, same⟩ := List.exists_cons_of_ne_nil (nonempty _ h)
  have first := listed _ h
  rw [same] at first
  exact ⟨c, cs, same, of_decide_eq_true first⟩

theorem comment_of_next {c : Char} {cs : List Char} (h : ∀ d ∈ cs.head?, d ≠ '/') :
    comment (c :: cs) = none := by
  unfold comment
  split
  · next same =>
    cases same
    exact absurd rfl (h '/' rfl)
  · rfl

/-- No spelling that is found goes on with what stands behind. -/
theorem spelling_append {text rest : List Char} {d : Char} (some_text : text ≠ [])
    (stops : d ∉ ['=', '>', '/']) :
    spelling (text ++ d :: rest) =
      (spelling text).map fun (lexeme, left) => (lexeme, left ++ d :: rest) := by
  have each : ∀ entries ⊆ TokenKind.spellings,
      (entries.findSome? fun entry => fixed entry.1.toList entry.2 (text ++ d :: rest)) =
        (entries.findSome? fun entry => fixed entry.1.toList entry.2 text).map
          fun (lexeme, left) => (lexeme, left ++ d :: rest) := by
    intro entries listed
    induction entries with
    | nil => rfl
    | cons entry entries ih =>
      obtain ⟨mem, others⟩ := List.cons_subset.1 listed
      simp only [List.findSome?_cons, fixed_append mem some_text stops, ih others]
      cases fixed entry.1.toList entry.2 text <;> rfl
  exact each _ (List.Subset.refl _)

theorem first?_append_of_spelling {spelled : String} {kind : TokenKind}
    (h : (spelled, kind) ∈ TokenKind.spellings) {rest : List Char}
    (stops : ∀ d ∈ rest.head?, kind.goesOn d = false) :
    first? (spelled.toList ++ rest) = some (⟨some kind, spelled.toList⟩, rest) := by
  have alone := first?_of_spelling h
  cases rest with
  | nil => rwa [List.append_nil]
  | cons d rest =>
    have stop : d ∉ ['=', '>', '/'] := by
      have none := stops d rfl
      rw [TokenKind.goesOn_of_mem h] at none
      simpa using none
    have inner := tail_of_spelling h
    obtain ⟨c, cs, same, blank, digit, name, sign⟩ := head_of_spelling h
    rw [same] at alone inner ⊢
    have apart : ∀ next ∈ cs.head?, next ≠ '/' := by
      rintro next mem rfl
      exact absurd (inner '/' (List.mem_of_head? mem)) (by decide)
    have further : ∀ next ∈ (cs ++ d :: rest).head?, next ≠ '/' := by
      cases cs with
      | nil =>
        rintro next ⟨⟩ rfl
        exact stop (by decide)
      | cons next cs => exact apart
    rw [first?_other blank digit name sign (comment_of_next apart)] at alone
    rw [List.cons_append, first?_other blank digit name sign (comment_of_next further),
      ← List.cons_append, spelling_append (List.cons_ne_nil _ _) stop, alone]
    rfl

/-- A lexeme is cut off a text as it was on its own, if it does not go on with the next character. -/
theorem first?_append_of_denotes {kind : TokenKind} {text rest : List Char} {value : String}
    (h : Denotes kind text value) (stops : ∀ d ∈ rest.head?, kind.goesOn d = false) :
    first? (text ++ rest) = some (⟨some kind, text⟩, rest) := by
  cases h with
  | number digits =>
    have ran : run? isDigit isNumeral (text ++ rest) = some (text, rest) :=
      run?_append_of_run digits fun d mem => (Bool.or_eq_false_iff.1 (stops d mem)).1
    have noReal : real (text ++ rest) = none := by
      unfold real
      rw [ran]
      split
      · next same =>
        cases same
        exact absurd (stops '.' rfl) (by decide)
      · rfl
    simp [first?_digits digits, noReal, number, ran]
  | @real whole fraction digits more =>
    rw [List.append_assoc, List.cons_append]
    have point : run? isDigit isNumeral (whole ++ '.' :: (fraction ++ rest)) =
        some (whole, '.' :: (fraction ++ rest)) :=
      run?_append_of_run digits (by simp; decide)
    have ran := run?_append_of_run more stops
    simp [first?_digits digits, real, point, ran]
  | word name =>
    have ran := run?_append_of_run name fun d mem => by
      rw [← stops d mem, TokenKind.goesOn_ofWord]
    obtain ⟨starts, _⟩ := name
    rw [List.cons_append] at ran ⊢
    simp only [first?_name starts, List.findSome?_cons, word, ran, Option.map_some]
  | string quotable =>
    have closed := body?_of_quotable quotable (by decide) rest
    simp [first?_sign, delimited, closed]
  | interpolation quotable =>
    have closed := body?_of_quotable quotable (by decide) rest
    simp [first?_sign, delimited, closed]
  | @material name named =>
    have ends : ∀ d ∈ rest.head?, isPathChar d = false ∧ d ≠ ':' := fun d mem => by
      simpa [TokenKind.goesOn] using stops d mem
    have ran : run? isNameStart isNameChar (name ++ rest) = some (name, rest) :=
      run?_append_of_run named fun d mem => by
        have path := (ends d mem).1
        simp only [isPathChar, Bool.or_eq_false_iff] at path
        exact path.1.1
    have found : material ('#' :: (name ++ rest)) = some (⟨some .material, '#' :: name⟩, rest) := by
      simp only [material, ran]
      split
      · next same => cases same
      · next same =>
        cases same
        exact absurd rfl (ends ':' rfl).2
      · next same =>
        cases same
        rfl
    simp [first?_sign, delimited, found]
  | @materialPath space path named more =>
    have colon : run? isNameStart isNameChar (space ++ ':' :: (path ++ rest)) =
        some (space, ':' :: (path ++ rest)) :=
      run?_append_of_run named (by simp; decide)
    have ran : run? isNameStart isPathChar (path ++ rest) = some (path, rest) :=
      run?_append_of_run more fun d mem => (Bool.or_eq_false_iff.1 (stops d mem)).1
    simp [first?_sign, delimited, material, colon, ran]
  | spelling listed => exact first?_append_of_spelling listed stops

end Lexeme

namespace Token
open Lexeme

/-- A blank in front of a text changes places only. -/
theorem scan_blank {c : Char} (blank : Text.isBlank c = true) (p : Position) (cs : List Char) :
    scan p (c :: cs) = scan (p.advance c) cs := by
  have skips : ∀ {d : Char} (ds : List Char), Text.isBlank d = true → first? (d :: ds) =
      some (⟨none, d :: ds.takeWhile Text.isBlank⟩, ds.dropWhile Text.isBlank) := by
    intro d ds blank
    simp [first?, scanners, blanks, run?, blank]
  rw [scan_skip p (skips cs blank)]
  cases cs with
  | nil => rfl
  | cons d ds =>
    cases next : Text.isBlank d with
    | true =>
      rw [scan_skip (p.advance c) (skips ds next)]
      simp [next]
    | false => simp [next]

theorem scan_append_of_denotes {kind : TokenKind} {lexeme rest : List Char} {value : String}
    (h : Denotes kind lexeme value) (stops : ∀ d ∈ rest.head?, kind.goesOn d = false)
    (p : Position) :
    scan p (lexeme ++ rest) =
      (scan (p.after lexeme) rest).map (⟨kind, value, p, p.after lexeme⟩ :: ·) := by
  have found := first?_append_of_denotes h stops
  have nonempty := (faithful_first? _ _ _ found).2
  cases lexeme with
  | nil => exact absurd rfl nonempty
  | cons c cs =>
    rw [List.cons_append] at found ⊢
    rw [scan_token p found, valueOf_of_denotes h p]
    cases scan (p.after (c :: cs)) rest <;> rfl

/-- A text of lexemes with blanks between them, at least where a lexeme could go on with the next
one; the lexemes have the given kinds and values. -/
inductive Apart : List (TokenKind × String) → List Char → Prop
  | nil : Apart [] []
  | blank {c : Char} {words : List (TokenKind × String)} {text : List Char}
      (blank : Text.isBlank c = true) (more : Apart words text) : Apart words (c :: text)
  | lexeme {kind : TokenKind} {value : String} {lexeme text : List Char}
      {words : List (TokenKind × String)} (denotes : Denotes kind lexeme value)
      (stops : ∀ d ∈ text.head?, kind.goesOn d = false) (more : Apart words text) :
      Apart ((kind, value) :: words) (lexeme ++ text)

theorem scan_of_apart {words : List (TokenKind × String)} {text : List Char}
    (h : Apart words text) (p : Position) :
    ∃ tokens, scan p text = .ok tokens ∧
      tokens.map word = words ++ [(ending .unknown).word] := by
  induction h generalizing p with
  | nil => exact ⟨_, scan_nil p, rfl⟩
  | blank blank _ ih =>
    rw [scan_blank blank]
    exact ih _
  | @lexeme kind value lexeme text words denotes stops _ ih =>
    obtain ⟨tokens, scanned, same⟩ := ih (p.after lexeme)
    rw [scan_append_of_denotes denotes stops, scanned]
    exact ⟨_, rfl, by rw [List.map_cons, same]; rfl⟩

end Token

namespace Text

def dropBytes : Nat → List Char → List Char
  | _, [] => []
  | n, c :: cs => if n = 0 then c :: cs else dropBytes (n - c.utf8Size) cs

def takeBytes : Nat → List Char → List Char
  | _, [] => []
  | n, c :: cs => if n = 0 then [] else c :: takeBytes (n - c.utf8Size) cs

theorem dropBytes_append (before rest : List Char) :
    dropBytes (byteLength before) (before ++ rest) = rest := by
  induction before with
  | nil => cases rest <;> rfl
  | cons c cs ih =>
    have positive := c.utf8Size_pos
    rw [List.cons_append, dropBytes, byteLength_cons, if_neg (by omega), Nat.add_sub_cancel_left, ih]

theorem takeBytes_append (text rest : List Char) :
    takeBytes (byteLength text) (text ++ rest) = text := by
  induction text with
  | nil => cases rest <;> rfl
  | cons c cs ih =>
    have positive := c.utf8Size_pos
    rw [List.cons_append, takeBytes, byteLength_cons, if_neg (by omega), Nat.add_sub_cancel_left, ih]

end Text

def Span.slice (span : Span) (script : List Char) : List Char :=
  Text.takeBytes (span.stop.offset - span.start.offset) (Text.dropBytes span.start.offset script)

theorem Span.slice_behind (file : String) (before text rest : List Char) :
    Span.slice ⟨behind file before, behind file (before ++ text)⟩ (before ++ text ++ rest) =
      text := by
  have width : (behind file (before ++ text)).offset - (behind file before).offset =
      Text.byteLength text := by
    simp [behind]
  rw [Span.slice, width, List.append_assoc]
  exact (congrArg _ (Text.dropBytes_append before (text ++ rest))).trans
    (Text.takeBytes_append text rest)

namespace Token
open Lexeme

/-- A token stands for what the script has at its place. -/
theorem Cut.denotes {file : String} {rest before text : List Char} {body : List Token}
    (h : Cut file rest before text body) :
    ∀ t ∈ body, Denotes t.kind (t.span.slice (before ++ text ++ rest)) t.value := by
  induction h with
  | done => simp
  | @token before gap lexeme text t ts blank denotes spans more ih =>
    have whole : before ++ (gap ++ lexeme ++ text) ++ rest =
        before ++ gap ++ lexeme ++ text ++ rest := by
      simp
    rw [whole]
    refine List.forall_mem_cons.2 ⟨?_, ih⟩
    rw [spans, List.append_assoc (before ++ gap ++ lexeme), Span.slice_behind]
    exact denotes

/-- Lexemes one after the other, with some blanks between any two of them. -/
inductive Spaced : List (List Char) → List Char → Prop
  | none : Spaced [] []
  | last (lexeme : List Char) : Spaced [lexeme] lexeme
  | more {lexeme gap next text : List Char} {others : List (List Char)}
      (blank : Run Text.isBlank Text.isBlank gap) (spaced : Spaced (next :: others) text) :
      Spaced (lexeme :: next :: others) (lexeme ++ gap ++ text)

theorem Apart.blanks {words : List (TokenKind × String)} {gap text : List Char}
    (blank : ∀ c ∈ gap, Text.isBlank c = true) (h : Apart words text) :
    Apart words (gap ++ text) := by
  induction gap with
  | nil => exact h
  | cons c gap ih =>
    obtain ⟨first, others⟩ := List.forall_mem_cons.1 blank
    exact .blank first (ih others)

/-- Blanks keep any two lexemes apart. -/
theorem apart_of_spaced {lexeme : Token → List Char} {body : List Token} {text : List Char}
    (denotes : ∀ t ∈ body, Denotes t.kind (lexeme t) t.value)
    (h : Spaced (body.map lexeme) text) : Apart (body.map word) text := by
  induction body generalizing text with
  | nil =>
    cases h
    exact .nil
  | cons t ts ih =>
    obtain ⟨first, others⟩ := List.forall_mem_cons.1 denotes
    cases ts with
    | nil =>
      cases h
      rw [← List.append_nil (lexeme t)]
      exact .lexeme first (by simp) .nil
    | cons u us =>
      cases h with
      | more blank spaced =>
        obtain ⟨starts, goes⟩ := blank
        rw [List.append_assoc]
        refine .lexeme first ?_ (.blanks (List.forall_mem_cons.2 ⟨starts, goes⟩) (ih others spaced))
        rintro d ⟨⟩
        exact t.kind.goesOn_blank starts

end Token

/-- Blanks and comments do nothing but keep lexemes apart. If the lexemes of a script that is
accepted, cut from it at the places of its tokens, are written one after the other with any blanks
between them, the text is accepted, and its tokens have the same kinds and values. -/
theorem spaced_lexemes_rescan {source file : String} {tokens : List Token}
    (accepted : Token.tokenize source file = .ok tokens) {text : String}
    (spaced : Token.Spaced ((tokens.filter fun t => t.kind ≠ .eof).map fun t =>
      t.span.slice source.toList) text.toList) (other : String) :
    ∃ again, Token.tokenize text other = .ok again ∧
      again.map Token.word = tokens.map Token.word := by
  obtain ⟨body, rfl, cut⟩ :=
    (@Token.cut_scan file [] (.start file) source.toList rfl).1 tokens accepted
  have kinds := cut.ordered.1
  have kept : (body ++ [Token.ending (behind file ([] ++ source.toList))]).filter
      (fun t => t.kind ≠ .eof) = body := by
    rw [List.filter_append, List.filter_eq_self.2 fun t mem => by simpa using (kinds t mem).1]
    simp [Token.ending]
  rw [kept] at spaced
  have denotes := cut.denotes
  rw [List.nil_append, List.append_nil] at denotes
  obtain ⟨again, scanned, same⟩ :=
    Token.scan_of_apart (Token.apart_of_spaced denotes spaced) (.start other)
  refine ⟨again, scanned, ?_⟩
  rw [same, List.map_append]
  rfl

/-- A script with a comment, blanks in a text, and lexemes that could go on but for what follows. -/
def crowdedSource : String := "x-=1_0.5// é
/\"a \\x41\"#m :n"

def spacedSource : String := "x -= 1_0.5\n/\t \"a \\x41\" #m\u3000: n"

theorem spaced_lexemes_rescan_crowded :
    ∃ tokens again, Token.tokenize crowdedSource "" = .ok tokens ∧
      tokens.map Token.value = ["x", "-=", "1_0.5", "/", "a A", "m", ":", "n", "EOF"] ∧
      Token.Spaced ((tokens.filter fun t => t.kind ≠ .eof).map fun t =>
        t.span.slice crowdedSource.toList) spacedSource.toList ∧
      Token.tokenize spacedSource "other" = .ok again ∧
      again.map Token.word = tokens.map Token.word := by
  have cut : (Token.tokenize crowdedSource "").toOption.map (fun tokens =>
      (tokens.map Token.value, (tokens.filter fun t => t.kind ≠ .eof).map fun t =>
        t.span.slice crowdedSource.toList)) =
      some (["x", "-=", "1_0.5", "/", "a A", "m", ":", "n", "EOF"],
        ["x".toList, "-=".toList, "1_0.5".toList, "/".toList, "\"a \\x41\"".toList, "#m".toList,
          ":".toList, "n".toList]) := by
    decide +kernel
  cases accepted : Token.tokenize crowdedSource "" with
  | error e =>
    rw [accepted] at cut
    cases cut
  | ok tokens =>
    rw [accepted] at cut
    obtain ⟨values, lexemes⟩ := Prod.ext_iff.1 (Option.some.inj cut)
    have spaced : Token.Spaced ((tokens.filter fun t => t.kind ≠ .eof).map fun t =>
        t.span.slice crowdedSource.toList) spacedSource.toList := by
      have written : spacedSource.toList = "x".toList ++ [' '] ++ ("-=".toList ++ [' '] ++
          ("1_0.5".toList ++ ['\n'] ++ ("/".toList ++ ['\t', ' '] ++
            ("\"a \\x41\"".toList ++ [' '] ++ ("#m".toList ++ ['\u3000'] ++
              (":".toList ++ [' '] ++ "n".toList)))))) := by
        decide +kernel
      dsimp only at lexemes
      rw [lexemes, written]
      have blank : ∀ gap ∈ [[' '], ['\n'], ['\t', ' '], ['\u3000']],
          Lexeme.Run Text.isBlank Text.isBlank gap := by
        simp only [List.forall_mem_cons]
        exact ⟨⟨rfl, by simp⟩, ⟨rfl, by simp⟩, ⟨rfl, by simp [Text.isBlank]⟩, ⟨rfl, by simp⟩,
          by simp⟩
      exact .more (blank _ (by decide)) (.more (blank _ (by decide)) (.more (blank _ (by decide))
        (.more (blank _ (by decide)) (.more (blank _ (by decide)) (.more (blank _ (by decide))
          (.more (blank _ (by decide)) (.last _)))))))
    obtain ⟨again, scanned, same⟩ := spaced_lexemes_rescan accepted spaced "other"
    exact ⟨tokens, again, rfl, values, spaced, scanned, same⟩

end CursorScript
