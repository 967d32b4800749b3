import CursorScript.Proofs.LibraryCalls
import CursorScript.Proofs.Rereading

/-!
Values that are written as texts and read back. A whole number is read from its digits, whatever
blanks stand around them and wherever underscores stand between them. A material is read back from
`space:id` if neither part is empty and both hold only characters that a part may hold; all that a
material literal can name, and all that is read from a text, is of this form.
-/
namespace CursorScript

namespace Text

/-- `text` is `core` with underscores anywhere and blanks at either end. -/
def Loosened (core text : List Char) : Prop :=
  ∃ front behind, (∀ c ∈ front ++ behind, isBlank c = true) ∧
    text.filter (· != '_') = front ++ (core ++ behind)

theorem dropWhile_blanks {front core : List Char} (blank : ∀ c ∈ front, isBlank c = true)
    (dark : ∀ c ∈ core, isBlank c = false) (nonempty : core ≠ []) (behind : List Char) :
    (front ++ (core ++ behind)).dropWhile isBlank = core ++ behind := by
  rw [List.dropWhile_append_of_pos blank]
  cases core with
  | nil => exact absurd rfl nonempty
  | cons c core =>
    have stops := dark c List.mem_cons_self
    simp [stops]

theorem trim_padded {front core behind : List Char}
    (blank : ∀ c ∈ front ++ behind, isBlank c = true) (dark : ∀ c ∈ core, isBlank c = false)
    (nonempty : core ≠ []) : trim (front ++ (core ++ behind)) = core := by
  obtain ⟨blankFront, blankBehind⟩ := List.forall_mem_append.1 blank
  have fromEnd : (behind.reverse ++ (core.reverse ++ [])).dropWhile isBlank = core.reverse ++ [] :=
    dropWhile_blanks (by simpa using blankBehind) (by simpa using dark)
      (by simpa using nonempty) []
  rw [trim, trimStart, dropWhile_blanks blankFront dark nonempty, trimEnd, List.reverse_append]
  simpa using congrArg List.reverse fromEnd

theorem Loosened.refl {core : List Char} (plain : '_' ∉ core) : Loosened core core := by
  have kept : core.filter (· != '_') = core := by
    rw [List.filter_eq_self]
    intro c mem
    have other : c ≠ '_' := fun same => plain (same ▸ mem)
    simpa using other
  exact ⟨[], [], by simp, by simpa using kept⟩

end Text

namespace Decimal

theorem toList_writeNat (n : Nat) : (writeNat n).toList = Nat.toDigits 10 n := by
  rw [writeNat_eq, Nat.repr, String.toList_ofList]

theorem bounds_of_mem_toDigits {n : Nat} {c : Char} (mem : c ∈ Nat.toDigits 10 n) :
    48 ≤ c.toNat ∧ c.toNat ≤ 57 := by
  have digit := Nat.isDigit_of_mem_toDigits (b := 10) (by decide) (by decide) mem
  simpa [Char.isDigit, UInt32.le_iff_toNat_le] using digit

/-- Digits without a sign are read as the number that they write. -/
theorem readInt?_toDigits (n : Nat) : readInt? (Nat.toDigits 10 n) = some (n : Int) := by
  have read := Grammar.readNat?_toDigits n
  cases digits : Nat.toDigits 10 n with
  | nil => exact absurd digits Nat.toDigits_ne_nil
  | cons c rest =>
    have bounds : 48 ≤ c.toNat ∧ c.toNat ≤ 57 := bounds_of_mem_toDigits (n := n) (by simp [digits])
    have unsigned : c ≠ '-' ∧ c ≠ '+' := by
      constructor <;> rintro rfl <;> revert bounds <;> decide
    rw [digits] at read
    simp [readInt?, readUnsigned?, unsigned, read]

/-- The text of a whole number is read back, and holds neither blanks nor underscores. -/
theorem readInt?_writeWhole (n : Int) : readInt? (writeWhole n).toList = some n ∧
    (writeWhole n).toList ≠ [] ∧
    ∀ c ∈ (writeWhole n).toList, Text.isBlank c = false ∧ c ≠ '_' := by
  have plain : ∀ (k : Nat), ∀ c ∈ Nat.toDigits 10 k, Text.isBlank c = false ∧ c ≠ '_' := by
    intro k c mem
    have bounds := bounds_of_mem_toDigits mem
    refine ⟨Lexeme.isBlank_of_bounds bounds.1 (by omega), ?_⟩
    rintro rfl
    exact absurd bounds.2 (by decide)
  cases n with
  | ofNat n =>
    rw [writeWhole, toList_writeNat]
    exact ⟨readInt?_toDigits n, Nat.toDigits_ne_nil, plain n⟩
  | negSucc n =>
    have read := Grammar.readNat?_toDigits (n + 1)
    rw [writeWhole, String.toList_append, toList_writeNat]
    refine ⟨?_, by simp, ?_⟩
    · simp [readInt?, read, Int.negSucc_eq]
    · simp only [List.mem_append]
      rintro c (sign | digit)
      · obtain rfl : c = '-' := by simpa using sign
        decide
      · exact plain (n + 1) c digit

end Decimal

/-- A number is read from its text, however that is loosened. -/
theorem Library.numberOfText_loosened {n : Int} {text : String}
    (h : Text.Loosened (Decimal.writeWhole n).toList text.toList) : numberOfText text = .ok n := by
  obtain ⟨front, behind, blank, filtered⟩ := h
  obtain ⟨read, nonempty, plain⟩ := Decimal.readInt?_writeWhole n
  have bare : bareDigits text = (Decimal.writeWhole n).toList := by
    rw [bareDigits, filtered]
    exact Text.trim_padded blank (fun c mem => (plain c mem).1) nonempty
  rw [numberOfText, bare, read]

namespace Material

/-- Both parts of a material can be written. -/
structure Proper (m : Material) : Prop where
  space : isPart m.space.toList = true
  id : isPart m.id.toList = true

theorem isPart_iff {part : List Char} : isPart part = true ↔
    part ≠ [] ∧ ∀ c ∈ part, c.isAlphanum ∨ c = '_' ∨ c = '/' ∨ c = '.' ∨ c = '-' := by
  simp [isPart, or_assoc]

theorem colon_not_mem_of_isPart {part : List Char} (h : isPart part = true) : ':' ∉ part := by
  intro mem
  have listed := (isPart_iff.1 h).2 ':' mem
  revert listed
  decide

def partsOf (chars : List Char) : List Char × List Char :=
  match Text.splitOnce? ':' chars with
  | none => (defaultSpace.toList, chars)
  | some ([], id) => (defaultSpace.toList, id)
  | some (space, id) => (space, id)

theorem ofText?_eq (text : String) : ofText? text =
    if isPart (partsOf text.toList).1 = true ∧ isPart (partsOf text.toList).2 = true then
      some ⟨String.ofList (partsOf text.toList).1, String.ofList (partsOf text.toList).2⟩
    else none := rfl

/-- What is read from a text can be written. -/
theorem proper_of_ofText? {text : String} {m : Material} (h : ofText? text = some m) :
    m.Proper := by
  rw [ofText?_eq] at h
  split at h
  · next parts =>
    cases h
    exact ⟨by simpa using parts.1, by simpa using parts.2⟩
  · cases h

theorem Proper.partsOf_describe {m : Material} (h : m.Proper) :
    partsOf m.describe.toList = (m.space.toList, m.id.toList) := by
  have written : m.describe.toList = m.space.toList ++ ':' :: m.id.toList := by
    simp [describe]
  have cut := Grammar.splitOnce?_append (colon_not_mem_of_isPart h.space) m.id.toList
  have nonempty := (isPart_iff.1 h.space).1
  rw [written, partsOf, cut]
  cases space : m.space.toList with
  | nil => exact absurd space nonempty
  | cons c rest => rfl

/-- What can be written is read back. -/
theorem Proper.ofText?_describe {m : Material} (h : m.Proper) : ofText? m.describe = some m := by
  rw [ofText?_eq, h.partsOf_describe, if_pos ⟨h.space, h.id⟩, String.ofList_toList,
    String.ofList_toList]

def ofLiteral (value : String) : Material :=
  match Text.splitOnce? ':' value.toList with
  | none => ⟨defaultSpace, value⟩
  | some (space, id) => ⟨String.ofList space, String.ofList id⟩

end Material

/-- Every token of a text but the closing one is what one of its lexemes denotes. -/
theorem Token.denotes_of_scan {p : Position} {cs : List Char} {tokens : List Token} {token : Token}
    (scanned : scan p cs = .ok tokens) (mem : token ∈ tokens) (real : token.kind ≠ .eof) :
    ∃ lexeme, Lexeme.Denotes token.kind lexeme token.value := by
  fun_induction scan p cs generalizing tokens with
  | case1 p =>
    cases scanned
    obtain rfl : token = ending p := by simpa using mem
    exact absurd rfl real
  | case2 p c behind found => cases scanned
  | case3 p c behind text rest found ih => exact ih scanned mem
  | case4 p c behind kind text rest found ih =>
    cases valued : valueOf kind text p with
    | error e =>
      rw [valued] at scanned
      cases scanned
    | ok value =>
      rw [valued] at scanned
      cases others : scan (p.after text) rest with
      | error e =>
        rw [others] at scanned
        cases scanned
      | ok ahead =>
        rw [others] at scanned
        cases scanned
        rcases List.mem_cons.1 mem with rfl | later
        · exact ⟨text, Lexeme.sorted_first? found p value valued⟩
        · exact ih others later

namespace Material

theorem isPart_of_run {next : Char → Bool} {part : List Char}
    (fits : ∀ c, next c = true → c.isAlphanum ∨ c = '_' ∨ c = '/' ∨ c = '.')
    (h : Lexeme.Run Lexeme.isNameStart next part) : isPart part = true := by
  cases h with
  | mk starts others =>
    refine isPart_iff.2 ⟨List.cons_ne_nil _ _, fun c mem => ?_⟩
    rcases List.mem_cons.1 mem with rfl | later
    · rcases Bool.or_eq_true_iff.1 starts with letter | underscore
      · simp [Char.isAlphanum, letter]
      · simp [beq_iff_eq.1 underscore]
    · rcases fits c (others c later) with word | rfl | rfl | rfl
      · exact .inl word
      · simp
      · simp
      · simp

theorem isPart_of_name {name : List Char}
    (h : Lexeme.Run Lexeme.isNameStart Lexeme.isNameChar name) :
    isPart name = true := by
  refine isPart_of_run (fun c fits => ?_) h
  have listed : c.isAlphanum ∨ c = '_' := by simpa [Lexeme.isNameChar] using fits
  rcases listed with word | rfl
  · exact .inl word
  · simp

theorem isPart_of_path {path : List Char}
    (h : Lexeme.Run Lexeme.isNameStart Lexeme.isPathChar path) :
    isPart path = true := by
  refine isPart_of_run (fun c fits => ?_) h
  have listed : ((c.isAlphanum ∨ c = '_') ∨ c = '/') ∨ c = '.' := by
    simpa [Lexeme.isPathChar, Lexeme.isNameChar] using fits
  simpa only [or_assoc] using listed

/-- What a literal names can be written. -/
theorem proper_of_denotes {kind : TokenKind} {lexeme : List Char} {value : String}
    (h : Lexeme.Denotes kind lexeme value) (material : kind = .material) :
    (ofLiteral value).Proper := by
  have quoted : kind.isPlain = false := by
    rw [material]
    rfl
  cases h with
  | material named =>
    have part := isPart_of_name named
    rw [ofLiteral, String.toList_ofList,
      Grammar.splitOnce?_of_not_mem (colon_not_mem_of_isPart part)]
    have space : isPart defaultSpace.toList = true := by decide
    exact ⟨space, by simpa using part⟩
  | materialPath named more =>
    have part := isPart_of_name named
    rw [ofLiteral, String.toList_ofList,
      Grammar.splitOnce?_append (colon_not_mem_of_isPart part)]
    exact ⟨by simpa using part, by simpa using isPart_of_path more⟩
  | word => simp [TokenKind.isPlain_ofWord] at quoted
  | spelling listed => simp [TokenKind.isPlain_of_spelling listed] at quoted
  | _ => cases material

end Material

namespace Grammar

/-- A material literal is an expression that has the material it names as its value. -/
theorem answers_literal (expr : ExprReader) {s : Stream} (material : s.current.kind = .material) :
    ∃ e t, (operand expr).run s = .ok (e, t) ∧
      (Work.expr e).Answers [] (.material (.ofLiteral s.current.value)) := by
  have start : (operand expr).run s = atom.run s := by
    refine (run_bind_of_ok (run_kind s)).trans ?_
    rw [material]
  cases ahead : s.current with
  | mk kind value span =>
    obtain rfl : kind = .material := by simpa [ahead] using material
    have token : Parse.current.run s = .ok (⟨.material, value, span⟩, s) := by
      rw [← ahead]
      rfl
    have read : atom.run s = _ := run_bind_of_ok token
    cases cut : Text.splitOnce? ':' value.toList with
    | none =>
      dsimp only at read
      rw [cut] at read
      refine ⟨_, _, start.trans read, ?_⟩
      intro σ fs W V c
      refine ⟨none, ?_⟩
      rw [Machine.step_item rfl, Material.ofLiteral, cut]
      rfl
    | some parts =>
      dsimp only at read
      rw [cut] at read
      refine ⟨_, _, start.trans read, ?_⟩
      intro σ fs W V c
      refine ⟨none, ?_⟩
      rw [Machine.step_item rfl, Material.ofLiteral, cut]
      rfl

end Grammar

namespace Library

/-- `as_string(n)` gives `text`. -/
def NumberText (outside : Outside) (n : Int) (text : String) : Prop :=
  Replies outside "as_string" [.simple .number] [.number n] (.ok (.string text))

/-- `as_number(text)` gives `n`. -/
def AsNumber (outside : Outside) (text : String) (n : Int) : Prop :=
  Replies outside "as_number" [.simple .string] [.string text] (.ok (.number n))

/-- `as_string(m)` gives `text`. -/
def MaterialText (outside : Outside) (m : Material) (text : String) : Prop :=
  Replies outside "as_string" [.simple .material] [.material m] (.ok (.string text))

/-- `as_material(text)` gives `m`. -/
def AsMaterial (outside : Outside) (text : String) (m : Material) : Prop :=
  Replies outside "as_material" [.simple .string] [.string text] (.ok (.material m))

variable {outside : Outside}

theorem numberText_iff {n : Int} {text : String} :
    NumberText outside n text ↔ Decimal.writeWhole n = text := by
  have given : NumberText outside n (Decimal.writeWhole n) := replies_of_function? rfl rfl rfl fun _ => rfl
  rw [NumberText, Replies.iff given]
  simp [eq_comm]

theorem materialText_iff {m : Material} {text : String} :
    MaterialText outside m text ↔ m.describe = text := by
  have given : MaterialText outside m m.describe := replies_of_function? rfl rfl rfl fun _ => rfl
  rw [MaterialText, Replies.iff given]
  simp [eq_comm]

theorem asNumber_iff {text : String} {n : Int} : AsNumber outside text n ↔ numberOfText text = .ok n := by
  have given : Replies outside "as_number" [.simple .string] [.string text]
      ((numberOfText text).map .number) :=
    replies_of_function? rfl rfl rfl (HostFunction.call_eq rfl fun _ => rfl)
  rw [AsNumber, Replies.iff given]
  cases numberOfText text <;> simp [Except.map, eq_comm]

theorem asMaterial_iff {text : String} {m : Material} :
    AsMaterial outside text m ↔ Material.ofText? text = some m := by
  have given : Replies outside "as_material" [.simple .string] [.string text]
      ((materialOfText text).map .material) :=
    replies_of_function? rfl rfl rfl (HostFunction.call_eq rfl fun _ => rfl)
  rw [AsMaterial, Replies.iff given, materialOfText]
  cases Material.ofText? text <;> simp [Except.map, eq_comm]

/-- The text of a material that can be written is read back as this material. -/
theorem asMaterial_describe {m : Material} (proper : m.Proper) :
    ∃ written, MaterialText outside m written ∧ AsMaterial outside written m := by
  refine ⟨m.describe, materialText_iff.2 rfl, ?_⟩
  exact asMaterial_iff.2 proper.ofText?_describe

theorem asNumber_loosened {n : Int} {written text : String} (given : NumberText outside n written)
    (loosened : Text.Loosened written.toList text.toList) : AsNumber outside text n := by
  obtain rfl := numberText_iff.1 given
  exact asNumber_iff.2 (numberOfText_loosened loosened)

/-- Every token of a material literal names a material that can be written. -/
theorem proper_of_scan {p : Position} {cs : List Char} {tokens : List Token} {token : Token}
    (scanned : Token.scan p cs = .ok tokens) (mem : token ∈ tokens)
    (material : token.kind = .material) : (Material.ofLiteral token.value).Proper := by
  have real : token.kind ≠ .eof := by simp [material]
  obtain ⟨lexeme, denotes⟩ := Token.denotes_of_scan scanned mem real
  exact Material.proper_of_denotes denotes material

end Library

open Library in
/-- Every number is read back from the text that it is cast to, and from each loosening of this
text. Every material that a script can get, from a literal in its source or from a text, is read
back from the text that it is cast to; and a text and the text of what is read from it stand for the
same material. -/
theorem text_casts_return (outside : Outside) :
    (∀ n : Int, ∃ written, NumberText outside n written ∧ AsNumber outside written n ∧
      ∀ text : String, Text.Loosened written.toList text.toList → AsNumber outside text n) ∧
    (∀ (p : Position) (cs : List Char) (tokens : List Token) (token : Token),
      Token.scan p cs = .ok tokens → token ∈ tokens → token.kind = .material →
      ∀ (expr : Grammar.ExprReader) (s : Grammar.Stream), s.current = token →
        ∃ e t m, (Grammar.operand expr).run s = .ok (e, t) ∧
          (Work.expr e).Answers [] (.material m) ∧
          ∃ written, MaterialText outside m written ∧ AsMaterial outside written m) ∧
    (∀ (text : String) (m : Material), AsMaterial outside text m →
      ∃ written, MaterialText outside m written ∧ AsMaterial outside written m) ∧
    ∀ (text : String) (m : Material), Material.ofText? text = some m →
      Material.ofText? m.describe = some m := by
  refine ⟨fun n => ?_, ?_, ?_, ?_⟩
  · obtain ⟨-, -, plain⟩ := Decimal.readInt?_writeWhole n
    have given : NumberText outside n (Decimal.writeWhole n) := numberText_iff.2 rfl
    have own : Text.Loosened (Decimal.writeWhole n).toList (Decimal.writeWhole n).toList :=
      .refl fun mem => (plain '_' mem).2 rfl
    exact ⟨_, given, asNumber_loosened given own, fun text => asNumber_loosened given⟩
  · rintro p cs tokens token scanned mem material expr s rfl
    obtain ⟨e, t, read, answers⟩ := Grammar.answers_literal expr material
    exact ⟨e, t, _, read, answers, asMaterial_describe (proper_of_scan scanned mem material)⟩
  · intro text m read
    exact asMaterial_describe (Material.proper_of_ofText? (asMaterial_iff.1 read))
  · intro text m read
    exact (Material.proper_of_ofText? read).ofText?_describe

def stoneTokens : List Token :=
  match Token.scan (.start "") "#stone".toList with
  | .ok tokens => tokens
  | .error _ => []

open Library in
/-- An ideographic space stands before the number, and a line ends behind it. -/
theorem text_casts_return_stone :
    AsNumber .builtIn "\u3000_-1_2_\n" (-12) ∧
    (∃ e t m,
      (Grammar.operand fun _ => Grammar.atom).run (.ofTokens stoneTokens "" 0) = .ok (e, t) ∧
        (Work.expr e).Answers [] (.material m) ∧
        ∃ written, MaterialText .builtIn m written ∧ AsMaterial .builtIn written m) ∧
    (∃ written, MaterialText .builtIn ⟨"minecraft", "a/b"⟩ written ∧
      AsMaterial .builtIn written ⟨"minecraft", "a/b"⟩) ∧
    Material.ofText? (Material.describe ⟨"minecraft", "a/b"⟩) = some ⟨"minecraft", "a/b"⟩ := by
  obtain ⟨numbers, literals, materials, texts⟩ := text_casts_return .builtIn
  have scanned : Token.scan (.start "") "#stone".toList = .ok stoneTokens := by
    obtain ⟨tokens, cut⟩ := exists_ok_of_toOption
      (by decide +kernel : (Token.scan (.start "") "#stone".toList).toOption.isSome = true)
    unfold stoneTokens
    rw [cut]
  have short : Material.ofText? ":a/b" = some ⟨"minecraft", "a/b"⟩ := by decide +kernel
  refine ⟨?_, ?_, materials ":a/b" _ (asMaterial_iff.2 short), texts ":a/b" _ short⟩
  · obtain ⟨written, given, -, loosened⟩ := numbers (-12)
    obtain rfl : "-12" = written := numberText_iff.1 given
    have blank : ∀ c ∈ ['\u3000', '\n'], Text.isBlank c = true :=
      List.forall_mem_cons.2 ⟨by decide, List.forall_mem_singleton.2 (by decide)⟩
    exact loosened _ ⟨['\u3000'], ['\n'], blank, by decide +kernel⟩
  · exact literals _ _ _ _ scanned (by decide +kernel) (by decide +kernel) _
      (.ofTokens stoneTokens "" 0) rfl

end CursorScript
