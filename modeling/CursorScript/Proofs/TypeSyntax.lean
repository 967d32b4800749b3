import CursorScript.Proofs.RoundTrip
import CursorScript.Proofs.Separation

/-!
Types and their text. A type that a script can name is read back from the text that describes it:
the text is cut into the words of the type, because what stands side by side in it cannot be one
lexeme, and the words are read as the type. Types that are read from any text can be named, so each
has one description and one only.
-/
namespace CursorScript

def isName (word : String) : Bool :=
  match word.toList with
  | [] => false
  | c :: cs => Lexeme.isNameStart c && cs.all Lexeme.isNameChar &&
      word ∉ TokenKind.reserved.map Prod.fst

/-- Whether a script can name the type: it has no collection without a type of its own, and every
literal type in it has members, which are names. -/
def Ty.isNameable : Ty → Bool
  | .simple _ => true
  | .list element => element.isNameable
  | .map key value => key.isNameable && value.isNameable
  | .literal members => !members.names.isEmpty && members.names.all isName
  | .emptyList => false
  | .emptyMap => false

namespace Lexeme

theorem ofWord_eq_identifier_iff {word : String} :
    TokenKind.ofWord word = .identifier ↔ word ∉ TokenKind.reserved.map Prod.fst := by
  have listed : ∀ entry ∈ TokenKind.reserved, entry.2 ≠ .identifier := by decide
  unfold TokenKind.ofWord
  cases found : TokenKind.reserved.lookup word with
  | none =>
    refine iff_of_true rfl fun mem => ?_
    obtain ⟨entry, here, rfl⟩ := List.mem_map.1 mem
    have absent := List.lookup_eq_none_iff.1 found entry here
    simp at absent
  | some kind =>
    obtain ⟨before, after, same, _⟩ := List.lookup_eq_some_iff.1 found
    have here : (word, kind) ∈ TokenKind.reserved := by simp [same]
    exact iff_of_false (listed _ here) fun absent => absent (List.mem_map_of_mem here)

theorem isName_iff {word : String} :
    isName word = true ↔ Run isNameStart isNameChar word.toList ∧
      TokenKind.ofWord word = .identifier := by
  rw [ofWord_eq_identifier_iff]
  unfold isName
  split
  · next empty =>
    rw [empty]
    refine iff_of_false (by simp) fun h => ?_
    cases h.1
  · next c cs whole =>
    rw [whole]
    simp only [Bool.and_eq_true, List.all_eq_true, decide_eq_true_eq]
    constructor
    · rintro ⟨⟨starts, others⟩, free⟩
      exact ⟨⟨starts, others⟩, free⟩
    · rintro ⟨⟨starts, others⟩, free⟩
      exact ⟨⟨starts, others⟩, free⟩

/-- The lexeme of a name is the name. -/
theorem denotes_of_isName {word : String} (h : isName word = true) :
    Denotes .identifier word.toList word := by
  obtain ⟨run, kind⟩ := isName_iff.1 h
  have denotes := Denotes.word run
  rwa [String.ofList_toList, kind] at denotes

theorem isName_of_denotes {kind : TokenKind} {lexeme : List Char} {value : String}
    (h : Denotes kind lexeme value) (identifier : kind = .identifier) : isName value = true := by
  cases h with
  | word name => exact isName_iff.2 ⟨by rwa [String.toList_ofList], identifier⟩
  | spelling listed =>
    have others : ∀ entry ∈ TokenKind.spellings, entry.2 ≠ .identifier := by decide
    exact absurd identifier (others _ listed)
  | _ => cases identifier

end Lexeme

namespace Ty
open Token Lexeme

theorem apart_spelled (spelling : String) {kind : TokenKind} {words : List Word} {text : List Char}
    (listed : (spelling, kind) ∈ TokenKind.spellings)
    (stops : ∀ d ∈ text.head?, d ∉ ['=', '>', '/']) (h : Apart words text) :
    Apart ((kind, spelling) :: words) (spelling.toList ++ text) := by
  refine .lexeme (.spelling listed) (fun d mem => ?_) h
  rw [TokenKind.goesOn_of_mem listed]
  simpa using stops d mem

theorem apart_name {name : String} {words : List Word} {text : List Char}
    (named : isName name = true) (stops : ∀ d ∈ text.head?, isNameChar d = false)
    (h : Apart words text) : Apart ((.identifier, name) :: words) (name.toList ++ text) :=
  .lexeme (denotes_of_isName named) stops h

/-- What stands in front of a member cannot go on with it. -/
theorem starts_name {name : String} {d : Char} (named : isName name = true) {text : List Char}
    (mem : d ∈ (name.toList ++ text).head?) : d ∉ ['=', '>', '/'] := by
  obtain ⟨run, _⟩ := isName_iff.1 named
  generalize name.toList = chars at run mem
  obtain ⟨starts, _⟩ := run
  cases mem
  have bounds := bounds_of_isNameStart starts
  have signs : ∀ c ∈ ['=', '>', '/'], c.toNat < 65 := by simp
  intro sign
  have small := signs _ sign
  omega

theorem starts_members {names : List String} (nonempty : names ≠ [])
    (named : ∀ name ∈ names, isName name = true) {d : Char} {text : List Char}
    (mem : d ∈ ((", ".intercalate names).toList ++ text).head?) : d ∉ ['=', '>', '/'] := by
  obtain ⟨name, rest, rfl⟩ := List.exists_cons_of_ne_nil nonempty
  have first := named name List.mem_cons_self
  cases rest with
  | nil =>
    rw [String.intercalate_singleton] at mem
    exact starts_name first mem
  | cons next rest =>
    rw [String.intercalate_cons_cons, String.toList_append, String.toList_append, List.append_assoc,
      List.append_assoc] at mem
    exact starts_name first mem

theorem apart_members {names : List String} (nonempty : names ≠ [])
    (named : ∀ name ∈ names, isName name = true) {words : List Word} {text : List Char}
    (stops : ∀ d ∈ text.head?, isNameChar d = false) (h : Apart words text) :
    Apart (commas (names.map fun name => [(.identifier, name)]) ++ words)
      ((", ".intercalate names).toList ++ text) := by
  induction names with
  | nil => exact absurd rfl nonempty
  | cons name rest ih =>
    obtain ⟨first, others⟩ := List.forall_mem_cons.1 named
    cases rest with
    | nil =>
      rw [String.intercalate_singleton]
      exact apart_name first stops h
    | cons next rest =>
      have separator : ", ".toList = ",".toList ++ [' '] := rfl
      rw [String.intercalate_cons_cons, String.toList_append, String.toList_append, separator,
        List.append_assoc, List.append_assoc, List.append_assoc]
      refine apart_name first (by rintro d ⟨⟩; rfl) ?_
      refine apart_spelled "," (by decide) (by rintro d ⟨⟩; decide) (.blank rfl ?_)
      exact ih (by simp) others

/-- What stands in front of a type cannot go on with it. -/
theorem starts_describe {type : Ty} (h : type.isNameable = true) {d : Char} {text : List Char}
    (mem : d ∈ (type.describe.toList ++ text).head?) : d ∉ ['=', '>', '/'] := by
  cases type with
  | simple kind => cases kind <;> cases mem <;> decide
  | list | map | literal =>
    simp only [describe, String.toList_append, List.append_assoc] at mem
    cases mem
    decide
  | emptyList | emptyMap => cases h

theorem printable_of_isNameable {type : Ty} (h : type.isNameable = true) : type.Printable := by
  induction type with
  | simple => trivial
  | list element ih => exact ih h
  | map key value ihKey ihValue =>
    obtain ⟨first, second⟩ := Bool.and_eq_true_iff.1 h
    exact ⟨ihKey first, ihValue second⟩
  | literal members =>
    have nonempty := (Bool.and_eq_true_iff.1 h).1
    simpa [Printable] using nonempty
  | emptyList | emptyMap => cases h

/-- The description of a type, in front of what may stand behind one, is cut into its words. -/
theorem apart_describe {type : Ty} (h : type.isNameable = true) {words : List Word}
    {text : List Char} (stops : ∀ d ∈ text.head?, d ∈ [']', '|', ' ']) (more : Apart words text) :
    Apart (type.print ++ words) (type.describe.toList ++ text) := by
  -- None of what may stand behind a type makes its last lexeme longer.
  have closes : ∀ d ∈ text.head?, d ∉ ['=', '>', '/'] := by
    have signs : ∀ c ∈ [']', '|', ' '], c ∉ ['=', '>', '/'] := by simp
    exact fun d mem => signs d (stops d mem)
  induction type generalizing words text with
  | simple kind =>
    have named : isName kind.name = true := by cases kind <;> decide
    refine apart_name named (fun d mem => ?_) more
    have ends : ∀ c ∈ [']', '|', ' '], isNameChar c = false := by
      simp only [List.forall_mem_cons]
      exact ⟨rfl, rfl, rfl, by simp⟩
    exact ends d (stops d mem)
  | list element ih =>
    rw [print, between_append]
    simp only [describe, String.toList_append, List.append_assoc]
    have inner : element.isNameable = true := h
    refine apart_spelled "[" (by decide) (fun d mem => starts_describe inner mem) ?_
    refine ih inner (by rintro d ⟨⟩; decide) ?_ (by rintro d ⟨⟩; decide)
    exact apart_spelled "]" (by decide) closes more
  | map key value ihKey ihValue =>
    obtain ⟨first, second⟩ := Bool.and_eq_true_iff.1 h
    have arrow : " -> ".toList = ' ' :: ("->".toList ++ [' ']) := rfl
    rw [print, between_append, List.append_assoc, List.cons_append]
    simp only [describe, String.toList_append, List.append_assoc, arrow, List.cons_append]
    refine apart_spelled "|" (by decide) (fun d mem => starts_describe first mem) ?_
    refine ihKey first (by rintro d ⟨⟩; decide) (.blank rfl ?_) (by rintro d ⟨⟩; decide)
    refine apart_spelled "->" (by decide) (by rintro d ⟨⟩; decide) (.blank rfl ?_)
    refine ihValue second (by rintro d ⟨⟩; decide) ?_ (by rintro d ⟨⟩; decide)
    exact apart_spelled "|" (by decide) closes more
  | literal members =>
    obtain ⟨nonempty, named⟩ := Bool.and_eq_true_iff.1 h
    have some_names : members.names ≠ [] := by simpa using nonempty
    rw [print, between_append]
    simp only [describe, String.toList_append, List.append_assoc]
    refine apart_spelled "<" (by decide) (fun d mem => ?_) ?_
    · exact starts_members some_names (List.all_eq_true.1 named) mem
    · refine apart_members some_names (List.all_eq_true.1 named) (by rintro d ⟨⟩; rfl) ?_
      exact apart_spelled ">" (by decide) closes more
  | emptyList | emptyMap => cases h

end Ty

namespace Grammar

structure Stream.Named (s : Stream) : Prop where
  rest : ∀ token ∈ s.rest, token.kind = .identifier → isName token.value = true
  last : s.last.kind = .eof

theorem Stream.Named.current {s : Stream} (h : s.Named) (identifier : s.current.kind = .identifier) :
    isName s.current.value = true := by
  unfold Stream.current at identifier ⊢
  cases held : s.rest with
  | nil =>
    rw [held, List.headD_nil, h.last] at identifier
    cases identifier
  | cons token rest =>
    rw [held] at identifier
    exact h.rest token (by simp [held]) identifier

theorem Stream.Named.advance {s : Stream} (h : s.Named) : s.advance.Named :=
  ⟨fun token mem => h.rest token (List.mem_of_mem_tail mem), h.last⟩

/-- What a reader gives, where names are the only identifiers, is as `post` says. -/
def Gives {α : Type} (reader : Parse α) (post : α → Prop) : Prop :=
  ∀ s : Stream, s.Named → ∀ a s', reader.run s = .ok (a, s') → post a ∧ s'.Named

section rules
variable {α β : Type} {reader : Parse α} {next : α → Parse β} {mid : α → Prop} {post : β → Prop}

theorem Gives.bind (h : Gives reader mid) (rest : ∀ a, mid a → Gives (next a) post) :
    Gives (reader >>= next) post := by
  intro s named b s' ran
  rw [StateT.run_bind] at ran
  cases first : reader.run s with
  | error e =>
    rw [first] at ran
    cases ran
  | ok result =>
    rw [first] at ran
    obtain ⟨made, named'⟩ := h s named result.1 result.2 first
    exact rest result.1 made result.2 named' b s' ran

theorem Gives.pure {b : β} (h : post b) : Gives (Pure.pure b : Parse β) post := by
  intro s named a s' ran
  cases ran
  exact ⟨h, named⟩

theorem gives_get : Gives get fun _ : Stream => True := by
  intro s named a s' ran
  cases ran
  exact ⟨trivial, named⟩

theorem gives_kind : Gives Parse.kind fun _ => True := by
  intro s named a s' ran
  cases ran
  exact ⟨trivial, named⟩

theorem gives_take : Gives Parse.take fun token =>
    token.kind = .identifier → isName token.value = true := by
  intro s named a s' ran
  cases ran
  exact ⟨named.current, named.advance⟩

theorem gives_fail (cause : Cause) (p : Position) : Gives (Parse.fail cause p : Parse β) post := by
  intro s named a s' ran
  cases ran

theorem gives_unexpected : Gives (Parse.unexpected : Parse β) post := by
  intro s named a s' ran
  cases ran

theorem gives_unexpectedWith (message : String) :
    Gives (Parse.unexpectedWith message : Parse β) post := by
  intro s named a s' ran
  cases ran

theorem gives_expect (wanted : TokenKind) : Gives (Parse.expect wanted) fun _ => True := by
  refine gives_kind.bind fun kind _ => ?_
  split
  · exact fun s named a s' ran => ⟨trivial, (gives_take s named a s' ran).2⟩
  · exact gives_unexpected

theorem gives_expectWith (wanted : TokenKind) (message : String) :
    Gives (Parse.expectWith wanted message) fun token =>
      wanted = .identifier → isName token.value = true := by
  intro s named a s' ran
  have looked : (Parse.expectWith wanted message).run s = (if s.current.kind = wanted then
      Parse.take else Parse.unexpectedWith message : Parse Token).run s := rfl
  rw [looked] at ran
  split at ran
  · next same =>
    cases ran
    exact ⟨fun identifier => named.current (same.trans identifier), named.advance⟩
  · cases ran

end rules

/-- The members of a literal type are names, and there is at least one. -/
theorem gives_literalMembers (fuel : Nat) (before : NameSet)
    (h : ∀ name ∈ before.names, isName name = true) :
    Gives (literalMembers fuel before) fun members =>
      members.names ≠ [] ∧ ∀ name ∈ members.names, isName name = true := by
  induction fuel generalizing before with
  | zero => exact gives_unexpected
  | succ fuel ih =>
    refine (gives_expectWith _ _).bind fun member named => gives_kind.bind fun kind _ => ?_
    have all : ∀ name ∈ (before.insert member.value).names, isName name = true := by
      intro name mem
      rcases NameSet.mem_insert.1 mem with rfl | mem
      · exact named rfl
      · exact h name mem
    split
    · exact gives_take.bind fun _ _ => ih _ all
    · exact .pure ⟨List.ne_nil_of_mem (NameSet.mem_insert.2 (.inl rfl)), all⟩

theorem gives_typeWithin (fuel : Nat) :
    Gives (typeWithin fuel) fun type => type.isNameable = true := by
  induction fuel with
  | zero => exact gives_unexpected
  | succ fuel ih =>
    refine gives_kind.bind fun kind _ => ?_
    split
    · refine (gives_expect _).bind fun token _ => ?_
      split
      · exact .pure rfl
      · exact gives_fail _ _
    · exact (gives_expect _).bind fun _ _ => ih.bind fun element inner =>
        (gives_expectWith _ _).bind fun _ _ => .pure inner
    · exact (gives_expect _).bind fun _ _ => ih.bind fun key first =>
        (gives_expectWith _ _).bind fun _ _ => ih.bind fun value second =>
          (gives_expectWith _ _).bind fun _ _ => .pure (Bool.and_eq_true_iff.2 ⟨first, second⟩)
    · refine (gives_expect _).bind fun _ _ => gives_get.bind fun s _ => ?_
      refine (gives_literalMembers _ .empty (by simp [NameSet.empty])).bind fun members listed => ?_
      refine (gives_expectWith _ _).bind fun _ _ => .pure ?_
      simpa [Ty.isNameable] using listed
    · exact gives_unexpectedWith _

/-- A type that is read can be named. -/
theorem gives_type : Gives type fun type => type.isNameable = true :=
  gives_get.bind fun _ _ => gives_typeWithin _

theorem named_ofTokens {source file : String} {tokens : List Token}
    (h : Token.tokenize source file = .ok tokens) (id : Nat) :
    (Stream.ofTokens tokens file id).Named := by
  obtain ⟨body, rfl, cut⟩ := (@Token.cut_scan file [] (.start file) source.toList rfl).1 tokens h
  have ahead : (Stream.ofTokens (body ++ [Token.ending (.behind file ([] ++ source.toList))]) file
      id).rest = body := by
    simp [Stream.ofTokens, Token.ending]
  refine ⟨fun token mem identifier => ?_, by simp [Stream.ofTokens, Token.ending]⟩
  rw [ahead] at mem
  exact Lexeme.isName_of_denotes (cut.denotes token mem) identifier

end Grammar

/-- A text is read as a type, and no token is left but the closing one. -/
def Ty.ReadFrom (type : Ty) (source file : String) : Prop :=
  ∃ tokens s, Token.tokenize source file = .ok tokens ∧
    Grammar.type.run (Grammar.Stream.ofTokens tokens file 0) = .ok (type, s) ∧ s.rest = []

theorem Ty.ReadFrom.unique {a b : Ty} {source file : String} (first : a.ReadFrom source file)
    (second : b.ReadFrom source file) : a = b := by
  obtain ⟨tokens, s, scanned, ran, _⟩ := first
  obtain ⟨tokens', s', scanned', ran', _⟩ := second
  cases scanned.symm.trans scanned'
  cases ran.symm.trans ran'
  rfl

/-- The words of a description are those of its type, so the type is read from them. -/
theorem Ty.readFrom_describe {type : Ty} (h : type.isNameable = true) (file : String) :
    type.ReadFrom type.describe file := by
  have apart : Token.Apart (type.print ++ []) (type.describe.toList ++ []) :=
    apart_describe h (by simp) .nil
  rw [List.append_nil, List.append_nil] at apart
  obtain ⟨tokens, scanned, words⟩ := Token.scan_of_apart apart (.start file)
  have faces := Grammar.Stream.faces_ofTokens file 0 words
  rw [← List.append_nil type.print] at faces
  obtain ⟨_, s, ran, after, rfl⟩ := Grammar.consumes_type (printable_of_isNameable h) [] _ faces
  exact ⟨tokens, s, scanned, ran, List.map_eq_nil_iff.1 after.ahead⟩

/-- Describing and reading types are inverse to each other. A type that a script can name is read
from its description, which is used up; no two such types have the same description; and a type that
was read from any text can be named, so it is read again from its own description. -/
theorem types_read_back :
    (∀ (type : Ty) (file : String), type.isNameable = true → type.ReadFrom type.describe file) ∧
    (∀ a b : Ty, a.isNameable = true → b.isNameable = true → a.describe = b.describe → a = b) ∧
    ∀ (source file : String) (tokens : List Token) (type : Ty) (s : Grammar.Stream),
      Token.tokenize source file = .ok tokens →
      Grammar.type.run (Grammar.Stream.ofTokens tokens file 0) = .ok (type, s) →
      type.isNameable = true ∧ type.ReadFrom type.describe file := by
  refine ⟨fun type file h => Ty.readFrom_describe h file, fun a b first second same => ?_,
    fun source file tokens type s scanned ran => ?_⟩
  · have read := Ty.readFrom_describe first ""
    rw [same] at read
    exact read.unique (Ty.readFrom_describe second "")
  · have nameable := (Grammar.gives_type _ (Grammar.named_ofTokens scanned 0) type s ran).1
    exact ⟨nameable, Ty.readFrom_describe nameable file⟩

/-- A type with maps and lists in one another, where signs stand side by side. -/
def nestedType : Ty :=
  .map (.map .string (.literal (.ofList ["x_1"]))) (.list (.map (.list .material) .logic))

/-- The text of a literal type, with a member that is named twice and a comment. -/
def membersSource : String := "<b, // last
  a,b>"

def membersType : Ty := .literal (.ofList ["a", "b"])

theorem types_read_back_nested :
    nestedType.isNameable = true ∧
    nestedType.describe = "||string -> <x_1>| -> [|[material] -> logic|]|" ∧
    nestedType.ReadFrom nestedType.describe "nested" ∧
    Ty.literal (.ofList ["b", "a", "b"]) = membersType ∧
    ∃ tokens s, Token.tokenize membersSource "members" = .ok tokens ∧
      Grammar.type.run (Grammar.Stream.ofTokens tokens "members" 0) = .ok (membersType, s) ∧
      membersType.ReadFrom membersType.describe "members" := by
  obtain ⟨back, one, again⟩ := types_read_back
  have nested : nestedType.isNameable = true := by decide +kernel
  have read : (Token.tokenize membersSource "members").toOption.bind (fun tokens =>
      (Grammar.type.run (Grammar.Stream.ofTokens tokens "members" 0)).toOption.map Prod.fst) =
      some membersType := by
    decide +kernel
  obtain ⟨tokens, cut, found⟩ := Option.bind_eq_some_iff.1 read
  obtain ⟨⟨_, s⟩, ran, rfl⟩ := Option.map_eq_some_iff.1 found
  have scanned := eq_ok_of_toOption cut
  have ran := eq_ok_of_toOption ran
  refine ⟨nested, by decide +kernel, back nestedType "nested" nested, ?_, tokens, s, scanned, ran, ?_⟩
  · exact one _ _ (by decide +kernel) (by decide +kernel) (by decide +kernel)
  · exact (again membersSource "members" tokens membersType s scanned ran).2

end CursorScript
