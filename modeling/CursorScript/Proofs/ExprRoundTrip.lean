import CursorScript.Proofs.GrammarAlike
import CursorScript.Proofs.Printer

/-!
Reading expressions that were written. The words of an expression are read back as that expression,
but for identities and places, whatever its depth. An expression is opened by reading the words of
its first operand and then continued one operator at a time: what was read so far is always a left
operand of what is still to be read.
-/
namespace CursorScript

/-- An expression without identities and places. -/
abbrev Expr.bare (e : Expr) : Expr := e.remark fun _ => ⟨0, .nowhere⟩

abbrev Stmt.bare (s : Stmt) : Stmt := s.remark fun _ => ⟨0, .nowhere⟩

abbrev Parameter.bare (p : Parameter) : Parameter := p.remark fun _ => ⟨0, .nowhere⟩

abbrev Program.bare (p : Program) : Program := p.remark fun _ => ⟨0, .nowhere⟩

namespace Grammar

/-- The kind of the first word; the closing one stands behind all others. -/
def headKind (words : List Word) : TokenKind := (words.head?.map Prod.fst).getD .eof

@[simp] theorem headKind_cons (word : Word) (words : List Word) :
    headKind (word :: words) = word.1 := rfl

/-- A stream has just these words ahead of the closing one. -/
structure Stream.Faces (s : Stream) (words : List Word) : Prop where
  ahead : s.rest.map Token.word = words
  last : s.last.kind = .eof

theorem length_le_weight (tokens : List Token) : tokens.length ≤ weight tokens := by
  induction tokens with
  | nil => simp [weight]
  | cons token rest ih =>
    simp only [weight, List.length_cons]
    omega

section
variable {s : Stream} {word : Word} {words more : List Word}

theorem Stream.Faces.kind (h : s.Faces words) : s.current.kind = headKind words := by
  obtain ⟨rfl, last⟩ := h
  unfold Stream.current headKind
  cases s.rest with
  | nil => exact last
  | cons token rest => rfl

theorem Stream.Faces.current (h : s.Faces (word :: more)) : s.current.word = word := by
  have ahead := h.ahead
  unfold Stream.current
  cases rest : s.rest with
  | nil => simp [rest] at ahead
  | cons token rest' =>
    rw [rest, List.map_cons] at ahead
    exact (List.cons.inj ahead).1

theorem Stream.Faces.advance (h : s.Faces words) : s.advance.Faces words.tail := by
  refine ⟨?_, h.last⟩
  simp [Stream.advance, List.map_tail, h.ahead]

theorem Stream.Faces.repeat (h : s.Faces words) (n : Nat) :
    (Nat.repeat Stream.advance n s).Faces (words.drop n) := by
  induction n with
  | zero => exact h
  | succ n ih =>
    rw [← List.tail_drop]
    exact ih.advance

theorem Stream.Faces.length_lt (h : s.Faces words) : words.length < s.limit := by
  have counted : words.length = s.rest.length := by rw [← h.ahead, List.length_map]
  have weighed := length_le_weight s.rest
  have bounded := s.weight_lt
  omega

end

/-- Before `words` the reader gives a result that is as `post` says, and stops before `more`. -/
def Consumes {α : Type} (reader : Parse α) (words more : List Word) (post : α → Prop) : Prop :=
  ∀ s : Stream, s.Faces words → ∃ a s', reader.run s = .ok (a, s') ∧ s'.Faces more ∧ post a

section
variable {α β : Type} {reader : Parse α} {next : α → Parse β} {word : Word}
  {words middle more : List Word} {mid : α → Prop} {post : β → Prop}

theorem Consumes.bind (h : Consumes reader words middle mid)
    (rest : ∀ a, mid a → Consumes (next a) middle more post) :
    Consumes (reader >>= next) words more post := by
  intro s faces
  obtain ⟨a, s₁, ran, faces₁, result⟩ := h s faces
  obtain ⟨b, s₂, ran₂, faces₂, result₂⟩ := rest a result s₁ faces₁
  refine ⟨b, s₂, ?_, faces₂, result₂⟩
  rw [StateT.run_bind, ran]
  exact ran₂

theorem Consumes.pure {b : β} (h : post b) : Consumes (pure b) words words post :=
  fun s faces => ⟨b, s, rfl, faces, h⟩

theorem Consumes.pure_bind {a : α} (h : Consumes (next a) words more post) :
    Consumes (Pure.pure a >>= next) words more post := by
  rwa [LawfulMonad.pure_bind]

theorem Consumes.imp {post' : β → Prop} {reader : Parse β} (h : Consumes reader words more post)
    (weaker : ∀ b, post b → post' b) : Consumes reader words more post' := by
  intro s faces
  obtain ⟨b, s', ran, faces', result⟩ := h s faces
  exact ⟨b, s', ran, faces', weaker b result⟩

/-- Before `words` a reader that looks at the kind ahead sees that of the first word. -/
theorem consumes_kind {next : TokenKind → Parse β}
    (h : Consumes (next (headKind words)) words more post) :
    Consumes (Parse.kind >>= next) words more post := by
  intro s faces
  obtain ⟨b, s', ran, faces', result⟩ := h s faces
  refine ⟨b, s', ?_, faces', result⟩
  rw [← ran, ← faces.kind]
  rfl

theorem consumes_current :
    Consumes Parse.current (word :: more) (word :: more) fun token => token.word = word :=
  fun s faces => ⟨_, s, rfl, faces, faces.current⟩

theorem consumes_take :
    Consumes Parse.take (word :: more) more fun token => token.word = word :=
  fun s faces => ⟨_, s.advance, rfl, faces.advance, faces.current⟩

theorem consumes_place : Consumes Parse.place words words fun _ => True :=
  fun s faces => ⟨_, s, rfl, faces, trivial⟩

theorem consumes_get : Consumes get words words fun s => s.Faces words :=
  fun s faces => ⟨s, s, rfl, faces, faces⟩

theorem consumes_skip (n : Nat) :
    Consumes (modify (Nat.repeat Stream.advance n)) words (words.drop n) fun _ => True :=
  fun _ faces => ⟨_, _, rfl, faces.repeat n, trivial⟩

theorem consumes_freshId : Consumes Parse.freshId words words fun _ => True :=
  fun _ faces => ⟨_, _, rfl, ⟨faces.ahead, faces.last⟩, trivial⟩

theorem consumes_markFrom (start : Position) :
    Consumes (Parse.markFrom start) words words fun _ => True :=
  fun _ faces => ⟨_, _, rfl, ⟨faces.ahead, faces.last⟩, trivial⟩

theorem consumes_expect {wanted : TokenKind} (h : word.1 = wanted) :
    Consumes (Parse.expect wanted) (word :: more) more fun token => token.word = word := by
  refine consumes_kind ?_
  rw [if_pos (by rw [headKind_cons, h])]
  exact consumes_take

theorem consumes_expectWith {wanted : TokenKind} (message : String) (h : word.1 = wanted) :
    Consumes (Parse.expectWith wanted message) (word :: more) more
      fun token => token.word = word := by
  refine consumes_kind ?_
  rw [if_pos (by rw [headKind_cons, h])]
  exact consumes_take

end

section items
variable {α γ : Type} {close : TokenKind} {item : List α → Parse α} {more : List Word}

/-- Items are read one by one if each is read from its words, of which there are some, up to those
of the next. -/
theorem consumes_itemsUntil (view : α → γ) (shown : List α → List Word) {all : List α}
    (stop : headKind more = close) (nothing : shown [] = [])
    (step : ∀ done before x rest, all = done ++ x :: rest →
      before.reverse.map view = done.map view →
      (shown (x :: rest)).length ≤ (shown all).length →
      headKind (shown (x :: rest) ++ more) ≠ close ∧
        (shown rest).length < (shown (x :: rest)).length ∧
        Consumes (item before) (shown (x :: rest) ++ more) (shown rest ++ more) (view · = view x))
    (fuel : Nat) (done before rest : List α) (room : (shown rest ++ more).length < fuel)
    (split : all = done ++ rest) (same : before.reverse.map view = done.map view)
    (bound : (shown rest).length ≤ (shown all).length) :
    Consumes (Parse.itemsUntil close item fuel before) (shown rest ++ more) more
      fun found => found.map view = all.map view := by
  induction rest generalizing fuel done before with
  | nil =>
    cases fuel with
    | zero => simp at room
    | succ fuel =>
      rw [nothing, List.nil_append]
      refine consumes_kind ?_
      rw [if_pos stop]
      exact .pure (by rw [split, List.append_nil, same])
  | cons x rest ih =>
    cases fuel with
    | zero => simp at room
    | succ fuel =>
      obtain ⟨goes, shorter, reads⟩ := step done before x rest split same bound
      refine consumes_kind ?_
      rw [if_neg goes]
      refine reads.bind fun found first => ih fuel (done ++ [x]) (found :: before) ?_ ?_ ?_ ?_
      · simp only [List.length_append] at room ⊢
        omega
      · simp [split]
      · simp [same, first]
      · omega

theorem consumes_itemsBefore (view : α → γ) (shown : List α → List Word) {all : List α}
    (stop : headKind more = close) (nothing : shown [] = [])
    (step : ∀ done before x rest, all = done ++ x :: rest →
      before.reverse.map view = done.map view →
      (shown (x :: rest)).length ≤ (shown all).length →
      headKind (shown (x :: rest) ++ more) ≠ close ∧
        (shown rest).length < (shown (x :: rest)).length ∧
        Consumes (item before) (shown (x :: rest) ++ more) (shown rest ++ more) (view · = view x)) :
    Consumes (Parse.itemsBefore close item) (shown all ++ more) more
      fun found => found.map view = all.map view :=
  consumes_get.bind fun s faces =>
    consumes_itemsUntil view shown stop nothing step s.limit [] [] all faces.length_lt rfl rfl
      (Nat.le_refl _)

/-- What stands behind the first of several words with commas between them. -/
def commaTail (rest : List (List Word)) : List Word :=
  if rest = [] then [] else TokenKind.comma.spelled :: commas rest

theorem commas_cons (words : List Word) (rest : List (List Word)) :
    commas (words :: rest) = words ++ commaTail rest := by
  cases rest <;> simp [commas, commaTail]

/-- Behind an item stands a comma and the next item, or what closes the list. -/
theorem consumes_separator (message : String) (rest : List (List Word))
    (stop : headKind more = close) (differ : close ≠ .comma) :
    Consumes (Parse.separator close message) (commaTail rest ++ more) (commas rest ++ more)
      fun _ => True := by
  refine consumes_kind ?_
  cases rest with
  | nil =>
    rw [if_pos (by simpa [commaTail] using stop)]
    exact .pure trivial
  | cons words rest =>
    rw [if_neg (by simpa [commaTail] using differ.symm)]
    exact (consumes_expectWith message rfl).bind fun _ _ => .pure trivial

/-- Items with commas between them are read one by one if each is read up to what stands behind it,
a comma or the end of the list. -/
theorem consumes_listed (view : α → γ) (words : α → List Word) {all : List α}
    (stop : headKind more = close)
    (opens : ∀ x ∈ all, ∃ word rest, words x = word :: rest ∧ word.1 ≠ close)
    (step : ∀ done before x rest, all = done ++ x :: rest →
      before.reverse.map view = done.map view →
      (words x ++ commaTail (rest.map words)).length ≤ (commas (all.map words)).length →
      (headKind (commaTail (rest.map words) ++ more) = .comma ∨
        headKind (commaTail (rest.map words) ++ more) = close) →
      Consumes (item before) (words x ++ (commaTail (rest.map words) ++ more))
        (commas (rest.map words) ++ more) (view · = view x)) :
    Consumes (Parse.itemsBefore close item) (commas (all.map words) ++ more) more
      fun found => found.map view = all.map view := by
  refine consumes_itemsBefore view (fun rest => commas (rest.map words)) stop rfl ?_
  intro done before x rest split same bound
  obtain ⟨word, others, first, differs⟩ := opens x (by simp [split])
  have ahead : headKind (commaTail (rest.map words) ++ more) = .comma ∨
      headKind (commaTail (rest.map words) ++ more) = close := by
    cases rest with
    | nil => exact .inr (by simpa [commaTail] using stop)
    | cons => exact .inl (by simp [commaTail])
  rw [List.map_cons, commas_cons] at bound ⊢
  have reads := step done before x rest split same bound ahead
  rw [List.append_assoc]
  refine ⟨by simpa [first] using differs, ?_, reads⟩
  have positive : 0 < (words x).length := by simp [first]
  cases rest with
  | nil => simpa [commas, commaTail] using positive
  | cons =>
    simp only [commaTail, List.map_cons, reduceCtorEq, if_false, List.length_append,
      List.length_cons]
    omega

end items

theorem insertName_of_above {name : String} {names : List String}
    (h : ∀ other ∈ names, other < name) :
    NameSet.insertName name names = names ++ [name] := by
  induction names with
  | nil => rfl
  | cons first rest ih =>
    have below := h first (by simp)
    have apart : ¬name < first := fun above => String.lt_irrefl _ (String.lt_trans below above)
    have differ : name ≠ first := fun same => String.lt_irrefl _ (same ▸ below)
    simp only [NameSet.insertName, if_neg apart, if_neg differ, List.cons_append]
    rw [ih fun other mem => h other (by simp [mem])]

theorem names_foldl_insert (names : List String) (before : NameSet)
    (h : (before.names ++ names).Pairwise (· < ·)) :
    (names.foldl NameSet.insert before).names = before.names ++ names := by
  induction names generalizing before with
  | nil => simp
  | cons name rest ih =>
    have above : ∀ other ∈ before.names, other < name := by
      intro other mem
      exact (List.pairwise_append.1 h).2.2 other mem name (by simp)
    have added : (before.insert name).names = before.names ++ [name] := insertName_of_above above
    rw [List.foldl_cons, ih _ (by simpa [added] using h), added]
    simp

/-- A set is made of its members in their order. -/
theorem foldl_insert_names (members : NameSet) :
    members.names.foldl NameSet.insert .empty = members := by
  have names := names_foldl_insert members.names .empty
    (by simpa [NameSet.empty] using members.ascending)
  obtain ⟨listed, ascending⟩ := members
  generalize listed.foldl NameSet.insert .empty = made at names
  obtain ⟨found, _⟩ := made
  simp only [NameSet.empty, List.nil_append] at names
  subst names
  rfl

theorem consumes_literalMembers (names : List String) (nonempty : names ≠ []) (fuel : Nat)
    (before : NameSet) (more : List Word) (room : names.length < fuel)
    (stop : headKind more ≠ .comma) :
    Consumes (literalMembers fuel before)
      (commas (names.map fun name => [(.identifier, name)]) ++ more) more
      (· = names.foldl NameSet.insert before) := by
  induction names generalizing fuel before with
  | nil => exact absurd rfl nonempty
  | cons name rest ih =>
    cases fuel with
    | zero => simp at room
    | succ fuel =>
      rw [List.map_cons, commas_cons, List.cons_append, List.cons_append]
      refine (consumes_expectWith _ rfl).bind fun token is => consumes_kind ?_
      have named : token.value = name := congrArg Prod.snd is
      cases rest with
      | nil =>
        rw [if_neg (by simpa [commaTail] using stop)]
        exact .pure (by simp [named])
      | cons next others =>
        rw [if_pos (by simp [commaTail])]
        refine consumes_take.bind fun _ _ => ?_
        have later := ih (by simp) fuel (before.insert name) (by simpa using room)
        simpa [named] using later

theorem length_le_commas (names : List String) :
    names.length ≤ (commas (names.map fun name => [(TokenKind.identifier, name)])).length := by
  induction names with
  | nil => simp
  | cons name rest ih =>
    rw [List.map_cons, commas_cons]
    cases rest with
    | nil => simp
    | cons =>
      simp only [commaTail, List.map_cons, reduceCtorEq, if_false, List.length_append,
        List.length_cons, List.length_nil] at ih ⊢
      omega

theorem consumes_literalType {members : NameSet} (nonempty : members.names ≠ [])
    (more : List Word) :
    Consumes literalType ((Ty.literal members).print ++ more) more (· = .literal members) := by
  rw [Ty.print, between_append]
  refine (consumes_expect rfl).bind fun _ _ => consumes_get.bind fun s faces => ?_
  have fewer : members.names.length < s.limit := by
    have room := faces.length_lt
    have counted := length_le_commas members.names
    simp only [List.length_append] at room
    omega
  refine (consumes_literalMembers _ nonempty _ _ _ fewer (by simp)).bind fun found is => ?_
  refine (consumes_expectWith _ rfl).bind fun _ _ => .pure ?_
  rw [is, foldl_insert_names]

theorem ofName?_name (kind : Primitive) : Primitive.ofName? kind.name = some kind := by
  cases kind <;> rfl

theorem consumes_typeWithin (type : Ty) (printable : type.Printable) (fuel : Nat) (more : List Word)
    (room : type.print.length ≤ fuel) :
    Consumes (typeWithin fuel) (type.print ++ more) more (· = type) := by
  induction type generalizing fuel more with
  | simple kind =>
    cases fuel with
    | zero => simp [Ty.print] at room
    | succ fuel =>
      rw [Ty.print, List.singleton_append]
      refine consumes_kind ?_
      refine (consumes_expect rfl).bind fun token is => ?_
      rw [show token.value = kind.name from congrArg Prod.snd is, ofName?_name]
      exact .pure rfl
  | list element ih =>
    cases fuel with
    | zero => simp [Ty.print, between] at room
    | succ fuel =>
      have inner := ih printable fuel (TokenKind.closeBracket.spelled :: more)
        (by simp [Ty.print, between] at room; omega)
      rw [Ty.print, between_append]
      refine consumes_kind ?_
      refine (consumes_expect rfl).bind fun _ _ => inner.bind ?_
      rintro _ rfl
      exact (consumes_expectWith _ rfl).bind fun _ _ => .pure rfl
  | map key value ihKey ihValue =>
    cases fuel with
    | zero => simp [Ty.print, between] at room
    | succ fuel =>
      simp only [Ty.print, between, List.length_append, List.length_cons, List.length_nil] at room
      have first := ihKey printable.1 fuel
        (TokenKind.arrow.spelled :: (value.print ++ TokenKind.pipe.spelled :: more)) (by omega)
      have second := ihValue printable.2 fuel (TokenKind.pipe.spelled :: more) (by omega)
      rw [Ty.print, between_append, List.append_assoc, List.cons_append]
      refine consumes_kind ?_
      refine (consumes_expect rfl).bind fun _ _ => first.bind ?_
      rintro _ rfl
      refine (consumes_expectWith _ rfl).bind fun _ _ => second.bind ?_
      rintro _ rfl
      exact (consumes_expectWith _ rfl).bind fun _ _ => .pure rfl
  | literal members =>
    cases fuel with
    | zero => simp [Ty.print, between] at room
    | succ fuel => exact consumes_kind (consumes_literalType printable more)
  | emptyList => exact printable.elim
  | emptyMap => exact printable.elim

theorem consumes_type {type : Ty} (printable : type.Printable) (more : List Word) :
    Consumes Grammar.type (type.print ++ more) more (· = type) := by
  refine consumes_get.bind fun s faces => consumes_typeWithin type printable _ more ?_
  have room := faces.length_lt
  simp only [List.length_append] at room
  omega

def literal? (word : Word) (mark : Mark) : Option Expr :=
  match word.1 with
  | .number => (Decimal.readNat? (digitsOf word.2)).map (.number mark)
  | .real => (Decimal.readReal? (digitsOf word.2)).map (.real mark)
  | .string => some (.string mark word.2)
  | .wordTrue => some (.logic mark true)
  | .wordFalse => some (.logic mark false)
  | .material =>
    match Text.splitOnce? ':' word.2.toList with
    | none => some (.material mark none word.2)
    | some (space, name) => some (.material mark (some (String.ofList space)) (String.ofList name))
  | .identifier => some (.symbol ⟨mark, word.2, 0⟩)
  | _ => none

theorem consumes_atom {word : Word} {made : Mark → Expr}
    (h : ∀ mark, literal? word mark = some (made mark)) (more : List Word) :
    Consumes atom (word :: more) more fun e => ∃ mark, e = made mark := by
  refine consumes_current.bind fun token is => consumes_freshId.bind fun id _ => ?_
  subst is
  obtain ⟨kind, value, span⟩ := token
  have made' := h ⟨id, span⟩
  have taken : ∀ e : Expr, e = made ⟨id, span⟩ → Consumes (do let _ ← Parse.take; return e)
      (Token.word ⟨kind, value, span⟩ :: more) more fun e => ∃ mark, e = made mark :=
    fun e same => consumes_take.bind fun _ _ => .pure ⟨_, same⟩
  cases kind <;> simp only [literal?, Token.word, reduceCtorEq, Option.some.injEq] at made'
  case number =>
    obtain ⟨n, read, same⟩ := Option.map_eq_some_iff.1 made'
    dsimp only
    rw [read]
    exact taken _ same
  case real =>
    obtain ⟨x, read, same⟩ := Option.map_eq_some_iff.1 made'
    dsimp only
    rw [read]
    exact taken _ same
  case material =>
    dsimp only
    cases found : Text.splitOnce? ':' value.toList with
    | none =>
      rw [found] at made'
      exact taken _ (Option.some.inj made')
    | some pair =>
      rw [found] at made'
      exact taken _ (Option.some.inj made')
  all_goals exact taken _ made'

theorem digitsOf_writeNat (n : Nat) : digitsOf (Decimal.writeNat n) = Nat.toDigits 10 n := by
  unfold digitsOf
  rw [Decimal.writeNat_eq, Nat.repr, String.toList_ofList, List.filter_eq_self]
  intro c mem
  have plain : c ≠ '_' := fun same => Nat.underscore_not_in_toDigits (same ▸ mem)
  simpa using plain

theorem readNat?_toDigits (n : Nat) : Decimal.readNat? (Nat.toDigits 10 n) = some n := by
  have digits : (Nat.toDigits 10 n).all Decimal.isDigit = true := by
    rw [List.all_eq_true]
    intro c mem
    have digit := Nat.isDigit_of_mem_toDigits (b := 10) (by decide) (by decide) mem
    simpa [Char.isDigit, Decimal.isDigit, Char.le_def] using digit
  have value : Decimal.digitsValue 0 (Nat.toDigits 10 n) = n := Nat.ofDigitChars_ten_toDigits
  unfold Decimal.readNat?
  rw [if_pos ⟨Nat.toDigits_ne_nil, digits⟩, value]

theorem literal?_number (n : Nat) (mark : Mark) :
    literal? (.number, Decimal.writeNat n) mark = some (.number mark n) := by
  simp only [literal?, digitsOf_writeNat, readNat?_toDigits]
  rfl

theorem splitOnce?_of_not_mem {mark : Char} {chars : List Char} (h : mark ∉ chars) :
    Text.splitOnce? mark chars = none := by
  induction chars with
  | nil => rfl
  | cons c rest ih =>
    simp only [List.mem_cons, not_or] at h
    simp [Text.splitOnce?, Ne.symm h.1, ih h.2]

theorem splitOnce?_append {mark : Char} {before : List Char} (h : mark ∉ before)
    (behind : List Char) :
    Text.splitOnce? mark (before ++ mark :: behind) = some (before, behind) := by
  induction before with
  | nil => simp [Text.splitOnce?]
  | cons c rest ih =>
    simp only [List.mem_cons, not_or] at h
    simp [Text.splitOnce?, Ne.symm h.1, ih h.2]

theorem takeWhile_carets (up : Nat) (name : String) (more : List Word) :
    (List.replicate up TokenKind.caret.spelled ++ (TokenKind.identifier, name) :: more).takeWhile
      (fun word => word.1 = .caret) = List.replicate up TokenKind.caret.spelled := by
  induction up with
  | zero => simp
  | succ up ih => simp [List.replicate_succ, ih]

theorem consumes_scopedSymbol (symbol : Symbol) (more : List Word) :
    Consumes scopedSymbol (symbol.print ++ more) more
      fun found => ∃ mark, found = ⟨mark, symbol.name, symbol.up⟩ := by
  obtain ⟨mark, name, up⟩ := symbol
  rw [Symbol.print, List.append_assoc, List.singleton_append]
  refine consumes_place.bind fun start _ => consumes_get.bind fun s faces => ?_
  have counted : (s.rest.takeWhile fun token => token.kind = .caret).length = up := by
    rw [length_takeWhile_caret, faces.ahead, takeWhile_carets, List.length_replicate]
  rw [counted]
  refine (consumes_skip up).bind fun _ _ => ?_
  rw [List.drop_left' (by simp)]
  refine (consumes_expectWith _ rfl).bind fun token is => ?_
  refine (consumes_markFrom _).bind fun mark _ => .pure ⟨mark, ?_⟩
  rw [show token.value = name from congrArg Prod.snd is]

/-- How tightly the first word binds what stands before it. -/
def pull (words : List Word) : Nat := (Power.ofToken (headKind words)).rank

/-- How tightly a word behind an expression may bind without becoming part of it. -/
def trail : Expr → Nat
  | .binary _ _ operator _ => (Power.ofRight operator.kind).rank
  | .unary .. => unaryTightness
  | _ => callTightness

/-- How tightly the surroundings of an expression may not bind if all of it is to be read; what
starts with its operator is read anywhere. -/
def grip : Expr → Nat
  | .binary _ _ operator _ => operator.kind.tightness
  | _ => callTightness

theorem rank_ofToken {kind : TokenKind} (h : 0 < kind.tightness) :
    (Power.ofToken kind).rank = kind.tightness := by
  cases kind <;> simp_all [TokenKind.tightness, Power.ofToken, Power.rank]

theorem rank_ofRight {kind : TokenKind} (h : 0 < kind.tightness) :
    (Power.ofRight kind).rank + 1 = kind.leastRight := by
  cases kind <;> simp_all [TokenKind.tightness, TokenKind.leastRight, Power.ofRight, Power.ofToken,
    Power.rank]

theorem tightness_le_leastLeft (kind : TokenKind) : kind.tightness ≤ kind.leastLeft := by
  unfold TokenKind.leastLeft
  split <;> omega

theorem tightness_lt_of_ne {kind : TokenKind} (h : kind ≠ .caret) :
    kind.tightness < TokenKind.caret.tightness := by
  cases kind <;> simp_all [TokenKind.tightness]

theorem tightness_lt_unary (kind : TokenKind) : kind.tightness < unaryTightness := by
  cases kind <;> decide

theorem tightness_pos {write : Float → String} {e : Expr} (h : e.Printable write) :
    0 < e.tightness := by
  cases e with
  | binary mark left operator right => exact h.1
  | _ => simp [Expr.tightness, unaryTightness, callTightness]

theorem tightness_le_grip (e : Expr) : e.tightness ≤ grip e := by
  cases e <;> simp [Expr.tightness, grip, unaryTightness, callTightness]

theorem grip_le_trail_succ {write : Float → String} {e : Expr} (h : e.Printable write) :
    grip e ≤ trail e + 1 := by
  cases e with
  | binary mark left operator right =>
    have right := rank_ofRight h.1
    simp only [grip, trail, TokenKind.leastRight] at right ⊢
    split at right <;> omega
  | _ => simp [grip, trail, unaryTightness, callTightness]

/-- An operand of `-` or `not` that needs no parentheses is read whole. -/
theorem unary_lt_grip {e : Expr} (tight : unaryTightness ≤ e.tightness) :
    Power.unary.rank < grip e := by
  cases e with
  | binary mark left operator right => exact absurd tight (Nat.not_le.2 (tightness_lt_unary _))
  | _ => simp [grip, callTightness, Power.rank]

/-- What can be indexed without parentheses ends before the index. -/
theorem call_le_trail {e : Expr} (tight : callTightness ≤ e.tightness) :
    callTightness ≤ trail e := by
  cases e with
  | binary mark left operator right =>
    have loose := tightness_lt_unary operator.kind
    simp only [Expr.tightness, unaryTightness, callTightness] at tight loose
    omega
  | unary mark operator operand => simp [Expr.tightness, unaryTightness, callTightness] at tight
  | _ => exact Nat.le_refl _

/-- A left operand that needs no parentheses ends before its operator. -/
theorem tightness_le_trail {write : Float → String} {e : Expr} {kind : TokenKind}
    (h : e.Printable write) (tight : kind.leastLeft ≤ e.tightness) : kind.tightness ≤ trail e := by
  have loose := tightness_lt_unary kind
  have least := tightness_le_leastLeft kind
  cases e with
  | binary mark left operator right =>
    have right := rank_ofRight h.1
    simp only [Expr.tightness, trail] at tight ⊢
    by_cases power : operator.kind = .caret
    -- A power goes on to the right, so it may be a left operand of anything but a power.
    · have apart : kind ≠ .caret := by
        rintro rfl
        simp only [TokenKind.leastLeft, power, if_true] at tight
        omega
      have below := tightness_lt_of_ne apart
      simp only [TokenKind.leastRight, power, if_true] at right ⊢
      omega
    · simp only [TokenKind.leastRight, if_neg power] at right
      omega
  | unary mark operator operand =>
    simp only [trail]
    omega
  | _ =>
    simp only [trail, unaryTightness, callTightness] at loose ⊢
    omega

theorem climb_succ (expr : ExprReader) (outer : Power) (limit : Nat) (left : Expr) :
    climb expr outer (limit + 1) left = Parse.kind >>= fun kind =>
      if (Power.ofToken kind).rank ≤ outer.rank then pure left
      else continuation expr left >>= climb expr outer limit := rfl

theorem run_climb_stop {expr : ExprReader} {outer : Power} {limit : Nat} {left : Expr} {s : Stream}
    (h : (Power.ofToken s.current.kind).rank ≤ outer.rank) :
    (climb expr outer (limit + 1) left).run s = .ok (left, s) := by
  rw [climb_succ, StateT.run_bind]
  show StateT.run (if (Power.ofToken s.current.kind).rank ≤ outer.rank then _ else _) s = _
  rw [if_pos h]
  rfl

theorem run_climb_go {expr : ExprReader} {outer : Power} {limit : Nat} {left : Expr} {s : Stream}
    (h : outer.rank < (Power.ofToken s.current.kind).rank) :
    (climb expr outer (limit + 1) left).run s =
      (continuation expr left >>= climb expr outer limit).run s := by
  rw [climb_succ, StateT.run_bind]
  show StateT.run (if (Power.ofToken s.current.kind).rank ≤ outer.rank then _ else _) s = _
  rw [if_neg (Nat.not_le.2 h)]

/-- Before `words`, reading an expression inside `outer` comes to a point where `e` was read and
`more` is ahead. -/
def Opens (fuel : Nat) (outer : Power) (words more : List Word) (e : Expr) : Prop :=
  ∀ s : Stream, s.Faces words → ∃ left limit s',
    (exprWithin (fuel + 1) outer).run s = (climb (exprWithin fuel) outer limit left).run s' ∧
      s'.Faces more ∧ more.length < limit ∧ left.bare = e.bare

section
variable {fuel : Nat} {outer : Power} {words more : List Word} {e : Expr}

theorem Opens.of_operand
    (h : Consumes (operand (exprWithin fuel)) words more fun left => left.bare = e.bare) :
    Opens fuel outer words more e := by
  intro s faces
  obtain ⟨left, s', ran, faces', same⟩ := h s faces
  refine ⟨left, s'.limit, s', ?_, faces', faces'.length_lt, same⟩
  rw [exprWithin, StateT.run_bind, ran]
  rfl

/-- A word that does not bind tighter than `outer` ends the expression. -/
theorem Opens.consumes (h : Opens fuel outer words more e) (stop : pull more ≤ outer.rank) :
    Consumes (exprWithin (fuel + 1) outer) words more fun found => found.bare = e.bare := by
  intro s faces
  obtain ⟨left, limit, s', ran, faces', room, same⟩ := h s faces
  refine ⟨left, s', ?_, faces', same⟩
  cases limit with
  | zero => omega
  | succ limit =>
    have ends : (Power.ofToken s'.current.kind).rank ≤ outer.rank := by rwa [faces'.kind]
    rw [ran, run_climb_stop ends]

/-- A word that binds tighter than `outer` goes on with what was read as its left operand. -/
theorem Opens.continued {word : Word} {behind : List Word} {whole : Expr}
    (h : Opens fuel outer words (word :: behind) e)
    (goes : outer.rank < (Power.ofToken word.1).rank) (shorter : more.length ≤ behind.length)
    (next : ∀ left : Expr, left.bare = e.bare →
      Consumes (continuation (exprWithin fuel) left) (word :: behind) more
        fun found => found.bare = whole.bare) :
    Opens fuel outer words more whole := by
  intro s faces
  obtain ⟨left, limit, s₁, ran, faces₁, room, same⟩ := h s faces
  obtain ⟨found, s₂, ran₂, faces₂, same₂⟩ := next left same s₁ faces₁
  cases limit with
  | zero => omega
  | succ limit =>
    refine ⟨found, limit, s₂, ?_, faces₂, ?_, same₂⟩
    · have further : outer.rank < (Power.ofToken s₁.current.kind).rank := by rwa [faces₁.kind]
      rw [ran, run_climb_go further, StateT.run_bind, ran₂]
      rfl
    · simp only [List.length_cons] at room
      omega

end

section
variable (write : Float → String)

/-- The words of an expression open it wherever it binds tightly enough, if the word behind does not
bind it tighter. -/
def Spells (e : Expr) : Prop :=
  ∀ (fuel : Nat) (outer : Power) (more : List Word), (e.print write ++ more).length ≤ fuel + 1 →
    outer.rank < grip e → pull more ≤ trail e → Opens fuel outer (e.print write ++ more) more e

variable {write} {e : Expr} (spells : Spells write e) (printable : e.Printable write)
include printable spells

/-- An expression is read up to a word that does not bind tighter than its surroundings. -/
theorem Spells.consumes {fuel : Nat} {outer : Power} {more : List Word}
    (room : (e.print write ++ more).length ≤ fuel) (fits : outer.rank < grip e)
    (stop : pull more ≤ outer.rank) :
    Consumes (exprWithin fuel outer) (e.print write ++ more) more
      fun found => found.bare = e.bare := by
  obtain ⟨word, rest, first, _⟩ := e.startsExpr_print write printable
  have near := grip_le_trail_succ printable
  cases fuel with
  | zero => simp [first] at room
  | succ fuel => exact (spells fuel outer more room fits (by omega)).consumes stop

/-- An expression that stands alone between other words is read up to one that does not bind it. -/
theorem Spells.consumes_loosest {fuel : Nat} {more : List Word}
    (room : (e.print write ++ more).length ≤ fuel) (stop : pull more = 0) :
    Consumes (exprWithin fuel .loosest) (e.print write ++ more) more
      fun found => found.bare = e.bare := by
  have inside := Nat.lt_of_lt_of_le (tightness_pos printable) (tightness_le_grip e)
  exact spells.consumes printable room inside (Nat.le_of_eq stop)

theorem Spells.consumes_grouping {fuel : Nat} {more : List Word}
    (room : (e.print write ++ more).length < fuel) :
    Consumes (grouping (exprWithin fuel)) (between .openParen .closeParen (e.print write) ++ more)
      more fun found => found.bare = e.bare := by
  have short : (e.print write ++ TokenKind.closeParen.spelled :: more).length ≤ fuel := by
    simp only [List.length_append, List.length_cons] at room ⊢
    omega
  rw [between_append]
  refine consumes_take.bind fun _ _ => ?_
  refine (spells.consumes_loosest printable short rfl).bind fun found same => ?_
  exact (consumes_expectWith _ rfl).bind fun _ _ => .pure same

theorem Spells.opens_fitted {least fuel : Nat} {outer : Power} {more : List Word}
    (room : (fitted least e.tightness (e.print write) ++ more).length ≤ fuel + 1)
    (fits : least ≤ e.tightness → outer.rank < grip e)
    (stop : least ≤ e.tightness → pull more ≤ trail e) :
    Opens fuel outer (fitted least e.tightness (e.print write) ++ more) more e := by
  unfold fitted at room ⊢
  split at room
  · next loose =>
    rw [if_pos loose]
    refine .of_operand (consumes_kind ?_)
    exact spells.consumes_grouping printable (by simp [between] at room ⊢; omega)
  · next tight =>
    rw [if_neg tight]
    exact spells fuel outer more room (fits (by omega)) (stop (by omega))

theorem Spells.consumes_fitted {least fuel : Nat} {outer : Power} {more : List Word}
    (room : (fitted least e.tightness (e.print write) ++ more).length ≤ fuel)
    (fits : least ≤ e.tightness → outer.rank < grip e) (stop : pull more ≤ outer.rank) :
    Consumes (exprWithin fuel outer) (fitted least e.tightness (e.print write) ++ more) more
      fun found => found.bare = e.bare := by
  obtain ⟨word, rest, first, _⟩ :=
    startsExpr_fitted least e.tightness (e.startsExpr_print write printable)
  have near := grip_le_trail_succ printable
  cases fuel with
  | zero => simp [first] at room
  | succ fuel =>
    refine (spells.opens_fitted printable room fits fun tight => ?_).consumes stop
    have inside := fits tight
    omega

end

theorem consumes_operand_literal {expr : ExprReader} {word : Word} {made : Mark → Expr}
    (h : ∀ mark, literal? word mark = some (made mark)) (more : List Word) :
    Consumes (operand expr) (word :: more) more fun e => ∃ mark, e = made mark := by
  have read := consumes_atom h more
  have some := h ⟨0, .nowhere⟩
  refine consumes_kind ?_
  obtain ⟨kind, value⟩ := word
  cases kind <;> simp only [literal?, reduceCtorEq] at some
  all_goals exact read

section forms
variable {write : Float → String}

/-- An expression that is written as one word. -/
theorem spells_literal {e : Expr} {word : Word} (made : Mark → Expr)
    (written : e.print write = [word]) (h : ∀ mark, literal? word mark = some (made mark))
    (same : ∀ mark, (made mark).bare = e.bare) : Spells write e := by
  intro fuel outer more _ _ _
  rw [written, List.singleton_append]
  refine .of_operand ((consumes_operand_literal h more).imp ?_)
  rintro _ ⟨mark, rfl⟩
  exact same mark

theorem spells_material {mark : Mark} {space : Option String} {name : String}
    (printable : (Expr.material mark space name).Printable write) :
    Spells write (.material mark space name) := by
  cases space with
  | none =>
    refine spells_literal (fun mark => .material mark none name) rfl (fun mark => ?_) fun _ => rfl
    simp only [literal?, splitOnce?_of_not_mem printable]
  | some space =>
    refine spells_literal (fun mark => .material mark (some space) name) rfl (fun mark => ?_)
      fun _ => rfl
    have cut := splitOnce?_append printable name.toList
    have joined : (space ++ ":" ++ name).toList = space.toList ++ ':' :: name.toList := by
      simp
    simp only [literal?, joined, cut, String.ofList_toList]

theorem spells_symbol (symbol : Symbol) : Spells write (.symbol symbol) := by
  obtain ⟨mark, name, up⟩ := symbol
  cases up with
  | zero =>
    exact spells_literal (fun mark => .symbol ⟨mark, name, 0⟩) rfl (fun _ => rfl) fun _ => rfl
  | succ up =>
    intro fuel outer more _ _ _
    refine .of_operand (consumes_kind ?_)
    refine (consumes_scopedSymbol ⟨mark, name, up + 1⟩ more).bind ?_
    rintro _ ⟨mark', rfl⟩
    exact .pure rfl

theorem spells_member (mark : Mark) (name : String) : Spells write (.member mark name) := by
  intro fuel outer more _ _ _
  rw [Expr.print, between_append, List.singleton_append]
  refine .of_operand (consumes_kind ?_)
  refine consumes_take.bind fun _ _ => (consumes_expectWith _ rfl).bind fun token is => ?_
  refine (consumes_expectWith _ rfl).bind fun _ _ => (consumes_markFrom _).bind fun mark' _ => ?_
  refine .pure ?_
  rw [show token.value = name from congrArg Prod.snd is]
  rfl

theorem spells_unary {mark : Mark} {operator : Token} {e : Expr}
    (printable : (Expr.unary mark operator e).Printable write) (inner : Spells write e) :
    Spells write (.unary mark operator e) := by
  intro fuel outer more room _ stop
  rw [Expr.print, List.cons_append] at room ⊢
  have operand : Consumes (exprWithin fuel .unary)
      (fitted unaryTightness e.tightness (e.print write) ++ more) more
      fun e' => e'.bare = e.bare := by
    refine inner.consumes_fitted printable.2 ?_ ?_ stop
    · simp only [List.length_cons] at room
      omega
    · exact unary_lt_grip
  have signed : Consumes (unaryExpr (exprWithin fuel))
      (operator.word :: (fitted unaryTightness e.tightness (e.print write) ++ more)) more
      fun e' => e'.bare = (Expr.unary mark operator e).bare := by
    refine consumes_take.bind fun token is => operand.bind fun found same => ?_
    refine consumes_freshId.bind fun id _ => .pure ?_
    simp only [Expr.bare, Expr.remark, Token.unplaced_eq_iff.2 is, same]
  refine .of_operand (consumes_kind ?_)
  rcases printable.1 with kind | kind
  · simp only [headKind_cons, Token.word, kind] at signed ⊢
    exact signed
  · simp only [headKind_cons, Token.word, kind] at signed ⊢
    exact signed

theorem consumes_binary {fuel : Nat} {mark : Mark} {left left' right : Expr} {operator : Token}
    {more : List Word} (printable : (Expr.binary mark left operator right).Printable write)
    (same : left'.bare = left.bare) (inner : Spells write right)
    (room : (fitted operator.kind.leastRight right.tightness (right.print write) ++ more).length ≤
      fuel)
    (stop : pull more ≤ (Power.ofRight operator.kind).rank) :
    Consumes (continuation (exprWithin fuel) left')
      (operator.word ::
        (fitted operator.kind.leastRight right.tightness (right.print write) ++ more)) more
      fun found => found.bare = (Expr.binary mark left operator right).bare := by
  obtain ⟨positive, _, printable⟩ := printable
  have rank := rank_ofRight positive
  have operand : Consumes (exprWithin fuel (.ofRight operator.kind))
      (fitted operator.kind.leastRight right.tightness (right.print write) ++ more) more
      fun found => found.bare = right.bare := by
    refine inner.consumes_fitted printable room (fun tight => ?_) stop
    have reach := tightness_le_grip right
    omega
  have joined : Consumes (binaryExpr (exprWithin fuel) left')
      (operator.word ::
        (fitted operator.kind.leastRight right.tightness (right.print write) ++ more)) more
      fun found => found.bare = (Expr.binary mark left operator right).bare := by
    refine consumes_take.bind fun token is => ?_
    rw [Token.kind_eq is]
    refine operand.bind fun found same' => consumes_freshId.bind fun id _ => .pure ?_
    simp only [Expr.bare, Expr.remark, Token.unplaced_eq_iff.2 is, same, same']
  refine consumes_kind ?_
  simp only [headKind_cons, Token.word]
  split
  · next kind => simp [kind, TokenKind.tightness] at positive
  · next kind => simp [kind, TokenKind.tightness] at positive
  · exact joined

theorem spells_binary {mark : Mark} {left right : Expr} {operator : Token}
    (printable : (Expr.binary mark left operator right).Printable write)
    (first : Spells write left) (second : Spells write right) :
    Spells write (.binary mark left operator right) := by
  intro fuel outer more room fits stop
  rw [Expr.print, List.append_assoc, List.cons_append] at room ⊢
  have pulled : (Power.ofToken operator.kind).rank = operator.kind.tightness :=
    rank_ofToken printable.1
  have reach : operator.kind.leastLeft ≤ left.tightness → outer.rank < grip left := by
    intro tight
    have least := tightness_le_leastLeft operator.kind
    have whole := tightness_le_grip left
    simp only [grip] at fits
    omega
  have opened := first.opens_fitted printable.2.1 room reach fun tight => by
    simpa [pull, Token.word, pulled] using tightness_le_trail printable.2.1 tight
  have goes : outer.rank < (Power.ofToken operator.word.1).rank := by
    rw [Token.word, pulled]
    exact fits
  refine opened.continued goes (by simp) fun left' same => ?_
  refine consumes_binary printable same second ?_ stop
  simp only [List.length_append, List.length_cons] at room ⊢
  omega

theorem spells_index {mark : Mark} {collection place : Expr}
    (printable : (Expr.index mark collection place).Printable write)
    (first : Spells write collection) (second : Spells write place) :
    Spells write (.index mark collection place) := by
  intro fuel outer more room fits stop
  rw [Expr.print, List.append_assoc, between_append] at room ⊢
  have opened := first.opens_fitted printable.1 room
    (fun tight => Nat.lt_of_lt_of_le fits (Nat.le_trans tight (tightness_le_grip collection)))
    (fun tight => call_le_trail tight)
  refine opened.continued fits (by simp; omega) fun collection' same => consumes_kind ?_
  have short : (place.print write ++ TokenKind.closeBracket.spelled :: more).length ≤ fuel := by
    simp only [List.length_append, List.length_cons] at room ⊢
    omega
  refine consumes_take.bind fun _ _ => ?_
  refine (second.consumes_loosest printable.2 short rfl).bind fun found same' => ?_
  refine (consumes_expectWith _ rfl).bind fun _ _ => (consumes_markFrom _).bind fun mark' _ => ?_
  refine .pure ?_
  simp only [Expr.bare, Expr.remark, same, same']

/-- What closes a list of expressions starts none, is no comma, and does not bind what stands before
it. -/
theorem closes_list {close : TokenKind}
    (h : close = .closeParen ∨ close = .closeBracket ∨ close = .closeCurly) :
    ¬close.startsExpr ∧ close ≠ .comma ∧ (Power.ofToken close).rank = 0 := by
  rcases h with rfl | rfl | rfl <;> simp [TokenKind.startsExpr, Power.ofToken, Power.rank]

theorem pull_eq_zero {words : List Word} {close : TokenKind}
    (loose : (Power.ofToken close).rank = 0)
    (h : headKind words = .comma ∨ headKind words = close) : pull words = 0 := by
  unfold pull
  rcases h with h | h
  · rw [h]
    rfl
  · rw [h, loose]

theorem consumes_exprList {es : List Expr} (printable : ∀ e ∈ es, e.Printable write)
    (spells : ∀ e ∈ es, Spells write e) {close : TokenKind}
    (closes : close = .closeParen ∨ close = .closeBracket ∨ close = .closeCurly) {fuel : Nat}
    {more : List Word}
    (room : (commas (es.map (Expr.print write)) ++ close.spelled :: more).length ≤ fuel) :
    Consumes (exprList (exprWithin fuel) close)
      (commas (es.map (Expr.print write)) ++ close.spelled :: more) more
      fun found => found.map Expr.bare = es.map Expr.bare := by
  obtain ⟨starts, differ, loose⟩ := closes_list closes
  have stop : headKind (close.spelled :: more) = close := rfl
  refine (consumes_listed Expr.bare (Expr.print write) stop ?_ ?_).bind fun found same =>
    (consumes_expect rfl).bind fun _ _ => .pure same
  · intro e mem
    obtain ⟨word, rest, first, opens⟩ := e.startsExpr_print write (printable e mem)
    exact ⟨word, rest, first, fun is => starts (is ▸ opens)⟩
  · intro done before e rest split _ bound ahead
    have mem : e ∈ es := by simp [split]
    have short : (e.print write ++ (commaTail (rest.map (Expr.print write)) ++
        close.spelled :: more)).length ≤ fuel := by
      simp only [List.length_append] at room bound ⊢
      omega
    refine ((spells e mem).consumes_loosest (printable e mem) short
      (pull_eq_zero loose ahead)).bind fun found same => ?_
    exact (consumes_separator _ _ stop differ).bind fun _ _ => .pure same

theorem spells_list {mark : Mark} {elements : List Expr}
    (printable : ∀ e ∈ elements, e.Printable write) (spells : ∀ e ∈ elements, Spells write e) :
    Spells write (.list mark elements) := by
  intro fuel outer more room _ _
  rw [Expr.print, Expr.printAll_eq, between_append] at room ⊢
  refine .of_operand (consumes_kind (consumes_take.bind fun _ _ => ?_))
  refine (consumes_exprList printable spells (by simp) ?_).bind fun found same => ?_
  · simp only [List.length_cons] at room ⊢
    omega
  refine (consumes_markFrom _).bind fun mark' _ => .pure ?_
  simp only [Expr.bare, Expr.remark, Expr.remarkAll_eq, same]

theorem spells_call {mark : Mark} {callee : String} {arguments : List Expr}
    (printable : ∀ e ∈ arguments, e.Printable write) (spells : ∀ e ∈ arguments, Spells write e) :
    Spells write (.call mark callee arguments) := by
  intro fuel outer more room fits _
  rw [Expr.print, Expr.printAll_eq, List.cons_append, between_append] at room ⊢
  have named : Spells write (.symbol ⟨mark, callee, 0⟩) := spells_symbol ⟨mark, callee, 0⟩
  have opened := named fuel outer _ room fits (Nat.le_refl callTightness)
  refine opened.continued fits (by simp; omega) fun left same => consumes_kind ?_
  have name : callee? left = some callee := by
    rw [← callee?_remark (fun _ => ⟨0, .nowhere⟩) left]
    exact congrArg callee? same
  have called : Consumes (callExpr (exprWithin fuel) left)
      (TokenKind.openParen.spelled :: (commas (arguments.map (Expr.print write)) ++
        TokenKind.closeParen.spelled :: more)) more
      fun found => found.bare = (Expr.call mark callee arguments).bare := by
    rw [callExpr_eq, name]
    refine consumes_take.bind fun _ _ => ?_
    refine (consumes_exprList printable spells (by simp) ?_).bind fun found same => ?_
    · simp only [List.length_cons] at room ⊢
      omega
    refine (consumes_markFrom _).bind fun mark' _ => .pure ?_
    simp only [Expr.bare, Expr.remark, Expr.remarkAll_eq, same]
  exact called

theorem consumes_mapEntry {key value : Expr}
    (printable : key.Printable write ∧ value.Printable write)
    (first : Spells write key) (second : Spells write value) {fuel : Nat} {rest : List (List Word)}
    {more : List Word}
    (room : (key.print write ++ TokenKind.colon.spelled :: value.print write ++
      (commaTail rest ++ more)).length ≤ fuel)
    (stop : headKind more = .closeCurly)
    (ahead : headKind (commaTail rest ++ more) = .comma ∨
      headKind (commaTail rest ++ more) = .closeCurly) :
    Consumes (mapEntry (exprWithin fuel))
      (key.print write ++ TokenKind.colon.spelled :: value.print write ++ (commaTail rest ++ more))
      (commas rest ++ more)
      fun found => (found.1.bare, found.2.bare) = (key.bare, value.bare) := by
  rw [List.append_assoc, List.cons_append] at room ⊢
  have short : (value.print write ++ (commaTail rest ++ more)).length ≤ fuel := by
    simp only [List.length_append, List.length_cons] at room ⊢
    omega
  refine (first.consumes_loosest printable.1 room rfl).bind fun found same => ?_
  refine (consumes_expectWith _ rfl).bind fun _ _ => ?_
  refine (second.consumes_loosest printable.2 short (pull_eq_zero rfl ahead)).bind
    fun found' same' => ?_
  exact (consumes_separator _ _ stop (by simp)).bind fun _ _ => .pure (Prod.ext same same')

theorem spells_map {mark : Mark} {entries : List (Expr × Expr)}
    (printable : ∀ entry ∈ entries, entry.1.Printable write ∧ entry.2.Printable write)
    (spells : ∀ entry ∈ entries, Spells write entry.1 ∧ Spells write entry.2) :
    Spells write (.map mark entries) := by
  intro fuel outer more room _ _
  rw [Expr.print, Expr.printEntries_eq, between_append] at room ⊢
  refine .of_operand (consumes_kind (consumes_take.bind fun _ _ => ?_))
  refine (consumes_listed (fun entry : Expr × Expr => (entry.1.bare, entry.2.bare)) _ rfl ?_
    ?_).bind fun found same => ?_
  · intro entry mem
    obtain ⟨word, rest, first, opens⟩ := entry.1.startsExpr_print write (printable entry mem).1
    refine ⟨word, _, by rw [first]; rfl, fun is => ?_⟩
    rw [is] at opens
    simp [TokenKind.startsExpr] at opens
  · intro done before entry rest split _ bound ahead
    have mem : entry ∈ entries := by simp [split]
    refine consumes_mapEntry (printable entry mem) (spells entry mem).1 (spells entry mem).2 ?_ rfl
      ahead
    simp only [List.length_append, List.length_cons] at room bound ⊢
    omega
  refine (consumes_expect rfl).bind fun _ _ => (consumes_markFrom _).bind fun mark' _ => .pure ?_
  simp only [Expr.bare, Expr.remark, Expr.remarkEntries_eq, same]

mutual

/-- The words of every expression open it. -/
theorem spells : ∀ e : Expr, e.Printable write → Spells write e
  | .number _ n, _ =>
    spells_literal (fun mark => .number mark n) rfl (literal?_number n) fun _ => rfl
  | .real _ x, h => spells_literal (fun mark => .real mark x) rfl
      (fun mark => congrArg (Option.map (Expr.real mark)) h) fun _ => rfl
  | .logic _ true, _ =>
    spells_literal (fun mark => .logic mark true) rfl (fun _ => rfl) fun _ => rfl
  | .logic _ false, _ =>
    spells_literal (fun mark => .logic mark false) rfl (fun _ => rfl) fun _ => rfl
  | .string _ s, _ => spells_literal (fun mark => .string mark s) rfl (fun _ => rfl) fun _ => rfl
  | .material .., h => spells_material h
  | .member mark name, _ => spells_member mark name
  | .symbol s, _ => spells_symbol s
  | .binary _ left _ right, h => spells_binary h (spells left h.2.1) (spells right h.2.2)
  | .unary _ _ e, h => spells_unary h (spells e h.2)
  | .index _ collection place, h => spells_index h (spells collection h.1) (spells place h.2)
  | .call _ _ arguments, h =>
    spells_call ((Expr.allPrintable_iff write).1 h) (spells_all arguments h)
  | .list _ elements, h =>
    spells_list ((Expr.allPrintable_iff write).1 h) (spells_all elements h)
  | .map _ entries, h =>
    spells_map ((Expr.entriesPrintable_iff write).1 h) (spells_entries entries h)

theorem spells_all : ∀ es : List Expr, Expr.AllPrintable write es → ∀ e ∈ es, Spells write e
  | [], _ => by simp
  | e :: rest, h => List.forall_mem_cons.2 ⟨spells e h.1, spells_all rest h.2⟩

theorem spells_entries : ∀ entries : List (Expr × Expr), Expr.EntriesPrintable write entries →
    ∀ entry ∈ entries, Spells write entry.1 ∧ Spells write entry.2
  | [], _ => by simp
  | (key, value) :: rest, h =>
    List.forall_mem_cons.2 ⟨⟨spells key h.1, spells value h.2.1⟩, spells_entries rest h.2.2⟩

end

end forms

end Grammar

end CursorScript
