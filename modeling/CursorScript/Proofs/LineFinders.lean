import CursorScript.LineIndex
import CursorScript.Proofs.Charts
import CursorScript.Proofs.SourceLines
import Mathlib.Data.List.Induction

/-!
Two ways from a byte of a script to its line: by halving among the starts of the lines, and by going
over the lines one after the other. Where a character ends both come to the same line and the same
place in it, once in characters and once in bytes, unless it is the newline that ends the script.
-/
namespace CursorScript
open Position (behind Within)
open Source (opened closed)

namespace Position

/-- The place after a text; if there is a newline in the text, the column counts from the last one. -/
theorem after_eq (p : Position) (text : List Char) :
    p.after text = ⟨p.offset + Text.byteLength text, p.line + text.count '\n',
      if text.count '\n' = 0 then p.column + text.length else (opened text).length + 1, p.file⟩ := by
  induction text using List.reverseRecOn with
  | nil => simp
  | append_singleton init c ih =>
    by_cases newline : c = '\n'
    · simp [after_append, ih, advance, newline, opened, Nat.add_assoc]
    · by_cases first : init.count '\n' = 0 <;>
        simp [after_append, ih, advance, newline, first, opened, Nat.add_assoc]

theorem behind_eq_after (file : String) (before : List Char) :
    behind file before = (start file).after before := behind_append file [] before

end Position

namespace LineIndex

theorem lineStarts_append (before rest : List Char) :
    lineStarts (before ++ rest) =
      lineStarts before ++ newlineEnds (Text.byteLength before) rest := by
  simp [lineStarts, newlineEnds_append]

theorem length_lineStarts (text : List Char) :
    (lineStarts text).length = text.count '\n' + 1 := by
  simp [lineStarts, length_newlineEnds]

/-- The last line starts behind the last newline. -/
theorem getLast?_lineStarts (text : List Char) :
    (lineStarts text).getLast? = some (Text.byteLength (closed text)) := by
  have none_opened : newlineEnds (Text.byteLength (closed text)) (opened text) = [] := by
    have plain := List.count_eq_zero.2 (Source.newline_not_mem_opened text)
    rw [← List.length_eq_zero_iff, length_newlineEnds, plain]
  have same : lineStarts text = lineStarts (closed text) := by
    have parts := lineStarts_append (closed text) (opened text)
    rwa [Source.closed_append_opened, none_opened, List.append_nil] at parts
  rw [same]
  rcases Source.closed_cases text with none | ⟨init, ends⟩
  · simp [none, lineStarts, newlineEnds]
  · simp [ends, lineStarts_append, newlineEnds]

/-- The line of a place starts behind the last newline in front of the place. -/
theorem getElem?_lineStarts (before rest : List Char) :
    (lineStarts (before ++ rest))[before.count '\n']? = some (Text.byteLength (closed before)) := by
  have last := getLast?_lineStarts before
  rw [List.getLast?_eq_getElem?, length_lineStarts, Nat.add_sub_cancel] at last
  rw [lineStarts_append, List.getElem?_append_left, last]
  rw [length_lineStarts]
  omega

theorem sliceBytes?_opened (before rest : List Char) :
    Text.sliceBytes? (before ++ rest) (Text.byteLength (closed before)) (Text.byteLength before) =
      some (opened before) := by
  have sliced := Text.sliceBytes?_append (closed before) (opened before) rest
  rwa [← List.append_assoc, Source.closed_append_opened] at sliced

/-- The lines that start up to a place are those of what stands before it. -/
theorem partitionPoint_lineStarts (before rest : List Char) :
    partitionPoint (fun start => decide (start ≤ Text.byteLength before))
      (lineStarts (before ++ rest)).toArray = before.count '\n' + 1 := by
  rw [lineStarts_append, partitionPoint_append, length_lineStarts]
  · intro start mem
    rcases List.mem_cons.1 mem with rfl | later
    · simp
    · have bounds := bounds_of_mem_newlineEnds later
      exact decide_eq_true (by omega)
  · intro start mem
    have bounds := bounds_of_mem_newlineEnds mem
    exact decide_eq_false (by omega)

variable {index : LineIndex} {before rest : List Char} {offset : Nat} {p : Position}

/-- Behind some characters of the text the index gives the place after them. -/
theorem place?_append (whole : before ++ rest = index.text) :
    index.place? (Text.byteLength before) = some (index.origin.after before) := by
  obtain ⟨text, file, base, starts, rfl, base_file⟩ := index
  obtain rfl : before ++ rest = text := whole
  have first (none : before.count '\n' = 0) : opened before = before :=
    Source.opened_eq_self (List.count_eq_zero.1 none)
  simp only [place?, partitionPoint_lineStarts, Nat.add_sub_cancel, List.getElem?_toArray,
    getElem?_lineStarts, Option.bind_eq_bind, Option.bind_some, sliceBytes?_opened, origin,
    Position.after_eq]
  -- Only on the first line the column depends on where the text starts.
  cases base with
  | none =>
    by_cases none : before.count '\n' = 0
    · simp [none, first none, Position.start, Nat.add_comm]
    · simp [none, Position.start, Nat.add_comm]
  | some base =>
    by_cases none : before.count '\n' = 0
    · simp [none, first none, base_file base rfl, ← Nat.add_assoc]
    · simp [none, base_file base rfl]

/-- The index gives a place just where a character ends. -/
theorem place?_eq_some_iff : index.place? offset = some p ↔
    ∃ before, before <+: index.text ∧ Text.byteLength before = offset ∧
      p = index.origin.after before := by
  constructor
  · intro found
    obtain ⟨start, -, found'⟩ := Option.bind_eq_some_iff.1 found
    obtain ⟨inner, sliced, -⟩ := Option.bind_eq_some_iff.1 found'
    obtain ⟨front, rest, whole, bytes⟩ := Text.exists_of_sliceBytes? sliced
    rw [← List.append_assoc] at whole
    have placed := place?_append whole
    rw [bytes] at placed
    exact ⟨front ++ inner, ⟨rest, whole⟩, bytes, Option.some.inj (found.symm.trans placed)⟩
  · rintro ⟨before, ⟨rest, whole⟩, rfl, rfl⟩
    exact place?_append whole

/-- The index of a script gives the places of the script. -/
theorem place?_of_within {script : List Char} {file : String} (h : Within script file p) :
    (ofScript script file).place? p.offset = some p := by
  obtain ⟨before, stands, rfl⟩ := h
  exact place?_eq_some_iff.2 ⟨before, stands, rfl, Position.behind_eq_after file before⟩

/-- The index of a part of a script gives the places that the index of the script gives. -/
theorem place?_ofPart {script front part back : List Char} (file : String)
    (whole : front ++ part ++ back = script) (inPart : before <+: part) :
    (ofPart part (behind file front)).place? (Text.byteLength before) =
      (ofScript script file).place? (Text.byteLength front + Text.byteLength before) := by
  have stands : front ++ before <+: script := by
    obtain ⟨rest, rfl⟩ := inPart
    exact ⟨rest ++ back, by simp [← whole]⟩
  have inScript := place?_of_within ⟨front ++ before, stands, (Position.behind_append file _ _).symm⟩
  rw [Position.after_offset] at inScript
  exact (place?_eq_some_iff.2 ⟨before, inPart, rfl, rfl⟩).trans inScript.symm

/-- The places of tokens are those that the index of the script gives, and so is the place of what is
no token. -/
theorem place?_of_tokenize (source file : String) :
    (∀ e, Token.tokenize source file = .error e →
      (ofScript source.toList file).place? e.position.offset = some e.position) ∧
    ∀ tokens, Token.tokenize source file = .ok tokens → ∀ token ∈ tokens,
      (ofScript source.toList file).place? token.span.start.offset = some token.span.start ∧
      (ofScript source.toList file).place? token.span.stop.offset = some token.span.stop := by
  have scanned := Token.placed_scan (Position.start file) source.toList
    (Position.sits_start source.toList file)
  refine ⟨fun e failed => place?_of_within (scanned.1 e failed), fun tokens cut token mem => ?_⟩
  have placed := scanned.2 tokens cut token mem
  exact ⟨place?_of_within placed.start, place?_of_within placed.stop⟩

end LineIndex

namespace Source
variable {script here rest first : List Char} {others : List (List Char)} {offset : Nat}

/-- A character ends at the byte `offset`, or the script starts there. -/
def IsBoundary (script : List Char) (offset : Nat) : Prop :=
  ∃ before, before <+: script ∧ Text.byteLength before = offset

/-- The line of a script that has a number and starts at a byte. The newlines in front of it are one
fewer than its number, and it goes on to its own newline or to the end of the script. -/
def IsLine (script : List Char) (number start : Nat) (here : List Char) : Prop :=
  ∃ above below, above ++ here ++ below = script ∧ Text.byteLength above = start ∧
    above.count '\n' + 1 = number ∧ (above = [] ∨ above.getLast? = some '\n') ∧
    ((∃ body, '\n' ∉ body ∧ here = body ++ ['\n']) ∨ '\n' ∉ here ∧ below = [])

/-- The first line ends with the first newline, or there is none. -/
theorem lines_first (cut : lines rest = first :: others) :
    (∃ body, '\n' ∉ body ∧ first = body ++ ['\n']) ∨ '\n' ∉ first ∧ others = [] := by
  induction rest generalizing first others with
  | nil => simp [lines] at cut
  | cons c rest ih =>
    by_cases newline : c = '\n'
    · simp only [lines, newline, if_true, List.cons.injEq] at cut
      exact .inl ⟨[], by simp, by simp [← cut.1]⟩
    · cases more : lines rest with
      | nil =>
        simp only [lines, newline, if_false, more, List.cons.injEq] at cut
        obtain ⟨rfl, rfl⟩ := cut
        exact .inr ⟨by simp [Ne.symm newline], rfl⟩
      | cons second further =>
        simp only [lines, newline, if_false, more, List.cons.injEq] at cut
        obtain ⟨rfl, rfl⟩ := cut
        rcases ih more with ⟨body, plain, rfl⟩ | ⟨plain, rfl⟩
        · exact .inl ⟨c :: body, by simp [plain, Ne.symm newline], rfl⟩
        · exact .inr ⟨by simp [plain, Ne.symm newline], rfl⟩

/-- What stands on a line before a place and the first line of what follows are the whole line. -/
theorem isLine_append (before rest : List Char) :
    IsLine (before ++ rest) (before.count '\n' + 1) (Text.byteLength (closed before))
      (opened before ++ (lines rest).headD []) := by
  have plain := newline_not_mem_opened before
  have above : closed before = [] ∨ (closed before).getLast? = some '\n' := by
    rcases closed_cases before with none | ⟨init, ends⟩
    · exact .inl none
    · exact .inr (by simp [ends])
  have parts : (lines rest).headD [] ++ (lines rest).tail.flatten = rest := by
    conv => rhs; rw [← flatten_lines rest]
    cases lines rest <;> rfl
  refine ⟨closed before, (lines rest).tail.flatten, ?_, rfl, by rw [count_closed], above, ?_⟩
  · calc closed before ++ (opened before ++ (lines rest).headD []) ++ (lines rest).tail.flatten
      _ = closed before ++ opened before ++
          ((lines rest).headD [] ++ (lines rest).tail.flatten) := by simp only [List.append_assoc]
      _ = before ++ rest := by rw [closed_append_opened, parts]
  · cases cut : lines rest with
    | nil => exact .inr ⟨by simpa using plain, rfl⟩
    | cons first others =>
      rcases lines_first cut with ⟨body, free, rfl⟩ | ⟨free, rfl⟩
      · exact .inl ⟨opened before ++ body, by simp [plain, free], by simp⟩
      · exact .inr ⟨by simp [plain, free], rfl⟩

/-- What is found for a place of a script: the number of the line that the place names, the whole line
with its newline, and the byte in it that is behind all characters in front of the column. -/
structure LinePlace.Answers (found : LinePlace) (script : List Char) (p : Position) : Prop where
  number : found.number = p.line
  line : ∃ start, IsLine script p.line start found.text ∧ start + found.offset = p.offset
  column : ∃ front, front <+: found.text ∧ Text.byteLength front = found.offset ∧
    front.length + 1 = p.column

/-- Going over the lines answers the place behind some characters, if not a newline at the end. -/
theorem answers_lineAt {before rest : List Char} (file : String)
    (inside : rest = [] → before.getLast? ≠ some '\n') :
    (lineAt (before ++ rest) (Text.byteLength before)).Answers (before ++ rest)
      (behind file before) := by
  have named : before.count '\n' + 1 = (behind file before).line := Nat.add_comm _ _
  have column := (column_behind file before).symm
  have parts := congrArg Text.byteLength (closed_append_opened before)
  rw [Text.byteLength_append] at parts
  rw [(lineAt_append inside).2]
  exact ⟨named, ⟨_, named ▸ isLine_append before rest, parts⟩,
    ⟨opened before, List.prefix_append _ _, rfl, column⟩⟩

end Source

open Source LineIndex

/-- The two ways to a line agree where a character ends, if not a newline that ends the script: the
index gives a place, and so does the index of each part of the script that holds it, and going over
the lines answers this place. -/
theorem line_finders_agree (source file : String) {offset : Nat}
    (boundary : IsBoundary source.toList offset)
    (inside : offset = Text.byteLength source.toList → source.toList.getLast? ≠ some '\n') :
    ∃ p, (ofScript source.toList file).place? offset = some p ∧
      p.offset = offset ∧ Within source.toList file p ∧
      (lineAt source.toList p.offset).Answers source.toList p ∧
      ∀ front part back, front ++ part ++ back = source.toList → ∀ inner, inner <+: part →
        Text.byteLength front + Text.byteLength inner = offset →
        (ofPart part (behind file front)).place? (Text.byteLength inner) = some p := by
  obtain ⟨before, ⟨rest, whole⟩, rfl⟩ := boundary
  have atLine : rest = [] → before.getLast? ≠ some '\n' := by
    rintro rfl
    rw [List.append_nil] at whole
    rw [← whole] at inside
    exact inside rfl
  have within : Within source.toList file (behind file before) := ⟨before, ⟨rest, whole⟩, rfl⟩
  have placed := place?_of_within within
  have answered := answers_lineAt file atLine
  rw [whole] at answered
  refine ⟨behind file before, placed, rfl, within, answered, ?_⟩
  intro front part back parts inner inPart same
  rw [place?_ofPart file parts inPart, same]
  exact placed

/-- A script that ends within a line, with characters of two bytes. -/
def unendedSource : String := "ä\n\n öß"

theorem line_finders_agree_unended : IsBoundary unendedSource.toList 9 ∧
    (9 = Text.byteLength unendedSource.toList → unendedSource.toList.getLast? ≠ some '\n') ∧
    (ofScript unendedSource.toList "").place? 9 = some ⟨9, 3, 4, ""⟩ ∧
    lineAt unendedSource.toList 9 = ⟨3, " öß".toList, 5⟩ ∧
    (lineAt unendedSource.toList 9).Answers unendedSource.toList ⟨9, 3, 4, ""⟩ := by
  have boundary : IsBoundary unendedSource.toList 9 :=
    ⟨unendedSource.toList, List.prefix_refl _, by decide⟩
  have inside : 9 = Text.byteLength unendedSource.toList →
      unendedSource.toList.getLast? ≠ some '\n' := fun _ => by decide
  have place : (ofScript unendedSource.toList "").place? 9 = some ⟨9, 3, 4, ""⟩ := by
    decide +kernel
  obtain ⟨p, placed, offset, _, answered, _⟩ := line_finders_agree unendedSource "" boundary inside
  obtain rfl : ⟨9, 3, 4, ""⟩ = p := Option.some.inj (place.symm.trans placed)
  exact ⟨boundary, inside, place, by decide, answered⟩

/-- Behind a newline that ends the script the two ways part: there the index is on a line of its own,
and going over the lines stays on the last one. -/
theorem line_finders_part (init : List Char) (file : String) :
    ∃ p, (ofScript (init ++ ['\n']) file).place? (Text.byteLength (init ++ ['\n'])) = some p ∧
      (lineAt (init ++ ['\n']) p.offset).number + 1 = p.line := by
  obtain ⟨last, found, _⟩ := lineAt_newline init
  refine ⟨_, place?_of_within ⟨init ++ ['\n'], List.prefix_refl _, rfl⟩, ?_⟩
  have offset : (behind file (init ++ ['\n'])).offset = Text.byteLength (init ++ ['\n']) := rfl
  rw [offset, found]
  simp [behind, Nat.add_comm]

end CursorScript
