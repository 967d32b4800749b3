import CursorScript.Proofs.FaultPlaces
import CursorScript.Proofs.SourceLines
import CursorScript.Report

/-!
Where rendered errors point. An error is never placed among the leading spaces of a line, so these
can be left out and the caret still has a character to stand under. The line that is shown is the one
that the place names; only behind the last newline of a script there is no line to show, and the one
before it is shown.
-/
namespace CursorScript
open Position (behind)

inductive Reported (source file : String) (e : Error) : Prop
  | cutting (failed : Token.tokenize source file = .error e)
  | reading {tokens : List Token} (cut : Token.tokenize source file = .ok tokens)
      (failed : Program.ofTokens tokens file = .error e)
  | analysing {tokens : List Token} {p : Program} {library : Library}
      (cut : Token.tokenize source file = .ok tokens) (read : Program.ofTokens tokens file = .ok p)
      (failed : p.analyse library = .error e)

theorem reported_of_check {source file : String} {library : Library} {e : Error}
    (failed : (Program.ofSource source file >>= fun p => p.analyse library) = .error e) :
    Reported source file e := by
  unfold Program.ofSource at failed
  cases cut : Token.tokenize source file with
  | error e' =>
    rw [cut] at failed
    cases failed
    exact .cutting cut
  | ok tokens =>
    rw [cut] at failed
    change (Program.ofTokens tokens file >>= fun p => p.analyse library) = .error e at failed
    cases read : Program.ofTokens tokens file with
    | error e' =>
      rw [read] at failed
      cases failed
      exact .reading cut read
    | ok p =>
      rw [read] at failed
      exact @Reported.analysing _ _ _ _ _ library cut read failed

/-- The chart of the places that are not before a leading space of a line. -/
def Chart.outdented (script : List Char) (file : String) : Chart where
  Good p := ∃ before rest, before ++ rest = script ∧ p = behind file before ∧
    ((∃ c ∈ before.getLast?, Text.isBlank c = false) ∨ ∀ c ∈ rest.head?, c ≠ ' ')
  Sits p text := ∃ before rest, before ++ text ++ rest = script ∧ p = behind file before ∧
    ∀ c ∈ rest.head?, c ≠ ' '
  ending := by
    rintro p ⟨before, rest, whole, place, outside⟩
    exact ⟨before, rest, by simpa using whole, place, .inr outside⟩
  starting := by
    rintro p c text ⟨before, rest, whole, place, _⟩ dark
    refine ⟨before, c :: text ++ rest, by simpa using whole, place, .inr ?_⟩
    rintro _ ⟨⟩ rfl
    exact absurd dark (by decide)
  stopping := by
    rintro p c text more ⟨before, rest, whole, rfl, _⟩ dark
    refine ⟨before ++ (text ++ [c]), more ++ rest, by simpa using whole, ?_, .inl ⟨c, ?_, dark⟩⟩
    · rw [Position.behind_append]
    · simp
  right := by
    rintro p text more ⟨before, rest, whole, rfl, outside⟩
    refine ⟨before ++ text, rest, by simpa using whole, ?_, outside⟩
    rw [Position.behind_append]
  left := by
    rintro p c text more ⟨before, rest, whole, place, _⟩ dark
    refine ⟨before, c :: more ++ rest, by simpa using whole, place, ?_⟩
    rintro _ ⟨⟩ rfl
    exact absurd dark (by decide)

/-- No error is placed before a leading space. -/
theorem Reported.outdented {source file : String} {e : Error} (h : Reported source file e) :
    (Chart.outdented source.toList file).Good e.position := by
  have stands : (Chart.outdented source.toList file).Sits (.start file) source.toList :=
    ⟨[], [], by simp, rfl, by simp⟩
  obtain ⟨faults, placed⟩ := Token.placed_of_scan (Position.start file) source.toList stands
  have trees : ∀ tokens, Token.tokenize source file = .ok tokens →
      (∀ e, Program.ofTokens tokens file = .error e →
        (Chart.outdented source.toList file).Good e.position) ∧
      ∀ p, Program.ofTokens tokens file = .ok p →
        (Node.block p).Placed (.outdented source.toList file) := by
    intro tokens cut
    refine Program.landed_ofTokens (placed tokens cut) fun empty => ?_
    exact absurd empty (Token.ne_nil_of_scan cut)
  cases h with
  | cutting failed => exact faults e failed
  | reading cut failed => exact (trees _ cut).1 e failed
  | analysing cut read failed =>
    exact (trees _ cut).2 _ read _ ((Program.written_of_analyse read _).1 e failed).2

namespace Report

def indent (line : List Char) : Nat := (line.takeWhile (· = ' ')).length

/-- An error with a line: a heading and the place of the error, the line behind its number, without
the spaces at its start and the blanks at its end, and dashes that lead to a caret. -/
def layout (e : Error) (number : Nat) (line : List Char) (spaces dashes : Nat) : String :=
  heading e ++ "\n-> " ++ e.position.describe ++ "\n" ++
    String.ofList (List.replicate spaces ' ') ++ "|\n" ++
    toString number ++ " | " ++ String.ofList (Text.trimEnd (line.drop (indent line))) ++ "\n" ++
    String.ofList (List.replicate spaces ' ') ++ "| " ++
    String.ofList (List.replicate dashes '-') ++ "^\n"

/-- `text` shows an error with a line and its number. The line and the dashes have the same number of
characters in front of them, and with the spaces that are left out the caret stands under the given
column of the line. -/
def Points (text : String) (e : Error) (number : Nat) (line : List Char) (column : Nat) : Prop :=
  ∃ spaces dashes : Nat, text = layout e number line spaces dashes ∧
    spaces + "| ".length = (toString number ++ " | ").length ∧ indent line + dashes + 1 = column

theorem Points.text_eq {text : String} {e : Error} {number : Nat} {line : List Char} {column : Nat}
    (h : Points text e number line column) : text = layout e number line
      ((toString number ++ " | ").length - "| ".length) (column - 1 - indent line) := by
  obtain ⟨spaces, dashes, same, aligned, rfl⟩ := h
  rw [← aligned, Nat.add_sub_cancel, Nat.add_sub_cancel, Nat.add_sub_cancel_left]
  exact same

theorem points_of_lineAt {e : Error} {script line : List Char} {number offset : Nat}
    (found : Source.lineAt script e.position.offset = ⟨number, line, offset⟩)
    (outside : indent line ≤ offset) : Points (render e script) e number line (offset + 1) := by
  refine ⟨(toString number).length + 1, offset - indent line, ?_, ?_, by omega⟩
  · unfold render layout
    rw [found]
    simp [padLeft, indent, String.append_assoc]
  · rw [String.length_append, Nat.add_assoc]
    rfl

/-- Leading spaces end where another character follows. -/
theorem indent_append_le {front rest : List Char} (stops : ∀ c ∈ rest.head?, c ≠ ' ') :
    indent (front ++ rest) ≤ front.length := by
  unfold indent
  induction front with
  | nil =>
    cases rest with
    | nil => simp
    | cons c rest =>
      have other := stops c rfl
      simp [other]
  | cons d front ih =>
    rw [List.cons_append, List.takeWhile_cons]
    split
    · simpa using ih
    · simp

end Report

namespace Source

/-- The place behind the last newline of a script that ends with it. -/
def AtFinalNewline (script : List Char) (p : Position) : Prop :=
  script.getLast? = some '\n' ∧ p.offset = Text.byteLength script

/-- All characters of a text take one byte. -/
def SingleByte (text : List Char) : Prop := ∀ c ∈ text, c.utf8Size = 1

instance (text : List Char) : Decidable (SingleByte text) :=
  List.decidableBAll (fun c : Char => c.utf8Size = 1) text

theorem SingleByte.byteLength_eq {text : List Char} (h : SingleByte text) :
    Text.byteLength text = text.length := by
  induction text with
  | nil => rfl
  | cons c text ih =>
    obtain ⟨first, others⟩ := List.forall_mem_cons.1 h
    rw [Text.byteLength_cons, first, ih others, List.length_cons, Nat.add_comm]

theorem length_le_byteLength (text : List Char) : text.length ≤ Text.byteLength text := by
  induction text with
  | nil => simp
  | cons c text ih =>
    have one := c.utf8Size_pos
    rw [Text.byteLength_cons, List.length_cons]
    omega

theorem eq_nil_of_byteLength_append {front rest : List Char}
    (h : Text.byteLength front = Text.byteLength (front ++ rest)) : rest = [] := by
  have more := length_le_byteLength rest
  rw [Text.byteLength_append] at h
  exact List.length_eq_zero_iff.1 (by omega)

theorem indent_opened_le {before tail rest : List Char} (starts : tail <+: rest)
    (clear : (∃ c ∈ before.getLast?, Text.isBlank c = false) ∨ ∀ c ∈ rest.head?, c ≠ ' ') :
    Report.indent (opened before ++ tail) ≤ (opened before).length := by
  rcases clear with ⟨c, last, dark⟩ | outside
  · obtain ⟨init, rfl⟩ := List.getLast?_eq_some_iff.1 (Option.mem_def.1 last)
    have newline : c ≠ '\n' := by
      rintro rfl
      exact absurd dark (by decide)
    have ends : opened (init ++ [c]) = opened init ++ [c] := by simp [opened, newline]
    have short : Report.indent (opened init ++ c :: tail) ≤ (opened init).length := by
      refine Report.indent_append_le ?_
      rintro _ ⟨⟩ rfl
      exact absurd dark (by decide)
    rw [ends, List.length_append, List.append_assoc, List.singleton_append]
    omega
  · refine Report.indent_append_le fun c first => ?_
    obtain ⟨more, rfl⟩ := starts
    refine outside c ?_
    simp [List.head?_append, Option.mem_def.1 first]

end Source

open Report Source in
/-- What is rendered for an error has the number of the line that its place names and shows this
line, and if the characters before the error take one byte each, the caret stands under the column of
the place, which is one past the line for an error at the end of the script. Behind the last newline
of the script there is no line to show: the last one is shown, and the caret stands past its end. -/
theorem rendered_errors_point {source file : String} {e : Error} (h : Reported source file e) :
    (¬ AtFinalNewline source.toList e.position → ∃ column,
      Points (render e source.toList) e e.position.line
        (Source.line source.toList e.position.line) column ∧
      (SingleByte ((Source.line source.toList e.position.line).take (e.position.column - 1)) →
        column = e.position.column) ∧
      (e.position.offset = Text.byteLength source.toList →
        e.position.column = (Source.line source.toList e.position.line).length + 1)) ∧
    (AtFinalNewline source.toList e.position → ∃ number column,
      e.position.line = number + 1 ∧
      Points (render e source.toList) e number (Source.line source.toList number) column ∧
      (SingleByte (Source.line source.toList number) →
        column = (Source.line source.toList number).length + 1)) := by
  obtain ⟨before, rest, whole, place, clear⟩ := h.outdented
  have offset : e.position.offset = Text.byteLength before := by rw [place]; rfl
  have number : e.position.line = before.count '\n' + 1 := by rw [place]; simp [behind, Nat.add_comm]
  have column : e.position.column = (opened before).length + 1 := by rw [place, column_behind]
  rw [← whole]
  refine ⟨fun inside => ?_, fun behindLast => ?_⟩
  · have atLine : rest = [] → before.getLast? ≠ some '\n' := by
      rintro rfl newline
      exact inside ⟨by simpa using newline, by simpa using offset⟩
    obtain ⟨tail, starts, more, named, found⟩ := lineAt_behind atLine
    rw [← offset] at found
    rw [number, column, named]
    have short := indent_opened_le starts clear
    have bytes := length_le_byteLength (opened before)
    refine ⟨_, points_of_lineAt found (by omega), fun single => ?_, fun last => ?_⟩
    · rw [Nat.add_sub_cancel, List.take_left] at single
      rw [single.byteLength_eq]
    · obtain rfl := eq_nil_of_byteLength_append (offset.symm.trans last)
      obtain rfl := List.prefix_nil.1 starts
      rw [List.append_nil]
  · obtain ⟨final, past⟩ := behindLast
    obtain rfl := eq_nil_of_byteLength_append (offset.symm.trans past)
    rw [List.append_nil] at *
    obtain ⟨init, rfl⟩ := List.getLast?_eq_some_iff.1 final
    obtain ⟨last, found, named⟩ := lineAt_newline init
    rw [← offset] at found
    have short : indent last ≤ last.length := (List.takeWhile_sublist _).length_le
    have bytes := length_le_byteLength last
    refine ⟨init.count '\n' + 1, Text.byteLength last + 1, ?_, ?_, ?_⟩
    · simp [number, List.count_append]
    · rw [named]
      exact points_of_lineAt found (by omega)
    · intro single
      rw [named] at single ⊢
      rw [single.byteLength_eq]

def indentedSource : String := "\x7b\n    print 1 + true;\n\x7d\n"

theorem rendered_errors_point_indented : ∃ e, Reported indentedSource "" e ∧
    e.position = ⟨14, 2, 13, ""⟩ ∧
    Report.Points (Report.render e indentedSource.toList) e 2 "    print 1 + true;\n".toList 13 := by
  have fails : (match Program.ofSource indentedSource "" >>= fun p =>
        p.analyse (.standard .builtIn) with
      | .ok _ => none
      | .error e => some e.position) = some ⟨14, 2, 13, ""⟩ := by decide +kernel
  cases failed : Program.ofSource indentedSource "" >>= fun p =>
      p.analyse (.standard .builtIn) with
  | ok tables =>
    rw [failed] at fails
    cases fails
  | error e =>
    rw [failed] at fails
    have place : e.position = ⟨14, 2, 13, ""⟩ := Option.some.inj fails
    have reported := reported_of_check failed
    have inside : ¬ Source.AtFinalNewline indentedSource.toList e.position := by
      rw [place]
      rintro ⟨_, past⟩
      exact absurd past (by decide)
    obtain ⟨column, points, under, _⟩ := (rendered_errors_point reported).1 inside
    rw [place] at points under
    have named : Source.line indentedSource.toList 2 = "    print 1 + true;\n".toList := by
      decide +kernel
    rw [named] at points under
    rw [under (by decide)] at points
    exact ⟨e, reported, place, points⟩

/-- A script that ends too early, behind a newline. -/
def unfinishedSource : String := "var x\n"

/-- A script with a character of two bytes in front of an error. -/
def accentedSource : String := "\"é\" @"

/-- Behind the last newline another line is shown, and bytes are counted where columns are meant. -/
theorem rendered_error_misses : (∃ e, Reported unfinishedSource "" e ∧
      ¬ Report.Points (Report.render e unfinishedSource.toList) e e.position.line
        (Source.line unfinishedSource.toList e.position.line) e.position.column) ∧
    ∃ e, Reported accentedSource "" e ∧
      ¬ Report.Points (Report.render e accentedSource.toList) e e.position.line
        (Source.line accentedSource.toList e.position.line) e.position.column := by
  have misses : ∀ source ∈ [unfinishedSource, accentedSource],
      (match Program.ofSource source "" >>= fun p => p.analyse (.standard .builtIn) with
      | .ok _ => false
      | .error e => Report.render e source.toList != Report.layout e e.position.line
          (Source.line source.toList e.position.line)
          ((toString e.position.line ++ " | ").length - "| ".length)
          (e.position.column - 1 -
            Report.indent (Source.line source.toList e.position.line))) = true := by
    decide +kernel
  have missed : ∀ source ∈ [unfinishedSource, accentedSource], ∃ e, Reported source "" e ∧
      ¬ Report.Points (Report.render e source.toList) e e.position.line
        (Source.line source.toList e.position.line) e.position.column := by
    intro source mem
    have differs := misses source mem
    cases failed : Program.ofSource source "" >>= fun p => p.analyse (.standard .builtIn) with
    | ok tables => simp [failed] at differs
    | error e =>
      rw [failed] at differs
      exact ⟨e, reported_of_check failed, fun points => (bne_iff_ne.1 differs) points.text_eq⟩
  exact ⟨missed _ (by simp), missed _ (by simp)⟩

end CursorScript
