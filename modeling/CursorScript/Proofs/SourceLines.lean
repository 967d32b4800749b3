import CursorScript.Proofs.Lexemes
import CursorScript.Source

/-!
Lines of a script and places in it. What stands before a place is some whole lines and the start of
one more: the number of the whole lines is the line of the place, and the characters of the start
its column. A line is looked up by the bytes before it, and found where the place says, unless the
place is behind the last newline of the script and nothing follows: then it is the last line.
-/
namespace CursorScript
open Position (behind)

namespace Source
variable {front part rest here : List Char}

def line (script : List Char) (number : Nat) : List Char := (lines script).getD (number - 1) []

/-- What stands behind the last newline. -/
def opened (before : List Char) : List Char := (before.reverse.takeWhile (· ≠ '\n')).reverse

def closed (before : List Char) : List Char := (before.reverse.dropWhile (· ≠ '\n')).reverse

theorem closed_append_opened (before : List Char) : closed before ++ opened before = before := by
  rw [closed, opened, ← List.reverse_append, List.takeWhile_append_dropWhile, List.reverse_reverse]

theorem newline_not_mem_opened (before : List Char) : '\n' ∉ opened before := by
  intro mem
  have others : (before.reverse.takeWhile (· ≠ '\n')).all (· ≠ '\n') = true := List.all_takeWhile
  simpa using List.all_eq_true.1 others _ (List.mem_reverse.1 mem)

/-- Nothing stands before the last newline, or it ends with one. -/
theorem closed_cases (before : List Char) :
    closed before = [] ∨ ∃ init, closed before = init ++ ['\n'] := by
  unfold closed
  cases left : before.reverse.dropWhile (· ≠ '\n') with
  | nil => exact .inl rfl
  | cons c cs =>
    have stops := List.head?_dropWhile_not (· ≠ '\n') before.reverse
    rw [left] at stops
    obtain rfl : c = '\n' := by simpa using stops
    exact .inr ⟨cs.reverse, by simp⟩

theorem opened_eq_self {before : List Char} (plain : '\n' ∉ before) : opened before = before := by
  have whole := closed_append_opened before
  rcases closed_cases before with none | ⟨init, ends⟩
  · rwa [none, List.nil_append] at whole
  · have mem : '\n' ∈ closed before ++ opened before := by simp [ends]
    exact absurd (whole ▸ mem) plain

theorem lines_of_newline (rest : List Char) : lines ('\n' :: rest) = ['\n'] :: lines rest := by
  simp [lines]

theorem lines_ne_nil (nonempty : rest ≠ []) : lines rest ≠ [] := by
  intro none
  have whole := flatten_lines rest
  rw [none] at whole
  exact nonempty whole.symm

theorem ne_nil_of_mem_lines (mem : here ∈ lines rest) : here ≠ [] := by
  induction rest generalizing here with
  | nil => simp [lines] at mem
  | cons c rest ih =>
    rw [lines] at mem
    split at mem
    · rcases List.mem_cons.1 mem with rfl | later
      · simp
      · exact ih later
    · split at mem
      · obtain rfl := List.mem_singleton.1 mem
        simp
      · next first others more =>
        rcases List.mem_cons.1 mem with rfl | later
        · simp
        · exact ih (by simp [more, later])

/-- Characters that are no newlines go into the first line. -/
theorem lines_append_of_not_mem {first : List Char} {others : List (List Char)}
    (plain : '\n' ∉ part) (more : lines rest = first :: others) :
    lines (part ++ rest) = (part ++ first) :: others := by
  induction part with
  | nil => exact more
  | cons c part ih =>
    simp only [List.mem_cons, not_or] at plain
    have same := ih plain.2
    simp [lines, Ne.symm plain.1, same]

theorem lines_of_not_mem (plain : '\n' ∉ part) (nonempty : part ≠ []) : lines part = [part] := by
  induction part with
  | nil => exact absurd rfl nonempty
  | cons c part ih =>
    simp only [List.mem_cons, not_or] at plain
    cases part with
    | nil => simp [lines, Ne.symm plain.1]
    | cons d part =>
      have same := ih plain.2 (by simp)
      rw [lines, if_neg (Ne.symm plain.1), same]

theorem lines_append_newline (front rest : List Char) :
    lines (front ++ '\n' :: rest) = lines (front ++ ['\n']) ++ lines rest := by
  induction front with
  | nil => simp [lines]
  | cons c front ih =>
    by_cases newline : c = '\n'
    · simp [newline, lines_of_newline, ih]
    · cases left : lines (front ++ ['\n']) with
      | nil => exact absurd left (lines_ne_nil (by simp))
      | cons first others =>
        rw [left] at ih
        simp [lines, newline, ih, left]

theorem length_lines_newline (front : List Char) :
    (lines (front ++ ['\n'])).length = front.count '\n' + 1 := by
  induction front with
  | nil => simp [lines]
  | cons c front ih =>
    by_cases newline : c = '\n'
    · simp [newline, lines_of_newline, ih]
    · cases left : lines (front ++ ['\n']) with
      | nil => exact absurd left (lines_ne_nil (by simp))
      | cons first others =>
        rw [left] at ih
        simp [lines, newline, left, ← ih]

/-- The whole lines before a place are cut off first. -/
theorem lines_closed_append (before rest : List Char) :
    lines (closed before ++ rest) = lines (closed before) ++ lines rest := by
  rcases closed_cases before with none | ⟨init, ends⟩
  · simp [none, lines]
  · rw [ends, List.append_assoc, List.singleton_append, lines_append_newline]

/-- All newlines stand up to the last one. -/
theorem count_closed (before : List Char) : (closed before).count '\n' = before.count '\n' := by
  have plain := List.count_eq_zero.2 (newline_not_mem_opened before)
  have parts := congrArg (List.count '\n') (closed_append_opened before)
  rw [List.count_append] at parts
  omega

theorem length_lines_closed (before : List Char) :
    (lines (closed before)).length = before.count '\n' := by
  rw [← count_closed]
  rcases closed_cases before with none | ⟨init, ends⟩
  · simp [none, lines]
  · rw [ends, length_lines_newline, List.count_append]
    rfl

/-- An offset in a line is found there. -/
theorem findLine_append {offset number start k : Nat} {last : LinePlace}
    {front others : List (List Char)} (inside : k < Text.byteLength here)
    (place : offset = start + Text.byteLength front.flatten + k) :
    findLine offset number start last (front ++ here :: others) =
      ⟨number + front.length, here, k⟩ := by
  induction front generalizing number start last with
  | nil =>
    have here : start ≤ offset ∧ offset < start + Text.byteLength here := by
      simp only [List.flatten_nil, Text.byteLength_nil] at place
      omega
    have rest : offset - start = k := by
      simp only [List.flatten_nil, Text.byteLength_nil] at place
      omega
    simp [findLine, here, rest]
  | cons first front ih =>
    simp only [List.flatten_cons, Text.byteLength_append] at place
    have beyond : ¬(start ≤ offset ∧ offset < start + Text.byteLength first) := by omega
    have found := @ih (number + 1) (start + Text.byteLength first)
      ⟨number, first, Text.byteLength first⟩ (by omega)
    rw [List.cons_append, findLine, if_neg beyond, found, List.length_cons, Nat.add_right_comm,
      Nat.add_assoc]

/-- Past the end is the end of the last line. -/
theorem findLine_past {offset number start : Nat} {last : LinePlace} {front : List (List Char)}
    (past : start + Text.byteLength (front ++ [here]).flatten ≤ offset) :
    findLine offset number start last (front ++ [here]) =
      ⟨number + front.length, here, Text.byteLength here⟩ := by
  induction front generalizing number start last with
  | nil =>
    simp only [List.nil_append, List.flatten_cons, List.flatten_nil, List.append_nil] at past
    have beyond : ¬(start ≤ offset ∧ offset < start + Text.byteLength here) := by omega
    simp [findLine, beyond]
  | cons first front ih =>
    rw [List.cons_append, List.flatten_cons, Text.byteLength_append] at past
    have beyond : ¬(start ≤ offset ∧ offset < start + Text.byteLength first) := by omega
    have found := @ih (number + 1) (start + Text.byteLength first)
      ⟨number, first, Text.byteLength first⟩ (by omega)
    rw [List.cons_append, findLine, if_neg beyond, found, List.length_cons, Nat.add_right_comm,
      Nat.add_assoc]

theorem line_of_lines {script : List Char} {front others : List (List Char)}
    (cut : lines script = front ++ here :: others) : line script (front.length + 1) = here := by
  simp [line, cut]

theorem opened_eq_nil {before : List Char} :
    opened before = [] ↔ before = [] ∨ before.getLast? = some '\n' := by
  rcases List.eq_nil_or_concat before with rfl | ⟨init, c, rfl⟩
  · simp [opened]
  · by_cases newline : c = '\n' <;> simp [opened, newline]

theorem column_behind (file : String) (before : List Char) :
    (behind file before).column = (opened before).length + 1 := by
  simp [behind, opened, Nat.add_comm]

/-- The line that a place stands in goes on with the first line of what follows: it has the number of
the place, and is found by its offset. -/
theorem lineAt_append {before rest : List Char}
    (inside : rest = [] → before.getLast? ≠ some '\n') :
    line (before ++ rest) (before.count '\n' + 1) = opened before ++ (lines rest).headD [] ∧
      lineAt (before ++ rest) (Text.byteLength before) =
        ⟨before.count '\n' + 1, opened before ++ (lines rest).headD [],
          Text.byteLength (opened before)⟩ := by
  have plain := newline_not_mem_opened before
  have cut : lines (before ++ rest) = lines (closed before) ++ lines (opened before ++ rest) := by
    rw [← lines_closed_append, ← List.append_assoc, closed_append_opened]
  have bytes : Text.byteLength before =
      0 + Text.byteLength (lines (closed before)).flatten + Text.byteLength (opened before) := by
    rw [flatten_lines, Nat.zero_add, ← Text.byteLength_append, closed_append_opened]
  cases found : lines rest with
  | cons first others =>
    have nonempty : first ≠ [] := ne_nil_of_mem_lines (by rw [found]; exact List.mem_cons_self)
    have longer := Token.byteLength_pos nonempty
    rw [lines_append_of_not_mem plain found] at cut
    refine ⟨?_, ?_⟩
    · rw [← length_lines_closed]
      exact line_of_lines cut
    · have inLine : Text.byteLength (opened before) < Text.byteLength (opened before ++ first) := by
        rw [Text.byteLength_append]
        omega
      rw [lineAt, cut, findLine_append inLine bytes, length_lines_closed, Nat.add_comm]
      rfl
  | nil =>
    obtain rfl : rest = [] := by
      cases rest with
      | nil => rfl
      | cons c rest => exact absurd found (lines_ne_nil (by simp))
    cases start : opened before with
    | nil =>
      -- Nothing stands on the line, so it is the first.
      obtain rfl : before = [] := (opened_eq_nil.1 start).resolve_right (inside rfl)
      exact ⟨rfl, rfl⟩
    | cons c more =>
      rw [start] at cut plain
      simp only [List.append_nil, List.headD_nil] at cut ⊢
      rw [lines_of_not_mem plain (by simp)] at cut
      have total := congrArg Text.byteLength (flatten_lines before)
      refine ⟨?_, ?_⟩
      · rw [← length_lines_closed]
        exact line_of_lines cut
      · have past : 0 + Text.byteLength (lines (closed before) ++ [c :: more]).flatten ≤
            Text.byteLength before := by
          rw [← cut, total]
          omega
        rw [lineAt, cut, findLine_past past, length_lines_closed, Nat.add_comm]

/-- The line that a place stands in, up to the place and behind it. -/
theorem lineAt_behind {before rest : List Char}
    (inside : rest = [] → before.getLast? ≠ some '\n') : ∃ tail, tail <+: rest ∧
      (rest ≠ [] → tail ≠ []) ∧
      line (before ++ rest) (before.count '\n' + 1) = opened before ++ tail ∧
      lineAt (before ++ rest) (Text.byteLength before) =
        ⟨before.count '\n' + 1, opened before ++ tail, Text.byteLength (opened before)⟩ := by
  have starts : (lines rest).headD [] <+: rest ∧ (rest ≠ [] → (lines rest).headD [] ≠ []) := by
    cases found : lines rest with
    | nil => exact ⟨List.nil_prefix, fun more => absurd found (lines_ne_nil more)⟩
    | cons first others =>
      have whole := flatten_lines rest
      rw [found] at whole
      have nonempty : first ≠ [] := ne_nil_of_mem_lines (by rw [found]; exact List.mem_cons_self)
      exact ⟨⟨others.flatten, whole⟩, fun _ => nonempty⟩
  exact ⟨_, starts.1, starts.2, lineAt_append inside⟩

/-- At the end of a script that ends with a newline, the line is the last one. -/
theorem lineAt_newline (init : List Char) : ∃ last,
    lineAt (init ++ ['\n']) (Text.byteLength (init ++ ['\n'])) =
      ⟨init.count '\n' + 1, last, Text.byteLength last⟩ ∧
    line (init ++ ['\n']) (init.count '\n' + 1) = last := by
  have nonempty : lines (init ++ ['\n']) ≠ [] := lines_ne_nil (by simp)
  obtain ⟨front, last, cut⟩ := (List.eq_nil_or_concat _).resolve_left nonempty
  rw [List.concat_eq_append] at cut
  have count := length_lines_newline init
  have total := congrArg Text.byteLength (flatten_lines (init ++ ['\n']))
  rw [cut] at count total
  have front_count : front.length = init.count '\n' := by simpa using count
  refine ⟨last, ?_, ?_⟩
  · rw [lineAt, cut, findLine_past (by rw [total]; omega), front_count, Nat.add_comm]
  · rw [← front_count]
    exact line_of_lines cut

end Source

end CursorScript
