import CursorScript.Position

/-!
The lines of a text by their starts. The bytes at which lines start are noted once; the line of a
byte is then searched among them by halving, and its column counts the characters since the start.
Main statements: the search finds the end of the entries that pass, and a text is cut at a byte just
where a character ends.
-/
namespace CursorScript

namespace Text

/-- A text cut behind its first `bytes` bytes, if a character ends there. -/
def splitAtByte? : (bytes : Nat) → List Char → Option (List Char × List Char)
  | 0, cs => some ([], cs)
  | _ + 1, [] => none
  | bytes + 1, c :: cs =>
    if c.utf8Size ≤ bytes + 1 then
      (splitAtByte? (bytes + 1 - c.utf8Size) cs).map fun (front, rest) => (c :: front, rest)
    else none

/-- The characters from the byte `first` up to the byte `last`, if characters end at both. -/
def sliceBytes? (text : List Char) (first last : Nat) : Option (List Char) :=
  if first ≤ last then
    (splitAtByte? first text).bind fun (_, rest) =>
      (splitAtByte? (last - first) rest).map Prod.fst
  else none

theorem splitAtByte?_append (front rest : List Char) :
    splitAtByte? (byteLength front) (front ++ rest) = some (front, rest) := by
  induction front with
  | nil => simp [splitAtByte?]
  | cons c front ih =>
    have positive := c.utf8Size_pos
    obtain ⟨bytes, more⟩ : ∃ bytes, c.utf8Size + byteLength front = bytes + 1 :=
      ⟨c.utf8Size + byteLength front - 1, by omega⟩
    have fits : c.utf8Size ≤ bytes + 1 := by omega
    have left : bytes + 1 - c.utf8Size = byteLength front := by omega
    simp [splitAtByte?, more, fits, left, ih]

theorem append_of_splitAtByte? {bytes : Nat} {text front rest : List Char}
    (h : splitAtByte? bytes text = some (front, rest)) :
    front ++ rest = text ∧ byteLength front = bytes := by
  fun_induction splitAtByte? bytes text generalizing front rest with
  | case1 cs =>
    cases h
    simp
  | case2 => cases h
  | case3 bytes c cs fits ih =>
    obtain ⟨⟨front, rest⟩, cut, same⟩ := Option.map_eq_some_iff.1 h
    cases same
    obtain ⟨whole, length⟩ := ih cut
    have total : c.utf8Size + byteLength front = bytes + 1 := by omega
    simp [whole, total]
  | case4 => cases h

theorem sliceBytes?_append (front inner rest : List Char) :
    sliceBytes? (front ++ (inner ++ rest)) (byteLength front) (byteLength (front ++ inner)) =
      some inner := by
  simp [sliceBytes?, splitAtByte?_append]

/-- What is sliced out ends with a character of the text. -/
theorem exists_of_sliceBytes? {text inner : List Char} {first last : Nat}
    (h : sliceBytes? text first last = some inner) :
    ∃ front rest, front ++ (inner ++ rest) = text ∧ byteLength (front ++ inner) = last := by
  unfold sliceBytes? at h
  split at h
  · next ordered =>
    obtain ⟨⟨front, behind⟩, cut, found⟩ := Option.bind_eq_some_iff.1 h
    obtain ⟨⟨part, rest⟩, cut', same⟩ := Option.map_eq_some_iff.1 found
    obtain ⟨rfl, start⟩ := append_of_splitAtByte? cut
    obtain ⟨rfl, width⟩ := append_of_splitAtByte? cut'
    obtain rfl : part = inner := same
    refine ⟨front, rest, rfl, ?_⟩
    rw [byteLength_append]
    omega
  · cases h

end Text

section search
variable {α : Type} {passes : α → Bool} {entries : Array α}

/-- The end of the entries that pass, looked for from `low` up to `high`, if no entry that fails
stands in front of one that passes. -/
def partitionWithin (passes : α → Bool) (entries : Array α) (low high : Nat)
    (bound : high ≤ entries.size) : Nat :=
  if wide : low < high then
    let middle := low + (high - low) / 2
    have inside : middle < entries.size := by omega
    if passes entries[middle] then partitionWithin passes entries (middle + 1) high bound
    else partitionWithin passes entries low middle (by omega)
  else low
termination_by high - low

def partitionPoint (passes : α → Bool) (entries : Array α) : Nat :=
  partitionWithin passes entries 0 entries.size (Nat.le_refl _)

/-- A window around the end of the entries that pass is narrowed down to it. -/
theorem partitionWithin_eq {low high point : Nat} {bound : high ≤ entries.size}
    (pass : ∀ i (h : i < entries.size), i < point → passes entries[i] = true)
    (fail : ∀ i (h : i < entries.size), point ≤ i → passes entries[i] = false)
    (after : low ≤ point) (upto : point ≤ high) :
    partitionWithin passes entries low high bound = point := by
  fun_induction partitionWithin passes entries low high bound with
  | case1 low high bound wide middle inside passed ih =>
    have beyond : middle < point := Nat.lt_of_not_le fun reached => by
      simp [fail middle inside reached] at passed
    exact ih beyond upto
  | case2 low high bound wide middle inside failed ih =>
    have reached : point ≤ middle := Nat.le_of_not_lt fun short =>
      failed (pass middle inside short)
    exact ih after reached
  | case3 low high bound narrow => omega

theorem partitionPoint_append {below above : List α} (pass : ∀ x ∈ below, passes x = true)
    (fail : ∀ x ∈ above, passes x = false) :
    partitionPoint passes (below ++ above).toArray = below.length := by
  refine partitionWithin_eq (fun i inside front => ?_) (fun i inside behind => ?_)
    (Nat.zero_le _) (by simp)
  · have entry : (below ++ above).toArray[i] = below[i] := by simp [List.getElem_append_left front]
    rw [entry]
    exact pass _ (List.getElem_mem front)
  · have entry : (below ++ above).toArray[i] ∈ above := by
      rw [List.getElem_toArray, List.getElem_append_right behind]
      exact List.getElem_mem _
    exact fail _ entry

end search

namespace LineIndex

/-- The bytes behind the newlines of a text that starts at the byte `start`. -/
def newlineEnds (start : Nat) : List Char → List Nat
  | [] => []
  | c :: cs =>
    let stop := start + c.utf8Size
    if c = '\n' then stop :: newlineEnds stop cs else newlineEnds stop cs

/-- The bytes at which lines start: the first one, and those behind a newline. -/
def lineStarts (text : List Char) : List Nat := 0 :: newlineEnds 0 text

theorem newlineEnds_append (start : Nat) (front rest : List Char) :
    newlineEnds start (front ++ rest) =
      newlineEnds start front ++ newlineEnds (start + Text.byteLength front) rest := by
  induction front generalizing start with
  | nil => simp [newlineEnds]
  | cons c front ih => by_cases newline : c = '\n' <;> simp [newlineEnds, newline, ih, Nat.add_assoc]

theorem length_newlineEnds (start : Nat) (text : List Char) :
    (newlineEnds start text).length = text.count '\n' := by
  induction text generalizing start with
  | nil => rfl
  | cons c text ih => by_cases newline : c = '\n' <;> simp [newlineEnds, newline, ih]

theorem bounds_of_mem_newlineEnds {start stop : Nat} {text : List Char}
    (mem : stop ∈ newlineEnds start text) :
    start < stop ∧ stop ≤ start + Text.byteLength text := by
  induction text generalizing start with
  | nil => simp [newlineEnds] at mem
  | cons c text ih =>
    have positive := c.utf8Size_pos
    rw [Text.byteLength_cons]
    rw [newlineEnds] at mem
    split at mem
    · rcases List.mem_cons.1 mem with rfl | more
      · omega
      · have bounds := ih more
        omega
    · have bounds := ih mem
      omega

end LineIndex

structure LineIndex where
  text : List Char
  file : String
  base : Option Position
  starts : Array Nat
  starts_eq : starts = (LineIndex.lineStarts text).toArray
  base_file : ∀ p ∈ base, p.file = file

namespace LineIndex

def ofScript (script : List Char) (file : String) : LineIndex :=
  ⟨script, file, none, (lineStarts script).toArray, rfl, by simp⟩

def ofPart (part : List Char) (base : Position) : LineIndex :=
  ⟨part, base.file, some base, (lineStarts part).toArray, rfl, by simp⟩

/-- The place at a byte of the text, if a character ends there. Its line is the last that does not
start behind it; on the first line of a part, the column goes on from the base. -/
def place? (index : LineIndex) (offset : Nat) : Option Position := do
  let line := partitionPoint (fun start => decide (start ≤ offset)) index.starts - 1
  let start ← index.starts[line]?
  let before ← Text.sliceBytes? index.text start offset
  let column := before.length + 1
  match index.base with
  | none => return ⟨offset, line + 1, column, index.file⟩
  | some base =>
    return ⟨base.offset + offset, base.line + line,
      if line = 0 then base.column + column - 1 else column, index.file⟩

def origin (index : LineIndex) : Position := index.base.getD (.start index.file)

end LineIndex

end CursorScript
