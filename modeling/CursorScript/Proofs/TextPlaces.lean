import CursorScript.Proofs.LibraryCalls

/-!
Places in texts. A search goes over bytes, and a script sees characters: the number of characters in
front of the first byte of a match is the place where the match starts, however many bytes each of
them takes. A part of a text is cut out if the text can be written as what stands in front of it,
the part and what stands behind it.
-/
namespace CursorScript

namespace Text

/-- `part` stands in `text` behind the first `place` characters. -/
def StandsAt (part text : List Char) (place : Nat) : Prop :=
  ∃ front behind, text = front ++ (part ++ behind) ∧ front.length = place

theorem standsAt_zero {part text : List Char} : StandsAt part text 0 ↔ part <+: text := by
  constructor
  · rintro ⟨front, behind, rfl, empty⟩
    simp [List.length_eq_zero_iff.1 empty]
  · rintro ⟨behind, rfl⟩
    exact ⟨[], behind, rfl, rfl⟩

theorem standsAt_succ {part cs : List Char} {c : Char} {place : Nat} :
    StandsAt part (c :: cs) (place + 1) ↔ StandsAt part cs place := by
  constructor
  · rintro ⟨front, behind, whole, length⟩
    cases front with
    | nil => simp at length
    | cons d front =>
      simp only [List.cons_append, List.cons.injEq] at whole
      exact ⟨front, behind, whole.2, by simpa using length⟩
  · rintro ⟨front, behind, rfl, rfl⟩
    exact ⟨c :: front, behind, rfl, rfl⟩

theorem not_standsAt_nil {part : List Char} (nonempty : part ≠ []) (place : Nat) :
    ¬StandsAt part [] place := by
  rintro ⟨front, behind, whole, -⟩
  have := congrArg List.length whole
  have := List.length_pos_iff.2 nonempty
  simp at *
  omega

/-- The bytes of some characters at the front of a text hold just these characters. -/
theorem charsBefore_byteLength (front behind : List Char) :
    charsBefore (byteLength front) (front ++ behind) = front.length := by
  induction front with
  | nil => cases behind <;> simp [charsBefore]
  | cons c front ih =>
    have nonzero : c.utf8Size ≠ 0 := Nat.ne_of_gt c.utf8Size_pos
    simp [charsBefore, nonzero, ih]

/-- A search finds the byte at which `part` stands first. -/
theorem first_of_findByte? {part text : List Char} {byte : Nat}
    (h : findByte? part text = some byte) :
    ∃ front behind, text = front ++ (part ++ behind) ∧ byteLength front = byte ∧
      ∀ place < front.length, ¬StandsAt part text place := by
  induction text generalizing byte with
  | nil =>
    simp only [findByte?] at h
    split at h
    · next empty =>
      cases h
      exact ⟨[], [], by simp [empty], rfl, by simp⟩
    · cases h
  | cons c cs ih =>
    simp only [findByte?] at h
    split at h
    · next starts =>
      cases h
      obtain ⟨behind, whole⟩ := List.isPrefixOf_iff_prefix.1 starts
      exact ⟨[], behind, whole.symm, rfl, by simp⟩
    · next elsewhere =>
      obtain ⟨rest, found, rfl⟩ := Option.map_eq_some_iff.1 h
      obtain ⟨front, behind, rfl, rfl, first⟩ := ih found
      refine ⟨c :: front, behind, rfl, by simp [Nat.add_comm], fun place before => ?_⟩
      cases place with
      | zero =>
        rw [standsAt_zero]
        exact fun starts => elsewhere (List.isPrefixOf_iff_prefix.2 starts)
      | succ place =>
        rw [standsAt_succ]
        exact first place (by simpa using before)

/-- A search that finds nothing has missed nothing. -/
theorem not_standsAt_of_findByte? {part text : List Char} (h : findByte? part text = none)
    (place : Nat) : ¬StandsAt part text place := by
  induction text generalizing place with
  | nil =>
    simp only [findByte?] at h
    split at h
    · cases h
    · next nonempty => exact not_standsAt_nil nonempty place
  | cons c cs ih =>
    simp only [findByte?] at h
    split at h
    · cases h
    · next elsewhere =>
      cases place with
      | zero =>
        rw [standsAt_zero]
        exact fun starts => elsewhere (List.isPrefixOf_iff_prefix.2 starts)
      | succ place =>
        rw [standsAt_succ]
        exact ih (Option.map_eq_none_iff.1 h) place

/-- A slice is what stands between two places of a text. -/
theorem slice?_eq_some_iff {text part : List Char} {first last : Int} :
    slice? text first last = some part ↔
      ∃ front behind, text = front ++ (part ++ behind) ∧ (front.length : Int) = first ∧
        first + part.length = last := by
  unfold slice?
  constructor
  · intro h
    split at h
    · next fits =>
      cases h
      refine ⟨text.take first.toNat, (text.drop first.toNat).drop (last - first).toNat, ?_, ?_, ?_⟩
      · rw [List.take_append_drop, List.take_append_drop]
      · simp
        omega
      · simp
        omega
    · cases h
  · rintro ⟨front, behind, rfl, rfl, rfl⟩
    have width : ((front.length : Int) + part.length - front.length).toNat = part.length := by omega
    have fits : 0 ≤ (front.length : Int) ∧ (front.length : Int) ≤ front.length + part.length ∧
        (front.length : Int) + part.length ≤ (front ++ (part ++ behind)).length := by
      rw [List.length_append, List.length_append]
      omega
    rw [if_pos fits, Int.toNat_natCast, width]
    simp

end Text

namespace Library

/-- A text is cut out between two places exactly if it stands between them. -/
theorem substring_eq_ok_iff {text part : String} {first last : Int} :
    substring text first last = .ok part ↔
      ∃ front behind, text.toList = front ++ (part.toList ++ behind) ∧
        (front.length : Int) = first ∧ first + part.length = last := by
  rw [← String.length_toList, ← Text.slice?_eq_some_iff]
  unfold substring
  cases cut : Text.slice? text.toList first last with
  | none => simp
  | some chars =>
    constructor
    · intro same
      cases same
      simp
    · intro same
      cases same
      simp

/-- Places that do not lie in the text in their order are refused. -/
theorem substring_eq_error {text : String} {first last : Int}
    (outside : ¬(0 ≤ first ∧ first ≤ last ∧ last ≤ text.length)) :
    substring text first last =
      .error ("substring range out of bounds for length " ++ toString text.length) := by
  have none : Text.slice? text.toList first last = none := by
    rw [← String.length_toList] at outside
    exact if_neg outside
  rw [substring, none]

theorem bounds_of_substring {text part : String} {first last : Int}
    (h : substring text first last = .ok part) :
    0 ≤ first ∧ first ≤ last ∧ last ≤ text.length := by
  obtain ⟨front, behind, whole, rfl, rfl⟩ := substring_eq_ok_iff.1 h
  have total := congrArg List.length whole
  simp only [List.length_append, String.length_toList] at total
  omega

/-- Everything between two places that lie in a text in their order can be cut out. -/
theorem exists_substring_iff {text : String} {first last : Int} :
    (∃ part, substring text first last = .ok part) ↔
      0 ≤ first ∧ first ≤ last ∧ last ≤ text.length := by
  constructor
  · rintro ⟨part, cut⟩
    exact bounds_of_substring cut
  · intro fits
    rw [← String.length_toList] at fits
    exact ⟨_, by rw [substring, Text.slice?, if_pos fits]⟩

/-- A part is cut out again at the places where it stands. -/
theorem substring_self_iff {text part : String} {first : Int} :
    substring text first (first + part.length) = .ok part ↔
      ∃ place : Nat, place = first ∧ Text.StandsAt part.toList text.toList place := by
  rw [substring_eq_ok_iff]
  constructor
  · rintro ⟨front, behind, whole, count, -⟩
    exact ⟨front.length, count, front, behind, whole, rfl⟩
  · rintro ⟨_, count, front, behind, whole, rfl⟩
    exact ⟨front, behind, whole, count, rfl⟩

/-- A text that is found starts at the place that is given, and at none before. -/
theorem first_of_indexOf {text part : String} {place : Nat} (h : indexOf text part = place) :
    Text.StandsAt part.toList text.toList place ∧
      ∀ before < place, ¬Text.StandsAt part.toList text.toList before := by
  unfold indexOf at h
  split at h
  · next byte found =>
    obtain ⟨front, behind, whole, bytes, first⟩ := Text.first_of_findByte? found
    have counted : front.length = place := by
      rw [whole, ← bytes, Text.charsBefore_byteLength] at h
      exact Int.natCast_inj.1 h
    rw [← counted]
    exact ⟨⟨front, behind, whole, rfl⟩, first⟩
  · omega

/-- A text that is not found stands nowhere. -/
theorem missing_of_indexOf {text part : String} (h : indexOf text part < 0) :
    indexOf text part = -1 ∧ ∀ place, ¬Text.StandsAt part.toList text.toList place := by
  unfold indexOf at h ⊢
  split at h
  · omega
  · next missing => exact ⟨rfl, Text.not_standsAt_of_findByte? missing⟩

theorem indexOf_eq_neg_one_iff {text part : String} :
    indexOf text part = -1 ↔ Text.contains text.toList part.toList = false := by
  unfold indexOf Text.contains
  split
  · next byte found =>
    have : (-1 : Int) ≠ Text.charsBefore byte text.toList := by omega
    simp [found, this.symm]
  · next missing => simp [missing]

/-- `index_of(text, part)` gives `place`. -/
def IndexOf (outside : Outside) (text part : String) (place : Int) : Prop :=
  Replies outside "index_of" [.simple .string, .simple .string] [.string text, .string part]
    (.ok (.number place))

/-- `contains(text, part)` gives `answer`. -/
def Contains (outside : Outside) (text part : String) (answer : Bool) : Prop :=
  Replies outside "contains" [.simple .string, .simple .string] [.string text, .string part]
    (.ok (.logic answer))

/-- `length(text)` gives `count`. -/
def Length (outside : Outside) (text : String) (count : Int) : Prop :=
  Replies outside "length" [.simple .string] [.string text] (.ok (.number count))

/-- `substring(text, first, last)` gives a text or fails with a message. -/
def Substring (outside : Outside) (text : String) (first last : Int)
    (reply : Except String String) : Prop :=
  Replies outside "substring" [.simple .string, .simple .number, .simple .number]
    [.string text, .number first, .number last] (reply.map .string)

variable {outside : Outside} {text part : String}

theorem indexOf_iff {place : Int} : IndexOf outside text part place ↔ indexOf text part = place := by
  have given : IndexOf outside text part (indexOf text part) :=
    replies_of_function? rfl rfl rfl fun _ => rfl
  rw [IndexOf, Replies.iff given]
  simp [eq_comm]

theorem contains_iff {answer : Bool} :
    Contains outside text part answer ↔ Text.contains text.toList part.toList = answer := by
  have given : Contains outside text part (Text.contains text.toList part.toList) :=
    replies_of_function? rfl rfl rfl fun _ => rfl
  rw [Contains, Replies.iff given]
  simp [eq_comm]

theorem length_iff {count : Int} : Length outside text count ↔ (text.length : Int) = count := by
  have given : Length outside text text.length := replies_of_function? rfl rfl rfl fun _ => rfl
  rw [Length, Replies.iff given]
  simp [eq_comm]

theorem substring_iff {first last : Int} {reply : Except String String} :
    Substring outside text first last reply ↔ substring text first last = reply := by
  have given : Substring outside text first last (substring text first last) :=
    replies_of_function? rfl rfl rfl (HostFunction.call_eq rfl fun _ => rfl)
  rw [Substring, Replies.iff given]
  cases reply <;> cases substring text first last <;> simp [Except.map, eq_comm]

end Library

open Library in
/-- What scripts are told about places in texts fits together, whatever characters the texts hold.
`index_of` gives the first place at which `substring` cuts the part out again, or -1 if there is no
such place, which is what `contains` says. `substring` cuts between any two places that lie in the
text in their order, and only there: what it gives is as long as the places are apart, and it goes
on where the text up to the first place ends. -/
theorem text_places_agree (outside : Outside) (text part : String) :
    (∃ place, (∀ k, IndexOf outside text part k ↔ k = place) ∧
      (0 ≤ place → place + part.length ≤ text.length ∧
        Substring outside text place (place + part.length) (.ok part) ∧
        ∀ before < place, ¬Substring outside text before (before + part.length) (.ok part)) ∧
      (place < 0 → place = -1 ∧ ∀ k, ¬Substring outside text k (k + part.length) (.ok part)) ∧
      (place = -1 ↔ Contains outside text part false)) ∧
    (∀ s count, Length outside s count ↔ count = s.length) ∧
    ∀ first last : Int,
      ((∃ s, Substring outside text first last (.ok s)) ↔
        0 ≤ first ∧ first ≤ last ∧ last ≤ text.length) ∧
      (¬(0 ≤ first ∧ first ≤ last ∧ last ≤ text.length) → Substring outside text first last
        (.error ("substring range out of bounds for length " ++ toString text.length))) ∧
      ∀ s, Substring outside text first last (.ok s) → Length outside s (last - first) ∧
        ∃ front whole, Substring outside text 0 first (.ok front) ∧
          Substring outside text 0 last (.ok whole) ∧ front ++ s = whole := by
  refine ⟨⟨indexOf text part, ?_, ?_, ?_, ?_⟩, ?_, ?_⟩
  · intro k
    rw [indexOf_iff, eq_comm]
  · intro found
    obtain ⟨k, same⟩ := Int.eq_ofNat_of_zero_le found
    obtain ⟨stands, first⟩ := first_of_indexOf same
    have cut := substring_self_iff.2 ⟨k, rfl, stands⟩
    rw [same]
    refine ⟨(bounds_of_substring cut).2.2, substring_iff.2 cut, fun before earlier again => ?_⟩
    rw [substring_iff, substring_self_iff] at again
    obtain ⟨j, rfl, stands'⟩ := again
    exact first j (by omega) stands'
  · intro absent
    obtain ⟨is, nowhere⟩ := missing_of_indexOf absent
    refine ⟨is, fun k cut => ?_⟩
    rw [substring_iff, substring_self_iff] at cut
    obtain ⟨j, -, stands⟩ := cut
    exact nowhere j stands
  · rw [contains_iff, indexOf_eq_neg_one_iff]
  · intro s count
    rw [length_iff, eq_comm]
  · intro first last
    refine ⟨?_, fun beyond => substring_iff.2 (substring_eq_error beyond), fun s cut => ?_⟩
    · simp only [substring_iff]
      exact exists_substring_iff
    · rw [substring_iff] at cut
      obtain ⟨front, behind, whole, rfl, rfl⟩ := substring_eq_ok_iff.1 cut
      refine ⟨length_iff.2 (by omega), String.ofList front, String.ofList front ++ s, ?_, ?_, rfl⟩
      · exact substring_iff.2 (substring_eq_ok_iff.2 ⟨[], s.toList ++ behind, by simp [whole]⟩)
      · exact substring_iff.2 (substring_eq_ok_iff.2 ⟨[], behind, by simp [whole]⟩)

open Library in
/-- The part starts behind two characters, which take five bytes. -/
theorem text_places_agree_wide :
    (IndexOf .builtIn "é€é€𝄞" "é€𝄞" 2 ∧ Substring .builtIn "é€é€𝄞" 2 (2 + 3) (.ok "é€𝄞") ∧
      ¬Substring .builtIn "é€é€𝄞" 0 (0 + 3) (.ok "é€𝄞")) ∧
    (IndexOf .builtIn "é€" "𝄞" (-1) ∧ ∀ k, ¬Substring .builtIn "é€" k (k + 1) (.ok "𝄞")) ∧
    (∃ s front whole, Substring .builtIn "é€é€𝄞" 1 3 (.ok s) ∧ Length .builtIn s (3 - 1) ∧
      Substring .builtIn "é€é€𝄞" 0 1 (.ok front) ∧ Substring .builtIn "é€é€𝄞" 0 3 (.ok whole) ∧
      front ++ s = whole) ∧
    Substring .builtIn "é€é€𝄞" 4 2
      (.error ("substring range out of bounds for length " ++ toString "é€é€𝄞".length)) := by
  obtain ⟨⟨place, is, found, -, -⟩, -, cuts⟩ := text_places_agree .builtIn "é€é€𝄞" "é€𝄞"
  obtain ⟨⟨none, isNone, -, missing, -⟩, -, -⟩ := text_places_agree .builtIn "é€" "𝄞"
  have here : IndexOf .builtIn "é€é€𝄞" "é€𝄞" 2 := indexOf_iff.2 (by decide +kernel)
  have nowhere : IndexOf .builtIn "é€" "𝄞" (-1) := indexOf_iff.2 (by decide +kernel)
  obtain rfl := (is 2).1 here
  obtain rfl := (isNone (-1)).1 nowhere
  obtain ⟨-, cut, first⟩ := found (by decide)
  obtain ⟨s, middle⟩ := (cuts 1 3).1.2 (by decide +kernel)
  obtain ⟨long, front, whole, before, upTo, joined⟩ := (cuts 1 3).2.2 s middle
  exact ⟨⟨here, cut, first 0 (by decide)⟩, ⟨nowhere, (missing (by decide)).2⟩,
    ⟨s, front, whole, middle, long, before, upTo, joined⟩, (cuts 4 2).2.1 (by decide +kernel)⟩

end CursorScript
