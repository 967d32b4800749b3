import CursorScript.Library.Movement
import CursorScript.Outside

/-!
Random numbers and reals.
-/
namespace CursorScript.Library

def randomReal (source : RandomSource) (lo hi : Float) (context : Context) :
    Except String (Float × Context) :=
  let bound := Decimal.Layout.bound.write
  if !Decimal.isFinite lo || !Decimal.isFinite hi then
    .error ("bounds must be finite, received " ++ bound lo ++ " and " ++ bound hi)
  else if !(lo < hi) then .error "max must be greater than min"
  else if !Decimal.isFinite (hi - lo) then
    .error ("range from " ++ bound lo ++ " to " ++ bound hi ++ " is too wide")
  else .ok (source.real context.random lo hi, context.draw (.real lo hi))

def randomNumber (source : RandomSource) (lo hi : Int) (context : Context) :
    Except String (Int × Context) := do
  if hi ≤ lo then throw "max must be greater than min"
  let lo ← coordinate lo
  let hi ← coordinate hi
  return ((source.number context.random lo hi).toInt, context.draw (.number lo hi))

theorem randomReal_mem {source : RandomSource} {lo hi x : Float} {c c' : Context}
    (h : randomReal source lo hi c = .ok (x, c')) : x = lo ∨ (lo ≤ x ∧ x < hi) := by
  unfold randomReal at h
  split at h
  · cases h
  · split at h
    · cases h
    · next less =>
      split at h
      · cases h
      · cases h
        exact source.real_mem c.random lo hi (by simpa using less)

theorem randomNumber_mem {source : RandomSource} {lo hi n : Int} {c c' : Context}
    (h : randomNumber source lo hi c = .ok (n, c')) : lo ≤ n ∧ n < hi := by
  unfold randomNumber at h
  split at h
  · cases h
  · next wide =>
    obtain ⟨least, readLo, h⟩ := exists_of_bind_ok h
    obtain ⟨most, readHi, h⟩ := exists_of_bind_ok h
    cases h
    rw [coordinate_eq_ok_iff] at readLo readHi
    have less : least < most := by
      rw [Int64.lt_iff_toInt_lt]
      omega
    obtain ⟨above, below⟩ := source.number_mem c.random least most less
    rw [Int64.le_iff_toInt_le] at above
    rw [Int64.lt_iff_toInt_lt] at below
    omega

def seed : HostFunction where
  parameters := [.number]
  returns := none
  run := fun (value, _) context => .ok ((), context.reseed value)

def randomness (source : RandomSource) : List Function :=
  [.ofHost "random" [("min", .real), ("max", .real)] (some .real)
     ⟨[.real, .real], some .real, fun (lo, hi, _) => randomReal source lo hi⟩,
   .ofHost "random" [("min", .number), ("max", .number)] (some .number)
     ⟨[.number, .number], some .number, fun (lo, hi, _) => randomNumber source lo hi⟩,
   .ofHost "seed" [("value", .number)] none seed]

end CursorScript.Library
