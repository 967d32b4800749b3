import CursorScript.Outside
import CursorScript.Pattern.Reader

/-!
The engine and the source of random values that the program is built with. Nothing else depends on
which these are.
-/
namespace CursorScript

namespace Generator

def bits (g : Generator) : UInt64 :=
  let s := UInt64.ofNat g.seed + UInt64.ofNat (g.drawn.length + 1) * 0x9E3779B97F4A7C15
  let z := (s ^^^ (s >>> 30)) * 0xBF58476D1CE4E5B9
  let z := (z ^^^ (z >>> 27)) * 0x94D049BB133111EB
  z ^^^ (z >>> 31)

def number (g : Generator) (lo hi : Int64) : Int64 :=
  .ofInt (lo.toInt + (g.bits.toNat : Int) % (hi.toInt - lo.toInt))

def between (g : Generator) (lo hi : Float) : Float :=
  Decimal.ofBinary (g.bits.toNat / 2048) (-53) * (hi - lo) + lo

def firstWithin (lo hi : Float) : List Float → Float
  | [] => lo
  | x :: rest => if lo ≤ x ∧ x < hi then x else firstWithin lo hi rest

/-- Rounding can lead to `hi` itself, where `lo` is taken instead. -/
def real (g : Generator) (lo hi : Float) : Float := firstWithin lo hi [g.between lo hi, 0.0 + lo]

theorem number_mem (g : Generator) (lo hi : Int64) (h : lo < hi) :
    lo ≤ g.number lo hi ∧ g.number lo hi < hi := by
  rw [Int64.lt_iff_toInt_lt] at h
  have least := lo.le_toInt
  have most := hi.toInt_lt
  have above := Int.emod_nonneg (g.bits.toNat : Int) (by omega : hi.toInt - lo.toInt ≠ 0)
  have below := Int.emod_lt_of_pos (g.bits.toNat : Int) (by omega : 0 < hi.toInt - lo.toInt)
  have exact : (g.number lo hi).toInt =
      lo.toInt + (g.bits.toNat : Int) % (hi.toInt - lo.toInt) :=
    Int64.toInt_ofInt_of_le (by omega) (by omega)
  rw [Int64.le_iff_toInt_le, Int64.lt_iff_toInt_lt, exact]
  omega

theorem firstWithin_mem (lo hi : Float) (candidates : List Float) :
    firstWithin lo hi candidates = lo ∨
      (lo ≤ firstWithin lo hi candidates ∧ firstWithin lo hi candidates < hi) := by
  induction candidates with
  | nil => exact .inl rfl
  | cons x rest ih =>
    unfold firstWithin
    split
    · next within => exact .inr within
    · exact ih

end Generator

def RandomSource.builtIn : RandomSource where
  number := Generator.number
  real := Generator.real
  number_mem := Generator.number_mem
  real_mem g lo hi _ := Generator.firstWithin_mem lo hi [g.between lo hi, 0.0 + lo]

def Outside.builtIn : Outside := ⟨⟨Pattern.compile⟩, .builtIn⟩

end CursorScript
