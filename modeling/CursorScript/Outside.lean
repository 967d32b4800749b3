import CursorScript.Context

/-!
What the standard library takes from outside: an engine that compiles patterns, and a source of
random values. The library is given them and knows no more of them than what is said here.
-/
namespace CursorScript

/-- An engine for patterns: a pattern is compiled to a test of texts, or refused with a message. All
patterns may be refused, and for any reason. -/
structure PatternEngine where
  compile : (pattern : String) → Except String (String → Bool)

/-- A source of random values. What it gives lies from the lower bound up to, but not including, the
upper one. For reals the lower bound is named apart, since their order has no laws to show from. -/
structure RandomSource where
  number : Generator → (lo hi : Int64) → Int64
  real : Generator → (lo hi : Float) → Float
  number_mem : ∀ g lo hi, lo < hi → lo ≤ number g lo hi ∧ number g lo hi < hi
  real_mem : ∀ g lo hi, lo < hi →
    real g lo hi = lo ∨ (lo ≤ real g lo hi ∧ real g lo hi < hi)

structure Outside where
  patterns : PatternEngine
  random : RandomSource

end CursorScript
