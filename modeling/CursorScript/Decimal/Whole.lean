/-!
Whole numbers in decimal digits. A number is cut into halves of equal width until single digits are
left, so that long numbers are written without a division for every digit. Main statement: the
digits are those of `toString`.
-/
namespace CursorScript.Decimal

def lastDigits : (width : Nat) → (n : Nat) → List Char
  | 0, _ => []
  | width + 1, n => lastDigits width (n / 10) ++ [Nat.digitChar (n % 10)]

theorem lastDigits_add (front back n : Nat) :
    lastDigits (front + back) n = lastDigits front (n / Nat.pow 10 back) ++ lastDigits back n := by
  induction back generalizing n with
  | zero => simp [lastDigits]
  | succ back ih =>
    have step : n / Nat.pow 10 (back + 1) = n / 10 / Nat.pow 10 back := by
      rw [Nat.div_div_eq_div_mul, Nat.mul_comm]
      rfl
    show lastDigits (front + back) (n / 10) ++ _ = _ ++ (lastDigits back (n / 10) ++ _)
    rw [ih, step, List.append_assoc]

theorem lastDigits_mod (width n : Nat) :
    lastDigits width (n % Nat.pow 10 width) = lastDigits width n := by
  induction width generalizing n with
  | zero => rfl
  | succ width ih =>
    have power : Nat.pow 10 (width + 1) = 10 * Nat.pow 10 width := Nat.mul_comm _ _
    have front : n % Nat.pow 10 (width + 1) / 10 = n / 10 % Nat.pow 10 width := by
      rw [power, Nat.mod_mul_right_div_self]
    have last : n % Nat.pow 10 (width + 1) % 10 = n % 10 := by
      rw [power, Nat.mod_mul_right_mod]
    show lastDigits width (n % Nat.pow 10 (width + 1) / 10) ++ _ = _
    rw [front, last, ih]
    rfl

def halves : (level : Nat) → (n : Nat) → List Char
  | 0, n => [Nat.digitChar (n % 10)]
  | level + 1, n =>
    if n = 0 then List.replicate (Nat.pow 2 (level + 1)) '0'
    else
      let unit := Nat.pow 10 (Nat.pow 2 level)
      halves level (n / unit) ++ halves level (n % unit)

theorem lastDigits_zero (width : Nat) : lastDigits width 0 = List.replicate width '0' := by
  induction width with
  | zero => rfl
  | succ width ih =>
    show lastDigits width 0 ++ ['0'] = _
    rw [ih, List.replicate_succ']

theorem halves_eq (level n : Nat) : halves level n = lastDigits (Nat.pow 2 level) n := by
  induction level generalizing n with
  | zero => rfl
  | succ level ih =>
    unfold halves
    split
    · next zero => rw [zero, lastDigits_zero]
    · have width : Nat.pow 2 (level + 1) = Nat.pow 2 level + Nat.pow 2 level := Nat.mul_two _
      dsimp only
      rw [width, lastDigits_add, ih, ih, lastDigits_mod]

def levelOf (n : Nat) : Nat := (n.log2 / 3 + 1).log2 + 1

theorem lt_levelOf (n : Nat) : n < Nat.pow 10 (Nat.pow 2 (levelOf n)) := by
  have bits : n < 2 ^ (n.log2 + 1) := Nat.lt_log2_self
  have width : n.log2 / 3 + 1 < 2 ^ levelOf n := Nat.lt_log2_self
  calc n < 2 ^ (n.log2 + 1) := bits
    _ ≤ 2 ^ (3 * (n.log2 / 3 + 1)) := Nat.pow_le_pow_right (by decide) (by omega)
    _ = 8 ^ (n.log2 / 3 + 1) := Nat.pow_mul 2 3 _
    _ ≤ 10 ^ (n.log2 / 3 + 1) := Nat.pow_le_pow_left (by decide) _
    _ ≤ 10 ^ (2 ^ levelOf n) := Nat.pow_le_pow_right (by decide) (Nat.le_of_lt width)

theorem dropZeros_lastDigits {width n : Nat} (small : n < Nat.pow 10 width) (positive : 0 < n) :
    (lastDigits width n).dropWhile (· == '0') = Nat.toDigits 10 n := by
  induction width generalizing n with
  | zero =>
    have : n < 1 := small
    omega
  | succ width ih =>
    by_cases single : n < 10
    · have front : n / 10 = 0 := Nat.div_eq_of_lt single
      have last : n % 10 = n := Nat.mod_eq_of_lt single
      have digit : (Nat.digitChar n == '0') = false := by
        have : n = 1 ∨ n = 2 ∨ n = 3 ∨ n = 4 ∨ n = 5 ∨ n = 6 ∨ n = 7 ∨ n = 8 ∨ n = 9 := by omega
        rcases this with rfl | rfl | rfl | rfl | rfl | rfl | rfl | rfl | rfl <;> rfl
      simp only [lastDigits, front, last, lastDigits_zero, Nat.toDigits_of_lt_base single]
      rw [List.dropWhile_append]
      simp [digit]
    · have front : n / 10 < Nat.pow 10 width :=
        Nat.div_lt_of_lt_mul (by simpa [Nat.pow, Nat.mul_comm] using small)
      have rest : 0 < n / 10 := by omega
      have digits := ih front rest
      have split : 10 * (n / 10) + n % 10 = n := Nat.div_add_mod n 10
      have whole : Nat.toDigits 10 (n / 10) ++ Nat.toDigits 10 (n % 10) = Nat.toDigits 10 n := by
        rw [Nat.toDigits_append_toDigits (by decide) rest (Nat.mod_lt _ (by decide)), split]
      have nonempty : (Nat.toDigits 10 (n / 10)).isEmpty = false := by
        have := Nat.length_toDigits_pos (b := 10) (n := n / 10)
        cases h : Nat.toDigits 10 (n / 10) with
        | nil => simp [h] at this
        | cons _ _ => rfl
      simp only [lastDigits]
      rw [List.dropWhile_append, digits, nonempty, ← whole,
        Nat.toDigits_of_lt_base (Nat.mod_lt n (by decide))]
      rfl

def digitsOf (n : Nat) : List Char :=
  if n = 0 then ['0'] else (halves (levelOf n) n).dropWhile (· == '0')

theorem digitsOf_eq (n : Nat) : digitsOf n = Nat.toDigits 10 n := by
  unfold digitsOf
  split
  · next zero => rw [zero]; rfl
  · next nonzero =>
    rw [halves_eq, dropZeros_lastDigits (lt_levelOf n) (Nat.pos_of_ne_zero nonzero)]

/-- The text of a natural number; a short one is written digit by digit. -/
def writeNat (n : Nat) : String :=
  if n < 1000000000000000000 then n.repr else String.ofList (digitsOf n)

theorem writeNat_eq (n : Nat) : writeNat n = n.repr := by
  unfold writeNat
  split
  · rfl
  · rw [digitsOf_eq, Nat.repr]

def writeWhole : Int → String
  | .ofNat n => writeNat n
  | .negSucc n => "-" ++ writeNat (n + 1)

/-- The text of a whole number is its usual one. -/
theorem writeWhole_eq (n : Int) : writeWhole n = toString n := by
  cases n <;> simp only [writeWhole, writeNat_eq, toString, Int.repr]

end CursorScript.Decimal
