import Mathlib.Data.Int.Log
import Mathlib.Data.Rat.Floor
import Mathlib.Algebra.Order.Field.Power
import Mathlib.Algebra.Ring.Int.Parity
import Mathlib.Tactic.FieldSimp
import Mathlib.Tactic.Linarith
import Mathlib.Tactic.Positivity

/-!
# Binary rounding

The result of an arithmetic operation in a binary format is the exact one, rounded to the nearest number with so many
digits after the leading one, and of two as near to the even one. Numbers are rationals; a result that is too great for
the format is not considered.

- `roundTo_mono`: rounding keeps the order of the numbers from zero on;
- `roundTo_lt_two_pow`, `binary64_lt_two_pow`: what is rounded to less than a power of two.
-/

set_option autoImplicit false

namespace Sys

/-! ## Integers -/

/-- The nearest integer, and of two as near the even one. -/
def roundEven (x : ℚ) : ℤ := if Even ⌊x⌋ then ⌈x - 1 / 2⌉ else ⌊x + 1 / 2⌋

section Integers

variable {x y : ℚ} {n : ℤ}

@[simp] theorem roundEven_intCast (n : ℤ) : roundEven n = n := by
  have hceil : ⌈(n : ℚ) - 1 / 2⌉ = n := by
    rw [Int.ceil_eq_iff]
    constructor <;> linarith
  have hfloor : ⌊(n : ℚ) + 1 / 2⌋ = n := by
    rw [Int.floor_eq_iff]
    constructor <;> linarith
  rw [roundEven, hceil, hfloor, ite_self]

@[simp] theorem roundEven_zero : roundEven 0 = 0 := by exact_mod_cast roundEven_intCast 0

theorem floor_le_roundEven (x : ℚ) : ⌊x⌋ ≤ roundEven x := by
  have hle := Int.floor_le x
  unfold roundEven
  split
  · have hlt : ⌊x⌋ - 1 < ⌈x - 1 / 2⌉ := by
      rw [Int.lt_ceil]
      push_cast
      linarith
    omega
  · exact Int.floor_le_floor (by linarith)

theorem roundEven_le_floor (x : ℚ) : roundEven x ≤ ⌊x⌋ + 1 := by
  have hlt := Int.lt_floor_add_one x
  unfold roundEven
  split
  · rw [Int.ceil_le]
    push_cast
    linarith
  · rw [← Int.floor_add_one]
    exact Int.floor_le_floor (by linarith)

theorem roundEven_mono (h : x ≤ y) : roundEven x ≤ roundEven y := by
  rcases (Int.floor_le_floor h).lt_or_eq with hlt | heq
  · -- an integer lies between the two
    calc roundEven x ≤ ⌊x⌋ + 1 := roundEven_le_floor x
      _ ≤ ⌊y⌋ := hlt
      _ ≤ roundEven y := floor_le_roundEven y
  · unfold roundEven
    rw [heq]
    split
    · exact Int.ceil_le_ceil (by linarith)
    · exact Int.floor_le_floor (by linarith)

/-- An even number takes the midpoint below it. -/
theorem roundEven_lt (hn : Even n) : roundEven x < n ↔ x < n - 1 / 2 := by
  unfold roundEven
  split
  case isFalse =>
    rw [Int.floor_lt]
    constructor <;> intro h <;> linarith
  case isTrue heven =>
    rw [← Int.le_sub_one_iff, Int.ceil_le]
    push_cast
    constructor
    · intro h
      refine lt_of_le_of_ne (by linarith) fun hx => ?_
      -- the integer below the midpoint is odd
      have hfloor : ⌊x⌋ = n - 1 := by
        rw [Int.floor_eq_iff]
        push_cast
        constructor <;> linarith
      rw [hfloor] at heven
      exact Int.not_even_one ((Int.even_sub.mp heven).mp hn)
    · intro h
      linarith

end Integers

/-! ## Digits -/

/-- The multiple of `2 ^ e` that is nearest. -/
def roundAt (e : ℤ) (x : ℚ) : ℚ := roundEven (x / 2 ^ e) * 2 ^ e

/-- The place of the last of the digits of `x`, of which `p` stand after the leading one, or after the place `emin` of
the least leading one. -/
def lastPlace (p : Nat) (emin : ℤ) (x : ℚ) : ℤ := max (Int.log 2 |x|) emin - p

def roundTo (p : Nat) (emin : ℤ) (x : ℚ) : ℚ := roundAt (lastPlace p emin x) x

/-- The format of a `double`. -/
def binary64 (x : ℚ) : ℚ := roundTo 52 (-1022) x

section Digits

variable {p : Nat} {e emin k : ℤ} {x y : ℚ}

theorem roundAt_mono (e : ℤ) : Monotone (roundAt e) := by
  intro x y h
  have hpos : (0 : ℚ) < 2 ^ e := by positivity
  have hle : roundEven (x / 2 ^ e) ≤ roundEven (y / 2 ^ e) := roundEven_mono (by gcongr)
  unfold roundAt
  gcongr

theorem roundAt_two_pow (h : e ≤ k) : roundAt e (2 ^ k) = 2 ^ k := by
  obtain ⟨d, rfl⟩ := Int.le.dest h
  have hdiv : (2 : ℚ) ^ (e + d) / 2 ^ e = ((2 ^ d : ℤ) : ℚ) := by
    rw [zpow_add₀ two_ne_zero, mul_div_cancel_left₀ _ (by positivity)]
    push_cast
    exact zpow_natCast 2 d
  rw [roundAt, hdiv, roundEven_intCast, ← hdiv, div_mul_cancel₀ _ (by positivity)]

theorem two_pow_eq (k : ℤ) : (2 : ℚ) ^ k = 2 * 2 ^ (k - 1) := by
  rw [← zpow_one_add₀ two_ne_zero]
  congr 1
  omega

/-- Half of the place is missing to a power of two where it is reached. -/
theorem roundAt_lt_two_pow (h : e < k) : roundAt e x < 2 ^ k ↔ x < 2 ^ k - 2 ^ (e - 1) := by
  have hpos : (0 : ℚ) < 2 ^ e := by positivity
  have hhalf := two_pow_eq e
  obtain ⟨d, rfl⟩ := Int.le.dest (Int.add_one_le_iff.mpr h)
  have hscale : (2 : ℚ) ^ (e + 1 + d) = ((2 ^ (d + 1) : ℤ) : ℚ) * 2 ^ e := by
    push_cast
    rw [← zpow_natCast, ← zpow_add₀ two_ne_zero]
    congr 1
    push_cast
    omega
  have heven : Even ((2 : ℤ) ^ (d + 1)) := even_two.pow_of_ne_zero (Nat.succ_ne_zero d)
  rw [roundAt, hscale, mul_lt_mul_iff_of_pos_right hpos, Int.cast_lt, roundEven_lt heven, div_lt_iff₀ hpos, sub_mul]
  constructor <;> intro h <;> linarith

/-! ## The leading digit -/

theorem log_two_pow (k : ℤ) : Int.log 2 ((2 : ℚ) ^ k) = k := by
  exact_mod_cast Int.log_zpow (R := ℚ) Nat.one_lt_two k

theorem two_pow_log_le (hx : 0 < x) : (2 : ℚ) ^ Int.log 2 x ≤ x := by
  exact_mod_cast Int.zpow_log_le_self Nat.one_lt_two hx

theorem lt_two_pow_log (x : ℚ) : x < (2 : ℚ) ^ (Int.log 2 x + 1) := by
  exact_mod_cast Int.lt_zpow_succ_log_self Nat.one_lt_two x

@[simp] theorem roundTo_zero : roundTo p emin 0 = 0 := by
  rw [roundTo, roundAt, zero_div, roundEven_zero, Int.cast_zero, zero_mul]

theorem roundTo_nonneg (hx : 0 ≤ x) : 0 ≤ roundTo p emin x := by
  have h : roundEven 0 ≤ roundEven (x / 2 ^ lastPlace p emin x) := roundEven_mono (by positivity)
  rw [roundEven_zero] at h
  have hcast : (0 : ℚ) ≤ (roundEven (x / 2 ^ lastPlace p emin x) : ℚ) := by exact_mod_cast h
  unfold roundTo roundAt
  positivity

/-- A power of two that `x` does not exceed. -/
theorem roundTo_le_two_pow (hk : emin ≤ k) (hx : 0 < x) (h : x ≤ 2 ^ k) : roundTo p emin x ≤ 2 ^ k := by
  have hlog : Int.log 2 |x| ≤ k := by
    rw [abs_of_pos hx, ← log_two_pow k]
    exact Int.log_mono_right hx h
  have hplace : lastPlace p emin x ≤ k := by
    unfold lastPlace
    omega
  calc roundTo p emin x ≤ roundAt (lastPlace p emin x) (2 ^ k) := roundAt_mono _ h
    _ = 2 ^ k := roundAt_two_pow hplace

theorem two_pow_le_roundTo (hk : emin ≤ k) (h : (2 : ℚ) ^ k ≤ x) : 2 ^ k ≤ roundTo p emin x := by
  have hx : 0 < x := lt_of_lt_of_le (by positivity) h
  have hlog : k ≤ Int.log 2 x := by
    rw [← log_two_pow k]
    exact Int.log_mono_right (by positivity) h
  have hplace : lastPlace p emin x ≤ Int.log 2 x := by
    rw [lastPlace, abs_of_pos hx]
    omega
  calc (2 : ℚ) ^ k ≤ 2 ^ Int.log 2 x := zpow_le_zpow_right₀ one_le_two hlog
    _ = roundAt (lastPlace p emin x) (2 ^ Int.log 2 x) := (roundAt_two_pow hplace).symm
    _ ≤ roundTo p emin x := roundAt_mono _ (two_pow_log_le hx)

theorem roundTo_mono (hx : 0 ≤ x) (h : x ≤ y) : roundTo p emin x ≤ roundTo p emin y := by
  rcases hx.eq_or_lt with rfl | hx
  · rw [roundTo_zero]
    exact roundTo_nonneg h
  have hy := hx.trans_le h
  have hlog : Int.log 2 x ≤ Int.log 2 y := Int.log_mono_right hx h
  by_cases hplace : lastPlace p emin x = lastPlace p emin y
  · unfold roundTo
    rw [hplace]
    exact roundAt_mono _ h
  · -- a power of two lies between the two
    have hlt : emin ≤ Int.log 2 y ∧ Int.log 2 x + 1 ≤ Int.log 2 y := by
      rw [lastPlace, lastPlace, abs_of_pos hx, abs_of_pos hy] at hplace
      omega
    have hxle : x ≤ 2 ^ Int.log 2 y := (lt_two_pow_log x).le.trans (zpow_le_zpow_right₀ one_le_two hlt.2)
    exact (roundTo_le_two_pow hlt.1 hx hxle).trans (two_pow_le_roundTo hlt.1 (two_pow_log_le hy))

/-- Half of the last place before a power of two is missing to it where it is reached. -/
theorem roundTo_lt_two_pow (hk : emin < k) (hx : 0 ≤ x) :
    roundTo p emin x < 2 ^ k ↔ x < 2 ^ k - 2 ^ (k - p - 2) := by
  have hhalf : (2 : ℚ) ^ (k - p - 2) ≤ 2 ^ (k - 2) := zpow_le_zpow_right₀ one_le_two (by omega)
  have hsmall : (0 : ℚ) < 2 ^ (k - p - 2) := by positivity
  have hpos : (0 : ℚ) < 2 ^ (k - 2) := by positivity
  have hk1 := two_pow_eq k
  have hk2 : (2 : ℚ) ^ (k - 1) = 2 * 2 ^ (k - 2) := by
    have h := two_pow_eq (k - 1)
    rwa [sub_sub] at h
  rcases hx.eq_or_lt with rfl | hx
  · rw [roundTo_zero]
    constructor <;> intro _ <;> linarith
  rcases lt_trichotomy (Int.log 2 x + 1) k with hlow | heq | hhigh
  · have hxk : x ≤ 2 ^ (k - 1) := (lt_two_pow_log x).le.trans (zpow_le_zpow_right₀ one_le_two (by omega))
    have hround : roundTo p emin x ≤ 2 ^ (k - 1) := roundTo_le_two_pow (by omega) hx hxk
    constructor <;> intro _ <;> linarith
  · -- the last place is that of the numbers just below the power
    have hplace : lastPlace p emin x = k - p - 1 := by
      rw [lastPlace, abs_of_pos hx]
      omega
    have hlt : k - p - 1 < k := by omega
    rw [roundTo, hplace, roundAt_lt_two_pow hlt, sub_sub (k - (p : ℤ))]
    rfl
  · have hxk : 2 ^ k ≤ x := (zpow_le_zpow_right₀ one_le_two (by omega)).trans (two_pow_log_le hx)
    have hround : 2 ^ k ≤ roundTo p emin x := two_pow_le_roundTo hk.le hxk
    constructor <;> intro _ <;> linarith

theorem binary64_lt_two_pow (hk : -1022 < k) (hx : 0 ≤ x) : binary64 x < 2 ^ k ↔ x < 2 ^ k - 2 ^ (k - 54) := by
  have hplace : k - (52 : Nat) - 2 = k - 54 := by omega
  rw [← hplace]
  exact roundTo_lt_two_pow hk hx

end Digits

end Sys
