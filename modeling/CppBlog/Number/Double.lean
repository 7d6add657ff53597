import Mathlib.Algebra.Order.Round
import Mathlib.Data.Rat.Floor
import Mathlib.Tactic.Linarith
import Mathlib.Tactic.FieldSimp
import Mathlib.Tactic.Positivity

set_option autoImplicit false

/-! # Rounding to a `double`

A number is a double when it has 53 significant bits. A rounding to nearest is described by what it is
compared with: no double is closer to the number. Ties and the range of the exponent do not matter here.
The ceiling of a quotient of two positive integers below `2 ^ 31` is that of its rounding: the quotient
is an integer, or it is further away from the next one below it than from some double. -/

namespace Double

/-- The rationals of 53 significant bits. -/
def IsDouble (x : ℚ) : Prop := ∃ (m e : ℤ), x = m * 2 ^ e ∧ |m| < 2 ^ 53

/-- `y` is a nearest double to `x`. -/
structure RoundsTo (x y : ℚ) : Prop where
  isDouble : IsDouble y
  nearest : ∀ z, IsDouble z → |y - x| ≤ |z - x|

theorem isDouble_intCast {n : ℤ} (h : |n| < 2 ^ 53) : IsDouble n := ⟨n, 0, by simp, h⟩

/-- A number of `k` binary places. -/
theorem isDouble_div {m : ℤ} (k : ℕ) (h : |m| < 2 ^ 53) : IsDouble (m / 2 ^ k) :=
  ⟨m, -k, by rw [zpow_neg, zpow_natCast, div_eq_mul_inv], h⟩

/-- A double is its own rounding. -/
theorem RoundsTo.eq_of_isDouble {x y : ℚ} (h : RoundsTo x y) (hx : IsDouble x) : y = x := by
  have hnear := h.nearest x hx
  rw [sub_self, abs_zero] at hnear
  exact sub_eq_zero.1 (abs_eq_zero.1 (le_antisymm hnear (abs_nonneg _)))

/-- The number cut behind `k` binary places is a double that is closer than `2⁻ᵏ`. -/
theorem exists_isDouble_near {x : ℚ} (hx : 0 ≤ x) (k : ℕ) (hk : x * 2 ^ k < 2 ^ 53) :
    ∃ z, IsDouble z ∧ |z - x| * 2 ^ k < 1 := by
  have hpow : (0 : ℚ) < 2 ^ k := by positivity
  have hfloor : (⌊x * 2 ^ k⌋ : ℚ) ≤ x * 2 ^ k := Int.floor_le _
  have hnext : x * 2 ^ k < ⌊x * 2 ^ k⌋ + 1 := Int.lt_floor_add_one _
  refine ⟨⌊x * 2 ^ k⌋ / 2 ^ k, isDouble_div k ?_, ?_⟩
  · rw [abs_of_nonneg (Int.floor_nonneg.2 (by positivity))]
    exact_mod_cast hfloor.trans_lt hk
  · have hcut : (⌊x * 2 ^ k⌋ / 2 ^ k - x) * 2 ^ k = ⌊x * 2 ^ k⌋ - x * 2 ^ k := by
      field_simp
    rw [← abs_of_pos hpow, ← abs_mul, abs_of_pos hpow, hcut, abs_lt]
    constructor <;> linarith

variable {a b : ℤ}

/-- A double closer to a quotient than `1 / b`. -/
theorem exists_isDouble_quotient (ha : 0 < a) (ha' : a < 2 ^ 31) (hb : 0 < b) (hb' : b < 2 ^ 31) :
    ∃ z, IsDouble z ∧ |z - a / b| * b < 1 := by
  have hbpos : (0 : ℚ) < b := by exact_mod_cast hb
  have hapos : (0 : ℚ) < a := by exact_mod_cast ha
  have hx : (0 : ℚ) ≤ a / b := by positivity
  have halt : (a : ℚ) < 2 ^ 31 := by exact_mod_cast ha'
  have hblt : (b : ℚ) < 2 ^ 31 := by exact_mod_cast hb'
  -- a large quotient has a small denominator, and needs fewer places
  by_cases hlarge : (a / b : ℚ) < 2 ^ 22
  · obtain ⟨z, hz, hnear⟩ := exists_isDouble_near hx 31 (by linarith)
    refine ⟨z, hz, lt_of_le_of_lt ?_ hnear⟩
    exact mul_le_mul_of_nonneg_left hblt.le (abs_nonneg _)
  · have hsmall : (b : ℚ) < 2 ^ 9 := by
      have hle := (le_div_iff₀ hbpos).1 (not_lt.1 hlarge)
      linarith
    have hquot : (a / b : ℚ) ≤ a := div_le_self hapos.le (by exact_mod_cast hb)
    obtain ⟨z, hz, hnear⟩ := exists_isDouble_near hx 9 (by linarith)
    refine ⟨z, hz, lt_of_le_of_lt ?_ hnear⟩
    exact mul_le_mul_of_nonneg_left hsmall.le (abs_nonneg _)

/-- **The ceiling of a quotient is the ceiling of its rounding.** -/
theorem ceil_of_roundsTo {y : ℚ} (ha : 0 < a) (ha' : a < 2 ^ 31) (hb : 0 < b) (hb' : b < 2 ^ 31)
    (h : RoundsTo (a / b) y) : ⌈y⌉ = ⌈(a / b : ℚ)⌉ := by
  have hbpos : (0 : ℚ) < b := by exact_mod_cast hb
  have hapos : (0 : ℚ) < a := by exact_mod_cast ha
  generalize hn : ⌈(a / b : ℚ)⌉ = n
  obtain ⟨hbelow, habove⟩ := Int.ceil_eq_iff.1 hn
  have hquot : (a / b : ℚ) ≤ a := div_le_self hapos.le (by exact_mod_cast hb)
  have hnpos : 0 < n := by
    rw [← hn]
    exact Int.ceil_pos.2 (by positivity)
  have hna : n ≤ a := by
    rw [← hn]
    exact Int.ceil_le.2 hquot
  have hdouble : IsDouble n := isDouble_intCast (by rw [abs_of_pos hnpos]; omega)
  rcases habove.eq_or_lt with heq | hlt
  · rw [h.eq_of_isDouble (heq ▸ hdouble), heq, Int.ceil_intCast]
  · refine Int.ceil_eq_iff.2 ⟨?_, ?_⟩
    · -- the quotient is at least 1 / b above the integer below it
      obtain ⟨z, hz, hnear⟩ := exists_isDouble_quotient ha ha' hb hb'
      have hgap : 1 ≤ (a / b - (n - 1)) * (b : ℚ) := by
        have hint : (n - 1) * b < a := by
          have hmul := mul_lt_mul_of_pos_right hbelow hbpos
          rw [div_mul_cancel₀ _ hbpos.ne'] at hmul
          exact_mod_cast hmul
        have hle : (n - 1) * b + 1 ≤ a := hint
        rw [sub_mul, div_mul_cancel₀ _ hbpos.ne']
        have hcast : ((n : ℚ) - 1) * b + 1 ≤ a := by exact_mod_cast hle
        linarith
      have hdist := h.nearest z hz
      have hclose : |z - a / b| < a / b - (n - 1) :=
        lt_of_mul_lt_mul_right (hnear.trans_le hgap) hbpos.le
      have hleft := neg_abs_le (y - a / b)
      linarith
    · have hdist := h.nearest n hdouble
      rw [abs_of_nonneg (sub_nonneg.2 habove)] at hdist
      have hright := le_abs_self (y - a / b)
      linarith

end Double
