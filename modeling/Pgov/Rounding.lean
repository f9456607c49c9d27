import Mathlib.Tactic

namespace Pgov.Rounding

theorem ediv_le_ediv_right_neg {n a b : ℤ} (hn : 0 ≤ n) (ha : 0 < a) (h : a ≤ b) :
    n / b ≤ n / a := by
  rw [Int.le_ediv_iff_mul_le ha]
  have hb : 0 < b := ha.trans_le h
  have hq : 0 ≤ n / b := Int.ediv_nonneg hn hb.le
  calc n / b * a ≤ n / b * b := by gcongr
    _ ≤ n := Int.ediv_mul_le n hb.ne'

theorem scaled_mem {x y k lo hi : ℤ} (hx : lo ≤ x ∧ x ≤ hi) (hy : 0 ≤ y ∧ y ≤ k)
    (h0 : lo ≤ 0 ∧ 0 ≤ hi) : lo * k ≤ x * y ∧ x * y ≤ hi * k := by
  constructor
  · calc lo * k ≤ lo * y := mul_le_mul_of_nonpos_left hy.2 h0.1
      _ ≤ x * y := mul_le_mul_of_nonneg_right hx.1 hy.1
  · calc x * y ≤ hi * y := mul_le_mul_of_nonneg_right hx.2 hy.1
      _ ≤ hi * k := mul_le_mul_of_nonneg_left hy.2 h0.2

theorem mul_ediv_mono {a b k c : ℤ} (hc : 0 < c) (hk : 0 ≤ k) (h : a ≤ b) :
    a * k / c ≤ b * k / c := by
  apply Int.ediv_le_ediv hc
  gcongr

theorem share_mono {c a b : ℤ} (hc : 0 < c) (ha : 0 ≤ a) (h : a ≤ b) :
    a * c / (c + a) ≤ b * c / (c + b) := by
  rw [Int.le_ediv_iff_mul_le (by omega)]
  have hq := Int.ediv_mul_le (a * c) (show c + a ≠ 0 by omega)
  have hqc : a * c / (c + a) ≤ c := by
    rw [Int.ediv_le_iff_le_mul (by omega)]
    nlinarith
  generalize a * c / (c + a) = q at hq hqc
  calc q * (c + b) = q * (c + a) + q * (b - a) := by ring
    _ ≤ a * c + c * (b - a) := by nlinarith
    _ = b * c := by ring

theorem share_le {c a : ℤ} (hc : 0 < c) (ha : 0 ≤ a) : a * c / (c + a) ≤ c := by
  rw [Int.ediv_le_iff_le_mul (by omega)]
  nlinarith

theorem share_nonneg {c a : ℤ} (hc : 0 < c) (ha : 0 ≤ a) : 0 ≤ a * c / (c + a) :=
  Int.ediv_nonneg (by positivity) (by omega)

def squash (c x : ℤ) : ℤ := (x * c).tdiv (c + |x|)

theorem squash_of_nonneg {c x : ℤ} (hc : 0 < c) (hx : 0 ≤ x) : squash c x = x * c / (c + x) := by
  rw [squash, abs_of_nonneg hx, Int.tdiv_eq_ediv_of_nonneg (by positivity)]

theorem squash_of_neg {c x : ℤ} (hc : 0 < c) (hx : x < 0) :
    squash c x = -(-x * c / (c + -x)) := by
  have hneg : 0 ≤ -x * c := mul_nonneg (by omega) hc.le
  rw [squash, abs_of_neg hx, ← Int.tdiv_eq_ediv_of_nonneg hneg, neg_mul, Int.neg_tdiv, neg_neg]

theorem squash_mono {c x y : ℤ} (hc : 0 < c) (h : x ≤ y) : squash c x ≤ squash c y := by
  rcases lt_or_ge x 0 with hx | hx
  · rw [squash_of_neg hc hx]
    have hsx := share_nonneg hc (show 0 ≤ -x by omega)
    rcases lt_or_ge y 0 with hy | hy
    · rw [squash_of_neg hc hy]
      exact neg_le_neg (share_mono hc (by omega) (by omega))
    · rw [squash_of_nonneg hc hy]
      linarith [share_nonneg hc hy]
  · rw [squash_of_nonneg hc hx, squash_of_nonneg hc (hx.trans h)]
    exact share_mono hc hx h

theorem abs_squash_le {c : ℤ} (hc : 0 < c) (x : ℤ) : |squash c x| ≤ c := by
  rw [abs_le]
  rcases lt_or_ge x 0 with hx | hx
  · rw [squash_of_neg hc hx]
    have h0 := share_nonneg hc (show 0 ≤ -x by omega)
    have h1 := share_le hc (show 0 ≤ -x by omega)
    constructor <;> linarith
  · rw [squash_of_nonneg hc hx]
    have h0 := share_nonneg hc hx
    have h1 := share_le hc hx
    constructor <;> linarith

section Hypotenuse

variable {a c d : ℤ}

theorem abs_tdiv_scaled (hc : 0 ≤ c) (hd : 0 < d) (x : ℤ) :
    |(x * c).tdiv d| = |x| * c / d := by
  rcases le_total 0 x with hx | hx
  · have hpos : 0 ≤ x * c := mul_nonneg hx hc
    rw [abs_of_nonneg hx, Int.tdiv_eq_ediv_of_nonneg hpos, abs_of_nonneg]
    exact Int.ediv_nonneg hpos hd.le
  · have hpos : 0 ≤ -x * c := mul_nonneg (by omega) hc
    have hneg : (x * c).tdiv d = -(-x * c / d) := by
      rw [← Int.tdiv_eq_ediv_of_nonneg hpos, neg_mul, Int.neg_tdiv, neg_neg]
    rw [hneg, abs_neg, abs_of_nonpos hx, abs_of_nonneg]
    exact Int.ediv_nonneg hpos hd.le

/-- `a * c` over a `d` that is not above the hypotenuse of `a` and `c`. -/
theorem le_hypot_quot (ha : 0 ≤ a) (hc : 0 ≤ c) (hd : 0 < d) (h : d ^ 2 ≤ c ^ 2 + a ^ 2) :
    a ^ 2 * c ^ 2 ≤ (a * c / d + 1) ^ 2 * (c ^ 2 + a ^ 2) := by
  have hq0 : 0 ≤ a * c / d := Int.ediv_nonneg (mul_nonneg ha hc) hd.le
  have hq : a * c ≤ (a * c / d + 1) * d := by
    have := Int.lt_ediv_add_one_mul_self (a * c) hd
    omega
  calc a ^ 2 * c ^ 2 = (a * c) ^ 2 := by ring
    _ ≤ ((a * c / d + 1) * d) ^ 2 := pow_le_pow_left₀ (mul_nonneg ha hc) hq 2
    _ = (a * c / d + 1) ^ 2 * d ^ 2 := by ring
    _ ≤ (a * c / d + 1) ^ 2 * (c ^ 2 + a ^ 2) := mul_le_mul_of_nonneg_left h (sq_nonneg _)

/-- `a * c` over a `d` that is less than 3/2 below the hypotenuse. -/
theorem hypot_quot_le (hd : 0 < d) (h : c ^ 2 + a ^ 2 ≤ d ^ 2 + 3 * d) (ha : 0 ≤ a)
    (hcd : c ≤ d) (had : a ≤ d) :
    max (a * c / d - 2) 0 ^ 2 * (c ^ 2 + a ^ 2) ≤ a ^ 2 * c ^ 2 := by
  have hq : a * c / d * d ≤ a * c := Int.ediv_mul_le (a * c) hd.ne'
  have hqc : a * c / d ≤ d := by
    rw [Int.ediv_le_iff_le_mul hd]
    nlinarith
  generalize a * c / d = q at hq hqc
  rcases le_total q 2 with hq2 | hq2
  · rw [max_eq_right (by omega), zero_pow two_ne_zero, zero_mul]
    positivity
  · rw [max_eq_left (by omega)]
    have hgap : (q - 2) ^ 2 * (d + 3) ≤ q ^ 2 * d := by
      have hterm : 3 * ((q - 2) * (q - 2)) ≤ 3 * ((q - 2) * d) := by
        have := mul_le_mul_of_nonneg_left (show q - 2 ≤ d by omega) (show 0 ≤ q - 2 by omega)
        omega
      nlinarith
    calc (q - 2) ^ 2 * (c ^ 2 + a ^ 2) ≤ (q - 2) ^ 2 * (d ^ 2 + 3 * d) :=
          mul_le_mul_of_nonneg_left h (sq_nonneg _)
      _ = (q - 2) ^ 2 * (d + 3) * d := by ring
      _ ≤ q ^ 2 * d * d := mul_le_mul_of_nonneg_right hgap hd.le
      _ = (q * d) ^ 2 := by ring
      _ ≤ (a * c) ^ 2 := pow_le_pow_left₀ (mul_nonneg (by omega) hd.le) hq 2
      _ = a ^ 2 * c ^ 2 := by ring

end Hypotenuse

end Pgov.Rounding
