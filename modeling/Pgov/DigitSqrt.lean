import Mathlib.Tactic

namespace Pgov.DigitSqrt

/-- The digit-by-digit square root in base 4: `k` digits are left, the next one weighs `4 ^ (k-1)`,
and `val` is what the root found so far leaves over. -/
def digits : ℕ → ℕ → ℕ → ℕ
  | 0, _, res => res
  | k + 1, val, res =>
    if val ≥ res + 4 ^ k then digits k (val - (res + 4 ^ k)) (res / 2 + 4 ^ k)
    else digits k val (res / 2)

theorem half_scaled (k r : ℕ) : 2 ^ (k + 1) * r / 2 = 2 ^ k * r := by
  rw [pow_succ, mul_comm (2 ^ k) 2, mul_assoc, Nat.mul_div_cancel_left _ (by norm_num)]

/-- `r` is what the root of `n` has of its digits from `2 ^ k` up. -/
structure Partial (n k r val res : ℕ) : Prop where
  low : r * r ≤ n
  high : n < (r + 2 ^ k) * (r + 2 ^ k)
  val_eq : val = n - r * r
  res_eq : res = 2 ^ k * r

variable {n k r val res : ℕ}

theorem square_digit (k r : ℕ) :
    (r + 2 ^ k) * (r + 2 ^ k) = r * r + (2 ^ (k + 1) * r + 4 ^ k) := by
  have h4 : 4 ^ k = 2 ^ k * 2 ^ k := (mul_pow 2 2 k)
  rw [h4, pow_succ]
  ring

theorem Partial.take (h : Partial n (k + 1) r val res) (htake : val ≥ res + 4 ^ k) :
    Partial n k (r + 2 ^ k) (val - (res + 4 ^ k)) (res / 2 + 4 ^ k) := by
  have h4 : 4 ^ k = 2 ^ k * 2 ^ k := (mul_pow 2 2 k)
  have hsq := square_digit k r
  have hlow := h.low
  rw [h.val_eq, h.res_eq] at htake ⊢
  refine ⟨by omega, ?_, by omega, ?_⟩
  · have hstep : r + 2 ^ k + 2 ^ k = r + 2 ^ (k + 1) := by
      rw [pow_succ]
      omega
    rw [hstep]
    exact h.high
  · rw [half_scaled, h4]
    ring

theorem Partial.skip (h : Partial n (k + 1) r val res) (hskip : ¬val ≥ res + 4 ^ k) :
    Partial n k r val (res / 2) := by
  have hsq := square_digit k r
  have hlow := h.low
  refine ⟨hlow, ?_, h.val_eq, ?_⟩
  · rw [h.val_eq, h.res_eq] at hskip
    omega
  · rw [h.res_eq, half_scaled]

theorem Partial.root (h : Partial n 0 r val res) : res = Nat.sqrt n := by
  rw [h.res_eq, pow_zero, one_mul]
  exact Nat.eq_sqrt.mpr ⟨h.low, h.high⟩

theorem partial_start (h : n < 4 ^ k) : Partial n k 0 n 0 := by
  have h4 : 4 ^ k = 2 ^ k * 2 ^ k := (mul_pow 2 2 k)
  exact ⟨by simp, by simpa [h4] using h, by simp, by simp⟩

theorem Partial.digits_eq (h : Partial n k r val res) : digits k val res = Nat.sqrt n := by
  induction k generalizing r val res with
  | zero => exact h.root
  | succ k ih =>
    rw [digits]
    by_cases htake : val ≥ res + 4 ^ k
    · rw [if_pos htake]
      exact ih (h.take htake)
    · rw [if_neg htake]
      exact ih (h.skip htake)

theorem digits_sqrt (h : n < 4 ^ k) : digits k n 0 = Nat.sqrt n := (partial_start h).digits_eq

end Pgov.DigitSqrt
