import Pgov.PgMath
import Pgov.Rounding

namespace Pgov

open FixedWidth Rounding

structure AlgSigFits (x : ℤ) : Prop where
  sq : Fits 32 (x * x / 2 ^ 16)
  den : Fits 32 (q16One + x * x / 2 ^ 16)
  root : Fits 32 (pgMathIsqrt64 ((q16One + x * x / 2 ^ 16).toNat <<< 16))
  quot : Fits 32 ((x * q16One).tdiv (pgMathQ16Sqrt (q16One + x * x / 2 ^ 16)))

def algSigDen (x : ℤ) : ℤ := pgMathQ16Sqrt (q16One + x * x / 2 ^ 16)

theorem cutOff_eq : intToQ16 180 = 11796480 := by decide

theorem q16One_eq : q16One = 65536 := rfl

section BelowCutOff

variable {x : ℤ}

theorem sq_shift_bounds (hx : |x| < 11796480) :
    0 ≤ x * x / 2 ^ 16 ∧ x * x / 2 ^ 16 ≤ 2123366399 := by
  have h0 : 0 ≤ x * x := mul_self_nonneg x
  have hsq : |x| * |x| ≤ 11796479 * 11796479 :=
    mul_le_mul (by omega) (by omega) (abs_nonneg x) (by norm_num)
  rw [abs_mul_abs_self] at hsq
  omega

theorem algSigDen_spec (hx : |x| < 11796480) :
    65536 ≤ algSigDen x ∧ |x| ≤ algSigDen x ∧ algSigDen x ^ 2 ≤ 65536 ^ 2 + |x| ^ 2 ∧
      65536 ^ 2 + |x| ^ 2 ≤ algSigDen x ^ 2 + 3 * algSigDen x := by
  obtain ⟨hs0, hs1⟩ := sq_shift_bounds hx
  have hone := q16One_eq
  obtain ⟨hd0, hlow, hhigh⟩ := q16Sqrt_spec (show 0 ≤ q16One + x * x / 2 ^ 16 by omega) (by omega)
  rw [← algSigDen] at hd0 hlow hhigh
  have hfloor : x * x / 2 ^ 16 * 65536 ≤ x * x ∧ x * x < x * x / 2 ^ 16 * 65536 + 65536 := by omega
  obtain ⟨hf0, hf1⟩ := hfloor
  rw [sq_abs, pow_two x, pow_two (algSigDen x)]
  generalize algSigDen x = d at hd0 hlow hhigh ⊢
  have hd : 65536 ≤ d := by
    by_contra hlt
    have : (d + 1) * (d + 1) ≤ 65536 * 65536 :=
      mul_le_mul (by omega) (by omega) (by omega) (by norm_num)
    omega
  refine ⟨hd, ?_, by omega, by linarith⟩
  have hle : x * x < (d + 1) * (d + 1) := by omega
  have habs : |x| * |x| < (d + 1) * (d + 1) := by rwa [abs_mul_abs_self]
  have := lt_of_mul_self_lt_mul_self₀ (show 0 ≤ d + 1 by omega) habs
  omega

theorem algSig_quot_le (hx : |x| < 11796480) : |(x * 65536).tdiv (algSigDen x)| ≤ 65536 := by
  obtain ⟨hd, hxd, -, -⟩ := algSigDen_spec hx
  rw [abs_tdiv_scaled (by norm_num) (by omega), Int.ediv_le_iff_le_mul (by omega)]
  linarith

theorem algSig_fits (hx : |x| < 11796480) : AlgSigFits x := by
  obtain ⟨hs0, hs1⟩ := sq_shift_bounds hx
  have hone := q16One_eq
  have hquot := abs_le.mp (algSig_quot_le hx)
  refine ⟨fits32_iff.mpr ⟨by omega, by omega⟩, fits32_iff.mpr ⟨by omega, by omega⟩, ?_, ?_⟩
  · have hle := Nat.sqrt_le ((q16One + x * x / 2 ^ 16).toNat * 2 ^ 16)
    rw [isqrt64_eq, Nat.shiftLeft_eq, fits32_iff]
    generalize Nat.sqrt _ = r at hle
    have hr : r ≤ 11796662 := by
      by_contra hgt
      have : 11796663 * 11796663 ≤ r * r := Nat.mul_le_mul (by omega) (by omega)
      omega
    omega
  · rw [← algSigDen, fits32_iff]
    change -2147483648 ≤ (x * 65536).tdiv (algSigDen x) ∧ (x * 65536).tdiv (algSigDen x) ≤ _
    omega

theorem algSig_eq (hx : |x| < 11796480) : pgMathAlgSig x = (x * 65536).tdiv (algSigDen x) := by
  obtain ⟨hl, hu⟩ := abs_lt.mp hx
  have hfits := algSig_fits hx
  obtain ⟨hd, -, -, -⟩ := algSigDen_spec hx
  have hsq : q16Mul x x = x * x / 2 ^ 16 := i32_of_fits hfits.sq
  have hden : pgMathQ16Sqrt (i32 (q16One + q16Mul x x)) = algSigDen x := by
    rw [hsq, i32_of_fits hfits.den, algSigDen]
  have hquot : q16Div x (algSigDen x) = (x * 65536).tdiv (algSigDen x) := by
    rw [q16Div, if_neg (by omega)]
    exact i32_of_fits hfits.quot
  rw [pgMathAlgSig, cutOff_eq, if_neg (by omega), if_neg (by omega)]
  simp only [hden, hquot]
  rw [if_neg (by omega)]

theorem algSigDen_neg (x : ℤ) : algSigDen (-x) = algSigDen x := by rw [algSigDen, neg_mul_neg, algSigDen]

end BelowCutOff

theorem algSig_of_ge {x : ℤ} (hx : 11796480 ≤ x) : pgMathAlgSig x = 65536 := by
  rw [pgMathAlgSig, cutOff_eq, if_pos hx]

theorem algSig_of_le {x : ℤ} (hx : x ≤ -11796480) : pgMathAlgSig x = -65536 := by
  rw [pgMathAlgSig, cutOff_eq, if_neg (by omega), if_pos hx]

theorem algSig_neg (x : ℤ) : pgMathAlgSig (-x) = -pgMathAlgSig x := by
  rcases lt_or_ge |x| 11796480 with hx | hx
  · have hx' : |-x| < 11796480 := by rwa [abs_neg]
    rw [algSig_eq hx, algSig_eq hx', algSigDen_neg, neg_mul, Int.neg_tdiv]
  · rcases le_abs.mp hx with hpos | hneg
    · rw [algSig_of_ge hpos, algSig_of_le (by omega)]
    · rw [algSig_of_ge hneg, algSig_of_le (by omega), neg_neg]

theorem algSig_sign (x : ℤ) : (pgMathAlgSig x).sign = x.sign ∨ pgMathAlgSig x = 0 := by
  have hpos {y : ℤ} (hy : 0 ≤ y) : 0 ≤ pgMathAlgSig y := by
    rcases lt_or_ge y 11796480 with hlt | hge
    · rw [algSig_eq (by rwa [abs_of_nonneg hy])]
      have hd := (algSigDen_spec (x := y) (by rwa [abs_of_nonneg hy])).1
      exact Int.tdiv_nonneg (by omega) (by omega)
    · rw [algSig_of_ge hge]
      norm_num
  rcases lt_trichotomy x 0 with hx | rfl | hx
  · have hneg := hpos (show 0 ≤ -x by omega)
    rw [algSig_neg] at hneg
    rw [Int.sign_eq_neg_one_of_neg hx]
    by_cases h0 : pgMathAlgSig x = 0
    · exact Or.inr h0
    · exact Or.inl (Int.sign_eq_neg_one_of_neg (by omega))
  · right
    decide
  · have hnonneg := hpos hx.le
    rw [Int.sign_eq_one_of_pos hx]
    by_cases h0 : pgMathAlgSig x = 0
    · exact Or.inr h0
    · exact Or.inl (Int.sign_eq_one_of_pos (by omega))

theorem algSig_close {x : ℤ} :
    |pgMathAlgSig x| ≤ 65536 ∧
      max (|pgMathAlgSig x| - 2) 0 ^ 2 * (2 ^ 32 + x ^ 2) ≤ x ^ 2 * 2 ^ 32 ∧
      x ^ 2 * 2 ^ 32 ≤ (|pgMathAlgSig x| + 2) ^ 2 * (2 ^ 32 + x ^ 2) := by
  rcases lt_or_ge |x| 11796480 with hx | hx
  · obtain ⟨hd, hxd, hlow, hhigh⟩ := algSigDen_spec hx
    have habs : |pgMathAlgSig x| = |x| * 65536 / algSigDen x := by
      rw [algSig_eq hx, abs_tdiv_scaled (by norm_num) (by omega)]
    have h0 : 0 ≤ |x| * 65536 / algSigDen x := Int.ediv_nonneg (by positivity) (by omega)
    have hlower := hypot_quot_le (by omega) hhigh (abs_nonneg x) hd hxd
    have hupper := le_hypot_quot (abs_nonneg x) (by norm_num) (by omega) hlow
    rw [sq_abs] at hlower hupper
    rw [habs]
    refine ⟨?_, hlower, hupper.trans ?_⟩
    · rw [← habs, algSig_eq hx]
      exact algSig_quot_le hx
    · apply mul_le_mul_of_nonneg_right _ (by positivity)
      exact pow_le_pow_left₀ (by omega) (by omega) 2
  · have habs : |pgMathAlgSig x| = 65536 := by
      rcases le_abs.mp hx with hpos | hneg
      · rw [algSig_of_ge hpos]
        norm_num
      · rw [algSig_of_le (by omega)]
        norm_num
    have hsq : 11796480 ^ 2 ≤ x ^ 2 := by
      rw [← sq_abs x]
      exact pow_le_pow_left₀ (by norm_num) hx 2
    rw [habs]
    refine ⟨le_rfl, ?_, ?_⟩
    · norm_num
      linarith
    · norm_num
      linarith

/-- Holds of any integer; above `INT32_MIN` the negation is one of `q16_t`. -/
theorem algSig_accurate (x : ℤ) :
    (|x| < intToQ16 180 → AlgSigFits x) ∧ |pgMathAlgSig x| ≤ q16One ∧
      ((pgMathAlgSig x).sign = x.sign ∨ pgMathAlgSig x = 0) ∧
      (int32Min < x → pgMathAlgSig (-x) = -pgMathAlgSig x) ∧
      max (|pgMathAlgSig x| - 2) 0 ^ 2 * (2 ^ 32 + x ^ 2) ≤ x ^ 2 * 2 ^ 32 ∧
      x ^ 2 * 2 ^ 32 ≤ (|pgMathAlgSig x| + 2) ^ 2 * (2 ^ 32 + x ^ 2) := by
  refine ⟨?_, algSig_close.1, algSig_sign x, fun _ => algSig_neg x, algSig_close.2⟩
  intro hlt
  rw [cutOff_eq] at hlt
  exact algSig_fits hlt

end Pgov
