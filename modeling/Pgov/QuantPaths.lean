import Pgov.PgMath

namespace Pgov

open Quantise

/-- None of the products and sums of either path wraps. -/
structure QuantFits (val : ℤ) (step : ℕ) : Prop where
  scaled : val * 1000000 < 2 ^ 64
  half : toNs val + step / 2 < 2 ^ 64
  whole : toNs val + step < 2 ^ 64

section Paths

variable {val : ℤ} {step : ℕ}

theorem quantFits (h : val ≤ 2147483647) (hstep : step < 2 ^ 63) : QuantFits val step := by
  have hns := toNs_lt h
  exact ⟨by omega, by omega, by omega⟩

theorem quantRemainder_isNearest (h : QuantFits val step) (hpos : 0 < step) (heven : 2 ∣ step) :
    IsNearest step (toNs val) (quantRemainder (toNs val) step) := by
  have hwrap : (toNs val + step - toNs val % step) % 2 ^ 64 = toNs val + step - toNs val % step :=
    Nat.mod_eq_of_lt ((Nat.sub_le _ _).trans_lt h.whole)
  simp only [quantRemainder, hwrap]
  exact remainder_isNearest hpos heven (toNs val)

theorem exists_exponent (hpow : ∃ k, step = 2 ^ k) (hlow : 2 ≤ step) (hhigh : step < 2 ^ 63) :
    ∃ k, 0 < k ∧ k ≤ 62 ∧ step = 2 ^ k := by
  obtain ⟨k, rfl⟩ := hpow
  have hone : 1 ≤ k := (Nat.pow_le_pow_iff_right (by norm_num : 1 < 2)).mp hlow
  have htop : k < 63 := (Nat.pow_lt_pow_iff_right (by norm_num : 1 < 2)).mp hhigh
  exact ⟨k, hone, by omega, rfl⟩

/-- On the steps that are powers of two, where the remainder path is not taken. -/
theorem quantiser_paths_agree (h0 : 0 ≤ val) (h : val ≤ int32Max) (hpow : ∃ k, step = 2 ^ k)
    (hlow : 2 ≤ step) (hhigh : step < 2 ^ 63) (fallback : ℤ) :
    QuantFits val step ∧
      pgMathSanQuantU64 val fallback step = quantBitwise (sanNs val fallback) step ∧
      quantBitwise (sanNs val fallback) step = quantRemainder (sanNs val fallback) step ∧
      IsNearest step (val * 1000000 / 2 ^ 16).toNat (pgMathSanQuantU64 val fallback step) ∧
      ∀ val', val ≤ val' → val' ≤ int32Max →
        pgMathSanQuantU64 val fallback step ≤ pgMathSanQuantU64 val' fallback step := by
  have hfits := quantFits h hhigh
  obtain ⟨k, hk, hk', rfl⟩ := exists_exponent hpow hlow hhigh
  have hns := sanNs_eq h0 h fallback
  have hquant := sanQuantU64_eq h0 h fallback hk hk'
  have hbit := quantBitwise_eq (toNs_lt h) hk'
  have hnear := nearest_isNearest hk (toNs val)
  refine ⟨hfits, ?_, ?_, ?_, ?_⟩
  · rw [hquant, hns, hbit]
  · have hrem := quantRemainder_isNearest hfits (by omega) (dvd_pow_self 2 hk.ne')
    rw [hns, hbit]
    exact hnear.unique hrem
  · rw [hquant]
    exact hnear
  · intro val' hle h'
    rw [hquant, sanQuantU64_eq (h0.trans hle) h' fallback hk hk']
    exact hnear.mono (nearest_isNearest hk (toNs val')) (toNs_mono hle)

theorem quantiser_paths_agree_tie :
    QuantFits 8192 16 ∧
      pgMathSanQuantU64 8192 0 16 = quantBitwise (sanNs 8192 0) 16 ∧
      quantBitwise (sanNs 8192 0) 16 = quantRemainder (sanNs 8192 0) 16 ∧
      IsNearest 16 (8192 * 1000000 / 2 ^ 16 : ℤ).toNat (pgMathSanQuantU64 8192 0 16) ∧
      ∀ val' : ℤ, 8192 ≤ val' → val' ≤ int32Max →
        pgMathSanQuantU64 8192 0 16 ≤ pgMathSanQuantU64 val' 0 16 :=
  quantiser_paths_agree (by norm_num) (by norm_num) ⟨4, rfl⟩ (by norm_num) (by norm_num) 0

end Paths

end Pgov
