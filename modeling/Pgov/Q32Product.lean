import Pgov.PgMath

namespace Pgov

open FixedWidth

/-- The build without 128-bit integers: four 32-bit partial products, and a correction for each
negative factor. -/
def q32MulFallback (a b : ℤ) : ℤ :=
  let al := u32 a
  let ah := u64 a / 2 ^ 32
  let bl := u32 b
  let bh := u64 b / 2 ^ 32
  let ll := u64 (al * bl)
  let hl := u64 (ah * bl)
  let lh := u64 (al * bh)
  let hh := u64 (ah * bh)
  let mid := u64 (u64 (hl + lh) + ll / 2 ^ 32)
  let res := u64 (u64 (hh * 2 ^ 32) + mid)
  let res := if a < 0 then u64 (res - u64 (u64 b * 2 ^ 32)) else res
  let res := if b < 0 then u64 (res - u64 (u64 a * 2 ^ 32)) else res
  i64 res

theorem mul_halves_shift (al ah bl bh : ℤ) :
    (2 ^ 32 * ah + al) * (2 ^ 32 * bh + bl) / 2 ^ 32 =
      2 ^ 32 * (ah * bh) + (ah * bl + al * bh) + al * bl / 2 ^ 32 := by
  have hexp : (2 ^ 32 * ah + al) * (2 ^ 32 * bh + bl) =
      al * bl + 2 ^ 32 * (2 ^ 32 * (ah * bh) + (ah * bl + al * bh)) := by ring
  rw [hexp, Int.add_mul_ediv_left _ _ (by norm_num)]
  ring

theorem partial_sum_emod {al bl : ℤ} (ah bh : ℤ) (hll : 0 ≤ al * bl) (hlt : al * bl < 2 ^ 64) :
    u64 (u64 (u64 (ah * bh) * 2 ^ 32) +
        u64 (u64 (u64 (ah * bl) + u64 (al * bh)) + u64 (al * bl) / 2 ^ 32)) =
      u64 ((2 ^ 32 * ah + al) * (2 ^ 32 * bh + bl) / 2 ^ 32) := by
  rw [mul_halves_shift, u64_eq hll (by norm_num at hlt ⊢; omega)]
  simp only [u64]
  generalize al * bl / 2 ^ 32 = c
  generalize ah * bh = hh
  generalize ah * bl = hl
  generalize al * bh = lh
  omega

theorem eq_u64_sub {a : ℤ} (h : Fits 64 a) : a = u64 a - if a < 0 then 2 ^ 64 else 0 := by
  obtain ⟨hl, hu⟩ := fits64_iff.mp h
  rw [u64]
  split_ifs <;> omega

theorem signed_shift {a b : ℤ} (ha : Fits 64 a) (hb : Fits 64 b) :
    (a * b / 2 ^ 32) % 2 ^ 64 =
      (u64 a * u64 b / 2 ^ 32 - (if a < 0 then u64 b * 2 ^ 32 else 0) -
        if b < 0 then u64 a * 2 ^ 32 else 0) % 2 ^ 64 := by
  have hprod : a * b = u64 a * u64 b + 2 ^ 32 *
      (-(if a < 0 then u64 b * 2 ^ 32 else 0) - (if b < 0 then u64 a * 2 ^ 32 else 0) +
        2 ^ 64 * if a < 0 ∧ b < 0 then 2 ^ 32 else 0) := by
    conv_lhs => rw [eq_u64_sub ha, eq_u64_sub hb]
    by_cases hna : a < 0
    · by_cases hnb : b < 0
      · rw [if_pos hna, if_pos hnb, if_pos hna, if_pos hnb, if_pos ⟨hna, hnb⟩]
        ring
      · rw [if_pos hna, if_neg hnb, if_pos hna, if_neg hnb, if_neg (fun h => hnb h.2)]
        ring
    · by_cases hnb : b < 0
      · rw [if_neg hna, if_pos hnb, if_neg hna, if_pos hnb, if_neg (fun h => hna h.1)]
        ring
      · rw [if_neg hna, if_neg hnb, if_neg hna, if_neg hnb, if_neg (fun h => hna h.1)]
        ring
  rw [hprod, Int.add_mul_ediv_left _ _ (by norm_num)]
  omega

theorem q32MulFallback_eq {a b : ℤ} (ha : Fits 64 a) (hb : Fits 64 b) :
    q32MulFallback a b = i64 (a * b / 2 ^ 32) := by
  have hhalves (x : ℤ) : 2 ^ 32 * (u64 x / 2 ^ 32) + u32 x = u64 x := by
    rw [u64, u32]
    omega
  have hlow (x : ℤ) : 0 ≤ u32 x ∧ u32 x < 2 ^ 32 := by
    rw [u32]
    omega
  have hll : u32 a * u32 b < 2 ^ 64 := by
    have := hlow a
    have := hlow b
    nlinarith
  have hsum := partial_sum_emod (u64 a / 2 ^ 32) (u64 b / 2 ^ 32)
    (mul_nonneg (hlow a).1 (hlow b).1) hll
  rw [hhalves, hhalves] at hsum
  simp only [q32MulFallback, hsum]
  apply narrow_congr
  rw [signed_shift ha hb]
  generalize u64 a * u64 b / 2 ^ 32 = p
  by_cases hna : a < 0
  · by_cases hnb : b < 0
    · simp only [hna, hnb, ↓reduceIte, u64]
      omega
    · simp only [hna, hnb, ↓reduceIte, u64]
      omega
  · by_cases hnb : b < 0
    · simp only [hna, hnb, ↓reduceIte, u64]
      omega
    · simp only [hna, hnb, ↓reduceIte, u64]
      omega

/-- Both builds multiply alike, and as the exact product rounded down does modulo 2^64. -/
theorem q32Mul_agree {a b : ℤ} (ha : Fits 64 a) (hb : Fits 64 b) :
    q32MulFallback a b = q32Mul a b ∧ q32Mul a b = i64 (a * b / 2 ^ 32) := by
  have h := q32Mul_eq_i64 a b
  exact ⟨(q32MulFallback_eq ha hb).trans h.symm, h⟩

theorem q32Mul_agree_min :
    q32MulFallback (-9223372036854775808) (-1) = q32Mul (-9223372036854775808) (-1) ∧
      q32Mul (-9223372036854775808) (-1) = i64 (-9223372036854775808 * -1 / 2 ^ 32) :=
  q32Mul_agree (by decide) (by decide)

end Pgov
