import Pgov.PsiMonitor

namespace Pgov

open FixedWidth

def psiDtUs (dtSec : ℤ) : ℤ := max 1 (dtSec * 1000000 / 65536)

def exactRate (lastTot curTot : ℕ) (dtSec : ℤ) : ℤ :=
  if curTot > lastTot then
    min (500 * 65536) (((curTot - lastTot : ℕ) : ℤ) * 6553600 / psiDtUs dtSec)
  else 0

/-- The scaled difference fits 64 bits, or what is left of it still saturates. -/
def RateFits (lastTot curTot : ℕ) (dtSec : ℤ) : Prop :=
  curTot ≤ lastTot ∨ (curTot - lastTot) * 6553600 < 2 ^ 64 ∨
    500 * 65536 * psiDtUs dtSec ≤ (((curTot - lastTot) * 6553600 % 2 ^ 64 : ℕ) : ℤ)

section Rate

variable {lastTot curTot : ℕ} {dtSec : ℤ}

theorem psiDtUs_bounds (hdt' : dtSec ≤ int32Max) :
    0 < psiDtUs dtSec ∧ psiDtUs dtSec ≤ 32768000000 := by
  rw [int32Max] at hdt'
  rw [psiDtUs]
  omega

theorem stallRate_eq (hdt : floatToQ16 1 1000 ≤ dtSec) (hdt' : dtSec ≤ int32Max)
    (h : curTot > lastTot) :
    stallRate lastTot curTot dtSec =
      min (500 * 65536) ((((curTot - lastTot) * 6553600 % 2 ^ 64 : ℕ) : ℤ) / psiDtUs dtSec) := by
  obtain ⟨hpos, hle⟩ := psiDtUs_bounds hdt'
  have hlow : 65 ≤ dtSec := hdt
  rw [int32Max] at hdt'
  have hus : (if u64 (u64 dtSec * 1000000) / 2 ^ 16 = 0 then 1
      else u64 (u64 dtSec * 1000000) / 2 ^ 16) = psiDtUs dtSec := by
    rw [u64_eq (x := dtSec) (by omega) (by omega), u64_eq (by omega) (by omega), psiDtUs]
    split_ifs <;> omega
  have hscale : u64 (u64 (((curTot - lastTot : ℕ) : ℤ) * 100) * 2 ^ 16) =
      (((curTot - lastTot) * 6553600 % 2 ^ 64 : ℕ) : ℤ) := by
    simp only [u64]
    omega
  rw [stallRate, if_pos h]
  simp only [hus, hscale]
  have hw : (0 : ℤ) ≤ (((curTot - lastTot) * 6553600 % 2 ^ 64 : ℕ) : ℤ) := Int.natCast_nonneg _
  generalize (((curTot - lastTot) * 6553600 % 2 ^ 64 : ℕ) : ℤ) = w at hw
  have hq := Int.ediv_nonneg hw hpos.le
  have hcap : intToQ16 500 = 32768000 := rfl
  rw [hcap]
  split_ifs with hbig
  · rw [min_eq_left (by omega)]
    norm_num
  · rw [i32_eq (by omega) (by omega), min_eq_right (by omega)]

theorem cap_le_of_wrap (hdt' : dtSec ≤ int32Max) {w : ℤ} (hw : 2 ^ 64 ≤ w) :
    500 * 65536 ≤ w / psiDtUs dtSec := by
  obtain ⟨hpos, hle⟩ := psiDtUs_bounds hdt'
  rw [Int.le_ediv_iff_mul_le hpos]
  linarith

theorem exact_iff (hdt : floatToQ16 1 1000 ≤ dtSec) (hdt' : dtSec ≤ int32Max) :
    stallRate lastTot curTot dtSec = exactRate lastTot curTot dtSec ↔
      RateFits lastTot curTot dtSec := by
  rcases Nat.lt_or_ge lastTot curTot with h | h
  · rw [stallRate_eq hdt hdt' h, exactRate, if_pos h, RateFits, or_iff_right (not_le.mpr h)]
    rcases Nat.lt_or_ge ((curTot - lastTot) * 6553600) (2 ^ 64) with hfits | hwrap
    · rw [Nat.mod_eq_of_lt hfits]
      push_cast
      exact iff_of_true rfl (Or.inl hfits)
    · have hcap := cap_le_of_wrap hdt' (w := ((curTot - lastTot : ℕ) : ℤ) * 6553600) (by omega)
      rw [min_eq_left hcap, min_eq_left_iff, Int.le_ediv_iff_mul_le (psiDtUs_bounds hdt').1,
        or_iff_right (not_lt.mpr hwrap)]
  · rw [stallRate, exactRate, if_neg (not_lt.mpr h), if_neg (not_lt.mpr h)]
    exact iff_of_true rfl (Or.inl h)

theorem exactRate_mono (hdt' : dtSec ≤ int32Max) {curTot' : ℕ} (h : curTot ≤ curTot') :
    exactRate lastTot curTot dtSec ≤ exactRate lastTot curTot' dtSec := by
  obtain ⟨hpos, -⟩ := psiDtUs_bounds hdt'
  have hnonneg (delta : ℕ) : 0 ≤ min (500 * 65536) ((delta : ℤ) * 6553600 / psiDtUs dtSec) :=
    le_min (by norm_num) (Int.ediv_nonneg (by positivity) hpos.le)
  rw [exactRate, exactRate]
  split_ifs with hcur hcur'
  · apply min_le_min_left
    apply Int.ediv_le_ediv hpos
    omega
  · omega
  · exact hnonneg _
  · exact le_rfl

/-- The stall rate is the exact one just when the scaled difference fits, and where it fits a
larger total never gives a smaller rate. -/
theorem stallRate_exact_iff (hdt : floatToQ16 1 1000 ≤ dtSec) (hdt' : dtSec ≤ int32Max) :
    (stallRate lastTot curTot dtSec = exactRate lastTot curTot dtSec ↔
        RateFits lastTot curTot dtSec) ∧
      ∀ curTot', curTot ≤ curTot' → RateFits lastTot curTot dtSec → RateFits lastTot curTot' dtSec →
        stallRate lastTot curTot dtSec ≤ stallRate lastTot curTot' dtSec := by
  refine ⟨exact_iff hdt hdt', fun curTot' h hfits hfits' => ?_⟩
  rw [(exact_iff hdt hdt').mpr hfits, (exact_iff hdt hdt').mpr hfits']
  exact exactRate_mono hdt' h

end Rate

theorem stallRate_exact_second :
    (stallRate 1000 501000 q16One = exactRate 1000 501000 q16One ↔ RateFits 1000 501000 q16One) ∧
      ∀ curTot', 501000 ≤ curTot' → RateFits 1000 501000 q16One → RateFits 1000 curTot' q16One →
        stallRate 1000 501000 q16One ≤ stallRate 1000 curTot' q16One :=
  stallRate_exact_iff (by decide) (by decide)

/-- A jump of the total by 2814749767107 within a second is fed to the filter as no pressure. -/
theorem stallRate_wraps :
    stallRate 0 2814749767107 q16One = 2 ∧ exactRate 0 2814749767107 q16One = 500 * 65536 ∧
      stallRate 0 2814749767106 q16One = 500 * 65536 := by
  decide

end Pgov
