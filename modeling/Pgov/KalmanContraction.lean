import Pgov.KalmanFilter

namespace Pgov

open FixedWidth

section Gain

variable {s p : ℤ}

theorem invS_bounds (hs : 6553 ≤ s) (hs' : s ≤ 2147483647) :
    0 ≤ kalmanInvS s ∧ kalmanInvS s ≤ 655420 ∧ kalmanInvS s * s ≤ 2 ^ 32 := by
  have hquot : (q16One * q16One).tdiv s = 4294967296 / s := by
    rw [Int.tdiv_eq_ediv_of_nonneg (by norm_num)]
    norm_num
  have hle : 4294967296 / s ≤ 655420 := by
    rw [← Int.lt_add_one_iff, Int.ediv_lt_iff_lt_mul (by omega)]
    omega
  have hnonneg : 0 ≤ 4294967296 / s := Int.ediv_nonneg (by norm_num) (by omega)
  have hmul : 4294967296 / s * s ≤ 4294967296 := Int.ediv_mul_le _ (by omega)
  rw [kalmanInvS, if_pos (by omega), q16Div, if_neg (by omega), hquot,
    i32_eq (by omega) (by omega)]
  exact ⟨hnonneg, hle, by norm_num; exact hmul⟩

theorem innovation_cov_bounds (state : KalmanState) (y : ℤ) (hp : 0 ≤ p) (hp' : p ≤ 2097152000) :
    p + 6553 ≤ (kalmanAdapt state y p).s ∧ (kalmanAdapt state y p).s ≤ 2100428800 := by
  have hlo : floatToQ16 1 10 = 6553 := by decide
  have hhi : intToQ16 50 = 3276800 := by decide
  have hr : (6553 : ℤ) ≤ 3276800 := by norm_num
  simp only [kalmanAdapt, hlo, hhi]
  generalize i32 (q32ToQ16 _ - p) = r
  have hl := le_clamp hr r
  have hu := clamp_le hr r
  rw [i32_eq (by omega) (by omega)]
  omega

theorem gain_bounds (hp : 0 ≤ p) (hps : p + 6553 ≤ s) (hs : s ≤ 2100428800) :
    0 ≤ q16Mul p (kalmanInvS s) ∧ q16Mul p (kalmanInvS s) ≤ 65536 := by
  obtain ⟨hinv, -, hmul⟩ := invS_bounds (by omega) (by omega : s ≤ 2147483647)
  have hprod : p * kalmanInvS s ≤ 2 ^ 32 := by nlinarith
  have hprod0 : 0 ≤ p * kalmanInvS s := mul_nonneg hp hinv
  rw [q16Mul, i32_eq (by omega) (by omega)]
  omega

theorem gain_mul_between {k y : ℤ} (hk : 0 ≤ k) (hk' : k ≤ 65536) (hy : Fits 32 y) :
    min 0 y ≤ q16Mul k y ∧ q16Mul k y ≤ max 0 y := by
  obtain ⟨hl, hu⟩ := fits32_iff.mp hy
  have hbound : min 0 y ≤ k * y / 2 ^ 16 ∧ k * y / 2 ^ 16 ≤ max 0 y := by
    rcases le_total 0 y with h | h
    · have hlow : 0 ≤ k * y := mul_nonneg hk h
      have hhigh : k * y ≤ 65536 * y := mul_le_mul_of_nonneg_right hk' h
      omega
    · have hlow : 65536 * y ≤ k * y := mul_le_mul_of_nonpos_right hk' h
      have hhigh : k * y ≤ 0 := mul_nonpos_of_nonneg_of_nonpos hk h
      omega
  rw [q16Mul, i32_eq (by omega) (by omega)]
  exact hbound

theorem remaining_cov {k q : ℤ} (hk : 0 ≤ k) (hk' : k ≤ 65536) (hq : 0 ≤ q)
    (hq' : q ≤ 32000 * 2 ^ 32) :
    0 ≤ q32Mul (q16ToQ32 (i32 (q16One - k))) q ∧ q32Mul (q16ToQ32 (i32 (q16One - k))) q ≤ q := by
  have hterm : i32 (q16One - k) = 65536 - k := by
    rw [q16One]
    exact i32_eq (by omega) (by omega)
  have hprod0 : 0 ≤ (65536 - k) * 65536 * q := by
    apply mul_nonneg _ hq
    omega
  have hprod : (65536 - k) * 65536 * q ≤ 2 ^ 32 * q := by
    apply mul_le_mul_of_nonneg_right _ hq
    omega
  rw [hterm, q32Mul_eq_i64, q16ToQ32, q16One, i64_eq (by omega) (by omega)]
  omega

theorem cross_cov_taken {a q : ℤ} (ha : 0 ≤ a) (ha' : a ≤ 196608000) (hq : 0 ≤ q)
    (hq' : q ≤ 32000 * 2 ^ 32) (hs : q / 2 ^ 16 + 6553 ≤ s) (hs' : s ≤ 2100428800) :
    0 ≤ q32Mul (q16ToQ32 (q16Mul a (kalmanInvS s))) q ∧
      q32Mul (q16ToQ32 (q16Mul a (kalmanInvS s))) q ≤ a * 65536 := by
  obtain ⟨hinv, hinv', hmul⟩ := invS_bounds (by omega) (by omega : s ≤ 2147483647)
  generalize kalmanInvS s = invS at hinv hinv' hmul
  have hprod0 : 0 ≤ a * invS := mul_nonneg ha hinv
  have hprod : a * invS ≤ 196608000 * 655420 := mul_le_mul ha' hinv' hinv (by norm_num)
  rw [q16Mul, i32_eq (by omega) (by omega)]
  have hgain0 : 0 ≤ a * invS / 2 ^ 16 := by omega
  have hgain : a * invS / 2 ^ 16 * 2 ^ 16 ≤ a * invS := by omega
  generalize a * invS / 2 ^ 16 = k at hgain0 hgain
  have hscaled : 0 ≤ k * 65536 * q := mul_nonneg (by omega) hq
  -- k / 2^16 is below a * inv_s, and inv_s * q below 2^48 because s exceeds q.
  have hqs : q ≤ s * 2 ^ 16 := by omega
  have hq2 : invS * q ≤ 2 ^ 48 := by nlinarith
  have htaken : k * 65536 * q ≤ a * 2 ^ 48 := by
    calc k * 65536 * q ≤ a * invS * q := mul_le_mul_of_nonneg_right (by omega) hq
      _ = a * (invS * q) := mul_assoc _ _ _
      _ ≤ a * 2 ^ 48 := mul_le_mul_of_nonneg_left hq2 ha
  rw [q32Mul_eq_i64, q16ToQ32, q16One, i64_eq (by omega) (by omega)]
  omega

end Gain

section Contraction

variable {state : KalmanState} {pred : KalmanPred} {zMeas dtSec z dt : ℤ}

theorem kalmanStep_eq (hpred : kalmanPredict state dt = pred) (hz : 0 ≤ z ∧ z ≤ 32768000)
    (hp : 0 ≤ pred.p00 ∧ pred.p00 ≤ 32000 * 2 ^ 32)
    (hx : -(16000 * 65536) ≤ pred.xPos ∧ pred.xPos ≤ 16000 * 65536) :
    kalmanStep state z dt = kalmanCorrect state.xVel (z - pred.xPos) pred
        (kalmanAdapt state (z - pred.xPos) (pred.p00 / 2 ^ 16)) ∧
      q32ToQ16 pred.p00 = pred.p00 / 2 ^ 16 ∧
      pred.p00 / 2 ^ 16 + 6553 ≤ (kalmanAdapt state (z - pred.xPos) (pred.p00 / 2 ^ 16)).s ∧
      (kalmanAdapt state (z - pred.xPos) (pred.p00 / 2 ^ 16)).s ≤ 2100428800 := by
  have hy : i32 (z - pred.xPos) = z - pred.xPos := i32_eq (by omega) (by omega)
  have hq16 : q32ToQ16 pred.p00 = pred.p00 / 2 ^ 16 := i32_eq (by omega) (by omega)
  refine ⟨?_, hq16, innovation_cov_bounds state (z - pred.xPos) (by omega) (by omega)⟩
  rw [kalmanStep, hpred, hy, hq16]

theorem kalmanStep_xPos (hpred : kalmanPredict state dt = pred) (hz : 0 ≤ z ∧ z ≤ 32768000)
    (hp : 0 ≤ pred.p00 ∧ pred.p00 ≤ 32000 * 2 ^ 32)
    (hx : -(16000 * 65536) ≤ pred.xPos ∧ pred.xPos ≤ 16000 * 65536) :
    min pred.xPos z ≤ (kalmanStep state z dt).xPos ∧
      (kalmanStep state z dt).xPos ≤ max pred.xPos z := by
  obtain ⟨hcorrect, hq16, hs, hs'⟩ := kalmanStep_eq hpred hz hp hx
  rw [hcorrect, kalmanCorrect, hq16]
  generalize kalmanAdapt state (z - pred.xPos) (pred.p00 / 2 ^ 16) = noise at hs hs'
  obtain ⟨hk, hk'⟩ := gain_bounds (show 0 ≤ pred.p00 / 2 ^ 16 by omega) hs hs'
  have hy32 : Fits 32 (z - pred.xPos) := fits32_iff.mpr ⟨by omega, by omega⟩
  obtain ⟨hlo, hhi⟩ := gain_mul_between hk hk' hy32
  simp only
  rw [i32_eq (by omega) (by omega)]
  omega

/-- The update of a running filter moves the position towards the measurement, and makes neither the
position variance nor the cross covariance larger or negative. -/
theorem kalman_contraction (hrun : ¬Restarts state dtSec)
    (hp : 0 ≤ (kalmanPredict state (filterDt dtSec)).p00)
    (hp' : (kalmanPredict state (filterDt dtSec)).p00 ≤ 32000 * 2 ^ 32)
    (hx : -(16000 * 65536) ≤ (kalmanPredict state (filterDt dtSec)).xPos)
    (hx' : (kalmanPredict state (filterDt dtSec)).xPos ≤ 16000 * 65536) :
    let pred := kalmanPredict state (filterDt dtSec)
    let z := pgMathClamp zMeas 0 (intToQ16 500)
    let post := (pgKalmanUpdate state zMeas dtSec).1
    (min pred.xPos z ≤ post.xPos ∧ post.xPos ≤ max pred.xPos z) ∧
      (0 ≤ post.p00 ∧ post.p00 ≤ pred.p00) ∧
      (0 ≤ pred.p10 → pred.p10 ≤ 3000 * 2 ^ 32 → 0 ≤ post.p10 ∧ post.p10 ≤ pred.p10) := by
  intro pred z post
  have hpost : post = kalmanStep state z (filterDt dtSec) := kalmanUpdate_runs hrun
  have hcap : intToQ16 500 = 32768000 := by decide
  have hz : 0 ≤ z ∧ z ≤ 32768000 :=
    ⟨le_clamp (by decide) zMeas, hcap ▸ clamp_le (by decide) zMeas⟩
  have hvar : 0 ≤ pred.p00 ∧ pred.p00 ≤ 32000 * 2 ^ 32 := ⟨hp, hp'⟩
  have hpred : kalmanPredict state (filterDt dtSec) = pred := rfl
  obtain ⟨hcorrect, hq16, hs, hs'⟩ := kalmanStep_eq hpred hz hvar ⟨hx, hx'⟩
  generalize kalmanAdapt state (z - pred.xPos) (pred.p00 / 2 ^ 16) = noise at hcorrect hs hs'
  obtain ⟨hk, hk'⟩ := gain_bounds (show 0 ≤ pred.p00 / 2 ^ 16 by omega) hs hs'
  refine ⟨?_, ?_, fun hc hc' => ?_⟩
  · rw [hpost]
    exact kalmanStep_xPos hpred hz hvar ⟨hx, hx'⟩
  · rw [hpost, hcorrect, kalmanCorrect, hq16]
    exact remaining_cov hk hk' hp hp'
  · have hc16 : q32ToQ16 pred.p10 = pred.p10 / 2 ^ 16 := i32_eq (by omega) (by omega)
    obtain ⟨htaken, htaken'⟩ := cross_cov_taken (show 0 ≤ pred.p10 / 2 ^ 16 by omega) (by omega)
      hvar.1 hvar.2 hs hs'
    rw [hpost, hcorrect, kalmanCorrect, hc16]
    simp only
    rw [i64_eq (by omega) (by omega)]
    omega

end Contraction

theorem kalman_contraction_steady :
    let state : KalmanState := { pgKalmanInit with xPos := 655360, firstRun := false }
    let pred := kalmanPredict state (filterDt q16One)
    let post := (pgKalmanUpdate state 0 q16One).1
    (min pred.xPos 0 ≤ post.xPos ∧ post.xPos ≤ max pred.xPos 0) ∧
      (0 ≤ post.p00 ∧ post.p00 ≤ pred.p00) ∧
      (0 ≤ pred.p10 → pred.p10 ≤ 3000 * 2 ^ 32 → 0 ≤ post.p10 ∧ post.p10 ≤ pred.p10) :=
  kalman_contraction (by decide) (by decide) (by decide) (by decide) (by decide)

end Pgov
