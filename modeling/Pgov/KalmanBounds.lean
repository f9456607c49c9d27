import Pgov.KalmanContraction

namespace Pgov

open FixedWidth

/-- Covariances from 0 to 4096, in units of `2^-32`. -/
structure KalmanState.CovRange (state : KalmanState) : Prop where
  p00 : 0 ≤ state.p00 ∧ state.p00 ≤ 2 ^ 44
  p01 : 0 ≤ state.p01 ∧ state.p01 ≤ 2 ^ 44
  p10 : 0 ≤ state.p10 ∧ state.p10 ≤ 2 ^ 44
  p11 : 0 ≤ state.p11 ∧ state.p11 ≤ 2 ^ 44

instance (state : KalmanState) : Decidable state.CovRange :=
  decidable_of_iff ((0 ≤ state.p00 ∧ state.p00 ≤ 2 ^ 44) ∧ (0 ≤ state.p01 ∧ state.p01 ≤ 2 ^ 44) ∧
      (0 ≤ state.p10 ∧ state.p10 ≤ 2 ^ 44) ∧ 0 ≤ state.p11 ∧ state.p11 ≤ 2 ^ 44)
    ⟨fun h => ⟨h.1, h.2.1, h.2.2.1, h.2.2.2⟩, fun h => ⟨h.p00, h.p01, h.p10, h.p11⟩⟩

structure KalmanState.NoiseRange (state : KalmanState) : Prop where
  qVel : 0 ≤ state.qVel ∧ state.qVel ≤ 1310720
  covY : 0 ≤ state.covY ∧ state.covY ≤ 400 * 2 ^ 32

def expectedPos (state : KalmanState) (dt : ℤ) : ℤ := state.xPos + state.xVel * dt / 2 ^ 16

/-- The variance of that expectation in units of `2^-32`: that of the state carried over `dt`, and
the process noise of the time between. -/
def priorVar (state : KalmanState) (dt : ℤ) : ℤ :=
  state.p00 + ((state.p01 + state.p10) * 2 ^ 16 + state.p11 * dt) * dt / 2 ^ 32 +
    state.qVel * dt ^ 4 / 2 ^ 50 + state.qVel * 655 / 2 ^ 16 * dt

section Predict

variable {state : KalmanState} {dt : ℤ}

theorem q32Mul_dt {a : ℤ} (hl : -9223372036854775808 ≤ a * dt / 2 ^ 16)
    (hu : a * dt / 2 ^ 16 ≤ 9223372036854775807) : q32Mul a (q16ToQ32 dt) = a * dt / 2 ^ 16 := by
  have hscale : a * q16ToQ32 dt / 2 ^ 32 = a * dt / 2 ^ 16 := by
    rw [q16ToQ32, ← mul_assoc, show (2 : ℤ) ^ 32 = 2 ^ 16 * q16One by norm_num]
    exact Int.mul_ediv_mul_of_pos_left _ _ (by norm_num)
  rw [q32Mul_eq_i64, hscale, i64_eq hl hu]

theorem carried_mem {a : ℤ} (ha : 0 ≤ a) (hdt : 0 ≤ dt ∧ dt ≤ 327680) :
    0 ≤ a * dt / 2 ^ 16 ∧ a * dt / 2 ^ 16 ≤ 5 * a := by
  have hprod : 0 ≤ a * dt := mul_nonneg ha hdt.1
  have hscaled : a * dt ≤ a * 327680 := mul_le_mul_of_nonneg_left hdt.2 ha
  omega

theorem expected_xPos (h : Fits 32 (expectedPos state dt)) :
    (kalmanPredict state dt).xPos = expectedPos state dt := by
  obtain ⟨k, hk⟩ := i32_congr (state.xVel * dt / 2 ^ 16)
  have hmod : i32 (state.xPos + q16Mul state.xVel dt) = i32 (expectedPos state dt) := by
    apply narrow_congr
    rw [expectedPos, q16Mul, hk]
    omega
  exact hmod.trans (i32_of_fits h)

theorem dt_powers (hdt : 0 ≤ dt ∧ dt ≤ 327680) :
    (0 ≤ dt * dt * dt / 2 ^ 16 ∧ dt * dt * dt / 2 ^ 16 ≤ 125 * 2 ^ 32) ∧
      0 ≤ dt * dt * dt / 2 ^ 16 * dt / 2 ^ 16 ∧
      dt * dt * dt / 2 ^ 16 * dt / 2 ^ 16 ≤ 625 * 2 ^ 32 := by
  have hsq : 0 ≤ dt * dt := mul_self_nonneg dt
  have hsq' : dt * dt ≤ 327680 * 327680 := mul_self_le_mul_self hdt.1 hdt.2
  obtain ⟨hcube, hcube'⟩ := carried_mem hsq hdt
  obtain ⟨hfourth, hfourth'⟩ := carried_mem hcube hdt
  omega

theorem noise_mem {q d : ℤ} (hq : 0 ≤ q ∧ q ≤ 1310720) (hd : 0 ≤ d) :
    0 ≤ q * d / 2 ^ 16 ∧ q * d / 2 ^ 16 ≤ 20 * d := by
  have hprod : 0 ≤ q * d := mul_nonneg hq.1 hd
  have hscaled : q * d ≤ 1310720 * d := mul_le_mul_of_nonneg_right hq.2 hd
  omega

theorem q32Mul_noise {q d : ℤ} (hl : 0 ≤ q * d / 2 ^ 16)
    (hu : q * d / 2 ^ 16 ≤ 9223372036854775807) : q32Mul (q16ToQ32 q) d = q * d / 2 ^ 16 := by
  rw [mul_comm q] at hl hu ⊢
  rw [← q32Mul_dt (by omega) hu, q32Mul_eq_i64, q32Mul_eq_i64, mul_comm d]

theorem q32Mul_dt_powers (hdt : 0 ≤ dt ∧ dt ≤ 327680) :
    q32Mul (q32Mul (q16ToQ32 dt) (q16ToQ32 dt)) (q16ToQ32 dt) = dt * dt * dt / 2 ^ 16 ∧
      q32Mul (dt * dt * dt / 2 ^ 16) (q16ToQ32 dt) = dt * dt * dt / 2 ^ 16 * dt / 2 ^ 16 := by
  have hsq : 0 ≤ dt * dt := mul_self_nonneg dt
  have hsq' : dt * dt ≤ 327680 * 327680 := mul_self_le_mul_self hdt.1 hdt.2
  obtain ⟨⟨hcube, hcube'⟩, hfourth, hfourth'⟩ := dt_powers hdt
  rw [q32Mul_q16 (by omega) (by omega)]
  exact ⟨q32Mul_dt (by omega) (by omega), q32Mul_dt (by omega) (by omega)⟩

theorem predict_eq (hc : state.CovRange) (hq : 0 ≤ state.qVel ∧ state.qVel ≤ 1310720)
    (hdt : 0 ≤ dt ∧ dt ≤ 327680) :
    (kalmanPredict state dt).p00 = state.p00 + state.p10 * dt / 2 ^ 16 +
        (state.p01 + state.p11 * dt / 2 ^ 16) * dt / 2 ^ 16 +
        (state.qVel * (dt * dt * dt / 2 ^ 16 * dt / 2 ^ 16) / 2 ^ 16 / 4 +
          state.qVel * 655 / 2 ^ 16 * dt) ∧
      (kalmanPredict state dt).p10 = state.p10 + state.p11 * dt / 2 ^ 16 +
        state.qVel * (dt * dt * dt / 2 ^ 16) / 2 ^ 16 / 2 := by
  obtain ⟨hp00, hp00'⟩ := hc.p00
  obtain ⟨hp01, hp01'⟩ := hc.p01
  obtain ⟨hp10, hp10'⟩ := hc.p10
  obtain ⟨hp11, hp11'⟩ := hc.p11
  obtain ⟨hcube, hfourth⟩ := q32Mul_dt_powers hdt
  obtain ⟨⟨hd3, hd3'⟩, hd4, hd4'⟩ := dt_powers hdt
  obtain ⟨hn3, hn3'⟩ := noise_mem hq hd3
  obtain ⟨hn4, hn4'⟩ := noise_mem hq hd4
  obtain ⟨ha, ha'⟩ := carried_mem hp10 hdt
  obtain ⟨hb, hb'⟩ := carried_mem hp11 hdt
  obtain ⟨hcr, hcr'⟩ := carried_mem (show 0 ≤ state.p01 + state.p11 * dt / 2 ^ 16 by omega) hdt
  have hpos : floatToQ16 1 100 = 655 := by decide
  have hqPos : q16Mul state.qVel 655 = state.qVel * 655 / 2 ^ 16 :=
    q16Mul_eq (by omega) (by omega)
  have hdrift : 0 ≤ state.qVel * 655 / 2 ^ 16 * dt := mul_nonneg (by omega) hdt.1
  have hdrift' : state.qVel * 655 / 2 ^ 16 * dt ≤ 13100 * 327680 :=
    mul_le_mul (by omega) hdt.2 hdt.1 (by norm_num)
  have hp01_eq : i64 (state.p01 + state.p11 * dt / 2 ^ 16) = state.p01 + state.p11 * dt / 2 ^ 16 :=
    i64_eq (by omega) (by omega)
  have hp10_eq : q32Mul state.p10 (q16ToQ32 dt) = state.p10 * dt / 2 ^ 16 :=
    q32Mul_dt (by omega) (by omega)
  have hp11_eq : q32Mul state.p11 (q16ToQ32 dt) = state.p11 * dt / 2 ^ 16 :=
    q32Mul_dt (by omega) (by omega)
  have hcross_eq : q32Mul (state.p01 + state.p11 * dt / 2 ^ 16) (q16ToQ32 dt) =
      (state.p01 + state.p11 * dt / 2 ^ 16) * dt / 2 ^ 16 := q32Mul_dt (by omega) (by omega)
  simp only [kalmanPredict, hpos, hqPos, hcube, hfourth, hp01_eq, hp10_eq, hp11_eq, hcross_eq,
    q32Mul_noise hn3 (by omega), q32Mul_noise hn4 (by omega),
    q32Mul_q16 (by omega : -9223372036854775808 ≤ state.qVel * 655 / 2 ^ 16 * dt) (by omega),
    Int.tdiv_eq_ediv_of_nonneg hn3, Int.tdiv_eq_ediv_of_nonneg hn4]
  have hcarried : i64 (state.p00 + state.p10 * dt / 2 ^ 16) = state.p00 + state.p10 * dt / 2 ^ 16 :=
    i64_eq (by omega) (by omega)
  have hcross : i64 (state.p10 + state.p11 * dt / 2 ^ 16) = state.p10 + state.p11 * dt / 2 ^ 16 :=
    i64_eq (by omega) (by omega)
  rw [hcarried, hcross]
  constructor
  · rw [i64_eq (x := state.p00 + _ + _) (by omega) (by omega), i64_eq (x := _ / 4 + _) (by omega)
      (by omega), i64_eq (by omega) (by omega)]
  · exact i64_eq (by omega) (by omega)

theorem carried_sum (state : KalmanState) (hdt : 0 ≤ dt ∧ dt ≤ 327680) :
    let exact := ((state.p01 + state.p10) * 2 ^ 16 + state.p11 * dt) * dt / 2 ^ 32
    let sum := state.p10 * dt / 2 ^ 16 + (state.p01 + state.p11 * dt / 2 ^ 16) * dt / 2 ^ 16
    exact - 8 ≤ sum ∧ sum ≤ exact := by
  intro exact sum
  have hmid : state.p11 * dt / 2 ^ 16 * 2 ^ 16 ≤ state.p11 * dt := Int.ediv_mul_le _ (by norm_num)
  have hmid' : state.p11 * dt - 2 ^ 16 ≤ state.p11 * dt / 2 ^ 16 * 2 ^ 16 := by omega
  have hscaled := mul_le_mul_of_nonneg_right hmid hdt.1
  have hscaled' := mul_le_mul_of_nonneg_right hmid' hdt.1
  have hsplit : ((state.p01 + state.p10) * 2 ^ 16 + state.p11 * dt) * dt =
      state.p01 * dt * 2 ^ 16 + state.p10 * dt * 2 ^ 16 + state.p11 * dt * dt := by ring
  have hcross : (state.p01 + state.p11 * dt / 2 ^ 16) * dt =
      state.p01 * dt + state.p11 * dt / 2 ^ 16 * dt := add_mul _ _ _
  have hshift : state.p11 * dt / 2 ^ 16 * 2 ^ 16 * dt = state.p11 * dt / 2 ^ 16 * dt * 2 ^ 16 :=
    mul_right_comm _ _ _
  have hshift' : (state.p11 * dt - 2 ^ 16) * dt = state.p11 * dt * dt - dt * 2 ^ 16 := by ring
  simp only [exact, sum]
  rw [hsplit, hcross]
  omega

theorem noise_sum {q : ℤ} (hq : 0 ≤ q ∧ q ≤ 1310720) (hdt : 0 ≤ dt ∧ dt ≤ 327680) :
    let exact := q * dt ^ 4 / 2 ^ 50
    let sum := q * (dt * dt * dt / 2 ^ 16 * dt / 2 ^ 16) / 2 ^ 16 / 4
    exact - 50 ≤ sum ∧ sum ≤ exact := by
  intro exact sum
  have hcube : dt * dt * dt / 2 ^ 16 * 2 ^ 16 ≤ dt * dt * dt := Int.ediv_mul_le _ (by norm_num)
  have hcube' : dt * dt * dt - 2 ^ 16 ≤ dt * dt * dt / 2 ^ 16 * 2 ^ 16 := by omega
  have hscaled := mul_le_mul_of_nonneg_right hcube hdt.1
  have hscaled' := mul_le_mul_of_nonneg_right hcube' hdt.1
  have hpow : dt * dt * dt * dt = dt ^ 4 := by ring
  have hshift : dt * dt * dt / 2 ^ 16 * 2 ^ 16 * dt = dt * dt * dt / 2 ^ 16 * dt * 2 ^ 16 :=
    mul_right_comm _ _ _
  have hshift' : (dt * dt * dt - 2 ^ 16) * dt = dt * dt * dt * dt - dt * 2 ^ 16 := by ring
  obtain ⟨hfourth, hfourth'⟩ : dt ^ 4 - 6 * 2 ^ 32 ≤ dt * dt * dt / 2 ^ 16 * dt / 2 ^ 16 * 2 ^ 32 ∧
      dt * dt * dt / 2 ^ 16 * dt / 2 ^ 16 * 2 ^ 32 ≤ dt ^ 4 := by omega
  have hq4 := mul_le_mul_of_nonneg_left hfourth hq.1
  have hq4' := mul_le_mul_of_nonneg_left hfourth' hq.1
  have hsplit : q * (dt ^ 4 - 6 * 2 ^ 32) = q * dt ^ 4 - q * 6 * 2 ^ 32 := by ring
  have hassoc : q * (dt * dt * dt / 2 ^ 16 * dt / 2 ^ 16 * 2 ^ 32) =
      q * (dt * dt * dt / 2 ^ 16 * dt / 2 ^ 16) * 2 ^ 32 := (mul_assoc _ _ _).symm
  simp only [exact, sum]
  omega

theorem predict_p00_mem (hc : state.CovRange) (hq : 0 ≤ state.qVel ∧ state.qVel ≤ 1310720)
    (hdt : 0 ≤ dt ∧ dt ≤ 327680) :
    0 ≤ (kalmanPredict state dt).p00 ∧ priorVar state dt - 64 ≤ (kalmanPredict state dt).p00 ∧
      (kalmanPredict state dt).p00 ≤ priorVar state dt := by
  obtain ⟨hp00, -⟩ := hc.p00
  obtain ⟨hp01, -⟩ := hc.p01
  obtain ⟨hsum, hsum'⟩ := carried_sum state hdt
  obtain ⟨hnoise, hnoise'⟩ := noise_sum hq hdt
  obtain ⟨hb, -⟩ := carried_mem hc.p11.1 hdt
  obtain ⟨ha, -⟩ := carried_mem hc.p10.1 hdt
  obtain ⟨hcross, -⟩ := carried_mem (show 0 ≤ state.p01 + state.p11 * dt / 2 ^ 16 by omega) hdt
  obtain ⟨-, hd4, -⟩ := dt_powers hdt
  obtain ⟨hn4, -⟩ := noise_mem hq hd4
  have hdrift : 0 ≤ state.qVel * 655 / 2 ^ 16 * dt := mul_nonneg (by omega) hdt.1
  rw [(predict_eq hc hq hdt).1, priorVar]
  omega

theorem noise_mul_le {q : ℤ} (hq : 0 ≤ q ∧ q ≤ 1310720) (hdt : 0 ≤ dt) :
    q * (dt * dt * dt / 2 ^ 16) / 2 ^ 16 / 2 * dt ≤
      (2 * (q * (dt * dt * dt / 2 ^ 16 * dt / 2 ^ 16) / 2 ^ 16 / 4) + 12) * 2 ^ 16 := by
  generalize dt * dt * dt / 2 ^ 16 = cube
  have hhalf : q * cube / 2 ^ 16 / 2 * 2 ^ 17 ≤ q * cube := by omega
  have hfourth : cube * dt ≤ cube * dt / 2 ^ 16 * 2 ^ 16 + 65535 := by omega
  have hq4 := mul_le_mul_of_nonneg_left hfourth hq.1
  have hscaled := mul_le_mul_of_nonneg_right hhalf hdt
  have hsplit : q * (cube * dt / 2 ^ 16 * 2 ^ 16 + 65535) =
      q * (cube * dt / 2 ^ 16) * 2 ^ 16 + q * 65535 := by ring
  have hassoc : q * cube * dt = q * (cube * dt) := mul_assoc _ _ _
  have hshift : q * cube / 2 ^ 16 / 2 * 2 ^ 17 * dt = q * cube / 2 ^ 16 / 2 * dt * 2 ^ 17 :=
    mul_right_comm _ _ _
  omega

/-- Of the predicted cross covariance, the time step takes at most twice the predicted variance. -/
theorem predict_p10_mul_le (hc : state.CovRange) (hq : 0 ≤ state.qVel ∧ state.qVel ≤ 1310720)
    (hdt : 0 ≤ dt ∧ dt ≤ 327680) :
    (0 ≤ (kalmanPredict state dt).p10 ∧ (kalmanPredict state dt).p10 < 2 ^ 47) ∧
      (kalmanPredict state dt).p10 * dt ≤ (2 * (kalmanPredict state dt).p00 + 40) * 2 ^ 16 := by
  obtain ⟨hp00, -⟩ := hc.p00
  obtain ⟨hp01, -⟩ := hc.p01
  obtain ⟨hp10, hp10'⟩ := hc.p10
  obtain ⟨hp11, hp11'⟩ := hc.p11
  obtain ⟨⟨hd3, hd3'⟩, hd4, -⟩ := dt_powers hdt
  obtain ⟨ha, -⟩ := carried_mem hp10 hdt
  obtain ⟨hb, hb'⟩ := carried_mem hp11 hdt
  obtain ⟨hn3, hn3'⟩ := noise_mem hq hd3
  obtain ⟨hn4, -⟩ := noise_mem hq hd4
  have hcross : state.p11 * dt / 2 ^ 16 * dt / 2 ^ 16 ≤
      (state.p01 + state.p11 * dt / 2 ^ 16) * dt / 2 ^ 16 := by
    apply Int.ediv_le_ediv (by norm_num)
    exact mul_le_mul_of_nonneg_right (by omega) hdt.1
  have hcross0 : 0 ≤ state.p11 * dt / 2 ^ 16 * dt / 2 ^ 16 := (carried_mem hb hdt).1
  have hdrift : 0 ≤ state.qVel * 655 / 2 ^ 16 * dt := mul_nonneg (by omega) hdt.1
  have hnoise := noise_mul_le hq hdt.1
  obtain ⟨hvar, hcov⟩ := predict_eq hc hq hdt
  rw [hvar, hcov]
  refine ⟨by omega, ?_⟩
  rw [add_mul, add_mul]
  omega

section Rate

variable {k y z : ℤ}

/-- One measurement moves the rate by at most twice the innovation over the time step. -/
theorem rate_mem (hk : 0 ≤ k) (hdt : 0 < dt) (hkdt : k * dt ≤ 2 ^ 33) :
    -(2 ^ 17 * max (-y) 0 / dt) - 1 ≤ k * y / 2 ^ 16 ∧ k * y / 2 ^ 16 ≤ 2 ^ 17 * max y 0 / dt := by
  rcases le_total 0 y with hy | hy
  · rw [max_eq_right (by omega : -y ≤ 0), max_eq_left hy]
    have hprod : 0 ≤ k * y := mul_nonneg hk hy
    have hscaled : k * dt * y ≤ 2 ^ 33 * y := mul_le_mul_of_nonneg_right hkdt hy
    have hfloor : k * y / 2 ^ 16 * 2 ^ 16 * dt ≤ k * y * dt :=
      mul_le_mul_of_nonneg_right (by omega) hdt.le
    constructor
    · simp only [mul_zero, Int.zero_ediv]
      omega
    · rw [Int.le_ediv_iff_mul_le hdt]
      linarith
  · rw [max_eq_left (by omega : 0 ≤ -y), max_eq_right hy]
    have hprod : k * y ≤ 0 := mul_nonpos_of_nonneg_of_nonpos hk hy
    have hscaled : 2 ^ 33 * y ≤ k * dt * y := mul_le_mul_of_nonpos_right hkdt hy
    have hfloor : k * y * dt ≤ (k * y / 2 ^ 16 + 1) * 2 ^ 16 * dt :=
      mul_le_mul_of_nonneg_right (by omega) hdt.le
    constructor
    · have hquot : -(k * y / 2 ^ 16 + 1) ≤ 2 ^ 17 * -y / dt := by
        rw [Int.le_ediv_iff_mul_le hdt]
        linarith
      omega
    · simp only [mul_zero, Int.zero_ediv]
      omega

theorem rateGain_mem {cov var s : ℤ} (hdt : 6 ≤ dt) (hcov : 0 ≤ cov ∧ cov < 2 ^ 47)
    (hmul : cov * dt ≤ (2 * var + 40) * 2 ^ 16) (hvar : 0 ≤ var) (hs : var / 2 ^ 16 + 6553 ≤ s)
    (hs' : s ≤ 2100428800) :
    0 ≤ q16Mul (q32ToQ16 cov) (kalmanInvS s) ∧
      q16Mul (q32ToQ16 cov) (kalmanInvS s) * dt ≤ 2 ^ 33 := by
  obtain ⟨hinv, -, hone⟩ := invS_bounds (by omega) (by omega : s ≤ 2147483647)
  have hc16 : q32ToQ16 cov = cov / 2 ^ 16 := i32_eq (by omega) (by omega)
  have hgain : 0 ≤ cov / 2 ^ 16 * kalmanInvS s := mul_nonneg (by omega) hinv
  have hfloor : cov / 2 ^ 16 * kalmanInvS s * 2 ^ 16 ≤ cov * kalmanInvS s := by
    rw [mul_right_comm]
    exact mul_le_mul_of_nonneg_right (by omega) hinv
  have htimes : cov / 2 ^ 16 * kalmanInvS s / 2 ^ 16 * dt ≤ 2 ^ 33 := by
    have hdiv : cov / 2 ^ 16 * kalmanInvS s / 2 ^ 16 * 2 ^ 32 ≤ cov * kalmanInvS s := by omega
    have hscaled := mul_le_mul_of_nonneg_right hdiv (by omega : 0 ≤ dt)
    have hprod : cov * dt * kalmanInvS s ≤ 2 * s * 2 ^ 32 * kalmanInvS s :=
      mul_le_mul_of_nonneg_right (by omega) hinv
    nlinarith
  have hfits : cov / 2 ^ 16 * kalmanInvS s / 2 ^ 16 ≤ 2147483647 := by nlinarith
  rw [q16Mul, hc16, i32_eq (by omega) hfits]
  exact ⟨by omega, htimes⟩

end Rate

end Predict

section Noise

variable {state : KalmanState} {y p : ℤ}

def clampedInnovation (y : ℤ) : ℤ := pgMathClamp y (-1310720) 1310720

theorem clampedInnovation_sq (y : ℤ) :
    0 ≤ clampedInnovation y * clampedInnovation y ∧
      clampedInnovation y * clampedInnovation y ≤ 400 * 2 ^ 32 := by
  have hlow : -1310720 ≤ clampedInnovation y := le_clamp (by norm_num) y
  have hhigh : clampedInnovation y ≤ 1310720 := clamp_le (by norm_num) y
  exact ⟨mul_self_nonneg _, by nlinarith⟩

theorem adapt_covY (hc : 0 ≤ state.covY ∧ state.covY ≤ 400 * 2 ^ 32) :
    (kalmanAdapt state y p).covY = 62259 * state.covY / 2 ^ 16 +
        3276 * (clampedInnovation y * clampedInnovation y) / 2 ^ 16 ∧
      0 ≤ (kalmanAdapt state y p).covY ∧ (kalmanAdapt state y p).covY ≤ 400 * 2 ^ 32 := by
  have hlow : intToQ16 (-20) = -1310720 := by decide
  have hhigh : intToQ16 20 = 1310720 := by decide
  have hkeep : floatToQ16 95 100 = 62259 := by decide
  have hlearn : floatToQ16 5 100 = 3276 := by decide
  obtain ⟨hsq, hsq'⟩ := clampedInnovation_sq y
  have heq : (kalmanAdapt state y p).covY = 62259 * state.covY / 2 ^ 16 +
      3276 * (clampedInnovation y * clampedInnovation y) / 2 ^ 16 := by
    have hclamp : pgMathClamp y (-1310720) 1310720 = clampedInnovation y := rfl
    simp only [kalmanAdapt, hlow, hhigh, hkeep, hlearn, hclamp]
    rw [q32Mul_q16 (by omega) (by omega), q32Mul_noise (by omega) (by omega),
      q32Mul_noise (by omega) (by omega), i64_eq (by omega) (by omega)]
  rw [heq]
  omega

theorem adapt_noiseRange (hc : 0 ≤ state.covY ∧ state.covY ≤ 400 * 2 ^ 32) :
    (0 ≤ (kalmanAdapt state y p).qVel ∧ (kalmanAdapt state y p).qVel ≤ 1310720) ∧
      0 ≤ (kalmanAdapt state y p).covY ∧ (kalmanAdapt state y p).covY ≤ 400 * 2 ^ 32 := by
  have hlow : floatToQ16 1 100 = 655 := by decide
  have hhigh : intToQ16 20 = 1310720 := by decide
  refine ⟨?_, (adapt_covY hc).2⟩
  simp only [kalmanAdapt, hlow, hhigh]
  constructor
  · exact (by norm_num : (0 : ℤ) ≤ 655).trans (le_clamp (by norm_num) _)
  · exact clamp_le (by norm_num) _

theorem KalmanState.NoiseRange.update (h : state.NoiseRange) (zMeas dtSec : ℤ) :
    (pgKalmanUpdate state zMeas dtSec).1.NoiseRange := by
  have hreset : pgKalmanReset.NoiseRange := ⟨by decide, by decide⟩
  simp only [pgKalmanUpdate]
  have hstarted : (if dtSec > intToQ16 5 then pgKalmanReset else state).NoiseRange := by
    split_ifs
    · exact hreset
    · exact h
  generalize (if dtSec > intToQ16 5 then pgKalmanReset else state) = started at hstarted
  split
  · exact ⟨hstarted.qVel, hstarted.covY⟩
  · obtain ⟨hq, hc⟩ := adapt_noiseRange hstarted.covY
    exact ⟨hq, hc⟩

/-- Where the innovation is far, its covariance does not depend on how far. -/
theorem adapt_s_far (hc : 0 ≤ state.covY ∧ state.covY ≤ 400 * 2 ^ 32)
    (hy : 1310720 ≤ |y|) (hp : 0 ≤ p ∧ p ≤ 2097152000) :
    (kalmanAdapt state y p).s = p + max 6553
      (min ((62259 * state.covY / 2 ^ 16 + 3276 * (400 * 2 ^ 32) / 2 ^ 16) / 2 ^ 16 - p) 3276800) := by
  have hlow : floatToQ16 1 10 = 6553 := by decide
  have hhigh : intToQ16 50 = 3276800 := by decide
  have hsq : clampedInnovation y * clampedInnovation y = 400 * 2 ^ 32 := by
    have hends : clampedInnovation y = -1310720 ∨ clampedInnovation y = 1310720 := by
      rw [clampedInnovation, pgMathClamp]
      rcases le_abs'.mp hy with hneg | hpos
      · left
        split_ifs <;> omega
      · right
        split_ifs <;> omega
    rcases hends with hend | hend <;> rw [hend] <;> norm_num
  obtain ⟨heq, hcov0, hcov1⟩ := adapt_covY hc (y := y) (p := p)
  rw [hsq] at heq
  have hs : (kalmanAdapt state y p).s = i32 (p + pgMathClamp
      (i32 (q32ToQ16 (kalmanAdapt state y p).covY - p)) (floatToQ16 1 10) (intToQ16 50)) := rfl
  rw [heq] at hcov0 hcov1
  rw [hs, heq, hlow, hhigh, q32ToQ16, i32_eq (x := _ / 2 ^ 16) (by omega) (by omega),
    i32_eq (x := _ - p) (by omega) (by omega), pgMathClamp]
  split_ifs <;> rw [i32_eq (by omega) (by omega)] <;> omega

end Noise

end Pgov
