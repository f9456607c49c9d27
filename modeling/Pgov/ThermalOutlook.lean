import Pgov.KalmanBounds
import Pgov.Runs
import Pgov.Tuning

namespace Pgov

open FixedWidth

def thermalStep (cfg : ThermalCfg) (state : ThermalState) (call : ThermalCall) : ThermalState :=
  (pgThermalUpdate cfg state call).1

def SensorRange (temp : ℤ) : Prop := -30 * 65536 ≤ temp ∧ temp ≤ 150 * 65536

instance (temp : ℤ) : Decidable (SensorRange temp) := inferInstanceAs (Decidable (_ ∧ _))

def stepTime (state : ThermalState) (call : ThermalCall) : ℤ :=
  pgMathClamp (pgDtSec state.lastTick call.now) (floatToQ16 1 100) q16One

def resumedState (cfg : ThermalCfg) (state : ThermalState) (call : ThermalCall) : ThermalState :=
  thermalRestart state (pgDtSec state.lastTick call.now) call.cpuTemp
    (thermalSetpoint cfg call.batTemp)

structure Outlook where
  tLo : ℤ
  tHi : ℤ
  vLo : ℤ
  vHi : ℤ
  deriving DecidableEq, Repr

/-- The answer is between the measured and the expected temperature, and its rate is that of the
state up to twice their distance over the time step. -/
def outlook (filter : KalmanState) (cpuTemp dtS : ℤ) : Outlook :=
  let z := pgMathClamp cpuTemp 0 (intToQ16 500)
  if filter.firstRun then { tLo := z, tHi := z, vLo := 0, vHi := 0 }
  else
    let x := expectedPos filter dtS
    { tLo := max 0 (min x z)
      tHi := max x z
      vLo := filter.xVel - 2 ^ 17 * max (x - z) 0 / dtS - 1
      vHi := filter.xVel + 2 ^ 17 * max (z - x) 0 / dtS }

/-- A filter whose covariances are in range, which expects a temperature up to 3000 degrees and
has room for its rate. -/
structure FilterRoom (filter : KalmanState) (cpuTemp dtS : ℤ) : Prop where
  covs : filter.firstRun = true ∨ filter.CovRange
  expected : filter.firstRun = true ∨ |expectedPos filter dtS| ≤ 3000 * 65536
  rate : -(2 ^ 30) ≤ (outlook filter cpuTemp dtS).vLo ∧ (outlook filter cpuTemp dtS).vHi ≤ 2 ^ 30

instance (filter : KalmanState) (cpuTemp dtS : ℤ) : Decidable (FilterRoom filter cpuTemp dtS) :=
  decidable_of_iff ((filter.firstRun = true ∨ filter.CovRange) ∧
      (filter.firstRun = true ∨ |expectedPos filter dtS| ≤ 3000 * 65536) ∧
      -(2 ^ 30) ≤ (outlook filter cpuTemp dtS).vLo ∧ (outlook filter cpuTemp dtS).vHi ≤ 2 ^ 30)
    ⟨fun h => ⟨h.1, h.2.1, h.2.2⟩, fun h => ⟨h.covs, h.expected, h.rate⟩⟩

section Filter

variable {filter : KalmanState} {cpuTemp z dtS : ℤ}

theorem priorVar_le (hc : filter.CovRange) (hq : 0 ≤ filter.qVel ∧ filter.qVel ≤ 1310720)
    (hdt : 0 ≤ dtS ∧ dtS ≤ 65536) : priorVar filter dtS ≤ 32000 * 2 ^ 32 := by
  obtain ⟨hp00, hp00'⟩ := hc.p00
  obtain ⟨hp01, hp01'⟩ := hc.p01
  obtain ⟨hp10, hp10'⟩ := hc.p10
  obtain ⟨hp11, hp11'⟩ := hc.p11
  have hvel : filter.p11 * dtS ≤ 2 ^ 44 * 65536 := mul_le_mul hp11' hdt.2 hdt.1 (by norm_num)
  have hcarried : ((filter.p01 + filter.p10) * 2 ^ 16 + filter.p11 * dtS) * dtS ≤
      3 * 2 ^ 60 * 65536 := mul_le_mul (by omega) hdt.2 hdt.1 (by norm_num)
  have hpow : dtS ^ 4 ≤ 65536 ^ 4 := pow_le_pow_left₀ hdt.1 hdt.2 4
  have hpow0 : 0 ≤ dtS ^ 4 := by positivity
  have hnoise : filter.qVel * dtS ^ 4 ≤ 1310720 * 65536 ^ 4 :=
    mul_le_mul hq.2 hpow hpow0 (by norm_num)
  have hdrift : filter.qVel * 655 / 2 ^ 16 * dtS ≤ 13100 * 65536 :=
    mul_le_mul (by omega) hdt.2 hdt.1 (by norm_num)
  rw [priorVar]
  omega

theorem kalmanStep_xVel (hz : 0 ≤ z ∧ z ≤ 32768000) (hdt : 6 ≤ dtS ∧ dtS ≤ 65536)
    (hc : filter.CovRange) (hq : 0 ≤ filter.qVel ∧ filter.qVel ≤ 1310720)
    (hx : |expectedPos filter dtS| ≤ 3000 * 65536)
    (hl : -(2 ^ 31) ≤ filter.xVel - 2 ^ 17 * max (expectedPos filter dtS - z) 0 / dtS - 1)
    (hu : filter.xVel + 2 ^ 17 * max (z - expectedPos filter dtS) 0 / dtS < 2 ^ 31) :
    filter.xVel - 2 ^ 17 * max (expectedPos filter dtS - z) 0 / dtS - 1 ≤
        (kalmanStep filter z dtS).xVel ∧
      (kalmanStep filter z dtS).xVel ≤
        filter.xVel + 2 ^ 17 * max (z - expectedPos filter dtS) 0 / dtS := by
  obtain ⟨hx0, hx1⟩ := abs_le.mp hx
  have hpos : (kalmanPredict filter dtS).xPos = expectedPos filter dtS :=
    expected_xPos (fits32_iff.mpr ⟨by omega, by omega⟩)
  obtain ⟨hvar0, -, hvar⟩ := predict_p00_mem hc hq (by omega : 0 ≤ dtS ∧ dtS ≤ 327680)
  obtain ⟨hcov, hmul⟩ := predict_p10_mul_le hc hq (by omega : 0 ≤ dtS ∧ dtS ≤ 327680)
  have hprior : priorVar filter dtS ≤ 32000 * 2 ^ 32 := priorVar_le hc hq (by omega)
  generalize hpred : kalmanPredict filter dtS = pred at *
  obtain ⟨hcorrect, -, hs, hs'⟩ := kalmanStep_eq hpred hz ⟨hvar0, by omega⟩ (by omega)
  obtain ⟨hk, hkdt⟩ := rateGain_mem hdt.1 hcov hmul hvar0 hs hs'
  obtain ⟨hlow, hhigh⟩ := rate_mem (y := z - pred.xPos) hk (by omega) hkdt
  rw [hcorrect, kalmanCorrect]
  generalize q16Mul (q32ToQ16 pred.p10) (kalmanInvS _) = k at hlow hhigh
  have hmod : i32 (filter.xVel + q16Mul k (z - pred.xPos)) =
      i32 (filter.xVel + k * (z - pred.xPos) / 2 ^ 16) := by
    obtain ⟨c, hc⟩ := i32_congr (k * (z - pred.xPos) / 2 ^ 16)
    apply narrow_congr
    rw [q16Mul, hc]
    omega
  rw [hpos] at hlow hhigh hmod
  rw [neg_sub] at hlow
  simp only [hpos, hmod]
  rw [i32_eq (by omega) (by omega)]
  omega

theorem kalmanUpdate_mem (hdt : 655 ≤ dtS ∧ dtS ≤ 65536)
    (hq : 0 ≤ filter.qVel ∧ filter.qVel ≤ 1310720) (h : FilterRoom filter cpuTemp dtS) :
    ((outlook filter cpuTemp dtS).tLo ≤ (pgKalmanUpdate filter cpuTemp dtS).2 ∧
        (pgKalmanUpdate filter cpuTemp dtS).2 ≤ (outlook filter cpuTemp dtS).tHi) ∧
      (outlook filter cpuTemp dtS).vLo ≤ (pgKalmanUpdate filter cpuTemp dtS).1.xVel ∧
      (pgKalmanUpdate filter cpuTemp dtS).1.xVel ≤ (outlook filter cpuTemp dtS).vHi := by
  have hcap : intToQ16 500 = 32768000 := by decide
  have hz : 0 ≤ pgMathClamp cpuTemp 0 (intToQ16 500) ∧
      pgMathClamp cpuTemp 0 (intToQ16 500) ≤ 32768000 :=
    ⟨le_clamp (by decide) _, hcap ▸ clamp_le (by decide) _⟩
  have hgap : ¬dtS > intToQ16 5 := by
    rw [show intToQ16 5 = 327680 by decide]
    omega
  by_cases hfirst : filter.firstRun = true
  · simp only [pgKalmanUpdate, outlook, if_neg hgap, if_pos hfirst, le_refl, and_self]
  · have hleast : dtS > floatToQ16 1 10000 := by
      rw [show floatToQ16 1 10000 = 6 by decide]
      omega
    have hx := h.expected.resolve_left hfirst
    obtain ⟨hx0, hx1⟩ := abs_le.mp hx
    have hc := h.covs.resolve_left hfirst
    obtain ⟨hl, hu⟩ := h.rate
    simp only [outlook, if_neg hfirst] at hl hu
    have hvel := kalmanStep_xVel hz (by omega) hc hq hx (by omega) (by omega)
    obtain ⟨hvar0, -, hvar⟩ := predict_p00_mem hc hq (by omega : 0 ≤ dtS ∧ dtS ≤ 327680)
    have hprior : priorVar filter dtS ≤ 32000 * 2 ^ 32 := priorVar_le hc hq (by omega)
    have hpos : (kalmanPredict filter dtS).xPos = expectedPos filter dtS :=
      expected_xPos (fits32_iff.mpr ⟨by omega, by omega⟩)
    obtain ⟨htemp0, htemp1⟩ := kalmanStep_xPos rfl hz ⟨hvar0, by omega⟩ (by omega)
    rw [hpos] at htemp0 htemp1
    simp only [pgKalmanUpdate, outlook, if_neg hgap, if_neg hfirst, if_pos hleast]
    refine ⟨?_, hvel⟩
    split_ifs <;> omega

end Filter

section Calls

variable {cfg : ThermalCfg} {state : ThermalState} {call : ThermalCall}

theorem stepTime_mem (state : ThermalState) (call : ThermalCall) :
    655 ≤ stepTime state call ∧ stepTime state call ≤ 65536 :=
  ⟨le_clamp (by decide) _, clamp_le (by decide) _⟩

structure ThermalRange (state : ThermalState) : Prop where
  satCount : 0 ≤ state.satCount ∧ state.satCount ≤ 50
  noise : state.filter.NoiseRange

theorem filterReset_noise : thermalFilterReset.NoiseRange := ⟨by decide, by decide⟩

theorem thermalRange_init (start : Timespec) : ThermalRange (pgThermalInit start) :=
  ⟨by simp [pgThermalInit], filterReset_noise⟩

theorem ThermalRange.resumed (h : ThermalRange state) (cfg : ThermalCfg) (call : ThermalCall) :
    ThermalRange (resumedState cfg state call) := by
  rw [resumedState, thermalRestart]
  split
  · exact ⟨by simp, filterReset_noise⟩
  · exact h

theorem satCountNext_mem {prevSat satCount : ℤ} (h : 0 ≤ satCount ∧ satCount ≤ 50) :
    0 ≤ satCountNext prevSat satCount ∧ satCountNext prevSat satCount ≤ 50 := by
  rw [satCountNext]
  split_ifs <;> omega

theorem ThermalRange.step (h : ThermalRange state) (cfg : ThermalCfg) (call : ThermalCall) :
    ThermalRange (thermalStep cfg state call) := by
  have hresumed := h.resumed cfg call
  exact ⟨satCountNext_mem hresumed.satCount,
    hresumed.noise.update call.cpuTemp (stepTime state call)⟩

theorem antiWindupGain_le {satCount : ℤ} (h : 0 ≤ satCount ∧ satCount ≤ 50) :
    127795 ≤ antiWindupGain satCount := by
  have hbase : floatToQ16 195 100 = 127795 := by decide
  have htenth : floatToQ16 1 10 = 6553 := by decide
  have hcount : intToQ16 satCount = satCount * 65536 := by
    rw [intToQ16, q16One]
    exact i32_eq (by omega) (by omega)
  have hboost : q16Mul 6553 (satCount * 65536) = 6553 * satCount := by
    rw [q16Mul_eq (by omega) (by omega)]
    omega
  rw [antiWindupGain, hbase, htenth, hcount, hboost]
  split
  · rw [i32_eq (by omega) (by omega)]
    omega
  · rfl

theorem setpoint_bounds (h : cfg.Tuned) {batTemp : ℤ} (hbat : SensorRange batTemp) :
    2621440 ≤ thermalSetpoint cfg batTemp ∧ thermalSetpoint cfg batTemp ≤ 5898240 := by
  obtain ⟨hc0, hc1⟩ : 2949120 ≤ cfg.limitCpu ∧ cfg.limitCpu ≤ 5898240 := h.limitCpu
  obtain ⟨hl0, hl1⟩ : 2490368 ≤ cfg.limitBat ∧ cfg.limitBat ≤ 2752512 := h.limitBat
  obtain ⟨hb0, hb1⟩ := hbat
  have hfive : intToQ16 5 = 327680 := by decide
  have hmargin {margin : ℤ} (h0 : 0 ≤ margin) (h1 : margin ≤ 327680) :
      i32 (cfg.limitCpu - i32 (327680 - margin)) = cfg.limitCpu - (327680 - margin) := by
    rw [i32_eq (x := 327680 - margin) (by omega) (by omega), i32_eq (by omega) (by omega)]
  simp only [thermalSetpoint, hfive,
    i32_eq (by omega : -2147483648 ≤ cfg.limitBat - batTemp) (by omega)]
  split_ifs
  · rw [hmargin (by omega) (by omega)]
    omega
  · omega
  · rw [hmargin (by omega) (by omega)]
    omega
  · rw [sub_zero, i32_eq (by omega) (by omega)]
    omega

end Calls

end Pgov
