import Pgov.KalmanBounds
import Pgov.Runs

namespace Pgov

open FixedWidth Runs

inductive FilterCall
  | reset
  | update (zMeas dtSec : ℤ)
  deriving DecidableEq, Repr

def filterCall (state : KalmanState) : FilterCall → KalmanState
  | .reset => pgKalmanReset
  | .update zMeas dtSec => (pgKalmanUpdate state zMeas dtSec).1

def innovation (state : KalmanState) (zMeas dtSec : ℤ) : ℤ :=
  i32 (pgMathClamp zMeas 0 (intToQ16 500) - (kalmanPredict state (filterDt dtSec)).xPos)

def innovationCov (state : KalmanState) (zMeas dtSec : ℤ) : ℤ :=
  (kalmanAdapt state (innovation state zMeas dtSec)
    (q32ToQ16 (kalmanPredict state (filterDt dtSec)).p00)).s

/-- The exact normalised square of the innovation, in units of `2^-16`. -/
def exactNis (state : KalmanState) (zMeas dtSec : ℤ) : ℤ :=
  innovation state zMeas dtSec * innovation state zMeas dtSec *
    kalmanInvS (innovationCov state zMeas dtSec) / 2 ^ 32

def NisExact (state : KalmanState) : FilterCall → Prop
  | .reset => True
  | .update zMeas dtSec =>
    let nis := (pgKalmanUpdate state zMeas dtSec).1.nis
    0 ≤ nis ∧ nis = if Restarts state dtSec then 0 else exactNis state zMeas dtSec

instance (state : KalmanState) (call : FilterCall) : Decidable (NisExact state call) := by
  cases call with
  | reset => exact inferInstanceAs (Decidable True)
  | update zMeas dtSec => exact inferInstanceAs (Decidable (_ ∧ _))

/-- The covariance of an innovation that is far out, in units of `2^-32`: what the filter has learnt
about the measurements, held between 0.1 and 50 above the variance it expects. -/
def farCov (state : KalmanState) (dt : ℤ) : ℤ :=
  min (max (state.covY * 95 / 100 + 20 * 2 ^ 32) (priorVar state dt + 2 ^ 32 / 10))
    (priorVar state dt + 50 * 2 ^ 32)

/-- The measurement is within 57 of where the state expects it, or its squared distance is below
32750 times the covariance that the state gives it. -/
structure BreakRoom (state : KalmanState) (z dt : ℤ) : Prop where
  covs : state.CovRange
  prior : priorVar state dt ≤ 31000 * 2 ^ 32
  near : |z - expectedPos state dt| ≤ 57 * 65536 ∨
    (z - expectedPos state dt) ^ 2 < 32750 * farCov state dt

instance (state : KalmanState) (z dt : ℤ) : Decidable (BreakRoom state z dt) :=
  decidable_of_iff (state.CovRange ∧ priorVar state dt ≤ 31000 * 2 ^ 32 ∧
      (|z - expectedPos state dt| ≤ 57 * 65536 ∨
        (z - expectedPos state dt) ^ 2 < 32750 * farCov state dt))
    ⟨fun h => ⟨h.1, h.2.1, h.2.2⟩, fun h => ⟨h.covs, h.prior, h.near⟩⟩

/-- A reset, a first measurement or one after a gap, or a measurement in the room the state
leaves. -/
def BreakRoomed (state : KalmanState) : FilterCall → Prop
  | .reset => True
  | .update zMeas dtSec =>
    Restarts state dtSec ∨
      BreakRoom state (pgMathClamp zMeas 0 (intToQ16 500)) (filterDt dtSec)

instance (state : KalmanState) (call : FilterCall) : Decidable (BreakRoomed state call) := by
  cases call with
  | reset => exact inferInstanceAs (Decidable True)
  | update zMeas dtSec => exact inferInstanceAs (Decidable (_ ∨ _))

theorem nis_eq {y : ℤ} (hy : Fits 32 y) (invS : ℤ) :
    q32ToQ16 (q32Mul (q32Mul (q16ToQ32 y) (q16ToQ32 y)) (q16ToQ32 invS)) =
      i32 (y * y * invS / 2 ^ 32) := by
  obtain ⟨hl, hu⟩ := fits32_iff.mp hy
  have hsq : y * y ≤ 2147483648 * 2147483648 := by nlinarith
  have hscale : y * y * (invS * q16One) / 2 ^ 32 = y * y * invS / 2 ^ 16 := by
    rw [← mul_assoc, show (2 : ℤ) ^ 32 = 2 ^ 16 * q16One by norm_num]
    exact Int.mul_ediv_mul_of_pos_left _ _ (by norm_num)
  have hhalf : y * y * invS / 2 ^ 32 = y * y * invS / 2 ^ 16 / 2 ^ 16 := by
    rw [Int.ediv_ediv_of_nonneg (by norm_num)]
    norm_num
  rw [q32Mul_q16 (by nlinarith) (by omega), q32Mul_eq_i64, q16ToQ32, hscale, hhalf, q32ToQ16]
  have hwrap := narrow_emod 64 (y * y * invS / 2 ^ 16)
  change i64 _ % _ = _ at hwrap
  apply narrow_congr
  omega

theorem kalmanUpdate_nis {state : KalmanState} {zMeas dtSec : ℤ} (h : ¬Restarts state dtSec) :
    (pgKalmanUpdate state zMeas dtSec).1.nis = i32 (exactNis state zMeas dtSec) := by
  have hfits : Fits 32 (innovation state zMeas dtSec) := i32_fits _
  rw [kalmanUpdate_runs h, exactNis, ← nis_eq hfits]
  rfl

theorem kalmanUpdate_restart {state : KalmanState} {zMeas dtSec : ℤ} (h : Restarts state dtSec)
    (hfirst : state.firstRun = true → state.nis = 0) :
    (pgKalmanUpdate state zMeas dtSec).1.nis = 0 := by
  by_cases hgap : dtSec > intToQ16 5
  · simp [pgKalmanUpdate, hgap, pgKalmanReset]
  · have hrun := h.resolve_right hgap
    simp [pgKalmanUpdate, hgap, hrun, hfirst hrun]

theorem kalmanUpdate_firstRun (state : KalmanState) (zMeas dtSec : ℤ) :
    (pgKalmanUpdate state zMeas dtSec).1.firstRun = false := by
  by_cases hstart : Restarts state dtSec
  · simp only [pgKalmanUpdate]
    split
    · rfl
    · next hgap => rw [if_pos (hstart.resolve_right hgap)]
  · rw [kalmanUpdate_runs hstart]
    rfl

theorem exactNis_fits_iff {state : KalmanState} {zMeas dtSec : ℤ} :
    (0 ≤ i32 (exactNis state zMeas dtSec) ∧
      i32 (exactNis state zMeas dtSec) = exactNis state zMeas dtSec) ↔
    innovation state zMeas dtSec * innovation state zMeas dtSec *
      kalmanInvS (innovationCov state zMeas dtSec) ∈ Set.Ico 0 (2 ^ 63) := by
  rw [exactNis]
  generalize innovation state zMeas dtSec * innovation state zMeas dtSec *
    kalmanInvS (innovationCov state zMeas dtSec) = v
  rw [i32_eq_iff, fits32_iff, Set.mem_Ico]
  constructor
  · rintro ⟨h0, hl, hu⟩
    rw [i32_eq hl hu] at h0
    omega
  · rintro ⟨h0, hu⟩
    rw [i32_eq (by omega) (by omega)]
    omega

section Room

variable {state : KalmanState} {y z dt zMeas dtSec : ℤ}

theorem farCov_le (hc : state.CovRange) (hn : state.NoiseRange) (hdt : 0 ≤ dt ∧ dt ≤ 327680)
    (hprior : priorVar state dt ≤ 31000 * 2 ^ 32) (hy : 1310720 ≤ |y|) :
    32750 * farCov state dt ≤
      2 ^ 31 * (kalmanAdapt state y ((kalmanPredict state dt).p00 / 2 ^ 16)).s := by
  obtain ⟨hvar0, hvar, hvar'⟩ := predict_p00_mem hc hn.qVel hdt
  obtain ⟨hcov0, hcov1⟩ := hn.covY
  rw [adapt_s_far hn.covY hy (by omega), farCov]
  omega

theorem BreakRoom.dist (h : BreakRoom state z dt) :
    |z - expectedPos state dt| ≤ 2100000000 := by
  rcases h.near with hnear | hfar
  · exact hnear.trans (by norm_num)
  · have hprior := h.prior
    have hcov : farCov state dt ≤ priorVar state dt + 50 * 2 ^ 32 := min_le_right _ _
    apply abs_le_of_sq_le_sq _ (by norm_num)
    omega

theorem filterDt_mem (h : ¬Restarts state dtSec) : 0 ≤ filterDt dtSec ∧ filterDt dtSec ≤ 327680 := by
  have hgap := (not_or.mp h).2
  have hfive : intToQ16 5 = 327680 := by decide
  have hleast : floatToQ16 1 10000 = 6 := by decide
  rw [hfive] at hgap
  rw [filterDt, hleast]
  split_ifs <;> omega

theorem sq_mul_invS_mem {s : ℤ} (hs : 6553 ≤ s) (hs' : s ≤ 2147483647)
    (hroom : |y| ≤ 57 * 65536 ∨ y ^ 2 < 2 ^ 31 * s) : y * y * kalmanInvS s ∈ Set.Ico 0 (2 ^ 63) := by
  obtain ⟨hinv, hinv', hone⟩ := invS_bounds hs hs'
  have hsq : 0 ≤ y * y := mul_self_nonneg y
  refine ⟨mul_nonneg hsq hinv, ?_⟩
  rcases hroom with hnear | hfar
  · have hsq' : y * y ≤ (57 * 65536) * (57 * 65536) := by
      rw [← abs_mul_abs_self y]
      exact mul_self_le_mul_self (abs_nonneg y) hnear
    calc y * y * kalmanInvS s ≤ (57 * 65536) * (57 * 65536) * 655420 :=
          mul_le_mul hsq' hinv' hinv (by norm_num)
      _ < 2 ^ 63 := by norm_num
  · rcases hinv.eq_or_lt with hzero | hpos
    · rw [← hzero, mul_zero]
      norm_num
    · calc y * y * kalmanInvS s < 2 ^ 31 * s * kalmanInvS s := by
            rw [← sq]
            exact mul_lt_mul_of_pos_right hfar hpos
        _ = 2 ^ 31 * (kalmanInvS s * s) := by ring
        _ ≤ 2 ^ 31 * 2 ^ 32 := mul_le_mul_of_nonneg_left hone (by norm_num)
        _ = 2 ^ 63 := by norm_num

theorem BreakRoom.fits (hrun : ¬Restarts state dtSec) (hn : state.NoiseRange)
    (h : BreakRoom state (pgMathClamp zMeas 0 (intToQ16 500)) (filterDt dtSec)) :
    innovation state zMeas dtSec * innovation state zMeas dtSec *
      kalmanInvS (innovationCov state zMeas dtSec) ∈ Set.Ico 0 (2 ^ 63) := by
  have hdt := filterDt_mem hrun
  have hcap : intToQ16 500 = 32768000 := by decide
  have hz0 : 0 ≤ pgMathClamp zMeas 0 (intToQ16 500) := le_clamp (by decide) _
  have hz1 : pgMathClamp zMeas 0 (intToQ16 500) ≤ 32768000 := hcap ▸ clamp_le (by decide) _
  obtain ⟨hdist, hdist'⟩ := abs_le.mp h.dist
  have hpos : Fits 32 (expectedPos state (filterDt dtSec)) := fits32_iff.mpr ⟨by omega, by omega⟩
  have hy : innovation state zMeas dtSec =
      pgMathClamp zMeas 0 (intToQ16 500) - expectedPos state (filterDt dtSec) := by
    rw [innovation, expected_xPos hpos, i32_eq (by omega) (by omega)]
  obtain ⟨hvar0, -, hvar⟩ := predict_p00_mem h.covs hn.qVel hdt
  have hprior := h.prior
  have hq16 : q32ToQ16 (kalmanPredict state (filterDt dtSec)).p00 =
      (kalmanPredict state (filterDt dtSec)).p00 / 2 ^ 16 := i32_eq (by omega) (by omega)
  rw [innovationCov, hq16]
  obtain ⟨hs, hs'⟩ := innovation_cov_bounds state (innovation state zMeas dtSec)
    (show 0 ≤ (kalmanPredict state (filterDt dtSec)).p00 / 2 ^ 16 by omega) (by omega)
  apply sq_mul_invS_mem (by omega) (by omega)
  rw [hy]
  rcases h.near with hnear | hfar
  · exact Or.inl hnear
  by_cases hsmall : |pgMathClamp zMeas 0 (intToQ16 500) - expectedPos state (filterDt dtSec)| ≤
      57 * 65536
  · exact Or.inl hsmall
  · right
    exact hfar.trans_le (farCov_le h.covs hn hdt hprior (by omega))

end Room

structure Unsignalled (state : KalmanState) : Prop where
  signal : state.firstRun = true → state.nis = 0
  noise : state.NoiseRange

theorem unsignalled_reset : Unsignalled pgKalmanReset :=
  ⟨fun _ => rfl, ⟨by decide, by decide⟩⟩

theorem Unsignalled.call {state : KalmanState} (h : Unsignalled state) (call : FilterCall) :
    Unsignalled (filterCall state call) := by
  cases call with
  | reset => exact unsignalled_reset
  | update zMeas dtSec =>
    refine ⟨fun hfirst => ?_, h.noise.update zMeas dtSec⟩
    exact absurd (hfirst.symm.trans (kalmanUpdate_firstRun state zMeas dtSec)) (by simp)

theorem nisExact_of_room {state : KalmanState} (h : Unsignalled state) {call : FilterCall}
    (hroom : BreakRoomed state call) : NisExact state call := by
  cases call with
  | reset => trivial
  | update zMeas dtSec =>
    simp only [NisExact]
    by_cases hstart : Restarts state dtSec
    · simp [hstart, kalmanUpdate_restart hstart h.signal]
    · rw [if_neg hstart, kalmanUpdate_nis hstart, exactNis_fits_iff]
      exact BreakRoom.fits hstart h.noise (hroom.resolve_left hstart)

theorem break_signal (calls : List FilterCall)
    (hroom : Along filterCall BreakRoomed pgKalmanInit calls) :
    Along filterCall NisExact pgKalmanInit calls := by
  have hstep (state : KalmanState) (call : FilterCall) (h : Unsignalled state)
      (_ : BreakRoomed state call) : Unsignalled (filterCall state call) := h.call call
  have hexact (state : KalmanState) (call : FilterCall) (h : Unsignalled state)
      (hcall : BreakRoomed state call) : NisExact state call := nisExact_of_room h hcall
  exact along_of_invariant hstep hexact unsignalled_reset hroom

def FilterCall.Valid : FilterCall → Prop
  | .reset => True
  | .update zMeas dtSec => (0 ≤ zMeas ∧ zMeas ≤ intToQ16 500) ∧
      floatToQ16 1 1000 ≤ dtSec ∧ dtSec ≤ int32Max

instance (call : FilterCall) : Decidable call.Valid := by
  cases call with
  | reset => exact inferInstanceAs (Decidable True)
  | update zMeas dtSec => exact inferInstanceAs (Decidable (_ ∧ _))

def spikes : List FilterCall :=
  [.update 0 65536, .update 0 65536, .update (500 * 65536) 65536, .update (400 * 65536) 32768,
    .update 0 65536]

theorem break_signal_spikes : Along filterCall NisExact pgKalmanInit spikes :=
  break_signal spikes (by decide +kernel)

def spikeAndGap : List FilterCall :=
  [.update 0 65536, .update 0 65536, .update (500 * 65536) 65536, .update 0 (5 * 65536)]

theorem break_signal_lost : ¬∀ calls : List FilterCall, (∀ call ∈ calls, call.Valid) →
    Along filterCall NisExact pgKalmanInit calls := by
  intro h
  have hrun := h spikeAndGap (by decide)
  exact absurd hrun.2.2.2.1 (by decide +kernel)

end Pgov
