import Pgov.DemandOrder
import Pgov.Runs

namespace Pgov

open FixedWidth Rounding Runs

def restInput (tgt thScl dt : ℤ) : DemandInput :=
  { tgtPsi := tgt, vel := 0, dtSafe := dt, thermScale := thScl, trendFact := 0, integ := 0,
    integDt := 0, structBreak := false }

def restEff (thScl avg300 : ℤ) : CpuEff := pgCpuUpdEff (intToQ16 100) thScl avg300

def restGain (thScl : ℤ) : ℤ := 31 * thScl * (thScl * thScl / 2 ^ 16) / 2 ^ 16

section Coefficients

variable {th avg300 tgt dt : ℤ}

theorem restEff_respGain (hth : 6553 ≤ th ∧ th ≤ 65536) (avg300 : ℤ) :
    (restEff th avg300).respGain = 31 * th := by
  have hbat : q16Div (pgMathClamp (intToQ16 100) 0 (intToQ16 100)) (intToQ16 100) = 65536 := by
    decide
  have hhealth : q16Mul 65536 th = th := by
    rw [q16Mul_eq (by omega) (by omega)]
    omega
  have h31 : floatToQ16 31 1 = 2031616 := by decide
  simp only [restEff, pgCpuUpdEff, hbat, hhealth, h31]
  rw [q16Mul_eq (by omega) (by omega)]
  omega

theorem restGain_eq (hth : 6553 ≤ th ∧ th ≤ 65536) (avg300 tgt dt : ℤ) :
    demandGain (restEff th avg300) (restInput tgt th dt) = restGain th := by
  have hclamp : pgMathClamp th (floatToQ16 1 10) q16One = th := by
    apply clamp_of_mem
    · exact le_trans (by decide) hth.1
    · exact hth.2
  have htrend : i32 (q16One + q16Mul (restEff th avg300).gainAlpha 0) = 65536 := by
    rw [q16Mul, mul_zero]
    decide
  have hth0 : 0 ≤ th ∧ th ≤ 65536 := ⟨by omega, hth.2⟩
  obtain ⟨hsq, hsq0, hsq1⟩ := q16Mul_mem hth0 hth0 (by norm_num)
  have hdyn : q16Mul (31 * th) 65536 = 31 * th := by
    rw [q16Mul_eq (by omega) (by omega)]
    omega
  obtain ⟨hk, -⟩ := q16Mul_mem (a := 31 * th) (A := 2031616) ⟨by omega, by omega⟩ ⟨hsq0, hsq1⟩
    (by norm_num)
  simp only [demandGain, restInput, htrend, hclamp, restEff_respGain hth, hdyn]
  rw [hk, hsq, restGain]

theorem restGain_bounds (hth : 6553 ≤ th ∧ th ≤ 65536) :
    0 ≤ restGain th ∧ restGain th ≤ 31 * th ∧ restGain th * 2 ^ 32 ≤ 31 * (th * th * th) ∧
      31 * (th * th * th) ≤ restGain th * 2 ^ 32 + 31 * 65535 * th + 65535 * 65536 := by
  have hsq0 : 0 ≤ th * th / 2 ^ 16 := by
    have := mul_self_nonneg th
    omega
  have hsq1 : th * th / 2 ^ 16 * 65536 ≤ th * th := Int.ediv_mul_le _ (by norm_num)
  have hsq2 : th * th ≤ th * th / 2 ^ 16 * 65536 + 65535 := by omega
  have hsq3 : th * th / 2 ^ 16 ≤ 65536 := by
    have : th * th ≤ 65536 * 65536 := mul_le_mul hth.2 hth.2 (by omega) (by norm_num)
    omega
  rw [restGain]
  generalize th * th / 2 ^ 16 = sq at *
  have hp0 : 0 ≤ 31 * th * sq := mul_nonneg (by omega) hsq0
  have hp1 : 31 * th * sq ≤ 31 * th * 65536 := mul_le_mul_of_nonneg_left hsq3 (by omega)
  have h31 : 0 ≤ 31 * th := by omega
  have hcube : 31 * th * sq * 65536 ≤ 31 * (th * th * th) := by
    have := mul_le_mul_of_nonneg_left hsq1 h31
    linarith
  have hcube' : 31 * (th * th * th) ≤ 31 * th * sq * 65536 + 31 * 65535 * th := by
    have := mul_le_mul_of_nonneg_left hsq2 h31
    linarith
  refine ⟨by omega, by omega, by omega, by omega⟩

theorem restDamping_ge (hth : 6553 ≤ th ∧ th ≤ 65536) (avg300 : ℤ) :
    33 * th ≤ 2 * restDamping (restGain th) th (restEff th avg300) := by
  have he : (restEff th avg300).Driven := updEff_driven _ _ ⟨by omega, hth.2⟩
  obtain ⟨hk0, hk1, -, hk3⟩ := restGain_bounds hth
  have hk : 0 ≤ restGain th ∧ restGain th ≤ 4042896 := ⟨hk0, by omega⟩
  obtain ⟨hbase, -⟩ := calcCBase_eq hk he
  obtain ⟨hs0, -, hs2⟩ := q16Sqrt_spec hk0 (by omega)
  obtain ⟨-, ht1, -⟩ := q16Sqrt_spec (show 0 ≤ th by omega) (by omega)
  obtain ⟨hroot0, hroot1⟩ := thermRoot_mem hth
  have hb : 3 * pgMathQ16Sqrt (restGain th) ≤ calcCBase (restGain th) (restEff th avg300) := by
    have hstab : 2 * pgMathQ16Sqrt (restGain th) * 98304 ≤
        2 * pgMathQ16Sqrt (restGain th) * (restEff th avg300).stabRat :=
      mul_le_mul_of_nonneg_left he.stabRat.1 (by omega)
    rw [hbase]
    omega
  have hdiv : calcCBase (restGain th) (restEff th avg300) * 65536 <
      (restDamping (restGain th) th (restEff th avg300) + 1) * pgMathQ16Sqrt th := by
    rw [← Int.ediv_lt_iff_lt_mul (by omega)]
    exact Int.lt_succ _
  generalize restDamping (restGain th) th (restEff th avg300) = c at hdiv
  generalize calcCBase (restGain th) (restEff th avg300) = base at hb hdiv
  generalize pgMathQ16Sqrt (restGain th) = s at hs0 hs2 hb
  generalize pgMathQ16Sqrt th = t at ht1 hroot0 hroot1 hdiv
  by_contra hlt
  -- too small a damping would need a root below that of the gain
  have hroot : 393216 * s < (33 * th + 1) * t := by
    have hc : (2 * c + 2) * t ≤ (33 * th + 1) * t := mul_le_mul_of_nonneg_right (by omega) (by omega)
    linarith
  have hlin : 6 * s < 33 * th + 1 := by
    have := mul_le_mul_of_nonneg_left hroot1 (show 0 ≤ 33 * th + 1 by omega)
    omega
  have hsquare : 2359296 * (s * s) < (33 * th + 1) * (33 * th + 1) * th := by
    have hsq : 393216 * s * (393216 * s) < (33 * th + 1) * t * ((33 * th + 1) * t) :=
      mul_self_lt_mul_self (by omega) hroot
    have ht2 : (33 * th + 1) * (33 * th + 1) * (t * t) ≤
        (33 * th + 1) * (33 * th + 1) * (th * 65536) :=
      mul_le_mul_of_nonneg_left ht1 (mul_self_nonneg _)
    linarith
  have hcube : 6553 * 6553 * th ≤ th * th * th :=
    mul_le_mul_of_nonneg_right (mul_le_mul hth.1 hth.1 (by norm_num) (by omega)) (by omega)
  nlinarith

theorem restCReq_eq (psiVal : ℤ) : calcCReq 0 0 psiVal = 0 := by
  have h0 (b : ℤ) : q32Mul (q16ToQ32 (q16Mul q16Half (absQ16 0))) b = 0 := by
    have hz : q16ToQ32 (q16Mul q16Half (absQ16 0)) = 0 := by decide
    rw [hz, q32Mul_eq_i64, zero_mul]
    decide
  simp only [calcCReq, h0, Int.zero_tdiv, ite_self]

theorem restCFinal_eq (hth : 6553 ≤ th ∧ th ≤ 65536) (avg300 psiVal : ℤ) :
    calcCFinal (restGain th) 0 0 psiVal th (restEff th avg300) =
      restDamping (restGain th) th (restEff th avg300) := by
  have he : (restEff th avg300).Driven := updEff_driven _ _ ⟨by omega, hth.2⟩
  obtain ⟨hk0, hk1, -, -⟩ := restGain_bounds hth
  have hk : 0 ≤ restGain th ∧ restGain th ≤ 4042896 := ⟨hk0, by omega⟩
  obtain ⟨-, hb0, hb1⟩ := calcCBase_eq hk he
  obtain ⟨hroot0, -⟩ := thermRoot_mem hth
  obtain ⟨hdiv, hq0, -⟩ := restDamping_eq hk he hth
  obtain ⟨-, hm0, -⟩ := q16Mul_mem (b := intToQ16 4) (B := 262144) ⟨hb0, hb1⟩ (by decide)
    (by norm_num)
  have hclp : (if (0 : ℤ) ≥ q16Mul (calcCBase (restGain th) (restEff th avg300)) (intToQ16 4) then
      q16Mul (calcCBase (restGain th) (restEff th avg300)) (intToQ16 4)
      else if (0 : ℤ) ≤ 0 then 0 else i32 0) = 0 := by
    split_ifs <;> omega
  have hstb : q16Mul 0 (floatToQ16 31 10) = 0 := by decide
  simp only [calcCFinal, restCReq_eq, hclp, hstb, if_pos (show pgMathQ16Sqrt th > 0 by omega), hdiv]
  split_ifs <;> omega

theorem restLTerm_eq {psiVal : ℤ} (hth : 6553 ≤ th ∧ th ≤ 65536)
    (hp : 0 ≤ psiVal ∧ psiVal ≤ 32768000) : calcLTerm 0 psiVal (restGain th) = 0 := by
  obtain ⟨hk0, hk1, -, -⟩ := restGain_bounds hth
  have hmem := calcLTerm_mem ⟨hk0, by omega⟩ (show (0 : ℤ) ≤ 0 ∧ (0 : ℤ) ≤ 6356992 by norm_num) hp
  have hzero : q32Mul (q16ToQ32 0) (q16ToQ32 psiVal) = 0 := by
    rw [q32Mul_q16 (by omega) (by omega), zero_mul]
  have hle : calcLTerm 0 psiVal (restGain th) ≤ 0 := by
    simp only [calcLTerm, hzero]
    split_ifs <;> omega
  exact le_antisymm hle hmem.1

end Coefficients

/-- The cone the model stays in: it moves towards the target, no faster than four times the
thermal scale times the distance left. -/
structure Approaching (tgt th avg300 : ℤ) (state : LoadState) : Prop where
  eff : state.eff = restEff th avg300
  psiVal : 0 ≤ state.psiVal
  rate : 0 ≤ state.rate
  cone : state.rate * 65536 ≤ 4 * th * (tgt - state.psiVal)

theorem cone_dist {th rate d : ℤ} (hth : 0 < th) (hr : 0 ≤ rate)
    (hcone : rate * 65536 ≤ 4 * th * d) : 0 ≤ d := by
  by_contra hneg
  have := mul_neg_of_pos_of_neg (show 0 < 4 * th by omega) (not_le.mp hneg)
  omega

theorem cone_margin {th dt : ℤ} (hth : 6553 ≤ th ∧ th ≤ 65536) (hdt : 1 ≤ dt ∧ dt ≤ 6553) :
    17179607040 ≤ th * dt * (3276800 - 31 * th - 124 * dt) := by
  have hsq : 0 ≤ (th - 6553) * (65536 - th) := mul_nonneg (by omega) (by omega)
  have hthermal : 20141674321 - 812572 * dt ≤ th * (3276800 - 31 * th - 124 * dt) := by
    have hlin : 0 ≤ (th - 6553) * (1042041 - 124 * dt) := mul_nonneg (by omega) (by omega)
    linarith
  have hstep : 0 ≤ (dt - 1) * (20141674321 - 812572 * (dt + 1)) := mul_nonneg (by omega) (by omega)
  calc (17179607040 : ℤ) ≤ 20141674321 - 812572 := by norm_num
    _ ≤ dt * (20141674321 - 812572 * dt) := by linarith
    _ ≤ dt * (th * (3276800 - 31 * th - 124 * dt)) := by
        apply mul_le_mul_of_nonneg_left hthermal
        omega
    _ = th * dt * (3276800 - 31 * th - 124 * dt) := by ring

theorem cone_step {th k c g dt e rate push : ℤ} (hth : 6553 ≤ th ∧ th ≤ 65536)
    (hdt : 1 ≤ dt ∧ dt ≤ 6553) (he : 0 ≤ e) (hk1 : k ≤ 31 * th)
    (hk : k * 2 ^ 32 ≤ 31 * (th * th * th)) (hc : 33 * th ≤ 2 * c)
    (hg : c * dt ≤ g * 65536 + 65535) (hrate : rate * 65536 ≤ 4 * th * e)
    (hpush : push * 2 ^ 32 ≤ k * e * dt) :
    (rate + push) * (2 ^ 32 + 4 * th * dt) ≤ 4 * th * e * (65536 + g) := by
  have hmargin := cone_margin hth hdt
  have hcdt : 33 * th * dt ≤ 2 * c * dt := mul_le_mul_of_nonneg_right hc (by omega)
  have hdamp : th * dt * (1048576 + 31 * th + 124 * dt) ≤ 2 ^ 34 * g := by linarith
  have hthdt : 0 ≤ 4 * th * dt := mul_nonneg (by omega) (by omega)
  have hkth : k * (4 * th * dt * dt) ≤ 31 * th * (4 * th * dt * dt) :=
    mul_le_mul_of_nonneg_right hk1 (mul_nonneg hthdt (by omega))
  have hkdt : k * 2 ^ 32 * dt ≤ 31 * (th * th * th) * dt := mul_le_mul_of_nonneg_right hk (by omega)
  have hcoef : (4 * th * 65536 + k * dt) * (2 ^ 32 + 4 * th * dt) ≤
      4 * th * 2 ^ 32 * (65536 + g) := by
    have hth0 : th * (th * dt * (1048576 + 31 * th + 124 * dt)) ≤ th * (2 ^ 34 * g) :=
      mul_le_mul_of_nonneg_left hdamp (by omega)
    linarith
  have hsum : (rate + push) * 2 ^ 32 ≤ e * (4 * th * 65536 + k * dt) := by linarith
  have hpos : 0 ≤ 2 ^ 32 + 4 * th * dt := by linarith
  have hscaled : 2 ^ 32 * ((rate + push) * (2 ^ 32 + 4 * th * dt)) ≤
      2 ^ 32 * (4 * th * e * (65536 + g)) := by
    calc 2 ^ 32 * ((rate + push) * (2 ^ 32 + 4 * th * dt))
        = (rate + push) * 2 ^ 32 * (2 ^ 32 + 4 * th * dt) := by ring
      _ ≤ e * (4 * th * 65536 + k * dt) * (2 ^ 32 + 4 * th * dt) :=
          mul_le_mul_of_nonneg_right hsum hpos
      _ = e * ((4 * th * 65536 + k * dt) * (2 ^ 32 + 4 * th * dt)) := by ring
      _ ≤ e * (4 * th * 2 ^ 32 * (65536 + g)) := mul_le_mul_of_nonneg_left hcoef he
      _ = 2 ^ 32 * (4 * th * e * (65536 + g)) := by ring
  exact le_of_mul_le_mul_left hscaled (by norm_num)

theorem cone_move {th k c dt e rate : ℤ} (hth : 6553 ≤ th ∧ th ≤ 65536) (hdt : 1 ≤ dt ∧ dt ≤ 6553)
    (he : 0 ≤ e) (hk0 : 0 ≤ k) (hk1 : k ≤ 31 * th) (hk : k * 2 ^ 32 ≤ 31 * (th * th * th))
    (hc : 33 * th ≤ 2 * c) (hr : 0 ≤ rate) (hrate : rate * 65536 ≤ 4 * th * e) :
    0 ≤ movedRate rate (k * e) c dt ∧ 0 ≤ movedRate rate (k * e) c dt * dt / 2 ^ 16 ∧
      movedRate rate (k * e) c dt * dt / 2 ^ 16 ≤ e ∧
      movedRate rate (k * e) c dt * 65536 ≤
        4 * th * (e - movedRate rate (k * e) c dt * dt / 2 ^ 16) := by
  have hf0 : 0 ≤ k * e := mul_nonneg hk0 he
  have hpush0 : 0 ≤ k * e / 2 ^ 16 * dt / 2 ^ 16 :=
    Int.ediv_nonneg (mul_nonneg (Int.ediv_nonneg hf0 (by norm_num)) (by omega)) (by norm_num)
  have hpush : k * e / 2 ^ 16 * dt / 2 ^ 16 * 2 ^ 32 ≤ k * e * dt := by
    have hfdt : k * e / 2 ^ 16 * 2 ^ 16 * dt ≤ k * e * dt :=
      mul_le_mul_of_nonneg_right (Int.ediv_mul_le _ (by norm_num)) (by omega)
    have hq := Int.ediv_mul_le (k * e / 2 ^ 16 * dt) (show (2 ^ 16 : ℤ) ≠ 0 by norm_num)
    linarith
  have hcdt0 : 0 ≤ c * dt := mul_nonneg (by omega) (by omega)
  have hcone := cone_step hth hdt he hk1 hk hc
    (show c * dt ≤ c * dt / 2 ^ 16 * 65536 + 65535 by omega) hrate hpush
  have hg0 : 0 ≤ c * dt / 2 ^ 16 := by omega
  simp only [movedRate]
  generalize k * e / 2 ^ 16 * dt / 2 ^ 16 = push at hpush0 hcone ⊢
  generalize c * dt / 2 ^ 16 = g at hcone hg0 ⊢
  have hnum : 0 ≤ (rate + push) * 65536 := by omega
  have hnext0 : 0 ≤ ((rate + push) * 65536).tdiv (65536 + g) := Int.tdiv_nonneg hnum (by omega)
  have hnext1 : ((rate + push) * 65536).tdiv (65536 + g) * (65536 + g) ≤ (rate + push) * 65536 := by
    rw [Int.tdiv_eq_ediv_of_nonneg hnum]
    exact Int.ediv_mul_le _ (by omega)
  generalize ((rate + push) * 65536).tdiv (65536 + g) = next at hnext0 hnext1 ⊢
  have hmoved0 : 0 ≤ next * dt / 2 ^ 16 := by
    have := mul_nonneg hnext0 (show 0 ≤ dt by omega)
    omega
  have hmoved1 : next * dt / 2 ^ 16 * 65536 ≤ next * dt := Int.ediv_mul_le _ (by norm_num)
  generalize next * dt / 2 ^ 16 = moved at hmoved0 hmoved1 ⊢
  have hwide : next * (2 ^ 32 + 4 * th * dt) ≤ 4 * th * e * 65536 := by
    have hthdt : 0 ≤ 4 * th * dt := mul_nonneg (by omega) (by omega)
    have hpos : 0 ≤ 2 ^ 32 + 4 * th * dt := by linarith
    have hscaled : next * (2 ^ 32 + 4 * th * dt) * (65536 + g) ≤
        4 * th * e * 65536 * (65536 + g) := by
      calc next * (2 ^ 32 + 4 * th * dt) * (65536 + g)
          = next * (65536 + g) * (2 ^ 32 + 4 * th * dt) := by ring
        _ ≤ (rate + push) * 65536 * (2 ^ 32 + 4 * th * dt) :=
            mul_le_mul_of_nonneg_right hnext1 hpos
        _ = (rate + push) * (2 ^ 32 + 4 * th * dt) * 65536 := by ring
        _ ≤ 4 * th * e * (65536 + g) * 65536 := mul_le_mul_of_nonneg_right hcone (by norm_num)
        _ = 4 * th * e * 65536 * (65536 + g) := by ring
    exact le_of_mul_le_mul_right hscaled (by omega)
  have hnext : next * 65536 ≤ 4 * th * (e - moved) := by
    have hthm : 4 * th * (moved * 65536) ≤ 4 * th * (next * dt) :=
      mul_le_mul_of_nonneg_left hmoved1 (by omega)
    linarith
  have hbelow : moved ≤ e := by
    have := cone_dist (by omega) hnext0 hnext
    omega
  exact ⟨hnext0, hmoved0, hbelow, hnext⟩

section Step

variable {tgt th avg300 dt : ℤ} {state : LoadState}

theorem restKick_eq (cfg : CpuCfg) (hr : 0 ≤ state.rate ∧ state.rate ≤ 1342177280) :
    demandKick state (restInput tgt th dt) cfg = state := by
  have hzero : q16Mul 0 state.eff.surgeGain = 0 := by
    rw [q16Mul, zero_mul]
    decide
  have hrate : i32 state.rate = state.rate := i32_eq (by omega) (by omega)
  simp only [demandKick, restInput, Bool.false_eq_true, ↓reduceIte, hzero, add_zero, hrate, ite_self]

theorem restForce_eq {e : ℤ} (hth : 6553 ≤ th ∧ th ≤ 65536) (he : 0 ≤ e ∧ e ≤ 32768000) :
    demandForce (restGain th) e 0 = restGain th * e := by
  obtain ⟨hk0, hk1, -, -⟩ := restGain_bounds hth
  have hf0 : 0 ≤ restGain th * e := mul_nonneg hk0 he.1
  have hf1 : restGain th * e ≤ 2031616 * 32768000 := mul_le_mul (by omega) he.2 he.1 (by norm_num)
  rw [demandForce_eq ⟨hk0, by omega⟩ ⟨by omega, by omega⟩ (by norm_num), sub_zero]
  apply clamp_of_mem <;> omega

theorem restDrive_eq (hth : 6553 ≤ th ∧ th ≤ 65536) (htgt : tgt ≤ 32768000)
    (heff : state.eff = restEff th avg300) (hp : 0 ≤ state.psiVal ∧ state.psiVal ≤ tgt) :
    demandDrive state (restInput tgt th dt) =
      demandMove state (restGain th * (tgt - state.psiVal))
        (restDamping (restGain th) th (restEff th avg300)) dt := by
  have hclamp : pgMathClamp th (floatToQ16 1 10) q16One = th := by
    apply clamp_of_mem
    · exact le_trans (by decide) hth.1
    · exact hth.2
  have hlook : i32 (i32 (tgt + q16Mul 0 (restEff th avg300).lookahead) - state.psiVal) =
      tgt - state.psiVal := by
    have hzero : q16Mul 0 (restEff th avg300).lookahead = 0 := by
      rw [q16Mul, zero_mul]
      decide
    rw [hzero, add_zero, i32_eq (x := tgt) (by omega) (by omega), i32_eq (by omega) (by omega)]
  have hgain := restGain_eq hth avg300 tgt dt
  have hlt := restLTerm_eq hth (⟨hp.1, by omega⟩ : 0 ≤ state.psiVal ∧ state.psiVal ≤ 32768000)
  simp only [demandDrive, heff, hgain]
  simp only [restInput, hclamp, hlook, hlt, restCFinal_eq hth]
  rw [restForce_eq hth ⟨by omega, by omega⟩]

theorem Approaching.step (hth : 6553 ≤ th ∧ th ≤ 65536) (htgt : 65536 ≤ tgt ∧ tgt ≤ 32768000)
    (cfg : CpuCfg) (hdt : 1 ≤ dt ∧ dt ≤ 6553) (h : Approaching tgt th avg300 state) :
    Approaching tgt th avg300 (pgCpuCalcLoadDemand state (restInput tgt th dt) cfg).1 ∧
      (pgCpuCalcLoadDemand state (restInput tgt th dt) cfg).2 =
        (pgCpuCalcLoadDemand state (restInput tgt th dt) cfg).1.psiVal ∧
      state.psiVal ≤ (pgCpuCalcLoadDemand state (restInput tgt th dt) cfg).2 := by
  have he0 : 0 ≤ tgt - state.psiVal := cone_dist (by omega) h.rate h.cone
  have hp : 0 ≤ state.psiVal ∧ state.psiVal ≤ tgt := ⟨h.psiVal, by omega⟩
  have hr : 0 ≤ state.rate ∧ state.rate ≤ 1342177280 := by
    refine ⟨h.rate, ?_⟩
    have hle : 4 * th * (tgt - state.psiVal) ≤ 4 * 65536 * 32768000 :=
      mul_le_mul (by omega) (by omega) he0 (by norm_num)
    have := h.cone
    omega
  have hidle : ¬demandIdle state (restInput tgt th dt) := by
    rintro ⟨hlt, -⟩
    have hone : intToQ16 1 = 65536 := by decide
    simp only [restInput, hone] at hlt
    omega
  rw [pgCpuCalcLoadDemand, if_neg hidle, restKick_eq cfg hr,
    restDrive_eq hth htgt.2 h.eff hp]
  have hdriven : (restEff th avg300).Driven := updEff_driven _ _ ⟨by omega, hth.2⟩
  obtain ⟨hk0, hk1, hk2, -⟩ := restGain_bounds hth
  have hk : 0 ≤ restGain th ∧ restGain th ≤ 4042896 := ⟨hk0, by omega⟩
  obtain ⟨-, hc0, hc1⟩ := restDamping_eq hk hdriven hth
  have hf0 : 0 ≤ restGain th * (tgt - state.psiVal) := mul_nonneg hk0 he0
  have hf1 : restGain th * (tgt - state.psiVal) ≤ 2031616 * 32768000 :=
    mul_le_mul (by omega) (by omega) he0 (by norm_num)
  obtain ⟨hrate0, hmoved0, hmoved1, hcone⟩ := cone_move hth hdt he0 hk0 hk1 hk2
    (restDamping_ge hth avg300) h.rate h.cone
  rw [demandMove_eq ⟨hp.1, by omega⟩ ⟨by omega, hr.2⟩ ⟨by omega, by omega⟩ ⟨hc0, by omega⟩ hdt]
  simp only
  rw [if_neg (by omega), if_neg (by omega)]
  refine ⟨⟨h.eff, ?_, hrate0, ?_⟩, trivial, ?_⟩
  · exact add_nonneg h.psiVal hmoved0
  · simpa only [sub_sub] using hcone
  · exact le_add_of_nonneg_right hmoved0

end Step

def demandValues (cfg : CpuCfg) (tgt thScl : ℤ) : LoadState → List ℤ → List ℤ
  | _, [] => []
  | state, dt :: dts =>
    let (state, val) := pgCpuCalcLoadDemand state (restInput tgt thScl dt) cfg
    val :: demandValues cfg tgt thScl state dts

theorem Approaching.values {tgt th avg300 : ℤ} {state : LoadState} (hth : 6553 ≤ th ∧ th ≤ 65536)
    (htgt : 65536 ≤ tgt ∧ tgt ≤ 32768000) (cfg : CpuCfg) (h : Approaching tgt th avg300 state)
    {dts : List ℤ} (hdts : ∀ dt ∈ dts, 1 ≤ dt ∧ dt ≤ 6553) :
    (∀ val ∈ demandValues cfg tgt th state dts, state.psiVal ≤ val ∧ val ≤ tgt) ∧
      (demandValues cfg tgt th state dts).Pairwise (· ≤ ·) := by
  induction dts generalizing state with
  | nil => simp [demandValues]
  | cons dt dts ih =>
    obtain ⟨hnext, hval, hle⟩ := h.step hth htgt cfg (hdts dt (by simp))
    obtain ⟨hbound, hsorted⟩ := ih hnext (fun d hd => hdts d (List.mem_cons_of_mem _ hd))
    have hle' : (pgCpuCalcLoadDemand state (restInput tgt th dt) cfg).2 ≤ tgt := by
      have hdist := cone_dist (by omega) hnext.rate hnext.cone
      rw [hval]
      omega
    simp only [demandValues, List.mem_cons, List.pairwise_cons]
    refine ⟨?_, ?_, hsorted⟩
    · rintro val (rfl | hmem)
      · exact ⟨hle, hle'⟩
      · obtain ⟨h0, h1⟩ := hbound val hmem
        exact ⟨hle.trans (hval.trans_le h0), h1⟩
    · intro val hmem
      exact hval.trans_le (hbound val hmem).1

theorem demand_no_overshoot (cfg : CpuCfg) {thScl avg300 tgt : ℤ}
    (hth : floatToQ16 1 10 ≤ thScl ∧ thScl ≤ q16One)
    (htgt : intToQ16 1 ≤ tgt ∧ tgt ≤ intToQ16 500) {state : LoadState}
    (heff : state.eff = pgCpuUpdEff (intToQ16 100) thScl avg300)
    (hp : 0 ≤ state.psiVal ∧ state.psiVal ≤ tgt) (hrate : state.rate = 0) {dts : List ℤ}
    (hdts : ∀ dt ∈ dts, 1 ≤ dt ∧ dt ≤ floatToQ16 1 10) :
    (∀ val ∈ demandValues cfg tgt thScl state dts, state.psiVal ≤ val ∧ val ≤ tgt) ∧
      (demandValues cfg tgt thScl state dts).Pairwise (· ≤ ·) := by
  have h01 : floatToQ16 1 10 = 6553 := by decide
  have h1 : intToQ16 1 = 65536 := by decide
  have h500 : intToQ16 500 = 32768000 := by decide
  rw [h01] at hth hdts
  rw [h1, h500] at htgt
  have hstart : Approaching tgt thScl avg300 state := by
    constructor
    · exact heff
    · exact hp.1
    · exact hrate.ge
    · rw [hrate, zero_mul]
      apply mul_nonneg <;> omega
  exact hstart.values hth htgt cfg hdts

theorem demand_no_overshoot_cold :
    (∀ val ∈ demandValues cfgCpu 6553600 65536
        ⟨0, 0, 0, 0, false, pgCpuUpdEff (intToQ16 100) 65536 0⟩ [6553, 1, 3277], 0 ≤ val ∧
          val ≤ 6553600) ∧
      (demandValues cfgCpu 6553600 65536
        ⟨0, 0, 0, 0, false, pgCpuUpdEff (intToQ16 100) 65536 0⟩ [6553, 1, 3277]).Pairwise
          (· ≤ ·) :=
  demand_no_overshoot cfgCpu (by decide) (by decide) rfl (by decide) rfl (by decide)

end Pgov
