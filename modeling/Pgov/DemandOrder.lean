import Pgov.CurveOrder
import Pgov.LoadDemand

namespace Pgov

open FixedWidth Rounding

/-- The gains `pg_cpu_upd_eff` hands the load model at a thermal scale in [0, 1]. -/
structure CpuEff.Driven (eff : CpuEff) : Prop where
  respGain : 0 ≤ eff.respGain ∧ eff.respGain ≤ 2031616
  surgeGain : 0 ≤ eff.surgeGain ∧ eff.surgeGain ≤ 6225
  lookahead : 0 ≤ eff.lookahead ∧ eff.lookahead ≤ 11141
  stabRat : 98304 ≤ eff.stabRat ∧ eff.stabRat ≤ 229376
  gainAlpha : 0 ≤ eff.gainAlpha ∧ eff.gainAlpha ≤ 64880

theorem updEff_driven (batLvl avg300 : ℤ) {thScl : ℤ} (hth : 0 ≤ thScl ∧ thScl ≤ 65536) :
    (pgCpuUpdEff batLvl thScl avg300).Driven := by
  obtain ⟨-, hhealth⟩ := q16Mul_mem (batFact_mem batLvl) hth (by norm_num)
  obtain ⟨-, hresp⟩ := q16Mul_mem (a := floatToQ16 31 1) (A := 2031616) (by decide) hhealth
    (by norm_num)
  obtain ⟨-, hsurge⟩ := q16Mul_mem (a := floatToQ16 95 1000) (A := 6225) (by decide) hhealth
    (by norm_num)
  obtain ⟨-, hlook⟩ := q16Mul_mem (a := floatToQ16 17 100) (A := 11141) (by decide) hth (by norm_num)
  have hn0 : 0 ≤ pgMathClamp (q16Mul avg300 (floatToQ16 1 10)) 0 65536 := le_clamp (by norm_num) _
  have hn1 : pgMathClamp (q16Mul avg300 (floatToQ16 1 10)) 0 65536 ≤ 65536 :=
    clamp_le (by norm_num) _
  constructor
  · exact hresp
  · exact hsurge
  · exact hlook
  · simp only [pgCpuUpdEff]
    generalize pgMathClamp (q16Mul avg300 (floatToQ16 1 10)) 0 65536 = noise at hn0 hn1 ⊢
    rw [lerp_eq (by decide) (by decide) hn0 hn1]
    have h15 : floatToQ16 15 10 = 98304 := by decide
    have h35 : floatToQ16 35 10 = 229376 := by decide
    rw [h15, h35]
    omega
  · simp only [pgCpuUpdEff]
    generalize pgMathClamp (q16Mul avg300 (floatToQ16 1 10)) 0 65536 = noise at hn0 hn1 ⊢
    rw [lerp_eq (by decide) (by decide) hn0 hn1]
    have h99 : floatToQ16 99 100 = 64880 := by decide
    have h85 : floatToQ16 85 100 = 55705 := by decide
    rw [h99, h85]
    omega

theorem thermClamp_mem (thermScale : ℤ) :
    6553 ≤ pgMathClamp thermScale (floatToQ16 1 10) q16One ∧
      pgMathClamp thermScale (floatToQ16 1 10) q16One ≤ 65536 :=
  ⟨le_clamp (by decide) _, clamp_le (by decide) _⟩

theorem demandGain_mem {eff : CpuEff} (he : eff.Driven) {input : DemandInput}
    (ht : 0 ≤ input.trendFact ∧ input.trendFact ≤ 65536) :
    0 ≤ demandGain eff input ∧ demandGain eff input ≤ 4042896 := by
  obtain ⟨-, htr0, htr1⟩ := q16Mul_mem he.gainAlpha ht (by norm_num)
  have hone : i32 (q16One + q16Mul eff.gainAlpha input.trendFact) =
      65536 + q16Mul eff.gainAlpha input.trendFact := by
    apply i32_eq <;> simp only [q16One] <;> omega
  have hgain : 0 ≤ 65536 + q16Mul eff.gainAlpha input.trendFact ∧
      65536 + q16Mul eff.gainAlpha input.trendFact ≤ 130416 := by omega
  obtain ⟨-, hdyn⟩ := q16Mul_mem he.respGain hgain (by norm_num)
  obtain ⟨hth0, hth1⟩ := thermClamp_mem input.thermScale
  have hth : 0 ≤ pgMathClamp input.thermScale (floatToQ16 1 10) q16One ∧
      pgMathClamp input.thermScale (floatToQ16 1 10) q16One ≤ 65536 := ⟨by omega, hth1⟩
  obtain ⟨-, hsq⟩ := q16Mul_mem hth hth (by norm_num)
  obtain ⟨-, hk0, hk1⟩ := q16Mul_mem hdyn hsq (by norm_num)
  simp only [demandGain, hone]
  exact ⟨hk0, hk1.trans (by norm_num)⟩

section Damping

variable {kFin th : ℤ} {eff : CpuEff}

theorem calcCBase_eq (hk : 0 ≤ kFin ∧ kFin ≤ 4042896) (he : eff.Driven) :
    calcCBase kFin eff = 2 * pgMathQ16Sqrt kFin * eff.stabRat / 2 ^ 16 ∧
      0 ≤ calcCBase kFin eff ∧ calcCBase kFin eff ≤ 3640000 := by
  obtain ⟨hs0, hs1, -⟩ := q16Sqrt_spec hk.1 (hk.2.trans (by norm_num))
  have hs : pgMathQ16Sqrt kFin ≤ 520000 := by nlinarith
  obtain ⟨hcrit, hcrit0, hcrit1⟩ := q16Mul_mem (a := intToQ16 2) (A := 131072) (by decide) ⟨hs0, hs⟩
    (by norm_num)
  have h2 : intToQ16 2 = 131072 := by decide
  rw [h2] at hcrit hcrit0 hcrit1
  have htwice : q16Mul 131072 (pgMathQ16Sqrt kFin) = 2 * pgMathQ16Sqrt kFin := by omega
  obtain ⟨hbase, hbase0, hbase1⟩ := q16Mul_mem ⟨hcrit0, hcrit1⟩
    (⟨by linarith [he.stabRat.1], he.stabRat.2⟩ : 0 ≤ eff.stabRat ∧ eff.stabRat ≤ 229376)
    (by norm_num)
  simp only [calcCBase, h2]
  refine ⟨?_, hbase0, hbase1.trans (by norm_num)⟩
  rw [hbase, htwice]

theorem thermRoot_mem (hth : 6553 ≤ th ∧ th ≤ 65536) :
    20722 ≤ pgMathQ16Sqrt th ∧ pgMathQ16Sqrt th ≤ 65536 := by
  obtain ⟨ht0, ht1, ht2⟩ := q16Sqrt_spec (show 0 ≤ th by omega) (by omega)
  constructor <;> nlinarith

def restDamping (kFin th : ℤ) (eff : CpuEff) : ℤ :=
  calcCBase kFin eff * 65536 / pgMathQ16Sqrt th

theorem restDamping_eq (hk : 0 ≤ kFin ∧ kFin ≤ 4042896) (he : eff.Driven)
    (hth : 6553 ≤ th ∧ th ≤ 65536) :
    q16Div (calcCBase kFin eff) (pgMathQ16Sqrt th) = restDamping kFin th eff ∧
      0 ≤ restDamping kFin th eff ∧ restDamping kFin th eff ≤ 16777216 := by
  obtain ⟨-, hb0, hb1⟩ := calcCBase_eq hk he
  obtain ⟨ht0, ht1⟩ := thermRoot_mem hth
  have hnum : 0 ≤ calcCBase kFin eff * 65536 := by omega
  have hq0 : 0 ≤ restDamping kFin th eff := Int.ediv_nonneg hnum (by omega)
  have hq1 : restDamping kFin th eff ≤ 16777216 := by
    rw [restDamping, Int.ediv_le_iff_le_mul (by omega)]
    omega
  have htdiv : (calcCBase kFin eff * 65536).tdiv (pgMathQ16Sqrt th) = restDamping kFin th eff :=
    Int.tdiv_eq_ediv_of_nonneg hnum
  exact ⟨by rw [q16Div_eq (by omega) (by omega) (by omega), htdiv], hq0, hq1⟩

def dampingClp (kFin vel iDt psiVal : ℤ) (eff : CpuEff) : ℤ :=
  let cMax := q16Mul (calcCBase kFin eff) (intToQ16 4)
  if calcCReq vel iDt psiVal ≥ cMax then cMax
  else if calcCReq vel iDt psiVal ≤ 0 then 0 else i32 (calcCReq vel iDt psiVal)

theorem calcCFinal_mem (hk : 0 ≤ kFin ∧ kFin ≤ 4042896) (he : eff.Driven)
    (hth : 6553 ≤ th ∧ th ≤ 65536) (vel iDt psiVal : ℤ) :
    restDamping kFin th eff ≤ calcCFinal kFin vel iDt psiVal th eff ∧
      calcCFinal kFin vel iDt psiVal th eff ≤ 67108864 := by
  obtain ⟨-, hb0, hb1⟩ := calcCBase_eq hk he
  obtain ⟨ht0, ht1⟩ := thermRoot_mem hth
  obtain ⟨hdiv, hq0, hq1⟩ := restDamping_eq hk he hth
  obtain ⟨-, hm0, hm1⟩ := q16Mul_mem (b := intToQ16 4) (B := 262144) ⟨hb0, hb1⟩ (by decide)
    (by norm_num)
  have hclp : 0 ≤ dampingClp kFin vel iDt psiVal eff ∧
      dampingClp kFin vel iDt psiVal eff ≤ 14560000 := by
    rw [dampingClp]
    split_ifs
    · omega
    · omega
    · rw [i32_eq (by omega) (by omega)]
      omega
  obtain ⟨-, hstb0, hstb1⟩ := q16Mul_mem (b := floatToQ16 31 10) (B := 203161) hclp (by decide)
    (by norm_num)
  have hfin : calcCFinal kFin vel iDt psiVal th eff =
      if restDamping kFin th eff > q16Mul (dampingClp kFin vel iDt psiVal eff) (floatToQ16 31 10) then
        restDamping kFin th eff
      else q16Mul (dampingClp kFin vel iDt psiVal eff) (floatToQ16 31 10) := by
    simp only [calcCFinal, if_pos (show pgMathQ16Sqrt th > 0 by omega), hdiv, dampingClp]
    rfl
  rw [hfin]
  split_ifs <;> omega

end Damping

section Force

variable {kFin disp lTerm : ℤ}

theorem calcLTerm_mem {integ psiVal : ℤ} (hk : 0 ≤ kFin ∧ kFin ≤ 4042896)
    (hi : 0 ≤ integ ∧ integ ≤ 6356992) (hp : 0 ≤ psiVal ∧ psiVal ≤ 32768000) :
    0 ≤ calcLTerm integ psiVal kFin ∧ calcLTerm integ psiVal kFin ≤ 208305913856000 := by
  have h100 : intToQ16 100 = 6553600 := by decide
  have h15 : floatToQ16 15 10 = 98304 := by decide
  have hprod0 : 0 ≤ integ * psiVal := mul_nonneg hi.1 hp.1
  have hprod1 : integ * psiVal ≤ 6356992 * 32768000 := mul_le_mul hi.2 hp.2 hp.1 (by norm_num)
  have hl : q32Mul (q16ToQ32 integ) (q16ToQ32 psiVal) = integ * psiVal :=
    q32Mul_q16 (by omega) (by omega)
  have hm : q32Mul (q16ToQ32 kFin) (q16ToQ32 6553600) = kFin * 6553600 :=
    q32Mul_q16 (by omega) (by omega)
  have hlim : q32Mul (kFin * 6553600) (q16ToQ32 98304) = kFin * 9830400 := by
    have hq : q16ToQ32 98304 = 6442450944 := by decide
    have he : kFin * 6553600 * q16ToQ32 98304 / 2 ^ 32 = kFin * 9830400 := by
      rw [hq]
      omega
    rw [q32Mul_eq_i64, he, i64_eq (by omega) (by omega)]
  simp only [calcLTerm, h100, h15, hl, hm, hlim]
  split_ifs <;> omega

theorem demandForce_eq (hk : 0 ≤ kFin ∧ kFin ≤ 4042896)
    (hd : -536870912 ≤ disp ∧ disp ≤ 536870912) (hl : 0 ≤ lTerm ∧ lTerm ≤ 208305913856000) :
    demandForce kFin disp lTerm =
      pgMathClamp (kFin * disp - lTerm) (-137438953472000) 137438953472000 := by
  obtain ⟨hlow, hhigh⟩ : -536870912 * 4042896 ≤ disp * kFin ∧ disp * kFin ≤ 536870912 * 4042896 :=
    scaled_mem hd hk (by norm_num)
  rw [mul_comm _ kFin] at hlow hhigh
  have hu : q16ToQ32 (intToQ16 32000) = 137438953472000 := by decide
  have hn : q16ToQ32 (intToQ16 (-32000)) = -137438953472000 := by decide
  have hp : q32Mul (q16ToQ32 kFin) (q16ToQ32 disp) = kFin * disp := q32Mul_q16 (by omega) (by omega)
  have hi : i64 (kFin * disp - lTerm) = kFin * disp - lTerm := i64_eq (by omega) (by omega)
  simp only [demandForce, hp, hi, hu, hn, pgMathClamp]
  split_ifs <;> omega

theorem demandForce_mono {disp' : ℤ} (hk : 0 ≤ kFin ∧ kFin ≤ 4042896)
    (hd : -536870912 ≤ disp) (h : disp ≤ disp') (hd' : disp' ≤ 536870912)
    (hl : 0 ≤ lTerm ∧ lTerm ≤ 208305913856000) :
    demandForce kFin disp lTerm ≤ demandForce kFin disp' lTerm := by
  rw [demandForce_eq hk ⟨hd, h.trans hd'⟩ hl, demandForce_eq hk ⟨hd.trans h, hd'⟩ hl]
  apply clamp_mono (by norm_num)
  apply sub_le_sub_right
  exact mul_le_mul_of_nonneg_left h hk.1

end Force

section Move

variable {state : LoadState} {f c dt : ℤ}

def movedRate (rate f c dt : ℤ) : ℤ :=
  ((rate + f / 2 ^ 16 * dt / 2 ^ 16) * 65536).tdiv (65536 + c * dt / 2 ^ 16)

theorem movedRate_mono {rate f' : ℤ} (hc : 0 ≤ c) (hdt : 0 ≤ dt) (h : f ≤ f') :
    movedRate rate f c dt ≤ movedRate rate f' c dt := by
  have hcd : 0 ≤ c * dt := mul_nonneg hc hdt
  have hpush : f / 2 ^ 16 * dt / 2 ^ 16 ≤ f' / 2 ^ 16 * dt / 2 ^ 16 := by
    apply mul_ediv_mono (by norm_num) hdt
    apply Int.ediv_le_ediv (by norm_num) h
  apply Int.tdiv_le_tdiv (by omega)
  apply mul_le_mul_of_nonneg_right _ (by norm_num)
  omega

theorem abs_movedRate_le (rate f : ℤ) (hc : 0 ≤ c) (hdt : 0 ≤ dt) :
    |movedRate rate f c dt| ≤ |rate + f / 2 ^ 16 * dt / 2 ^ 16| := by
  have hcd : 0 ≤ c * dt := mul_nonneg hc hdt
  have hden : 65536 ≤ 65536 + c * dt / 2 ^ 16 := by omega
  rw [abs_le, movedRate]
  generalize rate + f / 2 ^ 16 * dt / 2 ^ 16 = a
  generalize 65536 + c * dt / 2 ^ 16 = den at hden
  have hpos {b : ℤ} (hb : 0 ≤ b) : (b * 65536).tdiv den ≤ b ∧ 0 ≤ (b * 65536).tdiv den := by
    rw [Int.tdiv_eq_ediv_of_nonneg (by omega), Int.ediv_le_iff_le_mul (by omega)]
    constructor
    · nlinarith
    · exact Int.ediv_nonneg (by omega) (by omega)
  rcases le_total 0 a with ha | ha
  · rw [abs_of_nonneg ha]
    obtain ⟨hle, h0⟩ := hpos ha
    constructor <;> omega
  · rw [abs_of_nonpos ha]
    obtain ⟨hle, h0⟩ := hpos (show 0 ≤ -a by omega)
    rw [neg_mul, Int.neg_tdiv] at hle h0
    constructor <;> omega

theorem demandMove_eq (hp : 0 ≤ state.psiVal ∧ state.psiVal ≤ 32768000)
    (hr : -1342177280 ≤ state.rate ∧ state.rate ≤ 1342177280)
    (hf : -137438953472000 ≤ f ∧ f ≤ 137438953472000) (hc : 0 ≤ c ∧ c ≤ 67108864)
    (hdt : 1 ≤ dt ∧ dt ≤ 6553) :
    demandMove state f c dt =
      let rate := movedRate state.rate f c dt
      let psiVal := state.psiVal + rate * dt / 2 ^ 16
      if psiVal < 0 then { state with psiVal := 0, rate := 0 }
      else if psiVal > 32768000 then { state with psiVal := 32768000, rate := 0 }
      else { state with psiVal, rate } := by
  have h500 : intToQ16 500 = 32768000 := by decide
  have hcd0 : 0 ≤ c * dt := mul_nonneg hc.1 (by omega)
  have hcd1 : c * dt ≤ 67108864 * 6553 := mul_le_mul hc.2 hdt.2 (by omega) (by norm_num)
  have hfq : q32ToQ16 f = f / 2 ^ 16 := i32_eq (by omega) (by omega)
  have hdt0 : 0 ≤ dt ∧ dt ≤ 6553 := ⟨by omega, hdt.2⟩
  obtain ⟨hpush0, hpush1⟩ : -2097152000 * 6553 ≤ f / 2 ^ 16 * dt ∧
      f / 2 ^ 16 * dt ≤ 2097152000 * 6553 := scaled_mem ⟨by omega, by omega⟩ hdt0 (by norm_num)
  have hden : i32 (q16One + q16Mul c dt) = 65536 + c * dt / 2 ^ 16 := by
    rw [q16Mul_eq (by omega) (by omega)]
    apply i32_eq <;> simp only [q16One] <;> omega
  have hsum : i32 (state.rate + q16Mul (q32ToQ16 f) dt) =
      state.rate + f / 2 ^ 16 * dt / 2 ^ 16 := by
    rw [hfq, q16Mul_eq (by omega) (by omega)]
    apply i32_eq <;> omega
  have habs := abs_movedRate_le state.rate f hc.1 (show 0 ≤ dt by omega)
  have hbound : |state.rate + f / 2 ^ 16 * dt / 2 ^ 16| ≤ 1551892480 := by
    rw [abs_le]
    constructor <;> omega
  obtain ⟨hr0, hr1⟩ := abs_le.mp (habs.trans hbound)
  have hrate : q16Div (state.rate + f / 2 ^ 16 * dt / 2 ^ 16) (65536 + c * dt / 2 ^ 16) =
      movedRate state.rate f c dt :=
    q16Div_eq (by omega) (le_trans (by norm_num) hr0) (hr1.trans (by norm_num))
  obtain ⟨hstep0, hstep1⟩ : -1551892480 * 6553 ≤ movedRate state.rate f c dt * dt ∧
      movedRate state.rate f c dt * dt ≤ 1551892480 * 6553 :=
    scaled_mem ⟨hr0, hr1⟩ hdt0 (by norm_num)
  have hpos : i32 (state.psiVal + q16Mul (movedRate state.rate f c dt) dt) =
      state.psiVal + movedRate state.rate f c dt * dt / 2 ^ 16 := by
    rw [q16Mul_eq (by omega) (by omega)]
    apply i32_eq <;> omega
  simp only [demandMove, hden, hsum, hrate, hpos, h500]

theorem demandMove_psiVal (hp : 0 ≤ state.psiVal ∧ state.psiVal ≤ 32768000)
    (hr : -1342177280 ≤ state.rate ∧ state.rate ≤ 1342177280)
    (hf : -137438953472000 ≤ f ∧ f ≤ 137438953472000) (hc : 0 ≤ c ∧ c ≤ 67108864)
    (hdt : 1 ≤ dt ∧ dt ≤ 6553) :
    (demandMove state f c dt).psiVal =
      pgMathClamp (state.psiVal + movedRate state.rate f c dt * dt / 2 ^ 16) 0 32768000 := by
  rw [demandMove_eq hp hr hf hc hdt]
  simp only [pgMathClamp]
  split_ifs <;> rfl

end Move

structure DemandRange (state : LoadState) (input : DemandInput) : Prop where
  psiVal : 0 ≤ state.psiVal ∧ state.psiVal ≤ intToQ16 500
  rate : |state.rate| ≤ 2 ^ 30
  vel : |input.vel| ≤ 2 ^ 30
  dtSafe : 1 ≤ input.dtSafe ∧ input.dtSafe ≤ floatToQ16 1 10
  trendFact : 0 ≤ input.trendFact ∧ input.trendFact ≤ q16One
  integ : 0 ≤ input.integ ∧ input.integ ≤ intToQ16 97
  integDt : |input.integDt| ≤ intToQ16 97 / 5
  unbroken : input.structBreak = false

section Drive

variable {state : LoadState} {input : DemandInput}

theorem demandKick_spec (h : DemandRange state input) (he : state.eff.Driven) (cfg : CpuCfg) :
    (demandKick state input cfg).psiVal = state.psiVal ∧
      (demandKick state input cfg).eff = state.eff ∧
      -1342177280 ≤ (demandKick state input cfg).rate ∧
      (demandKick state input cfg).rate ≤ 1342177280 := by
  obtain ⟨hr0, hr1⟩ := abs_le.mp h.rate
  obtain ⟨hv0, hv1⟩ := abs_le.mp h.vel
  obtain ⟨hlow, hhigh⟩ : -(2 ^ 30) * 6225 ≤ input.vel * state.eff.surgeGain ∧
      input.vel * state.eff.surgeGain ≤ 2 ^ 30 * 6225 :=
    scaled_mem ⟨hv0, hv1⟩ he.surgeGain (by norm_num)
  simp only [demandKick, h.unbroken, Bool.false_eq_true, ↓reduceIte]
  split
  · refine ⟨rfl, rfl, ?_⟩
    simp only
    rw [q16Mul_eq (by omega) (by omega), i32_eq (by omega) (by omega)]
    constructor <;> omega
  · exact ⟨rfl, rfl, by omega, by omega⟩

theorem demandDisp_eq (input : DemandInput) {psiVal : ℤ} {eff : CpuEff} (he : eff.Driven)
    (hp : 0 ≤ psiVal ∧ psiVal ≤ 32768000) (ht : 0 ≤ input.tgtPsi ∧ input.tgtPsi ≤ 32768000)
    (hv : |input.vel| ≤ 2 ^ 30) :
    i32 (i32 (input.tgtPsi + q16Mul input.vel eff.lookahead) - psiVal) =
      input.tgtPsi + input.vel * eff.lookahead / 2 ^ 16 - psiVal ∧
    -182534144 ≤ input.vel * eff.lookahead / 2 ^ 16 ∧
    input.vel * eff.lookahead / 2 ^ 16 ≤ 182534144 := by
  obtain ⟨hv0, hv1⟩ := abs_le.mp hv
  obtain ⟨hlow, hhigh⟩ : -(2 ^ 30) * 11141 ≤ input.vel * eff.lookahead ∧
      input.vel * eff.lookahead ≤ 2 ^ 30 * 11141 :=
    scaled_mem ⟨hv0, hv1⟩ he.lookahead (by norm_num)
  rw [q16Mul_eq (by omega) (by omega), i32_eq (x := input.tgtPsi + _) (by omega) (by omega),
    i32_eq (by omega) (by omega)]
  refine ⟨rfl, ?_, ?_⟩ <;> omega

theorem demandDrive_psiVal (state : LoadState) (input : DemandInput) (he : state.eff.Driven)
    (hp : 0 ≤ state.psiVal ∧ state.psiVal ≤ 32768000)
    (hr : -1342177280 ≤ state.rate ∧ state.rate ≤ 1342177280)
    (ht : 0 ≤ input.tgtPsi ∧ input.tgtPsi ≤ 32768000) (hv : |input.vel| ≤ 2 ^ 30)
    (hdt : 1 ≤ input.dtSafe ∧ input.dtSafe ≤ 6553)
    (htr : 0 ≤ input.trendFact ∧ input.trendFact ≤ 65536)
    (hi : 0 ≤ input.integ ∧ input.integ ≤ 6356992) :
    ∃ k c l : ℤ, k = demandGain state.eff input ∧ l = calcLTerm input.integ state.psiVal k ∧
      c = calcCFinal k input.vel input.integDt state.psiVal
        (pgMathClamp input.thermScale (floatToQ16 1 10) q16One) state.eff ∧
      (0 ≤ k ∧ k ≤ 4042896) ∧ (0 ≤ c ∧ c ≤ 67108864) ∧ (0 ≤ l ∧ l ≤ 208305913856000) ∧
      (demandDrive state input).psiVal =
        pgMathClamp (state.psiVal + movedRate state.rate (demandForce k
          (input.tgtPsi + input.vel * state.eff.lookahead / 2 ^ 16 - state.psiVal) l) c
            input.dtSafe * input.dtSafe / 2 ^ 16) 0 32768000 := by
  have hk := demandGain_mem he htr
  have hth := thermClamp_mem input.thermScale
  obtain ⟨hdisp, hlook⟩ := demandDisp_eq input he hp ht hv
  obtain ⟨-, hrest, -⟩ := restDamping_eq hk he hth
  obtain ⟨hc0, hc1⟩ := calcCFinal_mem hk he hth input.vel input.integDt state.psiVal
  have hl := calcLTerm_mem hk hi hp
  refine ⟨_, _, _, rfl, rfl, rfl, hk, ⟨hrest.trans hc0, hc1⟩, hl, ?_⟩
  have hspan : -536870912 ≤ input.tgtPsi + input.vel * state.eff.lookahead / 2 ^ 16 - state.psiVal ∧
      input.tgtPsi + input.vel * state.eff.lookahead / 2 ^ 16 - state.psiVal ≤ 536870912 := by omega
  have hforce := demandForce_eq hk hspan hl
  have hf0 := le_clamp (show (-137438953472000 : ℤ) ≤ 137438953472000 by norm_num)
    (demandGain state.eff input * (input.tgtPsi + input.vel * state.eff.lookahead / 2 ^ 16 -
      state.psiVal) - calcLTerm input.integ state.psiVal (demandGain state.eff input))
  have hf1 := clamp_le (show (-137438953472000 : ℤ) ≤ 137438953472000 by norm_num)
    (demandGain state.eff input * (input.tgtPsi + input.vel * state.eff.lookahead / 2 ^ 16 -
      state.psiVal) - calcLTerm input.integ state.psiVal (demandGain state.eff input))
  rw [← hforce] at hf0 hf1
  simp only [demandDrive, hdisp]
  exact demandMove_psiVal hp hr ⟨hf0, hf1⟩ ⟨hrest.trans hc0, hc1⟩ hdt

end Drive

theorem demand_monotone (cfg : CpuCfg) {state : LoadState} {input : DemandInput}
    {batLvl thScl avg300 t₁ t₂ : ℤ} (hth : 0 ≤ thScl ∧ thScl ≤ q16One)
    (heff : state.eff = pgCpuUpdEff batLvl thScl avg300) (hrange : DemandRange state input)
    (h0 : 0 ≤ t₁) (h : t₁ ≤ t₂) (hu : t₂ ≤ intToQ16 500) :
    0 ≤ (pgCpuCalcLoadDemand state { input with tgtPsi := t₁ } cfg).2 ∧
      (pgCpuCalcLoadDemand state { input with tgtPsi := t₁ } cfg).2 ≤
        (pgCpuCalcLoadDemand state { input with tgtPsi := t₂ } cfg).2 ∧
      (pgCpuCalcLoadDemand state { input with tgtPsi := t₂ } cfg).2 ≤ intToQ16 500 := by
  have h500 : intToQ16 500 = 32768000 := by decide
  have h97 : intToQ16 97 = 6356992 := by decide
  have h01 : floatToQ16 1 10 = 6553 := by decide
  have hp := hrange.psiVal
  have hdt := hrange.dtSafe
  have hi := hrange.integ
  rw [h500] at hu hp ⊢
  rw [h01] at hdt
  rw [h97] at hi
  have he : state.eff.Driven := heff ▸ updEff_driven batLvl avg300 hth
  obtain ⟨hkp, hke, hkr⟩ := demandKick_spec hrange he cfg
  have hkick (t : ℤ) : demandKick state { input with tgtPsi := t } cfg = demandKick state input cfg := by
    simp only [demandKick, hrange.unbroken, Bool.false_eq_true, ↓reduceIte]
  have hdrive (t : ℤ) (ht0 : 0 ≤ t) (htu : t ≤ 32768000) :=
    demandDrive_psiVal (demandKick state input cfg) { input with tgtPsi := t }
      (hke ▸ he) (hkp ▸ hp) hkr ⟨ht0, htu⟩ hrange.vel hdt hrange.trendFact hi
  have hdemand (t : ℤ) : (pgCpuCalcLoadDemand state { input with tgtPsi := t } cfg).2 =
      if demandIdle state { input with tgtPsi := t } then 0
      else (demandDrive (demandKick state input cfg) { input with tgtPsi := t }).psiVal := by
    rw [pgCpuCalcLoadDemand, hkick]
    split <;> rfl
  have hmem (t : ℤ) (ht0 : 0 ≤ t) (htu : t ≤ 32768000) :
      0 ≤ (pgCpuCalcLoadDemand state { input with tgtPsi := t } cfg).2 ∧
        (pgCpuCalcLoadDemand state { input with tgtPsi := t } cfg).2 ≤ 32768000 := by
    rw [hdemand]
    split
    · norm_num
    · obtain ⟨k, c, l, -, -, -, -, -, -, he⟩ := hdrive t ht0 htu
      rw [he]
      exact ⟨le_clamp (by norm_num) _, clamp_le (by norm_num) _⟩
  refine ⟨(hmem t₁ h0 (h.trans hu)).1, ?_, (hmem t₂ (h0.trans h) hu).2⟩
  by_cases hidle : demandIdle state { input with tgtPsi := t₁ }
  · rw [hdemand t₁, if_pos hidle]
    exact (hmem t₂ (h0.trans h) hu).1
  -- a larger target is never the idle one
  have hidle' : ¬demandIdle state { input with tgtPsi := t₂ } := by
    rintro ⟨ht, hrest⟩
    exact hidle ⟨lt_of_le_of_lt h ht, hrest⟩
  rw [hdemand t₁, hdemand t₂, if_neg hidle, if_neg hidle']
  obtain ⟨k, c, l, hk, hl, hc, hkm, hcm, hlm, he₁⟩ := hdrive t₁ h0 (h.trans hu)
  obtain ⟨k', c', l', hk', hl', hc', -, -, -, he₂⟩ := hdrive t₂ (h0.trans h) hu
  obtain rfl : k' = k := hk'.trans hk.symm
  obtain rfl : l' = l := hl'.trans hl.symm
  obtain rfl : c' = c := hc'.trans hc.symm
  obtain ⟨-, hlook⟩ := demandDisp_eq { input with tgtPsi := t₁ } (hke ▸ he) (hkp ▸ hp)
    ⟨h0, h.trans hu⟩ hrange.vel
  have hdtnn : 0 ≤ input.dtSafe := by omega
  rw [he₁, he₂]
  apply clamp_mono (by norm_num)
  apply add_le_add_right
  apply mul_ediv_mono (by norm_num) hdtnn
  apply movedRate_mono hcm.1 hdtnn
  apply demandForce_mono hkm _ _ _ hlm
  all_goals
    simp only at hlook ⊢
    rw [hkp]
    omega

def pressedState : LoadState :=
  { psiVal := 655360, rate := -1048576, psiRef := 0, prevInteg := 0, firstRun := false,
    eff := pgCpuUpdEff 3276800 32768 131072 }

def pressedInput : DemandInput :=
  { tgtPsi := 0, vel := 1310720, dtSafe := 3277, thermScale := 32768, trendFact := 16384,
    integ := 794624, integDt := -1000, structBreak := false }

theorem demand_monotone_pressed :
    0 ≤ (pgCpuCalcLoadDemand pressedState { pressedInput with tgtPsi := 65536 } cfgCpu).2 ∧
      (pgCpuCalcLoadDemand pressedState { pressedInput with tgtPsi := 65536 } cfgCpu).2 ≤
        (pgCpuCalcLoadDemand pressedState { pressedInput with tgtPsi := 6553600 } cfgCpu).2 ∧
      (pgCpuCalcLoadDemand pressedState { pressedInput with tgtPsi := 6553600 } cfgCpu).2 ≤
        intToQ16 500 :=
  demand_monotone cfgCpu (by decide) rfl
    ⟨by decide, by decide, by decide, by decide, by decide, by decide, by decide, rfl⟩ (by decide)
    (by decide) (by decide)

end Pgov
