import Pgov.Mapping
import Pgov.Rounding

namespace Pgov

open FixedWidth Quantise Rounding

/-- What `pg_cpu_upd_eff` hands the curves at a baseline in [0, 100] and a thermal scale in
[0.1, 1]. -/
structure CpuEff.Shaped (eff : CpuEff) : Prop where
  trendAmp : 0 ≤ eff.trendAmp ∧ eff.trendAmp ≤ 7536
  decay : 0 ≤ eff.decay ∧ eff.decay ≤ 1245
  sigMid : 0 ≤ eff.sigMid ∧ eff.sigMid ≤ 4194304
  uclMid : 0 ≤ eff.uclMid ∧ eff.uclMid ≤ 4194304

structure CpuCfg.Tuned (cfg : CpuCfg) : Prop where
  latGranRat : 0 ≤ cfg.latGranRat ∧ cfg.latGranRat ≤ 32768
  uclampK : 0 ≤ cfg.uclampK ∧ cfg.uclampK ≤ 16384
  sigmoidK : 0 ≤ cfg.sigmoidK ∧ cfg.sigmoidK ≤ 16384

theorem tuneConfigs_tuned (hw : Hardware) : (pgTuneConfigs hw).1.Tuned := by
  constructor
  · exact tuneConfigs_latGranRat hw
  · obtain ⟨hl, hu⟩ := tuned_mem (floatToQ16 12 100) (floatToQ16 25 100) (calcTopoMetrics hw).rat
    exact ⟨le_trans (by decide) hl, hu.trans (by decide)⟩
  · obtain ⟨hl, hu⟩ := tuned_mem (floatToQ16 4 100) (floatToQ16 12 100) (calcTopoMetrics hw).rat
    exact ⟨le_trans (by decide) hl, hu.trans (by decide)⟩

theorem batFact_mem (batLvl : ℤ) :
    q16Div (pgMathClamp batLvl 0 (intToQ16 100)) (intToQ16 100) ∈ Set.Icc 0 65536 := by
  have h100 : intToQ16 100 = 100 * 65536 := by decide
  have h0 := le_clamp (show 0 ≤ intToQ16 100 by decide) batLvl
  have h1 := clamp_le (show 0 ≤ intToQ16 100 by decide) batLvl
  rw [h100] at h0 h1 ⊢
  rw [q16Div_int h0 (by omega) (by norm_num)]
  constructor <;> omega

theorem q16Mul_mem {a b A B : ℤ} (ha : 0 ≤ a ∧ a ≤ A) (hb : 0 ≤ b ∧ b ≤ B)
    (hAB : A * B ≤ 140737488355327) :
    q16Mul a b = a * b / 2 ^ 16 ∧ 0 ≤ q16Mul a b ∧ q16Mul a b ≤ A * B / 2 ^ 16 := by
  have h0 : 0 ≤ a * b := mul_nonneg ha.1 hb.1
  have h1 : a * b ≤ A * B := mul_le_mul ha.2 hb.2 hb.1 (ha.1.trans ha.2)
  rw [q16Mul_eq (by omega) (by omega)]
  refine ⟨rfl, by omega, ?_⟩
  apply Int.ediv_le_ediv (by norm_num) h1

theorem updEff_shaped (batLvl : ℤ) {thScl avg300 : ℤ} (hth : 6553 ≤ thScl ∧ thScl ≤ 65536)
    (havg : 0 ≤ avg300 ∧ avg300 ≤ 6553600) : (pgCpuUpdEff batLvl thScl avg300).Shaped := by
  have hth0 : 0 ≤ thScl ∧ thScl ≤ 65536 := ⟨by omega, hth.2⟩
  obtain ⟨-, hhealth⟩ := q16Mul_mem (batFact_mem batLvl) hth0 (by norm_num)
  obtain ⟨-, hamp⟩ := q16Mul_mem (a := floatToQ16 115 1000) (A := 7536) (by decide) hhealth
    (by norm_num)
  obtain ⟨-, hdecay⟩ := q16Mul_mem (a := floatToQ16 19 1000) (A := 1245) (by decide) hth0
    (by norm_num)
  obtain ⟨-, hmid⟩ := q16Mul_mem (a := floatToQ16 5 10) (A := 32768) (by decide) havg (by norm_num)
  have h68 : floatToQ16 68 10 = 445644 := by decide
  have h27 : floatToQ16 27 10 = 176947 := by decide
  have hsig : (pgCpuUpdEff batLvl thScl avg300).sigMid =
      445644 + q16Mul (floatToQ16 5 10) avg300 := by
    simp only [pgCpuUpdEff, h68]
    apply i32_eq <;> omega
  have hucl : (pgCpuUpdEff batLvl thScl avg300).uclMid =
      445644 + q16Mul (floatToQ16 5 10) avg300 + 176947 := by
    have hdef : (pgCpuUpdEff batLvl thScl avg300).uclMid =
        i32 ((pgCpuUpdEff batLvl thScl avg300).sigMid + floatToQ16 27 10) := rfl
    rw [hdef, hsig, h27]
    apply i32_eq <;> omega
  constructor
  · exact hamp
  · exact hdecay
  · omega
  · omega

section Shapes

theorem sigmoid_eq {val k mid : ℤ} (hk : 0 ≤ k ∧ k ≤ 16384) (hmid : 0 ≤ mid ∧ mid ≤ 4194304)
    (hv : 0 ≤ val ∧ val ≤ 2147483647) :
    pgMathSigmoid val k mid = (squash 65536 (k * (val - mid) / 2 ^ 16) + 65536) / 2 := by
  have hsub : i32 (val - mid) = val - mid := i32_eq (by omega) (by omega)
  obtain ⟨hlow, hhigh⟩ : -4194304 * 16384 ≤ (val - mid) * k ∧
      (val - mid) * k ≤ 2147483647 * 16384 := scaled_mem ⟨by omega, by omega⟩ hk (by norm_num)
  rw [mul_comm _ k] at hlow hhigh
  have hx : q16Mul k (val - mid) = k * (val - mid) / 2 ^ 16 := q16Mul_eq (by omega) (by omega)
  simp only [pgMathSigmoid, hsub, hx, q16One]
  have hxl : -1048576 ≤ k * (val - mid) / 2 ^ 16 := by omega
  have hxu : k * (val - mid) / 2 ^ 16 ≤ 536870912 := by omega
  generalize k * (val - mid) / 2 ^ 16 = x at hxl hxu
  have habs : (if x ≥ 0 then x else i32 (-x)) = |x| := by
    split
    · next h => rw [abs_of_nonneg h]
    · next h => rw [abs_of_neg (by omega), i32_eq (by omega) (by omega)]
  have habs0 := abs_nonneg x
  have habsu : |x| ≤ 536870912 := by
    rw [abs_le]
    constructor <;> omega
  have hsq := abs_le.mp (abs_squash_le (show (0 : ℤ) < 65536 by norm_num) x)
  have hden : i32 (65536 + |x|) = 65536 + |x| := i32_eq (by omega) (by omega)
  have hdiv : q16Div x (65536 + |x|) = squash 65536 x :=
    q16Div_eq (by omega) (le_trans (by norm_num) hsq.1) (hsq.2.trans (by norm_num))
  rw [habs, hden, hdiv, i32_eq (by omega) (by omega)]

theorem sigmoid_mem {val k mid : ℤ} (hk : 0 ≤ k ∧ k ≤ 16384) (hmid : 0 ≤ mid ∧ mid ≤ 4194304)
    (hv : 0 ≤ val ∧ val ≤ 2147483647) :
    0 ≤ pgMathSigmoid val k mid ∧ pgMathSigmoid val k mid ≤ 65536 := by
  rw [sigmoid_eq hk hmid hv]
  have hsq := abs_le.mp (abs_squash_le (show (0 : ℤ) < 65536 by norm_num)
    (k * (val - mid) / 2 ^ 16))
  omega

theorem sigmoid_mono {v w k mid : ℤ} (hk : 0 ≤ k ∧ k ≤ 16384) (hmid : 0 ≤ mid ∧ mid ≤ 4194304)
    (hv : 0 ≤ v) (hvw : v ≤ w) (hw : w ≤ 2147483647) :
    pgMathSigmoid v k mid ≤ pgMathSigmoid w k mid := by
  rw [sigmoid_eq hk hmid ⟨hv, hvw.trans hw⟩, sigmoid_eq hk hmid ⟨hv.trans hvw, hw⟩]
  have hx : k * (v - mid) / 2 ^ 16 ≤ k * (w - mid) / 2 ^ 16 := by
    apply Int.ediv_le_ediv (by norm_num)
    apply mul_le_mul_of_nonneg_left _ hk.1
    omega
  have hsq := squash_mono (show (0 : ℤ) < 65536 by norm_num) hx
  omega

def decayAt (x : ℤ) : ℤ := 4294967296 / (65536 + x + x * x / 2 ^ 16 / 2)

theorem decay_eq {val coeff : ℤ} (hc : 0 ≤ coeff ∧ coeff ≤ 1245) (hv : 0 ≤ val ∧ val ≤ 2147483647) :
    pgMathDecay val coeff =
      if coeff * val / 2 ^ 16 ≥ 11796480 then 0 else decayAt (coeff * val / 2 ^ 16) := by
  obtain ⟨hx, hx0, -⟩ := q16Mul_mem hc hv (by norm_num)
  have h180 : intToQ16 180 = 11796480 := by decide
  rw [← hx]
  simp only [pgMathDecay, h180, if_neg (not_lt.mpr hx0)]
  split
  · rfl
  next hcut =>
  generalize q16Mul coeff val = x at hx0 hcut
  have hx1 : 0 ≤ x ∧ x ≤ 11796479 := ⟨hx0, by omega⟩
  obtain ⟨hsq, hsq0, hsq1⟩ := q16Mul_mem hx1 hx1 (by norm_num)
  have hone : i32 (q16One + x) = 65536 + x := i32_eq (by simp only [q16One]; omega)
    (by simp only [q16One]; omega)
  have hden : i32 (65536 + x + q16Mul x x / 2) = 65536 + x + q16Mul x x / 2 :=
    i32_eq (by omega) (by omega)
  rw [hone, hden, decayAt, ← hsq]
  have hpos : 0 < 65536 + x + q16Mul x x / 2 := by omega
  have htdiv : (q16One * 65536).tdiv (65536 + x + q16Mul x x / 2) =
      4294967296 / (65536 + x + q16Mul x x / 2) := by
    rw [Int.tdiv_eq_ediv_of_nonneg (by norm_num)]
    norm_num
  have hle : 4294967296 / (65536 + x + q16Mul x x / 2) ≤ 4294967296 / 65536 :=
    ediv_le_ediv_right_neg (by norm_num) (by norm_num) (by omega)
  have hnn : 0 ≤ 4294967296 / (65536 + x + q16Mul x x / 2) :=
    Int.ediv_nonneg (by norm_num) hpos.le
  rw [q16Div_eq hpos (by rw [htdiv]; omega) (by rw [htdiv]; omega), htdiv]

theorem decayAt_anti {x y : ℤ} (hx : 0 ≤ x) (h : x ≤ y) : decayAt y ≤ decayAt x := by
  have hsq : x * x ≤ y * y := mul_le_mul h h hx (hx.trans h)
  have hsq0 : 0 ≤ x * x := mul_self_nonneg x
  apply ediv_le_ediv_right_neg (by norm_num)
  · omega
  · omega

theorem decayAt_mem {x : ℤ} (hx : 0 ≤ x) : 0 ≤ decayAt x ∧ decayAt x ≤ 65536 := by
  have hsq0 : 0 ≤ x * x := mul_self_nonneg x
  have hle := decayAt_anti (le_refl 0) hx
  exact ⟨Int.ediv_nonneg (by norm_num) (by omega), hle.trans (by decide)⟩

theorem decay_mem {val coeff : ℤ} (hc : 0 ≤ coeff ∧ coeff ≤ 1245)
    (hv : 0 ≤ val ∧ val ≤ 2147483647) :
    0 ≤ pgMathDecay val coeff ∧ pgMathDecay val coeff ≤ 65536 := by
  have hx : 0 ≤ coeff * val / 2 ^ 16 := by
    have := mul_nonneg hc.1 hv.1
    omega
  rw [decay_eq hc hv]
  split
  · norm_num
  · exact decayAt_mem hx

theorem decay_anti {v w coeff : ℤ} (hc : 0 ≤ coeff ∧ coeff ≤ 1245) (hv : 0 ≤ v) (hvw : v ≤ w)
    (hw : w ≤ 2147483647) : pgMathDecay w coeff ≤ pgMathDecay v coeff := by
  have hx0 : 0 ≤ coeff * v / 2 ^ 16 := by
    have := mul_nonneg hc.1 hv
    omega
  have hx : coeff * v / 2 ^ 16 ≤ coeff * w / 2 ^ 16 := by
    apply Int.ediv_le_ediv (by norm_num)
    apply mul_le_mul_of_nonneg_left hvw hc.1
  rw [decay_eq hc ⟨hv, hvw.trans hw⟩, decay_eq hc ⟨hv.trans hvw, hw⟩]
  split_ifs
  · rfl
  · exact (decayAt_mem hx0).1
  · omega
  · exact decayAt_anti hx0 hx

def ramp (lo hi f : ℤ) : ℤ := lo + (hi - lo) * f / 2 ^ 16

theorem ramp_mono {lo hi f g : ℤ} (h : lo ≤ hi) (hfg : f ≤ g) : ramp lo hi f ≤ ramp lo hi g := by
  have hdiv : (hi - lo) * f / 2 ^ 16 ≤ (hi - lo) * g / 2 ^ 16 := by
    apply Int.ediv_le_ediv (by norm_num)
    apply mul_le_mul_of_nonneg_left hfg
    omega
  simp only [ramp]
  omega

theorem ramp_mem {lo hi f : ℤ} (h : lo ≤ hi) (hf : 0 ≤ f ∧ f ≤ 65536) :
    lo ≤ ramp lo hi f ∧ ramp lo hi f ≤ hi := by
  have hl := ramp_mono h hf.1
  have hu := ramp_mono h hf.2
  simp only [ramp] at hl hu ⊢
  omega

theorem ramp_eq {lo hi f : ℤ} (hlo : 0 ≤ lo) (h : lo ≤ hi) (hhi : hi ≤ 67108864)
    (hf : 0 ≤ f ∧ f ≤ 65536) : i32 (lo + q16Mul (i32 (hi - lo)) f) = ramp lo hi f := by
  have hmem := ramp_mem h hf
  have hrng : i32 (hi - lo) = hi - lo := i32_eq (by omega) (by omega)
  obtain ⟨hmul, -⟩ := q16Mul_mem (a := hi - lo) (A := 67108864) ⟨by omega, by omega⟩ hf
    (by norm_num)
  rw [hrng, hmul]
  exact i32_eq (le_trans (by omega) hmem.1) (hmem.2.trans (by omega))

def weight (val : ℤ) : ℤ := pgMathClamp (val / 100) 0 65536

theorem weight_mono {v w : ℤ} (h : v ≤ w) : weight v ≤ weight w :=
  clamp_mono (by norm_num) (Int.ediv_le_ediv (by norm_num) h)

theorem weight_mem (val : ℤ) : 0 ≤ weight val ∧ weight val ≤ 65536 :=
  ⟨le_clamp (by norm_num) _, clamp_le (by norm_num) _⟩

theorem weight_eq {val : ℤ} (h0 : 0 ≤ val) (hu : val ≤ 2147483647) :
    pgMathClamp (q16Div val (intToQ16 100)) 0 q16One = weight val := by
  have h100 : intToQ16 100 = 100 * 65536 := by decide
  rw [h100, q16Div_int h0 hu (by norm_num)]
  rfl

end Shapes

section Orders

variable {c : CpuCfg} {eff : CpuEff} {l : CpuLim}

theorem calcLat_order (hc : c.Tuned) (he : eff.Shaped) (hl : l.Calibrated) {p p' d d' th th' : ℤ}
    (hp : 0 ≤ p) (hpp : p ≤ p') (hp' : p' ≤ 2147483647) (hd : 0 ≤ d) (hdd : d ≤ d')
    (hd' : d' ≤ 2147483647) (hth : th' ≤ th) :
    pgCpuCalcLat p' d' th' c eff l ≤ pgCpuCalcLat p d th c eff l := by
  have hlat := hl.lat
  have hmin := hl.minLat_ge
  have hmax := hl.maxLat_le
  have hsig := sigmoid_mem hc.sigmoidK he.sigMid ⟨hp, hpp.trans hp'⟩
  have hsig' := sigmoid_mem hc.sigmoidK he.sigMid ⟨hp.trans hpp, hp'⟩
  have hmono := sigmoid_mono hc.sigmoidK he.sigMid hp hpp hp'
  have hfac {s : ℤ} (hs : 0 ≤ s ∧ s ≤ 65536) : i32 (q16One - s) = 65536 - s := by
    apply i32_eq <;> simp only [q16One] <;> omega
  have hrng : i32 (l.maxLat - l.minLat) = l.maxLat - l.minLat := i32_eq (by omega) (by omega)
  have hceil {q : ℤ} (hq : 0 ≤ q) (hqu : q ≤ 2147483647) :
      i32 (l.maxLat - q16Mul (weight q) (l.maxLat - l.minLat)) =
        l.maxLat - weight q * (l.maxLat - l.minLat) / 2 ^ 16 := by
    obtain ⟨hmul, h0, h1⟩ := q16Mul_mem (B := 1638400) (weight_mem q)
      (⟨by omega, by omega⟩ : 0 ≤ l.maxLat - l.minLat ∧ l.maxLat - l.minLat ≤ 1638400) (by norm_num)
    rw [hmul] at h0 h1 ⊢
    exact i32_eq (by omega) (by omega)
  have hdem : weight d * (l.maxLat - l.minLat) / 2 ^ 16 ≤
      weight d' * (l.maxLat - l.minLat) / 2 ^ 16 := by
    apply mul_ediv_mono (by norm_num) (by omega) (weight_mono hdd)
  simp only [pgCpuCalcLat, weight_eq hd (hdd.trans hd'), weight_eq (hd.trans hdd) hd', hfac hsig,
    hfac hsig']
  rw [ramp_eq (by omega) hlat (by omega) (by omega), ramp_eq (by omega) hlat (by omega) (by omega),
    hrng, hceil hd (hdd.trans hd'), hceil (hd.trans hdd) hd']
  have hramp := ramp_mono hlat (sub_le_sub_left hmono 65536)
  apply clamp_mono hlat
  split_ifs <;> omega

theorem calcGran_order (hc : c.Tuned) (hl : l.Calibrated) {lat lat' : ℤ} (h0 : 0 ≤ lat)
    (h : lat ≤ lat') (hu : lat' ≤ 2147483647) : pgCpuCalcGran lat c l ≤ pgCpuCalcGran lat' c l := by
  obtain ⟨hm, -⟩ := q16Mul_mem (A := 2147483647) ⟨h0, h.trans hu⟩ hc.latGranRat (by norm_num)
  obtain ⟨hm', -⟩ := q16Mul_mem (A := 2147483647) ⟨h0.trans h, hu⟩ hc.latGranRat (by norm_num)
  have hmul : q16Mul lat c.latGranRat ≤ q16Mul lat' c.latGranRat := by
    rw [hm, hm']
    exact mul_ediv_mono (by norm_num) hc.latGranRat.1 h
  have hclamp := clamp_mono hl.gran hmul
  simp only [pgCpuCalcGran]
  split_ifs <;> omega

theorem calcWakeup_order (he : eff.Shaped) (hl : l.Calibrated) {p p' : ℤ} (hp : 0 ≤ p)
    (h : p ≤ p') (hu : p' ≤ 2147483647) : pgCpuCalcWakeup p' eff l ≤ pgCpuCalcWakeup p eff l := by
  have hmin := hl.minWake_ge
  have hmax := hl.maxWake_le
  have hdec := decay_mem he.decay ⟨hp, h.trans hu⟩
  have hdec' := decay_mem he.decay ⟨hp.trans h, hu⟩
  simp only [pgCpuCalcWakeup]
  rw [ramp_eq hmin hl.wake (by omega) hdec, ramp_eq hmin hl.wake (by omega) hdec']
  exact clamp_mono hl.wake (ramp_mono hl.wake (decay_anti he.decay hp h hu))

theorem calcWalt_order (hl : l.Calibrated) {p p' : ℤ} (hp : 0 ≤ p) (h : p ≤ p')
    (hu : p' ≤ 2147483647) : pgCpuCalcWalt p l ≤ pgCpuCalcWalt p' l := by
  have hmin := hl.minWalt_eq
  have hmax := hl.maxWalt_eq
  obtain ⟨hsq, hsq0, hsq1⟩ := q16Mul_mem (weight_mem p) (weight_mem p) (by norm_num)
  obtain ⟨hsq', hsq0', hsq1'⟩ := q16Mul_mem (weight_mem p') (weight_mem p') (by norm_num)
  simp only [pgCpuCalcWalt, weight_eq hp (h.trans hu), weight_eq (hp.trans h) hu]
  rw [ramp_eq (by omega) hl.walt (by omega) ⟨hsq0, hsq1⟩,
    ramp_eq (by omega) hl.walt (by omega) ⟨hsq0', hsq1'⟩]
  apply clamp_mono hl.walt
  apply ramp_mono hl.walt
  rw [hsq, hsq']
  apply Int.ediv_le_ediv (by norm_num)
  exact mul_le_mul (weight_mono h) (weight_mono h) (weight_mem p).1 (weight_mem p').1

theorem calcUclamp_order (hc : c.Tuned) (he : eff.Shaped) (hl : l.Calibrated) {p p' th th' : ℤ}
    (hp : 0 ≤ p) (h : p ≤ p') (hu : p' ≤ 2147483647) (hth : 0 ≤ th) (hthth : th ≤ th')
    (hth' : th' ≤ 65536) :
    pgCpuCalcUclamp p th c eff l ≤ pgCpuCalcUclamp p' th' c eff l := by
  have hmin := hl.minUcl_eq
  have hmax := hl.maxUcl_le
  have hsig := sigmoid_mem hc.uclampK he.uclMid ⟨hp, h.trans hu⟩
  have hsig' := sigmoid_mem hc.uclampK he.uclMid ⟨hp.trans h, hu⟩
  simp only [pgCpuCalcUclamp]
  rw [ramp_eq (by omega) hl.ucl (by omega) hsig, ramp_eq (by omega) hl.ucl (by omega) hsig']
  have hramp := ramp_mono hl.ucl (sigmoid_mono hc.uclampK he.uclMid hp h hu)
  obtain ⟨h0, h1⟩ := ramp_mem hl.ucl hsig
  obtain ⟨h0', h1'⟩ := ramp_mem hl.ucl hsig'
  obtain ⟨hm, -⟩ := q16Mul_mem (A := 67108864) ⟨hmin ▸ h0, h1.trans hmax⟩ ⟨hth, hthth.trans hth'⟩
    (by norm_num)
  obtain ⟨hm', -⟩ := q16Mul_mem (A := 67108864) ⟨hmin ▸ h0', h1'.trans hmax⟩ ⟨hth.trans hthth, hth'⟩
    (by norm_num)
  apply clamp_mono hl.ucl
  rw [hm, hm']
  apply Int.ediv_le_ediv (by norm_num)
  exact mul_le_mul hramp hthth hth (hmin ▸ h0')

theorem calcMigration_order (hl : l.Calibrated) {p p' vel vel' : ℤ} (hp : 0 ≤ p) (h : p ≤ p')
    (hu : p' ≤ 2147483647) (hv : Fits 32 vel) (hv' : Fits 32 vel') (hvel : |vel| ≤ |vel'|) :
    pgCpuCalcMigration vel' p' l ≤ pgCpuCalcMigration vel p l := by
  have hmin := hl.minMig_ge
  have hmax := hl.maxMig_le
  have hfac (q : ℤ) : i32 (q16One - weight q) = 65536 - weight q := by
    have hw := weight_mem q
    apply i32_eq <;> simp only [q16One] <;> omega
  have hfac0 (q : ℤ) : 0 ≤ 65536 - weight q ∧ 65536 - weight q ≤ 65536 := by
    have hw := weight_mem q
    omega
  obtain ⟨hsq, hsq0, hsq1⟩ := q16Mul_mem (hfac0 p) (hfac0 p) (by norm_num)
  obtain ⟨hsq', hsq0', hsq1'⟩ := q16Mul_mem (hfac0 p') (hfac0 p') (by norm_num)
  have hcurve : q16Mul (65536 - weight p') (65536 - weight p') ≤
      q16Mul (65536 - weight p) (65536 - weight p) := by
    have hw := weight_mono h
    rw [hsq, hsq']
    apply Int.ediv_le_ediv (by norm_num)
    apply mul_le_mul (by omega) (by omega) (hfac0 p').1 (hfac0 p).1
  have hrate {v : ℤ} (hfit : Fits 32 v) :
      pgMathClamp (q16Div (absQ16 v) (intToQ16 25)) 0 q16One =
        pgMathClamp (min |v| 2147483647 / 25) 0 65536 := by
    have h25 : intToQ16 25 = 25 * 65536 := by decide
    rw [absQ16_eq hfit, h25, q16Div_int (le_min (abs_nonneg v) (by norm_num)) (min_le_right _ _)
      (by norm_num)]
  have hratio : pgMathClamp (min |vel| 2147483647 / 25) 0 65536 ≤
      pgMathClamp (min |vel'| 2147483647 / 25) 0 65536 := by
    apply clamp_mono (by norm_num)
    apply Int.ediv_le_ediv (by norm_num)
    exact min_le_min_right _ hvel
  simp only [pgCpuCalcMigration, weight_eq hp (h.trans hu), weight_eq (hp.trans h) hu, hfac,
    hrate hv, hrate hv']
  rw [ramp_eq hmin hl.mig (by omega) ⟨hsq0, hsq1⟩, ramp_eq hmin hl.mig (by omega) ⟨hsq0', hsq1'⟩]
  have hramp := ramp_mono hl.mig hcurve
  obtain ⟨h0, h1⟩ := ramp_mem hl.mig ⟨hsq0, hsq1⟩
  obtain ⟨h0', h1'⟩ := ramp_mem hl.mig ⟨hsq0', hsq1'⟩
  generalize ramp l.minMig l.maxMig (q16Mul (65536 - weight p) (65536 - weight p)) = r at *
  generalize ramp l.minMig l.maxMig (q16Mul (65536 - weight p') (65536 - weight p')) = r' at *
  have hrat (v : ℤ) : 0 ≤ pgMathClamp (min |v| 2147483647 / 25) 0 65536 ∧
      pgMathClamp (min |v| 2147483647 / 25) 0 65536 ≤ 65536 :=
    ⟨le_clamp (by norm_num) _, clamp_le (by norm_num) _⟩
  have hw := hrat vel
  have hw' := hrat vel'
  generalize pgMathClamp (min |vel| 2147483647 / 25) 0 65536 = w at *
  generalize pgMathClamp (min |vel'| 2147483647 / 25) 0 65536 = w' at *
  have hkeep {x : ℤ} (hx : 0 ≤ x ∧ x ≤ 65536) :
      i32 (q16One - q16Mul x q16Half) = 65536 - x * 32768 / 2 ^ 16 := by
    obtain ⟨hm, -⟩ := q16Mul_mem (b := q16Half) (B := 32768) hx (by decide) (by norm_num)
    rw [hm]
    apply i32_eq <;> simp only [q16One, q16Half] <;> omega
  rw [hkeep hw, hkeep hw']
  have hk : 0 ≤ 65536 - w * 32768 / 2 ^ 16 ∧ 65536 - w * 32768 / 2 ^ 16 ≤ 65536 := by omega
  have hk' : 0 ≤ 65536 - w' * 32768 / 2 ^ 16 ∧ 65536 - w' * 32768 / 2 ^ 16 ≤ 65536 := by omega
  obtain ⟨hm, -⟩ := q16Mul_mem (A := 78643) ⟨hmin.trans h0, h1.trans hmax⟩ hk (by norm_num)
  obtain ⟨hm', -⟩ := q16Mul_mem (A := 78643) ⟨hmin.trans h0', h1'.trans hmax⟩ hk' (by norm_num)
  apply clamp_mono hl.mig
  rw [hm, hm']
  apply Int.ediv_le_ediv (by norm_num)
  exact mul_le_mul hramp (by omega) hk'.1 (hmin.trans h0)

theorem calcEffPress_order (he : eff.Shaped) {d d' t : ℤ} (hd : 0 ≤ d) (h : d ≤ d')
    (hu : d' ≤ 32768000) (ht : 0 ≤ t ∧ t ≤ 65536) :
    0 ≤ pgCpuCalcEffPress d t eff ∧ pgCpuCalcEffPress d t eff ≤ pgCpuCalcEffPress d' t eff ∧
      pgCpuCalcEffPress d' t eff ≤ 67108864 := by
  obtain ⟨-, hamp0, hamp1⟩ := q16Mul_mem ht he.trendAmp (by norm_num)
  have hgain : i32 (q16One + q16Mul t eff.trendAmp) = 65536 + q16Mul t eff.trendAmp := by
    apply i32_eq <;> simp only [q16One] <;> omega
  have hmem : 0 ≤ 65536 + q16Mul t eff.trendAmp ∧ 65536 + q16Mul t eff.trendAmp ≤ 131072 := by omega
  obtain ⟨hm, h0, -⟩ := q16Mul_mem (A := 32768000) ⟨hd, h.trans hu⟩ hmem (by norm_num)
  obtain ⟨hm', -, h1⟩ := q16Mul_mem (A := 32768000) ⟨hd.trans h, hu⟩ hmem (by norm_num)
  simp only [pgCpuCalcEffPress, hgain]
  refine ⟨h0, ?_, h1.trans (by norm_num)⟩
  rw [hm, hm']
  exact mul_ediv_mono (by norm_num) hmem.1 h

end Orders

/-- `v` is at most `w`, and still is after either sanitiser. -/
structure SanitisedLe (v w : ℤ) : Prop where
  le : v ≤ w
  quant : ∀ fallback, pgMathSanQuantU64 v fallback pgQuantNs ≤ pgMathSanQuantU64 w fallback pgQuantNs
  round : ∀ fallback, pgMathSanU64 v fallback ≤ pgMathSanU64 w fallback

theorem sanitisedLe {v w : ℤ} (h0 : 0 ≤ v) (h : v ≤ w) (hu : w ≤ 134217728) : SanitisedLe v w := by
  constructor
  · exact h
  · intro fallback
    rw [sanQuant_eq h0 (by omega), sanQuant_eq (h0.trans h) (by omega)]
    exact nearest_mono 16 (toNs_mono h)
  · intro fallback
    rw [sanU64_eq h0 (h.trans hu), sanU64_eq (h0.trans h) hu]
    omega

structure ShapingOrders (c : CpuCfg) (eff : CpuEff) (l : CpuLim) : Prop where
  lat_pEff : ∀ {p p' d th : ℤ}, 0 ≤ p → p ≤ p' → p' ≤ int32Max → 0 ≤ d → d ≤ intToQ16 500 →
    SanitisedLe (pgCpuCalcLat p' d th c eff l) (pgCpuCalcLat p d th c eff l)
  lat_lDem : ∀ {p d d' th : ℤ}, 0 ≤ p → p ≤ int32Max → 0 ≤ d → d ≤ d' → d' ≤ intToQ16 500 →
    SanitisedLe (pgCpuCalcLat p d' th c eff l) (pgCpuCalcLat p d th c eff l)
  lat_thLat : ∀ {p d th th' : ℤ}, 0 ≤ p → p ≤ int32Max → 0 ≤ d → d ≤ intToQ16 500 → th ≤ th' →
    SanitisedLe (pgCpuCalcLat p d th c eff l) (pgCpuCalcLat p d th' c eff l)
  gran_lat : ∀ {lat lat' : ℤ}, 0 ≤ lat → lat ≤ lat' → lat' ≤ int32Max →
    SanitisedLe (pgCpuCalcGran lat c l) (pgCpuCalcGran lat' c l)
  wakeup_pEff : ∀ {p p' : ℤ}, 0 ≤ p → p ≤ p' → p' ≤ int32Max →
    SanitisedLe (pgCpuCalcWakeup p' eff l) (pgCpuCalcWakeup p eff l)
  migration_pEff : ∀ {p p' vel : ℤ}, 0 ≤ p → p ≤ p' → p' ≤ int32Max → Fits 32 vel →
    SanitisedLe (pgCpuCalcMigration vel p' l) (pgCpuCalcMigration vel p l)
  migration_vel : ∀ {p vel vel' : ℤ}, 0 ≤ p → p ≤ int32Max → Fits 32 vel → Fits 32 vel' →
    |vel| ≤ |vel'| → SanitisedLe (pgCpuCalcMigration vel' p l) (pgCpuCalcMigration vel p l)
  walt_press : ∀ {p p' : ℤ}, 0 ≤ p → p ≤ p' → p' ≤ int32Max →
    SanitisedLe (pgCpuCalcWalt p l) (pgCpuCalcWalt p' l)
  uclamp_press : ∀ {p p' th : ℤ}, 0 ≤ p → p ≤ p' → p' ≤ int32Max → floatToQ16 1 10 ≤ th →
    th ≤ q16One → SanitisedLe (pgCpuCalcUclamp p th c eff l) (pgCpuCalcUclamp p' th c eff l)
  uclamp_thScl : ∀ {p th th' : ℤ}, 0 ≤ p → p ≤ int32Max → floatToQ16 1 10 ≤ th → th ≤ th' →
    th' ≤ q16One → SanitisedLe (pgCpuCalcUclamp p th c eff l) (pgCpuCalcUclamp p th' c eff l)
  effPress_lDem : ∀ {d d' t : ℤ}, 0 ≤ d → d ≤ d' → d' ≤ intToQ16 500 → 0 ≤ t → t ≤ q16One →
    SanitisedLe (pgCpuCalcEffPress d t eff) (pgCpuCalcEffPress d' t eff)

theorem shapingOrders {c : CpuCfg} {eff : CpuEff} {l : CpuLim} (hc : c.Tuned) (he : eff.Shaped)
    (hl : l.Calibrated) : ShapingOrders c eff l := by
  have h500 : intToQ16 500 = 32768000 := by decide
  have h01 : floatToQ16 1 10 = 6553 := by decide
  constructor
  all_goals simp only [int32Max, h500, h01, q16One]
  · intro p p' d th hp h hu hd hdu
    have hmem := calcLat_mem hl.lat p' d th c eff
    have hmem' := calcLat_mem hl.lat p d th c eff
    apply sanitisedLe (by linarith [hmem.1, hl.minLat_ge]) _ (by linarith [hmem'.2, hl.maxLat_le])
    exact calcLat_order hc he hl hp h hu hd le_rfl (by omega) le_rfl
  · intro p d d' th hp hu hd h hdu
    have hmem := calcLat_mem hl.lat p d' th c eff
    have hmem' := calcLat_mem hl.lat p d th c eff
    apply sanitisedLe (by linarith [hmem.1, hl.minLat_ge]) _ (by linarith [hmem'.2, hl.maxLat_le])
    exact calcLat_order hc he hl hp le_rfl hu hd h (by omega) le_rfl
  · intro p d th th' hp hu hd hdu h
    have hmem := calcLat_mem hl.lat p d th c eff
    have hmem' := calcLat_mem hl.lat p d th' c eff
    apply sanitisedLe (by linarith [hmem.1, hl.minLat_ge]) _ (by linarith [hmem'.2, hl.maxLat_le])
    exact calcLat_order hc he hl hp le_rfl hu hd le_rfl (by omega) h
  · intro lat lat' h0 h hu
    have hclamp (x : ℤ) := le_clamp hl.gran (q16Mul x c.latGranRat)
    have hclamp' (x : ℤ) := clamp_le hl.gran (q16Mul x c.latGranRat)
    have hmin := hl.minGran_ge
    have hmax := hl.maxGran_le
    apply sanitisedLe _ (calcGran_order hc hl h0 h hu)
    · have := hclamp' lat'
      simp only [pgCpuCalcGran]
      split_ifs <;> omega
    · have := hclamp lat
      simp only [pgCpuCalcGran]
      split_ifs <;> omega
  · intro p p' hp h hu
    have hmem := calcWakeup_mem hl.wake p' eff
    have hmem' := calcWakeup_mem hl.wake p eff
    apply sanitisedLe (hl.minWake_ge.trans hmem.1) _ (by linarith [hmem'.2, hl.maxWake_le])
    exact calcWakeup_order he hl hp h hu
  · intro p p' vel hp h hu hv
    have hmem := calcMigration_mem hl.mig vel p'
    have hmem' := calcMigration_mem hl.mig vel p
    apply sanitisedLe (hl.minMig_ge.trans hmem.1) _ (by linarith [hmem'.2, hl.maxMig_le])
    exact calcMigration_order hl hp h hu hv hv le_rfl
  · intro p vel vel' hp hu hv hv' h
    have hmem := calcMigration_mem hl.mig vel' p
    have hmem' := calcMigration_mem hl.mig vel p
    apply sanitisedLe (hl.minMig_ge.trans hmem.1) _ (by linarith [hmem'.2, hl.maxMig_le])
    exact calcMigration_order hl hp le_rfl hu hv hv' h
  · intro p p' hp h hu
    have hmem := calcWalt_mem hl.walt p
    have hmem' := calcWalt_mem hl.walt p'
    apply sanitisedLe (by linarith [hmem.1, hl.minWalt_eq]) _ (by linarith [hmem'.2, hl.maxWalt_eq])
    exact calcWalt_order hl hp h hu
  · intro p p' th hp h hu hth hth'
    have hmem := calcUclamp_mem hl.ucl p th c eff
    have hmem' := calcUclamp_mem hl.ucl p' th c eff
    apply sanitisedLe (by linarith [hmem.1, hl.minUcl_eq]) _ (by linarith [hmem'.2, hl.maxUcl_le])
    exact calcUclamp_order hc he hl hp h hu (by omega) le_rfl hth'
  · intro p th th' hp hu hth h hth'
    have hmem := calcUclamp_mem hl.ucl p th c eff
    have hmem' := calcUclamp_mem hl.ucl p th' c eff
    apply sanitisedLe (by linarith [hmem.1, hl.minUcl_eq]) _ (by linarith [hmem'.2, hl.maxUcl_le])
    exact calcUclamp_order hc he hl hp le_rfl hu (by omega) h hth'
  · intro d d' t hd h hu ht ht'
    obtain ⟨h0, hle, h1⟩ := calcEffPress_order he hd h hu ⟨ht, ht'⟩
    exact sanitisedLe h0 hle (by omega)

theorem curves_monotone (hw hw' : Hardware) (batLvl : ℤ) {thScl avg300 : ℤ}
    (hth : floatToQ16 1 10 ≤ thScl) (hth' : thScl ≤ q16One) (havg : 0 ≤ avg300)
    (havg' : avg300 ≤ intToQ16 100) :
    ShapingOrders (pgTuneConfigs hw').1 (pgCpuUpdEff batLvl thScl avg300) (pgTuneLimits hw) := by
  apply shapingOrders (tuneConfigs_tuned hw') _ (tuneLimits_calibrated hw)
  have h01 : floatToQ16 1 10 = 6553 := by decide
  have h100 : intToQ16 100 = 6553600 := by decide
  exact updEff_shaped batLvl ⟨h01 ▸ hth, hth'⟩ ⟨havg, h100 ▸ havg'⟩

theorem curves_monotone_bare :
    ShapingOrders (pgTuneConfigs ⟨8, fun _ => .error 2, fun _ => .error 2, none⟩).1
      (pgCpuUpdEff 3276800 32768 131072)
      (pgTuneLimits ⟨8, fun _ => .error 2, fun _ => .error 2, none⟩) :=
  curves_monotone _ _ 3276800 (by decide) (by decide) (by decide) (by decide)

end Pgov
