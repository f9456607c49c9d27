import Pgov.ThermalOutlook

namespace Pgov

open FixedWidth Runs

structure ExactPid where
  sum : ℤ
  pTerm : ℤ
  integ : ℤ
  vBst : ℤ
  dTerm : ℤ
  u : ℤ

def exactGain (base tDist : ℤ) : ℤ := base + base * 65536 / tDist

def rateTerm (kdBase vel : ℤ) : ℤ := (kdBase + 2 * max vel 0) * vel / 2 ^ 16

def clampInteg (sum : ℤ) : ℤ := pgMathClamp sum (intToQ16 (-50)) (intToQ16 50)

def exactPid (cfg : ThermalCfg) (integ sp tmp vel dtS : ℤ) : ExactPid :=
  let err := tmp - sp
  let tDist := max (sp - tmp) 6553
  let sum := integ + exactGain cfg.kiBase tDist * err / 2 ^ 16 * dtS / 2 ^ 16
  let pTerm := exactGain cfg.kpBase tDist * err / 2 ^ 16
  let dTerm := rateTerm cfg.kdBase vel
  { sum, pTerm, integ := clampInteg sum, vBst := 2 * max vel 0, dTerm,
    u := pTerm + clampInteg sum + dTerm }

def excess (u : ℤ) : ℤ := u - pgMathClamp u 0 (intToQ16 100)

def exactDrain (u awK dtS : ℤ) : ℤ := excess u * awK / 2 ^ 16 * dtS / 2 ^ 16

def exactStored (integ u awK dtS : ℤ) : ℤ :=
  let drain := exactDrain u awK dtS
  if |excess u| ≤ 65 then integ
  else if (integ > 0 ∧ drain > integ) ∨ (integ < 0 ∧ drain < integ) then 0
  else integ - drain

section Terms

variable {cfg : ThermalCfg} {integ sp tmp vel dtS base tDist : ℤ}

/-- Setpoints that tuning and the battery allow, estimates up to 3000 degrees, and the step times
that the clamp leaves. -/
structure PidRange (cfg : ThermalCfg) (integ sp tmp dtS : ℤ) : Prop where
  tuned : cfg.Tuned
  integ : |integ| ≤ 30000 * 65536
  sp : 2621440 ≤ sp ∧ sp ≤ 5898240
  tmp : 0 ≤ tmp ∧ tmp ≤ 3000 * 65536
  dtS : 655 ≤ dtS ∧ dtS ≤ 65536

theorem exactGain_bounds (hb : 0 ≤ base) (ht : 6553 ≤ tDist) :
    base ≤ exactGain base tDist ∧ exactGain base tDist ≤ 12 * base := by
  have h0 : 0 ≤ base * 65536 / tDist := Int.ediv_nonneg (by omega) (by omega)
  have hle : base * 65536 / tDist ≤ 11 * base := by
    have hlt : base * 65536 / tDist < 11 * base + 1 := by
      apply Int.ediv_lt_of_lt_mul (by omega)
      nlinarith
    omega
  rw [exactGain]
  omega

theorem gain_eq (hb : 0 ≤ base) (hb' : base ≤ 85196) (ht : 6553 ≤ tDist) :
    i32 (base + q16Div base tDist) = exactGain base tDist := by
  obtain ⟨hlow, hhigh⟩ := exactGain_bounds hb ht
  rw [exactGain] at hlow hhigh ⊢
  have hdiv : (base * 65536).tdiv tDist = base * 65536 / tDist :=
    Int.tdiv_eq_ediv_of_nonneg (by omega)
  rw [q16Div_eq (by omega) (by omega) (by omega), hdiv, i32_eq (by omega) (by omega)]

theorem share_mem {x b : ℤ} (hx : -b ≤ x ∧ x ≤ b) (h0 : 0 ≤ dtS) (h1 : dtS ≤ 65536) :
    -b ≤ x * dtS / 2 ^ 16 ∧ x * dtS / 2 ^ 16 ≤ b := by
  obtain ⟨hlow, hhigh⟩ := Rounding.scaled_mem hx ⟨h0, h1⟩ ⟨by omega, by omega⟩
  omega

theorem vBst_eq (h : Fits 32 (2 * max vel 0)) :
    (if vel > 0 then q16Mul (floatToQ16 2 1) vel else 0) = 2 * max vel 0 := by
  have htwo : floatToQ16 2 1 = 131072 := by decide
  obtain ⟨hl, hu⟩ := fits32_iff.mp h
  split
  · next hpos =>
    rw [max_eq_left hpos.le] at hu ⊢
    rw [htwo, q16Mul_eq (by omega) (by omega)]
    omega
  · next hneg => rw [max_eq_right (by omega), mul_zero]

theorem PidRange.gains (h : PidRange cfg integ sp tmp dtS) :
    (29491 ≤ cfg.kpBase ∧ cfg.kpBase ≤ 58982) ∧ (327 ≤ cfg.kiBase ∧ cfg.kiBase ≤ 983) ∧
      39321 ≤ cfg.kdBase ∧ cfg.kdBase ≤ 85196 :=
  ⟨h.tuned.kpBase, h.tuned.kiBase, h.tuned.kdBase⟩

theorem clampInteg_mem (sum : ℤ) : -3276800 ≤ clampInteg sum ∧ clampInteg sum ≤ 3276800 := by
  have hlow : intToQ16 (-50) = -3276800 := by decide
  have hhigh : intToQ16 50 = 3276800 := by decide
  rw [clampInteg, hlow, hhigh]
  exact ⟨le_clamp (by norm_num) _, clamp_le (by norm_num) _⟩

theorem clampInteg_mono {a b : ℤ} (h : a ≤ b) : clampInteg a ≤ clampInteg b :=
  clamp_mono (by decide) h

end Terms

section Envelope

variable {base kd e lo hi v vLo vHi : ℤ}

/-- The least and the greatest product of an error `e` with the gain that its distance gives it. -/
def gainLow (base e : ℤ) : ℤ :=
  if e < 0 then base * (e - 65536) / 2 ^ 16 else exactGain base 6553 * e / 2 ^ 16

def gainHigh (base e : ℤ) : ℤ :=
  if e < 0 then base * e / 2 ^ 16 else exactGain base 6553 * e / 2 ^ 16

theorem gain_mul_mem (hb : 0 ≤ base) (e : ℤ) :
    gainLow base e ≤ exactGain base (max (-e) 6553) * e / 2 ^ 16 ∧
      exactGain base (max (-e) 6553) * e / 2 ^ 16 ≤ gainHigh base e := by
  rw [gainLow, gainHigh]
  split_ifs with hneg
  · have hpos : 0 < max (-e) 6553 := by omega
    have hquot : 0 ≤ base * 65536 / max (-e) 6553 := Int.ediv_nonneg (by omega) hpos.le
    have hscaled : base * 65536 / max (-e) 6553 * -e ≤ base * 65536 := by
      calc base * 65536 / max (-e) 6553 * -e ≤ base * 65536 / max (-e) 6553 * max (-e) 6553 :=
            mul_le_mul_of_nonneg_left (by omega) hquot
        _ ≤ base * 65536 := Int.ediv_mul_le _ hpos.ne'
    have hscaled0 : 0 ≤ base * 65536 / max (-e) 6553 * -e := mul_nonneg hquot (by omega)
    rw [exactGain]
    constructor
    · apply Int.ediv_le_ediv (by norm_num)
      linarith
    · apply Int.ediv_le_ediv (by norm_num)
      linarith
  · rw [max_eq_right (by omega)]
    exact ⟨le_refl _, le_refl _⟩

theorem gainLow_mono (hb : 0 ≤ base) (h : lo ≤ e) : gainLow base lo ≤ gainLow base e := by
  have hg : 0 ≤ exactGain base 6553 := hb.trans (exactGain_bounds hb (le_refl 6553)).1
  rw [gainLow, gainLow]
  split_ifs with h1 h2
  · exact Int.ediv_le_ediv (by norm_num) (mul_le_mul_of_nonneg_left (by omega) hb)
  · have hneg : base * (lo - 65536) ≤ 0 := mul_nonpos_of_nonneg_of_nonpos hb (by omega)
    have hpos : 0 ≤ exactGain base 6553 * e := mul_nonneg hg (by omega)
    omega
  · omega
  · exact Int.ediv_le_ediv (by norm_num) (mul_le_mul_of_nonneg_left h hg)

theorem gainHigh_mono (hb : 0 ≤ base) (h : e ≤ hi) : gainHigh base e ≤ gainHigh base hi := by
  have hg : 0 ≤ exactGain base 6553 := hb.trans (exactGain_bounds hb (le_refl 6553)).1
  rw [gainHigh, gainHigh]
  split_ifs with h1 h2
  · exact Int.ediv_le_ediv (by norm_num) (mul_le_mul_of_nonneg_left h hb)
  · have hneg : base * e ≤ 0 := mul_nonpos_of_nonneg_of_nonpos hb (by omega)
    have hpos : 0 ≤ exactGain base 6553 * hi := mul_nonneg hg (by omega)
    omega
  · omega
  · exact Int.ediv_le_ediv (by norm_num) (mul_le_mul_of_nonneg_left h hg)

theorem rateTerm_mono (hkd : 0 ≤ kd) (h : vLo ≤ v) : rateTerm kd vLo ≤ rateTerm kd v := by
  have hlin : kd * vLo ≤ kd * v := mul_le_mul_of_nonneg_left h hkd
  have hsquare : max vLo 0 * vLo ≤ max v 0 * v := by
    rcases le_total vLo 0 with hneg | hpos
    · rw [max_eq_right hneg, zero_mul]
      rcases le_total v 0 with hv | hv
      · rw [max_eq_right hv, zero_mul]
      · exact mul_nonneg (le_max_right _ _) hv
    · rw [max_eq_left hpos, max_eq_left (hpos.trans h)]
      exact mul_self_le_mul_self hpos h
  apply Int.ediv_le_ediv (by norm_num)
  linarith

/-- The integrals after the clamp and the outputs between which a call can end. -/
structure Envelope where
  iLo : ℤ
  iHi : ℤ
  uLo : ℤ
  uHi : ℤ
  deriving DecidableEq, Repr

def envelope (cfg : ThermalCfg) (integ sp dtS : ℤ) (o : Outlook) : Envelope :=
  let iLo := clampInteg (integ + gainLow cfg.kiBase (o.tLo - sp) * dtS / 2 ^ 16)
  let iHi := clampInteg (integ + gainHigh cfg.kiBase (o.tHi - sp) * dtS / 2 ^ 16)
  { iLo, iHi
    uLo := gainLow cfg.kpBase (o.tLo - sp) + iLo + rateTerm cfg.kdBase o.vLo
    uHi := gainHigh cfg.kpBase (o.tHi - sp) + iHi + rateTerm cfg.kdBase o.vHi }

theorem exactPid_mem {cfg : ThermalCfg} {integ sp tmp vel dtS : ℤ} {o : Outlook}
    (hr : PidRange cfg integ sp tmp dtS) (ht : o.tLo ≤ tmp ∧ tmp ≤ o.tHi)
    (hv : o.vLo ≤ vel ∧ vel ≤ o.vHi) :
    let p := exactPid cfg integ sp tmp vel dtS
    let env := envelope cfg integ sp dtS o
    (env.iLo ≤ p.integ ∧ p.integ ≤ env.iHi) ∧ env.uLo ≤ p.u ∧ p.u ≤ env.uHi := by
  obtain ⟨⟨hp0, -⟩, ⟨hi0, -⟩, hd0, -⟩ := hr.gains
  obtain ⟨hdt, -⟩ := hr.dtS
  have hmem {base : ℤ} (hb : 0 ≤ base) :
      gainLow base (o.tLo - sp) ≤ exactGain base (max (sp - tmp) 6553) * (tmp - sp) / 2 ^ 16 ∧
      exactGain base (max (sp - tmp) 6553) * (tmp - sp) / 2 ^ 16 ≤ gainHigh base (o.tHi - sp) := by
    rw [← neg_sub tmp sp]
    obtain ⟨hl, hu⟩ := gain_mul_mem hb (tmp - sp)
    exact ⟨(gainLow_mono hb (by omega)).trans hl, hu.trans (gainHigh_mono hb (by omega))⟩
  obtain ⟨hil, hiu⟩ := hmem (by omega : 0 ≤ cfg.kiBase)
  obtain ⟨hpl, hpu⟩ := hmem (by omega : 0 ≤ cfg.kpBase)
  have hilow := clampInteg_mono (add_le_add_right
    (Rounding.mul_ediv_mono (c := 2 ^ 16) (k := dtS) (by norm_num) (by omega) hil) integ)
  have hihigh := clampInteg_mono (add_le_add_right
    (Rounding.mul_ediv_mono (c := 2 ^ 16) (k := dtS) (by norm_num) (by omega) hiu) integ)
  have hdl := rateTerm_mono (by omega : 0 ≤ cfg.kdBase) hv.1
  have hdu := rateTerm_mono (by omega : 0 ≤ cfg.kdBase) hv.2
  simp only [exactPid, envelope]
  omega

end Envelope

section Fits

variable {cfg : ThermalCfg} {integ sp tmp vel dtS awK : ℤ}

structure PidFits (cfg : ThermalCfg) (integ sp tmp vel dtS awK : ℤ) : Prop where
  sum : Fits 32 (exactPid cfg integ sp tmp vel dtS).sum
  pTerm : Fits 32 (exactPid cfg integ sp tmp vel dtS).pTerm
  vBst : Fits 32 (exactPid cfg integ sp tmp vel dtS).vBst
  kD : Fits 32 (cfg.kdBase + (exactPid cfg integ sp tmp vel dtS).vBst)
  dTerm : Fits 32 (exactPid cfg integ sp tmp vel dtS).dTerm
  u : Fits 32 (exactPid cfg integ sp tmp vel dtS).u
  scaled : Fits 32 (excess (exactPid cfg integ sp tmp vel dtS).u * awK / 2 ^ 16)
  drain : Fits 32 (exactDrain (exactPid cfg integ sp tmp vel dtS).u awK dtS)
  stored : Fits 32 ((exactPid cfg integ sp tmp vel dtS).integ -
    exactDrain (exactPid cfg integ sp tmp vel dtS).u awK dtS)

structure OutputRoom (uLo uHi awK : ℤ) : Prop where
  low : -(32700 * 2 ^ 32) ≤ uLo * awK
  high : (uHi - 6553600) * awK ≤ 32700 * 2 ^ 32

theorem OutputRoom.mono {uLo uHi u : ℤ} (h : OutputRoom uLo uHi awK) (hawK : 0 ≤ awK)
    (hu : uLo ≤ u ∧ u ≤ uHi) : OutputRoom u u awK :=
  ⟨h.low.trans (mul_le_mul_of_nonneg_right hu.1 hawK),
    (mul_le_mul_of_nonneg_right (sub_le_sub_right hu.2 _) hawK).trans h.high⟩

theorem OutputRoom.bounds {u : ℤ} (h : OutputRoom u u awK) (hawK : 127795 ≤ awK) :
    (-1101300000 ≤ u ∧ u ≤ 1107900000) ∧
      -(32700 * 2 ^ 32) ≤ excess u * awK ∧ excess u * awK ≤ 32700 * 2 ^ 32 := by
  have hmax : intToQ16 100 = 6553600 := by decide
  obtain ⟨hlow, hhigh⟩ := h
  refine ⟨⟨by nlinarith, by nlinarith⟩, ?_⟩
  rw [excess, pgMathClamp, hmax]
  split_ifs with hneg hover
  · rw [sub_zero]
    exact ⟨hlow, (mul_nonpos_of_nonpos_of_nonneg hneg.le (by omega)).trans (by norm_num)⟩
  · exact ⟨(by norm_num : -(32700 * 2 ^ 32) ≤ (0 : ℤ)).trans (mul_nonneg (by omega) (by omega)),
      hhigh⟩
  · rw [sub_self, zero_mul]
    norm_num

theorem pTerm_mem (vel : ℤ) (h : PidRange cfg integ sp tmp dtS) :
    -5400000 ≤ (exactPid cfg integ sp tmp vel dtS).pTerm ∧
      (exactPid cfg integ sp tmp vel dtS).pTerm ≤ 2147483647 := by
  obtain ⟨⟨hp0, hp1⟩, -, -⟩ := h.gains
  obtain ⟨hs0, hs1⟩ := h.sp
  obtain ⟨ht0, ht1⟩ := h.tmp
  obtain ⟨hg0, hg1⟩ := exactGain_bounds (by omega : 0 ≤ cfg.kpBase) (le_refl 6553)
  have hmem := gain_mul_mem (by omega : 0 ≤ cfg.kpBase) (tmp - sp)
  rw [neg_sub] at hmem
  obtain ⟨hlow, hhigh⟩ := hmem
  have hneg : 58982 * (-5898240 - 65536) ≤ cfg.kpBase * (-5898240 - 65536) := by omega
  have hleast : -5400000 ≤ gainLow cfg.kpBase (-5898240) := by
    rw [gainLow, if_pos (by norm_num)]
    omega
  have hlow' := gainLow_mono (by omega : 0 ≤ cfg.kpBase) (by omega : -5898240 ≤ tmp - sp)
  have hmost : gainHigh cfg.kpBase (3000 * 65536) ≤ 2147483647 := by
    rw [gainHigh, if_neg (by norm_num)]
    omega
  have hhigh' := gainHigh_mono (by omega : 0 ≤ cfg.kpBase) (by omega : tmp - sp ≤ 3000 * 65536)
  simp only [exactPid]
  omega

theorem integ_sum_mem (vel : ℤ) (h : PidRange cfg integ sp tmp dtS) :
    (-5898240 ≤ exactGain cfg.kiBase (max (sp - tmp) 6553) * (tmp - sp) / 2 ^ 16 ∧
      exactGain cfg.kiBase (max (sp - tmp) 6553) * (tmp - sp) / 2 ^ 16 ≤ 40000000) ∧
      Fits 32 (exactPid cfg integ sp tmp vel dtS).sum := by
  obtain ⟨-, ⟨hi0, hi1⟩, -⟩ := h.gains
  obtain ⟨hs0, hs1⟩ := h.sp
  obtain ⟨ht0, ht1⟩ := h.tmp
  obtain ⟨hdt0, hdt1⟩ := h.dtS
  obtain ⟨hn0, hn1⟩ := abs_le.mp h.integ
  obtain ⟨hg0, hg1⟩ := exactGain_bounds (by omega : 0 ≤ cfg.kiBase) (le_max_right (sp - tmp) 6553)
  obtain ⟨hlow, hhigh⟩ :
      -5898240 * 11796 ≤ (tmp - sp) * exactGain cfg.kiBase (max (sp - tmp) 6553) ∧
        (tmp - sp) * exactGain cfg.kiBase (max (sp - tmp) 6553) ≤ 196608000 * 11796 :=
    Rounding.scaled_mem ⟨by omega, by omega⟩ ⟨by omega, by omega⟩ (by norm_num)
  rw [mul_comm (tmp - sp)] at hlow hhigh
  refine ⟨by omega, ?_⟩
  have hshare := share_mem (b := 40000000)
    (x := exactGain cfg.kiBase (max (sp - tmp) 6553) * (tmp - sp) / 2 ^ 16) (by omega)
    (by omega : 0 ≤ dtS) hdt1
  rw [fits32_iff]
  simp only [exactPid]
  omega

theorem dTerm_mem (hkd : 39321 ≤ cfg.kdBase ∧ cfg.kdBase ≤ 85196)
    (hvel : -(2 ^ 30) ≤ vel) (hd : rateTerm cfg.kdBase vel ≤ 1200000000) :
    -2147483648 ≤ rateTerm cfg.kdBase vel ∧ max vel 0 ≤ 6300000 := by
  rw [rateTerm] at hd ⊢
  rcases le_total vel 0 with hneg | hpos
  · rw [max_eq_right hneg, mul_zero, add_zero]
    have hfall : 85196 * -(2 ^ 30) ≤ cfg.kdBase * vel :=
      calc 85196 * -(2 ^ 30) ≤ cfg.kdBase * -(2 ^ 30) := by omega
        _ ≤ cfg.kdBase * vel := mul_le_mul_of_nonneg_left hvel (by omega)
    omega
  · rw [max_eq_left hpos] at hd ⊢
    have hprod : 0 ≤ (cfg.kdBase + 2 * vel) * vel := mul_nonneg (by omega) hpos
    refine ⟨by omega, ?_⟩
    by_contra hfast
    have hsquare : 6300000 * 6300000 * 2 ≤ (cfg.kdBase + 2 * vel) * vel := by nlinarith
    omega

theorem pidFits_of_room (hr : PidRange cfg integ sp tmp dtS) (hawK : 127795 ≤ awK)
    (hvel : -(2 ^ 30) ≤ vel)
    (hroom : OutputRoom (exactPid cfg integ sp tmp vel dtS).u
      (exactPid cfg integ sp tmp vel dtS).u awK) : PidFits cfg integ sp tmp vel dtS awK := by
  obtain ⟨hdt0, hdt1⟩ := hr.dtS
  obtain ⟨hp0, hp1⟩ := pTerm_mem vel hr
  obtain ⟨-, hsum⟩ := integ_sum_mem vel hr
  obtain ⟨⟨hu0, hu1⟩, he0, he1⟩ := hroom.bounds hawK
  obtain ⟨hi0, hi1⟩ := clampInteg_mem (exactPid cfg integ sp tmp vel dtS).sum
  have hu : (exactPid cfg integ sp tmp vel dtS).u = (exactPid cfg integ sp tmp vel dtS).pTerm +
      clampInteg (exactPid cfg integ sp tmp vel dtS).sum + rateTerm cfg.kdBase vel := rfl
  have hinteg : (exactPid cfg integ sp tmp vel dtS).integ =
      clampInteg (exactPid cfg integ sp tmp vel dtS).sum := rfl
  have hvBst : (exactPid cfg integ sp tmp vel dtS).vBst = 2 * max vel 0 := rfl
  have hdTerm : (exactPid cfg integ sp tmp vel dtS).dTerm = rateTerm cfg.kdBase vel := rfl
  obtain ⟨-, -, hkd⟩ := hr.gains
  -- the output bounds the derivative term, and that bounds the velocity
  obtain ⟨hd, hv⟩ := dTerm_mem hkd hvel (by omega)
  have hv0 := le_max_right vel 0
  have hdrain := share_mem (b := 32700 * 2 ^ 16)
    (x := excess (exactPid cfg integ sp tmp vel dtS).u * awK / 2 ^ 16) (by omega)
    (by omega : 0 ≤ dtS) hdt1
  refine ⟨hsum, ?_, ?_, ?_, ?_, ?_, ?_, ?_, ?_⟩ <;> rw [fits32_iff]
  · exact ⟨by omega, hp1⟩
  · omega
  · omega
  · omega
  · omega
  · omega
  · rw [exactDrain]
    omega
  · rw [exactDrain]
    omega

theorem thermalPid_exact (hr : PidRange cfg integ sp tmp dtS)
    (h : PidFits cfg integ sp tmp vel dtS awK) :
    (thermalPid cfg integ sp tmp vel dtS).uRaw = (exactPid cfg integ sp tmp vel dtS).u ∧
      (thermalPid cfg integ sp tmp vel dtS).integ = (exactPid cfg integ sp tmp vel dtS).integ := by
  obtain ⟨⟨hp0, hp1⟩, ⟨hi0, hi1⟩, -, -⟩ := hr.gains
  obtain ⟨hs0, hs1⟩ := hr.sp
  obtain ⟨ht0, ht1⟩ := hr.tmp
  obtain ⟨hdt0, hdt1⟩ := hr.dtS
  have htenth : floatToQ16 1 10 = 6553 := by decide
  have hdist : (if sp - tmp < 6553 then 6553 else sp - tmp) = max (sp - tmp) 6553 := by
    split_ifs <;> omega
  have hnear := le_max_right (sp - tmp) 6553
  have hkP := gain_eq (by omega : 0 ≤ cfg.kpBase) (by omega) hnear
  have hkI := gain_eq (by omega : 0 ≤ cfg.kiBase) (by omega) hnear
  obtain ⟨⟨hinc0, hinc1⟩, -⟩ := integ_sum_mem vel hr
  have hinc : Fits 32 (exactGain cfg.kiBase (max (sp - tmp) 6553) * (tmp - sp) / 2 ^ 16) :=
    fits32_iff.mpr ⟨by omega, by omega⟩
  have hshare := share_mem (b := 40000000)
    (x := exactGain cfg.kiBase (max (sp - tmp) 6553) * (tmp - sp) / 2 ^ 16) (by omega)
    (by omega : 0 ≤ dtS) hdt1
  have hstep : Fits 32
      (exactGain cfg.kiBase (max (sp - tmp) 6553) * (tmp - sp) / 2 ^ 16 * dtS / 2 ^ 16) :=
    fits32_iff.mpr ⟨by omega, by omega⟩
  have hsum := h.sum
  have hpTerm := h.pTerm
  have hvBst := h.vBst
  have hkD := h.kD
  have hdTerm := h.dTerm
  have hu := h.u
  simp only [exactPid, rateTerm, clampInteg] at hsum hpTerm hvBst hkD hdTerm hu
  have hmul {a b : ℤ} (h : Fits 32 (a * b / 2 ^ 16)) : q16Mul a b = a * b / 2 ^ 16 := i32_of_fits h
  have hpart (a b c : ℤ) : i32 (i32 (a + b) + c) = i32 (a + b + c) := by
    apply narrow_congr
    rw [Int.add_emod, i32, narrow_emod, ← Int.add_emod]
  simp only [thermalPid, exactPid, rateTerm, clampInteg,
    i32_eq (by omega : -2147483648 ≤ tmp - sp) (by omega),
    i32_eq (by omega : -2147483648 ≤ sp - tmp) (by omega), htenth, hdist, hkP, hkI, hmul hinc,
    hmul hstep, hmul hpTerm, i32_of_fits hsum, vBst_eq hvBst, i32_of_fits hkD, hmul hdTerm, hpart,
    i32_of_fits hu, and_self]

theorem antiWindup_exact {p : ExactPid} (hu : Fits 32 p.u)
    (hscaled : Fits 32 (excess p.u * awK / 2 ^ 16)) (hdrain : Fits 32 (exactDrain p.u awK dtS))
    (hstored : Fits 32 (p.integ - exactDrain p.u awK dtS)) :
    antiWindup p.integ p.u (pgMathClamp p.u 0 (intToQ16 100)) awK dtS =
      exactStored p.integ p.u awK dtS := by
  have hexc : i32 (p.u - pgMathClamp p.u 0 (intToQ16 100)) = excess p.u := by
    have hmax : intToQ16 100 = 6553600 := by decide
    obtain ⟨hl, hu⟩ := fits32_iff.mp hu
    apply i32_of_fits
    rw [fits32_iff, pgMathClamp, hmax]
    split_ifs <;> omega
  have habs : absQ16 (excess p.u) > 65 ↔ ¬|excess p.u| ≤ 65 := by
    rw [← hexc, absQ16_eq (i32_fits _)]
    omega
  have hmul : antiWindupDrain (excess p.u) awK dtS = exactDrain p.u awK dtS := by
    rw [antiWindupDrain, q16Mul, q16Mul, i32_of_fits hscaled]
    exact i32_of_fits hdrain
  simp only [antiWindup, exactStored, hexc, hmul, i32_of_fits hstored]
  by_cases hdead : |excess p.u| ≤ 65
  · rw [if_neg (habs.not.mpr (not_not.mpr hdead)), if_pos hdead]
  · rw [if_pos (habs.mpr hdead), if_neg hdead]

end Fits

section Calls

variable {cfg : ThermalCfg} {state : ThermalState} {call : ThermalCall}

def exactTick (cfg : ThermalCfg) (state : ThermalState) (call : ThermalCall) : ExactPid :=
  let t := thermalTick cfg state call
  exactPid cfg t.resumed.integ t.sp t.tmp t.filter.xVel t.dtS

/-- The call wraps nowhere, throttles as its exact output says, and keeps the exact integral for
the next call. -/
structure ThermalExact (cfg : ThermalCfg) (state : ThermalState) (call : ThermalCall) : Prop where
  fits : PidFits cfg (thermalTick cfg state call).resumed.integ (thermalTick cfg state call).sp
    (thermalTick cfg state call).tmp (thermalTick cfg state call).filter.xVel
    (thermalTick cfg state call).dtS (thermalTick cfg state call).awK
  uSat : (thermalTick cfg state call).pid.uSat =
    pgMathClamp (exactTick cfg state call).u 0 (intToQ16 100)
  integ : (thermalStep cfg state call).integ =
    exactStored (exactTick cfg state call).integ (exactTick cfg state call).u
      (thermalTick cfg state call).awK (thermalTick cfg state call).dtS
  scale : q16One ≤ (exactTick cfg state call).u → (pgThermalUpdate cfg state call).2 ≠ q16One

def callEnvelope (cfg : ThermalCfg) (state : ThermalState) (call : ThermalCall) : Envelope :=
  let resumed := resumedState cfg state call
  envelope cfg resumed.integ (thermalSetpoint cfg call.batTemp) (stepTime state call)
    (outlook resumed.filter call.cpuTemp (stepTime state call))

def callGain (cfg : ThermalCfg) (state : ThermalState) (call : ThermalCall) : ℤ :=
  let resumed := resumedState cfg state call
  antiWindupGain (satCountNext resumed.prevSat resumed.satCount)

/-- The state before the call leaves its filter room, holds an integral of at most 30000, and the
extreme outputs, times the anti-windup gain, exceed their range by at most 32700. -/
structure CallRoom (cfg : ThermalCfg) (state : ThermalState) (call : ThermalCall) : Prop where
  filter : FilterRoom (resumedState cfg state call).filter call.cpuTemp (stepTime state call)
  integ : |(resumedState cfg state call).integ| ≤ 30000 * 65536
  output : OutputRoom (callEnvelope cfg state call).uLo (callEnvelope cfg state call).uHi
    (callGain cfg state call)

instance (uLo uHi awK : ℤ) : Decidable (OutputRoom uLo uHi awK) :=
  decidable_of_iff (-(32700 * 2 ^ 32) ≤ uLo * awK ∧ (uHi - 6553600) * awK ≤ 32700 * 2 ^ 32)
    ⟨fun h => ⟨h.1, h.2⟩, fun h => ⟨h.low, h.high⟩⟩

instance (cfg : ThermalCfg) (state : ThermalState) (call : ThermalCall) :
    Decidable (CallRoom cfg state call) :=
  decidable_of_iff
    (FilterRoom (resumedState cfg state call).filter call.cpuTemp (stepTime state call) ∧
      |(resumedState cfg state call).integ| ≤ 30000 * 65536 ∧
      OutputRoom (callEnvelope cfg state call).uLo (callEnvelope cfg state call).uHi
        (callGain cfg state call))
    ⟨fun h => ⟨h.1, h.2.1, h.2.2⟩, fun h => ⟨h.filter, h.integ, h.output⟩⟩

section Filter

variable {filter : KalmanState} {cpuTemp dtS : ℤ}

theorem kalmanUpdate_nonneg (filter : KalmanState) (zMeas dtSec : ℤ) :
    0 ≤ (pgKalmanUpdate filter zMeas dtSec).2 := by
  have hz : 0 ≤ pgMathClamp zMeas 0 (intToQ16 500) := le_clamp (by decide) _
  simp only [pgKalmanUpdate]
  generalize (if dtSec > intToQ16 5 then pgKalmanReset else filter) = started
  split
  · exact hz
  · simp only
    split_ifs <;> omega

theorem outlook_tHi_le (h : FilterRoom filter cpuTemp dtS) :
    (outlook filter cpuTemp dtS).tHi ≤ 3000 * 65536 := by
  have hcap : pgMathClamp cpuTemp 0 (intToQ16 500) ≤ 500 * 65536 := clamp_le (by decide) _
  rw [outlook]
  split
  · exact hcap.trans (by norm_num)
  · next hfirst =>
    have hx := le_of_abs_le (h.expected.resolve_left hfirst)
    exact max_le hx (hcap.trans (by norm_num))

end Filter

section Room

variable (h : cfg.Tuned) (hrange : ThermalRange state) (hbat : SensorRange call.batTemp)
  (hroom : CallRoom cfg state call)

include h hrange hbat hroom in
theorem tick_outlook : PidRange cfg (thermalTick cfg state call).resumed.integ
      (thermalTick cfg state call).sp (thermalTick cfg state call).tmp
      (thermalTick cfg state call).dtS ∧
    -(2 ^ 30) ≤ (thermalTick cfg state call).filter.xVel ∧
    ((callEnvelope cfg state call).iLo ≤ (exactTick cfg state call).integ ∧
      (exactTick cfg state call).integ ≤ (callEnvelope cfg state call).iHi) ∧
    (callEnvelope cfg state call).uLo ≤ (exactTick cfg state call).u ∧
      (exactTick cfg state call).u ≤ (callEnvelope cfg state call).uHi := by
  have hdt := stepTime_mem state call
  have hnoise := (hrange.resumed cfg call).noise
  obtain ⟨htmp, hvel⟩ := kalmanUpdate_mem hdt hnoise.qVel hroom.filter
  have hr : PidRange cfg (resumedState cfg state call).integ (thermalSetpoint cfg call.batTemp)
      (pgKalmanUpdate (resumedState cfg state call).filter call.cpuTemp (stepTime state call)).2
      (stepTime state call) :=
    ⟨h, hroom.integ, setpoint_bounds h hbat,
      ⟨kalmanUpdate_nonneg _ _ _, htmp.2.trans (outlook_tHi_le hroom.filter)⟩, hdt⟩
  exact ⟨hr, hroom.filter.rate.1.trans hvel.1, exactPid_mem hr htmp hvel⟩

include h hrange hbat hroom in
theorem tick_exact : PidFits cfg (thermalTick cfg state call).resumed.integ
      (thermalTick cfg state call).sp (thermalTick cfg state call).tmp
      (thermalTick cfg state call).filter.xVel (thermalTick cfg state call).dtS
      (thermalTick cfg state call).awK ∧
    (thermalTick cfg state call).pid.uRaw = (exactTick cfg state call).u ∧
    (thermalTick cfg state call).pid.integ = (exactTick cfg state call).integ := by
  obtain ⟨hr, hvel, -, hu⟩ := tick_outlook h hrange hbat hroom
  have hawK : 127795 ≤ callGain cfg state call :=
    antiWindupGain_le (satCountNext_mem (hrange.resumed cfg call).satCount)
  have hfits := pidFits_of_room hr hawK hvel (hroom.output.mono (by omega) hu)
  exact ⟨hfits, thermalPid_exact hr hfits⟩

end Room

theorem thermalScale_lt {uSat : ℤ} (hlow : 65536 ≤ uSat) (hhigh : uSat ≤ 6553600) (batTemp : ℤ) :
    thermalScale cfg batTemp uSat ≠ q16One := by
  have hmax : intToQ16 100 = 100 * 65536 := by decide
  have htenth : floatToQ16 1 10 = 6553 := by decide
  have hfifth : floatToQ16 2 10 = 13107 := by decide
  rw [thermalScale, hmax, q16Div_int (by omega) (by omega) (by norm_num), q16One,
    i32_eq (by omega) (by omega), htenth, hfifth]
  simp only [pgMathClamp]
  split_ifs <;> omega

theorem thermalExact_of_room (h : cfg.Tuned) (hrange : ThermalRange state)
    (hbat : SensorRange call.batTemp) (hroom : CallRoom cfg state call) :
    ThermalExact cfg state call := by
  obtain ⟨hfits, huRaw, hinteg⟩ := tick_exact h hrange hbat hroom
  have huSat : (thermalTick cfg state call).pid.uSat =
      pgMathClamp (exactTick cfg state call).u 0 (intToQ16 100) := by
    rw [← huRaw]
    rfl
  refine ⟨hfits, huSat, ?_, ?_⟩
  · change antiWindup (thermalTick cfg state call).pid.integ (thermalTick cfg state call).pid.uRaw
      (thermalTick cfg state call).pid.uSat _ _ = _
    rw [huSat, huRaw, hinteg]
    exact antiWindup_exact hfits.u hfits.scaled hfits.drain hfits.stored
  · intro hone
    change 65536 ≤ _ at hone
    have hmax : intToQ16 100 = 6553600 := by decide
    apply thermalScale_lt
    · rw [huSat, pgMathClamp, hmax]
      split_ifs <;> omega
    · rw [huSat, pgMathClamp, hmax]
      split_ifs <;> omega

/-- In a run whose calls all find room, the controller computes what it would without wrapping. -/
theorem thermal_exact (h : cfg.Tuned) (start : Timespec) {calls : List ThermalCall}
    (hbat : ∀ call ∈ calls, SensorRange call.batTemp)
    (hroom : Along (thermalStep cfg) (CallRoom cfg) (pgThermalInit start) calls) :
    Along (thermalStep cfg) (ThermalExact cfg) (pgThermalInit start) calls := by
  have hstep (state : ThermalState) (call : ThermalCall) (hrange : ThermalRange state)
      (_ : SensorRange call.batTemp ∧ CallRoom cfg state call) :
      ThermalRange (thermalStep cfg state call) := hrange.step cfg call
  have hexact (state : ThermalState) (call : ThermalCall) (hrange : ThermalRange state)
      (hcall : SensorRange call.batTemp ∧ CallRoom cfg state call) : ThermalExact cfg state call :=
    thermalExact_of_room h hrange hcall.1 hcall.2
  exact along_of_invariant hstep hexact (thermalRange_init start)
    (along_and.mpr ⟨along_of_mem hbat _, hroom⟩)

end Calls

theorem cfgThermal_tuned : cfgThermal.Tuned :=
  ⟨by decide, by decide, by decide, by decide, by decide⟩

def heatingCalls : List ThermalCall :=
  [⟨30 * 65536, 30 * 65536, ⟨1, 0⟩⟩, ⟨38 * 65536, 30 * 65536, ⟨2, 0⟩⟩,
    ⟨46 * 65536, 30 * 65536, ⟨3, 0⟩⟩, ⟨54 * 65536, 30 * 65536, ⟨4, 0⟩⟩,
    ⟨60 * 65536, 30 * 65536, ⟨5, 0⟩⟩, ⟨58 * 65536, 30 * 65536, ⟨6, 0⟩⟩]

def eightCores : Hardware :=
  let enoent := Nat.toPNat' 2
  { cores := 8, maxFreq := fun _ => .error enoent, capacity := fun _ => .error enoent, tripPoint := none }

theorem thermal_exact_heating :
    let cfg := (pgTuneConfigs eightCores).2
    Along (thermalStep cfg) (ThermalExact cfg) (pgThermalInit ⟨0, 0⟩) heatingCalls :=
  thermal_exact (tuneThermalConfigs_tuned eightCores _) ⟨0, 0⟩ (by decide) (by decide +kernel)

def Spaced (start : Timespec) (calls : List ThermalCall) : Prop :=
  (start :: calls.map ThermalCall.now).IsChain fun a b => a.ns + 10 ^ 9 ≤ b.ns

def jumpCalls : List ThermalCall :=
  [⟨0, 30 * 65536, ⟨1, 0⟩⟩, ⟨0, 30 * 65536, ⟨2, 0⟩⟩, ⟨150 * 65536, 30 * 65536, ⟨3, 0⟩⟩]

/-- A jump from 0 to 150 degrees: the output wraps to below zero and nothing is throttled. -/
theorem thermal_output_lost :
    ¬∀ (cfg : ThermalCfg) (start : Timespec) (calls : List ThermalCall), cfg.Tuned →
      Spaced start calls →
      (∀ call ∈ calls, SensorRange call.cpuTemp ∧ SensorRange call.batTemp) →
      Along (thermalStep cfg) (ThermalExact cfg) (pgThermalInit start) calls := by
  intro h
  have hspaced : Spaced ⟨0, 0⟩ jumpCalls := by
    simp [Spaced, jumpCalls, Timespec.ns]
  have hrun := h cfgThermal ⟨0, 0⟩ jumpCalls cfgThermal_tuned hspaced (by decide)
  exact absurd hrun.2.2.1.scale (by decide +kernel)

end Pgov
