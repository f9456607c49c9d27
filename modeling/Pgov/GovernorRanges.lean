import Pgov.AlgSigmoid
import Pgov.BootState
import Pgov.DemandOrder
import Pgov.DescriptorLife

namespace Pgov

open FixedWidth Runs

structure GovRange (ctx : PgContext) : Prop where
  psiVal : ctx.loadState.psiVal ∈ Set.Icc 0 (intToQ16 500)
  psiRef : ctx.loadState.psiRef ∈ Set.Icc 0 (intToQ16 500)
  prevInteg : ctx.loadState.prevInteg ∈ Set.Icc 0 (floatToQ16 97 1)
  thScl : ctx.cachedThScl ∈ Set.Icc (floatToQ16 1 10) q16One
  batLvl : ctx.batLvl ∈ Set.Icc 0 (intToQ16 100)
  batTemp : ctx.batTemp ∈ Set.Icc (intToQ16 (-30)) (intToQ16 150)
  tempFails : ctx.tempFails ≤ pgTempFailMax

structure DemandBounds (dem : Demand) : Prop where
  thScl : dem.thScl ∈ Set.Icc (floatToQ16 1 10) q16One
  lDem : dem.lDem ∈ Set.Icc 0 (intToQ16 500)
  pEff : dem.pEff ∈ Set.Icc 0 (intToQ16 558)

theorem demandMax_nonneg : 0 ≤ intToQ16 500 := by decide

section Readings

theorem readTemp_mem (sensor : TempSensor) (out : ReadOut) {fallback : ℤ}
    (h : fallback ∈ Set.Icc (intToQ16 (-30)) (intToQ16 150)) :
    (readTemp sensor out fallback).2 ∈ Set.Icc (intToQ16 (-30)) (intToQ16 150) := by
  rw [readTemp]
  split
  · exact h
  cases readBuf out 16 with
  | none => exact h
  | some buf =>
    simp only
    split
    · exact h
    split
    · exact h
    split
    · exact h
    next hrange =>
    have hlow : intToQ16 (-30) = -1966080 := by decide
    have hhigh : intToQ16 150 = 9830400 := by decide
    rw [hlow, hhigh, not_or, not_lt, not_lt] at hrange
    rw [hlow, hhigh]
    simp only
    rw [i32_eq (by omega) (by omega)]
    exact hrange

theorem readBatCap_mem (sensor : BatSensor) (out : ReadOut) :
    (pgSensorReadBatCap sensor out).2 ∈ Set.Icc 0 (intToQ16 100) := by
  have hfull : fallbackBatCap ∈ Set.Icc 0 (intToQ16 100) := ⟨by decide, by decide⟩
  rw [pgSensorReadBatCap]
  split
  · exact hfull
  cases readBuf out 16 with
  | none => exact hfull
  | some buf =>
    simp only
    split
    · exact hfull
    next hval =>
    rw [not_or, not_or, not_lt, not_lt] at hval
    have h100 : intToQ16 100 = 6553600 := by decide
    have hfit : intToQ16 (pgParseI32 buf).1 = (pgParseI32 buf).1 * 65536 := by
      rw [intToQ16, q16One]
      apply i32_eq <;> omega
    simp only [h100, hfit, Set.mem_Icc]
    omega

end Readings

section Steps

variable {p : Policy} {d d' : Daemon} {io : TickIo} {psi : PsiTrend}

theorem thermalScale_mem (cfg : ThermalCfg) (batTemp uSat : ℤ) :
    thermalScale cfg batTemp uSat ∈ Set.Icc (floatToQ16 1 10) q16One := by
  rw [thermalScale]
  split
  · exact ⟨le_clamp (by decide) _, (clamp_le (by decide) _).trans (by decide)⟩
  · exact ⟨le_clamp (by decide) _, clamp_le (by decide) _⟩

theorem demandMove_mem (state : LoadState) (f c dt : ℤ) :
    (demandMove state f c dt).psiVal ∈ Set.Icc 0 (intToQ16 500) := by
  simp only [demandMove]
  split
  · exact ⟨le_rfl, demandMax_nonneg⟩
  split
  · exact ⟨demandMax_nonneg, le_rfl⟩
  · next hlow hhigh => exact ⟨not_lt.mp hlow, not_lt.mp hhigh⟩

theorem loadDemand_mem (state : LoadState) (input : DemandInput) (cfg : CpuCfg) :
    (pgCpuCalcLoadDemand state input cfg).1.psiVal ∈ Set.Icc 0 (intToQ16 500) ∧
      (pgCpuCalcLoadDemand state input cfg).2 = (pgCpuCalcLoadDemand state input cfg).1.psiVal := by
  rw [pgCpuCalcLoadDemand]
  split
  · exact ⟨⟨le_rfl, demandMax_nonneg⟩, rfl⟩
  · exact ⟨demandMove_mem _ _ _ _, rfl⟩

theorem demandKick_frame (state : LoadState) (input : DemandInput) (cfg : CpuCfg) :
    (demandKick state input cfg).psiRef = state.psiRef ∧
      (demandKick state input cfg).prevInteg = state.prevInteg := by
  simp only [demandKick]
  split
  · split <;> exact ⟨rfl, rfl⟩
  · split <;> exact ⟨rfl, rfl⟩

theorem loadDemand_frame (state : LoadState) (input : DemandInput) (cfg : CpuCfg) :
    (pgCpuCalcLoadDemand state input cfg).1.psiRef = state.psiRef ∧
      (pgCpuCalcLoadDemand state input cfg).1.prevInteg = state.prevInteg := by
  have hmove (state : LoadState) (f c dt : ℤ) :
      (demandMove state f c dt).psiRef = state.psiRef ∧
        (demandMove state f c dt).prevInteg = state.prevInteg := by
    simp only [demandMove]
    split
    · exact ⟨rfl, rfl⟩
    split <;> exact ⟨rfl, rfl⟩
  rw [pgCpuCalcLoadDemand]
  split
  · exact ⟨rfl, rfl⟩
  · obtain ⟨href, hinteg⟩ := demandKick_frame state input cfg
    simp only [demandDrive]
    exact ⟨(hmove _ _ _ _).1.trans href, (hmove _ _ _ _).2.trans hinteg⟩

theorem updIntg_mem (state : LoadState) (batLvl dtReal : ℤ) :
    (pgCpuUpdIntg state batLvl dtReal).1.prevInteg ∈ Set.Icc 0 (floatToQ16 97 1) ∧
      (pgCpuUpdIntg state batLvl dtReal).1.psiRef = state.psiRef := by
  have hlvl : 0 ≤ pgMathClamp batLvl 0 (intToQ16 100) ∧
      pgMathClamp batLvl 0 (intToQ16 100) ≤ 6553600 := ⟨le_clamp (by decide) _, clamp_le (by decide) _⟩
  have h100 : intToQ16 100 = 6553600 := by decide
  have hdepl : 0 ≤ q16Div (i32 (intToQ16 100 - pgMathClamp batLvl 0 (intToQ16 100))) (intToQ16 100) ∧
      q16Div (i32 (intToQ16 100 - pgMathClamp batLvl 0 (intToQ16 100))) (intToQ16 100) ≤ 65536 := by
    generalize pgMathClamp batLvl 0 (intToQ16 100) = lvl at hlvl ⊢
    rw [h100, i32_eq (by omega) (by omega)]
    have hdiv := q16Div_int (a := 6553600 - lvl) (n := 100) (by omega) (by omega) (by norm_num)
    norm_num at hdiv
    rw [hdiv]
    omega
  obtain ⟨-, hdepl2⟩ := q16Mul_mem hdepl hdepl (by norm_num)
  obtain ⟨-, hdepl3⟩ := q16Mul_mem hdepl2 hdepl (by norm_num)
  obtain ⟨-, hintg⟩ := q16Mul_mem (a := floatToQ16 97 1) (A := 6356992) (by decide) hdepl3
    (by norm_num)
  have hmem : q16Mul (floatToQ16 97 1) (q16Mul (q16Mul _ _) _) ∈ Set.Icc 0 (floatToQ16 97 1) :=
    ⟨hintg.1, hintg.2.trans (by decide)⟩
  rw [pgCpuUpdIntg]
  split
  · exact ⟨hmem, rfl⟩
  · exact ⟨hmem, rfl⟩

theorem trendGain_mem (vel : ℤ) :
    0 ≤ pgCpuCalcTrendGain vel ∧ pgCpuCalcTrendGain vel ≤ 65536 := by
  rw [pgCpuCalcTrendGain]
  split
  · next hvel =>
    have habs : |pgMathAlgSig vel| ≤ q16One := algSig_close.1
    refine ⟨?_, (le_abs_self _).trans habs⟩
    rcases algSig_sign vel with hsign | hzero
    · apply le_of_lt
      rw [← Int.sign_eq_one_iff_pos, hsign, Int.sign_eq_one_iff_pos]
      exact hvel
    · exact hzero.ge
  · exact ⟨le_rfl, by norm_num⟩

theorem effPress_mem {lDem tFact batLvl thScl : ℤ} (avg300 : ℤ) (hdem : 0 ≤ lDem ∧ lDem ≤ 32768000)
    (ht : 0 ≤ tFact ∧ tFact ≤ 65536) (hth : 0 ≤ thScl ∧ thScl ≤ 65536) :
    pgCpuCalcEffPress lDem tFact (pgCpuUpdEff batLvl thScl avg300) ∈ Set.Icc 0 (intToQ16 558) := by
  obtain ⟨-, hhealth⟩ := q16Mul_mem (batFact_mem batLvl) hth (by norm_num)
  obtain ⟨-, hamp⟩ := q16Mul_mem (a := floatToQ16 115 1000) (A := 7536) (by decide) hhealth
    (by norm_num)
  obtain ⟨-, hboost⟩ := q16Mul_mem ht hamp (by norm_num)
  have hgain : i32 (q16One + q16Mul tFact (pgCpuUpdEff batLvl thScl avg300).trendAmp) =
      65536 + q16Mul tFact (pgCpuUpdEff batLvl thScl avg300).trendAmp := by
    apply i32_eq
    · exact (by norm_num : (-2147483648 : ℤ) ≤ 65536).trans (le_add_of_nonneg_right hboost.1)
    · exact (add_le_add_right hboost.2 q16One).trans (by decide)
  obtain ⟨-, hpress⟩ := q16Mul_mem (a := lDem) (A := 32768000)
    (b := 65536 + q16Mul tFact (pgCpuUpdEff batLvl thScl avg300).trendAmp) (B := 73072) hdem
    ⟨add_nonneg (by norm_num) hboost.1, (add_le_add_right hboost.2 65536).trans (by norm_num)⟩
    (by norm_num)
  rw [pgCpuCalcEffPress, hgain]
  exact ⟨hpress.1, hpress.2.trans (by decide)⟩

theorem GovRange.same (h : GovRange d.ctx) (hsame : Ungoverned d d') : GovRange d'.ctx :=
  ⟨hsame.psiVal ▸ h.psiVal, hsame.psiRef ▸ h.psiRef, hsame.prevInteg ▸ h.prevInteg,
    hsame.cachedThScl ▸ h.thScl, hsame.batLvl ▸ h.batLvl, hsame.batTemp ▸ h.batTemp,
    hsame.tempFails ▸ h.tempFails⟩

theorem GovRange.setup {ctx : PgContext} (h : GovRange ctx) (fd : ℤ) :
    GovRange { ctx with epollFd := fd } :=
  ⟨h.psiVal, h.psiRef, h.prevInteg, h.thScl, h.batLvl, h.batTemp, h.tempFails⟩

theorem GovRange.battery (h : GovRange d.ctx) (io : TickIo) :
    GovRange (pollBatteryMetrics d io).ctx := by
  have hread : GovRange { d.ctx with
      batLvl := (pgSensorReadBatCap d.ctx.batCapSensor io.batCap).2
      batTemp := (pgSensorReadBatTemp d.ctx.batTempSensor io.batTemp).2
      lastBat := io.now } :=
    ⟨h.psiVal, h.psiRef, h.prevInteg, h.thScl, readBatCap_mem _ _,
      readTemp_mem _ _ ⟨by decide, by decide⟩, h.tempFails⟩
  rw [pollBatteryMetrics]
  split
  · exact h
  simp only
  split
  · obtain ⟨kern, fd, heq⟩ := armTrigger_eq { d with ctx := { d.ctx with
        batLvl := (pgSensorReadBatCap d.ctx.batCapSensor io.batCap).2
        batTemp := (pgSensorReadBatTemp d.ctx.batTempSensor io.batTemp).2
        lastBat := io.now } } io.arm
    rw [heq]
    exact ⟨hread.psiVal, hread.psiRef, hread.prevInteg, hread.thScl, hread.batLvl, hread.batTemp,
      hread.tempFails⟩
  · exact hread

theorem pollCpuTemp_fails {ctx : PgContext} (h : ctx.tempFails ≤ pgTempFailMax) (out : ReadOut) :
    (pollCpuTemp ctx out).2 ≤ pgTempFailMax := by
  rw [pollCpuTemp]
  split
  · simp only
    split
    · exact Nat.zero_le _
    split
    · next hlt => exact hlt
    · exact h
  · exact h

theorem GovRange.thermal (h : GovRange d.ctx) (p : Policy) (io : TickIo) :
    GovRange (pollThermalMetrics p d io).ctx := by
  have hfails := pollCpuTemp_fails h.tempFails io.cpuTemp
  rw [pollThermalMetrics]
  split
  · exact h
  generalize pollCpuTemp d.ctx io.cpuTemp = polled at hfails
  obtain ⟨cpuTemp, tempFails⟩ := polled
  cases cpuTemp with
  | none => exact ⟨h.psiVal, h.psiRef, h.prevInteg, h.thScl, h.batLvl, h.batTemp, hfails⟩
  | some cpuTemp =>
    exact ⟨h.psiVal, h.psiRef, h.prevInteg, thermalScale_mem _ _ _, h.batLvl, h.batTemp, hfails⟩

def demandIntg (d : Daemon) (io : TickIo) (psi : PsiTrend) : LoadState × ℤ × ℤ :=
  pgCpuUpdIntg
    { d.ctx.loadState with eff := pgCpuUpdEff d.ctx.batLvl d.ctx.cachedThScl psi.avg300 }
    d.ctx.batLvl (pgDtSec d.ctx.lastTick io.now)

def demandInput (d : Daemon) (io : TickIo) (psi : PsiTrend) : DemandInput :=
  let eff := pgCpuUpdEff d.ctx.batLvl d.ctx.cachedThScl psi.avg300
  { tgtPsi := psi.cur
    vel := psi.vel
    dtSafe := pgMathClamp (pgDtSec d.ctx.lastTick io.now) 1 (floatToQ16 1 10)
    thermScale := d.ctx.cachedThScl
    trendFact := pgCpuCalcTrendGain psi.vel
    integ := (demandIntg d io psi).2.1
    integDt := (demandIntg d io psi).2.2
    structBreak := psi.nis > eff.nisThresh }

def pollMetrics (p : Policy) (d : Daemon) (io : TickIo) : Daemon :=
  pollThermalMetrics p (pollBatteryMetrics d io) io

theorem calcDemand_eq (p : Policy) (d : Daemon) (io : TickIo) (psi : PsiTrend) :
    calcDemand p d io psi =
      let d := pollMetrics p d io
      let moved := pgCpuCalcLoadDemand (demandIntg d io psi).1 (demandInput d io psi) p.cpu
      ({ d with ctx.loadState := moved.1, ctx.lastTick := io.now },
        ⟨d.ctx.cachedThScl, moved.2, pgCpuCalcEffPress moved.2 (pgCpuCalcTrendGain psi.vel)
          (pgCpuUpdEff d.ctx.batLvl d.ctx.cachedThScl psi.avg300)⟩) := by
  rw [calcDemand, ← pollMetrics]
  generalize pollMetrics p d io = d
  simp only [demandInput, demandIntg]

theorem GovRange.demand (h : GovRange d.ctx) (p : Policy) (io : TickIo) (psi : PsiTrend) :
    GovRange (calcDemand p d io psi).1.ctx ∧ DemandBounds (calcDemand p d io psi).2 := by
  have hpoll : GovRange (pollMetrics p d io).ctx := (h.battery io).thermal p io
  rw [calcDemand_eq]
  generalize pollMetrics p d io = d at hpoll
  obtain ⟨hinteg, href⟩ := updIntg_mem
    { d.ctx.loadState with eff := pgCpuUpdEff d.ctx.batLvl d.ctx.cachedThScl psi.avg300 }
    d.ctx.batLvl (pgDtSec d.ctx.lastTick io.now)
  rw [← demandIntg] at hinteg href
  obtain ⟨hval, hdem⟩ := loadDemand_mem (demandIntg d io psi).1 (demandInput d io psi) p.cpu
  obtain ⟨href', hinteg'⟩ := loadDemand_frame (demandIntg d io psi).1 (demandInput d io psi) p.cpu
  have hthScl : 6553 ≤ d.ctx.cachedThScl ∧ d.ctx.cachedThScl ≤ 65536 := hpoll.thScl
  simp only
  generalize pgCpuCalcLoadDemand (demandIntg d io psi).1 (demandInput d io psi) p.cpu = moved
    at hval hdem href' hinteg'
  constructor
  · refine ⟨hval, ?_, ?_, hpoll.thScl, hpoll.batLvl, hpoll.batTemp, hpoll.tempFails⟩
    · exact (href'.trans href).symm ▸ hpoll.psiRef
    · exact hinteg'.symm ▸ hinteg
  · rw [hdem]
    exact ⟨hpoll.thScl, hval, effPress_mem _ hval (trendGain_mem _) ⟨by omega, hthScl.2⟩⟩

theorem govGate_eq (p : Policy) (d : Daemon) (io : TickIo) (psi : PsiTrend) (pEff : ℤ) :
    ∃ pollState wake, govGate p d io psi pEff =
      if !pgCpuTrans d.ctx.loadState p.cpu ∧ !d.ctx.remapDue then
        ({ d with ctx.pollState := pollState, ctx.nextWake := wake }, false)
      else
        ({ d with
           ctx.pollState := pollState
           ctx.nextWake := wake
           ctx.loadState.psiRef := d.ctx.loadState.psiVal
           ctx.remapDue := false }, true) := by
  unfold govGate
  generalize pgPollCalcNext _ _ _ _ _ = polled
  obtain ⟨pollState, nPoll⟩ := polled
  simp only
  split
  · exact ⟨pollState, nPoll, rfl⟩
  · exact ⟨pollState, _, rfl⟩

theorem GovRange.govern (h : GovRange d.ctx) (p : Policy) (io : TickIo) (psi : PsiTrend) :
    GovRange (govern p d io psi).ctx := by
  obtain ⟨hdem, -⟩ := h.demand p io psi
  unfold Pgov.govern
  generalize calcDemand p d io psi = demand at hdem
  obtain ⟨d₁, dem⟩ := demand
  obtain ⟨pollState, wake, hgate⟩ := govGate_eq p d₁ io psi dem.pEff
  simp only
  rw [hgate]
  split_ifs
  · exact ⟨hdem.psiVal, hdem.psiRef, hdem.prevInteg, hdem.thScl, hdem.batLvl, hdem.batTemp,
      hdem.tempFails⟩
  · exact ⟨hdem.psiVal, hdem.psiVal, hdem.prevInteg, hdem.thScl, hdem.batLvl, hdem.batTemp,
      hdem.tempFails⟩

theorem govRange_invariant (p : Policy) :
    TickInvariant p (fun _ => True) fun d => GovRange d.ctx := by
  constructor
  · intro d d' hloop h
    exact h.same hloop.ungoverned
  · intro d io _ h
    rcases tick_governs p d io with hidle | ⟨d₂, psi, wake, hsame, -, heq⟩
    · exact h.same hidle
    · have hgov := (h.same hsame).govern p io psi
      rw [heq]
      exact ⟨hgov.psiVal, hgov.psiRef, hgov.prevInteg, hgov.thScl, hgov.batLvl, hgov.batTemp,
        hgov.tempFails⟩

end Steps

def Governs (d : Daemon) (tick : TickIo) (d₂ : Daemon) (psi : PsiTrend) : Prop :=
  ∃ d₁, updateDisp (d.log (.tick tick.now)) tick = (d₁, false) ∧ readPsi d₁ tick = (d₂, some psi)

theorem Governs.ungoverned {d d₂ : Daemon} {tick : TickIo} {psi : PsiTrend}
    (h : Governs d tick d₂ psi) : Ungoverned d d₂ := by
  obtain ⟨d₁, hdisp, hread⟩ := h
  have hshown := updateDisp_ungoverned (d.log (.tick tick.now)) tick
  have hred := readPsi_ungoverned d₁ tick
  rw [hdisp] at hshown
  rw [hread] at hred
  exact ((Ungoverned.log d rfl).trans hshown).trans hred

structure ZeroedStatic (static : PgContext) : Prop where
  psiRef : static.loadState.psiRef = 0
  psiFails : static.psiFails = 0
  tempFails : static.tempFails = 0
  remapDue : static.remapDue = false
  dormant : static.dormant = false
  inactive : ∀ i, (static.channels.get i).cache.active = false

theorem govRange_boot {static : PgContext} (hstatic : ZeroedStatic static) {inherited : Finset ℤ}
    {io : BootIo} {d : Daemon} (h : daemonPrepare (daemonStart static inherited) io = .ok d) :
    GovRange d.ctx := by
  have hboot := prepare_bootTo h
  obtain ⟨capSensor, hlvl⟩ := hboot.batLvl
  obtain ⟨tempSensor, htemp⟩ := hboot.batTemp
  constructor
  · rw [hboot.loadState]
    exact ⟨le_rfl, demandMax_nonneg⟩
  · rw [hboot.loadState]
    change static.loadState.psiRef ∈ _
    rw [hstatic.psiRef]
    exact ⟨le_rfl, demandMax_nonneg⟩
  · rw [hboot.loadState]
    exact ⟨le_rfl, (by decide : 0 ≤ floatToQ16 97 1)⟩
  · rw [hboot.cachedThScl]
    exact ⟨(by decide : floatToQ16 1 10 ≤ q16One), le_rfl⟩
  · rw [hlvl]
    exact readBatCap_mem _ _
  · rw [htemp]
    exact readTemp_mem _ _ ⟨by decide, by decide⟩
  · rw [hboot.tempFails]
    exact hstatic.tempFails.trans_le (Nat.zero_le _)

/-- Whatever the daemon has been through, its state and the demand of the next tick are in range. -/
theorem governor_ranges {static : PgContext} (hstatic : ZeroedStatic static)
    {inherited : Finset ℤ} {io : BootIo} {d : Daemon}
    (hboot : daemonPrepare (daemonStart static inherited) io = .ok d) (waits : List WaitOut) :
    GovRange (reactorRun io.policy d io.setup waits).ctx ∧
      ∀ tick d₂ psi, Governs (reactorRun io.policy d io.setup waits) tick d₂ psi →
        DemandBounds (calcDemand io.policy d₂ tick psi).2 := by
  have hrun : GovRange (reactorRun io.policy d io.setup waits).ctx :=
    (govRange_invariant io.policy).reactor (fun _ => (govRange_boot hstatic hboot).setup)
      fun out _ => out.ticks_any
  refine ⟨hrun, ?_⟩
  intro tick d₂ psi hgov
  exact ((hrun.same hgov.ungoverned).demand io.policy tick psi).2

theorem idleContext_zeroed : ZeroedStatic idleContext :=
  ⟨rfl, rfl, rfl, rfl, rfl, fun i => by cases i <;> rfl⟩

theorem smoothBoot_prepared : ∃ d,
    daemonPrepare (daemonStart idleContext {0, 1, 2}) smoothBoot = .ok d := by
  obtain ⟨d, hboot, -⟩ := smoothBoot_governed
  exact ⟨d, hboot⟩

theorem governor_ranges_smooth : ∃ d,
    daemonPrepare (daemonStart idleContext {0, 1, 2}) smoothBoot = .ok d ∧
      let ctx := (reactorRun smoothBoot.policy d smoothBoot.setup governedTicks).ctx
      0 < ctx.loadState.psiVal ∧ GovRange ctx := by
  obtain ⟨d, hboot, hgoverned⟩ := smoothBoot_governed
  refine ⟨d, hboot, ?_, (governor_ranges idleContext_zeroed hboot governedTicks).1⟩
  rw [(Prod.mk.inj hgoverned).2]
  norm_num

end Pgov
