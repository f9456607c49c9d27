import Pgov.Tuning
import Pgov.SysfsUpdate

namespace Pgov

open FixedWidth Quantise

def pgQuantNs : ℕ := 65536

def chkLat : SysfsChk := ⟨.rel, 100⟩
def chkGran : SysfsChk := ⟨.rel, 100⟩
def chkWake : SysfsChk := ⟨.rel, 150⟩
def chkMig : SysfsChk := ⟨.abs, 50000⟩
def chkWalt : SysfsChk := ⟨.abs, 5⟩
def chkUcl : SysfsChk := ⟨.abs, 32⟩

structure Channels where
  schedLat : Channel
  schedGran : Channel
  schedWake : Channel
  schedMig : Channel
  schedWalt : Channel
  schedUcl : Channel

structure UpdateIo where
  before : Timespec
  after : Timespec
  res : Pwrite

structure MappingCall where
  batLvl : ℤ
  avg300 : ℤ
  vel : ℤ
  thScl : ℤ
  lDem : ℤ
  pEff : ℤ
  latIo : UpdateIo
  granIo : UpdateIo
  wakeIo : UpdateIo
  migIo : UpdateIo
  waltIo : UpdateIo
  uclIo : UpdateIo

structure MappedValues where
  vLat : ℕ
  vGran : ℕ
  vWake : ℕ
  vMig : ℕ
  vWlt : ℕ
  vUcl : ℕ
  deriving DecidableEq, Repr

def mapValues (c : CpuCfg) (l : CpuLim) (ctx : Channels) (call : MappingCall) : MappedValues :=
  let eff := pgCpuUpdEff call.batLvl call.thScl call.avg300
  let th := pgCpuCalcThermLat call.thScl l
  let lat :=
    if ctx.schedLat.cache.active || ctx.schedGran.cache.active then
      pgCpuCalcLat call.pEff call.lDem th c eff l
    else 0
  let gran := pgCpuCalcGran lat c l
  let wake := pgCpuCalcWakeup call.pEff eff l
  let mig := pgCpuCalcMigration call.vel call.pEff l
  let wlt := pgCpuCalcWalt call.pEff l
  let ucl := pgCpuCalcUclamp call.pEff call.thScl c eff l
  { vLat := if ctx.schedLat.cache.active then pgMathSanQuantU64 lat l.maxLat pgQuantNs else 0
    vGran := if ctx.schedGran.cache.active then pgMathSanQuantU64 gran l.maxGran pgQuantNs else 0
    vWake := if ctx.schedWake.cache.active then pgMathSanQuantU64 wake l.maxWake pgQuantNs else 0
    vMig := if ctx.schedMig.cache.active then pgMathSanQuantU64 mig l.minMig pgQuantNs else 0
    vWlt :=
      if ctx.schedWalt.cache.active then (pgMathSanU64 wlt (u64 (q16ToInt l.minWalt))).toNat else 0
    vUcl :=
      if ctx.schedUcl.cache.active then (pgMathSanU64 ucl (u64 (q16ToInt l.minUcl))).toNat else 0 }

def updateCall (value : ℕ) (strat : SysfsChk) (io : UpdateIo) : UpdateCall :=
  { value, force := false, strat := some strat, before := io.before, after := io.after,
    res := io.res }

structure MappingUpdates where
  lat : UpdateCall
  gran : UpdateCall
  wake : UpdateCall
  mig : UpdateCall
  walt : UpdateCall
  ucl : UpdateCall

def mappingUpdates (c : CpuCfg) (l : CpuLim) (ctx : Channels) (call : MappingCall) :
    MappingUpdates :=
  let v := mapValues c l ctx call
  { lat := updateCall v.vLat chkLat call.latIo
    gran := updateCall v.vGran chkGran call.granIo
    wake := updateCall v.vWake chkWake call.wakeIo
    mig := updateCall v.vMig chkMig call.migIo
    walt := updateCall v.vWlt chkWalt call.waltIo
    ucl := updateCall v.vUcl chkUcl call.uclIo }

def applyMapping (c : CpuCfg) (l : CpuLim) (ctx : Channels) (call : MappingCall) : Channels :=
  let u := mappingUpdates c l ctx call
  { schedLat := ctx.schedLat.update u.lat
    schedGran := ctx.schedGran.update u.gran
    schedWake := ctx.schedWake.update u.wake
    schedMig := ctx.schedMig.update u.mig
    schedWalt := ctx.schedWalt.update u.walt
    schedUcl := ctx.schedUcl.update u.ucl }

/-- A whole number of quanta, at most half a quantum outside the band of its limits. -/
structure InBand (lo hi : ℤ) (v : ℕ) : Prop where
  quanta : pgQuantNs ∣ v
  lower : lo * 10 ^ 6 / 2 ^ 16 - 32768 ≤ v
  upper : (v : ℤ) ≤ hi * 10 ^ 6 / 2 ^ 16 + 32768

theorem sanQuant_eq {val : ℤ} (h0 : 0 ≤ val) (h : val ≤ 2147483647) (fallback : ℤ) :
    pgMathSanQuantU64 val fallback pgQuantNs = nearest 16 (toNs val) :=
  sanQuantU64_eq h0 h fallback (k := 16) (by norm_num) (by norm_num)

theorem sanQuant_inBand {lo hi val : ℤ} (hlo : 0 ≤ lo) (hhi : hi ≤ 2147483647)
    (hval : val ∈ Set.Icc lo hi) (fallback : ℤ) :
    InBand lo hi (pgMathSanQuantU64 val fallback pgQuantNs) := by
  obtain ⟨hl, hu⟩ := hval
  rw [sanQuant_eq (hlo.trans hl) (hu.trans hhi)]
  have hlow := le_nearest 16 (toNs val)
  have hhigh := nearest_le 16 (toNs val)
  have hns : (toNs val : ℤ) = val * 1000000 / 2 ^ 16 := Int.toNat_of_nonneg (by omega)
  exact ⟨dvd_nearest 16 _, by omega, by omega⟩

section Bands

variable {c : CpuCfg} {l : CpuLim} {ctx : Channels}

theorem CpuLim.Calibrated.gran_mem (hl : l.Calibrated) {lat : ℤ}
    (hlat : lat ∈ Set.Icc l.minLat l.maxLat) (c : CpuCfg) :
    pgCpuCalcGran lat c l ∈ Set.Icc l.minGran l.maxGran :=
  calcGran_mem hl.gran (by linarith [hlat.1, hl.minLat_ge, hl.minGran_ge, hl.minGran_le_half]) c

theorem mapValues_lat_gran (c : CpuCfg) (ctx : Channels) (hl : l.Calibrated)
    (call : MappingCall) :
    ∃ lat ∈ Set.Icc l.minLat l.maxLat,
      (ctx.schedLat.cache.active = true →
        (mapValues c l ctx call).vLat = nearest 16 (toNs lat)) ∧
      (ctx.schedGran.cache.active = true →
        (mapValues c l ctx call).vGran = nearest 16 (toNs (pgCpuCalcGran lat c l))) := by
  have hlat := calcLat_mem hl.lat call.pEff call.lDem (pgCpuCalcThermLat call.thScl l) c
    (pgCpuUpdEff call.batLvl call.thScl call.avg300)
  refine ⟨_, hlat, ?_, ?_⟩
  · intro hact
    simp only [mapValues, hact, Bool.true_or, ↓reduceIte]
    exact sanQuant_eq (by linarith [hlat.1, hl.minLat_ge]) (by linarith [hlat.2, hl.maxLat_le]) _
  · intro hact
    have hgran := hl.gran_mem hlat c
    simp only [mapValues, hact, Bool.or_true, ↓reduceIte]
    exact sanQuant_eq (by linarith [hgran.1, hl.minGran_ge]) (by linarith [hgran.2, hl.maxGran_le]) _

theorem mapValues_lat (hl : l.Calibrated) (hact : ctx.schedLat.cache.active = true)
    (call : MappingCall) : InBand l.minLat l.maxLat (mapValues c l ctx call).vLat := by
  simp only [mapValues, hact, Bool.true_or, ↓reduceIte]
  exact sanQuant_inBand (by linarith [hl.minLat_ge]) (by linarith [hl.maxLat_le])
    (calcLat_mem hl.lat ..) _

theorem mapValues_gran (hl : l.Calibrated) (hact : ctx.schedGran.cache.active = true)
    (call : MappingCall) : InBand l.minGran l.maxGran (mapValues c l ctx call).vGran := by
  have hlat := calcLat_mem hl.lat call.pEff call.lDem (pgCpuCalcThermLat call.thScl l) c
    (pgCpuUpdEff call.batLvl call.thScl call.avg300)
  simp only [mapValues, hact, Bool.or_true, ↓reduceIte]
  exact sanQuant_inBand hl.minGran_ge (by linarith [hl.maxGran_le]) (hl.gran_mem hlat c) _

theorem mapValues_wake (hl : l.Calibrated) (hact : ctx.schedWake.cache.active = true)
    (call : MappingCall) : InBand l.minWake l.maxWake (mapValues c l ctx call).vWake := by
  simp only [mapValues, hact, ↓reduceIte]
  exact sanQuant_inBand hl.minWake_ge (by linarith [hl.maxWake_le]) (calcWakeup_mem hl.wake ..) _

theorem mapValues_mig (hl : l.Calibrated) (hact : ctx.schedMig.cache.active = true)
    (call : MappingCall) : InBand l.minMig l.maxMig (mapValues c l ctx call).vMig := by
  simp only [mapValues, hact, ↓reduceIte]
  exact sanQuant_inBand hl.minMig_ge (by linarith [hl.maxMig_le]) (calcMigration_mem hl.mig ..) _

theorem mapValues_walt (hl : l.Calibrated) (hact : ctx.schedWalt.cache.active = true)
    (call : MappingCall) : (mapValues c l ctx call).vWlt ∈ Set.Icc 10 40 := by
  obtain ⟨hlow, hhigh⟩ := calcWalt_mem hl.walt call.pEff
  rw [hl.minWalt_eq] at hlow
  rw [hl.maxWalt_eq] at hhigh
  simp only [mapValues, hact, ↓reduceIte, sanU64_eq (by linarith) (by linarith), Set.mem_Icc]
  omega

theorem mapValues_ucl (hl : l.Calibrated) (hact : ctx.schedUcl.cache.active = true)
    (call : MappingCall) : (mapValues c l ctx call).vUcl ≤ 1024 := by
  obtain ⟨hlow, hhigh⟩ := calcUclamp_mem hl.ucl call.pEff call.thScl c
    (pgCpuUpdEff call.batLvl call.thScl call.avg300)
  have hmax := hl.maxUcl_le
  rw [hl.minUcl_eq] at hlow
  simp only [mapValues, hact, ↓reduceIte, sanU64_eq hlow (by linarith)]
  omega

theorem mapValues_gran_le_lat (hl : l.Calibrated) (hlat : ctx.schedLat.cache.active = true)
    (hgran : ctx.schedGran.cache.active = true) (call : MappingCall) :
    (mapValues c l ctx call).vGran ≤ (mapValues c l ctx call).vLat := by
  obtain ⟨lat, -, hvl, hvg⟩ := mapValues_lat_gran c ctx hl call
  rw [hvl hlat, hvg hgran]
  exact nearest_mono 16 (toNs_mono (calcGran_le lat c))

end Bands

structure Published (l : CpuLim) (ctx : Channels) (u : MappingUpdates) : Prop where
  lat : ctx.schedLat.cache.active = true → InBand l.minLat l.maxLat u.lat.value
  gran : ctx.schedGran.cache.active = true → InBand l.minGran l.maxGran u.gran.value
  wake : ctx.schedWake.cache.active = true → InBand l.minWake l.maxWake u.wake.value
  mig : ctx.schedMig.cache.active = true → InBand l.minMig l.maxMig u.mig.value
  gran_le_lat : ctx.schedLat.cache.active = true → ctx.schedGran.cache.active = true →
    u.gran.value ≤ u.lat.value
  walt : ctx.schedWalt.cache.active = true → u.walt.value ∈ Set.Icc 10 40
  ucl : ctx.schedUcl.cache.active = true → u.ucl.value ∈ Set.Icc 0 1024

/-- The two tuning passes read the hardware separately. -/
theorem mapping_published (hw hw' : Hardware) (ctx : Channels) (call : MappingCall) :
    (pgTuneLimits hw).Ordered ∧
      Published (pgTuneLimits hw) ctx
        (mappingUpdates (pgTuneConfigs hw').1 (pgTuneLimits hw) ctx call) := by
  have hl := tuneLimits_calibrated hw
  exact ⟨hl.toOrdered,
    { lat := fun hact => mapValues_lat (c := (pgTuneConfigs hw').1) hl hact call
      gran := fun hact => mapValues_gran (c := (pgTuneConfigs hw').1) hl hact call
      wake := fun hact => mapValues_wake (c := (pgTuneConfigs hw').1) hl hact call
      mig := fun hact => mapValues_mig (c := (pgTuneConfigs hw').1) hl hact call
      gran_le_lat := fun hlat hgran =>
        mapValues_gran_le_lat (c := (pgTuneConfigs hw').1) hl hlat hgran call
      walt := fun hact => mapValues_walt (c := (pgTuneConfigs hw').1) hl hact call
      ucl := fun hact => ⟨Nat.zero_le _, mapValues_ucl (c := (pgTuneConfigs hw').1) hl hact call⟩ }⟩

end Pgov
