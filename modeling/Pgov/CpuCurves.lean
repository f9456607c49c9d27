import Pgov.PgMath

namespace Pgov

open FixedWidth

structure CpuLim where
  minLat : ℤ
  maxLat : ℤ
  minGran : ℤ
  maxGran : ℤ
  minWake : ℤ
  maxWake : ℤ
  minMig : ℤ
  maxMig : ℤ
  minWalt : ℤ
  maxWalt : ℤ
  minUcl : ℤ
  maxUcl : ℤ
  deriving DecidableEq, Repr

structure CpuCfg where
  latGranRat : ℤ
  uclampK : ℤ
  sigmoidK : ℤ
  surgeThresh : ℤ
  transRate : ℤ
  transDiff : ℤ
  transPoll : ℤ
  deriving DecidableEq, Repr

structure CpuEff where
  respGain : ℤ
  surgeGain : ℤ
  trendAmp : ℤ
  lookahead : ℤ
  decay : ℤ
  sigMid : ℤ
  uclMid : ℤ
  stabRat : ℤ
  gainAlpha : ℤ
  nisThresh : ℤ
  deriving DecidableEq, Repr

def pgCpuUpdEff (batLvl thScl avg300 : ℤ) : CpuEff :=
  let bLvl := pgMathClamp batLvl 0 (intToQ16 100)
  let batFact := q16Div bLvl (intToQ16 100)
  let health := q16Mul batFact thScl
  let sigMid := i32 (floatToQ16 68 10 + q16Mul (floatToQ16 5 10) avg300)
  let noise := pgMathClamp (q16Mul avg300 (floatToQ16 1 10)) 0 q16One
  { respGain := q16Mul (floatToQ16 31 1) health
    surgeGain := q16Mul (floatToQ16 95 1000) health
    trendAmp := q16Mul (floatToQ16 115 1000) health
    lookahead := q16Mul (floatToQ16 17 100) thScl
    decay := q16Mul (floatToQ16 19 1000) thScl
    sigMid := sigMid
    uclMid := i32 (sigMid + floatToQ16 27 10)
    nisThresh := pgMathLerp (floatToQ16 3 1) (floatToQ16 12 1) noise
    stabRat := pgMathLerp (floatToQ16 15 10) (floatToQ16 35 10) noise
    gainAlpha := pgMathLerp (floatToQ16 99 100) (floatToQ16 85 100) noise }

def pgCpuCalcEffPress (lDem tFact : ℤ) (eff : CpuEff) : ℤ :=
  let tMul := i32 (q16One + q16Mul tFact eff.trendAmp)
  q16Mul lDem tMul

def pgCpuCalcThermLat (thScl : ℤ) (lim : CpuLim) : ℤ :=
  let lRat := pgMathClamp (i32 (q16One - thScl)) 0 q16One
  let lRng := i32 (lim.maxLat - lim.minLat)
  i32 (lim.minLat + q16Mul lRng lRat)

def pgCpuCalcLat (pEff lDem thLat : ℤ) (cfg : CpuCfg) (eff : CpuEff) (lim : CpuLim) : ℤ :=
  let sig := pgMathSigmoid pEff cfg.sigmoidK eff.sigMid
  let fac := i32 (q16One - sig)
  let rng := i32 (lim.maxLat - lim.minLat)
  let nLat := i32 (lim.minLat + q16Mul rng fac)
  let eDem := pgMathClamp (q16Div lDem (intToQ16 100)) 0 q16One
  let lLat := i32 (lim.maxLat - q16Mul eDem rng)
  let iLat := if nLat < lLat then nLat else lLat
  let fLat := if iLat > thLat then iLat else thLat
  pgMathClamp fLat lim.minLat lim.maxLat

def pgCpuCalcGran (lat : ℤ) (cfg : CpuCfg) (lim : CpuLim) : ℤ :=
  let rGrn := q16Mul lat cfg.latGranRat
  let aGrn := pgMathClamp rGrn lim.minGran lim.maxGran
  if aGrn < lat then aGrn else lat

def pgCpuCalcWakeup (pEff : ℤ) (eff : CpuEff) (lim : CpuLim) : ℤ :=
  let dec := pgMathDecay pEff eff.decay
  let rng := i32 (lim.maxWake - lim.minWake)
  let rWake := i32 (lim.minWake + q16Mul rng dec)
  pgMathClamp rWake lim.minWake lim.maxWake

def pgCpuCalcMigration (vel pEff : ℤ) (lim : CpuLim) : ℤ :=
  let x := pgMathClamp (q16Div pEff (intToQ16 100)) 0 q16One
  let fac := i32 (q16One - x)
  let crv := q16Mul fac fac
  let rng := i32 (lim.maxMig - lim.minMig)
  let rMig := i32 (lim.minMig + q16Mul rng crv)
  let aVel := absQ16 vel
  let vRat := pgMathClamp (q16Div aVel (intToQ16 25)) 0 q16One
  let mig := q16Mul rMig (i32 (q16One - q16Mul vRat q16Half))
  pgMathClamp mig lim.minMig lim.maxMig

def pgCpuCalcWalt (press : ℤ) (lim : CpuLim) : ℤ :=
  let rat := pgMathClamp (q16Div press (intToQ16 100)) 0 q16One
  let crv := q16Mul rat rat
  let rng := i32 (lim.maxWalt - lim.minWalt)
  let val := i32 (lim.minWalt + q16Mul rng crv)
  pgMathClamp val lim.minWalt lim.maxWalt

def pgCpuCalcUclamp (press thScl : ℤ) (cfg : CpuCfg) (eff : CpuEff) (lim : CpuLim) : ℤ :=
  let sig := pgMathSigmoid press cfg.uclampK eff.uclMid
  let rng := i32 (lim.maxUcl - lim.minUcl)
  let ucl := i32 (lim.minUcl + q16Mul rng sig)
  pgMathClamp (q16Mul ucl thScl) lim.minUcl lim.maxUcl

structure CpuLim.Ordered (lim : CpuLim) : Prop where
  lat : lim.minLat ≤ lim.maxLat
  gran : lim.minGran ≤ lim.maxGran
  wake : lim.minWake ≤ lim.maxWake
  mig : lim.minMig ≤ lim.maxMig
  walt : lim.minWalt ≤ lim.maxWalt
  ucl : lim.minUcl ≤ lim.maxUcl

section Bands

variable {lim : CpuLim}

theorem calcLat_mem (h : lim.minLat ≤ lim.maxLat) (pEff lDem thLat : ℤ) (cfg : CpuCfg)
    (eff : CpuEff) : pgCpuCalcLat pEff lDem thLat cfg eff lim ∈ Set.Icc lim.minLat lim.maxLat :=
  ⟨le_clamp h _, clamp_le h _⟩

theorem calcWakeup_mem (h : lim.minWake ≤ lim.maxWake) (pEff : ℤ) (eff : CpuEff) :
    pgCpuCalcWakeup pEff eff lim ∈ Set.Icc lim.minWake lim.maxWake := ⟨le_clamp h _, clamp_le h _⟩

theorem calcMigration_mem (h : lim.minMig ≤ lim.maxMig) (vel pEff : ℤ) :
    pgCpuCalcMigration vel pEff lim ∈ Set.Icc lim.minMig lim.maxMig := ⟨le_clamp h _, clamp_le h _⟩

theorem calcWalt_mem (h : lim.minWalt ≤ lim.maxWalt) (press : ℤ) :
    pgCpuCalcWalt press lim ∈ Set.Icc lim.minWalt lim.maxWalt := ⟨le_clamp h _, clamp_le h _⟩

theorem calcUclamp_mem (h : lim.minUcl ≤ lim.maxUcl) (press thScl : ℤ) (cfg : CpuCfg)
    (eff : CpuEff) : pgCpuCalcUclamp press thScl cfg eff lim ∈ Set.Icc lim.minUcl lim.maxUcl :=
  ⟨le_clamp h _, clamp_le h _⟩

theorem calcGran_le (lat : ℤ) (cfg : CpuCfg) : pgCpuCalcGran lat cfg lim ≤ lat := by
  simp only [pgCpuCalcGran]
  split_ifs <;> omega

theorem calcGran_mem (h : lim.minGran ≤ lim.maxGran) {lat : ℤ} (hlat : lim.minGran ≤ lat)
    (cfg : CpuCfg) : pgCpuCalcGran lat cfg lim ∈ Set.Icc lim.minGran lim.maxGran := by
  have hl := le_clamp h (q16Mul lat cfg.latGranRat)
  have hu := clamp_le h (q16Mul lat cfg.latGranRat)
  simp only [pgCpuCalcGran]
  split_ifs
  · exact ⟨hl, hu⟩
  · exact ⟨hlat, by omega⟩

theorem calcGran_le_max (lim : CpuLim) {lat : ℤ} {cfg : CpuCfg} (h0 : 0 ≤ lat * cfg.latGranRat)
    (hu : lat * cfg.latGranRat ≤ 140737488355327) :
    pgCpuCalcGran lat cfg lim ≤ max (lat * cfg.latGranRat / 2 ^ 16) lim.minGran := by
  have hclamp : pgMathClamp (q16Mul lat cfg.latGranRat) lim.minGran lim.maxGran ≤
      max (lat * cfg.latGranRat / 2 ^ 16) lim.minGran := by
    rw [q16Mul_eq (by omega) hu, pgMathClamp]
    split_ifs <;> omega
  simp only [pgCpuCalcGran]
  split_ifs <;> omega

end Bands

end Pgov
