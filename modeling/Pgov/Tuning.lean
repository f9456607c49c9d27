import Pgov.CpuCurves
import Pgov.SysfsCache
import Pgov.ThermalControl

namespace Pgov

open FixedWidth

structure Hardware where
  cores : ℤ
  maxFreq : ℕ → Except ℕ+ (List UInt8)
  capacity : ℕ → Except ℕ+ (List UInt8)
  tripPoint : Option (Except ℕ+ (List UInt8))

def pgTopoGetCoreCount (hw : Hardware) : ℤ := if hw.cores > 0 then i32 hw.cores else 0

def pgTopoGetMaxFreqKhz (hw : Hardware) : ℤ :=
  (List.range hw.cores.toNat).foldl
    (fun freq i =>
      match pgSysfsReadI32 (hw.maxFreq i) with
      | .ok val => if val > freq then val else freq
      | .error _ => freq) 0

structure CpuCapacity where
  total : ℤ
  minCapacity : ℤ
  maxCapacity : ℤ
  deriving DecidableEq, Repr

def CpuCapacity.add (c : CpuCapacity) (val : ℤ) : CpuCapacity :=
  { total := i32 (c.total + val)
    minCapacity := if val < c.minCapacity then val else c.minCapacity
    maxCapacity := if val > c.maxCapacity then val else c.maxCapacity }

def pgTopoGetCpuCapacity (hw : Hardware) : Option CpuCapacity :=
  let c := (List.range hw.cores.toNat).foldl
    (fun c i =>
      match pgSysfsReadI32 (hw.capacity i) with
      | .ok val => if val ≤ 0 then c else c.add val
      | .error _ => c) ⟨0, int32Max, 0⟩
  if hw.cores ≤ 0 ∨ c.total = 0 then none else some c

def pgSensorGetTripTemp (hw : Hardware) (fallback : ℤ) : ℤ :=
  match hw.tripPoint.map pgSysfsReadI32 with
  | some (.ok val) =>
    let temp := i32 ((val * q16One).tdiv 1000)
    if temp < intToQ16 40 ∨ temp > intToQ16 115 then fallback else temp
  | _ => fallback

def limCpu : CpuLim :=
  { minLat := floatToQ16 8 1
    maxLat := floatToQ16 20 1
    minGran := floatToQ16 25 10
    maxGran := floatToQ16 65 10
    minWake := floatToQ16 15 10
    maxWake := floatToQ16 65 10
    minMig := floatToQ16 2 10
    maxMig := floatToQ16 6 10
    minWalt := floatToQ16 10 1
    maxWalt := floatToQ16 40 1
    minUcl := floatToQ16 0 1
    maxUcl := floatToQ16 384 1 }

def cfgCpu : CpuCfg :=
  { latGranRat := floatToQ16 34 100
    uclampK := floatToQ16 185 1000
    sigmoidK := floatToQ16 72 1000
    surgeThresh := floatToQ16 175 10
    transRate := floatToQ16 115 1000
    transDiff := floatToQ16 58 100
    transPoll := intToQ16 50 }

def cfgThermal : ThermalCfg :=
  { limitCpu := floatToQ16 525 10
    limitBat := floatToQ16 405 10
    kpBase := floatToQ16 61 100
    kiBase := floatToQ16 95 10000
    kdBase := floatToQ16 82 100 }

def calcHeuristicCap (core mhz : ℤ) : ℤ :=
  let cVal := intToQ16 (if core > 0 then core else 8)
  let fVal := intToQ16 (if mhz > 0 then mhz else 2000)
  let rCore := pgMathClamp (q16Div cVal (intToQ16 8)) 0 q16One
  let rFreq := pgMathClamp (q16Div fVal (intToQ16 3500)) 0 q16One
  let cap := i32 (q16Mul rCore (floatToQ16 40 100) + q16Mul rFreq (floatToQ16 60 100))
  pgMathClamp cap 0 q16One

/-- A limit or coefficient drawn from `a` at weight 0 to `b` at weight 1. -/
def tuned (a b cap : ℤ) : ℤ := pgMathClamp (pgMathLerp a b cap) (min a b) (max a b)

def tuneLim (cap : ℤ) : CpuLim :=
  { limCpu with
    maxUcl := tuned (floatToQ16 384 1) (floatToQ16 1024 1) cap
    minLat := tuned (floatToQ16 20 1) (floatToQ16 4 1) cap
    maxLat := tuned (floatToQ16 25 1) (floatToQ16 12 1) cap
    minGran := tuned (floatToQ16 65 10) (floatToQ16 15 10) cap
    maxGran := tuned (floatToQ16 10 1) (floatToQ16 4 1) cap
    minWake := tuned (floatToQ16 3 1) (floatToQ16 1 1) cap
    maxWake := tuned (floatToQ16 8 1) (floatToQ16 4 1) cap
    minMig := tuned (floatToQ16 6 10) (floatToQ16 2 10) cap
    maxMig := tuned (floatToQ16 12 10) (floatToQ16 6 10) cap }

def pgTuneLimits (hw : Hardware) : CpuLim :=
  let core := pgTopoGetCoreCount hw
  let freqKhz := pgTopoGetMaxFreqKhz hw
  if core ≤ 0 ∨ freqKhz ≤ 0 then limCpu
  else tuneLim (calcHeuristicCap core (freqKhz.tdiv 1000))

structure TopoMetrics where
  rat : ℤ
  rel : ℤ
  therm : ℤ
  deriving DecidableEq, Repr

def topoTherm (rel mhz : ℤ) : ℤ :=
  let fVal := pgMathClamp (q16Div (intToQ16 mhz) (intToQ16 3500)) 0 q16One
  pgMathClamp (q16Mul rel fVal) 0 q16One

def heuristicMetrics (core khz : ℤ) : TopoMetrics :=
  let mhz := if khz > 0 then khz.tdiv 1000 else 2000
  let rel := calcHeuristicCap core mhz
  { rat := if core > 4 then floatToQ16 5 10 else q16One, rel, therm := topoTherm rel mhz }

def calcTopoMetrics (hw : Hardware) : TopoMetrics :=
  let khz := pgTopoGetMaxFreqKhz hw
  let core := pgTopoGetCoreCount hw
  match pgTopoGetCpuCapacity hw with
  | none => heuristicMetrics core khz
  | some cap =>
    if cap.maxCapacity ≤ 0 ∨ khz ≤ 0 then heuristicMetrics core khz
    else
      let rat := pgMathClamp (q16Div (intToQ16 cap.minCapacity) (intToQ16 cap.maxCapacity)) 0 q16One
      let rel := pgMathClamp (q16Div (intToQ16 cap.total) (intToQ16 8192)) 0 q16One
      { rat, rel, therm := topoTherm rel (khz.tdiv 1000) }

def tuneCpuConfigs (rel rat : ℤ) : CpuCfg :=
  { cfgCpu with
    latGranRat := tuned (floatToQ16 50 100) (floatToQ16 20 100) rel
    uclampK := tuned (floatToQ16 12 100) (floatToQ16 25 100) rat
    sigmoidK := tuned (floatToQ16 4 100) (floatToQ16 12 100) rat
    surgeThresh := tuned (floatToQ16 12 1) (floatToQ16 25 1) rel
    transRate := tuned (floatToQ16 8 100) (floatToQ16 20 100) rel
    transDiff := tuned (floatToQ16 40 100) (floatToQ16 90 100) rel }

def tuneThermalConfigs (hw : Hardware) (therm : ℤ) : ThermalCfg :=
  let trip := pgSensorGetTripTemp hw (floatToQ16 575 10)
  let val := i32 (trip - intToQ16 5)
  { limitCpu := pgMathClamp val (floatToQ16 45 1) (floatToQ16 90 1)
    limitBat := tuned (floatToQ16 42 1) (floatToQ16 38 1) therm
    kiBase := tuned (floatToQ16 5 1000) (floatToQ16 15 1000) therm
    kpBase := tuned (floatToQ16 45 100) (floatToQ16 90 100) therm
    kdBase := tuned (floatToQ16 60 100) (floatToQ16 130 100) therm }

def pgTuneConfigs (hw : Hardware) : CpuCfg × ThermalCfg :=
  let m := calcTopoMetrics hw
  (tuneCpuConfigs m.rel m.rat, tuneThermalConfigs hw m.therm)

theorem tuned_mem (a b cap : ℤ) : tuned a b cap ∈ Set.Icc (min a b) (max a b) :=
  ⟨le_clamp (min_le_max) _, clamp_le (min_le_max) _⟩

theorem tuned_eq {a b cap : ℤ} (ha : |a| ≤ 536870912) (hb : |b| ≤ 536870912) (h0 : 0 ≤ cap)
    (h1 : cap ≤ 65536) : tuned a b cap = a + (b - a) * cap / 2 ^ 16 := by
  have hmem : min a b ≤ a + (b - a) * cap / 2 ^ 16 ∧ a + (b - a) * cap / 2 ^ 16 ≤ max a b := by
    rcases le_total a b with hle | hle
    · have h2 : 0 ≤ (b - a) * cap := mul_nonneg (by omega) h0
      have h3 : (b - a) * cap ≤ (b - a) * 65536 := mul_le_mul_of_nonneg_left h1 (by omega)
      omega
    · have h2 : (b - a) * cap ≤ 0 := mul_nonpos_of_nonpos_of_nonneg (by omega) h0
      have h3 : (b - a) * 65536 ≤ (b - a) * cap := mul_le_mul_of_nonpos_left h1 (by omega)
      omega
  rw [tuned, lerp_eq ha hb h0 h1, clamp_of_mem hmem.1 hmem.2]

theorem heuristicCap_mem (core mhz : ℤ) : calcHeuristicCap core mhz ∈ Set.Icc 0 65536 :=
  ⟨le_clamp (by norm_num) _, clamp_le (by norm_num) _⟩

structure CpuLim.Calibrated (lim : CpuLim) : Prop extends lim.Ordered where
  minLat_ge : 262144 ≤ lim.minLat
  maxLat_le : lim.maxLat ≤ 1638400
  minGran_ge : 0 ≤ lim.minGran
  maxGran_le : lim.maxGran ≤ 655360
  minGran_le_half : 2 * lim.minGran ≤ lim.minLat
  minWake_ge : 0 ≤ lim.minWake
  maxWake_le : lim.maxWake ≤ 524288
  minMig_ge : 0 ≤ lim.minMig
  maxMig_le : lim.maxMig ≤ 78643
  minWalt_eq : lim.minWalt = 655360
  maxWalt_eq : lim.maxWalt = 2621440
  minUcl_eq : lim.minUcl = 0
  maxUcl_le : lim.maxUcl ≤ 67108864

theorem limCpu_calibrated : limCpu.Calibrated := by
  constructor
  · constructor <;> decide
  all_goals decide

theorem tuneLim_calibrated {cap : ℤ} (h0 : 0 ≤ cap) (h1 : cap ≤ 65536) :
    (tuneLim cap).Calibrated := by
  -- both ends of every pair are the same affine function of `cap` up to one rounding
  refine ⟨⟨?_, ?_, ?_, ?_, ?_, ?_⟩, ?_, ?_, ?_, ?_, ?_, ?_, ?_, ?_, ?_, ?_, ?_, ?_, ?_⟩
  all_goals
    simp (disch := first | exact h0 | exact h1 | norm_num) only
      [tuneLim, limCpu, floatToQ16, Int.reduceMul, Int.reduceTDiv, tuned_eq, Int.reducePow,
        Int.reduceSub, Int.reduceLE]
    try omega

theorem tuneLimits_calibrated (hw : Hardware) : (pgTuneLimits hw).Calibrated := by
  simp only [pgTuneLimits]
  split_ifs
  · exact limCpu_calibrated
  · obtain ⟨h0, h1⟩ := heuristicCap_mem (pgTopoGetCoreCount hw) ((pgTopoGetMaxFreqKhz hw).tdiv 1000)
    exact tuneLim_calibrated h0 h1

theorem tuneConfigs_latGranRat (hw : Hardware) :
    (pgTuneConfigs hw).1.latGranRat ∈ Set.Icc 0 32768 := by
  obtain ⟨hl, hu⟩ := tuned_mem (floatToQ16 50 100) (floatToQ16 20 100) (calcTopoMetrics hw).rel
  exact ⟨le_trans (by decide) hl, hu.trans (by decide)⟩

structure ThermalCfg.Tuned (cfg : ThermalCfg) : Prop where
  limitCpu : cfg.limitCpu ∈ Set.Icc (floatToQ16 45 1) (floatToQ16 90 1)
  limitBat : cfg.limitBat ∈ Set.Icc (floatToQ16 38 1) (floatToQ16 42 1)
  kpBase : cfg.kpBase ∈ Set.Icc (floatToQ16 45 100) (floatToQ16 90 100)
  kiBase : cfg.kiBase ∈ Set.Icc (floatToQ16 5 1000) (floatToQ16 15 1000)
  kdBase : cfg.kdBase ∈ Set.Icc (floatToQ16 60 100) (floatToQ16 130 100)

theorem tuneThermalConfigs_tuned (hw : Hardware) (therm : ℤ) :
    (tuneThermalConfigs hw therm).Tuned :=
  ⟨⟨le_clamp (by decide) _, clamp_le (by decide) _⟩, tuned_mem _ _ _, tuned_mem _ _ _,
    tuned_mem _ _ _, tuned_mem _ _ _⟩

end Pgov
