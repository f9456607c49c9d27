import Pgov.CpuCurves

namespace Pgov

open FixedWidth

structure LoadState where
  psiVal : ℤ
  rate : ℤ
  psiRef : ℤ
  prevInteg : ℤ
  firstRun : Bool
  eff : CpuEff
  deriving DecidableEq, Repr

structure DemandInput where
  tgtPsi : ℤ
  vel : ℤ
  dtSafe : ℤ
  thermScale : ℤ
  trendFact : ℤ
  integ : ℤ
  integDt : ℤ
  structBreak : Bool
  deriving DecidableEq, Repr

def pgCpuTrans (state : LoadState) (cfg : CpuCfg) : Bool :=
  absQ16 state.rate > cfg.transRate || absQ16 (i32 (state.psiVal - state.psiRef)) > cfg.transDiff

def pgCpuUpdIntg (state : LoadState) (batLvl dtReal : ℤ) : LoadState × ℤ × ℤ :=
  let bLvl := pgMathClamp batLvl 0 (intToQ16 100)
  let dBat := i32 (intToQ16 100 - bLvl)
  let depl := q16Div dBat (intToQ16 100)
  let depl2 := q16Mul depl depl
  let depl3 := q16Mul depl2 depl
  let cIntg := q16Mul (floatToQ16 97 1) depl3
  if state.firstRun then ({ state with prevInteg := cIntg, firstRun := false }, cIntg, 0)
  else
    let cDt := if dtReal > 0 then q16Div (i32 (cIntg - state.prevInteg)) (intToQ16 5) else 0
    ({ state with prevInteg := cIntg }, cIntg, cDt)

def calcLTerm (integ psiVal kFin : ℤ) : ℤ :=
  let lTerm := q32Mul (q16ToQ32 integ) (q16ToQ32 psiVal)
  let mRsp := q32Mul (q16ToQ32 kFin) (q16ToQ32 (intToQ16 100))
  let limL := q32Mul mRsp (q16ToQ32 (floatToQ16 15 10))
  if lTerm > limL then limL else lTerm

def calcCReq (vel iDt psiVal : ℤ) : ℤ :=
  let load := q16ToQ32 vel
  let rSq := i64 (q32Mul load load + q16ToQ32 (floatToQ16 1 1000))
  let dN1 := q16ToQ32 (q16Mul q16Half (absQ16 iDt))
  let pVal := q16ToQ32 psiVal
  let dN2 := q32Mul pVal pVal
  let dNum := q32Mul dN1 dN2
  if rSq > 0 then dNum.tdiv (rSq / 2 ^ 16) else 0

def calcCBase (kFin : ℤ) (eff : CpuEff) : ℤ :=
  q16Mul (q16Mul (intToQ16 2) (pgMathQ16Sqrt kFin)) eff.stabRat

def calcCFinal (kFin vel iDt psiVal th : ℤ) (eff : CpuEff) : ℤ :=
  let cBase := calcCBase kFin eff
  let cReq := calcCReq vel iDt psiVal
  let cMax := q16Mul cBase (intToQ16 4)
  let cClp := if cReq ≥ cMax then cMax else if cReq ≤ 0 then 0 else i32 cReq
  let cStb := q16Mul cClp (floatToQ16 31 10)
  let thSq := pgMathQ16Sqrt th
  let cTh := if thSq > 0 then q16Div cBase thSq else cBase
  if cTh > cStb then cTh else cStb

def demandGain (eff : CpuEff) (input : DemandInput) : ℤ :=
  let trend := q16Mul eff.gainAlpha input.trendFact
  let kDyn := q16Mul eff.respGain (i32 (q16One + trend))
  let th := pgMathClamp input.thermScale (floatToQ16 1 10) q16One
  q16Mul kDyn (q16Mul th th)

def demandForce (kFin disp lTerm : ℤ) : ℤ :=
  let fQ32 := i64 (q32Mul (q16ToQ32 kFin) (q16ToQ32 disp) - lTerm)
  if fQ32 > q16ToQ32 (intToQ16 32000) then q16ToQ32 (intToQ16 32000)
  else if fQ32 < q16ToQ32 (intToQ16 (-32000)) then q16ToQ32 (intToQ16 (-32000))
  else fQ32

def demandMove (state : LoadState) (fQ32 cFin dt : ℤ) : LoadState :=
  let den := i32 (q16One + q16Mul cFin dt)
  let rate := q16Div (i32 (state.rate + q16Mul (q32ToQ16 fQ32) dt)) den
  let psiVal := i32 (state.psiVal + q16Mul rate dt)
  if psiVal < 0 then { state with psiVal := 0, rate := 0 }
  else if psiVal > intToQ16 500 then { state with psiVal := intToQ16 500, rate := 0 }
  else { state with psiVal, rate }

def demandIdle (state : LoadState) (input : DemandInput) : Prop :=
  input.tgtPsi < intToQ16 1 ∧ absQ16 input.vel < floatToQ16 1 100 ∧ state.psiVal < intToQ16 1 ∧
    absQ16 state.rate < floatToQ16 1 100

instance (state : LoadState) (input : DemandInput) : Decidable (demandIdle state input) :=
  inferInstanceAs (Decidable (_ ∧ _))

/-- The state the force acts on: snapped at a structural break, nudged by a surge. -/
def demandKick (state : LoadState) (input : DemandInput) (cfg : CpuCfg) : LoadState :=
  let state := if input.structBreak then { state with psiVal := input.tgtPsi, rate := 0 } else state
  if absQ16 input.vel > cfg.surgeThresh then
    { state with rate := i32 (state.rate + q16Mul input.vel state.eff.surgeGain) }
  else state

def demandDrive (state : LoadState) (input : DemandInput) : LoadState :=
  let eff := state.eff
  let pred := i32 (input.tgtPsi + q16Mul input.vel eff.lookahead)
  let th := pgMathClamp input.thermScale (floatToQ16 1 10) q16One
  let kFin := demandGain eff input
  let lTerm := calcLTerm input.integ state.psiVal kFin
  let cFin := calcCFinal kFin input.vel input.integDt state.psiVal th eff
  demandMove state (demandForce kFin (i32 (pred - state.psiVal)) lTerm) cFin input.dtSafe

def pgCpuCalcLoadDemand (state : LoadState) (input : DemandInput) (cfg : CpuCfg) : LoadState × ℤ :=
  if demandIdle state input then ({ state with psiVal := 0, rate := 0 }, 0)
  else
    let state := demandDrive (demandKick state input cfg) input
    (state, state.psiVal)

def pgCpuCalcTrendGain (vel : ℤ) : ℤ := if vel > 0 then pgMathAlgSig vel else 0

end Pgov
