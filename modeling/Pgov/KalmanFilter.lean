import Pgov.PgMath

namespace Pgov

open FixedWidth

structure KalmanState where
  xPos : ℤ
  xVel : ℤ
  p00 : ℤ
  p01 : ℤ
  p10 : ℤ
  p11 : ℤ
  qVel : ℤ
  rMeas : ℤ
  covY : ℤ
  nis : ℤ
  firstRun : Bool
  deriving DecidableEq, Repr

def pgKalmanReset : KalmanState :=
  { firstRun := true
    xPos := 0
    xVel := 0
    p00 := q16ToQ32 (intToQ16 100)
    p01 := 0
    p10 := 0
    p11 := q16ToQ32 (intToQ16 100)
    qVel := floatToQ16 1 1
    rMeas := floatToQ16 4 1
    covY := q16ToQ32 (floatToQ16 16 1)
    nis := 0 }

def pgKalmanInit : KalmanState := pgKalmanReset

/-- The state carried one step of `dt` ahead; `x_vel` is carried unchanged. -/
structure KalmanPred where
  xPos : ℤ
  p00 : ℤ
  p01 : ℤ
  p10 : ℤ
  p11 : ℤ
  deriving DecidableEq, Repr

def kalmanPredict (state : KalmanState) (dt : ℤ) : KalmanPred :=
  let dtQ32 := q16ToQ32 dt
  let dt2 := q32Mul dtQ32 dtQ32
  let dt3 := q32Mul dt2 dtQ32
  let dt4 := q32Mul dt3 dtQ32
  let qPos := q16Mul state.qVel (floatToQ16 1 100)
  let qPosQ32 := q16ToQ32 qPos
  let qVelQ32 := q16ToQ32 state.qVel
  let qPosDt := q32Mul qPosQ32 dtQ32
  let q00 := i64 ((q32Mul qVelQ32 dt4).tdiv 4 + qPosDt)
  let q01 := (q32Mul qVelQ32 dt3).tdiv 2
  let q10 := q01
  let q11 := i64 (q32Mul qVelQ32 dt2 + qPosDt)
  let fP00 := i64 (state.p00 + q32Mul state.p10 dtQ32)
  let fP01 := i64 (state.p01 + q32Mul state.p11 dtQ32)
  let fP10 := state.p10
  let fP11 := state.p11
  { xPos := i32 (state.xPos + q16Mul state.xVel dt)
    p00 := i64 (i64 (fP00 + q32Mul fP01 dtQ32) + q00)
    p01 := i64 (fP01 + q01)
    p10 := i64 (i64 (fP10 + q32Mul fP11 dtQ32) + q10)
    p11 := i64 (fP11 + q11) }

structure KalmanNoise where
  covY : ℤ
  rMeas : ℤ
  qVel : ℤ
  s : ℤ
  deriving DecidableEq, Repr

def kalmanAdapt (state : KalmanState) (y p00Q16 : ℤ) : KalmanNoise :=
  let yClamp := pgMathClamp y (intToQ16 (-20)) (intToQ16 20)
  let yQ32 := q16ToQ32 yClamp
  let ySq := q32Mul yQ32 yQ32
  let aEma := q16ToQ32 (floatToQ16 5 100)
  let invA := q16ToQ32 (floatToQ16 95 100)
  let covY := i64 (q32Mul invA state.covY + q32Mul aEma ySq)
  let cyQ16 := q32ToQ16 covY
  let calcR := i32 (cyQ16 - p00Q16)
  let rMeas := pgMathClamp calcR (floatToQ16 1 10) (intToQ16 50)
  let sPred := i32 (p00Q16 + rMeas)
  let nextQ :=
    if cyQ16 > sPred then i32 (state.qVel + q16Mul (floatToQ16 5 100) (i32 (cyQ16 - sPred)))
    else q16Mul (floatToQ16 95 100) state.qVel
  { covY := covY
    rMeas := rMeas
    qVel := pgMathClamp nextQ (floatToQ16 1 100) (intToQ16 20)
    s := sPred }

def kalmanInvS (s : ℤ) : ℤ := if s > 0 then q16Div q16One s else 0

def kalmanCorrect (xVelPred y : ℤ) (pred : KalmanPred) (noise : KalmanNoise) : KalmanState :=
  let p00Q16 := q32ToQ16 pred.p00
  let invS := kalmanInvS noise.s
  let k0 := q16Mul p00Q16 invS
  let k1 := q16Mul (q32ToQ16 pred.p10) invS
  let termK0 := i32 (q16One - k0)
  let rYQ32 := q16ToQ32 y
  let rYSq := q32Mul rYQ32 rYQ32
  { xPos := i32 (pred.xPos + q16Mul k0 y)
    xVel := i32 (xVelPred + q16Mul k1 y)
    p00 := q32Mul (q16ToQ32 termK0) pred.p00
    p01 := q32Mul (q16ToQ32 termK0) pred.p01
    p10 := i64 (pred.p10 - q32Mul (q16ToQ32 k1) pred.p00)
    p11 := i64 (pred.p11 - q32Mul (q16ToQ32 k1) pred.p01)
    qVel := noise.qVel
    rMeas := noise.rMeas
    covY := noise.covY
    nis := q32ToQ16 (q32Mul rYSq (q16ToQ32 invS))
    firstRun := false }

def kalmanStep (state : KalmanState) (z dt : ℤ) : KalmanState :=
  let pred := kalmanPredict state dt
  let y := i32 (z - pred.xPos)
  kalmanCorrect state.xVel y pred (kalmanAdapt state y (q32ToQ16 pred.p00))

def pgKalmanUpdate (state : KalmanState) (zMeas dtSec : ℤ) : KalmanState × ℤ :=
  let z := pgMathClamp zMeas 0 (intToQ16 500)
  let state := if dtSec > intToQ16 5 then pgKalmanReset else state
  if state.firstRun then ({ state with xPos := z, xVel := 0, firstRun := false }, z)
  else
    let dt := if dtSec > floatToQ16 1 10000 then dtSec else floatToQ16 1 10000
    let state := kalmanStep state z dt
    (state, if state.xPos > 0 then state.xPos else 0)

/-- The update only takes the measurement over. -/
def Restarts (state : KalmanState) (dtSec : ℤ) : Prop :=
  state.firstRun = true ∨ dtSec > intToQ16 5

instance (state : KalmanState) (dtSec : ℤ) : Decidable (Restarts state dtSec) :=
  inferInstanceAs (Decidable (_ ∨ _))

def filterDt (dtSec : ℤ) : ℤ := if dtSec > floatToQ16 1 10000 then dtSec else floatToQ16 1 10000

theorem kalmanUpdate_runs {state : KalmanState} {zMeas dtSec : ℤ} (h : ¬Restarts state dtSec) :
    (pgKalmanUpdate state zMeas dtSec).1 =
      kalmanStep state (pgMathClamp zMeas 0 (intToQ16 500)) (filterDt dtSec) := by
  obtain ⟨hfirst, hgap⟩ := not_or.mp h
  simp only [pgKalmanUpdate, if_neg hgap, if_neg hfirst, filterDt]

end Pgov
