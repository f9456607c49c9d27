import Pgov.KalmanFilter
import Pgov.PgTime

namespace Pgov

open FixedWidth

structure ThermalCfg where
  limitCpu : ℤ
  limitBat : ℤ
  kpBase : ℤ
  kiBase : ℤ
  kdBase : ℤ
  deriving DecidableEq, Repr

structure ThermalState where
  lastTick : Timespec
  integ : ℤ
  prevSat : ℤ
  satCount : ℤ
  filter : KalmanState
  deriving DecidableEq, Repr

def pgThermStaleSec : ℤ := 30

def thermalFilterReset : KalmanState := { pgKalmanInit with qVel := floatToQ16 1 100 }

def pgThermalInit (now : Timespec) : ThermalState :=
  { lastTick := now, integ := 0, prevSat := 0, satCount := 0, filter := thermalFilterReset }

structure ThermalCall where
  cpuTemp : ℤ
  batTemp : ℤ
  now : Timespec
  deriving DecidableEq, Repr

def thermalSetpoint (cfg : ThermalCfg) (batTemp : ℤ) : ℤ :=
  let bMarg := i32 (cfg.limitBat - batTemp)
  let bMarg := if bMarg < 0 then 0 else bMarg
  let cMarg := if bMarg < intToQ16 5 then i32 (intToQ16 5 - bMarg) else 0
  i32 (cfg.limitCpu - cMarg)

def thermalRestart (state : ThermalState) (dt cpuTemp sp : ℤ) : ThermalState :=
  if dt > intToQ16 pgThermStaleSec then
    { state with
      filter := thermalFilterReset
      prevSat := 0
      satCount := 0
      integ := if cpuTemp < sp then 0 else state.integ }
  else state

structure PidTerms where
  kP : ℤ
  kI : ℤ
  vBst : ℤ
  kD : ℤ
  pTerm : ℤ
  integ : ℤ
  dTerm : ℤ
  uRaw : ℤ
  uSat : ℤ
  deriving DecidableEq, Repr

def thermalPid (cfg : ThermalCfg) (integ sp tmp vel dtS : ℤ) : PidTerms :=
  let err := i32 (tmp - sp)
  let tDist := i32 (sp - tmp)
  let tDist := if tDist < floatToQ16 1 10 then floatToQ16 1 10 else tDist
  let kP := i32 (cfg.kpBase + q16Div cfg.kpBase tDist)
  let kI := i32 (cfg.kiBase + q16Div cfg.kiBase tDist)
  let vBst := if vel > 0 then q16Mul (floatToQ16 2 1) vel else 0
  let kD := i32 (cfg.kdBase + vBst)
  let integ := i32 (integ + q16Mul (q16Mul kI err) dtS)
  let integ := pgMathClamp integ (intToQ16 (-50)) (intToQ16 50)
  let pTerm := q16Mul kP err
  let dTerm := q16Mul kD vel
  let uRaw := i32 (i32 (pTerm + integ) + dTerm)
  { kP, kI, vBst, kD, pTerm, integ, dTerm, uRaw, uSat := pgMathClamp uRaw 0 (intToQ16 100) }

def satCountNext (prevSat satCount : ℤ) : ℤ :=
  if prevSat ≥ intToQ16 100 then if satCount < 50 then satCount + 1 else satCount else 0

def antiWindupGain (satCount : ℤ) : ℤ :=
  let awK := floatToQ16 195 100
  if satCount > 0 then i32 (awK + q16Mul (floatToQ16 1 10) (intToQ16 satCount)) else awK

def antiWindupDrain (exc awK dtS : ℤ) : ℤ := q16Mul (q16Mul exc awK) dtS

def antiWindup (integ uRaw uSat awK dtS : ℤ) : ℤ :=
  if absQ16 (i32 (uRaw - uSat)) > 65 then
    let exc := i32 (uRaw - uSat)
    let drain := antiWindupDrain exc awK dtS
    if (integ > 0 ∧ drain > integ) ∨ (integ < 0 ∧ drain < integ) then 0 else i32 (integ - drain)
  else integ

def thermalScale (cfg : ThermalCfg) (batTemp uSat : ℤ) : ℤ :=
  let fscale := i32 (q16One - q16Div uSat (intToQ16 100))
  if batTemp ≥ cfg.limitBat then pgMathClamp fscale (floatToQ16 1 10) (floatToQ16 2 10)
  else pgMathClamp fscale (floatToQ16 1 10) q16One

/-- What one call computes on its way: the state it resumes from, the step time, the filter after
its update, the PID terms and the anti-windup gain. -/
structure ThermalTick where
  resumed : ThermalState
  dtS : ℤ
  sp : ℤ
  filter : KalmanState
  tmp : ℤ
  pid : PidTerms
  satCount : ℤ
  awK : ℤ
  deriving DecidableEq, Repr

def thermalTick (cfg : ThermalCfg) (state : ThermalState) (call : ThermalCall) : ThermalTick :=
  let dt := pgDtSec state.lastTick call.now
  let dtS := pgMathClamp dt (floatToQ16 1 100) q16One
  let sp := thermalSetpoint cfg call.batTemp
  let resumed := thermalRestart state dt call.cpuTemp sp
  let (filter, tmp) := pgKalmanUpdate resumed.filter call.cpuTemp dtS
  let pid := thermalPid cfg resumed.integ sp tmp filter.xVel dtS
  let satCount := satCountNext resumed.prevSat resumed.satCount
  { resumed, dtS, sp, filter, tmp, pid, satCount, awK := antiWindupGain satCount }

def pgThermalUpdate (cfg : ThermalCfg) (state : ThermalState) (call : ThermalCall) :
    ThermalState × ℤ :=
  let t := thermalTick cfg state call
  ({ lastTick := call.now
     integ := antiWindup t.pid.integ t.pid.uRaw t.pid.uSat t.awK t.dtS
     prevSat := t.pid.uSat
     satCount := t.satCount
     filter := t.filter },
   thermalScale cfg call.batTemp t.pid.uSat)

end Pgov
