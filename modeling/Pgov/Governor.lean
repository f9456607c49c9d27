import Pgov.LoadDemand
import Pgov.Mapping
import Pgov.PollInterval
import Pgov.PsiMonitor
import Pgov.SweepFds

namespace Pgov

open FixedWidth FdTable

structure Policy where
  cpu : CpuCfg
  lim : CpuLim
  thermal : ThermalCfg

/-- Limits and coefficients are tuned one after the other, each from its own reading. -/
def Policy.tuned (limits configs : Hardware) : Policy :=
  ⟨(pgTuneConfigs configs).1, pgTuneLimits limits, (pgTuneConfigs configs).2⟩

inductive DispState
  | unknown
  | on
  | grace
  | suspend
  deriving DecidableEq, Repr

inductive FdKind
  | file
  | signal
  | epoll
  | trigger
  deriving DecidableEq, Repr

abbrev Kernel := Table FdKind

/-- `onTrigger` and `onTimeout` say whether the callback is set; the one that is set is
`pg_gov_process`. -/
structure PgContext where
  psi : PsiMonitor
  cpuTempSensor : TempSensor
  batTempSensor : TempSensor
  batCapSensor : BatSensor
  blSensor : BlSensor
  channels : Channels
  thermalState : ThermalState
  loadState : LoadState
  pollState : PollState
  dispState : DispState
  batLvl : ℤ
  batTemp : ℤ
  cachedThScl : ℤ
  lastBat : Timespec
  lastTherm : Timespec
  lastTick : Timespec
  lastDispoff : Timespec
  lastDisp : Timespec
  lastSweep : Timespec
  epollFd : ℤ
  sigFd : ℤ
  trgFd : ℤ
  lockFd : ℤ
  nextWake : ℤ
  psiFails : ℕ
  tempFails : ℕ
  remapDue : Bool
  dormant : Bool
  shutdownReq : Bool
  onTrigger : Bool
  onTimeout : Bool

/-- What the daemon does, in order: a tick and its time, a backlight reading (return code and
brightness) with the display state before and after it, a read of the PSI node with the context it
starts from, a thermal step, a round of sysfs updates, a wait and its timeout, a callback, a
shutdown request. -/
inductive GovEvent
  | tick (now : Timespec)
  | disp (now : Timespec) (reading : ℤ × ℤ) (prev next : DispState)
  | psi (ctx : PgContext) (now : Timespec) (out : ReadOut)
  | thermal
  | sysfs
  | wait (timeout : ℤ)
  | onTimeout
  | onTrigger
  | shutdown

structure Daemon where
  ctx : PgContext
  kern : Kernel
  trace : List GovEvent

def Daemon.log (d : Daemon) (e : GovEvent) : Daemon := { d with trace := d.trace ++ [e] }

structure ArmIo where
  opens : Option ℕ+
  write : Option ℕ+
  add : Option ℕ+

structure TickIo where
  now : Timespec
  endCalc : Timespec
  bl : ℕ → ReadOut
  sweep : SweepEnv
  sweepSec : ℤ
  sweepFs : FileSystem
  sweepEnd : Timespec
  psi : ReadOut
  del : Option ℕ+
  reopen : Option ℕ+
  arm : ArmIo
  batCap : ReadOut
  batTemp : ReadOut
  cpuTemp : ReadOut
  pollNow : Timespec
  latIo : UpdateIo
  granIo : UpdateIo
  wakeIo : UpdateIo
  migIo : UpdateIo
  waltIo : UpdateIo
  uclIo : UpdateIo

def pgDispChkSec : ℤ := 1
def pgBatChkSec : ℤ := 5
def pgThermChkSec : ℤ := 1
def pgTempFailMax : ℕ := 10
def pgPsiFailMax : ℕ := 6
def pgSweepIvlSec : ℤ := 600

/-- A failed reading counts as a lit panel. -/
def dispOn (reading : ℤ × ℤ) : Bool := if reading.1 < 0 then true else decide (reading.2 > 0)

def dispTransit (ctx : PgContext) (on : Bool) (now : Timespec) : PgContext :=
  if on ∧ ctx.dispState ≠ .on then
    { ctx with
      loadState.firstRun := true
      psi.filter := pgKalmanReset
      psi.firstRun := true
      dispState := .on }
  else if !on ∧ (ctx.dispState = .on ∨ ctx.dispState = .unknown) then
    { ctx with dispState := .grace, lastDispoff := now }
  else if !on ∧ ctx.dispState = .grace ∧ pgDtSec ctx.lastDispoff now > intToQ16 10 then
    { ctx with dispState := .suspend }
  else ctx

def pgSweepFds (kern : Kernel) (io : TickIo) : Kernel :=
  (fsFds FdKind.file kern (pgSweepRun io.sweep io.sweepSec io.sweepFs).trace).1

def dispIdle (d : Daemon) (io : TickIo) : Daemon :=
  let d : Daemon := { d with ctx.nextWake := 5000, ctx.lastTick := io.now }
  if pgDtSec d.ctx.lastSweep io.now > intToQ16 pgSweepIvlSec then
    { d with kern := pgSweepFds d.kern io, ctx.lastSweep := io.sweepEnd }
  else d

/-- The flag says whether the display is suspended. -/
def updateDisp (d : Daemon) (io : TickIo) : Daemon × Bool :=
  if d.ctx.dispState = .on ∧ pgDtSec d.ctx.lastDisp io.now < intToQ16 pgDispChkSec then (d, false)
  else
    let reading := pgSensorReadBl d.ctx.blSensor io.bl
    let ctx := dispTransit { d.ctx with lastDisp := io.now } (dispOn reading) io.now
    let d := Daemon.log { d with ctx } (.disp io.now reading d.ctx.dispState ctx.dispState)
    if d.ctx.dispState = .suspend then (dispIdle d io, true) else (d, false)

def pgPsiOpenTrg (kern : Kernel) (io : ArmIo) : Kernel × ℤ :=
  match io.opens with
  | some errno => (kern, -(errno : ℕ))
  | none =>
    match io.write with
    | some errno => ((kern.openFd .trigger).close kern.fresh, -(errno : ℕ))
    | none => (kern.openFd .trigger, kern.fresh)

def pgPsiCloseTrg (kern : Kernel) (fd : ℤ) : Kernel := kern.closeFd fd

def pgEpollAddTrg (kern : Kernel) (epollFd trgFd : ℤ) (add : Option ℕ+) : Kernel × ℤ :=
  if trgFd < 0 ∨ epollFd < 0 then (kern, -ebadf)
  else
    match add with
    | some errno => (kern, -(errno : ℕ))
    | none => (kern.watch epollFd trgFd, 0)

def pgEpollRmTrg (kern : Kernel) (epollFd trgFd : ℤ) (del : Option ℕ+) : Kernel :=
  if trgFd ≥ 0 ∧ epollFd ≥ 0 ∧ del = none then kern.unwatch epollFd trgFd else kern

def armTrigger (d : Daemon) (io : ArmIo) : Daemon :=
  let (kern, fd) := pgPsiOpenTrg d.kern io
  if fd < 0 then { d with kern }
  else
    let (kern, ret) := pgEpollAddTrg kern d.ctx.epollFd fd io.add
    if ret < 0 then { d with kern := pgPsiCloseTrg kern fd, ctx.trgFd := -1 }
    else { d with kern, ctx.trgFd := fd }

def dropTrigger (d : Daemon) (del : Option ℕ+) : Daemon :=
  let kern := pgEpollRmTrg d.kern d.ctx.epollFd d.ctx.trgFd del
  if d.ctx.trgFd ≥ 0 then { d with kern := pgPsiCloseTrg kern d.ctx.trgFd, ctx.trgFd := -1 }
  else { d with kern }

def pgPsiRecov (kern : Kernel) (mon : PsiMonitor) (reopen : Option ℕ+) : Kernel × PsiMonitor :=
  let kern := kern.closeFd mon.fd
  match reopen with
  | some _ => (kern, { mon with fd := -1 })
  | none =>
    (kern.openFd .file, { mon with fd := kern.fresh, filter := pgKalmanReset, firstRun := true })

def recoverPsi (d : Daemon) (reopen : Option ℕ+) : Daemon :=
  let (kern, psi) := pgPsiRecov d.kern d.ctx.psi reopen
  { d with kern, ctx.psi := psi }

def psiFailsNext (fails : ℕ) : ℕ := if fails < pgPsiFailMax then fails + 1 else fails

def psiBackoff (fails : ℕ) : ℕ :=
  let delay := 1000 <<< (fails - 1) % 2 ^ 32
  if delay > 30000 then 30000 else delay

def readPsi (d : Daemon) (io : TickIo) : Daemon × Option PsiTrend :=
  let (psi, res) := pgPsiRead d.ctx.psi io.psi io.now
  let d := Daemon.log { d with ctx.psi := psi } (.psi d.ctx io.now io.psi)
  match res with
  | .ok trend => ({ d with ctx.psiFails := 0 }, some trend)
  | .error _ =>
    let fails := psiFailsNext d.ctx.psiFails
    let d : Daemon := { d with ctx.psiFails := fails, ctx.nextWake := psiBackoff fails }
    (armTrigger (recoverPsi (dropTrigger d io.del) io.reopen) io.arm, none)

def pollBatteryMetrics (d : Daemon) (io : TickIo) : Daemon :=
  if pgDtSec d.ctx.lastBat io.now < intToQ16 pgBatChkSec then d
  else
    let d : Daemon :=
      { d with
        ctx.batLvl := (pgSensorReadBatCap d.ctx.batCapSensor io.batCap).2
        ctx.batTemp := (pgSensorReadBatTemp d.ctx.batTempSensor io.batTemp).2
        ctx.lastBat := io.now }
    if d.ctx.trgFd < 0 then armTrigger d io.arm else d

def pollCpuTemp (ctx : PgContext) (out : ReadOut) : Option ℤ × ℕ :=
  if ctx.cpuTempSensor.fd ≥ 0 then
    let (ret, cpuTemp) := pgSensorReadCpuTemp ctx.cpuTempSensor out
    if ret = 0 then (some cpuTemp, 0)
    else if ctx.tempFails < pgTempFailMax then (none, ctx.tempFails + 1)
    else (some 0, ctx.tempFails)
  else (some 0, ctx.tempFails)

def pollThermalMetrics (p : Policy) (d : Daemon) (io : TickIo) : Daemon :=
  if pgDtSec d.ctx.lastTherm io.now < intToQ16 pgThermChkSec then d
  else
    let (cpuTemp, tempFails) := pollCpuTemp d.ctx io.cpuTemp
    let d : Daemon := { d with ctx.tempFails := tempFails }
    let d :=
      match cpuTemp with
      | none => d
      | some cpuTemp =>
        let (thermalState, thScl) :=
          pgThermalUpdate p.thermal d.ctx.thermalState ⟨cpuTemp, d.ctx.batTemp, io.now⟩
        Daemon.log { d with ctx.thermalState := thermalState, ctx.cachedThScl := thScl } .thermal
    { d with ctx.lastTherm := io.now, ctx.remapDue := true }

structure Demand where
  thScl : ℤ
  lDem : ℤ
  pEff : ℤ
  deriving DecidableEq, Repr

def calcDemand (p : Policy) (d : Daemon) (io : TickIo) (psi : PsiTrend) : Daemon × Demand :=
  let d := pollThermalMetrics p (pollBatteryMetrics d io) io
  let thScl := d.ctx.cachedThScl
  let eff := pgCpuUpdEff d.ctx.batLvl thScl psi.avg300
  let dtReal := pgDtSec d.ctx.lastTick io.now
  let dtSafe := pgMathClamp dtReal 1 (floatToQ16 1 10)
  let (loadState, integ, integDt) :=
    pgCpuUpdIntg { d.ctx.loadState with eff } d.ctx.batLvl dtReal
  let tFact := pgCpuCalcTrendGain psi.vel
  let input : DemandInput :=
    { tgtPsi := psi.cur, vel := psi.vel, dtSafe, thermScale := thScl, trendFact := tFact, integ,
      integDt, structBreak := psi.nis > eff.nisThresh }
  let (loadState, lDem) := pgCpuCalcLoadDemand loadState input p.cpu
  ({ d with ctx.loadState := loadState, ctx.lastTick := io.now },
    ⟨thScl, lDem, pgCpuCalcEffPress lDem tFact eff⟩)

def govGate (p : Policy) (d : Daemon) (io : TickIo) (psi : PsiTrend) (pEff : ℤ) : Daemon × Bool :=
  let (pollState, nPoll) := pgPollCalcNext d.ctx.pollState io.pollNow pEff psi.avg300 psi.vel
  let d : Daemon := { d with ctx.pollState := pollState, ctx.nextWake := nPoll }
  let moving := pgCpuTrans d.ctx.loadState p.cpu
  if !moving ∧ !d.ctx.remapDue then (d, false)
  else
    let tPoll := q16ToInt p.cpu.transPoll
    let nextWake := if moving ∧ nPoll > tPoll then tPoll else nPoll
    ({ d with
       ctx.nextWake := nextWake
       ctx.loadState.psiRef := d.ctx.loadState.psiVal
       ctx.remapDue := false }, true)

def mapChannels (p : Policy) (d : Daemon) (io : TickIo) (psi : PsiTrend) (dem : Demand) : Daemon :=
  let call : MappingCall :=
    { batLvl := d.ctx.batLvl, avg300 := psi.avg300, vel := psi.vel, thScl := dem.thScl,
      lDem := dem.lDem, pEff := dem.pEff, latIo := io.latIo, granIo := io.granIo,
      wakeIo := io.wakeIo, migIo := io.migIo, waltIo := io.waltIo, uclIo := io.uclIo }
  Daemon.log { d with ctx.channels := applyMapping p.cpu p.lim d.ctx.channels call } .sysfs

def execGovLogic (p : Policy) (d : Daemon) (io : TickIo) : Daemon :=
  match updateDisp d io with
  | (d, true) => d
  | (d, false) =>
    match readPsi d io with
    | (d, none) => d
    | (d, some psi) =>
      let (d, dem) := calcDemand p d io psi
      match govGate p d io psi dem.pEff with
      | (d, false) => d
      | (d, true) => mapChannels p d io psi dem

/-- As built with `NDK_BUILD`; without it the daemon sleeps until an event comes. -/
def dormantTick (d : Daemon) (io : TickIo) : Daemon :=
  match updateDisp d io with
  | (d, true) => d
  | (d, false) => { d with ctx.nextWake := pgMaxPollMs }

def elapsedMs (start finish : Timespec) : ℤ := i32 (pgDtSec start finish * 1000 / 2 ^ 16)

def adjWake (io : TickIo) (wake : ℤ) : ℤ :=
  let adj := i32 (wake - elapsedMs io.now io.endCalc)
  if adj > 0 then adj else 1

def pgGovProcess (p : Policy) (d : Daemon) (io : TickIo) : Daemon :=
  let d := d.log (.tick io.now)
  if d.ctx.dormant then dormantTick d io
  else
    let d := execGovLogic p d io
    { d with ctx.nextWake := adjWake io d.ctx.nextWake }

end Pgov
