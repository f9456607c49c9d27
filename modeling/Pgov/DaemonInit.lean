import Pgov.Reactor
import Pgov.RestorePaths

namespace Pgov

open FixedWidth FdTable Runs

def eperm : ℤ := 1
def eagain : ℤ := 11
def enodev : ℤ := 19
def etimedout : ℤ := 110
def stderrFileno : ℤ := 2

def Channels.get (c : Channels) : Sink → Channel
  | .schedLat => c.schedLat
  | .schedGran => c.schedGran
  | .schedWake => c.schedWake
  | .schedMig => c.schedMig
  | .schedWalt => c.schedWalt
  | .schedUcl => c.schedUcl

def Channels.set (c : Channels) (i : Sink) (ch : Channel) : Channels :=
  match i with
  | .schedLat => { c with schedLat := ch }
  | .schedGran => { c with schedGran := ch }
  | .schedWake => { c with schedWake := ch }
  | .schedMig => { c with schedMig := ch }
  | .schedWalt => { c with schedWalt := ch }
  | .schedUcl => { c with schedUcl := ch }

def bootKernel (inherited : Finset ℤ) : Kernel :=
  { inherited, opened := ∅, watched := ∅, faults := 0, watched_opened := by simp }

/-- A directory or file held open while nodes are opened and closed one after the other: whether it
opens, and whether each node does. -/
structure DirIo where
  opens : Bool
  nodes : List Bool

def useNodes (kern : Kernel) (nodes : List Bool) : Kernel :=
  nodes.foldl (fun kern ok => kern.useNode .file ok) kern

def useDir (kern : Kernel) (io : DirIo) : Kernel :=
  if io.opens then (useNodes (kern.openFd .file) io.nodes).close kern.fresh else kern

structure LittleCoreIo where
  capacity : List Bool
  bound : Bool
  maxFreq : List Bool

structure TuneIo where
  capacity : List Bool
  maxFreq : List Bool
  tripScan : DirIo
  tripPoint : List Bool

def pgMemoryShield (kern : Kernel) (opens : Bool) : Kernel := kern.useNode .file opens

def pgTopoSetLittleCore (kern : Kernel) (io : LittleCoreIo) : Kernel :=
  let kern := useNodes kern io.capacity
  if io.bound then kern else useNodes kern io.maxFreq

def pgTuneLimitsFds (kern : Kernel) (maxFreq : List Bool) : Kernel := useNodes kern maxFreq

def pgTuneConfigsFds (kern : Kernel) (io : TuneIo) : Kernel :=
  let kern := useNodes (useNodes kern io.capacity) io.maxFreq
  useNodes (useDir kern io.tripScan) io.tripPoint

def pgBlockTune (kern : Kernel) (io : DirIo) : Kernel := useDir kern io
def pgScanThermalZone (kern : Kernel) (io : DirIo) : Kernel := useDir kern io
def pgScanBacklight (kern : Kernel) (io : DirIo) : Kernel := useDir kern io

/-- The descriptors of `pg_opt_init`. None of its `sysfs.` directives names the node of a tunable: the
nodes change by the governor's writes alone. -/
def pgOptInit (kern : Kernel) (io : DirIo) : Kernel := useDir kern io

structure LockIo where
  opens : Option ℕ+
  flock : Option ℕ+

def pgLockfileInit (kern : Kernel) (io : LockIo) : Kernel × ℤ :=
  match io.opens with
  | some errno => (kern, -(errno : ℕ))
  | none =>
    match io.flock with
    | some _ => ((kern.openFd .file).close kern.fresh, -eagain)
    | none => (kern.openFd .file, kern.fresh)

structure CandidateIo where
  writable : Bool
  readable : Bool
  text : ReadOut

structure ChannelIo where
  paths : List CandidateIo
  node : ℤ

/-- The candidate as it looks from a process that would get the descriptor `fd` for it. -/
def CandidateIo.at (fd : ℤ) (c : CandidateIo) : Candidate :=
  { fd := if c.writable then some fd.toNat else none
    text := if c.readable then c.text else .error (Nat.toPNat' 2) }

def sysfsCacheInit (kern : Kernel) (io : ChannelIo) : Kernel × Channel × ℤ :=
  let (cache, n) := pgSysfsCacheInit (io.paths.map (CandidateIo.at kern.fresh))
  match io.paths.find? CandidateIo.writable with
  | none => (kern, ⟨cache, io.node⟩, n)
  | some c => ((kern.openFd .file).useNode .file c.readable, ⟨cache, io.node⟩, n)

def initSysfsCache (io : Sink → ChannelIo) (s : Daemon × ℤ) (i : Sink) : Daemon × ℤ :=
  let (kern, channel, n) := sysfsCacheInit s.1.kern (io i)
  ({ s.1 with kern, ctx.channels := s.1.ctx.channels.set i channel }, s.2 + n)

def initSysfsCaches (d : Daemon) (io : Sink → ChannelIo) : Daemon × ℤ :=
  sinks.foldl (initSysfsCache io) (d, 0)

structure LogIo where
  opens : Bool
  dup : Bool

def redirectLog (kern : Kernel) (io : LogIo) : Kernel :=
  if io.opens then
    let logged := kern.openFd .file
    (if io.dup then logged.redirect stderrFileno else logged).close kern.fresh
  else kern

structure EnvIo where
  log : LogIo
  shield : Bool
  littleCore : LittleCoreIo

def initOsEnvironment (kern : Kernel) (io : EnvIo) : Kernel :=
  pgTopoSetLittleCore (pgMemoryShield (redirectLog kern io.log) io.shield) io.littleCore

def initContextDefaults (ctx : PgContext) : PgContext :=
  { ctx with
    shutdownReq := false
    nextWake := pgMinPollMs
    dispState := .unknown
    cachedThScl := q16One
    loadState.firstRun := true
    loadState.psiVal := 0
    loadState.rate := 0
    loadState.prevInteg := 0
    epollFd := -1
    sigFd := -1
    trgFd := -1
    lockFd := -1
    psi.fd := -1
    cpuTempSensor.fd := -1
    batTempSensor.fd := -1
    batCapSensor.fd := -1
    blSensor.fd := []
    channels.schedLat.cache.fd := -1
    channels.schedGran.cache.fd := -1
    channels.schedWake.cache.fd := -1
    channels.schedMig.cache.fd := -1
    channels.schedWalt.cache.fd := -1
    channels.schedUcl.cache.fd := -1
    onTrigger := false
    onTimeout := false }

/-- Opening a node that stays open: the kernel with the descriptor, negative where it fails. -/
def openNode (kern : Kernel) (opens : Option ℕ+) : Kernel × ℤ :=
  match opens with
  | some _ => (kern, -1)
  | none => (kern.openFd .file, kern.fresh)

structure SignalIo where
  mask : Option ℕ+
  signalfd : Option ℕ+

def pgSignalInit (kern : Kernel) (io : SignalIo) : Kernel × ℤ :=
  match io.mask with
  | some errno => (kern, -(errno : ℕ))
  | none =>
    match io.signalfd with
    | some errno => (kern, -(errno : ℕ))
    | none => (kern.openFd .signal, kern.fresh)

structure SensorsIo where
  thermalZone : DirIo
  cpuTemp : Option (Option ℕ+)
  batTemp : Option ℕ+
  batCap : Option ℕ+
  trigger : ArmIo
  psi : Option ℕ+
  psiNow : Timespec
  signal : SignalIo
  thermalNow : Timespec
  pollMono : Timespec
  pollReal : Timespec
  backlight : DirIo
  panels : List (Option ℕ+)

def pgSensorInitCpuTemp (d : Daemon) (path : Option (Option ℕ+)) : Daemon :=
  match path with
  | none => { d with ctx.cpuTempSensor := ⟨-1, scaleMilli⟩ }
  | some opens =>
    let (kern, fd) := openNode d.kern opens
    { d with kern, ctx.cpuTempSensor := ⟨fd, scaleMilli⟩ }

def pgSensorInitBatTemp (d : Daemon) (opens : Option ℕ+) : Daemon :=
  let (kern, fd) := openNode d.kern opens
  { d with kern, ctx.batTempSensor := ⟨fd, scaleDeci⟩ }

def pgSensorInitBatCap (d : Daemon) (opens : Option ℕ+) : Daemon :=
  let (kern, fd) := openNode d.kern opens
  { d with kern, ctx.batCapSensor := ⟨fd⟩ }

def pgSensorInitBl (d : Daemon) (opens : Option ℕ+) : Daemon :=
  if d.ctx.blSensor.fd.length ≥ pgBlMax then d
  else
    match opens with
    | some _ => d
    | none => { d with
        kern := d.kern.openFd .file, ctx.blSensor.fd := d.ctx.blSensor.fd ++ [d.kern.fresh] }

def initPsi (d : Daemon) (opens : Option ℕ+) (now : Timespec) : Daemon :=
  let (kern, fd) := openNode d.kern opens
  { d with kern, ctx.psi := pgPsiInit fd now }

def initTrigger (d : Daemon) (io : ArmIo) : Daemon :=
  if d.ctx.dormant then d
  else
    let (kern, fd) := pgPsiOpenTrg d.kern io
    { d with kern, ctx.trgFd := fd }

def initSensorsAndTriggers (d : Daemon) (io : SensorsIo) : Daemon × ℤ :=
  let d := { d with kern := pgScanThermalZone d.kern io.thermalZone }
  let d := pgSensorInitBatCap (pgSensorInitBatTemp (pgSensorInitCpuTemp d io.cpuTemp) io.batTemp)
    io.batCap
  let d := initTrigger d io.trigger
  if d.ctx.dormant = false ∧ d.ctx.trgFd < 0 then (d, d.ctx.trgFd)
  else
    let d := initPsi d io.psi io.psiNow
    let (kern, sigFd) := pgSignalInit d.kern io.signal
    let d : Daemon := { d with kern, ctx.sigFd := sigFd }
    if sigFd < 0 then (d, sigFd)
    else
      let d : Daemon :=
        { d with
          kern := pgScanBacklight d.kern io.backlight
          ctx.thermalState := pgThermalInit io.thermalNow
          ctx.pollState := pgPollInit io.pollMono io.pollReal }
      (io.panels.foldl pgSensorInitBl d, 0)

structure BootIo where
  privileged : Bool
  lock : LockIo
  booted : Bool
  caches : Sink → ChannelIo
  env : EnvIo
  psiAccess : Bool
  limits : Hardware
  limitsFds : List Bool
  configs : Hardware
  configsFds : TuneIo
  block : DirIo
  sensors : SensorsIo
  opt : DirIo
  lastBat : Timespec
  lastTherm : Timespec
  lastSweep : Timespec
  batCap : ReadOut
  batTemp : ReadOut
  lastTick : Timespec
  setup : SetupIo
  restore : Sink → Pwrite

def BootIo.policy (io : BootIo) : Policy := .tuned io.limits io.configs

def tuneFds (kern : Kernel) (io : BootIo) : Kernel :=
  pgBlockTune (pgTuneConfigsFds (pgTuneLimitsFds kern io.limitsFds) io.configsFds) io.block

def armContext (ctx : PgContext) (io : BootIo) : PgContext :=
  { ctx with
    lastBat := io.lastBat
    lastTherm := io.lastTherm
    lastSweep := io.lastSweep
    batLvl := (pgSensorReadBatCap ctx.batCapSensor io.batCap).2
    batTemp := (pgSensorReadBatTemp ctx.batTempSensor io.batTemp).2
    lastTick := io.lastTick
    onTrigger := true
    onTimeout := true }

/-- `pg_daemon_init` up to the reactor: an error is the state and the return code a `goto cleanup`
is taken with. -/
def daemonPrepare (d : Daemon) (io : BootIo) : Except (Daemon × ℤ) Daemon :=
  if !io.privileged then .error (d, -eperm)
  else
    let (kern, lockFd) := pgLockfileInit d.kern io.lock
    let d : Daemon := { d with kern, ctx.lockFd := lockFd }
    if lockFd < 0 then .error (d, lockFd)
    else if !io.booted then .error (d, -etimedout)
    else
      let (d, n) := initSysfsCaches d io.caches
      let d : Daemon :=
        { d with
          kern := initOsEnvironment d.kern io.env
          ctx.dormant := if n = 0 then true else d.ctx.dormant }
      if !io.psiAccess then .error (d, -enodev)
      else
        let d : Daemon := { d with kern := tuneFds d.kern io }
        let (d, ret) := initSensorsAndTriggers d io.sensors
        if ret ≠ 0 then .error (d, ret)
        else .ok { d with kern := pgOptInit d.kern io.opt, ctx := armContext d.ctx io }

def PgContext.restoreAll (ctx : PgContext) (res : Sink → Pwrite) : PgContext :=
  { ctx with
    channels := sinks.foldl (fun c i => c.set i ((c.get i).restore (res i))) ctx.channels }

def pgSensorBlClose (kern : Kernel) (sensor : BlSensor) : Kernel :=
  sensor.fd.foldl (fun kern fd => kern.closeFd fd) kern

def cleanupContext (d : Daemon) (res : Sink → Pwrite) : Daemon :=
  let ctx := d.ctx.restoreAll res
  let kern := d.kern.closeFd ctx.trgFd
  let kern := kern.closeFd ctx.sigFd
  let kern := kern.closeFd ctx.lockFd
  let kern := kern.closeFd ctx.psi.fd
  let kern := kern.closeFd ctx.cpuTempSensor.fd
  let kern := kern.closeFd ctx.batTempSensor.fd
  let kern := kern.closeFd ctx.batCapSensor.fd
  let kern := pgSensorBlClose kern ctx.blSensor
  { d with
    kern := sinks.foldl (fun kern i => kern.closeFd (ctx.channels.get i).cache.fd) kern
    ctx := { ctx with
      psi.fd := -1
      cpuTempSensor.fd := -1
      batTempSensor.fd := -1
      batCapSensor.fd := -1
      blSensor.fd := []
      channels := sinks.foldl (fun c i =>
        c.set i { c.get i with cache.fd := -1, cache.active := false }) ctx.channels } }

def daemonStart (static : PgContext) (inherited : Finset ℤ) : Daemon :=
  ⟨initContextDefaults static, bootKernel inherited, []⟩

/-- `none` while the reactor is still running. -/
def pgDaemonInit (static : PgContext) (inherited : Finset ℤ) (io : BootIo)
    (waits : List WaitOut) : Option (Daemon × ℤ) :=
  match daemonPrepare (daemonStart static inherited) io with
  | .error (d, ret) => some (cleanupContext d io.restore, ret)
  | .ok d => (pgEpollRun io.policy d io.setup waits).map fun (d, ret) =>
      (cleanupContext d io.restore, ret)

structure BootFrame (d d' : Daemon) : Prop where
  nextWake : d'.ctx.nextWake = d.ctx.nextWake
  psiFails : d'.ctx.psiFails = d.ctx.psiFails
  shutdownReq : d'.ctx.shutdownReq = d.ctx.shutdownReq
  dispState : d'.ctx.dispState = d.ctx.dispState
  trace : d'.trace = d.trace

theorem BootFrame.trans {d₁ d₂ d₃ : Daemon} (h : BootFrame d₁ d₂) (h' : BootFrame d₂ d₃) :
    BootFrame d₁ d₃ :=
  ⟨h'.nextWake.trans h.nextWake, h'.psiFails.trans h.psiFails,
    h'.shutdownReq.trans h.shutdownReq, h'.dispState.trans h.dispState, h'.trace.trans h.trace⟩

theorem initSysfsCaches_frame (d : Daemon) (io : Sink → ChannelIo) :
    BootFrame d (initSysfsCaches d io).1 := by
  have hfold (l : List Sink) (s : Daemon × ℤ) : BootFrame s.1 (l.foldl (initSysfsCache io) s).1 := by
    induction l generalizing s with
    | nil => exact ⟨rfl, rfl, rfl, rfl, rfl⟩
    | cons i l ih =>
      have hstep : BootFrame s.1 (initSysfsCache io s i).1 := ⟨rfl, rfl, rfl, rfl, rfl⟩
      exact hstep.trans (ih (initSysfsCache io s i))
  exact hfold sinks (d, 0)

theorem panels_frame {d d' : Daemon} {panels : List (Option ℕ+)}
    (h : panels.foldl pgSensorInitBl d = d') : BootFrame d d' ∧ d'.ctx.psi = d.ctx.psi := by
  induction panels generalizing d with
  | nil =>
    cases h
    exact ⟨⟨rfl, rfl, rfl, rfl, rfl⟩, rfl⟩
  | cons opens panels ih =>
    have hstep : BootFrame d (pgSensorInitBl d opens) ∧
        (pgSensorInitBl d opens).ctx.psi = d.ctx.psi := by
      unfold pgSensorInitBl
      split
      · exact ⟨⟨rfl, rfl, rfl, rfl, rfl⟩, rfl⟩
      split <;> exact ⟨⟨rfl, rfl, rfl, rfl, rfl⟩, rfl⟩
    obtain ⟨hframe, hpsi⟩ := ih h
    exact ⟨hstep.1.trans hframe, hpsi.trans hstep.2⟩

theorem initSensors_frame {d d' : Daemon} {io : SensorsIo}
    (h : initSensorsAndTriggers d io = (d', 0)) :
    BootFrame d d' ∧ ∃ fd, d'.ctx.psi = pgPsiInit fd io.psiNow := by
  have htemp (d : Daemon) (path : Option (Option ℕ+)) : BootFrame d (pgSensorInitCpuTemp d path) := by
    cases path <;> exact ⟨rfl, rfl, rfl, rfl, rfl⟩
  have htrg (d : Daemon) (io : ArmIo) : BootFrame d (initTrigger d io) := by
    rw [initTrigger]
    split <;> exact ⟨rfl, rfl, rfl, rfl, rfl⟩
  have hscan : BootFrame d { d with kern := pgScanThermalZone d.kern io.thermalZone } :=
    ⟨rfl, rfl, rfl, rfl, rfl⟩
  have hbat (d : Daemon) :
      BootFrame d (pgSensorInitBatCap (pgSensorInitBatTemp d io.batTemp) io.batCap) :=
    ⟨rfl, rfl, rfl, rfl, rfl⟩
  have hpsi (d : Daemon) : BootFrame d (initPsi d io.psi io.psiNow) := ⟨rfl, rfl, rfl, rfl, rfl⟩
  have hboot := (((hscan.trans (htemp _ io.cpuTemp)).trans (hbat _)).trans (htrg _ io.trigger)).trans
    (hpsi _)
  simp only [initSensorsAndTriggers] at h
  split at h
  · next hneg =>
    have hret := congrArg Prod.snd h
    simp only at hret
    omega
  split at h
  · next hneg =>
    have hret := congrArg Prod.snd h
    simp only at hret
    omega
  · obtain ⟨hd, -⟩ := Prod.mk.inj h
    obtain ⟨hpanels, hpsi⟩ := panels_frame hd
    refine ⟨hboot.trans (BootFrame.trans ?_ hpanels), _, hpsi⟩
    exact ⟨rfl, rfl, rfl, rfl, rfl⟩

theorem prepare_frame {d d' : Daemon} {io : BootIo} (h : daemonPrepare d io = .ok d') :
    BootFrame d d' ∧ ∃ fd, d'.ctx.psi = pgPsiInit fd io.sensors.psiNow := by
  rw [daemonPrepare] at h
  split at h
  · exact absurd h (by simp)
  simp only at h
  split at h
  · exact absurd h (by simp)
  split at h
  · exact absurd h (by simp)
  split at h
  · exact absurd h (by simp)
  have hcaches := initSysfsCaches_frame
    { d with kern := (pgLockfileInit d.kern io.lock).1, ctx.lockFd := (pgLockfileInit d.kern io.lock).2 }
    io.caches
  generalize initSysfsCaches _ io.caches = mapped at h hcaches
  obtain ⟨d₁, n⟩ := mapped
  simp only at h hcaches
  generalize hsense : initSensorsAndTriggers _ io.sensors = sensed at h
  obtain ⟨d₂, ret⟩ := sensed
  simp only at h
  split at h
  · exact absurd h (by simp)
  next hret =>
  rw [not_not] at hret
  rw [hret] at hsense
  obtain ⟨hframe, hpsi⟩ := initSensors_frame hsense
  cases h
  have hmap : BootFrame d d₁ := by
    refine BootFrame.trans ?_ hcaches
    exact ⟨rfl, rfl, rfl, rfl, rfl⟩
  have hready : BootFrame d d₂ := by
    refine hmap.trans (BootFrame.trans ?_ hframe)
    exact ⟨rfl, rfl, rfl, rfl, rfl⟩
  refine ⟨hready.trans ?_, hpsi⟩
  exact ⟨rfl, rfl, rfl, rfl, rfl⟩

end Pgov
