import Pgov.ReactorRuns

namespace Pgov

open FixedWidth FdTable Runs

structure SensorFrame (d d' : Daemon) : Prop where
  channels : d'.ctx.channels = d.ctx.channels
  loadState : d'.ctx.loadState = d.ctx.loadState
  cachedThScl : d'.ctx.cachedThScl = d.ctx.cachedThScl
  psiFails : d'.ctx.psiFails = d.ctx.psiFails
  tempFails : d'.ctx.tempFails = d.ctx.tempFails
  remapDue : d'.ctx.remapDue = d.ctx.remapDue
  epollFd : d'.ctx.epollFd = d.ctx.epollFd
  dormant : d'.ctx.dormant = d.ctx.dormant

section Boot

variable {d d' d'' : Daemon}

theorem SensorFrame.trans (h : SensorFrame d d') (h' : SensorFrame d' d'') : SensorFrame d d'' :=
  ⟨h'.channels.trans h.channels, h'.loadState.trans h.loadState, h'.cachedThScl.trans h.cachedThScl,
    h'.psiFails.trans h.psiFails, h'.tempFails.trans h.tempFails, h'.remapDue.trans h.remapDue,
    h'.epollFd.trans h.epollFd, h'.dormant.trans h.dormant⟩

theorem initTrigger_frame (d : Daemon) (io : ArmIo) : SensorFrame d (initTrigger d io) := by
  rw [initTrigger]
  split
  · exact ⟨rfl, rfl, rfl, rfl, rfl, rfl, rfl, rfl⟩
  · exact ⟨rfl, rfl, rfl, rfl, rfl, rfl, rfl, rfl⟩

theorem initPanels_frame (d : Daemon) (panels : List (Option ℕ+)) :
    SensorFrame d (panels.foldl pgSensorInitBl d) ∧
      (panels.foldl pgSensorInitBl d).ctx.trgFd = d.ctx.trgFd := by
  induction panels generalizing d with
  | nil => exact ⟨⟨rfl, rfl, rfl, rfl, rfl, rfl, rfl, rfl⟩, rfl⟩
  | cons opens panels ih =>
    have hstep : SensorFrame d (pgSensorInitBl d opens) ∧
        (pgSensorInitBl d opens).ctx.trgFd = d.ctx.trgFd := by
      unfold pgSensorInitBl
      split
      · exact ⟨⟨rfl, rfl, rfl, rfl, rfl, rfl, rfl, rfl⟩, rfl⟩
      split
      · exact ⟨⟨rfl, rfl, rfl, rfl, rfl, rfl, rfl, rfl⟩, rfl⟩
      · exact ⟨⟨rfl, rfl, rfl, rfl, rfl, rfl, rfl, rfl⟩, rfl⟩
    obtain ⟨hframe, htrg⟩ := ih (pgSensorInitBl d opens)
    exact ⟨hstep.1.trans hframe, htrg.trans hstep.2⟩

def initTempSensors (d : Daemon) (io : SensorsIo) : Daemon :=
  pgSensorInitBatCap (pgSensorInitBatTemp
    (pgSensorInitCpuTemp { d with kern := pgScanThermalZone d.kern io.thermalZone } io.cpuTemp)
    io.batTemp) io.batCap

theorem initTempSensors_frame (d : Daemon) (io : SensorsIo) :
    SensorFrame d (initTempSensors d io) ∧ (initTempSensors d io).ctx.trgFd = d.ctx.trgFd := by
  cases hpath : io.cpuTemp with
  | none =>
    rw [initTempSensors, hpath]
    exact ⟨⟨rfl, rfl, rfl, rfl, rfl, rfl, rfl, rfl⟩, rfl⟩
  | some opens =>
    rw [initTempSensors, hpath]
    exact ⟨⟨rfl, rfl, rfl, rfl, rfl, rfl, rfl, rfl⟩, rfl⟩

theorem initSensors_sensorFrame (d : Daemon) (io : SensorsIo) :
    SensorFrame d (initSensorsAndTriggers d io).1 ∧
      ((initSensorsAndTriggers d io).2 = 0 → (initSensorsAndTriggers d io).1.ctx.trgFd =
        (initTrigger (initTempSensors d io) io.trigger).ctx.trgFd) := by
  have hstart := (initTempSensors_frame d io).1.trans (initTrigger_frame _ io.trigger)
  rw [initSensorsAndTriggers, ← initTempSensors]
  generalize hready : initTrigger (initTempSensors d io) io.trigger = ready at hstart
  simp only
  split
  · exact ⟨hstart, fun _ => rfl⟩
  split
  · exact ⟨hstart.trans ⟨rfl, rfl, rfl, rfl, rfl, rfl, rfl, rfl⟩, fun _ => rfl⟩
  · refine ⟨hstart.trans (SensorFrame.trans ?_ (initPanels_frame _ io.panels).1), fun _ => ?_⟩
    · exact ⟨rfl, rfl, rfl, rfl, rfl, rfl, rfl, rfl⟩
    · exact (initPanels_frame _ io.panels).2

def daemonMapped (d : Daemon) (io : BootIo) : Daemon × ℤ :=
  let (kern, lockFd) := pgLockfileInit d.kern io.lock
  initSysfsCaches { d with kern, ctx.lockFd := lockFd } io.caches

/-- A boot that reaches the reactor has mapped its caches, and with none of them mapped it is
dormant. -/
structure BootTo (d : Daemon) (io : BootIo) (d' : Daemon) : Prop where
  channels : d'.ctx.channels = (daemonMapped d io).1.ctx.channels
  loadState : d'.ctx.loadState = d.ctx.loadState
  cachedThScl : d'.ctx.cachedThScl = d.ctx.cachedThScl
  psiFails : d'.ctx.psiFails = d.ctx.psiFails
  tempFails : d'.ctx.tempFails = d.ctx.tempFails
  remapDue : d'.ctx.remapDue = d.ctx.remapDue
  epollFd : d'.ctx.epollFd = d.ctx.epollFd
  dormant : d'.ctx.dormant = if (daemonMapped d io).2 = 0 then true else d.ctx.dormant
  batLvl : ∃ sensor, d'.ctx.batLvl = (pgSensorReadBatCap sensor io.batCap).2
  batTemp : ∃ sensor, d'.ctx.batTemp = (pgSensorReadBatTemp sensor io.batTemp).2
  trgFd : d'.ctx.dormant = true → d.ctx.trgFd < 0 → d'.ctx.trgFd < 0

theorem initSysfsCaches_ctx (d : Daemon) (io : Sink → ChannelIo) :
    (initSysfsCaches d io).1.ctx =
      { d.ctx with channels := (initSysfsCaches d io).1.ctx.channels } := by
  have hfold (l : List Sink) (s : Daemon × ℤ) : (l.foldl (initSysfsCache io) s).1.ctx =
      { s.1.ctx with channels := (l.foldl (initSysfsCache io) s).1.ctx.channels } := by
    induction l generalizing s with
    | nil => rfl
    | cons i l ih => exact ih (initSysfsCache io s i)
  exact hfold sinks (d, 0)

theorem prepare_bootTo {io : BootIo} (h : daemonPrepare d io = .ok d') : BootTo d io d' := by
  rw [daemonPrepare] at h
  split at h
  · exact absurd h (by simp)
  simp only at h
  split at h
  · exact absurd h (by simp)
  split at h
  · exact absurd h (by simp)
  split at h
  · exact absurd h (by simp)
  have hctx := initSysfsCaches_ctx { d with
    kern := (pgLockfileInit d.kern io.lock).1, ctx.lockFd := (pgLockfileInit d.kern io.lock).2 }
    io.caches
  have hmapped : daemonMapped d io = initSysfsCaches { d with
    kern := (pgLockfileInit d.kern io.lock).1, ctx.lockFd := (pgLockfileInit d.kern io.lock).2 }
    io.caches := rfl
  generalize initSysfsCaches _ io.caches = mapped at h hctx hmapped
  obtain ⟨d₁, n⟩ := mapped
  simp only at h hctx
  generalize hsense : initSensorsAndTriggers _ io.sensors = sensed at h
  obtain ⟨d₂, ret⟩ := sensed
  simp only at h
  split at h
  · exact absurd h (by simp)
  next hret =>
  rw [not_not] at hret
  rw [hret] at hsense
  have hinit := hsense ▸ initSensors_sensorFrame _ io.sensors
  obtain ⟨hframe, htrg⟩ := hinit
  have htrg := htrg rfl
  cases h
  have hload : d₁.ctx.loadState = d.ctx.loadState := by rw [hctx]
  have hscl : d₁.ctx.cachedThScl = d.ctx.cachedThScl := by rw [hctx]
  have hpsi : d₁.ctx.psiFails = d.ctx.psiFails := by rw [hctx]
  have htemp : d₁.ctx.tempFails = d.ctx.tempFails := by rw [hctx]
  have hremap : d₁.ctx.remapDue = d.ctx.remapDue := by rw [hctx]
  have hepoll : d₁.ctx.epollFd = d.ctx.epollFd := by rw [hctx]
  have hdorm : d₁.ctx.dormant = d.ctx.dormant := by rw [hctx]
  have htrgFd : d₁.ctx.trgFd = d.ctx.trgFd := by rw [hctx]
  refine ⟨?_, hframe.loadState.trans hload, hframe.cachedThScl.trans hscl,
    hframe.psiFails.trans hpsi, hframe.tempFails.trans htemp, hframe.remapDue.trans hremap,
    hframe.epollFd.trans hepoll, ?_, ⟨_, rfl⟩, ⟨_, rfl⟩, ?_⟩
  · rw [hmapped]
    exact hframe.channels
  · rw [hmapped]
    exact hframe.dormant.trans (by simp only [hdorm])
  · intro hdormant hneg
    change d₂.ctx.dormant = true at hdormant
    change d₂.ctx.trgFd < 0
    rw [hframe.dormant] at hdormant
    rw [htrg, initTrigger, if_pos, (initTempSensors_frame _ io.sensors).2]
    · exact htrgFd.trans_lt hneg
    · exact (initTempSensors_frame _ io.sensors).1.dormant.trans hdormant

def bootedDaemon : Except (Daemon × ℤ) Daemon → Daemon
  | .error failed => failed.1
  | .ok d => d

theorem prepare_channels (d : Daemon) {io : BootIo} (hpriv : io.privileged = true)
    (hlock : 0 ≤ (pgLockfileInit d.kern io.lock).2) (hbooted : io.booted = true) :
    (bootedDaemon (daemonPrepare d io)).ctx.channels = (daemonMapped d io).1.ctx.channels := by
  have hsensed (ready : Daemon) (arm : Daemon → Daemon)
      (harm : ∀ d, (arm d).ctx.channels = d.ctx.channels) :
      (bootedDaemon (if (initSensorsAndTriggers ready io.sensors).2 ≠ 0 then
        .error (initSensorsAndTriggers ready io.sensors)
      else .ok (arm (initSensorsAndTriggers ready io.sensors).1))).ctx.channels =
        ready.ctx.channels := by
    have hframe := (initSensors_sensorFrame ready io.sensors).1.channels
    split
    · exact hframe
    · exact (harm _).trans hframe
  rw [daemonPrepare, if_neg (by simp [hpriv])]
  simp only
  rw [if_neg (by omega), if_neg (by simp [hbooted])]
  split
  · rfl
  · exact hsensed _ (fun d => { d with kern := pgOptInit d.kern io.opt, ctx := armContext d.ctx io })
      fun _ => rfl

end Boot

end Pgov
