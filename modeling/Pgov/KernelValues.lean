import Pgov.GovernorRanges

namespace Pgov

open FixedWidth FdTable Runs

def Sink.Band (lim : CpuLim) : Sink → ℕ → Prop
  | .schedLat => InBand lim.minLat lim.maxLat
  | .schedGran => InBand lim.minGran lim.maxGran
  | .schedWake => InBand lim.minWake lim.maxWake
  | .schedMig => InBand lim.minMig lim.maxMig
  | .schedWalt => fun v => 10 ≤ v ∧ v ≤ 40
  | .schedUcl => fun v => v ≤ 1024

def MappingUpdates.get (u : MappingUpdates) : Sink → UpdateCall
  | .schedLat => u.lat
  | .schedGran => u.gran
  | .schedWake => u.wake
  | .schedMig => u.mig
  | .schedWalt => u.walt
  | .schedUcl => u.ucl

structure MappingCall.InDomain (call : MappingCall) : Prop where
  demand : DemandBounds ⟨call.thScl, call.lDem, call.pEff⟩
  batLvl : call.batLvl ∈ Set.Icc 0 (intToQ16 100)

section Mapping

variable {c : CpuCfg} {l : CpuLim} {ctx : Channels} {i : Sink}

theorem applyMapping_get (c : CpuCfg) (l : CpuLim) (ctx : Channels) (call : MappingCall)
    (i : Sink) : (applyMapping c l ctx call).get i =
      (ctx.get i).update ((mappingUpdates c l ctx call).get i) := by
  cases i <;> rfl

theorem mappingUpdates_band (hl : l.Calibrated) (hact : (ctx.get i).cache.active = true)
    (call : MappingCall) : i.Band l ((mappingUpdates c l ctx call).get i).value := by
  cases i with
  | schedLat => exact mapValues_lat hl hact call
  | schedGran => exact mapValues_gran hl hact call
  | schedWake => exact mapValues_wake (c := c) hl hact call
  | schedMig => exact mapValues_mig (c := c) hl hact call
  | schedWalt => exact mapValues_walt (c := c) hl hact call
  | schedUcl => exact mapValues_ucl hl hact call

theorem Sink.Band.lt {v : ℕ} (hl : l.Calibrated) (h : i.Band l v) : v < 2 ^ 40 := by
  have hquanta {lo hi : ℤ} (hhi : hi ≤ 1638400) (hv : InBand lo hi v) : v < 2 ^ 40 := by
    have hupper := hv.upper
    omega
  cases i with
  | schedLat => exact hquanta hl.maxLat_le h
  | schedGran => exact hquanta (hl.maxGran_le.trans (by norm_num)) h
  | schedWake => exact hquanta (hl.maxWake_le.trans (by norm_num)) h
  | schedMig => exact hquanta (hl.maxMig_le.trans (by norm_num)) h
  | schedWalt => exact h.2.trans_lt (by norm_num)
  | schedUcl => exact lt_of_le_of_lt h (by norm_num)

/-- The channel is still mapped as it was, and its node holds what it held then or the last value
that was written, which the band allows. -/
structure Channel.Kept (c : Channel) (band : ℕ → Prop) (start : Channel) : Prop where
  active : c.cache.active = start.cache.active
  fd_eq : c.cache.fd = start.cache.fd
  base_eq : c.cache.base = start.cache.base
  hasBase_eq : c.cache.hasBase = start.cache.hasBase
  value : c.cache.last = uint64Max ∧ c.node = start.node ∨
    start.cache.active = true ∧ band c.cache.last ∧ c.node = c.cache.last

variable {band : ℕ → Prop} {start ch : Channel}

theorem Channel.Kept.update (h : ch.Kept band start)
    (hfd : start.cache.active = true → 0 ≤ start.cache.fd) {call : UpdateCall}
    (hv : start.cache.active = true → band call.value ∧ call.value < 2 ^ 64) :
    (ch.update call).Kept band start := by
  cases hact : start.cache.active with
  | false =>
    rwa [update_unmapped (h.active.trans hact)]
  | true =>
    obtain ⟨hband, hlt⟩ := hv hact
    rcases update_cases (h.active.trans hact) (h.fd_eq.symm ▸ hfd hact) hlt with
      ⟨-, he⟩ | ⟨-, he⟩ | ⟨-, -, he⟩ | ⟨-, -, he⟩ <;> rw [he]
    · exact h
    · exact h
    · exact ⟨h.active, h.fd_eq, h.base_eq, h.hasBase_eq, Or.inr ⟨hact, hband, rfl⟩⟩
    · exact ⟨h.active, h.fd_eq, h.base_eq, h.hasBase_eq, h.value⟩

theorem Channel.Kept.mirrors (h : ch.Kept band start) (hact : start.cache.active = true)
    (hband : ∀ v, band v → v < 2 ^ 40) :
    ch.Mirrors start.node start.cache.fd start.cache.base start.cache.hasBase := by
  refine ⟨h.active.trans hact, h.fd_eq, h.base_eq, h.hasBase_eq, ?_⟩
  rcases h.value with hfresh | ⟨-, hb, hnode⟩
  · exact Or.inl hfresh
  · exact Or.inr ⟨hband _ hb, hnode⟩

end Mapping

section Reactor

variable {p : Policy} {d : Daemon}

def mappingCall (d : Daemon) (io : TickIo) (psi : PsiTrend) (dem : Demand) : MappingCall :=
  { batLvl := d.ctx.batLvl, avg300 := psi.avg300, vel := psi.vel, thScl := dem.thScl,
    lDem := dem.lDem, pEff := dem.pEff, latIo := io.latIo, granIo := io.granIo,
    wakeIo := io.wakeIo, migIo := io.migIo, waltIo := io.waltIo, uclIo := io.uclIo }

theorem mapChannels_channels (p : Policy) (d : Daemon) (io : TickIo) (psi : PsiTrend)
    (dem : Demand) : (mapChannels p d io psi dem).ctx.channels =
      applyMapping p.cpu p.lim d.ctx.channels (mappingCall d io psi dem) := rfl

theorem govern_channels (h : GovRange d.ctx) (p : Policy) (io : TickIo) (psi : PsiTrend) :
    (govern p d io psi).ctx.channels = d.ctx.channels ∨
      ∃ call : MappingCall, call.InDomain ∧
        (govern p d io psi).ctx.channels = applyMapping p.cpu p.lim d.ctx.channels call := by
  obtain ⟨hrange, hdem⟩ := h.demand p io psi
  have hkeep : (calcDemand p d io psi).1.ctx.channels = d.ctx.channels := by
    rw [calcDemand_eq]
    have hbat : (pollBatteryMetrics d io).ctx.channels = d.ctx.channels := by
      rw [pollBatteryMetrics]
      split
      · rfl
      simp only
      split
      · obtain ⟨kern, fd, heq⟩ := armTrigger_eq { d with ctx := { d.ctx with
          batLvl := (pgSensorReadBatCap d.ctx.batCapSensor io.batCap).2
          batTemp := (pgSensorReadBatTemp d.ctx.batTempSensor io.batTemp).2
          lastBat := io.now } } io.arm
        rw [heq]
      · rfl
    refine Eq.trans ?_ hbat
    simp only [pollMetrics, pollThermalMetrics]
    split
    · rfl
    generalize pollCpuTemp _ io.cpuTemp = polled
    obtain ⟨cpuTemp, tempFails⟩ := polled
    cases cpuTemp <;> rfl
  unfold govern
  generalize calcDemand p d io psi = demand at hrange hdem hkeep
  obtain ⟨d₁, dem⟩ := demand
  obtain ⟨pollState, wake, hgate⟩ := govGate_eq p d₁ io psi dem.pEff
  simp only at hkeep ⊢
  rw [hgate]
  split_ifs
  · exact Or.inl hkeep
  · refine Or.inr ⟨mappingCall d₁ io psi dem, ⟨hdem, hrange.batLvl⟩, ?_⟩
    rw [← hkeep]
    exact mapChannels_channels p _ io psi dem

def MapsFrom (p : Policy) (start : Channels) (d : Daemon) : Prop :=
  ∃ calls : List MappingCall, (∀ call ∈ calls, call.InDomain) ∧
    d.ctx.channels = run (applyMapping p.cpu p.lim) start calls

theorem mapsFrom_invariant (p : Policy) (start : Channels) :
    TickInvariant p (fun _ => True) fun d => GovRange d.ctx ∧ MapsFrom p start d := by
  have hsame {d d' : Daemon} (h : MapsFrom p start d) (hs : Ungoverned d d') : MapsFrom p start d' := by
    obtain ⟨calls, hcalls, heq⟩ := h
    exact ⟨calls, hcalls, hs.channels.trans heq⟩
  have hrange := govRange_invariant p
  constructor
  · intro d d' hloop h
    exact ⟨hrange.loop d d' hloop h.1, hsame h.2 hloop.ungoverned⟩
  · intro d io hio h
    refine ⟨hrange.tick d io hio h.1, ?_⟩
    rcases tick_governs p d io with hidle | ⟨d₂, psi, wake, hs, -, heq⟩
    · exact hsame h.2 hidle
    · obtain ⟨calls, hcalls, hrun⟩ := hsame h.2 hs
      have hgov := govern_channels (h.1.same hs) p io psi
      rw [heq]
      rcases hgov with hkeep | ⟨call, hcall, hmap⟩
      · exact ⟨calls, hcalls, hkeep.trans hrun⟩
      · refine ⟨calls ++ [call], ?_, ?_⟩
        · intro x hx
          rcases List.mem_append.mp hx with hx | hx
          · exact hcalls x hx
          · rw [List.mem_singleton.mp hx]
            exact hcall
        · rw [run_append, ← hrun]
          exact hmap

theorem kept_run {l : CpuLim} (hl : l.Calibrated) (c : CpuCfg) {start : Channels}
    (hfd : ∀ i, (start.get i).cache.active = true → 0 ≤ (start.get i).cache.fd)
    (hfresh : ∀ i, (start.get i).cache.last = uint64Max) (calls : List MappingCall) (i : Sink) :
    ((run (applyMapping c l) start calls).get i).Kept (i.Band l) (start.get i) := by
  have hstep (ctx : Channels) (call : MappingCall)
      (h : ∀ i, (ctx.get i).Kept (i.Band l) (start.get i)) (_ : True) :
      ∀ i, ((applyMapping c l ctx call).get i).Kept (i.Band l) (start.get i) := by
    intro i
    rw [applyMapping_get]
    apply (h i).update (hfd i)
    intro hact
    have hband := mappingUpdates_band (c := c) hl ((h i).active.trans hact) call
    exact ⟨hband, (hband.lt hl).trans (by norm_num)⟩
  have hinit (i : Sink) : (start.get i).Kept (i.Band l) (start.get i) :=
    ⟨rfl, rfl, rfl, rfl, Or.inl ⟨hfresh i, rfl⟩⟩
  exact run_invariant hstep hinit (along_of_forall (fun _ _ => trivial) start calls) i

end Reactor

section Mapped

theorem mapped_channel (d : Daemon) (io : BootIo) (i : Sink) :
    ∃ kern, (daemonMapped d io).1.ctx.channels.get i = (sysfsCacheInit kern (io.caches i)).2.1 := by
  have hfold (l : List Sink) (hl : l.Nodup) (s : Daemon × ℤ) :
      (i ∈ l → ∃ kern, (l.foldl (initSysfsCache io.caches) s).1.ctx.channels.get i =
        (sysfsCacheInit kern (io.caches i)).2.1) ∧
      (i ∉ l → (l.foldl (initSysfsCache io.caches) s).1.ctx.channels.get i =
        s.1.ctx.channels.get i) := by
    induction l generalizing s with
    | nil => exact ⟨fun h => absurd h (by simp), fun _ => rfl⟩
    | cons j l ih =>
      obtain ⟨hj, hl⟩ := List.nodup_cons.mp hl
      obtain ⟨hin, hout⟩ := ih hl (initSysfsCache io.caches s j)
      have hget : (initSysfsCache io.caches s j).1.ctx.channels.get i =
          if i = j then (sysfsCacheInit s.1.kern (io.caches j)).2.1 else s.1.ctx.channels.get i :=
        Channels.get_set _ _ _ _
      rw [List.foldl_cons, List.mem_cons, not_or]
      constructor
      · rintro (rfl | hi)
        · exact ⟨s.1.kern, by rw [hout hj, hget, if_pos rfl]⟩
        · exact hin hi
      · rintro ⟨hne, hi⟩
        rw [hout hi, hget, if_neg hne]
  exact (hfold sinks (by decide) _).1 (by cases i <;> decide)

theorem sysfsCacheInit_channel (kern : Kernel) (io : ChannelIo) :
    (sysfsCacheInit kern io).2.1 =
      ⟨(pgSysfsCacheInit (io.paths.map (CandidateIo.at kern.fresh))).1, io.node⟩ := by
  unfold sysfsCacheInit
  simp only
  split <;> rfl

theorem mapped_fresh (d : Daemon) (io : BootIo) (i : Sink) :
    ((daemonMapped d io).1.ctx.channels.get i).cache.last = uint64Max ∧
      ((daemonMapped d io).1.ctx.channels.get i).node = (io.caches i).node ∧
      (((daemonMapped d io).1.ctx.channels.get i).cache.active = true →
        0 ≤ ((daemonMapped d io).1.ctx.channels.get i).cache.fd) := by
  obtain ⟨kern, heq⟩ := mapped_channel d io i
  rw [heq, sysfsCacheInit_channel]
  obtain ⟨hlast, -, hfd⟩ := cacheInit_fresh ((io.caches i).paths.map (CandidateIo.at kern.fresh))
  exact ⟨hlast, rfl, hfd⟩

end Mapped

section Daemon

variable {static : PgContext} {inherited : Finset ℤ} {io : BootIo} {d : Daemon}

theorem prepare_mapped (h : daemonPrepare (daemonStart static inherited) io = .ok d) :
    d.ctx.channels = (daemonMapped (daemonStart static inherited) io).1.ctx.channels :=
  (prepare_bootTo h).channels

theorem reactor_maps (hstatic : ZeroedStatic static)
    (hboot : daemonPrepare (daemonStart static inherited) io = .ok d) (waits : List WaitOut) :
    MapsFrom io.policy d.ctx.channels (reactorRun io.policy d io.setup waits) := by
  have hrange := govRange_boot hstatic hboot
  exact ((mapsFrom_invariant io.policy d.ctx.channels).reactor
    (fun _ fd => ⟨hrange.setup fd, [], by simp, rfl⟩) fun out _ => out.ticks_any).2

theorem reactor_kept (hstatic : ZeroedStatic static)
    (hboot : daemonPrepare (daemonStart static inherited) io = .ok d) (waits : List WaitOut)
    (i : Sink) : ((reactorRun io.policy d io.setup waits).ctx.channels.get i).Kept
      (i.Band (pgTuneLimits io.limits)) (d.ctx.channels.get i) := by
  obtain ⟨calls, -, heq⟩ := reactor_maps hstatic hboot waits
  rw [heq]
  apply kept_run (tuneLimits_calibrated io.limits)
  · intro j
    rw [prepare_mapped hboot]
    exact (mapped_fresh _ io j).2.2
  · intro j
    rw [prepare_mapped hboot]
    exact (mapped_fresh _ io j).1

/-- Between its start and its restoring of the nodes the daemon leaves in each node what it held at
boot or a value its calibration allows, and knows which. -/
theorem kernel_values (hstatic : ZeroedStatic static)
    (hboot : daemonPrepare (daemonStart static inherited) io = .ok d) (waits : List WaitOut)
    (i : Sink) :
    let c := (reactorRun io.policy d io.setup waits).ctx.channels.get i
    c.cache.last = uint64Max ∧ c.node = (io.caches i).node ∨
      i.Band (pgTuneLimits io.limits) c.cache.last ∧ c.node = c.cache.last := by
  have hkept := reactor_kept hstatic hboot waits i
  have hnode : (d.ctx.channels.get i).node = (io.caches i).node := by
    rw [prepare_mapped hboot]
    exact (mapped_fresh _ io i).2.1
  rcases hkept.value with ⟨hlast, hn⟩ | ⟨-, hband, hn⟩
  · exact Or.inl ⟨hlast, hn.trans hnode⟩
  · exact Or.inr ⟨hband, hn⟩

end Daemon

theorem kernel_values_smooth : ∃ d,
    daemonPrepare (daemonStart idleContext {0, 1, 2}) smoothBoot = .ok d ∧
      let c := (reactorRun smoothBoot.policy d smoothBoot.setup governedTicks).ctx.channels.schedLat
      c.node = 16056320 ∧
        (c.cache.last = uint64Max ∧ c.node = 0 ∨
          Sink.Band (pgTuneLimits bareDevice) .schedLat c.cache.last ∧ c.node = c.cache.last) := by
  obtain ⟨d, hboot, hgoverned⟩ := smoothBoot_governed
  exact ⟨d, hboot, (Prod.mk.inj hgoverned).1,
    kernel_values idleContext_zeroed hboot governedTicks .schedLat⟩

end Pgov
