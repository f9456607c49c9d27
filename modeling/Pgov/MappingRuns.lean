import Pgov.KernelValues

namespace Pgov

open FixedWidth Runs

/-- The demand the tunables were last mapped from is the present one, or so close to it, with the
demand so slow, that it is not worth another mapping. -/
def Tracked (cfg : CpuCfg) (s : LoadState) : Prop :=
  s.psiRef = s.psiVal ∨ |s.psiVal - s.psiRef| ≤ cfg.transDiff ∧ |s.rate| ≤ cfg.transRate

def ThermalMapped (t : List GovEvent) : Prop := Followed (· = .thermal) (· = .sysfs) t

structure MappingInv (p : Policy) (d : Daemon) : Prop where
  range : GovRange d.ctx
  tracked : Tracked p.cpu d.ctx.loadState
  mapped : d.ctx.remapDue = false
  trace : ThermalMapped d.trace

section Steps

variable {p : Policy} {d d' : Daemon} {io : TickIo} {psi : PsiTrend}

theorem thermalMapped_quiet {ev : List GovEvent} (h : ∀ e ∈ ev, e ≠ .thermal) : ThermalMapped ev :=
  followed_of_forall h

theorem thermalMapped_pair : ThermalMapped [.thermal, .sysfs] := followed_pair rfl (by simp)

theorem fits32_zero : Fits 32 0 := by decide

theorem demandMove_rate (state : LoadState) (f c dt : ℤ) : Fits 32 (demandMove state f c dt).rate := by
  have hdiv (a b : ℤ) : Fits 32 (q16Div a b) := by
    rw [q16Div]
    split
    · split <;> decide
    · exact i32_fits _
  simp only [demandMove]
  split
  · exact fits32_zero
  split
  · exact fits32_zero
  · exact hdiv _ _

theorem loadDemand_rate (state : LoadState) (input : DemandInput) (cfg : CpuCfg) :
    Fits 32 (pgCpuCalcLoadDemand state input cfg).1.rate := by
  rw [pgCpuCalcLoadDemand]
  split
  · exact fits32_zero
  · exact demandMove_rate _ _ _ _

theorem cpuTrans_false {state : LoadState} {cfg : CpuCfg}
    (hval : state.psiVal ∈ Set.Icc 0 (intToQ16 500)) (href : state.psiRef ∈ Set.Icc 0 (intToQ16 500))
    (hrate : Fits 32 state.rate) (hcfg : cfg.transRate < 2147483647)
    (h : pgCpuTrans state cfg = false) :
    |state.psiVal - state.psiRef| ≤ cfg.transDiff ∧ |state.rate| ≤ cfg.transRate := by
  have h500 : intToQ16 500 = 32768000 := by decide
  rw [h500] at hval href
  obtain ⟨hv0, hv1⟩ := hval
  obtain ⟨hr0, hr1⟩ := href
  rw [pgCpuTrans, Bool.or_eq_false_iff, decide_eq_false_iff_not, decide_eq_false_iff_not, not_lt,
    not_lt, i32_eq (by omega) (by omega), absQ16_eq hrate,
    absQ16_eq (fits32_iff.mpr ⟨by omega, by omega⟩)] at h
  have habs : |state.psiVal - state.psiRef| ≤ 32768000 := abs_le.mpr ⟨by omega, by omega⟩
  omega

theorem pollBattery_remap (d : Daemon) (io : TickIo) :
    (pollBatteryMetrics d io).ctx.remapDue = d.ctx.remapDue ∧
      (pollBatteryMetrics d io).trace = d.trace := by
  rw [pollBatteryMetrics]
  split
  · exact ⟨rfl, rfl⟩
  simp only
  split
  · obtain ⟨kern, fd, heq⟩ := armTrigger_eq { d with ctx := { d.ctx with
      batLvl := (pgSensorReadBatCap d.ctx.batCapSensor io.batCap).2
      batTemp := (pgSensorReadBatTemp d.ctx.batTempSensor io.batTemp).2
      lastBat := io.now } } io.arm
    rw [heq]
    exact ⟨rfl, rfl⟩
  · exact ⟨rfl, rfl⟩

theorem pollThermal_remap (p : Policy) (d : Daemon) (io : TickIo) :
    (pollThermalMetrics p d io).ctx.remapDue = d.ctx.remapDue ∧
        (pollThermalMetrics p d io).trace = d.trace ∨
      (pollThermalMetrics p d io).ctx.remapDue = true ∧
        ((pollThermalMetrics p d io).trace = d.trace ∨
          (pollThermalMetrics p d io).trace = d.trace ++ [.thermal]) := by
  rw [pollThermalMetrics]
  split
  · exact Or.inl ⟨rfl, rfl⟩
  generalize pollCpuTemp d.ctx io.cpuTemp = polled
  obtain ⟨cpuTemp, tempFails⟩ := polled
  cases cpuTemp with
  | none => exact Or.inr ⟨rfl, Or.inl rfl⟩
  | some cpuTemp => exact Or.inr ⟨rfl, Or.inr rfl⟩

theorem calcDemand_remap (p : Policy) (d : Daemon) (io : TickIo) (psi : PsiTrend) :
    (calcDemand p d io psi).1.trace = d.trace ∨
      (calcDemand p d io psi).1.ctx.remapDue = true ∧
        (calcDemand p d io psi).1.trace = d.trace ++ [.thermal] := by
  obtain ⟨-, htrace⟩ := pollBattery_remap d io
  rw [calcDemand_eq, pollMetrics]
  rcases pollThermal_remap p (pollBatteryMetrics d io) io with ⟨-, heq⟩ | ⟨hdue, heq | heq⟩
  · exact Or.inl (heq.trans htrace)
  · exact Or.inl (heq.trans htrace)
  · exact Or.inr ⟨hdue, heq.trans (by rw [htrace])⟩

theorem calcDemand_rate (p : Policy) (d : Daemon) (io : TickIo) (psi : PsiTrend) :
    Fits 32 (calcDemand p d io psi).1.ctx.loadState.rate := by
  rw [calcDemand_eq]
  exact loadDemand_rate _ _ _

theorem MappingInv.governed (h : MappingInv p d) (hcfg : p.cpu.transRate < 2147483647) (io : TickIo)
    (psi : PsiTrend) : MappingInv p (govern p d io psi) := by
  have hrange := h.range.govern p io psi
  have hdem := (h.range.demand p io psi).1
  have hrate := calcDemand_rate p d io psi
  have htrace := calcDemand_remap p d io psi
  unfold govern at hrange ⊢
  generalize calcDemand p d io psi = demand at hrange hdem hrate htrace
  obtain ⟨d₁, dem⟩ := demand
  obtain ⟨pollState, wake, hgate⟩ := govGate_eq p d₁ io psi dem.pEff
  simp only at hrange hdem hrate htrace ⊢
  rw [hgate] at hrange ⊢
  by_cases hstay : (!pgCpuTrans d₁.ctx.loadState p.cpu) = true ∧ (!d₁.ctx.remapDue) = true
  · rw [if_pos hstay] at hrange ⊢
    obtain ⟨htrans, hdue⟩ := hstay
    rw [Bool.not_eq_true'] at htrans hdue
    refine ⟨hrange, ?_, hdue, ?_⟩
    · exact Or.inr (cpuTrans_false hdem.psiVal hdem.psiRef hrate hcfg htrans)
    · rcases htrace with heq | ⟨hdue', -⟩
      · exact heq ▸ h.trace
      · exact absurd (hdue.symm.trans hdue') (by simp)
  · rw [if_neg hstay] at hrange ⊢
    refine ⟨hrange, Or.inl rfl, rfl, ?_⟩
    have hmap (d : Daemon) (dem : Demand) : (mapChannels p d io psi dem).trace = d.trace ++ [.sysfs] :=
      rfl
    simp only [hmap]
    rcases htrace with heq | ⟨-, heq⟩
    · rw [heq]
      exact h.trace.append (thermalMapped_quiet (by simp))
    · rw [heq, List.append_assoc]
      exact h.trace.append thermalMapped_pair

theorem MappingInv.same (h : MappingInv p d) (hs : Ungoverned d d') : MappingInv p d' := by
  obtain ⟨ev, hev, hquiet⟩ := hs.trace
  refine ⟨h.range.same hs, ?_, hs.remapDue.trans h.mapped, ?_⟩
  · rw [Tracked, hs.psiRef, hs.psiVal, hs.rate]
    exact h.tracked
  · rw [hev]
    apply h.trace.append (thermalMapped_quiet fun e he heq => ?_)
    have hwork := hquiet e he
    rw [heq] at hwork
    exact absurd hwork (by simp [GovEvent.works])

theorem mapping_invariant (hcfg : p.cpu.transRate < 2147483647) :
    TickInvariant p (fun _ => True) (MappingInv p) := by
  constructor
  · intro d d' hloop h
    exact h.same hloop.ungoverned
  · intro d io _ h
    rcases tick_governs p d io with hidle | ⟨d₂, psi, wake, hs, -, heq⟩
    · exact h.same hidle
    · rw [heq]
      exact ((h.same hs).governed hcfg io psi).same (.wake _ wake)

end Steps

theorem tuned_transRate (limits configs : Hardware) :
    (Policy.tuned limits configs).cpu.transRate < 2147483647 := by
  obtain ⟨-, hu⟩ := tuned_mem (floatToQ16 8 100) (floatToQ16 20 100) (calcTopoMetrics configs).rel
  exact hu.trans_lt (by decide)

section Daemon

variable {static : PgContext} {inherited : Finset ℤ} {io : BootIo} {d : Daemon}

/-- Between two ticks the demand is never further from the one the tunables were mapped from, nor
faster, than the thresholds of the mapping allow, and every thermal step has been mapped. -/
theorem mapping_tracks (hstatic : ZeroedStatic static)
    (hboot : daemonPrepare (daemonStart static inherited) io = .ok d) (waits : List WaitOut) :
    Tracked io.policy.cpu (reactorRun io.policy d io.setup waits).ctx.loadState ∧
      (reactorRun io.policy d io.setup waits).ctx.remapDue = false ∧
      ThermalMapped (reactorRun io.policy d io.setup waits).trace := by
  have hto := prepare_bootTo hboot
  have hinit : MappingInv io.policy d := by
    refine ⟨govRange_boot hstatic hboot, Or.inl ?_, hto.remapDue.trans hstatic.remapDue, ?_⟩
    · rw [hto.loadState]
      exact hstatic.psiRef
    · rw [(prepare_frame hboot).1.trace]
      exact thermalMapped_quiet (by simp [daemonStart])
  have hrun : MappingInv io.policy (reactorRun io.policy d io.setup waits) := by
    apply (mapping_invariant (tuned_transRate io.limits io.configs)).reactor
    · exact fun _ fd => ⟨hinit.range.setup fd, hinit.tracked, hinit.mapped, hinit.trace⟩
    · exact fun out _ => out.ticks_any
  exact ⟨hrun.tracked, hrun.mapped, hrun.trace⟩

end Daemon

theorem mapping_tracks_smooth : ∃ d,
    daemonPrepare (daemonStart idleContext {0, 1, 2}) smoothBoot = .ok d ∧
      let d' := reactorRun smoothBoot.policy d smoothBoot.setup governedTicks
      d'.ctx.channels.schedLat.node = 16056320 ∧
        Tracked smoothBoot.policy.cpu d'.ctx.loadState ∧ ThermalMapped d'.trace := by
  obtain ⟨d, hboot, hgoverned⟩ := smoothBoot_governed
  obtain ⟨htracked, -, hmapped⟩ := mapping_tracks idleContext_zeroed hboot governedTicks
  exact ⟨d, hboot, (Prod.mk.inj hgoverned).1, htracked, hmapped⟩

end Pgov
