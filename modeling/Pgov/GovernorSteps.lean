import Pgov.Governor

namespace Pgov

open FixedWidth FdTable

variable {p : Policy} {d d' d'' : Daemon} {io : TickIo}

def GovEvent.works : GovEvent → Bool
  | .thermal => true
  | .sysfs => true
  | _ => false

structure Frame (d d' : Daemon) : Prop where
  psi : d'.ctx.psi = d.ctx.psi
  dispState : d'.ctx.dispState = d.ctx.dispState
  lastDispoff : d'.ctx.lastDispoff = d.ctx.lastDispoff
  psiFails : d'.ctx.psiFails = d.ctx.psiFails
  dormant : d'.ctx.dormant = d.ctx.dormant
  shutdownReq : d'.ctx.shutdownReq = d.ctx.shutdownReq
  trace : ∃ ev, d'.trace = d.trace ++ ev ∧ ∀ e ∈ ev, e.works = true

theorem Frame.of_trace_eq (hpsi : d'.ctx.psi = d.ctx.psi)
    (hdisp : d'.ctx.dispState = d.ctx.dispState) (hoff : d'.ctx.lastDispoff = d.ctx.lastDispoff)
    (hfails : d'.ctx.psiFails = d.ctx.psiFails) (hdormant : d'.ctx.dormant = d.ctx.dormant)
    (hreq : d'.ctx.shutdownReq = d.ctx.shutdownReq) (htrace : d'.trace = d.trace) : Frame d d' :=
  ⟨hpsi, hdisp, hoff, hfails, hdormant, hreq, [], by simp [htrace], by simp⟩

theorem Frame.refl (d : Daemon) : Frame d d := .of_trace_eq rfl rfl rfl rfl rfl rfl rfl

theorem Frame.trans (h : Frame d d') (h' : Frame d' d'') : Frame d d'' := by
  obtain ⟨ev, hev, hwork⟩ := h.trace
  obtain ⟨ev', hev', hwork'⟩ := h'.trace
  refine ⟨h'.psi.trans h.psi, h'.dispState.trans h.dispState, h'.lastDispoff.trans h.lastDispoff,
    h'.psiFails.trans h.psiFails, h'.dormant.trans h.dormant, h'.shutdownReq.trans h.shutdownReq,
    ev ++ ev', ?_, ?_⟩
  · rw [hev', hev, List.append_assoc]
  · intro e he
    rcases List.mem_append.mp he with he | he
    · exact hwork e he
    · exact hwork' e he

theorem armTrigger_eq (d : Daemon) (io : ArmIo) :
    ∃ kern fd, armTrigger d io = { d with kern, ctx.trgFd := fd } := by
  simp only [armTrigger]
  split
  · exact ⟨_, d.ctx.trgFd, rfl⟩
  split
  · exact ⟨_, _, rfl⟩
  · exact ⟨_, _, rfl⟩

theorem dropTrigger_eq (d : Daemon) (del : Option ℕ+) :
    ∃ kern fd, dropTrigger d del = { d with kern, ctx.trgFd := fd } := by
  rw [dropTrigger]
  split
  · exact ⟨_, _, rfl⟩
  · exact ⟨_, d.ctx.trgFd, rfl⟩

theorem recoverPsi_eq (d : Daemon) (reopen : Option ℕ+) :
    ∃ kern mon, recoverPsi d reopen = { d with kern, ctx.psi := mon } ∧
      (mon.fd < 0 ∨ mon.firstRun = true) := by
  cases reopen with
  | some errno => exact ⟨_, _, rfl, Or.inl (by simp)⟩
  | none => exact ⟨_, _, rfl, Or.inr rfl⟩

theorem armTrigger_frame (d : Daemon) (io : ArmIo) : Frame d (armTrigger d io) := by
  obtain ⟨kern, fd, heq⟩ := armTrigger_eq d io
  rw [heq]
  exact .of_trace_eq rfl rfl rfl rfl rfl rfl rfl

theorem readPsi_ok {mon : PsiMonitor} {trend : PsiTrend}
    (h : pgPsiRead d.ctx.psi io.psi io.now = (mon, .ok trend)) :
    readPsi d io =
      ({ d with
         ctx.psi := mon
         ctx.psiFails := 0
         trace := d.trace ++ [.psi d.ctx io.now io.psi] }, some trend) := by
  rw [readPsi, h]
  rfl

/-- A failed read backs off and recovers; what it leaves for the next read is a monitor without a
node or one that starts afresh. -/
theorem readPsi_error {mon : PsiMonitor} {err : ℤ}
    (h : pgPsiRead d.ctx.psi io.psi io.now = (mon, .error err)) :
    ∃ kern fd mon', (mon'.fd < 0 ∨ mon'.firstRun = true) ∧
      readPsi d io =
        ({ d with
           kern
           ctx.trgFd := fd
           ctx.psi := mon'
           ctx.psiFails := psiFailsNext d.ctx.psiFails
           ctx.nextWake := psiBackoff (psiFailsNext d.ctx.psiFails)
           trace := d.trace ++ [.psi d.ctx io.now io.psi] }, none) := by
  rw [readPsi, h]
  simp only
  generalize hfailed : Daemon.mk _ _ _ = failed
  obtain ⟨k₁, f₁, hdrop⟩ := dropTrigger_eq failed io.del
  obtain ⟨k₂, mon', hrecov, hfresh⟩ := recoverPsi_eq (dropTrigger failed io.del) io.reopen
  obtain ⟨k₃, f₃, harm⟩ := armTrigger_eq (recoverPsi (dropTrigger failed io.del) io.reopen) io.arm
  refine ⟨k₃, f₃, mon', hfresh, ?_⟩
  rw [harm, hrecov, hdrop, ← hfailed]
  rfl

theorem pollBattery_frame (d : Daemon) (io : TickIo) : Frame d (pollBatteryMetrics d io) := by
  rw [pollBatteryMetrics]
  split
  · exact Frame.refl d
  simp only
  split
  · apply Frame.trans _ (armTrigger_frame _ io.arm)
    exact .of_trace_eq rfl rfl rfl rfl rfl rfl rfl
  · exact .of_trace_eq rfl rfl rfl rfl rfl rfl rfl

theorem pollThermal_frame (p : Policy) (d : Daemon) (io : TickIo) :
    Frame d (pollThermalMetrics p d io) := by
  rw [pollThermalMetrics]
  split
  · exact Frame.refl d
  generalize pollCpuTemp d.ctx io.cpuTemp = polled
  obtain ⟨cpuTemp, tempFails⟩ := polled
  cases cpuTemp with
  | none => exact .of_trace_eq rfl rfl rfl rfl rfl rfl rfl
  | some cpuTemp => exact ⟨rfl, rfl, rfl, rfl, rfl, rfl, [.thermal], rfl, by simp [GovEvent.works]⟩

theorem calcDemand_frame (p : Policy) (d : Daemon) (io : TickIo) (psi : PsiTrend) :
    Frame d (calcDemand p d io psi).1 := by
  apply (pollBattery_frame d io).trans
  apply (pollThermal_frame p _ io).trans
  rw [calcDemand]
  generalize pgCpuUpdIntg _ _ _ = intg
  obtain ⟨loadState, integ, integDt⟩ := intg
  simp only
  generalize pgCpuCalcLoadDemand _ _ _ = moved
  obtain ⟨loadState, lDem⟩ := moved
  exact .of_trace_eq rfl rfl rfl rfl rfl rfl rfl

theorem govGate_frame (p : Policy) (d : Daemon) (io : TickIo) (psi : PsiTrend) (pEff : ℤ) :
    Frame d (govGate p d io psi pEff).1 := by
  unfold govGate
  generalize pgPollCalcNext _ _ _ _ _ = polled
  obtain ⟨pollState, nPoll⟩ := polled
  simp only
  split
  · exact .of_trace_eq rfl rfl rfl rfl rfl rfl rfl
  · exact .of_trace_eq rfl rfl rfl rfl rfl rfl rfl

theorem mapChannels_frame (p : Policy) (d : Daemon) (io : TickIo) (psi : PsiTrend)
    (dem : Demand) : Frame d (mapChannels p d io psi dem) :=
  ⟨rfl, rfl, rfl, rfl, rfl, rfl, [.sysfs], rfl, by simp [GovEvent.works]⟩

def govern (p : Policy) (d : Daemon) (io : TickIo) (psi : PsiTrend) : Daemon :=
  let (d, dem) := calcDemand p d io psi
  match govGate p d io psi dem.pEff with
  | (d, false) => d
  | (d, true) => mapChannels p d io psi dem

theorem govern_frame (p : Policy) (d : Daemon) (io : TickIo) (psi : PsiTrend) :
    Frame d (govern p d io psi) := by
  unfold govern
  have hdem := calcDemand_frame p d io psi
  generalize calcDemand p d io psi = demand at hdem
  obtain ⟨d₁, dem⟩ := demand
  have hgate := govGate_frame p d₁ io psi dem.pEff
  simp only
  split
  · next d₂ hgo =>
    rw [hgo] at hgate
    exact hdem.trans hgate
  · next d₂ hgo =>
    rw [hgo] at hgate
    exact (hdem.trans hgate).trans (mapChannels_frame p d₂ io psi dem)

theorem readPsi_frame (d : Daemon) (io : TickIo) :
    (readPsi d io).1.ctx.dispState = d.ctx.dispState ∧
      (readPsi d io).1.ctx.lastDispoff = d.ctx.lastDispoff ∧
      (readPsi d io).1.ctx.dormant = d.ctx.dormant ∧
      (readPsi d io).1.ctx.shutdownReq = d.ctx.shutdownReq ∧
      (readPsi d io).1.trace = d.trace ++ [.psi d.ctx io.now io.psi] := by
  cases hres : pgPsiRead d.ctx.psi io.psi io.now with
  | mk mon res =>
    cases res with
    | ok trend =>
      rw [readPsi_ok hres]
      exact ⟨rfl, rfl, rfl, rfl, rfl⟩
    | error err =>
      obtain ⟨kern, fd, mon', -, heq⟩ := readPsi_error hres
      rw [heq]
      exact ⟨rfl, rfl, rfl, rfl, rfl⟩

/-- What is left of a tick once the display has been looked at: nothing while it is suspended or
the governor dormant, else the read of the pressure and, if it succeeds, the governing. -/
inductive TickCase (p : Policy) (d : Daemon) (io : TickIo) : Prop
  | suspended (d₁ : Daemon) (hdisp : updateDisp (d.log (.tick io.now)) io = (d₁, true))
      (wake : ℤ) (heq : pgGovProcess p d io = { d₁ with ctx.nextWake := wake })
      (hwake : d.ctx.dormant = false → wake = adjWake io d₁.ctx.nextWake)
  | dormant (d₁ : Daemon) (hdisp : updateDisp (d.log (.tick io.now)) io = (d₁, false))
      (hdormant : d.ctx.dormant = true)
      (heq : pgGovProcess p d io = { d₁ with ctx.nextWake := pgMaxPollMs })
  | failed (d₁ d₂ : Daemon) (hdisp : updateDisp (d.log (.tick io.now)) io = (d₁, false))
      (hdormant : d.ctx.dormant = false) (hread : readPsi d₁ io = (d₂, none))
      (heq : pgGovProcess p d io = { d₂ with ctx.nextWake := adjWake io d₂.ctx.nextWake })
  | governed (d₁ d₂ : Daemon) (psi : PsiTrend)
      (hdisp : updateDisp (d.log (.tick io.now)) io = (d₁, false))
      (hdormant : d.ctx.dormant = false) (hread : readPsi d₁ io = (d₂, some psi))
      (heq : pgGovProcess p d io = { govern p d₂ io psi with
        ctx.nextWake := adjWake io (govern p d₂ io psi).ctx.nextWake })

theorem govProcess_cases (p : Policy) (d : Daemon) (io : TickIo) : TickCase p d io := by
  obtain ⟨d₁, suspended, hdisp⟩ : ∃ d₁ s, updateDisp (d.log (.tick io.now)) io = (d₁, s) :=
    ⟨_, _, rfl⟩
  cases hdormant : d.ctx.dormant with
  | true =>
    have heq : pgGovProcess p d io = dormantTick (d.log (.tick io.now)) io := if_pos hdormant
    rw [dormantTick, hdisp] at heq
    cases suspended with
    | true => exact .suspended d₁ hdisp d₁.ctx.nextWake heq fun h => absurd (hdormant.symm.trans h) (by simp)
    | false => exact .dormant d₁ hdisp hdormant heq
  | false =>
    have heq : pgGovProcess p d io = { execGovLogic p (d.log (.tick io.now)) io with
        ctx.nextWake := adjWake io (execGovLogic p (d.log (.tick io.now)) io).ctx.nextWake } :=
      if_neg (by simp [Daemon.log, hdormant])
    cases suspended with
    | true =>
      have hexec : execGovLogic p (d.log (.tick io.now)) io = d₁ := by rw [execGovLogic, hdisp]
      rw [hexec] at heq
      exact .suspended d₁ hdisp _ heq fun _ => rfl
    | false =>
      obtain ⟨d₂, res, hread⟩ : ∃ d₂ res, readPsi d₁ io = (d₂, res) := ⟨_, _, rfl⟩
      cases res with
      | none =>
        have hexec : execGovLogic p (d.log (.tick io.now)) io = d₂ := by
          rw [execGovLogic, hdisp]
          simp only [hread]
        rw [hexec] at heq
        exact .failed d₁ d₂ hdisp hdormant hread heq
      | some psi =>
        have hexec : execGovLogic p (d.log (.tick io.now)) io = govern p d₂ io psi := by
          rw [execGovLogic, hdisp]
          simp only [hread]
          rfl
        rw [hexec] at heq
        exact .governed d₁ d₂ psi hdisp hdormant hread heq

end Pgov
