import Pgov.DaemonInit
import Pgov.DisplayState

namespace Pgov

open FixedWidth FdTable FdTable.Table Runs

inductive FdSlot
  | psi
  | cpuTemp
  | batTemp
  | batCap
  | bl (i : ℕ)
  | sink (i : Sink)
  | epoll
  | sig
  | trg
  | lock
  deriving DecidableEq

def FdSlot.kind : FdSlot → FdKind
  | .epoll => .epoll
  | .sig => .signal
  | .trg => .trigger
  | _ => .file

def PgContext.slotFd (ctx : PgContext) : FdSlot → ℤ
  | .psi => ctx.psi.fd
  | .cpuTemp => ctx.cpuTempSensor.fd
  | .batTemp => ctx.batTempSensor.fd
  | .batCap => ctx.batCapSensor.fd
  | .bl i => ctx.blSensor.fd[i]?.getD (-1)
  | .sink i => (ctx.channels.get i).cache.fd
  | .epoll => ctx.epollFd
  | .sig => ctx.sigFd
  | .trg => ctx.trgFd
  | .lock => ctx.lockFd

/-- Exactly what the context holds is open. -/
def FdBooks (d : Daemon) : Prop := d.kern.Books FdSlot.kind fun s => heldFd (d.ctx.slotFd s)

section Books

variable {d d' : Daemon} {s : FdSlot}

theorem FdBooks.same (h : FdBooks d) (hkern : d'.kern = d.kern)
    (hslots : ∀ s, d'.ctx.slotFd s = d.ctx.slotFd s) : FdBooks d' := by
  rw [FdBooks, hkern]
  simp only [hslots]
  exact h

theorem FdBooks.opens (h : FdBooks d) (hfree : d.ctx.slotFd s < 0)
    (hkern : d'.kern = d.kern.openFd s.kind) (hself : d'.ctx.slotFd s = d.kern.fresh)
    (hother : ∀ s', s' ≠ s → d'.ctx.slotFd s' = d.ctx.slotFd s') : FdBooks d' := by
  have hput := h.put (heldFd_of_neg hfree)
  rw [FdBooks, hkern]
  convert hput using 1
  funext s'
  by_cases hs : s' = s
  · rw [hs, Function.update_self, hself, heldFd_of_nonneg d.kern.fresh_nonneg]
  · rw [Function.update_of_ne hs, hother s' hs]

theorem FdBooks.closes (h : FdBooks d) (hkern : d'.kern = d.kern.closeFd (d.ctx.slotFd s))
    (hself : d'.ctx.slotFd s < 0) (hother : ∀ s', s' ≠ s → d'.ctx.slotFd s' = d.ctx.slotFd s') :
    FdBooks d' := by
  have hclose := h.closeSlot (s := s) rfl
  rw [FdBooks, hkern]
  convert hclose using 1
  funext s'
  by_cases hs : s' = s
  · rw [hs, Function.update_self, heldFd_of_neg hself]
  · rw [Function.update_of_ne hs, hother s' hs]

theorem FdBooks.refused (h : FdBooks d) (hkern : d'.kern = d.kern) (hfree : d.ctx.slotFd s < 0)
    (hself : d'.ctx.slotFd s < 0) (hother : ∀ s', s' ≠ s → d'.ctx.slotFd s' = d.ctx.slotFd s') :
    FdBooks d' := by
  apply h.closes _ hself hother
  rw [hkern, closeFd, if_neg (not_le.mpr hfree)]

theorem FdBooks.mem_fds (h : FdBooks d) (s : FdSlot) (hfd : 0 ≤ d.ctx.slotFd s) :
    d.ctx.slotFd s ∈ d.kern.fds := h.mem_fds_iff.mpr ⟨s, heldFd_of_nonneg hfd⟩

end Books

structure FdInv (d : Daemon) : Prop where
  books : FdBooks d
  epoll : 0 ≤ d.ctx.epollFd
  watched : 0 ≤ d.ctx.trgFd → (d.ctx.epollFd, d.ctx.trgFd) ∈ d.kern.watched

section Ticks

variable {p : Policy} {d d' : Daemon} {io : TickIo}

theorem FdInv.same (h : FdInv d) (hkern : d'.kern = d.kern)
    (hslots : ∀ s, d'.ctx.slotFd s = d.ctx.slotFd s) : FdInv d' := by
  have hepoll := hslots .epoll
  have htrg := hslots .trg
  simp only [PgContext.slotFd] at hepoll htrg
  refine ⟨h.books.same hkern hslots, ?_, ?_⟩
  · rw [hepoll]
    exact h.epoll
  · rw [hkern, hepoll, htrg]
    exact h.watched

theorem psiOpenTrg_cases (kern : Kernel) (io : ArmIo) :
    (∃ ret < 0, pgPsiOpenTrg kern io = (kern, ret)) ∨
      pgPsiOpenTrg kern io = (kern.openFd .trigger, kern.fresh) := by
  rw [pgPsiOpenTrg]
  split
  · next errno _ => exact Or.inl ⟨-(errno : ℕ), by simp, rfl⟩
  split
  · next errno _ => exact Or.inl ⟨-(errno : ℕ), by simp, by rw [openFd_close]⟩
  · exact Or.inr rfl

theorem epollAddTrg_cases (kern : Kernel) (epollFd trgFd : ℤ) (add : Option ℕ+) :
    (∃ ret < 0, pgEpollAddTrg kern epollFd trgFd add = (kern, ret)) ∨
      pgEpollAddTrg kern epollFd trgFd add = (kern.watch epollFd trgFd, 0) := by
  unfold pgEpollAddTrg
  split
  · exact Or.inl ⟨-ebadf, by simp [ebadf], rfl⟩
  split
  · next errno => exact Or.inl ⟨-(errno : ℕ), by simp, rfl⟩
  · exact Or.inr rfl

theorem slotFd_trg {ctx : PgContext} {fd : ℤ} (s : FdSlot) (hs : s ≠ .trg) :
    ({ ctx with trgFd := fd } : PgContext).slotFd s = ctx.slotFd s := by
  cases s <;> first | rfl | exact absurd rfl hs

theorem slotFd_psi {ctx : PgContext} {mon : PsiMonitor} (s : FdSlot) (hs : s ≠ .psi) :
    ({ ctx with psi := mon } : PgContext).slotFd s = ctx.slotFd s := by
  cases s <;> first | rfl | exact absurd rfl hs

theorem FdInv.armTrigger (h : FdInv d) (htrg : d.ctx.trgFd < 0) (io : ArmIo) :
    FdInv (armTrigger d io) := by
  rw [Pgov.armTrigger]
  rcases psiOpenTrg_cases d.kern io with ⟨ret, hret, hopen⟩ | hopen <;> rw [hopen] <;> simp only
  · rw [if_pos hret]
    exact h
  have hfresh := d.kern.fresh_nonneg
  rw [if_neg (not_lt.mpr hfresh)]
  rcases epollAddTrg_cases (d.kern.openFd .trigger) d.ctx.epollFd d.kern.fresh io.add with
    ⟨ret, hret, hadd⟩ | hadd <;> rw [hadd] <;> simp only
  · rw [if_pos hret]
    simp only [pgPsiCloseTrg, closeFd, if_pos hfresh, openFd_close]
    refine ⟨h.books.refused (s := .trg) rfl htrg (by simp [PgContext.slotFd]) slotFd_trg, h.epoll, ?_⟩
    intro hneg
    exact absurd hneg (by simp)
  · rw [if_neg (lt_irrefl 0)]
    have hopened : FdBooks { d with kern := d.kern.openFd .trigger, ctx.trgFd := d.kern.fresh } :=
      h.books.opens (s := .trg) htrg rfl rfl slotFd_trg
    refine ⟨Books.of_opened_eq hopened watch_opened watch_faults, h.epoll, ?_⟩
    intro _
    apply mem_watch
    · exact hopened.mem_fds .epoll h.epoll
    · exact hopened.mem_fds .trg hfresh

theorem FdInv.dropTrigger (h : FdInv d) (del : Option ℕ+) :
    FdInv (dropTrigger d del) ∧ (dropTrigger d del).ctx.trgFd < 0 := by
  have hbooks : FdBooks
      { d with kern := pgEpollRmTrg d.kern d.ctx.epollFd d.ctx.trgFd del } := by
    rw [pgEpollRmTrg]
    split
    · exact Books.of_opened_eq h.books unwatch_opened unwatch_faults
    · exact h.books
  simp only [Pgov.dropTrigger]
  split
  · next hheld =>
    refine ⟨⟨?_, h.epoll, fun hneg => absurd hneg (by simp)⟩, by simp⟩
    exact hbooks.closes (s := .trg) rfl (by simp [PgContext.slotFd]) slotFd_trg
  · next hnone => exact ⟨⟨hbooks, h.epoll, fun hheld => absurd hheld hnone⟩, not_le.mp hnone⟩

theorem FdInv.recoverPsi (h : FdInv d) (htrg : d.ctx.trgFd < 0) (reopen : Option ℕ+) :
    FdInv (recoverPsi d reopen) ∧ (recoverPsi d reopen).ctx.trgFd < 0 := by
  have hclosed : FdBooks { d with
      kern := d.kern.closeFd d.ctx.psi.fd, ctx.psi := { d.ctx.psi with fd := -1 } } :=
    h.books.closes (s := .psi) rfl (by simp [PgContext.slotFd]) slotFd_psi
  cases reopen with
  | some errno => exact ⟨⟨hclosed, h.epoll, fun hheld => absurd hheld (not_le.mpr htrg)⟩, htrg⟩
  | none =>
    refine ⟨⟨?_, h.epoll, fun hheld => absurd hheld (not_le.mpr htrg)⟩, htrg⟩
    apply hclosed.opens (s := .psi) (by simp [PgContext.slotFd]) rfl rfl
    intro s hs
    cases s <;> first | rfl | exact absurd rfl hs

theorem psiRead_fd (mon : PsiMonitor) (out : ReadOut) (now : Timespec) :
    (pgPsiRead mon out now).1.fd = mon.fd := by
  rw [pgPsiRead]
  split
  · rfl
  split
  · rfl
  split
  · rfl
  next line _ =>
  generalize psiParse mon.firstRun line.length line emptyTrend mon.lastTot = parsed
  obtain ⟨found, curTot⟩ := parsed
  simp only [calcKalman]
  split <;> rfl

theorem FdInv.readPsi (h : FdInv d) (io : TickIo) : FdInv (readPsi d io).1 := by
  have hfd := psiRead_fd d.ctx.psi io.psi io.now
  have hread {mon : PsiMonitor} (hmon : mon.fd = d.ctx.psi.fd) (s : FdSlot) :
      ({ d.ctx with psi := mon } : PgContext).slotFd s = d.ctx.slotFd s := by
    cases s <;> first | rfl | exact hmon
  rw [Pgov.readPsi]
  generalize pgPsiRead d.ctx.psi io.psi io.now = red at hfd
  obtain ⟨mon, res⟩ := red
  cases res with
  | ok trend => exact h.same rfl (hread hfd)
  | error err =>
    have hfailed : FdInv { Daemon.log { d with ctx.psi := mon } (.psi d.ctx io.now io.psi) with
        ctx.psiFails := psiFailsNext d.ctx.psiFails
        ctx.nextWake := psiBackoff (psiFailsNext d.ctx.psiFails) } := h.same rfl (hread hfd)
    obtain ⟨hdrop, htrg⟩ := hfailed.dropTrigger io.del
    obtain ⟨hrecov, htrg⟩ := hdrop.recoverPsi htrg io.reopen
    exact hrecov.armTrigger htrg io.arm

theorem sweepFds_eq (kern : Kernel) (io : TickIo) : pgSweepFds kern io = kern :=
  sweepRun_fds io.sweep FdKind.file kern io.sweepSec io.sweepFs

theorem dispTransit_slotFd (ctx : PgContext) (on : Bool) (now : Timespec) (s : FdSlot) :
    (dispTransit ctx on now).slotFd s = ctx.slotFd s := by
  rw [dispTransit]
  split_ifs <;> cases s <;> rfl

theorem FdInv.updateDisp (h : FdInv d) (io : TickIo) : FdInv (updateDisp d io).1 := by
  have hshown : FdInv (dispShown d io) := by
    refine h.same rfl ?_
    intro s
    change (dispTransit _ _ _).slotFd s = _
    rw [dispTransit_slotFd]
    cases s <;> rfl
  rcases updateDisp_cases d io with ⟨-, heq⟩ | ⟨-, heq⟩ | ⟨-, heq⟩ <;> rw [heq]
  · exact h
  · generalize dispShown d io = shown at hshown
    simp only [dispIdle, sweepFds_eq]
    split
    · refine hshown.same rfl ?_
      intro s
      cases s <;> rfl
    · refine hshown.same rfl ?_
      intro s
      cases s <;> rfl
  · exact hshown

theorem FdInv.pollBattery (h : FdInv d) (io : TickIo) : FdInv (pollBatteryMetrics d io) := by
  rw [pollBatteryMetrics]
  split
  · exact h
  have hread : FdInv { d with
      ctx.batLvl := (pgSensorReadBatCap d.ctx.batCapSensor io.batCap).2
      ctx.batTemp := (pgSensorReadBatTemp d.ctx.batTempSensor io.batTemp).2
      ctx.lastBat := io.now } := by
    refine h.same rfl ?_
    intro s
    cases s <;> rfl
  simp only
  split
  · next htrg => exact hread.armTrigger htrg io.arm
  · exact hread

theorem FdInv.pollThermal (h : FdInv d) (p : Policy) (io : TickIo) :
    FdInv (pollThermalMetrics p d io) := by
  rw [pollThermalMetrics]
  split
  · exact h
  generalize pollCpuTemp d.ctx io.cpuTemp = polled
  obtain ⟨cpuTemp, tempFails⟩ := polled
  cases cpuTemp with
  | none =>
    refine h.same rfl ?_
    intro s
    cases s <;> rfl
  | some cpuTemp =>
    refine h.same rfl ?_
    intro s
    cases s <;> rfl

theorem update_fd (c : Channel) (call : UpdateCall) : (c.update call).cache.fd = c.cache.fd := by
  simp only [Channel.update, pgSysfsUpdate]
  split_ifs <;> rfl

theorem applyMapping_fd (c : CpuCfg) (l : CpuLim) (ch : Channels) (call : MappingCall) (i : Sink) :
    ((applyMapping c l ch call).get i).cache.fd = (ch.get i).cache.fd := by
  cases i <;> exact update_fd _ _

theorem FdInv.govern (h : FdInv d) (p : Policy) (io : TickIo) (psi : PsiTrend) :
    FdInv (govern p d io psi) := by
  have hdem : FdInv (calcDemand p d io psi).1 := by
    have hpolled := (h.pollBattery io).pollThermal p io
    rw [calcDemand]
    generalize pgCpuUpdIntg _ _ _ = intg
    obtain ⟨loadState, integ, integDt⟩ := intg
    simp only
    generalize pgCpuCalcLoadDemand _ _ _ = moved
    obtain ⟨loadState, lDem⟩ := moved
    refine hpolled.same rfl ?_
    intro s
    cases s <;> rfl
  unfold Pgov.govern
  generalize calcDemand p d io psi = demand at hdem
  obtain ⟨d₁, dem⟩ := demand
  have hgate : FdInv (govGate p d₁ io psi dem.pEff).1 := by
    unfold govGate
    generalize pgPollCalcNext _ _ _ _ _ = polled
    obtain ⟨pollState, nPoll⟩ := polled
    simp only
    split
    · refine FdInv.same hdem rfl ?_
      intro s
      cases s <;> rfl
    · refine FdInv.same hdem rfl ?_
      intro s
      cases s <;> rfl
  simp only
  split
  · next d₂ hgo =>
    rw [hgo] at hgate
    exact hgate
  · next d₂ hgo =>
    rw [hgo] at hgate
    refine FdInv.same hgate rfl ?_
    intro s
    cases s with
    | sink i => exact applyMapping_fd _ _ _ _ i
    | _ => rfl

theorem FdInv.tick (h : FdInv d) (p : Policy) (io : TickIo) : FdInv (pgGovProcess p d io) := by
  have hstart : FdInv (d.log (.tick io.now)) := h.same rfl fun _ => rfl
  have hshown := hstart.updateDisp io
  have hwake {d : Daemon} (h : FdInv d) (wake : ℤ) : FdInv { d with ctx.nextWake := wake } := by
    refine h.same rfl ?_
    intro s
    cases s <;> rfl
  cases govProcess_cases p d io with
  | suspended d₁ hdisp wake heq =>
    rw [hdisp] at hshown
    rw [heq]
    exact hwake hshown _
  | dormant d₁ hdisp _ heq =>
    rw [hdisp] at hshown
    rw [heq]
    exact hwake hshown _
  | failed d₁ d₂ hdisp _ hread heq =>
    rw [hdisp] at hshown
    have hred := hshown.readPsi io
    rw [hread] at hred
    rw [heq]
    exact hwake hred _
  | governed d₁ d₂ psi hdisp _ hread heq =>
    rw [hdisp] at hshown
    have hred := hshown.readPsi io
    rw [hread] at hred
    have hgov := hred.govern p io psi
    rw [heq]
    generalize Pgov.govern p d₂ io psi = d₃ at hgov
    exact hwake hgov _

end Ticks

section Reactor

variable {p : Policy} {d : Daemon}

theorem FdInv.log (h : FdInv d) (e : GovEvent) : FdInv (d.log e) := h.same rfl fun _ => rfl

theorem FdInv.requestShutdown (h : FdInv d) : FdInv (requestShutdown d) := by
  refine h.same rfl ?_
  intro s
  cases s <;> rfl

theorem FdInv.event (h : FdInv d) (p : Policy) (ev : ReadyEvent) : FdInv (epollEvent p d ev) := by
  rw [epollEvent]
  split
  · rw [handleSignalEvent]
    split
    · exact h.requestShutdown
    · exact h
  split
  · rw [handleTriggerEvent]
    split
    · exact (h.log _).tick p ev.tick
    · exact h
  · exact h

theorem FdInv.turn (h : FdInv d) (p : Policy) (out : WaitOut) : FdInv (reactorTurn p d out) := by
  rw [reactorTurn]
  split
  · exact h
  have hwait := h.log (.wait d.ctx.nextWake)
  cases out with
  | interrupted start finish =>
    simp only [epollInterrupted]
    split
    · exact hwait
    · refine hwait.same rfl ?_
      intro s
      cases s <;> rfl
  | failed => exact hwait.requestShutdown
  | timeout io =>
    simp only [handleTimeout]
    split
    · exact (hwait.log _).tick p io
    · exact hwait
  | ready event events =>
    exact run_invariant (fun _ ev hd _ => hd.event p ev) hwait
      (along_of_forall (fun _ _ => trivial) _ _) (P := fun _ _ => True)

theorem FdInv.run (h : FdInv d) (p : Policy) (waits : List WaitOut) :
    FdInv (run (reactorTurn p) d waits) :=
  run_invariant (fun _ out hd _ => hd.turn p out) h (along_of_forall (fun _ _ => trivial) _ _)
    (P := fun _ _ => True)

theorem FdBooks.setup (h : FdBooks d) (hepoll : d.ctx.epollFd < 0) (io : SetupIo) :
    ((epollSetup d io).2 < 0 ∧ FdBooks (epollSetup d io).1 ∧ (epollSetup d io).1.ctx.epollFd < 0) ∨
      ((epollSetup d io).2 = 0 ∧ FdInv (epollSetup d io).1) := by
  have hfresh := d.kern.fresh_nonneg
  have hother {fd : ℤ} (s : FdSlot) (hs : s ≠ .epoll) :
      ({ d.ctx with epollFd := fd } : PgContext).slotFd s = d.ctx.slotFd s := by
    cases s <;> first | rfl | exact absurd rfl hs
  have hopened : FdBooks { d with kern := d.kern.openFd .epoll, ctx.epollFd := d.kern.fresh } :=
    h.opens (s := .epoll) hepoll rfl rfl hother
  have hrefused {kern : Kernel} (hkern : kern = d.kern) : FdBooks { d with kern, ctx.epollFd := -1 } :=
    h.refused (s := .epoll) hkern hepoll (by simp [PgContext.slotFd]) hother
  rw [epollSetup]
  split
  · exact Or.inl ⟨by simp, hrefused rfl, by simp⟩
  split
  · exact Or.inl ⟨by simp, hrefused (by simp), by simp⟩
  have hsig : FdBooks { d with
      kern := (d.kern.openFd .epoll).watch d.kern.fresh d.ctx.sigFd, ctx.epollFd := d.kern.fresh } :=
    Books.of_opened_eq hopened watch_opened watch_faults
  simp only
  split
  · next htrg =>
    rcases epollAddTrg_cases ((d.kern.openFd .epoll).watch d.kern.fresh d.ctx.sigFd) d.kern.fresh
      d.ctx.trgFd io.addTrg with ⟨ret, hret, hadd⟩ | hadd <;> rw [hadd] <;> simp only
    · rw [if_pos hret]
      refine Or.inl ⟨hret, ?_, by simp⟩
      apply hsig.closes (s := .epoll) _ (by simp [PgContext.slotFd])
      · intro s hs
        cases s <;> first | rfl | exact absurd rfl hs
      · simp [PgContext.slotFd, closeFd, hfresh]
    · rw [if_neg (lt_irrefl 0)]
      refine Or.inr ⟨rfl, Books.of_opened_eq hsig watch_opened watch_faults, hfresh, ?_⟩
      intro _
      apply mem_watch
      · exact hsig.mem_fds .epoll hfresh
      · exact hsig.mem_fds .trg htrg
  · next htrg => exact Or.inr ⟨rfl, hsig, hfresh, fun h => absurd h htrg⟩

end Reactor

section Boot

variable {d : Daemon}

theorem useNodes_eq (kern : Kernel) (nodes : List Bool) : useNodes kern nodes = kern := by
  induction nodes with
  | nil => rfl
  | cons ok nodes ih =>
    rw [useNodes, List.foldl_cons, useNode_eq]
    exact ih

theorem useDir_eq (kern : Kernel) (io : DirIo) : useDir kern io = kern := by
  rw [useDir, useNodes_eq, openFd_close]
  split <;> rfl

theorem tuneFds_eq (kern : Kernel) (io : BootIo) : tuneFds kern io = kern := by
  simp only [tuneFds, pgBlockTune, pgTuneConfigsFds, pgTuneLimitsFds, useDir_eq, useNodes_eq]

theorem redirectLog_opened (kern : Kernel) (io : LogIo) :
    (redirectLog kern io).opened = kern.opened ∧ (redirectLog kern io).faults = kern.faults := by
  have hmem := kern.fresh_mem_openFd FdKind.file
  have hclose := kern.openFd_close FdKind.file
  rw [redirectLog]
  split
  · simp only
    split
    · have hfds : ((kern.openFd FdKind.file).redirect stderrFileno).fds =
          (kern.openFd FdKind.file).fds := by
        rw [Table.fds, redirect_opened, Table.fds]
      rw [close_opened (hfds ▸ hmem), close_faults (hfds ▸ hmem), redirect_opened, redirect_faults,
        ← close_opened hmem, hclose]
      exact ⟨rfl, rfl⟩
    · rw [hclose]
      exact ⟨rfl, rfl⟩
  · exact ⟨rfl, rfl⟩

theorem initOsEnvironment_opened (kern : Kernel) (io : EnvIo) :
    (initOsEnvironment kern io).opened = kern.opened ∧
      (initOsEnvironment kern io).faults = kern.faults := by
  have hlog := redirectLog_opened kern io.log
  simp only [initOsEnvironment, pgTopoSetLittleCore, pgMemoryShield, useNode_eq, useNodes_eq]
  split
  · exact hlog
  · exact hlog

theorem FdBooks.kern (h : FdBooks d) {kern : Kernel} (hopened : kern.opened = d.kern.opened)
    (hfaults : kern.faults = d.kern.faults) : FdBooks { d with kern } :=
  Books.of_opened_eq h hopened hfaults

theorem sysfsCacheInit_cases (kern : Kernel) (io : ChannelIo) :
    (∃ n, ∃ c : Channel, c.cache.fd < 0 ∧ sysfsCacheInit kern io = (kern, c, n)) ∨
      ∃ n, ∃ c : Channel, c.cache.fd = kern.fresh ∧
        sysfsCacheInit kern io = (kern.openFd .file, c, n) := by
  have hfresh := kern.fresh_nonneg
  obtain ⟨paths, node⟩ := io
  simp only [sysfsCacheInit, useNode_eq]
  induction paths with
  | nil => exact Or.inl ⟨_, _, by simp [pgSysfsCacheInit, sysfsUnmapped], rfl⟩
  | cons path paths ih =>
    cases hw : path.writable with
    | false => simpa [pgSysfsCacheInit, CandidateIo.at, List.find?_cons, hw] using ih
    | true =>
      right
      simp only [List.map_cons, List.find?_cons, hw]
      refine ⟨_, _, ?_, rfl⟩
      simp only [pgSysfsCacheInit, CandidateIo.at, hw, ↓reduceIte]
      split
      · split <;> exact Int.toNat_of_nonneg hfresh
      · exact Int.toNat_of_nonneg hfresh

/-- The slots that are still to be filled hold nothing. -/
structure Booted (pending : List FdSlot) (d : Daemon) : Prop where
  books : FdBooks d
  free : ∀ s ∈ pending, d.ctx.slotFd s < 0

def Obtains (kern kern' : Kernel) (k : FdKind) (fd : ℤ) : Prop :=
  (kern' = kern ∧ fd < 0) ∨ (kern' = kern.openFd k ∧ fd = kern.fresh)

variable {d' : Daemon} {s : FdSlot} {pending : List FdSlot}

theorem Booted.fill (h : Booted (s :: pending) d) (hs : s ∉ pending)
    (hcall : Obtains d.kern d'.kern s.kind (d'.ctx.slotFd s))
    (hother : ∀ s', s' ≠ s → d'.ctx.slotFd s' = d.ctx.slotFd s') : Booted pending d' := by
  have hfree := h.free s (by simp)
  constructor
  · rcases hcall with ⟨hkern, hneg⟩ | ⟨hkern, hfd⟩
    · exact h.books.refused hkern hfree hneg hother
    · exact h.books.opens hfree hkern hfd hother
  · intro s' hs'
    rw [hother s']
    · exact h.free s' (List.mem_cons_of_mem _ hs')
    · rintro rfl
      exact hs hs'

theorem Booted.kern (h : Booted pending d) {kern : Kernel} (hopened : kern.opened = d.kern.opened)
    (hfaults : kern.faults = d.kern.faults) : Booted pending { d with kern } :=
  ⟨h.books.kern hopened hfaults, h.free⟩

theorem Booted.same (h : Booted pending d) (hkern : d'.kern = d.kern)
    (hslots : ∀ s, d'.ctx.slotFd s = d.ctx.slotFd s) : Booted pending d' := by
  refine ⟨h.books.same hkern hslots, ?_⟩
  intro s hs
  rw [hslots]
  exact h.free s hs

theorem lockfileInit_obtains (kern : Kernel) (io : LockIo) :
    Obtains kern (pgLockfileInit kern io).1 .file (pgLockfileInit kern io).2 := by
  rw [pgLockfileInit]
  split
  · exact Or.inl ⟨rfl, by simp⟩
  split
  · exact Or.inl ⟨openFd_close _ _, by simp [eagain]⟩
  · exact Or.inr ⟨rfl, rfl⟩

theorem openNode_obtains (kern : Kernel) (opens : Option ℕ+) :
    Obtains kern (openNode kern opens).1 .file (openNode kern opens).2 := by
  cases opens with
  | some errno => exact Or.inl ⟨rfl, by simp [openNode]⟩
  | none => exact Or.inr ⟨rfl, rfl⟩

theorem signalInit_obtains (kern : Kernel) (io : SignalIo) :
    Obtains kern (pgSignalInit kern io).1 .signal (pgSignalInit kern io).2 := by
  rw [pgSignalInit]
  split
  · exact Or.inl ⟨rfl, by simp⟩
  split
  · exact Or.inl ⟨rfl, by simp⟩
  · exact Or.inr ⟨rfl, rfl⟩

theorem psiOpenTrg_obtains (kern : Kernel) (io : ArmIo) :
    Obtains kern (pgPsiOpenTrg kern io).1 .trigger (pgPsiOpenTrg kern io).2 := by
  rcases psiOpenTrg_cases kern io with ⟨ret, hret, heq⟩ | heq <;> rw [heq]
  · exact Or.inl ⟨rfl, hret⟩
  · exact Or.inr ⟨rfl, rfl⟩

theorem Channels.get_set (c : Channels) (i j : Sink) (ch : Channel) :
    (c.set i ch).get j = if j = i then ch else c.get j := by
  cases i <;> cases j <;> rfl

theorem slotFd_sink {ctx : PgContext} {i : Sink} {ch : Channel} (s : FdSlot) (hs : s ≠ .sink i) :
    ({ ctx with channels := ctx.channels.set i ch } : PgContext).slotFd s = ctx.slotFd s := by
  cases s with
  | sink j =>
    have hne : j ≠ i := fun h => hs (h ▸ rfl)
    simp only [PgContext.slotFd, Channels.get_set, if_neg hne]
  | _ => rfl

theorem Booted.sink {i : Sink} (h : Booted (.sink i :: pending) d) (hi : .sink i ∉ pending)
    (io : Sink → ChannelIo) (n : ℤ) : Booted pending (initSysfsCache io (d, n) i).1 := by
  rw [initSysfsCache]
  rcases sysfsCacheInit_cases d.kern (io i) with ⟨n, c, hfd, heq⟩ | ⟨n, c, hfd, heq⟩ <;>
    simp only [heq]
  · refine h.fill hi (Or.inl ⟨rfl, ?_⟩) slotFd_sink
    simpa [PgContext.slotFd, Channels.get_set] using hfd
  · refine h.fill hi (Or.inr ⟨rfl, ?_⟩) slotFd_sink
    simpa [PgContext.slotFd, Channels.get_set] using hfd

theorem Booted.sinks {l : List Sink} (h : Booted (l.map .sink ++ pending) d) (hl : l.Nodup)
    (hpending : ∀ i, .sink i ∉ pending) (io : Sink → ChannelIo) (n : ℤ) :
    Booted pending (l.foldl (initSysfsCache io) (d, n)).1 := by
  induction l generalizing d n with
  | nil => exact h
  | cons i l ih =>
    obtain ⟨hi, hl⟩ := List.nodup_cons.mp hl
    have hnot : FdSlot.sink i ∉ l.map FdSlot.sink ++ pending := by
      simp [hi, hpending i]
    exact ih (h.sink hnot io n) hl _

theorem FdBooks.panel (h : FdBooks d) (opens : Option ℕ+) : FdBooks (pgSensorInitBl d opens) := by
  unfold pgSensorInitBl
  split
  · exact h
  split
  · exact h
  apply h.opens (s := .bl d.ctx.blSensor.fd.length) (by simp [PgContext.slotFd]) rfl
  · simp [PgContext.slotFd]
  · intro s hs
    cases s with
    | bl i =>
      have hne : i ≠ d.ctx.blSensor.fd.length := fun h => hs (h ▸ rfl)
      rcases lt_or_gt_of_ne hne with hlt | hgt
      · simp [PgContext.slotFd, List.getElem?_append_left hlt]
      · simp only [PgContext.slotFd]
        rw [List.getElem?_eq_none (by simp; omega), List.getElem?_eq_none hgt.le]
    | _ => rfl

theorem FdBooks.panels (h : FdBooks d) (panels : List (Option ℕ+)) :
    FdBooks (panels.foldl pgSensorInitBl d) ∧
      (panels.foldl pgSensorInitBl d).ctx.epollFd = d.ctx.epollFd := by
  induction panels generalizing d with
  | nil => exact ⟨h, rfl⟩
  | cons opens panels ih =>
    obtain ⟨hbooks, hepoll⟩ := ih (h.panel opens)
    refine ⟨hbooks, hepoll.trans ?_⟩
    unfold pgSensorInitBl
    split
    · rfl
    split <;> rfl

theorem Booted.skip (h : Booted (s :: pending) d) : Booted pending d :=
  ⟨h.books, fun s' hs' => h.free s' (List.mem_cons_of_mem _ hs')⟩

theorem Booted.cpuTemp (h : Booted (.cpuTemp :: pending) d) (hs : .cpuTemp ∉ pending)
    (path : Option (Option ℕ+)) : Booted pending (pgSensorInitCpuTemp d path) := by
  cases path with
  | none =>
    refine h.fill hs ?_ ?_
    · exact Or.inl ⟨rfl, by simp [PgContext.slotFd, pgSensorInitCpuTemp]⟩
    · intro s hs
      cases s <;> first | rfl | exact absurd rfl hs
  | some opens =>
    apply h.fill hs (openNode_obtains d.kern opens)
    intro s hs
    cases s <;> first | rfl | exact absurd rfl hs

theorem Booted.batTemp (h : Booted (.batTemp :: pending) d) (hs : .batTemp ∉ pending)
    (opens : Option ℕ+) : Booted pending (pgSensorInitBatTemp d opens) := by
  apply h.fill hs (openNode_obtains d.kern opens)
  intro s hs
  cases s <;> first | rfl | exact absurd rfl hs

theorem Booted.batCap (h : Booted (.batCap :: pending) d) (hs : .batCap ∉ pending)
    (opens : Option ℕ+) : Booted pending (pgSensorInitBatCap d opens) := by
  apply h.fill hs (openNode_obtains d.kern opens)
  intro s hs
  cases s <;> first | rfl | exact absurd rfl hs

theorem Booted.trigger (h : Booted (.trg :: pending) d) (hs : .trg ∉ pending) (io : ArmIo) :
    Booted pending (initTrigger d io) := by
  rw [initTrigger]
  split
  · exact h.skip
  · exact h.fill hs (psiOpenTrg_obtains d.kern io) slotFd_trg

theorem Booted.psi (h : Booted (.psi :: pending) d) (hs : .psi ∉ pending) (opens : Option ℕ+)
    (now : Timespec) : Booted pending (initPsi d opens now) :=
  h.fill hs (openNode_obtains d.kern opens) slotFd_psi

structure Closable (d : Daemon) : Prop where
  books : FdBooks d
  epoll : d.ctx.epollFd < 0

theorem Booted.closable (h : Booted pending d) (hs : .epoll ∈ pending) : Closable d :=
  ⟨h.books, h.free .epoll hs⟩

theorem Booted.sensors (h : Booted [.cpuTemp, .batTemp, .batCap, .trg, .psi, .sig, .epoll] d)
    (io : SensorsIo) : Closable (initSensorsAndTriggers d io).1 := by
  have hscan : Booted _ { d with kern := pgScanThermalZone d.kern io.thermalZone } :=
    h.kern (by rw [pgScanThermalZone, useDir_eq]) (by rw [pgScanThermalZone, useDir_eq])
  have hcap := ((hscan.cpuTemp (by simp) io.cpuTemp).batTemp (by simp) io.batTemp).batCap (by simp)
    io.batCap
  have htrg := hcap.trigger (by simp) io.trigger
  have hpsi := htrg.psi (by simp) io.psi io.psiNow
  simp only [initSensorsAndTriggers]
  split
  · exact htrg.closable (by simp)
  generalize initPsi _ io.psi io.psiNow = d₁ at hpsi
  have hsig : Booted [.epoll] { d₁ with
      kern := (pgSignalInit d₁.kern io.signal).1, ctx.sigFd := (pgSignalInit d₁.kern io.signal).2 } := by
    apply hpsi.fill (by simp) (signalInit_obtains d₁.kern io.signal)
    intro s hs
    cases s <;> first | rfl | exact absurd rfl hs
  generalize pgSignalInit d₁.kern io.signal = sig at hsig
  obtain ⟨kern, sigFd⟩ := sig
  simp only at hsig ⊢
  split
  · exact hsig.closable (by simp)
  · simp only [pgScanBacklight, useDir_eq]
    have hready : Booted [.epoll] { d₁ with
        kern
        ctx.sigFd := sigFd
        ctx.thermalState := pgThermalInit io.thermalNow
        ctx.pollState := pgPollInit io.pollMono io.pollReal } := by
      refine hsig.same rfl ?_
      intro s
      cases s <;> rfl
    obtain ⟨hbooks, hepoll⟩ := hready.books.panels io.panels
    refine ⟨hbooks, ?_⟩
    rw [hepoll]
    exact hready.free .epoll (by simp)

def Leaves (P : Daemon → Prop) : Except (Daemon × ℤ) Daemon → Prop
  | .error (d, _) => P d
  | .ok d => P d

def sensorSlots : List FdSlot := [.cpuTemp, .batTemp, .batCap, .trg, .psi, .sig, .epoll]

def sinkSlots : List FdSlot := sinks.map .sink ++ sensorSlots

def bootSlots : List FdSlot := .lock :: sinkSlots

theorem booted_start (static : PgContext) (inherited : Finset ℤ) :
    Booted bootSlots (daemonStart static inherited) := by
  have hnone : ∀ s, (daemonStart static inherited).ctx.slotFd s < 0 := by
    intro s
    cases s with
    | sink i => cases i <;> simp [daemonStart, initContextDefaults, PgContext.slotFd, Channels.get]
    | _ => simp [daemonStart, initContextDefaults, PgContext.slotFd]
  refine ⟨⟨?_, ?_, rfl⟩, fun s _ => hnone s⟩
  · intro fd k
    constructor
    · intro hopened
      exact absurd hopened (Finset.notMem_empty _)
    · rintro ⟨s, hs, -⟩
      rw [heldFd_of_neg (hnone s)] at hs
      exact absurd hs (by simp)
  · intro s s' fd hs
    rw [heldFd_of_neg (hnone s)] at hs
    exact absurd hs (by simp)

theorem Booted.prepare (h : Booted bootSlots d) (io : BootIo) :
    Leaves Closable (daemonPrepare d io) := by
  rw [daemonPrepare]
  split
  · exact h.closable (by simp [bootSlots, sinkSlots, sensorSlots])
  have hlock : Booted sinkSlots { d with
      kern := (pgLockfileInit d.kern io.lock).1, ctx.lockFd := (pgLockfileInit d.kern io.lock).2 } := by
    refine Booted.fill h (by simp [sinkSlots, sensorSlots]) ?_ ?_
    · exact lockfileInit_obtains d.kern io.lock
    · intro s hs
      cases s <;> first | rfl | exact absurd rfl hs
  generalize pgLockfileInit d.kern io.lock = lock at hlock
  obtain ⟨kern, lockFd⟩ := lock
  simp only at hlock ⊢
  have hepoll : FdSlot.epoll ∈ sinkSlots := by simp [sinkSlots, sensorSlots]
  split
  · exact hlock.closable hepoll
  split
  · exact hlock.closable hepoll
  have hsinks := Booted.sinks (l := Pgov.sinks) hlock (by decide) (by simp [sensorSlots]) io.caches 0
  rw [← initSysfsCaches] at hsinks
  generalize initSysfsCaches _ io.caches = mapped at hsinks
  obtain ⟨d₁, n⟩ := mapped
  obtain ⟨hopened, hfaults⟩ := initOsEnvironment_opened d₁.kern io.env
  have henv : Booted sensorSlots { d₁ with
      kern := initOsEnvironment d₁.kern io.env
      ctx.dormant := if n = 0 then true else d₁.ctx.dormant } := by
    refine (hsinks.kern hopened hfaults).same rfl ?_
    intro s
    cases s <;> rfl
  simp only [tuneFds_eq]
  split
  · exact henv.closable (by simp [sensorSlots])
  have hsensors := henv.sensors io.sensors
  generalize initSensorsAndTriggers _ io.sensors = sensed at hsensors
  obtain ⟨d₂, ret⟩ := sensed
  simp only at hsensors ⊢
  split
  · exact hsensors
  · simp only [pgOptInit, useDir_eq]
    refine ⟨hsensors.books.same rfl ?_, hsensors.epoll⟩
    intro s
    cases s <;> rfl

end Boot

section Cleanup

variable {d : Daemon}

theorem restore_fd (c : Channel) (res : Pwrite) : (c.restore res).cache.fd = c.cache.fd := by
  simp only [Channel.restore, pgSysfsRestore]
  split_ifs <;> rfl

theorem restoreAll_slotFd (ctx : PgContext) (res : Sink → Pwrite) (s : FdSlot) :
    (ctx.restoreAll res).slotFd s = ctx.slotFd s := by
  cases s with
  | sink i => cases i <;> exact restore_fd _ _
  | _ => rfl

def closedSlots (ctx : PgContext) : List FdSlot :=
  [.trg, .sig, .lock, .psi, .cpuTemp, .batTemp, .batCap] ++
    (List.range ctx.blSensor.fd.length).map .bl ++ sinks.map .sink

theorem blClose_eq (kern : Kernel) (ctx : PgContext) :
    pgSensorBlClose kern ctx.blSensor =
      ((List.range ctx.blSensor.fd.length).map FdSlot.bl).foldl
        (fun kern s => kern.closeFd (ctx.slotFd s)) kern := by
  have hfds : ctx.blSensor.fd =
      (List.range ctx.blSensor.fd.length).map fun i => ctx.slotFd (.bl i) := by
    apply List.ext_getElem
    · simp
    · intro i hi _
      simp [PgContext.slotFd, List.getElem?_eq_getElem hi]
  rw [List.foldl_map, pgSensorBlClose]
  conv_lhs => rw [hfds, List.foldl_map]

theorem cleanup_kern (d : Daemon) (res : Sink → Pwrite) :
    (cleanupContext d res).kern = (closedSlots d.ctx).foldl
      (fun kern s => kern.closeFd (d.ctx.slotFd s)) d.kern := by
  have hslots : (d.ctx.restoreAll res).slotFd = d.ctx.slotFd :=
    funext (restoreAll_slotFd d.ctx res)
  have hclosed : closedSlots d.ctx = closedSlots (d.ctx.restoreAll res) := rfl
  simp only [cleanupContext]
  rw [← hslots, hclosed]
  generalize d.ctx.restoreAll res = ctx
  rw [blClose_eq, closedSlots, List.foldl_append, List.foldl_append, List.foldl_map (l := sinks)]
  rfl

theorem closedSlots_nodup (ctx : PgContext) : (closedSlots ctx).Nodup := by
  have hbl : ((List.range ctx.blSensor.fd.length).map FdSlot.bl).Nodup :=
    List.nodup_range.map fun i j h => FdSlot.bl.inj h
  have hsinks : (sinks.map FdSlot.sink).Nodup := by decide
  rw [closedSlots, List.nodup_append', List.nodup_append']
  refine ⟨⟨by decide, hbl, ?_⟩, hsinks, ?_⟩
  · simp [List.disjoint_left]
  · simp [List.disjoint_left]

theorem Closable.cleanup (h : Closable d) (res : Sink → Pwrite) :
    (cleanupContext d res).kern.opened = ∅ ∧ (cleanupContext d res).kern.faults = 0 := by
  have hclosed := h.books.closeSlots (closedSlots_nodup d.ctx) fun s _ => rfl
  rw [← cleanup_kern d res] at hclosed
  refine ⟨hclosed.empty ?_, hclosed.faults⟩
  intro s
  split
  · rfl
  next hnot =>
  apply heldFd_of_neg
  cases s with
  | epoll => exact h.epoll
  | bl i =>
    have hi : d.ctx.blSensor.fd.length ≤ i := by simpa [closedSlots] using hnot
    simp [PgContext.slotFd, List.getElem?_eq_none hi]
  | sink i => exact absurd hnot (by cases i <;> simp [closedSlots, sinks])
  | _ => exact absurd hnot (by simp [closedSlots])

theorem FdInv.shutdown (h : FdInv d) :
    Closable { d with kern := d.kern.close d.ctx.epollFd, ctx.epollFd := -1 } := by
  refine ⟨?_, by simp⟩
  apply h.books.closes (s := .epoll) _ (by simp [PgContext.slotFd])
  · intro s hs
    cases s <;> first | rfl | exact absurd rfl hs
  · simp [PgContext.slotFd, closeFd, h.epoll]

theorem Closable.run (h : Closable d) (p : Policy) (io : SetupIo) (waits : List WaitOut)
    {res : Daemon × ℤ} (hrun : pgEpollRun p d io waits = some res) : Closable res.1 := by
  rw [pgEpollRun] at hrun
  rcases h.books.setup h.epoll io with ⟨hret, hbooks, hepoll⟩ | ⟨hret, hinv⟩
  · rw [if_pos hret] at hrun
    cases hrun
    exact ⟨hbooks, hepoll⟩
  · rw [hret, if_neg (lt_irrefl 0)] at hrun
    simp only at hrun
    split at hrun
    · cases hrun
      exact (hinv.run p waits).shutdown
    · exact absurd hrun (by simp)

structure OneTrigger (d : Daemon) : Prop where
  unique : ∀ fd, (fd, FdKind.trigger) ∈ d.kern.opened → fd = d.ctx.trgFd
  watched : 0 ≤ d.ctx.trgFd →
    (d.ctx.trgFd, FdKind.trigger) ∈ d.kern.opened ∧ (d.ctx.epollFd, d.ctx.trgFd) ∈ d.kern.watched

theorem FdInv.oneTrigger (h : FdInv d) : OneTrigger d := by
  constructor
  · intro fd hopen
    obtain ⟨s, hs, hkind⟩ := (h.books.mem_opened fd .trigger).mp hopen
    obtain ⟨hfd, -⟩ := heldFd_eq_some.mp hs
    cases s with
    | trg => exact hfd.symm
    | _ => exact absurd hkind (by simp [FdSlot.kind])
  · intro htrg
    refine ⟨?_, h.watched htrg⟩
    exact (h.books.mem_opened _ _).mpr ⟨.trg, heldFd_of_nonneg htrg, rfl⟩

end Cleanup

/-- Once the daemon returns, everything it obtained has been closed exactly once; and whenever the
reactor is about to wait, the one trigger there may be is the one the context names. -/
theorem daemon_fds (static : PgContext) (inherited : Finset ℤ) (io : BootIo)
    (waits : List WaitOut) :
    (∀ d ret, pgDaemonInit static inherited io waits = some (d, ret) →
      d.kern.opened = ∅ ∧ d.kern.faults = 0) ∧
    ∀ d, daemonPrepare (daemonStart static inherited) io = .ok d → (epollSetup d io.setup).2 = 0 →
      OneTrigger (reactorRun io.policy d io.setup waits) := by
  have hprepare := (booted_start static inherited).prepare io
  constructor
  · intro d ret hdone
    rw [pgDaemonInit] at hdone
    cases hstart : daemonPrepare (daemonStart static inherited) io with
    | error failed =>
      rw [hstart] at hdone hprepare
      cases hdone
      exact hprepare.cleanup io.restore
    | ok d₀ =>
      rw [hstart] at hdone hprepare
      obtain ⟨⟨d₁, ret₁⟩, hrun, hclean⟩ := Option.map_eq_some_iff.mp hdone
      cases hclean
      exact (Closable.run hprepare io.policy io.setup waits hrun).cleanup io.restore
  · intro d hstart hsetup
    rw [hstart] at hprepare
    rcases FdBooks.setup hprepare.books hprepare.epoll io.setup with ⟨hret, -⟩ | ⟨-, hinv⟩
    · omega
    · exact (hinv.run io.policy waits).oneTrigger

def smoothBoot : BootIo :=
  let dir : DirIo := ⟨true, [true]⟩
  { privileged := true
    lock := ⟨none, none⟩
    booted := true
    caches := fun _ => ⟨[⟨true, true, .ok [48, 10]⟩], 0⟩
    env := ⟨⟨true, true⟩, true, ⟨[true], false, [true]⟩⟩
    psiAccess := true
    limits := bareDevice
    limitsFds := [true]
    configs := bareDevice
    configsFds := ⟨[true], [true], dir, []⟩
    block := dir
    sensors :=
      { thermalZone := dir
        cpuTemp := some none
        batTemp := none
        batCap := none
        trigger := ⟨none, none, none⟩
        psi := none
        psiNow := ⟨0, 0⟩
        signal := ⟨none, none⟩
        thermalNow := ⟨0, 0⟩
        pollMono := ⟨0, 0⟩
        pollReal := ⟨0, 0⟩
        backlight := dir
        panels := [none] }
    opt := dir
    lastBat := ⟨0, 0⟩
    lastTherm := ⟨0, 0⟩
    lastSweep := ⟨0, 0⟩
    batCap := .error (Nat.toPNat' 5)
    batTemp := .error (Nat.toPNat' 5)
    lastTick := ⟨0, 0⟩
    setup := ⟨none, none, none⟩
    restore := fun _ => .wrote 1 }

def lostPsi : List WaitOut := [.timeout (idleTickIo 1 57 (.error (Nat.toPNat' 5))), .failed]

def governingTick (sec : ℤ) (total : UInt8) : TickIo :=
  let update (n : ℕ) : UpdateIo := ⟨⟨sec, 0⟩, ⟨sec, 0⟩, .wrote n⟩
  { idleTickIo sec 57 (psiText total) with
    cpuTemp := .ok [52, 48, 48, 48, 48, 10]
    latIo := update 9
    granIo := update 8
    wakeIo := update 8
    migIo := update 7
    waltIo := update 3
    uclIo := update 2 }

def governedTicks : List WaitOut :=
  [.timeout (governingTick 1 55), .timeout (governingTick 4 57)]

theorem ok_of_check {ε δ β : Type*} {x : Except ε δ} {f : δ → β} {b : β}
    (h : x.toOption.map f = some b) : ∃ d, x = .ok d ∧ f d = b := by
  cases x with
  | error e => exact absurd h (by simp [Except.toOption])
  | ok d => exact ⟨d, rfl, Option.some.inj h⟩

theorem smoothBoot_governed : ∃ d,
    daemonPrepare (daemonStart idleContext {0, 1, 2}) smoothBoot = .ok d ∧
      let ctx := (reactorRun smoothBoot.policy d smoothBoot.setup governedTicks).ctx
      (ctx.channels.schedLat.node, ctx.loadState.psiVal) = (16056320, 18409) :=
  ok_of_check (by decide +kernel)

theorem daemon_fds_lost : ∃ d,
    pgDaemonInit idleContext {0, 1, 2} smoothBoot lostPsi = some (d, 0) ∧
      d.kern.opened = ∅ ∧ d.kern.faults = 0 := by
  have hret : (pgDaemonInit idleContext {0, 1, 2} smoothBoot lostPsi).map Prod.snd = some 0 := by
    decide +kernel
  obtain ⟨⟨d, ret⟩, hrun, rfl⟩ := Option.map_eq_some_iff.mp hret
  exact ⟨d, hrun, (daemon_fds idleContext {0, 1, 2} smoothBoot lostPsi).1 d 0 hrun⟩

end Pgov
