import Pgov.DaemonInit
import Pgov.DisplayState

namespace Pgov

open FixedWidth Runs

structure TickIo.Timely (io : TickIo) : Prop where
  now : io.now.Valid
  endCalc : io.endCalc.Valid
  le : io.now.ns ≤ io.endCalc.ns

def WaitOut.Timely : WaitOut → Prop
  | .interrupted start finish => start.Valid ∧ finish.Valid ∧ start.ns ≤ finish.ns
  | .failed => True
  | .timeout io => io.Timely
  | .ready event events => ∀ ev ∈ event :: events, ev.tick.Timely

def Paused (timeout : ℤ) : Prop := timeout ∈ Set.Icc 1 30000

def StoppedForGood (before : List GovEvent) (e : GovEvent) : Prop :=
  .shutdown ∈ before → e ≠ .onTimeout ∧ e ≠ .onTrigger

section Wake

variable {p : Policy} {d : Daemon} {io : TickIo}

theorem elapsedMs_nonneg {start finish : Timespec} (hs : start.Valid) (hf : finish.Valid)
    (hle : start.ns ≤ finish.ns) : 0 ≤ elapsedMs start finish ∧ elapsedMs start finish ≤ 32001000 := by
  have hfrac := nsecQ16_bounds (finish.nsec - start.nsec)
  obtain ⟨hn0, hn1⟩ := hs.nsec
  obtain ⟨hm0, hm1⟩ := hf.nsec
  simp only [Timespec.ns] at hle
  have hdt : 0 ≤ pgDtSec start finish ∧ pgDtSec start finish ≤ 32001 * 65536 := by
    rw [dtSec_eq hs hf]
    omega
  rw [elapsedMs, i32_eq (by omega) (by omega)]
  omega

theorem adjWake_paused {wake : ℤ} (hio : io.Timely) (hwake : Paused wake) :
    Paused (adjWake io wake) := by
  obtain ⟨hlow, hhigh⟩ := elapsedMs_nonneg hio.now hio.endCalc hio.le
  obtain ⟨h1, h2⟩ := hwake
  simp only [adjWake, Paused, Set.mem_Icc]
  rw [i32_eq (by omega) (by omega)]
  split_ifs <;> omega

theorem psiFailsNext_mem {fails : ℕ} (h : fails ≤ pgPsiFailMax) :
    1 ≤ psiFailsNext fails ∧ psiFailsNext fails ≤ pgPsiFailMax := by
  rw [psiFailsNext]
  rw [pgPsiFailMax] at h ⊢
  split <;> omega

theorem psiBackoff_paused {fails : ℕ} (h : 1 ≤ fails ∧ fails ≤ pgPsiFailMax) :
    Paused (psiBackoff fails) := by
  obtain ⟨hlow, hhigh⟩ := h
  rw [pgPsiFailMax] at hhigh
  interval_cases fails <;> simp [psiBackoff, Paused]

theorem govern_paused (ht : p.cpu.transPoll = intToQ16 50) (d : Daemon) (io : TickIo)
    (psi : PsiTrend) : Paused (govern p d io psi).ctx.nextWake := by
  have hgate (d : Daemon) (pEff : ℤ) : Paused (govGate p d io psi pEff).1.ctx.nextWake := by
    obtain ⟨hlow, hhigh⟩ :=
      pollCalcNext_mem d.ctx.pollState io.pollNow pEff psi.avg300 psi.vel
    unfold govGate
    generalize pgPollCalcNext _ _ _ _ _ = polled at hlow hhigh
    obtain ⟨pollState, nPoll⟩ := polled
    simp only at hlow hhigh ⊢
    have hpoll : q16ToInt p.cpu.transPoll = 50 := by
      rw [ht]
      decide
    split
    · simp only [Paused, Set.mem_Icc]
      omega
    · simp only [Paused, Set.mem_Icc, hpoll]
      split_ifs <;> omega
  unfold govern
  generalize calcDemand p d io psi = demand
  obtain ⟨d₁, dem⟩ := demand
  have hwake := hgate d₁ dem.pEff
  simp only
  split
  · next d₂ hgo =>
    rw [hgo] at hwake
    exact hwake
  · next d₂ hgo =>
    rw [hgo] at hwake
    exact hwake

end Wake

def GovEvent.inTick : GovEvent → Bool
  | .wait _ => false
  | .onTimeout => false
  | .onTrigger => false
  | .shutdown => false
  | _ => true

structure ReactorInv (d : Daemon) : Prop where
  wake : Paused d.ctx.nextWake
  fails : d.ctx.psiFails ≤ pgPsiFailMax
  active : d.ctx.dormant = false
  waits : ∀ timeout, .wait timeout ∈ d.trace → Paused timeout
  stopped : Judged StoppedForGood d.trace
  requested : .shutdown ∈ d.trace → d.ctx.shutdownReq = true

section Invariant

variable {p : Policy} {d d' : Daemon} {io : TickIo}

theorem tick_trace (p : Policy) (d : Daemon) (io : TickIo) :
    ∃ ev, (pgGovProcess p d io).trace = d.trace ++ ev ∧ ∀ e ∈ ev, e.inTick = true := by
  obtain ⟨shown, hshown, hdisp⟩ := updateDisp_trace (d.log (.tick io.now)) io
  have hstart : ∀ e ∈ .tick io.now :: shown, e.inTick = true := by
    intro e he
    rcases List.mem_cons.mp he with rfl | he
    · rfl
    · obtain ⟨now, reading, prev, next, rfl⟩ := hdisp e he
      rfl
  have htrace : (updateDisp (d.log (.tick io.now)) io).1.trace = d.trace ++ (.tick io.now :: shown) := by
    rw [hshown, Daemon.log, List.append_assoc]
    rfl
  cases govProcess_cases p d io with
  | suspended d₁ hupd wake heq =>
    rw [hupd] at htrace
    rw [heq]
    exact ⟨_, htrace, hstart⟩
  | dormant d₁ hupd _ heq =>
    rw [hupd] at htrace
    rw [heq]
    exact ⟨_, htrace, hstart⟩
  | failed d₁ d₂ hupd _ hread heq =>
    have hred := (readPsi_frame d₁ io).2.2.2.2
    rw [hupd] at htrace
    rw [hread, htrace, List.append_assoc] at hred
    rw [heq]
    refine ⟨_, hred, ?_⟩
    intro e he
    rcases List.mem_append.mp he with he | he
    · exact hstart e he
    · rw [List.mem_singleton.mp he]
      rfl
  | governed d₁ d₂ psi hupd _ hread heq =>
    have hred := (readPsi_frame d₁ io).2.2.2.2
    obtain ⟨ev, hev, hwork⟩ := (govern_frame p d₂ io psi).trace
    rw [hupd] at htrace
    rw [hread, htrace, List.append_assoc] at hred
    rw [hred, List.append_assoc] at hev
    rw [heq]
    refine ⟨_, hev, ?_⟩
    intro e he
    rcases List.mem_append.mp he with he | he
    · rcases List.mem_append.mp he with he | he
      · exact hstart e he
      · rw [List.mem_singleton.mp he]
        rfl
    · have hkind := hwork e he
      cases e <;> simp [GovEvent.works] at hkind <;> rfl

theorem tick_shutdownReq (p : Policy) (d : Daemon) (io : TickIo) :
    (pgGovProcess p d io).ctx.shutdownReq = d.ctx.shutdownReq ∧
      (pgGovProcess p d io).ctx.dormant = d.ctx.dormant := by
  obtain ⟨-, hdormant, hreq, -⟩ := updateDisp_frame (d.log (.tick io.now)) io
  cases govProcess_cases p d io with
  | suspended d₁ hupd wake heq =>
    rw [hupd] at hdormant hreq
    rw [heq]
    exact ⟨hreq, hdormant⟩
  | dormant d₁ hupd _ heq =>
    rw [hupd] at hdormant hreq
    rw [heq]
    exact ⟨hreq, hdormant⟩
  | failed d₁ d₂ hupd _ hread heq =>
    obtain ⟨-, -, hdorm, hshut, -⟩ := readPsi_frame d₁ io
    rw [hupd] at hdormant hreq
    rw [hread] at hdorm hshut
    rw [heq]
    exact ⟨hshut.trans hreq, hdorm.trans hdormant⟩
  | governed d₁ d₂ psi hupd _ hread heq =>
    obtain ⟨-, -, hdorm, hshut, -⟩ := readPsi_frame d₁ io
    have hframe := govern_frame p d₂ io psi
    rw [hupd] at hdormant hreq
    rw [hread] at hdorm hshut
    rw [heq]
    exact ⟨hframe.shutdownReq.trans (hshut.trans hreq), hframe.dormant.trans (hdorm.trans hdormant)⟩

theorem tick_paused (ht : p.cpu.transPoll = intToQ16 50) (hio : io.Timely)
    (hfails : d.ctx.psiFails ≤ pgPsiFailMax) (hactive : d.ctx.dormant = false) :
    Paused (pgGovProcess p d io).ctx.nextWake ∧
      (pgGovProcess p d io).ctx.psiFails ≤ pgPsiFailMax := by
  obtain ⟨hcount, -, -, hidle⟩ := updateDisp_frame (d.log (.tick io.now)) io
  change _ = d.ctx.psiFails at hcount
  cases govProcess_cases p d io with
  | suspended d₁ hupd wake heq hwake =>
    rw [hupd] at hcount hidle
    have hpaused : Paused d₁.ctx.nextWake := by
      rw [hidle rfl]
      simp [Paused]
    rw [heq, hwake hactive]
    exact ⟨adjWake_paused hio hpaused, hcount.le.trans hfails⟩
  | dormant d₁ hupd hdormant => exact absurd (hactive.symm.trans hdormant) (by simp)
  | failed d₁ d₂ hupd _ hread heq =>
    rw [hupd] at hcount
    rw [← hcount] at hfails
    have hnext := psiFailsNext_mem hfails
    obtain ⟨mon, res, hpsi⟩ : ∃ mon res, pgPsiRead d₁.ctx.psi io.psi io.now = (mon, res) :=
      ⟨_, _, rfl⟩
    cases res with
    | ok trend =>
      rw [readPsi_ok hpsi] at hread
      exact absurd (Prod.mk.inj hread).2 (by simp)
    | error err =>
      obtain ⟨kern, fd, mon', -, hbackoff⟩ := readPsi_error hpsi
      obtain ⟨rfl, -⟩ := Prod.mk.inj (hbackoff.symm.trans hread)
      rw [heq]
      exact ⟨adjWake_paused hio (psiBackoff_paused hnext), hnext.2⟩
  | governed d₁ d₂ psi hupd _ hread heq =>
    have hzero : d₂.ctx.psiFails = 0 := by
      obtain ⟨mon, res, hpsi⟩ : ∃ mon res, pgPsiRead d₁.ctx.psi io.psi io.now = (mon, res) :=
        ⟨_, _, rfl⟩
      cases res with
      | ok trend =>
        rw [readPsi_ok hpsi] at hread
        obtain ⟨rfl, -⟩ := Prod.mk.inj hread
        rfl
      | error err =>
        obtain ⟨kern, fd, mon', -, hbackoff⟩ := readPsi_error hpsi
        exact absurd (Prod.mk.inj (hbackoff.symm.trans hread)).2 (by simp)
    have hfails' := (govern_frame p d₂ io psi).psiFails
    rw [heq]
    exact ⟨adjWake_paused hio (govern_paused ht d₂ io psi), by simp [hfails', hzero]⟩

theorem ReactorInv.log (h : ReactorInv d) {e : GovEvent}
    (hwait : ∀ timeout, e = .wait timeout → Paused timeout)
    (hcall : d.ctx.shutdownReq = true → e ≠ .onTimeout ∧ e ≠ .onTrigger) (hshut : e ≠ .shutdown) :
    ReactorInv (d.log e) := by
  refine ⟨h.wake, h.fails, h.active, ?_, ?_, ?_⟩
  · intro timeout hmem
    rcases List.mem_append.mp hmem with hmem | hmem
    · exact h.waits timeout hmem
    · exact hwait timeout (List.mem_singleton.mp hmem).symm
  · apply h.stopped.concat
    intro hmem
    exact hcall (h.requested hmem)
  · intro hmem
    rcases List.mem_append.mp hmem with hmem | hmem
    · exact h.requested hmem
    · exact absurd (List.mem_singleton.mp hmem).symm hshut

theorem ReactorInv.tick (ht : p.cpu.transPoll = intToQ16 50) (h : ReactorInv d)
    (hio : io.Timely) : ReactorInv (pgGovProcess p d io) := by
  obtain ⟨hwake, hfails⟩ := tick_paused (p := p) ht hio h.fails h.active
  obtain ⟨hreq, hdormant⟩ := tick_shutdownReq p d io
  obtain ⟨ev, hev, htick⟩ := tick_trace p d io
  refine ⟨hwake, hfails, hdormant.trans h.active, ?_, ?_, ?_⟩
  · intro timeout hmem
    rw [hev] at hmem
    rcases List.mem_append.mp hmem with hmem | hmem
    · exact h.waits timeout hmem
    · exact absurd (htick _ hmem) (by simp [GovEvent.inTick])
  · rw [hev]
    apply h.stopped.append
    intro e he before _
    constructor
    · rintro rfl
      exact absurd (htick _ he) (by simp [GovEvent.inTick])
    · rintro rfl
      exact absurd (htick _ he) (by simp [GovEvent.inTick])
  · intro hmem
    rw [hev] at hmem
    rw [hreq]
    rcases List.mem_append.mp hmem with hmem | hmem
    · exact h.requested hmem
    · exact absurd (htick _ hmem) (by simp [GovEvent.inTick])

theorem ReactorInv.requestShutdown (h : ReactorInv d) : ReactorInv (requestShutdown d) := by
  refine ⟨h.wake, h.fails, h.active, ?_, ?_, fun _ => rfl⟩
  · intro timeout hmem
    rcases List.mem_append.mp hmem with hmem | hmem
    · exact h.waits timeout hmem
    · exact absurd (List.mem_singleton.mp hmem) (by simp)
  · exact h.stopped.concat fun _ => by simp

theorem ReactorInv.event (ht : p.cpu.transPoll = intToQ16 50) (h : ReactorInv d)
    {ev : ReadyEvent} (hio : ev.tick.Timely) : ReactorInv (epollEvent p d ev) := by
  rw [epollEvent]
  split
  · rw [handleSignalEvent]
    split
    · exact h.requestShutdown
    · exact h
  split
  · rw [handleTriggerEvent]
    split
    · next hcall =>
      apply ReactorInv.tick ht _ hio
      apply h.log
      · intro timeout he
        exact absurd he (by simp)
      · intro hreq
        exact absurd hcall.2 (by simp [hreq])
      · simp
    · exact h
  · exact h

theorem ReactorInv.events (ht : p.cpu.transPoll = intToQ16 50) (h : ReactorInv d)
    {events : List ReadyEvent} (hio : ∀ ev ∈ events, ev.tick.Timely) :
    ReactorInv (epollEvents p d events) :=
  run_invariant (fun _ _ hd hev => hd.event ht hev) h (along_of_mem hio d)

theorem ReactorInv.turn (ht : p.cpu.transPoll = intToQ16 50) (h : ReactorInv d) {out : WaitOut}
    (hout : out.Timely) : ReactorInv (reactorTurn p d out) := by
  rw [reactorTurn]
  split
  · exact h
  next hgo =>
  have hwait : ReactorInv (d.log (.wait d.ctx.nextWake)) := by
    apply h.log
    · rintro timeout ⟨⟩
      exact h.wake
    · intro _
      simp
    · simp
  cases out with
  | interrupted start finish =>
    obtain ⟨hs, hf, hle⟩ := hout
    obtain ⟨hlow, hhigh⟩ := elapsedMs_nonneg hs hf hle
    obtain ⟨h1, h2⟩ := hwait.wake
    simp only [epollInterrupted]
    split
    · exact hwait
    · refine ⟨?_, hwait.fails, hwait.active, hwait.waits, hwait.stopped, hwait.requested⟩
      simp only [Paused, Set.mem_Icc]
      rw [i32_eq (by omega) (by omega)]
      split_ifs <;> omega
  | failed => exact hwait.requestShutdown
  | timeout io =>
    simp only [handleTimeout]
    split
    · apply ReactorInv.tick ht _ hout
      apply hwait.log
      · intro timeout he
        exact absurd he (by simp)
      · intro hreq
        exact absurd hreq hgo
      · simp
    · exact hwait
  | ready event events => exact hwait.events ht hout

theorem ReactorInv.run (ht : p.cpu.transPoll = intToQ16 50) (h : ReactorInv d)
    {waits : List WaitOut} (hclock : ∀ out ∈ waits, out.Timely) :
    ReactorInv (run (reactorTurn p) d waits) :=
  run_invariant (fun _ _ hd hout => hd.turn ht hout) h (along_of_mem hclock d)

end Invariant

/-- What `pg_daemon_init` hands to `pg_epoll_run` once it has found a tunable, as far as the waits
depend on it. -/
structure ReactorReady (ctx : PgContext) : Prop where
  wake : Paused ctx.nextWake
  fails : ctx.psiFails ≤ pgPsiFailMax
  active : ctx.dormant = false
  running : ctx.shutdownReq = false

theorem prepare_ready {static : PgContext} {inherited : Finset ℤ} {io : BootIo} {d : Daemon}
    (hstatic : static.psiFails ≤ pgPsiFailMax)
    (h : daemonPrepare (daemonStart static inherited) io = .ok d) (hactive : d.ctx.dormant = false) :
    ReactorReady d.ctx ∧ d.trace = [] := by
  obtain ⟨hframe, -⟩ := prepare_frame h
  refine ⟨⟨?_, ?_, hactive, ?_⟩, ?_⟩
  · rw [hframe.nextWake]
    change Paused pgMinPollMs
    exact ⟨by decide, by decide⟩
  · rw [hframe.psiFails]
    exact hstatic
  · rw [hframe.shutdownReq]
    rfl
  · rw [hframe.trace]
    rfl

theorem epollSetup_eq (d : Daemon) (io : SetupIo) : ∃ kern fd,
    (epollSetup d io).1 = { d with kern, ctx.epollFd := fd } := by
  simp only [epollSetup]
  split
  · exact ⟨d.kern, _, rfl⟩
  split
  · exact ⟨_, _, rfl⟩
  split
  · split
    · exact ⟨_, _, rfl⟩
    · exact ⟨_, _, rfl⟩
  · exact ⟨_, _, rfl⟩

theorem reactor_timeouts (limits configs : Hardware) {d : Daemon} (hready : ReactorReady d.ctx)
    (htrace : d.trace = []) (io : SetupIo) {waits : List WaitOut}
    (hclock : ∀ out ∈ waits, out.Timely) :
    (∀ timeout, .wait timeout ∈ (reactorRun (.tuned limits configs) d io waits).trace →
      1 ≤ timeout ∧ timeout ≤ 30000) ∧
    Judged StoppedForGood (reactorRun (.tuned limits configs) d io waits).trace := by
  have ht : (Policy.tuned limits configs).cpu.transPoll = intToQ16 50 := rfl
  obtain ⟨kern, fd, hsetup⟩ := epollSetup_eq d io
  have hinv : ReactorInv (epollSetup d io).1 := by
    rw [hsetup]
    refine ⟨hready.wake, hready.fails, hready.active, ?_, ?_, ?_⟩
    · simp [htrace]
    · simp only [htrace]
      exact judged_nil
    · simp [htrace]
  have hrun := hinv.run ht hclock
  exact ⟨hrun.waits, hrun.stopped⟩

def signalWaits : List WaitOut :=
  let tick (sec : ℤ) : TickIo := idleTickIo sec 57 (.error (Nat.toPNat' 5))
  [.timeout (tick 1), .interrupted ⟨1, 0⟩ ⟨2, 0⟩, .ready ⟨5, true, tick 2⟩ [⟨6, false, tick 2⟩]]

theorem reactor_timeouts_signal :
    (reactorRun (.tuned bareDevice bareDevice) idleDaemon ⟨none, none, none⟩
        signalWaits).ctx.shutdownReq = true ∧
      Judged StoppedForGood (reactorRun (.tuned bareDevice bareDevice) idleDaemon ⟨none, none, none⟩
        signalWaits).trace := by
  have hready : ReactorReady idleDaemon.ctx :=
    ⟨⟨by decide, by decide⟩, by decide, rfl, rfl⟩
  have htick (sec : ℤ) (h : 0 ≤ sec ∧ sec < 2 ^ 63) :
      (idleTickIo sec 57 (.error (Nat.toPNat' 5))).Timely :=
    ⟨Timespec.valid_of_sec h.1 h.2, Timespec.valid_of_sec h.1 h.2, le_rfl⟩
  refine ⟨by decide +kernel, (reactor_timeouts bareDevice bareDevice hready rfl _ ?_).2⟩
  intro out hout
  simp only [signalWaits, List.mem_cons, List.not_mem_nil, or_false] at hout
  rcases hout with rfl | rfl | rfl
  · exact htick 1 (by norm_num)
  · refine ⟨Timespec.valid_of_sec ?_ ?_, Timespec.valid_of_sec ?_ ?_, ?_⟩ <;>
      norm_num [Timespec.ns]
  · intro ev hev
    simp only [List.mem_cons, List.not_mem_nil, or_false] at hev
    rcases hev with rfl | rfl <;> exact htick 2 (by norm_num)

end Pgov
