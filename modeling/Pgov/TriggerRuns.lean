import Pgov.BootState
import Pgov.GovernorRanges

namespace Pgov

open FixedWidth FdTable FdTable.Table Runs

def ArmIo.Works (io : ArmIo) : Prop := io.opens = none ∧ io.write = none ∧ io.add = none

def Armed (d : Daemon) : Prop :=
  0 ≤ d.ctx.trgFd ∧ (d.ctx.epollFd, d.ctx.trgFd) ∈ d.kern.watched

section Steps

variable {p : Policy} {d : Daemon} {io : TickIo}

theorem armTrigger_works (hepoll : 0 ≤ d.ctx.epollFd) {arm : ArmIo} (harm : arm.Works) :
    0 ≤ (armTrigger d arm).ctx.trgFd := by
  obtain ⟨hopens, hwrite, hadd⟩ := harm
  have hfresh : ¬d.kern.fresh < 0 := not_lt.mpr d.kern.fresh_nonneg
  have hopen : pgPsiOpenTrg d.kern arm = (d.kern.openFd .trigger, d.kern.fresh) := by
    simp only [pgPsiOpenTrg, hopens, hwrite]
  have hctl (kern : Kernel) : pgEpollAddTrg kern d.ctx.epollFd d.kern.fresh arm.add =
      (kern.watch d.ctx.epollFd d.kern.fresh, 0) := by
    unfold pgEpollAddTrg
    rw [if_neg (by omega), hadd]
  simp only [armTrigger, hopen, if_neg hfresh, hctl, lt_irrefl, if_false]
  exact d.kern.fresh_nonneg

theorem updateDisp_trg (d : Daemon) (io : TickIo) :
    (updateDisp d io).1.ctx.trgFd = d.ctx.trgFd := by
  have hshown : (dispShown d io).ctx.trgFd = d.ctx.trgFd :=
    dispTransit_slotFd { d.ctx with lastDisp := io.now } _ io.now .trg
  rcases updateDisp_cases d io with ⟨-, heq⟩ | ⟨-, heq⟩ | ⟨-, heq⟩ <;> rw [heq]
  · obtain ⟨kern, lastSweep, hidle⟩ := dispIdle_eq (dispShown d io) io
    rw [hidle]
    exact hshown
  · exact hshown

theorem readPsi_trg (hbooks : FdInv d) (hheld : 0 ≤ d.ctx.trgFd) (harm : io.arm.Works) :
    0 ≤ (readPsi d io).1.ctx.trgFd := by
  rw [readPsi]
  generalize pgPsiRead d.ctx.psi io.psi io.now = red
  obtain ⟨mon, res⟩ := red
  cases res with
  | ok trend => exact hheld
  | error err =>
    apply armTrigger_works _ harm
    simp only [recoverPsi, dropTrigger]
    split
    · exact hbooks.epoll
    · exact hbooks.epoll

theorem pollBattery_trg (hheld : 0 ≤ d.ctx.trgFd) (io : TickIo) :
    (pollBatteryMetrics d io).ctx.trgFd = d.ctx.trgFd := by
  rw [pollBatteryMetrics]
  split
  · rfl
  · simp only [if_neg (not_lt.mpr hheld)]

theorem pollBattery_due (hbooks : FdInv d) (hdue : intToQ16 pgBatChkSec ≤ pgDtSec d.ctx.lastBat io.now)
    (harm : io.arm.Works) : 0 ≤ (pollBatteryMetrics d io).ctx.trgFd := by
  rw [pollBatteryMetrics, if_neg (not_lt.mpr hdue)]
  simp only
  split
  · apply armTrigger_works _ harm
    exact hbooks.epoll
  · next hheld => exact not_lt.mp hheld

theorem pollThermal_trg (p : Policy) (d : Daemon) (io : TickIo) :
    (pollThermalMetrics p d io).ctx.trgFd = d.ctx.trgFd := by
  rw [pollThermalMetrics]
  split
  · rfl
  generalize pollCpuTemp d.ctx io.cpuTemp = polled
  obtain ⟨cpuTemp, tempFails⟩ := polled
  cases cpuTemp <;> rfl

theorem govern_trg (p : Policy) (d : Daemon) (io : TickIo) (psi : PsiTrend) :
    (govern p d io psi).ctx.trgFd = (pollBatteryMetrics d io).ctx.trgFd := by
  have hdem : (calcDemand p d io psi).1.ctx.trgFd = (pollBatteryMetrics d io).ctx.trgFd := by
    rw [calcDemand_eq]
    exact pollThermal_trg p (pollBatteryMetrics d io) io
  unfold govern
  generalize calcDemand p d io psi = demand at hdem
  obtain ⟨d₁, dem⟩ := demand
  obtain ⟨pollState, wake, hgate⟩ := govGate_eq p d₁ io psi dem.pEff
  simp only
  rw [hgate]
  split_ifs
  · exact hdem
  · exact hdem

theorem tick_trg (hbooks : FdInv d) (hheld : 0 ≤ d.ctx.trgFd) (harm : io.arm.Works) :
    0 ≤ (pgGovProcess p d io).ctx.trgFd := by
  have hshown : 0 ≤ (updateDisp (d.log (.tick io.now)) io).1.ctx.trgFd :=
    (updateDisp_trg (d.log (.tick io.now)) io).symm ▸ hheld
  have hinv := (hbooks.log (.tick io.now)).updateDisp io
  cases govProcess_cases p d io with
  | suspended d₁ hdisp wake heq =>
    rw [hdisp] at hshown
    rw [heq]
    exact hshown
  | dormant d₁ hdisp _ heq =>
    rw [hdisp] at hshown
    rw [heq]
    exact hshown
  | failed d₁ d₂ hdisp _ hread heq =>
    rw [hdisp] at hshown hinv
    have hred := readPsi_trg hinv hshown harm
    rw [hread] at hred
    rw [heq]
    exact hred
  | governed d₁ d₂ psi hdisp _ hread heq =>
    rw [hdisp] at hshown hinv
    have hred := readPsi_trg hinv hshown harm
    rw [hread] at hred
    rw [heq]
    change 0 ≤ (govern p d₂ io psi).ctx.trgFd
    rw [govern_trg, pollBattery_trg hred]
    exact hred

end Steps

/-- A tick that gets as far as governing, with a poll of the battery due. -/
def GovernsDue (d : Daemon) (tick : TickIo) : Prop :=
  d.ctx.dormant = false ∧ ∃ d₁ d₂ psi, updateDisp (d.log (.tick tick.now)) tick = (d₁, false) ∧
    readPsi d₁ tick = (d₂, some psi) ∧
    intToQ16 pgBatChkSec ≤ pgDtSec d₂.ctx.lastBat tick.now

section Boot

theorem initSensors_trigger {d : Daemon} {io : SensorsIo} (h : (initSensorsAndTriggers d io).2 = 0)
    (hactive : (initSensorsAndTriggers d io).1.ctx.dormant = false) :
    0 ≤ (initSensorsAndTriggers d io).1.ctx.trgFd := by
  obtain ⟨hframe, htrg⟩ := initSensors_sensorFrame d io
  have hready := (initTempSensors_frame d io).1.trans (initTrigger_frame _ io.trigger)
  rw [htrg h]
  by_contra hneg
  rw [initSensorsAndTriggers, ← initTempSensors] at h
  simp only at h
  rw [if_pos ⟨hready.dormant.trans (hframe.dormant.symm.trans hactive), not_le.mp hneg⟩] at h
  exact hneg h.ge

theorem prepare_trigger {d d' : Daemon} {io : BootIo} (h : daemonPrepare d io = .ok d')
    (hactive : d'.ctx.dormant = false) : 0 ≤ d'.ctx.trgFd := by
  rw [daemonPrepare] at h
  split at h
  · exact absurd h (by simp)
  simp only at h
  split at h
  · exact absurd h (by simp)
  split at h
  · exact absurd h (by simp)
  split at h
  · exact absurd h (by simp)
  generalize hready : Daemon.mk _ _ _ = ready at h
  split at h
  · exact absurd h (by simp)
  · next hret =>
    have hheld := initSensors_trigger (d := ready) (not_not.mp hret)
    cases h
    exact hheld hactive

end Boot

theorem armed_invariant (p : Policy) :
    TickInvariant p (fun tick => tick.arm.Works) fun d => FdInv d ∧ 0 ≤ d.ctx.trgFd := by
  constructor
  · rintro d d' ⟨ev, wake, req, -, rfl⟩ ⟨hbooks, hheld⟩
    refine ⟨hbooks.same rfl fun s => ?_, hheld⟩
    cases s <;> rfl
  · rintro d tick harm ⟨hbooks, hheld⟩
    exact ⟨hbooks.tick p tick, tick_trg hbooks hheld harm⟩

theorem governsDue_trg {p : Policy} {d : Daemon} {tick : TickIo} (hbooks : FdInv d)
    (hdue : GovernsDue d tick) (harm : tick.arm.Works) : 0 ≤ (pgGovProcess p d tick).ctx.trgFd := by
  obtain ⟨hactive, d₁, d₂, psi, hdisp, hread, hbat⟩ := hdue
  cases govProcess_cases p d tick with
  | suspended _ hdisp' => exact absurd (hdisp.symm.trans hdisp') (by simp)
  | dormant _ _ hdormant => exact absurd (hactive.symm.trans hdormant) (by simp)
  | failed d₃ d₄ hdisp' _ hread' =>
    obtain ⟨rfl, -⟩ := Prod.mk.inj (hdisp.symm.trans hdisp')
    exact absurd (hread.symm.trans hread') (by simp)
  | governed d₃ d₄ psi' hdisp' _ hread' heq =>
    obtain ⟨rfl, -⟩ := Prod.mk.inj (hdisp.symm.trans hdisp')
    obtain ⟨rfl, -⟩ := Prod.mk.inj (hread.symm.trans hread')
    have hinv := ((hbooks.log (.tick tick.now)).updateDisp tick)
    rw [hdisp] at hinv
    have hred := hinv.readPsi tick
    rw [hread] at hred
    rw [heq]
    change 0 ≤ (govern p d₂ tick psi').ctx.trgFd
    rw [govern_trg]
    exact pollBattery_due hred hbat harm

/-- While setting a trigger up works, an active daemon never waits without one; and one that was lost
is back after the next tick that governs with the battery due. -/
theorem trigger_kept {static : PgContext} {inherited : Finset ℤ} {io : BootIo} {d : Daemon}
    (hboot : daemonPrepare (daemonStart static inherited) io = .ok d)
    (hactive : d.ctx.dormant = false) (hsetup : (epollSetup d io.setup).2 = 0)
    (waits : List WaitOut) :
    let d' := reactorRun io.policy d io.setup waits
    ((∀ out ∈ waits, out.Ticks fun tick => tick.arm.Works) → Armed d') ∧
      ∀ tick, GovernsDue d' tick → tick.arm.Works → Armed (pgGovProcess io.policy d' tick) := by
  have hprepare := (booted_start static inherited).prepare io
  rw [hboot] at hprepare
  have hinv : FdInv (epollSetup d io.setup).1 := by
    rcases FdBooks.setup hprepare.books hprepare.epoll io.setup with ⟨hret, -⟩ | ⟨-, hinv⟩
    · omega
    · exact hinv
  have hheld : 0 ≤ (epollSetup d io.setup).1.ctx.trgFd := by
    have hopened := prepare_trigger hboot hactive
    obtain ⟨kern, fd, heq⟩ := epollSetup_eq d io.setup
    rw [heq]
    exact hopened
  have hrun : FdInv (reactorRun io.policy d io.setup waits) := hinv.run io.policy waits
  constructor
  · intro harm
    have hkept := ((armed_invariant io.policy).turns ⟨hinv, hheld⟩ harm).2
    exact ⟨hkept, hrun.watched hkept⟩
  · intro tick hdue harm
    have hback := governsDue_trg (p := io.policy) hrun hdue harm
    exact ⟨hback, (hrun.tick io.policy tick).watched hback⟩

def rearmTick : TickIo := { idleTickIo 1 57 (.error (Nat.toPNat' 5)) with arm := ⟨none, none, none⟩ }

theorem smoothBoot_active : ∃ d,
    daemonPrepare (daemonStart idleContext {0, 1, 2}) smoothBoot = .ok d ∧
      d.ctx.dormant = false ∧ (epollSetup d smoothBoot.setup).2 = 0 := by
  have hchecks : ((daemonPrepare (daemonStart idleContext {0, 1, 2}) smoothBoot).toOption.map
      fun d => (d.ctx.dormant, (epollSetup d smoothBoot.setup).2)) = some (false, 0) := by
    decide +kernel
  obtain ⟨d, hboot, hactive⟩ := ok_of_check hchecks
  exact ⟨d, hboot, Prod.mk.inj hactive⟩

theorem trigger_kept_rearmed : ∃ d,
    daemonPrepare (daemonStart idleContext {0, 1, 2}) smoothBoot = .ok d ∧
      Armed (reactorRun smoothBoot.policy d smoothBoot.setup [.timeout rearmTick]) := by
  obtain ⟨d, hboot, hactive, hsetup⟩ := smoothBoot_active
  refine ⟨d, hboot, (trigger_kept hboot hactive hsetup [.timeout rearmTick]).1 ?_⟩
  intro out hout
  rw [List.mem_singleton.mp hout]
  exact ⟨rfl, rfl, rfl⟩

end Pgov
