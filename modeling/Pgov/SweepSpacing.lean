import Pgov.DisplayState

namespace Pgov

open FixedWidth Runs

def Sweeping (d : Daemon) (io : TickIo) : Prop :=
  (updateDisp (d.log (.tick io.now)) io).2 = true ∧
    intToQ16 pgSweepIvlSec < pgDtSec d.ctx.lastSweep io.now

instance (d : Daemon) (io : TickIo) : Decidable (Sweeping d io) :=
  inferInstanceAs (Decidable (_ ∧ _))

def sweepTimes (p : Policy) : Daemon → List TickIo → List Timespec
  | _, [] => []
  | d, io :: ios =>
    if Sweeping d io then io.now :: sweepTimes p (pgGovProcess p d io) ios
    else sweepTimes p (pgGovProcess p d io) ios

structure SweepClock (ios : List TickIo) : Prop where
  valid : ∀ io ∈ ios, io.now.Valid ∧ io.sweepEnd.Valid
  sweep : ∀ io ∈ ios, io.now.ns ≤ io.sweepEnd.ns
  next : ios.Pairwise fun io later => io.sweepEnd.ns ≤ later.now.ns

def sweepIvlNs : ℤ := 600 * 10 ^ 9

section Ticks

variable {p : Policy} {d : Daemon} {io : TickIo}

theorem dispShown_lastSweep (d : Daemon) (io : TickIo) :
    (dispShown d io).ctx.lastSweep = d.ctx.lastSweep := by
  simp only [dispShown, Daemon.log, dispTransit]
  split_ifs <;> rfl

theorem updateDisp_lastSweep (d : Daemon) (io : TickIo) :
    (updateDisp d io).1.ctx.lastSweep =
      if (updateDisp d io).2 = true ∧ intToQ16 pgSweepIvlSec < pgDtSec d.ctx.lastSweep io.now
      then io.sweepEnd else d.ctx.lastSweep := by
  rcases updateDisp_cases d io with ⟨-, heq⟩ | ⟨-, heq⟩ | ⟨-, heq⟩ <;> rw [heq]
  · simp
  · have hlast := dispShown_lastSweep d io
    rw [dispIdle]
    simp only [gt_iff_lt, true_and]
    rw [hlast]
    split <;> rfl
  · simpa using dispShown_lastSweep d io

theorem readPsi_lastSweep (d : Daemon) (io : TickIo) :
    (readPsi d io).1.ctx.lastSweep = d.ctx.lastSweep := by
  cases hres : pgPsiRead d.ctx.psi io.psi io.now with
  | mk mon res =>
    cases res with
    | ok trend => rw [readPsi_ok hres]
    | error err =>
      obtain ⟨kern, fd, mon', -, heq⟩ := readPsi_error hres
      rw [heq]

theorem pollBattery_lastSweep (d : Daemon) (io : TickIo) :
    (pollBatteryMetrics d io).ctx.lastSweep = d.ctx.lastSweep := by
  rw [pollBatteryMetrics]
  split
  · rfl
  simp only
  split
  · obtain ⟨kern, fd, heq⟩ := armTrigger_eq { d with
      ctx.batLvl := (pgSensorReadBatCap d.ctx.batCapSensor io.batCap).2
      ctx.batTemp := (pgSensorReadBatTemp d.ctx.batTempSensor io.batTemp).2
      ctx.lastBat := io.now } io.arm
    rw [heq]
  · rfl

theorem pollThermal_lastSweep (p : Policy) (d : Daemon) (io : TickIo) :
    (pollThermalMetrics p d io).ctx.lastSweep = d.ctx.lastSweep := by
  rw [pollThermalMetrics]
  split
  · rfl
  generalize pollCpuTemp d.ctx io.cpuTemp = polled
  obtain ⟨cpuTemp, tempFails⟩ := polled
  cases cpuTemp <;> rfl

theorem govern_lastSweep (p : Policy) (d : Daemon) (io : TickIo) (psi : PsiTrend) :
    (govern p d io psi).ctx.lastSweep = d.ctx.lastSweep := by
  have hdemand : (calcDemand p d io psi).1.ctx.lastSweep = d.ctx.lastSweep := by
    refine Eq.trans ?_ ((pollThermal_lastSweep p _ io).trans (pollBattery_lastSweep d io))
    rw [calcDemand]
  have hgate (d : Daemon) (pEff : ℤ) :
      (govGate p d io psi pEff).1.ctx.lastSweep = d.ctx.lastSweep := by
    unfold govGate
    generalize pgPollCalcNext _ _ _ _ _ = polled
    obtain ⟨pollState, nPoll⟩ := polled
    simp only
    split <;> rfl
  unfold govern
  generalize calcDemand p d io psi = demand at hdemand
  obtain ⟨d₁, dem⟩ := demand
  have hpast := (hgate d₁ dem.pEff).trans hdemand
  simp only
  split
  · next d₂ hgo =>
    rw [hgo] at hpast
    exact hpast
  · next d₂ hgo =>
    rw [hgo] at hpast
    exact hpast

theorem tick_lastSweep (p : Policy) (d : Daemon) (io : TickIo) :
    (pgGovProcess p d io).ctx.lastSweep =
      if Sweeping d io then io.sweepEnd else d.ctx.lastSweep := by
  have hshown : (updateDisp (d.log (.tick io.now)) io).1.ctx.lastSweep =
      if Sweeping d io then io.sweepEnd else d.ctx.lastSweep :=
    updateDisp_lastSweep (d.log (.tick io.now)) io
  cases govProcess_cases p d io with
  | suspended d₁ hdisp wake heq =>
    rw [hdisp] at hshown
    rw [heq]
    exact hshown
  | dormant d₁ hdisp _ heq =>
    rw [hdisp] at hshown
    rw [heq]
    exact hshown
  | failed d₁ d₂ hdisp _ hread heq =>
    have hred := readPsi_lastSweep d₁ io
    rw [hdisp] at hshown
    rw [hread] at hred
    rw [heq]
    exact hred.trans hshown
  | governed d₁ d₂ psi hdisp _ hread heq =>
    have hred := readPsi_lastSweep d₁ io
    rw [hdisp] at hshown
    rw [hread] at hred
    rw [heq]
    exact (govern_lastSweep p d₂ io psi).trans (hred.trans hshown)

theorem sweeping_dark (h : Sweeping d io) (p : Policy) :
    Dark (dispReading d io) ∧ (pgGovProcess p d io).ctx.dispState = .suspend := by
  obtain ⟨hsus, -⟩ := h
  rw [tick_dispState]
  rcases updateDisp_cases (d.log (.tick io.now)) io with ⟨-, heq⟩ | ⟨hstate, heq⟩ | ⟨-, heq⟩
  · rw [heq] at hsus
    exact absurd hsus (by simp)
  · obtain ⟨kern, lastSweep, hidle⟩ := dispIdle_eq (dispShown (d.log (.tick io.now)) io) io
    rw [heq, hidle]
    refine ⟨?_, hstate⟩
    rcases dispShown_cases (d.log (.tick io.now)) io with ⟨-, hon, -⟩ | ⟨hdark, -⟩
    · rw [hon] at hstate
      exact absurd hstate (by simp)
    · exact hdark
  · rw [heq] at hsus
    exact absurd hsus (by simp)

end Ticks

section Runs

variable {p : Policy} {d : Daemon} {io : TickIo} {ios : List TickIo}

theorem SweepClock.tail (h : SweepClock (io :: ios)) : SweepClock ios :=
  ⟨fun io hio => h.valid io (List.mem_cons_of_mem _ hio),
    fun io hio => h.sweep io (List.mem_cons_of_mem _ hio), (List.pairwise_cons.mp h.next).2⟩

theorem lastSweep_le (hclock : SweepClock (io :: ios))
    (hstart : ∀ io' ∈ io :: ios, d.ctx.lastSweep.ns ≤ io'.now.ns) (p : Policy) :
    d.ctx.lastSweep.ns ≤ (pgGovProcess p d io).ctx.lastSweep.ns ∧
      ∀ io' ∈ ios, (pgGovProcess p d io).ctx.lastSweep.ns ≤ io'.now.ns := by
  have hnow := hstart io (by simp)
  have hsweep := hclock.sweep io (by simp)
  rw [tick_lastSweep]
  split
  · exact ⟨hnow.trans hsweep, (List.pairwise_cons.mp hclock.next).1⟩
  · exact ⟨le_rfl, fun io' hio => hstart io' (List.mem_cons_of_mem _ hio)⟩

theorem lastSweep_valid (hlast : d.ctx.lastSweep.Valid) (hclock : SweepClock (io :: ios))
    (p : Policy) : (pgGovProcess p d io).ctx.lastSweep.Valid := by
  rw [tick_lastSweep]
  split
  · exact (hclock.valid io (by simp)).2
  · exact hlast

theorem sweepTimes_after (hlast : d.ctx.lastSweep.Valid) (hclock : SweepClock ios)
    (hstart : ∀ io ∈ ios, d.ctx.lastSweep.ns ≤ io.now.ns) :
    ∀ t ∈ sweepTimes p d ios, sweepIvlNs < t.ns - d.ctx.lastSweep.ns := by
  induction ios generalizing d with
  | nil => simp [sweepTimes]
  | cons io ios ih =>
    obtain ⟨hle, hstart'⟩ := lastSweep_le hclock hstart p
    have hafter := ih (lastSweep_valid hlast hclock p) hclock.tail hstart'
    have hrest : ∀ t ∈ sweepTimes p (pgGovProcess p d io) ios,
        sweepIvlNs < t.ns - d.ctx.lastSweep.ns := by
      intro t ht
      have hgap := hafter t ht
      omega
    rw [sweepTimes]
    split
    · next hdue =>
      intro t ht
      rcases List.mem_cons.mp ht with rfl | ht
      · exact ns_of_dtSec hlast (hclock.valid io (by simp)).1 (by norm_num) hdue.2
      · exact hrest t ht
    · exact hrest

theorem sweepTimes_pairwise (hlast : d.ctx.lastSweep.Valid) (hclock : SweepClock ios)
    (hstart : ∀ io ∈ ios, d.ctx.lastSweep.ns ≤ io.now.ns) :
    (sweepTimes p d ios).Pairwise fun t later => sweepIvlNs < later.ns - t.ns := by
  induction ios generalizing d with
  | nil => exact List.Pairwise.nil
  | cons io ios ih =>
    obtain ⟨-, hstart'⟩ := lastSweep_le hclock hstart p
    have hvalid := lastSweep_valid hlast hclock p
    have hpairs := ih hvalid hclock.tail hstart'
    rw [sweepTimes]
    split
    · next hdue =>
      refine List.pairwise_cons.mpr ⟨fun t ht => ?_, hpairs⟩
      have hgap := sweepTimes_after hvalid hclock.tail hstart' t ht
      have hsweep := hclock.sweep io (by simp)
      rw [tick_lastSweep, if_pos hdue] at hgap
      omega
    · exact hpairs

theorem sweepTimes_length (hlast : d.ctx.lastSweep.Valid) (hclock : SweepClock ios)
    (hstart : ∀ io ∈ ios, d.ctx.lastSweep.ns ≤ io.now.ns) {finish : ℤ}
    (hle : d.ctx.lastSweep.ns ≤ finish) (hfinish : ∀ io ∈ ios, io.sweepEnd.ns ≤ finish) :
    (sweepTimes p d ios).length * sweepIvlNs ≤ finish - d.ctx.lastSweep.ns := by
  induction ios generalizing d with
  | nil =>
    simp only [sweepTimes, List.length_nil]
    omega
  | cons io ios ih =>
    obtain ⟨hmono, hstart'⟩ := lastSweep_le hclock hstart p
    have hvalid := lastSweep_valid hlast hclock p
    have hend : (pgGovProcess p d io).ctx.lastSweep.ns ≤ finish := by
      rw [tick_lastSweep]
      split
      · exact hfinish io (by simp)
      · exact hle
    have hcount := ih hvalid hclock.tail hstart' hend
      fun io hio => hfinish io (List.mem_cons_of_mem _ hio)
    rw [sweepTimes]
    split
    · next hdue =>
      have hgap : sweepIvlNs < io.now.ns - d.ctx.lastSweep.ns :=
        ns_of_dtSec hlast (hclock.valid io (by simp)).1 (by norm_num) hdue.2
      have hsweep := hclock.sweep io (by simp)
      rw [tick_lastSweep, if_pos hdue] at hcount
      rw [List.length_cons, Nat.cast_succ, add_one_mul]
      omega
    · omega

end Runs

/-- Sweeps are more than ten minutes apart, so no time holds more of them than its ten minutes, and
they only run while the display is suspended and dark. -/
theorem sweeps_spaced (p : Policy) {d : Daemon} (hlast : d.ctx.lastSweep.Valid) {ios : List TickIo}
    (hclock : SweepClock ios) (hstart : ∀ io ∈ ios, d.ctx.lastSweep.ns ≤ io.now.ns) :
    Along (pgGovProcess p) (fun d io => Sweeping d io →
        Dark (dispReading d io) ∧ (pgGovProcess p d io).ctx.dispState = .suspend) d ios ∧
      (sweepTimes p d ios).Pairwise (fun t later => sweepIvlNs < later.ns - t.ns) ∧
      ∀ finish : ℤ, d.ctx.lastSweep.ns ≤ finish → (∀ io ∈ ios, io.sweepEnd.ns ≤ finish) →
        (sweepTimes p d ios).length * sweepIvlNs ≤ finish - d.ctx.lastSweep.ns :=
  ⟨along_of_forall (fun _ _ h => sweeping_dark h p) d ios, sweepTimes_pairwise hlast hclock hstart,
    fun _ hle hfinish => sweepTimes_length hlast hclock hstart hle hfinish⟩

def nightTicks : List TickIo :=
  [1, 20, 700, 1400].map fun sec => idleTickIo sec 48 (.error (Nat.toPNat' 5))

theorem nightTicks_clock : SweepClock nightTicks := by
  have hvalid (sec : ℤ) (hsec : sec ∈ [1, 20, 700, (1400 : ℤ)]) : (⟨sec, 0⟩ : Timespec).Valid := by
    simp only [List.mem_cons, List.not_mem_nil, or_false] at hsec
    exact Timespec.valid_of_sec (by omega) (by omega)
  constructor
  · intro io hio
    obtain ⟨sec, hsec, rfl⟩ := List.mem_map.mp hio
    exact ⟨hvalid sec hsec, hvalid sec hsec⟩
  · intro io hio
    obtain ⟨sec, -, rfl⟩ := List.mem_map.mp hio
    exact le_rfl
  · rw [nightTicks, List.pairwise_map]
    simp [idleTickIo, Timespec.ns]

theorem sweeps_spaced_night :
    sweepTimes (.tuned bareDevice bareDevice) idleDaemon nightTicks = [⟨700, 0⟩, ⟨1400, 0⟩] ∧
      (sweepTimes (.tuned bareDevice bareDevice) idleDaemon nightTicks).length * sweepIvlNs ≤
        1400 * 10 ^ 9 - idleDaemon.ctx.lastSweep.ns := by
  have hlast : idleDaemon.ctx.lastSweep.Valid := Timespec.valid_of_sec le_rfl (by norm_num)
  have hstart : ∀ io ∈ nightTicks, idleDaemon.ctx.lastSweep.ns ≤ io.now.ns := by
    simp [nightTicks, idleTickIo, idleDaemon, idleContext, Timespec.ns]
  refine ⟨by decide +kernel, (sweeps_spaced _ hlast nightTicks_clock hstart).2.2 _ ?_ ?_⟩
  · norm_num [idleDaemon, idleContext, Timespec.ns]
  · simp [nightTicks, idleTickIo, Timespec.ns]

end Pgov
