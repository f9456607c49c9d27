import Pgov.GovernorSteps
import Pgov.MappingDebounce
import Pgov.Runs

namespace Pgov

open FixedWidth Runs

def Dark (reading : ℤ × ℤ) : Prop := 0 ≤ reading.1 ∧ reading.2 ≤ 0

def AllDark (t : List GovEvent) : Prop :=
  ∀ now reading prev next, .disp now reading prev next ∈ t → Dark reading

/-- The display is suspended only at a dark reading, more than ten seconds after a tick from which
on every reading was dark. -/
def SuspendJustified (before : List GovEvent) (e : GovEvent) : Prop :=
  ∀ now reading prev, e = .disp now reading prev .suspend → prev ≠ .suspend →
    Dark reading ∧ ∃ old dark since, before = old ++ .tick since :: dark ∧
      10 * 10 ^ 9 < now.ns - since.ns ∧ AllDark dark

/-- The daemon after a reading, before the housekeeping of a suspended display. -/
def dispShown (d : Daemon) (io : TickIo) : Daemon :=
  let reading := pgSensorReadBl d.ctx.blSensor io.bl
  let ctx := dispTransit { d.ctx with lastDisp := io.now } (dispOn reading) io.now
  Daemon.log { d with ctx } (.disp io.now reading d.ctx.dispState ctx.dispState)

variable {p : Policy} {d d' : Daemon} {io : TickIo}

theorem dispOn_eq_false_iff {reading : ℤ × ℤ} : dispOn reading = false ↔ Dark reading := by
  rw [dispOn, Dark]
  split
  · simp
    omega
  · simp
    omega

def dispReading (d : Daemon) (io : TickIo) : ℤ × ℤ := pgSensorReadBl d.ctx.blSensor io.bl

theorem dispShown_trace (d : Daemon) (io : TickIo) : (dispShown d io).trace = d.trace ++
    [.disp io.now (dispReading d io) d.ctx.dispState (dispShown d io).ctx.dispState] := rfl

theorem dispShown_cases (d : Daemon) (io : TickIo) :
    (¬Dark (dispReading d io) ∧ (dispShown d io).ctx.dispState = .on ∧
      (d.ctx.dispState ≠ .on → (dispShown d io).ctx.psi.firstRun = true ∧
        (dispShown d io).ctx.psi.filter.firstRun = true ∧
        (dispShown d io).ctx.loadState.firstRun = true) ∧
      (d.ctx.dispState = .on → (dispShown d io).ctx.psi = d.ctx.psi)) ∨
    (Dark (dispReading d io) ∧ (dispShown d io).ctx.psi = d.ctx.psi ∧
      (((d.ctx.dispState = .on ∨ d.ctx.dispState = .unknown) ∧
          (dispShown d io).ctx.dispState = .grace ∧ (dispShown d io).ctx.lastDispoff = io.now) ∨
        (d.ctx.dispState = .grace ∧ pgDtSec d.ctx.lastDispoff io.now > intToQ16 10 ∧
          (dispShown d io).ctx.dispState = .suspend) ∨
        ((d.ctx.dispState = .grace ∨ d.ctx.dispState = .suspend) ∧
          (dispShown d io).ctx.dispState = d.ctx.dispState ∧
          (dispShown d io).ctx.lastDispoff = d.ctx.lastDispoff))) := by
  by_cases hdark : Dark (dispReading d io)
  · right
    have hoff : dispOn (pgSensorReadBl d.ctx.blSensor io.bl) = false := dispOn_eq_false_iff.mpr hdark
    refine ⟨hdark, ?_⟩
    simp only [dispShown, Daemon.log, hoff]
    cases hdisp : d.ctx.dispState with
    | unknown => simp [dispTransit]
    | on => simp [dispTransit]
    | grace =>
      by_cases hdt : pgDtSec d.ctx.lastDispoff io.now > intToQ16 10
      · simp [dispTransit, hdt]
      · simp [dispTransit, hdt]
    | suspend => simp [dispTransit]
  · left
    have hon : dispOn (pgSensorReadBl d.ctx.blSensor io.bl) = true := by
      rw [← Bool.not_eq_false]
      exact mt dispOn_eq_false_iff.mp hdark
    refine ⟨hdark, ?_⟩
    simp only [dispShown, Daemon.log, hon]
    by_cases hdisp : d.ctx.dispState = .on
    · simp [dispTransit, hdisp]
    · simp [dispTransit, hdisp, pgKalmanReset]

theorem dispShown_frame (d : Daemon) (io : TickIo) :
    (dispShown d io).kern = d.kern ∧ (dispShown d io).ctx.psi.fd = d.ctx.psi.fd ∧
      (dispShown d io).ctx.psiFails = d.ctx.psiFails ∧
      (dispShown d io).ctx.dormant = d.ctx.dormant ∧
      (dispShown d io).ctx.shutdownReq = d.ctx.shutdownReq := by
  simp only [dispShown, Daemon.log, dispTransit]
  split_ifs <;> simp

theorem dispIdle_eq (d : Daemon) (io : TickIo) : ∃ kern lastSweep,
    dispIdle d io =
      { d with kern, ctx.nextWake := 5000, ctx.lastTick := io.now, ctx.lastSweep := lastSweep } := by
  rw [dispIdle]
  split
  · exact ⟨_, _, rfl⟩
  · exact ⟨_, d.ctx.lastSweep, rfl⟩

theorem updateDisp_cases (d : Daemon) (io : TickIo) :
    (d.ctx.dispState = .on ∧ updateDisp d io = (d, false)) ∨
    ((dispShown d io).ctx.dispState = .suspend ∧
      updateDisp d io = (dispIdle (dispShown d io) io, true)) ∨
    ((dispShown d io).ctx.dispState ≠ .suspend ∧ updateDisp d io = (dispShown d io, false)) := by
  rw [updateDisp]
  split
  · next hskip => exact Or.inl ⟨hskip.1, rfl⟩
  right
  simp only
  split
  · next hsus => exact Or.inl ⟨hsus, rfl⟩
  · next hsus => exact Or.inr ⟨hsus, rfl⟩

/-- While the display is in its grace period, every reading since it went dark was dark, and every
suspension so far is justified. -/
structure DispInv (d : Daemon) : Prop where
  dark : d.ctx.dispState = .grace → d.ctx.lastDispoff.Valid ∧
    ∃ old dark, d.trace = old ++ .tick d.ctx.lastDispoff :: dark ∧ AllDark dark
  justified : Judged SuspendJustified d.trace

theorem DispInv.append (h : DispInv d) (hdisp : d'.ctx.dispState = d.ctx.dispState)
    (hoff : d'.ctx.lastDispoff = d.ctx.lastDispoff)
    (htrace : ∃ ev, d'.trace = d.trace ++ ev ∧ ∀ now r prev next, .disp now r prev next ∉ ev) :
    DispInv d' := by
  obtain ⟨ev, hev, hnone⟩ := htrace
  constructor
  · intro hgrace
    rw [hdisp] at hgrace
    obtain ⟨hvalid, old, dark, heq, hdark⟩ := h.dark hgrace
    rw [hoff]
    refine ⟨hvalid, old, dark ++ ev, ?_, ?_⟩
    · rw [hev, heq, List.append_assoc, List.cons_append]
    · intro now r prev next hmem
      rcases List.mem_append.mp hmem with hmem | hmem
      · exact hdark now r prev next hmem
      · exact absurd hmem (hnone now r prev next)
  · rw [hev]
    apply h.justified.append
    rintro e he before now r prev rfl
    exact absurd he (hnone now r prev .suspend)

theorem DispInv.frame (h : DispInv d) (hframe : Frame d d') : DispInv d' := by
  obtain ⟨ev, hev, hwork⟩ := hframe.trace
  refine h.append hframe.dispState hframe.lastDispoff ⟨ev, hev, ?_⟩
  intro now r prev next hmem
  exact absurd (hwork _ hmem) (by simp [GovEvent.works])

theorem DispInv.shown (h : DispInv d) {old : List GovEvent} (htick : d.trace = old ++ [.tick io.now])
    (hnow : io.now.Valid) : DispInv (dispShown d io) := by
  rcases dispShown_cases d io with ⟨-, hstate, -⟩ | ⟨hdark, -, hcase⟩
  · constructor
    · intro hgrace
      exact absurd (hstate.symm.trans hgrace) (by simp)
    · rw [dispShown_trace]
      apply h.justified.concat
      intro now r prev he
      exact absurd (hstate.symm.trans (GovEvent.disp.inj he).2.2.2) (by simp)
  have hread {now r prev next} {t : List GovEvent} (hall : AllDark t)
      (hmem : .disp now r prev next ∈ t ++ [.disp io.now (dispReading d io) d.ctx.dispState
        (dispShown d io).ctx.dispState]) : Dark r := by
    rcases List.mem_append.mp hmem with hmem | hmem
    · exact hall now r prev next hmem
    · rw [(GovEvent.disp.inj (List.mem_singleton.mp hmem)).2.1]
      exact hdark
  rcases hcase with ⟨-, hstate, hoff⟩ | ⟨hgrace, hdt, hstate⟩ | ⟨-, hstate, hoff⟩
  · constructor
    · intro _
      rw [hoff]
      refine ⟨hnow, old, [_], ?_, fun now r prev next hmem => hread (t := []) ?_ hmem⟩
      · rw [dispShown_trace, htick, List.append_assoc]
        rfl
      · intro now r prev next hmem
        exact absurd hmem (by simp)
    · rw [dispShown_trace]
      apply h.justified.concat
      intro now r prev he
      exact absurd (hstate.symm.trans (GovEvent.disp.inj he).2.2.2) (by simp)
  · obtain ⟨hvalid, older, dark, htrace, hall⟩ := h.dark hgrace
    constructor
    · intro hgrace'
      exact absurd (hstate.symm.trans hgrace') (by simp)
    · rw [dispShown_trace]
      apply h.justified.concat
      intro now r prev he _
      obtain ⟨rfl, rfl, -, -⟩ := GovEvent.disp.inj he
      exact ⟨hdark, older, dark, d.ctx.lastDispoff, htrace,
        ns_of_dtSec hvalid hnow (by norm_num) hdt, hall⟩
  · constructor
    · intro hgrace
      rw [hstate] at hgrace
      obtain ⟨hvalid, older, dark, htrace, hall⟩ := h.dark hgrace
      rw [hoff]
      refine ⟨hvalid, older, dark ++ [_], ?_, fun now r prev next hmem => hread hall hmem⟩
      rw [dispShown_trace, htrace, List.append_assoc, List.cons_append]
    · rw [dispShown_trace]
      apply h.justified.concat
      intro now r prev he hne
      obtain ⟨-, -, hprev, hnext⟩ := GovEvent.disp.inj he
      exact absurd (hprev.symm.trans (hstate.symm.trans hnext)) hne

theorem DispInv.updateDisp (h : DispInv d) {old : List GovEvent}
    (htick : d.trace = old ++ [.tick io.now]) (hnow : io.now.Valid) :
    DispInv (updateDisp d io).1 := by
  have hshown := h.shown htick hnow
  rcases updateDisp_cases d io with ⟨-, heq⟩ | ⟨-, heq⟩ | ⟨-, heq⟩ <;> rw [heq]
  · exact h
  · obtain ⟨kern, lastSweep, hidle⟩ := dispIdle_eq (dispShown d io) io
    rw [hidle]
    exact ⟨hshown.dark, hshown.justified⟩
  · exact hshown

theorem DispInv.readPsi (h : DispInv d) (io : TickIo) : DispInv (readPsi d io).1 := by
  obtain ⟨hdisp, hoff, -, -, htrace⟩ := readPsi_frame d io
  exact h.append hdisp hoff ⟨_, htrace, by simp⟩

theorem DispInv.tick (h : DispInv d) (p : Policy) (hnow : io.now.Valid) :
    DispInv (pgGovProcess p d io) := by
  have hstart : DispInv (d.log (.tick io.now)) := h.append rfl rfl ⟨_, rfl, by simp⟩
  have hshown := hstart.updateDisp rfl hnow
  cases govProcess_cases p d io with
  | suspended d₁ hdisp wake heq =>
    rw [hdisp] at hshown
    rw [heq]
    exact ⟨hshown.dark, hshown.justified⟩
  | dormant d₁ hdisp _ heq =>
    rw [hdisp] at hshown
    rw [heq]
    exact ⟨hshown.dark, hshown.justified⟩
  | failed d₁ d₂ hdisp _ hread heq =>
    rw [hdisp] at hshown
    have hred := hshown.readPsi io
    rw [hread] at hred
    rw [heq]
    exact ⟨hred.dark, hred.justified⟩
  | governed d₁ d₂ psi hdisp _ hread heq =>
    rw [hdisp] at hshown
    have hred := hshown.readPsi io
    rw [hread] at hred
    have hgov := hred.frame (govern_frame p d₂ io psi)
    rw [heq]
    exact ⟨hgov.dark, hgov.justified⟩

def GovEvent.governs : GovEvent → Bool
  | .psi .. => true
  | .thermal => true
  | .sysfs => true
  | _ => false

/-- A tick that ends suspended has not governed; a suspended display stays suspended until a reading
that fails or is positive, and that reading starts the model and both filters afresh before the
pressure is read; the display state is known from the first tick on. -/
structure DispLaw (p : Policy) (d : Daemon) (io : TickIo) : Prop where
  quiet : (pgGovProcess p d io).ctx.dispState = .suspend →
    ∃ ev, (pgGovProcess p d io).trace = d.trace ++ ev ∧ ∀ e ∈ ev, e.governs = false
  stays : d.ctx.dispState = .suspend → Dark (dispReading d io) →
    (pgGovProcess p d io).ctx.dispState = .suspend
  wakes : d.ctx.dispState = .suspend → ¬Dark (dispReading d io) →
    (pgGovProcess p d io).ctx.dispState = .on ∧
      (d.ctx.dormant = false → ∃ ctx ev, (pgGovProcess p d io).trace = d.trace ++
          [.tick io.now, .disp io.now (dispReading d io) .suspend .on, .psi ctx io.now io.psi] ++ ev ∧
        ctx.loadState.firstRun = true ∧ ctx.psi.firstRun = true ∧ ctx.psi.filter.firstRun = true)
  known : (pgGovProcess p d io).ctx.dispState ≠ .unknown

theorem tick_dispState (p : Policy) (d : Daemon) (io : TickIo) :
    (pgGovProcess p d io).ctx.dispState =
      (updateDisp (d.log (.tick io.now)) io).1.ctx.dispState := by
  cases govProcess_cases p d io with
  | suspended d₁ hdisp wake heq => rw [heq, hdisp]
  | dormant d₁ hdisp _ heq => rw [heq, hdisp]
  | failed d₁ d₂ hdisp _ hread heq =>
    have hframe := (readPsi_frame d₁ io).1
    rw [hread] at hframe
    rw [heq, hdisp]
    exact hframe
  | governed d₁ d₂ psi hdisp _ hread heq =>
    have hframe := (readPsi_frame d₁ io).1
    rw [hread] at hframe
    rw [heq, hdisp]
    exact (govern_frame p d₂ io psi).dispState.trans hframe

theorem updateDisp_known (d : Daemon) (io : TickIo) :
    (updateDisp d io).1.ctx.dispState ≠ .unknown := by
  have hshown : (dispShown d io).ctx.dispState ≠ .unknown := by
    rcases dispShown_cases d io with ⟨-, hstate, -⟩ | ⟨-, -, hcase⟩
    · simp [hstate]
    · rcases hcase with ⟨-, hstate, -⟩ | ⟨-, -, hstate⟩ | ⟨hprev, hstate, -⟩
      · simp [hstate]
      · simp [hstate]
      · rcases hprev with hprev | hprev <;> simp [hstate, hprev]
  rcases updateDisp_cases d io with ⟨hon, heq⟩ | ⟨-, heq⟩ | ⟨-, heq⟩ <;> rw [heq]
  · simp [hon]
  · obtain ⟨kern, lastSweep, hidle⟩ := dispIdle_eq (dispShown d io) io
    rw [hidle]
    exact hshown
  · exact hshown

theorem updateDisp_suspended (h : d.ctx.dispState = .suspend) (io : TickIo) :
    (Dark (dispReading d io) → (updateDisp d io).1.ctx.dispState = .suspend) ∧
      (¬Dark (dispReading d io) → updateDisp d io = (dispShown d io, false) ∧
        (dispShown d io).ctx.dispState = .on) := by
  have hne : d.ctx.dispState ≠ .on := by simp [h]
  constructor
  · intro hdark
    rcases updateDisp_cases d io with ⟨hon, -⟩ | ⟨hstate, heq⟩ | ⟨hstate, -⟩
    · exact absurd hon hne
    · obtain ⟨kern, lastSweep, hidle⟩ := dispIdle_eq (dispShown d io) io
      rw [heq, hidle]
      exact hstate
    · rcases dispShown_cases d io with ⟨hlit, -⟩ | ⟨-, -, hcase⟩
      · exact absurd hdark hlit
      · rcases hcase with ⟨hprev, -⟩ | ⟨-, -, hsus⟩ | ⟨-, hsame, -⟩
        · rcases hprev with hprev | hprev <;> simp [h] at hprev
        · exact absurd hsus hstate
        · exact absurd (hsame.trans h) hstate
  · intro hlit
    rcases dispShown_cases d io with ⟨-, hon, -⟩ | ⟨hdark, -⟩
    · rcases updateDisp_cases d io with ⟨hskip, -⟩ | ⟨hstate, -⟩ | ⟨-, heq⟩
      · exact absurd hskip hne
      · exact absurd (hon.symm.trans hstate) (by simp)
      · exact ⟨heq, hon⟩
    · exact absurd hdark hlit

theorem updateDisp_trace (d : Daemon) (io : TickIo) : ∃ ev, (updateDisp d io).1.trace = d.trace ++ ev ∧
    ∀ e ∈ ev, ∃ now reading prev next, e = .disp now reading prev next := by
  rcases updateDisp_cases d io with ⟨-, heq⟩ | ⟨-, heq⟩ | ⟨-, heq⟩ <;> rw [heq]
  · exact ⟨[], by simp, by simp⟩
  · obtain ⟨kern, lastSweep, hidle⟩ := dispIdle_eq (dispShown d io) io
    rw [hidle]
    exact ⟨_, dispShown_trace d io, fun e he => ⟨_, _, _, _, List.mem_singleton.mp he⟩⟩
  · exact ⟨_, dispShown_trace d io, fun e he => ⟨_, _, _, _, List.mem_singleton.mp he⟩⟩

theorem updateDisp_frame (d : Daemon) (io : TickIo) :
    (updateDisp d io).1.ctx.psiFails = d.ctx.psiFails ∧
      (updateDisp d io).1.ctx.dormant = d.ctx.dormant ∧
      (updateDisp d io).1.ctx.shutdownReq = d.ctx.shutdownReq ∧
      ((updateDisp d io).2 = true → (updateDisp d io).1.ctx.nextWake = 5000) := by
  obtain ⟨-, -, hfails, hdormant, hreq⟩ := dispShown_frame d io
  rcases updateDisp_cases d io with ⟨-, heq⟩ | ⟨-, heq⟩ | ⟨-, heq⟩ <;> rw [heq]
  · exact ⟨rfl, rfl, rfl, fun h => absurd h (by simp)⟩
  · obtain ⟨kern, lastSweep, hidle⟩ := dispIdle_eq (dispShown d io) io
    rw [hidle]
    exact ⟨hfails, hdormant, hreq, fun _ => rfl⟩
  · exact ⟨hfails, hdormant, hreq, fun h => absurd h (by simp)⟩

theorem updateDisp_awake {d₁ : Daemon} (h : updateDisp d io = (d₁, false)) :
    d₁.ctx.dispState ≠ .suspend := by
  rcases updateDisp_cases d io with ⟨hon, heq⟩ | ⟨-, heq⟩ | ⟨hstate, heq⟩
  · rw [heq] at h
    obtain ⟨rfl, -⟩ := Prod.mk.inj h
    simp [hon]
  · rw [heq] at h
    exact absurd (congrArg Prod.snd h) (by simp)
  · rw [heq] at h
    obtain ⟨rfl, -⟩ := Prod.mk.inj h
    exact hstate

theorem dispLaw (p : Policy) (d : Daemon) (io : TickIo) : DispLaw p d io := by
  constructor
  · intro hsus
    obtain ⟨ev, hev, hquiet⟩ := updateDisp_trace (d.log (.tick io.now)) io
    refine ⟨.tick io.now :: ev, ?_, ?_⟩
    · rw [tick_dispState] at hsus
      have htrace : (pgGovProcess p d io).trace =
          (updateDisp (d.log (.tick io.now)) io).1.trace := by
        cases govProcess_cases p d io with
        | suspended d₁ hdisp wake heq => rw [heq, hdisp]
        | dormant d₁ hdisp _ heq => rw [heq, hdisp]
        | failed d₁ d₂ hdisp =>
          rw [hdisp] at hsus
          exact absurd hsus (updateDisp_awake hdisp)
        | governed d₁ d₂ psi hdisp =>
          rw [hdisp] at hsus
          exact absurd hsus (updateDisp_awake hdisp)
      rw [htrace, hev, Daemon.log, List.append_assoc]
      rfl
    · intro e he
      rcases List.mem_cons.mp he with rfl | he
      · rfl
      · obtain ⟨now, reading, prev, next, rfl⟩ := hquiet e he
        rfl
  · intro hsus hdark
    rw [tick_dispState]
    exact (updateDisp_suspended (d := d.log (.tick io.now)) hsus io).1 hdark
  · intro hsus hlit
    obtain ⟨heq, hon⟩ := (updateDisp_suspended (d := d.log (.tick io.now)) hsus io).2 hlit
    refine ⟨by rw [tick_dispState, heq, hon], ?_⟩
    intro hdormant
    have hfresh : (dispShown (d.log (.tick io.now)) io).ctx.psi.firstRun = true ∧
        (dispShown (d.log (.tick io.now)) io).ctx.psi.filter.firstRun = true ∧
        (dispShown (d.log (.tick io.now)) io).ctx.loadState.firstRun = true := by
      rcases dispShown_cases (d.log (.tick io.now)) io with ⟨-, -, hfresh, -⟩ | ⟨hdark, -⟩
      · apply hfresh
        change d.ctx.dispState ≠ .on
        simp [hsus]
      · exact absurd hdark hlit
    obtain ⟨hpsi, hfilter, hload⟩ := hfresh
    have hread := (readPsi_frame (dispShown (d.log (.tick io.now)) io) io).2.2.2.2
    rw [dispShown_trace, hon] at hread
    have hend : ∃ ev, (pgGovProcess p d io).trace =
        (readPsi (dispShown (d.log (.tick io.now)) io) io).1.trace ++ ev := by
      cases govProcess_cases p d io with
      | suspended d₁ hdisp => exact absurd (congrArg Prod.snd (heq.symm.trans hdisp)) (by simp)
      | dormant d₁ hdisp hdorm => exact absurd (hdormant.symm.trans hdorm) (by simp)
      | failed d₁ d₂ hdisp _ hred hgov =>
        obtain ⟨rfl, -⟩ := Prod.mk.inj (heq.symm.trans hdisp)
        rw [hgov, hred]
        exact ⟨[], by simp⟩
      | governed d₁ d₂ psi hdisp _ hred hgov =>
        obtain ⟨rfl, -⟩ := Prod.mk.inj (heq.symm.trans hdisp)
        obtain ⟨ev, hev, -⟩ := (govern_frame p d₂ io psi).trace
        rw [hgov, hred]
        exact ⟨ev, hev⟩
    obtain ⟨ev, hev⟩ := hend
    refine ⟨(dispShown (d.log (.tick io.now)) io).ctx, ev, ?_, hload, hpsi, hfilter⟩
    rw [hev, hread]
    simp only [Daemon.log, List.append_assoc, List.cons_append,
      List.nil_append, hsus]
    rfl
  · rw [tick_dispState]
    exact updateDisp_known _ io

theorem suspend_after_dark (p : Policy) {d : Daemon} (hstart : d.ctx.dispState = .unknown)
    (htrace : d.trace = []) {ios : List TickIo} (hvalid : ∀ io ∈ ios, io.now.Valid) :
    Judged SuspendJustified (run (pgGovProcess p) d ios).trace ∧
      Along (pgGovProcess p) (DispLaw p) d ios := by
  have hinv : DispInv d := by
    constructor
    · intro hgrace
      exact absurd (hstart.symm.trans hgrace) (by simp)
    · rw [htrace]
      exact judged_nil
  constructor
  · exact (run_invariant (fun _ _ h hnow => h.tick p hnow) hinv (along_of_mem hvalid d)).justified
  · exact along_of_forall (dispLaw p) d ios

def idleContext : PgContext :=
  let channel : Channel := ⟨sysfsUnmapped, 0⟩
  { psi := pgPsiInit 4 ⟨0, 0⟩
    cpuTempSensor := ⟨-1, scaleMilli⟩
    batTempSensor := ⟨-1, scaleDeci⟩
    batCapSensor := ⟨-1⟩
    blSensor := ⟨[3]⟩
    channels := ⟨channel, channel, channel, channel, channel, channel⟩
    thermalState := pgThermalInit ⟨0, 0⟩
    loadState := ⟨0, 0, 0, 0, true, pgCpuUpdEff 0 0 0⟩
    pollState := pgPollInit ⟨0, 0⟩ ⟨0, 0⟩
    dispState := .unknown
    batLvl := fallbackBatCap
    batTemp := fallbackTempBat
    cachedThScl := q16One
    lastBat := ⟨0, 0⟩
    lastTherm := ⟨0, 0⟩
    lastTick := ⟨0, 0⟩
    lastDispoff := ⟨0, 0⟩
    lastDisp := ⟨0, 0⟩
    lastSweep := ⟨0, 0⟩
    epollFd := -1
    sigFd := 5
    trgFd := 6
    lockFd := -1
    nextWake := pgMinPollMs
    psiFails := 0
    tempFails := 0
    remapDue := false
    dormant := false
    shutdownReq := false
    onTrigger := true
    onTimeout := true }

def idleDaemon : Daemon :=
  { ctx := idleContext
    kern :=
      { inherited := {0, 1, 2}
        opened := {(3, .file), (4, .file), (5, .signal), (6, .trigger)}
        watched := ∅
        faults := 0
        watched_opened := by simp }
    trace := [] }

def psiText (total : UInt8) : ReadOut :=
  .ok (keySome ++ keyAvg10 ++ [50, 32] ++ keyTotal ++ [total, 10])

def idleTickIo (sec : ℤ) (bl : UInt8) (psi : ReadOut) : TickIo :=
  let err := Nat.toPNat' 5
  let update : UpdateIo := ⟨⟨sec, 0⟩, ⟨sec, 0⟩, .failed err⟩
  { now := ⟨sec, 0⟩
    endCalc := ⟨sec, 0⟩
    bl := fun _ => .ok [bl]
    sweep := quietEnv
    sweepSec := sec
    sweepFs := cacheTree
    sweepEnd := ⟨sec, 0⟩
    psi
    del := none
    reopen := none
    arm := ⟨some (Nat.toPNat' 2), none, none⟩
    batCap := .error err
    batTemp := .error err
    cpuTemp := .error err
    pollNow := ⟨sec, 0⟩
    latIo := update
    granIo := update
    wakeIo := update
    migIo := update
    waltIo := update
    uclIo := update }

def darkTicks : List TickIo :=
  [idleTickIo 1 48 (.error 5), idleTickIo 6 48 (.error 5), idleTickIo 12 48 (.error 5)]

theorem suspend_after_dark_eleven :
    (run (pgGovProcess (.tuned bareDevice bareDevice)) idleDaemon darkTicks).ctx.dispState =
        .suspend ∧
      Judged SuspendJustified
        (run (pgGovProcess (.tuned bareDevice bareDevice)) idleDaemon darkTicks).trace := by
  refine ⟨by decide +kernel, (suspend_after_dark (.tuned bareDevice bareDevice) rfl rfl ?_).1⟩
  intro io hio
  simp only [darkTicks, List.mem_cons, List.not_mem_nil, or_false] at hio
  rcases hio with rfl | rfl | rfl <;> exact Timespec.valid_of_sec (by norm_num) (by norm_num)

end Pgov
