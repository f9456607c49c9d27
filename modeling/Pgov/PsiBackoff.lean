import Pgov.GovernorRanges
import Pgov.Streak

namespace Pgov

open FixedWidth Runs Streak

def GovEvent.psiFailed : GovEvent → Option Bool
  | .psi ctx now out => some (pgPsiRead ctx.psi out now).2.toOption.isNone
  | _ => none

def psiOutcomes (t : List GovEvent) : List Bool := t.filterMap GovEvent.psiFailed

def psiDelay (failures : ℕ) : ℕ := min (1000 * 2 ^ (failures - 1)) 30000

/-- The failures counted are those of the reads so far, as far as they are counted. -/
def PsiCounted (d : Daemon) : Prop :=
  d.ctx.psiFails = min pgPsiFailMax (streak (psiOutcomes d.trace))

section Steps

variable {p : Policy} {d d' d₂ : Daemon} {io : TickIo}

theorem psiOutcomes_append (t ev : List GovEvent) :
    psiOutcomes (t ++ ev) = psiOutcomes t ++ psiOutcomes ev := List.filterMap_append

theorem psiOutcomes_quiet {ev : List GovEvent} (h : ∀ e ∈ ev, e.psiFailed = none) :
    psiOutcomes ev = [] := List.filterMap_eq_nil_iff.mpr h

theorem psiBackoff_eq (failures : ℕ) :
    psiBackoff (count pgPsiFailMax (min pgPsiFailMax failures) true) = psiDelay (failures + 1) := by
  rcases Nat.lt_or_ge failures 6 with h | h
  · interval_cases failures <;> decide
  · have hfull : min pgPsiFailMax failures = pgPsiFailMax := min_eq_left h
    have hcount : count pgPsiFailMax (min pgPsiFailMax failures) true = 6 := by
      rw [hfull]
      decide
    have hpow : 2 ^ 6 ≤ 2 ^ failures := Nat.pow_le_pow_right (by norm_num) h
    rw [hcount, psiDelay, Nat.add_sub_cancel, min_eq_right (by omega)]
    decide

theorem PsiCounted.quiet (h : PsiCounted d) (hfails : d'.ctx.psiFails = d.ctx.psiFails)
    (htrace : ∃ ev, d'.trace = d.trace ++ ev ∧ ∀ e ∈ ev, e.psiFailed = none) : PsiCounted d' := by
  obtain ⟨ev, hev, hquiet⟩ := htrace
  rw [PsiCounted, hfails, hev, psiOutcomes_append, psiOutcomes_quiet hquiet, List.append_nil]
  exact h

theorem PsiCounted.shown (h : PsiCounted d) (io : TickIo) :
    PsiCounted (updateDisp (d.log (.tick io.now)) io).1 := by
  obtain ⟨hfails, -⟩ := updateDisp_frame (d.log (.tick io.now)) io
  obtain ⟨ev, hev, hdisp⟩ := updateDisp_trace (d.log (.tick io.now)) io
  apply h.quiet hfails
  refine ⟨.tick io.now :: ev, by rw [hev, Daemon.log, List.append_assoc, List.singleton_append], ?_⟩
  intro e he
  rcases List.mem_cons.mp he with rfl | he
  · rfl
  · obtain ⟨now, reading, prev, next, rfl⟩ := hdisp e he
    rfl

theorem PsiCounted.read (h : PsiCounted d) (io : TickIo) :
    PsiCounted (readPsi d io).1 ∧ ((readPsi d io).2 = none → (readPsi d io).1.ctx.nextWake =
      psiDelay (streak (psiOutcomes d.trace) + 1)) := by
  have hone (failed : Bool) (hfailed : (GovEvent.psi d.ctx io.now io.psi).psiFailed = some failed) :
      psiOutcomes (d.trace ++ [.psi d.ctx io.now io.psi]) = psiOutcomes d.trace ++ [failed] := by
    rw [psiOutcomes_append, psiOutcomes, psiOutcomes, List.filterMap_cons_some hfailed,
      List.filterMap_nil]
  cases hres : pgPsiRead d.ctx.psi io.psi io.now with
  | mk mon res =>
    cases res with
    | ok trend =>
      have hout := hone false (by rw [GovEvent.psiFailed, hres]; rfl)
      rw [readPsi_ok hres]
      refine ⟨?_, fun hnone => absurd hnone (by simp)⟩
      rw [PsiCounted, hout, streak_succeeded]
      rfl
    | error err =>
      have hout := hone true (by rw [GovEvent.psiFailed, hres]; rfl)
      obtain ⟨kern, fd, mon', -, heq⟩ := readPsi_error hres
      have hnext : psiFailsNext d.ctx.psiFails =
          count pgPsiFailMax (min pgPsiFailMax (streak (psiOutcomes d.trace))) true := by
        rw [← h]
        rfl
      rw [heq]
      constructor
      · rw [PsiCounted, hout, ← count_streak]
        exact hnext
      · intro _
        simp only [hnext, psiBackoff_eq]

theorem PsiCounted.governed (h : PsiCounted d) (p : Policy) (io : TickIo) (psi : PsiTrend) :
    PsiCounted (govern p d io psi) := by
  have hframe := govern_frame p d io psi
  obtain ⟨ev, hev, hwork⟩ := hframe.trace
  refine h.quiet hframe.psiFails ⟨ev, hev, fun e he => ?_⟩
  have hkind := hwork e he
  cases e <;> simp [GovEvent.works] at hkind <;> rfl

theorem psiCounted_invariant (p : Policy) : TickInvariant p (fun _ => True) PsiCounted := by
  constructor
  · rintro d d' ⟨ev, wake, req, hloop, rfl⟩ h
    refine h.quiet rfl ⟨ev, rfl, fun e he => ?_⟩
    have hkind := hloop e he
    cases e <;> simp [GovEvent.inTick] at hkind <;> rfl
  · intro d io _ h
    have hshown := h.shown io
    have hwake {d : Daemon} (h : PsiCounted d) (wake : ℤ) :
        PsiCounted { d with ctx.nextWake := wake } := h
    cases govProcess_cases p d io with
    | suspended d₁ hdisp wake heq =>
      rw [hdisp] at hshown
      rw [heq]
      exact hwake hshown wake
    | dormant d₁ hdisp _ heq =>
      rw [hdisp] at hshown
      rw [heq]
      exact hwake hshown _
    | failed d₁ d₂ hdisp _ hread heq =>
      rw [hdisp] at hshown
      have hred := (hshown.read io).1
      rw [hread] at hred
      rw [heq]
      exact hwake hred _
    | governed d₁ d₂ psi hdisp _ hread heq =>
      rw [hdisp] at hshown
      have hred := (hshown.read io).1
      rw [hread] at hred
      rw [heq]
      exact hwake (hred.governed p io psi) _

end Steps

def Fails (d : Daemon) (tick : TickIo) : Prop :=
  ∃ d₁, updateDisp (d.log (.tick tick.now)) tick = (d₁, false) ∧ (readPsi d₁ tick).2 = none

/-- The daemon waits 1, 2, 4, 8, 16 and then 30 s after failed reads in a row, less the time the tick
took, and starts over after a read that succeeds. -/
theorem psi_backoff {static : PgContext} (hstatic : ZeroedStatic static) {inherited : Finset ℤ}
    {io : BootIo} {d : Daemon} (hboot : daemonPrepare (daemonStart static inherited) io = .ok d)
    (waits : List WaitOut) :
    let d' := reactorRun io.policy d io.setup waits
    PsiCounted d' ∧ ∀ tick, d'.ctx.dormant = false → Fails d' tick →
      (pgGovProcess io.policy d' tick).ctx.nextWake =
        adjWake tick (psiDelay (streak (psiOutcomes d'.trace) + 1)) := by
  have hinit : PsiCounted d := by
    rw [PsiCounted, (prepare_bootTo hboot).psiFails, (prepare_frame hboot).1.trace]
    exact hstatic.psiFails
  have hrun : PsiCounted (reactorRun io.policy d io.setup waits) :=
    (psiCounted_invariant io.policy).reactor (fun _ _ => hinit) fun out _ => out.ticks_any
  refine ⟨hrun, ?_⟩
  generalize reactorRun io.policy d io.setup waits = d' at hrun
  rintro tick hactive ⟨d₁, hdisp, hnone⟩
  have hshown := hrun.shown tick
  have hsame : psiOutcomes d₁.trace = psiOutcomes d'.trace := by
    obtain ⟨ev, hev, hkind⟩ := updateDisp_trace (d'.log (.tick tick.now)) tick
    rw [hdisp] at hev
    have hquiet : psiOutcomes ([.tick tick.now] ++ ev) = [] := by
      apply psiOutcomes_quiet
      intro e he
      rcases List.mem_cons.mp he with rfl | he
      · rfl
      · obtain ⟨now, reading, prev, next, rfl⟩ := hkind e he
        rfl
    rw [hev, Daemon.log, List.append_assoc, psiOutcomes_append, hquiet, List.append_nil]
  rw [hdisp] at hshown
  have hwait := (hshown.read tick).2 hnone
  cases govProcess_cases io.policy d' tick with
  | suspended d₃ hdisp' => exact absurd (hdisp.symm.trans hdisp') (by simp)
  | dormant d₃ hdisp' hdormant => exact absurd (hactive.symm.trans hdormant) (by simp)
  | failed d₃ d₂ hdisp' _ hread heq =>
    obtain ⟨rfl, -⟩ := Prod.mk.inj (hdisp.symm.trans hdisp')
    rw [hread] at hwait
    rw [heq, ← hsame, ← hwait]
  | governed d₃ d₂ psi hdisp' _ hread heq =>
    obtain ⟨rfl, -⟩ := Prod.mk.inj (hdisp.symm.trans hdisp')
    rw [hread] at hnone
    exact absurd hnone (by simp)

theorem psi_backoff_smooth : ∃ d,
    daemonPrepare (daemonStart idleContext {0, 1, 2}) smoothBoot = .ok d ∧
      PsiCounted (reactorRun smoothBoot.policy d smoothBoot.setup lostPsi) := by
  obtain ⟨d, hboot⟩ := smoothBoot_prepared
  exact ⟨d, hboot, (psi_backoff idleContext_zeroed hboot lostPsi).1⟩

end Pgov
