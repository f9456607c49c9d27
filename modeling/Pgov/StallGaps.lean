import Pgov.DisplayState

namespace Pgov

open FixedWidth Runs

def psiLine (out : ReadOut) : Option (List UInt8) :=
  match readBuf out 512 with
  | none => none
  | some buf => findSome buf.length buf

def fileAvg10 (out : ReadOut) : Option ℤ :=
  (psiLine out).map fun line => (psiParse true line.length line emptyTrend 0).1.avg10

theorem psiParse_trend (firstRun : Bool) (rounds : ℕ) (buf : List UInt8) (trend : PsiTrend)
    (tot tot' : ℕ) :
    (psiParse firstRun rounds buf trend tot).1 = (psiParse firstRun rounds buf trend tot').1 ∧
      (psiParse firstRun rounds buf trend tot).1.nis = trend.nis := by
  induction rounds generalizing buf trend tot tot' with
  | zero => exact ⟨rfl, rfl⟩
  | succ rounds ih =>
    simp only [psiParse]
    split_ifs
    · exact ⟨rfl, rfl⟩
    · exact ih _ _ _ _
    · exact ih _ _ _ _
    · exact ih _ _ _ _
    · exact ih _ _ _ _
    · exact ih _ _ _ _
    · exact ih _ _ _ _
    · exact ih _ _ _ _

theorem calcKalman_firstRun (mon : PsiMonitor) (trend : PsiTrend) (curTot : ℕ) (dtSec : ℤ) :
    (calcKalman mon trend curTot dtSec).1.firstRun = false := by
  rw [calcKalman]
  split
  · rfl
  · next hfirst => simpa using hfirst

theorem psiRead_ok {mon mon' : PsiMonitor} {out : ReadOut} {now : Timespec} {trend : PsiTrend}
    (h : pgPsiRead mon out now = (mon', .ok trend)) :
    0 ≤ mon.fd ∧ mon'.firstRun = false ∧ mon'.lastReadTs = now ∧ ∃ line, psiLine out = some line ∧
      mon'.lastTot = (psiParse mon.firstRun line.length line emptyTrend mon.lastTot).2 ∧
      trend = (calcKalman mon (psiParse mon.firstRun line.length line emptyTrend mon.lastTot).1
        (psiParse mon.firstRun line.length line emptyTrend mon.lastTot).2 (psiDt mon now)).2 := by
  rw [pgPsiRead] at h
  split at h
  · exact absurd (Prod.mk.inj h).2 (by simp)
  next hfd =>
  split at h
  · exact absurd (Prod.mk.inj h).2 (by simp)
  next buf hbuf =>
  split at h
  · exact absurd (Prod.mk.inj h).2 (by simp)
  next line hline =>
  generalize hparse : psiParse mon.firstRun line.length line emptyTrend mon.lastTot = parsed at h
  obtain ⟨found, curTot⟩ := parsed
  have hfirst := calcKalman_firstRun mon found curTot (psiDt mon now)
  simp only at h
  generalize hcalc : calcKalman mon found curTot (psiDt mon now) = calculated at h hfirst
  obtain ⟨filtered, trend'⟩ := calculated
  obtain ⟨rfl, htrend⟩ := Prod.mk.inj h
  refine ⟨not_lt.mp hfd, hfirst, rfl, line, ?_, ?_, ?_⟩
  · rw [psiLine, hbuf]
    exact hline
  · rw [hparse]
  · rw [hparse, hcalc]
    exact (Except.ok.inj htrend).symm

theorem psiRead_error_mon {mon mon' : PsiMonitor} {out : ReadOut} {now : Timespec} {err : ℤ}
    (h : pgPsiRead mon out now = (mon', .error err)) : mon' = mon := by
  rw [pgPsiRead] at h
  split at h
  · exact (Prod.mk.inj h).1.symm
  split at h
  · exact (Prod.mk.inj h).1.symm
  split at h
  · exact (Prod.mk.inj h).1.symm
  · exact absurd (Prod.mk.inj h).2 (by simp)

theorem psiRead_first {mon mon' : PsiMonitor} {out : ReadOut} {now : Timespec} {trend : PsiTrend}
    (h : pgPsiRead mon out now = (mon', .ok trend)) (hfirst : mon.firstRun = true) :
    fileAvg10 out = some trend.cur ∧ trend.vel = 0 ∧ trend.nis = 0 ∧
      ∀ lastTot lastReadTs filter,
        (pgPsiRead { mon with lastTot, lastReadTs, filter } out now).2 = .ok trend := by
  obtain ⟨hfd, -, -, line, hline, -, htrend⟩ := psiRead_ok h
  obtain ⟨hparse, hnis⟩ := psiParse_trend true line.length line emptyTrend mon.lastTot 0
  have heq : trend =
      { (psiParse true line.length line emptyTrend 0).1 with
        cur := (psiParse true line.length line emptyTrend 0).1.avg10, vel := 0 } := by
    rw [htrend, hfirst, ← hparse]
    simp [calcKalman, hfirst]
  refine ⟨?_, ?_, ?_, ?_⟩
  · rw [fileAvg10, hline, heq]
    rfl
  · rw [heq]
  · rw [heq]
    exact (psiParse_trend true line.length line emptyTrend 0 0).2
  · intro lastTot lastReadTs filter
    have hsame := (psiParse_trend true line.length line emptyTrend lastTot 0).1
    rw [psiLine] at hline
    split at hline
    · exact absurd hline (by simp)
    next buf hbuf =>
    simp [pgPsiRead, not_lt.mpr hfd, hbuf, hline, calcKalman, hfirst, hsame, heq]

theorem psiRead_next {mon mon' : PsiMonitor} {out : ReadOut} {now : Timespec} {trend : PsiTrend}
    (h : pgPsiRead mon out now = (mon', .ok trend)) (hfirst : mon.firstRun = false) :
    trend.cur = (pgKalmanUpdate mon.filter (stallRate mon.lastTot mon'.lastTot (psiDt mon now))
      (psiDt mon now)).2 := by
  obtain ⟨-, -, -, line, -, htot, htrend⟩ := psiRead_ok h
  rw [htrend, htot]
  simp [calcKalman, hfirst]

/-- The total and the time of the last successful read, unless governance has stopped since. -/
def goodRead (last : Option (ℕ × Timespec)) : GovEvent → Option (ℕ × Timespec)
  | .psi ctx now out =>
    match pgPsiRead ctx.psi out now with
    | (mon, .ok _) => some (mon.lastTot, now)
    | (_, .error _) => none
  | .disp _ _ prev next => if prev ≠ .on ∧ next = .on then none else last
  | _ => last

def lastGood (t : List GovEvent) : Option (ℕ × Timespec) := t.foldl goodRead none

/-- A successful read after a gap is a first-run read; any other one measures against the read
before it. -/
def StallJustified (before : List GovEvent) (e : GovEvent) : Prop :=
  ∀ ctx now out mon trend, e = .psi ctx now out → pgPsiRead ctx.psi out now = (mon, .ok trend) →
    match lastGood before with
    | none => fileAvg10 out = some trend.cur ∧ trend.vel = 0 ∧ trend.nis = 0 ∧
        ∀ lastTot lastReadTs filter,
          (pgPsiRead { ctx.psi with lastTot, lastReadTs, filter } out now).2 = .ok trend
    | some (tot, since) => ctx.psi.firstRun = false ∧ ctx.psi.lastTot = tot ∧
        ctx.psi.lastReadTs = since ∧
        trend.cur = (pgKalmanUpdate ctx.psi.filter (stallRate tot mon.lastTot (psiDt ctx.psi now))
          (psiDt ctx.psi now)).2

structure StallInv (d : Daemon) : Prop where
  fresh : lastGood d.trace = none → d.ctx.psi.firstRun = true ∨ d.ctx.psi.fd < 0
  last : ∀ tot since, lastGood d.trace = some (tot, since) →
    d.ctx.psi.firstRun = false ∧ d.ctx.psi.lastTot = tot ∧ d.ctx.psi.lastReadTs = since
  justified : Judged StallJustified d.trace

section Invariant

variable {p : Policy} {d d' : Daemon} {io : TickIo}

theorem lastGood_append (t ev : List GovEvent) : lastGood (t ++ ev) = ev.foldl goodRead (lastGood t) :=
  List.foldl_append

theorem lastGood_of_works {t ev : List GovEvent} (h : ∀ e ∈ ev, e.works = true) :
    lastGood (t ++ ev) = lastGood t := by
  rw [lastGood_append]
  induction ev using List.reverseRecOn with
  | nil => rfl
  | append_singleton ev e ih =>
    rw [List.foldl_append, ih fun d hd => h d (List.mem_append_left _ hd)]
    have he := h e (by simp)
    cases e <;> simp [GovEvent.works] at he <;> rfl

theorem StallInv.append (h : StallInv d) (hpsi : d'.ctx.psi = d.ctx.psi) {ev : List GovEvent}
    (htrace : d'.trace = d.trace ++ ev) (hlast : lastGood (d.trace ++ ev) = lastGood d.trace)
    (hev : ∀ ctx now out, .psi ctx now out ∉ ev) : StallInv d' := by
  rw [← htrace] at hlast
  constructor
  · rw [hpsi, hlast]
    exact h.fresh
  · rw [hpsi, hlast]
    exact h.last
  · rw [htrace]
    apply h.justified.append
    rintro e he before ctx now out mon trend rfl
    exact absurd he (hev ctx now out)

theorem StallInv.frame (h : StallInv d) (hframe : Frame d d') : StallInv d' := by
  obtain ⟨ev, hev, hwork⟩ := hframe.trace
  refine h.append hframe.psi hev (lastGood_of_works hwork) ?_
  intro ctx now out hmem
  exact absurd (hwork _ hmem) (by simp [GovEvent.works])

theorem StallInv.shown (h : StallInv d) (io : TickIo) : StallInv (dispShown d io) := by
  have htrace := dispShown_trace d io
  have hlast : lastGood (dispShown d io).trace =
      if d.ctx.dispState ≠ .on ∧ (dispShown d io).ctx.dispState = .on then none
      else lastGood d.trace := by
    rw [htrace, lastGood_append]
    rfl
  have hjust : Judged StallJustified (dispShown d io).trace := by
    rw [htrace]
    apply h.justified.concat
    intro ctx now out mon trend he
    exact absurd he (by simp)
  rcases dispShown_cases d io with ⟨-, hon, hfresh, hsame⟩ | ⟨-, hsame, hcase⟩
  · by_cases hprev : d.ctx.dispState = .on
    · rw [if_neg (by simp [hprev])] at hlast
      refine ⟨?_, ?_, hjust⟩
      · rw [hlast, hsame hprev]
        exact h.fresh
      · rw [hlast, hsame hprev]
        exact h.last
    · rw [if_pos ⟨hprev, hon⟩] at hlast
      refine ⟨fun _ => Or.inl (hfresh hprev).1, ?_, hjust⟩
      intro tot since hsome
      exact absurd (hlast.symm.trans hsome) (by simp)
  · have hoff : ¬(d.ctx.dispState ≠ .on ∧ (dispShown d io).ctx.dispState = .on) := by
      rintro ⟨hne, hnext⟩
      rcases hcase with ⟨-, hstate, -⟩ | ⟨-, -, hstate⟩ | ⟨-, hstate, -⟩
      · exact absurd (hstate.symm.trans hnext) (by simp)
      · exact absurd (hstate.symm.trans hnext) (by simp)
      · exact hne (hstate.symm.trans hnext)
    rw [if_neg hoff] at hlast
    refine ⟨?_, ?_, hjust⟩
    · rw [hlast, hsame]
      exact h.fresh
    · rw [hlast, hsame]
      exact h.last

theorem StallInv.updateDisp (h : StallInv d) (io : TickIo) : StallInv (updateDisp d io).1 := by
  have hshown := h.shown io
  rcases updateDisp_cases d io with ⟨-, heq⟩ | ⟨-, heq⟩ | ⟨-, heq⟩ <;> rw [heq]
  · exact h
  · obtain ⟨kern, lastSweep, hidle⟩ := dispIdle_eq (dispShown d io) io
    rw [hidle]
    exact ⟨hshown.fresh, hshown.last, hshown.justified⟩
  · exact hshown

theorem StallInv.readPsi (h : StallInv d) (io : TickIo) : StallInv (readPsi d io).1 := by
  obtain ⟨mon, res, hread⟩ : ∃ mon res, pgPsiRead d.ctx.psi io.psi io.now = (mon, res) :=
    ⟨_, _, rfl⟩
  have hlast : lastGood (d.trace ++ [.psi d.ctx io.now io.psi]) =
      goodRead (lastGood d.trace) (.psi d.ctx io.now io.psi) := lastGood_append _ _
  rw [goodRead, hread] at hlast
  cases res with
  | ok trend =>
    obtain ⟨hfd, hfirst, hts, -⟩ := psiRead_ok hread
    rw [readPsi_ok hread]
    refine ⟨?_, ?_, ?_⟩
    · intro hnone
      exact absurd (hlast.symm.trans hnone) (by simp)
    · intro tot since hsome
      obtain ⟨rfl, rfl⟩ := Prod.mk.inj (Option.some.inj (hlast.symm.trans hsome))
      exact ⟨hfirst, rfl, hts⟩
    · apply h.justified.concat
      intro ctx now out mon' trend' he hread'
      obtain ⟨rfl, rfl, rfl⟩ := GovEvent.psi.inj he
      split
      · next hnone =>
        apply psiRead_first hread'
        rcases h.fresh hnone with hfresh | hneg
        · exact hfresh
        · exact absurd hneg (not_lt.mpr hfd)
      · next tot since hsome =>
        obtain ⟨hfirst', rfl, hts'⟩ := h.last tot since hsome
        exact ⟨hfirst', rfl, hts', psiRead_next hread' hfirst'⟩
  | error err =>
    obtain ⟨kern, fd, mon', hfresh, heq⟩ := readPsi_error hread
    rw [heq]
    refine ⟨fun _ => hfresh.symm, ?_, ?_⟩
    · intro tot since hsome
      exact absurd (hlast.symm.trans hsome) (by simp)
    · apply h.justified.concat
      intro ctx now out mon' trend he hread'
      obtain ⟨rfl, rfl, rfl⟩ := GovEvent.psi.inj he
      exact absurd (Prod.mk.inj (hread.symm.trans hread')).2 (by simp)

theorem StallInv.tick (h : StallInv d) (p : Policy) (io : TickIo) :
    StallInv (pgGovProcess p d io) := by
  have hstart : StallInv (d.log (.tick io.now)) := by
    refine h.append rfl rfl ?_ (by simp)
    rw [lastGood_append]
    rfl
  have hshown := hstart.updateDisp io
  cases govProcess_cases p d io with
  | suspended d₁ hdisp wake heq =>
    rw [hdisp] at hshown
    rw [heq]
    exact ⟨hshown.fresh, hshown.last, hshown.justified⟩
  | dormant d₁ hdisp _ heq =>
    rw [hdisp] at hshown
    rw [heq]
    exact ⟨hshown.fresh, hshown.last, hshown.justified⟩
  | failed d₁ d₂ hdisp _ hread heq =>
    rw [hdisp] at hshown
    have hred := hshown.readPsi io
    rw [hread] at hred
    rw [heq]
    exact ⟨hred.fresh, hred.last, hred.justified⟩
  | governed d₁ d₂ psi hdisp _ hread heq =>
    rw [hdisp] at hshown
    have hred := hshown.readPsi io
    rw [hread] at hred
    have hgov := hred.frame (govern_frame p d₂ io psi)
    rw [heq]
    exact ⟨hgov.fresh, hgov.last, hgov.justified⟩

theorem stall_after_gap (p : Policy) {d : Daemon} {fd : ℤ} {since : Timespec}
    (hinit : d.ctx.psi = pgPsiInit fd since) (htrace : d.trace = []) (ios : List TickIo) :
    Judged StallJustified (run (pgGovProcess p) d ios).trace := by
  have hinv : StallInv d := by
    refine ⟨fun _ => Or.inl (by rw [hinit]; rfl), ?_, ?_⟩
    · intro tot since hsome
      rw [htrace] at hsome
      exact absurd hsome (by simp [lastGood])
    · rw [htrace]
      exact judged_nil
  exact (run_invariant (fun _ io h _ => h.tick p io) hinv (along_of_forall (fun _ _ => trivial) d ios)
    (P := fun _ _ => True)).justified

end Invariant

def failingTicks : List TickIo :=
  [idleTickIo 1 57 (psiText 55), idleTickIo 2 57 (.error (Nat.toPNat' 5)),
    idleTickIo 3 57 (psiText 57)]

theorem stall_after_gap_failure :
    (run (pgGovProcess (.tuned bareDevice bareDevice)) idleDaemon failingTicks).ctx.psi.lastTot = 9 ∧
      Judged StallJustified
        (run (pgGovProcess (.tuned bareDevice bareDevice)) idleDaemon failingTicks).trace :=
  ⟨by decide +kernel, stall_after_gap (.tuned bareDevice bareDevice) rfl rfl failingTicks⟩

end Pgov
