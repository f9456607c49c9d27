import Pgov.TriggerRuns

namespace Pgov

open FixedWidth Runs

def GovEvent.Housekeeping : GovEvent → Prop
  | .tick _ => True
  | .disp _ _ _ _ => True
  | .wait timeout => 1 ≤ timeout ∧ timeout ≤ pgMaxPollMs
  | .onTimeout => True
  | .shutdown => True
  | _ => False

/-- The kernel only reports descriptors that exist. -/
def WaitOut.Reported : WaitOut → Prop
  | .ready event events => ∀ ev ∈ event :: events, 0 ≤ ev.fd
  | _ => True

structure DormantInv (d₀ d : Daemon) : Prop where
  same : Ungoverned d₀ d
  kern : d.kern = d₀.kern
  dormant : d.ctx.dormant = true
  trg : d.ctx.trgFd < 0
  wake : 1 ≤ d.ctx.nextWake ∧ d.ctx.nextWake ≤ pgMaxPollMs
  trace : ∀ e ∈ d.trace, e.Housekeeping

section Steps

variable {p : Policy} {d₀ d : Daemon}

theorem DormantInv.log (h : DormantInv d₀ d) {e : GovEvent} (he : e.Housekeeping) :
    DormantInv d₀ (d.log e) := by
  have hworks : e.works = false := by
    cases e <;> simp [GovEvent.Housekeeping] at he <;> rfl
  refine ⟨h.same.trans (.log d hworks), h.kern, h.dormant, h.trg, h.wake, fun e' he' => ?_⟩
  rcases List.mem_append.mp he' with he' | he'
  · exact h.trace e' he'
  · exact List.mem_singleton.mp he' ▸ he

theorem updateDisp_kern (d : Daemon) (io : TickIo) : (updateDisp d io).1.kern = d.kern := by
  rcases updateDisp_cases d io with ⟨-, heq⟩ | ⟨-, heq⟩ | ⟨-, heq⟩ <;> rw [heq]
  · simp only [dispIdle, sweepFds_eq]
    split <;> rfl
  · rfl

theorem DormantInv.shown (h : DormantInv d₀ d) (io : TickIo) {wake : ℤ}
    (hwake : 1 ≤ wake ∧ wake ≤ pgMaxPollMs) :
    DormantInv d₀ { (updateDisp d io).1 with ctx.nextWake := wake } := by
  obtain ⟨ev, hev, hdisp⟩ := updateDisp_trace d io
  obtain ⟨-, hdormant, -⟩ := updateDisp_frame d io
  refine ⟨(h.same.trans (updateDisp_ungoverned d io)).trans (.wake _ _), (updateDisp_kern d io).trans h.kern,
    hdormant.trans h.dormant, (updateDisp_trg d io).trans_lt h.trg, hwake, fun e he => ?_⟩
  change e ∈ (updateDisp d io).1.trace at he
  rw [hev] at he
  rcases List.mem_append.mp he with he | he
  · exact h.trace e he
  · obtain ⟨now, reading, prev, next, rfl⟩ := hdisp e he
    trivial

theorem DormantInv.tick (h : DormantInv d₀ d) (p : Policy) (io : TickIo) :
    DormantInv d₀ (pgGovProcess p d io) := by
  have hticked : DormantInv d₀ (d.log (.tick io.now)) := h.log trivial
  rw [pgGovProcess]
  simp only
  rw [if_pos hticked.dormant, dormantTick]
  generalize d.log (.tick io.now) = d at hticked
  obtain ⟨-, -, -, hsuspended⟩ := updateDisp_frame d io
  cases hdisp : updateDisp d io with
  | mk d₁ suspended =>
    rw [hdisp] at hsuspended
    have hshown {wake : ℤ} (hwake : 1 ≤ wake ∧ wake ≤ pgMaxPollMs) :
        DormantInv d₀ { d₁ with ctx.nextWake := wake } := by
      have hkept := hticked.shown io hwake
      rwa [hdisp] at hkept
    cases suspended with
    | true =>
      have hwake : 1 ≤ d₁.ctx.nextWake ∧ d₁.ctx.nextWake ≤ pgMaxPollMs := by
        rw [hsuspended rfl]
        exact ⟨by norm_num, by decide⟩
      exact hshown hwake
    | false => exact hshown ⟨by decide, le_rfl⟩

theorem DormantInv.requestShutdown (h : DormantInv d₀ d) : DormantInv d₀ (requestShutdown d) :=
  ⟨h.same.trans (LoopFrame.requestShutdown d).ungoverned, h.kern, h.dormant, h.trg, h.wake,
    (h.log (e := .shutdown) trivial).trace⟩

theorem DormantInv.event (h : DormantInv d₀ d) (p : Policy) {ev : ReadyEvent} (hfd : 0 ≤ ev.fd) :
    DormantInv d₀ (epollEvent p d ev) := by
  have hnot : ev.fd ≠ d.ctx.trgFd := by
    intro heq
    have htrg := h.trg
    omega
  rw [epollEvent, if_neg hnot]
  split
  · rw [handleSignalEvent]
    split
    · exact h.requestShutdown
    · exact h
  · exact h

theorem DormantInv.turn (h : DormantInv d₀ d) (p : Policy) {out : WaitOut}
    (hout : out.Timely ∧ out.Reported) : DormantInv d₀ (reactorTurn p d out) := by
  rw [reactorTurn]
  split
  · exact h
  have hwait : DormantInv d₀ (d.log (.wait d.ctx.nextWake)) := h.log h.wake
  cases out with
  | interrupted start finish =>
    obtain ⟨hs, hf, hle⟩ := hout.1
    obtain ⟨hlow, hhigh⟩ := elapsedMs_nonneg hs hf hle
    obtain ⟨h1, h2⟩ := hwait.wake
    rw [pgMaxPollMs] at h2
    simp only [epollInterrupted]
    split
    · exact hwait
    · refine ⟨hwait.same.trans (.wake _ _), hwait.kern, hwait.dormant, hwait.trg, ?_, hwait.trace⟩
      simp only [pgMaxPollMs]
      rw [i32_eq (by omega) (by omega)]
      split_ifs <;> omega
  | failed => exact hwait.requestShutdown
  | timeout io =>
    simp only [handleTimeout]
    split
    · exact (hwait.log (e := .onTimeout) trivial).tick p io
    · exact hwait
  | ready event events =>
    exact run_invariant (fun _ _ hd hev => hd.event p hev) hwait (along_of_mem hout.2 _)

end Steps

/-- A daemon without a single tunable waits at most ten seconds at a time, looks at the display and
sweeps; it reads no pressure, governs nothing, obtains no descriptor and changes no node. -/
theorem dormant_idles {static : PgContext} {inherited : Finset ℤ} {io : BootIo} {d : Daemon}
    (hboot : daemonPrepare (daemonStart static inherited) io = .ok d)
    (hdormant : d.ctx.dormant = true) {waits : List WaitOut}
    (hwaits : ∀ out ∈ waits, out.Timely ∧ out.Reported) :
    let d₀ := (epollSetup d io.setup).1
    let d' := reactorRun io.policy d io.setup waits
    Ungoverned d₀ d' ∧ d'.kern = d₀.kern ∧ d'.ctx.trgFd < 0 ∧ ∀ e ∈ d'.trace, e.Housekeeping := by
  intro d₀ d'
  obtain ⟨hframe, -⟩ := prepare_frame hboot
  have hstart : DormantInv d₀ d₀ := by
    have htrg : d.ctx.trgFd < 0 := (prepare_bootTo hboot).trgFd hdormant (show (-1 : ℤ) < 0 by norm_num)
    have hwake : d.ctx.nextWake = pgMinPollMs := hframe.nextWake
    have htrace : d.trace = [] := hframe.trace
    obtain ⟨kern, fd, heq⟩ := epollSetup_eq d io.setup
    refine ⟨.refl d₀, rfl, ?_, ?_, ?_, ?_⟩
    · simp only [d₀, heq]
      exact hdormant
    · simp only [d₀, heq]
      exact htrg
    · simp only [d₀, heq, hwake]
      exact ⟨by decide, by decide⟩
    · simp only [d₀, heq, htrace]
      simp
  have hrun : DormantInv d₀ d' :=
    run_invariant (fun _ _ hd hout => hd.turn io.policy hout) hstart (along_of_mem hwaits _)
  exact ⟨hrun.same, hrun.kern, hrun.trg, hrun.trace⟩

def bareBoot : BootIo := { smoothBoot with caches := fun _ => ⟨[], 0⟩ }

def nightWaits : List WaitOut :=
  let tick (sec : ℤ) (bl : UInt8) : WaitOut := .timeout (idleTickIo sec bl (.error (Nat.toPNat' 5)))
  [tick 1 57, tick 12 48, tick 23 48, tick 30 57, .failed]

theorem nightWaits_timely : ∀ out ∈ nightWaits, out.Timely ∧ out.Reported := by
  have htick (sec : ℤ) (bl : UInt8) (h : 0 ≤ sec ∧ sec < 2 ^ 63) :
      (idleTickIo sec bl (.error (Nat.toPNat' 5))).Timely :=
    ⟨Timespec.valid_of_sec h.1 h.2, Timespec.valid_of_sec h.1 h.2, le_rfl⟩
  intro out hout
  simp only [nightWaits, List.mem_cons, List.not_mem_nil, or_false] at hout
  rcases hout with rfl | rfl | rfl | rfl | rfl
  · exact ⟨htick 1 57 (by norm_num), trivial⟩
  · exact ⟨htick 12 48 (by norm_num), trivial⟩
  · exact ⟨htick 23 48 (by norm_num), trivial⟩
  · exact ⟨htick 30 57 (by norm_num), trivial⟩
  · exact ⟨trivial, trivial⟩

theorem bareBoot_dormant : ∃ d,
    daemonPrepare (daemonStart idleContext {0, 1, 2}) bareBoot = .ok d ∧
      (d.ctx.dormant, [3, 4].map fun n =>
        (reactorRun bareBoot.policy d bareBoot.setup (nightWaits.take n)).ctx.dispState) =
        (true, [.suspend, .on]) :=
  ok_of_check (by decide +kernel)

theorem dormant_idles_bare : ∃ d,
    daemonPrepare (daemonStart idleContext {0, 1, 2}) bareBoot = .ok d ∧
      (reactorRun bareBoot.policy d bareBoot.setup (nightWaits.take 3)).ctx.dispState = .suspend ∧
      ∀ e ∈ (reactorRun bareBoot.policy d bareBoot.setup nightWaits).trace, e.Housekeeping := by
  obtain ⟨d, hboot, hnight⟩ := bareBoot_dormant
  simp only [List.map_cons, List.map_nil, Prod.mk.injEq, List.cons.injEq, and_true] at hnight
  obtain ⟨hdormant, hsuspend, -⟩ := hnight
  exact ⟨d, hboot, hsuspend, (dormant_idles hboot hdormant nightWaits_timely).2.2.2⟩

end Pgov
