import Pgov.ReactorRuns

namespace Pgov

open FixedWidth Runs

structure Interruption where
  start : Timespec
  finish : Timespec
  start_valid : start.Valid
  finish_valid : finish.Valid
  le : start.ns ≤ finish.ns

def Interruption.out (w : Interruption) : WaitOut := .interrupted w.start w.finish

def Interruption.slept (w : Interruption) : ℤ := w.finish.ns - w.start.ns

/-- Waits of `slept` ns in `n` pieces only use the timeout up. -/
structure DeadlineKept (slept : ℤ) (n : ℕ) (d d' : Daemon) : Prop where
  frame : LoopFrame d d'
  going : d'.ctx.shutdownReq = d.ctx.shutdownReq
  trace : ∃ ev, d'.trace = d.trace ++ ev ∧ ∀ e ∈ ev, ∃ timeout, e = .wait timeout
  wake : 1 ≤ d'.ctx.nextWake ∧ d'.ctx.nextWake ≤ d.ctx.nextWake
  early : d.ctx.nextWake * 1000000 - slept - 20000 * n ≤ d'.ctx.nextWake * 1000000
  late : d'.ctx.nextWake = 1 ∨
    d'.ctx.nextWake * 1000000 ≤ d.ctx.nextWake * 1000000 - slept + 1020000 * n

section Steps

variable {d d' d'' : Daemon}

theorem Interruption.elapsed (w : Interruption) :
    elapsedMs w.start w.finish * 1000000 ≤ w.slept + 20000 ∧
      (30000 ≤ elapsedMs w.start w.finish ∨
        w.slept ≤ elapsedMs w.start w.finish * 1000000 + 1020000) := by
  obtain ⟨start, finish, hs, hf, hle⟩ := w
  have hfrac := nsecQ16_bounds (finish.nsec - start.nsec)
  obtain ⟨hn0, hn1⟩ := hs.nsec
  obtain ⟨hm0, hm1⟩ := hf.nsec
  have hdt := dtSec_eq hs hf
  simp only [Interruption.slept, Timespec.ns] at hle ⊢
  rw [elapsedMs, hdt, i32_eq (by omega) (by omega)]
  rcases le_total (finish.sec - start.sec) 32000 with hsec | hsec
  · omega
  · omega

theorem ReactorReady.inv (hready : ReactorReady d.ctx) (htrace : d.trace = []) (io : SetupIo) :
    ReactorInv (epollSetup d io).1 := by
  obtain ⟨kern, fd, hsetup⟩ := epollSetup_eq d io
  rw [hsetup]
  refine ⟨hready.wake, hready.fails, hready.active, ?_, ?_, ?_⟩
  · simp [htrace]
  · simp only [htrace]
    exact judged_nil
  · simp [htrace]

theorem LoopFrame.trans (h : LoopFrame d d') (h' : LoopFrame d' d'') : LoopFrame d d'' := by
  obtain ⟨ev, wake, req, hev, rfl⟩ := h
  obtain ⟨ev', wake', req', hev', rfl⟩ := h'
  refine ⟨ev ++ ev', wake', req', ?_, by rw [List.append_assoc]⟩
  intro e he
  exact (List.mem_append.mp he).elim (hev e) (hev' e)

theorem DeadlineKept.refl (hwake : 1 ≤ d.ctx.nextWake) : DeadlineKept 0 0 d d := by
  refine ⟨⟨[], d.ctx.nextWake, d.ctx.shutdownReq, by simp, by rw [List.append_nil]⟩, rfl,
    ⟨[], (List.append_nil _).symm, by simp⟩, ⟨hwake, le_rfl⟩, by simp, .inr (by simp)⟩

theorem DeadlineKept.trans {slept slept' : ℤ} {n n' : ℕ} (h : DeadlineKept slept n d d')
    (h' : DeadlineKept slept' n' d' d'') : DeadlineKept (slept + slept') (n + n') d d'' := by
  obtain ⟨ev, hev, hwaits⟩ := h.trace
  obtain ⟨ev', hev', hwaits'⟩ := h'.trace
  have hearly := h.early
  have hearly' := h'.early
  obtain ⟨hlow, hle⟩ := h.wake
  obtain ⟨hlow', hle'⟩ := h'.wake
  refine ⟨h.frame.trans h'.frame, h'.going.trans h.going, ⟨ev ++ ev', ?_, ?_⟩, ⟨hlow', by omega⟩,
    by push_cast; omega, ?_⟩
  · rw [hev', hev, List.append_assoc]
  · intro e he
    exact (List.mem_append.mp he).elim (hwaits e) (hwaits' e)
  · rcases h'.late with hone | hlate'
    · exact .inl hone
    · rcases h.late with hone | hlate
      · exact .inl (by omega)
      · exact .inr (by push_cast; omega)

theorem DeadlineKept.turn (p : Policy) (hgo : d.ctx.shutdownReq = false)
    (hwake : Paused d.ctx.nextWake) (w : Interruption) :
    DeadlineKept w.slept 1 d (reactorTurn p d w.out) := by
  have hframe : LoopFrame d (reactorTurn p d w.out) := by
    rw [reactorTurn, if_neg (by simp [hgo])]
    exact (LoopFrame.log d rfl).trans (.interrupted _ w.start w.finish)
  obtain ⟨h1, h2⟩ := hwake
  obtain ⟨hnonneg, hbound⟩ := elapsedMs_nonneg w.start_valid w.finish_valid w.le
  obtain ⟨hfast, hslow⟩ := w.elapsed
  have hturn : reactorTurn p d w.out = { d.log (.wait d.ctx.nextWake) with
      ctx.nextWake := max 1 (d.ctx.nextWake - elapsedMs w.start w.finish) } := by
    rw [reactorTurn, if_neg (by simp [hgo])]
    change epollInterrupted (d.log (.wait d.ctx.nextWake)) w.start w.finish = _
    have hmax : (if i32 (d.ctx.nextWake - elapsedMs w.start w.finish) < 1 then 1
        else i32 (d.ctx.nextWake - elapsedMs w.start w.finish)) =
        max 1 (d.ctx.nextWake - elapsedMs w.start w.finish) := by
      rw [i32_eq (by omega) (by omega)]
      split <;> omega
    rw [epollInterrupted, if_neg (by simp only [Daemon.log]; omega), ← hmax]
    rfl
  have hleft : (reactorTurn p d w.out).ctx.nextWake =
      max 1 (d.ctx.nextWake - elapsedMs w.start w.finish) := by rw [hturn]
  refine ⟨hframe, ?_, ⟨[.wait d.ctx.nextWake], ?_, ?_⟩, ?_, ?_, ?_⟩
  · rw [hturn]
    rfl
  · rw [hturn]
    rfl
  · intro e he
    exact ⟨_, List.mem_singleton.mp he⟩
  all_goals
    rw [hleft]
    push_cast
    omega

theorem DeadlineKept.turns (p : Policy) (hgo : d.ctx.shutdownReq = false)
    (hwake : Paused d.ctx.nextWake) (ws : List Interruption) :
    DeadlineKept (ws.map Interruption.slept).sum ws.length d
      (run (reactorTurn p) d (ws.map Interruption.out)) := by
  induction ws generalizing d with
  | nil => exact .refl hwake.1
  | cons w ws ih =>
    have hone := DeadlineKept.turn p hgo hwake w
    have hrest := ih (hone.going.trans hgo) ⟨hone.wake.1, hone.wake.2.trans hwake.2⟩
    have hall := hone.trans hrest
    rw [Nat.add_comm] at hall
    simpa only [List.map_cons, List.sum_cons, List.length_cons, run_cons] using hall

end Steps

/-- However often signals cut the waits short, and whatever has run before, the next callback is due
when it was: up to 0.02 ms an interruption earlier, and 1.02 ms an interruption later. -/
theorem interrupts_keep_deadline (limits configs : Hardware) {d : Daemon}
    (hready : ReactorReady d.ctx) (htrace : d.trace = []) (io : SetupIo) {before : List WaitOut}
    (hclock : ∀ out ∈ before, out.Timely)
    (hgo : (reactorRun (.tuned limits configs) d io before).ctx.shutdownReq = false)
    (ws : List Interruption) :
    DeadlineKept (ws.map Interruption.slept).sum ws.length
      (reactorRun (.tuned limits configs) d io before)
      (reactorRun (.tuned limits configs) d io (before ++ ws.map Interruption.out)) := by
  have hwake : Paused (reactorRun (.tuned limits configs) d io before).ctx.nextWake :=
    ((hready.inv htrace io).run rfl hclock).wake
  have hrun : reactorRun (.tuned limits configs) d io (before ++ ws.map Interruption.out) =
      run (reactorTurn (.tuned limits configs)) (reactorRun (.tuned limits configs) d io before)
        (ws.map Interruption.out) := by
    rw [reactorRun, run_append]
    rfl
  rw [hrun]
  exact .turns _ hgo hwake ws

def halfway : Interruption where
  start := ⟨1, 0⟩
  finish := ⟨1, 50000000⟩
  start_valid := Timespec.valid_of_sec (by norm_num) (by norm_num)
  finish_valid := ⟨by norm_num, by norm_num⟩
  le := by norm_num [Timespec.ns]

theorem interrupts_keep_deadline_halfway :
    DeadlineKept 50000000 1
      (reactorRun (.tuned bareDevice bareDevice) idleDaemon ⟨none, none, none⟩ [])
      (reactorRun (.tuned bareDevice bareDevice) idleDaemon ⟨none, none, none⟩ [halfway.out]) := by
  have hready : ReactorReady idleDaemon.ctx := ⟨⟨by decide, by decide⟩, by decide, rfl, rfl⟩
  have hkept := interrupts_keep_deadline bareDevice bareDevice hready rfl ⟨none, none, none⟩
    (show ∀ out ∈ ([] : List WaitOut), out.Timely by simp) (by decide +kernel) [halfway]
  exact hkept

end Pgov
