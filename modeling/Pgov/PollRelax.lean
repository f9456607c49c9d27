import Pgov.PollOrder
import Pgov.Runs

namespace Pgov

open FixedWidth Runs

structure PollCall where
  now : Timespec
  curPress : ℤ
  avg300 : ℤ
  pressVel : ℤ

def PollState.calc (s : PollState) (call : PollCall) : PollState :=
  (pgPollCalcNext s call.now call.curPress call.avg300 call.pressVel).1

structure Idle (s : PollState) (call : PollCall) : Prop where
  onTime : pollElapsedMs s call.now ≤ s.lastWait + 200
  pred : pollPred call.curPress call.pressVel ≤ floatToQ16 15 10
  vel : call.pressVel ≤ intToQ16 2
  avg300 : call.avg300 < intToQ16 2

def relaxedIvl (curIvl : ℕ) : ℕ := pgMaxPollMs - (pgMaxPollMs - curIvl) % 200

section Relax

variable {s : PollState} {call : PollCall} {calls : List PollCall}

theorem nextIvl_idle (h : Idle s call) :
    nextIvl s.curIvl (pollPred call.curPress call.pressVel) call.avg300 call.pressVel =
      max 100 (min (s.curIvl + 200) 10000) := by
  have hpred := h.pred
  have hvel := h.vel
  rw [busyPred_eq] at hpred
  rw [nextIvl_eq, if_neg (by omega), if_neg (by omega), if_pos h.avg300]

theorem idle_calc (hivl : s.curIvl ∈ Set.Icc 100 10000) (h : Idle s call) :
    (s.calc call).curIvl = if s.curIvl ≤ 9800 then s.curIvl + 200 else s.curIvl := by
  obtain ⟨hlow, hhigh⟩ := hivl
  obtain ⟨hlate, -⟩ | ⟨-, hout⟩ :=
    pollCalcNext_cases s call.now call.curPress call.avg300 call.pressVel
  · have := h.onTime
    omega
  · rw [PollState.calc, hout]
    change dampIvl s.curIvl _ = _
    rw [nextIvl_idle h]
    simp only [dampIvl]
    split_ifs <;> omega

theorem idle_calc_mem (hivl : s.curIvl ∈ Set.Icc 100 10000) (h : Idle s call) :
    (s.calc call).curIvl ∈ Set.Icc 100 10000 := by
  obtain ⟨hlow, hhigh⟩ := hivl
  rw [idle_calc ⟨hlow, hhigh⟩ h]
  split
  · exact ⟨by omega, by omega⟩
  · exact ⟨hlow, hhigh⟩

theorem idle_calc_le (hivl : s.curIvl ∈ Set.Icc 100 10000) (h : Idle s call) :
    s.curIvl ≤ (s.calc call).curIvl := by
  rw [idle_calc hivl h]
  split <;> omega

theorem idle_run (hivl : s.curIvl ∈ Set.Icc 100 10000) (h : Along PollState.calc Idle s calls) :
    (run PollState.calc s calls).curIvl =
      min (s.curIvl + 200 * calls.length) (relaxedIvl s.curIvl) := by
  induction calls generalizing s with
  | nil =>
    have hhigh := hivl.2
    rw [run_nil, List.length_nil, relaxedIvl, pgMaxPollMs]
    omega
  | cons call calls ih =>
    obtain ⟨hidle, hrest⟩ := h
    have hstep := idle_calc hivl hidle
    have hlow := hivl.1
    have hhigh := hivl.2
    rw [run_cons, ih (idle_calc_mem hivl hidle) hrest, hstep, List.length_cons]
    simp only [relaxedIvl, pgMaxPollMs]
    split <;> omega

theorem idle_relaxes (hivl : s.curIvl ∈ Set.Icc 100 10000)
    (h : Along PollState.calc Idle s calls) :
    Along PollState.calc (fun s call => s.curIvl ≤ (s.calc call).curIvl) s calls ∧
      (60 ≤ calls.length →
        (run PollState.calc s calls).curIvl = pgMaxPollMs - (pgMaxPollMs - s.curIvl) % 200 ∧
        ((run PollState.calc s calls).curIvl = pgMaxPollMs ↔ 200 ∣ s.curIvl)) := by
  constructor
  · have hinv (s : PollState) (call : PollCall) (hs : s.curIvl ∈ Set.Icc 100 10000)
        (hidle : Idle s call) : (s.calc call).curIvl ∈ Set.Icc 100 10000 := idle_calc_mem hs hidle
    exact along_of_invariant hinv (fun _ _ hs hidle => idle_calc_le hs hidle) hivl h
  · intro hlen
    have hlow := hivl.1
    have hhigh := hivl.2
    have hrun : (run PollState.calc s calls).curIvl = relaxedIvl s.curIvl := by
      rw [idle_run hivl h, relaxedIvl, pgMaxPollMs]
      omega
    rw [hrun, relaxedIvl, pgMaxPollMs]
    omega

end Relax

section Examples

def quietCalls : List PollCall := List.replicate 60 ⟨⟨0, 0⟩, 0, 0, 0⟩

theorem quiet_idle {s : PollState} (hs : s.lastTick = ⟨0, 0⟩) : Idle s ⟨⟨0, 0⟩, 0, 0, 0⟩ := by
  refine ⟨?_, by decide, by decide, by decide⟩
  have helapsed : pollElapsedMs s ⟨0, 0⟩ = 0 := by
    rw [pollElapsedMs, hs]
    decide
  rw [helapsed]
  omega

theorem quietCalls_idle {s : PollState} (hs : s.lastTick = ⟨0, 0⟩) :
    Along PollState.calc Idle s quietCalls := by
  have hcalls : Along PollState.calc (fun _ call => call = ⟨⟨0, 0⟩, 0, 0, 0⟩) s quietCalls :=
    along_of_mem (fun _ hmem => List.eq_of_mem_replicate hmem) s
  have htick (s : PollState) (call : PollCall) (_ : s.lastTick = ⟨0, 0⟩)
      (hcall : call = ⟨⟨0, 0⟩, 0, 0, 0⟩) : (s.calc call).lastTick = ⟨0, 0⟩ := by
    rw [hcall]
    obtain ⟨-, hout⟩ | ⟨-, hout⟩ := pollCalcNext_cases s ⟨0, 0⟩ 0 0 0
    · rw [PollState.calc, hout]
    · rw [PollState.calc, hout]
      rfl
  have hidle (s : PollState) (call : PollCall) (hs : s.lastTick = ⟨0, 0⟩)
      (hcall : call = ⟨⟨0, 0⟩, 0, 0, 0⟩) : Idle s call := hcall ▸ quiet_idle hs
  exact along_of_invariant htick hidle hs hcalls

theorem idle_relaxes_aligned :
    let s : PollState := ⟨200, 200, ⟨0, 0⟩, 0⟩
    Along PollState.calc (fun s call => s.curIvl ≤ (s.calc call).curIvl) s quietCalls ∧
      (60 ≤ quietCalls.length →
        (run PollState.calc s quietCalls).curIvl = pgMaxPollMs - (pgMaxPollMs - s.curIvl) % 200 ∧
        ((run PollState.calc s quietCalls).curIvl = pgMaxPollMs ↔ 200 ∣ s.curIvl)) := by
  intro s
  exact idle_relaxes ⟨by decide, by decide⟩ (quietCalls_idle rfl)

/-- From the interval `pg_poll_init` sets, polling settles at 9900 ms. -/
theorem idle_below_max :
    ∃ (s : PollState) (calls : List PollCall), s.curIvl ∈ Set.Icc pgMinPollMs pgMaxPollMs ∧
      Along PollState.calc Idle s calls ∧ 60 ≤ calls.length ∧
      (run PollState.calc s calls).curIvl = 9900 ∧
      (run PollState.calc s calls).curIvl ≠ pgMaxPollMs := by
  have hrun : (run PollState.calc (pgPollInit ⟨0, 0⟩ ⟨0, 0⟩) quietCalls).curIvl = 9900 := by
    rw [idle_run ⟨by decide, by decide⟩ (quietCalls_idle rfl)]
    decide
  refine ⟨pgPollInit ⟨0, 0⟩ ⟨0, 0⟩, quietCalls, ⟨by decide, by decide⟩, quietCalls_idle rfl,
    by decide, hrun, ?_⟩
  rw [hrun]
  decide

end Examples

end Pgov
