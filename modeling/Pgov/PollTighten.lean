import Pgov.PollRelax

namespace Pgov

open FixedWidth Runs

def Pressed (call : PollCall) : Prop :=
  floatToQ16 15 10 < pollPred call.curPress call.pressVel ∨ intToQ16 2 < call.pressVel

section Tighten

variable {s : PollState} {call : PollCall} {calls : List PollCall}

theorem nextIvl_pressed (h : Pressed call) (curIvl : ℕ) :
    nextIvl curIvl (pollPred call.curPress call.pressVel) call.avg300 call.pressVel ≤
      max 100 (curIvl / 2) := by
  rw [Pressed, busyPred_eq] at h
  rw [nextIvl_eq]
  by_cases hsurge : pollPred call.curPress call.pressVel > 327680 ∨ call.pressVel > intToQ16 2
  · rw [if_pos hsurge]
    omega
  · rw [if_neg hsurge, if_pos (by omega)]
    omega

theorem dampIvl_le {curIvl nxt : ℕ} (h : nxt ≤ curIvl) : dampIvl curIvl nxt = nxt := by
  simp only [dampIvl]
  split_ifs <;> omega

theorem pressed_calc (hivl : s.curIvl ∈ Set.Icc 100 10000) (h : Pressed call) :
    100 ≤ (s.calc call).curIvl ∧ (s.calc call).curIvl ≤ max 100 (s.curIvl / 2) := by
  have hnext := nextIvl_pressed h s.curIvl
  obtain ⟨hlow, hhigh⟩ := hivl
  obtain ⟨-, hout⟩ | ⟨-, hout⟩ :=
    pollCalcNext_cases s call.now call.curPress call.avg300 call.pressVel
  · rw [PollState.calc, hout]
    exact ⟨le_rfl, le_max_left _ _⟩
  · rw [PollState.calc, hout]
    change 100 ≤ dampIvl s.curIvl _ ∧ dampIvl s.curIvl _ ≤ _
    rw [dampIvl_le (by omega)]
    exact ⟨(nextIvl_mem _ _ _ _).1, hnext⟩

theorem pressed_calc_mem (hivl : s.curIvl ∈ Set.Icc 100 10000) (h : Pressed call) :
    (s.calc call).curIvl ∈ Set.Icc 100 10000 := by
  obtain ⟨hlow, hhigh⟩ := pressed_calc hivl h
  have hmax := hivl.2
  exact ⟨hlow, by omega⟩

theorem pressed_run (hivl : s.curIvl ∈ Set.Icc 100 10000) (h : ∀ call ∈ calls, Pressed call) :
    (run PollState.calc s calls).curIvl ∈ Set.Icc 100 10000 ∧
      (run PollState.calc s calls).curIvl ≤ max 100 (s.curIvl / 2 ^ calls.length) := by
  induction calls generalizing s with
  | nil => exact ⟨hivl, by simp⟩
  | cons call calls ih =>
    have hcall := h call (by simp)
    obtain ⟨-, hhalf⟩ := pressed_calc hivl hcall
    obtain ⟨hmem, hrest⟩ := ih (pressed_calc_mem hivl hcall)
      fun c hc => h c (List.mem_cons_of_mem _ hc)
    refine ⟨hmem, hrest.trans (max_le (le_max_left _ _) ?_)⟩
    have hdiv : max 100 (s.curIvl / 2) / 2 ^ calls.length ≤
        max 100 (s.curIvl / 2 / 2 ^ calls.length) := by
      rcases le_total 100 (s.curIvl / 2) with hle | hle
      · rw [max_eq_right hle]
        exact le_max_right _ _
      · rw [max_eq_left hle]
        exact (Nat.div_le_self _ _).trans (le_max_left _ _)
    calc (s.calc call).curIvl / 2 ^ calls.length
        ≤ max 100 (s.curIvl / 2) / 2 ^ calls.length := Nat.div_le_div_right hhalf
      _ ≤ max 100 (s.curIvl / 2 / 2 ^ calls.length) := hdiv
      _ = max 100 (s.curIvl / 2 ^ (call :: calls).length) := by
          rw [Nat.div_div_eq_div_mul, List.length_cons, Nat.pow_succ']

/-- Seven calls under pressure bring the interval to its minimum from anywhere, and from then on the
wait is the minimum but for its jitter, whatever has been drawn for it. -/
theorem pressure_tightens (hivl : s.curIvl ∈ Set.Icc 100 10000)
    (h : ∀ call ∈ calls, Pressed call) (hlen : 7 ≤ calls.length) :
    (run PollState.calc s calls).curIvl = pgMinPollMs ∧
      ∀ call, Pressed call →
        let out := pgPollCalcNext (run PollState.calc s calls) call.now call.curPress call.avg300
          call.pressVel
        out.1.curIvl = pgMinPollMs ∧ pgMinPollMs ≤ out.2 ∧ out.2 ≤ 105 := by
  obtain ⟨hmem, hle⟩ := pressed_run hivl h
  have hmin : s.curIvl / 2 ^ calls.length ≤ 100 := by
    have hpow : 2 ^ 7 ≤ 2 ^ calls.length := Nat.pow_le_pow_right (by norm_num) hlen
    have hhigh := hivl.2
    calc s.curIvl / 2 ^ calls.length ≤ s.curIvl / 2 ^ 7 := Nat.div_le_div_left hpow (by norm_num)
      _ ≤ 100 := by omega
  have hreached : (run PollState.calc s calls).curIvl = pgMinPollMs := by
    have hlow := hmem.1
    rw [pgMinPollMs]
    omega
  refine ⟨hreached, fun call hcall => ?_⟩
  intro out
  obtain ⟨hlow, hhigh⟩ := pressed_calc hmem hcall
  have hivl' : out.1.curIvl = pgMinPollMs := by
    change ((run PollState.calc s calls).calc call).curIvl = pgMinPollMs
    rw [pgMinPollMs] at hreached ⊢
    omega
  have hpaced : PacedPoll out :=
    pollCalcNext_paced hmem call.now call.curPress call.avg300 call.pressVel
  obtain ⟨hwait, -⟩ := hpaced.wait
  have hnear := hpaced.near.2
  have hround : roundIvl pgMinPollMs = 100 := by decide
  rw [hivl', hround] at hnear
  exact ⟨hivl', hwait, by omega⟩

end Tighten

def pressedCalls : List PollCall := List.replicate 7 ⟨⟨0, 0⟩, 131072, 0, 0⟩

theorem pressure_tightens_relaxed :
    (run PollState.calc ⟨10000, 10000, ⟨0, 0⟩, 7⟩ pressedCalls).curIvl = pgMinPollMs := by
  have hpressed (call : PollCall) (hcall : call ∈ pressedCalls) : Pressed call := by
    rw [List.eq_of_mem_replicate hcall]
    exact .inl (by decide)
  have hivl : (⟨10000, 10000, ⟨0, 0⟩, 7⟩ : PollState).curIvl ∈ Set.Icc 100 10000 :=
    ⟨by decide, by decide⟩
  exact (pressure_tightens hivl hpressed (by decide)).1

end Pgov
