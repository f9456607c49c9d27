import Pgov.PollInterval

namespace Pgov

open FixedWidth

def pollPred (curPress pressVel : ℤ) : ℤ := i32 (curPress + q16Mul pressVel q16Half)

def roundIvl (ivl : ℕ) : ℕ := clampIvl ((ivl + 25) / 50 * 50) pgMinPollMs pgMaxPollMs

def nextRng (state : PollState) : ℕ := (state.rngState * 6364136223846793005 + 1) % 2 ^ 64

/-- A wait of `ivl` with a draw `r` out of `2 ^ 64`. -/
def jittered (r ivl : ℕ) : ℕ :=
  clampIvl (roundIvl ivl - roundIvl ivl / 20 + r * (2 * (roundIvl ivl / 20) + 1) / 2 ^ 64)
    pgMinPollMs pgMaxPollMs

structure PacedPoll (out : PollState × ℕ) : Prop where
  curIvl : out.1.curIvl ∈ Set.Icc pgMinPollMs pgMaxPollMs
  wait : out.2 ∈ Set.Icc pgMinPollMs pgMaxPollMs
  lastWait : out.1.lastWait = out.2
  near : 19 * roundIvl out.1.curIvl ≤ 20 * out.2 ∧ 20 * out.2 ≤ 21 * roundIvl out.1.curIvl

theorem clampIvl_eq {lo hi : ℕ} (h : lo ≤ hi) (ivl : ℕ) :
    clampIvl ivl lo hi = max lo (min ivl hi) := by
  simp only [clampIvl]
  split_ifs <;> omega

theorem clampIvl_mono {lo hi v w : ℕ} (hm : lo ≤ hi) (h : v ≤ w) :
    clampIvl v lo hi ≤ clampIvl w lo hi := by
  rw [clampIvl_eq hm, clampIvl_eq hm]
  exact max_le_max_left _ (min_le_min_right _ h)

theorem roundIvl_mem (ivl : ℕ) : 100 ≤ roundIvl ivl ∧ roundIvl ivl ≤ 10000 :=
  clampIvl_mem (by decide) _

theorem roundIvl_mono {v w : ℕ} (h : v ≤ w) : roundIvl v ≤ roundIvl w := by
  apply clampIvl_mono (by decide)
  omega

section Jitter

variable {r v w : ℕ}

theorem noise_le (hr : r < 2 ^ 64) (n : ℕ) : r * (2 * n + 1) / 2 ^ 64 ≤ 2 * n := by
  have hlt : r * (2 * n + 1) < 2 ^ 64 * (2 * n + 1) := Nat.mul_lt_mul_of_pos_right hr (by omega)
  have := Nat.div_lt_of_lt_mul hlt
  omega

theorem jittered_mono (r : ℕ) (h : v ≤ w) : jittered r v ≤ jittered r w := by
  have hround := roundIvl_mono h
  have hnoise : r * (2 * (roundIvl v / 20) + 1) / 2 ^ 64 ≤
      r * (2 * (roundIvl w / 20) + 1) / 2 ^ 64 := by
    apply Nat.div_le_div_right
    apply Nat.mul_le_mul_left
    omega
  apply clampIvl_mono (by decide)
  omega

theorem jittered_near (hr : r < 2 ^ 64) (ivl : ℕ) :
    19 * roundIvl ivl ≤ 20 * jittered r ivl ∧ 20 * jittered r ivl ≤ 21 * roundIvl ivl := by
  have hnoise := noise_le hr (roundIvl ivl / 20)
  obtain ⟨hlow, hhigh⟩ := roundIvl_mem ivl
  rw [jittered, clampIvl_eq (by decide), pgMinPollMs, pgMaxPollMs]
  omega

theorem jitter_eq (state : PollState) (ivl : ℕ) :
    jitter state ivl pgMinPollMs pgMaxPollMs =
      ({ state with rngState := nextRng state }, jittered (nextRng state) ivl) := by
  obtain ⟨hlow, hhigh⟩ := roundIvl_mem ivl
  have hamp : roundIvl ivl * 5 / 100 = roundIvl ivl / 20 := by omega
  have hnoise := noise_le (r := nextRng state) (Nat.mod_lt _ (by norm_num)) (roundIvl ivl / 20)
  have hround : clampIvl ((ivl + 50 / 2) / 50 * 50) pgMinPollMs pgMaxPollMs = roundIvl ivl := rfl
  simp only [jitter, hround, hamp]
  rw [if_neg (by omega), nextRandom, if_neg (by omega), ← nextRng, mul_comm (roundIvl ivl / 20) 2]
  simp only [jittered]
  generalize nextRng state * (2 * (roundIvl ivl / 20) + 1) / 2 ^ 64 = noise at hnoise ⊢
  generalize roundIvl ivl = c at *
  congr 2
  split_ifs <;> omega

end Jitter

section Cascade

variable {curIvl nxt nxt' : ℕ} {pred pred' vel vel' : ℤ}

theorem surgePred_eq : intToQ16 5 = 327680 := by decide

theorem busyPred_eq : floatToQ16 15 10 = 98304 := by decide

theorem nextIvl_eq (curIvl : ℕ) (pred avg300 vel : ℤ) : nextIvl curIvl pred avg300 vel =
    max 100 (min
      (if pred > 327680 ∨ vel > intToQ16 2 then 100
        else if pred > 98304 then curIvl / 2
        else if avg300 < intToQ16 2 then curIvl + 200
        else curIvl) 10000) := by
  rw [← clampIvl_eq (by norm_num)]
  simp only [nextIvl, clampIvl, surgePred_eq, busyPred_eq, pgMinPollMs, pgMaxPollMs]
  generalize (if pred > 327680 ∨ vel > intToQ16 2 then 100 else _) = nxt
  split_ifs <;> omega

theorem nextIvl_mem (curIvl : ℕ) (pred avg300 vel : ℤ) :
    100 ≤ nextIvl curIvl pred avg300 vel ∧ nextIvl curIvl pred avg300 vel ≤ 10000 := by
  rw [nextIvl_eq]
  omega

theorem nextIvl_anti (avg300 : ℤ) (hivl : 100 ≤ curIvl) (hpred : pred ≤ pred') (hvel : vel ≤ vel') :
    nextIvl curIvl pred' avg300 vel' ≤ nextIvl curIvl pred avg300 vel := by
  rw [nextIvl_eq, nextIvl_eq]
  by_cases hsurge : pred' > 327680 ∨ vel' > intToQ16 2
  · rw [if_pos hsurge]
    omega
  · have hcalm : ¬(pred > 327680 ∨ vel > intToQ16 2) := by omega
    rw [if_neg hsurge, if_neg hcalm]
    apply max_le_max_left
    apply min_le_min_right
    split_ifs <;> omega

theorem dampIvl_mono (curIvl : ℕ) (h : nxt ≤ nxt') : dampIvl curIvl nxt ≤ dampIvl curIvl nxt' := by
  simp only [dampIvl]
  split_ifs <;> omega

theorem dampIvl_mem (hivl : curIvl ∈ Set.Icc 100 10000) (hnxt : 100 ≤ nxt ∧ nxt ≤ 10000) :
    dampIvl curIvl nxt ∈ Set.Icc 100 10000 := by
  simp only [dampIvl]
  split_ifs
  all_goals first
    | exact hnxt
    | exact hivl

end Cascade

def pollPaced (state : PollState) (now : Timespec) (curIvl : ℕ) : PollState × ℕ :=
  let wait := jittered (nextRng state) curIvl
  ({ curIvl, lastWait := wait, lastTick := now, rngState := nextRng state }, wait)

theorem pollCalcNext_cases (state : PollState) (now : Timespec) (curPress avg300 pressVel : ℤ) :
    (pollElapsedMs state now > state.lastWait + 200 ∧
      pgPollCalcNext state now curPress avg300 pressVel =
        ({ state with lastTick := now, curIvl := pgMinPollMs, lastWait := pgMinPollMs },
          pgMinPollMs)) ∨
    (pollElapsedMs state now ≤ state.lastWait + 200 ∧
      pgPollCalcNext state now curPress avg300 pressVel = pollPaced state now
        (dampIvl state.curIvl
          (nextIvl state.curIvl (pollPred curPress pressVel) avg300 pressVel))) := by
  by_cases hlate : pollElapsedMs state now > state.lastWait + 200
  · left
    exact ⟨hlate, by rw [pgPollCalcNext, if_pos hlate]⟩
  · right
    refine ⟨by omega, ?_⟩
    rw [pgPollCalcNext, if_neg hlate, ← pollPred]
    simp only [jitter_eq]
    rfl

theorem pollPred_mono {p p' v v' : ℤ} (hv : Fits 32 v) (hv' : Fits 32 v') (hp : p ≤ p')
    (hle : v ≤ v') (hfit : Fits 32 (p + q16Mul v q16Half))
    (hfit' : Fits 32 (p' + q16Mul v' q16Half)) : pollPred p v ≤ pollPred p' v' := by
  rw [fits32_iff] at hv hv'
  rw [pollPred, pollPred, i32_of_fits hfit, i32_of_fits hfit']
  rw [q16Half, q16Mul_eq (by omega) (by omega), q16Mul_eq (by omega) (by omega)]
  omega

theorem pollPaced_paced (state : PollState) (now : Timespec) {curIvl : ℕ}
    (hivl : curIvl ∈ Set.Icc 100 10000) : PacedPoll (pollPaced state now curIvl) :=
  ⟨hivl, clampIvl_mem (by decide) _, rfl, jittered_near (Nat.mod_lt _ (by norm_num)) _⟩

theorem paced_late (state : PollState) (now : Timespec) :
    PacedPoll ({ state with lastTick := now, curIvl := pgMinPollMs, lastWait := pgMinPollMs },
      pgMinPollMs) := by
  have hmem : pgMinPollMs ∈ Set.Icc pgMinPollMs pgMaxPollMs := ⟨le_rfl, by decide⟩
  refine ⟨hmem, hmem, rfl, ?_⟩
  change 19 * roundIvl pgMinPollMs ≤ 20 * pgMinPollMs ∧ 20 * pgMinPollMs ≤ 21 * roundIvl pgMinPollMs
  decide

theorem pollCalcNext_paced {state : PollState} (hivl : state.curIvl ∈ Set.Icc 100 10000)
    (now : Timespec) (curPress avg300 pressVel : ℤ) :
    PacedPoll (pgPollCalcNext state now curPress avg300 pressVel) := by
  obtain ⟨-, hout⟩ | ⟨-, hout⟩ := pollCalcNext_cases state now curPress avg300 pressVel
  · rw [hout]
    exact paced_late state now
  · rw [hout]
    exact pollPaced_paced state now (dampIvl_mem hivl (nextIvl_mem _ _ _ _))

section Order

variable {state : PollState} {p p' v v' : ℤ}

theorem pressure_shortens_wait (hivl : state.curIvl ∈ Set.Icc 100 10000) (hv : Fits 32 v)
    (hv' : Fits 32 v') (hp : p ≤ p') (hle : v ≤ v') (hfit : Fits 32 (p + q16Mul v q16Half))
    (hfit' : Fits 32 (p' + q16Mul v' q16Half)) (now : Timespec) (avg300 : ℤ) :
    let less := pgPollCalcNext state now p avg300 v
    let more := pgPollCalcNext state now p' avg300 v'
    more.2 ≤ less.2 ∧ more.1.curIvl ≤ less.1.curIvl ∧ PacedPoll less ∧ PacedPoll more := by
  intro less more
  have horder : more.2 ≤ less.2 ∧ more.1.curIvl ≤ less.1.curIvl := by
    have hpred := pollPred_mono hv hv' hp hle hfit hfit'
    have hivl' := dampIvl_mono state.curIvl (nextIvl_anti avg300 hivl.1 hpred hle)
    obtain ⟨hlate, hless⟩ | ⟨hdue, hless⟩ := pollCalcNext_cases state now p avg300 v
    · obtain ⟨-, hmore⟩ | ⟨hdue, -⟩ := pollCalcNext_cases state now p' avg300 v'
      · simp only [less, more, hless, hmore, le_refl, and_self]
      · omega
    · obtain ⟨hlate, -⟩ | ⟨-, hmore⟩ := pollCalcNext_cases state now p' avg300 v'
      · omega
      · simp only [less, more, hless, hmore, pollPaced]
        exact ⟨jittered_mono _ hivl', hivl'⟩
  exact ⟨horder.1, horder.2, pollCalcNext_paced hivl now p avg300 v,
    pollCalcNext_paced hivl now p' avg300 v'⟩

end Order

theorem pressure_shortens_wait_surge :
    let state : PollState := ⟨1250, 1250, ⟨0, 0⟩, 7⟩
    let less := pgPollCalcNext state ⟨1, 0⟩ 65536 0 0
    let more := pgPollCalcNext state ⟨1, 0⟩ 131072 0 65536
    more.2 ≤ less.2 ∧ more.1.curIvl ≤ less.1.curIvl ∧ PacedPoll less ∧ PacedPoll more :=
  pressure_shortens_wait ⟨by decide, by decide⟩ (by decide) (by decide) (by decide) (by decide)
    (by decide) (by decide) ⟨1, 0⟩ 0

end Pgov
