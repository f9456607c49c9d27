import Pgov.PgTime

namespace Pgov

open FixedWidth

def pgMinPollMs : ℕ := 100
def pgMaxPollMs : ℕ := 10000

structure PollState where
  curIvl : ℕ
  lastWait : ℕ
  lastTick : Timespec
  rngState : ℕ
  deriving DecidableEq, Repr

def pgPollInit (mono real : Timespec) : PollState :=
  { curIvl := pgMinPollMs, lastWait := pgMinPollMs, lastTick := mono,
    rngState := (u64 (u64 real.sec * 1000000000 + real.nsec)).toNat }

/-- The build with 128-bit products. -/
def nextRandom (state : PollState) (range : ℕ) : PollState × ℕ :=
  if range = 0 then (state, 0)
  else
    let rngState := (state.rngState * 6364136223846793005 + 1) % 2 ^ 64
    ({ state with rngState }, rngState * range / 2 ^ 64)

def clampIvl (ivl min max : ℕ) : ℕ :=
  let ivl := if ivl < min then min else ivl
  if ivl > max then max else ivl

def jitter (state : PollState) (ivl min max : ℕ) : PollState × ℕ :=
  let step := 50
  let clamp := clampIvl ((ivl + step / 2) / step * step) min max
  let nAmp := clamp * 5 / 100
  if nAmp = 0 then (state, clamp)
  else
    let (state, noise) := nextRandom state (nAmp * 2 + 1)
    let final :=
      if noise > nAmp then clamp + (noise - nAmp)
      else if clamp > nAmp - noise then clamp - (nAmp - noise)
      else 0
    (state, clampIvl final min max)

def nextIvl (curIvl : ℕ) (pred avg300 pressVel : ℤ) : ℕ :=
  let nxt :=
    if pred > intToQ16 5 ∨ pressVel > intToQ16 2 then pgMinPollMs
    else if pred > floatToQ16 15 10 then curIvl / 2
    else if avg300 < intToQ16 2 then curIvl + 200
    else curIvl
  if nxt < pgMinPollMs then pgMinPollMs else if nxt > pgMaxPollMs then pgMaxPollMs else nxt

/-- Relaxing waits until it amounts to 200 ms. -/
def dampIvl (curIvl nxt : ℕ) : ℕ :=
  let diff := if nxt > curIvl then nxt - curIvl else curIvl - nxt
  if nxt < curIvl ∨ diff ≥ 200 then nxt else curIvl

def pollElapsedMs (state : PollState) (now : Timespec) : ℕ :=
  let elapsed := pgDtSec state.lastTick now
  let elapsed := if elapsed < 0 then 0 else elapsed
  (elapsed * 1000 / 2 ^ 16).toNat

def pgPollCalcNext (state : PollState) (now : Timespec) (curPress avg300 pressVel : ℤ) :
    PollState × ℕ :=
  if pollElapsedMs state now > state.lastWait + 200 then
    ({ state with lastTick := now, curIvl := pgMinPollMs, lastWait := pgMinPollMs }, pgMinPollMs)
  else
    let pred := i32 (curPress + q16Mul pressVel q16Half)
    let curIvl := dampIvl state.curIvl (nextIvl state.curIvl pred avg300 pressVel)
    let (state, wait) := jitter { state with lastTick := now, curIvl } curIvl pgMinPollMs pgMaxPollMs
    ({ state with lastWait := wait }, wait)

theorem clampIvl_mem {min max : ℕ} (h : min ≤ max) (ivl : ℕ) :
    clampIvl ivl min max ∈ Set.Icc min max := by
  simp only [clampIvl, Set.mem_Icc]
  split_ifs <;> omega

theorem jitter_mem {min max : ℕ} (h : min ≤ max) (state : PollState) (ivl : ℕ) :
    (jitter state ivl min max).2 ∈ Set.Icc min max := by
  rw [jitter]
  split
  · exact clampIvl_mem h _
  · exact clampIvl_mem h _

theorem pollCalcNext_mem (state : PollState) (now : Timespec) (curPress avg300 pressVel : ℤ) :
    (pgPollCalcNext state now curPress avg300 pressVel).2 ∈ Set.Icc 100 10000 := by
  rw [pgPollCalcNext]
  split
  · simp [pgMinPollMs]
  · exact jitter_mem (by decide) _ _

end Pgov
