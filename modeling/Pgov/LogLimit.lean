import Pgov.PgTime
import Pgov.TokenBucket

namespace Pgov

open FixedWidth Runs TokenBucket

def logBurst : ℕ := 128
def logRefillMs : ℕ := 10000
def logCreditMax : ℕ := logBurst * logRefillMs

structure LogLimit where
  creditMs : ℕ
  lastMs : ℕ
  dropped : ℕ
  deriving DecidableEq, Repr

def logLimitStart : LogLimit := { creditMs := logCreditMax, lastMs := 0, dropped := 0 }

def nowMs (mono : Timespec) : ℕ :=
  (u64 (u64 (u64 mono.sec * 1000) + u64 mono.nsec / 1000000)).toNat

/-- What the clock adds to the credit; the first call finds no earlier reading. -/
def LogLimit.refill (s : LogLimit) (now : ℕ) : ℕ :=
  if s.lastMs ≠ 0 then
    let credit := (s.creditMs + (u64 (now - s.lastMs)).toNat) % 2 ^ 64
    if credit > logCreditMax then logCreditMax else credit
  else s.creditMs

/-- `none` is a limited call; an admitted one is told how many were dropped before it. -/
def shouldRateLimit (s : LogLimit) (mono : Timespec) : LogLimit × Option ℕ :=
  let now := nowMs mono
  let credit := s.refill now
  if credit < logRefillMs then
    ({ creditMs := credit, lastMs := now, dropped := (s.dropped + 1) % 2 ^ 32 }, none)
  else ({ creditMs := credit - logRefillMs, lastMs := now, dropped := 0 }, some s.dropped)

structure LogRun where
  limit : LogLimit
  reported : ℕ
  rejected : ℕ
  deriving DecidableEq, Repr

def logRunStart : LogRun := { limit := logLimitStart, reported := 0, rejected := 0 }

def LogRun.step (s : LogRun) (mono : Timespec) : LogRun :=
  match shouldRateLimit s.limit mono with
  | (limit, none) => { s with limit, rejected := s.rejected + 1 }
  | (limit, some dropped) => { s with limit, reported := s.reported + dropped }

def LogRun.admits (s : LogRun) (mono : Timespec) : Bool := (shouldRateLimit s.limit mono).2.isSome

section Bucket

variable {s : LogRun} {mono : Timespec} {calls : List Timespec}

theorem refill_le {s : LogLimit} {now : ℕ} (hcap : s.creditMs ≤ logCreditMax)
    (hle : s.lastMs ≤ now) :
    s.refill now ≤ min logCreditMax (s.creditMs + (now - s.lastMs)) := by
  rw [LogLimit.refill]
  split
  · have helapsed : (u64 (now - s.lastMs)).toNat ≤ now - s.lastMs := by
      rw [u64]
      omega
    have hwrap := Nat.mod_le (s.creditMs + (u64 (now - s.lastMs)).toNat) (2 ^ 64)
    simp only
    split_ifs <;> omega
  · omega

theorem logStep_cases (s : LogRun) (mono : Timespec) :
    (s.admits mono = false ∧ s.step mono =
      { limit := ⟨s.limit.refill (nowMs mono), nowMs mono, (s.limit.dropped + 1) % 2 ^ 32⟩
        reported := s.reported, rejected := s.rejected + 1 }) ∨
    (s.admits mono = true ∧ logRefillMs ≤ s.limit.refill (nowMs mono) ∧ s.step mono =
      { limit := ⟨s.limit.refill (nowMs mono) - logRefillMs, nowMs mono, 0⟩
        reported := s.reported + s.limit.dropped, rejected := s.rejected }) := by
  by_cases hlow : s.limit.refill (nowMs mono) < logRefillMs
  · left
    simp only [LogRun.admits, LogRun.step, shouldRateLimit, if_pos hlow, Option.isSome_none,
      and_self]
  · right
    simp only [LogRun.admits, LogRun.step, shouldRateLimit, if_neg hlow, Option.isSome_some,
      true_and, and_true]
    omega

theorem logLimit_pays : Pays LogRun.step LogRun.admits nowMs (fun s => s.limit.lastMs)
    (fun s => s.limit.creditMs) logCreditMax logRefillMs := by
  constructor
  · intro s mono
    obtain ⟨-, hstep⟩ | ⟨-, -, hstep⟩ := logStep_cases s mono
    · rw [hstep]
    · rw [hstep]
  · intro s mono hcap hle
    have hrefill := refill_le hcap hle
    obtain ⟨hadm, hstep⟩ | ⟨hadm, hpaid, hstep⟩ := logStep_cases s mono
    · rw [hstep, hadm]
      simpa using hrefill
    · rw [hstep, if_pos hadm]
      simp only
      omega

theorem calls_ordered (hmono : calls.Pairwise fun c d => nowMs c ≤ nowMs d)
    (hlast : ∀ c ∈ calls, s.limit.lastMs ≤ nowMs c) :
    Along LogRun.step (fun s c => s.limit.lastMs ≤ nowMs c) s calls := by
  induction calls generalizing s with
  | nil => trivial
  | cons c calls ih =>
    obtain ⟨hfirst, hrest⟩ := List.pairwise_cons.mp hmono
    refine ⟨hlast c (by simp), ih hrest ?_⟩
    intro d hd
    rw [logLimit_pays.last_eq]
    exact hfirst d hd

end Bucket

section Counts

variable {s : LogRun} {mono : Timespec} {calls : List Timespec}

def LogRun.Counted (s : LogRun) : Prop := s.reported + s.limit.dropped = s.rejected

theorem rejected_step (s : LogRun) (mono : Timespec) : s.rejected ≤ (s.step mono).rejected := by
  obtain ⟨-, hstep⟩ | ⟨-, -, hstep⟩ := logStep_cases s mono
  · rw [hstep]
    exact Nat.le_succ _
  · rw [hstep]

theorem rejected_run (s : LogRun) (calls : List Timespec) :
    s.rejected ≤ (run LogRun.step s calls).rejected := by
  induction calls generalizing s with
  | nil => exact le_rfl
  | cons c calls ih => exact (rejected_step s c).trans (ih (s.step c))

theorem LogRun.Counted.step (h : s.Counted) (hrej : (s.step mono).rejected < 2 ^ 32) :
    (s.step mono).Counted := by
  rw [LogRun.Counted] at h ⊢
  obtain ⟨-, hstep⟩ | ⟨-, -, hstep⟩ := logStep_cases s mono
  · have hdropped : (s.step mono).limit.dropped = (s.limit.dropped + 1) % 2 ^ 32 := by rw [hstep]
    have hreported : (s.step mono).reported = s.reported := by rw [hstep]
    have hrejected : (s.step mono).rejected = s.rejected + 1 := by rw [hstep]
    rw [hdropped, Nat.mod_eq_of_lt (by omega)]
    omega
  · have hdropped : (s.step mono).limit.dropped = 0 := by rw [hstep]
    have hreported : (s.step mono).reported = s.reported + s.limit.dropped := by rw [hstep]
    have hrejected : (s.step mono).rejected = s.rejected := by rw [hstep]
    omega

theorem LogRun.Counted.run (h : s.Counted) (hrej : (run LogRun.step s calls).rejected < 2 ^ 32) :
    (run LogRun.step s calls).Counted := by
  induction calls generalizing s with
  | nil => exact h
  | cons c calls ih =>
    have hfew := rejected_run (s.step c) calls
    exact ih (h.step (hfew.trans_lt hrej)) hrej

end Counts

/-- At most a burst and what the clock refills is admitted in any window, and no rejected call is
lost count of. -/
theorem log_limit_sound {calls : List Timespec}
    (hmono : calls.Pairwise fun c d => nowMs c ≤ nowMs d)
    (hrej : (run LogRun.step logRunStart calls).rejected < 2 ^ 32) :
    (∀ a D, within a (a + D) (admittedTimes LogRun.step LogRun.admits nowMs logRunStart calls) ≤
      128 + D / 10000) ∧
    ∀ before after, calls = before ++ after →
      (run LogRun.step logRunStart before).reported +
          (run LogRun.step logRunStart before).limit.dropped =
        (run LogRun.step logRunStart before).rejected := by
  constructor
  · intro a D
    have hordered := calls_ordered (s := logRunStart) hmono fun c _ => Nat.zero_le _
    have hwindow := logLimit_pays.within_window (a := a) (b := a + D) le_rfl hordered
    rw [logCreditMax, logBurst, logRefillMs] at hwindow
    omega
  · intro before after hsplit
    have hstart : logRunStart.Counted := rfl
    apply hstart.run
    have hfew := rejected_run (run LogRun.step logRunStart before) after
    rw [← run_append, ← hsplit] at hfew
    exact hfew.trans_lt hrej

/-- Two calls more than a burst within a second, and one that the clock has refilled a credit for. -/
def logBurstCalls : List Timespec := List.replicate 130 ⟨1, 0⟩ ++ [⟨12, 0⟩]

theorem log_limit_sound_burst :
    let s := run LogRun.step logRunStart logBurstCalls
    let admitted := admittedTimes LogRun.step LogRun.admits nowMs logRunStart logBurstCalls
    (admitted.length, s.rejected, s.reported) = (129, 2, 2) ∧ within 1000 (1000 + 0) admitted ≤ 128 := by
  refine ⟨by decide +kernel, (log_limit_sound ?_ (by decide +kernel)).1 1000 0⟩
  rw [logBurstCalls, List.pairwise_append]
  refine ⟨List.pairwise_replicate.mpr (.inr le_rfl), List.pairwise_singleton _ _, fun c hc d hd => ?_⟩
  rw [List.eq_of_mem_replicate hc, List.mem_singleton.mp hd]
  decide

end Pgov
