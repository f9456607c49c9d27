import Pgov.Runs

namespace Pgov.TokenBucket

open Runs

variable {σ ι : Type*}

section Limiter

variable (step : σ → ι → σ) (admits : σ → ι → Bool) (time : ι → ℕ) (last credit : σ → ℕ)
  (cap cost : ℕ)

/-- A limiter that pays `cost` for what it admits, out of a credit that grows no faster than the
clock and never beyond `cap`. -/
structure Pays : Prop where
  last_eq : ∀ s i, last (step s i) = time i
  pays : ∀ s i, credit s ≤ cap → last s ≤ time i →
    (if admits s i then cost else 0) + credit (step s i) ≤
      min cap (credit s + (time i - last s))

def admittedTimes : σ → List ι → List ℕ
  | _, [] => []
  | s, i :: is =>
    if admits s i then time i :: admittedTimes (step s i) is else admittedTimes (step s i) is

def within (a b : ℕ) (ts : List ℕ) : ℕ := ts.countP fun t => a ≤ t ∧ t ≤ b

end Limiter

variable {step : σ → ι → σ} {admits : σ → ι → Bool} {time : ι → ℕ} {last credit : σ → ℕ}
  {cap cost a b : ℕ} {s : σ} {i : ι} {is : List ι}

theorem within_cons (t : ℕ) (ts : List ℕ) :
    within a b (t :: ts) = within a b ts + if a ≤ t ∧ t ≤ b then 1 else 0 := by
  simp only [within, List.countP_cons, decide_eq_true_eq]

theorem within_admitted_cons : within a b (admittedTimes step admits time s (i :: is)) =
    within a b (admittedTimes step admits time (step s i) is) +
      if admits s i ∧ a ≤ time i ∧ time i ≤ b then 1 else 0 := by
  rw [admittedTimes]
  by_cases hadm : admits s i
  · rw [if_pos hadm, within_cons]
    simp only [hadm, true_and]
  · rw [if_neg hadm]
    simp only [hadm, Bool.false_eq_true, false_and, ↓reduceIte, add_zero]

theorem paid_le (admits : σ → ι → Bool) (time : ι → ℕ) (cost a b : ℕ) (s : σ) (i : ι) :
    cost * (if admits s i ∧ a ≤ time i ∧ time i ≤ b then 1 else 0) ≤
      if admits s i then cost else 0 := by
  by_cases hadm : admits s i
  · rw [if_pos hadm]
    split <;> omega
  · rw [if_neg fun hin => hadm hin.1, mul_zero]
    exact Nat.zero_le _

section Bounds

variable (h : Pays step admits time last credit cap cost)
include h

theorem Pays.credit_step (hcap : credit s ≤ cap) (ht : last s ≤ time i) :
    credit (step s i) ≤ cap := by
  have := h.pays s i hcap ht
  omega

theorem Pays.within_past (hpast : b < last s)
    (hordered : Along step (fun s i => last s ≤ time i) s is) :
    within a b (admittedTimes step admits time s is) = 0 := by
  induction is generalizing s with
  | nil => rfl
  | cons i is ih =>
    obtain ⟨hle, hrest⟩ := hordered
    have hlast := h.last_eq s i
    rw [within_admitted_cons, ih (by omega) hrest, if_neg (by omega)]

theorem Pays.within_inside (hcap : credit s ≤ cap) (hin : last s ≤ b)
    (hordered : Along step (fun s i => last s ≤ time i) s is) :
    cost * within a b (admittedTimes step admits time s is) ≤ credit s + (b - last s) := by
  induction is generalizing s with
  | nil =>
    rw [admittedTimes, within, List.countP_nil, mul_zero]
    exact Nat.zero_le _
  | cons i is ih =>
    obtain ⟨hle, hrest⟩ := hordered
    have hpays := h.pays s i hcap hle
    have hlast := h.last_eq s i
    rw [within_admitted_cons, Nat.mul_add]
    rcases Nat.lt_or_ge b (time i) with hout | hin'
    · rw [h.within_past (by omega) hrest, if_neg (by omega)]
      omega
    · have hrun := ih (h.credit_step hcap hle) (by omega) hrest
      have hpaid := paid_le admits time cost a b s i
      omega

/-- Any window of length `b - a`, whatever was admitted before it. -/
theorem Pays.within_window (hcap : credit s ≤ cap)
    (hordered : Along step (fun s i => last s ≤ time i) s is) :
    cost * within a b (admittedTimes step admits time s is) ≤ cap + (b - a) := by
  induction is generalizing s with
  | nil =>
    rw [admittedTimes, within, List.countP_nil, mul_zero]
    exact Nat.zero_le _
  | cons i is ih =>
    obtain ⟨hle, hrest⟩ := hordered
    have hpays := h.pays s i hcap hle
    have hlast := h.last_eq s i
    have hcap' := h.credit_step hcap hle
    rcases Nat.lt_or_ge (time i) a with hbefore | hafter
    · rw [within_admitted_cons, if_neg (by omega), add_zero]
      exact ih hcap' hrest
    · rw [within_admitted_cons, Nat.mul_add]
      rcases Nat.lt_or_ge b (time i) with hout | hin
      · rw [h.within_past (by omega) hrest, if_neg (by omega)]
        omega
      · have hinside : last (step s i) ≤ b := by omega
        have hrun := h.within_inside (a := a) hcap' hinside hrest
        have hpaid := paid_le admits time cost a b s i
        omega

end Bounds

end Pgov.TokenBucket
