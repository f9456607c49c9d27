import Pgov.Runs
import Pgov.SysfsUpdate

namespace Pgov

open Runs

def Held (strat : SysfsChk) (last v : ℕ) : Prop :=
  match strat.type with
  | .abs => |(last : ℤ) - v| < max strat.thresh 1
  | .rel => v = last ∨ |(last : ℤ) - v| * 1000 < last * strat.thresh
  | .strict => v = last

structure WriteLog where
  cache : SysfsCache
  writes : List ℕ

def WriteLog.update (s : WriteLog) (call : UpdateCall) : WriteLog :=
  let (cache, issued) := pgSysfsUpdate s.cache call
  ⟨cache, if issued then call.value :: s.writes else s.writes⟩

def WriteLog.init (paths : List Candidate) : WriteLog := ⟨(pgSysfsCacheInit paths).1, []⟩

structure PlainCall (strat : SysfsChk) (s : WriteLog) (call : UpdateCall) : Prop where
  force : call.force = false
  strat_eq : call.strat = some strat
  value_lt : call.value < 2 ^ 40
  complete : (pgSysfsUpdate s.cache call).2 = true → call.res.Complete call.value

theorem diff_eq_abs (a b : ℕ) : ((if a > b then a - b else b - a : ℕ) : ℤ) = |(a : ℤ) - b| := by
  split_ifs with h
  · rw [abs_of_nonneg (by omega)]
    omega
  · rw [abs_of_nonpos (by omega)]
    omega

section Checks

variable {cur tgt thresh : ℕ}

theorem absolute_eq_false_iff (hcur : cur ≠ uint64Max) :
    absolute cur tgt thresh = false ↔ |(cur : ℤ) - tgt| < max thresh 1 := by
  rw [absolute, if_neg hcur, ← diff_eq_abs]
  by_cases heq : cur = tgt
  · subst heq
    simp
  · simp only [heq, ↓reduceIte, decide_eq_false_iff_not, not_le, ge_iff_le]
    have hpos : 0 < (if cur > tgt then cur - tgt else tgt - cur) := by
      split_ifs <;> omega
    generalize (if cur > tgt then cur - tgt else tgt - cur) = diff at hpos
    omega

theorem relative_eq_false_iff (hcur : cur < 2 ^ 40) (htgt : tgt < 2 ^ 40) (hthr : thresh < 2 ^ 20) :
    relative cur tgt thresh = false ↔ tgt = cur ∨ |(cur : ℤ) - tgt| * 1000 < cur * thresh := by
  have hne : cur ≠ uint64Max := by
    rw [uint64Max]
    omega
  rw [relative, if_neg hne, ← diff_eq_abs]
  by_cases heq : cur = tgt
  · subst heq
    simp
  · have hne' : ¬tgt = cur := Ne.symm heq
    simp only [heq, ↓reduceIte, hne', false_or]
    have hdiff : (if cur > tgt then cur - tgt else tgt - cur) < 2 ^ 40 := by
      split_ifs <;> omega
    have hpos : 0 < (if cur > tgt then cur - tgt else tgt - cur) := by
      split_ifs <;> omega
    generalize (if cur > tgt then cur - tgt else tgt - cur) = diff at hdiff hpos
    by_cases hzero : cur = 0
    · subst hzero
      simp [hne']
    · have hprod : cur * thresh < 2 ^ 40 * 2 ^ 20 := Nat.mul_lt_mul'' hcur hthr
      simp only [hzero, ↓reduceIte, decide_eq_false_iff_not, not_le, ge_iff_le]
      rw [Nat.mod_eq_of_lt (by omega), Nat.mod_eq_of_lt (by omega)]
      exact_mod_cast Iff.rfl

theorem chkUpdate_eq_false_iff {strat : SysfsChk} (hthr : strat.thresh < 2 ^ 20)
    (hcur : cur < 2 ^ 40) (htgt : tgt < 2 ^ 40) :
    chkUpdate strat cur tgt = false ↔ Held strat cur tgt := by
  have hne : cur ≠ uint64Max := by
    rw [uint64Max]
    omega
  unfold chkUpdate Held
  cases strat.type with
  | abs => exact absolute_eq_false_iff hne
  | rel => exact relative_eq_false_iff hcur htgt hthr
  | strict =>
    rw [decide_eq_false_iff_not, not_not]
    exact eq_comm

theorem chkUpdate_sentinel (strat : SysfsChk) (htgt : tgt < 2 ^ 40) :
    chkUpdate strat uint64Max tgt = true := by
  have hne : uint64Max ≠ tgt := by
    rw [uint64Max]
    omega
  unfold chkUpdate
  cases strat.type with
  | abs => rfl
  | rel => rfl
  | strict => exact decide_eq_true hne

end Checks

theorem held_self (strat : SysfsChk) (v : ℕ) : Held strat v v := by
  unfold Held
  cases strat.type with
  | abs => simp
  | rel => exact Or.inl rfl
  | strict => rfl

structure WriteLog.Tracks (s : WriteLog) : Prop where
  active : s.cache.active = true
  fd_nonneg : 0 ≤ s.cache.fd
  fails_eq : s.cache.fails = 0
  newest : s.writes = [] ∧ s.cache.last = uint64Max ∨
    s.writes.head? = some s.cache.last ∧ s.cache.last < 2 ^ 40

theorem init_tracks {paths : List Candidate} (hact : (pgSysfsCacheInit paths).1.active = true) :
    (WriteLog.init paths).Tracks := by
  obtain ⟨hlast, hfails, hfd⟩ := cacheInit_fresh paths
  exact ⟨hact, hfd hact, hfails, Or.inl ⟨rfl, hlast⟩⟩

section Step

variable {strat : SysfsChk} {s : WriteLog} {call : UpdateCall}

theorem WriteLog.Tracks.update_cases (h : s.Tracks) (hcall : PlainCall strat s call) :
    (chkUpdate strat s.cache.last call.value = true ∧ (pgSysfsUpdate s.cache call).2 = true ∧
        s.update call = ⟨{ s.cache with last := call.value, fails := 0 }, call.value :: s.writes⟩) ∨
      (chkUpdate strat s.cache.last call.value = false ∧
        (pgSysfsUpdate s.cache call).2 = false ∧ s.update call = s) := by
  have hdue : updateDue s.cache call = chkUpdate strat s.cache.last call.value := by
    simp [updateDue, hcall.force, hcall.strat_eq]
  have hback : ¬backingOff s.cache call.before := fun hb => hb.1 h.fails_eq
  cases hchk : chkUpdate strat s.cache.last call.value with
  | false =>
    have hskip : pgSysfsUpdate s.cache call = (s.cache, false) := by
      simp [pgSysfsUpdate, hdue, hchk]
    refine Or.inr ⟨rfl, by rw [hskip], ?_⟩
    simp [WriteLog.update, hskip]
  | true =>
    have hissue : (pgSysfsUpdate s.cache call).2 = true := by
      simp only [pgSysfsUpdate, h.active, hdue, hchk, hback, Bool.not_true, Bool.false_eq_true,
        ↓reduceIte]
      split_ifs <;> rfl
    have hw := (writeStrm_eq_zero h.fd_nonneg call.value call.res).mpr (hcall.complete hissue)
    refine Or.inl ⟨rfl, hissue, ?_⟩
    simp [WriteLog.update, pgSysfsUpdate, h.active, hdue, hchk, hback, hw]

theorem WriteLog.Tracks.update (h : s.Tracks) (hcall : PlainCall strat s call) :
    (s.update call).Tracks := by
  rcases h.update_cases hcall with ⟨-, -, he⟩ | ⟨-, -, he⟩ <;> rw [he]
  · exact ⟨h.active, h.fd_nonneg, rfl, Or.inr ⟨rfl, hcall.value_lt⟩⟩
  · exact h

/-- What a call leaves: `last` is the newest write and holds the target, and a write was issued
just when there was none before or the one before did not hold the target. -/
structure Debounces (strat : SysfsChk) (s : WriteLog) (call : UpdateCall) : Prop where
  newest : (s.update call).writes.head? = some (s.update call).cache.last
  held : Held strat (s.update call).cache.last call.value
  issued_iff : (pgSysfsUpdate s.cache call).2 = true ↔
    ∀ w ∈ s.writes.head?, ¬Held strat w call.value

theorem WriteLog.Tracks.debounces (h : s.Tracks) (hthr : strat.thresh < 2 ^ 20)
    (hcall : PlainCall strat s call) : Debounces strat s call := by
  rcases h.newest with ⟨hnone, hlast⟩ | ⟨hhead, hlast⟩
  · rcases h.update_cases hcall with ⟨-, hissue, he⟩ | ⟨hchk, -, -⟩
    · refine ⟨by rw [he]; rfl, ?_, ?_⟩
      · rw [he]
        exact held_self strat call.value
      · exact iff_of_true hissue (by simp [hnone])
    · rw [hlast, chkUpdate_sentinel strat hcall.value_lt] at hchk
      exact absurd hchk (by decide)
  · have hiff := chkUpdate_eq_false_iff hthr hlast hcall.value_lt
    rcases h.update_cases hcall with ⟨hchk, hissue, he⟩ | ⟨hchk, hissue, he⟩
    · refine ⟨by rw [he]; rfl, ?_, iff_of_true hissue ?_⟩
      · rw [he]
        exact held_self strat call.value
      · intro w hw hheld
        obtain rfl : s.cache.last = w := by simpa [hhead] using hw
        rw [hiff.mpr hheld] at hchk
        exact absurd hchk (by decide)
    · refine ⟨by rw [he, hhead], ?_, ?_⟩
      · rw [he]
        exact hiff.mp hchk
      · rw [hissue]
        refine iff_of_false (by decide) fun hno => ?_
        exact hno _ hhead (hiff.mp hchk)

end Step

theorem updates_debounced {paths : List Candidate}
    (hact : (pgSysfsCacheInit paths).1.active = true) {strat : SysfsChk}
    (hthr : strat.thresh < 2 ^ 20) {calls : List UpdateCall}
    (hcalls : Along WriteLog.update (PlainCall strat) (WriteLog.init paths) calls) :
    Along WriteLog.update (Debounces strat) (WriteLog.init paths) calls :=
  along_of_invariant (fun _ _ h hcall => h.update hcall) (fun _ _ h hcall => h.debounces hthr hcall)
    (init_tracks hact) hcalls

theorem updates_debounced_latency :
    let call (value : ℕ) : UpdateCall :=
      ⟨value, false, some ⟨.rel, 100⟩, ⟨1, 0⟩, ⟨1, 0⟩, .wrote 5⟩
    Along WriteLog.update (Debounces ⟨.rel, 100⟩) (WriteLog.init [⟨some 3, .ok [57, 10]⟩])
      [call 1000, call 1050, call 1200] := by
  intro call
  apply updates_debounced (by decide) (by decide)
  exact ⟨⟨rfl, rfl, by decide, by decide⟩, ⟨rfl, rfl, by decide, by decide⟩,
    ⟨rfl, rfl, by decide, by decide⟩, trivial⟩

end Pgov
