import Pgov.Runs
import Pgov.SysfsUpdate

namespace Pgov

open FixedWidth Runs

def Timespec.ms (ts : Timespec) : ℤ := ts.sec * 1000 + ts.nsec / 1000000

def retryDelay (k : ℕ) : ℕ := min (1000 * 2 ^ (min k 7 - 1)) 60000

structure RetryLog where
  cache : SysfsCache
  failures : ℕ
  since : Timespec

namespace RetryLog

def update (s : RetryLog) (call : UpdateCall) : RetryLog :=
  let (cache, issued) := pgSysfsUpdate s.cache call
  if !issued then { s with cache }
  else if call.res.Complete call.value then { s with cache, failures := 0 }
  else ⟨cache, s.failures + 1, call.after⟩

def init (paths : List Candidate) : RetryLog := ⟨(pgSysfsCacheInit paths).1, 0, ⟨0, 0⟩⟩

def expiry (s : RetryLog) : ℤ := s.since.ms + retryDelay s.failures

end RetryLog

structure Clocked (s : RetryLog) (call : UpdateCall) : Prop where
  before : call.before.Valid
  after : call.after.Valid
  since_le : s.since.ms ≤ call.before.ms

/-- A due update is suppressed before the wait is over and attempted after, and a write that
succeeds ends the wait. -/
structure BackoffLaw (s : RetryLog) (call : UpdateCall) : Prop where
  early : updateDue s.cache call = true → 0 < s.failures → call.before.ms < s.expiry →
    pgSysfsUpdate s.cache call = (s.cache, false)
  late : updateDue s.cache call = true → s.failures = 0 ∨ s.expiry ≤ call.before.ms →
    (pgSysfsUpdate s.cache call).2 = true
  cleared : (pgSysfsUpdate s.cache call).2 = true → call.res.Complete call.value →
    (s.update call).failures = 0 ∧ (s.update call).cache.fails = 0

/-- A due update that finds the wait over comes within 2^31 ms of its end, up to whole turns of the
32-bit clock. -/
def InWindow (s : RetryLog) (call : UpdateCall) : Prop :=
  updateDue s.cache call = true → 0 < s.failures → s.expiry ≤ call.before.ms →
    (call.before.ms - s.expiry) % 2 ^ 32 < 2 ^ 31

theorem monoMs_eq {ts : Timespec} (h : ts.Valid) : monoMs ts = ts.ms % 2 ^ 32 := by
  obtain ⟨⟨hs, hs'⟩, hn, hn'⟩ := h
  rw [monoMs, u64_eq (x := ts.sec) hs (by omega), u64_eq (x := ts.nsec) hn (by omega),
    Timespec.ms]
  simp only [u32, u64]
  omega

theorem i32_neg_iff {y : ℤ} (hl : 0 ≤ y) (hu : y < 2 ^ 32) : i32 y < 0 ↔ 2 ^ 31 ≤ y := by
  obtain ⟨k, hk⟩ := i32_congr y
  have hb := i32_bounds y
  omega

structure RetryLog.Recorded (s : RetryLog) : Prop where
  active : s.cache.active = true
  fd_nonneg : 0 ≤ s.cache.fd
  fails_eq : s.cache.fails = min s.failures 7
  retryMs_eq : 0 < s.failures → s.cache.retryMs = s.expiry % 2 ^ 32

theorem init_recorded {paths : List Candidate} (hact : (pgSysfsCacheInit paths).1.active = true) :
    (RetryLog.init paths).Recorded := by
  obtain ⟨-, hfails, hfd⟩ := cacheInit_fresh paths
  exact ⟨hact, hfd hact, hfails, fun h => absurd h (lt_irrefl 0)⟩

theorem scheduleRetry_eq {cache : SysfsCache} {k : ℕ} (hk : cache.fails = min k 7) {now : Timespec}
    (hnow : now.Valid) :
    scheduleRetry cache now = { cache with
      fails := min (k + 1) 7, retryMs := (now.ms + retryDelay (k + 1)) % 2 ^ 32 } := by
  have hfails : (if cache.fails < pgSysfsFailMax then cache.fails + 1 else cache.fails) =
      min (k + 1) 7 := by
    rw [hk, pgSysfsFailMax]
    split_ifs <;> omega
  have hdelay : (if sysfsBackoffBaseMs <<< (min (k + 1) 7 - 1) > sysfsBackoffMaxMs
      then sysfsBackoffMaxMs else sysfsBackoffBaseMs <<< (min (k + 1) 7 - 1)) =
      retryDelay (k + 1) := by
    rw [retryDelay, Nat.shiftLeft_eq, sysfsBackoffBaseMs, sysfsBackoffMaxMs]
    split_ifs <;> omega
  simp only [scheduleRetry, hfails, hdelay, monoMs_eq hnow]
  simp only [u32]
  rw [Int.emod_add_emod]

section Step

variable {s : RetryLog} {call : UpdateCall}

theorem backingOff_iff (h : s.Recorded) (hcall : Clocked s call) (hk : 0 < s.failures) :
    backingOff s.cache call.before ↔ 2 ^ 31 ≤ (call.before.ms - s.expiry) % 2 ^ 32 := by
  have hfails : s.cache.fails ≠ 0 := by
    rw [h.fails_eq]
    omega
  have hdiff : u32 (monoMs call.before - s.cache.retryMs) =
      (call.before.ms - s.expiry) % 2 ^ 32 := by
    rw [monoMs_eq hcall.before, h.retryMs_eq hk, u32, ← Int.sub_emod]
  rw [backingOff, hdiff, i32_neg_iff (Int.emod_nonneg _ (by norm_num))
    (Int.emod_lt_of_pos _ (by norm_num))]
  exact and_iff_right hfails

theorem not_backingOff (h : s.Recorded) (hk : s.failures = 0) :
    ¬backingOff s.cache call.before := by
  rintro ⟨hfails, -⟩
  rw [h.fails_eq, hk] at hfails
  exact hfails rfl

theorem early_backingOff (h : s.Recorded) (hcall : Clocked s call) (hk : 0 < s.failures)
    (hlt : call.before.ms < s.expiry) : backingOff s.cache call.before := by
  rw [backingOff_iff h hcall hk]
  have hsince := hcall.since_le
  have hdelay : retryDelay s.failures ≤ 60000 := min_le_right _ _
  rw [RetryLog.expiry] at hlt ⊢
  omega

theorem update_issued (h : s.Recorded) (hdue : updateDue s.cache call = true) :
    (pgSysfsUpdate s.cache call).2 = true ↔ ¬backingOff s.cache call.before := by
  by_cases hback : backingOff s.cache call.before
  · simp [pgSysfsUpdate, h.active, hdue, hback]
  · simp only [pgSysfsUpdate, h.active, hdue, hback, Bool.not_true, Bool.false_eq_true, ↓reduceIte,
      not_false_eq_true, iff_true]
    split_ifs <;> rfl

theorem RetryLog.Recorded.update_cases (h : s.Recorded) (call : UpdateCall) :
    ((pgSysfsUpdate s.cache call).2 = false ∧ pgSysfsUpdate s.cache call = (s.cache, false) ∧
        s.update call = s) ∨
      (call.res.Complete call.value ∧ s.update call =
        ⟨{ s.cache with last := call.value, fails := 0 }, 0, s.since⟩) ∨
      (¬call.res.Complete call.value ∧ s.update call =
        ⟨scheduleRetry s.cache call.after, s.failures + 1, call.after⟩) := by
  cases hdue : updateDue s.cache call with
  | false =>
    have hskip : pgSysfsUpdate s.cache call = (s.cache, false) := by simp [pgSysfsUpdate, hdue]
    exact Or.inl ⟨by rw [hskip], hskip, by simp [RetryLog.update, hskip]⟩
  | true =>
    by_cases hback : backingOff s.cache call.before
    · have hskip : pgSysfsUpdate s.cache call = (s.cache, false) := by simp [pgSysfsUpdate, hback]
      exact Or.inl ⟨by rw [hskip], hskip, by simp [RetryLog.update, hskip]⟩
    · by_cases hc : call.res.Complete call.value
      · have hw := (writeStrm_eq_zero h.fd_nonneg call.value call.res).mpr hc
        refine Or.inr (Or.inl ⟨hc, ?_⟩)
        simp [RetryLog.update, pgSysfsUpdate, h.active, hdue, hback, hw, hc]
      · have hw := mt (writeStrm_eq_zero h.fd_nonneg call.value call.res).mp hc
        refine Or.inr (Or.inr ⟨hc, ?_⟩)
        simp [RetryLog.update, pgSysfsUpdate, h.active, hdue, hback, hw, hc]

theorem RetryLog.Recorded.update (h : s.Recorded) (hcall : Clocked s call) :
    (s.update call).Recorded := by
  rcases h.update_cases call with ⟨-, -, he⟩ | ⟨-, he⟩ | ⟨-, he⟩ <;> rw [he]
  · exact h
  · exact ⟨h.active, h.fd_nonneg, rfl, fun hk => absurd hk (lt_irrefl 0)⟩
  · rw [scheduleRetry_eq h.fails_eq hcall.after]
    exact ⟨h.active, h.fd_nonneg, rfl, fun _ => rfl⟩

theorem RetryLog.Recorded.cleared (h : s.Recorded) (call : UpdateCall)
    (hissue : (pgSysfsUpdate s.cache call).2 = true) (hc : call.res.Complete call.value) :
    (s.update call).failures = 0 ∧ (s.update call).cache.fails = 0 := by
  rcases h.update_cases call with ⟨hno, -, -⟩ | ⟨-, he⟩ | ⟨hfail, -⟩
  · rw [hno] at hissue
    exact absurd hissue (by decide)
  · rw [he]
    exact ⟨rfl, rfl⟩
  · exact absurd hc hfail

theorem backoffLaw_iff (h : s.Recorded) (hcall : Clocked s call) :
    BackoffLaw s call ↔ InWindow s call := by
  constructor
  · intro hlaw hdue hk hexp
    have hissue := (update_issued h hdue).mp (hlaw.late hdue (Or.inr hexp))
    rw [backingOff_iff h hcall hk] at hissue
    exact not_le.mp hissue
  · intro hwin
    refine ⟨fun hdue hk hlt => ?_, fun hdue hover => ?_, h.cleared call⟩
    · have hback := early_backingOff h hcall hk hlt
      simp [pgSysfsUpdate, hback]
    · rw [update_issued h hdue]
      rcases Nat.eq_zero_or_pos s.failures with hk | hk
      · exact not_backingOff h hk
      · have hexp := hover.resolve_left hk.ne'
        rw [backingOff_iff h hcall hk]
        exact not_le.mpr (hwin hdue hk hexp)

end Step

theorem backoff_expires_iff {paths : List Candidate}
    (hact : (pgSysfsCacheInit paths).1.active = true) {calls : List UpdateCall}
    (hclock : Along RetryLog.update Clocked (RetryLog.init paths) calls) :
    Along RetryLog.update BackoffLaw (RetryLog.init paths) calls ↔
      Along RetryLog.update InWindow (RetryLog.init paths) calls := by
  have hstep (s : RetryLog) (call : UpdateCall) (h : s.Recorded) (hcall : Clocked s call) :
      (s.update call).Recorded := h.update hcall
  have hiff (s : RetryLog) (call : UpdateCall) (h : s.Recorded) (hcall : Clocked s call) :
      BackoffLaw s call ↔ InWindow s call := backoffLaw_iff h hcall
  exact along_congr_of_along hstep hiff (init_recorded hact) hclock

section Examples

def nodePaths : List Candidate := [⟨some 3, .ok [57, 10]⟩]

def strictCall (now : Timespec) (res : Pwrite) : UpdateCall :=
  ⟨7, false, some ⟨.strict, 0⟩, now, now, res⟩

theorem strictCall_clocked {s : RetryLog} {sec : ℤ} (h : 0 ≤ sec) (h' : sec < 2 ^ 63)
    (hsince : s.since.ms ≤ sec * 1000) (res : Pwrite) : Clocked s (strictCall ⟨sec, 0⟩ res) := by
  refine ⟨Timespec.valid_of_sec h h', Timespec.valid_of_sec h h', ?_⟩
  change s.since.ms ≤ sec * 1000 + 0 / 1000000
  omega

theorem backoff_expires_retry :
    let calls := [strictCall ⟨5, 0⟩ (.failed 5), strictCall ⟨6, 0⟩ (.wrote 2)]
    Along RetryLog.update BackoffLaw (RetryLog.init nodePaths) calls ↔
      Along RetryLog.update InWindow (RetryLog.init nodePaths) calls := by
  intro calls
  apply backoff_expires_iff (by decide)
  refine ⟨strictCall_clocked ?_ ?_ ?_ _, strictCall_clocked ?_ ?_ ?_ _, trivial⟩ <;> decide

/-- A write fails as the clock starts. A due update 24 days later is still held back. -/
theorem backoff_outlasts_wait :
    let failed := strictCall ⟨0, 0⟩ (.failed 5)
    let late := strictCall ⟨2147485, 0⟩ (.wrote 2)
    Along RetryLog.update Clocked (RetryLog.init nodePaths) [failed, late] ∧
      ¬Along RetryLog.update BackoffLaw (RetryLog.init nodePaths) [failed, late] := by
  intro failed late
  refine ⟨⟨strictCall_clocked ?_ ?_ ?_ _, strictCall_clocked ?_ ?_ ?_ _, trivial⟩, ?_⟩
  iterate 6 decide
  rintro ⟨-, hlaw, -⟩
  have hissue := hlaw.late (by decide) (Or.inr (by decide))
  revert hissue
  decide

end Examples

end Pgov
