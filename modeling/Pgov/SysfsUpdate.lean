import Pgov.Quantise
import Pgov.SysfsCache

namespace Pgov

open FixedWidth DecimalText Quantise

def Pwrite.Complete (res : Pwrite) (value : ℕ) : Prop := res = .wrote (pgFmtU64 value).length

instance (res : Pwrite) (value : ℕ) : Decidable (res.Complete value) :=
  inferInstanceAs (Decidable (_ = _))

theorem writeStrm_eq_zero {fd : ℤ} (hfd : 0 ≤ fd) (value : ℕ) (res : Pwrite) :
    pgSysfsWriteStrm fd value res = 0 ↔ res.Complete value := by
  have hfd' : ¬fd < 0 := not_lt.mpr hfd
  cases res with
  | wrote n => by_cases hn : n = (pgFmtU64 value).length <;>
      simp [pgSysfsWriteStrm, Pwrite.Complete, hfd', hn, eio]
  | failed errno => simp [pgSysfsWriteStrm, Pwrite.Complete, hfd']

theorem nodePwrite_complete {value : ℕ} (hv : value < 2 ^ 64) {res : Pwrite}
    (h : res.Complete value) (node : ℤ) : nodePwrite node (pgFmtU64 value) res = value := by
  have hres : res = .wrote (pgFmtU64 value).length := h
  rw [nodePwrite, if_pos hres, pgFmtU64_eq hv, lineValue_numeral]
  rfl

theorem nodePwrite_incomplete {value : ℕ} {res : Pwrite} (h : ¬res.Complete value) (node : ℤ) :
    nodePwrite node (pgFmtU64 value) res = node := if_neg h

/-- What `pg_sysfs_update` can do to a mapped channel: hold a target that moved too little, back
off, write it, or fail to write it. -/
theorem update_cases {c : Channel} (hact : c.cache.active = true) (hfd : 0 ≤ c.cache.fd)
    {call : UpdateCall} (hv : call.value < 2 ^ 64) :
    (updateDue c.cache call = false ∧ c.update call = c) ∨
    (backingOff c.cache call.before ∧ c.update call = c) ∨
    ((pgSysfsUpdate c.cache call).2 = true ∧ call.res.Complete call.value ∧
      c.update call = ⟨{ c.cache with last := call.value, fails := 0 }, call.value⟩) ∨
    ((pgSysfsUpdate c.cache call).2 = true ∧ ¬call.res.Complete call.value ∧
      c.update call = ⟨scheduleRetry c.cache call.after, c.node⟩) := by
  cases hdue : updateDue c.cache call with
  | false => exact Or.inl ⟨rfl, by simp [Channel.update, pgSysfsUpdate, hdue]⟩
  | true =>
    by_cases hback : backingOff c.cache call.before
    · exact Or.inr (Or.inl ⟨hback, by simp [Channel.update, pgSysfsUpdate, hback]⟩)
    · by_cases hc : call.res.Complete call.value
      · have hw := (writeStrm_eq_zero hfd call.value call.res).mpr hc
        refine Or.inr (Or.inr (Or.inl ⟨?_, hc, ?_⟩))
        · simp [pgSysfsUpdate, hact, hdue, hback, hw]
        · simp [Channel.update, pgSysfsUpdate, hact, hdue, hback, hw, nodePwrite_complete hv hc]
      · have hw := mt (writeStrm_eq_zero hfd call.value call.res).mp hc
        refine Or.inr (Or.inr (Or.inr ⟨?_, hc, ?_⟩))
        · simp [pgSysfsUpdate, hact, hdue, hback, hw]
        · simp [Channel.update, pgSysfsUpdate, hact, hdue, hback, hw, nodePwrite_incomplete hc]

theorem cacheInit_fresh (paths : List Candidate) :
    (pgSysfsCacheInit paths).1.last = uint64Max ∧ (pgSysfsCacheInit paths).1.fails = 0 ∧
      ((pgSysfsCacheInit paths).1.active = true → 0 ≤ (pgSysfsCacheInit paths).1.fd) := by
  induction paths with
  | nil => exact ⟨rfl, rfl, fun h => absurd h (by decide)⟩
  | cons path paths ih =>
    rw [pgSysfsCacheInit]
    cases path.fd with
    | none => exact ih
    | some fd =>
      cases hread : pgSysfsReadI32 path.text with
      | error e => exact ⟨rfl, rfl, fun _ => Int.natCast_nonneg fd⟩
      | ok cur =>
        by_cases hcur : cur ≥ 0
        · simp only [if_pos hcur]
          exact ⟨rfl, rfl, fun _ => Int.natCast_nonneg fd⟩
        · simp only [if_neg hcur]
          exact ⟨rfl, rfl, fun _ => Int.natCast_nonneg fd⟩

theorem within_of_not_relative {cur tgt tol : ℕ} (hcur : cur < 2 ^ 40) (htgt : tgt < 2 ^ 40)
    (htol : tol < 2 ^ 10) (h : relative cur tgt tol = false) : Within tol cur tgt := by
  have hne : cur ≠ uint64Max := by
    rw [uint64Max]
    omega
  rw [relative, if_neg hne] at h
  split_ifs at h with heq hzero hgt
  · exact Or.inl heq
  · simp only [decide_eq_false_iff_not, not_not] at h
    exact Or.inl (hzero.trans h.symm)
  all_goals
    have hprod : cur * tol < 2 ^ 40 * 2 ^ 10 := by nlinarith
    simp only [decide_eq_false_iff_not, not_le, ge_iff_le] at h
    rw [Nat.mod_eq_of_lt (by omega), Nat.mod_eq_of_lt (by omega)] at h
    right
  · rwa [max_eq_left hgt.le, min_eq_right hgt.le]
  · rwa [max_eq_right (not_lt.mp hgt), min_eq_left (not_lt.mp hgt)]

/-- Between calls `last` is the sentinel or what the node holds, and no write has failed. -/
structure Channel.Synced (c : Channel) : Prop where
  active : c.cache.active = true
  fd_nonneg : 0 ≤ c.cache.fd
  fails_eq : c.cache.fails = 0
  last_eq : c.cache.last = uint64Max ∨ c.cache.last < 2 ^ 40 ∧ c.node = c.cache.last

theorem synced_of_cacheInit {c : Channel} {paths : List Candidate}
    (hc : c.cache = (pgSysfsCacheInit paths).1) (hact : c.cache.active = true) : c.Synced := by
  obtain ⟨hlast, hfails, hfd⟩ := cacheInit_fresh paths
  rw [← hc] at hlast hfails hfd
  exact ⟨hact, hfd hact, hfails, Or.inl hlast⟩

theorem Channel.Synced.update {c : Channel} (h : c.Synced) {call : UpdateCall} {tol : ℕ}
    (htol : tol < 2 ^ 10) (hv : call.value < 2 ^ 40) (hstrat : call.strat = some ⟨.rel, tol⟩)
    (hforce : call.force = false)
    (hres : (pgSysfsUpdate c.cache call).2 = true → call.res.Complete call.value) :
    (c.update call).Synced ∧ ∃ held : ℕ, (c.update call).node = held ∧ Within tol held call.value := by
  rcases update_cases h.active h.fd_nonneg (hv.trans (by norm_num)) with
    ⟨hdue, he⟩ | ⟨hback, -⟩ | ⟨-, -, he⟩ | ⟨hissue, hfail, -⟩
  · rw [he]
    refine ⟨h, ?_⟩
    rw [updateDue, hforce, hstrat] at hdue
    have hrel : relative c.cache.last call.value tol = false := by simpa [chkUpdate] using hdue
    rcases h.last_eq with hlast | ⟨hlast, hnode⟩
    · simp [relative, hlast] at hrel
    · exact ⟨_, hnode, within_of_not_relative hlast hv htol hrel⟩
  · exact absurd h.fails_eq hback.1
  · rw [he]
    exact ⟨⟨h.active, h.fd_nonneg, rfl, Or.inr ⟨hv, rfl⟩⟩, _, rfl, Or.inl rfl⟩
  · exact absurd (hres hissue) hfail

end Pgov
