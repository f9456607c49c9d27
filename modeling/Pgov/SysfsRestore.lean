import Pgov.Runs
import Pgov.SysfsUpdate

namespace Pgov

open FixedWidth DecimalText Runs

/-- `last` mirrors the node, and stays the sentinel exactly until the first write. -/
structure Channel.Mirrors (c : Channel) (boot : ℤ) (fd : ℤ) (base : ℕ) (hasBase : Bool) : Prop where
  active : c.cache.active = true
  fd_eq : c.cache.fd = fd
  base_eq : c.cache.base = base
  hasBase_eq : c.cache.hasBase = hasBase
  mirror : c.cache.last = uint64Max ∧ c.node = boot ∨
    c.cache.last < 2 ^ 40 ∧ c.node = c.cache.last

theorem Channel.Mirrors.update {c : Channel} {boot fd : ℤ} {base : ℕ} {hasBase : Bool}
    (h : c.Mirrors boot fd base hasBase) (hfd : 0 ≤ fd) {call : UpdateCall}
    (hv : call.value < 2 ^ 40) : (c.update call).Mirrors boot fd base hasBase := by
  rcases update_cases h.active (h.fd_eq.symm ▸ hfd) (hv.trans (by norm_num)) with
    ⟨-, he⟩ | ⟨-, he⟩ | ⟨-, -, he⟩ | ⟨-, -, he⟩ <;> rw [he]
  · exact h
  · exact h
  · exact ⟨h.active, h.fd_eq, h.base_eq, h.hasBase_eq, Or.inr ⟨hv, rfl⟩⟩
  · exact ⟨h.active, h.fd_eq, h.base_eq, h.hasBase_eq, h.mirror⟩

theorem mirrors_run {c : Channel} {boot fd : ℤ} {base : ℕ} {hasBase : Bool} (hfd : 0 ≤ fd)
    (h : c.Mirrors boot fd base hasBase) {calls : List UpdateCall}
    (hv : ∀ call ∈ calls, call.value < 2 ^ 40) :
    (run Channel.update c calls).Mirrors boot fd base hasBase := by
  induction calls generalizing c with
  | nil => exact h
  | cons call calls ih =>
    exact ih (h.update hfd (hv call (by simp))) (fun d hd => hv d (List.mem_cons_of_mem _ hd))

theorem restore_node {c : Channel} {boot fd : ℤ} {base : ℕ} (h : c.Mirrors boot fd base true)
    (hb : boot = base) (hlt : base < 2 ^ 64) {res : Pwrite}
    (hres : (pgSysfsRestore c.cache res).2 = true → res.Complete base) :
    (c.restore res).node = boot := by
  have hmir := h.mirror
  by_cases hlast : c.cache.last = uint64Max ∨ c.cache.last = base
  · have hskip : pgSysfsRestore c.cache res = (c.cache, false) := by
      rw [pgSysfsRestore, if_pos]
      simp only [h.active, h.hasBase_eq, h.base_eq]
      simpa using hlast
    simp only [Channel.restore, hskip, Bool.false_eq_true, ↓reduceIte]
    rcases hmir with ⟨-, hn⟩ | ⟨hl, hn⟩
    · exact hn
    · rcases hlast with hlast | hlast
      · rw [hlast] at hl
        norm_num [uint64Max] at hl
      · rw [hn, hlast, hb]
  · rw [not_or] at hlast
    have hguard : (!c.cache.active || !c.cache.hasBase || c.cache.last = uint64Max ||
        c.cache.last = c.cache.base) = false := by
      simp only [h.active, h.hasBase_eq, h.base_eq]
      simpa using hlast
    have hissue : (pgSysfsRestore c.cache res).2 = true := by
      rw [pgSysfsRestore, hguard]
      simp only [Bool.false_eq_true, ↓reduceIte]
      split <;> rfl
    have hc := hres hissue
    simp only [Channel.restore, hissue, ↓reduceIte, h.base_eq]
    rw [nodePwrite_complete (by omega) hc, hb]

theorem restore_silent {c : Channel} {boot fd : ℤ} {base : ℕ}
    (h : c.Mirrors boot fd base false) (res : Pwrite) : (pgSysfsRestore c.cache res).2 = false := by
  rw [pgSysfsRestore, h.hasBase_eq]
  simp

/-- The channel `pg_sysfs_cache_init` opens: the first candidate that can be written is a node
that prints `boot`. -/
def bootChannel (skipped : List Candidate) (fd : ℕ) (boot : ℤ) (rest : List Candidate) : Channel :=
  ⟨(pgSysfsCacheInit (skipped ++ ⟨some fd, .ok (integerLine boot)⟩ :: rest)).1, boot⟩

theorem cacheInit_skip {skipped : List Candidate} (h : ∀ p ∈ skipped, p.fd = none)
    (paths : List Candidate) : pgSysfsCacheInit (skipped ++ paths) = pgSysfsCacheInit paths := by
  induction skipped with
  | nil => rfl
  | cons p ps ih =>
    rw [List.cons_append, pgSysfsCacheInit, h p (by simp)]
    exact ih (fun q hq => h q (List.mem_cons_of_mem _ hq))

theorem readI32_line (boot : ℤ) : pgSysfsReadI32 (.ok (integerLine boot)) = .ok (clampI32 boot) := by
  have hlen : ((integerLine boot).take 32).length ≠ 0 := by
    simp [integerLine]
  simp only [pgSysfsReadI32, hlen, ↓reduceIte, parse_integerLine boot (show 11 < 32 by norm_num)]

theorem bootChannel_mirrors {skipped : List Candidate} (h : ∀ p ∈ skipped, p.fd = none)
    (fd : ℕ) (boot : ℤ) (rest : List Candidate) :
    ∃ base hasBase, (bootChannel skipped fd boot rest).Mirrors boot fd base hasBase ∧
      (0 ≤ boot → boot ≤ int32Max → boot = base ∧ hasBase = true) ∧
      (boot < 0 → hasBase = false) := by
  have hinit := cacheInit_skip h (⟨some fd, .ok (integerLine boot)⟩ :: rest)
  simp only [pgSysfsCacheInit, readI32_line] at hinit
  by_cases hcur : clampI32 boot ≥ 0
  · rw [if_pos hcur] at hinit
    refine ⟨(u32 (clampI32 boot)).toNat, true, ?_, ?_, ?_⟩
    · rw [bootChannel, hinit]
      exact ⟨rfl, rfl, rfl, rfl, Or.inl ⟨rfl, rfl⟩⟩
    · intro h0 hm
      rw [clampI32_eq (by simp only [int32Min]; omega) hm,
        u32_eq h0 (by simp only [int32Max] at hm; omega)]
      exact ⟨(Int.toNat_of_nonneg h0).symm, rfl⟩
    · intro hneg
      simp only [clampI32, int32Max, int32Min] at hcur
      split_ifs at hcur <;> omega
  · rw [if_neg hcur] at hinit
    refine ⟨0, false, ?_, ?_, fun _ => rfl⟩
    · rw [bootChannel, hinit]
      exact ⟨rfl, rfl, rfl, rfl, Or.inl ⟨rfl, rfl⟩⟩
    · intro h0 hm
      rw [clampI32_eq (by simp only [int32Min]; omega) hm] at hcur
      omega

def RestoresBoot (boot : ℤ) : Prop :=
  ∀ (skipped rest : List Candidate) (fd : ℕ) (calls : List UpdateCall) (res : Pwrite),
    (∀ p ∈ skipped, p.fd = none) → (∀ call ∈ calls, call.value < 2 ^ 40) →
    let c := run Channel.update (bootChannel skipped fd boot rest) calls
    ((pgSysfsRestore c.cache res).2 = true → res.Complete c.cache.base) →
    (c.restore res).node = boot

def NeverRestores (boot : ℤ) : Prop :=
  ∀ (skipped rest : List Candidate) (fd : ℕ) (calls : List UpdateCall) (res : Pwrite),
    (∀ p ∈ skipped, p.fd = none) → (∀ call ∈ calls, call.value < 2 ^ 40) →
    (pgSysfsRestore (run Channel.update (bootChannel skipped fd boot rest) calls).cache res).2 = false

theorem restores_boot (boot : ℤ) (hmax : boot ≤ int32Max) :
    (0 ≤ boot → RestoresBoot boot) ∧ (boot < 0 → NeverRestores boot) := by
  constructor
  · intro h0 skipped rest fd calls res hskip hv c hres
    obtain ⟨base, hasBase, hm, hcap, -⟩ := bootChannel_mirrors hskip fd boot rest
    obtain ⟨hb, rfl⟩ := hcap h0 hmax
    have hrun := mirrors_run (Int.natCast_nonneg fd) hm hv
    apply restore_node hrun hb
    · simp only [int32Max] at hmax
      omega
    · intro hissue
      exact hrun.base_eq ▸ hres hissue
  · intro hneg skipped rest fd calls res hskip hv
    obtain ⟨base, hasBase, hm, -, hcap⟩ := bootChannel_mirrors hskip fd boot rest
    obtain rfl := hcap hneg
    exact restore_silent (mirrors_run (Int.natCast_nonneg fd) hm hv) res

theorem restores_boot_latency : RestoresBoot 24000000 :=
  (restores_boot 24000000 (by decide)).1 (by decide)

/-- A node booted at -1 is overwritten by the first update and never brought back. -/
theorem negative_boot_lost : ¬RestoresBoot (-1) := by
  intro h
  have hcall := h [] [] 7
    [⟨500000, false, some ⟨.abs, 50000⟩, ⟨10, 0⟩, ⟨10, 0⟩, .wrote 7⟩] (.wrote 2)
    (by simp) (by simp)
  have hnode : ((run Channel.update (bootChannel [] 7 (-1) [])
      [⟨500000, false, some ⟨.abs, 50000⟩, ⟨10, 0⟩, ⟨10, 0⟩, .wrote 7⟩]).restore
        (.wrote 2)).node = 500000 := by
    decide +kernel
  exact absurd (hnode.symm.trans (hcall (fun _ => by decide +kernel))) (by decide)

end Pgov
