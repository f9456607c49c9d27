import Pgov.SysfsRestore

namespace Pgov

open FixedWidth DecimalText Runs

inductive Sink
  | schedLat
  | schedGran
  | schedWake
  | schedMig
  | schedWalt
  | schedUcl
  deriving DecidableEq, Repr

def sinks : List Sink := [.schedLat, .schedGran, .schedWake, .schedMig, .schedWalt, .schedUcl]

/-- The six caches, the node behind each descriptor, and the filled part of `rs_tbl`. -/
structure Sinks where
  cache : Sink → SysfsCache
  nodes : ℤ → ℤ
  rsTbl : List (ℤ × ℕ)

def restoreSnapshot (s : Sinks) : Sinks :=
  { s with
    rsTbl := sinks.filterMap fun i =>
      if !(s.cache i).active || !(s.cache i).hasBase then none
      else some ((s.cache i).fd, (s.cache i).base) }

def crashRestore (s : Sinks) (res : ℤ → Pwrite) : Sinks :=
  { s with
    nodes := s.rsTbl.foldl (fun nodes e =>
      Function.update nodes e.1 (nodePwrite (nodes e.1) (pgFmtU64 e.2) (res e.1))) s.nodes }

def Sinks.channel (s : Sinks) (i : Sink) : Channel := ⟨s.cache i, s.nodes (s.cache i).fd⟩

def Sinks.put (s : Sinks) (i : Sink) (c : Channel) : Sinks :=
  { s with
    cache := Function.update s.cache i c.cache
    nodes := Function.update s.nodes (s.cache i).fd c.node }

def Sinks.update (s : Sinks) (u : Sink × UpdateCall) : Sinks :=
  s.put u.1 ((s.channel u.1).update u.2)

def Sinks.restore (res : Sink → Pwrite) (s : Sinks) (i : Sink) : Sinks :=
  s.put i ((s.channel i).restore (res i))

def restoreAll (s : Sinks) (res : Sink → Pwrite) : Sinks :=
  { sinks.foldl (Sinks.restore res) s with rsTbl := [] }

structure SinkBoot where
  paths : Sink → List Candidate
  nodes : ℤ → ℤ

def SinkBoot.cache (b : SinkBoot) (i : Sink) : SysfsCache := (pgSysfsCacheInit (b.paths i)).1

def SinkBoot.start (b : SinkBoot) : Sinks := restoreSnapshot ⟨b.cache, b.nodes, []⟩

/-- A node that can be read holds an integer of at most `INT32_MAX`, and no descriptor is handed
out twice. -/
structure SinkBoot.Fair (b : SinkBoot) : Prop where
  readable : ∀ i, ∀ p ∈ b.paths i, ∀ fd, p.fd = some fd → (∃ errno, p.text = .error errno) ∨
    p.text = .ok (integerLine (b.nodes fd)) ∧ b.nodes fd ≤ int32Max
  distinct : ∀ i j, i ≠ j → (b.cache i).active = true → (b.cache j).active = true →
    (b.cache i).fd ≠ (b.cache j).fd

def SinkBoot.captured (b : SinkBoot) (i : Sink) : Prop :=
  (b.cache i).active = true ∧ (b.cache i).hasBase = true

section Channels

variable {s : Sinks} {i j : Sink} {c : Channel}

theorem put_self (hfd : c.cache.fd = (s.cache i).fd) : (s.put i c).channel i = c := by
  simp [Sinks.put, Sinks.channel, hfd]

theorem put_channel (s : Sinks) (i : Sink) : s.put i (s.channel i) = s := by
  simp [Sinks.put, Sinks.channel]

theorem put_other (hij : j ≠ i) (hfd : (s.cache j).fd ≠ (s.cache i).fd) :
    (s.put i c).channel j = s.channel j := by
  simp [Sinks.put, Sinks.channel, hij, hfd]

theorem Channel.Mirrors.restore {boot fd : ℤ} {base : ℕ} {hasBase : Bool}
    (h : c.Mirrors boot fd base hasBase) (hfd : 0 ≤ fd) (hlt : base < 2 ^ 40) (res : Pwrite) :
    (c.restore res).Mirrors boot fd base hasBase := by
  have hbase : c.cache.base < 2 ^ 64 := by
    rw [h.base_eq]
    omega
  by_cases hskip : (!c.cache.active || !c.cache.hasBase || c.cache.last = uint64Max ||
      c.cache.last = c.cache.base) = true
  · have hkeep : pgSysfsRestore c.cache res = (c.cache, false) := by rw [pgSysfsRestore, if_pos hskip]
    simpa only [Channel.restore, hkeep, Bool.false_eq_true, ↓reduceIte] using h
  by_cases hc : res.Complete c.cache.base
  · have hw := (writeStrm_eq_zero (h.fd_eq.symm ▸ hfd) c.cache.base res).mpr hc
    have hwrite : pgSysfsRestore c.cache res = ({ c.cache with last := c.cache.base }, true) := by
      rw [pgSysfsRestore, if_neg hskip, if_pos hw]
    rw [Channel.restore, hwrite]
    refine ⟨h.active, h.fd_eq, h.base_eq, h.hasBase_eq, Or.inr ⟨h.base_eq.symm ▸ hlt, ?_⟩⟩
    exact nodePwrite_complete hbase hc _
  · have hw := mt (writeStrm_eq_zero (h.fd_eq.symm ▸ hfd) c.cache.base res).mp hc
    have hfail : pgSysfsRestore c.cache res = (c.cache, true) := by
      rw [pgSysfsRestore, if_neg hskip, if_neg hw]
    have hnode : nodePwrite c.node (pgFmtU64 c.cache.base) res = c.node := nodePwrite_incomplete hc _
    simpa only [Channel.restore, hfail, ↓reduceIte, hnode] using h

end Channels

theorem cacheInit_cases (paths : List Candidate) :
    pgSysfsCacheInit paths = (sysfsUnmapped, 0) ∨
      ∃ p ∈ paths, ∃ fd : ℕ, p.fd = some fd ∧ (pgSysfsCacheInit paths).1.active = true ∧
        (pgSysfsCacheInit paths).1.fd = fd ∧ (pgSysfsCacheInit paths).1.last = uint64Max ∧
        ((pgSysfsCacheInit paths).1.hasBase = true → ∃ cur : ℤ, 0 ≤ cur ∧
          pgSysfsReadI32 p.text = .ok cur ∧
          (pgSysfsCacheInit paths).1.base = (u32 cur).toNat) := by
  induction paths with
  | nil => exact Or.inl rfl
  | cons p paths ih =>
    rw [pgSysfsCacheInit]
    cases hfd : p.fd with
    | none =>
      rcases ih with ih | ⟨q, hq, hrest⟩
      · exact Or.inl ih
      · exact Or.inr ⟨q, List.mem_cons_of_mem _ hq, hrest⟩
    | some fd =>
      refine Or.inr ⟨p, by simp, fd, hfd, ?_⟩
      cases hread : pgSysfsReadI32 p.text with
      | error e =>
        refine ⟨rfl, rfl, rfl, fun h => ?_⟩
        exact absurd h (by simp [sysfsUnmapped])
      | ok cur =>
        by_cases hcur : cur ≥ 0
        · simp [hcur, sysfsUnmapped]
        · simp [hcur, sysfsUnmapped]

section Boot

variable {b : SinkBoot}

theorem SinkBoot.Fair.base (h : b.Fair) {i : Sink} (hi : b.captured i) :
    b.nodes (b.cache i).fd = (b.cache i).base ∧ (b.cache i).base < 2 ^ 40 := by
  rcases cacheInit_cases (b.paths i) with hc | ⟨p, hp, fd, hpfd, -, hfd, -, hbase⟩
  · have hinactive : (b.cache i).active = false := by rw [SinkBoot.cache, hc]; rfl
    rw [hi.1] at hinactive
    exact absurd hinactive (by decide)
  · obtain ⟨cur, hcur, hread, hbase⟩ := hbase hi.2
    rcases h.readable i p hp fd hpfd with ⟨errno, htext⟩ | ⟨htext, hmax⟩
    · rw [htext] at hread
      exact absurd hread (by simp [pgSysfsReadI32])
    · rw [htext, readI32_line] at hread
      have hval : clampI32 (b.nodes fd) = cur := Except.ok.inj hread
      have hmem : b.nodes fd = cur := by
        simp only [clampI32, int32Max, int32Min] at hval hmax
        split_ifs at hval <;> omega
      simp only [int32Max] at hmax
      have hu : (b.cache i).base = (u32 cur).toNat := hbase
      rw [show (b.cache i).fd = fd from hfd, hu, u32_eq hcur (by omega)]
      omega

theorem mapped_of_active {i : Sink} (hi : (b.cache i).active = true) :
    0 ≤ (b.cache i).fd ∧ (b.cache i).last = uint64Max := by
  rcases cacheInit_cases (b.paths i) with hc | ⟨p, hp, fd, hpfd, -, hfd, hlast, -⟩
  · have hinactive : (b.cache i).active = false := by rw [SinkBoot.cache, hc]; rfl
    rw [hi] at hinactive
    exact absurd hinactive (by decide)
  · exact ⟨by rw [show (b.cache i).fd = fd from hfd]; exact Int.natCast_nonneg fd, hlast⟩

theorem restoreSnapshot_mem {e : ℤ × ℕ} : e ∈ b.start.rsTbl ↔
    ∃ i, b.captured i ∧ e = ((b.cache i).fd, (b.cache i).base) := by
  have hall (i : Sink) : i ∈ sinks := by cases i <;> decide
  simp only [SinkBoot.start, restoreSnapshot, List.mem_filterMap, SinkBoot.captured]
  constructor
  · rintro ⟨i, -, he⟩
    split at he
    · exact absurd he (by simp)
    · next hi => exact ⟨i, by simpa using hi, (Option.some.inj he).symm⟩
  · rintro ⟨i, ⟨hact, hbase⟩, rfl⟩
    exact ⟨i, hall i, by simp [hact, hbase]⟩

structure Frozen (b : SinkBoot) (s : Sinks) : Prop where
  unmapped : ∀ i, (b.cache i).active = false → s.cache i = b.cache i
  mapped : ∀ i, (b.cache i).active = true → (s.channel i).Mirrors (b.nodes (b.cache i).fd)
    (b.cache i).fd (b.cache i).base (b.cache i).hasBase

theorem frozen_start (b : SinkBoot) : Frozen b b.start := by
  refine ⟨fun _ _ => rfl, fun i hi => ?_⟩
  exact ⟨hi, rfl, rfl, rfl, Or.inl ⟨(mapped_of_active hi).2, rfl⟩⟩

variable {s : Sinks}

theorem Frozen.fd (h : Frozen b s) (i : Sink) : (s.cache i).fd = (b.cache i).fd := by
  cases hi : (b.cache i).active with
  | false => rw [h.unmapped i hi]
  | true => exact (h.mapped i hi).fd_eq

theorem Frozen.put (h : Frozen b s) (hb : b.Fair) {i : Sink} {c : Channel}
    (hidle : (b.cache i).active = false → c = s.channel i)
    (hc : (b.cache i).active = true → c.Mirrors (b.nodes (b.cache i).fd) (b.cache i).fd
      (b.cache i).base (b.cache i).hasBase) : Frozen b (s.put i c) := by
  cases hi : (b.cache i).active with
  | false => rwa [hidle hi, put_channel]
  | true =>
    constructor
    · intro j hj
      have hji : j ≠ i := by
        rintro rfl
        rw [hi] at hj
        exact absurd hj (by decide)
      simpa [Sinks.put, hji] using h.unmapped j hj
    · intro j hj
      by_cases hji : j = i
      · subst hji
        rw [put_self ((hc hi).fd_eq.trans (h.fd j).symm)]
        exact hc hi
      · rw [put_other hji (by rw [h.fd, h.fd]; exact hb.distinct j i hji hj hi)]
        exact h.mapped j hj

theorem update_unmapped {c : Channel} (hc : c.cache.active = false) (call : UpdateCall) :
    c.update call = c := by
  simp [Channel.update, pgSysfsUpdate, hc]

theorem restore_unmapped {c : Channel} (hc : c.cache.active = false) (res : Pwrite) :
    c.restore res = c := by
  simp [Channel.restore, pgSysfsRestore, hc]

theorem Frozen.update (h : Frozen b s) (hb : b.Fair) {u : Sink × UpdateCall}
    (hv : u.2.value < 2 ^ 40) : Frozen b (s.update u) := by
  apply h.put hb
  · intro hi
    apply update_unmapped
    rw [Sinks.channel, h.unmapped u.1 hi]
    exact hi
  · intro hi
    exact (h.mapped u.1 hi).update (mapped_of_active hi).1 hv

theorem Frozen.restore (h : Frozen b s) (hb : b.Fair) (res : Sink → Pwrite) (i : Sink) :
    Frozen b (s.restore res i) := by
  apply h.put hb
  · intro hi
    apply restore_unmapped
    rw [Sinks.channel, h.unmapped i hi]
    exact hi
  · intro hi
    cases hbase : (b.cache i).hasBase with
    | false =>
      have hm := h.mapped i hi
      rw [hbase] at hm
      have hkeep : (s.channel i).restore (res i) = s.channel i := by
        simp [Channel.restore, pgSysfsRestore, hm.hasBase_eq]
      rwa [hkeep]
    | true =>
      rw [← hbase]
      exact (h.mapped i hi).restore (mapped_of_active hi).1 (hb.base ⟨hi, hbase⟩).2 (res i)

theorem frozen_run (hb : b.Fair) {updates : List (Sink × UpdateCall)}
    (hv : ∀ u ∈ updates, u.2.value < 2 ^ 40) : Frozen b (run Sinks.update b.start updates) ∧
      (run Sinks.update b.start updates).rsTbl = b.start.rsTbl := by
  have hstep (s : Sinks) (u : Sink × UpdateCall) (hs : Frozen b s ∧ s.rsTbl = b.start.rsTbl)
      (hu : u.2.value < 2 ^ 40) : Frozen b (s.update u) ∧ (s.update u).rsTbl = b.start.rsTbl :=
    ⟨hs.1.update hb hu, hs.2⟩
  exact run_invariant hstep ⟨frozen_start b, rfl⟩ (along_of_mem hv _)

theorem crashRestore_nodes {tbl : List (ℤ × ℕ)} (res : ℤ → Pwrite) (nodes : ℤ → ℤ)
    (hkey : ∀ e ∈ tbl, ∀ e' ∈ tbl, e.1 = e'.1 → e.2 = e'.2)
    (hres : ∀ e ∈ tbl, e.2 < 2 ^ 64 ∧ (res e.1).Complete e.2) (fd : ℤ) :
    (∀ e ∈ tbl, e.1 = fd → (tbl.foldl (fun nodes e => Function.update nodes e.1
      (nodePwrite (nodes e.1) (pgFmtU64 e.2) (res e.1))) nodes) fd = e.2) ∧
    ((∀ e ∈ tbl, e.1 ≠ fd) → (tbl.foldl (fun nodes e => Function.update nodes e.1
      (nodePwrite (nodes e.1) (pgFmtU64 e.2) (res e.1))) nodes) fd = nodes fd) := by
  induction tbl generalizing nodes with
  | nil => simp
  | cons d tbl ih =>
    obtain ⟨hin, hout⟩ := ih
      (Function.update nodes d.1 (nodePwrite (nodes d.1) (pgFmtU64 d.2) (res d.1)))
      (fun e he e' he' => hkey e (List.mem_cons_of_mem _ he) e' (List.mem_cons_of_mem _ he'))
      (fun e he => hres e (List.mem_cons_of_mem _ he))
    simp only [List.foldl_cons]
    constructor
    · rintro e he rfl
      by_cases hlater : ∃ e' ∈ tbl, e'.1 = e.1
      · obtain ⟨e', he', hfd⟩ := hlater
        rw [hin e' he' hfd, hkey e' (List.mem_cons_of_mem _ he') e he hfd]
      · have hlast : ∀ e' ∈ tbl, e'.1 ≠ e.1 := fun e' he' hfd => hlater ⟨e', he', hfd⟩
        obtain rfl : e = d := by
          rcases List.mem_cons.mp he with rfl | he
          · rfl
          · exact absurd rfl (hlast e he)
        rw [hout hlast, Function.update_self, nodePwrite_complete (hres e he).1 (hres e he).2]
    · intro hne
      rw [hout fun e he => hne e (List.mem_cons_of_mem _ he),
        Function.update_of_ne (hne d (by simp)).symm]

theorem Frozen.restore_nodes (h : Frozen b s) (hb : b.Fair) {res : Sink → Pwrite} {i : Sink}
    (hres : (pgSysfsRestore (s.cache i) (res i)).2 = true → (res i).Complete (s.cache i).base) :
    (b.captured i → (s.restore res i).nodes (b.cache i).fd = (b.cache i).base) ∧
      ∀ fd, (b.captured i → fd ≠ (b.cache i).fd) → (s.restore res i).nodes fd = s.nodes fd := by
  have hfd := h.fd i
  constructor
  · intro hi
    obtain ⟨hbase, hlt⟩ := hb.base hi
    have hm := h.mapped i hi.1
    rw [hi.2] at hm
    have hcomplete : (pgSysfsRestore (s.cache i) (res i)).2 = true →
        (res i).Complete (b.cache i).base := by
      intro hissue
      rw [← hm.base_eq]
      exact hres hissue
    have hnode := restore_node hm hbase (hlt.trans (by norm_num)) hcomplete
    change Function.update s.nodes (s.cache i).fd _ (b.cache i).fd = _
    rw [hfd, Function.update_self, hnode, hbase]
  · intro fd hfd'
    change Function.update s.nodes (s.cache i).fd _ fd = _
    by_cases heq : fd = (s.cache i).fd
    · rw [heq, Function.update_self]
      have hnot : ¬b.captured i := fun hi => hfd' hi (heq.trans hfd)
      have hsilent : (pgSysfsRestore (s.cache i) (res i)).2 = false := by
        cases hact : (b.cache i).active with
        | false => simp [pgSysfsRestore, h.unmapped i hact, hact]
        | true =>
          cases hbase : (b.cache i).hasBase with
          | false => exact restore_silent (hbase ▸ h.mapped i hact) (res i)
          | true => exact absurd ⟨hact, hbase⟩ hnot
      simp [Channel.restore, Sinks.channel, hsilent]
    · rw [Function.update_of_ne heq]

theorem restoreAll_nodes (h : Frozen b s) (hb : b.Fair) {res : Sink → Pwrite} {l : List Sink}
    (hl : l.Nodup)
    (hres : ∀ i ∈ l, (pgSysfsRestore (s.cache i) (res i)).2 = true →
      (res i).Complete (s.cache i).base) (fd : ℤ) :
    (∀ i ∈ l, b.captured i → (b.cache i).fd = fd →
      (l.foldl (Sinks.restore res) s).nodes fd = (b.cache i).base) ∧
    ((∀ i ∈ l, b.captured i → (b.cache i).fd ≠ fd) →
      (l.foldl (Sinks.restore res) s).nodes fd = s.nodes fd) := by
  induction l generalizing s with
  | nil => simp
  | cons j l ih =>
    obtain ⟨hj, hl⟩ := List.nodup_cons.mp hl
    have hcache (i : Sink) (hi : i ∈ l) : (s.restore res j).cache i = s.cache i :=
      Function.update_of_ne (by rintro rfl; exact hj hi) _ _
    obtain ⟨hin, hout⟩ := ih (h.restore hb res j) hl fun i hi => by
      rw [hcache i hi]
      exact hres i (List.mem_cons_of_mem _ hi)
    obtain ⟨hself, hother⟩ := h.restore_nodes hb (hres j (by simp))
    rw [List.foldl_cons]
    constructor
    · intro i hi hcap hfd
      rcases List.mem_cons.mp hi with rfl | hi
      · rw [hout, ← hfd, hself hcap]
        intro k hk hkcap hkfd
        have hne : k ≠ i := by
          rintro rfl
          exact hj hk
        exact hb.distinct k i hne hkcap.1 hcap.1 (hkfd.trans hfd.symm)
      · exact hin i hi hcap hfd
    · intro hne
      rw [hout fun i hi => hne i (List.mem_cons_of_mem _ hi),
        hother fd fun hcap => (hne j (by simp) hcap).symm]

end Boot

/-- `crash_restore` and `restore_all`, after any updates, bring every captured node to its boot
value and leave the other nodes alone. -/
theorem recovery_paths_agree (b : SinkBoot) (hb : b.Fair) (updates : List (Sink × UpdateCall))
    (hv : ∀ u ∈ updates, u.2.value < 2 ^ 40) (crash : ℤ → Pwrite) (orderly : Sink → Pwrite)
    (hcrash : ∀ e ∈ (run Sinks.update b.start updates).rsTbl, (crash e.1).Complete e.2)
    (horderly : ∀ i, (pgSysfsRestore ((run Sinks.update b.start updates).cache i) (orderly i)).2 =
      true → (orderly i).Complete ((run Sinks.update b.start updates).cache i).base) :
    let s := run Sinks.update b.start updates
    (∀ i, b.captured i →
      (crashRestore s crash).nodes (b.cache i).fd = b.nodes (b.cache i).fd ∧
      (restoreAll s orderly).nodes (b.cache i).fd = b.nodes (b.cache i).fd) ∧
    (∀ fd, (∀ i, b.captured i → (b.cache i).fd ≠ fd) →
      (crashRestore s crash).nodes fd = s.nodes fd ∧
      (restoreAll s orderly).nodes fd = s.nodes fd) ∧
    (restoreAll s orderly).rsTbl = [] ∧
    ∀ crash', crashRestore (restoreAll s orderly) crash' = restoreAll s orderly := by
  intro s
  obtain ⟨hs, htbl⟩ := frozen_run hb hv
  have hall (i : Sink) : i ∈ sinks := by cases i <;> decide
  have hmem (e : ℤ × ℕ) : e ∈ s.rsTbl ↔
      ∃ i, b.captured i ∧ e = ((b.cache i).fd, (b.cache i).base) := by
    rw [htbl]
    exact restoreSnapshot_mem
  have hkey : ∀ e ∈ s.rsTbl, ∀ e' ∈ s.rsTbl, e.1 = e'.1 → e.2 = e'.2 := by
    intro e he e' he' hfd
    obtain ⟨i, hi, rfl⟩ := (hmem e).mp he
    obtain ⟨j, hj, rfl⟩ := (hmem e').mp he'
    by_cases hij : i = j
    · rw [hij]
    · exact absurd hfd (hb.distinct i j hij hi.1 hj.1)
  have hlow : ∀ e ∈ s.rsTbl, e.2 < 2 ^ 64 ∧ (crash e.1).Complete e.2 := by
    intro e he
    refine ⟨?_, hcrash e he⟩
    obtain ⟨i, hi, rfl⟩ := (hmem e).mp he
    exact (hb.base hi).2.trans (by norm_num)
  have hcrashed (fd : ℤ) := crashRestore_nodes crash s.nodes hkey hlow fd
  have hrestored (fd : ℤ) := restoreAll_nodes hs hb (l := sinks) (by decide)
    (fun i _ => horderly i) fd
  refine ⟨fun i hi => ⟨?_, ?_⟩, fun fd hfd => ⟨?_, ?_⟩, rfl, fun crash' => rfl⟩
  · rw [(hb.base hi).1]
    exact (hcrashed _).1 _ ((hmem _).mpr ⟨i, hi, rfl⟩) rfl
  · rw [(hb.base hi).1]
    exact (hrestored _).1 i (hall i) hi rfl
  · refine (hcrashed fd).2 fun e he => ?_
    obtain ⟨i, hi, rfl⟩ := (hmem e).mp he
    exact hfd i hi
  · exact (hrestored fd).2 fun i _ hi => hfd i hi

def latencyBoot : SinkBoot :=
  { paths := fun i => if i = .schedLat then [⟨some 7, .ok (integerLine 24000000)⟩] else []
    nodes := fun _ => 24000000 }

def latencyUpdates : List (Sink × UpdateCall) :=
  [(.schedLat, ⟨500000, false, some ⟨.abs, 50000⟩, ⟨10, 0⟩, ⟨10, 0⟩, .wrote 7⟩)]

theorem latencyBoot_fair : latencyBoot.Fair := by
  constructor
  · intro i p hp fd hfd
    by_cases hi : i = .schedLat
    · obtain rfl : p = ⟨some 7, .ok (integerLine 24000000)⟩ := by simpa [latencyBoot, hi] using hp
      exact Or.inr ⟨rfl, by norm_num [latencyBoot, int32Max]⟩
    · simp [latencyBoot, hi] at hp
  · intro i j hij hi hj
    have honly (k : Sink) (hk : (latencyBoot.cache k).active = true) : k = .schedLat := by
      by_contra hne
      simp [SinkBoot.cache, latencyBoot, hne, pgSysfsCacheInit, sysfsUnmapped] at hk
    exact absurd ((honly i hi).trans (honly j hj).symm) hij

theorem recovery_paths_agree_latency :
    (crashRestore (run Sinks.update latencyBoot.start latencyUpdates) fun _ => .wrote 9).nodes 7 =
        24000000 ∧
      (restoreAll (run Sinks.update latencyBoot.start latencyUpdates) fun _ => .wrote 9).nodes 7 =
        24000000 := by
  have hfd : (latencyBoot.cache .schedLat).fd = 7 := by decide +kernel
  have hcap : latencyBoot.captured .schedLat := ⟨by decide +kernel, by decide +kernel⟩
  have h := (recovery_paths_agree latencyBoot latencyBoot_fair latencyUpdates (by decide)
    (fun _ => .wrote 9) (fun _ => .wrote 9) (by decide +kernel)
    (fun i => by cases i <;> decide +kernel)).1 .schedLat hcap
  rw [hfd] at h
  exact h

end Pgov
