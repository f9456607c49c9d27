import Pgov.KernelValues

namespace Pgov

open FixedWidth FdTable Runs DecimalText

/-- The node a sink is mapped onto can be read, and holds an integer the cache can capture. -/
structure ChannelIo.Fair (io : ChannelIo) : Prop where
  nonneg : 0 ≤ io.node
  le : io.node ≤ int32Max
  text : ∀ c, io.paths.find? CandidateIo.writable = some c →
    c.readable = true ∧ c.text = .ok (integerLine io.node)

theorem cacheInit_find (paths : List CandidateIo) (fd : ℤ) :
    pgSysfsCacheInit (paths.map (CandidateIo.at fd)) =
      pgSysfsCacheInit ((paths.find? CandidateIo.writable).toList.map (CandidateIo.at fd)) := by
  induction paths with
  | nil => rfl
  | cons c paths ih =>
    cases hc : c.writable with
    | true =>
      rw [List.find?_cons_of_pos hc]
      simp [pgSysfsCacheInit, CandidateIo.at, hc]
    | false =>
      rw [List.find?_cons_of_neg (by simp [hc]), List.map_cons, pgSysfsCacheInit]
      simp only [CandidateIo.at, hc, Bool.false_eq_true, ↓reduceIte]
      exact ih

theorem ChannelIo.Fair.captured {io : ChannelIo} (h : io.Fair) {kern : Kernel}
    (hact : (sysfsCacheInit kern io).2.1.cache.active = true) :
    (sysfsCacheInit kern io).2.1.cache.hasBase = true ∧
      io.node = (sysfsCacheInit kern io).2.1.cache.base := by
  rw [sysfsCacheInit_channel] at hact ⊢
  simp only at hact ⊢
  rw [cacheInit_find] at hact ⊢
  cases hfind : io.paths.find? CandidateIo.writable with
  | none =>
    rw [hfind] at hact
    exact absurd hact (by simp [pgSysfsCacheInit, sysfsUnmapped])
  | some c =>
    obtain ⟨hread, htext⟩ := h.text c hfind
    have hwrite : c.writable = true := List.find?_some hfind
    have h0 := h.nonneg
    have h1 := h.le
    have hclamp : clampI32 io.node = io.node := clampI32_eq (by simp only [int32Min]; omega) h1
    have hval : (u32 io.node).toNat = io.node.toNat := by
      rw [u32_eq h0 (by simp only [int32Max] at h1; omega)]
    simp only [Option.toList_some, List.map_cons, List.map_nil, pgSysfsCacheInit, CandidateIo.at,
      hwrite, hread, htext, ↓reduceIte, readI32_line, hclamp, ge_iff_le, h0, hval]
    exact ⟨trivial, (Int.toNat_of_nonneg h0).symm⟩

theorem cleanup_node (d : Daemon) (res : Sink → Pwrite) (i : Sink) :
    ((cleanupContext d res).ctx.channels.get i).node = ((d.ctx.channels.get i).restore (res i)).node := by
  cases i <;> rfl

theorem Channel.Kept.restore {band : ℕ → Prop} {start c : Channel} (h : c.Kept band start)
    (hband : ∀ v, band v → v < 2 ^ 40)
    (hcap : start.cache.active = true → start.cache.hasBase = true ∧ start.node = start.cache.base)
    (hlt : start.cache.base < 2 ^ 64) {res : Pwrite} (hres : res.Complete start.cache.base) :
    (c.restore res).node = start.node := by
  cases hact : start.cache.active with
  | false =>
    rw [restore_unmapped (h.active.trans hact)]
    rcases h.value with ⟨-, hnode⟩ | ⟨hact', -⟩
    · exact hnode
    · exact absurd (hact.symm.trans hact') (by simp)
  | true =>
    obtain ⟨hbase, hboot⟩ := hcap hact
    have hmir := h.mirrors hact hband
    rw [hbase] at hmir
    exact restore_node hmir hboot hlt fun _ => hres

section Life

variable {static : PgContext} {inherited : Finset ℤ} {io : BootIo}

theorem lockfileInit_fd (kern : Kernel) : 0 ≤ (pgLockfileInit kern ⟨none, none⟩).2 :=
  kern.fresh_nonneg

theorem epollRun_kept (hstatic : ZeroedStatic static) {d : Daemon}
    (hboot : daemonPrepare (daemonStart static inherited) io = .ok d) {waits : List WaitOut}
    {res : Daemon × ℤ} (hrun : pgEpollRun io.policy d io.setup waits = some res) (i : Sink) :
    (res.1.ctx.channels.get i).Kept (i.Band (pgTuneLimits io.limits)) (d.ctx.channels.get i) := by
  have hkept := reactor_kept hstatic hboot waits i
  rw [pgEpollRun] at hrun
  simp only at hrun
  split at hrun
  · cases hrun
    obtain ⟨kern, fd, heq⟩ := epollSetup_eq d io.setup
    rw [heq]
    refine ⟨rfl, rfl, rfl, rfl, Or.inl ⟨?_, rfl⟩⟩
    simp only [prepare_mapped hboot]
    exact (mapped_fresh _ io i).1
  split at hrun
  · cases hrun
    exact hkept
  · exact absurd hrun (by simp)

/-- However the daemon ends once its caches are mapped, each tunable holds again what it held when
the daemon started, if the node could be read and the restoring write succeeds. -/
theorem daemon_restores (hstatic : ZeroedStatic static) (hpriv : io.privileged = true)
    (hlock : io.lock = ⟨none, none⟩) (hbooted : io.booted = true) {waits : List WaitOut}
    {d : Daemon} {ret : ℤ} (hrun : pgDaemonInit static inherited io waits = some (d, ret)) {i : Sink}
    (hfair : (io.caches i).Fair) (hres : (io.restore i).Complete (io.caches i).node.toNat) :
    (d.ctx.channels.get i).node = (io.caches i).node := by
  obtain ⟨hfresh, hnode, -⟩ := mapped_fresh (daemonStart static inherited) io i
  obtain ⟨kern, hmapped⟩ := mapped_channel (daemonStart static inherited) io i
  have hcap : ((daemonMapped (daemonStart static inherited) io).1.ctx.channels.get i).cache.active =
      true → ((daemonMapped (daemonStart static inherited) io).1.ctx.channels.get i).cache.hasBase =
        true ∧ (io.caches i).node =
        ((daemonMapped (daemonStart static inherited) io).1.ctx.channels.get i).cache.base := by
    rw [hmapped]
    exact hfair.captured
  have hchannels := prepare_channels (daemonStart static inherited) hpriv
    (by rw [hlock]; exact lockfileInit_fd _) hbooted
  generalize (daemonMapped (daemonStart static inherited) io).1.ctx.channels = start
    at hfresh hnode hcap hchannels
  have hback (c : Channel) (hc : c.Kept (i.Band (pgTuneLimits io.limits)) (start.get i)) :
      (c.restore (io.restore i)).node = (io.caches i).node := by
    cases hact : (start.get i).cache.active with
    | false =>
      rw [restore_unmapped (hc.active.trans hact)]
      rcases hc.value with ⟨-, hsame⟩ | ⟨hact', -⟩
      · exact hsame.trans hnode
      · exact absurd (hact.symm.trans hact') (by simp)
    | true =>
      obtain ⟨hbase, hval⟩ := hcap hact
      have hnat : (io.caches i).node.toNat = (start.get i).cache.base := by
        rw [hval, Int.toNat_natCast]
      have hmax := hfair.le
      rw [hnat] at hres
      rw [hval, int32Max] at hmax
      exact (hc.restore (fun v hv => hv.lt (tuneLimits_calibrated io.limits))
        (fun _ => ⟨hbase, hnode.trans hval⟩) (by omega) hres).trans hnode
  rw [pgDaemonInit] at hrun
  cases hboot : daemonPrepare (daemonStart static inherited) io with
  | error failed =>
    rw [hboot] at hrun hchannels
    cases hrun
    rw [cleanup_node]
    apply hback
    have hsame : failed.1.ctx.channels = start := hchannels
    rw [hsame]
    exact ⟨rfl, rfl, rfl, rfl, Or.inl ⟨hfresh, rfl⟩⟩
  | ok d₀ =>
    rw [hboot] at hrun hchannels
    obtain ⟨res, hepoll, hclean⟩ := Option.map_eq_some_iff.mp hrun
    cases hclean
    rw [cleanup_node]
    apply hback
    have hsame : d₀.ctx.channels = start := hchannels
    rw [← hsame]
    exact epollRun_kept hstatic hboot hepoll i

end Life

def restoringBoot : BootIo := { smoothBoot with restore := fun _ => .wrote 2 }

/-- The tunable is governed away from the 0 it held, and holds it again at the end. -/
theorem daemon_restores_governed :
    ((daemonPrepare (daemonStart idleContext {0, 1, 2}) restoringBoot).toOption.map fun d =>
        (reactorRun restoringBoot.policy d restoringBoot.setup governedTicks).ctx.channels.schedLat.node) =
      some 16056320 ∧
    ∃ d, pgDaemonInit idleContext {0, 1, 2} restoringBoot (governedTicks ++ [.failed]) = some (d, 0) ∧
      (d.ctx.channels.get .schedLat).node = 0 := by
  refine ⟨by decide +kernel, ?_⟩
  have hret : (pgDaemonInit idleContext {0, 1, 2} restoringBoot (governedTicks ++ [.failed])).map
      Prod.snd = some 0 := by decide +kernel
  obtain ⟨⟨d, ret⟩, hrun, rfl⟩ := Option.map_eq_some_iff.mp hret
  refine ⟨d, hrun, daemon_restores idleContext_zeroed rfl rfl rfl hrun ?_ (by decide +kernel)⟩
  refine ⟨by decide, by decide, fun c hc => ?_⟩
  obtain rfl := Option.some.inj hc
  exact ⟨rfl, by decide +kernel⟩

end Pgov
