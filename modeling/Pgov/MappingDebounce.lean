import Pgov.Mapping
import Pgov.Runs

namespace Pgov

open FixedWidth Quantise Runs

section Margin

variable {c : CpuCfg} {l : CpuLim} {ctx : Channels}

theorem mapValues_margin (hl : l.Calibrated) (hrat : c.latGranRat ∈ Set.Icc 0 32768)
    (hlat : ctx.schedLat.cache.active = true) (hgran : ctx.schedGran.cache.active = true)
    (call : MappingCall) :
    (mapValues c l ctx call).vGran * (1000 + 100) ≤ (mapValues c l ctx call).vLat * (1000 - 100) := by
  obtain ⟨lat, ⟨hmin, hmax⟩, hvl, hvg⟩ := mapValues_lat_gran c ctx hl call
  have hlow := hmin.trans' hl.minLat_ge
  have hhalf : 2 * pgCpuCalcGran lat c l ≤ lat := by
    have h0 : 0 ≤ lat * c.latGranRat := mul_nonneg (by omega) hrat.1
    have hu : lat * c.latGranRat ≤ lat * 32768 := by nlinarith [hrat.2]
    have hle := calcGran_le_max l h0 (by linarith [hl.maxLat_le])
    have := hl.minGran_le_half
    omega
  have hgran0 := (hl.gran_mem ⟨hmin, hmax⟩ c).1.trans' hl.minGran_ge
  rw [hvl hlat, hvg hgran]
  have hg := nearest_le 16 (toNs (pgCpuCalcGran lat c l))
  have hlt := le_nearest 16 (toNs lat)
  have hns : 2 * toNs (pgCpuCalcGran lat c l) ≤ toNs lat := by
    simp only [toNs]
    omega
  have hfloor : 4000000 ≤ toNs lat := by
    simp only [toNs]
    omega
  omega

theorem mapValues_lt (hl : l.Calibrated) (hlat : ctx.schedLat.cache.active = true)
    (hgran : ctx.schedGran.cache.active = true) (call : MappingCall) :
    (mapValues c l ctx call).vLat < 2 ^ 40 ∧ (mapValues c l ctx call).vGran < 2 ^ 40 := by
  have h1 := (mapValues_lat (c := c) hl hlat call).upper
  have h2 := mapValues_gran_le_lat (c := c) hl hlat hgran call
  have := hl.maxLat_le
  constructor <;> omega

end Margin

def WritesSucceed (c : CpuCfg) (l : CpuLim) (ctx : Channels) (call : MappingCall) : Prop :=
  let u := mappingUpdates c l ctx call
  ((pgSysfsUpdate ctx.schedLat.cache u.lat).2 = true → u.lat.res.Complete u.lat.value) ∧
    ((pgSysfsUpdate ctx.schedGran.cache u.gran).2 = true → u.gran.res.Complete u.gran.value)

def SyncedPair (ctx : Channels) : Prop := ctx.schedLat.Synced ∧ ctx.schedGran.Synced

theorem applyMapping_step {c : CpuCfg} {l : CpuLim} (hl : l.Calibrated)
    (hrat : c.latGranRat ∈ Set.Icc 0 32768) {ctx : Channels} (hs : SyncedPair ctx)
    {call : MappingCall} (hres : WritesSucceed c l ctx call) :
    SyncedPair (applyMapping c l ctx call) ∧
      (applyMapping c l ctx call).schedGran.node ≤ (applyMapping c l ctx call).schedLat.node := by
  obtain ⟨hlat, hgran⟩ := hs
  obtain ⟨hvl, hvg⟩ := mapValues_lt (c := c) hl hlat.active hgran.active call
  obtain ⟨hlat', heldLat, hnodeLat, hwithinLat⟩ :=
    hlat.update (by norm_num) hvl rfl rfl hres.1
  obtain ⟨hgran', heldGran, hnodeGran, hwithinGran⟩ :=
    hgran.update (by norm_num) hvg rfl rfl hres.2
  refine ⟨⟨hlat', hgran'⟩, ?_⟩
  have hle := held_le_held (by norm_num) hwithinGran hwithinLat
    (mapValues_margin hl hrat hlat.active hgran.active call)
  rw [applyMapping, hnodeLat, hnodeGran]
  exact_mod_cast hle

theorem gran_le_lat (hw hw' : Hardware) {ctx : Channels} {latPaths granPaths : List Candidate}
    (hlat : ctx.schedLat.cache = (pgSysfsCacheInit latPaths).1)
    (hgran : ctx.schedGran.cache = (pgSysfsCacheInit granPaths).1)
    (hactLat : ctx.schedLat.cache.active = true) (hactGran : ctx.schedGran.cache.active = true)
    {calls : List MappingCall} (hne : calls ≠ [])
    (hres : Along (applyMapping (pgTuneConfigs hw').1 (pgTuneLimits hw))
      (WritesSucceed (pgTuneConfigs hw').1 (pgTuneLimits hw)) ctx calls) :
    (run (applyMapping (pgTuneConfigs hw').1 (pgTuneLimits hw)) ctx calls).schedGran.node ≤
      (run (applyMapping (pgTuneConfigs hw').1 (pgTuneLimits hw)) ctx calls).schedLat.node := by
  have hl := tuneLimits_calibrated hw
  have hrat := tuneConfigs_latGranRat hw'
  have hinit : SyncedPair ctx :=
    ⟨synced_of_cacheInit hlat hactLat, synced_of_cacheInit hgran hactGran⟩
  obtain ⟨before, last, rfl⟩ := (List.eq_nil_or_concat calls).resolve_left hne
  rw [List.concat_eq_append, along_append] at hres
  have hstep (s : Channels) (call : MappingCall) (hs : SyncedPair s)
      (hp : WritesSucceed (pgTuneConfigs hw').1 (pgTuneLimits hw) s call) :
      SyncedPair (applyMapping (pgTuneConfigs hw').1 (pgTuneLimits hw) s call) :=
    (applyMapping_step hl hrat hs hp).1
  have hsync := run_invariant hstep hinit hres.1
  rw [List.concat_eq_append, run_append]
  exact (applyMapping_step hl hrat hsync hres.2.1).2

def bareDevice : Hardware :=
  { cores := 8, maxFreq := fun _ => .error 2, capacity := fun _ => .error 2, tripPoint := none }

def bootedChannels : Channels :=
  let c := Channel.mk (pgSysfsCacheInit [⟨some 7, .ok [48, 10]⟩]).1 0
  ⟨c, c, c, c, c, c⟩

def idleTick : MappingCall :=
  let io : UpdateIo := ⟨⟨10, 0⟩, ⟨10, 0⟩, .wrote 9⟩
  { batLvl := 6553600, avg300 := 0, vel := 0, thScl := 65536, lDem := 0, pEff := 0,
    latIo := ⟨⟨10, 0⟩, ⟨10, 0⟩, .wrote 9⟩, granIo := ⟨⟨10, 0⟩, ⟨10, 0⟩, .wrote 8⟩,
    wakeIo := io, migIo := io, waltIo := io, uclIo := io }

theorem gran_le_lat_idle :
    (run (applyMapping (pgTuneConfigs bareDevice).1 (pgTuneLimits bareDevice)) bootedChannels
        [idleTick, idleTick]).schedGran.node ≤
      (run (applyMapping (pgTuneConfigs bareDevice).1 (pgTuneLimits bareDevice)) bootedChannels
        [idleTick, idleTick]).schedLat.node :=
  have hcache : bootedChannels.schedLat.cache =
      (pgSysfsCacheInit [⟨some 7, .ok [48, 10]⟩]).1 := rfl
  gran_le_lat bareDevice bareDevice hcache hcache (by decide) (by decide) (by decide)
    ⟨⟨fun _ => by decide +kernel, fun _ => by decide +kernel⟩,
      ⟨fun _ => by decide +kernel, fun _ => by decide +kernel⟩, trivial⟩

end Pgov
