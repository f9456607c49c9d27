import Pgov.DaemonInit
import Pgov.PathText
import Pgov.Preference
import Pgov.Topology
import Pgov.Tuning

namespace Pgov

open Preference

def thermalBase : List UInt8 := ascii "/sys/class/thermal"

def priority : List (List UInt8) :=
  ["cpu", "cpu-1-0-usr", "cpu-1-1-usr", "cpu-1-2-usr", "cpu-1-3-usr", "cpu-0-0-usr", "cpu-0-1-usr",
    "cpu0_thermal", "cpu1_thermal", "mtktscpu", "mtk_ts_cpu", "mtkts_cpu", "thermal-cpuss-0",
    "thermal-cpuss-1", "exynos_thermal", "exynos_dev_thermal", "hisi_thermal", "mtktsAP",
    "mtk_ts_ap", "ap_cdev", "ap_thermal", "soc_thermal", "soc-thermal", "cpu_thermal",
    "cpu-thermal", "tsens_tz_sensor10", "tsens_tz_sensor5", "tsens_tz_sensor0", "big-core",
    "mid-core", "little-core"].map ascii

def blacklist : List (List UInt8) :=
  ["battery", "bms", "bat", "charger", "usb", "pa_therm", "pa-therm", "modem", "wifi", "wlan", "gpu",
    "camera", "flash", "led", "pmic", "buck", "ldo", "xo_therm", "quiet", "backlight"].map ascii

structure TzInfo where
  name : List UInt8
  folder : List UInt8
  deriving DecidableEq, Repr

def thermalValid (name : List UInt8) : Bool :=
  let lName := pgStrToLower (name.take 63)
  let cpu := pgStrContains lName (ascii "cpu") || pgStrContains lName (ascii "soc") ||
    pgStrContains lName (ascii "cluster") || pgStrContains lName (ascii "ap")
  if !cpu then false else !(blacklist.any (pgStrContains lName))

def cutLine (buf : List UInt8) : List UInt8 :=
  match buf.findIdx? (fun c => c = 10 ∨ c = 13) with
  | some i => CString.str (buf.set i 0) 0
  | none => CString.str buf 0

def zoneType (files : SysfsFiles) (name : List UInt8) : Option (List UInt8) :=
  (readBuf (files (pgStrBuildPath [] 256 thermalBase name (ascii "type"))) 63).map cutLine

def typeValid (files : SysfsFiles) (name : List UInt8) : Bool :=
  match zoneType files name with
  | none => false
  | some buf => if buf ∈ priority then true else thermalValid buf

section Zones

variable (old : List UInt8) (len : ℕ)

def zonePath (z : TzInfo) : List UInt8 := pgStrBuildPath old len thermalBase z.folder (ascii "temp")

def findPriority (zones : List TzInfo) : Option (List UInt8) :=
  priority.findSome? fun p => (zones.find? fun z => z.name = p).map (zonePath old len)

def findHeuristic (zones : List TzInfo) : Option (List UInt8) :=
  (zones.find? fun z => thermalValid z.name).map (zonePath old len)

def zoneOf (files : SysfsFiles) (entry : List UInt8) : Option TzInfo :=
  if pgStrHasPrefix entry (ascii "thermal_zone") then
    match zoneType files entry with
    | none => none
    | some buf => some ⟨buf.take 63, entry.take 63⟩
  else none

/-- `pg_scan_thermal_zone`: the return code with the string left in `path`, which held `old`. -/
def pgScanThermalZonePath (files : SysfsFiles) (dir : Except ℕ+ (List (List UInt8))) :
    ℤ × List UInt8 :=
  if len = 0 then (-einval, old)
  else
    match dir with
    | .error _ => (-enoent, [])
    | .ok entries =>
      let zones := collect (zoneOf files) 256 entries []
      match findPriority old len zones with
      | some path => (0, path)
      | none =>
        match findHeuristic old len zones with
        | some path => (0, path)
        | none => (-enodev, [])

end Zones

section TripPoints

variable (old : List UInt8) (len : ℕ) (files : SysfsFiles)

def formatTripNode (i : ℕ) (suffix : List UInt8) : List UInt8 :=
  ascii "trip_point_" ++ (48 + i.toUInt8) :: 95 :: suffix

def tripType (name : List UInt8) (i : ℕ) : Option (List UInt8) :=
  (readBuf (files (pgStrBuildPath [] 256 thermalBase name (formatTripNode i (ascii "type")))) 63).map
    fun buf => CString.str buf 0

def tripNode (name : List UInt8) (i : ℕ) : Option (List UInt8) :=
  match tripType files name i with
  | none => none
  | some buf =>
    if pgStrContains buf (ascii "passive") || pgStrContains buf (ascii "critical") then
      some (pgStrBuildPath old len thermalBase name (formatTripNode i (ascii "temp")))
    else none

def tripPoint (name : List UInt8) : Option (List UInt8) :=
  (List.range 10).findSome? (tripNode old len files name)

def tripEntry (entry : List UInt8) : Option (List UInt8) :=
  if !pgStrHasPrefix entry (ascii "thermal_zone") then none
  else if !typeValid files entry then none
  else tripPoint old len files entry

def pgScanTripPoint (dir : Except ℕ+ (List (List UInt8))) : ℤ × List UInt8 :=
  if len = 0 then (-einval, old)
  else
    match dir with
    | .error _ => (-enoent, [])
    | .ok entries =>
      match entries.findSome? (tripEntry old len files) with
      | some path => (0, path)
      | none => (-enodev, [])

end TripPoints

section Names

variable {files : SysfsFiles} {entry : List UInt8} {z : TzInfo}

def CpuName (name : List UInt8) : Prop :=
  (∃ word ∈ [ascii "cpu", ascii "soc", ascii "cluster", ascii "ap"],
      word <:+: pgStrToLower (name.take 63)) ∧
    ∀ word ∈ blacklist, ¬word <:+: pgStrToLower (name.take 63)

def KnownZone (z : TzInfo) : Prop := z.name ∈ priority ∨ CpuName z.name

def zoneKinds : List (TzInfo → Bool) :=
  priority.map (fun p (z : TzInfo) => decide (z.name = p)) ++ [fun z : TzInfo => thermalValid z.name]

/-- An entry of the directory whose trip points are looked at, with one that warns of heat. -/
def TripAt (files : SysfsFiles) (entry : List UInt8) (i : ℕ) : Prop :=
  ascii "thermal_zone" <+: entry ∧ typeValid files entry = true ∧
    ∃ text, tripType files entry i = some text ∧
      (ascii "passive" <:+: text ∨ ascii "critical" <:+: text)

theorem thermalValid_iff {name : List UInt8} : thermalValid name = true ↔ CpuName name := by
  simp only [thermalValid, CpuName, List.mem_cons, List.not_mem_nil, or_false, exists_eq_or_imp,
    exists_eq_left, ← contains_iff]
  grind

theorem knownZone_iff : KnownZone z ↔ rank zoneKinds z < zoneKinds.length := by
  rw [rank_lt_iff, KnownZone, ← thermalValid_iff, zoneKinds]
  simp only [List.mem_append, List.mem_map, List.mem_singleton]
  constructor
  · rintro (hmem | hvalid)
    · exact ⟨_, .inl ⟨z.name, hmem, rfl⟩, by simp⟩
    · exact ⟨_, .inr rfl, hvalid⟩
  · rintro ⟨kind, ⟨p, hp, rfl⟩ | rfl, hkind⟩
    · rw [decide_eq_true_iff] at hkind
      exact .inl (hkind ▸ hp)
    · exact .inr hkind

theorem cutLine_length (buf : List UInt8) : (cutLine buf).length ≤ buf.length := by
  have hstr (b : List UInt8) : (CString.str b 0).length ≤ b.length := by
    rw [CString.str, List.drop_zero]
    exact (List.takeWhile_prefix _).length_le
  rw [cutLine]
  split
  · exact (hstr _).trans (by rw [List.length_set])
  · exact hstr buf

theorem zoneType_length {buf : List UInt8} (h : zoneType files entry = some buf) :
    buf.length ≤ 63 := by
  obtain ⟨bytes, hbytes, rfl⟩ := Option.map_eq_some_iff.mp h
  have hread : bytes.length ≤ 63 := by
    unfold readBuf at hbytes
    split at hbytes
    · cases hbytes
    · split at hbytes
      · cases hbytes
      · cases hbytes
        exact List.length_take_le _ _
  exact (cutLine_length bytes).trans hread

theorem zoneOf_known (h : zoneOf files entry = some z) : KnownZone z ↔ typeValid files entry := by
  rw [zoneOf] at h
  split at h
  · obtain ⟨buf, hbuf⟩ : ∃ buf, zoneType files entry = some buf := by
      cases htype : zoneType files entry with
      | none => simp [htype] at h
      | some buf => exact ⟨buf, rfl⟩
    rw [hbuf, Option.some.injEq] at h
    subst h
    rw [KnownZone, typeValid, hbuf, List.take_of_length_le (zoneType_length hbuf)]
    by_cases hmem : buf ∈ priority
    · simp [hmem]
    · simp [hmem, thermalValid_iff]
  · cases h

end Names

section Scans

variable (files : SysfsFiles) (entries : List (List UInt8)) (old : List UInt8) {len : ℕ}

theorem findZone_eq (len : ℕ) (zones : List TzInfo) :
    (findPriority old len zones).or (findHeuristic old len zones) =
      (pick zoneKinds zones).map (zonePath old len) := by
  have hmap (l : List (List UInt8)) (f : List UInt8 → Option TzInfo) :
      (l.findSome? fun p => (f p).map (zonePath old len)) =
        (l.findSome? f).map (zonePath old len) := by
    induction l with
    | nil => rfl
    | cons p l ih =>
      rw [List.findSome?_cons, List.findSome?_cons, ih]
      cases f p <;> rfl
  have hexact : pick (priority.map fun p (z : TzInfo) => decide (z.name = p)) zones =
      priority.findSome? fun p => zones.find? fun z => z.name = p := by
    rw [pick, List.findSome?_map]
    rfl
  have hguess : pick [fun z : TzInfo => thermalValid z.name] zones =
      zones.find? fun z => thermalValid z.name := by
    rw [pick, List.findSome?_cons]
    cases zones.find? fun z => thermalValid z.name <;> rfl
  rw [findPriority, findHeuristic, hmap, zoneKinds, pick_append, hexact, hguess, ← Option.map_or]

theorem scanThermalZone_eq (h : len ≠ 0) :
    pgScanThermalZonePath old len files (.ok entries) =
      match pick zoneKinds ((entries.filterMap (zoneOf files)).take 256) with
      | some z => (0, zonePath old len z)
      | none => (-enodev, []) := by
  have hfind := findZone_eq old len ((entries.filterMap (zoneOf files)).take 256)
  simp only [pgScanThermalZonePath, if_neg h, collect_nil]
  generalize (entries.filterMap (zoneOf files)).take 256 = zones at hfind ⊢
  cases hpick : pick zoneKinds zones with
  | some z =>
    rw [hpick, Option.map_some] at hfind
    cases hexact : findPriority old len zones with
    | some path =>
      rw [hexact, Option.some_or, Option.some.injEq] at hfind
      simp only [hfind]
    | none =>
      rw [hexact, Option.none_or] at hfind
      simp only [hfind]
  | none =>
    rw [hpick, Option.map_none, Option.or_eq_none_iff] at hfind
    simp only [hfind.1, hfind.2]

/-- The sensor of the processor is that of the first zone of the most wanted kind. -/
theorem thermal_zone_scan (files : SysfsFiles) (entries : List (List UInt8)) (old : List UInt8)
    {len : ℕ} (h : len ≠ 0) :
    let zones := (entries.filterMap (zoneOf files)).take 256
    let r := pgScanThermalZonePath old len files (.ok entries)
    (∃ z, Leftmost (rank zoneKinds) zones z ∧ KnownZone z ∧
        r = (0, (joinPath thermalBase z.folder (ascii "temp")).take (len - 1))) ∨
      (∀ z ∈ zones, ¬KnownZone z) ∧ r = (-enodev, []) := by
  intro zones r
  have hr : r = _ := scanThermalZone_eq files entries old h
  rw [hr]
  cases hpick : pick zoneKinds zones with
  | some z =>
    obtain ⟨hleft, hlt⟩ := pick_leftmost hpick
    left
    refine ⟨z, hleft, knownZone_iff.mpr hlt, ?_⟩
    rw [← buildPath_eq old h]
    rfl
  | none =>
    right
    refine ⟨fun z hz hknown => ?_, rfl⟩
    have hlt := knownZone_iff.mp hknown
    exact absurd (pick_none.mp hpick z hz) (by omega)

theorem tripPoint_step (len : ℕ) {entry : List UInt8} (hpre : ascii "thermal_zone" <+: entry)
    (hvalid : typeValid files entry = true) (i : ℕ) :
    (TripAt files entry i ∧ tripNode old len files entry i =
        some (pgStrBuildPath old len thermalBase entry (formatTripNode i (ascii "temp")))) ∨
      (¬TripAt files entry i ∧ tripNode old len files entry i = none) := by
  rw [tripNode, TripAt]
  cases htype : tripType files entry i with
  | none => simp
  | some buf =>
    simp only [Bool.or_eq_true, contains_iff]
    by_cases hwarn : ascii "passive" <:+: buf ∨ ascii "critical" <:+: buf
    · left
      exact ⟨⟨hpre, hvalid, buf, rfl, hwarn⟩, if_pos hwarn⟩
    · right
      refine ⟨?_, if_neg hwarn⟩
      rintro ⟨-, -, text, htext, hwarn'⟩
      cases htext
      exact hwarn hwarn'

theorem tripEntry_cases (len : ℕ) (entry : List UInt8) :
    (∃ i < 10, TripAt files entry i ∧ (∀ j < i, ¬TripAt files entry j) ∧
        tripEntry old len files entry =
          some (pgStrBuildPath old len thermalBase entry (formatTripNode i (ascii "temp")))) ∨
      ((∀ i < 10, ¬TripAt files entry i) ∧ tripEntry old len files entry = none) := by
  rw [tripEntry]
  cases hpre : pgStrHasPrefix entry (ascii "thermal_zone") with
  | false =>
    have hnot : ¬ascii "thermal_zone" <+: entry := by simp [← hasPrefix_iff, hpre]
    exact .inr ⟨fun i _ h => hnot h.1, by simp⟩
  | true =>
    cases hvalid : typeValid files entry with
    | false => exact .inr ⟨fun i _ h => by simp [TripAt, hvalid] at h, by simp⟩
    | true =>
      have hstep := tripPoint_step files old len (hasPrefix_iff.mp hpre) hvalid
      simp only [Bool.not_true, Bool.false_eq_true, if_false]
      cases hfind : tripPoint old len files entry with
      | none =>
        right
        refine ⟨fun i hi htrip => ?_, rfl⟩
        have hnone := List.findSome?_eq_none_iff.mp hfind i (List.mem_range.mpr hi)
        rcases hstep i with ⟨-, hsome⟩ | ⟨hnot, -⟩
        · rw [hsome] at hnone
          cases hnone
        · exact hnot htrip
      | some path =>
        left
        obtain ⟨i, hi, hpath, hfirst⟩ := range_findSome hfind
        refine ⟨i, hi, ?_⟩
        rcases hstep i with ⟨htrip, hsome⟩ | ⟨-, hnone⟩
        · refine ⟨htrip, fun j hj htrip' => ?_, hpath.symm.trans hsome⟩
          rcases hstep j with ⟨-, hsome'⟩ | ⟨hnot, -⟩
          · rw [hfirst j hj] at hsome'
            cases hsome'
          · exact hnot htrip'
        · rw [hnone] at hpath
          cases hpath

def oneType (text : String) : SysfsFiles := fun _ => .ok (ascii text)

def twoZones : SysfsFiles := fun path =>
  .ok (ascii (if ascii "thermal_zone1" <:+: path then "mtktscpu" else "soc_thermal"))

theorem thermal_zone_scan_found :
    let entries := [ascii "cooling_device0", ascii "thermal_zone0", ascii "thermal_zone1"]
    let zones := (entries.filterMap (zoneOf twoZones)).take 256
    let r := pgScanThermalZonePath [] 256 twoZones (.ok entries)
    r = (0, ascii "/sys/class/thermal/thermal_zone1/temp") ∧
      ∃ z, Leftmost (rank zoneKinds) zones z ∧ KnownZone z ∧
        r = (0, (joinPath thermalBase z.folder (ascii "temp")).take 255) := by
  intro entries zones r
  have hr : r = (0, ascii "/sys/class/thermal/thermal_zone1/temp") := by decide +kernel
  refine ⟨hr, (thermal_zone_scan twoZones entries [] (by decide)).resolve_right fun hnone => ?_⟩
  exact absurd (congrArg Prod.fst (hr.symm.trans hnone.2)) (by decide)

/-- The trip point is the first warning of the first zone that has one, and a device with a trip point
has a sensor. -/
theorem trip_point_scan (files : SysfsFiles) (entries : List (List UInt8)) (old : List UInt8)
    {len : ℕ} (h : len ≠ 0) :
    let r := pgScanTripPoint old len files (.ok entries)
    ((∃ before entry after, entries = before ++ entry :: after ∧
          (∀ e ∈ before, ∀ i < 10, ¬TripAt files e i) ∧
          ∃ i < 10, TripAt files entry i ∧ (∀ j < i, ¬TripAt files entry j) ∧
            r = (0, (joinPath thermalBase entry (formatTripNode i (ascii "temp"))).take (len - 1))) ∨
        (∀ e ∈ entries, ∀ i < 10, ¬TripAt files e i) ∧ r = (-enodev, [])) ∧
      (r.1 = 0 → (entries.filterMap (zoneOf files)).length ≤ 256 →
        (pgScanThermalZonePath old len files (.ok entries)).1 = 0) := by
  intro r
  have hr : r = match entries.findSome? (tripEntry old len files) with
      | some path => (0, path)
      | none => (-enodev, []) := by simp only [r, pgScanTripPoint, if_neg h]
  cases hfind : entries.findSome? (tripEntry old len files) with
  | none =>
    rw [hfind] at hr
    refine ⟨.inr ⟨fun e he i hi htrip => ?_, hr⟩, fun hzero => ?_⟩
    · have hnone := List.findSome?_eq_none_iff.mp hfind e he
      rcases tripEntry_cases files old len e with ⟨_, _, _, _, hsome⟩ | ⟨hnot, -⟩
      · rw [hsome] at hnone
        cases hnone
      · exact hnot i hi htrip
    · rw [hr] at hzero
      exact absurd hzero (by simp [enodev])
  | some path =>
    rw [hfind] at hr
    obtain ⟨before, entry, after, rfl, hpath, hbefore⟩ := List.findSome?_eq_some_iff.mp hfind
    rcases tripEntry_cases files old len entry with ⟨i, hi, htrip, hfirst, hsome⟩ | ⟨-, hnone⟩
    · constructor
      · left
        refine ⟨before, entry, after, rfl, fun e he j hj htrip' => ?_, i, hi, htrip, hfirst, ?_⟩
        · rcases tripEntry_cases files old len e with ⟨_, _, _, _, hsome'⟩ | ⟨hnot, -⟩
          · rw [hbefore e he] at hsome'
            cases hsome'
          · exact hnot j hj htrip'
        · rw [hr, ← buildPath_eq old h, ← Option.some.inj (hpath.symm.trans hsome)]
      · intro _ hfits
        -- the zone of the trip point is known, so the scan for a sensor stops at one
        obtain ⟨hpre, hvalid, -⟩ := htrip
        obtain ⟨buf, hbuf⟩ : ∃ buf, zoneType files entry = some buf := by
          rw [typeValid] at hvalid
          split at hvalid
          · cases hvalid
          · exact ⟨_, by assumption⟩
        have hzone : zoneOf files entry = some ⟨buf.take 63, entry.take 63⟩ := by
          rw [zoneOf, hasPrefix_iff.mpr hpre, if_pos rfl, hbuf]
        have hknown := (zoneOf_known hzone).mpr hvalid
        rw [scanThermalZone_eq files _ old h, List.take_of_length_le hfits]
        cases hpick : pick zoneKinds ((before ++ entry :: after).filterMap (zoneOf files)) with
        | some z => rfl
        | none =>
          have hmem : (⟨buf.take 63, entry.take 63⟩ : TzInfo) ∈
              (before ++ entry :: after).filterMap (zoneOf files) :=
            List.mem_filterMap.mpr ⟨entry, by simp, hzone⟩
          have hlt := knownZone_iff.mp hknown
          exact absurd (pick_none.mp hpick _ hmem) (by omega)
    · rw [hnone] at hpath
      cases hpath

theorem trip_point_scan_found :
    (pgScanTripPoint [] 256 (oneType "cpu passive") (.ok [ascii "thermal_zone0"])).1 = 0 ∧
      (pgScanThermalZonePath [] 256 (oneType "cpu passive") (.ok [ascii "thermal_zone0"])).1 = 0 := by
  have hfound : (pgScanTripPoint [] 256 (oneType "cpu passive") (.ok [ascii "thermal_zone0"])).1 = 0 := by
    decide +kernel
  exact ⟨hfound, (trip_point_scan _ _ [] (by decide)).2 hfound (by decide +kernel)⟩

end Scans

end Pgov
