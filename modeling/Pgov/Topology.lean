import Pgov.FileWalk
import Pgov.NumberText
import Pgov.PathText
import Pgov.SysfsCache

namespace Pgov

open FixedWidth DecimalText

abbrev SysfsFiles := List UInt8 → Except ℕ+ (List UInt8)

def cpuDir : List UInt8 :=
  [47, 115, 121, 115, 47, 100, 101, 118, 105, 99, 101, 115, 47, 115, 121, 115, 116, 101, 109, 47, 99,
    112, 117, 47, 99, 112, 117, 37, 100]

def cpuCapacity : List UInt8 :=
  cpuDir ++ [47, 99, 112, 117, 95, 99, 97, 112, 97, 99, 105, 116, 121]

def cpuMaxFreq : List UInt8 :=
  cpuDir ++ [47, 99, 112, 117, 102, 114, 101, 113, 47, 99, 112, 117, 105, 110, 102, 111, 95, 109, 97,
    120, 95, 102, 114, 101, 113]

def formatPathLoop (bufLen cpu : ℕ) : List UInt8 → List UInt8 → List UInt8
  | buf, [] => buf
  | buf, 37 :: 100 :: fmt =>
    if buf.length + 11 ≥ bufLen then buf else formatPathLoop bufLen cpu (buf ++ pgFmtU32 cpu) fmt
  | buf, c :: fmt =>
    if buf.length + 1 ≥ bufLen then buf else formatPathLoop bufLen cpu (buf ++ [c]) fmt

def formatPath (bufLen : ℕ) (fmt : List UInt8) (cpu : ℕ) : List UInt8 :=
  (formatPathLoop bufLen cpu [] fmt).take (bufLen - 1)

def coreValue (files : SysfsFiles) (fmt : List UInt8) (i : ℕ) : Except ℤ ℤ :=
  pgSysfsReadI32 (files (formatPath 128 fmt i))

structure CpusetScan where
  minVal : ℤ
  found : Bool
  cpuset : Finset ℕ
  deriving DecidableEq

def CpusetScan.start : CpusetScan := { minVal := int32Max, found := false, cpuset := ∅ }

def CpusetScan.add (s : CpusetScan) (i : ℕ) (value : Except ℤ ℤ) : CpusetScan :=
  match value with
  | .error _ => s
  | .ok val =>
    if val ≤ 0 then s
    else
      let s := { s with found := true }
      if val > s.minVal then s
      else
        let s := if val < s.minVal then { s with minVal := val, cpuset := ∅ } else s
        { s with cpuset := insert i s.cpuset }

def scanCores (value : ℕ → Except ℤ ℤ) (n : ℕ) : CpusetScan :=
  (List.range n).foldl (fun s i => s.add i (value i)) .start

section Topology

variable (setSize : ℕ) (files : SysfsFiles)

def buildCpuset (numCores : ℤ) (fmt : List UInt8) : Bool × Finset ℕ :=
  let numCores := if numCores > setSize then (setSize : ℤ) else numCores
  let s := scanCores (coreValue files fmt) numCores.toNat
  (s.found, s.cpuset)

/-- `pg_topo_set_little_core`: the return code with the cores the thread ends up bound to, if a
call of `sched_setaffinity` succeeded; `refuses` is what that call answers for a set. -/
def pgTopoSetLittleCoreMask (numCores : ℤ) (refuses : Finset ℕ → Option ℕ+) :
    ℤ × Option (Finset ℕ) :=
  let accepted (r : Bool × Finset ℕ) : Bool := r.1 && (refuses r.2).isNone
  let byCapacity := buildCpuset setSize files numCores cpuCapacity
  let byFreq := buildCpuset setSize files numCores cpuMaxFreq
  if numCores ≤ 0 then (-einval, none)
  else if accepted byCapacity then (0, some byCapacity.2)
  else if accepted byFreq then (0, some byFreq.2)
  else
    let numCores := if numCores > setSize then (setSize : ℤ) else numCores
    let all := Finset.range numCores.toNat
    match refuses all with
    | some errno => (-(errno : ℕ), none)
    | none => (0, some all)

end Topology

section Paths

variable {bufLen : ℕ} {buf fmt pre post : List UInt8}

theorem formatLoop_plain (cpu : ℕ) (hfmt : 37 ∉ fmt) (hroom : buf.length + fmt.length < bufLen)
    (rest : List UInt8) :
    formatPathLoop bufLen cpu buf (fmt ++ rest) = formatPathLoop bufLen cpu (buf ++ fmt) rest := by
  induction fmt generalizing buf with
  | nil => rw [List.nil_append, List.append_nil]
  | cons c fmt ih =>
    rw [List.length_cons] at hroom
    rw [List.mem_cons, not_or] at hfmt
    rw [List.cons_append, formatPathLoop, if_neg (by omega), ih hfmt.2]
    · rw [List.append_assoc, List.singleton_append]
    · rw [List.length_append, List.length_singleton]
      omega
    · rintro rest' rfl
      exact absurd rfl hfmt.1

theorem formatPath_eq {cpu : ℕ} (hpre : 37 ∉ pre) (hpost : 37 ∉ post)
    (hroom : pre.length + 11 + post.length < bufLen) (hcpu : cpu < 2 ^ 32) :
    formatPath bufLen (pre ++ 37 :: 100 :: post) cpu = pre ++ numeral cpu ++ post := by
  have hdigits : (numeral cpu).length ≤ 10 := numeral_length_le (by norm_num) (by omega)
  have hlen : (pre ++ numeral cpu).length = pre.length + (numeral cpu).length :=
    List.length_append
  have htail : formatPathLoop bufLen cpu (pre ++ numeral cpu) post = pre ++ numeral cpu ++ post := by
    have hrest : (pre ++ numeral cpu).length + post.length < bufLen := by omega
    have hrun := formatLoop_plain cpu hpost hrest []
    rwa [List.append_nil, formatPathLoop] at hrun
  rw [formatPath, formatLoop_plain cpu hpre (by rw [List.length_nil]; omega), List.nil_append,
    formatPathLoop, if_neg (by omega), pgFmtU32_eq hcpu, htail]
  rw [List.take_of_length_le]
  rw [List.length_append]
  omega

def coreNode (cpu : ℕ) (file : String) : List UInt8 :=
  ascii "/sys/devices/system/cpu/cpu" ++ numeral cpu ++ ascii file

theorem coreValue_node (files : SysfsFiles) {fmt : List UInt8} {file : String} {cpu : ℕ}
    (hfmt : fmt = ascii "/sys/devices/system/cpu/cpu" ++ 37 :: 100 :: ascii file)
    (hplain : 37 ∉ ascii file) (hroom : (ascii file).length < 90) (hcpu : cpu < 2 ^ 32) :
    coreValue files fmt cpu = pgSysfsReadI32 (files (coreNode cpu file)) := by
  have hlen : (ascii "/sys/devices/system/cpu/cpu").length = 27 := by decide
  rw [coreValue, hfmt, formatPath_eq (by decide) hplain (by omega) hcpu]
  rfl

end Paths

def Reads (value : ℕ → Except ℤ ℤ) (i : ℕ) (v : ℤ) : Prop := value i = .ok v ∧ 0 < v

structure CpusetScan.Scanned (value : ℕ → Except ℤ ℤ) (n : ℕ) (s : CpusetScan) : Prop where
  least : ∀ j < n, ∀ w, Reads value j w → s.minVal ≤ w
  mem : ∀ i, i ∈ s.cpuset ↔ i < n ∧ Reads value i s.minVal
  found : s.found = true ↔ ∃ i < n, ∃ v, Reads value i v
  attained : s.found = true → ∃ i < n, Reads value i s.minVal
  start : s.found = false → s.minVal = int32Max

section Scan

variable {value : ℕ → Except ℤ ℤ} {n : ℕ} {s : CpusetScan} {v : ℤ}

theorem scanned_start (value : ℕ → Except ℤ ℤ) : CpusetScan.start.Scanned value 0 := by
  refine ⟨?_, ?_, ?_, ?_, fun _ => rfl⟩ <;> simp [CpusetScan.start]

theorem Reads.unique {i : ℕ} {w : ℤ} (hv : Reads value i v) (hw : Reads value i w) : v = w :=
  Except.ok.inj (hv.1.symm.trans hw.1)

theorem reads_below_succ {i : ℕ} : i < n + 1 ∧ Reads value i v ↔
    i < n ∧ Reads value i v ∨ i = n ∧ Reads value n v := by
  rw [Nat.lt_succ_iff_lt_or_eq, or_and_right]
  refine or_congr_right (and_congr_right ?_)
  rintro rfl
  rfl

theorem CpusetScan.Scanned.skip (h : s.Scanned value n) (hskip : ∀ v, ¬Reads value n v) :
    s.Scanned value (n + 1) := by
  refine ⟨?_, ?_, ?_, ?_, h.start⟩
  · exact Nat.forall_lt_succ_right.mpr ⟨h.least, fun w hw => absurd hw (hskip w)⟩
  · intro i
    rw [h.mem, reads_below_succ]
    exact ⟨Or.inl, fun hor => hor.resolve_right fun hn => hskip _ hn.2⟩
  · rw [h.found, Nat.exists_lt_succ_right]
    exact ⟨Or.inl, fun hor => hor.resolve_right fun ⟨v, hv⟩ => hskip v hv⟩
  · intro hfound
    exact Nat.exists_lt_succ_right.mpr (Or.inl (h.attained hfound))

theorem add_reads (hv : Reads value n v) (s : CpusetScan) : s.add n (value n) =
    if v > s.minVal then { s with found := true }
    else if v < s.minVal then { minVal := v, found := true, cpuset := {n} }
    else { s with found := true, cpuset := insert n s.cpuset } := by
  rw [hv.1]
  simp only [CpusetScan.add, if_neg (not_le.mpr hv.2)]
  split_ifs <;> rfl

theorem scanned_of_reads (hv : Reads value n v) (hfound : s.found = true)
    (hleast : ∀ j < n + 1, ∀ w, Reads value j w → s.minVal ≤ w)
    (hmem : ∀ i, i ∈ s.cpuset ↔ i < n + 1 ∧ Reads value i s.minVal)
    (hattained : ∃ i < n + 1, Reads value i s.minVal) : s.Scanned value (n + 1) := by
  refine ⟨hleast, hmem, iff_of_true hfound ?_, fun _ => hattained, ?_⟩
  · exact ⟨n, Nat.lt_succ_self n, v, hv⟩
  · intro hno
    rw [hfound] at hno
    cases hno

theorem CpusetScan.Scanned.larger (h : s.Scanned value n) (hv : Reads value n v)
    (hmax : v ≤ int32Max) (hlt : s.minVal < v) :
    CpusetScan.Scanned value (n + 1) { s with found := true } := by
  have hfound : s.found = true := by
    by_contra hno
    have := h.start (Bool.eq_false_iff.mpr hno)
    omega
  refine scanned_of_reads hv rfl ?_ ?_ ?_
  · refine Nat.forall_lt_succ_right.mpr ⟨h.least, ?_⟩
    intro w hw
    exact hv.unique hw ▸ hlt.le
  · intro i
    rw [reads_below_succ]
    refine (h.mem i).trans ⟨Or.inl, fun hor => hor.resolve_right ?_⟩
    rintro ⟨-, hread⟩
    exact hlt.ne (hread.unique hv)
  · exact Nat.exists_lt_succ_right.mpr (Or.inl (h.attained hfound))

theorem CpusetScan.Scanned.smaller (h : s.Scanned value n) (hv : Reads value n v)
    (hlt : v < s.minVal) :
    CpusetScan.Scanned value (n + 1) { minVal := v, found := true, cpuset := {n} } := by
  refine scanned_of_reads hv rfl ?_ ?_ ⟨n, Nat.lt_succ_self n, hv⟩
  · refine Nat.forall_lt_succ_right.mpr ⟨?_, fun w hw => (hv.unique hw).le⟩
    intro j hj w hw
    exact hlt.le.trans (h.least j hj w hw)
  · intro i
    rw [Finset.mem_singleton, reads_below_succ, and_iff_left hv]
    refine ⟨Or.inr, fun hor => hor.resolve_left ?_⟩
    rintro ⟨hi, hread⟩
    exact hlt.not_ge (h.least i hi v hread)

theorem CpusetScan.Scanned.tie (h : s.Scanned value n) (hv : Reads value n s.minVal) :
    CpusetScan.Scanned value (n + 1) { s with found := true, cpuset := insert n s.cpuset } := by
  refine scanned_of_reads hv rfl ?_ ?_ ⟨n, Nat.lt_succ_self n, hv⟩
  · exact Nat.forall_lt_succ_right.mpr ⟨h.least, fun w hw => (hv.unique hw).le⟩
  · intro i
    rw [Finset.mem_insert, h.mem, reads_below_succ, and_iff_left hv, or_comm]

theorem CpusetScan.Scanned.add (h : s.Scanned value n)
    (hmax : ∀ i v, Reads value i v → v ≤ int32Max) :
    (s.add n (value n)).Scanned value (n + 1) := by
  by_cases hreads : ∃ v, Reads value n v
  · obtain ⟨v, hv⟩ := hreads
    rw [add_reads hv]
    rcases lt_trichotomy v s.minVal with hlt | rfl | hgt
    · rw [if_neg (by omega), if_pos hlt]
      exact h.smaller hv hlt
    · rw [if_neg (lt_irrefl _), if_neg (lt_irrefl _)]
      exact h.tie hv
    · rw [if_pos hgt]
      exact h.larger hv (hmax n v hv) hgt
  · simp only [not_exists] at hreads
    have hskip : s.add n (value n) = s := by
      cases hval : value n with
      | error e => rfl
      | ok val =>
        have hneg : val ≤ 0 := not_lt.mp fun hpos => hreads val ⟨hval, hpos⟩
        simp only [CpusetScan.add, if_pos hneg]
    rw [hskip]
    exact h.skip hreads

theorem scanCores_scanned (hmax : ∀ i v, Reads value i v → v ≤ int32Max) (n : ℕ) :
    (scanCores value n).Scanned value n := by
  induction n with
  | zero => exact scanned_start value
  | succ n ih =>
    rw [scanCores, List.range_succ, List.foldl_append]
    exact ih.add hmax

end Scan

theorem coreValue_max (files : SysfsFiles) (fmt : List UInt8) (i : ℕ) (v : ℤ)
    (h : Reads (coreValue files fmt) i v) : v ≤ int32Max :=
  (fits32_iff.mp (readI32_fits h.1)).2

section Little

variable (setSize : ℕ) (files : SysfsFiles) (numCores : ℤ)

theorem buildCpuset_least (fmt : List UInt8) :
    let Core (i : ℕ) (v : ℤ) : Prop :=
      i < min numCores setSize ∧ coreValue files fmt i = .ok v ∧ 0 < v
    ((buildCpuset setSize files numCores fmt).1 = true ↔ ∃ i v, Core i v) ∧
      ((buildCpuset setSize files numCores fmt).1 = true →
        ∀ i, i ∈ (buildCpuset setSize files numCores fmt).2 ↔
          ∃ v, Core i v ∧ ∀ j w, Core j w → v ≤ w) ∧
      ((buildCpuset setSize files numCores fmt).1 = false →
        (buildCpuset setSize files numCores fmt).2 = ∅) := by
  intro Core
  set n := (if numCores > setSize then (setSize : ℤ) else numCores).toNat with hn
  have hcore (i : ℕ) (v : ℤ) : Core i v ↔ i < n ∧ Reads (coreValue files fmt) i v := by
    have hlt : (i : ℤ) < min numCores setSize ↔ i < n := by
      rw [hn]
      split_ifs <;> omega
    simp only [Core, Reads, hlt]
  have hscan := scanCores_scanned (coreValue_max files fmt) n
  have hbuild : buildCpuset setSize files numCores fmt =
      ((scanCores (coreValue files fmt) n).found, (scanCores (coreValue files fmt) n).cpuset) := rfl
  simp only [hcore, hbuild]
  generalize scanCores (coreValue files fmt) n = s at hscan
  refine ⟨?_, ?_, ?_⟩
  · rw [hscan.found]
    simp only [exists_and_left]
  · intro hfound i
    obtain ⟨k, hk, hread⟩ := hscan.attained hfound
    rw [hscan.mem]
    constructor
    · rintro ⟨hi, hv⟩
      exact ⟨s.minVal, ⟨hi, hv⟩, fun j w hw => hscan.least j hw.1 w hw.2⟩
    · rintro ⟨v, ⟨hi, hv⟩, hleast⟩
      have heq : v = s.minVal :=
        le_antisymm (hleast k s.minVal ⟨hk, hread⟩) (hscan.least i hi v hv)
      exact ⟨hi, heq ▸ hv⟩
  · intro hno
    ext i
    rw [hscan.mem]
    constructor
    · rintro ⟨hi, hv⟩
      have := hscan.found.mpr ⟨i, hi, s.minVal, hv⟩
      rw [hno] at this
      cases this
    · intro hmem
      exact absurd hmem (Finset.notMem_empty i)

theorem buildCpuset_nonempty {fmt : List UInt8} {set : Finset ℕ}
    (h : buildCpuset setSize files numCores fmt = (true, set)) : set.Nonempty := by
  obtain ⟨hfound, rfl⟩ := Prod.mk.inj h
  have hscan := scanCores_scanned (coreValue_max files fmt)
    (if numCores > setSize then (setSize : ℤ) else numCores).toNat
  obtain ⟨i, hi, hread⟩ := hscan.attained hfound
  exact ⟨i, (hscan.mem i).mpr ⟨hi, hread⟩⟩

theorem cpuset_exact (setSize : ℕ) (files : SysfsFiles) (numCores : ℤ) (fmt : List UInt8) :
    let Core (i : ℕ) (v : ℤ) : Prop :=
      i < min numCores setSize ∧ coreValue files fmt i = .ok v ∧ 0 < v
    ((buildCpuset setSize files numCores fmt).1 = true ↔ ∃ i v, Core i v) ∧
      ((buildCpuset setSize files numCores fmt).1 = true →
        ∀ i, i ∈ (buildCpuset setSize files numCores fmt).2 ↔
          ∃ v, Core i v ∧ ∀ j w, Core j w → v ≤ w) ∧
      ((buildCpuset setSize files numCores fmt).1 = false →
        (buildCpuset setSize files numCores fmt).2 = ∅) :=
  buildCpuset_least setSize files numCores fmt

def CoreHas (file : String) (i : ℕ) (v : ℤ) : Prop :=
  i < min numCores setSize ∧ pgSysfsReadI32 (files (coreNode i file)) = .ok v ∧ 0 < v

def LittleCores (file : String) (set : Finset ℕ) : Prop :=
  set.Nonempty ∧ ∀ i, i ∈ set ↔ ∃ v, CoreHas setSize files numCores file i v ∧
    ∀ j w, CoreHas setSize files numCores file j w → v ≤ w

variable {setSize files numCores} {fmt : List UInt8} {file : String} {set : Finset ℕ}

theorem littleCores_iff (hsize : setSize ≤ 2 ^ 32) (hplain : 37 ∉ ascii file)
    (hfmt : fmt = ascii "/sys/devices/system/cpu/cpu" ++ 37 :: 100 :: ascii file)
    (hroom : (ascii file).length < 90) :
    LittleCores setSize files numCores file set ↔
      buildCpuset setSize files numCores fmt = (true, set) := by
  obtain ⟨hfound, hleast, -⟩ := buildCpuset_least setSize files numCores fmt
  have hcore (i : ℕ) (v : ℤ) : CoreHas setSize files numCores file i v ↔
      i < min numCores setSize ∧ coreValue files fmt i = .ok v ∧ 0 < v := by
    refine and_congr_right fun hi => ?_
    rw [coreValue_node files hfmt hplain hroom (by omega)]
  simp only [← hcore] at hfound hleast
  constructor
  · rintro ⟨⟨i, hi⟩, hmem⟩
    obtain ⟨v, hv, -⟩ := (hmem i).mp hi
    have htrue := hfound.mpr ⟨i, v, hv⟩
    refine Prod.ext htrue (Finset.ext fun j => ?_)
    rw [hleast htrue, hmem]
  · intro hbuild
    rw [hbuild] at hleast
    exact ⟨buildCpuset_nonempty setSize files numCores hbuild, hleast rfl⟩

theorem LittleCores.cores (h : LittleCores setSize files numCores file set) : 0 < numCores := by
  obtain ⟨⟨i, hi⟩, hmem⟩ := h
  obtain ⟨v, ⟨hlt, -⟩, -⟩ := (hmem i).mp hi
  omega

/-- A set that is not built, or that the kernel refuses. -/
theorem not_accepted {refuses : Finset ℕ → Option ℕ+} (hiff : ∀ set,
      LittleCores setSize files numCores file set ↔ buildCpuset setSize files numCores fmt = (true, set))
    (h : ∀ set, ¬(LittleCores setSize files numCores file set ∧ refuses set = none)) :
    ((buildCpuset setSize files numCores fmt).1 &&
      (refuses (buildCpuset setSize files numCores fmt).2).isNone) = false := by
  by_contra hacc
  rw [Bool.not_eq_false, Bool.and_eq_true, Option.isNone_iff_eq_none] at hacc
  exact h _ ⟨(hiff _).mpr (Prod.ext hacc.1 rfl), hacc.2⟩

theorem capacity_iff : LittleCores 1024 files numCores "/cpu_capacity" set ↔
    buildCpuset 1024 files numCores cpuCapacity = (true, set) :=
  littleCores_iff (by norm_num) (by decide) (by decide) (by decide)

theorem maxFreq_iff : LittleCores 1024 files numCores "/cpufreq/cpuinfo_max_freq" set ↔
    buildCpuset 1024 files numCores cpuMaxFreq = (true, set) :=
  littleCores_iff (by norm_num) (by decide) (by decide) (by decide)

end Little

/-- The thread is bound to the cores of least capacity; where there are none, or the kernel refuses
them, to those of least maximum frequency, and then to all. -/
theorem little_core_bound (files : SysfsFiles) (numCores : ℤ) (refuses : Finset ℕ → Option ℕ+) :
    let bound := pgTopoSetLittleCoreMask 1024 files numCores refuses
    let all := Finset.range (min numCores 1024).toNat
    let Taken (file : String) (set : Finset ℕ) : Prop :=
      LittleCores 1024 files numCores file set ∧ refuses set = none
    (∀ set, Taken "/cpu_capacity" set → bound = (0, some set)) ∧
      ((∀ set, ¬Taken "/cpu_capacity" set) →
        (∀ set, Taken "/cpufreq/cpuinfo_max_freq" set → bound = (0, some set)) ∧
          ((∀ set, ¬Taken "/cpufreq/cpuinfo_max_freq" set) → 0 < numCores →
            (refuses all = none → bound = (0, some all)) ∧
              ∀ errno, refuses all = some errno → bound = (-((errno : ℕ) : ℤ), none))) ∧
      (numCores ≤ 0 → bound = (-einval, none)) := by
  intro bound all Taken
  have hall : (if numCores > (1024 : ℕ) then ((1024 : ℕ) : ℤ) else numCores) = min numCores 1024 := by
    split_ifs <;> omega
  refine ⟨fun set ⟨hlittle, hno⟩ => ?_, fun hnocap => ?_, fun hle => ?_⟩
  · simp only [bound, pgTopoSetLittleCoreMask, if_neg hlittle.cores.not_ge, capacity_iff.mp hlittle, hno,
      Option.isNone_none, Bool.and_self, if_true]
  · have hcap := not_accepted (fun _ => capacity_iff) hnocap
    refine ⟨fun set ⟨hlittle, hno⟩ => ?_, fun hnofreq hcores => ?_⟩
    · simp only [bound, pgTopoSetLittleCoreMask, if_neg hlittle.cores.not_ge, hcap, maxFreq_iff.mp hlittle,
        hno, Option.isNone_none, Bool.and_self, Bool.false_eq_true, if_true, if_false]
    · have hfreq := not_accepted (fun _ => maxFreq_iff) hnofreq
      have hbound : bound = match refuses all with
          | some errno => (-((errno : ℕ) : ℤ), none)
          | none => (0, some all) := by
        simp only [bound, all, pgTopoSetLittleCoreMask, if_neg hcores.not_ge, hcap, hfreq,
          Bool.false_eq_true, if_false, hall]
      rw [hbound]
      constructor
      · intro hno
        rw [hno]
      · intro errno hno
        rw [hno]
  · simp only [bound, pgTopoSetLittleCoreMask, if_pos hle]

end Pgov
