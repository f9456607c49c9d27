import Pgov.FileWalk
import Pgov.PgMath
import Pgov.PgTime

namespace Pgov

open FixedWidth

structure SweepCtx where
  nowSec : ℤ
  nrFiles : ℤ
  intr : Bool
  deriving DecidableEq, Repr

structure SweepEnv where
  fails : SysFails
  bl : ℕ → ℤ
  avg10 : ℕ → Option ℤ

abbrev SweepState := FsState SweepCtx

def ageLimit : ℤ := 86400
def maxSweepDepth : ℕ := 12
def intrMask : ℤ := 1023
def uclampUnrestricted : ℕ := 1024
def pgUclampMax : ℕ := 102
def sweepEpoch : ℤ := 1767225600

def fileName (cs : List Char) : FileName := cs.map fun c => UInt8.ofNat c.toNat

def dirData : FileName := fileName ['d', 'a', 't', 'a']
def dirMedia : FileName := fileName ['m', 'e', 'd', 'i', 'a']
def dirCache : FileName := fileName ['c', 'a', 'c', 'h', 'e']
def dirAndroid : FileName := fileName ['A', 'n', 'd', 'r', 'o', 'i', 'd']
def dirDcim : FileName := fileName ['D', 'C', 'I', 'M']
def dirMovies : FileName := fileName ['M', 'o', 'v', 'i', 'e', 's']
def dirPictures : FileName := fileName ['P', 'i', 'c', 't', 'u', 'r', 'e', 's']
def dirThumbnails : FileName :=
  fileName ['.', 't', 'h', 'u', 'm', 'b', 'n', 'a', 'i', 'l', 's']

def sharedMedia : DirPath := [dirData, dirMedia, fileName ['0']]

def tempPaths : List DirPath :=
  [sharedMedia ++ [dirDcim, dirThumbnails], sharedMedia ++ [dirMovies, dirThumbnails],
    sharedMedia ++ [dirPictures, dirThumbnails]]

def appRoots : List DirPath := [[dirData, dirData], sharedMedia ++ [dirAndroid, dirData]]

def psiPath : DirPath :=
  [fileName ['p', 'r', 'o', 'c'], fileName ['p', 'r', 'e', 's', 's', 'u', 'r', 'e'],
    fileName ['c', 'p', 'u']]

section Sweep

variable (env : SweepEnv)

def SweepState.interrupt (s : SweepState) : SweepState := { s with user.intr := true }

def SweepState.count (s : SweepState) : SweepState :=
  { s with user.nrFiles := i32 (s.user.nrFiles + 1) }

def pgPsiReadRaw (s : SweepState) : SweepState × Option ℤ :=
  match env.fails s.calls (.openFile psiPath) with
  | some _ => (s.tick.log (.opens psiPath false), none)
  | none =>
    let s : SweepState := s.tick.log (.opens psiPath true)
    (s.tick.log (.closes psiPath), env.avg10 s.calls)

def sweepProbe (s : SweepState) : SweepState × Bool :=
  let bl := env.bl s.calls
  let s : SweepState := s.tick
  if bl > 0 then (s, true)
  else
    let (s, avg10) := pgPsiReadRaw env s
    (s, avg10.any fun avg10 => decide (avg10 > intToQ16 3))

def sweepChkIntr (s : SweepState) : SweepState × Bool :=
  if s.user.intr then (s, true)
  else
    let s := s.count
    if s.user.nrFiles % (intrMask + 1) ≠ 0 then (s, false)
    else
      let (s', hit) := sweepProbe env s
      let s' : SweepState := s'.log (.probe s.calls)
      if hit then (s'.interrupt, true) else (s', false)

def sweepAge (nowSec : ℤ) (st : Inode) : FsAct :=
  let mtime := if st.mtime < 0 then 0 else u64 st.mtime
  if st.type ≠ .reg ∨ nowSec ≤ mtime then .keep
  else
    let age := u64 (nowSec - mtime)
    if age > ageLimit then .delete else .keep

def sweepCb : FsCb SweepCtx := fun s dir name type _depth =>
  let (s, intr) := sweepChkIntr env s
  if intr then (s, .stop)
  else if type = .dir then (s, .keep)
  else
    match fstatat env.fails s dir name with
    | (s, none) => (s, .keep)
    | (s, some st) => (s, sweepAge s.user.nowSec st)

def sweepPackage (s : SweepState) (root : DirPath) (pkgName : FileName) : SweepState :=
  match openat env.fails s root pkgName with
  | (s, .error _) => s
  | (s, .ok pkg) =>
    match openat env.fails s pkg dirCache with
    | (s, .error _) => s.log (.closes pkg)
    | (s, .ok cache) =>
      let (s, _) := pgFsWalkFd env.fails (sweepCb env) maxSweepDepth s cache
      (s.log (.closes cache)).log (.closes pkg)

def sweepProcessDirent (root : DirPath) (s : SweepState) (d : Dirent) : SweepState :=
  let (s, intr) := sweepChkIntr env (s.log (.entry root d.name))
  if intr then s
  else if d.name.head? = some 46 then s
  else
    let (s, dtype) := direntType env.fails root s d
    if dtype = .dir then sweepPackage env s root d.name else s

def sweepAppData (s : SweepState) (root : DirPath) : SweepState :=
  let step (s : SweepState) (d : Dirent) : SweepState × ℤ :=
    let s := sweepProcessDirent env root s d
    (s, if s.user.intr then 1 else 0)
  (walkListing env.fails step root 0 s (listingOf s root)).1

def sweepAppRoot (s : SweepState) (root : DirPath) : SweepState :=
  if s.user.intr then s
  else
    match openDir env.fails s root with
    | (s, .error _) => s
    | (s, .ok root) => (sweepAppData env s root).log (.closes root)

def sweepTempPath (s : SweepState) (path : DirPath) : SweepState :=
  if s.user.intr then s else (pgFsWalk env.fails (sweepCb env) maxSweepDepth s path).1

/-- `tvSec` is what `CLOCK_REALTIME` reads at the start. -/
def pgSweepRun (tvSec : ℤ) (fs : FileSystem) : SweepState :=
  let s : SweepState :=
    { fs := fs, calls := 0, trace := [],
      user := { nowSec := u64 tvSec, nrFiles := intrMask, intr := false } }
  if s.user.nowSec < sweepEpoch then s
  else
    let (s, intr) := sweepChkIntr env s
    if intr then s
    else
      let s : SweepState := s.log (.uclamp uclampUnrestricted)
      let s := tempPaths.foldl (sweepTempPath env) (appRoots.foldl (sweepAppRoot env) s)
      s.log (.uclamp pgUclampMax)

end Sweep

/-- The pressure alone interrupts the sweep, wherever the probe gets to look at it. -/
def PsiBusy (env : SweepEnv) (calls : ℕ) : Prop :=
  env.fails (calls + 1) (.openFile psiPath) = none ∧
    ∃ avg10, env.avg10 (calls + 2) = some avg10 ∧ avg10 > intToQ16 3

/-- A probe that reads the backlight at this call observes brightness, or pressure above 3. -/
def ProbeHits (env : SweepEnv) (calls : ℕ) : Prop := env.bl calls > 0 ∨ PsiBusy env calls

theorem psiReadRaw_busy (env : SweepEnv) (s : SweepState) :
    ((pgPsiReadRaw env s).2.any fun avg10 => decide (avg10 > intToQ16 3)) = true ↔
      env.fails s.calls (.openFile psiPath) = none ∧
        ∃ avg10, env.avg10 (s.calls + 1) = some avg10 ∧ avg10 > intToQ16 3 := by
  rw [pgPsiReadRaw]
  cases env.fails s.calls (.openFile psiPath) with
  | some errno => simp
  | none =>
    change (env.avg10 (s.calls + 1)).any _ = true ↔ _
    cases env.avg10 (s.calls + 1) <;> simp

theorem sweepProbe_hit_iff (env : SweepEnv) (s : SweepState) :
    (sweepProbe env s).2 = true ↔ ProbeHits env s.calls := by
  simp only [sweepProbe, ProbeHits]
  by_cases hbl : env.bl s.calls > 0
  · simp [hbl]
  · rw [if_neg hbl, or_iff_right hbl]
    exact psiReadRaw_busy env s.tick

inductive SweepStart : DirPath → Prop
  | app {root : DirPath} (hroot : root ∈ appRoots) {pkg : FileName} (hpkg : pkg.head? ≠ some 46) :
      SweepStart (root ++ [pkg] ++ [dirCache])
  | temp {path : DirPath} (hpath : path ∈ tempPaths) : SweepStart path

structure Reached (fs : FileSystem) (depth : ℕ) (dir start : DirPath) (below : List FileName) :
    Prop where
  isStart : SweepStart start
  dir_eq : dir = start ++ below
  depth_eq : below.length = depth
  names : ∀ name ∈ below, ¬(name = dot ∨ name = dotdot)
  dirs : ∀ k ≤ depth, IsDir fs (start ++ below.take k)

/-- What the sweep may unlink: a regular file older than the age limit, at depth at most 12 in the
walker's count, which puts the entries of the starting directory at depth 0. -/
structure SweepTarget (fs : FileSystem) (now : ℤ) (u : Unlink) : Prop where
  notDir : u.removeDir = false
  entry : ¬(u.name = dot ∨ u.name = dotdot)
  reached : ∃ depth start below, depth ≤ 12 ∧ Reached fs depth u.dir start below
  stale : ∃ i, fs (u.dir ++ [u.name]) = some i ∧ i.type = .reg ∧ i.mtime + 86400 < now

section Targets

variable {env : SweepEnv} {fs : FileSystem} {now : ℤ} {s : SweepState}

abbrev SweepSound (fs : FileSystem) (now : ℤ) (s : SweepState) : Prop :=
  Sound fs (SweepTarget fs now) (fun ctx => ctx.nowSec = now) s

theorem psiReadRaw_sound (env : SweepEnv) (h : SweepSound fs now s) :
    SweepSound fs now (pgPsiReadRaw env s).1 := by
  rw [pgPsiReadRaw]
  split
  · exact h.tick.log (by simp)
  · exact (h.tick.log (by simp)).tick.log (by simp)

theorem sweepProbe_sound (env : SweepEnv) (h : SweepSound fs now s) :
    SweepSound fs now (sweepProbe env s).1 := by
  rw [sweepProbe]
  split
  · exact h.tick
  · exact psiReadRaw_sound env h.tick

theorem chkIntr_sound (env : SweepEnv) (h : SweepSound fs now s) :
    SweepSound fs now (sweepChkIntr env s).1 := by
  rw [sweepChkIntr]
  split
  · exact h
  have hcount : SweepSound fs now s.count := ⟨h.shrinks, h.unlinks, h.user⟩
  simp only
  split
  · exact hcount
  have hprobe := (sweepProbe_sound env hcount).log (e := .probe s.calls) (by simp)
  split
  · exact ⟨hprobe.shrinks, hprobe.unlinks, hprobe.user⟩
  · exact hprobe

theorem sweepCb_sound (env : SweepEnv) (h : SweepSound fs now s) (dir : DirPath) (name : FileName)
    (type : DirentType) (depth : ℕ) : SweepSound fs now (sweepCb env s dir name type depth).1 := by
  have hchk := chkIntr_sound env h
  simp only [sweepCb]
  generalize sweepChkIntr env s = chk at hchk ⊢
  obtain ⟨s₁, intr⟩ := chk
  split
  · exact hchk
  split
  · exact hchk
  split
  · next s₂ hstat =>
    obtain rfl : s₁.tick = s₂ := congrArg Prod.fst hstat
    exact hchk.tick
  · next s₂ st hstat =>
    obtain rfl : s₁.tick = s₂ := congrArg Prod.fst hstat
    exact hchk.tick

theorem sweepAge_delete {st : Inode} (hnow : 0 ≤ now ∧ now < 2 ^ 64)
    (hdel : sweepAge now st = .delete) : st.type = .reg ∧ st.mtime + 86400 < now := by
  have hfits := fits64_iff.mp st.mtime_fits
  simp only [sweepAge, ageLimit] at hdel
  by_cases hneg : st.mtime < 0
  · simp only [if_pos hneg] at hdel
    split_ifs at hdel with hkeep hold
    rw [not_or, not_not] at hkeep
    rw [u64_eq (by omega) (by omega)] at hold
    exact ⟨hkeep.1, by omega⟩
  · have hm : u64 st.mtime = st.mtime := u64_eq (by omega) (by omega)
    simp only [if_neg hneg, hm] at hdel
    split_ifs at hdel with hkeep hold
    rw [not_or, not_not] at hkeep
    rw [u64_eq (by omega) (by omega)] at hold
    exact ⟨hkeep.1, by omega⟩

theorem sweepCb_delete (h : SweepSound fs now s) {dir : DirPath} {name : FileName}
    {type : DirentType} {depth : ℕ} (hnow : 0 ≤ now ∧ now < 2 ^ 64)
    (hdel : (sweepCb env s dir name type depth).2 = .delete) :
    type ≠ .dir ∧ ∃ i, fs (resolve dir name) = some i ∧ i.type = .reg ∧ i.mtime + 86400 < now := by
  have hchk := chkIntr_sound env h
  simp only [sweepCb] at hdel
  generalize sweepChkIntr env s = chk at hchk hdel
  obtain ⟨s₁, intr⟩ := chk
  split at hdel
  · exact absurd hdel (by simp)
  split at hdel
  · exact absurd hdel (by simp)
  next _ htype =>
  split at hdel
  · exact absurd hdel (by simp)
  next s₂ st hstat =>
  obtain rfl : s₁.tick = s₂ := congrArg Prod.fst hstat
  have huser : s₁.tick.user.nowSec = now := hchk.user
  rw [huser] at hdel
  exact ⟨htype, st, hchk.fstatat (congrArg Prod.snd hstat), sweepAge_delete hnow hdel⟩

theorem Reached.step {depth : ℕ} {dir start : DirPath} {below : List FileName} {name : FileName}
    (h : Reached fs depth dir start below) (hname : ¬(name = dot ∨ name = dotdot))
    (hdir : IsDir fs (dir ++ [name])) :
    Reached fs (depth + 1) (dir ++ [name]) start (below ++ [name]) := by
  refine ⟨h.isStart, by rw [h.dir_eq, List.append_assoc], by simp [h.depth_eq], ?_, ?_⟩
  · intro n hn
    rcases List.mem_append.mp hn with hn | hn
    · exact h.names n hn
    · rw [List.mem_singleton.mp hn]
      exact hname
  · intro k hk
    rcases Nat.lt_or_ge k (depth + 1) with hlt | hge
    · rw [List.take_append_of_le_length (by rw [h.depth_eq]; omega)]
      exact h.dirs k (by omega)
    · rw [List.take_of_length_le (by simp [h.depth_eq]; omega), ← List.append_assoc, ← h.dir_eq]
      exact hdir

theorem Reached.of_start {start : DirPath} (h : SweepStart start) (hdir : IsDir fs start) :
    Reached fs 0 start start [] :=
  ⟨h, (List.append_nil _).symm, rfl, by simp, fun k _ => by simpa using hdir⟩

def SweepWalked (fs : FileSystem) (now : ℤ) (depth : ℕ) (dir : DirPath) (s : SweepState) : Prop :=
  SweepSound fs now s ∧ ∃ start below, Reached fs depth dir start below

theorem sweepCb_rule (env : SweepEnv) (hnow : 0 ≤ now ∧ now < 2 ^ 64) :
    WalkRule env.fails (sweepCb env) maxSweepDepth (SweepWalked fs now) (SweepWalked fs now) where
  done h := h
  tick h := ⟨h.1.tick, h.2⟩
  visit := by
    rintro depth dir s ⟨hs, start, below, hreached⟩ hdepth name hname type
    have hvisit := hs.log (e := .visit dir name) (by simp)
    have hcb := sweepCb_sound env hvisit dir name type depth
    refine ⟨⟨hcb, start, below, hreached⟩, fun _ => ⟨hcb, start, below, hreached⟩, ?_⟩
    intro hdel
    obtain ⟨htype, i, hi, hreg, hage⟩ := sweepCb_delete hvisit hnow hdel
    rw [resolve_entry hname] at hi
    refine ⟨hcb.unlinkat ?_, start, below, hreached⟩
    exact ⟨by simpa using htype, hname, ⟨depth, start, below, hdepth, hreached⟩, i, hi, hreg, hage⟩
  refused h _ _ := ⟨h.1.opened env.fails _, h.2⟩
  opened := by
    rintro depth dir s ⟨hs, start, below, hreached⟩ name hname hopen
    have hdir := hs.openResult hopen
    exact ⟨hs.opened env.fails _, start, _, hreached.step hname hdir⟩
  closed h hsub := ⟨hsub.1.log (by simp), h.2⟩
  closed_done h hsub := ⟨hsub.1.log (by simp), h.2⟩

theorem walk_sound (env : SweepEnv) (hnow : 0 ≤ now ∧ now < 2 ^ 64) (h : SweepSound fs now s) {start : DirPath}
    (hstart : SweepStart start) (hdir : IsDir fs start) :
    SweepSound fs now (pgFsWalkFd env.fails (sweepCb env) maxSweepDepth s start).1 := by
  have hwalk := (sweepCb_rule env hnow : WalkRule env.fails (sweepCb env) maxSweepDepth (SweepWalked fs now)
    (SweepWalked fs now)).walkFd start s
  exact (hwalk ⟨h, start, [], Reached.of_start hstart hdir⟩).1.1

theorem sweepPackage_sound (hnow : 0 ≤ now ∧ now < 2 ^ 64) (h : SweepSound fs now s)
    {root : DirPath} (hroot : root ∈ appRoots) {pkg : FileName} (hpkg : pkg.head? ≠ some 46) :
    SweepSound fs now (sweepPackage env s root pkg) := by
  have hname : ¬(pkg = dot ∨ pkg = dotdot) := by
    rintro (rfl | rfl) <;> exact hpkg rfl
  have hopened := h.opened env.fails (root ++ [pkg])
  rw [sweepPackage, openat, resolve_entry hname]
  split
  · next s₁ ret hopen =>
    obtain ⟨rfl, -⟩ := Prod.mk.inj hopen
    exact hopened
  · next s₁ pkgDir hopen =>
    obtain ⟨rfl, hret⟩ := Prod.mk.inj hopen
    obtain rfl := openResult_path hret
    rw [openat, resolve_entry (by decide)]
    split
    · next s₂ ret hopen' =>
      obtain ⟨rfl, -⟩ := Prod.mk.inj hopen'
      exact (hopened.opened env.fails _).log (by simp)
    · next s₂ cache hopen' =>
      obtain ⟨rfl, hret'⟩ := Prod.mk.inj hopen'
      obtain rfl := openResult_path hret'
      have hcache := hopened.openResult hret'
      have hwalk := walk_sound env hnow (hopened.opened env.fails (root ++ [pkg] ++ [dirCache]))
        (.app hroot hpkg) hcache
      exact (hwalk.log (by simp)).log (by simp)

theorem direntType_sound (fails : SysFails) (h : SweepSound fs now s) (dir : DirPath)
    (d : Dirent) : SweepSound fs now (direntType fails dir s d).1 := by
  rw [direntType]
  split
  · exact h.tick
  · exact h

theorem sweepProcessDirent_sound (env : SweepEnv) (hnow : 0 ≤ now ∧ now < 2 ^ 64) (h : SweepSound fs now s)
    {root : DirPath} (hroot : root ∈ appRoots) (d : Dirent) :
    SweepSound fs now (sweepProcessDirent env root s d) := by
  have hchk := chkIntr_sound env (h.log (e := .entry root d.name) (by simp))
  rw [sweepProcessDirent]
  generalize sweepChkIntr env _ = chk at hchk
  obtain ⟨s₁, intr⟩ := chk
  simp only
  split
  · exact hchk
  split
  · exact hchk
  next _ hpkg =>
  have htyped := direntType_sound env.fails hchk root d
  generalize direntType env.fails root s₁ d = typed at htyped
  obtain ⟨s₂, dtype⟩ := typed
  simp only
  split
  · exact sweepPackage_sound hnow htyped hroot hpkg
  · exact htyped

theorem sweepAppRoot_sound (env : SweepEnv) (hnow : 0 ≤ now ∧ now < 2 ^ 64)
    (h : SweepSound fs now s) {root : DirPath} (hroot : root ∈ appRoots) :
    SweepSound fs now (sweepAppRoot env s root) := by
  have hopened := h.opened env.fails root
  rw [sweepAppRoot]
  split
  · exact h
  split
  · next s₁ ret hopen =>
    obtain ⟨rfl, -⟩ := Prod.mk.inj hopen
    exact hopened
  · next s₁ dir hopen =>
    obtain ⟨rfl, hret⟩ := Prod.mk.inj hopen
    obtain rfl := openResult_path hret
    refine Sound.log (walkListing_keeps (fun _ hs => hs) (fun _ hs => hs.tick) ?_ dir 0 _ _ hopened).1
      (by simp)
    intro d s hs
    have hstep := sweepProcessDirent_sound env hnow hs hroot d
    exact ⟨hstep, fun _ => hstep⟩

theorem sweepTempPath_sound (env : SweepEnv) (hnow : 0 ≤ now ∧ now < 2 ^ 64)
    (h : SweepSound fs now s) {path : DirPath} (hpath : path ∈ tempPaths) :
    SweepSound fs now (sweepTempPath env s path) := by
  have hopened := h.opened env.fails path
  rw [sweepTempPath]
  split
  · exact h
  rw [pgFsWalk]
  split
  · next s₁ ret hopen =>
    obtain ⟨rfl, -⟩ := Prod.mk.inj hopen
    exact hopened
  · next s₁ dir hopen =>
    obtain ⟨rfl, hret⟩ := Prod.mk.inj hopen
    obtain rfl := openResult_path hret
    have hdir := h.openResult hret
    exact (walk_sound env hnow hopened (.temp hpath) hdir).log (by simp)

end Targets

theorem foldl_sound {fs : FileSystem} {now : ℤ} {step : SweepState → DirPath → SweepState}
    {paths : List DirPath}
    (hstep : ∀ s, ∀ path ∈ paths, SweepSound fs now s → SweepSound fs now (step s path))
    {s : SweepState} (h : SweepSound fs now s) : SweepSound fs now (paths.foldl step s) := by
  induction paths generalizing s with
  | nil => exact h
  | cons path paths ih =>
    exact ih (fun s p hp => hstep s p (List.mem_cons_of_mem _ hp)) (hstep s path (by simp) h)

theorem pgSweepRun_sound (env : SweepEnv) (tvSec : ℤ) (fs : FileSystem) :
    SweepSound fs (u64 tvSec) (pgSweepRun env tvSec fs) := by
  have hnow : 0 ≤ u64 tvSec ∧ u64 tvSec < 2 ^ 64 :=
    ⟨Int.emod_nonneg _ (by norm_num), Int.emod_lt_of_pos _ (by norm_num)⟩
  have hstart : SweepSound fs (u64 tvSec)
      { fs := fs, calls := 0, trace := [],
        user := { nowSec := u64 tvSec, nrFiles := intrMask, intr := false } } :=
    ⟨fun hi => hi, by simp [FsState.unlinks], rfl⟩
  have hchk := chkIntr_sound env hstart
  simp only [pgSweepRun]
  split
  · exact hstart
  generalize sweepChkIntr env _ = chk at hchk ⊢
  obtain ⟨s₁, intr⟩ := chk
  simp only
  split
  · exact hchk
  · have hraised := hchk.log (e := .uclamp uclampUnrestricted) (by simp)
    have happs := foldl_sound (fun s root hroot hs => sweepAppRoot_sound env hnow hs hroot) hraised
    have htemps := foldl_sound (fun s path hpath hs => sweepTempPath_sound env hnow hs hpath) happs
    exact htemps.log (by simp)

/-- The sweep compares with the clock as an unsigned number, which a clock past 1970 is. -/
theorem sweep_targets (env : SweepEnv) (tvSec : ℤ) (fs : FileSystem) :
    ∀ u ∈ (pgSweepRun env tvSec fs).unlinks, SweepTarget fs (u64 tvSec) u ∧
      (0 ≤ tvSec → Fits 64 tvSec → SweepTarget fs tvSec u) := by
  intro u hu
  have htarget := (pgSweepRun_sound env tvSec fs).unlinks u hu
  refine ⟨htarget, fun h0 hfits => ?_⟩
  have hu64 : u64 tvSec = tvSec := u64_eq h0 (by have := fits64_iff.mp hfits; omega)
  rwa [hu64] at htarget

def cacheTree : FileSystem := fun path =>
  let pkg := [dirData, dirData, fileName ['p']]
  let old := fileName ['f']
  if path = [dirData, dirData] then
    some ⟨.dir, 0, [[⟨dot, .dir⟩, ⟨fileName ['p'], .unknown⟩]], by decide⟩
  else if path = pkg then some ⟨.dir, 0, [], by decide⟩
  else if path = pkg ++ [dirCache] then
    some ⟨.dir, 0, [[⟨dotdot, .dir⟩, ⟨old, .reg⟩]], by decide⟩
  else if path = pkg ++ [dirCache, old] then some ⟨.reg, -1, [], by decide⟩
  else none

def quietEnv : SweepEnv := { fails := fun _ _ => none, bl := fun _ => 0, avg10 := fun _ => none }

theorem sweep_targets_cacheTree :
    SweepTarget cacheTree 1800000000
      ⟨[dirData, dirData, fileName ['p'], dirCache], fileName ['f'], false⟩ :=
  (sweep_targets quietEnv 1800000000 cacheTree
    ⟨[dirData, dirData, fileName ['p'], dirCache], fileName ['f'], false⟩
    (by decide +kernel)).2 (by decide) (by decide)

end Pgov
