import Pgov.SweepUnlinks

namespace Pgov

open FixedWidth TreeWalk

inductive SweepRoot (f : TreeFails) (fs : FileSystem) : DirPath → Prop
  | app {root : DirPath} (hroot : root ∈ appRoots) (hopens : f.Opens fs root) {d : Dirent}
      (hd : d ∈ f.listed fs root) (hdot : d.name.head? ≠ some 46)
      (henters : f.enters fs root d = true) (hcache : f.Opens fs (root ++ [d.name] ++ [dirCache])) :
      SweepRoot f fs (root ++ [d.name] ++ [dirCache])
  | temp {path : DirPath} (hpath : path ∈ tempPaths) (hopens : f.Opens fs path) : SweepRoot f fs path

structure SweepDueFile (f : TreeFails) (fs : FileSystem) (now : ℤ) (u : Unlink) : Prop where
  reached : ∃ start, SweepRoot f fs start ∧ ∃ depth ≤ 12, Reaches (f.tree fs) start depth u.dir
  entry : StaleEntry f fs now u

def PackageDue (f : TreeFails) (fs : FileSystem) (now : ℤ) (root : DirPath) (d : Dirent)
    (u : Unlink) : Prop :=
  d.name.head? ≠ some 46 ∧ f.enters fs root d = true ∧
    f.Opens fs (root ++ [d.name] ++ [dirCache]) ∧
    StaleBelow f fs now (maxSweepDepth + 1) (root ++ [d.name] ++ [dirCache]) u

def AppRootDue (f : TreeFails) (fs : FileSystem) (now : ℤ) (root : DirPath) (u : Unlink) : Prop :=
  f.Opens fs root ∧ ∃ d ∈ f.listed fs root, PackageDue f fs now root d u

def TempPathDue (f : TreeFails) (fs : FileSystem) (now : ℤ) (path : DirPath) (u : Unlink) : Prop :=
  f.Opens fs path ∧ StaleBelow f fs now (maxSweepDepth + 1) path u

theorem sweepDueFile_iff {f : TreeFails} {fs : FileSystem} {now : ℤ} {u : Unlink} :
    SweepDueFile f fs now u ↔ (∃ root ∈ appRoots, AppRootDue f fs now root u) ∨
      ∃ path ∈ tempPaths, TempPathDue f fs now path u := by
  have hdepth : maxSweepDepth + 1 = 13 := rfl
  constructor
  · rintro ⟨⟨start, hstart, depth, hle, hreach⟩, hentry⟩
    have hbelow : StaleBelow f fs now (maxSweepDepth + 1) start u := by
      rw [hdepth]
      exact ⟨⟨depth, by omega, hreach⟩, hentry⟩
    cases hstart with
    | app hroot hopens hd hdot henters hcache =>
      exact .inl ⟨_, hroot, hopens, _, hd, hdot, henters, hcache, hbelow⟩
    | temp hpath hopens => exact .inr ⟨_, hpath, hopens, hbelow⟩
  · rintro (⟨root, hroot, hopens, d, hd, hdot, henters, hcache, ⟨k, hk, hreach⟩, hentry⟩ |
      ⟨path, hpath, hopens, ⟨k, hk, hreach⟩, hentry⟩)
    · exact ⟨⟨_, .app hroot hopens hd hdot henters hcache, k, by omega, hreach⟩, hentry⟩
    · exact ⟨⟨_, .temp hpath hopens, k, by omega, hreach⟩, hentry⟩

section Run

variable {f : TreeFails} {env : SweepEnv} {fs : FileSystem} {now : ℤ} {s : SweepState}

theorem walkFd_sweeps (hfails : env.fails = f.sys) (hlists : ∀ dir, f.lists dir = none)
    (hnow : sweepEpoch ≤ now ∧ now < 2 ^ 64) {dir : DirPath} (hopens : f.Opens fs dir)
    (h : SweepKept f fs now s) :
    Sweeps f fs now (StaleBelow f fs now (maxSweepDepth + 1) dir) s
      ((pgFsWalkFd env.fails (sweepCb env) maxSweepDepth s dir).1, 0) := by
  obtain ⟨i, hi, ht⟩ := Option.map_eq_some_iff.mp hopens.2
  have hwalk := fsWalk_sweeps hfails hlists hnow maxSweepDepth (maxSweepDepth + 1) ⟨i, hi, ht⟩ h
  exact ⟨hwalk.kept, hwalk.latched, hwalk.before, hwalk.only, fun _ => rfl, hwalk.all⟩

theorem sweepPackage_sweeps (hfails : env.fails = f.sys) (hlists : ∀ dir, f.lists dir = none)
    (hnow : sweepEpoch ≤ now ∧ now < 2 ^ 64) (h : SweepKept f fs now s) {root : DirPath}
    {pkg : FileName} (hname : ¬(pkg = dot ∨ pkg = dotdot)) :
    Sweeps f fs now (fun u => f.Opens fs (root ++ [pkg]) ∧ f.Opens fs (root ++ [pkg] ++ [dirCache]) ∧
        StaleBelow f fs now (maxSweepDepth + 1) (root ++ [pkg] ++ [dirCache]) u) s
      (sweepPackage env s root pkg, 0) := by
  obtain ⟨hpkg, hres⟩ := openDir_sweeps hfails h (root ++ [pkg])
  rw [sweepPackage, openat, resolve_entry hname]
  generalize openDir env.fails s (root ++ [pkg]) = opened at hpkg hres
  obtain ⟨s₁, res⟩ := opened
  simp only at hpkg hres
  rcases hres with ⟨rfl, hin⟩ | ⟨⟨ret, rfl⟩, hout⟩
  · obtain ⟨hcache, hres⟩ := openDir_sweeps hfails hpkg.kept (root ++ [pkg] ++ [dirCache])
    simp only
    rw [openat, resolve_entry (by decide)]
    generalize openDir env.fails s₁ (root ++ [pkg] ++ [dirCache]) = opened at hcache hres
    obtain ⟨s₂, res⟩ := opened
    simp only at hcache hres
    rcases hres with ⟨rfl, hin'⟩ | ⟨⟨ret, rfl⟩, hout⟩
    · have hwalk := walkFd_sweeps hfails hlists hnow hin' hcache.kept
      have hall := ((hpkg.trans (hcache.trans hwalk)).looks
        (.log _ (e := .closes (root ++ [pkg] ++ [dirCache])) rfl)).looks
        (.log _ (e := .closes (root ++ [pkg])) rfl)
      refine hall.congr fun u => ?_
      simp only [false_or, hin, hin', true_and]
    · refine ((hpkg.trans hcache).looks (.log _ (e := .closes (root ++ [pkg])) rfl)).congr fun u => ?_
      simp only [or_self, hout, false_and, and_false]
  · refine hpkg.congr fun u => ?_
    simp only [hout, false_and]

theorem sweepProcessDirent_sweeps (hfails : env.fails = f.sys) (hlists : ∀ dir, f.lists dir = none)
    (hnow : sweepEpoch ≤ now ∧ now < 2 ^ 64) (h : SweepKept f fs now s) (root : DirPath)
    (d : Dirent) : Sweeps f fs now (PackageDue f fs now root d) s
      (sweepProcessDirent env root s d, 0) := by
  have hseen : Looks s (s.log (.entry root d.name)) := .log s rfl
  obtain ⟨hchk, hintr⟩ := chkIntr_sweeps env (h.looks hseen)
  replace hchk := hchk.after hseen
  rw [sweepProcessDirent]
  generalize sweepChkIntr env _ = chk at hchk hintr
  obtain ⟨s₁, intr⟩ := chk
  simp only at hchk hintr ⊢
  split
  · next hstop => exact hchk.stopped (hintr.symm.trans hstop) (fun _ => False.elim) 0
  split
  · next hdot =>
    refine hchk.congr fun u => ⟨False.elim, ?_⟩
    rintro ⟨hne, -⟩
    exact hne hdot
  next hdot =>
  have hname : ¬(d.name = dot ∨ d.name = dotdot) := by
    rintro (heq | heq) <;> exact hdot (by rw [heq]; rfl)
  have htype : (direntType env.fails root s₁ d).2 = .dir ↔ IsDirent fs root d := by
    rw [hfails]
    exact (direntType_dir hchk.kept.dirs root hname).2.2
  have htyped := hchk.looks (direntType_looks env.fails root s₁ d)
  generalize direntType env.fails root s₁ d = typed at htype htyped
  obtain ⟨s₂, dtype⟩ := typed
  simp only at htype htyped ⊢
  split
  · next hdir =>
    refine (htyped.trans (sweepPackage_sweeps hfails hlists hnow htyped.kept hname)).congr fun u => ?_
    simp only [PackageDue, false_or, enters_iff, ne_eq, hdot, not_false_eq_true, htype.mp hdir,
      true_and]
  · next hdir =>
    refine htyped.congr fun u => ?_
    simp only [PackageDue, enters_iff, mt htype.mpr hdir, false_and, and_false]

theorem sweepAppRoot_sweeps (hfails : env.fails = f.sys) (hlists : ∀ dir, f.lists dir = none)
    (hnow : sweepEpoch ≤ now ∧ now < 2 ^ 64) (h : SweepKept f fs now s) (root : DirPath) :
    Sweeps f fs now (AppRootDue f fs now root) s (sweepAppRoot env s root, 0) := by
  have hnone : Sweeps f fs now (fun _ => False) s (s, 0) := .of_looks h ⟨rfl, rfl, rfl, rfl⟩
  obtain ⟨hopened, hres⟩ := openDir_sweeps hfails h root
  rw [sweepAppRoot]
  split
  · next hstop => exact hnone.stopped hstop (fun _ => False.elim) 0
  generalize openDir env.fails s root = opened at hopened hres
  obtain ⟨s₁, res⟩ := opened
  simp only at hopened hres
  rcases hres with ⟨rfl, hin⟩ | ⟨⟨ret, rfl⟩, hout⟩
  · obtain ⟨i, hi, ht⟩ := Option.map_eq_some_iff.mp hin.2
    have hlist := walkListing_sweeps hlists
      (fun s d hs => (sweepProcessDirent_sweeps hfails hlists hnow hs root d).flagged)
      hopened.kept root 0 (dirListing fs root)
    simp only [sweepAppData]
    rw [hopened.kept.dirs.listing ⟨i, hi, ht⟩, hfails]
    generalize walkListing f.sys _ root 0 s₁ (dirListing fs root) = walked at hlist
    obtain ⟨s₂, ret⟩ := walked
    have hall := (hopened.trans hlist).looks (.log s₂ (e := .closes root) rfl)
    refine ⟨hall.kept, hall.latched, hall.before, ?_, fun _ => rfl, ?_⟩
    · intro u hu
      refine (hall.only u hu).imp_right fun hdue => ⟨hin, ?_⟩
      exact hdue.resolve_left id
    · rintro hgo u ⟨-, hdue⟩
      exact hall.all hgo u (.inr hdue)
  · refine hopened.congr fun u => ?_
    simp only [AppRootDue, hout, false_and]

theorem sweepTempPath_sweeps (hfails : env.fails = f.sys) (hlists : ∀ dir, f.lists dir = none)
    (hnow : sweepEpoch ≤ now ∧ now < 2 ^ 64) (h : SweepKept f fs now s) (path : DirPath) :
    Sweeps f fs now (TempPathDue f fs now path) s (sweepTempPath env s path, 0) := by
  have hnone : Sweeps f fs now (fun _ => False) s (s, 0) := .of_looks h ⟨rfl, rfl, rfl, rfl⟩
  obtain ⟨hopened, hres⟩ := openDir_sweeps hfails h path
  rw [sweepTempPath]
  split
  · next hstop => exact hnone.stopped hstop (fun _ => False.elim) 0
  rw [pgFsWalk]
  generalize openDir env.fails s path = opened at hopened hres
  obtain ⟨s₁, res⟩ := opened
  simp only at hopened hres
  rcases hres with ⟨rfl, hin⟩ | ⟨⟨ret, rfl⟩, hout⟩
  · have hwalk := walkFd_sweeps hfails hlists hnow hin hopened.kept
    refine ((hopened.trans hwalk).looks (.log _ (e := .closes path) rfl)).congr fun u => ?_
    simp only [TempPathDue, false_or, hin, true_and]
  · refine hopened.congr fun u => ?_
    simp only [TempPathDue, hout, false_and]

theorem foldl_sweeps {step : SweepState → DirPath → SweepState} {P : DirPath → Unlink → Prop}
    (hstep : ∀ s path, SweepKept f fs now s → Sweeps f fs now (P path) s (step s path, 0))
    (h : SweepKept f fs now s) (paths : List DirPath) :
    Sweeps f fs now (fun u => ∃ path ∈ paths, P path u) s (paths.foldl step s, 0) := by
  induction paths generalizing s with
  | nil => exact (Sweeps.of_looks h ⟨rfl, rfl, rfl, rfl⟩).congr (by simp)
  | cons path paths ih =>
    have hone := hstep s path h
    exact (hone.trans (ih hone.kept)).congr fun u => by simp only [List.exists_mem_cons_iff]

end Run

def sweepStart (tvSec : ℤ) (fs : FileSystem) : SweepState :=
  { fs := fs, calls := 0, trace := [],
    user := { nowSec := u64 tvSec, nrFiles := intrMask, intr := false } }

theorem sweepRun_sweeps {f : TreeFails} {env : SweepEnv} (hfails : env.fails = f.sys)
    (hlists : ∀ dir, f.lists dir = none) {tvSec : ℤ} (hepoch : sweepEpoch ≤ u64 tvSec)
    (fs : FileSystem) :
    Sweeps f fs (u64 tvSec) (SweepDueFile f fs (u64 tvSec)) (sweepStart tvSec fs)
      (pgSweepRun env tvSec fs, 0) := by
  have hnow : sweepEpoch ≤ u64 tvSec ∧ u64 tvSec < 2 ^ 64 :=
    ⟨hepoch, Int.emod_lt_of_pos _ (by norm_num)⟩
  have hstart : SweepKept f fs (u64 tvSec) (sweepStart tvSec fs) :=
    ⟨rfl, fun _ _ _ => Iff.rfl, fun _ => .inl rfl,
      fun _ u hu => absurd hu (by simp [sweepStart, FsState.unlinks])⟩
  obtain ⟨hchk, hintr⟩ := chkIntr_sweeps env hstart
  simp only [pgSweepRun]
  rw [if_neg (by omega)]
  rw [sweepStart] at hchk hintr ⊢
  generalize sweepChkIntr env _ = chk at hchk hintr
  obtain ⟨s₁, intr⟩ := chk
  simp only at hchk hintr ⊢
  split
  · next hstop => exact hchk.stopped (hintr.symm.trans hstop) (fun _ => False.elim) 0
  have hraised := hchk.looks (.log s₁ (e := .uclamp uclampUnrestricted) rfl)
  have happs := hraised.trans (foldl_sweeps
    (fun s root hs => sweepAppRoot_sweeps hfails hlists hnow hs root) hraised.kept appRoots)
  have htemps := happs.trans (foldl_sweeps
    (fun s path hs => sweepTempPath_sweeps hfails hlists hnow hs path) happs.kept tempPaths)
  refine (htemps.looks (.log _ (e := .uclamp pgUclampMax) rfl)).congr fun u => ?_
  rw [sweepDueFile_iff, false_or]

section Results

variable {f : TreeFails} {fs : FileSystem} {now : ℤ} {s : SweepState} {u : Unlink}

theorem SweepKept.listed (h : SweepKept f fs now s) {dir : DirPath} (hdir : IsDir fs dir) :
    f.listed s.fs dir = f.listed fs dir := by
  rw [TreeFails.listed, TreeFails.listed, ← h.dirs.listing hdir]
  rfl

theorem SweepKept.enters (h : SweepKept f fs now s) (dir : DirPath) (d : Dirent) :
    f.enters s.fs dir d = f.enters fs dir d := by
  simp only [TreeFails.enters, h.dirs.isDir]

theorem SweepKept.opens (h : SweepKept f fs now s) (path : DirPath) :
    f.Opens s.fs path ↔ f.Opens fs path := by
  rw [TreeFails.Opens, TreeFails.Opens, h.dirs.isDir]

theorem isDir_of_enters {dir : DirPath} {d : Dirent} (h : f.enters fs dir d = true) :
    IsDir fs (dir ++ [d.name]) := Option.map_eq_some_iff.mp (enters_iff.mp h).2.2

theorem reaches_isDir {dir x : DirPath} {k : ℕ} (hdir : IsDir fs dir)
    (h : Reaches (f.tree fs) dir k x) : IsDir fs x := by
  induction h with
  | here => exact hdir
  | step ha _ ih =>
    obtain ⟨d, -, -, rfl, henters⟩ := mem_entries.mp ha
    exact ih (isDir_of_enters henters)

theorem SweepKept.reaches (h : SweepKept f fs now s) {dir x : DirPath} (hdir : IsDir fs dir)
    {k : ℕ} : Reaches (f.tree s.fs) dir k x ↔ Reaches (f.tree fs) dir k x := by
  induction k generalizing dir with
  | zero =>
    constructor
    · rintro ⟨⟩
      exact .here _
    · rintro ⟨⟩
      exact .here _
  | succ k ih =>
    have hentries (e : FileName × Bool) :
        e ∈ (f.tree s.fs).entries dir ↔ e ∈ (f.tree fs).entries dir := by
      simp only [mem_entries, h.listed hdir, h.enters]
    have hsub {a : FileName} (ha : (a, true) ∈ (f.tree fs).entries dir) : IsDir fs (dir ++ [a]) := by
      obtain ⟨d, -, -, rfl, henters⟩ := mem_entries.mp ha
      exact isDir_of_enters henters
    constructor
    · intro hreach
      cases hreach with
      | step ha hreach =>
        rw [hentries] at ha
        exact .step ha ((ih (hsub ha)).mp hreach)
    · intro hreach
      cases hreach with
      | step ha hreach => exact .step ((hentries _).mpr ha) ((ih (hsub ha)).mpr hreach)

theorem SweepRoot.isDir {start : DirPath} (h : SweepRoot f fs start) : IsDir fs start := by
  cases h with
  | app _ _ _ _ _ hcache => exact Option.map_eq_some_iff.mp hcache.2
  | temp _ hopens => exact Option.map_eq_some_iff.mp hopens.2

theorem SweepKept.sweepRoot (h : SweepKept f fs now s) (start : DirPath) :
    SweepRoot f s.fs start ↔ SweepRoot f fs start := by
  constructor
  · intro hstart
    cases hstart with
    | @app root hroot hopens d hd hdot henters hcache =>
      rw [h.opens] at hopens hcache
      rw [h.listed (Option.map_eq_some_iff.mp hopens.2)] at hd
      rw [h.enters] at henters
      exact .app hroot hopens hd hdot henters hcache
    | temp hpath hopens => exact .temp hpath ((h.opens _).mp hopens)
  · intro hstart
    cases hstart with
    | @app root hroot hopens d hd hdot henters hcache =>
      rw [← h.listed (Option.map_eq_some_iff.mp hopens.2)] at hd
      rw [← h.enters] at henters
      exact .app hroot ((h.opens _).mpr hopens) hd hdot henters ((h.opens _).mpr hcache)
    | temp hpath hopens => exact .temp hpath ((h.opens _).mpr hopens)

theorem SweepKept.due_iff (h : SweepKept f fs now s) {later : ℤ} :
    SweepDueFile f s.fs later u ↔
      SweepDueFile f fs later u ∧ s.fs (u.dir ++ [u.name]) = fs (u.dir ++ [u.name]) := by
  constructor
  · rintro ⟨⟨start, hstart, depth, hle, hreach⟩, hnot, hlisted, i, hi, hold⟩
    rw [h.sweepRoot] at hstart
    rw [h.reaches hstart.isDir] at hreach
    rw [h.listed (reaches_isDir hstart.isDir hreach)] at hlisted
    have hthere := h.stale hi
    exact ⟨⟨⟨start, hstart, depth, hle, hreach⟩, hnot, hlisted, i, hthere, hold⟩,
      hi.trans hthere.symm⟩
  · rintro ⟨⟨⟨start, hstart, depth, hle, hreach⟩, hnot, hlisted, i, hi, hold⟩, hsame⟩
    rw [← h.listed (reaches_isDir hstart.isDir hreach)] at hlisted
    rw [← h.reaches hstart.isDir] at hreach
    rw [← h.sweepRoot] at hstart
    exact ⟨⟨start, hstart, depth, hle, hreach⟩, hnot, hlisted, i, hsame.trans hi, hold⟩

end Results

/-- A sweep that nothing interrupts unlinks exactly what is due, and nothing else is gone. -/
theorem sweep_exact {f : TreeFails} {env : SweepEnv} (hfails : env.fails = f.sys)
    (hlists : ∀ dir, f.lists dir = none) {tvSec : ℤ} (hepoch : sweepEpoch ≤ u64 tvSec)
    (fs : FileSystem) (hend : (pgSweepRun env tvSec fs).user.intr = false) :
    (∀ u, u ∈ (pgSweepRun env tvSec fs).unlinks ↔ SweepDueFile f fs (u64 tvSec) u) ∧
      ((∀ n path, f.unlinks n path = none) → ∀ path i,
        (pgSweepRun env tvSec fs).fs path = some i ↔
          fs path = some i ∧ ¬∃ u, SweepDueFile f fs (u64 tvSec) u ∧ u.dir ++ [u.name] = path) := by
  have hrun := sweepRun_sweeps hfails hlists hepoch fs
  have hexact (u : Unlink) :
      u ∈ (pgSweepRun env tvSec fs).unlinks ↔ SweepDueFile f fs (u64 tvSec) u := by
    refine ⟨fun hu => ?_, hrun.all hend u⟩
    exact (hrun.only u hu).resolve_left (by simp [sweepStart, FsState.unlinks])
  refine ⟨hexact, fun hunlinks path i => ⟨fun hi => ⟨hrun.kept.stale hi, ?_⟩, ?_⟩⟩
  · rintro ⟨u, hdue, rfl⟩
    rw [hrun.kept.removed hunlinks u ((hexact u).mpr hdue)] at hi
    exact absurd hi (by simp)
  · rintro ⟨hi, hnot⟩
    rcases hrun.kept.files path with heq | ⟨-, u, hu, -, hpath⟩
    · exact heq.trans hi
    · exact absurd ⟨u, (hexact u).mp hu, hpath⟩ hnot

/-- A later sweep finds only what has grown stale since. -/
theorem sweep_again {f : TreeFails} {env env' : SweepEnv} (hfails : env.fails = f.sys)
    (hfails' : env'.fails = f.sys) (hlists : ∀ dir, f.lists dir = none)
    (hunlinks : ∀ n path, f.unlinks n path = none) {tvSec tvSec' : ℤ}
    (hepoch : sweepEpoch ≤ u64 tvSec) (hepoch' : sweepEpoch ≤ u64 tvSec') (fs : FileSystem)
    (hend : (pgSweepRun env tvSec fs).user.intr = false) :
    (∀ u ∈ (pgSweepRun env' tvSec' (pgSweepRun env tvSec fs).fs).unlinks,
        SweepDueFile f fs (u64 tvSec') u ∧ ¬SweepDueFile f fs (u64 tvSec) u) ∧
      ((pgSweepRun env' tvSec' (pgSweepRun env tvSec fs).fs).user.intr = false →
        ∀ u, SweepDueFile f fs (u64 tvSec') u → ¬SweepDueFile f fs (u64 tvSec) u →
          u ∈ (pgSweepRun env' tvSec' (pgSweepRun env tvSec fs).fs).unlinks) := by
  have hrun := sweepRun_sweeps hfails hlists hepoch fs
  have hlater := sweepRun_sweeps hfails' hlists hepoch' (pgSweepRun env tvSec fs).fs
  constructor
  · intro u hu
    have hdue := (hlater.only u hu).resolve_left (by simp [sweepStart, FsState.unlinks])
    obtain ⟨hdue', hsame⟩ := hrun.kept.due_iff.mp hdue
    refine ⟨hdue', fun hfirst => ?_⟩
    obtain ⟨i, hi, -⟩ := hfirst.entry.stale
    rw [hi, hrun.kept.removed hunlinks u (hrun.all hend u hfirst)] at hsame
    exact absurd hsame (by simp)
  · intro hend' u hdue hfresh
    apply hlater.all hend' u
    refine hrun.kept.due_iff.mpr ⟨hdue, ?_⟩
    rcases hrun.kept.files (u.dir ++ [u.name]) with heq | ⟨-, u', hu', hfile, hpath⟩
    · exact heq
    · obtain rfl := unlink_eq hfile hdue.entry.notDir hpath
      exact absurd ((hrun.only u' hu').resolve_left (by simp [sweepStart, FsState.unlinks])) hfresh

def nothingFails : TreeFails where
  opens _ := none
  lists _ := none
  unlinks _ _ := none
  files _ _ := none

theorem nothingFails_sys : quietEnv.fails = nothingFails.sys := by
  funext n call
  cases call <;> rfl

theorem sweep_exact_cacheTree :
    SweepDueFile nothingFails cacheTree (u64 1800000000)
      ⟨[dirData, dirData, fileName ['p'], dirCache], fileName ['f'], false⟩ :=
  ((sweep_exact nothingFails_sys (fun _ => rfl) (by decide) cacheTree (by decide +kernel)).1
    ⟨[dirData, dirData, fileName ['p'], dirCache], fileName ['f'], false⟩).mp (by decide +kernel)

/-- A second file in the cache, a day old only by the later sweep. -/
def agingTree : FileSystem := fun path =>
  let cache := [dirData, dirData, fileName ['p'], dirCache]
  let young := fileName ['g']
  if path = cache then some ⟨.dir, 0, [[⟨fileName ['f'], .reg⟩, ⟨young, .reg⟩]], fits64_zero⟩
  else if path = cache ++ [young] then some ⟨.reg, 1799950000, [], by decide⟩
  else cacheTree path

theorem sweep_again_agingTree :
    let first := pgSweepRun quietEnv 1800000000 agingTree
    let cache := [dirData, dirData, fileName ['p'], dirCache]
    first.unlinks = [⟨cache, fileName ['f'], false⟩] ∧
      SweepDueFile nothingFails agingTree (u64 1800100000) ⟨cache, fileName ['g'], false⟩ ∧
      ¬SweepDueFile nothingFails agingTree (u64 1800000000) ⟨cache, fileName ['g'], false⟩ :=
  ⟨by decide +kernel, (sweep_again nothingFails_sys nothingFails_sys (fun _ => rfl) (fun _ _ => rfl)
    (show sweepEpoch ≤ u64 1800000000 by decide) (show sweepEpoch ≤ u64 1800100000 by decide)
    agingTree (by decide +kernel)).1 _ (by decide +kernel)⟩

end Pgov
