import Pgov.FdTable
import Pgov.Sweep

namespace Pgov

open FdTable FdTable.Table

variable {κ : Type*} [DecidableEq κ]

/-- What one step of a walk does to the descriptors: `stack` names what is open, the last opened
first. -/
def fsFd (k : κ) (open_ : Table κ × List (DirPath × ℤ)) : FsEvent → Table κ × List (DirPath × ℤ)
  | .opens path true => (open_.1.openFd k, (path, open_.1.fresh) :: open_.2)
  | .closes path =>
    match open_.2.find? (·.1 = path) with
    | some entry => (open_.1.close entry.2, open_.2.erase entry)
    | none => (open_.1.close (-1), open_.2)
  | _ => open_

def fsFds (k : κ) (t : Table κ) (trace : List FsEvent) : Table κ × List (DirPath × ℤ) :=
  trace.foldl (fsFd k) (t, [])

def openDirs : ℕ → DirPath → List DirPath → List DirPath
  | 0, _, outer => outer
  | n + 1, dir, outer => dir :: openDirs n dir.dropLast outer

def Opens (t : Table κ) (k : κ) (paths : List DirPath) (trace : List FsEvent) : Prop :=
  Stacked t k (fsFds k t trace).1 (fsFds k t trace).2 ∧ (fsFds k t trace).2.map Prod.fst = paths

section Traces

variable {t : Table κ} {k : κ} {paths : List DirPath} {trace : List FsEvent}

theorem fsFds_append (k : κ) (t : Table κ) (trace : List FsEvent) (e : FsEvent) :
    fsFds k t (trace ++ [e]) = fsFd k (fsFds k t trace) e := by
  simp only [fsFds, List.foldl_append, List.foldl_cons, List.foldl_nil]

theorem Opens.opens (h : Opens t k paths trace) (path : DirPath) :
    Opens t k (path :: paths) (trace ++ [.opens path true]) := by
  obtain ⟨hstack, hpaths⟩ := h
  rw [Opens, fsFds_append]
  exact ⟨hstack.push path, congrArg (path :: ·) hpaths⟩

theorem Opens.closes {path : DirPath} (h : Opens t k (path :: paths) trace) :
    Opens t k paths (trace ++ [.closes path]) := by
  obtain ⟨hstack, hpaths⟩ := h
  rw [Opens, fsFds_append]
  generalize fsFds k t trace = state at hstack hpaths
  obtain ⟨kern, stack⟩ := state
  cases stack with
  | nil => exact absurd hpaths (by simp)
  | cons entry stack =>
    obtain ⟨hpath, hrest⟩ := List.cons.inj hpaths
    have hfind : (entry :: stack).find? (·.1 = path) = some entry := by
      simp [show entry.1 = path from hpath]
    simp only [fsFd, hfind, List.erase_cons_head]
    exact ⟨hstack.pop, hrest⟩

def FsEvent.holdsFds : FsEvent → Bool
  | .opens _ ok => !ok
  | .closes _ => false
  | _ => true

theorem Opens.other (h : Opens t k paths trace) {e : FsEvent} (he : e.holdsFds = true) :
    Opens t k paths (trace ++ [e]) := by
  have hsame : fsFd k (fsFds k t trace) e = fsFds k t trace := by
    cases e with
    | opens path ok => cases ok with
      | true => exact absurd he (by simp [FsEvent.holdsFds])
      | false => rfl
    | closes path => exact absurd he (by simp [FsEvent.holdsFds])
    | _ => rfl
  rw [Opens, fsFds_append, hsame]
  exact h

end Traces

section Sweep

variable {t : Table κ} {k : κ} {paths : List DirPath} {s : SweepState} (env : SweepEnv)

abbrev SweepOpens (t : Table κ) (k : κ) (paths : List DirPath) (s : SweepState) : Prop :=
  Opens t k paths s.trace

theorem psiReadRaw_opens (h : SweepOpens t k paths s) :
    SweepOpens t k paths (pgPsiReadRaw env s).1 := by
  rw [pgPsiReadRaw]
  split
  · exact h.other (e := .opens psiPath false) rfl
  · exact (h.opens psiPath).closes

theorem chkIntr_opens (h : SweepOpens t k paths s) :
    SweepOpens t k paths (sweepChkIntr env s).1 := by
  rw [sweepChkIntr]
  split
  · exact h
  simp only
  split
  · exact h
  have hprobe : SweepOpens t k paths (sweepProbe env s.count).1 := by
    rw [sweepProbe]
    split
    · exact h
    · exact psiReadRaw_opens env (s := s.count.tick) h
  have hlog := hprobe.other (e := .probe s.calls) rfl
  split
  · exact hlog
  · exact hlog

theorem sweepCb_opens (h : SweepOpens t k paths s) (dir : DirPath) (name : FileName)
    (type : DirentType) (depth : ℕ) :
    SweepOpens t k paths (sweepCb env s dir name type depth).1 := by
  have hchk := chkIntr_opens env h
  simp only [sweepCb]
  generalize sweepChkIntr env s = chk at hchk
  obtain ⟨s₁, intr⟩ := chk
  split
  · exact hchk
  split
  · exact hchk
  split
  · next s₂ hstat =>
    obtain ⟨rfl, -⟩ := Prod.mk.inj hstat
    exact hchk
  · next s₂ st hstat =>
    obtain ⟨rfl, -⟩ := Prod.mk.inj hstat
    exact hchk

theorem openDir_opens {fails : SysFails} {path sub : DirPath} (h : SweepOpens t k paths s)
    (hok : openResult fails s path = .ok sub) :
    SweepOpens t k (path :: paths) (openDir fails s path).1 := by
  have hlog := h.opens path
  rw [openDir, hok]
  exact hlog

theorem openDir_refused {fails : SysFails} {path : DirPath} (h : SweepOpens t k paths s)
    (hok : (openResult fails s path).isOk = false) :
    SweepOpens t k paths (openDir fails s path).1 := by
  rw [openDir, hok]
  exact h.other rfl

theorem openDir_error {fails : SysFails} {path : DirPath} {ret : ℤ} (h : SweepOpens t k paths s)
    (hret : openResult fails s path = .error ret) :
    SweepOpens t k paths (openDir fails s path).1 := by
  apply openDir_refused h
  rw [hret]
  rfl

theorem walk_opens (t : Table κ) (k : κ) (outer : List DirPath) :
    WalkRule env.fails (sweepCb env) maxSweepDepth
      (fun n dir => SweepOpens t k (openDirs n dir outer))
      (fun n dir => SweepOpens t k (openDirs n dir outer)) where
  done h := h
  tick h := h
  visit := by
    intro n dir s h _ name _ type
    have hvisit : SweepOpens t k (openDirs n dir outer) (s.log (.visit dir name)) := h.other rfl
    have hcb := sweepCb_opens env hvisit dir name type n
    refine ⟨hcb, fun _ => hcb, fun _ => ?_⟩
    exact hcb.other rfl
  refused h _ hok := openDir_refused h hok
  opened := by
    intro n dir s h name _ hok
    rw [openDirs, List.dropLast_concat]
    exact openDir_opens h hok
  closed := by
    intro n dir s₀ s name _ h
    rw [openDirs, List.dropLast_concat] at h
    exact h.closes
  closed_done := by
    intro n dir s₀ s name _ h
    rw [openDirs, List.dropLast_concat] at h
    exact h.closes

theorem walkFd_opens (h : SweepOpens t k paths s) (dir : DirPath) :
    SweepOpens t k paths (pgFsWalkFd env.fails (sweepCb env) maxSweepDepth s dir).1 :=
  ((walk_opens env t k paths).walkFd dir s h).1

theorem sweepPackage_opens (h : SweepOpens t k paths s) (root : DirPath) (pkg : FileName) :
    SweepOpens t k paths (sweepPackage env s root pkg) := by
  rw [sweepPackage, openat]
  split
  · next s₁ ret hopen =>
    obtain ⟨rfl, hret⟩ := Prod.mk.inj hopen
    exact openDir_error h hret
  · next s₁ dir hopen =>
    obtain ⟨rfl, hret⟩ := Prod.mk.inj hopen
    have hpkg := openDir_opens h hret
    obtain rfl := openResult_path hret
    rw [openat]
    split
    · next s₂ ret hopen' =>
      obtain ⟨rfl, hret'⟩ := Prod.mk.inj hopen'
      exact (openDir_error hpkg hret').closes
    · next s₂ cache hopen' =>
      obtain ⟨rfl, hret'⟩ := Prod.mk.inj hopen'
      have hcache := openDir_opens hpkg hret'
      obtain rfl := openResult_path hret'
      exact (walkFd_opens env hcache _).closes.closes

theorem direntType_opens (fails : SysFails) (h : SweepOpens t k paths s) (root : DirPath)
    (d : Dirent) : SweepOpens t k paths (direntType fails root s d).1 := by
  rw [direntType]
  split
  · exact h
  · exact h

theorem sweepProcessDirent_opens (h : SweepOpens t k paths s) (root : DirPath) (d : Dirent) :
    SweepOpens t k paths (sweepProcessDirent env root s d) := by
  have hchk := chkIntr_opens env (s := s.log (.entry root d.name)) (h.other rfl)
  rw [sweepProcessDirent]
  generalize sweepChkIntr env _ = chk at hchk
  obtain ⟨s₁, intr⟩ := chk
  simp only
  split
  · exact hchk
  split
  · exact hchk
  have htyped := direntType_opens env.fails hchk root d
  split
  · exact sweepPackage_opens env htyped root d.name
  · exact htyped

theorem sweepAppRoot_opens (h : SweepOpens t k paths s) (root : DirPath) :
    SweepOpens t k paths (sweepAppRoot env s root) := by
  rw [sweepAppRoot]
  split
  · exact h
  split
  · next s₁ ret hopen =>
    obtain ⟨rfl, hret⟩ := Prod.mk.inj hopen
    exact openDir_error h hret
  · next s₁ dir hopen =>
    obtain ⟨rfl, hret⟩ := Prod.mk.inj hopen
    have hroot := openDir_opens h hret
    obtain rfl := openResult_path hret
    refine Opens.closes (walkListing_keeps (fun _ hs => hs) (fun _ hs => hs) ?_ _ 0 _ _ hroot).1
    intro d s hs
    have hstep := sweepProcessDirent_opens env hs dir d
    exact ⟨hstep, fun _ => hstep⟩

theorem sweepTempPath_opens (h : SweepOpens t k paths s) (path : DirPath) :
    SweepOpens t k paths (sweepTempPath env s path) := by
  rw [sweepTempPath]
  split
  · exact h
  rw [pgFsWalk]
  split
  · next s₁ ret hopen =>
    obtain ⟨rfl, hret⟩ := Prod.mk.inj hopen
    exact openDir_error h hret
  · next s₁ dir hopen =>
    obtain ⟨rfl, hret⟩ := Prod.mk.inj hopen
    have hdir := openDir_opens h hret
    obtain rfl := openResult_path hret
    exact (walkFd_opens env hdir _).closes

theorem foldl_opens {step : SweepState → DirPath → SweepState}
    (hstep : ∀ s path, SweepOpens t k paths s → SweepOpens t k paths (step s path))
    (roots : List DirPath) (h : SweepOpens t k paths s) :
    SweepOpens t k paths (roots.foldl step s) := by
  induction roots generalizing s with
  | nil => exact h
  | cons root roots ih => exact ih (hstep s root h)

theorem sweepRun_fds (k : κ) (t : Table κ) (tvSec : ℤ) (fs : FileSystem) :
    (fsFds k t (pgSweepRun env tvSec fs).trace).1 = t := by
  have hstart : Opens t k [] [] := ⟨Stacked.base, rfl⟩
  suffices hend : SweepOpens t k [] (pgSweepRun env tvSec fs) by
    obtain ⟨hstack, hpaths⟩ := hend
    rw [List.map_eq_nil_iff.mp hpaths] at hstack
    exact hstack.eq_base
  have hchk := chkIntr_opens env (t := t) (k := k)
    (s := { fs := fs, calls := 0, trace := [],
            user := { nowSec := FixedWidth.u64 tvSec, nrFiles := intrMask, intr := false } }) hstart
  simp only [pgSweepRun]
  split
  · exact hstart
  generalize sweepChkIntr env _ = chk at hchk
  obtain ⟨s, intr⟩ := chk
  simp only
  split
  · exact hchk
  · have hraised : SweepOpens t k [] (s.log (.uclamp uclampUnrestricted)) := hchk.other rfl
    have happs := foldl_opens (fun _ root hs => sweepAppRoot_opens env hs root) appRoots hraised
    exact (foldl_opens (fun _ path hs => sweepTempPath_opens env hs path) tempPaths happs).other rfl

end Sweep

end Pgov
