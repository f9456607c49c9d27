import Pgov.FixedWidth

namespace Pgov

open FixedWidth

abbrev FileName := List UInt8

abbrev DirPath := List FileName

inductive FileType
  | reg
  | dir
  | lnk
  | other
  deriving DecidableEq, Repr

inductive DirentType
  | unknown
  | reg
  | dir
  | lnk
  | other
  deriving DecidableEq, Repr

structure Dirent where
  name : FileName
  type : DirentType
  deriving DecidableEq, Repr

/-- `listing` is what successive `getdents64` calls on a directory return. -/
structure Inode where
  type : FileType
  mtime : ℤ
  listing : List (List Dirent)
  mtime_fits : Fits 64 mtime

abbrev FileSystem := DirPath → Option Inode

structure Unlink where
  dir : DirPath
  name : FileName
  removeDir : Bool
  deriving DecidableEq, Repr

/-- What a walk or a sweep does, in order: an entry handed to the callback or taken up from an app
root, a path opened or closed, an `unlinkat`, an interruption probe, an uclamp request. -/
inductive FsEvent
  | visit (dir : DirPath) (name : FileName)
  | entry (root : DirPath) (name : FileName)
  | opens (path : DirPath) (ok : Bool)
  | closes (path : DirPath)
  | unlink (u : Unlink)
  | probe (call : ℕ)
  | uclamp (ceiling : ℕ)
  deriving DecidableEq, Repr

def FsEvent.unlink? : FsEvent → Option Unlink
  | .unlink u => some u
  | _ => none

structure FsState (σ : Type) where
  fs : FileSystem
  calls : ℕ
  trace : List FsEvent
  user : σ

def FsState.log {σ : Type} (s : FsState σ) (e : FsEvent) : FsState σ :=
  { s with trace := s.trace ++ [e] }

def FsState.unlinks {σ : Type} (s : FsState σ) : List Unlink := s.trace.filterMap FsEvent.unlink?

inductive FsAct
  | keep
  | delete
  | stop
  deriving DecidableEq, Repr

/-- The system calls that can fail. `k` counts the `getdents64` calls on one open directory. -/
inductive SysCall
  | fstatat (path : DirPath)
  | openDir (path : DirPath)
  | getdents (dir : DirPath) (k : ℕ)
  | unlinkat (path : DirPath)
  | openFile (path : DirPath)
  deriving DecidableEq, Repr

abbrev SysFails := ℕ → SysCall → Option ℕ+

abbrev FsCb (σ : Type) := FsState σ → DirPath → FileName → DirentType → ℕ → FsState σ × FsAct

def ecanceled : ℤ := 125
def enoent : ℤ := 2
def enotdir : ℤ := 20
def eloop : ℤ := 40

def dot : FileName := [46]
def dotdot : FileName := [46, 46]

def resolve (dir : DirPath) (name : FileName) : DirPath :=
  if name = dot then dir else if name = dotdot then dir.dropLast else dir ++ [name]

section Syscalls

variable {σ : Type} (fails : SysFails)

def FsState.tick (s : FsState σ) : FsState σ := { s with calls := s.calls + 1 }

def fstatat (s : FsState σ) (dir : DirPath) (name : FileName) : FsState σ × Option Inode :=
  let path := resolve dir name
  (s.tick, if fails s.calls (.fstatat path) = none then s.fs path else none)

def openResult (s : FsState σ) (path : DirPath) : Except ℤ DirPath :=
  match fails s.calls (.openDir path) with
  | some errno => .error (-(errno : ℕ))
  | none =>
    match (s.fs path).map Inode.type with
    | none => .error (-enoent)
    | some .dir => .ok path
    | some .lnk => .error (-eloop)
    | some _ => .error (-enotdir)

def openDir (s : FsState σ) (path : DirPath) : FsState σ × Except ℤ DirPath :=
  (s.tick.log (.opens path (openResult fails s path).isOk), openResult fails s path)

def openat (s : FsState σ) (dir : DirPath) (name : FileName) : FsState σ × Except ℤ DirPath :=
  openDir fails s (resolve dir name)

def unlinkat (s : FsState σ) (dir : DirPath) (name : FileName) (removeDir : Bool) : FsState σ :=
  let path := resolve dir name
  let removable := (s.fs path).map fun i => decide (i.type = .dir) == removeDir
  { s.tick.log (.unlink ⟨dir, name, removeDir⟩) with
    fs :=
      if fails s.calls (.unlinkat path) = none ∧ removable = some true then
        Function.update s.fs path none
      else s.fs }

end Syscalls

section Walker

variable {σ : Type} (fails : SysFails)

def direntType (dir : DirPath) (s : FsState σ) (d : Dirent) : FsState σ × DirentType :=
  if d.type = .unknown then
    let (s, st) := fstatat fails s dir d.name
    (s, if st.map Inode.type = some .dir then .dir else d.type)
  else (s, d.type)

def fsDirent (cb : FsCb σ) (curDepth : ℕ) (descend : FsState σ → DirPath → FsState σ × ℤ)
    (dir : DirPath) (s : FsState σ) (d : Dirent) : FsState σ × ℤ :=
  if d.name = dot ∨ d.name = dotdot then (s, 0)
  else if d.type = .lnk then (s, 0)
  else
    let (s, dtype) := direntType fails dir s d
    let (s, act) := cb (s.log (.visit dir d.name)) dir d.name dtype curDepth
    match act with
    | .stop => (s, -ecanceled)
    | .delete => (unlinkat fails s dir d.name (dtype = .dir), 0)
    | .keep =>
      if dtype = .dir then
        match openat fails s dir d.name with
        | (s, .error _) => (s, 0)
        | (s, .ok sub) =>
          let (s, stop) := descend s sub
          (s.log (.closes sub), stop)
      else (s, 0)

def walkEntries (step : FsState σ → Dirent → FsState σ × ℤ) :
    FsState σ → List Dirent → FsState σ × ℤ
  | s, [] => (s, 0)
  | s, d :: ds =>
    let (s, ret) := step s d
    if ret ≠ 0 then (s, ret) else walkEntries step s ds

/-- The `getdents64` loop from the `k`th call on, over what the directory still lists. -/
def walkListing (step : FsState σ → Dirent → FsState σ × ℤ) (dir : DirPath) :
    ℕ → FsState σ → List (List Dirent) → FsState σ × ℤ
  | k, s, [] =>
    (s.tick, ((fails s.calls (.getdents dir k)).map fun errno => -((errno : ℕ) : ℤ)).getD 0)
  | k, s, ds :: listing =>
    match fails s.calls (.getdents dir k) with
    | some errno => (s.tick, -(errno : ℕ))
    | none =>
      if ds = [] then (s.tick, 0)
      else
        let (s, ret) := walkEntries step s.tick ds
        if ret ≠ 0 then (s, ret) else walkListing step dir (k + 1) s listing

def listingOf (s : FsState σ) (dir : DirPath) : List (List Dirent) :=
  ((s.fs dir).map Inode.listing).getD []

/-- `walk` with `left` levels left to the depth limit: `cur_depth` is `maxDepth + 1 - left`. -/
def fsWalk (cb : FsCb σ) (maxDepth : ℕ) : ℕ → FsState σ → DirPath → FsState σ × ℤ
  | 0, s, _ => (s, 0)
  | left + 1, s, dir =>
    walkListing fails (fsDirent fails cb (maxDepth - left) (fsWalk cb maxDepth left) dir) dir 0 s
      (listingOf s dir)

def pgFsWalkFd (cb : FsCb σ) (maxDepth : ℕ) (s : FsState σ) (dir : DirPath) : FsState σ × ℤ :=
  fsWalk fails cb maxDepth (maxDepth + 1) s dir

def pgFsWalk (cb : FsCb σ) (maxDepth : ℕ) (s : FsState σ) (path : DirPath) : FsState σ × ℤ :=
  match openDir fails s path with
  | (s, .error ret) => (s, ret)
  | (s, .ok dir) =>
    let (s, ret) := pgFsWalkFd fails cb maxDepth s dir
    (s.log (.closes dir), ret)

end Walker

/-- Only what was there at the start is there, every `unlinkat` so far is one that `P` allows, and
the callback's context satisfies `I`. -/
structure Sound {σ : Type} (fs₀ : FileSystem) (P : Unlink → Prop) (I : σ → Prop)
    (s : FsState σ) : Prop where
  shrinks : ∀ {path i}, s.fs path = some i → fs₀ path = some i
  unlinks : ∀ u ∈ s.unlinks, P u
  user : I s.user

def IsDir (fs : FileSystem) (path : DirPath) : Prop := ∃ i, fs path = some i ∧ i.type = .dir

theorem resolve_entry {name : FileName} (h : ¬(name = dot ∨ name = dotdot)) (dir : DirPath) :
    resolve dir name = dir ++ [name] := by
  rw [not_or] at h
  rw [resolve, if_neg h.1, if_neg h.2]

section Rules

variable {σ : Type} {fails : SysFails} {fs₀ : FileSystem} {P : Unlink → Prop} {I : σ → Prop}
  {s : FsState σ}

theorem Sound.tick (h : Sound fs₀ P I s) : Sound fs₀ P I s.tick := ⟨h.shrinks, h.unlinks, h.user⟩

theorem Sound.log (h : Sound fs₀ P I s) {e : FsEvent} (he : ∀ u, e = .unlink u → P u) :
    Sound fs₀ P I (s.log e) := by
  refine ⟨h.shrinks, ?_, h.user⟩
  intro u hu
  rw [FsState.unlinks, FsState.log, List.filterMap_append, List.mem_append] at hu
  rcases hu with hu | hu
  · exact h.unlinks u hu
  · cases e <;> simp [FsEvent.unlink?] at hu
    exact hu ▸ he _ rfl

theorem Sound.fstatat (h : Sound fs₀ P I s) {dir : DirPath} {name : FileName} {i : Inode}
    (hi : (fstatat fails s dir name).2 = some i) : fs₀ (resolve dir name) = some i := by
  simp only [Pgov.fstatat] at hi
  split at hi
  · exact h.shrinks hi
  · exact absurd hi (by simp)

theorem Sound.opened (fails : SysFails) (h : Sound fs₀ P I s) (path : DirPath) :
    Sound fs₀ P I (openDir fails s path).1 := h.tick.log (by simp)

theorem Sound.openResult (h : Sound fs₀ P I s) {path sub : DirPath}
    (hsub : openResult fails s path = .ok sub) : IsDir fs₀ path := by
  rw [Pgov.openResult] at hsub
  split at hsub
  · exact absurd hsub (by simp)
  · split at hsub
    · exact absurd hsub (by simp)
    · next htype =>
      obtain ⟨i, hi, ht⟩ := Option.map_eq_some_iff.mp htype
      exact ⟨i, h.shrinks hi, ht⟩
    · exact absurd hsub (by simp)
    · exact absurd hsub (by simp)

theorem Sound.unlinkat (h : Sound fs₀ P I s) {dir : DirPath} {name : FileName} {removeDir : Bool}
    (hP : P ⟨dir, name, removeDir⟩) : Sound fs₀ P I (unlinkat fails s dir name removeDir) := by
  have hlog : Sound fs₀ P I (s.tick.log (.unlink ⟨dir, name, removeDir⟩)) := by
    apply h.tick.log
    rintro u ⟨⟩
    exact hP
  refine ⟨?_, hlog.unlinks, hlog.user⟩
  intro path i hi
  simp only [Pgov.unlinkat] at hi
  split at hi
  · by_cases hp : path = resolve dir name
    · rw [hp, Function.update_self] at hi
      exact absurd hi (by simp)
    · rw [Function.update_of_ne hp] at hi
      exact h.shrinks hi
  · exact h.shrinks hi

end Rules

/-- From a state with `Run`, `f` ends with `Done`, and with `Run` again where it returns 0. -/
def Keeps {σ : Type} (Run Done : FsState σ → Prop) (f : FsState σ → FsState σ × ℤ) : Prop :=
  ∀ s, Run s → Done (f s).1 ∧ ((f s).2 = 0 → Run (f s).1)

/-- What carries a walk: `Run n dir` holds while the directory `dir` is walked at depth `n`, and
`Done n dir` once that walk has returned, stopped or not. -/
structure WalkRule {σ : Type} (fails : SysFails) (cb : FsCb σ) (maxDepth : ℕ)
    (Run Done : ℕ → DirPath → FsState σ → Prop) : Prop where
  done : ∀ {n dir s}, Run n dir s → Done n dir s
  tick : ∀ {n dir s}, Run n dir s → Run n dir s.tick
  visit : ∀ {n dir s}, Run n dir s → n ≤ maxDepth → ∀ {name}, ¬(name = dot ∨ name = dotdot) →
    ∀ type, Done n dir (cb (s.log (.visit dir name)) dir name type n).1 ∧
      ((cb (s.log (.visit dir name)) dir name type n).2 = .keep →
        Run n dir (cb (s.log (.visit dir name)) dir name type n).1) ∧
      ((cb (s.log (.visit dir name)) dir name type n).2 = .delete →
        Run n dir (unlinkat fails (cb (s.log (.visit dir name)) dir name type n).1 dir name
          (type = .dir)))
  refused : ∀ {n dir s}, Run n dir s → ∀ name, (openResult fails s (dir ++ [name])).isOk = false →
    Run n dir (openDir fails s (dir ++ [name])).1
  opened : ∀ {n dir s}, Run n dir s → ∀ {name}, ¬(name = dot ∨ name = dotdot) →
    openResult fails s (dir ++ [name]) = .ok (dir ++ [name]) →
    Run (n + 1) (dir ++ [name]) (openDir fails s (dir ++ [name])).1
  closed : ∀ {n dir s₀ s name}, Run n dir s₀ → Run (n + 1) (dir ++ [name]) s →
    Run n dir (s.log (.closes (dir ++ [name])))
  closed_done : ∀ {n dir s₀ s name}, Run n dir s₀ → Done (n + 1) (dir ++ [name]) s →
    Done n dir (s.log (.closes (dir ++ [name])))

section Walks

variable {σ : Type} {fails : SysFails}

theorem openResult_path {s : FsState σ} {path sub : DirPath}
    (h : openResult fails s path = .ok sub) : sub = path := by
  rw [openResult] at h
  split at h
  · exact absurd h (by simp)
  · split at h
    · exact absurd h (by simp)
    · exact (Except.ok.inj h).symm
    · exact absurd h (by simp)
    · exact absurd h (by simp)

theorem walkEntries_keeps {Run Done : FsState σ → Prop} (hdone : ∀ s, Run s → Done s)
    {step : FsState σ → Dirent → FsState σ × ℤ} (hstep : ∀ d, Keeps Run Done (step · d))
    (ds : List Dirent) : Keeps Run Done (walkEntries step · ds) := by
  induction ds with
  | nil => exact fun s h => ⟨hdone s h, fun _ => h⟩
  | cons d ds ih =>
    intro s h
    obtain ⟨hd, hr⟩ := hstep d s h
    simp only [walkEntries]
    split
    · next hne => exact ⟨hd, fun h0 => absurd h0 hne⟩
    · next heq => exact ih _ (hr (not_not.mp heq))

theorem walkListing_keeps {Run Done : FsState σ → Prop} (hdone : ∀ s, Run s → Done s)
    (htick : ∀ s, Run s → Run s.tick) {step : FsState σ → Dirent → FsState σ × ℤ}
    (hstep : ∀ d, Keeps Run Done (step · d)) (dir : DirPath) (k : ℕ)
    (listing : List (List Dirent)) : Keeps Run Done (walkListing fails step dir k · listing) := by
  induction listing generalizing k with
  | nil => exact fun s h => ⟨hdone _ (htick s h), fun _ => htick s h⟩
  | cons ds listing ih =>
    intro s h
    have ht := htick s h
    simp only [walkListing]
    split
    · exact ⟨hdone _ ht, fun _ => ht⟩
    split
    · exact ⟨hdone _ ht, fun _ => ht⟩
    obtain ⟨hd, hr⟩ := walkEntries_keeps hdone hstep ds s.tick ht
    split
    · next hne => exact ⟨hd, fun h0 => absurd h0 hne⟩
    · next heq => exact ih (k + 1) _ (hr (not_not.mp heq))

variable {cb : FsCb σ} {maxDepth : ℕ} {Run Done : ℕ → DirPath → FsState σ → Prop}

theorem WalkRule.direntType (h : WalkRule fails cb maxDepth Run Done) {n : ℕ} {dir : DirPath}
    {s : FsState σ} (hs : Run n dir s) (d : Dirent) : Run n dir (direntType fails dir s d).1 := by
  rw [Pgov.direntType]
  split
  · exact h.tick hs
  · exact hs

theorem WalkRule.dirent (h : WalkRule fails cb maxDepth Run Done) {n : ℕ} (hn : n ≤ maxDepth)
    {dir : DirPath} {descend : FsState σ → DirPath → FsState σ × ℤ}
    (hdescend : ∀ name, Keeps (Run (n + 1) (dir ++ [name])) (Done (n + 1) (dir ++ [name]))
      (descend · (dir ++ [name]))) (d : Dirent) :
    Keeps (Run n dir) (Done n dir) (fsDirent fails cb n descend dir · d) := by
  intro s hs
  simp only [fsDirent]
  split
  · exact ⟨h.done hs, fun _ => hs⟩
  split
  · exact ⟨h.done hs, fun _ => hs⟩
  next hname _ =>
  have htyped := h.direntType hs d
  generalize Pgov.direntType fails dir s d = typed at htyped
  obtain ⟨s₁, dtype⟩ := typed
  obtain ⟨hd, hkeep, hdelete⟩ := h.visit htyped hn hname dtype
  simp only
  generalize cb (s₁.log (.visit dir d.name)) dir d.name dtype n = acted at hd hkeep hdelete
  obtain ⟨s₂, act⟩ := acted
  cases act with
  | stop => exact ⟨hd, fun h0 => absurd h0 (by simp [ecanceled])⟩
  | delete =>
    have hrun := hdelete rfl
    exact ⟨h.done hrun, fun _ => hrun⟩
  | keep =>
    have hrun := hkeep rfl
    simp only at hrun ⊢
    split
    · rw [openat, resolve_entry hname]
      split
      · next s₃ ret hopen =>
        obtain ⟨rfl, hret⟩ := Prod.mk.inj hopen
        have hrefused := h.refused hrun d.name (by rw [hret]; rfl)
        exact ⟨h.done hrefused, fun _ => hrefused⟩
      · next s₃ sub hopen =>
        obtain ⟨rfl, hret⟩ := Prod.mk.inj hopen
        obtain rfl := openResult_path hret
        obtain ⟨hdone, hback⟩ := hdescend d.name _ (h.opened hrun hname hret)
        exact ⟨h.closed_done hrun hdone, fun h0 => h.closed hrun (hback h0)⟩
    · exact ⟨h.done hrun, fun _ => hrun⟩

theorem WalkRule.walk (h : WalkRule fails cb maxDepth Run Done) {left : ℕ}
    (hleft : left ≤ maxDepth + 1) (dir : DirPath) :
    Keeps (Run (maxDepth + 1 - left) dir) (Done (maxDepth + 1 - left) dir)
      (fsWalk fails cb maxDepth left · dir) := by
  induction left generalizing dir with
  | zero => exact fun s hs => ⟨h.done hs, fun _ => hs⟩
  | succ left ih =>
    have heq : maxDepth + 1 - (left + 1) = maxDepth - left := by omega
    have hnext : maxDepth + 1 - left = maxDepth - left + 1 := by omega
    rw [heq]
    intro s hs
    simp only [fsWalk]
    refine walkListing_keeps (fun s => h.done (s := s)) (fun s => h.tick (s := s)) ?_ dir 0 _ s hs
    intro d
    apply h.dirent (by omega)
    intro name
    rw [← hnext]
    exact ih (by omega) (dir ++ [name])

theorem WalkRule.walkFd (h : WalkRule fails cb maxDepth Run Done) (dir : DirPath) :
    Keeps (Run 0 dir) (Done 0 dir) (pgFsWalkFd fails cb maxDepth · dir) := by
  have hwalk := h.walk le_rfl dir
  rwa [Nat.sub_self] at hwalk

end Walks

end Pgov
