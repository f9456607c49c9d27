import Pgov.FileWalk
import Pgov.TreeWalk

namespace Pgov

open TreeWalk

abbrev Visit := DirPath × FileName

def FsEvent.visit? : FsEvent → Option Visit
  | .visit dir name => some (dir, name)
  | _ => none

def FsState.visits {σ : Type} (s : FsState σ) : List Visit := s.trace.filterMap FsEvent.visit?

structure TreeFails where
  opens : DirPath → Option ℕ+
  lists : DirPath → Option (ℕ × ℕ+)
  unlinks : ℕ → DirPath → Option ℕ+
  files : ℕ → DirPath → Option ℕ+

def TreeFails.listFails (f : TreeFails) (dir : DirPath) (k : ℕ) : Option ℕ+ :=
  (f.lists dir).bind fun fail => if fail.1 = k then some fail.2 else none

def TreeFails.sys (f : TreeFails) : SysFails := fun n call =>
  match call with
  | .fstatat _ => none
  | .openDir path => f.opens path
  | .getdents dir k => f.listFails dir k
  | .unlinkat path => f.unlinks n path
  | .openFile path => f.files n path

def readDirents (fails : ℕ → Option ℕ+) : ℕ → List (List Dirent) → List Dirent × Bool
  | k, [] => ([], (fails k).isSome)
  | k, ds :: listing =>
    if (fails k).isSome then ([], true)
    else if ds = [] then ([], false)
    else
      let (rest, failed) := readDirents fails (k + 1) listing
      (ds ++ rest, failed)

def Dirent.skipped (d : Dirent) : Bool := d.name = dot || d.name = dotdot || d.type = .lnk

/-- Whether a walk goes into an entry: it is a directory, and it can be opened. -/
def TreeFails.enters (f : TreeFails) (fs : FileSystem) (dir : DirPath) (d : Dirent) : Bool :=
  (d.type = .dir || d.type = .unknown) && (fs (dir ++ [d.name])).map Inode.type = some .dir &&
    f.opens (dir ++ [d.name]) = none

def TreeFails.entries (f : TreeFails) (fs : FileSystem) (dir : DirPath) (ds : List Dirent) :
    List (FileName × Bool) :=
  (ds.filter fun d => !d.skipped).map fun d => (d.name, f.enters fs dir d)

def dirListing (fs : FileSystem) (dir : DirPath) : List (List Dirent) :=
  ((fs dir).map Inode.listing).getD []

def TreeFails.tree (f : TreeFails) (fs : FileSystem) : PathTree FileName where
  entries dir := f.entries fs dir (readDirents (f.listFails dir) 0 (dirListing fs dir)).1
  broken dir := (readDirents (f.listFails dir) 0 (dirListing fs dir)).2

/-- An entry other than `.`, `..` and a `DT_LNK` one that is listed, at depth at most `maxDepth`,
in a directory whose ancestors and itself could be opened and were listed up to it. -/
def Due (f : TreeFails) (fs : FileSystem) (maxDepth : ℕ) (root : DirPath) (v : Visit) : Prop :=
  ∃ depth ≤ maxDepth, Reaches (f.tree fs) root depth v.1 ∧
    v.2 ∈ ((f.tree fs).entries v.1).map Prod.fst

def VisitsDue (f : TreeFails) (fs : FileSystem) (maxDepth : ℕ) (root : DirPath)
    (visits : List Visit) : Prop :=
  ∀ v, (Due f fs maxDepth root v → visits.count v = 1) ∧
    (¬Due f fs maxDepth root v → visits.count v = 0)

structure QuietCb {σ : Type} (cb : FsCb σ) : Prop where
  never_stops : ∀ s dir name type depth, (cb s dir name type depth).2 ≠ .stop
  keeps_dirs : ∀ s dir name type depth, (cb s dir name type depth).2 = .delete → type ≠ .dir
  tree : ∀ s dir name type depth, (cb s dir name type depth).1.fs = s.fs
  visits : ∀ s dir name type depth, (cb s dir name type depth).1.visits = s.visits

def DistinctNames (fs : FileSystem) : Prop :=
  ∀ dir i, fs dir = some i → (i.listing.flatten.map Dirent.name).Nodup

def SameDirs (fs₀ fs : FileSystem) : Prop :=
  ∀ path i, i.type = .dir → (fs path = some i ↔ fs₀ path = some i)

/-- One part of a walk calls the callback on `r.1`, and returns non-zero exactly where `r.2`. -/
structure Yields {σ : Type} (fs₀ : FileSystem) (s : FsState σ) (res : FsState σ × ℤ)
    (r : List Visit × Bool) : Prop where
  visits : res.1.visits = s.visits ++ r.1
  ret : res.2 = 0 ↔ r.2 = false
  dirs : SameDirs fs₀ res.1.fs

section Yields

variable {σ : Type} {fs₀ : FileSystem} {f : TreeFails} {s : FsState σ}

theorem visits_log {e : FsEvent} (he : e.visit? = none) : (s.log e).visits = s.visits := by
  simp [FsState.visits, FsState.log, he]

theorem SameDirs.isDir (h : SameDirs fs₀ s.fs) (path : DirPath) :
    (s.fs path).map Inode.type = some .dir ↔ (fs₀ path).map Inode.type = some .dir := by
  simp only [Option.map_eq_some_iff]
  constructor
  · rintro ⟨i, hi, ht⟩
    exact ⟨i, (h path i ht).mp hi, ht⟩
  · rintro ⟨i, hi, ht⟩
    exact ⟨i, (h path i ht).mpr hi, ht⟩

theorem SameDirs.listing (h : SameDirs fs₀ s.fs) {dir : DirPath} (hdir : IsDir fs₀ dir) :
    listingOf s dir = dirListing fs₀ dir := by
  obtain ⟨i, hi, ht⟩ := hdir
  rw [listingOf, dirListing, hi, (h dir i ht).mpr hi]

theorem SameDirs.unlinkat (h : SameDirs fs₀ s.fs) (fails : SysFails) (dir : DirPath)
    (name : FileName) : SameDirs fs₀ (unlinkat fails s dir name false).fs := by
  intro path i ht
  rw [← h path i ht]
  simp only [Pgov.unlinkat]
  split
  · next hremoved =>
    by_cases hp : path = resolve dir name
    · subst hp
      rw [Function.update_self]
      constructor
      · simp
      · intro hi
        have hfile := hremoved.2
        simp [hi, ht] at hfile
    · rw [Function.update_of_ne hp]
  · rfl

theorem SameDirs.openResult (h : SameDirs fs₀ s.fs) (path : DirPath) :
    (openResult f.sys s path).isOk = true ↔
      f.opens path = none ∧ (fs₀ path).map Inode.type = some .dir := by
  rw [← h.isDir, Pgov.openResult]
  simp only [TreeFails.sys]
  cases f.opens path with
  | some errno => simp [Except.isOk, Except.toBool]
  | none =>
    simp only [true_and]
    split
    · next hnone => simp [hnone, Except.isOk, Except.toBool]
    · next hdir => simp [hdir, Except.isOk, Except.toBool]
    · next hlnk => simp [hlnk, Except.isOk, Except.toBool]
    · next t hne _ hsome =>
      simp only [hsome, Except.isOk, Except.toBool, Bool.false_eq_true, Option.some.injEq, false_iff]
      rintro rfl
      exact hne rfl

theorem direntType_dir (h : SameDirs fs₀ s.fs) (dir : DirPath) {d : Dirent}
    (hname : ¬(d.name = dot ∨ d.name = dotdot)) :
    (direntType f.sys dir s d).1.fs = s.fs ∧ (direntType f.sys dir s d).1.visits = s.visits ∧
      ((direntType f.sys dir s d).2 = .dir ↔
        d.type = .dir ∨ d.type = .unknown ∧ (fs₀ (dir ++ [d.name])).map Inode.type = some .dir) := by
  rw [direntType]
  split
  · next hunknown =>
    refine ⟨rfl, rfl, ?_⟩
    simp only [fstatat, resolve_entry hname, TreeFails.sys, ↓reduceIte, h.isDir, hunknown]
    split <;> simp [*]
  · next hknown => exact ⟨rfl, rfl, by simp [hknown]⟩

variable {cb : FsCb σ}

theorem dirent_skipped {d : Dirent} (hskip : d.skipped = true) (fails : SysFails) (n : ℕ)
    (descend : FsState σ → DirPath → FsState σ × ℤ) (dir : DirPath) :
    fsDirent fails cb n descend dir s d = (s, 0) := by
  simp only [Dirent.skipped, Bool.or_eq_true, decide_eq_true_eq] at hskip
  rw [fsDirent]
  split
  · rfl
  · next hname => rw [if_pos (hskip.resolve_left hname)]

theorem dirent_yields (hcb : QuietCb cb) (h : SameDirs fs₀ s.fs) {n : ℕ} {dir : DirPath}
    {d : Dirent} (hskip : d.skipped = false) {descend : FsState σ → DirPath → FsState σ × ℤ}
    {sub : DirPath → List Visit × Bool}
    (hsub : IsDir fs₀ (dir ++ [d.name]) → ∀ s : FsState σ, SameDirs fs₀ s.fs →
      Yields fs₀ s (descend s (dir ++ [d.name])) (sub (dir ++ [d.name]))) :
    Yields fs₀ s (fsDirent f.sys cb n descend dir s d)
      (entryWalk sub dir (d.name, f.enters fs₀ dir d)) := by
  simp only [Dirent.skipped, Bool.or_eq_false_iff, decide_eq_false_iff_not] at hskip
  obtain ⟨hdots, hlnk⟩ := hskip
  have hname : ¬(d.name = dot ∨ d.name = dotdot) := not_or.mpr hdots
  rw [fsDirent, if_neg hname, if_neg hlnk]
  obtain ⟨hfs, hvisits, htype⟩ := direntType_dir (f := f) h dir hname
  generalize direntType f.sys dir s d = typed at hfs hvisits htype
  obtain ⟨s₁, dtype⟩ := typed
  simp only at hfs hvisits htype ⊢
  have hstop := hcb.never_stops (s₁.log (.visit dir d.name)) dir d.name dtype n
  have hkeep := hcb.keeps_dirs (s₁.log (.visit dir d.name)) dir d.name dtype n
  have htree := hcb.tree (s₁.log (.visit dir d.name)) dir d.name dtype n
  have hseen := hcb.visits (s₁.log (.visit dir d.name)) dir d.name dtype n
  have hlogged : (s₁.log (.visit dir d.name)).visits = s.visits ++ [(dir, d.name)] := by
    rw [← hvisits]
    simp [FsState.visits, FsState.log, FsEvent.visit?]
  rw [hlogged] at hseen
  have hdirs : SameDirs fs₀ (cb (s₁.log (.visit dir d.name)) dir d.name dtype n).1.fs := by
    rw [htree]
    change SameDirs fs₀ s₁.fs
    rwa [hfs]
  generalize cb (s₁.log (.visit dir d.name)) dir d.name dtype n = acted at hstop hkeep hseen hdirs
  obtain ⟨s₂, act⟩ := acted
  simp only at hstop hkeep hseen hdirs ⊢
  have henters : f.enters fs₀ dir d = true ↔
      dtype = .dir ∧ (openResult f.sys s₂ (dir ++ [d.name])).isOk = true := by
    rw [htype, hdirs.openResult]
    simp only [TreeFails.enters, Bool.and_eq_true, Bool.or_eq_true, decide_eq_true_eq]
    constructor
    · rintro ⟨⟨htype, hdir⟩, hopens⟩
      exact ⟨htype.imp_right fun hunknown => ⟨hunknown, hdir⟩, hopens, hdir⟩
    · rintro ⟨htype, hopens, hdir⟩
      exact ⟨⟨htype.imp_right And.left, hdir⟩, hopens⟩
  cases act with
  | stop => exact absurd rfl hstop
  | delete =>
    have hfile : dtype ≠ .dir := hkeep rfl
    have hout : f.enters fs₀ dir d = false := by
      simpa [hfile] using henters
    rw [hout, decide_eq_false hfile]
    refine ⟨?_, by simp [entryWalk], hdirs.unlinkat f.sys dir d.name⟩
    exact (visits_log (s := s₂.tick) rfl).trans hseen
  | keep =>
    simp only
    split
    · next hdir =>
      rw [openat, resolve_entry hname]
      have hopened : (openDir f.sys s₂ (dir ++ [d.name])).1.visits = s.visits ++ [(dir, d.name)] :=
        (visits_log (s := s₂.tick) rfl).trans hseen
      split
      · next s₃ ret hopen =>
        obtain ⟨rfl, hret⟩ := Prod.mk.inj hopen
        have hout : f.enters fs₀ dir d = false := by
          simpa [hret, Except.isOk, Except.toBool] using henters
        rw [hout]
        exact ⟨hopened, by simp [entryWalk], hdirs⟩
      · next s₃ path hopen =>
        obtain ⟨rfl, hret⟩ := Prod.mk.inj hopen
        obtain rfl := openResult_path hret
        have hok : (openResult f.sys s₂ (dir ++ [d.name])).isOk = true := by rw [hret]; rfl
        rw [henters.mpr ⟨hdir, hok⟩]
        obtain ⟨i, hi, ht⟩ := Option.map_eq_some_iff.mp (hdirs.openResult _ |>.mp hok).2
        have hbelow := hsub ⟨i, hi, ht⟩ (openDir f.sys s₂ (dir ++ [d.name])).1 hdirs
        refine ⟨?_, hbelow.ret, hbelow.dirs⟩
        refine (visits_log rfl).trans (hbelow.visits.trans ?_)
        rw [hopened, List.append_assoc]
        rfl
    · next hdir =>
      have hout : f.enters fs₀ dir d = false := by
        simpa [hdir] using henters
      rw [hout]
      exact ⟨hseen, by simp [entryWalk], hdirs⟩

theorem walkEntries_yields {step : FsState σ → Dirent → FsState σ × ℤ} {dir : DirPath}
    {g : FileName × Bool → List Visit × Bool}
    (hskip : ∀ (s : FsState σ) d, d.skipped = true → step s d = (s, 0))
    (hstep : ∀ (s : FsState σ) d, SameDirs fs₀ s.fs → d.skipped = false →
      Yields fs₀ s (step s d) (g (d.name, f.enters fs₀ dir d)))
    (h : SameDirs fs₀ s.fs) (ds : List Dirent) :
    Yields fs₀ s (walkEntries step s ds) (scan g (f.entries fs₀ dir ds)) := by
  induction ds generalizing s with
  | nil => exact ⟨by simp [walkEntries, TreeFails.entries, scan], by simp [walkEntries, TreeFails.entries, scan], h⟩
  | cons d ds ih =>
    simp only [walkEntries]
    cases hd : d.skipped with
    | true =>
      have hentries : f.entries fs₀ dir (d :: ds) = f.entries fs₀ dir ds := by
        simp [TreeFails.entries, hd]
      rw [hskip s d hd, hentries, if_neg (by simp)]
      exact ih h
    | false =>
      have hentries : f.entries fs₀ dir (d :: ds) =
          (d.name, f.enters fs₀ dir d) :: f.entries fs₀ dir ds := by
        simp [TreeFails.entries, hd]
      have hone := hstep s d h hd
      rw [hentries, scan]
      cases hfailed : (g (d.name, f.enters fs₀ dir d)).2 with
      | true =>
        have hret : (step s d).2 ≠ 0 := by
          rw [ne_eq, hone.ret, hfailed]
          simp
        rw [if_pos hret, if_pos rfl]
        exact ⟨hone.visits, by simp [hret], hone.dirs⟩
      | false =>
        have hret : (step s d).2 = 0 := hone.ret.mpr hfailed
        rw [if_neg (not_not.mpr hret), if_neg (by simp)]
        have hrest := ih hone.dirs
        exact ⟨by rw [hrest.visits, hone.visits, List.append_assoc], hrest.ret, hrest.dirs⟩

theorem walkListing_yields {step : FsState σ → Dirent → FsState σ × ℤ} {dir : DirPath}
    {g : FileName × Bool → List Visit × Bool}
    (hskip : ∀ (s : FsState σ) d, d.skipped = true → step s d = (s, 0))
    (hstep : ∀ (s : FsState σ) d, SameDirs fs₀ s.fs → d.skipped = false →
      Yields fs₀ s (step s d) (g (d.name, f.enters fs₀ dir d)))
    (h : SameDirs fs₀ s.fs) (k : ℕ) (listing : List (List Dirent)) :
    let r := readDirents (f.listFails dir) k listing
    let visited := scan g (f.entries fs₀ dir r.1)
    Yields fs₀ s (walkListing f.sys step dir k s listing) (visited.1, visited.2 || r.2) := by
  induction listing generalizing k s with
  | nil =>
    simp only [walkListing, readDirents, TreeFails.entries, List.filter_nil, List.map_nil, scan,
      Bool.false_or, TreeFails.sys]
    cases f.listFails dir k with
    | none => exact ⟨(List.append_nil _).symm, by simp, h⟩
    | some errno => exact ⟨(List.append_nil _).symm, by simp, h⟩
  | cons ds listing ih =>
    simp only [walkListing, readDirents]
    have hsys : f.sys s.calls (.getdents dir k) = f.listFails dir k := rfl
    rw [hsys]
    cases f.listFails dir k with
    | some errno =>
      exact ⟨by simp [TreeFails.entries, scan, FsState.visits, FsState.tick], by simp, h⟩
    | none =>
      simp only [Option.isSome_none, Bool.false_eq_true, ↓reduceIte]
      by_cases hds : ds = []
      · simp only [if_pos hds]
        exact ⟨by simp [TreeFails.entries, scan, FsState.visits, FsState.tick],
          by simp [TreeFails.entries, scan], h⟩
      simp only [if_neg hds]
      have hchunk := walkEntries_yields hskip hstep (s := s.tick) h ds
      have hsplit : f.entries fs₀ dir (ds ++ (readDirents (f.listFails dir) (k + 1) listing).1) =
          f.entries fs₀ dir ds ++
            f.entries fs₀ dir (readDirents (f.listFails dir) (k + 1) listing).1 := by
        simp [TreeFails.entries]
      rw [hsplit, scan_append]
      cases hfailed : (scan g (f.entries fs₀ dir ds)).2 with
      | true =>
        have hret : (walkEntries step s.tick ds).2 ≠ 0 := by
          rw [ne_eq, hchunk.ret, hfailed]
          simp
        rw [if_pos hret, if_pos rfl]
        exact ⟨hchunk.visits, by simp [hret, hfailed], hchunk.dirs⟩
      | false =>
        have hret : (walkEntries step s.tick ds).2 = 0 := hchunk.ret.mpr hfailed
        rw [if_neg (not_not.mpr hret), if_neg (by simp)]
        have hrest := ih hchunk.dirs (k + 1)
        refine ⟨?_, hrest.ret, hrest.dirs⟩
        rw [hrest.visits, hchunk.visits, List.append_assoc]
        rfl

theorem fsWalk_yields (hcb : QuietCb cb) (maxDepth left : ℕ) {dir : DirPath}
    (hdir : IsDir fs₀ dir) (h : SameDirs fs₀ s.fs) :
    Yields fs₀ s (fsWalk f.sys cb maxDepth left s dir) (walk (f.tree fs₀) left dir) := by
  induction left generalizing dir s with
  | zero => exact ⟨(List.append_nil _).symm, by simp [fsWalk, walk], h⟩
  | succ left ih =>
    rw [fsWalk, h.listing hdir]
    refine walkListing_yields (fun s d hskip => dirent_skipped hskip ..) ?_ h 0 _
    intro s d hs hskip
    exact dirent_yields hcb hs hskip fun hsub s hs => ih hsub hs

end Yields

theorem readDirents_initial (fails : ℕ → Option ℕ+) (k : ℕ) (listing : List (List Dirent)) :
    (readDirents fails k listing).1 <+: listing.flatten := by
  induction listing generalizing k with
  | nil => exact List.prefix_rfl
  | cons ds listing ih =>
    rw [readDirents, List.flatten_cons]
    split
    · exact List.nil_prefix
    split
    · exact List.nil_prefix
    · exact (List.prefix_append_right_inj _).mpr (ih (k + 1))

theorem entries_distinct (f : TreeFails) {fs : FileSystem} (h : DistinctNames fs) (dir : DirPath) :
    (((f.tree fs).entries dir).map Prod.fst).Nodup := by
  have hlisted : ((readDirents (f.listFails dir) 0 (dirListing fs dir)).1.map Dirent.name).Nodup := by
    have hsub := (readDirents_initial (f.listFails dir) 0 (dirListing fs dir)).sublist
    refine (hsub.map _).nodup ?_
    rw [dirListing]
    cases hi : fs dir with
    | none => simp
    | some i => exact h dir i hi
  have hnames : ((f.tree fs).entries dir).map Prod.fst =
      ((readDirents (f.listFails dir) 0 (dirListing fs dir)).1.filter
        fun d => !d.skipped).map Dirent.name := by
    simp [TreeFails.tree, TreeFails.entries]
  rw [hnames]
  exact (List.filter_sublist.map _).nodup hlisted

/-- A failing listing ends the whole walk, so exactly the trees in which nothing is left to visit
behind one are walked as they should be. -/
theorem walk_visits_due_iff {σ : Type} {cb : FsCb σ} (hcb : QuietCb cb) (f : TreeFails)
    {fs : FileSystem} (hnames : DistinctNames fs) (maxDepth : ℕ) {root : DirPath}
    (hroot : IsDir fs root) (user : σ) :
    VisitsDue f fs maxDepth root
        (pgFsWalkFd f.sys cb maxDepth ⟨fs, 0, [], user⟩ root).1.visits ↔
      Unhindered (f.tree fs) (maxDepth + 1) root := by
  have hsame : SameDirs fs fs := fun _ _ _ => Iff.rfl
  have hwalk := fsWalk_yields (f := f) (s := ⟨fs, 0, [], user⟩) hcb maxDepth
    (maxDepth + 1) hroot hsame
  have hvisits : (pgFsWalkFd f.sys cb maxDepth ⟨fs, 0, [], user⟩ root).1.visits =
      (walk (f.tree fs) (maxDepth + 1) root).1 := hwalk.visits
  rw [hvisits, ← visits_once_iff (entries_distinct f hnames)]
  have hdue (v : Visit) : Due f fs maxDepth root v ↔ v ∈ due (f.tree fs) (maxDepth + 1) root := by
    rw [show v = (v.1, v.2) from rfl, mem_due]
    simp only [Due, Nat.lt_succ_iff]
  simp only [VisitsDue, hdue]

def keepCb : FsCb Unit := fun s _ _ _ _ => (s, .keep)

theorem keepCb_quiet : QuietCb keepCb := by
  constructor <;> simp [keepCb]

def siblingTree : FileSystem := fun path =>
  if path = [] then some ⟨.dir, 0, [[⟨[100], .dir⟩, ⟨[102], .reg⟩]], FixedWidth.fits64_zero⟩
  else if path = [[100]] then some ⟨.dir, 0, [], FixedWidth.fits64_zero⟩
  else if path = [[102]] then some ⟨.reg, 0, [], FixedWidth.fits64_zero⟩
  else none

def unlistedDir : TreeFails :=
  { opens := fun _ => none
    lists := fun dir => if dir = [[100]] then some (0, Nat.toPNat' 5) else none
    unlinks := fun _ _ => none
    files := fun _ _ => none }

theorem siblingTree_distinct : DistinctNames siblingTree := by
  intro dir i hi
  simp only [siblingTree] at hi
  split_ifs at hi <;> cases hi <;> decide

theorem walk_visits_due_siblings :
    VisitsDue unlistedDir siblingTree 12 []
        (pgFsWalkFd unlistedDir.sys keepCb 12 ⟨siblingTree, 0, [], ()⟩ []).1.visits ↔
      Unhindered (unlistedDir.tree siblingTree) 13 [] :=
  walk_visits_due_iff keepCb_quiet unlistedDir siblingTree_distinct 12 ⟨_, rfl, rfl⟩ ()

theorem sibling_skipped : ¬VisitsDue unlistedDir siblingTree 12 []
    (pgFsWalkFd unlistedDir.sys keepCb 12 ⟨siblingTree, 0, [], ()⟩ []).1.visits := by
  intro h
  have hdue : Due unlistedDir siblingTree 12 [] ([], [102]) :=
    ⟨0, by decide, .here [], by decide +kernel⟩
  have hcount : (pgFsWalkFd unlistedDir.sys keepCb 12 ⟨siblingTree, 0, [], ()⟩ []).1.visits.count
      ([], [102]) = 0 := by decide +kernel
  exact absurd ((h _).1 hdue) (by rw [hcount]; decide)

end Pgov
