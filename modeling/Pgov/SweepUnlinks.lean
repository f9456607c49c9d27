import Pgov.Sweep
import Pgov.WalkVisits

namespace Pgov

open FixedWidth TreeWalk

def TreeFails.listed (f : TreeFails) (fs : FileSystem) (dir : DirPath) : List Dirent :=
  (readDirents (f.listFails dir) 0 (dirListing fs dir)).1

def TreeFails.Opens (f : TreeFails) (fs : FileSystem) (path : DirPath) : Prop :=
  f.opens path = none ∧ (fs path).map Inode.type = some .dir

def Stale (fs : FileSystem) (now : ℤ) (path : DirPath) : Prop :=
  ∃ i, fs path = some i ∧ i.type = .reg ∧ i.mtime + 86400 < now

/-- An entry that is not taken for a directory, of a regular file older than the age limit. -/
structure StaleEntry (f : TreeFails) (fs : FileSystem) (now : ℤ) (u : Unlink) : Prop where
  notDir : u.removeDir = false
  listed : ∃ d ∈ f.listed fs u.dir, d.name = u.name ∧ d.skipped = false ∧ d.type ≠ .dir
  stale : Stale fs now (u.dir ++ [u.name])

def StaleBelow (f : TreeFails) (fs : FileSystem) (now : ℤ) (n : ℕ) (dir : DirPath)
    (u : Unlink) : Prop :=
  (∃ k < n, Reaches (f.tree fs) dir k u.dir) ∧ StaleEntry f fs now u

def EntryDue (f : TreeFails) (fs : FileSystem) (now : ℤ) (sub : DirPath → Unlink → Prop)
    (dir : DirPath) (d : Dirent) (u : Unlink) : Prop :=
  d.skipped = false ∧ (u = ⟨dir, d.name, false⟩ ∧ d.type ≠ .dir ∧ Stale fs now (dir ++ [d.name]) ∨
    f.enters fs dir d = true ∧ sub (dir ++ [d.name]) u)

def IsDirent (fs : FileSystem) (dir : DirPath) (d : Dirent) : Prop :=
  d.type = .dir ∨ d.type = .unknown ∧ (fs (dir ++ [d.name])).map Inode.type = some .dir

section Levels

variable {f : TreeFails} {fs : FileSystem} {now : ℤ}

theorem enters_iff {dir : DirPath} {d : Dirent} :
    f.enters fs dir d = true ↔ IsDirent fs dir d ∧ f.Opens fs (dir ++ [d.name]) := by
  simp only [TreeFails.enters, TreeFails.Opens, IsDirent, Bool.and_eq_true, Bool.or_eq_true,
    decide_eq_true_eq]
  constructor
  · rintro ⟨⟨htype, hdir⟩, hopens⟩
    exact ⟨htype.imp_right fun hunknown => ⟨hunknown, hdir⟩, hopens, hdir⟩
  · rintro ⟨htype, hopens, hdir⟩
    exact ⟨⟨htype.imp_right And.left, hdir⟩, hopens⟩

theorem entryDue_skipped {sub : DirPath → Unlink → Prop} {dir : DirPath} {d : Dirent}
    (hskip : d.skipped = true) (u : Unlink) : ¬EntryDue f fs now sub dir d u := by
  rintro ⟨hkeep, -⟩
  rw [hskip] at hkeep
  exact absurd hkeep (by decide)

theorem entryDue_dir {sub : DirPath → Unlink → Prop} {dir : DirPath} {d : Dirent}
    (hskip : d.skipped = false) (hdir : IsDirent fs dir d) (u : Unlink) :
    EntryDue f fs now sub dir d u ↔ f.Opens fs (dir ++ [d.name]) ∧ sub (dir ++ [d.name]) u := by
  rw [EntryDue, enters_iff]
  constructor
  · rintro ⟨-, ⟨-, hne, i, hi, hreg, -⟩ | ⟨⟨-, hopens⟩, hu⟩⟩
    · rcases hdir with heq | ⟨-, heq⟩
      · exact absurd heq hne
      · rw [hi, Option.map_some, hreg] at heq
        exact absurd heq (by decide)
    · exact ⟨hopens, hu⟩
  · rintro ⟨hopens, hu⟩
    exact ⟨hskip, .inr ⟨⟨hdir, hopens⟩, hu⟩⟩

theorem entryDue_file {sub : DirPath → Unlink → Prop} {dir : DirPath} {d : Dirent}
    (hskip : d.skipped = false) (hfile : ¬IsDirent fs dir d) (u : Unlink) :
    EntryDue f fs now sub dir d u ↔ u = ⟨dir, d.name, false⟩ ∧ Stale fs now (dir ++ [d.name]) := by
  rw [EntryDue, enters_iff]
  constructor
  · rintro ⟨-, ⟨hu, -, hstale⟩ | ⟨⟨hdir, -⟩, -⟩⟩
    · exact ⟨hu, hstale⟩
    · exact absurd hdir hfile
  · rintro ⟨hu, hstale⟩
    exact ⟨hskip, .inl ⟨hu, fun heq => hfile (.inl heq), hstale⟩⟩

theorem mem_entries {dir : DirPath} {e : FileName × Bool} : e ∈ (f.tree fs).entries dir ↔
    ∃ d ∈ f.listed fs dir, d.skipped = false ∧ d.name = e.1 ∧ f.enters fs dir d = e.2 := by
  obtain ⟨name, enters⟩ := e
  simp only [TreeFails.tree, TreeFails.entries, TreeFails.listed, List.mem_map, List.mem_filter,
    Bool.not_eq_eq_eq_not, Bool.not_true, Prod.mk.injEq]
  constructor
  · rintro ⟨d, ⟨hd, hskip⟩, hname, henters⟩
    exact ⟨d, hd, hskip, hname, henters⟩
  · rintro ⟨d, hd, hskip, hname, henters⟩
    exact ⟨d, ⟨hd, hskip⟩, hname, henters⟩

theorem staleBelow_succ {n : ℕ} {dir : DirPath} {u : Unlink} : StaleBelow f fs now (n + 1) dir u ↔
    ∃ d ∈ f.listed fs dir, EntryDue f fs now (StaleBelow f fs now n) dir d u := by
  constructor
  · rintro ⟨⟨k, hk, hreach⟩, hentry⟩
    cases hreach with
    | here =>
      obtain ⟨hnot, ⟨d, hd, hname, hskip, htype⟩, hstale⟩ := hentry
      have hown : u = ⟨u.dir, d.name, false⟩ := by rw [hname, ← hnot]
      exact ⟨d, hd, hskip, .inl ⟨hown, htype, hname ▸ hstale⟩⟩
    | @step _ _ a k ha hreach =>
      obtain ⟨d, hd, hskip, rfl, henters⟩ := mem_entries.mp ha
      exact ⟨d, hd, hskip, .inr ⟨henters, ⟨k, by omega, hreach⟩, hentry⟩⟩
  · rintro ⟨d, hd, hskip, hown | hsub⟩
    · obtain ⟨rfl, htype, hstale⟩ := hown
      exact ⟨⟨0, by omega, .here dir⟩, rfl, ⟨d, hd, rfl, hskip, htype⟩, hstale⟩
    · obtain ⟨henters, ⟨k, hk, hreach⟩, hentry⟩ := hsub
      exact ⟨⟨k + 1, by omega, .step (mem_entries.mpr ⟨d, hd, hskip, rfl, henters⟩) hreach⟩, hentry⟩

end Levels

structure SweepKept (f : TreeFails) (fs : FileSystem) (now : ℤ) (s : SweepState) : Prop where
  clock : s.user.nowSec = now
  dirs : SameDirs fs s.fs
  files : ∀ path, s.fs path = fs path ∨
    s.fs path = none ∧ ∃ u ∈ s.unlinks, u.removeDir = false ∧ u.dir ++ [u.name] = path
  removed : (∀ n path, f.unlinks n path = none) → ∀ u ∈ s.unlinks, s.fs (u.dir ++ [u.name]) = none

/-- From `s` on, nothing but `P` is unlinked, and all of `P` unless the sweep is interrupted. -/
structure Sweeps (f : TreeFails) (fs : FileSystem) (now : ℤ) (P : Unlink → Prop) (s : SweepState)
    (r : SweepState × ℤ) : Prop where
  kept : SweepKept f fs now r.1
  latched : s.user.intr = true → r.1.user.intr = true
  before : ∀ u ∈ s.unlinks, u ∈ r.1.unlinks
  only : ∀ u ∈ r.1.unlinks, u ∈ s.unlinks ∨ P u
  ret : r.1.user.intr = false → r.2 = 0
  all : r.1.user.intr = false → ∀ u, P u → u ∈ r.1.unlinks

structure Looks (s s' : SweepState) : Prop where
  fs : s'.fs = s.fs
  unlinks : s'.unlinks = s.unlinks
  clock : s'.user.nowSec = s.user.nowSec
  intr : s'.user.intr = s.user.intr

section Rules

variable {f : TreeFails} {fs : FileSystem} {now : ℤ} {P Q : Unlink → Prop} {s s' s'' : SweepState}
  {ret : ℤ} {r : SweepState × ℤ}

theorem Looks.trans (h : Looks s s') (h' : Looks s' s'') : Looks s s'' :=
  ⟨h'.fs.trans h.fs, h'.unlinks.trans h.unlinks, h'.clock.trans h.clock, h'.intr.trans h.intr⟩

theorem Looks.tick (s : SweepState) : Looks s s.tick := ⟨rfl, rfl, rfl, rfl⟩

theorem Looks.log (s : SweepState) {e : FsEvent} (he : e.unlink? = none) : Looks s (s.log e) := by
  refine ⟨rfl, ?_, rfl, rfl⟩
  simp [FsState.unlinks, FsState.log, he]

theorem Looks.openDir (fails : SysFails) (s : SweepState) (path : DirPath) :
    Looks s (openDir fails s path).1 := (Looks.tick s).trans (.log s.tick rfl)

theorem SweepKept.looks (h : SweepKept f fs now s) (hlook : Looks s s') : SweepKept f fs now s' := by
  obtain ⟨hfs, hunlinks, hclock, -⟩ := hlook
  refine ⟨hclock.trans h.clock, ?_, ?_, ?_⟩
  · rw [hfs]
    exact h.dirs
  · rw [hfs, hunlinks]
    exact h.files
  · rw [hfs, hunlinks]
    exact h.removed

theorem Sweeps.of_looks (h : SweepKept f fs now s) (hlook : Looks s s') :
    Sweeps f fs now (fun _ => False) s (s', 0) := by
  obtain ⟨-, hunlinks, -, hintr⟩ := id hlook
  refine ⟨h.looks hlook, ?_, ?_, ?_, fun _ => rfl, fun _ _ => False.elim⟩
  · intro hs
    exact hintr.trans hs
  · intro u hu
    exact hunlinks ▸ hu
  · intro u hu
    exact .inl (hunlinks ▸ hu)

theorem Sweeps.trans (h : Sweeps f fs now P s (s', ret)) (h' : Sweeps f fs now Q s' r) :
    Sweeps f fs now (fun u => P u ∨ Q u) s r := by
  refine ⟨h'.kept, fun hs => h'.latched (h.latched hs), fun u hu => h'.before u (h.before u hu),
    ?_, h'.ret, ?_⟩
  · intro u hu
    rcases h'.only u hu with hu | hu
    · rcases h.only u hu with hu | hu
      · exact .inl hu
      · exact .inr (.inl hu)
    · exact .inr (.inr hu)
  · rintro hintr u (hu | hu)
    · have hfirst : s'.user.intr = false := by
        by_contra hne
        rw [h'.latched (by simpa using hne)] at hintr
        exact absurd hintr (by decide)
      exact h'.before u (h.all hfirst u hu)
    · exact h'.all hintr u hu

theorem Sweeps.congr (h : Sweeps f fs now P s r) (hPQ : ∀ u, P u ↔ Q u) :
    Sweeps f fs now Q s r := by
  obtain rfl : P = Q := funext fun u => propext (hPQ u)
  exact h

theorem Sweeps.stopped (h : Sweeps f fs now P s (s', ret)) (hstop : s'.user.intr = true)
    (hPQ : ∀ u, P u → Q u) (ret' : ℤ) : Sweeps f fs now Q s (s', ret') := by
  have hgo : s'.user.intr ≠ false := by
    rw [hstop]
    decide
  exact ⟨h.kept, h.latched, h.before, fun u hu => (h.only u hu).imp_right (hPQ u),
    fun hintr => absurd hintr hgo, fun hintr => absurd hintr hgo⟩

theorem Sweeps.flagged (h : Sweeps f fs now P s (s', 0)) :
    Sweeps f fs now P s (s', if s'.user.intr then 1 else 0) := by
  refine ⟨h.kept, h.latched, h.before, h.only, fun hgo => ?_, h.all⟩
  have hgo : s'.user.intr = false := hgo
  rw [hgo]
  rfl

theorem Sweeps.after (h : Sweeps f fs now P s' r) (hlook : Looks s s') : Sweeps f fs now P s r := by
  obtain ⟨-, hunlinks, -, hintr⟩ := hlook
  refine ⟨h.kept, fun hs => h.latched (hintr.trans hs), ?_, ?_, h.ret, h.all⟩
  · rw [← hunlinks]
    exact h.before
  · rw [← hunlinks]
    exact h.only

theorem Sweeps.looks (h : Sweeps f fs now P s (s', ret)) (hlook : Looks s' s'') :
    Sweeps f fs now P s (s'', ret) := by
  have hintr := hlook.intr
  have hunlinks := hlook.unlinks
  refine ⟨h.kept.looks hlook, fun hs => hintr.trans (h.latched hs), ?_, ?_,
    fun hs => h.ret (hintr.symm.trans hs), ?_⟩
  · rw [hunlinks]
    exact h.before
  · rw [hunlinks]
    exact h.only
  · rw [hunlinks]
    exact fun hs => h.all (hintr.symm.trans hs)

end Rules

section Steps

variable {f : TreeFails} {env : SweepEnv} {fs : FileSystem} {now : ℤ} {s : SweepState}

theorem psiReadRaw_looks (env : SweepEnv) (s : SweepState) : Looks s (pgPsiReadRaw env s).1 := by
  rw [pgPsiReadRaw]
  split
  · exact (Looks.tick s).trans (.log s.tick rfl)
  · exact ((Looks.tick s).trans (.log s.tick rfl)).trans ((Looks.tick _).trans (.log _ rfl))

theorem sweepProbe_looks (env : SweepEnv) (s : SweepState) : Looks s (sweepProbe env s).1 := by
  rw [sweepProbe]
  split
  · exact .tick s
  · exact (Looks.tick s).trans (psiReadRaw_looks env s.tick)

theorem chkIntr_sweeps (env : SweepEnv) (h : SweepKept f fs now s) :
    Sweeps f fs now (fun _ => False) s ((sweepChkIntr env s).1, 0) ∧
      (sweepChkIntr env s).2 = (sweepChkIntr env s).1.user.intr := by
  rw [sweepChkIntr]
  split
  · next hintr => exact ⟨.of_looks h ⟨rfl, rfl, rfl, rfl⟩, hintr.symm⟩
  next hintr =>
  have hgo : s.user.intr = false := by simpa using hintr
  have hcount : Looks s s.count := ⟨rfl, rfl, rfl, rfl⟩
  simp only
  split
  · exact ⟨.of_looks h hcount, hgo.symm⟩
  have hprobe := (hcount.trans (sweepProbe_looks env s.count)).trans
    (.log (sweepProbe env s.count).1 (e := .probe s.calls) rfl)
  have hlooked := Sweeps.of_looks h hprobe
  split
  · have hkept := hlooked.kept
    refine ⟨?_, rfl⟩
    exact ⟨⟨hkept.clock, hkept.dirs, hkept.files, hkept.removed⟩, fun _ => rfl, hlooked.before,
      hlooked.only, fun _ => rfl, fun _ _ => False.elim⟩
  · exact ⟨hlooked, (hprobe.intr.trans hgo).symm⟩

theorem sweepAge_delete_iff {st : Inode} (hnow : sweepEpoch ≤ now ∧ now < 2 ^ 64) :
    sweepAge now st = .delete ↔ st.type = .reg ∧ st.mtime + 86400 < now := by
  have hfits := fits64_iff.mp st.mtime_fits
  have hepoch : 1767225600 ≤ now := hnow.1
  constructor
  · exact sweepAge_delete ⟨by omega, hnow.2⟩
  · rintro ⟨hreg, hage⟩
    have hlimit : ageLimit = 86400 := rfl
    simp only [sweepAge]
    have hm : (if st.mtime < 0 then 0 else u64 st.mtime) = max st.mtime 0 := by
      split
      · omega
      · rw [u64_eq (by omega) (by omega)]
        omega
    rw [hm, if_neg (by rw [not_or, not_not]; exact ⟨hreg, by omega⟩),
      u64_eq (by omega) (by omega), if_pos (by omega)]

theorem SweepKept.stale (h : SweepKept f fs now s) {path : DirPath} {i : Inode}
    (hi : s.fs path = some i) : fs path = some i := by
  rcases h.files path with heq | ⟨hnone, -⟩
  · exact heq.symm.trans hi
  · rw [hnone] at hi
    exact absurd hi (by simp)

theorem unlink_eq {u u' : Unlink} (hu : u.removeDir = false) (hu' : u'.removeDir = false)
    (hpath : u.dir ++ [u.name] = u'.dir ++ [u'.name]) : u = u' := by
  obtain ⟨dir, name, removeDir⟩ := u
  obtain ⟨dir', name', removeDir'⟩ := u'
  obtain ⟨hdir, hname⟩ := List.append_inj' hpath rfl
  obtain rfl : dir = dir' := hdir
  obtain rfl : name = name' := List.singleton_inj.mp hname
  obtain rfl : removeDir = false := hu
  obtain rfl : removeDir' = false := hu'
  rfl

/-- A stale file that is still there is deleted, and one that is not was. -/
theorem sweepCb_verdict (hfails : env.fails = f.sys) (hnow : sweepEpoch ≤ now ∧ now < 2 ^ 64)
    (h : SweepKept f fs now s) {dir : DirPath} {name : FileName}
    (hname : ¬(name = dot ∨ name = dotdot)) (type : DirentType) (depth : ℕ) :
    Sweeps f fs now (fun _ => False) s ((sweepCb env s dir name type depth).1, 0) ∧
      match (sweepCb env s dir name type depth).2 with
      | .stop => (sweepCb env s dir name type depth).1.user.intr = true
      | .delete => type ≠ .dir ∧ Stale fs now (dir ++ [name])
      | .keep => type = .dir ∨ (Stale fs now (dir ++ [name]) →
          ⟨dir, name, false⟩ ∈ (sweepCb env s dir name type depth).1.unlinks) := by
  obtain ⟨hchk, hintr⟩ := chkIntr_sweeps env h
  simp only [sweepCb]
  generalize sweepChkIntr env s = chk at hchk hintr
  obtain ⟨s₁, intr⟩ := chk
  simp only at hchk hintr ⊢
  split
  · next hstop => exact ⟨hchk, hintr.symm.trans hstop⟩
  split
  · next hdir => exact ⟨hchk, .inl hdir⟩
  next htype =>
  have hstat : (fstatat env.fails s₁ dir name).2 = s₁.fs (dir ++ [name]) := by
    simp only [fstatat, resolve_entry hname, hfails, TreeFails.sys, if_true]
  have hticked := hchk.looks (.tick s₁)
  split
  · next s₂ hnone =>
    obtain rfl : s₁.tick = s₂ := congrArg Prod.fst hnone
    refine ⟨hticked, .inr ?_⟩
    rintro ⟨i, hi, -, -⟩
    have hgone : s₁.fs (dir ++ [name]) = none := hstat.symm.trans (congrArg Prod.snd hnone)
    rcases hchk.kept.files (dir ++ [name]) with heq | ⟨-, u, hu, hfile, hpath⟩
    · rw [hgone, hi] at heq
      exact absurd heq (by simp)
    · obtain rfl : u = ⟨dir, name, false⟩ := unlink_eq hfile rfl hpath
      exact hu
  · next s₂ st hsome =>
    obtain rfl : s₁.tick = s₂ := congrArg Prod.fst hsome
    have hthere : fs (dir ++ [name]) = some st :=
      hchk.kept.stale (hstat.symm.trans (congrArg Prod.snd hsome))
    have hclock : s₁.tick.user.nowSec = now := hchk.kept.clock
    have hage : sweepAge now st = .delete ↔ st.type = .reg ∧ st.mtime + 86400 < now :=
      sweepAge_delete_iff hnow
    refine ⟨hticked, ?_⟩
    rw [hclock]
    cases hact : sweepAge now st with
    | stop =>
      simp only [sweepAge] at hact
      split_ifs at hact
    | delete => exact ⟨htype, st, hthere, hage.mp hact⟩
    | keep =>
      refine .inr ?_
      rintro ⟨i, hi, hold⟩
      obtain rfl : st = i := Option.some.inj (hthere.symm.trans hi)
      rw [hage.mpr hold] at hact
      exact absurd hact (by decide)

theorem direntType_looks (fails : SysFails) (dir : DirPath) (s : SweepState) (d : Dirent) :
    Looks s (direntType fails dir s d).1 := by
  rw [direntType]
  split
  · exact .tick s
  · exact ⟨rfl, rfl, rfl, rfl⟩

theorem unlinkat_sweeps (fails : SysFails) (h : SweepKept f fs now s) {dir : DirPath}
    {name : FileName} (hfails : fails = f.sys) (hname : ¬(name = dot ∨ name = dotdot))
    (hstale : Stale fs now (dir ++ [name])) :
    Sweeps f fs now (fun u => u = ⟨dir, name, false⟩) s (unlinkat fails s dir name false, 0) := by
  obtain ⟨i, hi, hreg, -⟩ := hstale
  have hunlinks : (unlinkat fails s dir name false).unlinks = s.unlinks ++ [⟨dir, name, false⟩] := by
    simp [FsState.unlinks, unlinkat, FsState.log, FsState.tick, FsEvent.unlink?]
  have hpath := resolve_entry hname dir
  have htree : (unlinkat fails s dir name false).fs = s.fs ∨
      (unlinkat fails s dir name false).fs = Function.update s.fs (dir ++ [name]) none := by
    simp only [unlinkat, hpath]
    split
    · exact .inr rfl
    · exact .inl rfl
  have hgone {path : DirPath} (hnone : s.fs path = none) :
      (unlinkat fails s dir name false).fs path = none := by
    rcases htree with heq | heq
    · rwa [heq]
    · rw [heq]
      by_cases hp : path = dir ++ [name]
      · rw [hp, Function.update_self]
      · rwa [Function.update_of_ne hp]
  refine ⟨⟨h.clock, h.dirs.unlinkat fails dir name, ?_, ?_⟩, id, ?_, ?_, fun _ => rfl, ?_⟩
  · intro path
    rw [hunlinks]
    by_cases hp : path = dir ++ [name]
    · rcases htree with heq | heq
      · rw [heq]
        refine (h.files path).imp_right ?_
        rintro ⟨hnone, u, hu, hfile⟩
        exact ⟨hnone, u, List.mem_append_left _ hu, hfile⟩
      · rw [heq, hp, Function.update_self]
        exact .inr ⟨rfl, ⟨dir, name, false⟩, by simp, rfl, rfl⟩
    · have hsame : (unlinkat fails s dir name false).fs path = s.fs path := by
        rcases htree with heq | heq
        · rw [heq]
        · rw [heq, Function.update_of_ne hp]
      rw [hsame]
      refine (h.files path).imp_right ?_
      rintro ⟨hnone, u, hu, hfile⟩
      exact ⟨hnone, u, List.mem_append_left _ hu, hfile⟩
  · intro hnever u hu
    rw [hunlinks] at hu
    rcases List.mem_append.mp hu with hu | hu
    · exact hgone (h.removed hnever u hu)
    · obtain rfl := List.mem_singleton.mp hu
      rcases h.files (dir ++ [name]) with heq | ⟨hnone, -⟩
      · have hremovable : (s.fs (dir ++ [name])).map (fun i => decide (i.type = .dir) == false) =
            some true := by
          rw [heq, hi]
          simp [hreg]
        simp only [unlinkat, hpath]
        rw [if_pos ⟨by rw [hfails]; exact hnever _ _, hremovable⟩, Function.update_self]
      · exact hgone hnone
  · intro u hu
    rw [hunlinks]
    exact List.mem_append_left _ hu
  · intro u hu
    rw [hunlinks] at hu
    exact (List.mem_append.mp hu).imp_right List.mem_singleton.mp
  · rintro - u rfl
    rw [hunlinks]
    simp

theorem openDir_sweeps (hfails : env.fails = f.sys) (h : SweepKept f fs now s) (path : DirPath) :
    Sweeps f fs now (fun _ => False) s ((openDir env.fails s path).1, 0) ∧
      ((openDir env.fails s path).2 = .ok path ∧ f.Opens fs path ∨
        (∃ ret, (openDir env.fails s path).2 = .error ret) ∧ ¬f.Opens fs path) := by
  refine ⟨.of_looks h (.openDir env.fails s path), ?_⟩
  have hopens := h.dirs.openResult (f := f) path
  rw [← hfails] at hopens
  change openResult env.fails s path = .ok path ∧ _ ∨
    (∃ ret, openResult env.fails s path = .error ret) ∧ _
  cases hres : openResult env.fails s path with
  | ok sub =>
    obtain rfl := openResult_path hres
    exact .inl ⟨rfl, hopens.mp (by rw [hres]; rfl)⟩
  | error ret =>
    refine .inr ⟨⟨ret, rfl⟩, fun hopen => ?_⟩
    have hok := hopens.mpr hopen
    rw [hres] at hok
    simp [Except.isOk, Except.toBool] at hok

theorem entered_sweeps (hfails : env.fails = f.sys) {dir : DirPath} {name : FileName}
    {descend : SweepState → DirPath → SweepState × ℤ} {P : Unlink → Prop}
    (hname : ¬(name = dot ∨ name = dotdot))
    (hsub : IsDir fs (dir ++ [name]) → ∀ s, SweepKept f fs now s →
      Sweeps f fs now P s (descend s (dir ++ [name])))
    (h : SweepKept f fs now s) {r : SweepState × ℤ}
    (herror : ∀ s₁ ret, openat env.fails s dir name = (s₁, .error ret) → r = (s₁, 0))
    (hok : ∀ s₁ path, openat env.fails s dir name = (s₁, .ok path) →
      r = ((descend s₁ path).1.log (.closes path), (descend s₁ path).2)) :
    Sweeps f fs now (fun u => f.Opens fs (dir ++ [name]) ∧ P u) s r := by
  obtain ⟨hopened, hres⟩ := openDir_sweeps hfails h (dir ++ [name])
  rw [openat, resolve_entry hname] at herror hok
  generalize openDir env.fails s (dir ++ [name]) = opened at hopened hres herror hok
  obtain ⟨s₁, res⟩ := opened
  simp only at hopened hres
  rcases hres with ⟨rfl, hin⟩ | ⟨⟨ret, rfl⟩, hout⟩
  · have hbelow := hsub (Option.map_eq_some_iff.mp hin.2) s₁ hopened.kept
    rw [hok s₁ _ rfl]
    refine ((hopened.trans hbelow).looks (.log _ (e := .closes (dir ++ [name])) rfl)).congr fun u => ?_
    simp only [false_or, hin, true_and]
  · rw [herror s₁ ret rfl]
    refine hopened.congr fun u => ?_
    simp only [hout, false_and]

theorem dirent_sweeps (hfails : env.fails = f.sys) (hnow : sweepEpoch ≤ now ∧ now < 2 ^ 64)
    {n : ℕ} {dir : DirPath} {descend : SweepState → DirPath → SweepState × ℤ}
    {sub : DirPath → Unlink → Prop}
    (hsub : ∀ name, IsDir fs (dir ++ [name]) → ∀ s, SweepKept f fs now s →
      Sweeps f fs now (sub (dir ++ [name])) s (descend s (dir ++ [name])))
    (h : SweepKept f fs now s) (d : Dirent) :
    Sweeps f fs now (EntryDue f fs now sub dir d) s
      (fsDirent env.fails (sweepCb env) n descend dir s d) := by
  cases hskip : d.skipped with
  | true =>
    rw [dirent_skipped hskip]
    have hnone : Sweeps f fs now (fun _ => False) s (s, 0) := .of_looks h ⟨rfl, rfl, rfl, rfl⟩
    exact hnone.congr fun u => ⟨False.elim, entryDue_skipped hskip u⟩
  | false =>
    have hkeep := hskip
    simp only [Dirent.skipped, Bool.or_eq_false_iff, decide_eq_false_iff_not] at hskip
    obtain ⟨hdots, hlnk⟩ := hskip
    have hname : ¬(d.name = dot ∨ d.name = dotdot) := not_or.mpr hdots
    rw [fsDirent, if_neg hname, if_neg hlnk]
    have htype : (direntType env.fails dir s d).2 = .dir ↔ IsDirent fs dir d := by
      rw [hfails]
      exact (direntType_dir h.dirs dir hname).2.2
    have hseen := (direntType_looks env.fails dir s d).trans
      (.log (direntType env.fails dir s d).1 (e := .visit dir d.name) rfl)
    generalize direntType env.fails dir s d = typed at htype hseen
    obtain ⟨s₁, dtype⟩ := typed
    simp only at htype hseen ⊢
    obtain ⟨hcb, hverdict⟩ := sweepCb_verdict hfails hnow (h.looks hseen) hname dtype n
    replace hcb := hcb.after hseen
    generalize sweepCb env (s₁.log (.visit dir d.name)) dir d.name dtype n = acted at hcb hverdict
    obtain ⟨s₂, act⟩ := acted
    cases act with
    | stop => exact hcb.stopped hverdict (fun _ => False.elim) _
    | delete =>
      obtain ⟨hne, hstale⟩ := hverdict
      have hgone := unlinkat_sweeps env.fails hcb.kept hfails hname hstale
      rw [decide_eq_false hne]
      refine (hcb.trans hgone).congr fun u => ?_
      rw [entryDue_file hkeep (mt htype.mpr hne), false_or, and_iff_left hstale]
    | keep =>
      simp only
      split
      · next hdir =>
        refine (hcb.trans (entered_sweeps hfails hname (hsub d.name) hcb.kept ?_ ?_)).congr fun u => ?_
        · intro s₃ ret hopen
          rw [hopen]
        · intro s₃ path hopen
          rw [hopen]
        · rw [entryDue_dir hkeep (htype.mp hdir), false_or]
      · next hdir =>
        -- a stale file that is kept has been unlinked before
        have hgone := hverdict.resolve_left hdir
        refine ⟨hcb.kept, hcb.latched, hcb.before, fun u hu => (hcb.only u hu).imp_right False.elim,
          fun _ => rfl, ?_⟩
        intro _ u hu
        obtain ⟨rfl, hstale⟩ := (entryDue_file hkeep (mt htype.mpr hdir) u).mp hu
        exact hgone hstale

end Steps

section Walks

variable {f : TreeFails} {env : SweepEnv} {fs : FileSystem} {now : ℤ} {s : SweepState}

theorem walkEntries_sweeps {step : SweepState → Dirent → SweepState × ℤ}
    {P : Dirent → Unlink → Prop}
    (hstep : ∀ s d, SweepKept f fs now s → Sweeps f fs now (P d) s (step s d))
    (h : SweepKept f fs now s) (ds : List Dirent) :
    Sweeps f fs now (fun u => ∃ d ∈ ds, P d u) s (walkEntries step s ds) := by
  induction ds generalizing s with
  | nil => exact (Sweeps.of_looks h ⟨rfl, rfl, rfl, rfl⟩).congr (by simp)
  | cons d ds ih =>
    have hone := hstep s d h
    simp only [walkEntries]
    generalize step s d = stepped at hone
    obtain ⟨s₁, ret⟩ := stepped
    split
    · next hret =>
      have hstop : s₁.user.intr = true := by
        by_contra hne
        exact hret (hone.ret (by simpa using hne))
      exact hone.stopped hstop (fun u hu => ⟨d, by simp, hu⟩) ret
    · exact (hone.trans (ih hone.kept)).congr fun u => by simp only [List.exists_mem_cons_iff]

theorem walkListing_sweeps {step : SweepState → Dirent → SweepState × ℤ}
    {P : Dirent → Unlink → Prop} (hlists : ∀ dir, f.lists dir = none)
    (hstep : ∀ s d, SweepKept f fs now s → Sweeps f fs now (P d) s (step s d))
    (h : SweepKept f fs now s) (dir : DirPath) (k : ℕ) (listing : List (List Dirent)) :
    Sweeps f fs now (fun u => ∃ d ∈ (readDirents (f.listFails dir) k listing).1, P d u) s
      (walkListing f.sys step dir k s listing) := by
  have hreads (k : ℕ) : f.listFails dir k = none := by
    rw [TreeFails.listFails, hlists, Option.bind_none]
  have hsys (n k : ℕ) : f.sys n (.getdents dir k) = none := hreads k
  induction listing generalizing k s with
  | nil =>
    simp only [walkListing, readDirents, hsys]
    exact (Sweeps.of_looks h (.tick s)).congr (by simp)
  | cons ds listing ih =>
    simp only [walkListing, readDirents, hsys, hreads, Option.isSome_none, Bool.false_eq_true,
      ↓reduceIte]
    by_cases hds : ds = []
    · simp only [if_pos hds]
      exact (Sweeps.of_looks h (.tick s)).congr (by simp)
    simp only [if_neg hds]
    have hchunk := (walkEntries_sweeps hstep (h.looks (.tick s)) ds).after (.tick s)
    generalize walkEntries step s.tick ds = walked at hchunk
    obtain ⟨s₁, ret⟩ := walked
    have hmem (u : Unlink) : (∃ d ∈ ds ++ (readDirents (f.listFails dir) (k + 1) listing).1, P d u) ↔
        (∃ d ∈ ds, P d u) ∨ ∃ d ∈ (readDirents (f.listFails dir) (k + 1) listing).1, P d u := by
      simp only [List.mem_append, or_and_right, exists_or]
    split
    · next hret =>
      have hstop : s₁.user.intr = true := by
        by_contra hne
        exact hret (hchunk.ret (by simpa using hne))
      exact hchunk.stopped hstop (fun u hu => (hmem u).mpr (.inl hu)) ret
    · exact (hchunk.trans (ih hchunk.kept (k + 1))).congr fun u => (hmem u).symm

theorem fsWalk_sweeps (hfails : env.fails = f.sys) (hlists : ∀ dir, f.lists dir = none)
    (hnow : sweepEpoch ≤ now ∧ now < 2 ^ 64) (maxDepth left : ℕ) {dir : DirPath}
    (hdir : IsDir fs dir) (h : SweepKept f fs now s) :
    Sweeps f fs now (StaleBelow f fs now left dir) s
      (fsWalk env.fails (sweepCb env) maxDepth left s dir) := by
  induction left generalizing dir s with
  | zero =>
    refine (Sweeps.of_looks h ⟨rfl, rfl, rfl, rfl⟩).congr fun u => ⟨False.elim, ?_⟩
    rintro ⟨⟨k, hk, -⟩, -⟩
    omega
  | succ left ih =>
    rw [fsWalk, h.dirs.listing hdir, hfails]
    refine (walkListing_sweeps hlists ?_ h dir 0 _).congr fun u => staleBelow_succ.symm
    intro s d hs
    rw [← hfails]
    exact dirent_sweeps hfails hnow (fun name hsub s hs => ih hsub hs) hs d

end Walks

end Pgov
