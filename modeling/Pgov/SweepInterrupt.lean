import Pgov.Sweep

namespace Pgov

open FixedWidth

def FsEvent.isProbe : FsEvent → Bool
  | .probe .. => true
  | _ => false

def FsEvent.examines : FsEvent → Bool
  | .entry .. => true
  | .visit .. => true
  | _ => false

def FsEvent.acts : FsEvent → Bool
  | .opens .. => true
  | .unlink _ => true
  | _ => false

/-- Nothing is opened or unlinked after a probe that observes brightness or pressure. -/
def Latched (env : SweepEnv) (t : List FsEvent) : Prop :=
  t.Pairwise fun e later => ∀ call, e = .probe call → ProbeHits env call → later.acts = false

def Hit (env : SweepEnv) (t : List FsEvent) : Prop := ∃ call, .probe call ∈ t ∧ ProbeHits env call

def ProbedFirst (t : List FsEvent) : Prop :=
  ∀ before e after, t = before ++ e :: after → e.examines = true → ∃ p ∈ before, p.isProbe = true

/-- Between two probes, and after the last one, at most `n` entries are examined. -/
def ProbedEvery (n : ℕ) (t : List FsEvent) : Prop :=
  ∀ before gap after, t = before ++ gap ++ after → (∀ e ∈ gap, e.isProbe = false) →
    gap.countP FsEvent.examines ≤ n

def CeilingRestored (t : List FsEvent) : Prop :=
  ∀ before after, t = before ++ .uclamp uclampUnrestricted :: after → .uclamp pgUclampMax ∈ after

def unprobed : List FsEvent → ℕ := List.foldl
  (fun n e => if e.isProbe then 0 else if e.examines then n + 1 else n) 0

section Traces

variable {env : SweepEnv} {t : List FsEvent} {e : FsEvent}

theorem unprobed_append (t : List FsEvent) (e : FsEvent) : unprobed (t ++ [e]) =
    if e.isProbe then 0 else if e.examines then unprobed t + 1 else unprobed t := by
  simp only [unprobed, List.foldl_append, List.foldl_cons, List.foldl_nil]

theorem countP_le_unprobed (before gap : List FsEvent) (h : ∀ e ∈ gap, e.isProbe = false) :
    gap.countP FsEvent.examines ≤ unprobed (before ++ gap) := by
  induction gap using List.reverseRecOn with
  | nil => exact Nat.zero_le _
  | append_singleton gap e ih =>
    have hgap := ih fun d hd => h d (List.mem_append_left _ hd)
    have he := h e (by simp)
    rw [List.countP_append, ← List.append_assoc, unprobed_append, if_neg (by simp [he])]
    cases hex : e.examines <;> simp [hex] <;> omega

theorem latched_append (h : Latched env t) (he : Hit env t → e.acts = false) :
    Latched env (t ++ [e]) := by
  rw [Latched, List.pairwise_append]
  refine ⟨h, List.pairwise_singleton _ _, ?_⟩
  rintro d hd later hlater call rfl hhit
  rw [List.mem_singleton.mp hlater]
  exact he ⟨call, hd, hhit⟩

theorem probedFirst_append (h : ProbedFirst t)
    (he : e.examines = true → ∃ p ∈ t, p.isProbe = true) : ProbedFirst (t ++ [e]) := by
  intro before d after heq hd
  rcases List.eq_nil_or_concat' after with rfl | ⟨after, last, rfl⟩
  · obtain ⟨rfl, rfl⟩ := List.append_singleton_inj.mp heq
    exact he hd
  · rw [← List.cons_append, ← List.append_assoc] at heq
    obtain ⟨rfl, -⟩ := List.append_singleton_inj.mp heq
    exact h before d after rfl hd

theorem probedEvery_append {n : ℕ} (h : ProbedEvery n t) (he : unprobed (t ++ [e]) ≤ n) :
    ProbedEvery n (t ++ [e]) := by
  intro before gap after heq hgap
  rcases List.eq_nil_or_concat' after with rfl | ⟨after, last, rfl⟩
  · rw [List.append_nil] at heq
    rw [heq] at he
    exact (countP_le_unprobed before gap hgap).trans he
  · rw [← List.append_assoc] at heq
    obtain ⟨rfl, -⟩ := List.append_singleton_inj.mp heq
    exact h before gap after rfl hgap

theorem ceilingRestored_append (t : List FsEvent) :
    CeilingRestored (t ++ [.uclamp pgUclampMax]) := by
  intro before after heq
  rcases List.eq_nil_or_concat' after with rfl | ⟨after, last, rfl⟩
  · obtain ⟨-, hlast⟩ := List.append_singleton_inj.mp heq
    exact absurd hlast (by decide)
  · rw [← List.cons_append, ← List.append_assoc] at heq
    obtain ⟨-, rfl⟩ := List.append_singleton_inj.mp heq
    simp

end Traces

structure Unhit (env : SweepEnv) (t : List FsEvent) : Prop where
  latched : Latched env t
  unhit : ¬Hit env t
  probedFirst : ProbedFirst t
  probedEvery : ProbedEvery 1024 t
  unprobed_le : unprobed t ≤ 1024

structure Paced (env : SweepEnv) (t : List FsEvent) (ctx : SweepCtx) : Prop where
  latched : Latched env t
  hit : Hit env t → ctx.intr = true
  probedFirst : ProbedFirst t
  probedEvery : ProbedEvery 1024 t
  probed : ∃ p ∈ t, p.isProbe = true
  count : (unprobed t : ℤ) = ctx.nrFiles % 1024

section Traces

variable {env : SweepEnv} {t : List FsEvent} {ctx : SweepCtx} {e : FsEvent}

theorem hit_of_append (hp : e.isProbe = false) (h : Hit env (t ++ [e])) : Hit env t := by
  obtain ⟨call, hmem, hhit⟩ := h
  rcases List.mem_append.mp hmem with hmem | hmem
  · exact ⟨call, hmem, hhit⟩
  · rw [← List.mem_singleton.mp hmem] at hp
    exact absurd hp (by simp [FsEvent.isProbe])

theorem Unhit.append (h : Unhit env t) (hp : e.isProbe = false)
    (hx : e.examines = true → (∃ p ∈ t, p.isProbe = true) ∧ unprobed t < 1024) :
    Unhit env (t ++ [e]) := by
  have hle : unprobed (t ++ [e]) ≤ 1024 := by
    have hold := h.unprobed_le
    rw [unprobed_append, if_neg (by simp [hp])]
    split
    · next hex => exact (hx hex).2
    · exact hold
  exact ⟨latched_append h.latched fun hhit => absurd hhit h.unhit,
    fun hhit => h.unhit (hit_of_append hp hhit), probedFirst_append h.probedFirst fun hex => (hx hex).1,
    probedEvery_append h.probedEvery hle, hle⟩

theorem Unhit.probe (h : Unhit env t) {call : ℕ} (hcount : ctx.nrFiles % 1024 = 0)
    (hhit : ProbeHits env call → ctx.intr = true) : Paced env (t ++ [.probe call]) ctx := by
  have hzero : unprobed (t ++ [.probe call]) = 0 := by
    rw [unprobed_append]
    rfl
  refine ⟨latched_append h.latched fun _ => rfl, ?_, probedFirst_append h.probedFirst ?_,
    probedEvery_append h.probedEvery (by omega), ⟨.probe call, by simp, rfl⟩, by omega⟩
  · rintro ⟨call', hmem, hprobe⟩
    rcases List.mem_append.mp hmem with hmem | hmem
    · exact absurd ⟨call', hmem, hprobe⟩ h.unhit
    · obtain rfl : call' = call := by simpa using List.mem_singleton.mp hmem
      exact hhit hprobe
  · intro hex
    exact absurd hex (by simp [FsEvent.examines])

theorem Paced.unhit (h : Paced env t ctx) (hintr : ctx.intr = false) : Unhit env t := by
  have hcount := h.count
  refine ⟨h.latched, ?_, h.probedFirst, h.probedEvery, by omega⟩
  intro hhit
  rw [h.hit hhit] at hintr
  exact absurd hintr (by decide)

theorem Paced.append (h : Paced env t ctx) (hp : e.isProbe = false) (hx : e.examines = false)
    (ha : ctx.intr = true → e.acts = false) : Paced env (t ++ [e]) ctx := by
  have hcount : unprobed (t ++ [e]) = unprobed t := by
    simp [unprobed_append, hp, hx]
  have hold := h.count
  obtain ⟨p, hmem, hprobe⟩ := h.probed
  exact ⟨latched_append h.latched fun hhit => ha (h.hit hhit),
    fun hhit => h.hit (hit_of_append hp hhit),
    probedFirst_append h.probedFirst (by simp [hx]), probedEvery_append h.probedEvery (by omega),
    ⟨p, List.mem_append_left _ hmem, hprobe⟩, by rw [hcount, hold]⟩

end Traces

def SweepPaced (env : SweepEnv) (s : SweepState) : Prop := Paced env s.trace s.user

def SweepGoing (env : SweepEnv) (s : SweepState) : Prop := SweepPaced env s ∧ s.user.intr = false

/-- A sweep about to call `sweep_chk_intr`: where that call does not probe, the count it leaves is
the number of entries examined since the last probe. -/
structure SweepDue (env : SweepEnv) (s : SweepState) : Prop where
  unhit : Unhit env s.trace
  going : s.user.intr = false
  count : (s.user.nrFiles + 1) % 1024 ≠ 0 →
    (∃ p ∈ s.trace, p.isProbe = true) ∧ (unprobed s.trace : ℤ) = (s.user.nrFiles + 1) % 1024

section Pace

variable {env : SweepEnv} {s : SweepState}

theorem SweepPaced.log (h : SweepPaced env s) {e : FsEvent} (hp : e.isProbe = false)
    (hx : e.examines = false) (ha : e.acts = false) : SweepPaced env (s.log e) :=
  Paced.append h hp hx fun _ => ha

theorem SweepGoing.log (h : SweepGoing env s) {e : FsEvent} (hp : e.isProbe = false)
    (hx : e.examines = false) : SweepGoing env (s.log e) :=
  ⟨Paced.append h.1 hp hx fun hi => absurd (hi.symm.trans h.2) (by decide), h.2⟩

theorem SweepGoing.tick (h : SweepGoing env s) : SweepGoing env s.tick := h

theorem SweepGoing.examine (h : SweepGoing env s) {e : FsEvent} (hp : e.isProbe = false)
    (hx : e.examines = true) : SweepDue env (s.log e) := by
  have hcount := h.1.count
  obtain ⟨p, hmem, hprobe⟩ := h.1.probed
  refine ⟨(h.1.unhit h.2).append hp fun _ => ⟨h.1.probed, by omega⟩, h.2, ?_⟩
  intro hne
  refine ⟨⟨p, List.mem_append_left _ hmem, hprobe⟩, ?_⟩
  have hnext : unprobed (s.trace ++ [e]) = unprobed s.trace + 1 := by
    simp [unprobed_append, hp, hx]
  change (s.user.nrFiles + 1) % 1024 ≠ 0 at hne
  change (unprobed (s.trace ++ [e]) : ℤ) = (s.user.nrFiles + 1) % 1024
  omega

theorem psiReadRaw_unhit (env : SweepEnv) (h : Unhit env s.trace) :
    Unhit env (pgPsiReadRaw env s).1.trace ∧ (pgPsiReadRaw env s).1.user = s.user := by
  have hplain {t : List FsEvent} {e : FsEvent} (ht : Unhit env t) (hp : e.isProbe = false)
      (hx : e.examines = false) : Unhit env (t ++ [e]) := ht.append hp (by simp [hx])
  rw [pgPsiReadRaw]
  split
  · exact ⟨hplain h rfl rfl, rfl⟩
  · exact ⟨hplain (hplain h rfl rfl) rfl rfl, rfl⟩

theorem sweepProbe_unhit (env : SweepEnv) (h : Unhit env s.trace) :
    Unhit env (sweepProbe env s).1.trace ∧ (sweepProbe env s).1.user = s.user := by
  rw [sweepProbe]
  split
  · exact ⟨h, rfl⟩
  · exact psiReadRaw_unhit env h

theorem count_emod (s : SweepState) :
    s.count.user.nrFiles % 1024 = (s.user.nrFiles + 1) % 1024 := by
  obtain ⟨k, hk⟩ := i32_congr (s.user.nrFiles + 1)
  change i32 (s.user.nrFiles + 1) % 1024 = _
  omega

theorem SweepDue.chkIntr (env : SweepEnv) (h : SweepDue env s) :
    SweepPaced env (sweepChkIntr env s).1 ∧
      (sweepChkIntr env s).1.user.intr = (sweepChkIntr env s).2 := by
  have hmod := count_emod s
  rw [sweepChkIntr, if_neg (by simp [h.going])]
  simp only
  split
  · next hne =>
    change s.count.user.nrFiles % 1024 ≠ 0 at hne
    rw [hmod] at hne
    obtain ⟨hprobed, hcount⟩ := h.count hne
    refine ⟨⟨h.unhit.latched, fun hhit => absurd hhit h.unhit.unhit, h.unhit.probedFirst,
      h.unhit.probedEvery, hprobed, ?_⟩, h.going⟩
    exact hcount.trans hmod.symm
  · next heq =>
    have hzero : s.count.user.nrFiles % 1024 = 0 := not_not.mp heq
    have hunhit : Unhit env s.count.trace := h.unhit
    obtain ⟨hprobe, huser⟩ := sweepProbe_unhit env hunhit
    rw [← huser] at hzero
    have hintr : (sweepProbe env s.count).1.user.intr = false := by
      rw [huser]
      exact h.going
    have hhit := sweepProbe_hit_iff env s.count
    generalize sweepProbe env s.count = probed at hprobe hzero hintr hhit
    obtain ⟨s₁, hit⟩ := probed
    cases hit with
    | true => exact ⟨hprobe.probe hzero fun _ => rfl, rfl⟩
    | false => exact ⟨hprobe.probe hzero fun hf => absurd (hhit.mpr hf) (by simp), hintr⟩

theorem openDir_going (fails : SysFails) (h : SweepGoing env s) (path : DirPath) :
    SweepGoing env (openDir fails s path).1 := h.tick.log rfl rfl

theorem sweepCb_going (env : SweepEnv) (h : SweepDue env s) (dir : DirPath) (name : FileName)
    (type : DirentType) (depth : ℕ) :
    SweepPaced env (sweepCb env s dir name type depth).1 ∧
      ((sweepCb env s dir name type depth).2 ≠ .stop →
        SweepGoing env (sweepCb env s dir name type depth).1) := by
  obtain ⟨hpaced, hintr⟩ := h.chkIntr env
  simp only [sweepCb]
  generalize sweepChkIntr env s = chk at hpaced hintr
  obtain ⟨s₁, intr⟩ := chk
  cases intr with
  | true => exact ⟨hpaced, fun hne => absurd rfl hne⟩
  | false =>
    have hgoing : SweepGoing env s₁ := ⟨hpaced, hintr⟩
    simp only [Bool.false_eq_true, ↓reduceIte]
    split
    · exact ⟨hpaced, fun _ => hgoing⟩
    · split
      · next s₂ hstat =>
        obtain ⟨rfl, -⟩ := Prod.mk.inj hstat
        exact ⟨hgoing.tick.1, fun _ => hgoing.tick⟩
      · next s₂ st hstat =>
        obtain ⟨rfl, -⟩ := Prod.mk.inj hstat
        exact ⟨hgoing.tick.1, fun _ => hgoing.tick⟩

theorem sweepCb_paced (env : SweepEnv) : WalkRule env.fails (sweepCb env) maxSweepDepth
    (fun _ _ => SweepGoing env) (fun _ _ => SweepPaced env) where
  done h := h.1
  tick h := h.tick
  visit := by
    intro depth dir s h _ name _ type
    obtain ⟨hpaced, hgoing⟩ :=
      sweepCb_going env (h.examine (e := .visit dir name) rfl rfl) dir name type depth
    refine ⟨hpaced, fun hkeep => hgoing (by simp [hkeep]), fun hdel => ?_⟩
    exact (hgoing (by simp [hdel])).tick.log rfl rfl
  refused h _ _ := openDir_going env.fails h _
  opened h _ _ _ := openDir_going env.fails h _
  closed _ hsub := hsub.log rfl rfl
  closed_done _ hsub := hsub.log rfl rfl rfl

theorem walkFd_paced (env : SweepEnv) (h : SweepGoing env s) (dir : DirPath) :
    SweepPaced env (pgFsWalkFd env.fails (sweepCb env) maxSweepDepth s dir).1 :=
  ((sweepCb_paced env).walkFd dir s h).1

theorem sweepPackage_paced (env : SweepEnv) (h : SweepGoing env s) (root : DirPath)
    (pkg : FileName) : SweepPaced env (sweepPackage env s root pkg) := by
  have hopened := openDir_going env.fails h (resolve root pkg)
  rw [sweepPackage, openat]
  split
  · next s₁ ret hopen =>
    obtain ⟨rfl, -⟩ := Prod.mk.inj hopen
    exact hopened.1
  · next s₁ pkgDir hopen =>
    obtain ⟨rfl, -⟩ := Prod.mk.inj hopen
    have hcache := openDir_going env.fails hopened (resolve pkgDir dirCache)
    rw [openat]
    split
    · next s₂ ret hopen' =>
      obtain ⟨rfl, -⟩ := Prod.mk.inj hopen'
      exact hcache.1.log rfl rfl rfl
    · next s₂ cache hopen' =>
      obtain ⟨rfl, -⟩ := Prod.mk.inj hopen'
      exact ((walkFd_paced env hcache cache).log rfl rfl rfl).log rfl rfl rfl

theorem sweepProcessDirent_paced (env : SweepEnv) (h : SweepGoing env s) (root : DirPath)
    (d : Dirent) : SweepPaced env (sweepProcessDirent env root s d) := by
  obtain ⟨hpaced, hintr⟩ := (h.examine (e := .entry root d.name) rfl rfl).chkIntr env
  rw [sweepProcessDirent]
  generalize sweepChkIntr env _ = chk at hpaced hintr
  obtain ⟨s₁, intr⟩ := chk
  simp only
  split
  · exact hpaced
  · next hgo =>
    have hgoing : SweepGoing env s₁ := ⟨hpaced, by simpa using hintr.trans (by simpa using hgo)⟩
    split
    · exact hpaced
    have htyped : SweepGoing env (direntType env.fails root s₁ d).1 := by
      rw [direntType]
      split
      · exact hgoing.tick
      · exact hgoing
    generalize direntType env.fails root s₁ d = typed at htyped
    obtain ⟨s₂, dtype⟩ := typed
    simp only
    split
    · exact sweepPackage_paced env htyped root d.name
    · exact htyped.1

theorem sweepAppRoot_paced (env : SweepEnv) (h : SweepPaced env s) (root : DirPath) :
    SweepPaced env (sweepAppRoot env s root) := by
  rw [sweepAppRoot]
  split
  · exact h
  next hintr =>
  have hgoing : SweepGoing env s := ⟨h, by simpa using hintr⟩
  have hopened := openDir_going env.fails hgoing root
  split
  · next s₁ ret hopen =>
    obtain ⟨rfl, -⟩ := Prod.mk.inj hopen
    exact hopened.1
  · next s₁ dir hopen =>
    obtain ⟨rfl, -⟩ := Prod.mk.inj hopen
    refine SweepPaced.log
      (walkListing_keeps (fun _ hs => hs.1) (fun _ hs => hs.tick) ?_ dir 0 _ _ hopened).1 rfl rfl rfl
    intro d s hs
    have hstep := sweepProcessDirent_paced env hs dir d
    refine ⟨hstep, fun hret => ⟨hstep, ?_⟩⟩
    simpa using hret

theorem sweepTempPath_paced (env : SweepEnv) (h : SweepPaced env s) (path : DirPath) :
    SweepPaced env (sweepTempPath env s path) := by
  rw [sweepTempPath]
  split
  · exact h
  next hintr =>
  have hgoing : SweepGoing env s := ⟨h, by simpa using hintr⟩
  have hopened := openDir_going env.fails hgoing path
  rw [pgFsWalk]
  split
  · next s₁ ret hopen =>
    obtain ⟨rfl, -⟩ := Prod.mk.inj hopen
    exact hopened.1
  · next s₁ dir hopen =>
    obtain ⟨rfl, -⟩ := Prod.mk.inj hopen
    exact (walkFd_paced env hopened dir).log rfl rfl rfl

theorem foldl_paced {step : SweepState → DirPath → SweepState}
    (hstep : ∀ s path, SweepPaced env s → SweepPaced env (step s path)) (paths : List DirPath)
    (h : SweepPaced env s) : SweepPaced env (paths.foldl step s) := by
  induction paths generalizing s with
  | nil => exact h
  | cons path paths ih => exact ih (hstep s path h)

end Pace

theorem sweepProbe_uclamp (env : SweepEnv) {s : SweepState} {c : ℕ}
    (h : .uclamp c ∈ (sweepProbe env s).1.trace) : .uclamp c ∈ s.trace := by
  rw [sweepProbe] at h
  split at h
  · exact h
  · simp only [pgPsiReadRaw] at h
    split at h <;> simpa [FsState.log, FsState.tick] using h

theorem chkIntr_uclamp (env : SweepEnv) {s : SweepState} {c : ℕ}
    (h : .uclamp c ∈ (sweepChkIntr env s).1.trace) : .uclamp c ∈ s.trace := by
  rw [sweepChkIntr] at h
  split at h
  · exact h
  simp only at h
  split at h
  · exact h
  · apply sweepProbe_uclamp env (s := s.count)
    split at h <;> simpa [FsState.log, SweepState.interrupt] using h

theorem due_start (env : SweepEnv) (nowSec : ℤ) (fs : FileSystem) :
    SweepDue env { fs := fs, calls := 0, trace := [],
                   user := { nowSec := nowSec, nrFiles := intrMask, intr := false } } := by
  refine ⟨⟨List.Pairwise.nil, by simp [Hit], ?_, ?_, by simp [unprobed]⟩, rfl,
    fun hne => absurd rfl hne⟩
  · intro before e after heq
    simp at heq
  · intro before gap after heq
    have hgap : gap = [] := by
      rw [List.nil_eq, List.append_eq_nil_iff, List.append_eq_nil_iff] at heq
      exact heq.1.2
    simp [hgap]

/-- The interruption of a sweep is latched and timely, and its ceiling does not outlive it. -/
theorem sweep_interruption (env : SweepEnv) (tvSec : ℤ) (fs : FileSystem) :
    Latched env (pgSweepRun env tvSec fs).trace ∧ CeilingRestored (pgSweepRun env tvSec fs).trace ∧
      ProbedFirst (pgSweepRun env tvSec fs).trace ∧
      ProbedEvery 1024 (pgSweepRun env tvSec fs).trace := by
  have hdue := due_start env (u64 tvSec) fs
  have huclamp (c : ℕ) := chkIntr_uclamp env (c := c)
    (s := { fs := fs, calls := 0, trace := [],
            user := { nowSec := u64 tvSec, nrFiles := intrMask, intr := false } })
  obtain ⟨hpaced, hintr⟩ := hdue.chkIntr env
  simp only [pgSweepRun]
  split
  · refine ⟨hdue.unhit.latched, ?_, hdue.unhit.probedFirst, hdue.unhit.probedEvery⟩
    intro before after heq
    simp at heq
  generalize sweepChkIntr env _ = chk at hpaced hintr huclamp
  obtain ⟨s, intr⟩ := chk
  simp only
  split
  · refine ⟨hpaced.latched, ?_, hpaced.probedFirst, hpaced.probedEvery⟩
    intro before after heq
    have hmem := huclamp uclampUnrestricted (by rw [heq]; simp)
    simp at hmem
  · have hraised : SweepPaced env (s.log (.uclamp uclampUnrestricted)) := hpaced.log rfl rfl rfl
    have happs := foldl_paced (fun _ root hs => sweepAppRoot_paced env hs root) appRoots hraised
    have htemps := foldl_paced (fun _ path hs => sweepTempPath_paced env hs path) tempPaths happs
    have hlast := htemps.log (e := .uclamp pgUclampMax) rfl rfl rfl
    exact ⟨hlast.latched, ceilingRestored_append _, hlast.probedFirst, hlast.probedEvery⟩

def litEnv : SweepEnv := { quietEnv with bl := fun calls => if 3 ≤ calls then 7 else 0 }

def crowdedTree : FileSystem := fun path =>
  if path = [dirData, dirData] then
    some ⟨.dir, 0, [List.replicate 1100 ⟨fileName ['.', 'p'], .dir⟩], fits64_zero⟩
  else if path ∈ tempPaths then some ⟨.dir, 0, [[⟨fileName ['f'], .reg⟩]], fits64_zero⟩
  else if path ∈ tempPaths.map (· ++ [fileName ['f']]) then some ⟨.reg, 0, [], fits64_zero⟩
  else none

theorem sweep_interruption_lit :
    let trace := (pgSweepRun litEnv 1800000000 crowdedTree).trace
    Latched litEnv trace ∧ ProbeHits litEnv 5 ∧
      trace.filter FsEvent.isProbe = [.probe 0, .probe 5] ∧
      trace.countP FsEvent.examines = 1024 ∧ trace.filterMap FsEvent.unlink? = [] := by
  intro trace
  exact ⟨(sweep_interruption litEnv 1800000000 crowdedTree).1, Or.inl (by decide),
    by decide +kernel⟩

end Pgov
