import Pgov.Exclusion
import Pgov.RestorePaths

namespace Pgov

open FixedWidth DecimalText Runs Exclusion

abbrev Node := Sink × ℕ

abbrev Nodes := Node → ℤ

/-- The next instruction of `pg_daemon_init` that matters to other processes: those up to `govern`
are its phases in order, those from `restore` on its cleanup, and `crash` is `crash_restore`. -/
inductive LifePc
  | gone
  | privilege
  | lock
  | boot
  | map (done : ℕ)
  | snapshot
  | arm
  | setup
  | govern
  | restore (done : ℕ)
  | close
  | leave
  | crash (k : ℕ)
  deriving DecidableEq, Repr

/-- A process that runs the daemon; `file` is the node behind each of its descriptors and `hooked`
says whether `crash_hook` is set. -/
structure Instance where
  pc : LifePc
  locked : Bool
  hooked : Bool
  cache : Sink → SysfsCache
  file : ℤ → Node
  rsTbl : List (ℤ × ℕ)

def staticCache : SysfsCache :=
  { last := 0, fd := -1, base := 0, retryMs := 0, fails := 0, hasBase := false, active := false }

def Instance.fresh (file : ℤ → Node) : Instance :=
  { pc := .privilege, locked := false, hooked := false, cache := fun _ => staticCache, file,
    rsTbl := [] }

def Instance.dead (p : Instance) : Instance :=
  { p with pc := .gone, locked := false, hooked := false, rsTbl := [] }

structure PathIo where
  fd : Option ℕ
  readable : Bool

structure NextIo where
  ok : Bool
  paths : List PathIo
  res : Pwrite

def Instance.node (p : Instance) (i : Sink) : Node := p.file (p.cache i).fd

def Instance.channel (p : Instance) (nodes : Nodes) (i : Sink) : Channel :=
  ⟨p.cache i, nodes (p.node i)⟩

def Instance.put (p : Instance) (nodes : Nodes) (i : Sink) (c : Channel) : Instance × Nodes :=
  ({ p with cache := Function.update p.cache i c.cache }, Function.update nodes (p.node i) c.node)

def pathCandidate (nodes : Nodes) (i : Sink) (c : PathIo × ℕ) : Candidate :=
  { fd := c.1.fd
    text := if c.1.readable then .ok (integerLine (nodes (i, c.2))) else .error (Nat.toPNat' 2) }

def nodeCandidates (nodes : Nodes) (i : Sink) (paths : List PathIo) : List Candidate :=
  paths.zipIdx.map (pathCandidate nodes i)

def skippedPaths (paths : List PathIo) : List PathIo := paths.takeWhile fun c => c.fd.isNone

def Instance.mapSink (p : Instance) (nodes : Nodes) (i : Sink) (paths : List PathIo) : Instance :=
  let cache := (pgSysfsCacheInit (nodeCandidates nodes i paths)).1
  { p with
    cache := Function.update p.cache i cache
    file := Function.update p.file cache.fd (i, (skippedPaths paths).length) }

def Instance.snapshot (p : Instance) : List (ℤ × ℕ) :=
  sinks.filterMap fun i =>
    if !(p.cache i).active || !(p.cache i).hasBase then none
    else some ((p.cache i).fd, (p.cache i).base)

/-- One instruction of the program; `free` says whether nobody else holds the lock file. -/
def Instance.next (free : Bool) (p : Instance) (nodes : Nodes) (io : NextIo) : Instance × Nodes :=
  match p.pc with
  | .gone => (p, nodes)
  | .privilege => ({ p with pc := if io.ok then .lock else .restore 0 }, nodes)
  | .lock =>
    if io.ok && free then ({ p with locked := true, pc := .boot }, nodes)
    else ({ p with pc := .restore 0 }, nodes)
  | .boot => ({ p with pc := if io.ok then .map 0 else .restore 0 }, nodes)
  | .map done =>
    match sinks[done]? with
    | some i => ({ p.mapSink nodes i io.paths with pc := .map (done + 1) }, nodes)
    | none => ({ p with pc := .snapshot }, nodes)
  | .snapshot => ({ p with rsTbl := p.snapshot, pc := .arm }, nodes)
  | .arm => ({ p with hooked := true, pc := .setup }, nodes)
  | .setup => ({ p with pc := if io.ok then .govern else .restore 0 }, nodes)
  | .govern => ({ p with pc := .restore 0 }, nodes)
  | .restore done =>
    match sinks[done]? with
    | some i =>
      let (p, nodes) := p.put nodes i ((p.channel nodes i).restore io.res)
      ({ p with pc := .restore (done + 1) }, nodes)
    | none => ({ p with rsTbl := [], pc := .close }, nodes)
  | .close => ({ p with locked := false, pc := .leave }, nodes)
  | .leave => (p.dead, nodes)
  | .crash k =>
    match p.rsTbl[k]? with
    | some e =>
      ({ p with pc := .crash (k + 1) }, Function.update nodes (p.file e.1)
        (nodePwrite (nodes (p.file e.1)) (pgFmtU64 e.2) io.res))
    | none => (p.dead, nodes)

/-- What can happen to a process: it starts, it goes on (a governing one by its shutdown), it updates
a sink, a crash signal comes, or it is killed. -/
inductive LifeEvent
  | start
  | next (io : NextIo)
  | update (u : Sink × UpdateCall)
  | crash
  | kill

def Instance.step (free : Bool) (p : Instance) (nodes : Nodes) : LifeEvent → Instance × Nodes
  | .start => (if p.pc = .gone then .fresh p.file else p, nodes)
  | .next io => p.next free nodes io
  | .update u =>
    if p.pc = .govern then p.put nodes u.1 ((p.channel nodes u.1).update u.2) else (p, nodes)
  | .crash => (if p.hooked then { p with pc := .crash 0, hooked := false } else p.dead, nodes)
  | .kill => (p.dead, nodes)

def daemonParty : Party Instance Nodes LifeEvent := ⟨Instance.step, Instance.locked⟩

abbrev Device := System ℕ Instance Nodes

def Device.start (boot : Nodes) : Device :=
  { party := fun _ => (Instance.fresh fun _ => (.schedLat, 0)).dead, resource := boot, holder := none }

section Lock

variable {p : Instance} {nodes : Nodes} {i : Sink} {free : Bool} {e : LifeEvent}

structure Instance.Outside (p : Instance) : Prop where
  unlocked : p.locked = false
  table : p.rsTbl = []
  place : match p.pc with
    | .gone | .leave | .crash _ => True
    | .privilege | .lock | .restore _ | .close =>
      p.hooked = false ∧ ∀ i, (p.cache i).active = false
    | _ => False

structure Instance.Inside (p : Instance) : Prop where
  locked : p.locked = true
  place : match p.pc with
    | .gone | .privilege | .lock | .leave => False
    | .close => p.rsTbl = []
    | _ => True

theorem Instance.dead_outside (p : Instance) : p.dead.Outside := ⟨rfl, rfl, trivial⟩

theorem put_channel_self (p : Instance) (nodes : Nodes) (i : Sink) :
    p.put nodes i (p.channel nodes i) = (p, nodes) := by
  simp [Instance.put, Instance.channel]

theorem put_restore_inactive (h : (p.cache i).active = false) (res : Pwrite) :
    p.put nodes i ((p.channel nodes i).restore res) = (p, nodes) := by
  rw [restore_unmapped (c := p.channel nodes i) h, put_channel_self]

theorem outside_next (h : p.Outside) (io : NextIo) :
    (p.next free nodes io).2 = nodes ∧ ((p.next free nodes io).1.Outside ∨
      free = true ∧ p.pc = .lock ∧ (p.next free nodes io).1 = { p with locked := true, pc := .boot }) := by
  have hplace := h.place
  unfold Instance.next
  cases hpc : p.pc <;> rw [hpc] at hplace <;> simp only at hplace ⊢
  case gone => exact ⟨trivial, .inl h⟩
  case privilege =>
    refine ⟨trivial, .inl ⟨h.unlocked, h.table, ?_⟩⟩
    cases io.ok <;> exact hplace
  case lock =>
    split
    · next htake =>
      rw [Bool.and_eq_true] at htake
      exact ⟨rfl, .inr ⟨htake.2, trivial, rfl⟩⟩
    · exact ⟨rfl, .inl ⟨h.unlocked, h.table, hplace⟩⟩
  case restore done =>
    cases hi : sinks[done]? with
    | none => exact ⟨rfl, .inl ⟨h.unlocked, rfl, hplace⟩⟩
    | some i =>
      simp only [put_restore_inactive (hplace.2 i)]
      exact ⟨trivial, .inl ⟨h.unlocked, h.table, hplace⟩⟩
  case close => exact ⟨trivial, .inl ⟨rfl, h.table, trivial⟩⟩
  case leave => exact ⟨trivial, .inl p.dead_outside⟩
  case crash k =>
    rw [h.table, List.getElem?_nil]
    exact ⟨rfl, .inl p.dead_outside⟩

/-- Without the lock a process changes no node, and the only way in is a lock file that is free. -/
theorem outside_step (h : p.Outside) (free : Bool) (nodes : Nodes) (e : LifeEvent) :
    (p.step free nodes e).2 = nodes ∧ ((p.step free nodes e).1.Outside ∨
      free = true ∧ p.pc = .lock ∧ (p.step free nodes e).1 = { p with locked := true, pc := .boot }) := by
  cases e with
  | start =>
    refine ⟨rfl, .inl ?_⟩
    simp only [Instance.step]
    split
    · exact ⟨rfl, rfl, rfl, fun _ => rfl⟩
    · exact h
  | next io => exact outside_next h io
  | update u =>
    have hidle : p.pc ≠ .govern := by
      intro hpc
      have hplace := h.place
      rw [hpc] at hplace
      exact hplace
    simp only [Instance.step]
    rw [if_neg hidle]
    exact ⟨rfl, .inl h⟩
  | crash =>
    refine ⟨rfl, .inl ?_⟩
    simp only [Instance.step]
    split
    · exact ⟨h.unlocked, h.table, trivial⟩
    · exact p.dead_outside
  | kill => exact ⟨rfl, .inl p.dead_outside⟩

theorem inside_next (h : p.Inside) (io : NextIo) :
    (p.next free nodes io).1.Inside ∨ (p.next free nodes io).1.Outside := by
  have hplace := h.place
  unfold Instance.next
  cases hpc : p.pc <;> rw [hpc] at hplace <;> simp only at hplace ⊢
  case boot => exact .inl ⟨h.locked, by cases io.ok <;> trivial⟩
  case map done =>
    cases sinks[done]? <;> exact .inl ⟨h.locked, trivial⟩
  case snapshot => exact .inl ⟨h.locked, trivial⟩
  case arm => exact .inl ⟨h.locked, trivial⟩
  case setup => exact .inl ⟨h.locked, by cases io.ok <;> trivial⟩
  case govern => exact .inl ⟨h.locked, trivial⟩
  case restore done =>
    cases sinks[done]? with
    | none => exact .inl ⟨h.locked, rfl⟩
    | some i => exact .inl ⟨h.locked, trivial⟩
  case close => exact .inr ⟨rfl, hplace, trivial⟩
  case crash k =>
    cases p.rsTbl[k]? with
    | none => exact .inr p.dead_outside
    | some e => exact .inl ⟨h.locked, trivial⟩

theorem inside_step (h : p.Inside) (free : Bool) (nodes : Nodes) (e : LifeEvent) :
    (p.step free nodes e).1.Inside ∨ (p.step free nodes e).1.Outside := by
  cases e with
  | start =>
    have hrunning : p.pc ≠ .gone := by
      intro hpc
      have hplace := h.place
      rw [hpc] at hplace
      exact hplace
    left
    simp only [Instance.step]
    rwa [if_neg hrunning]
  | next io => exact inside_next h io
  | update u =>
    left
    simp only [Instance.step]
    split
    · next hpc => exact ⟨h.locked, by simp only [Instance.put, hpc]⟩
    · exact h
  | crash =>
    simp only [Instance.step]
    split
    · exact .inl ⟨h.locked, trivial⟩
    · exact .inr p.dead_outside
  | kill => exact .inr p.dead_outside

theorem daemon_locks : Contract daemonParty (fun _ _ => True) (fun _ => True)
    (fun p _ => p.Inside) Instance.Outside := by
  constructor
  · exact fun p h => h.unlocked
  · intro p r e h _
    obtain ⟨hsame, hout | ⟨hfree, -⟩⟩ := outside_step h false r e
    · exact ⟨hsame, hout⟩
    · exact absurd hfree (by simp)
  · intro p r e h _ _
    obtain ⟨hsame, hout | ⟨-, -, hin⟩⟩ := outside_step h true r e
    · exact ⟨hsame, .inl hout⟩
    · have hin' : (daemonParty.step true p r e).1 = { p with locked := true, pc := .boot } := hin
      exact ⟨hsame, .inr ⟨by rw [hin']; rfl, by rw [hin']; exact ⟨rfl, trivial⟩⟩⟩
  · intro p r e h _
    rcases inside_step h false r e with hin | hout
    · exact .inl ⟨hin.locked, hin⟩
    · exact .inr ⟨hout, trivial⟩

end Lock

theorem instances_exclude (boot : Nodes) (es : List (ℕ × LifeEvent)) :
    let s := run (System.step daemonParty) (Device.start boot) es
    (∀ j k, (s.party j).locked = true → (s.party k).locked = true → j = k) ∧
      ∀ e, (s.step daemonParty e).resource ≠ s.resource → (s.party e.1).locked = true := by
  intro s
  have hstart : Exclusion.Sound daemonParty (fun _ => True) (fun p _ => p.Inside) Instance.Outside
      (Device.start boot) :=
    ⟨fun _ _ => Instance.dead_outside _, fun _ h => absurd h.symm (Option.some_ne_none _),
      fun _ => trivial⟩
  have hsound := daemon_locks.run hstart (along_of_forall (fun _ _ => trivial) _ es)
  refine ⟨fun j k => daemon_locks.exclusive hsound, ?_⟩
  intro e hwrite
  by_contra hfree
  apply hwrite
  apply daemon_locks.guarded hsound trivial
  exact fun hholds => hfree (hsound.holding e.1 hholds).1

end Pgov
