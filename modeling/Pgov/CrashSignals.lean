import Pgov.RestorePaths

namespace Pgov

open FixedWidth Runs

inductive CrashSig
  | segv
  | fpe
  | abrt
  | ill
  deriving DecidableEq, Repr

inductive HandlerPc
  | load
  | clear (hook : Bool)
  | restore (i : ℕ)
  | previous
  | reset
  | raise
  | ret
  deriving DecidableEq, Repr

structure HandlerFrame where
  sig : CrashSig
  pc : HandlerPc
  deriving DecidableEq, Repr

inductive MainPc
  | governing
  | restoring (done : ℕ)
  | restored
  deriving DecidableEq, Repr

/-- The process as signals see it. The handlers that have not returned are stacked with the last one
first; each blocks its own signal. -/
structure Process where
  sinks : Sinks
  main : MainPc
  crashHook : Bool
  handled : CrashSig → Bool
  pending : CrashSig → Bool
  frames : List HandlerFrame
  alive : Bool

def Process.deliver (p : Process) (sig : CrashSig) : Process :=
  if p.handled sig then { p with frames := ⟨sig, .load⟩ :: p.frames } else { p with alive := false }

def crashWrite (nodes : ℤ → ℤ) (e : ℤ × ℕ) (res : ℤ → Pwrite) : ℤ → ℤ :=
  Function.update nodes e.1 (nodePwrite (nodes e.1) (pgFmtU64 e.2) (res e.1))

def Process.handler (p : Process) (f : HandlerFrame) (below : List HandlerFrame)
    (res : ℤ → Pwrite) : Process :=
  let goto (pc : HandlerPc) : Process := { p with frames := ⟨f.sig, pc⟩ :: below }
  match f.pc with
  | .load => goto (.clear p.crashHook)
  | .clear hook => { goto (if hook then .restore 0 else .previous) with crashHook := false }
  | .restore i =>
    match p.sinks.rsTbl[i]? with
    | none => goto .previous
    | some e => { goto (.restore (i + 1)) with sinks.nodes := crashWrite p.sinks.nodes e res }
  | .previous => goto .reset
  | .reset => { goto .raise with handled := Function.update p.handled f.sig false }
  | .raise => { goto .ret with pending := Function.update p.pending f.sig true }
  | .ret =>
    if p.pending f.sig then
      Process.deliver
        { p with frames := below, pending := Function.update p.pending f.sig false } f.sig
    else { p with frames := below }

def Process.restoreAt (p : Process) (res : Sink → Pwrite) (done : ℕ) : Process :=
  match Pgov.sinks[done]? with
  | some i => { p with sinks := p.sinks.restore res i, main := .restoring (done + 1) }
  | none => { p with sinks.rsTbl := [], main := .restored }

def Process.restoreNext (p : Process) (res : Sink → Pwrite) : Process :=
  match p.main with
  | .governing => p.restoreAt res 0
  | .restoring done => p.restoreAt res done
  | .restored => p

inductive CrashEvent
  | update (u : Sink × UpdateCall)
  | restore (res : Sink → Pwrite)
  | signal (sig : CrashSig)
  | handler (res : ℤ → Pwrite)
  /-- The handler that was in place before ends the process. -/
  | exit

def Process.step (p : Process) (e : CrashEvent) : Process :=
  if !p.alive then p
  else
    match e with
    | .update u =>
      if p.frames = [] ∧ p.main = .governing then { p with sinks := p.sinks.update u } else p
    | .restore res => if p.frames = [] then p.restoreNext res else p
    | .signal sig =>
      if p.frames.any fun f => f.sig = sig then
        { p with pending := Function.update p.pending sig true }
      else p.deliver sig
    | .handler res =>
      match p.frames with
      | [] => p
      | f :: below => p.handler f below res
    | .exit =>
      match p.frames with
      | ⟨_, .previous⟩ :: _ => { p with alive := false }
      | _ => p

def Process.start (b : SinkBoot) : Process :=
  { sinks := b.start
    main := .governing
    crashHook := true
    handled := fun _ => true
    pending := fun _ => false
    frames := []
    alive := true }

section Nodes

variable {b : SinkBoot} {s : Sinks} {k : ℕ}

def Settled (b : SinkBoot) (s : Sinks) : Prop :=
  ∀ i, b.captured i → s.nodes (b.cache i).fd = b.nodes (b.cache i).fd

/-- Every captured node is back, or among the entries of the table from the `k`th on. -/
def Covers (b : SinkBoot) (s : Sinks) (k : ℕ) : Prop :=
  ∀ i, b.captured i → s.nodes (b.cache i).fd = b.nodes (b.cache i).fd ∨
    ((b.cache i).fd, (b.cache i).base) ∈ s.rsTbl.drop k

def TableSound (b : SinkBoot) (s : Sinks) : Prop :=
  ∀ e ∈ s.rsTbl, ∃ i, b.captured i ∧ e = ((b.cache i).fd, (b.cache i).base)

theorem Covers.settled (h : Covers b s k) (hk : s.rsTbl.length ≤ k) : Settled b s := by
  intro i hi
  rcases h i hi with hnode | hmem
  · exact hnode
  · rw [List.drop_eq_nil_of_le hk] at hmem
    cases hmem

theorem Settled.covers (h : Settled b s) (k : ℕ) : Covers b s k := fun i hi => .inl (h i hi)

theorem captured_base_lt {i : Sink} (hi : b.captured i) : (b.cache i).base < 2 ^ 64 := by
  rcases cacheInit_cases (b.paths i) with hc | ⟨p, -, fd, -, -, -, -, hbase⟩
  · have hinactive : (b.cache i).active = false := by rw [SinkBoot.cache, hc]; rfl
    rw [hi.1] at hinactive
    exact absurd hinactive (by decide)
  · obtain ⟨cur, -, -, hbase⟩ := hbase hi.2
    have hu : (b.cache i).base = (u32 cur).toNat := hbase
    rw [hu, u32]
    omega

theorem crashWrite_cases {i : Sink} (hi : b.captured i) (nodes : ℤ → ℤ) (res : ℤ → Pwrite) :
    crashWrite nodes ((b.cache i).fd, (b.cache i).base) res = nodes ∨
      crashWrite nodes ((b.cache i).fd, (b.cache i).base) res =
        Function.update nodes (b.cache i).fd ((b.cache i).base : ℤ) := by
  rw [crashWrite]
  by_cases hc : (res (b.cache i).fd).Complete (b.cache i).base
  · right
    rw [nodePwrite_complete (captured_base_lt hi) hc]
  · left
    rw [nodePwrite_incomplete hc, Function.update_eq_self]

theorem crashWrite_self (hb : b.Fair) {i : Sink} (hi : b.captured i) {nodes : ℤ → ℤ}
    {res : ℤ → Pwrite} (hres : (res (b.cache i).fd).Complete (b.cache i).base) :
    crashWrite nodes ((b.cache i).fd, (b.cache i).base) res (b.cache i).fd =
      b.nodes (b.cache i).fd := by
  obtain ⟨hboot, hlt⟩ := hb.base hi
  rw [crashWrite, Function.update_self, nodePwrite_complete (hlt.trans (by norm_num)) hres, hboot]

theorem crashWrite_keeps (hb : b.Fair) (htable : TableSound b s) {e : ℤ × ℕ} (he : e ∈ s.rsTbl)
    {res : ℤ → Pwrite} {i : Sink} (h : s.nodes (b.cache i).fd = b.nodes (b.cache i).fd) :
    crashWrite s.nodes e res (b.cache i).fd = b.nodes (b.cache i).fd := by
  obtain ⟨j, hj, rfl⟩ := htable e he
  rcases crashWrite_cases hj s.nodes res with hsame | hset
  · rw [hsame, h]
  · rw [hset, ← (hb.base hj).1]
    by_cases hfd : (b.cache i).fd = (b.cache j).fd
    · rw [hfd, Function.update_self]
    · rw [Function.update_of_ne hfd, h]

theorem Settled.write (h : Settled b s) (hb : b.Fair) (htable : TableSound b s) {e : ℤ × ℕ}
    (he : e ∈ s.rsTbl) (res : ℤ → Pwrite) :
    Settled b { s with nodes := crashWrite s.nodes e res } :=
  fun i hi => crashWrite_keeps hb htable he (h i hi)

theorem Covers.write (h : Covers b s k) (hb : b.Fair) (htable : TableSound b s) {e : ℤ × ℕ}
    (he : s.rsTbl[k]? = some e) {res : ℤ → Pwrite} (hres : ∀ e ∈ s.rsTbl, (res e.1).Complete e.2) :
    Covers b { s with nodes := crashWrite s.nodes e res } (k + 1) := by
  have hmem : e ∈ s.rsTbl := List.mem_of_getElem? he
  intro i hi
  rcases h i hi with hnode | hleft
  · exact .inl (crashWrite_keeps hb htable hmem hnode)
  · obtain ⟨hk, hget⟩ := List.getElem?_eq_some_iff.mp he
    rw [List.drop_eq_getElem_cons hk, hget] at hleft
    rcases List.mem_cons.mp hleft with rfl | hlater
    · exact .inl (crashWrite_self hb hi (hres _ hmem))
    · exact .inr hlater

end Nodes

section Crash

variable {b : SinkBoot} {p : Process} {f : HandlerFrame} {below : List HandlerFrame}

def RestoredBy (b : SinkBoot) (s : Sinks) : MainPc → Prop
  | .governing => s.rsTbl = b.start.rsTbl
  | .restoring done => s.rsTbl = b.start.rsTbl ∧ ∀ i ∈ sinks.take done, b.captured i →
      s.nodes (b.cache i).fd = b.nodes (b.cache i).fd
  | .restored => s.rsTbl = [] ∧ Settled b s

/-- A handler that has not taken the hook away from the ones that come after it. -/
def HandlerFrame.Early (f : HandlerFrame) : Prop := f.pc = .load ∨ f.pc = .clear true

/-- The stages of a crash: no signal yet, the hook still in place, the hook at work, its work done. -/
inductive Stage (b : SinkBoot) (p : Process) : Prop
  | quiet (frames : p.frames = []) (hook : p.crashHook = true) (frozen : Frozen b p.sinks)
      (restored : RestoredBy b p.sinks p.main)
  | early (frames : p.frames ≠ []) (hook : p.crashHook = true) (pcs : ∀ f ∈ p.frames, f.Early)
      (covers : Covers b p.sinks 0)
  | working {f : HandlerFrame} {below : List HandlerFrame} {k : ℕ} (frames : p.frames = f :: below)
      (pc : f.pc = .restore k) (covers : Covers b p.sinks k)
  | done (frames : p.frames ≠ []) (settled : Settled b p.sinks)

/-- A signal that is not handled any more is blocked until its handler ends the process with it. -/
structure SignalInv (p : Process) : Prop where
  blocked : ∀ sig, p.handled sig = false → ∃ f ∈ p.frames, f.sig = sig
  reset : ∀ f ∈ p.frames, f.pc = .raise ∨ f.pc = .ret → p.handled f.sig = false
  raised : ∀ f ∈ p.frames, f.pc = .ret → p.pending f.sig = true

inductive CrashInv (b : SinkBoot) (p : Process) : Prop
  | alive (alive : p.alive = true) (table : TableSound b p.sinks) (signals : SignalInv p)
      (stage : Stage b p)
  | dead (alive : p.alive = false) (settled : Settled b p.sinks)

def Process.Writing (p : Process) : Prop :=
  ∃ f below k, p.frames = f :: below ∧ f.pc = .restore k ∧ k < p.sinks.rsTbl.length

/-- Updates stay in range, writes that restore complete, and no other crash signal comes while the
table is being written. -/
def CrashEvent.Calm (p : Process) : CrashEvent → Prop
  | .update u => u.2.value < 2 ^ 40
  | .restore res => ∀ i, (pgSysfsRestore (p.sinks.cache i) (res i)).2 = true →
      (res i).Complete (p.sinks.cache i).base
  | .signal sig => (∃ f ∈ p.frames, f.sig = sig) ∨ ¬p.Writing
  | .handler res => ∀ e ∈ p.sinks.rsTbl, (res e.1).Complete e.2
  | .exit => True

theorem RestoredBy.covers {s : Sinks} (h : RestoredBy b s p.main) : Covers b s 0 := by
  have htable (hs : s.rsTbl = b.start.rsTbl) : Covers b s 0 := by
    intro i hi
    rw [List.drop_zero, hs]
    exact .inr (restoreSnapshot_mem.mpr ⟨i, hi, rfl⟩)
  cases hmain : p.main with
  | governing =>
    rw [hmain] at h
    exact htable h
  | restoring done =>
    rw [hmain] at h
    exact htable h.1
  | restored =>
    rw [hmain] at h
    exact h.2.covers 0

theorem Stage.settled (h : Stage b p) (hframes : p.frames = f :: below) (hearly : ¬f.Early)
    (hpc : ∀ k, f.pc ≠ .restore k) : Settled b p.sinks := by
  cases h with
  | quiet hnil => exact absurd (hframes.symm.trans hnil) (by simp)
  | early _ _ hpcs => exact absurd (hpcs f (by simp [hframes])) hearly
  | working hcons hk =>
    obtain ⟨rfl, -⟩ := List.cons.inj (hframes.symm.trans hcons)
    exact absurd hk (hpc _)
  | done _ hsettled => exact hsettled

theorem Stage.push (h : Stage b p) (hcalm : ¬p.Writing) (sig : CrashSig) :
    Stage b { p with frames := ⟨sig, .load⟩ :: p.frames } := by
  cases h with
  | quiet hnil hhook _ hrestored =>
    refine .early (by simp) hhook (fun g hg => ?_) hrestored.covers
    rw [hnil] at hg
    rw [List.mem_singleton.mp hg]
    exact .inl rfl
  | early _ hhook hpcs hcovers =>
    refine .early (by simp) hhook (fun g hg => ?_) hcovers
    rcases List.mem_cons.mp hg with rfl | hg
    · exact .inl rfl
    · exact hpcs g hg
  | working hcons hk hcovers =>
    apply Stage.done (by simp)
    apply hcovers.settled
    by_contra hlt
    exact hcalm ⟨_, _, _, hcons, hk, by omega⟩
  | done _ hsettled => exact .done (by simp) hsettled

theorem SignalInv.push (h : SignalInv p) (sig : CrashSig) :
    SignalInv { p with frames := ⟨sig, .load⟩ :: p.frames } := by
  constructor
  · intro sig' hsig'
    obtain ⟨g, hg, hgs⟩ := h.blocked sig' hsig'
    exact ⟨g, List.mem_cons_of_mem _ hg, hgs⟩
  · intro g hg hpc
    rcases List.mem_cons.mp hg with rfl | hg
    · simp at hpc
    · exact h.reset g hg hpc
  · intro g hg hpc
    rcases List.mem_cons.mp hg with rfl | hg
    · simp at hpc
    · exact h.raised g hg hpc

theorem SignalInv.goto (h : SignalInv p) {q : Process} (hframes : p.frames = f :: below)
    {pc : HandlerPc} (hq : q.frames = ⟨f.sig, pc⟩ :: below)
    (hblocked : ∀ sig, q.handled sig = false → p.handled sig = false ∨ sig = f.sig)
    (hhandled : ∀ sig, p.handled sig = false → q.handled sig = false)
    (hpending : ∀ sig, p.pending sig = true → q.pending sig = true)
    (hreset : pc = .raise ∨ pc = .ret → q.handled f.sig = false)
    (hraised : pc = .ret → q.pending f.sig = true) : SignalInv q := by
  have hbelow (g : HandlerFrame) (hg : g ∈ below) : g ∈ p.frames := by simp [hframes, hg]
  constructor
  · intro sig hsig
    rw [hq]
    rcases hblocked sig hsig with hp | rfl
    · obtain ⟨g, hg, rfl⟩ := h.blocked sig hp
      rw [hframes] at hg
      rcases List.mem_cons.mp hg with rfl | hg
      · exact ⟨⟨g.sig, pc⟩, by simp, rfl⟩
      · exact ⟨g, by simp [hg], rfl⟩
    · exact ⟨⟨f.sig, pc⟩, by simp, rfl⟩
  · intro g hg hpc
    rw [hq] at hg
    rcases List.mem_cons.mp hg with rfl | hg
    · exact hreset hpc
    · exact hhandled _ (h.reset g (hbelow g hg) hpc)
  · intro g hg hpc
    rw [hq] at hg
    rcases List.mem_cons.mp hg with rfl | hg
    · exact hraised hpc
    · exact hpending _ (h.raised g (hbelow g hg) hpc)

theorem SignalInv.free (h : SignalInv p) {sig : CrashSig} (hfree : ∀ f ∈ p.frames, f.sig ≠ sig) :
    p.handled sig = true := by
  by_contra hnot
  obtain ⟨g, hg, hgs⟩ := h.blocked sig (by simpa using hnot)
  exact hfree g hg hgs

theorem SignalInv.handler (h : SignalInv p) (hframes : p.frames = f :: below) (res : ℤ → Pwrite) :
    (f.pc = .ret ∧ (p.handler f below res).alive = false ∧
        (p.handler f below res).sinks = p.sinks) ∨
      f.pc ≠ .ret ∧ SignalInv (p.handler f below res) ∧
        (p.handler f below res).frames ≠ [] ∧ (p.handler f below res).alive = p.alive := by
  have hmem : f ∈ p.frames := by simp [hframes]
  -- a step within the handler that touches neither the dispositions nor what is pending
  have hstep {pc : HandlerPc} (hpc : pc ≠ .raise ∧ pc ≠ .ret) {q : Process}
      (hq : q.frames = ⟨f.sig, pc⟩ :: below) (hh : q.handled = p.handled)
      (hp : q.pending = p.pending) : SignalInv q := by
    apply h.goto hframes hq
    · intro sig h
      exact .inl (hh ▸ h)
    · intro sig h
      rw [hh, h]
    · intro sig h
      rw [hp, h]
    · rintro (h | h)
      · exact absurd h hpc.1
      · exact absurd h hpc.2
    · intro h
      exact absurd h hpc.2
  rw [Process.handler]
  cases hpc : f.pc with
  | load => exact .inr ⟨by simp, hstep (by simp) rfl rfl rfl, by simp, rfl⟩
  | clear hook => exact .inr ⟨by simp, hstep (by cases hook <;> simp) rfl rfl rfl, by simp, rfl⟩
  | restore i =>
    cases he : p.sinks.rsTbl[i]? with
    | none =>
      simp only [he]
      exact .inr ⟨by simp, hstep (by simp) rfl rfl rfl, by simp, trivial⟩
    | some e =>
      simp only [he]
      exact .inr ⟨by simp, hstep (by simp) rfl rfl rfl, by simp, trivial⟩
  | previous => exact .inr ⟨by simp, hstep (by simp) rfl rfl rfl, by simp, rfl⟩
  | reset =>
    refine .inr ⟨by simp, h.goto hframes rfl ?_ ?_ ?_ ?_ ?_, by simp, rfl⟩
    · intro sig h
      by_cases hs : sig = f.sig
      · exact .inr hs
      · exact .inl (by simpa [hs] using h)
    · intro sig h
      by_cases hs : sig = f.sig <;> simp [hs, h]
    · exact fun sig h => h
    · simp
    · simp
  | raise =>
    refine .inr ⟨by simp, h.goto hframes rfl ?_ ?_ ?_ ?_ ?_, by simp, rfl⟩
    · exact fun sig h => .inl h
    · exact fun sig h => h
    · intro sig h
      by_cases hs : sig = f.sig <;> simp [hs, h]
    · exact fun _ => h.reset f hmem (.inl hpc)
    · simp
  | ret =>
    left
    simp [h.raised f hmem hpc, Process.deliver, h.reset f hmem (.inr hpc)]

theorem handler_sinks (p : Process) (f : HandlerFrame) (below : List HandlerFrame)
    (res : ℤ → Pwrite) : (p.handler f below res).sinks = p.sinks ∨
      ∃ e ∈ p.sinks.rsTbl, (p.handler f below res).sinks =
        { p.sinks with nodes := crashWrite p.sinks.nodes e res } := by
  rw [Process.handler]
  cases hpc : f.pc with
  | restore i =>
    cases he : p.sinks.rsTbl[i]? with
    | none =>
      simp only [he]
      exact .inl trivial
    | some e =>
      simp only [he]
      exact .inr ⟨e, List.mem_of_getElem? he, rfl⟩
  | ret =>
    left
    simp only [Process.deliver]
    split_ifs <;> rfl
  | load => exact .inl rfl
  | clear hook => exact .inl rfl
  | previous => exact .inl rfl
  | reset => exact .inl rfl
  | raise => exact .inl rfl

theorem TableSound.handler (h : TableSound b p.sinks) (f : HandlerFrame)
    (below : List HandlerFrame) (res : ℤ → Pwrite) :
    TableSound b (p.handler f below res).sinks := by
  rcases handler_sinks p f below res with hsame | ⟨e, -, hset⟩
  · rwa [hsame]
  · rw [hset]
    exact h

theorem Stage.handler (h : Stage b p) (hb : b.Fair) (htable : TableSound b p.sinks)
    (hframes : p.frames = f :: below) (hret : f.pc ≠ .ret) {res : ℤ → Pwrite}
    (hres : ∀ e ∈ p.sinks.rsTbl, (res e.1).Complete e.2) : Stage b (p.handler f below res) := by
  have hmem : f ∈ p.frames := by simp [hframes]
  rw [Process.handler]
  cases hpc : f.pc with
  | load =>
    cases h with
    | quiet hnil => exact absurd (hframes.symm.trans hnil) (by simp)
    | early _ hhook hpcs hcovers =>
      refine .early (by simp) hhook (fun g hg => ?_) hcovers
      rcases List.mem_cons.mp hg with rfl | hg
      · exact .inr (by simp [hhook])
      · exact hpcs g (by simp [hframes, hg])
    | working hcons hk =>
      obtain ⟨rfl, -⟩ := List.cons.inj (hframes.symm.trans hcons)
      exact absurd (hpc.symm.trans hk) (by simp)
    | done _ hsettled => exact .done (by simp) hsettled
  | clear hook =>
    cases h with
    | quiet hnil => exact absurd (hframes.symm.trans hnil) (by simp)
    | early _ _ hpcs hcovers =>
      have hhook : hook = true := by
        rcases hpcs f hmem with h | h
        · exact absurd (hpc.symm.trans h) (by simp)
        · simpa using hpc.symm.trans h
      subst hhook
      exact .working rfl rfl hcovers
    | working hcons hk =>
      obtain ⟨rfl, -⟩ := List.cons.inj (hframes.symm.trans hcons)
      exact absurd (hpc.symm.trans hk) (by simp)
    | done _ hsettled => exact .done (by simp) hsettled
  | restore i =>
    have hcovers : Covers b p.sinks i := by
      cases h with
      | quiet hnil => exact absurd (hframes.symm.trans hnil) (by simp)
      | early _ _ hpcs =>
        rcases hpcs f hmem with h | h
        · exact absurd (hpc.symm.trans h) (by simp)
        · exact absurd (hpc.symm.trans h) (by simp)
      | working hcons hk hcovers =>
        obtain ⟨rfl, -⟩ := List.cons.inj (hframes.symm.trans hcons)
        obtain rfl := HandlerPc.restore.inj (hpc.symm.trans hk)
        exact hcovers
      | done _ hsettled => exact hsettled.covers i
    cases he : p.sinks.rsTbl[i]? with
    | none =>
      simp only [he]
      exact .done (by simp) (hcovers.settled (List.getElem?_eq_none_iff.mp he))
    | some e =>
      simp only [he]
      exact .working rfl rfl (hcovers.write hb htable he hres)
  | previous => exact .done (by simp) (h.settled hframes (by simp [HandlerFrame.Early, hpc]) (by simp [hpc]))
  | reset => exact .done (by simp) (h.settled hframes (by simp [HandlerFrame.Early, hpc]) (by simp [hpc]))
  | raise => exact .done (by simp) (h.settled hframes (by simp [HandlerFrame.Early, hpc]) (by simp [hpc]))
  | ret => exact absurd hpc hret

theorem CrashInv.handler (halive : p.alive = true) (htable : TableSound b p.sinks)
    (hsig : SignalInv p) (hstage : Stage b p) (hb : b.Fair) (hframes : p.frames = f :: below)
    {res : ℤ → Pwrite} (hres : ∀ e ∈ p.sinks.rsTbl, (res e.1).Complete e.2) :
    CrashInv b (p.handler f below res) := by
  rcases hsig.handler hframes res with ⟨hret, hdead, hsinks⟩ | ⟨hret, hsig', -, hkept⟩
  · apply CrashInv.dead hdead
    rw [hsinks]
    exact hstage.settled hframes (by simp [HandlerFrame.Early, hret]) (by simp [hret])
  · exact .alive (hkept.trans halive) (htable.handler f below res) hsig'
      (hstage.handler hb htable hframes hret hres)

theorem RestoredBy.next {s : Sinks} {main : MainPc} (h : RestoredBy b s main) (hb : b.Fair)
    (hfrozen : Frozen b s) {res : Sink → Pwrite}
    (hres : ∀ i, (pgSysfsRestore (s.cache i) (res i)).2 = true → (res i).Complete (s.cache i).base)
    {done : ℕ} (hdone : main = .governing ∧ done = 0 ∨ main = .restoring done) {i : Sink}
    (hi : sinks[done]? = some i) : RestoredBy b (s.restore res i) (.restoring (done + 1)) := by
  obtain ⟨hself, hother⟩ := hfrozen.restore_nodes hb (hres i)
  have hbefore : s.rsTbl = b.start.rsTbl ∧ ∀ j ∈ sinks.take done, b.captured j →
      s.nodes (b.cache j).fd = b.nodes (b.cache j).fd := by
    rcases hdone with ⟨rfl, rfl⟩ | rfl
    · exact ⟨h, by simp⟩
    · exact h
  refine ⟨hbefore.1, fun j hj hcap => ?_⟩
  rw [List.take_add_one, hi] at hj
  by_cases hji : j = i
  · subst hji
    rw [hself hcap, (hb.base hcap).1]
  · have hmem : j ∈ sinks.take done := by simpa [hji] using hj
    rw [hother _ fun hcap' => hb.distinct j i hji hcap.1 hcap'.1, hbefore.2 j hmem hcap]

theorem SignalInv.same (h : SignalInv p) {q : Process} (hf : q.frames = p.frames)
    (hh : q.handled = p.handled) (hp : ∀ sig, p.pending sig = true → q.pending sig = true) :
    SignalInv q := by
  constructor
  · rw [hf, hh]
    exact h.blocked
  · rw [hf, hh]
    exact h.reset
  · rw [hf]
    exact fun f hf hpc => hp _ (h.raised f hf hpc)

theorem Stage.same (h : Stage b p) {q : Process} (hs : q.sinks = p.sinks) (hm : q.main = p.main)
    (hc : q.crashHook = p.crashHook) (hf : q.frames = p.frames) : Stage b q := by
  cases h with
  | quiet hnil hhook hfrozen hrestored =>
    exact .quiet (hf.trans hnil) (hc.trans hhook) (hs ▸ hfrozen) (hs ▸ hm ▸ hrestored)
  | early hne hhook hpcs hcovers =>
    exact .early (hf ▸ hne) (hc.trans hhook) (hf ▸ hpcs) (hs ▸ hcovers)
  | working hcons hk hcovers => exact .working (hf.trans hcons) hk (hs ▸ hcovers)
  | done hne hsettled => exact .done (hf ▸ hne) (hs ▸ hsettled)

theorem CrashInv.restoreAt (halive : p.alive = true) (htable : TableSound b p.sinks)
    (hsig : SignalInv p) (hb : b.Fair) (hnil : p.frames = []) (hhook : p.crashHook = true)
    (hfrozen : Frozen b p.sinks) (hrestored : RestoredBy b p.sinks p.main) {res : Sink → Pwrite}
    (hres : ∀ i, (pgSysfsRestore (p.sinks.cache i) (res i)).2 = true →
      (res i).Complete (p.sinks.cache i).base) {done : ℕ}
    (hdone : p.main = .governing ∧ done = 0 ∨ p.main = .restoring done) :
    CrashInv b (p.restoreAt res done) := by
  rw [Process.restoreAt]
  cases hi : sinks[done]? with
  | some i =>
    exact .alive halive htable (hsig.same rfl rfl fun _ h => h)
      (.quiet hnil hhook (hfrozen.restore hb res i) (hrestored.next hb hfrozen hres hdone hi))
  | none =>
    have hlast : sinks.length ≤ done := List.getElem?_eq_none_iff.mp hi
    have hmain : p.main = .restoring done := by
      rcases hdone with ⟨-, rfl⟩ | hmain
      · exact absurd hlast (by decide)
      · exact hmain
    rw [hmain] at hrestored
    refine .alive halive (fun e he => by simp at he) (hsig.same rfl rfl fun _ h => h)
      (.quiet hnil hhook ⟨hfrozen.unmapped, hfrozen.mapped⟩ ⟨rfl, fun i hi => ?_⟩)
    apply hrestored.2 i _ hi
    rw [List.take_of_length_le hlast]
    cases i <;> decide

theorem CrashInv.step (h : CrashInv b p) (hb : b.Fair) {e : CrashEvent} (hcalm : e.Calm p) :
    CrashInv b (p.step e) := by
  cases h with
  | dead hdead hsettled =>
    unfold Process.step
    rw [if_pos (by simp [hdead])]
    exact .dead hdead hsettled
  | alive halive htable hsig hstage =>
    have hsame : CrashInv b p := .alive halive htable hsig hstage
    unfold Process.step
    rw [if_neg (by simp [halive])]
    cases e with
    | update u =>
      simp only
      split
      · rename_i hidle
        cases hstage with
        | quiet hnil hhook hfrozen hrestored =>
          rw [hidle.2] at hrestored
          refine .alive halive htable (hsig.same rfl rfl fun _ h => h)
            (.quiet hnil hhook (hfrozen.update hb hcalm) ?_)
          simp only [hidle.2]
          exact hrestored
        | early hne => exact absurd hidle.1 hne
        | working hcons => exact absurd (hcons.symm.trans hidle.1) (by simp)
        | done hne => exact absurd hidle.1 hne
      · exact hsame
    | restore res =>
      simp only
      split
      · rename_i hidle
        cases hstage with
        | quiet hnil hhook hfrozen hrestored =>
          rw [Process.restoreNext]
          split
          · rename_i hmain
            exact CrashInv.restoreAt halive htable hsig hb hnil hhook hfrozen hrestored hcalm
              (.inl ⟨hmain, rfl⟩)
          · rename_i done hmain
            exact CrashInv.restoreAt halive htable hsig hb hnil hhook hfrozen hrestored hcalm
              (.inr hmain)
          · exact hsame
        | early hne => exact absurd hidle hne
        | working hcons => exact absurd (hcons.symm.trans hidle) (by simp)
        | done hne => exact absurd hidle hne
      · exact hsame
    | signal sig =>
      simp only [List.any_eq_true, decide_eq_true_eq]
      split
      · refine .alive halive htable (hsig.same rfl rfl fun sig' h => ?_)
          (hstage.same rfl rfl rfl rfl)
        by_cases hs : sig' = sig <;> simp [hs, h]
      · rename_i hfree
        have hquiet : ¬p.Writing := hcalm.resolve_left hfree
        rw [Process.deliver, if_pos (hsig.free fun f hf hfs => hfree ⟨f, hf, hfs⟩)]
        exact .alive halive htable (hsig.push sig) (hstage.push hquiet sig)
    | handler res =>
      simp only
      split
      · exact hsame
      · rename_i f below hcons
        exact CrashInv.handler halive htable hsig hstage hb hcons hcalm
    | exit =>
      simp only
      split
      · rename_i sig below hcons
        exact .dead rfl (hstage.settled hcons (by simp [HandlerFrame.Early]) (by simp))
      · exact hsame

theorem crashInv_start (b : SinkBoot) : CrashInv b (Process.start b) := by
  refine .alive rfl (fun e he => restoreSnapshot_mem.mp he) ?_ (.quiet rfl rfl (frozen_start b) rfl)
  constructor <;> simp [Process.start]

/-- However crash signals interrupt the daemon and its handlers, it dies with every captured node back
at its boot value, unless another signal came while the table was being written. -/
theorem crash_restores (b : SinkBoot) (hb : b.Fair) (es : List CrashEvent)
    (hcalm : Along Process.step (fun p e => e.Calm p) (Process.start b) es)
    (hdead : (run Process.step (Process.start b) es).alive = false) :
    ∀ i, b.captured i → (run Process.step (Process.start b) es).sinks.nodes (b.cache i).fd =
      b.nodes (b.cache i).fd := by
  have hrun : CrashInv b (run Process.step (Process.start b) es) :=
    run_invariant (fun p e h hcalm => h.step hb hcalm) (crashInv_start b) hcalm
  cases hrun with
  | alive halive => exact absurd (halive.symm.trans hdead) (by simp)
  | dead _ hsettled => exact hsettled

theorem restore_run {sig : CrashSig} (res : ℤ → Pwrite) {left k : ℕ} (halive : p.alive = true)
    (hframes : p.frames = ⟨sig, .restore k⟩ :: below) (hleft : p.sinks.rsTbl.length = k + left) :
    (run Process.step p (List.replicate left (.handler res))).sinks.nodes =
      (p.sinks.rsTbl.drop k).foldl (fun nodes e => crashWrite nodes e res) p.sinks.nodes := by
  induction left generalizing p k with
  | zero => rw [List.drop_eq_nil_of_le (by omega), List.replicate_zero, run_nil, List.foldl_nil]
  | succ left ih =>
    have hk : k < p.sinks.rsTbl.length := by omega
    obtain ⟨q, hq⟩ : ∃ q, q = p.step (.handler res) := ⟨_, rfl⟩
    have hstep := hq
    unfold Process.step at hstep
    rw [if_neg (by simp [halive])] at hstep
    simp only [hframes, Process.handler, List.getElem?_eq_getElem hk] at hstep
    have hnext := ih (p := q) (k := k + 1) (by rw [hstep, halive]) (by rw [hstep])
      (by rw [hstep]; simp only; omega)
    rw [List.replicate_succ, run_cons, ← hq, hnext, hstep, List.drop_eq_getElem_cons hk,
      List.foldl_cons]

theorem handler_crashRestore {sig : CrashSig} (res : ℤ → Pwrite) (halive : p.alive = true)
    (hframes : p.frames = ⟨sig, .restore 0⟩ :: below) :
    (run Process.step p (List.replicate p.sinks.rsTbl.length (.handler res))).sinks.nodes =
      (crashRestore p.sinks res).nodes := by
  rw [restore_run res halive hframes (by omega), List.drop_zero]
  rfl

def segvCrash : List CrashEvent := .signal .segv :: List.replicate 8 (.handler fun _ => .wrote 9)

theorem crash_restores_segv :
    let p := run Process.step (Process.start latencyBoot) (latencyUpdates.map .update)
    let q := run Process.step (Process.start latencyBoot) (latencyUpdates.map .update ++ segvCrash)
    p.sinks.nodes 7 = 500000 ∧
      q.sinks.nodes (latencyBoot.cache .schedLat).fd = latencyBoot.nodes (latencyBoot.cache .schedLat).fd := by
  have hwrites (p : Process) (hp : p.sinks.rsTbl = latencyBoot.start.rsTbl) :
      CrashEvent.Calm p (.handler fun _ => .wrote 9) := by
    rw [CrashEvent.Calm, hp]
    decide +kernel
  refine ⟨by decide +kernel, crash_restores latencyBoot latencyBoot_fair
    (latencyUpdates.map CrashEvent.update ++ segvCrash) ⟨?_, .inr ?_, ?_⟩ (by decide +kernel) .schedLat
    ⟨by decide +kernel, by decide +kernel⟩⟩
  · norm_num [CrashEvent.Calm]
  · rintro ⟨f, below, k, hframes, -⟩
    exact List.cons_ne_nil f below hframes.symm
  · refine ⟨hwrites _ ?_, hwrites _ ?_, hwrites _ ?_, hwrites _ ?_, hwrites _ ?_, hwrites _ ?_,
      hwrites _ ?_, hwrites _ ?_, trivial⟩ <;> decide +kernel

structure Uncrashed (b : SinkBoot) (p : Process) : Prop where
  table : TableSound b p.sinks
  frames : p.frames = []
  alive : p.alive = true
  handled : ∀ sig, p.handled sig = true

def CrashEvent.IsMain : CrashEvent → Prop
  | .update _ => True
  | .restore _ => True
  | _ => False

theorem Uncrashed.step (h : Uncrashed b p) {e : CrashEvent} (he : e.IsMain) : Uncrashed b (p.step e) := by
  unfold Process.step
  rw [if_neg (by simp [h.alive])]
  cases e with
  | update u =>
    simp only
    split
    · exact ⟨h.table, h.frames, h.alive, h.handled⟩
    · exact h
  | restore res =>
    have hat (done : ℕ) : Uncrashed b (p.restoreAt res done) := by
      rw [Process.restoreAt]
      split
      · exact ⟨h.table, h.frames, h.alive, h.handled⟩
      · exact ⟨fun e he => by simp at he, h.frames, h.alive, h.handled⟩
    simp only [h.frames, if_true, Process.restoreNext]
    split
    · exact hat 0
    · exact hat _
    · exact h
  | signal sig => exact he.elim
  | handler res => exact he.elim
  | exit => exact he.elim

structure Stopped (b : SinkBoot) (p q : Process) : Prop where
  table : TableSound b q.sinks
  going : q.alive = true → SignalInv q ∧ q.frames ≠ []
  nodes : ∀ fd, q.sinks.nodes fd = p.sinks.nodes fd ∨
    ∃ i, b.captured i ∧ fd = (b.cache i).fd ∧ q.sinks.nodes fd = (b.cache i).base

theorem Uncrashed.signal (h : Uncrashed b p) (sig : CrashSig) : Stopped b p (p.step (.signal sig)) := by
  have hsig : SignalInv p := by
    constructor
    · intro sig' hsig'
      rw [h.handled] at hsig'
      cases hsig'
    · simp [h.frames]
    · simp [h.frames]
  unfold Process.step
  rw [if_neg (by simp [h.alive])]
  simp only [h.frames, List.any_nil, Bool.false_eq_true, if_false, Process.deliver, h.handled, if_true]
  refine ⟨h.table, fun _ => ⟨?_, by simp⟩, fun fd => .inl rfl⟩
  have hpush := hsig.push sig
  rwa [h.frames] at hpush

theorem Stopped.write {q : Process} (h : Stopped b p q) {e : ℤ × ℕ} (he : e ∈ q.sinks.rsTbl)
    (res : ℤ → Pwrite) (fd : ℤ) : crashWrite q.sinks.nodes e res fd = p.sinks.nodes fd ∨
      ∃ i, b.captured i ∧ fd = (b.cache i).fd ∧
        crashWrite q.sinks.nodes e res fd = (b.cache i).base := by
  obtain ⟨i, hi, rfl⟩ := h.table e he
  rcases crashWrite_cases hi q.sinks.nodes res with hsame | hset
  · rw [hsame]
    exact h.nodes fd
  · rw [hset]
    by_cases hfd : fd = (b.cache i).fd
    · right
      exact ⟨i, hi, hfd, by rw [hfd, Function.update_self]⟩
    · rw [Function.update_of_ne hfd]
      exact h.nodes fd

theorem Stopped.step {q : Process} (h : Stopped b p q) (e : CrashEvent) :
    Stopped b p (q.step e) := by
  unfold Process.step
  split
  · exact h
  · rename_i halive
    obtain ⟨hsig, hne⟩ := h.going (by simpa using halive)
    cases e with
    | update u =>
      simp only [hne, false_and, if_false]
      exact h
    | restore res =>
      simp only [hne, if_false]
      exact h
    | signal sig =>
      simp only [List.any_eq_true, decide_eq_true_eq]
      split
      · refine ⟨h.table, fun _ => ⟨hsig.same rfl rfl fun sig' hs => ?_, hne⟩, h.nodes⟩
        by_cases hs' : sig' = sig <;> simp [hs', hs]
      · rename_i hfree
        rw [Process.deliver, if_pos (hsig.free fun f hf hfs => hfree ⟨f, hf, hfs⟩)]
        exact ⟨h.table, fun _ => ⟨hsig.push sig, by simp⟩, h.nodes⟩
    | handler res =>
      simp only
      split
      · exact h
      · rename_i f below hcons
        refine ⟨h.table.handler f below res, fun hq => ?_, fun fd => ?_⟩
        · rcases hsig.handler hcons res with ⟨-, hdead, -⟩ | ⟨-, hsig', hne', -⟩
          · rw [hdead] at hq
            cases hq
          · exact ⟨hsig', hne'⟩
        · rcases handler_sinks q f below res with hsame | ⟨e, he, hset⟩
          · rw [hsame]
            exact h.nodes fd
          · rw [hset]
            exact h.write he res fd
    | exit =>
      simp only
      split
      · exact ⟨h.table, fun hq => absurd hq (by simp), h.nodes⟩
      · exact h

/-- From the first crash signal on, under every interleaving of handlers and whatever their writes
meet, the program never runs again, and a node only changes to the value captured for it. -/
theorem crash_only_restores (b : SinkBoot) {main : List CrashEvent}
    (hmain : ∀ e ∈ main, e.IsMain) (sig : CrashSig) (es : List CrashEvent) :
    let p := run Process.step (Process.start b) main
    let q := run Process.step p (.signal sig :: es)
    (q.alive = true → q.frames ≠ []) ∧ ∀ fd, q.sinks.nodes fd = p.sinks.nodes fd ∨
      ∃ i, b.captured i ∧ fd = (b.cache i).fd ∧ q.sinks.nodes fd = (b.cache i).base := by
  intro p q
  have hstart : Uncrashed b (Process.start b) :=
    ⟨fun e he => restoreSnapshot_mem.mp he, rfl, rfl, fun _ => rfl⟩
  have hidle : Uncrashed b p :=
    run_invariant (fun p e h he => h.step he) hstart (along_of_mem hmain _)
  have hstopped : Stopped b p q :=
    run_invariant (fun q e h _ => h.step e) (hidle.signal sig)
      (along_of_forall (fun _ _ => trivial) _ es)
  exact ⟨fun halive => (hstopped.going halive).2, hstopped.nodes⟩

theorem crash_only_restores_segv :
    let p := run Process.step (Process.start latencyBoot) (latencyUpdates.map .update)
    let q := run Process.step p segvCrash
    p.sinks.nodes 7 ≠ q.sinks.nodes 7 ∧ (q.alive = true → q.frames ≠ []) ∧
      ∀ fd, q.sinks.nodes fd = p.sinks.nodes fd ∨ ∃ i, latencyBoot.captured i ∧
        fd = (latencyBoot.cache i).fd ∧ q.sinks.nodes fd = (latencyBoot.cache i).base :=
  ⟨by decide +kernel, crash_only_restores latencyBoot
    (by simp [latencyUpdates, CrashEvent.IsMain] :
      ∀ e ∈ latencyUpdates.map CrashEvent.update, e.IsMain) .segv _⟩

end Crash

end Pgov
