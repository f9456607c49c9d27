import Mathlib.Data.List.TakeWhile
import Pgov.Instances

namespace Pgov

open FixedWidth DecimalText

section Nodes

variable {boot nodes : Nodes} {p : Instance} {i : Sink}

structure Instance.Owns (p : Instance) (boot : Nodes) (i : Sink) : Prop where
  fd : 0 ≤ (p.cache i).fd
  sink : (p.node i).1 = i
  hasBase : (p.cache i).hasBase = true
  base : boot (p.node i) = (p.cache i).base
  lt : (p.cache i).base < 2 ^ 40

def Instance.Mapped (p : Instance) (boot : Nodes) : Prop :=
  ∀ i, (p.cache i).active = true → p.Owns boot i

/-- Every node is as it was at boot, or mapped and in step with its cache. -/
structure Governed (boot : Nodes) (p : Instance) (nodes : Nodes) : Prop where
  mapped : p.Mapped boot
  mirrors : ∀ i, (p.cache i).active = true → (p.channel nodes i).Mirrors (boot (p.node i))
    (p.cache i).fd (p.cache i).base true
  others : ∀ n, (∀ i, (p.cache i).active = true → p.node i ≠ n) → nodes n = boot n

def Instance.Table (p : Instance) : Prop :=
  ∀ e, e ∈ p.rsTbl ↔ ∃ i, (p.cache i).active = true ∧ e = ((p.cache i).fd, (p.cache i).base)

/-- The nodes that the table has nothing for from the `k`th entry on are as they were at boot. -/
structure Crashing (boot : Nodes) (p : Instance) (nodes : Nodes) (k : ℕ) : Prop where
  mapped : p.Mapped boot
  sound : ∀ e ∈ p.rsTbl, ∃ i, (p.cache i).active = true ∧ e = ((p.cache i).fd, (p.cache i).base)
  left : ∀ n, nodes n = boot n ∨ ∃ i, (p.cache i).active = true ∧ p.node i = n ∧
    ((p.cache i).fd, (p.cache i).base) ∈ p.rsTbl.drop k

/-- A crash brings every node back, or finds nothing to bring back. -/
def Guarded (boot : Nodes) (p : Instance) (nodes : Nodes) : Prop :=
  p.hooked = true ∧ p.Table ∨ p.hooked = false ∧ nodes = boot

def Instance.Clean (p : Instance) : Prop :=
  ∀ i ∈ sinks, (p.cache i).active = true →
    (p.cache i).last = uint64Max ∨ (p.cache i).last = (p.cache i).base

instance (p : Instance) : Decidable p.Clean :=
  inferInstanceAs (Decidable (∀ i ∈ sinks, _ → _))

theorem sinks_complete (i : Sink) : i ∈ sinks := by cases i <;> decide

theorem Instance.Mapped.distinct (h : p.Mapped boot) {j : Sink} (hi : (p.cache i).active = true)
    (hj : (p.cache j).active = true) (hnode : p.node i = p.node j) : i = j := by
  rw [← (h i hi).sink, hnode, (h j hj).sink]

theorem node_of_fd {j : Sink} (h : (p.cache i).fd = (p.cache j).fd) : p.node i = p.node j :=
  congrArg p.file h

theorem Governed.clean (h : Governed boot p nodes) (hclean : p.Clean) : nodes = boot := by
  funext n
  by_cases hn : ∃ i, (p.cache i).active = true ∧ p.node i = n
  · obtain ⟨i, hi, rfl⟩ := hn
    have howns := h.mapped i hi
    rcases (h.mirrors i hi).mirror with ⟨-, hboot⟩ | ⟨hlt, hlast⟩
    · exact hboot
    · have hvalue : nodes (p.node i) = (p.cache i).last := hlast
      rcases hclean i (sinks_complete i) hi with hmax | hbase
      · have hsmall : (p.cache i).last < 2 ^ 40 := hlt
        rw [hmax] at hsmall
        exact absurd hsmall (by norm_num [uint64Max])
      · rw [hvalue, hbase, howns.base]
  · exact h.others n fun i hi hnode => hn ⟨i, hi, hnode⟩

theorem Governed.put (h : Governed boot p nodes) (hi : (p.cache i).active = true) {c : Channel}
    (hc : c.Mirrors (boot (p.node i)) (p.cache i).fd (p.cache i).base true) :
    Governed boot (p.put nodes i c).1 (p.put nodes i c).2 ∧
      (∀ j, ((p.put nodes i c).1.cache j).active = (p.cache j).active ∧
        ((p.put nodes i c).1.cache j).fd = (p.cache j).fd ∧
        ((p.put nodes i c).1.cache j).base = (p.cache j).base) := by
  have hcache (j : Sink) : ((p.put nodes i c).1.cache j).active = (p.cache j).active ∧
      ((p.put nodes i c).1.cache j).fd = (p.cache j).fd ∧
      ((p.put nodes i c).1.cache j).base = (p.cache j).base ∧
      ((p.cache j).active = true → ((p.put nodes i c).1.cache j).hasBase = true) := by
    by_cases hj : j = i
    · subst hj
      simp only [Instance.put, Function.update_self]
      exact ⟨hc.active.trans hi.symm, hc.fd_eq, hc.base_eq, fun _ => hc.hasBase_eq⟩
    · simp only [Instance.put, Function.update_of_ne hj]
      exact ⟨trivial, trivial, trivial, fun hact => (h.mapped j hact).hasBase⟩
  have hnode (j : Sink) : (p.put nodes i c).1.node j = p.node j :=
    congrArg p.file (hcache j).2.1
  refine ⟨⟨?_, ?_, ?_⟩, fun j => ⟨(hcache j).1, (hcache j).2.1, (hcache j).2.2.1⟩⟩
  · intro j hj
    obtain ⟨hact, hfd, hbase, hhas⟩ := hcache j
    have howns := h.mapped j (hact ▸ hj)
    refine ⟨hfd ▸ howns.fd, hnode j ▸ howns.sink, hhas (hact ▸ hj), ?_, hbase ▸ howns.lt⟩
    rw [hnode, hbase, howns.base]
  · intro j hj
    obtain ⟨hact, hfd, hbase, -⟩ := hcache j
    rw [hnode, hfd, hbase]
    by_cases hij : j = i
    · subst hij
      have hself : (p.put nodes j c).1.channel (p.put nodes j c).2 j = c := by
        rw [Instance.channel, hnode]
        simp only [Instance.put, Function.update_self]
      rwa [hself]
    · have hne : p.node j ≠ p.node i := fun heq => hij (h.mapped.distinct (hact ▸ hj) hi heq)
      have hother : (p.put nodes i c).1.channel (p.put nodes i c).2 j = p.channel nodes j := by
        rw [Instance.channel, hnode]
        simp only [Instance.channel, Instance.put, Function.update_of_ne hij,
          Function.update_of_ne hne]
      rw [hother]
      exact h.mirrors j (hact ▸ hj)
  · intro n hn
    have hne : n ≠ p.node i := fun heq => hn i ((hcache i).1.trans hi) ((hnode i).trans heq.symm)
    simp only [Instance.put, Function.update_of_ne hne]
    apply h.others
    intro j hj heq
    exact hn j ((hcache j).1.trans hj) ((hnode j).trans heq)

theorem Instance.Mapped.same {q : Instance} (h : p.Mapped boot) (hcache : q.cache = p.cache)
    (hfile : q.file = p.file) : q.Mapped boot := by
  have hnode (i : Sink) : q.node i = p.node i := by rw [Instance.node, hcache, hfile, Instance.node]
  intro i hi
  rw [hcache] at hi
  have howns := h i hi
  constructor
  · rw [hcache]
    exact howns.fd
  · rw [hnode]
    exact howns.sink
  · rw [hcache]
    exact howns.hasBase
  · rw [hnode, hcache]
    exact howns.base
  · rw [hcache]
    exact howns.lt

theorem Governed.same {q : Instance} (h : Governed boot p nodes) (hcache : q.cache = p.cache)
    (hfile : q.file = p.file) : Governed boot q nodes := by
  have hnode (i : Sink) : q.node i = p.node i := by rw [Instance.node, hcache, hfile, Instance.node]
  refine ⟨h.mapped.same hcache hfile, ?_, ?_⟩
  · intro i hi
    rw [hcache] at hi
    rw [Instance.channel, hnode, hcache]
    exact h.mirrors i hi
  · intro n hn
    apply h.others
    intro i hi
    rw [← hnode]
    apply hn
    rwa [hcache]

theorem governed_bare (h : ∀ i, (p.cache i).active = false) : Governed boot p boot := by
  have hnone {i : Sink} {P : Prop} (hi : (p.cache i).active = true) : P := by
    rw [h] at hi
    exact absurd hi (by simp)
  exact ⟨fun i hi => hnone hi, fun i hi => hnone hi, fun _ _ => rfl⟩

theorem nodeCandidates_cases (nodes : Nodes) (i : Sink) (paths : List PathIo) :
    (pgSysfsCacheInit (nodeCandidates nodes i paths)).1 = sysfsUnmapped ∨
      ∃ c ∈ paths, ∃ fd, c.fd = some fd ∧ ∃ skipped rest, (∀ q ∈ skipped, q.fd = none) ∧
        nodeCandidates nodes i paths =
          skipped ++ pathCandidate nodes i (c, (skippedPaths paths).length) :: rest := by
  have hskip (l : List PathIo) : ∀ q ∈ (skippedPaths l).zipIdx.map (pathCandidate nodes i),
      q.fd = none := by
    intro q hq
    obtain ⟨⟨c, k⟩, hc, rfl⟩ := List.mem_map.mp hq
    have hclosed := List.mem_takeWhile_imp (List.fst_mem_of_mem_zipIdx hc)
    exact Option.isNone_iff_eq_none.mp hclosed
  have hsplit : skippedPaths paths ++ paths.dropWhile (fun c => c.fd.isNone) = paths :=
    List.takeWhile_append_dropWhile
  have hcands : nodeCandidates nodes i paths =
      (skippedPaths paths).zipIdx.map (pathCandidate nodes i) ++
        ((paths.dropWhile fun c => c.fd.isNone).zipIdx (skippedPaths paths).length).map
          (pathCandidate nodes i) := by
    conv_lhs => rw [nodeCandidates, ← hsplit, List.zipIdx_append, List.map_append, Nat.zero_add]
  cases hrest : paths.dropWhile fun c => c.fd.isNone with
  | nil =>
    left
    rw [hcands, hrest, List.zipIdx_nil, List.map_nil, cacheInit_skip (hskip paths)]
    rfl
  | cons c rest =>
    right
    have hopen : c.fd.isNone = false := by
      have hhead := List.head_dropWhile_not (fun c : PathIo => c.fd.isNone) (l := paths) (by simp [hrest])
      simpa only [hrest, List.head_cons] using hhead
    obtain ⟨fd, hfd⟩ := Option.isSome_iff_exists.mp (by simpa using hopen)
    refine ⟨c, ?_, fd, hfd, _, (rest.zipIdx ((skippedPaths paths).length + 1)).map
      (pathCandidate nodes i), hskip paths, ?_⟩
    · rw [← hsplit, hrest]
      simp
    · rw [hcands, hrest, List.zipIdx_cons, List.map_cons]

theorem mapSink_governed (hboot : ∀ n, 0 ≤ boot n ∧ boot n ≤ int32Max) (h : Governed boot p boot)
    {paths : List PathIo} (hs : ∀ c ∈ paths, ∀ fd ∈ c.fd, c.readable = true ∧
      ∀ i ∈ sinks, (p.cache i).active = true → (p.cache i).fd ≠ (fd : ℕ)) :
    Governed boot (p.mapSink boot i paths) boot := by
  -- the descriptor of the new cache is nobody else's, and a mapped cache has captured its node
  obtain ⟨hfresh, hnew⟩ : (∀ j, (p.cache j).active = true → (p.cache j).fd ≠
        (pgSysfsCacheInit (nodeCandidates boot i paths)).1.fd) ∧
      ((pgSysfsCacheInit (nodeCandidates boot i paths)).1.active = true → ∃ fd base : ℕ,
        boot (i, (skippedPaths paths).length) = base ∧
        (⟨(pgSysfsCacheInit (nodeCandidates boot i paths)).1,
          boot (i, (skippedPaths paths).length)⟩ : Channel).Mirrors
            (boot (i, (skippedPaths paths).length)) fd base true) := by
    rcases nodeCandidates_cases boot i paths with
      hnone | ⟨c, hc, fd, hfd, skipped, rest, hskip, hcands⟩
    · rw [hnone]
      refine ⟨fun j hj => ?_, fun hact => absurd hact (by simp [sysfsUnmapped])⟩
      have hpos := (h.mapped j hj).fd
      simp only [sysfsUnmapped]
      omega
    · obtain ⟨hread, hother⟩ := hs c hc fd hfd
      have hpath : pathCandidate boot i (c, (skippedPaths paths).length) =
          ⟨some fd, .ok (integerLine (boot (i, (skippedPaths paths).length)))⟩ := by
        rw [pathCandidate, hfd, hread, if_pos rfl]
      rw [hcands, hpath]
      obtain ⟨hlow, hhigh⟩ := hboot (i, (skippedPaths paths).length)
      obtain ⟨base, hasBase, hm, hcap, -⟩ :=
        bootChannel_mirrors hskip fd (boot (i, (skippedPaths paths).length)) rest
      obtain ⟨hbase, rfl⟩ := hcap hlow hhigh
      refine ⟨fun j hj => ?_, fun _ => ⟨fd, base, hbase, hm⟩⟩
      have hfdeq := hm.fd_eq
      rw [bootChannel] at hfdeq
      rw [hfdeq]
      exact hother j (sinks_complete j) hj
  have hself : (p.mapSink boot i paths).cache i =
      (pgSysfsCacheInit (nodeCandidates boot i paths)).1 := Function.update_self _ _ _
  have hplace : (p.mapSink boot i paths).node i = (i, (skippedPaths paths).length) := by
    rw [Instance.node, hself]
    exact Function.update_self _ _ _
  have hkeep {j : Sink} (hji : j ≠ i) : (p.mapSink boot i paths).cache j = p.cache j :=
    Function.update_of_ne hji _ _
  have hstay {j : Sink} (hji : j ≠ i) (hact : (p.cache j).active = true) :
      (p.mapSink boot i paths).node j = p.node j := by
    rw [Instance.node, hkeep hji]
    exact Function.update_of_ne (hfresh j hact) _ _
  refine ⟨fun j hj => ?_, fun j hj => ?_, fun _ _ => rfl⟩
  · by_cases hji : j = i
    · subst hji
      rw [hself] at hj
      obtain ⟨fd, base, hbase, hm⟩ := hnew hj
      have hlow := (hboot (j, (skippedPaths paths).length)).2
      rw [hbase] at hlow
      constructor <;> simp only [hself, hplace]
      · rw [hm.fd_eq]
        exact Int.natCast_nonneg fd
      · exact hm.hasBase_eq
      · rw [hm.base_eq, hbase]
      · rw [hm.base_eq]
        simp only [int32Max] at hlow
        omega
    · rw [hkeep hji] at hj
      have howns := h.mapped j hj
      constructor <;> simp only [hkeep hji, hstay hji hj]
      · exact howns.fd
      · exact howns.sink
      · exact howns.hasBase
      · exact howns.base
      · exact howns.lt
  · by_cases hji : j = i
    · subst hji
      rw [hself] at hj
      obtain ⟨fd, base, hbase, hm⟩ := hnew hj
      rw [Instance.channel, hplace, hself, hm.fd_eq, hm.base_eq]
      exact hm
    · rw [hkeep hji] at hj
      rw [Instance.channel, hstay hji hj, hkeep hji]
      exact h.mirrors j hj

theorem snapshot_table (h : p.Mapped boot) {q : Instance} (hcache : q.cache = p.cache)
    (htable : q.rsTbl = p.snapshot) : q.Table := by
  intro e
  rw [htable, hcache, Instance.snapshot, List.mem_filterMap]
  constructor
  · rintro ⟨i, -, he⟩
    split at he
    · exact absurd he (by simp)
    · next hi => exact ⟨i, by simp at hi; exact hi.1, (Option.some.inj he).symm⟩
  · rintro ⟨i, hi, rfl⟩
    exact ⟨i, sinks_complete i, by simp [hi, (h i hi).hasBase]⟩

theorem Governed.crashing (h : Governed boot p nodes) (htable : p.Table) {q : Instance}
    (hcache : q.cache = p.cache) (hfile : q.file = p.file) (hrs : q.rsTbl = p.rsTbl) :
    Crashing boot q nodes 0 := by
  refine ⟨h.mapped.same hcache hfile, ?_, ?_⟩
  · intro e he
    rw [hrs] at he
    rw [hcache]
    exact (htable e).mp he
  · intro n
    by_cases hn : ∃ i, (p.cache i).active = true ∧ p.node i = n
    · obtain ⟨i, hi, hnode⟩ := hn
      right
      refine ⟨i, ?_, ?_, ?_⟩
      · rwa [hcache]
      · rw [Instance.node, hcache, hfile]
        exact hnode
      · rw [List.drop_zero, hrs, hcache]
        exact (htable _).mpr ⟨i, hi, rfl⟩
    · left
      exact h.others n fun i hi hnode => hn ⟨i, hi, hnode⟩

theorem Crashing.done {k : ℕ} (h : Crashing boot p nodes k) (hk : p.rsTbl[k]? = none) :
    nodes = boot := by
  funext n
  rcases h.left n with hboot | ⟨i, -, -, hmem⟩
  · exact hboot
  · rw [List.drop_eq_nil_of_le (List.getElem?_eq_none_iff.mp hk)] at hmem
    cases hmem

theorem Crashing.write {k : ℕ} (h : Crashing boot p nodes k) {e : ℤ × ℕ} (he : p.rsTbl[k]? = some e)
    {res : Pwrite} (hres : res.Complete e.2) :
    Crashing boot { p with pc := .crash (k + 1) } (Function.update nodes (p.file e.1)
      (nodePwrite (nodes (p.file e.1)) (pgFmtU64 e.2) res)) (k + 1) := by
  obtain ⟨i, hi, rfl⟩ := h.sound e (List.mem_of_getElem? he)
  have howns := h.mapped i hi
  have hvalue : nodePwrite (nodes (p.node i)) (pgFmtU64 (p.cache i).base) res = boot (p.node i) := by
    rw [nodePwrite_complete (howns.lt.trans (by norm_num)) hres, howns.base]
  refine ⟨h.mapped.same rfl rfl, h.sound, fun n => ?_⟩
  by_cases hn : n = p.node i
  · left
    rw [hn]
    exact (Function.update_self _ _ _).trans hvalue
  · have hrest : Function.update nodes (p.node i) (nodePwrite (nodes (p.node i))
        (pgFmtU64 (p.cache i).base) res) n = nodes n := Function.update_of_ne hn _ _
    rcases h.left n with hboot | ⟨j, hj, hnode, hmem⟩
    · exact .inl (hrest.trans hboot)
    · right
      refine ⟨j, hj, hnode, ?_⟩
      obtain ⟨hk, hget⟩ := List.getElem?_eq_some_iff.mp he
      rw [List.drop_eq_getElem_cons hk, hget] at hmem
      rcases List.mem_cons.mp hmem with heq | hlater
      · have hsame := node_of_fd (p := p) (Prod.mk.inj heq).1
        exact absurd (hnode.symm.trans hsame) hn
      · exact hlater

theorem restore_step (h : Governed boot p nodes) (hguard : Guarded boot p nodes) {done : ℕ}
    (hdone : ∀ i ∈ sinks.take done, (p.cache i).active = true → nodes (p.node i) = boot (p.node i))
    (hi : sinks[done]? = some i) {res : Pwrite}
    (hres : (pgSysfsRestore (p.cache i) res).2 = true → res.Complete (p.cache i).base) :
    let q := p.put nodes i ((p.channel nodes i).restore res)
    Governed boot q.1 q.2 ∧ Guarded boot q.1 q.2 ∧ ∀ j ∈ sinks.take (done + 1),
      (q.1.cache j).active = true → q.2 (q.1.node j) = boot (q.1.node j) := by
  have htake : sinks.take (done + 1) = sinks.take done ++ [i] := by
    rw [List.take_add_one, hi, Option.toList_some]
  cases hact : (p.cache i).active with
  | false =>
    rw [put_restore_inactive hact, htake]
    refine ⟨h, hguard, fun j hj hjact => ?_⟩
    rcases List.mem_append.mp hj with hj | hj
    · exact hdone j hj hjact
    · rw [List.mem_singleton.mp hj, hact] at hjact
      exact absurd hjact (by simp)
  | true =>
    have howns := h.mapped i hact
    have hmir := h.mirrors i hact
    have hback : ((p.channel nodes i).restore res).node = boot (p.node i) :=
      restore_node hmir howns.base (howns.lt.trans (by norm_num)) hres
    obtain ⟨hgov, hcache⟩ := h.put hact (hmir.restore howns.fd howns.lt res)
    have hset : (p.put nodes i ((p.channel nodes i).restore res)).2 =
        Function.update nodes (p.node i) (boot (p.node i)) := by
      rw [Instance.put, hback]
    refine ⟨hgov, ?_, fun j hj hjact => ?_⟩
    · rcases hguard with ⟨hhook, htable⟩ | ⟨hhook, hsame⟩
      · refine .inl ⟨hhook, fun e => (htable e).trans ?_⟩
        simp only [hcache]
      · refine .inr ⟨hhook, ?_⟩
        rw [hset, hsame, Function.update_eq_self]
    · have hnode : (p.put nodes i ((p.channel nodes i).restore res)).1.node j = p.node j :=
        congrArg p.file (hcache j).2.1
      rw [hnode, hset]
      by_cases hsame : p.node j = p.node i
      · rw [hsame, Function.update_self]
      · rw [Function.update_of_ne hsame]
        rw [htake] at hj
        rcases List.mem_append.mp hj with hj | hj
        · exact hdone j hj ((hcache j).1 ▸ hjact)
        · rw [List.mem_singleton.mp hj] at hsame
          exact absurd rfl hsame

theorem Governed.restored (h : Governed boot p nodes) {done : ℕ}
    (hdone : ∀ i ∈ sinks.take done, (p.cache i).active = true → nodes (p.node i) = boot (p.node i))
    (hend : sinks[done]? = none) : nodes = boot := by
  rw [List.take_of_length_le (List.getElem?_eq_none_iff.mp hend)] at hdone
  funext n
  by_cases hn : ∃ i, (p.cache i).active = true ∧ p.node i = n
  · obtain ⟨i, hi, rfl⟩ := hn
    exact hdone i (sinks_complete i) hi
  · exact h.others n fun i hi hnode => hn ⟨i, hi, hnode⟩

end Nodes

end Pgov
