import Pgov.InstanceNodes

namespace Pgov

open FixedWidth Runs Exclusion

section Values

variable {boot nodes : Nodes} {p : Instance}

def Values (boot : Nodes) (p : Instance) (nodes : Nodes) : LifePc → Prop
  | .boot | .map _ | .snapshot => Governed boot p nodes ∧ nodes = boot ∧ p.hooked = false
  | .arm => Governed boot p nodes ∧ nodes = boot ∧ p.hooked = false ∧ p.Table
  | .setup | .govern => Governed boot p nodes ∧ p.hooked = true ∧ p.Table
  | .restore done => Governed boot p nodes ∧ Guarded boot p nodes ∧
      ∀ i ∈ sinks.take done, (p.cache i).active = true → nodes (p.node i) = boot (p.node i)
  | .close => p.Mapped boot ∧ nodes = boot
  | .crash k => Crashing boot p nodes k
  | _ => True

def LifePc.crashing : LifePc → Bool
  | .crash _ => true
  | _ => false

/-- A path that opens can be read and its descriptor is a new one, and writes that restore
complete. -/
def Smooth (p : Instance) (io : NextIo) : LifePc → Prop
  | .map _ => ∀ c ∈ io.paths, ∀ fd ∈ c.fd, c.readable = true ∧
      ∀ i ∈ sinks, (p.cache i).active = true → (p.cache i).fd ≠ (fd : ℕ)
  | .restore done => ∀ i ∈ sinks[done]?, (pgSysfsRestore (p.cache i) io.res).2 = true →
      io.res.Complete (p.cache i).base
  | .crash k => ∀ e ∈ p.rsTbl[k]?, io.res.Complete e.2
  | _ => True

instance (p : Instance) (io : NextIo) : ∀ pc, Decidable (Smooth p io pc)
  | .map _ => inferInstanceAs (Decidable (∀ c ∈ io.paths, _))
  | .restore done => inferInstanceAs (Decidable (∀ i ∈ sinks[done]?, _ → _))
  | .crash k => inferInstanceAs (Decidable (∀ e ∈ p.rsTbl[k]?, _))
  | .gone | .privilege | .lock | .boot | .snapshot | .arm | .setup | .govern | .close | .leave =>
    .isTrue trivial

/-- Updates stay in range, no second crash signal comes, and a process is killed only when it has
nothing left to bring back. -/
def LifeEvent.Calm (p : Instance) : LifeEvent → Prop
  | .start => True
  | .next io => Smooth p io p.pc
  | .update u => u.2.value < 2 ^ 40
  | .crash => p.pc.crashing = false
  | .kill => p.pc.crashing = false ∧ p.Clean

instance (p : Instance) : ∀ e, Decidable (LifeEvent.Calm p e)
  | .start => .isTrue trivial
  | .next io => inferInstanceAs (Decidable (Smooth p io p.pc))
  | .update u => inferInstanceAs (Decidable (u.2.value < 2 ^ 40))
  | .crash => inferInstanceAs (Decidable (p.pc.crashing = false))
  | .kill => inferInstanceAs (Decidable (p.pc.crashing = false ∧ p.Clean))

def Settles (boot : Nodes) (q : Instance × Nodes) : Prop :=
  (q.1.locked = true → Values boot q.1 q.2 q.1.pc) ∧ (q.1.locked = false → q.2 = boot)

theorem settles_locked {q : Instance × Nodes} (hq : q.1.locked = true)
    (h : Values boot q.1 q.2 q.1.pc) : Settles boot q :=
  ⟨fun _ => h, fun hfree => absurd (hq.symm.trans hfree) (by simp)⟩

theorem settles_dead (p : Instance) (h : nodes = boot) : Settles boot (p.dead, nodes) :=
  ⟨fun hlock => absurd hlock (by simp [Instance.dead]), fun _ => h⟩

theorem values_next (hboot : ∀ n, 0 ≤ boot n ∧ boot n ≤ int32Max) (h : p.Inside)
    (hv : Values boot p nodes p.pc) {io : NextIo} (hs : Smooth p io p.pc) :
    Settles boot (p.next false nodes io) := by
  have hplace := h.place
  have hrest (q : Instance) (hq : q = { p with pc := .restore 0 }) (hgov : Governed boot p nodes)
      (hguard : Guarded boot p nodes) : Settles boot (q, nodes) := by
    rw [hq]
    exact settles_locked h.locked ⟨hgov.same rfl rfl, hguard, fun i hi => absurd hi (by simp)⟩
  unfold Instance.next
  cases hpc : p.pc <;> rw [hpc] at hplace hv hs <;> simp only [Values, Smooth] at hplace hv hs ⊢
  case boot =>
    obtain ⟨hgov, hsame, hhook⟩ := hv
    cases io.ok with
    | true => exact settles_locked h.locked ⟨hgov.same rfl rfl, hsame, hhook⟩
    | false => exact hrest _ rfl hgov (.inr ⟨hhook, hsame⟩)
  case map done =>
    obtain ⟨hgov, rfl, hhook⟩ := hv
    cases sinks[done]? with
    | none => exact settles_locked h.locked ⟨hgov.same rfl rfl, rfl, hhook⟩
    | some i =>
      exact settles_locked h.locked ⟨(mapSink_governed hboot hgov hs).same rfl rfl, rfl, hhook⟩
  case snapshot =>
    obtain ⟨hgov, hsame, hhook⟩ := hv
    exact settles_locked h.locked
      ⟨hgov.same rfl rfl, hsame, hhook, snapshot_table hgov.mapped rfl rfl⟩
  case arm =>
    obtain ⟨hgov, -, -, htable⟩ := hv
    exact settles_locked h.locked ⟨hgov.same rfl rfl, rfl, htable⟩
  case setup =>
    obtain ⟨hgov, hhook, htable⟩ := hv
    cases io.ok with
    | true => exact settles_locked h.locked ⟨hgov.same rfl rfl, hhook, htable⟩
    | false => exact hrest _ rfl hgov (.inl ⟨hhook, htable⟩)
  case govern => exact hrest _ rfl hv.1 (.inl hv.2)
  case restore done =>
    obtain ⟨hgov, hguard, hdone⟩ := hv
    cases hi : sinks[done]? with
    | none =>
      exact settles_locked h.locked
        ⟨hgov.mapped.same rfl rfl, hgov.restored hdone hi⟩
    | some i =>
      obtain ⟨hgov', hguard', hdone'⟩ := restore_step hgov hguard hdone hi (hs i hi)
      exact settles_locked h.locked ⟨hgov'.same rfl rfl, hguard', hdone'⟩
  case close => exact ⟨fun hlock => absurd hlock (by simp), fun _ => hv.2⟩
  case crash k =>
    cases he : p.rsTbl[k]? with
    | none => exact settles_dead p (hv.done he)
    | some e => exact settles_locked h.locked (hv.write he (hs e he))

theorem values_update (h : p.Inside) (hv : Values boot p nodes p.pc) {u : Sink × UpdateCall}
    (hu : u.2.value < 2 ^ 40) : Settles boot (p.step false nodes (.update u)) := by
  simp only [Instance.step]
  by_cases hpc : p.pc = .govern
  · rw [hpc] at hv
    obtain ⟨hgov, hhook, htable⟩ := hv
    rw [if_pos hpc]
    apply settles_locked h.locked
    have hpc' : (p.put nodes u.1 ((p.channel nodes u.1).update u.2)).1.pc = .govern := hpc
    rw [hpc']
    cases hact : (p.cache u.1).active with
    | false =>
      rw [update_unmapped (c := p.channel nodes u.1) hact, put_channel_self]
      exact ⟨hgov, hhook, htable⟩
    | true =>
      have howns := hgov.mapped u.1 hact
      obtain ⟨hgov', hcache⟩ := hgov.put hact ((hgov.mirrors u.1 hact).update howns.fd hu)
      refine ⟨hgov', hhook, fun e => (htable e).trans ?_⟩
      simp only [hcache]
  · rw [if_neg hpc]
    exact settles_locked h.locked hv

theorem values_crash (h : p.Inside) (hv : Values boot p nodes p.pc) (hpc : p.pc.crashing = false) :
    Settles boot (p.step false nodes .crash) := by
  have hplace := h.place
  simp only [Instance.step]
  cases hhook : p.hooked with
  | true =>
    rw [if_pos rfl]
    apply settles_locked h.locked
    have hgoverned (hgov : Governed boot p nodes) (htable : p.Table) :
        Crashing boot { p with pc := .crash 0, hooked := false } nodes 0 :=
      hgov.crashing htable rfl rfl rfl
    cases hat : p.pc <;> rw [hat] at hplace hv hpc <;> simp only [Values] at hplace hv
    case boot => exact absurd (hhook.symm.trans hv.2.2) (by simp)
    case map => exact absurd (hhook.symm.trans hv.2.2) (by simp)
    case snapshot => exact absurd (hhook.symm.trans hv.2.2) (by simp)
    case arm => exact absurd (hhook.symm.trans hv.2.2.1) (by simp)
    case setup => exact hgoverned hv.1 hv.2.2
    case govern => exact hgoverned hv.1 hv.2.2
    case restore =>
      rcases hv.2.1 with ⟨-, htable⟩ | ⟨hfree, -⟩
      · exact hgoverned hv.1 htable
      · exact absurd (hhook.symm.trans hfree) (by simp)
    case close =>
      refine ⟨hv.1.same rfl rfl, fun e he => ?_, fun n => .inl (congrFun hv.2 n)⟩
      simp only [hplace] at he
      cases he
    case crash => exact absurd hpc (by simp [LifePc.crashing])
  | false =>
    rw [if_neg (by simp)]
    apply settles_dead
    cases hat : p.pc <;> rw [hat] at hplace hv hpc <;> simp only [Values] at hplace hv
    case boot => exact hv.2.1
    case map => exact hv.2.1
    case snapshot => exact hv.2.1
    case arm => exact hv.2.1
    case setup => exact absurd (hhook.symm.trans hv.2.1) (by simp)
    case govern => exact absurd (hhook.symm.trans hv.2.1) (by simp)
    case restore =>
      rcases hv.2.1 with ⟨hset, -⟩ | ⟨-, hsame⟩
      · exact absurd (hhook.symm.trans hset) (by simp)
      · exact hsame
    case close => exact hv.2
    case crash => exact absurd hpc (by simp [LifePc.crashing])

theorem values_kill (h : p.Inside) (hv : Values boot p nodes p.pc) (hpc : p.pc.crashing = false)
    (hclean : p.Clean) : Settles boot (p.step false nodes .kill) := by
  have hplace := h.place
  apply settles_dead
  cases hat : p.pc <;> rw [hat] at hplace hv hpc <;> simp only [Values] at hplace hv
  case boot => exact hv.2.1
  case map => exact hv.2.1
  case snapshot => exact hv.2.1
  case arm => exact hv.2.1
  case setup => exact hv.1.clean hclean
  case govern => exact hv.1.clean hclean
  case restore => exact hv.1.clean hclean
  case close => exact hv.2
  case crash => exact absurd hpc (by simp [LifePc.crashing])

theorem values_step (hboot : ∀ n, 0 ≤ boot n ∧ boot n ≤ int32Max) (h : p.Inside)
    (hv : Values boot p nodes p.pc) {e : LifeEvent} (he : e.Calm p) :
    Settles boot (p.step false nodes e) := by
  cases e with
  | start =>
    have hrunning : p.pc ≠ .gone := by
      intro hpc
      have hplace := h.place
      rw [hpc] at hplace
      exact hplace
    simp only [Instance.step, if_neg hrunning]
    exact settles_locked h.locked hv
  | next io => exact values_next hboot h hv he
  | update u => exact values_update h hv he
  | crash => exact values_crash h hv he
  | kill => exact values_kill h hv he.1 he.2

theorem daemon_keeps (hboot : ∀ n, 0 ≤ boot n ∧ boot n ≤ int32Max) :
    Contract daemonParty (fun p e => LifeEvent.Calm p e) (fun nodes => nodes = boot)
      (fun p nodes => p.Inside ∧ Values boot p nodes p.pc) Instance.Outside := by
  constructor
  · exact fun p h => h.unlocked
  · intro p nodes e h _
    exact daemon_locks.waits p nodes e h trivial
  · rintro p nodes e h _ rfl
    obtain ⟨hsame, hout | ⟨-, hlock, hin⟩⟩ := outside_step h true nodes e
    · exact ⟨hsame, .inl hout⟩
    · have hin' : (daemonParty.step true p nodes e).1 = { p with locked := true, pc := .boot } := hin
      have hplace := h.place
      rw [hlock] at hplace
      refine ⟨hsame, .inr ⟨by rw [hin']; rfl, ?_⟩⟩
      rw [hin']
      exact ⟨⟨rfl, trivial⟩, (governed_bare hplace.2).same rfl rfl, rfl, hplace.1⟩
  · rintro p nodes e ⟨hin, hv⟩ he
    have hsettle := values_step hboot hin hv he
    rcases inside_step hin false nodes e with hstay | hout
    · exact .inl ⟨hstay.locked, hstay, hsettle.1 hstay.locked⟩
    · exact .inr ⟨hout, hsettle.2 hout.unlocked⟩

theorem values_mapped (h : p.Inside) (hv : Values boot p nodes p.pc) : p.Mapped boot := by
  have hplace := h.place
  cases hat : p.pc <;> rw [hat] at hplace hv <;> simp only [Values] at hplace hv
  case boot => exact hv.1.mapped
  case map => exact hv.1.mapped
  case snapshot => exact hv.1.mapped
  case arm => exact hv.1.mapped
  case setup => exact hv.1.mapped
  case govern => exact hv.1.mapped
  case restore => exact hv.1.mapped
  case close => exact hv.1
  case crash => exact hv.mapped

end Values

theorem instances_keep_boot {boot : Nodes} (hboot : ∀ n, 0 ≤ boot n ∧ boot n ≤ int32Max)
    {es : List (ℕ × LifeEvent)} (hcalm : Along (System.step daemonParty)
      (fun s e => LifeEvent.Calm (s.party e.1) e.2) (Device.start boot) es) :
    let s := run (System.step daemonParty) (Device.start boot) es
    ((∀ k, (s.party k).locked = false) → s.resource = boot) ∧
      ∀ k i, (s.party k).locked = true → ((s.party k).cache i).active = true →
        ((s.party k).cache i).hasBase = true ∧
          boot ((s.party k).node i) = ((s.party k).cache i).base := by
  intro s
  have hstart : Exclusion.Sound daemonParty (fun nodes => nodes = boot)
      (fun p nodes => p.Inside ∧ Values boot p nodes p.pc) Instance.Outside (Device.start boot) :=
    ⟨fun _ _ => Instance.dead_outside _, fun _ h => absurd h.symm (Option.some_ne_none _),
      fun _ => rfl⟩
  have hsound := (daemon_keeps hboot).run hstart hcalm
  constructor
  · intro hfree
    apply hsound.free
    by_contra hheld
    obtain ⟨k, hk⟩ := Option.ne_none_iff_exists'.mp hheld
    exact absurd ((hsound.holding k hk).1.symm.trans (hfree k)) (by simp)
  · intro k i hlocked hact
    have hholds : s.holder = some k := by
      by_contra hne
      exact absurd (hlocked.symm.trans (hsound.out k hne).unlocked) (by simp)
    obtain ⟨hin, hv⟩ := (hsound.holding k hholds).2
    have howns := values_mapped hin hv i hact
    exact ⟨howns.hasBase, howns.base⟩

section Examples

def nextOk (paths : List PathIo) (res : Pwrite) : LifeEvent := .next ⟨true, paths, res⟩

/-- One daemon maps the latency node, governs it and crashes, and its successor maps it again. A third
that starts meanwhile finds the lock taken. -/
def relay : List (ℕ × LifeEvent) :=
  let phases (k : ℕ) : List (ℕ × LifeEvent) :=
    (k, .start) :: List.replicate 3 (k, nextOk [] (.wrote 0)) ++
      (k, nextOk [⟨some 7, true⟩] (.wrote 0)) :: List.replicate 5 (k, nextOk [] (.wrote 0))
  let crash : List (ℕ × LifeEvent) :=
    [(0, .crash), (0, nextOk [] (.wrote 9)), (0, nextOk [] (.wrote 0))]
  phases 0 ++ List.replicate 4 (0, nextOk [] (.wrote 0)) ++
    [(0, .update (.schedLat, ⟨500000, true, none, ⟨10, 0⟩, ⟨10, 0⟩, .wrote 7⟩))] ++
    (1, .start) :: List.replicate 11 (1, nextOk [] (.wrote 0)) ++ crash ++ phases 2

theorem instances_keep_boot_relay :
    let s := run (System.step daemonParty) (Device.start fun _ => 24000000) relay
    ((∀ k, (s.party k).locked = false) → s.resource = fun _ => 24000000) ∧
      ∀ k i, (s.party k).locked = true → ((s.party k).cache i).active = true →
        ((s.party k).cache i).hasBase = true ∧
          (24000000 : ℤ) = ((s.party k).cache i).base :=
  instances_keep_boot (fun _ => by decide) (by decide +kernel)

example : let s := run (System.step daemonParty) (Device.start fun _ => 24000000) relay
    (s.party 1).pc = .gone ∧ s.holder = some 2 ∧ ((s.party 2).cache .schedLat).base = 24000000 := by
  decide +kernel

end Examples

end Pgov
