import Mathlib.Tactic

namespace Pgov.TreeWalk

section Scan

variable {ε β : Type*}

/-- Collect what each entry yields, up to and including the first one that fails. -/
def scan (f : ε → List β × Bool) : List ε → List β × Bool
  | [] => ([], false)
  | e :: es =>
    if (f e).2 then ((f e).1, true) else ((f e).1 ++ (scan f es).1, (scan f es).2)

variable {f : ε → List β × Bool} {g : ε → List β}

theorem scan_append (es es' : List ε) : scan f (es ++ es') =
    if (scan f es).2 then scan f es else ((scan f es).1 ++ (scan f es').1, (scan f es').2) := by
  induction es with
  | nil => rfl
  | cons e es ih =>
    rw [List.cons_append, scan, scan, ih]
    split
    · rfl
    · split <;> simp_all

theorem scan_failed (es : List ε) : (scan f es).2 = true ↔ ∃ e ∈ es, (f e).2 = true := by
  induction es with
  | nil => simp [scan]
  | cons e es ih =>
    rw [scan]
    split
    · next he => simp [he]
    · next he => simp [he, ih]

theorem scan_clean (hclean : ∀ e, (f e).2 = false → (f e).1 = g e) {es : List ε}
    (h : (scan f es).2 = false) : (scan f es).1 = es.flatMap g := by
  induction es with
  | nil => rfl
  | cons e es ih =>
    rw [scan] at h ⊢
    split at h
    · exact absurd h (by simp)
    · next he =>
      rw [if_neg he, List.flatMap_cons, hclean e (by simpa using he), ih h]

theorem scan_initial (hinitial : ∀ e, (f e).1 <+: g e)
    (hclean : ∀ e, (f e).2 = false → (f e).1 = g e) (es : List ε) :
    (scan f es).1 <+: es.flatMap g := by
  induction es with
  | nil => exact List.prefix_rfl
  | cons e es ih =>
    rw [scan, List.flatMap_cons]
    split
    · exact (hinitial e).trans (List.prefix_append _ _)
    · next he =>
      rw [hclean e (by simpa using he)]
      exact (List.prefix_append_right_inj _).mpr ih

theorem scan_complete_iff (hinitial : ∀ e, (f e).1 <+: g e)
    (hclean : ∀ e, (f e).2 = false → (f e).1 = g e) (es : List ε) :
    (scan f es).1 = es.flatMap g ↔ ∀ before e after, es = before ++ e :: after →
      (f e).1 = g e ∧ ((f e).2 = true → after.flatMap g = []) := by
  induction es with
  | nil => simp [scan]
  | cons e es ih =>
    rw [scan, List.flatMap_cons]
    split
    · next he =>
      constructor
      · intro h
        change (f e).1 = g e ++ es.flatMap g at h
        have hlen := congrArg List.length h
        have hle := (hinitial e).length_le
        rw [List.length_append] at hlen
        have hrest : es.flatMap g = [] := List.length_eq_zero_iff.mp (by omega)
        rw [hrest, List.append_nil] at h
        rintro (_ | ⟨d, before⟩) x after heq
        · obtain ⟨rfl, rfl⟩ := List.cons.inj heq
          exact ⟨h, fun _ => hrest⟩
        · rw [List.cons_append] at heq
          obtain ⟨rfl, rfl⟩ := List.cons.inj heq
          rw [List.flatMap_append, List.flatMap_cons, List.append_eq_nil_iff,
            List.append_eq_nil_iff] at hrest
          have hx : (f x).1 = [] := List.prefix_nil.mp (hrest.2.1 ▸ hinitial x)
          exact ⟨hx.trans hrest.2.1.symm, fun _ => hrest.2.2⟩
      · intro h
        obtain ⟨heq, hrest⟩ := h [] e es rfl
        rw [hrest he, List.append_nil, heq]
    · next he =>
      rw [hclean e (by simpa using he), List.append_cancel_left_eq, ih]
      constructor
      · rintro h (_ | ⟨d, before⟩) x after heq
        · obtain ⟨rfl, rfl⟩ := List.cons.inj heq
          exact ⟨hclean _ (by simpa using he), fun hx => absurd hx he⟩
        · rw [List.cons_append] at heq
          obtain ⟨rfl, rfl⟩ := List.cons.inj heq
          exact h before x after rfl
      · intro h before x after heq
        exact h (e :: before) x after (by rw [heq, List.cons_append])

end Scan

/-- A tree of paths: the names below each directory, with whether each is entered, and whether
reading the directory ends in an error. -/
structure PathTree (κ : Type*) where
  entries : List κ → List (κ × Bool)
  broken : List κ → Bool

section Walk

variable {κ : Type*} (t : PathTree κ)

def entryDue (sub : List κ → List (List κ × κ)) (dir : List κ) (e : κ × Bool) :
    List (List κ × κ) := (dir, e.1) :: if e.2 then sub (dir ++ [e.1]) else []

def due : ℕ → List κ → List (List κ × κ)
  | 0, _ => []
  | n + 1, dir => (t.entries dir).flatMap (entryDue (due n) dir)

def entryWalk (sub : List κ → List (List κ × κ) × Bool) (dir : List κ) (e : κ × Bool) :
    List (List κ × κ) × Bool :=
  if e.2 then ((dir, e.1) :: (sub (dir ++ [e.1])).1, (sub (dir ++ [e.1])).2)
  else ([(dir, e.1)], false)

/-- What a walk visits that an error ends, at whatever level it happens. -/
def walk : ℕ → List κ → List (List κ × κ) × Bool
  | 0, _ => ([], false)
  | n + 1, dir =>
    let r := scan (entryWalk (walk n) dir) (t.entries dir)
    (r.1, r.2 || t.broken dir)

/-- `x` is `k` levels below `dir`, through entries that are entered. -/
inductive Reaches : List κ → ℕ → List κ → Prop
  | here (dir : List κ) : Reaches dir 0 dir
  | step {dir x : List κ} {a : κ} {k : ℕ} (ha : (a, true) ∈ t.entries dir)
      (h : Reaches (dir ++ [a]) k x) : Reaches dir (k + 1) x

variable {t}

theorem walk_failed {n : ℕ} {dir : List κ} : (walk t n dir).2 = true ↔
    ∃ k < n, ∃ x, Reaches t dir k x ∧ t.broken x = true := by
  induction n generalizing dir with
  | zero => simp [walk]
  | succ n ih =>
    simp only [walk, Bool.or_eq_true, scan_failed]
    constructor
    · rintro (⟨⟨a, enters⟩, ha, hfailed⟩ | hbroken)
      · cases enters with
        | false => exact absurd hfailed (by simp [entryWalk])
        | true =>
          obtain ⟨k, hk, x, hx, hbroken⟩ := ih.mp (by simpa [entryWalk] using hfailed)
          exact ⟨k + 1, by omega, x, .step ha hx, hbroken⟩
      · exact ⟨0, by omega, dir, .here dir, hbroken⟩
    · rintro ⟨k, hk, x, hx, hbroken⟩
      cases hx with
      | here => exact Or.inr hbroken
      | @step _ _ a k ha hx =>
        refine Or.inl ⟨(a, true), ha, ?_⟩
        simpa [entryWalk] using ih.mpr ⟨k, by omega, x, hx, hbroken⟩

theorem mem_due {n : ℕ} {dir x : List κ} {a : κ} : (x, a) ∈ due t n dir ↔
    ∃ k < n, Reaches t dir k x ∧ a ∈ (t.entries x).map Prod.fst := by
  induction n generalizing dir with
  | zero => simp [due]
  | succ n ih =>
    rw [due, List.mem_flatMap]
    constructor
    · rintro ⟨⟨b, enters⟩, hb, hmem⟩
      rw [entryDue] at hmem
      rcases List.mem_cons.mp hmem with heq | hmem
      · obtain ⟨rfl, rfl⟩ := Prod.mk.inj heq
        exact ⟨0, by omega, .here _, List.mem_map.mpr ⟨_, hb, rfl⟩⟩
      · cases enters with
        | false => exact absurd hmem (by simp)
        | true =>
          obtain ⟨k, hk, hx, ha⟩ := ih.mp (by simpa using hmem)
          exact ⟨k + 1, by omega, .step hb hx, ha⟩
    · rintro ⟨k, hk, hx, ha⟩
      cases hx with
      | here =>
        obtain ⟨e, he, rfl⟩ := List.mem_map.mp ha
        exact ⟨e, he, by simp [entryDue]⟩
      | @step _ _ b k hb hx =>
        refine ⟨(b, true), hb, ?_⟩
        simpa [entryDue] using Or.inr (ih.mpr ⟨k, by omega, hx, ha⟩)

theorem Reaches.isPrefix {dir x : List κ} {k : ℕ} (h : Reaches t dir k x) : dir <+: x := by
  induction h with
  | here => exact List.prefix_rfl
  | step _ _ ih => exact (List.prefix_append _ _).trans ih

theorem due_isPrefix {n : ℕ} {dir : List κ} {v : List κ × κ} (h : v ∈ due t n dir) :
    dir <+: v.1 := by
  obtain ⟨k, -, hx, -⟩ := mem_due.mp (show (v.1, v.2) ∈ due t n dir from h)
  exact hx.isPrefix

theorem due_nodup (hnames : ∀ dir, ((t.entries dir).map Prod.fst).Nodup) (n : ℕ)
    (dir : List κ) : (due t n dir).Nodup := by
  induction n generalizing dir with
  | zero => exact List.nodup_nil
  | succ n ih =>
    rw [due, List.nodup_flatMap]
    constructor
    · rintro ⟨a, enters⟩ -
      rw [entryDue, List.nodup_cons]
      cases enters with
      | false => simp
      | true =>
        refine ⟨fun hmem => ?_, ih _⟩
        have hlen := (due_isPrefix (by simpa using hmem)).length_le
        simp at hlen
    · have hpair := List.pairwise_map.mp (hnames dir)
      refine hpair.imp ?_
      rintro ⟨a, enters⟩ ⟨b, enters'⟩ hne
      have hfirst {c : κ} {enters : Bool} {v : List κ × κ}
          (hv : v ∈ entryDue (due t n) dir (c, enters)) :
          v = (dir, c) ∨ dir ++ [c] <+: v.1 := by
        rw [entryDue] at hv
        rcases List.mem_cons.mp hv with rfl | hv
        · exact Or.inl rfl
        · cases enters with
          | false => exact absurd hv (by simp)
          | true => exact Or.inr (due_isPrefix (by simpa using hv))
      intro v hv hv'
      rcases hfirst hv with rfl | hl <;> rcases hfirst hv' with hr | hr
      · exact hne (Prod.mk.inj hr).2
      · have := hr.length_le
        simp at this
      · rw [hr] at hl
        have := hl.length_le
        simp at this
      · have heq := List.prefix_of_prefix_length_le hl hr (by simp)
        have := heq.eq_of_length (by simp)
        exact hne (by simpa using this)

theorem entryWalk_initial {sub : List κ → List (List κ × κ) × Bool} {full : List κ → List (List κ × κ)}
    (h : ∀ dir, (sub dir).1 <+: full dir) (dir : List κ) (e : κ × Bool) :
    (entryWalk sub dir e).1 <+: entryDue full dir e := by
  obtain ⟨a, enters⟩ := e
  cases enters with
  | false => exact List.prefix_rfl
  | true => exact (List.prefix_cons_inj _).mpr (h _)

theorem entryWalk_clean {sub : List κ → List (List κ × κ) × Bool} {full : List κ → List (List κ × κ)}
    (h : ∀ dir, (sub dir).2 = false → (sub dir).1 = full dir) {dir : List κ} {e : κ × Bool}
    (he : (entryWalk sub dir e).2 = false) : (entryWalk sub dir e).1 = entryDue full dir e := by
  obtain ⟨a, enters⟩ := e
  cases enters with
  | false => rfl
  | true => exact congrArg (List.cons _) (h _ he)

theorem walk_clean {n : ℕ} {dir : List κ} (h : (walk t n dir).2 = false) :
    (walk t n dir).1 = due t n dir := by
  induction n generalizing dir with
  | zero => rfl
  | succ n ih =>
    simp only [walk, Bool.or_eq_false_iff] at h
    exact scan_clean (fun _ => entryWalk_clean fun _ => ih) h.1

theorem walk_initial (n : ℕ) (dir : List κ) : (walk t n dir).1 <+: due t n dir := by
  induction n generalizing dir with
  | zero => exact List.prefix_rfl
  | succ n ih =>
    exact scan_initial (entryWalk_initial ih dir) (fun _ => entryWalk_clean fun _ => walk_clean) _

/-- No entry follows an entered one below which reading a directory ends in an error. -/
def Unhindered (t : PathTree κ) (n : ℕ) (dir : List κ) : Prop :=
  ∀ k x before a after j y, Reaches t dir k x → t.entries x = before ++ (a, true) :: after →
    Reaches t (x ++ [a]) j y → k + 1 + j < n → t.broken y = true → after = []

theorem walk_complete_iff (n : ℕ) (dir : List κ) :
    (walk t n dir).1 = due t n dir ↔ Unhindered t n dir := by
  induction n generalizing dir with
  | zero => exact ⟨fun _ _ _ _ _ _ _ _ _ _ _ hlt => absurd hlt (by omega), fun _ => rfl⟩
  | succ n ih =>
    refine (scan_complete_iff (entryWalk_initial (walk_initial n) dir)
      (fun e he => entryWalk_clean (fun _ => walk_clean) he) _).trans ?_
    constructor
    · intro h k x before a after j y hx hentries hy hlt hbroken
      cases hx with
      | here =>
        obtain ⟨-, hafter⟩ := h before (a, true) after hentries
        have hfailed : (walk t n (dir ++ [a])).2 = true :=
          walk_failed.mpr ⟨j, by omega, y, hy, hbroken⟩
        cases after with
        | nil => rfl
        | cons e after => exact absurd (hafter hfailed) (by simp [entryDue])
      | @step _ _ b k hb hx =>
        obtain ⟨pre, post, hsplit⟩ := List.append_of_mem hb
        have hsub := (h pre (b, true) post hsplit).1
        have heq : (walk t n (dir ++ [b])).1 = due t n (dir ++ [b]) := (List.cons.inj hsub).2
        exact (ih _).mp heq k x before a after j y hx hentries hy (by omega) hbroken
    · rintro h before ⟨a, enters⟩ after hentries
      cases enters with
      | false => exact ⟨rfl, fun hf => absurd hf (by simp [entryWalk])⟩
      | true =>
        have ha : (a, true) ∈ t.entries dir := by simp [hentries]
        constructor
        · refine congrArg (List.cons _) ((ih _).mpr ?_)
          intro k x before' b after' j y hx hentries' hy hlt hbroken
          exact h (k + 1) x before' b after' j y (.step ha hx) hentries' hy (by omega) hbroken
        · intro hfailed
          obtain ⟨j, hj, y, hy, hbroken⟩ := walk_failed.mp (show (walk t n (dir ++ [a])).2 = true from hfailed)
          rw [h 0 dir before a after j y (.here dir) hentries hy (by omega) hbroken, List.flatMap_nil]

theorem visits_once_iff [BEq (List κ × κ)] [LawfulBEq (List κ × κ)]
    (hnames : ∀ dir, ((t.entries dir).map Prod.fst).Nodup)
    (n : ℕ) (dir : List κ) :
    (∀ v, (v ∈ due t n dir → (walk t n dir).1.count v = 1) ∧
      (v ∉ due t n dir → (walk t n dir).1.count v = 0)) ↔ Unhindered t n dir := by
  rw [← walk_complete_iff]
  constructor
  · intro h
    obtain ⟨rest, hrest⟩ := walk_initial (t := t) n dir
    cases rest with
    | nil => rwa [List.append_nil] at hrest
    | cons v rest =>
      have hnodup := due_nodup hnames n dir
      have hdue : v ∈ due t n dir := by simp [← hrest]
      have hmem : v ∈ (walk t n dir).1 := List.count_pos_iff.mp (by rw [(h v).1 hdue]; decide)
      rw [← hrest] at hnodup
      exact absurd rfl ((List.nodup_append.mp hnodup).2.2 v hmem v (by simp))
  · intro h v
    rw [h]
    exact ⟨List.count_eq_one_of_mem (due_nodup hnames n dir), List.count_eq_zero_of_not_mem⟩

end Walk

end Pgov.TreeWalk
