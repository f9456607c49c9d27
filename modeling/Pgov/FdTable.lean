import Mathlib.Tactic

namespace Pgov.FdTable

variable {κ ι β : Type*} [DecidableEq κ]

/-- The descriptors a process has obtained, each with what it refers to, beside those it inherited,
and which descriptor watches which. `faults` counts the closes of what was not obtained. -/
@[ext] structure Table (κ : Type*) [DecidableEq κ] where
  inherited : Finset ℤ
  opened : Finset (ℤ × κ)
  watched : Finset (ℤ × ℤ)
  faults : ℕ
  watched_opened : ∀ w ∈ watched, w.1 ∈ opened.image Prod.fst ∧ w.2 ∈ opened.image Prod.fst

def lowest (s : Finset ℤ) : ℤ :=
  let n : ℕ := ((List.range (s.card + 1)).find? fun n : ℕ => decide ((n : ℤ) ∉ s)).getD 0
  (n : ℤ)

theorem lowest_notMem (s : Finset ℤ) : lowest s ∉ s := by
  rw [lowest]
  cases hfind : (List.range (s.card + 1)).find? fun n : ℕ => decide ((n : ℤ) ∉ s) with
  | some n => simpa using List.find?_some hfind
  | none =>
    exfalso
    have hsub : (Finset.range (s.card + 1)).image (fun n : ℕ => (n : ℤ)) ⊆ s := by
      intro x hx
      obtain ⟨n, hn, rfl⟩ := Finset.mem_image.mp hx
      simpa using List.find?_eq_none.mp hfind n (List.mem_range.mpr (Finset.mem_range.mp hn))
    have hcard := Finset.card_le_card hsub
    rw [Finset.card_image_of_injective _ Nat.cast_injective, Finset.card_range] at hcard
    omega

theorem lowest_nonneg (s : Finset ℤ) : 0 ≤ lowest s := Int.natCast_nonneg _

namespace Table

section Calls

variable (t : Table κ)

def fds : Finset ℤ := t.opened.image Prod.fst

def fresh : ℤ := lowest (t.inherited ∪ t.fds)

def openFd (k : κ) : Table κ :=
  { t with
    opened := insert (t.fresh, k) t.opened
    watched_opened := by
      intro w hw
      obtain ⟨h1, h2⟩ := t.watched_opened w hw
      rw [Finset.image_insert]
      exact ⟨Finset.mem_insert_of_mem h1, Finset.mem_insert_of_mem h2⟩ }

/-- Closing a descriptor also ends every watch it takes part in. -/
def close (fd : ℤ) : Table κ :=
  if fd ∈ t.fds then
    { t with
      opened := t.opened.filter fun e => e.1 ≠ fd
      watched := t.watched.filter fun w => w.1 ≠ fd ∧ w.2 ≠ fd
      watched_opened := by
        intro w hw
        obtain ⟨hw, hne1, hne2⟩ := Finset.mem_filter.mp hw
        obtain ⟨h1, h2⟩ := t.watched_opened w hw
        simp only [Finset.mem_image, Finset.mem_filter] at h1 h2 ⊢
        obtain ⟨e1, he1, heq1⟩ := h1
        obtain ⟨e2, he2, heq2⟩ := h2
        exact ⟨⟨e1, ⟨he1, heq1 ▸ hne1⟩, heq1⟩, ⟨e2, ⟨he2, heq2 ▸ hne2⟩, heq2⟩⟩ }
  else { t with faults := t.faults + 1 }

def closeFd (fd : ℤ) : Table κ := if 0 ≤ fd then t.close fd else t

def watch (epoll fd : ℤ) : Table κ :=
  if h : epoll ∈ t.fds ∧ fd ∈ t.fds then
    { t with
      watched := insert (epoll, fd) t.watched
      watched_opened := by
        intro w hw
        rcases Finset.mem_insert.mp hw with rfl | hw
        · exact h
        · exact t.watched_opened w hw }
  else t

def unwatch (epoll fd : ℤ) : Table κ :=
  { t with
    watched := t.watched.erase (epoll, fd)
    watched_opened := fun w hw => t.watched_opened w (Finset.mem_of_mem_erase hw) }

/-- Making `fd` refer to what another descriptor refers to: a number that was in use stays in use,
and a number that was not is taken for good. -/
def redirect (fd : ℤ) : Table κ :=
  if fd ∈ t.inherited ∪ t.fds then t else { t with inherited := insert fd t.inherited }

end Calls

section Rules

variable {t : Table κ} {k : κ} {fd epoll : ℤ}

theorem fresh_notMem (t : Table κ) : t.fresh ∉ t.fds := fun h =>
  lowest_notMem (t.inherited ∪ t.fds) (Finset.mem_union_right _ h)

theorem fresh_nonneg (t : Table κ) : 0 ≤ t.fresh := lowest_nonneg _

theorem mem_fds : fd ∈ t.fds ↔ ∃ k, (fd, k) ∈ t.opened := by
  simp only [fds, Finset.mem_image]
  constructor
  · rintro ⟨e, he, rfl⟩
    exact ⟨e.2, he⟩
  · rintro ⟨k, hk⟩
    exact ⟨(fd, k), hk, rfl⟩

@[simp] theorem openFd_opened : (t.openFd k).opened = insert (t.fresh, k) t.opened := rfl
@[simp] theorem openFd_watched : (t.openFd k).watched = t.watched := rfl
@[simp] theorem openFd_faults : (t.openFd k).faults = t.faults := rfl

@[simp] theorem unwatch_opened : (t.unwatch epoll fd).opened = t.opened := rfl
@[simp] theorem unwatch_faults : (t.unwatch epoll fd).faults = t.faults := rfl

@[simp] theorem watch_opened : (t.watch epoll fd).opened = t.opened := by
  rw [watch]
  split <;> rfl

@[simp] theorem watch_faults : (t.watch epoll fd).faults = t.faults := by
  rw [watch]
  split <;> rfl

@[simp] theorem redirect_opened : (t.redirect fd).opened = t.opened := by
  rw [redirect]
  split <;> rfl

@[simp] theorem redirect_faults : (t.redirect fd).faults = t.faults := by
  rw [redirect]
  split <;> rfl

theorem mem_watch (he : epoll ∈ t.fds) (hfd : fd ∈ t.fds) :
    (epoll, fd) ∈ (t.watch epoll fd).watched := by
  rw [watch, dif_pos ⟨he, hfd⟩]
  exact Finset.mem_insert_self _ _

theorem fresh_mem_openFd (t : Table κ) (k : κ) : t.fresh ∈ (t.openFd k).fds :=
  mem_fds.mpr ⟨k, Finset.mem_insert_self _ _⟩

theorem close_opened (h : fd ∈ t.fds) :
    (t.close fd).opened = t.opened.filter fun e => e.1 ≠ fd := by
  rw [close, if_pos h]

theorem close_faults (h : fd ∈ t.fds) : (t.close fd).faults = t.faults := by
  rw [close, if_pos h]

theorem close_watched (h : fd ∈ t.fds) :
    (t.close fd).watched = t.watched.filter fun w => w.1 ≠ fd ∧ w.2 ≠ fd := by
  rw [close, if_pos h]

theorem close_inherited (h : fd ∈ t.fds) : (t.close fd).inherited = t.inherited := by
  rw [close, if_pos h]

@[simp] theorem openFd_close (t : Table κ) (k : κ) : (t.openFd k).close t.fresh = t := by
  have hmem := t.fresh_mem_openFd k
  have hne : ∀ e ∈ t.opened, e.1 ≠ t.fresh := by
    intro e he heq
    exact t.fresh_notMem (mem_fds.mpr ⟨e.2, heq ▸ he⟩)
  apply Table.ext
  · rw [close_inherited hmem]
    rfl
  · rw [close_opened hmem, openFd_opened, Finset.filter_insert, if_neg (by simp)]
    exact Finset.filter_true_of_mem hne
  · rw [close_watched hmem, openFd_watched]
    apply Finset.filter_true_of_mem
    intro w hw
    obtain ⟨h1, h2⟩ := t.watched_opened w hw
    exact ⟨fun h => t.fresh_notMem (h ▸ h1), fun h => t.fresh_notMem (h ▸ h2)⟩
  · rw [close_faults hmem, openFd_faults]

def useNode (t : Table κ) (k : κ) (ok : Bool) : Table κ :=
  if ok then (t.openFd k).close t.fresh else t

@[simp] theorem useNode_eq (t : Table κ) (k : κ) (ok : Bool) : t.useNode k ok = t := by
  rw [useNode]
  split
  · exact t.openFd_close k
  · rfl

end Rules

/-- What has been obtained since `t₀` and not been closed, the last obtained first, each with a
name for it. -/
inductive Stacked (t₀ : Table κ) (k : κ) : Table κ → List (β × ℤ) → Prop
  | base : Stacked t₀ k t₀ []
  | push {t : Table κ} {stack : List (β × ℤ)} (h : Stacked t₀ k t stack) (b : β) :
      Stacked t₀ k (t.openFd k) ((b, t.fresh) :: stack)

theorem Stacked.pop {t₀ t : Table κ} {k : κ} {b : β} {fd : ℤ} {stack : List (β × ℤ)}
    (h : Stacked t₀ k t ((b, fd) :: stack)) : Stacked t₀ k (t.close fd) stack := by
  cases h with
  | push h => rwa [openFd_close]

theorem Stacked.eq_base {t₀ t : Table κ} {k : κ} (h : Stacked (β := β) t₀ k t []) : t = t₀ := by
  cases h
  rfl

/-- What a variable holds whose negative values stand for no descriptor. -/
def heldFd (fd : ℤ) : Option ℤ := if 0 ≤ fd then some fd else none

theorem heldFd_of_nonneg {fd : ℤ} (h : 0 ≤ fd) : heldFd fd = some fd := if_pos h

theorem heldFd_of_neg {fd : ℤ} (h : fd < 0) : heldFd fd = none := if_neg (not_le.mpr h)

theorem heldFd_eq_some {fd fd' : ℤ} : heldFd fd = some fd' ↔ fd = fd' ∧ 0 ≤ fd := by
  rw [heldFd]
  split
  · next h => simp [h]
  · next h => simp [h]

/-- The descriptors are in good order: what is open is what the slots hold, no two slots hold the
same descriptor, and nothing else was ever closed. -/
structure Books (t : Table κ) (kind : ι → κ) (held : ι → Option ℤ) : Prop where
  mem_opened : ∀ fd k, (fd, k) ∈ t.opened ↔ ∃ s, held s = some fd ∧ kind s = k
  inj : ∀ s s' fd, held s = some fd → held s' = some fd → s = s'
  faults : t.faults = 0

namespace Books

variable {t : Table κ} {kind : ι → κ} {held : ι → Option ℤ} {s : ι} {fd : ℤ}

theorem mem_fds_iff (h : t.Books kind held) : fd ∈ t.fds ↔ ∃ s, held s = some fd := by
  rw [mem_fds]
  constructor
  · rintro ⟨k, hk⟩
    obtain ⟨s, hs, -⟩ := (h.mem_opened fd k).mp hk
    exact ⟨s, hs⟩
  · rintro ⟨s, hs⟩
    exact ⟨kind s, (h.mem_opened fd _).mpr ⟨s, hs, rfl⟩⟩

theorem empty (h : t.Books kind held) (hnone : ∀ s, held s = none) : t.opened = ∅ := by
  rw [Finset.eq_empty_iff_forall_notMem]
  rintro ⟨fd, k⟩ he
  obtain ⟨s, hs, -⟩ := (h.mem_opened fd k).mp he
  rw [hnone s] at hs
  exact absurd hs (by simp)

theorem of_opened_eq (h : t.Books kind held) {t' : Table κ} (hopened : t'.opened = t.opened)
    (hfaults : t'.faults = t.faults) : t'.Books kind held :=
  ⟨fun fd k => by rw [hopened, h.mem_opened], h.inj, hfaults.trans h.faults⟩

variable [DecidableEq ι]

theorem put (h : t.Books kind held) (hs : held s = none) :
    (t.openFd (kind s)).Books kind (Function.update held s (some t.fresh)) := by
  have hfree : ∀ s', held s' ≠ some t.fresh := fun s' hs' =>
    t.fresh_notMem (h.mem_fds_iff.mpr ⟨s', hs'⟩)
  refine ⟨?_, ?_, h.faults⟩
  · intro fd k
    rw [openFd_opened, Finset.mem_insert, h.mem_opened, Prod.mk.injEq]
    constructor
    · rintro (⟨rfl, rfl⟩ | ⟨s', hs', rfl⟩)
      · exact ⟨s, Function.update_self .., rfl⟩
      · refine ⟨s', ?_, rfl⟩
        rw [Function.update_of_ne, hs']
        rintro rfl
        exact absurd (hs.symm.trans hs') (by simp)
    · rintro ⟨s', hs', rfl⟩
      by_cases hss : s' = s
      · subst hss
        rw [Function.update_self] at hs'
        exact Or.inl ⟨(Option.some.inj hs').symm, rfl⟩
      · rw [Function.update_of_ne hss] at hs'
        exact Or.inr ⟨s', hs', rfl⟩
  · intro s₁ s₂ fd h₁ h₂
    by_cases hs₁ : s₁ = s <;> by_cases hs₂ : s₂ = s
    · exact hs₁.trans hs₂.symm
    · rw [hs₁, Function.update_self] at h₁
      rw [Function.update_of_ne hs₂] at h₂
      exact absurd (h₂.trans h₁.symm) (hfree s₂)
    · rw [hs₂, Function.update_self] at h₂
      rw [Function.update_of_ne hs₁] at h₁
      exact absurd (h₁.trans h₂.symm) (hfree s₁)
    · rw [Function.update_of_ne hs₁] at h₁
      rw [Function.update_of_ne hs₂] at h₂
      exact h.inj s₁ s₂ fd h₁ h₂

theorem drop (h : t.Books kind held) (hs : held s = some fd) :
    (t.close fd).Books kind (Function.update held s none) := by
  have hmem : fd ∈ t.fds := h.mem_fds_iff.mpr ⟨s, hs⟩
  refine ⟨?_, ?_, ?_⟩
  · intro fd' k
    rw [close_opened hmem, Finset.mem_filter, h.mem_opened]
    constructor
    · rintro ⟨⟨s', hs', rfl⟩, hne⟩
      refine ⟨s', ?_, rfl⟩
      rw [Function.update_of_ne, hs']
      rintro rfl
      exact hne (Option.some.inj (hs'.symm.trans hs))
    · rintro ⟨s', hs', rfl⟩
      by_cases hss : s' = s
      · rw [hss, Function.update_self] at hs'
        exact absurd hs' (by simp)
      · rw [Function.update_of_ne hss] at hs'
        refine ⟨⟨s', hs', rfl⟩, ?_⟩
        rintro rfl
        exact hss (h.inj s' s _ hs' hs)
  · intro s₁ s₂ fd' h₁ h₂
    by_cases hs₁ : s₁ = s
    · rw [hs₁, Function.update_self] at h₁
      exact absurd h₁ (by simp)
    by_cases hs₂ : s₂ = s
    · rw [hs₂, Function.update_self] at h₂
      exact absurd h₂ (by simp)
    rw [Function.update_of_ne hs₁] at h₁
    rw [Function.update_of_ne hs₂] at h₂
    exact h.inj s₁ s₂ fd' h₁ h₂
  · rw [close_faults hmem, h.faults]

theorem closeSlot (h : t.Books kind held) (hs : held s = heldFd fd) :
    (t.closeFd fd).Books kind (Function.update held s none) := by
  rw [closeFd]
  split
  · next hfd =>
    rw [heldFd, if_pos hfd] at hs
    exact h.drop hs
  · next hfd =>
    rw [heldFd, if_neg hfd] at hs
    rwa [← hs, Function.update_eq_self]

theorem closeSlots (h : t.Books kind held) {fds : ι → ℤ} {slots : List ι} (hnodup : slots.Nodup)
    (hs : ∀ s ∈ slots, held s = heldFd (fds s)) :
    (slots.foldl (fun t s => t.closeFd (fds s)) t).Books kind
      (fun s => if s ∈ slots then none else held s) := by
  induction slots generalizing t held with
  | nil => simpa using h
  | cons s slots ih =>
    obtain ⟨hnot, hnodup⟩ := List.nodup_cons.mp hnodup
    have hclosed := h.closeSlot (hs s (by simp))
    have hrest : ∀ s' ∈ slots, Function.update held s none s' = heldFd (fds s') := by
      intro s' hs'
      rw [Function.update_of_ne, hs s' (List.mem_cons_of_mem _ hs')]
      rintro rfl
      exact hnot hs'
    have hheld : (fun s' => if s' ∈ s :: slots then none else held s') =
        fun s' => if s' ∈ slots then none else Function.update held s none s' := by
      funext s'
      by_cases heq : s' = s
      · simp [heq]
      · simp [heq]
    rw [hheld]
    exact ih hclosed hnodup hrest

end Books

end Table

end Pgov.FdTable
