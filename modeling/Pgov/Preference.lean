import Mathlib.Tactic

namespace Pgov.Preference

variable {α : Type*} {z : α} {l : List α}

def Leftmost (rank : α → ℕ) (l : List α) (z : α) : Prop :=
  ∃ before after, l = before ++ z :: after ∧ (∀ b ∈ before, rank z < rank b) ∧
    ∀ a ∈ after, rank z ≤ rank a

theorem Leftmost.mem {rank : α → ℕ} (h : Leftmost rank l z) : z ∈ l := by
  obtain ⟨before, after, rfl, -⟩ := h
  simp

/-- Looks for each kind in turn, most wanted first, through the whole list. -/
def pick (kinds : List (α → Bool)) (l : List α) : Option α := kinds.findSome? fun kind => l.find? kind

/-- The place of the first kind an element is of; an element of none has a rank past the last. -/
def rank (kinds : List (α → Bool)) (z : α) : ℕ := kinds.findIdx fun kind => kind z

theorem rank_lt_iff {kinds : List (α → Bool)} : rank kinds z < kinds.length ↔ ∃ kind ∈ kinds, kind z := by
  rw [rank, List.findIdx_lt_length]

theorem pick_append (kinds kinds' : List (α → Bool)) (l : List α) :
    pick (kinds ++ kinds') l = (pick kinds l).or (pick kinds' l) := List.findSome?_append

theorem pick_leftmost {kinds : List (α → Bool)} (h : pick kinds l = some z) :
    Leftmost (rank kinds) l z ∧ rank kinds z < kinds.length := by
  induction kinds with
  | nil => simp [pick] at h
  | cons kind kinds ih =>
    have hrank (a : α) : rank (kind :: kinds) a = if kind a then 0 else rank kinds a + 1 := by
      rw [rank, List.findIdx_cons, rank]
      cases kind a <;> rfl
    rw [pick, List.findSome?_cons] at h
    cases hfind : l.find? kind with
    | some a =>
      rw [hfind, Option.some.injEq] at h
      subst h
      obtain ⟨hkind, before, after, rfl, hbefore⟩ := List.find?_eq_some_iff_append.mp hfind
      rw [hrank, if_pos hkind]
      refine ⟨⟨before, after, rfl, ?_, ?_⟩, by simp⟩
      · intro b hb
        have hnot := hbefore b hb
        rw [Bool.not_eq_true'] at hnot
        rw [hrank, hrank, hkind, hnot]
        simp
      · intro b _
        rw [hrank, if_pos hkind]
        exact Nat.zero_le _
    | none =>
      rw [hfind] at h
      have hnone := List.find?_eq_none.mp hfind
      have hup (a : α) (ha : a ∈ l) : rank (kind :: kinds) a = rank kinds a + 1 := by
        rw [hrank, if_neg (hnone a ha)]
      obtain ⟨hleft, hlt⟩ := ih h
      have hz := hleft.mem
      obtain ⟨before, after, rfl, hbefore, hafter⟩ := hleft
      rw [hup z hz, List.length_cons]
      refine ⟨⟨before, after, rfl, ?_, ?_⟩, by omega⟩
      · intro b hb
        rw [hup z hz, hup b (by simp [hb])]
        exact Nat.succ_lt_succ (hbefore b hb)
      · intro a ha
        rw [hup z hz, hup a (by simp [ha])]
        exact Nat.succ_le_succ (hafter a ha)

theorem pick_none {kinds : List (α → Bool)} :
    pick kinds l = none ↔ ∀ a ∈ l, kinds.length ≤ rank kinds a := by
  simp only [pick, List.findSome?_eq_none_iff, List.find?_eq_none, ← not_lt, rank_lt_iff]
  grind

/-- Two tests find the same element when the second is the stricter one and the first only goes wrong
on an element that comes too late. -/
theorem find_agree {p q : α → Bool} (hqp : ∀ a ∈ l, q a → p a)
    (hpq : ∀ before a after, l = before ++ a :: after → p a → q a ∨ ∃ b ∈ before, p b) :
    l.find? p = l.find? q := by
  cases hfind : l.find? p with
  | none =>
    rw [List.find?_eq_none] at hfind
    rw [eq_comm, List.find?_eq_none]
    exact fun a ha hq => hfind a ha (hqp a ha hq)
  | some a =>
    obtain ⟨hp, before, after, rfl, hbefore⟩ := List.find?_eq_some_iff_append.mp hfind
    rw [eq_comm, List.find?_eq_some_iff_append]
    rcases hpq before a after rfl hp with hq | ⟨b, hb, hpb⟩
    · refine ⟨hq, before, after, rfl, fun b hb => ?_⟩
      have hnot := hbefore b hb
      have hb' := hqp b (by simp [hb])
      grind
    · exact absurd hpb (by simpa using hbefore b hb)

theorem mem_before [DecidableEq α] {x d : α} {before after : List α}
    (h : x ∈ (before ++ d :: after).takeWhile fun y => y ≠ d) : x ∈ before := by
  induction before with
  | nil => simp at h
  | cons b before ih =>
    rw [List.cons_append, List.takeWhile_cons] at h
    split at h
    · rcases List.mem_cons.mp h with rfl | h
      · simp
      · exact List.mem_cons_of_mem b (ih h)
    · simp at h

def collect {β : Type*} (get : α → Option β) (n : ℕ) : List α → List β → List β
  | [], kept => kept
  | a :: l, kept =>
    if kept.length < n then
      match get a with
      | none => collect get n l kept
      | some b => collect get n l (kept ++ [b])
    else kept

theorem collect_eq {β : Type*} (get : α → Option β) {n : ℕ} (l : List α) {kept : List β}
    (h : kept.length ≤ n) :
    collect get n l kept = kept ++ (l.filterMap get).take (n - kept.length) := by
  induction l generalizing kept with
  | nil => simp [collect]
  | cons a l ih =>
    rw [collect]
    by_cases hroom : kept.length < n
    · rw [if_pos hroom]
      cases hget : get a with
      | none =>
        rw [List.filterMap_cons_none hget]
        exact ih h
      | some b =>
        have hleft : n - kept.length = n - (kept.length + 1) + 1 := by omega
        have hroom' : (kept ++ [b]).length ≤ n := by
          rw [List.length_append, List.length_singleton]
          omega
        rw [List.filterMap_cons_some hget, hleft, List.take_succ_cons]
        simpa using ih hroom'
    · rw [if_neg hroom, show n - kept.length = 0 by omega, List.take_zero, List.append_nil]

theorem collect_nil {β : Type*} (get : α → Option β) (n : ℕ) (l : List α) :
    collect get n l [] = (l.filterMap get).take n := by
  rw [collect_eq get l (Nat.zero_le n)]
  rfl

theorem range_findSome {β : Type*} {f : ℕ → Option β} {n : ℕ} {b : β}
    (h : (List.range n).findSome? f = some b) : ∃ i < n, f i = some b ∧ ∀ j < i, f j = none := by
  induction n with
  | zero => simp at h
  | succ n ih =>
    rw [List.range_succ, List.findSome?_append, List.findSome?_singleton, Option.or_eq_some_iff] at h
    rcases h with h | ⟨hnone, h⟩
    · obtain ⟨i, hi, hb, hfirst⟩ := ih h
      exact ⟨i, by omega, hb, hfirst⟩
    · rw [List.findSome?_eq_none_iff] at hnone
      exact ⟨n, by omega, h, fun j hj => hnone j (List.mem_range.mpr hj)⟩

end Pgov.Preference
