import Mathlib.Tactic

namespace Pgov.Substring

variable {α : Type*} {w : List α}

/-- A word without separators starts a text only within its first piece. -/
theorem prefix_piece {sep : α → Bool} (hw : ∀ x ∈ w, sep x = false) {l piece : List α}
    {pieces : List (List α)} (hl : l.splitOnP sep = piece :: pieces) : w <+: l ↔ w <+: piece := by
  induction l generalizing w piece pieces with
  | nil =>
    rw [List.splitOnP_nil, List.cons.injEq] at hl
    rw [← hl.1]
  | cons x xs ih =>
    rw [List.splitOnP_cons_eq_if_modifyHead] at hl
    cases hx : sep x with
    | true =>
      rw [hx, if_pos rfl, List.cons.injEq] at hl
      rw [← hl.1, List.prefix_nil, List.prefix_cons_iff, or_iff_left]
      rintro ⟨t, rfl, -⟩
      exact absurd (hx.symm.trans (hw x (by simp))) (by simp)
    | false =>
      obtain ⟨head, tail, hxs⟩ := List.exists_cons_of_ne_nil (List.splitOnP_ne_nil sep xs)
      rw [hx, if_neg (by simp), hxs, List.modifyHead_cons, List.cons.injEq] at hl
      rw [← hl.1, List.prefix_cons_iff, List.prefix_cons_iff]
      apply or_congr_right
      apply exists_congr
      intro t
      apply and_congr_right
      rintro rfl
      exact ih (fun y hy => hw y (List.mem_cons_of_mem x hy)) hxs

/-- A word without separators occurs in a text when it occurs in a piece of it. -/
theorem infix_pieces {sep : α → Bool} (hw : ∀ x ∈ w, sep x = false) (l : List α) :
    w <:+: l ↔ ∃ piece ∈ l.splitOnP sep, w <:+: piece := by
  induction l with
  | nil => simp
  | cons x xs ih =>
    obtain ⟨head, tail, hxs⟩ := List.exists_cons_of_ne_nil (List.splitOnP_ne_nil sep xs)
    have hsplit := List.splitOnP_cons_eq_if_modifyHead (p := sep) x xs
    rw [List.infix_cons_iff, ih]
    cases hx : sep x with
    | true =>
      rw [hx, if_pos rfl] at hsplit
      rw [prefix_piece hw hsplit, hsplit]
      simp
    | false =>
      rw [hx, if_neg (by simp), hxs, List.modifyHead_cons] at hsplit
      rw [prefix_piece hw hsplit, hsplit, hxs]
      simp [List.infix_cons_iff, or_assoc]

end Pgov.Substring
