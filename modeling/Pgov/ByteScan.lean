import Mathlib.Tactic

namespace Pgov.ByteScan

variable {α σ : Type*}

/-- A `while (pos < len)` loop over a buffer: an element is folded into the state, or ends the
loop. A read outside the buffer is `none`, and so is a loop that runs out of rounds. -/
def scan (step : σ → α → Option σ) (buf : List α) : ℕ → σ → ℕ → Option (σ × ℕ)
  | 0, _, _ => none
  | rounds + 1, s, pos =>
    if pos < buf.length then
      match buf[pos]? with
      | none => none
      | some b =>
        match step s b with
        | some s' => scan step buf rounds s' (pos + 1)
        | none => some (s, pos)
    else some (s, pos)

/-- The state such a loop ends in, with the number of elements it takes. -/
def absorb (step : σ → α → Option σ) (s : σ) : List α → σ × ℕ
  | [] => (s, 0)
  | b :: bs =>
    match step s b with
    | some s' => ((absorb step s' bs).1, (absorb step s' bs).2 + 1)
    | none => (s, 0)

variable {step : σ → α → Option σ}

theorem scan_eq (buf : List α) {rounds pos : ℕ} (h : buf.length - pos < rounds) (s : σ) :
    scan step buf rounds s pos =
      some ((absorb step s (buf.drop pos)).1, pos + (absorb step s (buf.drop pos)).2) := by
  induction rounds generalizing pos s with
  | zero => omega
  | succ rounds ih =>
    rw [scan]
    by_cases hpos : pos < buf.length
    · rw [if_pos hpos, List.drop_eq_getElem_cons hpos, List.getElem?_eq_getElem hpos]
      simp only [absorb]
      cases hstep : step s buf[pos] with
      | none => rfl
      | some s' =>
        simp only [ih (show buf.length - (pos + 1) < rounds by omega)]
        congr 2
        omega
    · rw [if_neg hpos, List.drop_eq_nil_of_le (by omega)]
      rfl

theorem absorb_le (step : σ → α → Option σ) (s : σ) (bs : List α) : (absorb step s bs).2 ≤ bs.length := by
  induction bs generalizing s with
  | nil => exact le_rfl
  | cons b bs ih =>
    rw [absorb]
    cases step s b with
    | none => exact Nat.zero_le _
    | some s' =>
      have := ih s'
      simp only [List.length_cons]
      omega

theorem absorb_append {ds : List α} {s s' : σ} (h : ds.foldlM step s = some s') (rest : List α) :
    absorb step s (ds ++ rest) =
      ((absorb step s' rest).1, ds.length + (absorb step s' rest).2) := by
  induction ds generalizing s with
  | nil =>
    obtain rfl : s = s' := by simpa using h
    simp
  | cons d ds ih =>
    rw [List.foldlM_cons] at h
    obtain ⟨t, ht, h⟩ := Option.bind_eq_some_iff.mp h
    simp only [List.cons_append, absorb, ht, ih h, List.length_cons]
    congr 1
    omega

theorem absorb_stop {s : σ} {rest : List α} (h : ∀ b ∈ rest.head?, step s b = none) :
    absorb step s rest = (s, 0) := by
  cases rest with
  | nil => rfl
  | cons b bs => simp only [absorb, h b rfl]

theorem forall_head {p : α → Prop} {a : α} (ha : p a) (as : List α) :
    ∀ b ∈ (a :: as).head?, p b := by
  intro b hb
  obtain rfl : a = b := by simpa using hb
  exact ha

theorem absorb_run {ds rest : List α} {s s' : σ} (h : ds.foldlM step s = some s')
    (hrest : ∀ b ∈ rest.head?, step s' b = none) :
    absorb step s (ds ++ rest) = (s', ds.length) := by
  rw [absorb_append h, absorb_stop hrest]
  rfl

theorem foldlM_run {p : α → Prop} {f : σ → α → σ} (hstep : ∀ s b, p b → step s b = some (f s b))
    {ds : List α} (h : ∀ b ∈ ds, p b) (s : σ) : ds.foldlM step s = some (ds.foldl f s) := by
  induction ds generalizing s with
  | nil => rfl
  | cons d ds ih =>
    rw [List.foldlM_cons, hstep s d (h d (by simp))]
    exact ih (fun b hb => h b (by simp [hb])) (f s d)

def skipWhile (p : α → Bool) (buf : List α) (pos : ℕ) : Option ℕ :=
  (scan (fun _ b => if p b then some () else none) buf (buf.length - pos + 1) () pos).map Prod.snd

theorem absorb_takeWhile (p : α → Bool) (bs : List α) :
    (absorb (fun _ b => if p b then some () else none) () bs).2 = (bs.takeWhile p).length := by
  induction bs with
  | nil => rfl
  | cons b bs ih => cases hp : p b <;> simp [absorb, hp, ih]

theorem skipWhile_eq (p : α → Bool) (buf : List α) (pos : ℕ) :
    skipWhile p buf pos = some (pos + ((buf.drop pos).takeWhile p).length) := by
  rw [skipWhile, scan_eq buf (by omega), ← absorb_takeWhile]
  rfl

theorem drop_takeWhile_length (p : α → Bool) (bs : List α) :
    bs.drop (bs.takeWhile p).length = bs.dropWhile p := by
  have h := List.takeWhile_append_dropWhile (p := p) (l := bs)
  calc bs.drop (bs.takeWhile p).length
      = (bs.takeWhile p ++ bs.dropWhile p).drop (bs.takeWhile p).length := by rw [h]
    _ = bs.dropWhile p := List.drop_left

end Pgov.ByteScan
