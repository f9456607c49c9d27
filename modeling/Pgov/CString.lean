import Mathlib.Tactic
import Mathlib.Data.List.DropRight

namespace Pgov.CString

def str (b : List UInt8) (p : ℕ) : List UInt8 := (b.drop p).takeWhile (· != 0)

def strchr (b : List UInt8) (p : ℕ) (c : UInt8) : Option ℕ :=
  if c ∈ str b p then some (p + (str b p).idxOf c) else none

def cutAt (b : List UInt8) (p : ℕ) (c : UInt8) : List UInt8 :=
  match strchr b p c with
  | some t => b.set t 0
  | none => b

section Blanks

variable (blank : UInt8 → Bool)

def skipBlanks (b : List UInt8) (p : ℕ) : ℕ := p + ((b.drop p).takeWhile blank).length

/-- Writes a NUL over each blank from the end of the `n` bytes at `p` backwards. -/
def trimLoop (b : List UInt8) (p : ℕ) : ℕ → List UInt8
  | 0 => b
  | n + 1 => if blank (b.getD (p + n) 0) then trimLoop (b.set (p + n) 0) p n else b

def trimTrailing (b : List UInt8) (p : ℕ) : List UInt8 := trimLoop blank b p (str b p).length

def strip (s : List UInt8) : List UInt8 := (s.dropWhile blank).rdropWhile blank

end Blanks

theorem takeWhile_set_zero (l : List UInt8) (i : ℕ) :
    (l.set i 0).takeWhile (· != 0) = (l.takeWhile (· != 0)).take i := by
  induction l generalizing i with
  | nil => simp
  | cons x xs ih =>
    cases i with
    | zero => simp
    | succ i =>
      by_cases hx : x = 0
      · simp [hx]
      · simp [hx, ih]

theorem str_set_zero (b : List UInt8) (p i : ℕ) :
    str (b.set (p + i) 0) p = (str b p).take i := by
  rw [str, List.drop_set, if_neg (by omega), Nat.add_sub_cancel_left, takeWhile_set_zero, str]

theorem str_set_before {b : List UInt8} {i q : ℕ} (h : i < q) (x : UInt8) :
    str (b.set i x) q = str b q := by
  rw [str, List.drop_set_of_lt h, str]

theorem str_add {b : List UInt8} {p k : ℕ} (h : k ≤ (str b p).length) :
    str b (p + k) = (str b p).drop k := by
  induction k generalizing p with
  | zero => simp
  | succ k ih =>
    cases hd : b.drop p with
    | nil => simp [str, hd] at h
    | cons x xs =>
      have hdrop : b.drop (p + 1) = xs := by rw [← List.drop_drop, hd, List.drop_one, List.tail_cons]
      by_cases hx : x = 0
      · simp [str, hd, hx] at h
      · have hstr : str b p = x :: str b (p + 1) := by simp [str, hd, hx, hdrop]
        rw [hstr] at h ⊢
        rw [show p + (k + 1) = p + 1 + k by omega, ih (by simpa using h), List.drop_succ_cons]

theorem takeWhile_of_not_mem {l : List UInt8} {c : UInt8} (h : c ∉ l) :
    l.takeWhile (· != c) = l := by
  rw [List.takeWhile_eq_self_iff]
  intro x hx
  rw [bne_iff_ne]
  rintro rfl
  exact h hx

theorem take_idxOf (l : List UInt8) (c : UInt8) : l.take (l.idxOf c) = l.takeWhile (· != c) := by
  induction l with
  | nil => rfl
  | cons x xs ih =>
    by_cases hx : x = c
    · simp [hx]
    · simp [hx, ih]

theorem drop_idxOf (l : List UInt8) (c : UInt8) : l.drop (l.idxOf c) = l.dropWhile (· != c) := by
  induction l with
  | nil => rfl
  | cons x xs ih =>
    by_cases hx : x = c
    · simp [hx]
    · simp [hx, ih]

theorem str_cutAt (b : List UInt8) (p : ℕ) (c : UInt8) :
    str (cutAt b p c) p = (str b p).takeWhile (· != c) := by
  by_cases h : c ∈ str b p
  · rw [cutAt, strchr, if_pos h]
    exact (str_set_zero b p _).trans (take_idxOf _ c)
  · rw [cutAt, strchr, if_neg h, takeWhile_of_not_mem h]

section Blanks

variable (blank : UInt8 → Bool)

theorem str_skipBlanks (h0 : blank 0 = false) (b : List UInt8) (p : ℕ) :
    str b (skipBlanks blank b p) = (str b p).dropWhile blank := by
  have hlist (l : List UInt8) : (l.drop (l.takeWhile blank).length).takeWhile (· != 0) =
      (l.takeWhile (· != 0)).dropWhile blank := by
    induction l with
    | nil => rfl
    | cons x xs ih =>
      cases hx : blank x with
      | true =>
        have hne : x ≠ 0 := fun he => by simp [he, h0] at hx
        simpa [hx, hne] using ih
      | false => simp [List.takeWhile_cons, apply_ite, hx]
  rw [skipBlanks, str, ← List.drop_drop, hlist, str]

theorem length_takeWhile_str (h0 : blank 0 = false) (b : List UInt8) (p : ℕ) :
    ((str b p).takeWhile blank).length = ((b.drop p).takeWhile blank).length := by
  rw [str]
  generalize b.drop p = l
  induction l with
  | nil => rfl
  | cons x xs ih =>
    cases hx : blank x with
    | true =>
      have hne : x ≠ 0 := fun he => by simp [he, h0] at hx
      simpa [hx, hne] using ih
    | false => simp [List.takeWhile_cons, apply_ite, hx]

theorem skipBlanks_end (h0 : blank 0 = false) (b : List UInt8) (p : ℕ) :
    skipBlanks blank b p + (str b (skipBlanks blank b p)).length = p + (str b p).length := by
  rw [str_skipBlanks blank h0, skipBlanks, ← length_takeWhile_str blank h0]
  have hsplit := congrArg List.length (List.takeWhile_append_dropWhile (p := blank) (l := str b p))
  rw [List.length_append] at hsplit
  omega

theorem trimLoop_before {b : List UInt8} {p n q : ℕ} (h : p + n ≤ q) :
    str (trimLoop blank b p n) q = str b q := by
  induction n generalizing b with
  | zero => rfl
  | succ n ih =>
    rw [trimLoop]
    split
    · rw [ih (by omega), str_set_before (by omega)]
    · rfl

theorem trimLoop_after {b : List UInt8} {p n q : ℕ} (h : q + (str b q).length ≤ p) :
    str (trimLoop blank b p n) q = str b q := by
  induction n generalizing b with
  | zero => rfl
  | succ n ih =>
    have hset : str (b.set (p + n) 0) q = str b q := by
      rw [show p + n = q + (p + n - q) by omega, str_set_zero, List.take_of_length_le (by omega)]
    rw [trimLoop]
    split
    · rw [ih (by rw [hset]; omega), hset]
    · rfl

theorem str_trimLoop {b : List UInt8} {p n : ℕ} (h : (str b p).length = n) :
    str (trimLoop blank b p n) p = (str b p).rdropWhile blank := by
  induction n generalizing b with
  | zero =>
    rw [List.length_eq_zero_iff] at h
    rw [trimLoop, h, List.rdropWhile_nil]
  | succ n ih =>
    obtain ⟨s, x, hs⟩ : ∃ s x, str b p = s ++ [x] :=
      ⟨_, _, (List.dropLast_append_getLast (List.ne_nil_of_length_eq_add_one h)).symm⟩
    have hlen : s.length = n := by simpa [hs] using h
    have hget : b.getD (p + n) 0 = x := by
      obtain ⟨t, ht⟩ : str b p <+: b.drop p := List.takeWhile_prefix _
      rw [hs, List.append_assoc] at ht
      rw [List.getD_eq_getElem?_getD, ← List.getElem?_drop, ← ht, ← hlen]
      simp
    rw [trimLoop, hget, hs]
    cases hx : blank x with
    | true =>
      have hcut : str (b.set (p + n) 0) p = s := by
        rw [str_set_zero, hs, ← hlen, List.take_left]
      simp only [↓reduceIte]
      rw [ih (by rw [hcut, hlen]), hcut, List.rdropWhile_concat_pos _ _ _ hx]
    | false =>
      rw [List.rdropWhile_concat_neg _ _ _ (by simp [hx])]
      simpa using hs

theorem str_trimTrailing (b : List UInt8) (p : ℕ) :
    str (trimTrailing blank b p) p = (str b p).rdropWhile blank := str_trimLoop blank rfl

theorem trimTrailing_after {b : List UInt8} {p q : ℕ} (h : q + (str b q).length ≤ p) :
    str (trimTrailing blank b p) q = str b q := trimLoop_after blank h

theorem trimTrailing_before {b : List UInt8} {p q : ℕ} (h : p + (str b p).length ≤ q) :
    str (trimTrailing blank b p) q = str b q := trimLoop_before blank h

end Blanks

end Pgov.CString
