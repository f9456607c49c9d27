import Mathlib.Tactic

namespace Pgov.Quantise

def nearest (k v : ℕ) : ℕ := (v + 2 ^ k / 2) / 2 ^ k * 2 ^ k

theorem and_highMask {w k v : ℕ} (hk : k ≤ w) (hv : v < 2 ^ w) :
    v &&& (2 ^ w - 1 - (2 ^ k - 1)) = v / 2 ^ k * 2 ^ k := by
  have hpow : 2 ^ w = 2 ^ (w - k) * 2 ^ k := by rw [← pow_add, Nat.sub_add_cancel hk]
  have hmask : 2 ^ w - 1 - (2 ^ k - 1) = (2 ^ (w - k) - 1) * 2 ^ k := by
    have hpos : 0 < 2 ^ k := by positivity
    rw [Nat.sub_mul, ← hpow]
    omega
  rw [hmask]
  apply Nat.eq_of_testBit_eq
  intro i
  rw [Nat.testBit_and, Nat.testBit_mul_two_pow, Nat.testBit_mul_two_pow, Nat.testBit_div_two_pow,
    Nat.testBit_two_pow_sub_one]
  by_cases hi : k ≤ i
  · rw [Nat.sub_add_cancel hi]
    by_cases hiw : i < w
    · simp [hi, show i - k < w - k by omega]
    · have hbit : v.testBit i = false :=
        Nat.testBit_lt_two_pow (hv.trans_le (Nat.pow_le_pow_right (by norm_num) (by omega)))
      simp [hbit]
  · simp [hi]

theorem and_highMask_nearest {w k v : ℕ} (hk : k ≤ w) (hv : v + 2 ^ k / 2 < 2 ^ w) :
    (v + 2 ^ k / 2) % 2 ^ w &&& (2 ^ w - 1 - (2 ^ k - 1)) = nearest k v := by
  rw [Nat.mod_eq_of_lt hv, and_highMask hk hv, nearest]

theorem dvd_nearest (k v : ℕ) : 2 ^ k ∣ nearest k v := Dvd.intro_left _ rfl

theorem nearest_mono (k : ℕ) {v w : ℕ} (h : v ≤ w) : nearest k v ≤ nearest k w :=
  Nat.mul_le_mul_right _ (Nat.div_le_div_right (Nat.add_le_add_right h _))

theorem nearest_le (k v : ℕ) : nearest k v ≤ v + 2 ^ k / 2 := Nat.div_mul_le_self _ _

theorem lt_nearest_add (k v : ℕ) : v + 2 ^ k / 2 < nearest k v + 2 ^ k :=
  Nat.lt_div_mul_add (by positivity)

theorem le_nearest (k v : ℕ) : v ≤ nearest k v + 2 ^ k / 2 := by
  have hlt := lt_nearest_add k v
  omega

def gap (a b : ℕ) : ℕ := max a b - min a b

/-- `r` is the multiple of `step` nearest to `v`, the upper one of two. -/
structure IsNearest (step v r : ℕ) : Prop where
  dvd : step ∣ r
  closest : ∀ m, step ∣ m → gap r v ≤ gap m v
  ties : ∀ m, step ∣ m → gap m v = gap r v → m ≤ r

section IsNearest

variable {step v w r s m : ℕ}

theorem IsNearest.unique (h : IsNearest step v r) (h' : IsNearest step v s) : r = s := by
  have heq : gap r v = gap s v := le_antisymm (h.closest s h'.dvd) (h'.closest r h.dvd)
  exact le_antisymm (h'.ties r h.dvd heq) (h.ties s h'.dvd heq.symm)

theorem IsNearest.mono (h : IsNearest step v r) (h' : IsNearest step w s) (hle : v ≤ w) :
    r ≤ s := by
  by_contra hlt
  have hv := h.closest s h'.dvd
  have hw := h'.closest r h.dvd
  -- both values lie on the midpoint of `s` and `r`, where the tie goes to `r`
  have htie : gap r w = gap s w := by
    simp only [gap] at hv hw ⊢
    omega
  exact hlt (h'.ties r h.dvd htie)

theorem multiples_apart (hr : step ∣ r) (hm : step ∣ m) :
    m + step ≤ r ∨ m = r ∨ r + step ≤ m := by
  rcases lt_trichotomy m r with hlt | heq | hgt
  · have := Nat.le_of_dvd (by omega) (Nat.dvd_sub hr hm)
    omega
  · exact Or.inr (Or.inl heq)
  · have := Nat.le_of_dvd (by omega) (Nat.dvd_sub hm hr)
    omega

theorem isNearest_of_bounds (hr : step ∣ r) (hup : 2 * r ≤ 2 * v + step)
    (hlow : 2 * v < 2 * r + step) : IsNearest step v r := by
  refine ⟨hr, ?_, ?_⟩
  · intro m hm
    have := multiples_apart hr hm
    simp only [gap]
    omega
  · intro m hm htie
    have := multiples_apart hr hm
    simp only [gap] at htie
    omega

theorem nearest_isNearest {k : ℕ} (hk : 0 < k) (v : ℕ) : IsNearest (2 ^ k) v (nearest k v) := by
  have heven : 2 ∣ 2 ^ k := dvd_pow_self 2 hk.ne'
  have hup := nearest_le k v
  have hlow := lt_nearest_add k v
  exact isNearest_of_bounds (dvd_nearest k v) (by omega) (by omega)

theorem remainder_isNearest (hpos : 0 < step) (heven : 2 ∣ step) (v : ℕ) :
    IsNearest step v (if v % step ≥ step / 2 then v + step - v % step else v - v % step) := by
  have hlt := Nat.mod_lt v hpos
  have hle := Nat.mod_le v step
  have hdvd : step ∣ v - v % step := Nat.dvd_sub_mod v
  split
  · have hnext : v + step - v % step = v - v % step + step := by omega
    rw [hnext]
    exact isNearest_of_bounds (hdvd.add (dvd_refl step)) (by omega) (by omega)
  · exact isNearest_of_bounds hdvd (by omega) (by omega)

end IsNearest

/-- The value held back by a relative threshold of `tol` per mille. -/
def Within (tol held v : ℕ) : Prop := held = v ∨ (max held v - min held v) * 1000 < held * tol

theorem Within.le_mul {tol held v : ℕ} (h : Within tol held v) (htol : tol ≤ 1000) :
    held * (1000 - tol) ≤ v * 1000 := by
  rcases h with rfl | h
  · exact Nat.mul_le_mul_left _ (by omega)
  · rcases le_total held v with hle | hle
    · exact Nat.mul_le_mul hle (by omega)
    · rw [max_eq_left hle, min_eq_right hle] at h
      have hsplit : held * (1000 - tol) + held * tol = held * 1000 := by
        rw [← Nat.mul_add, Nat.sub_add_cancel htol]
      have hdiff : (held - v) * 1000 + v * 1000 = held * 1000 := by
        rw [← Nat.add_mul, Nat.sub_add_cancel hle]
      omega

theorem Within.mul_le {tol held v : ℕ} (h : Within tol held v) :
    v * 1000 ≤ held * (1000 + tol) := by
  rcases h with rfl | h
  · exact Nat.mul_le_mul_left _ (by omega)
  · rcases le_total held v with hle | hle
    · rw [max_eq_right hle, min_eq_left hle] at h
      obtain ⟨d, rfl⟩ := Nat.exists_eq_add_of_le hle
      rw [Nat.add_sub_cancel_left] at h
      linarith
    · exact Nat.mul_le_mul hle (by omega)

/-- Two signals held back independently stay ordered if the current ones are apart by the drift
both thresholds allow. -/
theorem held_le_held {tol a a' b b' : ℕ} (htol : tol < 1000) (ha : Within tol a' a)
    (hb : Within tol b' b) (hmargin : a * (1000 + tol) ≤ b * (1000 - tol)) : a' ≤ b' := by
  have hlow := ha.le_mul htol.le
  have hhigh := hb.mul_le
  obtain ⟨s, hs⟩ : ∃ s, 1000 - tol = s + 1 := ⟨999 - tol, by omega⟩
  rw [hs] at hmargin hlow
  by_contra hlt
  have hlt : b' + 1 ≤ a' := by omega
  have h1 : (b' + 1) * (s + 1) ≤ a * 1000 := (Nat.mul_le_mul_right _ hlt).trans hlow
  have h2 : (b' + 1) * (s + 1) * (1000 + tol) ≤ b' * (1000 + tol) * (s + 1) := by
    calc (b' + 1) * (s + 1) * (1000 + tol) ≤ a * 1000 * (1000 + tol) := Nat.mul_le_mul_right _ h1
      _ = a * (1000 + tol) * 1000 := by ring
      _ ≤ b * (s + 1) * 1000 := Nat.mul_le_mul_right _ hmargin
      _ = b * 1000 * (s + 1) := by ring
      _ ≤ b' * (1000 + tol) * (s + 1) := Nat.mul_le_mul_right _ hhigh
  nlinarith

end Pgov.Quantise
