import Mathlib.Tactic

namespace Pgov.FixedWidth

/-- The value a two's complement register of `w` bits keeps of an integer. -/
def narrow (w : ℕ) (x : ℤ) : ℤ := x.bmod (2 ^ w)

def Fits (w : ℕ) (x : ℤ) : Prop := -(2 ^ (w - 1)) ≤ x ∧ x < 2 ^ (w - 1)

instance (w : ℕ) (x : ℤ) : Decidable (Fits w x) := inferInstanceAs (Decidable (_ ∧ _))

theorem narrow_of_fits {w : ℕ} (hw : 0 < w) {x : ℤ} (h : Fits w x) : narrow w x = x := by
  obtain ⟨v, rfl⟩ : ∃ v, w = v + 1 := ⟨w - 1, by omega⟩
  obtain ⟨hl, hu⟩ := h
  have hp : (2 : ℤ) ^ (v + 1) = 2 * 2 ^ v := by rw [pow_succ]; ring
  rw [Nat.add_sub_cancel] at hl hu
  apply Int.bmod_eq_of_le_mul_two
  · push_cast
    linarith
  · push_cast
    linarith

theorem narrow_fits {w : ℕ} (hw : 0 < w) (x : ℤ) : Fits w (narrow w x) := by
  obtain ⟨v, rfl⟩ : ∃ v, w = v + 1 := ⟨w - 1, by omega⟩
  have hp : (2 : ℤ) ^ (v + 1) = 2 * 2 ^ v := by rw [pow_succ]; ring
  have hpos : 0 < 2 ^ (v + 1) := by positivity
  have hl := Int.le_bmod (x := x) hpos
  have hu := Int.bmod_lt (x := x) hpos
  push_cast at hl hu
  rw [Fits, narrow, Nat.add_sub_cancel]
  constructor <;> omega

theorem narrow_emod (w : ℕ) (x : ℤ) : narrow w x % 2 ^ w = x % 2 ^ w := by
  have h := Int.bmod_emod (x := x) (m := 2 ^ w)
  push_cast at h
  exact h

theorem narrow_congr {w : ℕ} {x y : ℤ} (h : x % 2 ^ w = y % 2 ^ w) : narrow w x = narrow w y := by
  have hx := Int.emod_bmod x (2 ^ w)
  have hy := Int.emod_bmod y (2 ^ w)
  push_cast at hx hy
  rw [narrow, narrow, ← hx, ← hy, h]

def i32 (x : ℤ) : ℤ := narrow 32 x
def i64 (x : ℤ) : ℤ := narrow 64 x
def u32 (x : ℤ) : ℤ := x % 2 ^ 32
def u64 (x : ℤ) : ℤ := x % 2 ^ 64

theorem i32_of_fits {x : ℤ} (h : Fits 32 x) : i32 x = x := narrow_of_fits (by norm_num) h

theorem i64_of_fits {x : ℤ} (h : Fits 64 x) : i64 x = x := narrow_of_fits (by norm_num) h

theorem i32_fits (x : ℤ) : Fits 32 (i32 x) := narrow_fits (by norm_num) x

theorem fits32_iff {x : ℤ} : Fits 32 x ↔ -2147483648 ≤ x ∧ x ≤ 2147483647 := by
  simp only [Fits]
  norm_num
  omega

theorem fits64_iff {x : ℤ} :
    Fits 64 x ↔ -9223372036854775808 ≤ x ∧ x ≤ 9223372036854775807 := by
  simp only [Fits]
  norm_num
  omega

theorem fits64_zero : Fits 64 0 := by decide

theorem i32_eq {x : ℤ} (hl : -2147483648 ≤ x) (hu : x ≤ 2147483647) : i32 x = x :=
  i32_of_fits (fits32_iff.mpr ⟨hl, hu⟩)

theorem i64_eq {x : ℤ} (hl : -9223372036854775808 ≤ x) (hu : x ≤ 9223372036854775807) :
    i64 x = x := i64_of_fits (fits64_iff.mpr ⟨hl, hu⟩)

theorem i32_bounds (x : ℤ) : -2147483648 ≤ i32 x ∧ i32 x ≤ 2147483647 := fits32_iff.mp (i32_fits x)

theorem i32_congr (x : ℤ) : ∃ k, i32 x = x + k * 4294967296 := by
  have h : i32 x % 4294967296 = x % 4294967296 := narrow_emod 32 x
  refine ⟨i32 x / 4294967296 - x / 4294967296, ?_⟩
  omega

theorem i32_eq_iff {x : ℤ} : i32 x = x ↔ Fits 32 x :=
  ⟨fun h => h ▸ i32_fits x, i32_of_fits⟩

theorem u64_eq {x : ℤ} (hl : 0 ≤ x) (hu : x < 18446744073709551616) : u64 x = x :=
  Int.emod_eq_of_lt hl (by norm_num; omega)

theorem u32_eq {x : ℤ} (hl : 0 ≤ x) (hu : x < 4294967296) : u32 x = x :=
  Int.emod_eq_of_lt hl (by norm_num; omega)

end Pgov.FixedWidth
