import Pgov.PgMath

namespace Pgov

open DigitSqrt FixedWidth

structure IsqrtRegs where
  val : ℕ
  res : ℕ
  bit : ℕ
  deriving DecidableEq, Repr

def isqrtInit (val : ℕ) : IsqrtRegs := { val, res := 0, bit := 2 ^ (Nat.log2 val / 2 * 2) }

def isqrtStep (s : IsqrtRegs) : IsqrtRegs :=
  let sum := (s.res + s.bit) % 2 ^ 64
  if s.val ≥ sum then
    { val := s.val - sum, res := (s.res / 2 + s.bit) % 2 ^ 64, bit := s.bit / 4 }
  else { s with res := s.res / 2, bit := s.bit / 4 }

/-- The loop stops after `rounds` rounds with `root`, and no sum on the way wraps. -/
structure IsqrtRun (val rounds root : ℕ) : Prop where
  exact : ∀ j < rounds, (isqrtStep^[j] (isqrtInit val)).bit ≠ 0 ∧
    (isqrtStep^[j] (isqrtInit val)).res + (isqrtStep^[j] (isqrtInit val)).bit < 2 ^ 64
  stops : (isqrtStep^[rounds] (isqrtInit val)).bit = 0
  res_eq : (isqrtStep^[rounds] (isqrtInit val)).res = root

/-- `k` digits of the root of `n` are still to be found. -/
structure IsqrtRegs.At (n k : ℕ) (s : IsqrtRegs) : Prop where
  found : ∃ r, Partial n k r s.val s.res ∧ r + 2 ^ k ≤ 2 ^ 32
  bit_eq : s.bit = 4 ^ k / 4

section Loop

variable {n k : ℕ} {s : IsqrtRegs}

theorem IsqrtRegs.At.succ_bit (h : s.At n (k + 1)) : s.bit = 4 ^ k := by
  rw [h.bit_eq, pow_succ, Nat.mul_div_cancel _ (by norm_num)]

theorem IsqrtRegs.At.exact (h : s.At n (k + 1)) : s.res + s.bit < 2 ^ 64 := by
  obtain ⟨r, hpart, hr⟩ := h.found
  have hk : 2 ^ (k + 1) ≤ 2 ^ 32 := by omega
  have h4 : 4 ^ k < 2 ^ (k + 1) * 2 ^ (k + 1) := by
    rw [← mul_pow]
    exact Nat.pow_lt_pow_right (by norm_num) (Nat.lt_succ_self k)
  rw [hpart.res_eq, h.succ_bit]
  calc 2 ^ (k + 1) * r + 4 ^ k < 2 ^ (k + 1) * r + 2 ^ (k + 1) * 2 ^ (k + 1) := by omega
    _ = 2 ^ (k + 1) * (r + 2 ^ (k + 1)) := by ring
    _ ≤ 2 ^ 32 * 2 ^ 32 := Nat.mul_le_mul hk hr

theorem IsqrtRegs.At.step (h : s.At n (k + 1)) : (isqrtStep s).At n k := by
  have hexact := h.exact
  have hbit := h.succ_bit
  obtain ⟨r, hpart, hr⟩ := h.found
  have hnext : s.bit / 4 = 4 ^ k / 4 := by rw [hbit]
  rw [pow_succ] at hr
  simp only [isqrtStep]
  rw [Nat.mod_eq_of_lt hexact, Nat.mod_eq_of_lt (by omega), hbit]
  by_cases htake : s.val ≥ s.res + 4 ^ k
  · rw [if_pos htake]
    exact ⟨⟨r + 2 ^ k, hpart.take htake, by omega⟩, rfl⟩
  · rw [if_neg htake]
    exact ⟨⟨r, hpart.skip htake, by omega⟩, rfl⟩

theorem IsqrtRegs.At.iterate (h : s.At n k) {j : ℕ} (hj : j ≤ k) :
    (isqrtStep^[j] s).At n (k - j) := by
  induction j with
  | zero => exact h
  | succ j ih =>
    rw [Function.iterate_succ_apply']
    have hrest : k - j = k - (j + 1) + 1 := by omega
    exact (hrest ▸ ih (by omega)).step

end Loop

theorem isqrtInit_at {val : ℕ} (h0 : val ≠ 0) (h : val < 2 ^ 64) :
    (isqrtInit val).At val (Nat.log2 val / 2 + 1) := by
  have hlog : Nat.log2 val < 64 := (Nat.log2_lt h0).mpr h
  have hval : val < 4 ^ (Nat.log2 val / 2 + 1) := by
    calc val < 2 ^ (Nat.log2 val + 1) := (Nat.log2_lt h0).mp (Nat.lt_succ_self _)
      _ ≤ 2 ^ (2 * (Nat.log2 val / 2 + 1)) := Nat.pow_le_pow_right (by norm_num) (by omega)
      _ = 4 ^ (Nat.log2 val / 2 + 1) := pow_mul 2 2 _
  refine ⟨⟨0, partial_start hval, ?_⟩, ?_⟩
  · rw [Nat.zero_add]
    exact Nat.pow_le_pow_right (by norm_num) (by omega)
  · change 2 ^ (Nat.log2 val / 2 * 2) = _
    rw [pow_succ 4, Nat.mul_div_cancel _ (by norm_num), mul_comm, pow_mul]
    norm_num

theorem isqrt_run {val : ℕ} (h0 : val ≠ 0) (h : val < 2 ^ 64) :
    IsqrtRun val (Nat.log2 val / 2 + 1) (pgMathIsqrt64 val) := by
  have hstart := isqrtInit_at h0 h
  refine ⟨?_, ?_, ?_⟩
  · intro j hj
    have hat := hstart.iterate hj.le
    obtain ⟨k, hk⟩ : ∃ k, Nat.log2 val / 2 + 1 - j = k + 1 := ⟨Nat.log2 val / 2 - j, by omega⟩
    rw [hk] at hat
    refine ⟨?_, hat.exact⟩
    rw [hat.succ_bit]
    positivity
  · have hat := hstart.iterate le_rfl
    rw [Nat.sub_self] at hat
    rw [hat.bit_eq]
    norm_num
  · have hat := hstart.iterate le_rfl
    rw [Nat.sub_self] at hat
    obtain ⟨r, hpart, -⟩ := hat.found
    rw [hpart.root, isqrt64_eq]

theorem q16Sqrt_eq {x : ℤ} (h0 : 0 < x) (h : x ≤ int32Max) :
    pgMathQ16Sqrt x = Nat.sqrt (x.toNat * 2 ^ 16) ∧ Nat.sqrt (x.toNat * 2 ^ 16) ≤ 2147483647 := by
  have hle : Nat.sqrt (x.toNat * 2 ^ 16) ≤ 2147483647 := by
    rw [← Nat.lt_succ_iff, Nat.sqrt_lt]
    have hx : x.toNat ≤ 2147483647 := by
      rw [int32Max] at h
      omega
    omega
  refine ⟨?_, hle⟩
  rw [pgMathQ16Sqrt, if_neg (by omega), isqrt64_eq, Nat.shiftLeft_eq,
    i32_eq (by omega) (by omega)]

theorem isqrt_exact {val : ℕ} (hval : val < 2 ^ 64) :
    (val ≠ 0 → ∃ rounds ≤ 32, IsqrtRun val rounds (pgMathIsqrt64 val)) ∧
      pgMathIsqrt64 val * pgMathIsqrt64 val ≤ val ∧
      val < (pgMathIsqrt64 val + 1) * (pgMathIsqrt64 val + 1) ∧
      ∀ x, 0 < x → x ≤ int32Max →
        pgMathQ16Sqrt x = Nat.sqrt (x.toNat * 2 ^ 16) ∧
        (Nat.sqrt (x.toNat * 2 ^ 16) : ℤ) ≤ int32Max ∧
        ∀ y, x ≤ y → y ≤ int32Max → pgMathQ16Sqrt x ≤ pgMathQ16Sqrt y := by
  refine ⟨?_, ?_, ?_, ?_⟩
  · intro h0
    have hlog : Nat.log2 val < 64 := (Nat.log2_lt h0).mpr hval
    exact ⟨_, by omega, isqrt_run h0 hval⟩
  · rw [isqrt64_eq]
    exact Nat.sqrt_le val
  · rw [isqrt64_eq]
    exact Nat.lt_succ_sqrt val
  · intro x h0 h
    obtain ⟨hx, hfits⟩ := q16Sqrt_eq h0 h
    refine ⟨hx, ?_, ?_⟩
    · change _ ≤ (2147483647 : ℤ)
      exact_mod_cast hfits
    intro y hxy hy
    rw [hx, (q16Sqrt_eq (h0.trans_le hxy) hy).1]
    have hmono : x.toNat * 2 ^ 16 ≤ y.toNat * 2 ^ 16 :=
      Nat.mul_le_mul_right _ (Int.toNat_le_toNat hxy)
    exact_mod_cast Nat.sqrt_le_sqrt hmono

theorem isqrt_exact_max :
    (18446744073709551615 ≠ 0 →
      ∃ rounds ≤ 32, IsqrtRun 18446744073709551615 rounds (pgMathIsqrt64 18446744073709551615)) ∧
      pgMathIsqrt64 18446744073709551615 * pgMathIsqrt64 18446744073709551615 ≤
        18446744073709551615 ∧
      18446744073709551615 < (pgMathIsqrt64 18446744073709551615 + 1) *
        (pgMathIsqrt64 18446744073709551615 + 1) ∧
      ∀ x, 0 < x → x ≤ int32Max →
        pgMathQ16Sqrt x = Nat.sqrt (x.toNat * 2 ^ 16) ∧
        (Nat.sqrt (x.toNat * 2 ^ 16) : ℤ) ≤ int32Max ∧
        ∀ y, x ≤ y → y ≤ int32Max → pgMathQ16Sqrt x ≤ pgMathQ16Sqrt y :=
  isqrt_exact (by norm_num)

end Pgov
