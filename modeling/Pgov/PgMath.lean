import Pgov.DigitSqrt
import Pgov.FixedWidth
import Pgov.Quantise
import Pgov.Rounding

namespace Pgov

open DigitSqrt FixedWidth Quantise

abbrev q16One : ℤ := 65536
abbrev q16Half : ℤ := 32768
abbrev int32Max : ℤ := 2147483647
abbrev int32Min : ℤ := -2147483648

/-- `FLOAT_TO_Q16` of the literal `n / d`; at every literal the daemon uses, rounding it to a
`float` first truncates to the same integer. -/
def floatToQ16 (n d : ℤ) : ℤ := (n * 65536).tdiv d

def intToQ16 (i : ℤ) : ℤ := i32 (i * q16One)
def q16ToInt (q : ℤ) : ℤ := q / 2 ^ 16
def q16ToQ32 (q : ℤ) : ℤ := q * q16One
def q32ToQ16 (q : ℤ) : ℤ := i32 (q / 2 ^ 16)

def absQ16 (x : ℤ) : ℤ := if x = int32Min then int32Max else if x < 0 then -x else x

theorem absQ16_eq {x : ℤ} (hx : Fits 32 x) : absQ16 x = min |x| 2147483647 := by
  obtain ⟨hl, hu⟩ := fits32_iff.mp hx
  rw [absQ16]
  split_ifs with hmin hneg
  · rw [hmin]
    decide
  · rw [abs_of_neg hneg, min_eq_left]
    simp only [int32Min] at hmin
    omega
  · rw [abs_of_nonneg (by omega), min_eq_left hu]

def q16Mul (a b : ℤ) : ℤ := i32 (a * b / 2 ^ 16)

def q16Div (a b : ℤ) : ℤ :=
  if b = 0 then if a ≥ 0 then int32Max else int32Min
  else i32 ((a * q16One).tdiv b)

/-- The 128-bit build: an unsigned product shifted down and narrowed to 64 bits. -/
def q32Mul (a b : ℤ) : ℤ :=
  i64 ((a % 2 ^ 128) * (b % 2 ^ 128) % 2 ^ 128 / 2 ^ 32)

theorem q32Mul_eq_i64 (a b : ℤ) : q32Mul a b = i64 (a * b / 2 ^ 32) := by
  rw [q32Mul, i64, i64]
  apply narrow_congr
  rw [← Int.mul_emod]
  generalize a * b = p
  omega

theorem q32Mul_q16 {a b : ℤ} (hl : -9223372036854775808 ≤ a * b)
    (hu : a * b ≤ 9223372036854775807) : q32Mul (q16ToQ32 a) (q16ToQ32 b) = a * b := by
  have hprod : q16ToQ32 a * q16ToQ32 b / 2 ^ 32 = a * b := by
    rw [q16ToQ32, q16ToQ32, show a * q16One * (b * q16One) = a * b * 2 ^ 32 by norm_num; ring]
    exact Int.mul_ediv_cancel _ (by norm_num)
  rw [q32Mul_eq_i64, hprod, i64_eq hl hu]

def pgMathClamp (val min max : ℤ) : ℤ :=
  if val < min then min else if val > max then max else val

theorem le_clamp {min max : ℤ} (h : min ≤ max) (val : ℤ) : min ≤ pgMathClamp val min max := by
  rw [pgMathClamp]
  split_ifs <;> omega

theorem clamp_le {min max : ℤ} (h : min ≤ max) (val : ℤ) : pgMathClamp val min max ≤ max := by
  rw [pgMathClamp]
  split_ifs <;> omega

theorem clamp_of_mem {val min max : ℤ} (hl : min ≤ val) (hu : val ≤ max) :
    pgMathClamp val min max = val := by
  rw [pgMathClamp, if_neg (by omega), if_neg (by omega)]

theorem clamp_mono {min max v w : ℤ} (hm : min ≤ max) (h : v ≤ w) :
    pgMathClamp v min max ≤ pgMathClamp w min max := by
  simp only [pgMathClamp]
  split_ifs <;> omega

theorem q16Mul_eq {a b : ℤ} (hl : -140737488355328 ≤ a * b) (hu : a * b ≤ 140737488355327) :
    q16Mul a b = a * b / 2 ^ 16 := i32_eq (by omega) (by omega)

theorem q16Div_eq {a b : ℤ} (hb : 0 < b) (hl : -2147483648 ≤ (a * 65536).tdiv b)
    (hu : (a * 65536).tdiv b ≤ 2147483647) : q16Div a b = (a * 65536).tdiv b := by
  rw [q16Div, if_neg hb.ne']
  apply i32_eq hl hu

theorem q16Div_int {a n : ℤ} (h0 : 0 ≤ a) (hu : a ≤ 2147483647) (hn : 0 < n) :
    q16Div a (n * 65536) = a / n := by
  have hdiv : (a * 65536).tdiv (n * 65536) = a / n := by
    rw [Int.mul_tdiv_mul_of_pos_left _ _ (by norm_num), Int.tdiv_eq_ediv_of_nonneg h0]
  have hq0 : 0 ≤ a / n := Int.ediv_nonneg h0 hn.le
  have hqa : a / n ≤ a := Int.ediv_le_self n h0
  rw [q16Div_eq (by omega) (by omega) (by omega), hdiv]

/-- `uint64_t` arithmetic never wraps here: the digits stay below the argument's top bit. -/
def pgMathIsqrt64 (val : ℕ) : ℕ := if val = 0 then 0 else digits (Nat.log2 val / 2 + 1) val 0

def pgMathQ16Sqrt (x : ℤ) : ℤ := if x ≤ 0 then 0 else i32 (pgMathIsqrt64 (x.toNat <<< 16))

theorem isqrt64_eq (val : ℕ) : pgMathIsqrt64 val = Nat.sqrt val := by
  rw [pgMathIsqrt64]
  split
  · next h => rw [h, Nat.sqrt_zero]
  next h =>
  apply digits_sqrt
  calc val < 2 ^ (Nat.log2 val + 1) := (Nat.log2_lt h).mp (Nat.lt_succ_self _)
    _ ≤ 2 ^ (2 * (Nat.log2 val / 2 + 1)) := Nat.pow_le_pow_right (by norm_num) (by omega)
    _ = 4 ^ (Nat.log2 val / 2 + 1) := pow_mul 2 2 _

theorem q16Sqrt_spec {x : ℤ} (h0 : 0 ≤ x) (hu : x ≤ 2147483647) :
    0 ≤ pgMathQ16Sqrt x ∧ pgMathQ16Sqrt x * pgMathQ16Sqrt x ≤ x * 65536 ∧
      x * 65536 < (pgMathQ16Sqrt x + 1) * (pgMathQ16Sqrt x + 1) := by
  rw [pgMathQ16Sqrt]
  split
  · next h =>
    obtain rfl : x = 0 := le_antisymm h h0
    norm_num
  obtain ⟨n, rfl⟩ := Int.eq_ofNat_of_zero_le h0
  rw [isqrt64_eq, Int.toNat_natCast, Nat.shiftLeft_eq]
  have hlow := Nat.sqrt_le (n * 2 ^ 16)
  have hhigh := Nat.lt_succ_sqrt (n * 2 ^ 16)
  generalize Nat.sqrt (n * 2 ^ 16) = s at hlow hhigh
  have hs : s ≤ 11863283 := by
    by_contra hgt
    have : 11863284 * 11863284 ≤ s * s := Nat.mul_le_mul (by omega) (by omega)
    omega
  rw [i32_eq (by omega) (by omega)]
  refine ⟨by omega, by exact_mod_cast hlow, by exact_mod_cast hhigh⟩

def pgMathSigmoid (val k mid : ℤ) : ℤ :=
  let x := q16Mul k (i32 (val - mid))
  let ax := if x ≥ 0 then x else i32 (-x)
  let den := i32 (q16One + ax)
  let frc := q16Div x den
  i32 (frc + q16One) / 2

def pgMathDecay (val coeff : ℤ) : ℤ :=
  let x := q16Mul coeff val
  if x < 0 then q16One
  else if x ≥ intToQ16 180 then 0
  else
    let x2 := q16Mul x x
    let den := i32 (i32 (q16One + x) + x2 / 2)
    q16Div q16One den

def pgMathAlgSig (x : ℤ) : ℤ :=
  if x ≥ intToQ16 180 then q16One
  else if x ≤ -intToQ16 180 then -q16One
  else
    let x2 := q16Mul x x
    let den := pgMathQ16Sqrt (i32 (q16One + x2))
    if den = 0 then if x ≥ 0 then q16One else -q16One else q16Div x den

def pgMathSanU64 (val fallback : ℤ) : ℤ :=
  if val < 0 then fallback else u64 (i32 (val + q16Half) / 2 ^ 16)

def pgMathSanQuantU64 (val fallback : ℤ) (step : ℕ) : ℕ :=
  let sv := if val < 0 then fallback else val
  let vNs := (u64 (u64 sv * 1000000) / 2 ^ 16).toNat
  if step ≤ 1 then vNs
  else if step &&& (step - 1) = 0 then
    (vNs + step / 2) % 2 ^ 64 &&& (2 ^ 64 - 1 - (step - 1))
  else
    let rem := vNs % step
    if rem ≥ step / 2 then (vNs + step - rem) % 2 ^ 64 else vNs - rem

theorem sanU64_eq {val : ℤ} (h0 : 0 ≤ val) (h : val ≤ 134217728) (fallback : ℤ) :
    pgMathSanU64 val fallback = (val + 32768) / 65536 := by
  rw [pgMathSanU64, if_neg (by omega), q16Half, i32_eq (by omega) (by omega),
    u64_eq (by omega) (by omega)]
  rfl

def toNs (val : ℤ) : ℕ := (val * 1000000 / 2 ^ 16).toNat

theorem toNs_mono {v w : ℤ} (h : v ≤ w) : toNs v ≤ toNs w := by
  simp only [toNs]
  omega

def sanNs (val fallback : ℤ) : ℕ :=
  let sv := if val < 0 then fallback else val
  (u64 (u64 sv * 1000000) / 2 ^ 16).toNat

def quantBitwise (vNs step : ℕ) : ℕ := (vNs + step / 2) % 2 ^ 64 &&& (2 ^ 64 - 1 - (step - 1))

def quantRemainder (vNs step : ℕ) : ℕ :=
  let rem := vNs % step
  if rem ≥ step / 2 then (vNs + step - rem) % 2 ^ 64 else vNs - rem

theorem sanQuantU64_paths (val fallback : ℤ) (step : ℕ) : pgMathSanQuantU64 val fallback step =
    if step ≤ 1 then sanNs val fallback
    else if step &&& (step - 1) = 0 then quantBitwise (sanNs val fallback) step
    else quantRemainder (sanNs val fallback) step := rfl

theorem sanNs_eq {val : ℤ} (h0 : 0 ≤ val) (h : val ≤ 2147483647) (fallback : ℤ) :
    sanNs val fallback = toNs val := by
  simp only [sanNs, if_neg (not_lt.mpr h0)]
  rw [u64_eq h0 (by omega), u64_eq (by omega) (by omega), toNs]

theorem toNs_lt {val : ℤ} (h : val ≤ 2147483647) : toNs val < 2 ^ 62 := by
  rw [toNs]
  omega

theorem quantBitwise_eq {vNs k : ℕ} (hv : vNs < 2 ^ 62) (hk : k ≤ 62) :
    quantBitwise vNs (2 ^ k) = nearest k vNs := by
  have hpow : 2 ^ k ≤ 2 ^ 62 := Nat.pow_le_pow_right (by norm_num) hk
  exact and_highMask_nearest (by omega) (by omega)

theorem sanQuantU64_eq {val : ℤ} (h0 : 0 ≤ val) (h : val ≤ 2147483647) (fallback : ℤ) {k : ℕ}
    (hk : 0 < k) (hk' : k ≤ 62) :
    pgMathSanQuantU64 val fallback (2 ^ k) = nearest k (toNs val) := by
  have hone : 2 ^ 1 ≤ 2 ^ k := Nat.pow_le_pow_right (by norm_num) hk
  have hpow2 : 2 ^ k &&& (2 ^ k - 1) = 0 := by
    rw [Nat.and_two_pow_sub_one_eq_mod, Nat.mod_self]
  rw [sanQuantU64_paths, if_neg (by omega), if_pos hpow2, sanNs_eq h0 h,
    quantBitwise_eq (toNs_lt h) hk']

def pgMathLerp (min max v : ℤ) : ℤ :=
  let rng := i32 (max - min)
  i32 (min + q16Mul rng v)

theorem lerp_eq {min max v : ℤ} (hmin : |min| ≤ 536870912) (hmax : |max| ≤ 536870912)
    (hv : 0 ≤ v) (hv' : v ≤ 65536) : pgMathLerp min max v = min + (max - min) * v / 2 ^ 16 := by
  obtain ⟨h1, h2⟩ := abs_le.mp hmin
  obtain ⟨h3, h4⟩ := abs_le.mp hmax
  obtain ⟨hlow, hhigh⟩ : -1073741824 * 65536 ≤ (max - min) * v ∧
      (max - min) * v ≤ 1073741824 * 65536 :=
    Rounding.scaled_mem ⟨by omega, by omega⟩ ⟨hv, hv'⟩ (by norm_num)
  have hrng : i32 (max - min) = max - min := i32_eq (by omega) (by omega)
  rw [pgMathLerp, hrng, q16Mul_eq (by omega) (by omega), i32_eq (by omega) (by omega)]

end Pgov
