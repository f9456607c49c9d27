import Mathlib.Algebra.Order.Floor.Semifield
import Mathlib.Data.Rat.Floor
import Pgov.ByteScan
import Pgov.PsiMonitor

namespace Pgov

open FixedWidth DecimalText ByteScan

def pgFmtU32 (val : ℕ) : List UInt8 := if val = 0 then [48] else pgFmtU64Loop 16 val []

def u64Push (val : ℕ) (b : UInt8) : ℕ :=
  if val ≤ 1844674407370955161 then (val * 10 + (b.toNat - 48)) % 2 ^ 64 else val

def u64Step (val : ℕ) (b : UInt8) : Option ℕ := if !isDecimal b then none else some (u64Push val b)

/-- The value with the offset behind it. -/
def pgParseU64At (buf : List UInt8) (start : ℕ) : Option (ℕ × ℕ) :=
  scan u64Step buf (buf.length - start + 1) 0 start

def q16Step (q : Q16Digits) (b : UInt8) : Option Q16Digits :=
  if b ≠ 46 ∧ !isDecimal b then none else some (q.push b)

def pgParseQ16At (buf : List UInt8) (start : ℕ) : Option (ℤ × ℕ) :=
  (scan q16Step buf (buf.length - start + 1) noDigits start).map fun (q, next) => (q.value, next)

theorem isDecimal_iff (b : UInt8) : isDecimal b = true ↔ IsDigit b := by
  rw [← isDigit_iff, isDecimal, Bool.and_eq_true, decide_eq_true_eq, decide_eq_true_eq]

theorem u64Step_digit (val : ℕ) (b : UInt8) (hb : IsDigit b) :
    u64Step val b = some (u64Push val b) := by
  simp [u64Step, (isDecimal_iff b).mpr hb]

theorem u64Step_stop (val : ℕ) {b : UInt8} (hb : ¬IsDigit b) : u64Step val b = none := by
  have : isDecimal b = false := by rwa [← Bool.not_eq_true, isDecimal_iff]
  simp [u64Step, this]

theorem parseU64At_eq (buf : List UInt8) (start : ℕ) :
    pgParseU64At buf start =
      some ((absorb u64Step 0 (buf.drop start)).1, start + (absorb u64Step 0 (buf.drop start)).2) :=
  scan_eq buf (by omega) 0

theorem parseQ16At_eq (buf : List UInt8) (start : ℕ) :
    pgParseQ16At buf start =
      some ((absorb q16Step noDigits (buf.drop start)).1.value,
        start + (absorb q16Step noDigits (buf.drop start)).2) := by
  rw [pgParseQ16At, scan_eq buf (by omega) noDigits]
  rfl

section CounterText

variable {buf ds rest : List UInt8} {start : ℕ}

theorem parseU64At_run (hbuf : buf.drop start = ds ++ rest) (hds : ∀ b ∈ ds, IsDigit b)
    (hrest : ∀ b ∈ rest.head?, ¬IsDigit b) :
    pgParseU64At buf start = some (ds.foldl u64Push 0, start + ds.length) := by
  have hrun := foldlM_run u64Step_digit hds 0
  rw [parseU64At_eq, hbuf, absorb_run hrun fun b hb => u64Step_stop _ (hrest b hb)]

theorem value_take_mul_ten {j : ℕ} (hj : j < ds.length) : value (ds.take j) * 10 ≤ value ds := by
  have hsplit := value_append (ds.take j) (ds.drop j)
  rw [List.take_append_drop, List.length_drop] at hsplit
  have hpow : 10 ^ 1 ≤ 10 ^ (ds.length - j) := Nat.pow_le_pow_right (by norm_num) (by omega)
  calc value (ds.take j) * 10 ≤ value (ds.take j) * 10 ^ (ds.length - j) :=
        Nat.mul_le_mul_left _ hpow
    _ ≤ value ds := by omega

theorem foldl_push_below (h : ∀ j < ds.length, value (ds.take j) % 2 ^ 64 ≤ 1844674407370955161) :
    ds.foldl u64Push 0 = value ds % 2 ^ 64 := by
  induction ds using List.reverseRecOn with
  | nil => rfl
  | append_singleton ds b ih =>
    have hprev : ∀ j < ds.length, value (ds.take j) % 2 ^ 64 ≤ 1844674407370955161 := by
      intro j hj
      have := h j (by simp; omega)
      rwa [List.take_append_of_le_length (by omega)] at this
    have hlast := h ds.length (by simp)
    rw [List.take_left] at hlast
    rw [List.foldl_append, ih hprev, List.foldl_cons, List.foldl_nil, u64Push, if_pos hlast,
      value_append, value_singleton, List.length_singleton, pow_one]
    omega

theorem foldl_push_above {val : ℕ} (h : 1844674407370955161 < val) : ds.foldl u64Push val = val := by
  induction ds with
  | nil => rfl
  | cons b ds ih => rw [List.foldl_cons, u64Push, if_neg (by omega), ih]

theorem foldl_push_exact (h : value ds < 2 ^ 64) : ds.foldl u64Push 0 = value ds := by
  rw [foldl_push_below, Nat.mod_eq_of_lt h]
  intro j hj
  have := value_take_mul_ten hj
  rw [Nat.mod_eq_of_lt (by omega)]
  omega

/-- Some prefix is congruent to 2^64 - 1, and the guard has let every shorter one through. -/
def FillsU64 (ds : List UInt8) : Prop :=
  ∃ k ≤ ds.length, value (ds.take k) % 2 ^ 64 = uint64Max ∧
    ∀ j < k, value (ds.take j) % 2 ^ 64 ≤ 1844674407370955161

theorem foldl_push_take {k : ℕ} (hk : k ≤ ds.length)
    (hlow : ∀ j < k, value (ds.take j) % 2 ^ 64 ≤ 1844674407370955161)
    (hhigh : 1844674407370955161 < value (ds.take k) % 2 ^ 64) :
    ds.foldl u64Push 0 = value (ds.take k) % 2 ^ 64 := by
  have hpre : (ds.take k).foldl u64Push 0 = value (ds.take k) % 2 ^ 64 := by
    apply foldl_push_below
    intro j hj
    rw [List.length_take, min_eq_left hk] at hj
    rw [List.take_take, min_eq_left hj.le]
    exact hlow j hj
  conv_lhs => rw [← List.take_append_drop k ds]
  rw [List.foldl_append, hpre, foldl_push_above hhigh]

theorem foldl_push_max_iff : ds.foldl u64Push 0 = uint64Max ↔ FillsU64 ds := by
  have hmax : 1844674407370955161 < uint64Max := by norm_num [uint64Max]
  constructor
  · intro h
    by_cases hall : ∀ k, k ≤ ds.length → value (ds.take k) % 2 ^ 64 ≤ 1844674407370955161
    · have hlen := hall ds.length le_rfl
      rw [List.take_length, ← foldl_push_below fun j hj => hall j hj.le, h] at hlen
      omega
    · simp only [not_forall] at hall
      -- The first prefix above the guard is what the accumulator stays at.
      classical
      obtain ⟨hk, hhigh⟩ := Nat.find_spec hall
      have hlow : ∀ j < Nat.find hall, value (ds.take j) % 2 ^ 64 ≤ 1844674407370955161 := by
        intro j hj
        have := Nat.find_min hall hj
        simp only [not_exists, not_not] at this
        exact this (by omega)
      refine ⟨Nat.find hall, hk, ?_, hlow⟩
      rw [← foldl_push_take hk hlow (by omega), h]
  · rintro ⟨k, hk, hval, hlow⟩
    rw [foldl_push_take hk hlow (by omega), hval]

/-- `pg_parse_u64` takes the whole digit run. It saturates only on a numeral that fits, or whose
accumulator fills up exactly. -/
theorem parseU64_saturates_iff (hbuf : buf.drop start = ds ++ rest) (hds : ∀ b ∈ ds, IsDigit b)
    (hrest : ∀ b ∈ rest.head?, ¬IsDigit b) :
    ∃ val, pgParseU64At buf start = some (val, start + ds.length) ∧
      (val = min (value ds) uint64Max ↔ value ds < 2 ^ 64 ∨ FillsU64 ds) := by
  refine ⟨_, parseU64At_run hbuf hds hrest, ?_⟩
  rcases Nat.lt_or_ge (value ds) (2 ^ 64) with hN | hN
  · have hmin : min (value ds) uint64Max = value ds := by
      rw [uint64Max]
      omega
    rw [foldl_push_exact hN, hmin]
    exact iff_of_true rfl (Or.inl hN)
  · have hmin : min (value ds) uint64Max = uint64Max := by
      rw [uint64Max]
      omega
    rw [hmin, foldl_push_max_iff, or_iff_right (by omega)]

end CounterText

theorem parseU64_saturates_total :
    let ds := [9, 0, 2, 1, 0].map digit
    ∃ val, pgParseU64At ([116, 111, 116, 97, 108, 61] ++ ds ++ [10]) 6 = some (val, 11) ∧
      (val = min (value ds) uint64Max ↔ value ds < 2 ^ 64 ∨ FillsU64 ds) := by
  intro ds
  have hbuf : ([116, 111, 116, 97, 108, 61] ++ ds ++ [10]).drop 6 = ds ++ [(10 : UInt8)] := rfl
  have hend : ∀ b ∈ [(10 : UInt8)].head?, ¬IsDigit b := forall_head (by decide) []
  exact parseU64_saturates_iff hbuf (isDigit_of_all (by decide)) hend

/-- The numeral of 2^64 is read as 0, and its first 19 digits as a larger number. -/
theorem parseU64_wraps :
    let ds := [1, 8, 4, 4, 6, 7, 4, 4, 0, 7, 3, 7, 0, 9, 5, 5, 1, 6, 1, 6].map digit
    value ds = 2 ^ 64 ∧ pgParseU64At (ds ++ [10]) 0 = some (0, 20) ∧
      min (value ds) uint64Max ≠ 0 ∧ pgParseU64At (ds.take 19) 0 = some (1844674407370955161, 19) := by
  decide

structure Decimal where
  whole : List UInt8
  frac : Option (List UInt8)
  whole_digits : ∀ b ∈ whole, IsDigit b
  frac_digits : ∀ b ∈ frac.getD [], IsDigit b

namespace Decimal

def digits (d : Decimal) : List UInt8 := d.frac.getD []

def text (d : Decimal) : List UInt8 :=
  d.whole ++ match d.frac with
    | none => []
    | some ds => 46 :: ds

/-- The numeral cut to six fraction digits, rounded down to a multiple of 2^-16. -/
def floorQ16 (d : Decimal) : ℤ :=
  value d.whole * 65536 +
    (value (d.digits.take 6) * 65536 / 10 ^ min 6 d.digits.length : ℕ)

theorem digits_isDigit (d : Decimal) : ∀ b ∈ d.digits, IsDigit b := d.frac_digits

def toRat (d : Decimal) : ℚ := value d.whole + value d.digits / 10 ^ d.digits.length

end Decimal

theorem q16Step_digit (q : Q16Digits) (b : UInt8) (hb : IsDigit b) :
    q16Step q b = some (q.push b) := by
  simp [q16Step, (isDecimal_iff b).mpr hb]

theorem q16Step_stop (q : Q16Digits) {b : UInt8} (hb : ¬IsDigit b ∧ b ≠ 46) : q16Step q b = none := by
  have : isDecimal b = false := by
    rw [← Bool.not_eq_true, isDecimal_iff]
    exact hb.1
  simp [q16Step, this, hb.2]

theorem digit_ne_point {b : UInt8} (hb : IsDigit b) : b ≠ 46 := by
  rintro rfl
  exact absurd hb (by decide)

theorem foldl_push_whole {ds : List UInt8} (hds : ∀ b ∈ ds, IsDigit b) (h : value ds < 2 ^ 32) :
    ds.foldl Q16Digits.push noDigits = ⟨value ds, 0, 1, false⟩ := by
  induction ds using List.reverseRecOn with
  | nil => rfl
  | append_singleton ds b ih =>
    rw [value_append, value_singleton, List.length_singleton, pow_one] at h ⊢
    rw [List.foldl_append, ih (fun c hc => hds c (by simp [hc])) (by omega), List.foldl_cons,
      List.foldl_nil, Q16Digits.push, if_neg (digit_ne_point (hds b (by simp)))]
    simp only [Bool.not_false, ↓reduceIte, Nat.mod_eq_of_lt h]

theorem foldl_push_frac {ds : List UInt8} (hds : ∀ b ∈ ds, IsDigit b) (whole : ℕ) :
    ds.foldl Q16Digits.push ⟨whole, 0, 1, true⟩ =
      ⟨whole, value (ds.take 6), 10 ^ min 6 ds.length, true⟩ := by
  induction ds using List.reverseRecOn with
  | nil => rfl
  | append_singleton ds b ih =>
    have hprev (c : UInt8) (hc : c ∈ ds) : IsDigit c := hds c (by simp [hc])
    rw [List.foldl_append, ih hprev, List.foldl_cons, List.foldl_nil, Q16Digits.push,
      if_neg (digit_ne_point (hds b (by simp))), List.length_append, List.length_singleton]
    simp only [Bool.not_true, Bool.false_eq_true, ↓reduceIte]
    by_cases hlen : ds.length < 6
    · have hpow : 10 ^ ds.length < 1000000 := by
        calc 10 ^ ds.length < 10 ^ 6 := Nat.pow_lt_pow_right (by norm_num) hlen
          _ = 1000000 := by norm_num
      have hval : value ds < 1000000 := (value_lt hprev).trans hpow
      have hb := (hds b (by simp)).2
      rw [min_eq_right (by omega), min_eq_right (by omega), if_pos hpow,
        List.take_of_length_le (by omega), List.take_of_length_le (by simp; omega), value_append,
        value_singleton, List.length_singleton, pow_one, Nat.mod_eq_of_lt (by omega), pow_succ]
    · rw [min_eq_left (by omega), min_eq_left (by omega), if_neg (by norm_num),
        List.take_append_of_le_length (by omega)]

section FixedPointText

variable {d : Decimal}

theorem foldlM_text (hD : value d.whole < 32768) :
    d.text.foldlM q16Step noDigits =
      some ⟨value d.whole, value (d.digits.take 6), 10 ^ min 6 d.digits.length, d.frac.isSome⟩ := by
  have hwhole := foldlM_run q16Step_digit d.whole_digits noDigits
  rw [foldl_push_whole d.whole_digits (by omega)] at hwhole
  rw [Decimal.text, List.foldlM_append, hwhole, Decimal.digits]
  have hdigits := d.frac_digits
  cases hfrac : d.frac with
  | none => rfl
  | some ds =>
    rw [hfrac, Option.getD_some] at hdigits
    have hpoint (q : Q16Digits) : q16Step q 46 = some { q with frac := true } := rfl
    change (46 :: ds).foldlM q16Step _ = _
    rw [List.foldlM_cons, hpoint]
    change ds.foldlM q16Step ⟨value d.whole, 0, 1, true⟩ = _
    rw [foldlM_run q16Step_digit hdigits, foldl_push_frac hdigits]
    rfl

theorem q16Value_eq {whole f k : ℕ} (hwhole : whole < 32768) (hf : f < 10 ^ k)
    {frac : Bool} (hfrac : frac = false → k = 0) :
    (Q16Digits.mk whole f (10 ^ k) frac).value = whole * 65536 + (f * 65536 / 10 ^ k : ℕ) := by
  have hint : i32 (u32 ((whole : ℤ) * 2 ^ 16)) = whole * 65536 := by
    rw [u32_eq (by omega) (by omega), i32_eq (by omega) (by omega)]
    norm_num
  have hquot : f * 65536 / 10 ^ k < 65536 := by
    rw [Nat.div_lt_iff_lt_mul (by positivity)]
    linarith
  have hpow : f * 2 ^ 16 = f * 65536 := by norm_num
  simp only [Q16Digits.value, hint, hpow]
  by_cases hz : k = 0
  · have hf0 : f = 0 := by
      rw [hz] at hf
      omega
    rw [if_neg (by simp [hz]), hz, hf0]
    norm_num
  · have hfr : frac = true := by
      by_contra h
      exact hz (hfrac (by simpa using h))
    have hdiv : 10 ^ k > 1 := Nat.one_lt_pow hz (by norm_num)
    rw [if_pos ⟨hfr, hdiv⟩]
    generalize f * 65536 / 10 ^ k = q at hquot
    rw [i32_eq (x := (q : ℤ)) (by omega) (by omega), i32_eq (by omega) (by omega)]

theorem value_take_le (ds : List UInt8) (n : ℕ) :
    value ds = value (ds.take n) * 10 ^ (ds.length - n) + value (ds.drop n) := by
  have h := value_append (ds.take n) (ds.drop n)
  rwa [List.take_append_drop, List.length_drop] at h

theorem parseQ16At_text (hD : value d.whole < 32768) {buf rest : List UInt8} {start : ℕ}
    (hbuf : buf.drop start = d.text ++ rest) (hrest : ∀ b ∈ rest.head?, ¬IsDigit b ∧ b ≠ 46) :
    pgParseQ16At buf start = some (d.floorQ16, start + d.text.length) := by
  have hdigits : ∀ b ∈ d.digits.take 6, IsDigit b :=
    fun b hb => d.frac_digits b (List.mem_of_mem_take hb)
  have hf := value_lt hdigits
  rw [List.length_take] at hf
  rw [parseQ16At_eq, hbuf, absorb_run (foldlM_text hD) fun b hb => q16Step_stop _ (hrest b hb),
    q16Value_eq hD hf]
  · rfl
  · intro hnone
    have : d.frac = none := by simpa using hnone
    simp [Decimal.digits, this]

theorem cut_bounds {ds : List UInt8} (hds : ∀ b ∈ ds, IsDigit b) (k : ℕ) :
    (value (ds.take k) : ℚ) / 10 ^ min k ds.length ≤ value ds / 10 ^ ds.length ∧
      (value ds : ℚ) / 10 ^ ds.length <
        value (ds.take k) / 10 ^ min k ds.length + 1 / 10 ^ min k ds.length := by
  have hsplit := value_take_le ds k
  have hdrop : value (ds.drop k) < 10 ^ (ds.length - k) := by
    have hdig : ∀ b ∈ ds.drop k, IsDigit b := fun b hb => hds b (List.mem_of_mem_drop hb)
    have := value_lt hdig
    rwa [List.length_drop] at this
  have hlen : (10 : ℚ) ^ ds.length = 10 ^ min k ds.length * 10 ^ (ds.length - k) := by
    rw [← pow_add]
    congr 1
    omega
  have hlow : (0 : ℚ) < 10 ^ min k ds.length := by positivity
  have hhigh : (0 : ℚ) < 10 ^ (ds.length - k) := by positivity
  have hval : (value ds : ℚ) = value (ds.take k) * 10 ^ (ds.length - k) + value (ds.drop k) := by
    exact_mod_cast hsplit
  have hrest : (value (ds.drop k) : ℚ) < 10 ^ (ds.length - k) := by exact_mod_cast hdrop
  have hrest0 : (0 : ℚ) ≤ value (ds.drop k) := Nat.cast_nonneg _
  rw [← add_div, hlen, hval]
  constructor
  · rw [div_le_div_iff₀ hlow (by positivity)]
    nlinarith
  · rw [div_lt_div_iff₀ (by positivity) hlow]
    nlinarith

theorem floorQ16_bounds (d : Decimal) :
    (d.floorQ16 : ℚ) ≤ d.toRat * 65536 ∧
      d.toRat * 65536 < d.floorQ16 + 1 + (if d.digits.length ≤ 6 then 0 else 65536 / 10 ^ 6) := by
  obtain ⟨hcut, hcut'⟩ := cut_bounds d.digits_isDigit 6
  set f := value (d.digits.take 6) with hf
  have hfloor : ⌊(f : ℚ) / 10 ^ min 6 d.digits.length * 65536⌋₊ =
      f * 65536 / 10 ^ min 6 d.digits.length := by
    rw [← Nat.floor_div_eq_div (K := ℚ)]
    push_cast
    congr 1
    ring
  have hq := Nat.floor_le (show (0 : ℚ) ≤ f / 10 ^ min 6 d.digits.length * 65536 by positivity)
  have hq' := Nat.lt_floor_add_one ((f : ℚ) / 10 ^ min 6 d.digits.length * 65536)
  rw [hfloor] at hq hq'
  have hcast : (d.floorQ16 : ℚ) = value d.whole * 65536 +
      (f * 65536 / 10 ^ min 6 d.digits.length : ℕ) := by
    rw [Decimal.floorQ16, ← hf]
    push_cast
    rfl
  rw [hcast, Decimal.toRat]
  refine ⟨by linarith, ?_⟩
  by_cases hlen : d.digits.length ≤ 6
  · have hall : value d.digits = f := by rw [hf, List.take_of_length_le hlen]
    rw [if_pos hlen, hall]
    rw [min_eq_right hlen] at hq' ⊢
    linarith
  · rw [if_neg hlen]
    rw [min_eq_left (by omega)] at hq' hcut' ⊢
    linarith

theorem floorQ16_exact {d : Decimal} (h : d.digits.length ≤ 6) : d.floorQ16 = ⌊d.toRat * 65536⌋ := by
  obtain ⟨hl, hu⟩ := floorQ16_bounds d
  rw [if_pos h, add_zero] at hu
  exact (Int.floor_eq_iff.mpr ⟨hl, hu⟩).symm

theorem parseQ16_floor (hD : value d.whole < 32768) {buf rest : List UInt8} {start : ℕ}
    (hbuf : buf.drop start = d.text ++ rest) (hrest : ∀ b ∈ rest.head?, ¬IsDigit b ∧ b ≠ 46) :
    pgParseQ16At buf start = some (d.floorQ16, start + d.text.length) ∧
      (d.floorQ16 : ℚ) ≤ d.toRat * 65536 ∧
      d.toRat * 65536 < d.floorQ16 + (1 + 65536 / 10 ^ 6) := by
  obtain ⟨hl, hu⟩ := floorQ16_bounds d
  refine ⟨parseQ16At_text hD hbuf hrest, hl, hu.trans_le ?_⟩
  split_ifs <;> linarith

end FixedPointText

theorem parseQ16_floor_kernel :
    let d : Decimal :=
      ⟨[49, 50], some [51, 52], isDigit_of_all (by decide), isDigit_of_all (by decide)⟩
    pgParseQ16At [61, 49, 50, 46, 51, 52, 32] 1 = some (d.floorQ16, 1 + d.text.length) ∧
      (d.floorQ16 : ℚ) ≤ d.toRat * 65536 ∧
      d.toRat * 65536 < d.floorQ16 + (1 + 65536 / 10 ^ 6) := by
  intro d
  have hbuf : [61, 49, 50, 46, 51, 52, 32].drop 1 = d.text ++ [(32 : UInt8)] := rfl
  have hend : ∀ b ∈ [(32 : UInt8)].head?, ¬IsDigit b ∧ b ≠ 46 := forall_head (by decide) []
  exact parseQ16_floor (by decide) hbuf hend

theorem pgFmtU32_eq {val : ℕ} (h : val < 2 ^ 32) : pgFmtU32 val = numeral val := by
  by_cases hv : val = 0
  · rw [hv, numeral]
    rfl
  · rw [pgFmtU32, if_neg hv, fmtLoop_eq (by norm_num at h ⊢; omega), if_neg hv, List.append_nil]

theorem parseU64At_numeral {v : ℕ} (hv : v < 2 ^ 64) {rest : List UInt8}
    (hrest : ∀ b ∈ rest.head?, ¬IsDigit b) :
    pgParseU64At (numeral v ++ rest) 0 = some (v, (numeral v).length) := by
  have hval : value (numeral v) < 2 ^ 64 := by rwa [value_numeral]
  rw [parseU64At_run rfl (numeral_isDigit v) hrest, foldl_push_exact hval, value_numeral, zero_add]

theorem fmt_parse_inverse {v : ℕ} (hv : v < 2 ^ 64) :
    (∃ ds, Canonical ds v ∧ pgFmtU64 v = ds ++ [10] ∧ (pgFmtU64 v).length ≤ 21 ∧
        pgParseU64At (pgFmtU64 v) 0 = some (v, ds.length)) ∧
      (v ≤ 2147483647 → pgParseI32 (pgFmtU64 v) = ((v : ℤ), true)) ∧
      (v < 2 ^ 32 → Canonical (pgFmtU32 v) v ∧
        pgParseU64At (pgFmtU32 v) 0 = some (v, (pgFmtU32 v).length)) := by
  have hfmt := pgFmtU64_eq hv
  refine ⟨⟨numeral v, numeral_canonical v, hfmt, ?_, ?_⟩, ?_, ?_⟩
  · have hlen : (numeral v).length ≤ 20 := numeral_length_le (by norm_num) (by omega)
    rw [hfmt, List.length_append, List.length_singleton]
    omega
  · rw [hfmt]
    exact parseU64At_numeral hv (forall_head (by decide) [])
  · intro hi
    have hline : pgFmtU64 v = (integerLine v).take ((integerLine v).length + 12) := by
      rw [List.take_of_length_le (by omega), integerLine, if_neg (by omega), hfmt, Int.natAbs_natCast]
    rw [hline, parse_integerLine _ (by omega), clampI32_eq]
    · rw [int32Min]
      omega
    · rw [int32Max]
      omega
  · intro hu
    rw [pgFmtU32_eq hu]
    have hend : ∀ b ∈ ([] : List UInt8).head?, ¬IsDigit b := by simp
    have hread := parseU64At_numeral hv hend
    rw [List.append_nil] at hread
    exact ⟨numeral_canonical v, hread⟩

theorem fmt_parse_inverse_limit :
    (∃ ds, Canonical ds 18446744073709551615 ∧ pgFmtU64 18446744073709551615 = ds ++ [10] ∧
        (pgFmtU64 18446744073709551615).length ≤ 21 ∧
        pgParseU64At (pgFmtU64 18446744073709551615) 0 = some (18446744073709551615, ds.length)) :=
  (fmt_parse_inverse (by norm_num)).1

end Pgov
