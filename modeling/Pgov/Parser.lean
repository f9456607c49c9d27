import Pgov.DecimalText
import Pgov.PgMath

namespace Pgov

open DecimalText FixedWidth

/-- The digit loop of `pg_fmt_u64`, writing backwards into a buffer with `room` bytes left. -/
def pgFmtU64Loop : ℕ → ℕ → List UInt8 → List UInt8
  | 0, _, p => p
  | room + 1, val, p =>
    if val > 0 then pgFmtU64Loop room (val / 10) (UInt8.ofNat (val % 10 + 48) :: p) else p

def pgFmtU64 (val : ℕ) : List UInt8 :=
  if val = 0 then [48, 10] else pgFmtU64Loop 31 val [10]

def isBlank (b : UInt8) : Bool := b = 10 || b = 13 || b = 32 || b = 9

def clampI32 (res : ℤ) : ℤ :=
  if res > int32Max then int32Max else if res < int32Min then int32Min else res

def pgParseI32Done (val : ℕ) (sign : ℤ) (valid : Bool) : ℤ × Bool :=
  (clampI32 ((val : ℤ) * sign), valid)

def pgParseI32Loop (val : ℕ) (sign : ℤ) (valid : Bool) : List UInt8 → ℤ × Bool
  | [] => pgParseI32Done val sign valid
  | b :: bs =>
    if 48 ≤ b ∧ b ≤ 57 then
      pgParseI32Loop (if val ≤ 2147483648 then val * 10 + (b.toNat - 48) else val) sign true bs
    else if b = 45 ∧ valid = false then pgParseI32Loop val (-1) valid bs
    else if isBlank b then
      if valid then pgParseI32Done val sign valid else pgParseI32Loop val sign valid bs
    else (0, false)

def pgParseI32 (buf : List UInt8) : ℤ × Bool := pgParseI32Loop 0 1 false buf

theorem fmtLoop_eq {room val : ℕ} (h : val < 10 ^ room) (p : List UInt8) :
    pgFmtU64Loop room val p = (if val = 0 then [] else numeral val) ++ p := by
  induction room generalizing val p with
  | zero =>
    have : val = 0 := by simpa using h
    simp [pgFmtU64Loop, this]
  | succ room ih =>
    by_cases hv : val = 0
    · simp [pgFmtU64Loop, hv]
    · have hq : val / 10 < 10 ^ room := by rw [pow_succ] at h; omega
      simp only [pgFmtU64Loop, Nat.pos_of_ne_zero hv, ↓reduceIte, hv, ih hq]
      have hdig : UInt8.ofNat (val % 10 + 48) = digit (val % 10) := by rw [digit, Nat.add_comm]
      rw [hdig, numeral.eq_def val]
      by_cases hlt : val < 10
      · simp only [hlt, ↓reduceIte, Nat.div_eq_of_lt hlt, Nat.mod_eq_of_lt hlt, List.nil_append,
          List.singleton_append]
      · have hne : val / 10 ≠ 0 := by omega
        simp only [hlt, ↓reduceIte, hne, List.append_assoc, List.singleton_append]

theorem pgFmtU64_eq {val : ℕ} (h : val < 2 ^ 64) : pgFmtU64 val = numeral val ++ [10] := by
  by_cases hv : val = 0
  · rw [hv, numeral]
    decide
  · rw [pgFmtU64, if_neg hv, fmtLoop_eq (by norm_num at h ⊢; omega), if_neg hv]

/-- What the accumulator of `pg_parse_i32` holds for a digit run of value `n`. -/
def Saturated (n val : ℕ) : Prop := val = n ∨ 2147483648 < val ∧ 2147483648 < n

theorem Saturated.push {n val : ℕ} (h : Saturated n val) (d : ℕ) :
    Saturated (n * 10 + d) (if val ≤ 2147483648 then val * 10 + d else val) := by
  rcases h with rfl | ⟨hv, hn⟩
  · split
    · exact Or.inl rfl
    · exact Or.inr ⟨by omega, by omega⟩
  · rw [if_neg (by omega)]
    exact Or.inr ⟨hv, by omega⟩

theorem isDigit_iff (b : UInt8) : (48 ≤ b ∧ b ≤ 57) ↔ IsDigit b := by
  simp only [UInt8.le_iff_toNat_le, IsDigit]
  rfl

theorem parseLoop_digits {ds : List UInt8} (hds : ∀ b ∈ ds, IsDigit b) (hne : ds ≠ [])
    {val : ℕ} {n : ℕ} (h : Saturated n val) (sign : ℤ) (valid : Bool) (rest : List UInt8) :
    ∃ val', Saturated (n * 10 ^ ds.length + value ds) val' ∧
      pgParseI32Loop val sign valid (ds ++ rest) = pgParseI32Loop val' sign true rest := by
  induction ds generalizing val n valid with
  | nil => exact absurd rfl hne
  | cons b ds ih =>
    have hb := hds b (by simp)
    have hpush := h.push (b.toNat - 48)
    have hval : n * 10 ^ (b :: ds).length + value (b :: ds) =
        (n * 10 + (b.toNat - 48)) * 10 ^ ds.length + value ds := by
      have := value_append [b] ds
      rw [List.singleton_append, value_singleton] at this
      rw [this, List.length_cons, pow_succ]
      ring
    rw [List.cons_append, pgParseI32Loop, if_pos ((isDigit_iff b).mpr hb), hval]
    cases ds with
    | nil => exact ⟨_, by simpa [value] using hpush, rfl⟩
    | cons c cs => exact ih (fun d hd => hds d (List.mem_cons_of_mem _ hd)) (by simp) hpush true

theorem parseDone_pos {n val : ℕ} (h : Saturated n val) (valid : Bool) :
    pgParseI32Done val 1 valid = (clampI32 n, valid) := by
  rcases h with rfl | ⟨hv, hn⟩
  · simp [pgParseI32Done]
  · have hc (k : ℕ) (hk : 2147483648 < k) : clampI32 k = int32Max := by
      rw [clampI32, if_pos (by simp only [int32Max]; omega)]
    rw [pgParseI32Done, mul_one, hc val hv, hc n hn]

theorem parseDone_neg {n val : ℕ} (h : Saturated n val) (valid : Bool) :
    pgParseI32Done val (-1) valid = (clampI32 (-n), valid) := by
  rcases h with rfl | ⟨hv, hn⟩
  · simp [pgParseI32Done]
  · have hc (k : ℕ) (hk : 2147483648 < k) : clampI32 (-k) = int32Min := by
      rw [clampI32, if_neg (by simp only [int32Max]; omega), if_pos (by simp only [int32Min]; omega)]
    rw [pgParseI32Done, mul_neg_one, hc val hv, hc n hn]

theorem clampI32_eq {x : ℤ} (hl : int32Min ≤ x) (hu : x ≤ int32Max) : clampI32 x = x := by
  rw [clampI32, if_neg (not_lt.mpr hu), if_neg (not_lt.mpr hl)]

theorem clampI32_fits (x : ℤ) : Fits 32 (clampI32 x) := by
  rw [fits32_iff, clampI32, int32Max, int32Min]
  split_ifs <;> omega

theorem parseI32Loop_fits (val : ℕ) (sign : ℤ) (valid : Bool) (bs : List UInt8) :
    Fits 32 (pgParseI32Loop val sign valid bs).1 := by
  induction bs generalizing val sign valid with
  | nil => exact clampI32_fits _
  | cons b bs ih =>
    rw [pgParseI32Loop]
    split
    · exact ih _ _ _
    split
    · exact ih _ _ _
    split
    · split
      · exact clampI32_fits _
      · exact ih _ _ _
    · exact fits32_iff.mpr ⟨by norm_num, by norm_num⟩

theorem Saturated.trans {n m val : ℕ} (h : Saturated n m) (h' : Saturated m val) :
    Saturated n val := by
  rcases h with rfl | ⟨hm, hn⟩
  · exact h'
  · rcases h' with rfl | ⟨hv, -⟩
    · exact Or.inr ⟨hm, hn⟩
    · exact Or.inr ⟨hv, hn⟩

theorem take_saturated {n k : ℕ} (hk : 10 < k) : Saturated n (value ((numeral n).take k)) := by
  by_cases h : k < (numeral n).length
  · have hp := le_value_take (by omega) h
    have hn := numeral_pow_le (n := n) (by omega)
    have h10 : 10 ^ 10 ≤ 10 ^ (k - 1) := Nat.pow_le_pow_right (by norm_num) (by omega)
    have h10' : 10 ^ 10 ≤ 10 ^ ((numeral n).length - 1) :=
      Nat.pow_le_pow_right (by norm_num) (by omega)
    exact Or.inr ⟨by omega, by omega⟩
  · rw [List.take_of_length_le (by omega), value_numeral]
    exact Or.inl rfl

theorem parseLoop_line {ds rest : List UInt8} (hds : ∀ b ∈ ds, IsDigit b) (hne : ds ≠ [])
    (hrest : rest = [] ∨ rest = [10]) (sign : ℤ) :
    ∃ val, Saturated (value ds) val ∧
      pgParseI32Loop 0 sign false (ds ++ rest) = pgParseI32Done val sign true := by
  obtain ⟨val, hs, he⟩ := parseLoop_digits hds hne (Or.inl rfl : Saturated 0 0) sign false rest
  refine ⟨val, by simpa using hs, he.trans ?_⟩
  rcases hrest with rfl | rfl
  · rfl
  · simp [pgParseI32Loop, isBlank]

theorem take_line (n k : ℕ) : ∃ rest, (rest = [] ∨ rest = [10]) ∧
    (numeral n ++ [10]).take k = (numeral n).take k ++ rest := by
  rw [List.take_append]
  refine ⟨_, ?_, rfl⟩
  cases k - (numeral n).length <;> simp

theorem parse_integerLine (x : ℤ) {k : ℕ} (hk : 11 < k) :
    pgParseI32 ((integerLine x).take k) = (clampI32 x, true) := by
  have hdig (j : ℕ) : ∀ b ∈ (numeral x.natAbs).take j, IsDigit b :=
    fun b hb => numeral_isDigit _ b (List.mem_of_mem_take hb)
  have hne (j : ℕ) (hj : 0 < j) : (numeral x.natAbs).take j ≠ [] := by
    have := numeral_ne_nil x.natAbs
    simp only [ne_eq, List.take_eq_nil_iff, this, or_false]
    omega
  by_cases hx : x < 0
  · obtain ⟨j, rfl⟩ : ∃ j, k = j + 1 := ⟨k - 1, by omega⟩
    obtain ⟨rest, hrest, he⟩ := take_line x.natAbs j
    have hcut : (integerLine x).take (j + 1) = 45 :: ((numeral x.natAbs).take j ++ rest) := by
      rw [integerLine, if_pos hx, List.cons_append, List.take_succ_cons, he]
    obtain ⟨val, hs, hp⟩ := parseLoop_line (hdig j) (hne j (by omega)) hrest (-1)
    have hminus (bs : List UInt8) : pgParseI32Loop 0 1 false (45 :: bs) =
        pgParseI32Loop 0 (-1) false bs := by
      rw [pgParseI32Loop, if_neg (by decide), if_pos (by decide)]
    rw [pgParseI32, hcut, hminus, hp, parseDone_neg ((take_saturated (by omega)).trans hs)]
    rw [show -(x.natAbs : ℤ) = x by omega]
  · obtain ⟨rest, hrest, he⟩ := take_line x.natAbs k
    obtain ⟨val, hs, hp⟩ := parseLoop_line (hdig k) (hne k (by omega)) hrest 1
    rw [pgParseI32, integerLine, if_neg hx, he, hp,
      parseDone_pos ((take_saturated (by omega)).trans hs)]
    rw [show (x.natAbs : ℤ) = x by omega]

end Pgov
