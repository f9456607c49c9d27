import Mathlib.Data.FinEnum
import Mathlib.Tactic

namespace Pgov.DecimalText

def IsDigit (b : UInt8) : Prop := 48 ≤ b.toNat ∧ b.toNat ≤ 57

instance (b : UInt8) : Decidable (IsDigit b) := inferInstanceAs (Decidable (_ ∧ _))

theorem isDigit_of_all {ds : List UInt8} (h : ds.all (fun b => decide (IsDigit b)) = true) :
    ∀ b ∈ ds, IsDigit b := by simpa using h

def digit (d : ℕ) : UInt8 := UInt8.ofNat (48 + d)

theorem digit_toNat {d : ℕ} (h : d < 10) : (digit d).toNat = 48 + d := by
  simp only [digit, UInt8.toNat_ofNat']
  omega

theorem digit_isDigit {d : ℕ} (h : d < 10) : IsDigit (digit d) := by
  rw [IsDigit, digit_toNat h]
  omega

def value (ds : List UInt8) : ℕ := ds.foldl (fun n b => n * 10 + (b.toNat - 48)) 0

def numeral (n : ℕ) : List UInt8 :=
  if n < 10 then [digit n] else numeral (n / 10) ++ [digit (n % 10)]

theorem foldl_value (ds : List UInt8) (n : ℕ) :
    ds.foldl (fun n b => n * 10 + (b.toNat - 48)) n = n * 10 ^ ds.length + value ds := by
  induction ds using List.reverseRecOn with
  | nil => simp [value]
  | append_singleton ds b ih =>
    simp only [value, List.foldl_append, List.foldl_cons, List.foldl_nil, List.length_append,
      List.length_singleton] at ih ⊢
    rw [ih, pow_succ]
    ring

theorem value_append (ds es : List UInt8) :
    value (ds ++ es) = value ds * 10 ^ es.length + value es := by
  rw [value, List.foldl_append]
  exact foldl_value es _

theorem value_singleton (b : UInt8) : value [b] = b.toNat - 48 := by simp [value]

theorem value_lt {ds : List UInt8} (h : ∀ b ∈ ds, IsDigit b) : value ds < 10 ^ ds.length := by
  induction ds using List.reverseRecOn with
  | nil => simp [value]
  | append_singleton ds b ih =>
    have hd := ih (fun c hc => h c (by simp [hc]))
    have hb := (h b (by simp)).2
    rw [value_append, value_singleton, List.length_append, List.length_singleton, pow_succ]
    omega

theorem numeral_isDigit (n : ℕ) : ∀ b ∈ numeral n, IsDigit b := by
  induction n using Nat.strong_induction_on with
  | _ n ih =>
    rw [numeral]
    split
    · rename_i h
      simpa using digit_isDigit h
    · rename_i h
      intro b hb
      rcases List.mem_append.mp hb with hb | hb
      · exact ih (n / 10) (by omega) b hb
      · rw [List.mem_singleton.mp hb]
        exact digit_isDigit (Nat.mod_lt _ (by norm_num))

theorem value_numeral (n : ℕ) : value (numeral n) = n := by
  induction n using Nat.strong_induction_on with
  | _ n ih =>
    rw [numeral]
    split
    · rename_i h
      simp [value_singleton, digit_toNat h]
    · rename_i h
      rw [value_append, ih (n / 10) (by omega), value_singleton,
        digit_toNat (Nat.mod_lt n (show 10 > 0 by norm_num)), List.length_singleton]
      omega

theorem numeral_ne_nil (n : ℕ) : numeral n ≠ [] := by
  rw [numeral]
  split <;> simp

theorem numeral_head {n : ℕ} (h : 0 < n) : (numeral n).head? ≠ some 48 := by
  induction n using Nat.strong_induction_on with
  | _ n ih =>
    by_cases hn : n < 10
    · rw [numeral, if_pos hn, List.head?_cons, ne_eq, Option.some.injEq]
      intro he
      have := congrArg UInt8.toNat he
      rw [digit_toNat hn] at this
      exact absurd this (by change 48 + n ≠ 48; omega)
    · rw [numeral, if_neg hn, List.head?_append_of_ne_nil _ (numeral_ne_nil _)]
      exact ih (n / 10) (by omega) (by omega)

structure Canonical (ds : List UInt8) (n : ℕ) : Prop where
  digits : ∀ b ∈ ds, IsDigit b
  ne_nil : ds ≠ []
  value_eq : value ds = n
  lead : ds.head? = some 48 → ds = [48]

theorem numeral_canonical (n : ℕ) : Canonical (numeral n) n := by
  refine ⟨numeral_isDigit n, numeral_ne_nil n, value_numeral n, fun hlead => ?_⟩
  rcases Nat.eq_zero_or_pos n with rfl | hn
  · rw [numeral]
    rfl
  · exact absurd hlead (numeral_head hn)

theorem numeral_length_le {n k : ℕ} (hk : 0 < k) (h : n < 10 ^ k) : (numeral n).length ≤ k := by
  induction k generalizing n with
  | zero => omega
  | succ k ih =>
    rw [numeral]
    split
    · simp
    · rename_i hn
      have hk : 0 < k := by
        rcases Nat.eq_zero_or_pos k with rfl | hk
        · omega
        · exact hk
      have hl := ih hk (n := n / 10) (by rw [pow_succ] at h; omega)
      simp only [List.length_append, List.length_singleton]
      omega

theorem numeral_pow_le {n : ℕ} (h : 1 < (numeral n).length) :
    10 ^ ((numeral n).length - 1) ≤ n := by
  induction n using Nat.strong_induction_on with
  | _ n ih =>
    by_cases hn : n < 10
    · rw [numeral, if_pos hn] at h
      simp at h
    · have he : (numeral n).length = (numeral (n / 10)).length + 1 := by
        rw [numeral, if_neg hn]
        simp
      rw [he, Nat.add_sub_cancel]
      by_cases hl : 1 < (numeral (n / 10)).length
      · have hi := ih (n / 10) (by omega) hl
        have hp : 10 ^ (numeral (n / 10)).length = 10 * 10 ^ ((numeral (n / 10)).length - 1) := by
          rw [← pow_succ', Nat.sub_add_cancel (by omega)]
        omega
      · have hlen : (numeral (n / 10)).length ≤ 1 := by omega
        calc 10 ^ (numeral (n / 10)).length ≤ 10 ^ 1 := Nat.pow_le_pow_right (by norm_num) hlen
          _ ≤ n := by omega

theorem le_value_take {n k : ℕ} (hk : 0 < k) (h : k < (numeral n).length) :
    10 ^ (k - 1) ≤ value ((numeral n).take k) := by
  have hsplit := value_append ((numeral n).take k) ((numeral n).drop k)
  rw [List.take_append_drop, value_numeral, List.length_drop] at hsplit
  have hdrop : value ((numeral n).drop k) < 10 ^ ((numeral n).length - k) := by
    have hdig : ∀ b ∈ (numeral n).drop k, IsDigit b :=
      fun b hb => numeral_isDigit n b (List.mem_of_mem_drop hb)
    have hd := value_lt hdig
    rwa [List.length_drop] at hd
  have hn := numeral_pow_le (n := n) (by omega)
  have hp : 10 ^ ((numeral n).length - 1) =
      10 ^ (k - 1) * 10 ^ ((numeral n).length - k) := by
    rw [← pow_add]
    congr 1
    omega
  by_contra hlt
  have hm : (value ((numeral n).take k) + 1) * 10 ^ ((numeral n).length - k) ≤
      10 ^ (k - 1) * 10 ^ ((numeral n).length - k) :=
    Nat.mul_le_mul_right _ (by omega)
  rw [Nat.add_mul] at hm
  omega

def integerLine (x : ℤ) : List UInt8 :=
  (if x < 0 then 45 :: numeral x.natAbs else numeral x.natAbs) ++ [10]

def lineValue (bs : List UInt8) : Option ℕ :=
  if bs.getLast? = some 10 ∧ bs.dropLast ≠ [] ∧ ∀ b ∈ bs.dropLast, IsDigit b then
    some (value bs.dropLast)
  else none

theorem lineValue_numeral (n : ℕ) : lineValue (numeral n ++ [10]) = some n := by
  rw [lineValue, List.dropLast_concat, if_pos ⟨by simp, numeral_ne_nil n, numeral_isDigit n⟩,
    value_numeral]

end Pgov.DecimalText
