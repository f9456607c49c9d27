import Pgov.PgMath

namespace Pgov

open FixedWidth

structure Timespec where
  sec : ℤ
  nsec : ℤ
  deriving DecidableEq, Repr

def pgDtSec (prev now : Timespec) : ℤ :=
  let sec := i64 (now.sec - prev.sec)
  let nsec := i64 (now.nsec - prev.nsec)
  let sec := if sec > 32000 then 32000 else sec
  let sec := if sec < -32000 then -32000 else sec
  let nsecQ16 := i32 ((nsec * q16One).tdiv 1000000000)
  i32 (i32 (sec * q16One) + nsecQ16)

def monoMs (ts : Timespec) : ℤ := u32 (u64 (u64 ts.sec * 1000) + u64 ts.nsec / 1000000)

structure Timespec.Valid (ts : Timespec) : Prop where
  sec : 0 ≤ ts.sec ∧ ts.sec < 2 ^ 63
  nsec : 0 ≤ ts.nsec ∧ ts.nsec < 10 ^ 9

theorem Timespec.valid_of_sec {sec : ℤ} (h : 0 ≤ sec) (h' : sec < 2 ^ 63) : Valid ⟨sec, 0⟩ :=
  ⟨⟨h, h'⟩, by norm_num⟩

def Timespec.ns (ts : Timespec) : ℤ := ts.sec * 10 ^ 9 + ts.nsec

/-- The nanoseconds of a difference, in units of 2^-16 s, rounded towards zero. -/
def nsecQ16 (nsec : ℤ) : ℤ := (nsec * 65536).tdiv 1000000000

theorem nsecQ16_bounds (nsec : ℤ) :
    nsec * 65536 - 1000000000 < nsecQ16 nsec * 1000000000 ∧
      nsecQ16 nsec * 1000000000 < nsec * 65536 + 1000000000 := by
  rcases le_total 0 nsec with h | h
  · rw [nsecQ16, Int.tdiv_eq_ediv_of_nonneg (by omega)]
    omega
  · have hneg : nsecQ16 nsec = -(-nsec * 65536 / 1000000000) := by
      rw [nsecQ16, ← Int.tdiv_eq_ediv_of_nonneg (by omega), ← Int.neg_tdiv, Int.neg_mul, neg_neg]
    omega

section Elapsed

variable {prev now : Timespec}

theorem dtSec_eq (hprev : prev.Valid) (hnow : now.Valid) :
    pgDtSec prev now =
      max (-32000) (min 32000 (now.sec - prev.sec)) * 65536 + nsecQ16 (now.nsec - prev.nsec) := by
  obtain ⟨⟨hs0, hs1⟩, hn0, hn1⟩ := hprev
  obtain ⟨⟨ht0, ht1⟩, hm0, hm1⟩ := hnow
  have hsec : i64 (now.sec - prev.sec) = now.sec - prev.sec := i64_eq (by omega) (by omega)
  have hnsec : i64 (now.nsec - prev.nsec) = now.nsec - prev.nsec := i64_eq (by omega) (by omega)
  have hfrac := nsecQ16_bounds (now.nsec - prev.nsec)
  simp only [pgDtSec, hsec, hnsec, q16One]
  rw [← nsecQ16, i32_eq (x := nsecQ16 _) (by omega) (by omega)]
  generalize now.sec - prev.sec = sec
  have hclamp : (if (if sec > 32000 then 32000 else sec) < -32000 then -32000
      else if sec > 32000 then 32000 else sec) = max (-32000) (min 32000 sec) := by
    split_ifs <;> omega
  rw [hclamp]
  have hlow := le_max_left (-32000) (min 32000 sec)
  have hhigh : max (-32000) (min 32000 sec) ≤ 32000 := by omega
  rw [i32_eq (x := _ * 65536) (by omega) (by omega), i32_eq (by omega) (by omega)]

theorem ns_of_dtSec {sec : ℤ} (hprev : prev.Valid) (hnow : now.Valid) (hsec : 0 ≤ sec)
    (h : pgDtSec prev now > sec * 65536) : sec * 10 ^ 9 < now.ns - prev.ns := by
  have hfrac := nsecQ16_bounds (now.nsec - prev.nsec)
  obtain ⟨hn0, hn1⟩ := hprev.nsec
  obtain ⟨hm0, hm1⟩ := hnow.nsec
  rw [dtSec_eq hprev hnow] at h
  simp only [Timespec.ns]
  have hclamp : max (-32000) (min 32000 (now.sec - prev.sec)) ≤ max (-32000) (now.sec - prev.sec) := by
    omega
  rcases le_total (now.sec - prev.sec) (-32000) with hle | hle
  · omega
  · omega

end Elapsed

end Pgov
