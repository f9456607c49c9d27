import Pgov.Tuning

namespace Pgov

open FixedWidth

def TripInRange (v : ℤ) : Prop :=
  intToQ16 40 * 1000 ≤ v * q16One ∧ v * q16One ≤ intToQ16 115 * 1000

instance (v : ℤ) : Decidable (TripInRange v) := inferInstanceAs (Decidable (_ ∧ _))

def exactTripTemp (v fallback : ℤ) : ℤ :=
  if TripInRange v then (v * q16One).tdiv 1000 else fallback

section Trip

variable {hw : Hardware} {text : Except ℕ+ (List UInt8)} {v : ℤ}

theorem tripLow_eq : intToQ16 40 = 2621440 := by decide

theorem tripHigh_eq : intToQ16 115 = 7536640 := by decide

theorem tripInRange_iff {v : ℤ} : TripInRange v ↔ 40000 ≤ v ∧ v ≤ 115000 := by
  rw [TripInRange, tripLow_eq, tripHigh_eq, q16One]
  omega

/-- Whole turns of 65536 degrees are lost when the quotient is narrowed. -/
theorem narrowed_quot (v : ℤ) : ∃ a, i32 ((v * 65536).tdiv 1000) = i32 a ∧
    v % 65536000 * 65536 ≤ a * 1000 + 999 ∧ a * 1000 ≤ v % 65536000 * 65536 + 999 := by
  have hturns (a : ℤ) (h : (v * 65536).tdiv 1000 = v / 65536000 * 4294967296 + a) :
      i32 ((v * 65536).tdiv 1000) = i32 a := by
    rw [h]
    apply narrow_congr
    omega
  rcases le_total 0 v with hv | hv
  · refine ⟨v % 65536000 * 65536 / 1000, hturns _ ?_, by omega, by omega⟩
    rw [Int.tdiv_eq_ediv_of_nonneg (by omega)]
    omega
  · have hneg : (v * 65536).tdiv 1000 = -(-v * 65536 / 1000) := by
      rw [← Int.tdiv_eq_ediv_of_nonneg (by omega), ← Int.neg_tdiv, Int.neg_mul, neg_neg]
    refine ⟨(v % 65536000 * 65536 + 999) / 1000, hturns _ ?_, by omega, by omega⟩
    rw [hneg]
    omega

theorem narrowed_in_range_iff (v : ℤ) :
    (2621440 ≤ i32 ((v * 65536).tdiv 1000) ∧ i32 ((v * 65536).tdiv 1000) ≤ 7536640) ↔
      TripInRange (v % 65536000) := by
  obtain ⟨a, ha, hlow, hhigh⟩ := narrowed_quot v
  obtain ⟨k, hk⟩ := i32_congr a
  obtain ⟨hl, hu⟩ := i32_bounds a
  have h0 : 0 ≤ v % 65536000 := Int.emod_nonneg v (by norm_num)
  have h1 : v % 65536000 < 65536000 := Int.emod_lt_of_pos v (by norm_num)
  have hturn : k = 0 ∨ k = -1 := by omega
  rw [tripInRange_iff, ha]
  generalize v % 65536000 = w at *
  rcases hturn with rfl | rfl
  · omega
  · omega

theorem tripTemp_eq (htrip : hw.tripPoint = some text) (hread : pgSysfsReadI32 text = .ok v)
    (fallback : ℤ) : pgSensorGetTripTemp hw fallback =
      if TripInRange (v % 65536000) then i32 ((v * 65536).tdiv 1000) else fallback := by
  have hrange := narrowed_in_range_iff v
  simp only [pgSensorGetTripTemp, htrip, Option.map_some, hread, tripLow_eq, tripHigh_eq, q16One]
  by_cases hin : TripInRange (v % 65536000)
  · obtain ⟨hl, hu⟩ := hrange.mpr hin
    rw [if_pos hin, if_neg (by omega)]
  · rw [if_neg hin, if_pos]
    by_contra hout
    exact hin (hrange.mp (by omega))

theorem tripTemp_of_kept (htrip : hw.tripPoint = some text) (hread : pgSysfsReadI32 text = .ok v)
    (hkept : TripInRange (v % 65536000) → TripInRange v) (fallback : ℤ) :
    pgSensorGetTripTemp hw fallback = exactTripTemp v fallback := by
  rw [tripTemp_eq htrip hread, exactTripTemp]
  by_cases hin : TripInRange v
  · obtain ⟨hl, hu⟩ := tripInRange_iff.mp hin
    have hmod : v % 65536000 = v := Int.emod_eq_of_lt (by omega) (by omega)
    have hquot : (v * 65536).tdiv 1000 = v * 65536 / 1000 :=
      Int.tdiv_eq_ediv_of_nonneg (by omega)
    rw [hmod, if_pos hin, if_pos hin, q16One, hquot, i32_eq (by omega) (by omega)]
  · rw [if_neg (fun h => hin (hkept h)), if_neg hin]

theorem kept_of_tripTemp (htrip : hw.tripPoint = some text) (hread : pgSysfsReadI32 text = .ok v)
    (h : ∀ fallback, pgSensorGetTripTemp hw fallback = exactTripTemp v fallback)
    (hmod : TripInRange (v % 65536000)) : TripInRange v := by
  by_contra hin
  -- a fallback outside the range is told apart from any temperature that passes the check
  have hzero := h 0
  rw [tripTemp_eq htrip hread, if_pos hmod, exactTripTemp, if_neg hin] at hzero
  have := (narrowed_in_range_iff v).mpr hmod
  omega

theorem tripTemp_exact_iff (htrip : hw.tripPoint = some text)
    (hread : pgSysfsReadI32 text = .ok v) :
    ((∀ fallback, pgSensorGetTripTemp hw fallback = exactTripTemp v fallback) ↔
        (TripInRange (v % 65536000) → TripInRange v)) ∧
      ((TripInRange (v % 65536000) → TripInRange v) → ∀ therm,
        (tuneThermalConfigs hw therm).limitCpu =
          pgMathClamp (i32 (exactTripTemp v (floatToQ16 575 10) - intToQ16 5))
            (floatToQ16 45 1) (floatToQ16 90 1)) := by
  refine ⟨⟨kept_of_tripTemp htrip hread, tripTemp_of_kept htrip hread⟩, ?_⟩
  intro hkept therm
  rw [tuneThermalConfigs, tripTemp_of_kept htrip hread hkept]

end Trip

section Examples

def tripHardware (text : List UInt8) : Hardware :=
  { cores := 0
    maxFreq := fun _ => .error (Nat.toPNat' 2)
    capacity := fun _ => .error (Nat.toPNat' 2)
    tripPoint := some (.ok text) }

theorem tripTemp_exact_usual :
    let hw := tripHardware [57, 53, 48, 48, 48, 10]
    ((∀ fallback, pgSensorGetTripTemp hw fallback = exactTripTemp 95000 fallback) ↔
        (TripInRange (95000 % 65536000) → TripInRange 95000)) ∧
      ((TripInRange (95000 % 65536000) → TripInRange 95000) → ∀ therm,
        (tuneThermalConfigs hw therm).limitCpu =
          pgMathClamp (i32 (exactTripTemp 95000 (floatToQ16 575 10) - intToQ16 5))
            (floatToQ16 45 1) (floatToQ16 90 1)) :=
  tripTemp_exact_iff rfl rfl

/-- `65586000`, read as 50 degrees. -/
theorem tripTemp_wraps :
    let text : List UInt8 := [54, 53, 53, 56, 54, 48, 48, 48, 10]
    pgSysfsReadI32 (.ok text) = .ok 65586000 ∧ ¬TripInRange 65586000 ∧
      pgSensorGetTripTemp (tripHardware text) (floatToQ16 575 10) = intToQ16 50 ∧
      exactTripTemp 65586000 (floatToQ16 575 10) = floatToQ16 575 10 := by
  refine ⟨rfl, by decide, by decide, by decide⟩

end Examples

end Pgov
