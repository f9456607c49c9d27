import Pgov.ThermalOutput

namespace Pgov

open FixedWidth Runs

def integMax : ℤ := 50 * 65536

def IntegSettles (cfg : ThermalCfg) (state : ThermalState) (call : ThermalCall) : Prop :=
  let before := (thermalTick cfg state call).pid.integ
  let after := (thermalStep cfg state call).integ
  |after| ≤ integMax ∧ |after| ≤ |before| ∧ 0 ≤ before * after

instance (cfg : ThermalCfg) (state : ThermalState) (call : ThermalCall) :
    Decidable (IntegSettles cfg state call) := inferInstanceAs (Decidable (_ ∧ _))

/-- A call that cannot saturate against its integral: its outputs end below 100 or its integrals
are positive, and its outputs start at 0 or its integrals are negative. -/
structure IntegRoom (cfg : ThermalCfg) (state : ThermalState) (call : ThermalCall) : Prop where
  room : CallRoom cfg state call
  hot : (callEnvelope cfg state call).uHi ≤ 6553600 ∨ 0 < (callEnvelope cfg state call).iLo
  cold : 0 ≤ (callEnvelope cfg state call).uLo ∨ (callEnvelope cfg state call).iHi < 0

instance (cfg : ThermalCfg) (state : ThermalState) (call : ThermalCall) :
    Decidable (IntegRoom cfg state call) :=
  decidable_of_iff (CallRoom cfg state call ∧
      ((callEnvelope cfg state call).uHi ≤ 6553600 ∨ 0 < (callEnvelope cfg state call).iLo) ∧
      (0 ≤ (callEnvelope cfg state call).uLo ∨ (callEnvelope cfg state call).iHi < 0))
    ⟨fun h => ⟨h.1, h.2.1, h.2.2⟩, fun h => ⟨h.room, h.hot, h.cold⟩⟩

section Drain

variable {integ u awK dtS : ℤ}

theorem exactStored_settles
    (hagree : |excess u| ≤ 65 ∨ (0 < integ ∧ 0 ≤ exactDrain u awK dtS) ∨
      (integ < 0 ∧ exactDrain u awK dtS ≤ 0)) :
    |exactStored integ u awK dtS| ≤ |integ| ∧ 0 ≤ integ * exactStored integ u awK dtS := by
  simp only [exactStored]
  generalize exactDrain u awK dtS = drain at hagree
  split_ifs with hdead hcross
  · exact ⟨le_refl _, mul_self_nonneg integ⟩
  · simp
  · rcases hagree.resolve_left hdead with ⟨hi, hd⟩ | ⟨hi, hd⟩
    · rw [abs_of_nonneg (by omega : 0 ≤ integ - drain), abs_of_pos hi]
      exact ⟨by omega, mul_nonneg hi.le (by omega)⟩
    · rw [abs_of_nonpos (by omega : integ - drain ≤ 0), abs_of_neg hi]
      exact ⟨by omega, mul_nonneg_of_nonpos_of_nonpos hi.le (by omega)⟩

theorem excess_cases (u : ℤ) :
    (u < 0 ∧ excess u < 0) ∨ excess u = 0 ∨ (6553600 < u ∧ 0 < excess u) := by
  have hmax : intToQ16 100 = 6553600 := by decide
  rw [excess, pgMathClamp, hmax]
  split_ifs <;> omega

theorem exactDrain_nonneg (hexc : 0 ≤ excess u) (hawK : 0 ≤ awK) (hdt : 0 ≤ dtS) :
    0 ≤ exactDrain u awK dtS := by
  have hscaled : 0 ≤ excess u * awK / 2 ^ 16 :=
    Int.ediv_nonneg (mul_nonneg hexc hawK) (by norm_num)
  exact Int.ediv_nonneg (mul_nonneg hscaled hdt) (by norm_num)

theorem exactDrain_nonpos (hexc : excess u ≤ 0) (hawK : 0 ≤ awK) (hdt : 0 ≤ dtS) :
    exactDrain u awK dtS ≤ 0 := by
  have hscaled : excess u * awK / 2 ^ 16 ≤ 0 :=
    Int.ediv_nonpos_of_nonpos_of_neg (mul_nonpos_of_nonpos_of_nonneg hexc hawK) (by norm_num)
  exact Int.ediv_nonpos_of_nonpos_of_neg (mul_nonpos_of_nonpos_of_nonneg hscaled hdt) (by norm_num)

end Drain

section Calls

variable {cfg : ThermalCfg} {state : ThermalState} {call : ThermalCall}

theorem integSettles_of_room (h : cfg.Tuned) (hrange : ThermalRange state)
    (hbat : SensorRange call.batTemp) (hroom : IntegRoom cfg state call) :
    IntegSettles cfg state call := by
  obtain ⟨hr, -, ⟨hi0, hi1⟩, hu0, hu1⟩ := tick_outlook h hrange hbat hroom.room
  obtain ⟨-, -, hinteg⟩ := tick_exact h hrange hbat hroom.room
  have hstored := (thermalExact_of_room h hrange hbat hroom.room).integ
  have hawK : 127795 ≤ (thermalTick cfg state call).awK :=
    antiWindupGain_le (satCountNext_mem (hrange.resumed cfg call).satCount)
  obtain ⟨hdt, -⟩ := hr.dtS
  have hagree : |excess (exactTick cfg state call).u| ≤ 65 ∨
      (0 < (exactTick cfg state call).integ ∧ 0 ≤ exactDrain (exactTick cfg state call).u
        (thermalTick cfg state call).awK (thermalTick cfg state call).dtS) ∨
      ((exactTick cfg state call).integ < 0 ∧ exactDrain (exactTick cfg state call).u
        (thermalTick cfg state call).awK (thermalTick cfg state call).dtS ≤ 0) := by
    rcases excess_cases (exactTick cfg state call).u with ⟨hu, hexc⟩ | hexc | ⟨hu, hexc⟩
    · have hneg := hroom.cold.resolve_left (by omega)
      exact Or.inr (Or.inr ⟨by omega, exactDrain_nonpos hexc.le (by omega) (by omega)⟩)
    · exact Or.inl (by simp [hexc])
    · have hpos := hroom.hot.resolve_left (by omega)
      exact Or.inr (Or.inl ⟨by omega, exactDrain_nonneg hexc.le (by omega) (by omega)⟩)
  obtain ⟨hle, hsign⟩ := exactStored_settles hagree
  have hband : |(exactTick cfg state call).integ| ≤ integMax := abs_le.mpr (clampInteg_mem _)
  simp only [IntegSettles, hinteg, hstored]
  exact ⟨hle.trans hband, hle, hsign⟩

/-- In a run whose calls do not saturate against their integrals, the integral stays in its band
and settles. -/
theorem integral_settles (h : cfg.Tuned) (start : Timespec) {calls : List ThermalCall}
    (hbat : ∀ call ∈ calls, SensorRange call.batTemp)
    (hroom : Along (thermalStep cfg) (IntegRoom cfg) (pgThermalInit start) calls) :
    Along (thermalStep cfg) (IntegSettles cfg) (pgThermalInit start) calls := by
  have hstep (state : ThermalState) (call : ThermalCall) (hrange : ThermalRange state)
      (_ : SensorRange call.batTemp ∧ IntegRoom cfg state call) :
      ThermalRange (thermalStep cfg state call) := hrange.step cfg call
  have hsettles (state : ThermalState) (call : ThermalCall) (hrange : ThermalRange state)
      (hcall : SensorRange call.batTemp ∧ IntegRoom cfg state call) :
      IntegSettles cfg state call := integSettles_of_room h hrange hcall.1 hcall.2
  exact along_of_invariant hstep hsettles (thermalRange_init start)
    (along_and.mpr ⟨along_of_mem hbat _, hroom⟩)

end Calls

def warmingCalls : List ThermalCall :=
  [⟨50 * 65536, 30 * 65536, ⟨1, 0⟩⟩, ⟨51 * 65536, 30 * 65536, ⟨2, 0⟩⟩,
    ⟨52 * 65536, 30 * 65536, ⟨3, 0⟩⟩, ⟨53 * 65536, 30 * 65536, ⟨4, 0⟩⟩,
    ⟨54 * 65536, 30 * 65536, ⟨5, 0⟩⟩, ⟨55 * 65536, 30 * 65536, ⟨6, 0⟩⟩]

theorem integral_settles_warming :
    Along (thermalStep cfgThermal) (IntegSettles cfgThermal) (pgThermalInit ⟨0, 0⟩) warmingCalls :=
  integral_settles cfgThermal_tuned ⟨0, 0⟩ (by decide) (by decide +kernel)

/-- Cooling from 60 to 20 degrees with a positive integral: it ends above 71. -/
theorem integral_driven_out :
    ¬∀ (cfg : ThermalCfg) (start : Timespec) (calls : List ThermalCall), cfg.Tuned →
      (∀ call ∈ calls, SensorRange call.cpuTemp ∧ SensorRange call.batTemp) →
      Along (thermalStep cfg) (IntegSettles cfg) (pgThermalInit start) calls := by
  intro h
  have hrun := h cfgThermal ⟨0, 0⟩
    [⟨60 * 65536, 30 * 65536, ⟨1, 0⟩⟩, ⟨20 * 65536, 30 * 65536, ⟨2, 0⟩⟩]
    ⟨by decide, by decide, by decide, by decide, by decide⟩ (by decide)
  exact absurd hrun.2.1 (by decide +kernel)

end Pgov
