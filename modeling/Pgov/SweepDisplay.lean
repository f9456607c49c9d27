import Pgov.Governor

namespace Pgov

open FixedWidth

def PanelReads (out : ReadOut) : Prop := ∃ buf, readBuf out 16 = some buf ∧ (pgParseI32 buf).2 = true

section Panels

variable {best : Option ℤ} {out : ReadOut} {outs : List ReadOut}

theorem readPanel_isSome : (readPanel best out).isSome = true ↔ best.isSome = true ∨ PanelReads out := by
  rw [readPanel, PanelReads]
  cases readBuf out 16 with
  | none => simp
  | some buf =>
    cases hparse : pgParseI32 buf with
    | mk val valid => cases valid <;> simp [hparse]

theorem foldl_readPanel_isSome : (outs.foldl readPanel best).isSome = true ↔
    best.isSome = true ∨ ∃ out ∈ outs, PanelReads out := by
  induction outs generalizing best with
  | nil => simp
  | cons out outs ih => simp only [List.foldl_cons, ih, readPanel_isSome, List.exists_mem_cons_iff,
      or_assoc]

theorem readBl_cases (sensor : BlSensor) (out : ℕ → ReadOut) :
    ((∃ i < sensor.fd.length, PanelReads (out i)) ∧ (pgSensorReadBl sensor out).1 = 0) ∨
    ((¬∃ i < sensor.fd.length, PanelReads (out i)) ∧ (pgSensorReadBl sensor out).1 < 0 ∧
      (pgSensorReadBl sensor out).2 = 0) := by
  have hreads : (((List.range sensor.fd.length).map out).foldl readPanel none).isSome = true ↔
      ∃ i < sensor.fd.length, PanelReads (out i) := by
    rw [foldl_readPanel_isSome]
    simp
  rw [pgSensorReadBl]
  by_cases hn : sensor.fd.length = 0
  · right
    rw [if_pos hn]
    refine ⟨?_, by decide, rfl⟩
    rintro ⟨i, hi, -⟩
    omega
  · rw [if_neg hn]
    generalize ((List.range sensor.fd.length).map out).foldl readPanel none = best at hreads
    cases best with
    | none =>
      right
      exact ⟨fun h => absurd (hreads.mpr h) (by simp), by decide, rfl⟩
    | some b =>
      left
      exact ⟨hreads.mp rfl, rfl⟩

end Panels

section Probe

variable {env : SweepEnv} {s : SweepState}

theorem probe_hit_iff (hgoing : s.user.intr = false)
    (hprobe : s.count.user.nrFiles % (intrMask + 1) = 0) :
    (sweepChkIntr env s).2 = true ↔ env.bl s.calls > 0 ∨ PsiBusy env s.calls := by
  have hhit := sweepProbe_hit_iff env s.count
  rw [← ProbeHits, ← show s.count.calls = s.calls from rfl, ← hhit, sweepChkIntr, hgoing]
  simp only [Bool.false_eq_true, ↓reduceIte, hprobe, ne_eq, not_true_eq_false]
  cases (sweepProbe env s.count).2 <;> simp

/-- The probe of a sweep and a tick of the governor that meet the same panels. -/
theorem sweep_agrees_iff {sensor : BlSensor} {out : ℕ → ReadOut} (hgoing : s.user.intr = false)
    (hprobe : s.count.user.nrFiles % (intrMask + 1) = 0)
    (hbl : env.bl s.calls = (pgSensorReadBl sensor out).2) :
    (dispOn (pgSensorReadBl sensor out) = true → (sweepChkIntr env s).2 = true) ↔
      (∃ i < sensor.fd.length, PanelReads (out i)) ∨ PsiBusy env s.calls := by
  rw [probe_hit_iff hgoing hprobe, hbl, dispOn]
  obtain ⟨hreads, hret⟩ | ⟨hno, hret, hzero⟩ := readBl_cases sensor out
  · rw [if_neg (by omega), decide_eq_true_eq]
    exact iff_of_true Or.inl (Or.inl hreads)
  · rw [if_pos hret, hzero, or_iff_right hno, or_iff_right (lt_irrefl 0)]
    exact ⟨fun h => h rfl, fun h _ => h⟩

end Probe

section Examples

def sweepAtProbe : SweepState :=
  { fs := fun _ => none, calls := 0, trace := [], user := { nowSec := 0, nrFiles := 1023, intr := false } }

theorem sweep_agrees_lit :
    let env : SweepEnv := { quietEnv with bl := fun _ => 7 }
    (dispOn (pgSensorReadBl ⟨[5]⟩ fun _ => .ok [55, 10]) = true →
        (sweepChkIntr env sweepAtProbe).2 = true) ↔
      (∃ i < [(5 : ℤ)].length, PanelReads (.ok [55, 10])) ∨ PsiBusy env sweepAtProbe.calls := by
  intro env
  exact sweep_agrees_iff rfl (by decide) rfl

theorem sweep_ignores_failure :
    let reading := pgSensorReadBl ⟨[5]⟩ fun _ => .error 5
    quietEnv.bl sweepAtProbe.calls = reading.2 ∧ dispOn reading = true ∧
      (sweepChkIntr quietEnv sweepAtProbe).2 = false := by
  exact ⟨rfl, by decide, rfl⟩

end Examples

end Pgov
