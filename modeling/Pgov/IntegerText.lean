import Mathlib.Data.List.TakeWhile
import Pgov.Parser

namespace Pgov

open DecimalText

/-- The text `pg_parse_i32` accepts: blanks and minus signs, digits, and the end or a blank. -/
structure Int32Text (buf lead ds rest : List UInt8) : Prop where
  split : buf = lead ++ (ds ++ rest)
  lead_blank : ∀ b ∈ lead, isBlank b = true ∨ b = 45
  digits : ∀ b ∈ ds, IsDigit b
  ne_nil : ds ≠ []
  tail_blank : ∀ b ∈ rest.head?, isBlank b = true

theorem not_isDigit_of_lead {b : UInt8} (h : isBlank b = true ∨ b = 45) : ¬IsDigit b := by
  intro hd
  have hb : b = 10 ∨ b = 13 ∨ b = 32 ∨ b = 9 ∨ b = 45 := by
    simp only [isBlank, Bool.or_eq_true, decide_eq_true_eq] at h
    tauto
  rcases hb with rfl | rfl | rfl | rfl | rfl <;> exact absurd hd (by decide)

theorem parseLoop_lead {lead : List UInt8} (h : ∀ b ∈ lead, isBlank b = true ∨ b = 45) (sign : ℤ)
    (bs : List UInt8) :
    pgParseI32Loop 0 sign false (lead ++ bs) =
      pgParseI32Loop 0 (if 45 ∈ lead then -1 else sign) false bs := by
  induction lead generalizing sign with
  | nil => rfl
  | cons b lead ih =>
    have hb := h b (by simp)
    have hrest := ih fun c hc => h c (by simp [hc])
    rw [List.cons_append, pgParseI32Loop, if_neg (mt (isDigit_iff b).mp (not_isDigit_of_lead hb))]
    by_cases hminus : b = 45
    · rw [if_pos ⟨hminus, rfl⟩, hrest, if_pos (show 45 ∈ b :: lead by simp [hminus]), ite_self]
    · have hblank := hb.resolve_right hminus
      have hmem : 45 ∈ b :: lead ↔ 45 ∈ lead := by
        rw [List.mem_cons, or_iff_right (Ne.symm hminus)]
      rw [if_neg (fun he => hminus he.1), if_pos hblank, if_neg Bool.false_ne_true, hrest]
      simp only [hmem]

theorem exists_split (buf : List UInt8) : ∃ lead ds rest, buf = lead ++ (ds ++ rest) ∧
    (∀ b ∈ lead, isBlank b = true ∨ b = 45) ∧ (∀ b ∈ ds, IsDigit b) ∧
    (∀ b ∈ rest.head?, ¬IsDigit b) ∧
    (ds = [] → ∀ b ∈ rest.head?, ¬(isBlank b = true ∨ b = 45)) := by
  have hstop (p : UInt8 → Bool) (bs : List UInt8) (b : UInt8) (hb : b ∈ (bs.dropWhile p).head?) :
      p b = false := by
    have := List.head?_dropWhile_not p bs
    rw [Option.mem_def.mp hb] at this
    simpa using this
  let skipped : UInt8 → Bool := fun b => isBlank b || b = 45
  let decimal : UInt8 → Bool := fun b => decide (IsDigit b)
  refine ⟨buf.takeWhile skipped, (buf.dropWhile skipped).takeWhile decimal,
    (buf.dropWhile skipped).dropWhile decimal, ?_, ?_, ?_, ?_, ?_⟩
  · rw [List.takeWhile_append_dropWhile, List.takeWhile_append_dropWhile]
  · intro b hb
    simpa [skipped] using List.mem_takeWhile_imp hb
  · intro b hb
    simpa [decimal] using List.mem_takeWhile_imp hb
  · intro b hb
    simpa [decimal] using hstop decimal _ b hb
  · intro hnil b hb
    have hkeep : (buf.dropWhile skipped).dropWhile decimal = buf.dropWhile skipped := by
      conv_rhs => rw [← List.takeWhile_append_dropWhile (p := decimal) (l := buf.dropWhile skipped)]
      rw [hnil, List.nil_append]
    rw [hkeep] at hb
    simpa [skipped] using hstop skipped _ b hb

theorem parseLoop_reject {val : ℕ} {sign : ℤ} {valid : Bool} {b : UInt8} (bs : List UInt8)
    (hdigit : ¬IsDigit b) (hblank : ¬isBlank b = true) (hminus : b = 45 → valid = true) :
    pgParseI32Loop val sign valid (b :: bs) = (0, false) := by
  rw [pgParseI32Loop, if_neg (mt (isDigit_iff b).mp hdigit), if_neg, if_neg hblank]
  rintro ⟨rfl, hv⟩
  rw [hminus rfl] at hv
  exact absurd hv (by decide)

theorem parseI32_text {buf lead ds rest : List UInt8} (h : Int32Text buf lead ds rest) :
    pgParseI32 buf = (clampI32 (if 45 ∈ lead then -value ds else value ds), true) := by
  rw [pgParseI32, h.split, parseLoop_lead h.lead_blank]
  generalize hsign : (if 45 ∈ lead then (-1 : ℤ) else 1) = sign
  obtain ⟨val, hval, he⟩ :=
    parseLoop_digits h.digits h.ne_nil (Or.inl rfl : Saturated 0 0) sign false rest
  rw [zero_mul, zero_add] at hval
  have htail : pgParseI32Loop val sign true rest = pgParseI32Done val sign true := by
    cases hr : rest with
    | nil => rfl
    | cons b bs =>
      have hblank := h.tail_blank b (by simp [hr])
      have hdigit := not_isDigit_of_lead (Or.inl hblank)
      rw [pgParseI32Loop, if_neg (mt (isDigit_iff b).mp hdigit), if_neg (by simp),
        if_pos hblank, if_pos rfl]
  rw [he, htail, ← hsign]
  split_ifs
  · exact parseDone_neg hval true
  · exact parseDone_pos hval true

theorem parseI32_other {buf : List UInt8} (h : ∀ lead ds rest, ¬Int32Text buf lead ds rest) :
    pgParseI32 buf = (0, false) := by
  obtain ⟨lead, ds, rest, hsplit, hlead, hds, hrest, hstop⟩ := exists_split buf
  rw [pgParseI32, hsplit, parseLoop_lead hlead]
  generalize (if 45 ∈ lead then (-1 : ℤ) else 1) = sign
  by_cases hnil : ds = []
  · subst hnil
    rw [List.nil_append]
    cases rest with
    | nil => simp [pgParseI32Loop, pgParseI32Done, clampI32, int32Max, int32Min]
    | cons b bs =>
      obtain ⟨hblank, hminus⟩ := not_or.mp (hstop rfl b rfl)
      exact parseLoop_reject bs (hrest b rfl) hblank (fun he => absurd he hminus)
  · obtain ⟨val, -, he⟩ := parseLoop_digits hds hnil (Or.inl rfl : Saturated 0 0) sign false rest
    have htail : ¬∀ b ∈ rest.head?, isBlank b = true :=
      fun htail => h lead ds rest ⟨hsplit, hlead, hds, hnil, htail⟩
    rw [he]
    cases rest with
    | nil => exact absurd (by simp) htail
    | cons b bs =>
      have hblank : ¬isBlank b = true := by simpa using htail
      exact parseLoop_reject bs (hrest b rfl) hblank (fun _ => rfl)

/-- `pg_parse_i32` accepts exactly this grammar, saturates its value, and answers 0 otherwise. -/
theorem parseI32_grammar (buf : List UInt8) :
    ((pgParseI32 buf).2 = true ↔ ∃ lead ds rest, Int32Text buf lead ds rest) ∧
      (∀ lead ds rest, Int32Text buf lead ds rest →
        (pgParseI32 buf).1 = clampI32 (if 45 ∈ lead then -value ds else value ds)) ∧
      ((pgParseI32 buf).2 = false → (pgParseI32 buf).1 = 0) := by
  refine ⟨⟨?_, ?_⟩, ?_, ?_⟩
  · intro hvalid
    by_contra hno
    simp only [not_exists] at hno
    rw [parseI32_other hno] at hvalid
    exact absurd hvalid (by decide)
  · rintro ⟨lead, ds, rest, h⟩
    rw [parseI32_text h]
  · intro lead ds rest h
    rw [parseI32_text h]
  · intro hinvalid
    by_cases hex : ∃ lead ds rest, Int32Text buf lead ds rest
    · obtain ⟨lead, ds, rest, h⟩ := hex
      rw [parseI32_text h] at hinvalid
      cases hinvalid
    · simp only [not_exists] at hex
      rw [parseI32_other hex]

end Pgov
