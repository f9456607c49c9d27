import Mathlib.Data.List.TakeWhile
import Pgov.PsiText

namespace Pgov

open DecimalText ByteScan

def keyAvg60 : List UInt8 := [97, 118, 103, 54, 48, 61]

structure PsiLine where
  avg10 : Decimal
  avg60 : Decimal
  avg300 : Decimal
  total : List UInt8
  avg10_lt : value avg10.whole < 32768
  avg60_lt : value avg60.whole < 32768
  avg300_lt : value avg300.whole < 32768
  total_digits : ∀ b ∈ total, IsDigit b
  total_ne_nil : total ≠ []
  total_lt : value total < 2 ^ 64

namespace PsiLine

def fields (l : PsiLine) : List UInt8 :=
  keyAvg10 ++ l.avg10.text ++ [32] ++ keyAvg60 ++ l.avg60.text ++ [32] ++
    keyAvg300 ++ l.avg300.text ++ [32] ++ keyTotal ++ l.total ++ [10]

def someLine (l : PsiLine) : List UInt8 := keySome ++ l.fields

def readBy (l : PsiLine) (mon : PsiMonitor) (now : Timespec) : PsiMonitor × PsiTrend × ℤ :=
  let avg10 := if mon.firstRun then l.avg10.floorQ16 else 0
  let (mon', trend) :=
    calcKalman mon ⟨0, 0, avg10, l.avg300.floorQ16, 0⟩ (value l.total) (psiDt mon now)
  ({ mon' with lastReadTs := now, lastTot := value l.total }, trend, 0)

end PsiLine

def StartsSome (buf : List UInt8) : Prop :=
  ∃ before line, buf = before ++ (keySome ++ line) ∧ (before = [] ∨ before.getLast? = some 10)

def psiTokens (firstRun : Bool) (buf : List UInt8) (trend : PsiTrend) (curTot : ℕ) :
    PsiTrend × ℕ :=
  psiParse firstRun buf.length buf trend curTot

section Tokens

variable {firstRun : Bool} {trend : PsiTrend} {curTot : ℕ}

theorem psiParse_rounds {n : ℕ} {buf : List UInt8} (h : buf.length ≤ n) :
    psiParse firstRun n buf trend curTot = psiTokens firstRun buf trend curTot := by
  have hr : buf.length - 0 < buf.length + 1 := by omega
  have hn := parseAt_eq buf firstRun hr (show buf.length - 0 ≤ n by omega) trend curTot
  have hl := parseAt_eq buf firstRun hr (show buf.length - 0 ≤ buf.length by omega) trend curTot
  rw [List.drop_zero] at hn hl
  exact Option.some.inj (hn.symm.trans hl)

theorem psiTokens_end (bs : List UInt8) :
    psiTokens firstRun (10 :: bs) trend curTot = (trend, curTot) := by
  simp [psiTokens, psiParse]

theorem psiTokens_space (bs : List UInt8) :
    psiTokens firstRun (32 :: bs) trend curTot = psiTokens firstRun bs trend curTot := by
  rw [psiTokens, List.length_cons, psiParse]
  simp [psiTokens]

theorem parseQ16_text {d : Decimal} (hD : value d.whole < 32768) {rest : List UInt8}
    (hrest : ∀ b ∈ rest.head?, ¬IsDigit b ∧ b ≠ 46) :
    pgParseQ16 noDigits (d.text ++ rest) = (d.floorQ16, rest) := by
  obtain ⟨n, he, hd⟩ := parseQ16At_drop (d.text ++ rest) 0
  rw [parseQ16At_text hD rfl hrest] at he
  simp only [List.drop_zero, Option.some.injEq, Prod.mk.injEq, Nat.zero_add] at he hd
  obtain ⟨hval, rfl⟩ := he
  rw [List.drop_left] at hd
  exact Prod.ext hval.symm hd.symm

theorem parseU64_text {ds rest : List UInt8} (hds : ∀ b ∈ ds, IsDigit b) (hlt : value ds < 2 ^ 64)
    (hrest : ∀ b ∈ rest.head?, ¬IsDigit b) : pgParseU64 0 (ds ++ rest) = (value ds, rest) := by
  obtain ⟨n, he, hd, -⟩ := parseU64At_drop (ds ++ rest) 0
  rw [parseU64At_run rfl hds hrest, foldl_push_exact hlt] at he
  simp only [List.drop_zero, Option.some.injEq, Prod.mk.injEq, Nat.zero_add] at he hd
  obtain ⟨hval, rfl⟩ := he
  rw [List.drop_left] at hd
  exact Prod.ext hval.symm hd.symm

theorem skipToken_token {tok rest : List UInt8} (htok : ∀ b ∈ tok, b ≠ 32 ∧ b ≠ 10)
    (hrest : rest.head? = some 32) : skipToken (tok ++ rest) = rest := by
  induction tok with
  | nil =>
    cases rest with
    | nil => rfl
    | cons b bs =>
      obtain rfl : b = 32 := by simpa using hrest
      rfl
  | cons b tok ih =>
    have hb := htok b (by simp)
    have hih := ih fun c hc => htok c (by simp [hc])
    rw [skipToken] at hih ⊢
    rw [List.cons_append, List.dropWhile_cons, if_pos (by simpa using hb), hih]

theorem Decimal.text_plain (d : Decimal) : ∀ b ∈ d.text, b ≠ 32 ∧ b ≠ 10 := by
  have hdigit (b : UInt8) (hb : IsDigit b) : b ≠ 32 ∧ b ≠ 10 := by
    constructor <;> rintro rfl <;> exact absurd hb (by decide)
  intro b hb
  rw [Decimal.text] at hb
  rcases List.mem_append.mp hb with hb | hb
  · exact hdigit b (d.whole_digits b hb)
  · have hfrac := d.frac_digits
    cases h : d.frac with
    | none => simp [h] at hb
    | some ds =>
      rw [h] at hb hfrac
      rcases List.mem_cons.mp hb with rfl | hb
      · decide
      · exact hdigit b (hfrac b hb)

theorem key_matches (key bs : List UInt8) : key.isPrefixOf (key ++ bs) = true :=
  List.isPrefixOf_iff_prefix.mpr (List.prefix_append key bs)

theorem not_numeral_space (bs : List UInt8) : ∀ b ∈ (32 :: bs).head?, ¬IsDigit b ∧ b ≠ 46 :=
  forall_head (by decide) bs

theorem psiTokens_avg10_first {d : Decimal} (hD : value d.whole < 32768) (bs : List UInt8) :
    psiTokens true (keyAvg10 ++ (d.text ++ 32 :: bs)) trend curTot =
      psiTokens true (32 :: bs) { trend with avg10 := d.floorQ16 } curTot := by
  change psiParse true ((d.text ++ 32 :: bs).length + 5 + 1) _ _ _ = _
  have hcut : (keyAvg10 ++ (d.text ++ 32 :: bs)).drop 6 = d.text ++ 32 :: bs := rfl
  rw [psiParse, if_neg (by simp [keyAvg10]), if_neg (by simp [keyAvg10]),
    if_pos (key_matches _ _), if_neg (by decide), hcut, parseQ16_text hD (not_numeral_space bs)]
  exact psiParse_rounds (by simp only [List.length_append, List.length_cons]; omega)

theorem psiTokens_avg10_later (d : Decimal) (bs : List UInt8) :
    psiTokens false (keyAvg10 ++ (d.text ++ 32 :: bs)) trend curTot =
      psiTokens false (32 :: bs) trend curTot := by
  change psiParse false ((d.text ++ 32 :: bs).length + 5 + 1) _ _ _ = _
  have hcut : (keyAvg10 ++ (d.text ++ 32 :: bs)).drop 6 = d.text ++ 32 :: bs := rfl
  rw [psiParse, if_neg (by simp [keyAvg10]), if_neg (by simp [keyAvg10]),
    if_pos (key_matches _ _), if_pos (by decide), hcut, skipToken_token d.text_plain rfl]
  exact psiParse_rounds (by simp only [List.length_append, List.length_cons]; omega)

theorem psiTokens_avg60 (d : Decimal) (bs : List UInt8) :
    psiTokens firstRun (keyAvg60 ++ (d.text ++ 32 :: bs)) trend curTot =
      psiTokens firstRun (32 :: bs) trend curTot := by
  have hkey : ∀ b ∈ keyAvg60, b ≠ 32 ∧ b ≠ 10 := by simp [keyAvg60]
  have hplain : ∀ b ∈ keyAvg60 ++ d.text, b ≠ 32 ∧ b ≠ 10 := by
    intro b hb
    rcases List.mem_append.mp hb with hb | hb
    · exact hkey b hb
    · exact d.text_plain b hb
  change psiParse firstRun ((d.text ++ 32 :: bs).length + 5 + 1) _ _ _ = _
  rw [psiParse, if_neg (by simp [keyAvg60]), if_neg (by simp [keyAvg60]),
    if_neg (by simp [keyAvg60, keyAvg10]), if_neg (by simp [keyAvg60, keyAvg300]),
    if_neg (by simp [keyAvg60, keyTotal]), ← List.append_assoc, skipToken_token hplain rfl]
  exact psiParse_rounds (by simp only [List.length_append, List.length_cons]; omega)

theorem psiTokens_avg300 {d : Decimal} (hD : value d.whole < 32768) (bs : List UInt8) :
    psiTokens firstRun (keyAvg300 ++ (d.text ++ 32 :: bs)) trend curTot =
      psiTokens firstRun (32 :: bs) { trend with avg300 := d.floorQ16 } curTot := by
  change psiParse firstRun ((d.text ++ 32 :: bs).length + 6 + 1) _ _ _ = _
  have hcut : (keyAvg300 ++ (d.text ++ 32 :: bs)).drop 7 = d.text ++ 32 :: bs := rfl
  rw [psiParse, if_neg (by simp [keyAvg300]), if_neg (by simp [keyAvg300]),
    if_neg (by simp [keyAvg300, keyAvg10]), if_pos (key_matches _ _), hcut,
    parseQ16_text hD (not_numeral_space bs)]
  exact psiParse_rounds (by simp only [List.length_append, List.length_cons]; omega)

theorem psiTokens_total {ds : List UInt8} (hds : ∀ b ∈ ds, IsDigit b) (hne : ds ≠ [])
    (hlt : value ds < 2 ^ 64) (bs : List UInt8) :
    psiTokens firstRun (keyTotal ++ (ds ++ 10 :: bs)) trend curTot =
      psiTokens firstRun (10 :: bs) trend (value ds) := by
  have hnl : ∀ b ∈ (10 :: bs).head?, ¬IsDigit b := forall_head (by decide) bs
  have hpos : 0 < ds.length := List.length_pos_iff.mpr hne
  change psiParse firstRun ((ds ++ 10 :: bs).length + 5 + 1) _ _ _ = _
  have hcut : (keyTotal ++ (ds ++ 10 :: bs)).drop 6 = ds ++ 10 :: bs := rfl
  rw [psiParse, if_neg (by simp [keyTotal]), if_neg (by simp [keyTotal]),
    if_neg (by simp [keyTotal, keyAvg10]), if_neg (by simp [keyTotal, keyAvg300]),
    if_pos (key_matches _ _), hcut, parseU64_text hds hlt hnl]
  dsimp only
  rw [if_pos (by rw [List.length_append]; omega)]
  exact psiParse_rounds (by simp only [List.length_append, List.length_cons]; omega)

def PsiLine.afterAvg10 (l : PsiLine) (more : List UInt8) : List UInt8 :=
  keyAvg60 ++ (l.avg60.text ++ 32 :: (keyAvg300 ++ (l.avg300.text ++ 32 ::
    (keyTotal ++ (l.total ++ 10 :: more)))))

theorem PsiLine.fields_append (l : PsiLine) (more : List UInt8) :
    l.fields ++ more = keyAvg10 ++ (l.avg10.text ++ 32 :: l.afterAvg10 more) := by
  simp only [fields, afterAvg10, List.append_assoc, List.cons_append, List.nil_append]

theorem psiTokens_fields (l : PsiLine) (more : List UInt8) :
    psiTokens firstRun (l.fields ++ more) emptyTrend curTot =
      (⟨0, 0, if firstRun then l.avg10.floorQ16 else 0, l.avg300.floorQ16, 0⟩, value l.total) := by
  have htail (trend : PsiTrend) (curTot : ℕ) :
      psiTokens firstRun (32 :: l.afterAvg10 more) trend curTot =
        ({ trend with avg300 := l.avg300.floorQ16 }, value l.total) := by
    rw [PsiLine.afterAvg10, psiTokens_space, psiTokens_avg60, psiTokens_space, psiTokens_avg300 l.avg300_lt,
      psiTokens_space, psiTokens_total l.total_digits l.total_ne_nil l.total_lt, psiTokens_end]
  rw [l.fields_append]
  cases firstRun with
  | true => rw [psiTokens_avg10_first l.avg10_lt, htail]; rfl
  | false => rw [psiTokens_avg10_later, htail]; rfl

end Tokens

theorem nextLine_eq {w : List UInt8} (hw : 10 ∉ w) (next : List UInt8) :
    ((w ++ 10 :: next).dropWhile (· ≠ 10)).drop 1 = next := by
  have hpass : ∀ b ∈ w, decide (b ≠ 10) = true := fun b hb => by
    simpa using fun he : b = 10 => hw (he ▸ hb)
  rw [List.dropWhile_append_of_pos hpass]
  rfl

theorem startsSome_next {buf : List UInt8} (hkey : ¬keySome.isPrefixOf buf = true) :
    StartsSome buf ↔ StartsSome ((buf.dropWhile (· ≠ 10)).drop 1) := by
  constructor
  · rintro ⟨before, line, rfl, hbefore⟩
    have hne : before ≠ [] := by
      rintro rfl
      exact hkey (key_matches keySome line)
    obtain ⟨init, rfl⟩ := List.getLast?_eq_some_iff.mp (hbefore.resolve_left hne)
    by_cases hinit : 10 ∈ init
    · obtain ⟨w, tail, rfl, hw⟩ := List.eq_append_cons_of_mem hinit
      refine ⟨tail ++ [10], line, ?_, Or.inr (by simp)⟩
      simpa using nextLine_eq hw (tail ++ 10 :: (keySome ++ line))
    · refine ⟨[], line, ?_, Or.inl rfl⟩
      simpa using nextLine_eq hinit (keySome ++ line)
  · rintro ⟨before, line, hnext, hbefore⟩
    by_cases hbuf : 10 ∈ buf
    · obtain ⟨w, next, rfl, hw⟩ := List.eq_append_cons_of_mem hbuf
      rw [nextLine_eq hw] at hnext
      refine ⟨w ++ 10 :: before, line, by simp [hnext], Or.inr ?_⟩
      rcases hbefore with rfl | hlast
      · simp
      · rw [List.getLast?_append, List.getLast?_cons, hlast]
        rfl
    · have hall : buf.dropWhile (· ≠ 10) = [] := by
        rw [List.dropWhile_eq_nil_iff]
        exact fun b hb => by simpa using fun he : b = 10 => hbuf (he ▸ hb)
      rw [hall] at hnext
      exact absurd hnext (by simp [keySome])

theorem findSome_eq_none_iff {n : ℕ} {buf : List UInt8} (hn : buf.length ≤ n) :
    findSome n buf = none ↔ ¬StartsSome buf := by
  have hnil : ¬StartsSome [] := by
    rintro ⟨before, line, h, -⟩
    exact absurd h (by simp [keySome])
  induction n generalizing buf with
  | zero =>
    obtain rfl : buf = [] := List.eq_nil_of_length_eq_zero (by omega)
    exact iff_of_true rfl hnil
  | succ n ih =>
    rw [findSome]
    split_ifs with hbuf hkey
    · rw [hbuf]
      exact iff_of_true rfl hnil
    · obtain ⟨line, rfl⟩ := List.isPrefixOf_iff_prefix.mp hkey
      exact iff_of_false (by simp) (not_not_intro ⟨[], line, rfl, Or.inl rfl⟩)
    · have hlen : (buf.dropWhile (· ≠ 10)).length ≤ buf.length :=
        (List.dropWhile_sublist _).length_le
      have hnext : ((buf.dropWhile (· ≠ 10)).drop 1).length ≤ n := by
        rw [List.length_drop]
        omega
      exact (ih hnext).trans (not_congr (startsSome_next hkey).symm)

theorem findAvg10At_skip {buf : List UInt8} {pos rounds : ℕ} (hpos : pos + 6 ≤ buf.length)
    (hkey : keyAvg10.isPrefixOf (buf.drop pos) = false) :
    findAvg10At buf (rounds + 1) pos = findAvg10At buf rounds (pos + 1) := by
  rw [findAvg10At, if_pos hpos, bufferCmp_eq buf keyAvg10 hpos, hkey]
  rfl

theorem findAvg10At_hit {buf : List UInt8} {pos rounds : ℕ} (hpos : pos + 6 ≤ buf.length)
    (hkey : keyAvg10.isPrefixOf (buf.drop pos) = true) {d : Decimal} (hD : value d.whole < 32768)
    {rest : List UInt8} (hbuf : buf.drop (pos + 6) = d.text ++ rest)
    (hrest : ∀ b ∈ rest.head?, ¬IsDigit b ∧ b ≠ 46) :
    findAvg10At buf (rounds + 1) pos = some (.ok d.floorQ16) := by
  rw [findAvg10At, if_pos hpos, bufferCmp_eq buf keyAvg10 hpos, hkey]
  simp only [Option.bind_eq_bind, Option.bind_some, ↓reduceIte, parseQ16At_text hD hbuf hrest]

section KernelLine

variable (l : PsiLine)

theorem readBuf_line {size : ℕ} (h : l.someLine.length ≤ size) (more : List UInt8) :
    readBuf (.ok (l.someLine ++ more)) size =
      some (l.someLine ++ more.take (size - l.someLine.length)) := by
  have htake : (l.someLine ++ more).take size =
      l.someLine ++ more.take (size - l.someLine.length) := by
    rw [List.take_append, List.take_of_length_le h]
  rw [readBuf, htake, if_neg]
  rw [PsiLine.someLine, keySome]
  simp

theorem findAvg10At_line (more : List UInt8) (rounds : ℕ) :
    findAvg10At (l.someLine ++ more) (rounds + 6) 0 = some (.ok l.avg10.floorQ16) := by
  have htext : l.someLine ++ more =
      keySome ++ (keyAvg10 ++ (l.avg10.text ++ 32 :: l.afterAvg10 more)) := by
    rw [PsiLine.someLine, List.append_assoc, l.fields_append]
  have hlen : 11 ≤ (l.someLine ++ more).length := by
    rw [htext]
    simp only [List.length_append, keySome, keyAvg10, List.length_cons, List.length_nil]
    omega
  rw [findAvg10At_skip (by omega), findAvg10At_skip (by omega), findAvg10At_skip (by omega),
    findAvg10At_skip (by omega), findAvg10At_skip (by omega)]
  · exact findAvg10At_hit (by omega) (by rw [htext]; exact key_matches _ _) l.avg10_lt
      (by rw [htext]; rfl) (not_numeral_space _)
  all_goals rw [htext]; rfl

theorem psiRead_line {mon : PsiMonitor} (hfd : 0 ≤ mon.fd) (data : PsiTrend) (now : Timespec)
    (h : l.someLine.length ≤ 512) (more : List UInt8) :
    pgPsiReadAt mon data (.ok (l.someLine ++ more)) now = some (l.readBy mon now) := by
  have hfind (buf : List UInt8) : findSome (l.someLine ++ buf).length (l.someLine ++ buf) =
      some (l.fields ++ buf) := by
    rw [PsiLine.someLine, List.append_assoc]
    change findSome ((l.fields ++ buf).length + 4 + 1) _ = _
    rw [findSome, if_neg (by simp [keySome]), if_pos (key_matches _ _)]
    rfl
  have htokens (buf : List UInt8) :
      psiParse mon.firstRun (l.fields ++ buf).length (l.fields ++ buf) emptyTrend mon.lastTot =
        (⟨0, 0, if mon.firstRun then l.avg10.floorQ16 else 0, l.avg300.floorQ16, 0⟩,
          value l.total) := psiTokens_fields l buf
  rw [psiReadAt_eq, pgPsiRead, if_neg (not_lt.mpr hfd), readBuf_line l h]
  simp only [hfind, htokens, PsiLine.readBy]

theorem calcKalman_avgs (mon : PsiMonitor) (trend : PsiTrend) (curTot : ℕ) (dt : ℤ) :
    (calcKalman mon trend curTot dt).2.avg10 = trend.avg10 ∧
      (calcKalman mon trend curTot dt).2.avg300 = trend.avg300 := by
  unfold calcKalman
  split_ifs <;> exact ⟨rfl, rfl⟩

theorem psiRead_nodata_iff {mon : PsiMonitor} (hfd : 0 ≤ mon.fd) (data : PsiTrend) (now : Timespec)
    {buf : List UInt8} (hne : buf ≠ []) (hlen : buf.length ≤ 512) :
    ∃ mon' data' code, pgPsiReadAt mon data (.ok buf) now = some (mon', data', code) ∧
      (code = -enodata ↔ ¬StartsSome buf) ∧
      (code = -enodata → mon' = mon ∧ data' = data) := by
  have hread : readBuf (.ok buf) 512 = some buf := by
    rw [readBuf, List.take_of_length_le hlen, if_neg hne]
  rw [psiReadAt_eq, pgPsiRead, if_neg (not_lt.mpr hfd), hread, ← findSome_eq_none_iff le_rfl]
  dsimp only
  cases hfind : findSome buf.length buf with
  | none => exact ⟨mon, data, -enodata, rfl, by simp, fun _ => ⟨rfl, rfl⟩⟩
  | some line => exact ⟨_, _, 0, rfl, by simp [enodata], fun h => absurd h (by decide)⟩

end KernelLine

/-- Reading `/proc/pressure/cpu`: what a `some` line gives whatever follows it, and what any other
text does. A result is `some` only if no byte outside the buffer was read. -/
theorem psi_text {mon : PsiMonitor} (hfd : 0 ≤ mon.fd) (data : PsiTrend) (now : Timespec) :
    (∀ (l : PsiLine) (more : List UInt8), l.someLine.length ≤ 256 →
      ∃ mon' data', pgPsiReadAt mon data (.ok (l.someLine ++ more)) now = some (mon', data', 0) ∧
        (mon', data', 0) = l.readBy mon now ∧
        (mon.firstRun = true → data'.avg10 = l.avg10.floorQ16) ∧
        data'.avg300 = l.avg300.floorQ16 ∧ mon'.lastTot = value l.total ∧
        pgPsiReadRawAt (.ok (.ok (l.someLine ++ more))) = some (.ok l.avg10.floorQ16) ∧
        (l.avg10.digits.length ≤ 6 → l.avg10.floorQ16 = ⌊l.avg10.toRat * 65536⌋) ∧
        (l.avg300.digits.length ≤ 6 → l.avg300.floorQ16 = ⌊l.avg300.toRat * 65536⌋)) ∧
    (∀ buf : List UInt8, buf ≠ [] → buf.length ≤ 512 →
      (∃ mon' data' code, pgPsiReadAt mon data (.ok buf) now = some (mon', data', code) ∧
        (code = -enodata ↔ ¬StartsSome buf) ∧ (code = -enodata → mon' = mon ∧ data' = data)) ∧
      (pgPsiReadRawAt (.ok (.ok buf))).isSome) := by
  constructor
  · intro l more hlen
    have hraw : pgPsiReadRawAt (.ok (.ok (l.someLine ++ more))) = some (.ok l.avg10.floorQ16) := by
      unfold pgPsiReadRawAt
      simp only [readBuf_line l hlen]
      obtain ⟨rounds, hrounds⟩ : ∃ rounds,
          (l.someLine ++ more.take (256 - l.someLine.length)).length + 1 = rounds + 6 :=
        ⟨_, (Nat.sub_add_cancel (by simp [PsiLine.someLine, keySome])).symm⟩
      rw [hrounds, findAvg10At_line]
    refine ⟨_, _, psiRead_line l hfd data now (by omega) more, rfl, ?_, ?_, ?_, hraw,
      floorQ16_exact, floorQ16_exact⟩
    · intro hfirst
      change (calcKalman _ _ _ _).2.avg10 = _
      rw [(calcKalman_avgs _ _ _ _).1, hfirst, if_pos rfl]
    · exact (calcKalman_avgs _ _ _ _).2
    · rfl
  · intro buf hne hlen
    exact ⟨psiRead_nodata_iff hfd data now hne hlen, psiReadRawAt_isSome _⟩

theorem psi_text_first :
    let number (whole frac : ℕ) (hw : whole < 10) (hf : frac < 10) : Decimal :=
      ⟨[digit whole], some [digit frac, 48], by simpa using digit_isDigit hw,
        by simpa using ⟨digit_isDigit hf, by decide⟩⟩
    let one := number 1 5 (by decide) (by decide)
    let l : PsiLine := ⟨one, one, one, [49, 50, 51], by decide, by decide, by decide,
      isDigit_of_all (by decide), by decide, by decide⟩
    ∃ mon' data', pgPsiReadAt (pgPsiInit 3 ⟨0, 0⟩) emptyTrend (.ok (l.someLine ++ keySome)) ⟨1, 0⟩ =
      some (mon', data', 0) ∧ data'.avg10 = 98304 := by
  intro number one l
  obtain ⟨mon', data', he, -, havg, -⟩ :=
    (@psi_text (pgPsiInit 3 ⟨0, 0⟩) (by decide) emptyTrend ⟨1, 0⟩).1 l keySome (by decide)
  exact ⟨mon', data', he, (havg rfl).trans (by decide)⟩

end Pgov

