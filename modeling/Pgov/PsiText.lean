import Pgov.FileWalk
import Pgov.NumberText

namespace Pgov

open DecimalText ByteScan

def bufferCmp (buf : List UInt8) : ℕ → List UInt8 → Option Bool
  | _, [] => some true
  | pos, c :: str =>
    match buf[pos]? with
    | none => none
    | some b => if b ≠ c then some false else bufferCmp buf (pos + 1) str

def keyAt (buf key : List UInt8) (pos : ℕ) : Option Bool :=
  if pos + key.length ≤ buf.length then bufferCmp buf pos key else some false

def skipTokenAt (buf : List UInt8) (pos : ℕ) : Option ℕ :=
  skipWhile (fun b => b ≠ 32 ∧ b ≠ 10) buf pos

def parseAt (buf : List UInt8) (firstRun : Bool) : ℕ → ℕ → PsiTrend → ℕ → Option (PsiTrend × ℕ)
  | 0, _, _, _ => none
  | rounds + 1, pos, trend, curTot =>
    if pos < buf.length then
      match buf[pos]? with
      | none => none
      | some b =>
        if b = 10 then some (trend, curTot)
        else if b = 32 then parseAt buf firstRun rounds (pos + 1) trend curTot
        else do
          if ← keyAt buf keyAvg10 pos then
            if !firstRun then
              let pos ← skipTokenAt buf (pos + 6)
              parseAt buf firstRun rounds pos trend curTot
            else
              let (avg10, pos) ← pgParseQ16At buf (pos + 6)
              parseAt buf firstRun rounds pos { trend with avg10 := avg10 } curTot
          else if ← keyAt buf keyAvg300 pos then
            let (avg300, pos) ← pgParseQ16At buf (pos + 7)
            parseAt buf firstRun rounds pos { trend with avg300 := avg300 } curTot
          else if ← keyAt buf keyTotal pos then
            let (tmpTot, nPos) ← pgParseU64At buf (pos + 6)
            parseAt buf firstRun rounds nPos trend (if nPos > pos + 6 then tmpTot else curTot)
          else
            let pos ← skipTokenAt buf pos
            parseAt buf firstRun rounds pos trend curTot
    else some (trend, curTot)

def findSomeAt (buf : List UInt8) : ℕ → ℕ → Option (Option ℕ)
  | 0, _ => none
  | rounds + 1, pos =>
    if pos < buf.length then do
      if ← keyAt buf keySome pos then some (some (pos + 5))
      else
        let pos ← skipWhile (· ≠ 10) buf pos
        findSomeAt buf rounds (pos + 1)
    else some none

/-- The monitor, `data->some` and the code `pg_psi_read` leaves. -/
def pgPsiReadAt (mon : PsiMonitor) (data : PsiTrend) (out : ReadOut) (now : Timespec) :
    Option (PsiMonitor × PsiTrend × ℤ) :=
  if mon.fd < 0 then some (mon, data, -ebadf)
  else
    match readBuf out 512 with
    | none => some (mon, data, -eio)
    | some buf => do
      match ← findSomeAt buf (buf.length + 1) 0 with
      | none => some (mon, data, -enodata)
      | some pos =>
        let (trend, curTot) ←
          parseAt buf mon.firstRun (buf.length - pos + 1) pos emptyTrend mon.lastTot
        let (mon', trend) := calcKalman mon trend curTot (psiDt mon now)
        some ({ mon' with lastReadTs := now, lastTot := curTot }, trend, 0)

def findAvg10At (buf : List UInt8) : ℕ → ℕ → Option (Except ℤ ℤ)
  | 0, _ => none
  | rounds + 1, pos =>
    if pos + 6 ≤ buf.length then do
      if ← bufferCmp buf pos keyAvg10 then
        let (avg10, _) ← pgParseQ16At buf (pos + 6)
        some (.ok avg10)
      else findAvg10At buf rounds (pos + 1)
    else some (.error (-enoent))

def pgPsiReadRawAt (file : Except ℕ+ ReadOut) : Option (Except ℤ ℤ) :=
  match file with
  | .error errno => some (.error (-(errno : ℕ)))
  | .ok out =>
    match readBuf out 256 with
    | none => some (.error (-eio))
    | some buf => findAvg10At buf (buf.length + 1) 0

section Offsets

variable (buf : List UInt8)

theorem bufferCmp_eq (key : List UInt8) {pos : ℕ} (h : pos + key.length ≤ buf.length) :
    bufferCmp buf pos key = some (key.isPrefixOf (buf.drop pos)) := by
  induction key generalizing pos with
  | nil => rfl
  | cons c key ih =>
    rw [List.length_cons] at h
    have hpos : pos < buf.length := by omega
    rw [bufferCmp, List.getElem?_eq_getElem hpos, List.drop_eq_getElem_cons hpos,
      List.isPrefixOf]
    by_cases hc : buf[pos] = c
    · simp only [hc, ne_eq, not_true_eq_false, ↓reduceIte, BEq.rfl, Bool.true_and]
      exact ih (by omega)
    · have hne : (c == buf[pos]) = false := by simpa using Ne.symm hc
      simp only [hc, ne_eq, not_false_eq_true, ↓reduceIte, hne, Bool.false_and]

theorem keyAt_eq (key : List UInt8) {pos : ℕ} (hpos : pos ≤ buf.length) :
    keyAt buf key pos = some (key.isPrefixOf (buf.drop pos)) := by
  rw [keyAt]
  split_ifs with h
  · exact bufferCmp_eq buf key h
  · have hno : key.isPrefixOf (buf.drop pos) = false := by
      rw [← Bool.not_eq_true, List.isPrefixOf_iff_prefix]
      intro hpre
      have hlen := hpre.length_le
      rw [List.length_drop] at hlen
      omega
    rw [hno]

theorem skipTokenAt_eq (pos : ℕ) :
    ∃ n, skipTokenAt buf pos = some (pos + n) ∧ buf.drop (pos + n) = skipToken (buf.drop pos) ∧
      (∀ b ∈ (buf.drop pos).head?, b ≠ 32 → b ≠ 10 → 0 < n) := by
  refine ⟨_, skipWhile_eq _ buf pos, ?_, ?_⟩
  · rw [← List.drop_drop, drop_takeWhile_length]
    rfl
  · intro b hb h32 h10
    cases hd : buf.drop pos with
    | nil => simp [hd] at hb
    | cons c cs =>
      obtain rfl : c = b := by simpa [hd] using hb
      simp [h32, h10]

theorem parseU64_eq_absorb (val : ℕ) (bs : List UInt8) :
    pgParseU64 val bs = ((absorb u64Step val bs).1, bs.drop (absorb u64Step val bs).2) := by
  induction bs generalizing val with
  | nil => rfl
  | cons b bs ih =>
    rw [pgParseU64, absorb, u64Step]
    cases hb : isDecimal b with
    | false => rfl
    | true => exact ih _

theorem parseQ16_eq_absorb (q : Q16Digits) (bs : List UInt8) :
    pgParseQ16 q bs = ((absorb q16Step q bs).1.value, bs.drop (absorb q16Step q bs).2) := by
  induction bs generalizing q with
  | nil => rfl
  | cons b bs ih =>
    rw [pgParseQ16, absorb, q16Step]
    split_ifs with hb
    · rfl
    · exact ih _

theorem parseU64At_drop (pos : ℕ) :
    ∃ n, pgParseU64At buf pos = some ((pgParseU64 0 (buf.drop pos)).1, pos + n) ∧
      buf.drop (pos + n) = (pgParseU64 0 (buf.drop pos)).2 ∧ n ≤ (buf.drop pos).length := by
  refine ⟨_, ?_, ?_, absorb_le u64Step 0 _⟩
  · rw [parseU64At_eq, parseU64_eq_absorb]
  · rw [parseU64_eq_absorb, ← List.drop_drop]

theorem parseQ16At_drop (pos : ℕ) :
    ∃ n, pgParseQ16At buf pos = some ((pgParseQ16 noDigits (buf.drop pos)).1, pos + n) ∧
      buf.drop (pos + n) = (pgParseQ16 noDigits (buf.drop pos)).2 := by
  refine ⟨(absorb q16Step noDigits (buf.drop pos)).2, ?_, ?_⟩
  · rw [parseQ16At_eq, parseQ16_eq_absorb]
  · rw [parseQ16_eq_absorb, ← List.drop_drop]

theorem parseAt_eq (firstRun : Bool) {rounds n pos : ℕ} (hr : buf.length - pos < rounds)
    (hn : buf.length - pos ≤ n) (trend : PsiTrend) (curTot : ℕ) :
    parseAt buf firstRun rounds pos trend curTot =
      some (psiParse firstRun n (buf.drop pos) trend curTot) := by
  induction rounds generalizing n pos trend curTot with
  | zero => omega
  | succ rounds ih =>
    rw [parseAt]
    by_cases hpos : pos < buf.length
    · obtain ⟨m, rfl⟩ : ∃ m, n = m + 1 := ⟨n - 1, by omega⟩
      have hcons := List.drop_eq_getElem_cons hpos
      have hstep {q : ℕ} (hq : pos < q) (trend : PsiTrend) (curTot : ℕ) :
          parseAt buf firstRun rounds q trend curTot =
            some (psiParse firstRun m (buf.drop q) trend curTot) :=
        ih (by omega) (by omega) trend curTot
      have hhead : (buf.drop pos).head? = some buf[pos] := by rw [hcons, List.head?_cons]
      have hne : ¬(buf.drop pos = []) := by
        rw [hcons]
        exact List.cons_ne_nil _ _
      -- The total counts only if its digit run is not empty.
      obtain ⟨c, hc, hcd, hcl⟩ := parseU64At_drop buf (pos + 6)
      have hrun : (pgParseU64 0 (buf.drop (pos + 6))).2.length < (buf.drop (pos + 6)).length ↔
          pos + 6 + c > pos + 6 := by
        rw [← hcd]
        rw [List.length_drop] at hcl
        simp only [List.length_drop]
        omega
      rw [if_pos hpos, List.getElem?_eq_getElem hpos, psiParse]
      simp only [keyAt_eq buf _ hpos.le, Option.bind_eq_bind, Option.bind_some, hne, hhead, false_or,
        Option.some.injEq, List.drop_drop, hrun, hc]
      split_ifs with h10 h32 hkey hfirst h300 htot
      · rfl
      · exact hstep (by omega) _ _
      · obtain ⟨k, hk, hd, -⟩ := skipTokenAt_eq buf (pos + 6)
        rw [hk, Option.bind_some, hstep (by omega), hd]
      · obtain ⟨k, hk, hd⟩ := parseQ16At_drop buf (pos + 6)
        rw [hk, Option.bind_some, hstep (by omega), hd]
      · obtain ⟨k, hk, hd⟩ := parseQ16At_drop buf (pos + 7)
        rw [hk, Option.bind_some, hstep (by omega), hd]
      · rw [hstep (by omega), hcd]
      · rw [hstep (by omega), hcd]
      · obtain ⟨k, hk, hd, hlt⟩ := skipTokenAt_eq buf pos
        have := hlt _ hhead h32 h10
        rw [hk, Option.bind_some, hstep (by omega), hd]
    · have hnil : buf.drop pos = [] := List.drop_eq_nil_of_le (by omega)
      rw [if_neg hpos, hnil]
      cases n <;> simp [psiParse]

theorem findSomeAt_eq {rounds n pos : ℕ} (hr : buf.length - pos < rounds)
    (hn : buf.length - pos ≤ n) :
    ∃ found, findSomeAt buf rounds pos = some found ∧
      found.map (fun q => buf.drop q) = findSome n (buf.drop pos) := by
  induction rounds generalizing n pos with
  | zero => omega
  | succ rounds ih =>
    rw [findSomeAt]
    by_cases hpos : pos < buf.length
    · obtain ⟨m, rfl⟩ : ∃ m, n = m + 1 := ⟨n - 1, by omega⟩
      have hne : ¬(buf.drop pos = []) := by
        rw [List.drop_eq_getElem_cons hpos]
        exact List.cons_ne_nil _ _
      rw [if_pos hpos, keyAt_eq buf _ hpos.le, findSome, if_neg hne]
      simp only [Option.bind_eq_bind, Option.bind_some]
      split_ifs with hkey
      · exact ⟨some (pos + 5), rfl, by rw [Option.map_some, List.drop_drop]⟩
      · rw [skipWhile_eq, Option.bind_some]
        obtain ⟨next, hnext⟩ : ∃ next, pos + ((buf.drop pos).takeWhile (· ≠ 10)).length = next :=
          ⟨_, rfl⟩
        obtain ⟨found, hf, hd⟩ := ih (show buf.length - (next + 1) < rounds by omega)
          (show buf.length - (next + 1) ≤ m by omega)
        rw [hnext]
        refine ⟨found, hf, hd.trans ?_⟩
        rw [← drop_takeWhile_length, List.drop_drop, List.drop_drop, ← hnext,
          Nat.add_assoc]
    · have hnil : buf.drop pos = [] := List.drop_eq_nil_of_le (by omega)
      rw [if_neg hpos, hnil]
      exact ⟨none, rfl, by cases n <;> simp [findSome]⟩

end Offsets

theorem psiReadAt_eq (mon : PsiMonitor) (data : PsiTrend) (out : ReadOut) (now : Timespec) :
    pgPsiReadAt mon data out now =
      match pgPsiRead mon out now with
      | (mon', .ok trend) => some (mon', trend, 0)
      | (mon', .error code) => some (mon', data, code) := by
  rw [pgPsiReadAt, pgPsiRead]
  split_ifs with hfd
  · rfl
  · cases readBuf out 512 with
    | none => rfl
    | some buf =>
      obtain ⟨found, hf, hd⟩ := findSomeAt_eq buf (show buf.length - 0 < buf.length + 1 by omega)
        (show buf.length - 0 ≤ buf.length by omega)
      rw [List.drop_zero] at hd
      simp only [hf, ← hd, Option.bind_eq_bind, Option.bind_some]
      cases found with
      | none => rfl
      | some pos =>
        have hlen : buf.length - pos ≤ (buf.drop pos).length := by rw [List.length_drop]
        simp only [Option.map_some, parseAt_eq buf mon.firstRun (Nat.lt_succ_self _) hlen,
          Option.bind_some]

theorem findAvg10At_isSome (buf : List UInt8) {rounds pos : ℕ} (hr : buf.length - pos < rounds) :
    (findAvg10At buf rounds pos).isSome := by
  induction rounds generalizing pos with
  | zero => omega
  | succ rounds ih =>
    rw [findAvg10At]
    split_ifs with hpos
    · rw [bufferCmp_eq buf keyAvg10 hpos]
      simp only [Option.bind_eq_bind, Option.bind_some]
      split_ifs
      · rw [parseQ16At_eq]
        rfl
      · exact ih (by omega)
    · rfl

theorem psiReadRawAt_isSome (file : Except ℕ+ ReadOut) : (pgPsiReadRawAt file).isSome := by
  unfold pgPsiReadRawAt
  cases file with
  | error errno => rfl
  | ok out =>
    dsimp only
    cases readBuf out 256 with
    | none => rfl
    | some buf => exact findAvg10At_isSome buf (show buf.length - 0 < buf.length + 1 by omega)

end Pgov
