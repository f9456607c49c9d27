import Pgov.KalmanFilter
import Pgov.Sensor

namespace Pgov

open FixedWidth

structure PsiTrend where
  cur : ℤ
  vel : ℤ
  avg10 : ℤ
  avg300 : ℤ
  nis : ℤ
  deriving DecidableEq, Repr

structure PsiMonitor where
  fd : ℤ
  lastReadTs : Timespec
  lastTot : ℕ
  firstRun : Bool
  filter : KalmanState
  deriving DecidableEq, Repr

def isDecimal (b : UInt8) : Bool := 48 ≤ b && b ≤ 57

def pgParseU64 (val : ℕ) : List UInt8 → ℕ × List UInt8
  | [] => (val, [])
  | b :: bs =>
    if !isDecimal b then (val, b :: bs)
    else
      pgParseU64 (if val ≤ 1844674407370955161 then (val * 10 + (b.toNat - 48)) % 2 ^ 64 else val) bs

structure Q16Digits where
  intVal : ℕ
  fVal : ℕ
  fDiv : ℕ
  frac : Bool

def Q16Digits.push (q : Q16Digits) (b : UInt8) : Q16Digits :=
  if b = 46 then { q with frac := true }
  else if !q.frac then { q with intVal := (q.intVal * 10 + (b.toNat - 48)) % 2 ^ 32 }
  else if q.fDiv < 1000000 then
    { q with fVal := (q.fVal * 10 + (b.toNat - 48)) % 2 ^ 32, fDiv := q.fDiv * 10 }
  else q

def Q16Digits.value (q : Q16Digits) : ℤ :=
  let val := i32 (u32 ((q.intVal : ℤ) * 2 ^ 16))
  if q.frac ∧ q.fDiv > 1 then i32 (val + i32 ((q.fVal * 2 ^ 16 / q.fDiv : ℕ) : ℤ)) else val

def pgParseQ16 (q : Q16Digits) : List UInt8 → ℤ × List UInt8
  | [] => (q.value, [])
  | b :: bs =>
    if b ≠ 46 ∧ !isDecimal b then (q.value, b :: bs) else pgParseQ16 (q.push b) bs

def noDigits : Q16Digits := ⟨0, 0, 1, false⟩

def keyAvg10 : List UInt8 := [97, 118, 103, 49, 48, 61]
def keyAvg300 : List UInt8 := [97, 118, 103, 51, 48, 48, 61]
def keyTotal : List UInt8 := [116, 111, 116, 97, 108, 61]
def keySome : List UInt8 := [115, 111, 109, 101, 32]

def skipToken (buf : List UInt8) : List UInt8 := buf.dropWhile fun b => b ≠ 32 ∧ b ≠ 10

/-- Every round consumes at least one byte, so as many rounds as there are bytes are enough. -/
def psiParse (firstRun : Bool) : ℕ → List UInt8 → PsiTrend → ℕ → PsiTrend × ℕ
  | 0, _, trend, curTot => (trend, curTot)
  | rounds + 1, buf, trend, curTot =>
    if buf = [] ∨ buf.head? = some 10 then (trend, curTot)
    else if buf.head? = some 32 then psiParse firstRun rounds (buf.drop 1) trend curTot
    else if keyAvg10.isPrefixOf buf then
      if !firstRun then psiParse firstRun rounds (skipToken (buf.drop 6)) trend curTot
      else
        let (avg10, rest) := pgParseQ16 noDigits (buf.drop 6)
        psiParse firstRun rounds rest { trend with avg10 := avg10 } curTot
    else if keyAvg300.isPrefixOf buf then
      let (avg300, rest) := pgParseQ16 noDigits (buf.drop 7)
      psiParse firstRun rounds rest { trend with avg300 := avg300 } curTot
    else if keyTotal.isPrefixOf buf then
      let (tmpTot, rest) := pgParseU64 0 (buf.drop 6)
      psiParse firstRun rounds rest trend
        (if rest.length < (buf.drop 6).length then tmpTot else curTot)
    else psiParse firstRun rounds (skipToken buf) trend curTot

def findSome : ℕ → List UInt8 → Option (List UInt8)
  | 0, _ => none
  | rounds + 1, buf =>
    if buf = [] then none
    else if keySome.isPrefixOf buf then some (buf.drop 5)
    else findSome rounds ((buf.dropWhile (· ≠ 10)).drop 1)

def stallRate (lastTot curTot : ℕ) (dtSec : ℤ) : ℤ :=
  if curTot > lastTot then
    let dtUs := u64 (u64 dtSec * 1000000) / 2 ^ 16
    let dtUs := if dtUs = 0 then 1 else dtUs
    let rawU64 := u64 (u64 (((curTot - lastTot : ℕ) : ℤ) * 100) * 2 ^ 16) / dtUs
    if rawU64 > intToQ16 500 then intToQ16 500 else i32 rawU64
  else 0

def calcKalman (mon : PsiMonitor) (trend : PsiTrend) (curTot : ℕ) (dtSec : ℤ) :
    PsiMonitor × PsiTrend :=
  if mon.firstRun then
    ({ mon with filter := (pgKalmanUpdate pgKalmanReset trend.avg10 q16One).1, firstRun := false },
      { trend with cur := trend.avg10, vel := 0 })
  else
    let (filter, cur) := pgKalmanUpdate mon.filter (stallRate mon.lastTot curTot dtSec) dtSec
    ({ mon with filter }, { trend with cur, vel := filter.xVel, nis := filter.nis })

def psiDt (mon : PsiMonitor) (now : Timespec) : ℤ :=
  if mon.firstRun then q16One
  else
    let dtSec := pgDtSec mon.lastReadTs now
    if dtSec < floatToQ16 1 1000 then floatToQ16 1 1000 else dtSec

def emptyTrend : PsiTrend := ⟨0, 0, 0, 0, 0⟩

def pgPsiRead (mon : PsiMonitor) (out : ReadOut) (now : Timespec) :
    PsiMonitor × Except ℤ PsiTrend :=
  if mon.fd < 0 then (mon, .error (-ebadf))
  else
    match readBuf out 512 with
    | none => (mon, .error (-eio))
    | some buf =>
      match findSome buf.length buf with
      | none => (mon, .error (-enodata))
      | some line =>
        let (trend, curTot) := psiParse mon.firstRun line.length line emptyTrend mon.lastTot
        let (mon', trend) := calcKalman mon trend curTot (psiDt mon now)
        ({ mon' with lastReadTs := now, lastTot := curTot }, .ok trend)

def pgPsiInit (fd : ℤ) (now : Timespec) : PsiMonitor :=
  { fd, lastReadTs := now, lastTot := 0, firstRun := true, filter := pgKalmanInit }

end Pgov
