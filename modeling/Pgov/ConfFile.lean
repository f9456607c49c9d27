import Pgov.CString

namespace Pgov

open CString

def confLineSz : ℕ := 256

structure LineBuf where
  bytes : List UInt8
  size : bytes.length = confLineSz

def LineBuf.set (b : LineBuf) (i : ℕ) (c : UInt8) : LineBuf :=
  ⟨b.bytes.set i c, by rw [List.length_set, b.size]⟩

abbrev Directive := List UInt8 × List UInt8

def isPad (c : UInt8) : Bool := c = 32 || c = 9

def parseLine (line : List UInt8) : List UInt8 × Option Directive :=
  let line := cutAt line 0 35
  let line := cutAt line 0 13
  match strchr line 0 61 with
  | none => (line, none)
  | some eq =>
    let line := line.set eq 0
    let key := skipBlanks isPad line 0
    let line := trimTrailing isPad line key
    let val := skipBlanks isPad line (eq + 1)
    let line := trimTrailing isPad line val
    if str line key = [] then (line, none) else (line, some (str line key, str line val))

theorem length_trimLoop (blank : UInt8 → Bool) (b : List UInt8) (p n : ℕ) :
    (trimLoop blank b p n).length = b.length := by
  induction n generalizing b with
  | zero => rfl
  | succ n ih =>
    rw [trimLoop]
    split
    · rw [ih, List.length_set]
    · rfl

theorem length_cutAt (b : List UInt8) (p : ℕ) (c : UInt8) : (cutAt b p c).length = b.length := by
  rw [cutAt]
  split
  · rw [List.length_set]
  · rfl

theorem length_parseLine (line : List UInt8) : (parseLine line).1.length = line.length := by
  simp only [parseLine]
  split
  · rw [length_cutAt, length_cutAt]
  · split <;> simp only [trimTrailing, length_trimLoop, List.length_set, length_cutAt]

structure ConfState where
  line : LineBuf
  lPos : ℕ
  skip : Bool
  ret : ℤ
  calls : List Directive

abbrev ConfCb := List Directive → Directive → ℤ

section Parser

variable (cb : ConfCb)

def dispatchLine (st : ConfState) : ConfState :=
  if st.lPos = 0 then { st with ret := 0 }
  else
    let line := st.line.set st.lPos 0
    let parsed : LineBuf := ⟨(parseLine line.bytes).1, by rw [length_parseLine, line.size]⟩
    match (parseLine line.bytes).2 with
    | none => { st with line := parsed, ret := 0 }
    | some d =>
      { st with line := parsed, ret := cb st.calls d, calls := st.calls ++ [d] }

/-- One byte of the loop; an error is the `goto out` after a negative callback result. -/
def confByte (st : ConfState) (c : UInt8) : Except ConfState ConfState :=
  if c = 10 then
    if st.skip then .ok { st with skip := false, lPos := 0 }
    else
      let st := { dispatchLine cb st with lPos := 0 }
      if st.ret < 0 then .error st else .ok st
  else if st.skip then .ok st
  else if st.lPos ≥ confLineSz - 1 then .ok { st with skip := true }
  else .ok { st with line := st.line.set st.lPos c, lPos := st.lPos + 1 }

def confLoop (st : ConfState) : List (Except ℕ+ (List UInt8)) → ConfState
  | [] => if st.skip then st else dispatchLine cb st
  | .error errno :: _ => { st with ret := -(errno : ℕ) }
  | .ok bytes :: reads =>
    if bytes = [] then if st.skip then st else dispatchLine cb st
    else
      match bytes.foldlM (confByte cb) st with
      | .error st => st
      | .ok st => confLoop st reads

def confStart (junk : LineBuf) : ConfState :=
  { line := junk, lPos := 0, skip := false, ret := 0, calls := [] }

/-- The return value with the callbacks made; `junk` is what the stack buffer holds at entry. -/
def pgConfParse (file : Except ℕ+ (List (Except ℕ+ (List UInt8)))) (junk : LineBuf) :
    ℤ × List Directive :=
  match file with
  | .error errno => (-(errno : ℕ), [])
  | .ok reads =>
    let st := confLoop cb (confStart junk) reads
    (st.ret, st.calls)

end Parser

/-- The directive a text with no NUL, `#` or carriage return spells, if any. -/
def textDirective (text : List UInt8) : Option Directive :=
  let key := strip isPad (text.takeWhile (· != 61))
  let val := strip isPad (text.dropWhile (· != 61)).tail
  if 61 ∈ text ∧ key ≠ [] then some (key, val) else none

def lineDirective (line : List UInt8) : Option Directive :=
  if 255 < line.length then none
  else textDirective (line.takeWhile fun c => c ≠ 0 ∧ c ≠ 35 ∧ c ≠ 13)

def confDirectives (lines : List (List UInt8)) : List Directive := lines.filterMap lineDirective

theorem isPad_zero : isPad 0 = false := by decide

theorem str_terminated {line l : List UInt8} (h : line.take l.length = l) :
    str (line.set l.length 0) 0 = l.takeWhile (· != 0) := by
  have h0 := str_set_zero line 0 l.length
  rw [Nat.zero_add] at h0
  rw [h0, str, List.drop_zero]
  have hrest : line = l ++ line.drop l.length := by
    conv_lhs => rw [← List.take_append_drop l.length line, h]
  rw [hrest, List.takeWhile_append]
  split
  · next hfull =>
    rw [List.take_left, (List.takeWhile_prefix _).eq_of_length hfull]
  · exact List.take_of_length_le (List.takeWhile_prefix _).length_le

theorem str_cuts (line : List UInt8) :
    str (cutAt (cutAt line 0 35) 0 13) 0 = (str line 0).takeWhile fun c => c ≠ 35 ∧ c ≠ 13 := by
  rw [str_cutAt, str_cutAt, List.takeWhile_takeWhile]
  congr 1
  funext c
  by_cases h35 : c = 35 <;> by_cases h13 : c = 13 <;> simp [h35, h13]

theorem parseLine_eq (line : List UInt8) :
    (parseLine line).2 = textDirective ((str line 0).takeWhile fun c => c ≠ 35 ∧ c ≠ 13) := by
  rw [← str_cuts]
  simp only [parseLine]
  generalize cutAt (cutAt line 0 35) 0 13 = b
  by_cases heq : 61 ∈ str b 0
  · have hlt := List.idxOf_lt_length_of_mem heq
    have hkey0 := str_set_zero b 0 ((str b 0).idxOf 61)
    have hval0 := str_add (b := b) (p := 0) (k := (str b 0).idxOf 61 + 1) hlt
    rw [take_idxOf, Nat.zero_add] at hkey0
    rw [Nat.zero_add, ← List.tail_drop, drop_idxOf] at hval0
    have hend : (str (b.set ((str b 0).idxOf 61) 0) 0).length ≤ (str b 0).idxOf 61 := by
      rw [hkey0, ← take_idxOf]
      exact List.length_take_le _ _
    rw [← str_set_before (Nat.lt_succ_self _) 0] at hval0
    simp only [strchr, if_pos heq, Nat.zero_add]
    generalize b.set ((str b 0).idxOf 61) 0 = b' at *
    generalize (str b 0).idxOf 61 = eq at *
    have hskip := skipBlanks_end isPad isPad_zero b' 0
    have hkey := str_skipBlanks isPad isPad_zero b' 0
    generalize skipBlanks isPad b' 0 = key at *
    have hstrip := str_trimTrailing isPad b' key
    have hkept := trimTrailing_before isPad (b := b') (p := key) (q := eq + 1) (by omega)
    have hshort := (List.rdropWhile_prefix isPad (l := str b' key)).length_le
    rw [← hstrip] at hshort
    generalize trimTrailing isPad b' key = b'' at *
    have hval := str_skipBlanks isPad isPad_zero b'' (eq + 1)
    have hge : eq + 1 ≤ skipBlanks isPad b'' (eq + 1) := Nat.le_add_right _ _
    generalize skipBlanks isPad b'' (eq + 1) = val at *
    have hkey' := trimTrailing_after isPad (b := b'') (p := val) (q := key) (by omega)
    have hval' := str_trimTrailing isPad b'' val
    rw [hkey', hval', hstrip, hkey, hkey0, hval, hkept, hval0, textDirective]
    by_cases hnil : (((str b 0).takeWhile (· != 61)).dropWhile isPad).rdropWhile isPad = []
    · simp [strip, hnil]
    · simp [strip, hnil, heq]
  · simp [strchr, heq, textDirective]

theorem parseLine_directive {line l : List UInt8} (h : line.take l.length = l)
    (hl : l.length ≤ 255) : (parseLine (line.set l.length 0)).2 = lineDirective l := by
  rw [parseLine_eq, str_terminated h, List.takeWhile_takeWhile, lineDirective, if_neg (by omega)]
  congr 2
  funext c
  by_cases h0 : c = 0 <;> by_cases h35 : c = 35 <;> by_cases h13 : c = 13 <;> simp [h0, h35, h13]

end Pgov
