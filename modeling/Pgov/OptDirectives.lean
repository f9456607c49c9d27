import Pgov.ConfStream
import Pgov.FileWalk
import Pgov.Properties

namespace Pgov

open Runs

def sysfsBufSz : ℕ := 64

def pgStrHasPrefix : List UInt8 → List UInt8 → Bool
  | _, [] => true
  | [], _ :: _ => false
  | c :: str, p :: rest => if p ≠ c then false else pgStrHasPrefix str rest

structure WriteIo where
  fd : Except ℕ+ ℕ
  res : Pwrite

/-- The bytes handed to `pwrite`: a copy with a newline where the buffer has room for it. -/
def sysfsBytes (val : List UInt8) : List UInt8 :=
  if val.length > 0 ∧ val.getLast? ≠ some 10 ∧ val.length < sysfsBufSz - 1 then val ++ [10] else val

/-- The return code with the bytes of the `pwrite`, if the path could be opened. -/
def pgSysfsWrite (io : WriteIo) (val : List UInt8) : ℤ × Option (List UInt8) :=
  match io.fd with
  | .error errno => (-(errno : ℕ), none)
  | .ok _ =>
    match io.res with
    | .failed errno => (-(errno : ℕ), some (sysfsBytes val))
    | .wrote n => (if n ≠ (sysfsBytes val).length then -eio else 0, some (sysfsBytes val))

structure DirectiveIo where
  write : WriteIo
  propFails : Bool

structure OptWorld where
  opt : OptState
  writes : List (List UInt8 × List UInt8)

def keySysfs : List UInt8 := [115, 121, 115, 102, 115, 46]

def keyProp : List UInt8 := [112, 114, 111, 112, 46]

def OptWorld.logWrite (w : OptWorld) (path : List UInt8) (bytes : Option (List UInt8)) : OptWorld :=
  { w with writes := w.writes ++ (bytes.map fun bytes => (path, bytes)).toList }

def parseCb (w : OptWorld) (d : Directive) (io : DirectiveIo) : OptWorld × ℤ :=
  if pgStrHasPrefix d.1 keySysfs then
    (w.logWrite (d.1.drop 6) (pgSysfsWrite io.write d.2).2, 0)
  else if pgStrHasPrefix d.1 keyProp then
    ({ w with opt := (addProp w.opt ⟨d.1.drop 5, d.2, io.propFails⟩).1 }, 0)
  else (w, 0)

section Run

variable (io : ℕ → DirectiveIo) (w : OptWorld)

/-- The directives in the order of the file; `io i` is what the `i`th of them meets. -/
def optRun (ds : List Directive) : OptWorld :=
  run (fun w (d : Directive × ℕ) => (parseCb w d.1 (io d.2)).1) w ds.zipIdx

def optCb : ConfCb := fun before d => (parseCb (optRun io w before) d (io before.length)).2

def pgOptInitWorld (file : Except ℕ+ (List (Except ℕ+ (List UInt8)))) (junk : LineBuf) :
    OptWorld × ℤ :=
  let (ret, calls) := pgConfParse (optCb io w) file junk
  (optRun io w calls, if ret = -enoent then 0 else ret)

end Run

variable {io : ℕ → DirectiveIo} {w : OptWorld} {st : ConfState} {l : List UInt8} {d : Directive}

theorem hasPrefix_append (pre rest : List UInt8) : pgStrHasPrefix (pre ++ rest) pre = true := by
  induction pre with
  | nil => cases rest <;> rfl
  | cons p pre ih => simpa [pgStrHasPrefix] using ih

theorem parseCb_ret (w : OptWorld) (d : Directive) (io : DirectiveIo) : (parseCb w d io).2 = 0 := by
  rw [parseCb]
  split
  · rfl
  · split <;> rfl

theorem parseCb_sysfs (path val : List UInt8) (io : DirectiveIo) :
    (parseCb w (keySysfs ++ path, val) io).1 = w.logWrite path (pgSysfsWrite io.write val).2 := by
  rw [parseCb, if_pos (hasPrefix_append _ _)]
  rfl

theorem parseCb_prop (name val : List UInt8) (io : DirectiveIo) :
    (parseCb w (keyProp ++ name, val) io).1 =
      { w with opt := (addProp w.opt ⟨name, val, io.propFails⟩).1 } := by
  rw [parseCb, if_neg (by simp [keyProp, keySysfs, pgStrHasPrefix]), if_pos (hasPrefix_append _ _)]
  rfl

theorem optRun_concat (ds : List Directive) :
    optRun io w (ds ++ [d]) = (parseCb (optRun io w ds) d (io ds.length)).1 := by
  rw [optRun, List.zipIdx_append, run_append, ← optRun, List.zipIdx_singleton, run_cons, run_nil,
    Nat.zero_add]

/-- A line that spells a directive takes effect once the parser has reached its end. -/
theorem optRun_line (h : st.Holds l) (hl : l.length ≤ 255) (hd : lineDirective l = some d) :
    optRun io w (dispatchLine (optCb io w) st).calls =
      (parseCb (optRun io w st.calls) d (io st.calls.length)).1 := by
  have hcb (before : List Directive) (d : Directive) : 0 ≤ optCb io w before d := by
    rw [optCb, parseCb_ret]
  rw [(dispatchLine_calls hcb h hl).1, hd]
  exact optRun_concat st.calls

end Pgov
