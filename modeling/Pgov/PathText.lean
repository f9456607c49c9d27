import Pgov.OptDirectives
import Pgov.Substring

namespace Pgov

def ascii (s : String) : List UInt8 := s.toList.map fun c => c.val.toUInt8

/-- The inner loop of `pg_str_contains` at one position, and whether it passed all of `substr`. -/
def containsAt : List UInt8 → List UInt8 → Bool
  | _, [] => true
  | [], _ :: _ => false
  | c :: p1, s :: p2 => if c = s then containsAt p1 p2 else false

def containsLoop (substr : List UInt8) : List UInt8 → Bool
  | [] => false
  | c :: rest => if containsAt (c :: rest) substr then true else containsLoop substr rest

def pgStrContains (str substr : List UInt8) : Bool :=
  if substr = [] then true else containsLoop substr str

def pgStrToLower (str : List UInt8) : List UInt8 :=
  str.map fun c => if 65 ≤ c ∧ c ≤ 90 then c + 32 else c

def pathCopy (len : ℕ) : List UInt8 → List UInt8 → List UInt8
  | out, [] => out
  | out, c :: src => if out.length + 1 < len then pathCopy len (out ++ [c]) src else out

def pathSlash (len : ℕ) (out : List UInt8) : List UInt8 :=
  if out.length + 1 < len then out ++ [47] else out

def pgStrBuildPath (old : List UInt8) (len : ℕ) (dir sub file : List UInt8) : List UInt8 :=
  if len = 0 then old
  else
    let out := pathSlash len (pathCopy len [] dir)
    let out := pathSlash len (pathCopy len out sub)
    pathCopy len out file

def joinPath (dir sub file : List UInt8) : List UInt8 := dir ++ 47 :: (sub ++ 47 :: file)

section Search

variable {str sub : List UInt8}

theorem containsAt_iff : containsAt str sub = true ↔ sub <+: str := by
  induction sub generalizing str with
  | nil => cases str <;> simp [containsAt]
  | cons s sub ih =>
    cases str with
    | nil => simp [containsAt]
    | cons c str =>
      rw [containsAt, List.cons_prefix_cons, ← ih]
      by_cases hc : c = s
      · simp [hc]
      · simp [hc, Ne.symm hc]

theorem hasPrefix_iff : pgStrHasPrefix str sub = true ↔ sub <+: str := by
  induction sub generalizing str with
  | nil => cases str <;> simp [pgStrHasPrefix]
  | cons s sub ih =>
    cases str with
    | nil => simp [pgStrHasPrefix]
    | cons c str =>
      rw [pgStrHasPrefix, List.cons_prefix_cons, ← ih]
      by_cases hc : s = c
      · simp [hc]
      · simp [hc]

theorem contains_iff : pgStrContains str sub = true ↔ sub <:+: str := by
  by_cases hsub : sub = []
  · simp [pgStrContains, hsub]
  · rw [pgStrContains, if_neg hsub]
    induction str with
    | nil => simp [containsLoop, hsub]
    | cons c rest ih =>
      rw [containsLoop, List.infix_cons_iff, ← ih, ← containsAt_iff]
      cases containsAt (c :: rest) sub <;> simp

end Search

section Path

variable {len : ℕ} {out : List UInt8}

theorem pathCopy_eq (h : out.length < len) (src : List UInt8) :
    pathCopy len out src = (out ++ src).take (len - 1) := by
  induction src generalizing out with
  | nil => rw [pathCopy, List.append_nil, List.take_of_length_le (by omega)]
  | cons c src ih =>
    rw [pathCopy]
    split
    · rw [ih (by simp; omega), List.append_assoc, List.singleton_append]
    · have hlen : len - 1 = out.length := by omega
      rw [hlen, List.take_left]

theorem pathSlash_eq (h : out.length < len) : pathSlash len out = (out ++ [47]).take (len - 1) :=
  pathCopy_eq h [47]

theorem take_append_take {α : Type*} (a b : List α) (n : ℕ) :
    (a.take n ++ b).take n = (a ++ b).take n := by
  rw [List.take_append, List.take_append, List.take_take, min_self, List.length_take]
  congr 2
  omega

/-- What does not fit the output is cut off at the end of the path. -/
theorem buildPath_eq (old : List UInt8) (h : len ≠ 0) (dir sub file : List UInt8) :
    pgStrBuildPath old len dir sub file = (joinPath dir sub file).take (len - 1) := by
  have hcut (l : List UInt8) : (l.take (len - 1)).length < len := by
    rw [List.length_take]
    omega
  rw [pgStrBuildPath, if_neg h]
  simp only [pathCopy_eq (show ([] : List UInt8).length < len by simp; omega), List.nil_append,
    pathSlash_eq (hcut _), pathCopy_eq (hcut _), take_append_take, joinPath, List.append_assoc,
    List.cons_append]

end Path

end Pgov
