import Mathlib.Data.List.DropRight
import Mathlib.Tactic

namespace Pgov.Streak

def streak (outcomes : List Bool) : ℕ := (outcomes.rtakeWhile id).length

def count (limit n : ℕ) (failed : Bool) : ℕ :=
  if failed then if n < limit then n + 1 else n else 0

@[simp] theorem streak_nil : streak [] = 0 := rfl

@[simp] theorem streak_failed (l : List Bool) : streak (l ++ [true]) = streak l + 1 := by
  rw [streak, List.rtakeWhile_concat_pos _ _ _ rfl, List.length_append, List.length_singleton, streak]

@[simp] theorem streak_succeeded (l : List Bool) : streak (l ++ [false]) = 0 := by
  rw [streak, List.rtakeWhile_concat_neg _ _ _ (by simp), List.length_nil]

theorem count_streak (limit : ℕ) (l : List Bool) (failed : Bool) :
    count limit (min limit (streak l)) failed = min limit (streak (l ++ [failed])) := by
  cases failed with
  | true =>
    rw [streak_failed, count, if_pos rfl]
    split <;> omega
  | false =>
    rw [streak_succeeded, count, if_neg (by simp)]
    omega

end Pgov.Streak
