import Mathlib.Tactic

namespace Pgov.UndoLog

variable {α β : Type*} [DecidableEq α]

/-- Puts the overridden values back, the newest override first. -/
def rollback (s : α → β) (log : List (α × β)) : α → β :=
  log.foldl (fun s e => Function.update s e.1 e.2) s

@[simp] theorem rollback_nil (s : α → β) : rollback s [] = s := rfl

@[simp] theorem rollback_cons (s : α → β) (e : α × β) (log : List (α × β)) :
    rollback s (e :: log) = rollback (Function.update s e.1 e.2) log := rfl

theorem rollback_override (s : α → β) (k : α) (v : β) (log : List (α × β)) :
    rollback (Function.update s k v) ((k, s k) :: log) = rollback s log := by
  rw [rollback_cons, Function.update_idem, Function.update_eq_self]

def latest (log : List (α × β)) (k : α) : Option β :=
  (log.reverse.find? fun e => e.1 = k).map Prod.snd

theorem latest_concat (log : List (α × β)) (e : α × β) (k : α) :
    latest (log ++ [e]) k = if e.1 = k then some e.2 else latest log k := by
  unfold latest
  rw [List.reverse_concat, List.find?_cons]
  by_cases hk : e.1 = k
  · simp [hk]
  · simp [hk]

end Pgov.UndoLog
