import Pgov.OptDirectives

namespace Pgov

def terminated (val : List UInt8) : List UInt8 :=
  if val.getLast? = some 10 then val else val ++ [10]

/-- The string ends in a newline already, or the copy with one fits the buffer. -/
def NewlineFits (val : List UInt8) : Prop := val.getLast? = some 10 ∨ val.length ≤ 62

section Strings

variable {val : List UInt8}

theorem sysfsBytes_iff (hval : val ≠ []) : sysfsBytes val = terminated val ↔ NewlineFits val := by
  have hpos : val.length > 0 := List.length_pos_iff.mpr hval
  rw [sysfsBytes, terminated, NewlineFits, sysfsBufSz]
  by_cases hend : val.getLast? = some 10
  · rw [if_neg (fun h => h.2.1 hend), if_pos hend]
    exact iff_of_true rfl (Or.inl hend)
  · rw [if_neg hend]
    by_cases hfits : val.length ≤ 62
    · rw [if_pos ⟨hpos, hend, by omega⟩]
      exact iff_of_true rfl (Or.inr hfits)
    · rw [if_neg fun h => hfits (by omega)]
      have hne : val ≠ val ++ [10] := by
        intro heq
        have := congrArg List.length heq
        rw [List.length_append, List.length_singleton] at this
        omega
      exact iff_of_false hne fun h => h.elim hend hfits

theorem sysfsWrite_complete (fd : ℕ) (val : List UInt8) :
    pgSysfsWrite ⟨.ok fd, .wrote (sysfsBytes val).length⟩ val = (0, some (sysfsBytes val)) := by
  simp [pgSysfsWrite]

theorem sysfsWrite_bytes {io : WriteIo} {fd : ℕ} (hfd : io.fd = .ok fd) (val : List UInt8) :
    (pgSysfsWrite io val).2 = some (sysfsBytes val) := by
  rw [pgSysfsWrite, hfd]
  cases io.res <;> rfl

theorem write_terminated_iff (hval : val ≠ []) :
    (∀ fd, ∃ bytes, pgSysfsWrite ⟨.ok fd, .wrote bytes.length⟩ val = (0, some bytes) ∧
      (bytes = terminated val ↔ NewlineFits val)) ∧
    ∀ (io : ℕ → DirectiveIo) (w : OptWorld) (st : ConfState) (l path : List UInt8) (fd : ℕ),
      st.Holds l → l.length ≤ 255 → lineDirective l = some (keySysfs ++ path, val) →
      (io st.calls.length).write.fd = .ok fd →
      ∃ bytes, (optRun io w (dispatchLine (optCb io w) st).calls).writes =
          (optRun io w st.calls).writes ++ [(path, bytes)] ∧
        (bytes = terminated val ↔ NewlineFits val) := by
  constructor
  · intro fd
    exact ⟨sysfsBytes val, sysfsWrite_complete fd val, sysfsBytes_iff hval⟩
  · intro io w st l path fd h hl hd hfd
    refine ⟨sysfsBytes val, ?_, sysfsBytes_iff hval⟩
    rw [optRun_line h hl hd, parseCb_sysfs, sysfsWrite_bytes hfd]
    rfl

end Strings

section Examples

theorem write_terminated_short :
    (∀ fd, ∃ bytes, pgSysfsWrite ⟨.ok fd, .wrote bytes.length⟩ [111, 110] = (0, some bytes) ∧
      (bytes = terminated [111, 110] ↔ NewlineFits [111, 110])) ∧
    ∀ (io : ℕ → DirectiveIo) (w : OptWorld) (st : ConfState) (l path : List UInt8) (fd : ℕ),
      st.Holds l → l.length ≤ 255 → lineDirective l = some (keySysfs ++ path, [111, 110]) →
      (io st.calls.length).write.fd = .ok fd →
      ∃ bytes, (optRun io w (dispatchLine (optCb io w) st).calls).writes =
          (optRun io w st.calls).writes ++ [(path, bytes)] ∧
        (bytes = terminated [111, 110] ↔ NewlineFits [111, 110]) :=
  write_terminated_iff (by decide)

theorem write_unterminated :
    pgSysfsWrite ⟨.ok 3, .wrote 63⟩ (List.replicate 63 97) =
        (0, some (List.replicate 63 97)) ∧
      terminated (List.replicate 63 97) = List.replicate 63 97 ++ [10] ∧
      (pgOptInitWorld (fun _ => ⟨⟨.ok 3, .wrote 63⟩, false⟩)
          ⟨OptState.fresh (fun _ => pgPropStateInit []) (fun _ => emptyValue), []⟩
          (.ok [.ok (keySysfs ++ 47 :: 61 :: List.replicate 63 97), .ok []])
          ⟨List.replicate 256 0, List.length_replicate⟩).1.writes =
        [([47], List.replicate 63 97)] := by
  refine ⟨by decide, by decide, ?_⟩
  decide

end Examples

end Pgov
