import Pgov.ConfFile

namespace Pgov

open CString

variable {cb : ConfCb}

/-- The parser has read `l` of the current line: it holds it whole, or skips what does not fit. -/
structure ConfState.Holds (st : ConfState) (l : List UInt8) : Prop where
  noSkip : l.length ≤ 255 → st.skip = false
  lPos_eq : l.length ≤ 255 → st.lPos = l.length
  take_eq : l.length ≤ 255 → st.line.bytes.take l.length = l
  skipped : 255 < l.length → st.skip = true

theorem dispatchLine_calls (hcb : ∀ before d, 0 ≤ cb before d) {st : ConfState} {l : List UInt8}
    (h : st.Holds l) (hl : l.length ≤ 255) :
    (dispatchLine cb st).calls = st.calls ++ (lineDirective l).toList ∧
      0 ≤ (dispatchLine cb st).ret := by
  have hpos := h.lPos_eq hl
  by_cases h0 : l = []
  · rw [h0] at hpos ⊢
    simp [dispatchLine, hpos, lineDirective, textDirective]
  · have hne : st.lPos ≠ 0 := by rwa [hpos, ne_eq, List.length_eq_zero_iff]
    have hdir := parseLine_directive (h.take_eq hl) hl
    rw [← hpos] at hdir
    simp only [dispatchLine, if_neg hne, LineBuf.set, hdir]
    cases lineDirective l with
    | none => simp
    | some d => exact ⟨rfl, hcb _ _⟩

theorem confFinish (hcb : ∀ before d, 0 ≤ cb before d) {st : ConfState} {l : List UInt8}
    (h : st.Holds l) : (if st.skip then st else dispatchLine cb st).calls =
      st.calls ++ (lineDirective l).toList := by
  by_cases hl : l.length ≤ 255
  · rw [h.noSkip hl]
    exact (dispatchLine_calls hcb h hl).1
  · have hlong : 255 < l.length := by omega
    rw [h.skipped hlong, lineDirective, if_pos hlong]
    simp

theorem confByte_newline (hcb : ∀ before d, 0 ≤ cb before d) {st : ConfState} {l : List UInt8}
    (h : st.Holds l) : ∃ st', confByte cb st 10 = .ok st' ∧ st'.Holds [] ∧
      st'.calls = st.calls ++ (lineDirective l).toList := by
  by_cases hl : l.length ≤ 255
  · obtain ⟨hcalls, hret⟩ := dispatchLine_calls hcb h hl
    refine ⟨{ dispatchLine cb st with lPos := 0 }, ?_, ?_, hcalls⟩
    · simp [confByte, h.noSkip hl, not_lt.mpr hret]
    · refine ⟨fun _ => ?_, fun _ => rfl, fun _ => rfl, fun hlong => absurd hlong (by simp)⟩
      have hskip := h.noSkip hl
      simp only [dispatchLine]
      split
      · exact hskip
      · split <;> exact hskip
  · have hskip := h.skipped (by omega)
    refine ⟨{ st with skip := false, lPos := 0 }, by simp [confByte, hskip], ?_, ?_⟩
    · exact ⟨fun _ => rfl, fun _ => rfl, fun _ => rfl, fun hlong => absurd hlong (by simp)⟩
    · rw [lineDirective, if_pos (by omega)]
      simp

theorem confByte_other (cb : ConfCb) {st : ConfState} {l : List UInt8} (h : st.Holds l) {c : UInt8}
    (hc : c ≠ 10) : ∃ st', confByte cb st c = .ok st' ∧ st'.Holds (l ++ [c]) ∧
      st'.calls = st.calls := by
  rcases lt_trichotomy l.length 255 with hl | hl | hl
  · have hskip := h.noSkip hl.le
    have hpos := h.lPos_eq hl.le
    have htake := h.take_eq hl.le
    refine ⟨{ st with line := st.line.set st.lPos c, lPos := st.lPos + 1 }, ?_, ?_, rfl⟩
    · simp [confByte, hc, hskip, hpos, confLineSz, hl]
    · refine ⟨fun _ => hskip, fun _ => by simp [hpos], fun _ => ?_, fun hlong => ?_⟩
      · have hlt : l.length < st.line.bytes.length := by
          rw [st.line.size, confLineSz]
          omega
        have hlt' : l.length < (st.line.bytes.set l.length c).length := by rwa [List.length_set]
        simp only [LineBuf.set, hpos, List.length_append, List.length_singleton]
        rw [List.take_succ_eq_append_getElem hlt', List.take_set_of_le le_rfl, htake,
          List.getElem_set_self]
      · rw [List.length_append, List.length_singleton] at hlong
        omega
  · refine ⟨{ st with skip := true }, ?_, ?_, rfl⟩
    · simp [confByte, hc, h.noSkip hl.le, h.lPos_eq hl.le, hl, confLineSz]
    · have hlen : (l ++ [c]).length = 256 := by simp [hl]
      exact ⟨fun _ => by omega, fun _ => by omega, fun _ => by omega, fun _ => rfl⟩
  · have hskip := h.skipped hl
    have hlen : 255 < (l ++ [c]).length := by simp; omega
    refine ⟨st, by simp [confByte, hc, hskip], ?_, rfl⟩
    exact ⟨fun _ => by omega, fun _ => by omega, fun _ => by omega, fun _ => hskip⟩

theorem confBytes (hcb : ∀ before d, 0 ≤ cb before d) {st : ConfState} {l : List UInt8}
    (h : st.Holds l) (hnl : 10 ∉ l) (bytes : List UInt8) :
    ∃ st', bytes.foldlM (confByte cb) st = .ok st' ∧
      st'.Holds (((l ++ bytes).splitOn 10).getLast (List.splitOn_ne_nil _ _)) ∧
      st'.calls = st.calls ++ confDirectives ((l ++ bytes).splitOn 10).dropLast := by
  induction bytes generalizing st l with
  | nil =>
    have hsplit : (l ++ []).splitOn 10 = [l] := by
      rw [List.append_nil, List.splitOn_eq_splitOnP]
      exact List.splitOnP_eq_singleton fun x hx => by
        simpa using fun he : x = 10 => hnl (he ▸ hx)
    refine ⟨st, rfl, ?_, ?_⟩
    · simpa only [hsplit, List.getLast_singleton] using h
    · rw [hsplit]
      simp [confDirectives]
  | cons c bytes ih =>
    by_cases hc : c = 10
    · obtain ⟨st', hstep, hholds, hcalls⟩ := confByte_newline hcb h
      obtain ⟨st'', hrun, hlast, hcalls'⟩ := ih hholds (List.not_mem_nil)
      have hsplit : (l ++ c :: bytes).splitOn 10 = l :: ([] ++ bytes).splitOn 10 := by
        rw [hc, List.splitOn_eq_splitOnP, List.splitOn_eq_splitOnP]
        exact List.splitOnP_append_cons_of_forall_mem (fun x hx => by
          simpa using fun he : x = 10 => hnl (he ▸ hx)) 10 rfl bytes
      refine ⟨st'', ?_, ?_, ?_⟩
      · rw [List.foldlM_cons, hc, hstep]
        exact hrun
      · simpa only [hsplit, List.getLast_cons (List.splitOn_ne_nil _ _)] using hlast
      · rw [hcalls', hcalls, hsplit, List.dropLast_cons_of_ne_nil (List.splitOn_ne_nil _ _)]
        cases hd : lineDirective l <;> simp [confDirectives, hd]
    · obtain ⟨st', hstep, hholds, hcalls⟩ := confByte_other cb h hc
      obtain ⟨st'', hrun, hlast, hcalls'⟩ := ih hholds (by simp [hnl, Ne.symm hc])
      have happ : l ++ c :: bytes = l ++ [c] ++ bytes := by simp
      refine ⟨st'', ?_, ?_, ?_⟩
      · rw [List.foldlM_cons, hstep]
        exact hrun
      · simpa only [happ] using hlast
      · rw [hcalls', hcalls, happ]

theorem confLoop_chunks {chunks : List (List UInt8)} (hne : ∀ bytes ∈ chunks, bytes ≠ [])
    {st st' : ConfState} (h : chunks.flatten.foldlM (confByte cb) st = .ok st')
    (reads : List (Except ℕ+ (List UInt8))) :
    confLoop cb st (chunks.map .ok ++ reads) = confLoop cb st' reads := by
  induction chunks generalizing st with
  | nil =>
    obtain rfl : st = st' := by simpa [pure, Except.pure] using h
    rfl
  | cons bytes chunks ih =>
    rw [List.flatten_cons, List.foldlM_append] at h
    cases hfold : bytes.foldlM (confByte cb) st with
    | error e => simp [hfold, bind, Except.bind] at h
    | ok mid =>
      rw [hfold] at h
      rw [List.map_cons, List.cons_append, confLoop, if_neg (hne bytes (by simp)), hfold]
      exact ih (fun b hb => hne b (List.mem_cons_of_mem _ hb)) h

theorem confStart_holds (junk : LineBuf) : (confStart junk).Holds [] :=
  ⟨fun _ => rfl, fun _ => rfl, fun _ => rfl, fun hlong => absurd hlong (by simp)⟩

theorem confParse_calls (hcb : ∀ before d, 0 ≤ cb before d) (junk : LineBuf) (content : List UInt8)
    {chunks : List (List UInt8)} (hsplit : chunks.flatten = content)
    (hne : ∀ bytes ∈ chunks, bytes ≠ []) (later : List (Except ℕ+ (List UInt8))) :
    (pgConfParse cb (.ok (chunks.map .ok ++ .ok [] :: later)) junk).2 =
        confDirectives (content.splitOn 10) ∧
      ∀ errno, (pgConfParse cb (.ok (chunks.map .ok ++ .error errno :: later)) junk).2 =
        confDirectives (content.splitOn 10).dropLast := by
  obtain ⟨st, hrun, hlast, hcalls⟩ := confBytes hcb (confStart_holds junk) List.not_mem_nil content
  rw [← hsplit] at hrun
  simp only [List.nil_append] at hlast hcalls
  have hcalls' : st.calls = confDirectives (content.splitOn 10).dropLast := by
    simpa [confStart] using hcalls
  constructor
  · rw [pgConfParse, confLoop_chunks hne hrun, confLoop, if_pos rfl]
    have hwhole := List.dropLast_append_getLast (List.splitOn_ne_nil 10 content)
    rw [confFinish hcb hlast, hcalls']
    conv_rhs => rw [confDirectives, ← hwhole, List.filterMap_append]
    cases hd : lineDirective ((content.splitOn 10).getLast _) <;> simp [confDirectives, hd]
  · intro errno
    rw [pgConfParse, confLoop_chunks hne hrun, confLoop]
    exact hcalls'

/-- The line `a = 1 # x` in three chunks, cut inside the key and inside the comment. -/
theorem confParse_split_line :
    (pgConfParse (fun _ _ => 0)
        (.ok ([[97], [32, 61, 32, 49, 32, 35, 32], [120, 10]].map .ok ++ [.ok []]))
        ⟨List.replicate 256 0, List.length_replicate⟩).2 =
      confDirectives (List.splitOn 10 [97, 32, 61, 32, 49, 32, 35, 32, 120, 10]) :=
  (confParse_calls (fun _ _ => le_rfl) ⟨List.replicate 256 0, List.length_replicate⟩
    [97, 32, 61, 32, 49, 32, 35, 32, 120, 10] rfl (by decide) []).1

end Pgov
