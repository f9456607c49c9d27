import Pgov.ConfStream

namespace Pgov

open CString

def Accepted (cb : ConfCb) (base ds : List Directive) : Prop :=
  ∀ before d after, ds = before ++ d :: after → 0 ≤ cb (base ++ before) d

structure Refused (cb : ConfCb) (base ds : List Directive) (ret : ℤ) (calls : List Directive) :
    Prop where
  refused : ∃ before d after, ds = before ++ d :: after ∧ Accepted cb base before ∧
    calls = base ++ before ++ [d] ∧ ret = cb (base ++ before) d ∧ ret < 0

section Callback

variable {cb : ConfCb} {base ds ds' : List Directive} {d : Directive} {ret : ℤ}
  {calls : List Directive}

theorem accepted_nil (cb : ConfCb) (base : List Directive) : Accepted cb base [] := by
  intro before d after h
  exact absurd h (by simp)

theorem Accepted.append (h : Accepted cb base ds) (h' : Accepted cb (base ++ ds) ds') :
    Accepted cb base (ds ++ ds') := by
  intro before d after heq
  rcases List.append_eq_append_iff.mp heq with ⟨mid, rfl, hmid⟩ | ⟨mid, hmid, htail⟩
  · rw [← List.append_assoc]
    exact h' mid d after hmid
  · cases mid with
    | nil =>
      rw [List.append_nil] at hmid
      rw [← hmid]
      have hfirst := h' [] d after htail.symm
      rwa [List.append_nil] at hfirst
    | cons e mid =>
      obtain ⟨rfl, -⟩ := List.cons.inj htail
      exact h before _ mid hmid

theorem accepted_toList {o : Option Directive} (h : ∀ d ∈ o, 0 ≤ cb base d) :
    Accepted cb base o.toList := by
  intro before d after heq
  cases o with
  | none => exact absurd heq (by simp)
  | some e =>
    obtain ⟨rfl, rfl, -⟩ : before = [] ∧ e = d ∧ after = [] := by
      cases before with
      | nil => simpa using heq
      | cons b before => simp at heq
    rw [List.append_nil]
    exact h e rfl

theorem Refused.later (h : Accepted cb base ds) (h' : Refused cb (base ++ ds) ds' ret calls) :
    Refused cb base (ds ++ ds') ret calls := by
  obtain ⟨before, d, after, rfl, hbefore, rfl, hret, hneg⟩ := h'
  refine ⟨ds ++ before, d, after, ?_, h.append hbefore, ?_, ?_, hneg⟩
  · rw [List.append_assoc]
  · rw [List.append_assoc base]
  · rw [hret, List.append_assoc]

theorem Refused.weaken (h : Refused cb base ds ret calls) (ds' : List Directive) :
    Refused cb base (ds ++ ds') ret calls := by
  obtain ⟨before, d, after, rfl, hrest⟩ := h
  exact ⟨before, d, after ++ ds', by rw [List.append_assoc, List.cons_append], hrest⟩

end Callback

section Lines

variable {cb : ConfCb} {st : ConfState} {l : List UInt8}

theorem dispatchLine_eq (cb : ConfCb) (h : st.Holds l) (hl : l.length ≤ 255) :
    (dispatchLine cb st).calls = st.calls ++ (lineDirective l).toList ∧
      (dispatchLine cb st).skip = st.skip ∧
      (dispatchLine cb st).ret = (lineDirective l).elim 0 (cb st.calls) := by
  have hpos := h.lPos_eq hl
  by_cases h0 : l = []
  · rw [h0] at hpos ⊢
    simp [dispatchLine, hpos, lineDirective, textDirective]
  · have hne : st.lPos ≠ 0 := by rwa [hpos, ne_eq, List.length_eq_zero_iff]
    have hdir := parseLine_directive (h.take_eq hl) hl
    rw [← hpos] at hdir
    simp only [dispatchLine, if_neg hne, LineBuf.set, hdir]
    cases lineDirective l with
    | none => simp
    | some d => exact ⟨rfl, rfl, rfl⟩

theorem dispatchLine_accepts (cb : ConfCb) (h : st.Holds l) (hl : l.length ≤ 255) :
    (0 ≤ (dispatchLine cb st).ret ∧ Accepted cb st.calls (lineDirective l).toList) ∨
      Refused cb st.calls (lineDirective l).toList (dispatchLine cb st).ret
        (dispatchLine cb st).calls := by
  obtain ⟨hcalls, -, hret⟩ := dispatchLine_eq cb h hl
  cases hd : lineDirective l with
  | none =>
    rw [hd] at hret
    exact .inl ⟨hret.ge, accepted_nil cb st.calls⟩
  | some d =>
    rw [hd] at hret hcalls
    change (dispatchLine cb st).ret = cb st.calls d at hret
    rcases lt_or_ge (cb st.calls d) 0 with hneg | hpos
    · refine .inr ⟨[], d, [], rfl, accepted_nil cb st.calls, ?_, ?_, hret.trans_lt hneg⟩
      · rw [hcalls, List.append_nil]
        rfl
      · rw [hret, List.append_nil]
    · refine .inl ⟨hpos.trans_eq hret.symm, accepted_toList fun e he => ?_⟩
      rwa [← Option.mem_some_iff.mp he]

theorem confByte_feed (cb : ConfCb) (hret : 0 ≤ st.ret) (h : st.Holds l) :
    (∃ st', confByte cb st 10 = .ok st' ∧ st'.Holds [] ∧ 0 ≤ st'.ret ∧
        st'.calls = st.calls ++ (lineDirective l).toList ∧
        Accepted cb st.calls (lineDirective l).toList) ∨
      ∃ st', confByte cb st 10 = .error st' ∧
        Refused cb st.calls (lineDirective l).toList st'.ret st'.calls := by
  have hempty {st' : ConfState} (hskip : st'.skip = false) (hpos : st'.lPos = 0) : st'.Holds [] :=
    ⟨fun _ => hskip, fun _ => hpos, fun _ => rfl, fun hlong => absurd hlong (by simp)⟩
  by_cases hl : l.length ≤ 255
  · have hskip := h.noSkip hl
    obtain ⟨hcalls, hskip', -⟩ := dispatchLine_eq cb h hl
    rcases dispatchLine_accepts cb h hl with ⟨hgo, haccept⟩ | hrefuse
    · refine .inl ⟨{ dispatchLine cb st with lPos := 0 }, ?_, hempty (hskip'.trans hskip) rfl, hgo,
        hcalls, haccept⟩
      simp [confByte, hskip, not_lt.mpr hgo]
    · obtain ⟨-, -, -, -, -, -, -, hneg⟩ := hrefuse.refused
      refine .inr ⟨{ dispatchLine cb st with lPos := 0 }, ?_, hrefuse⟩
      simp [confByte, hskip, hneg]
  · have hskip := h.skipped (by omega)
    have hnone : lineDirective l = none := by rw [lineDirective, if_pos (by omega)]
    rw [hnone]
    refine .inl ⟨{ st with skip := false, lPos := 0 }, by simp [confByte, hskip], hempty rfl rfl,
      hret, (List.append_nil _).symm, accepted_nil cb st.calls⟩

theorem confByte_keepsRet (cb : ConfCb) {c : UInt8} (hc : c ≠ 10) {st' : ConfState}
    (h : confByte cb st c = .ok st') : st'.ret = st.ret := by
  simp only [confByte, if_neg hc] at h
  split_ifs at h <;> cases h <;> rfl

/-- The bytes of a file up to its last line feed: all of their lines are taken, or the parser is out
at the first one refused. -/
theorem confBytes_accepts (cb : ConfCb) (hret : 0 ≤ st.ret) (h : st.Holds l) (hnl : 10 ∉ l)
    (bytes : List UInt8) :
    (∃ st', bytes.foldlM (confByte cb) st = .ok st' ∧ 0 ≤ st'.ret ∧
        st'.Holds (((l ++ bytes).splitOn 10).getLast (List.splitOn_ne_nil _ _)) ∧
        st'.calls = st.calls ++ confDirectives ((l ++ bytes).splitOn 10).dropLast ∧
        Accepted cb st.calls (confDirectives ((l ++ bytes).splitOn 10).dropLast)) ∨
      ∃ st', bytes.foldlM (confByte cb) st = .error st' ∧
        Refused cb st.calls (confDirectives ((l ++ bytes).splitOn 10).dropLast) st'.ret
          st'.calls := by
  induction bytes generalizing st l with
  | nil =>
    have hsplit : (l ++ []).splitOn 10 = [l] := by
      rw [List.append_nil, List.splitOn_eq_splitOnP]
      exact List.splitOnP_eq_singleton fun x hx => by
        simpa using fun he : x = 10 => hnl (he ▸ hx)
    refine .inl ⟨st, rfl, hret, ?_, ?_, ?_⟩
    · simpa only [hsplit, List.getLast_singleton] using h
    · rw [hsplit]
      simp [confDirectives]
    · rw [hsplit]
      exact accepted_nil cb st.calls
  | cons c bytes ih =>
    by_cases hc : c = 10
    · have hsplit : (l ++ c :: bytes).splitOn 10 = l :: ([] ++ bytes).splitOn 10 := by
        rw [hc, List.splitOn_eq_splitOnP, List.splitOn_eq_splitOnP]
        exact List.splitOnP_append_cons_of_forall_mem (fun x hx => by
          simpa using fun he : x = 10 => hnl (he ▸ hx)) 10 rfl bytes
      have hdirs : confDirectives ((l ++ c :: bytes).splitOn 10).dropLast =
          (lineDirective l).toList ++ confDirectives (([] ++ bytes).splitOn 10).dropLast := by
        rw [hsplit, List.dropLast_cons_of_ne_nil (List.splitOn_ne_nil _ _)]
        cases hd : lineDirective l <;> simp [confDirectives, hd]
      have hlastLine : ((l ++ c :: bytes).splitOn 10).getLast (List.splitOn_ne_nil _ _) =
          (([] ++ bytes).splitOn 10).getLast (List.splitOn_ne_nil _ _) := by
        simp only [hsplit, List.getLast_cons (List.splitOn_ne_nil _ _)]
      rw [hdirs, hlastLine, List.foldlM_cons, hc]
      rcases confByte_feed cb hret h with ⟨st', hstep, hholds, hret', hcalls, haccept⟩ |
        ⟨st', hstep, hrefuse⟩
      · rw [hstep]
        rcases ih hret' hholds List.not_mem_nil with ⟨st'', hrun, hret'', hlast, hcalls', haccept'⟩ |
          ⟨st'', hrun, hrefuse⟩
        · rw [hcalls] at hcalls' haccept'
          refine .inl ⟨st'', hrun, hret'', hlast, ?_, haccept.append haccept'⟩
          rw [hcalls', List.append_assoc]
        · rw [hcalls] at hrefuse
          exact .inr ⟨st'', hrun, hrefuse.later haccept⟩
      · rw [hstep]
        exact .inr ⟨st', rfl, hrefuse.weaken _⟩
    · obtain ⟨st', hstep, hholds, hcalls⟩ := confByte_other cb h hc
      have happ : l ++ c :: bytes = l ++ [c] ++ bytes := by simp
      have hret' : 0 ≤ st'.ret := by rwa [confByte_keepsRet cb hc hstep]
      have hrest := ih hret' hholds (by simp [hnl, Ne.symm hc])
      rw [List.foldlM_cons, hstep]
      change (∃ st'', bytes.foldlM (confByte cb) st' = .ok st'' ∧ _) ∨
        ∃ st'', bytes.foldlM (confByte cb) st' = .error st'' ∧ _
      rw [← hcalls]
      simpa only [happ] using hrest

theorem confEnd_accepts (cb : ConfCb) (hret : 0 ≤ st.ret) (h : st.Holds l) :
    (0 ≤ (if st.skip then st else dispatchLine cb st).ret ∧
      (if st.skip then st else dispatchLine cb st).calls =
        st.calls ++ (lineDirective l).toList ∧
      Accepted cb st.calls (lineDirective l).toList) ∨
      Refused cb st.calls (lineDirective l).toList (if st.skip then st else dispatchLine cb st).ret
        (if st.skip then st else dispatchLine cb st).calls := by
  by_cases hl : l.length ≤ 255
  · rw [h.noSkip hl]
    obtain ⟨hcalls, -, -⟩ := dispatchLine_eq cb h hl
    exact (dispatchLine_accepts cb h hl).imp (fun hgo => ⟨hgo.1, hcalls, hgo.2⟩) id
  · have hlong : 255 < l.length := by omega
    rw [h.skipped hlong, lineDirective, if_pos hlong]
    exact .inl ⟨hret, (List.append_nil _).symm, accepted_nil cb st.calls⟩

theorem confLoop_refused {chunks : List (List UInt8)} (hne : ∀ bytes ∈ chunks, bytes ≠ [])
    {st' : ConfState} (h : chunks.flatten.foldlM (confByte cb) st = .error st')
    (reads : List (Except ℕ+ (List UInt8))) :
    confLoop cb st (chunks.map .ok ++ reads) = st' := by
  induction chunks generalizing st with
  | nil => cases h
  | cons bytes chunks ih =>
    rw [List.flatten_cons, List.foldlM_append] at h
    rw [List.map_cons, List.cons_append, confLoop, if_neg (hne bytes List.mem_cons_self)]
    cases hfold : bytes.foldlM (confByte cb) st with
    | error e =>
      rw [hfold] at h
      exact Except.error.inj h
    | ok mid =>
      rw [hfold] at h
      exact ih (fun b hb => hne b (List.mem_cons_of_mem _ hb)) h

end Lines

/-- A parse that calls back for `ds` in order and returns as `done` says, unless the callback
refuses one of them: then it stops there, with what the callback returned. -/
def Delivers (cb : ConfCb) (ds : List Directive) (done : ℤ → Prop) (run : ℤ × List Directive) :
    Prop :=
  (Accepted cb [] ds ∧ run.2 = ds ∧ done run.1) ∨ Refused cb [] ds run.1 run.2

theorem confDirectives_dropLast (lines : List (List UInt8)) (hne : lines ≠ []) :
    confDirectives lines.dropLast ++ (lineDirective (lines.getLast hne)).toList =
      confDirectives lines := by
  conv_rhs => rw [confDirectives, ← List.dropLast_append_getLast hne, List.filterMap_append]
  cases hd : lineDirective (lines.getLast hne) <;> simp [confDirectives, hd]

theorem conf_parse_refusal (cb : ConfCb) (junk : LineBuf) {chunks : List (List UInt8)}
    (hne : ∀ bytes ∈ chunks, bytes ≠ []) (later : List (Except ℕ+ (List UInt8))) :
    Delivers cb (confDirectives (chunks.flatten.splitOn 10)) (0 ≤ ·)
        (pgConfParse cb (.ok (chunks.map .ok ++ .ok [] :: later)) junk) ∧
      ∀ errno : ℕ+, Delivers cb (confDirectives (chunks.flatten.splitOn 10).dropLast)
        (· = -(errno : ℕ))
        (pgConfParse cb (.ok (chunks.map .ok ++ .error errno :: later)) junk) := by
  have hlast := confDirectives_dropLast _ (List.splitOn_ne_nil 10 chunks.flatten)
  rcases confBytes_accepts cb le_rfl (confStart_holds junk) List.not_mem_nil chunks.flatten with
    ⟨st, hrun, hret, hholds, hcalls, haccept⟩ | ⟨st, hrun, hrefuse⟩
  · simp only [List.nil_append] at hholds hcalls haccept
    have hbase : st.calls = confDirectives (chunks.flatten.splitOn 10).dropLast := by
      rw [hcalls]
      rfl
    constructor
    · rw [pgConfParse, confLoop_chunks hne hrun, confLoop, if_pos rfl, ← hlast]
      rcases confEnd_accepts cb hret hholds with ⟨hgo, hall, hend⟩ | hrefuse
      · rw [hbase] at hall hend
        exact .inl ⟨haccept.append hend, hall, hgo⟩
      · rw [hbase] at hrefuse
        exact .inr (hrefuse.later haccept)
    · intro errno
      rw [pgConfParse, confLoop_chunks hne hrun, confLoop]
      exact .inl ⟨haccept, hbase, rfl⟩
  · simp only [List.nil_append] at hrefuse
    constructor
    · rw [pgConfParse, confLoop_refused hne hrun, ← hlast]
      exact .inr (hrefuse.weaken _)
    · intro errno
      rw [pgConfParse, confLoop_refused hne hrun]
      exact .inr hrefuse

/-- `a=1`, `b=2` and `c=3` in two chunks, with a callback that wants no second directive. -/
theorem conf_parse_refusal_second :
    Delivers (fun before _ => if before = [] then 0 else -22)
      (confDirectives (List.splitOn 10
        (List.flatten [[97, 61, 49, 10, 98], [61, 50, 10, 99, 61, 51]]))) (0 ≤ ·)
      (pgConfParse (fun before _ => if before = [] then 0 else -22)
        (.ok ([[97, 61, 49, 10, 98], [61, 50, 10, 99, 61, 51]].map .ok ++ [.ok []]))
        ⟨List.replicate 256 0, List.length_replicate⟩) :=
  (conf_parse_refusal _ ⟨List.replicate 256 0, List.length_replicate⟩ (by decide) []).1

end Pgov
