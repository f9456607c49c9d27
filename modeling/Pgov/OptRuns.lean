import Pgov.PropDirective

namespace Pgov

open Runs UndoLog

section Directives

def propSet (d : Directive) : Option (List UInt8 × PropValue) :=
  if h : pgStrHasPrefix d.1 keyProp = true ∧ d.2.length < propValueMax then
    some (slotName (d.1.drop 5), ⟨d.2, h.2⟩)
  else none

def sysfsSet (io : DirectiveIo) (d : Directive) : Option (List UInt8 × List UInt8) :=
  match pgStrHasPrefix d.1 keySysfs, io.write.fd with
  | true, .ok _ => some (d.1.drop 6, sysfsBytes d.2)
  | _, _ => none

def confSets (ds : List Directive) : List (List UInt8 × PropValue) := ds.filterMap propSet

def confWrites (io : ℕ → DirectiveIo) (ds : List Directive) : List (List UInt8 × List UInt8) :=
  ds.zipIdx.filterMap fun d => sysfsSet (io d.2) d.1

variable {io : ℕ → DirectiveIo} {d : Directive}

theorem confSets_concat (ds : List Directive) (d : Directive) :
    confSets (ds ++ [d]) = confSets ds ++ (propSet d).toList := by
  unfold confSets
  rw [List.filterMap_append]
  cases hd : propSet d <;> simp [hd]

theorem confWrites_concat (ds : List Directive) (d : Directive) :
    confWrites io (ds ++ [d]) = confWrites io ds ++ (sysfsSet (io ds.length) d).toList := by
  unfold confWrites
  rw [List.zipIdx_append, List.filterMap_append, List.zipIdx_singleton, Nat.zero_add]
  cases hd : sysfsSet (io ds.length) d <;> simp [hd]

theorem propSet_of_sysfs (h : pgStrHasPrefix d.1 keySysfs = true) : propSet d = none := by
  unfold propSet
  apply dif_neg
  rintro ⟨hprop, -⟩
  cases hkey : d.1 with
  | nil => simp [hkey, pgStrHasPrefix, keySysfs] at h
  | cons c key =>
    simp only [hkey, pgStrHasPrefix, keySysfs, keyProp, ne_eq, ite_not, Bool.if_false_right,
      Bool.and_eq_true, decide_eq_true_eq] at h hprop
    exact absurd (h.1.trans hprop.1.symm) (by decide)

end Directives

section Slots

variable {s : OptState} {name val : List UInt8}

theorem addProp_full (h : maxProps ≤ s.propCount) (d : PropDirective) : (addProp s d).1 = s := by
  unfold addProp
  rw [if_pos h]

theorem addProp_takes (hcount : s.propCount < maxProps) (hval : val.length < propValueMax) :
    (addProp s ⟨name, val, false⟩).1.store = Function.update s.store (slotName name) ⟨val, hval⟩ ∧
      (addProp s ⟨name, val, false⟩).1.propCount = s.propCount + 1 := by
  by_cases hsame : (s.store (slotName name)).1 = val
  · rw [addProp_same hcount hval hsame]
    refine ⟨?_, rfl⟩
    -- the property has the value already, and the slot is used up all the same
    have hold : (⟨val, hval⟩ : PropValue) = s.store (slotName name) := Subtype.ext hsame.symm
    rw [hold, Function.update_eq_self]
  · rw [addProp_set hcount hval hsame]
    exact ⟨rfl, rfl⟩

theorem addProp_long (hval : propValueMax ≤ val.length) (fails : Bool) :
    (addProp s ⟨name, val, fails⟩).1.store = s.store ∧
      (addProp s ⟨name, val, fails⟩).1.propCount = s.propCount := by
  have hdiff : (systemPropertyGet s.store (slotName name)).take propValueMax ≠
      val.take propValueMax := by
    intro heq
    have hlen := congrArg List.length heq
    have hold := (s.store (slotName name)).2
    simp only [systemPropertyGet, List.length_take] at hlen
    omega
  have hset : systemPropertySet s.store (slotName name) val fails = none :=
    dif_neg fun h => absurd h.1 (not_lt.mpr hval)
  have hname : (pgPropStateInit name).name = slotName name := rfl
  have hfresh : (pgPropStateInit name).modified = false := rfl
  unfold addProp
  split
  · exact ⟨rfl, rfl⟩
  · simp [pgPropSet, hname, hfresh, hdiff, hset, eio]

end Slots

section Effects

variable {io : ℕ → DirectiveIo} {w : OptWorld}

/-- What a run over the directives `ds` makes of the world `w`: the last of the first 64 sets that
name a property decides its value, and the strings are written in the order of the file. -/
structure Configured (io : ℕ → DirectiveIo) (w after : OptWorld) (ds : List Directive) : Prop where
  count : after.opt.propCount = min maxProps (confSets ds).length
  store : ∀ name, after.opt.store name =
    (latest ((confSets ds).take maxProps) name).getD (w.opt.store name)
  writes : after.writes = w.writes ++ confWrites io ds

theorem configured_start (h : w.opt.propCount = 0) : Configured io w w [] := by
  refine ⟨?_, fun _ => rfl, ?_⟩
  · simpa [confSets] using h
  · simp [confWrites]

theorem parseCb_writes (w : OptWorld) (d : Directive) (io : DirectiveIo) :
    (parseCb w d io).1.writes = w.writes ++ (sysfsSet io d).toList := by
  unfold parseCb sysfsSet
  cases hsysfs : pgStrHasPrefix d.1 keySysfs with
  | false =>
    simp only [Bool.false_eq_true, ↓reduceIte, Option.toList_none, List.append_nil]
    split <;> rfl
  | true =>
    cases hfd : io.write.fd with
    | error errno => simp [OptWorld.logWrite, pgSysfsWrite, hfd]
    | ok fd => cases hres : io.write.res <;> simp [OptWorld.logWrite, pgSysfsWrite, hfd, hres]

theorem parseCb_silent (w : OptWorld) (io : DirectiveIo) {d : Directive} (h : propSet d = none) :
    (parseCb w d io).1.opt.store = w.opt.store ∧
      (parseCb w d io).1.opt.propCount = w.opt.propCount := by
  unfold parseCb
  split
  · exact ⟨rfl, rfl⟩
  · split
    · next hprop =>
      have hval : propValueMax ≤ d.2.length := by
        by_contra hlt
        rw [propSet, dif_pos ⟨hprop, not_le.mp hlt⟩] at h
        exact absurd h (Option.some_ne_none _)
      exact addProp_long hval io.propFails
    · exact ⟨rfl, rfl⟩

theorem parseCb_sets (w : OptWorld) {io : DirectiveIo} (hio : io.propFails = false) {d : Directive}
    {e : List UInt8 × PropValue} (h : propSet d = some e) :
    (w.opt.propCount < maxProps →
      (parseCb w d io).1.opt.store = Function.update w.opt.store e.1 e.2 ∧
        (parseCb w d io).1.opt.propCount = w.opt.propCount + 1) ∧
    (maxProps ≤ w.opt.propCount → (parseCb w d io).1.opt = w.opt) := by
  have hsysfs : ¬pgStrHasPrefix d.1 keySysfs = true := by
    intro hsysfs
    rw [propSet_of_sysfs hsysfs] at h
    exact absurd h.symm (Option.some_ne_none _)
  unfold propSet at h
  split at h
  · next hprop =>
    obtain rfl := Option.some.inj h
    unfold parseCb
    rw [if_neg hsysfs, if_pos hprop.1, hio]
    exact ⟨fun hcount => addProp_takes hcount hprop.2, fun hfull => addProp_full hfull _⟩
  · exact absurd h.symm (Option.some_ne_none _)

theorem configured_step {after : OptWorld} {ds : List Directive} (h : Configured io w after ds)
    (d : Directive) (hio : (io ds.length).propFails = false) :
    Configured io w (parseCb after d (io ds.length)).1 (ds ++ [d]) := by
  have hwrites : (parseCb after d (io ds.length)).1.writes = w.writes ++ confWrites io (ds ++ [d]) := by
    rw [parseCb_writes, h.writes, confWrites_concat, List.append_assoc]
  cases hd : propSet d with
  | none =>
    obtain ⟨hstore, hcount⟩ := parseCb_silent after (io ds.length) hd
    have hsets : confSets (ds ++ [d]) = confSets ds := by
      rw [confSets_concat, hd, Option.toList_none, List.append_nil]
    refine ⟨?_, ?_, hwrites⟩
    · rw [hcount, hsets, h.count]
    · intro name
      rw [hstore, hsets, h.store]
  | some e =>
    obtain ⟨htakes, hfull⟩ := parseCb_sets after hio hd
    have hsets : confSets (ds ++ [d]) = confSets ds ++ [e] := by rw [confSets_concat, hd]; rfl
    by_cases hroom : (confSets ds).length < maxProps
    · have hused : after.opt.propCount = (confSets ds).length := by
        rw [h.count, min_eq_right hroom.le]
      obtain ⟨hstore, hcount⟩ := htakes (by rwa [hused])
      have hlen : (confSets ds ++ [e]).length ≤ maxProps := by
        rw [List.length_append, List.length_singleton]
        exact hroom
      refine ⟨?_, ?_, hwrites⟩
      · rw [hcount, hsets, hused, min_eq_right hlen, List.length_append, List.length_singleton]
      · intro name
        rw [hstore, hsets, List.take_of_length_le hlen, latest_concat]
        by_cases hname : e.1 = name
        · rw [if_pos hname, ← hname, Function.update_self]
          rfl
        · rw [if_neg hname, Function.update_of_ne (Ne.symm hname), h.store,
            List.take_of_length_le hroom.le]
    · have hge : maxProps ≤ (confSets ds).length := not_lt.mp hroom
      have hused : after.opt.propCount = maxProps := by rw [h.count, min_eq_left hge]
      have hkept := hfull hused.ge
      refine ⟨?_, ?_, hwrites⟩
      · rw [hkept, hused, hsets, min_eq_left]
        rw [List.length_append]
        omega
      · intro name
        rw [hkept, hsets, List.take_append_of_le_length hge, h.store]

theorem optRun_configured (hio : ∀ i, (io i).propFails = false) (hw : w.opt.propCount = 0)
    (ds : List Directive) : Configured io w (optRun io w ds) ds := by
  induction ds using List.reverseRecOn with
  | nil => exact configured_start hw
  | append_singleton ds d ih =>
    rw [optRun_concat]
    exact configured_step ih d (hio _)

end Effects

section Files

variable {cb : ConfCb}

def readsOf (chunks : List (List UInt8)) : Option ℕ+ → List (Except ℕ+ (List UInt8))
  | none => chunks.map .ok ++ [.ok []]
  | some errno => chunks.map .ok ++ [.error errno]

/-- The lines that reach the callback: an error loses the line it interrupts. -/
def linesRead (content : List UInt8) : Option ℕ+ → List (List UInt8)
  | none => content.splitOn 10
  | some _ => (content.splitOn 10).dropLast

def readRet : Option ℕ+ → ℤ
  | none => 0
  | some errno => -(errno : ℕ)

theorem dispatchLine_ret (hcb : ∀ before d, cb before d = 0) (st : ConfState) :
    (dispatchLine cb st).ret = 0 := by
  unfold dispatchLine
  split
  · rfl
  · dsimp only
    split
    · rfl
    · exact hcb _ _

theorem confByte_ret (hcb : ∀ before d, cb before d = 0) {st st' : ConfState} {c : UInt8}
    (hret : st.ret = 0) (h : confByte cb st c = .ok st') : st'.ret = 0 := by
  unfold confByte at h
  split at h
  · split at h
    · obtain rfl := Except.ok.inj h
      exact hret
    · have hline := dispatchLine_ret hcb st
      simp only [hline, lt_self_iff_false, ↓reduceIte, Except.ok.injEq] at h
      obtain rfl := h
      rfl
  · split at h
    · obtain rfl := Except.ok.inj h
      exact hret
    · split at h <;> obtain rfl := Except.ok.inj h <;> exact hret

theorem confBytes_ret (hcb : ∀ before d, cb before d = 0) {bytes : List UInt8}
    {st st' : ConfState} (hret : st.ret = 0) (h : bytes.foldlM (confByte cb) st = .ok st') :
    st'.ret = 0 := by
  induction bytes generalizing st with
  | nil =>
    obtain rfl : st = st' := by simpa [pure, Except.pure] using h
    exact hret
  | cons c bytes ih =>
    rw [List.foldlM_cons] at h
    cases hc : confByte cb st c with
    | error e => simp [hc, bind, Except.bind] at h
    | ok mid =>
      rw [hc] at h
      exact ih (confByte_ret hcb hret hc) h

theorem confParse_file (hcb : ∀ before d, cb before d = 0) (junk : LineBuf)
    {chunks : List (List UInt8)} (hne : ∀ bytes ∈ chunks, bytes ≠ []) (ending : Option ℕ+) :
    pgConfParse cb (.ok (readsOf chunks ending)) junk =
      (readRet ending, confDirectives (linesRead chunks.flatten ending)) := by
  have hpos : ∀ before d, 0 ≤ cb before d := fun before d => (hcb before d).ge
  obtain ⟨st, hrun, hlast, hcalls⟩ :=
    confBytes hpos (confStart_holds junk) List.not_mem_nil chunks.flatten
  rw [List.nil_append] at hlast hcalls
  have hstart : (confStart junk).calls = [] := rfl
  rw [hstart, List.nil_append] at hcalls
  have hret : st.ret = 0 := confBytes_ret hcb rfl hrun
  cases ending with
  | some errno =>
    have hloop := confLoop_chunks hne hrun [.error errno]
    rw [confLoop] at hloop
    simp only [pgConfParse, readsOf, hloop, hcalls, readRet, linesRead]
  | none =>
    have hloop := confLoop_chunks hne hrun [.ok []]
    rw [confLoop, if_pos rfl] at hloop
    have hwhole := List.dropLast_append_getLast (List.splitOn_ne_nil 10 chunks.flatten)
    have hend : (if st.skip then st else dispatchLine cb st).ret = 0 := by
      split
      · exact hret
      · exact dispatchLine_ret hcb st
    have hdone := confFinish hpos hlast
    rw [hcalls] at hdone
    simp only [pgConfParse, readsOf, hloop, hend, hdone, readRet, linesRead, Prod.mk.injEq,
      true_and]
    conv_rhs => rw [confDirectives, ← hwhole, List.filterMap_append]
    cases hd : lineDirective ((chunks.flatten.splitOn 10).getLast _) <;>
      simp [confDirectives, hd]

end Files

section Overrides

variable {fails : ℕ → Bool} {s : OptState} {name : List UInt8} {n i : ℕ}

structure FirstOverride (s : OptState) (name : List UInt8) (i : ℕ) : Prop where
  used : i < s.propCount
  modified : (s.props i).modified = true
  names : (s.props i).name = name
  first : ∀ j < i, (s.props j).modified = true → (s.props j).name ≠ name

theorem propCleanup_other {state : PropState} {fails : Bool} (store : PropStore)
    (h : state.modified = true → state.name ≠ name) :
    (pgPropCleanup store state fails).1 name = store name := by
  unfold pgPropCleanup
  split
  · next hmod =>
    have hne : name ≠ state.name := (h hmod).symm
    unfold pgPropReset systemPropertySet
    rw [if_neg (by simpa using hmod)]
    by_cases hset : state.val.1.length < propValueMax ∧ fails = false
    · simp only [dif_pos hset]
      exact Function.update_of_ne hne _ _
    · simp only [dif_neg hset]
  · rfl

theorem optExitLoop_other
    (h : ∀ j < n, (s.props j).modified = true → (s.props j).name ≠ name) :
    (optExitLoop fails n s).store name = s.store name := by
  induction n generalizing s with
  | zero => rfl
  | succ n ih =>
    rw [optExitLoop, ih]
    · exact propCleanup_other s.store (h n (Nat.lt_succ_self n))
    · intro j hj
      simp only [Function.update_of_ne hj.ne]
      exact h j (Nat.lt_succ_of_lt hj)

/-- The slots are undone from the newest on, so the oldest one to name a property has the last
word, whatever became of the others. -/
theorem optExitLoop_first (hi : i < n) (hmod : (s.props i).modified = true)
    (hname : (s.props i).name = name)
    (hfirst : ∀ j < i, (s.props j).modified = true → (s.props j).name ≠ name)
    (hfails : fails i = false) :
    (optExitLoop fails n s).store name = (s.props i).val := by
  induction n generalizing s with
  | zero => exact absurd hi (Nat.not_lt_zero i)
  | succ n ih =>
    have hkeep (state : PropState) (j : ℕ) (hj : j < n) :
        Function.update s.props n state j = s.props j := Function.update_of_ne hj.ne _ _
    rcases Nat.lt_succ_iff_lt_or_eq.mp hi with hlt | rfl
    · rw [optExitLoop, ih hlt]
      · simp only [hkeep _ i hlt]
      · simpa only [hkeep _ i hlt] using hmod
      · simpa only [hkeep _ i hlt] using hname
      · intro j hj
        simpa only [hkeep _ j (hj.trans hlt)] using hfirst j hj
    · rw [optExitLoop, optExitLoop_other]
      · simp only [propCleanup_store s.store fun _ => hfails, hmod, ↓reduceIte, ← hname,
          Function.update_self]
      · intro j hj
        simpa only [hkeep _ j hj] using hfirst j hj

theorem optExit_first {i : ℕ} (h : FirstOverride s name i) (hfails : fails i = false) :
    (pgOptExit fails s).store name = (s.props i).val :=
  optExitLoop_first h.used h.modified h.names h.first hfails

theorem optExit_agree (fails fails' : ℕ → Bool)
    (h : ∀ i, FirstOverride s name i → fails i = false ∧ fails' i = false) :
    (pgOptExit fails s).store name = (pgOptExit fails' s).store name := by
  classical
  by_cases hsome : ∃ i, i < s.propCount ∧ (s.props i).modified = true ∧ (s.props i).name = name
  · have hspec := Nat.find_spec hsome
    have hfirst : FirstOverride s name (Nat.find hsome) := by
      refine ⟨hspec.1, hspec.2.1, hspec.2.2, ?_⟩
      intro j hj hmod hname
      exact Nat.find_min hsome hj ⟨hj.trans hspec.1, hmod, hname⟩
    obtain ⟨htaken, htaken'⟩ := h _ hfirst
    rw [optExit_first hfirst htaken, optExit_first hfirst htaken']
  · have hnone : ∀ j < s.propCount, (s.props j).modified = true → (s.props j).name ≠ name :=
      fun j hj hmod hname => hsome ⟨j, hj, hmod, hname⟩
    unfold pgOptExit
    dsimp only
    rw [optExitLoop_other hnone, optExitLoop_other hnone]

end Overrides

section Undo

variable {io : ℕ → DirectiveIo} {w : OptWorld}

def undoOf (s : OptState) : PropStore := rollback s.store (slotLog s.props s.propCount)

theorem parseCb_undo (w : OptWorld) (d : Directive) (io : DirectiveIo) :
    undoOf (parseCb w d io).1.opt = undoOf w.opt := by
  unfold parseCb
  split
  · rfl
  · split
    · exact addProp_rollback w.opt _
    · rfl

theorem optRun_undo (ds : List Directive) : undoOf (optRun io w ds).opt = undoOf w.opt := by
  induction ds using List.reverseRecOn with
  | nil => rfl
  | append_singleton ds d ih => rw [optRun_concat, parseCb_undo, ih]

theorem undo_start (h : w.opt.propCount = 0) : undoOf w.opt = w.opt.store := by
  unfold undoOf
  rw [h]
  rfl

end Undo

theorem opt_file_read {io : ℕ → DirectiveIo} (hio : ∀ i, (io i).propFails = false) {w : OptWorld}
    (hw : w.opt.propCount = 0) (junk : LineBuf) {chunks : List (List UInt8)}
    (hne : ∀ bytes ∈ chunks, bytes ≠ []) (ending : Option ℕ+) :
    Configured io w (pgOptInitWorld io w (.ok (readsOf chunks ending)) junk).1
        (confDirectives (linesRead chunks.flatten ending)) ∧
      (pgOptInitWorld io w (.ok (readsOf chunks ending)) junk).2 =
        if readRet ending = -enoent then 0 else readRet ending := by
  have hcb : ∀ before d, optCb io w before d = 0 := fun before d => parseCb_ret _ _ _
  unfold pgOptInitWorld
  rw [confParse_file hcb junk hne ending]
  exact ⟨optRun_configured hio hw _, rfl⟩

theorem opt_file_undone (io : ℕ → DirectiveIo) {w : OptWorld} (hw : w.opt.propCount = 0)
    (file : Except ℕ+ (List (Except ℕ+ (List UInt8)))) (junk : LineBuf) {fails : ℕ → Bool}
    {name : List UInt8}
    (h : ∀ i, FirstOverride (pgOptInitWorld io w file junk).1.opt name i → fails i = false) :
    (pgOptExit fails (pgOptInitWorld io w file junk).1.opt).store name = w.opt.store name := by
  have hundo : undoOf (pgOptInitWorld io w file junk).1.opt = w.opt.store :=
    (optRun_undo _).trans (undo_start hw)
  rw [optExit_agree fails (fun _ => false) fun i hi => ⟨h i hi, rfl⟩, ← hundo]
  unfold pgOptExit
  exact congrFun (optExitLoop_store fun _ _ _ => rfl) name

section Examples

def bareLine : LineBuf := ⟨List.replicate 256 0, List.length_replicate⟩

def twiceSet : List (List UInt8) :=
  [keyProp ++ [97, 61, 49, 10] ++ keyProp, [97, 61, 50]]

theorem opt_file_read_twice :
    Configured (fun _ => quietIo) bareWorld
        (pgOptInitWorld (fun _ => quietIo) bareWorld (.ok (readsOf twiceSet none)) bareLine).1
        (confDirectives (linesRead twiceSet.flatten none)) ∧
      (pgOptInitWorld (fun _ => quietIo) bareWorld (.ok (readsOf twiceSet none)) bareLine).2 =
        if readRet none = -enoent then 0 else readRet none :=
  opt_file_read (fun _ => rfl) rfl bareLine (by decide) none

/-- The reset of the second override is refused, and the property has its old value all the
same. -/
theorem opt_file_undone_twice :
    (pgOptExit (fun i => i == 1) (pgOptInitWorld (fun _ => quietIo) bareWorld
        (.ok (readsOf twiceSet none)) bareLine).1.opt).store [97] = bareWorld.opt.store [97] := by
  apply opt_file_undone (fun _ => quietIo) rfl
  intro i hi
  have hfirst : i ≠ 1 := by
    rintro rfl
    exact hi.first 0 Nat.one_pos (by decide) (by decide)
  simpa using hfirst

end Examples

end Pgov
