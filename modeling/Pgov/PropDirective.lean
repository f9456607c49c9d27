import Pgov.OptDirectives

namespace Pgov

/-- The directive has set the property it names and nothing else, and its slot gives exactly that
property back. -/
structure ActsOn (before after : OptState) (name val : List UInt8) : Prop where
  value : (after.store name).1 = val
  others : ∀ other, other ≠ name → after.store other = before.store other
  count : after.propCount = before.propCount + 1
  restores : ∀ store, (pgPropCleanup store (after.props before.propCount) false).1 =
    if (after.props before.propCount).modified then Function.update store name (before.store name)
    else store

def slotName (name : List UInt8) : List UInt8 := name.take 31

/-- The name fits its slot, or the property already has the value and so has the one that the slot
names instead. -/
def NamesProperty (before : OptState) (name val : List UInt8) : Prop :=
  name.length ≤ 31 ∨
    (before.store name).1 = val ∧ (before.store (slotName name)).1 = val

section Slot

variable {s : OptState} {name val : List UInt8}

theorem stored_eq_iff (store : PropStore) (name : List UInt8) (hval : val.length < propValueMax) :
    (systemPropertyGet store name).take propValueMax = val.take propValueMax ↔
      (store name).1 = val := by
  have hstored := (store name).2
  rw [systemPropertyGet, List.take_of_length_le hstored.le, List.take_of_length_le hval.le]

theorem addProp_same (hcount : s.propCount < maxProps) (hval : val.length < propValueMax)
    (hsame : (s.store (slotName name)).1 = val) :
    (addProp s ⟨name, val, false⟩).1 =
      { props := Function.update s.props s.propCount (pgPropStateInit name)
        propCount := s.propCount + 1, store := s.store } := by
  have hset : pgPropSet s.store (pgPropStateInit name) val false =
      (s.store, pgPropStateInit name, 0) := by
    rw [pgPropSet]
    exact if_pos ((stored_eq_iff s.store (slotName name) hval).mpr hsame)
  rw [addProp, if_neg (not_le.mpr hcount)]
  simp only [hset, ne_eq, not_true_eq_false, ↓reduceIte]

theorem addProp_set (hcount : s.propCount < maxProps) (hval : val.length < propValueMax)
    (hnew : (s.store (slotName name)).1 ≠ val) :
    (addProp s ⟨name, val, false⟩).1 =
      { props := Function.update s.props s.propCount
          { name := slotName name, val := s.store (slotName name), modified := true }
        propCount := s.propCount + 1
        store := Function.update s.store (slotName name) ⟨val, hval⟩ } := by
  have hset : pgPropSet s.store (pgPropStateInit name) val false =
      (Function.update s.store (slotName name) ⟨val, hval⟩,
        { name := slotName name, val := s.store (slotName name), modified := true }, 0) := by
    have hdiff := mt (stored_eq_iff s.store (slotName name) hval).mp hnew
    have hstore : systemPropertySet s.store (slotName name) val false =
        some (Function.update s.store (slotName name) ⟨val, hval⟩) := dif_pos ⟨hval, rfl⟩
    rw [pgPropSet]
    have hname : (pgPropStateInit name).name = slotName name := rfl
    have hmod : (pgPropStateInit name).modified = false := rfl
    simp only [hname, hdiff, hmod, ↓reduceIte, Bool.not_false, hstore, slotValue_get]
  rw [addProp, if_neg (not_le.mpr hcount)]
  simp only [hset, ne_eq, not_true_eq_false, ↓reduceIte]

theorem cleanup_fresh (store : PropStore) (name : List UInt8) :
    (pgPropCleanup store (pgPropStateInit name) false).1 = store := rfl

theorem slotName_of_short (h : name.length ≤ 31) : slotName name = name :=
  List.take_of_length_le h

theorem slotName_ne (h : 31 < name.length) : slotName name ≠ name := by
  intro heq
  have hlen := congrArg List.length heq
  rw [slotName, List.length_take] at hlen
  omega

theorem actsOn_of_names (hcount : s.propCount < maxProps) (hval : val.length < propValueMax)
    (h : NamesProperty s name val) :
    ActsOn s (addProp s ⟨name, val, false⟩).1 name val := by
  have hslot : (s.store (slotName name)).1 = val → (s.store name).1 = val := by
    rcases h with hshort | ⟨hname, -⟩
    · rw [slotName_of_short hshort]
      exact id
    · exact fun _ => hname
  by_cases hsame : (s.store (slotName name)).1 = val
  · rw [addProp_same hcount hval hsame]
    refine ⟨hslot hsame, fun _ _ => rfl, rfl, ?_⟩
    intro store
    simp only [Function.update_self]
    exact cleanup_fresh store name
  · have hshort : name.length ≤ 31 := h.resolve_right fun h => hsame h.2
    have hname := slotName_of_short hshort
    rw [addProp_set hcount hval hsame, hname]
    refine ⟨?_, ?_, rfl, ?_⟩
    · simp only [Function.update_self]
    · intro other hne
      exact Function.update_of_ne hne _ _
    · intro store
      simp only [Function.update_self]
      exact propCleanup_store store fun _ => rfl

theorem names_of_actsOn (hcount : s.propCount < maxProps) (hval : val.length < propValueMax)
    (h : ActsOn s (addProp s ⟨name, val, false⟩).1 name val) : NamesProperty s name val := by
  rcases Nat.lt_or_ge 31 name.length with hlong | hshort
  · right
    by_cases hsame : (s.store (slotName name)).1 = val
    · refine ⟨?_, hsame⟩
      have hvalue := h.value
      rwa [addProp_same hcount hval hsame] at hvalue
    · -- the property the slot names instead has changed
      have hother := h.others (slotName name) (slotName_ne hlong)
      rw [addProp_set hcount hval hsame] at hother
      simp only [Function.update_self] at hother
      exact absurd (congrArg Subtype.val hother).symm hsame
  · exact Or.inl hshort

end Slot

theorem prop_line_iff {io : ℕ → DirectiveIo} {w : OptWorld} {st : ConfState}
    {l name val : List UInt8} (h : st.Holds l) (hl : l.length ≤ 255)
    (hd : lineDirective l = some (keyProp ++ name, val)) (hval : val.length < propValueMax)
    (hcount : (optRun io w st.calls).opt.propCount < maxProps)
    (hset : (io st.calls.length).propFails = false) :
    ActsOn (optRun io w st.calls).opt (optRun io w (dispatchLine (optCb io w) st).calls).opt
        name val ↔
      name.length ≤ 31 ∨ ((optRun io w st.calls).opt.store name).1 = val ∧
        ((optRun io w st.calls).opt.store (name.take 31)).1 = val := by
  rw [optRun_line h hl hd, parseCb_prop, hset]
  exact ⟨names_of_actsOn hcount hval, actsOn_of_names hcount hval⟩

section Examples

def bareWorld : OptWorld :=
  { opt := OptState.fresh (fun _ => pgPropStateInit []) fun _ => emptyValue, writes := [] }

def quietIo : DirectiveIo :=
  { write := ⟨.error (Nat.toPNat' 2), .wrote 0⟩, propFails := false }

def shortLine : LineBuf :=
  ⟨keyProp ++ [97, 61, 49] ++ List.replicate 248 0, by
    rw [List.length_append, List.length_replicate]
    rfl⟩

theorem prop_line_short :
    let st : ConfState :=
      { line := shortLine, lPos := 8, skip := false, ret := 0, calls := [] }
    ActsOn bareWorld.opt
        (optRun (fun _ => quietIo) bareWorld
          (dispatchLine (optCb (fun _ => quietIo) bareWorld) st).calls).opt [97] [49] ↔
      [(97 : UInt8)].length ≤ 31 ∨ (bareWorld.opt.store [97]).1 = [49] ∧
        (bareWorld.opt.store ([97].take 31)).1 = [49] := by
  intro st
  have hholds : st.Holds (keyProp ++ [97, 61, 49]) :=
    ⟨fun _ => rfl, fun _ => rfl, fun _ => by decide, fun hlong => absurd hlong (by decide)⟩
  exact prop_line_iff hholds (by decide) (by decide) (by decide) (by decide) rfl

theorem prop_line_truncated :
    let name : List UInt8 := List.replicate 32 97
    let line := keyProp ++ name ++ [61, 49]
    let after := (pgOptInitWorld (fun _ => quietIo) bareWorld (.ok [.ok line, .ok []])
      ⟨List.replicate 256 0, List.length_replicate⟩).1.opt
    line.length ≤ 255 ∧ (after.store name).1 = [] ∧ (after.store (name.take 31)).1 = [49] ∧
      (after.props 0).name = name.take 31 ∧ after.propCount = 1 := by
  decide

end Examples

end Pgov
