import Pgov.Runs
import Pgov.SysfsCache
import Pgov.UndoLog

namespace Pgov

open Runs UndoLog

def enospc : ℤ := 28

def propNameMax : ℕ := 32
def propValueMax : ℕ := 92
def maxProps : ℕ := 64

abbrev PropValue := { v : List UInt8 // v.length < propValueMax }

abbrev PropStore := List UInt8 → PropValue

def emptyValue : PropValue := ⟨[], by decide⟩

def systemPropertyGet (store : PropStore) (name : List UInt8) : List UInt8 := (store name).1

/-- Fails when the store cannot hold the value, and whenever the environment says so. -/
def systemPropertySet (store : PropStore) (name val : List UInt8) (fails : Bool) :
    Option PropStore :=
  if h : val.length < propValueMax ∧ fails = false then
    some (Function.update store name ⟨val, h.1⟩)
  else none

structure PropState where
  name : List UInt8
  val : PropValue
  modified : Bool
  deriving DecidableEq

def pgPropStateInit (name : List UInt8) : PropState :=
  { name := name.take (propNameMax - 1), val := emptyValue, modified := false }

def slotValue (osVal : List UInt8) : PropValue :=
  ⟨osVal.take (propValueMax - 1), by
    have := List.length_take_le (propValueMax - 1) osVal
    simp only [propValueMax] at this ⊢
    omega⟩

def pgPropSet (store : PropStore) (state : PropState) (val : List UInt8) (fails : Bool) :
    PropStore × PropState × ℤ :=
  let osVal := systemPropertyGet store state.name
  if osVal.take propValueMax = val.take propValueMax then (store, state, 0)
  else
    let wasMod := state.modified
    let state :=
      if !state.modified then { state with val := slotValue osVal, modified := true } else state
    match systemPropertySet store state.name val fails with
    | none => (store, { state with modified := wasMod }, -eio)
    | some store => (store, state, 0)

def pgPropReset (store : PropStore) (state : PropState) (fails : Bool) :
    PropStore × PropState × ℤ :=
  if !state.modified then (store, state, 0)
  else
    match systemPropertySet store state.name state.val.1 fails with
    | none => (store, state, -eio)
    | some store => (store, { state with modified := false }, 0)

def pgPropCleanup (store : PropStore) (state : PropState) (fails : Bool) : PropStore × PropState :=
  let store := if state.modified then (pgPropReset store state fails).1 else store
  (store, { name := [], val := emptyValue, modified := false })

structure OptState where
  props : ℕ → PropState
  propCount : ℕ
  store : PropStore

/-- A `prop` directive with whether the store refuses the set it makes. -/
structure PropDirective where
  name : List UInt8
  val : List UInt8
  fails : Bool

def addProp (s : OptState) (d : PropDirective) : OptState × ℤ :=
  if s.propCount ≥ maxProps then (s, -enospc)
  else
    let (store, state, ret) := pgPropSet s.store (pgPropStateInit d.name) d.val d.fails
    let s := { s with props := Function.update s.props s.propCount state, store := store }
    if ret ≠ 0 then (s, ret) else ({ s with propCount := s.propCount + 1 }, 0)

def optExitLoop (fails : ℕ → Bool) : ℕ → OptState → OptState
  | 0, s => s
  | i + 1, s =>
    let (store, state) := pgPropCleanup s.store (s.props i) (fails i)
    optExitLoop fails i { s with props := Function.update s.props i state, store := store }

def pgOptExit (fails : ℕ → Bool) (s : OptState) : OptState :=
  { optExitLoop fails s.propCount s with propCount := 0 }

/-- The overrides the slots below `n` stand for, the newest first. -/
def slotLog (props : ℕ → PropState) : ℕ → List (List UInt8 × PropValue)
  | 0 => []
  | n + 1 =>
    if (props n).modified then ((props n).name, (props n).val) :: slotLog props n
    else slotLog props n

theorem slotLog_congr {props props' : ℕ → PropState} {n : ℕ} (h : ∀ i < n, props i = props' i) :
    slotLog props n = slotLog props' n := by
  induction n with
  | zero => rfl
  | succ n ih =>
    rw [slotLog, slotLog, h n (Nat.lt_succ_self n), ih (fun i hi => h i (Nat.lt_succ_of_lt hi))]

theorem slotLog_update (props : ℕ → PropState) (n : ℕ) (state : PropState) :
    slotLog (Function.update props n state) n = slotLog props n :=
  slotLog_congr fun i hi => Function.update_of_ne (by omega) _ _

theorem slotValue_get (store : PropStore) (name : List UInt8) :
    slotValue (systemPropertyGet store name) = store name := by
  have hlt := (store name).2
  apply Subtype.ext
  exact List.take_of_length_le (by simp only [systemPropertyGet, propValueMax] at *; omega)

theorem propSet_cases (store : PropStore) {state : PropState} (hmod : state.modified = false)
    (val : List UInt8) (fails : Bool) :
    (∃ state' ret, pgPropSet store state val fails = (store, state', ret) ∧
      state'.modified = false) ∨
    (∃ v, pgPropSet store state val fails = (Function.update store state.name v,
      { name := state.name, val := store state.name, modified := true }, 0)) := by
  simp only [pgPropSet, hmod, slotValue_get, Bool.not_false, ↓reduceIte]
  split
  · exact Or.inl ⟨_, _, rfl, hmod⟩
  · by_cases hset : val.length < propValueMax ∧ fails = false
    · rw [systemPropertySet, dif_pos hset]
      exact Or.inr ⟨_, rfl⟩
    · rw [systemPropertySet, dif_neg hset]
      exact Or.inl ⟨_, _, rfl, rfl⟩

theorem addProp_rollback (s : OptState) (d : PropDirective) :
    rollback (addProp s d).1.store (slotLog (addProp s d).1.props (addProp s d).1.propCount) =
      rollback s.store (slotLog s.props s.propCount) := by
  rw [addProp]
  split
  · rfl
  · have hfresh : (pgPropStateInit d.name).modified = false := rfl
    rcases propSet_cases s.store hfresh d.val d.fails with
      ⟨state, ret, he, hmod⟩ | ⟨v, he⟩
    · simp only [he]
      split
      · simp only [slotLog_update]
      · simp only [slotLog, Function.update_self, hmod, Bool.false_eq_true, ↓reduceIte,
          slotLog_update]
    · simp only [he, ne_eq, not_true_eq_false, ↓reduceIte, slotLog, Function.update_self,
        slotLog_update]
      exact rollback_override _ _ _ _

theorem propCleanup_store (store : PropStore) {state : PropState} {fails : Bool}
    (h : state.modified = true → fails = false) : (pgPropCleanup store state fails).1 =
      if state.modified then Function.update store state.name state.val else store := by
  cases hmod : state.modified with
  | false => simp [pgPropCleanup, hmod]
  | true =>
    have hset : state.val.1.length < propValueMax ∧ fails = false := ⟨state.val.2, h hmod⟩
    simp [pgPropCleanup, pgPropReset, hmod, systemPropertySet, hset]

theorem optExitLoop_store {fails : ℕ → Bool} {n : ℕ} {s : OptState}
    (h : ∀ i < n, (s.props i).modified = true → fails i = false) :
    (optExitLoop fails n s).store = rollback s.store (slotLog s.props n) := by
  induction n generalizing s with
  | zero => rfl
  | succ n ih =>
    rw [optExitLoop, ih, slotLog_update]
    · rw [propCleanup_store _ (h n (Nat.lt_succ_self n)), slotLog]
      split <;> rfl
    · intro i hi hmod
      have hne : i ≠ n := by omega
      simp only [Function.update_of_ne hne] at hmod
      exact h i (by omega) hmod

/-- The state before the first directive; the slots hold whatever an earlier run left in them. -/
def OptState.fresh (props : ℕ → PropState) (store : PropStore) : OptState :=
  { props, propCount := 0, store }

def addProps (s : OptState) (ds : List PropDirective) : OptState :=
  run (fun s d => (addProp s d).1) s ds

theorem addProps_rollback (s : OptState) (ds : List PropDirective) :
    rollback (addProps s ds).store (slotLog (addProps s ds).props (addProps s ds).propCount) =
      rollback s.store (slotLog s.props s.propCount) := by
  induction ds generalizing s with
  | nil => rfl
  | cons d ds ih => exact (ih (addProp s d).1).trans (addProp_rollback s d)

theorem props_restored (props : ℕ → PropState) (store : PropStore) (ds : List PropDirective)
    {fails : ℕ → Bool}
    (h : ∀ i < (addProps (OptState.fresh props store) ds).propCount,
      ((addProps (OptState.fresh props store) ds).props i).modified = true → fails i = false) :
    (pgOptExit fails (addProps (OptState.fresh props store) ds)).store = store := by
  rw [pgOptExit, optExitLoop_store h, addProps_rollback]
  rfl

theorem props_restored_twice :
    (pgOptExit (fun _ => false) (addProps (OptState.fresh (fun _ => pgPropStateInit [])
        (fun _ => ⟨[48], by decide⟩)) [⟨[97], [49], false⟩, ⟨[97], [48], false⟩])).store =
      fun _ => ⟨[48], by decide⟩ :=
  props_restored (fun _ => pgPropStateInit []) (fun _ => ⟨[48], by decide⟩)
    [⟨[97], [49], false⟩, ⟨[97], [48], false⟩] fun _ _ _ => rfl

end Pgov
