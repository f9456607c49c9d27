import Pgov.Runs

namespace Pgov.Exclusion

open Runs

/-- A party that shares a resource under a lock: what a step makes of itself and of the resource, told
whether the lock can be taken, and whether it holds the lock. -/
structure Party (π ρ ε : Type*) where
  step : Bool → π → ρ → ε → π × ρ
  holds : π → Bool

structure System (κ π ρ : Type*) where
  party : κ → π
  resource : ρ
  holder : Option κ

variable {κ π ρ ε : Type*} [DecidableEq κ]

def System.step (P : Party π ρ ε) (s : System κ π ρ) (e : κ × ε) : System κ π ρ :=
  let (p, r) := P.step s.holder.isNone (s.party e.1) s.resource e.2
  { party := Function.update s.party e.1 p
    resource := r
    holder := if P.holds p then some e.1 else if s.holder = some e.1 then none else s.holder }

/-- What a party has to keep to, by itself: outside the lock it leaves the resource alone, and it
gives the lock back only with the resource at home. -/
structure Contract (P : Party π ρ ε) (A : π → ε → Prop) (Home : ρ → Prop) (In : π → ρ → Prop)
    (Out : π → Prop) : Prop where
  apart : ∀ p, Out p → P.holds p = false
  waits : ∀ p r e, Out p → A p e → (P.step false p r e).2 = r ∧ Out (P.step false p r e).1
  takes : ∀ p r e, Out p → A p e → Home r → (P.step true p r e).2 = r ∧
    (Out (P.step true p r e).1 ∨
      P.holds (P.step true p r e).1 = true ∧ In (P.step true p r e).1 r)
  works : ∀ p r e, In p r → A p e →
    P.holds (P.step false p r e).1 = true ∧ In (P.step false p r e).1 (P.step false p r e).2 ∨
      Out (P.step false p r e).1 ∧ Home (P.step false p r e).2

/-- The holder is inside and everyone else outside, and a free resource is at home. -/
structure Sound (P : Party π ρ ε) (Home : ρ → Prop) (In : π → ρ → Prop) (Out : π → Prop)
    (s : System κ π ρ) : Prop where
  out : ∀ k, s.holder ≠ some k → Out (s.party k)
  holding : ∀ k, s.holder = some k → P.holds (s.party k) = true ∧ In (s.party k) s.resource
  free : s.holder = none → Home s.resource

section Rule

variable {P : Party π ρ ε} {A : π → ε → Prop} {Home : ρ → Prop} {In : π → ρ → Prop} {Out : π → Prop}
  {s : System κ π ρ} {e : κ × ε}

theorem Sound.stays (h : Sound P Home In Out s) (hk : s.holder ≠ some e.1) {p : π} (hp : Out p) :
    Sound P Home In Out { s with party := Function.update s.party e.1 p } := by
  constructor
  · intro k hfree
    by_cases hke : k = e.1
    · simp only [hke, Function.update_self]
      exact hp
    · simp only [Function.update_of_ne hke]
      exact h.out k hfree
  · intro k hholds
    have hke : k ≠ e.1 := fun hke => hk (hke ▸ hholds)
    simp only [Function.update_of_ne hke]
    exact h.holding k hholds
  · exact h.free

theorem Sound.enters (h : Sound P Home In Out s) (hk : ∀ k, k ≠ e.1 → s.holder ≠ some k) {p : π} {r : ρ}
    (hp : P.holds p = true ∧ In p r) :
    Sound P Home In Out ⟨Function.update s.party e.1 p, r, some e.1⟩ := by
  constructor
  · intro k hne
    have hke : k ≠ e.1 := fun hke => hne (congrArg some hke.symm)
    simp only [Function.update_of_ne hke]
    exact h.out k (hk k hke)
  · intro k hk
    obtain rfl := Option.some.inj hk
    simp only [Function.update_self]
    exact hp
  · exact fun hnone => absurd hnone (Option.some_ne_none _)

theorem Sound.leaves (h : Sound P Home In Out s) (hk : s.holder = some e.1) {p : π} {r : ρ} (hp : Out p)
    (hr : Home r) : Sound P Home In Out ⟨Function.update s.party e.1 p, r, none⟩ := by
  constructor
  · intro k _
    by_cases hke : k = e.1
    · simp only [hke, Function.update_self]
      exact hp
    · simp only [Function.update_of_ne hke]
      apply h.out k
      rw [hk]
      exact fun heq => hke (Option.some.inj heq).symm
  · exact fun k hnone => absurd hnone.symm (Option.some_ne_none k)
  · exact fun _ => hr

theorem Contract.step (h : Contract P A Home In Out) (hs : Sound P Home In Out s)
    (hA : A (s.party e.1) e.2) : Sound P Home In Out (s.step P e) := by
  unfold System.step
  by_cases hk : s.holder = some e.1
  · have hwork := h.works _ s.resource e.2 (hs.holding e.1 hk).2 hA
    rw [hk, Option.isNone_some]
    generalize P.step false (s.party e.1) s.resource e.2 = out at hwork ⊢
    obtain ⟨p, r⟩ := out
    rcases hwork with ⟨hholds, hin⟩ | ⟨hout, hhome⟩
    · simp only at hholds ⊢
      rw [if_pos hholds]
      apply hs.enters _ ⟨hholds, hin⟩
      intro k hne hother
      exact hne (Option.some.inj (hother.symm.trans hk))
    · have hfree : P.holds p = false := h.apart p hout
      simp only [hfree, Bool.false_eq_true, if_false, if_true]
      exact hs.leaves hk hout hhome
  · have hstay {p : π} (hout : Out p) : Sound P Home In Out
        ⟨Function.update s.party e.1 p, s.resource,
          if P.holds p then some e.1 else if s.holder = some e.1 then none else s.holder⟩ := by
      rw [if_neg (by simp [h.apart p hout]), if_neg hk]
      exact hs.stays hk hout
    cases hfree : s.holder.isNone with
    | true =>
      have hnone := Option.isNone_iff_eq_none.mp hfree
      obtain ⟨hsame, htake⟩ := h.takes _ s.resource e.2 (hs.out e.1 hk) hA (hs.free hnone)
      generalize P.step true (s.party e.1) s.resource e.2 = out at hsame htake ⊢
      obtain ⟨p, r⟩ := out
      obtain rfl : r = s.resource := hsame
      rcases htake with hout | hin
      · exact hstay hout
      · simp only at hin ⊢
        rw [if_pos hin.1]
        exact hs.enters (fun k _ => by simp [hnone]) hin
    | false =>
      obtain ⟨hsame, hout⟩ := h.waits _ s.resource e.2 (hs.out e.1 hk) hA
      generalize P.step false (s.party e.1) s.resource e.2 = out at hsame hout ⊢
      obtain ⟨p, r⟩ := out
      obtain rfl : r = s.resource := hsame
      exact hstay hout

/-- Parties that each keep to the contract share the resource soundly, however they interleave. -/
theorem Contract.run (h : Contract P A Home In Out) (hs : Sound P Home In Out s) {es : List (κ × ε)}
    (hA : Along (System.step P) (fun s e => A (s.party e.1) e.2) s es) :
    Sound P Home In Out (run (System.step P) s es) :=
  run_invariant (fun _ _ hs hA => h.step hs hA) hs hA

theorem Contract.exclusive (h : Contract P A Home In Out) (hs : Sound P Home In Out s) {j k : κ}
    (hj : P.holds (s.party j) = true) (hk : P.holds (s.party k) = true) : j = k := by
  have hholder (i : κ) (hi : P.holds (s.party i) = true) : s.holder = some i := by
    by_contra hne
    rw [h.apart _ (hs.out i hne)] at hi
    exact absurd hi (by simp)
  exact Option.some.inj ((hholder j hj).symm.trans (hholder k hk))

theorem Contract.guarded (h : Contract P A Home In Out) (hs : Sound P Home In Out s)
    (hA : A (s.party e.1) e.2) (hk : s.holder ≠ some e.1) : (s.step P e).resource = s.resource := by
  unfold System.step
  cases hfree : s.holder with
  | none => exact (h.takes _ s.resource e.2 (hs.out e.1 hk) hA (hs.free hfree)).1
  | some j => exact (h.waits _ s.resource e.2 (hs.out e.1 hk) hA).1

end Rule

end Pgov.Exclusion
