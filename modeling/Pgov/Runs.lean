import Mathlib.Tactic

namespace Pgov.Runs

variable {σ ι : Type*}

def run (step : σ → ι → σ) (s : σ) (is : List ι) : σ := is.foldl step s

@[simp] theorem run_nil (step : σ → ι → σ) (s : σ) : run step s [] = s := rfl

@[simp] theorem run_cons (step : σ → ι → σ) (s : σ) (i : ι) (is : List ι) :
    run step s (i :: is) = run step (step s i) is := rfl

theorem run_append (step : σ → ι → σ) (s : σ) (is js : List ι) :
    run step s (is ++ js) = run step (run step s is) js := List.foldl_append

/-- `P` holds of the state before each step of a run and the input that step takes. -/
def Along (step : σ → ι → σ) (P : σ → ι → Prop) : σ → List ι → Prop
  | _, [] => True
  | s, i :: is => P s i ∧ Along step P (step s i) is

instance decidableAlong (step : σ → ι → σ) (P : σ → ι → Prop) [∀ s i, Decidable (P s i)] :
    ∀ s is, Decidable (Along step P s is)
  | _, [] => .isTrue trivial
  | s, i :: is =>
    letI := decidableAlong step P (step s i) is
    inferInstanceAs (Decidable (P s i ∧ Along step P (step s i) is))

section Rules

variable {step : σ → ι → σ} {P Q : σ → ι → Prop} {Inv : σ → Prop}

@[simp] theorem along_nil (s : σ) : Along step P s [] := trivial

@[simp] theorem along_cons (s : σ) (i : ι) (is : List ι) :
    Along step P s (i :: is) ↔ P s i ∧ Along step P (step s i) is := Iff.rfl

theorem along_append (s : σ) (is js : List ι) :
    Along step P s (is ++ js) ↔ Along step P s is ∧ Along step P (run step s is) js := by
  induction is generalizing s with
  | nil => simp
  | cons i is ih => simp only [List.cons_append, along_cons, ih, run_cons, and_assoc]

theorem run_invariant (hstep : ∀ s i, Inv s → P s i → Inv (step s i)) {s : σ} (hs : Inv s)
    {is : List ι} (hP : Along step P s is) : Inv (run step s is) := by
  induction is generalizing s with
  | nil => exact hs
  | cons i is ih => exact ih (hstep s i hs hP.1) hP.2

theorem along_of_invariant (hstep : ∀ s i, Inv s → P s i → Inv (step s i))
    (hQ : ∀ s i, Inv s → P s i → Q s i) {s : σ} (hs : Inv s) {is : List ι}
    (hP : Along step P s is) : Along step Q s is := by
  induction is generalizing s with
  | nil => trivial
  | cons i is ih => exact ⟨hQ s i hs hP.1, ih (hstep s i hs hP.1) hP.2⟩

theorem along_of_forall (h : ∀ s i, P s i) (s : σ) (is : List ι) : Along step P s is := by
  induction is generalizing s with
  | nil => trivial
  | cons i is ih => exact ⟨h s i, ih _⟩

theorem along_of_mem {A : ι → Prop} {is : List ι} (h : ∀ i ∈ is, A i) (s : σ) :
    Along step (fun _ i => A i) s is := by
  induction is generalizing s with
  | nil => trivial
  | cons i is ih => exact ⟨h i (by simp), ih (fun j hj => h j (List.mem_cons_of_mem _ hj)) _⟩

theorem along_and {s : σ} {is : List ι} :
    Along step (fun s i => P s i ∧ Q s i) s is ↔ Along step P s is ∧ Along step Q s is := by
  induction is generalizing s with
  | nil => simp
  | cons i is ih =>
    simp only [along_cons, ih]
    exact and_and_and_comm

theorem along_congr_of_along {A : σ → ι → Prop} (hstep : ∀ s i, Inv s → A s i → Inv (step s i))
    (hPQ : ∀ s i, Inv s → A s i → (P s i ↔ Q s i)) {s : σ} (hs : Inv s) {is : List ι}
    (hA : Along step A s is) : Along step P s is ↔ Along step Q s is := by
  induction is generalizing s with
  | nil => rfl
  | cons i is ih =>
    rw [along_cons, along_cons, hPQ s i hs hA.1, ih (hstep s i hs hA.1) hA.2]

end Rules

section Traces

variable {ε : Type*} {P : List ε → ε → Prop} {t : List ε} {e : ε}

/-- `P` holds of each event of a trace and the events before it. -/
def Judged (P : List ε → ε → Prop) (t : List ε) : Prop :=
  ∀ before e after, t = before ++ e :: after → P before e

theorem judged_nil : Judged P ([] : List ε) := by
  intro before e after h
  exact absurd h (by simp)

theorem Judged.concat (h : Judged P t) (he : P t e) : Judged P (t ++ [e]) := by
  intro before d after heq
  rcases List.eq_nil_or_concat' after with rfl | ⟨after, last, rfl⟩
  · obtain ⟨rfl, rfl⟩ := List.append_singleton_inj.mp heq
    exact he
  · rw [← List.cons_append, ← List.append_assoc] at heq
    obtain ⟨rfl, -⟩ := List.append_singleton_inj.mp heq
    exact h before d after rfl

theorem Judged.append (h : Judged P t) {ev : List ε} (hev : ∀ e ∈ ev, ∀ before, P before e) :
    Judged P (t ++ ev) := by
  induction ev using List.reverseRecOn with
  | nil => rwa [List.append_nil]
  | append_singleton ev e ih =>
    rw [← List.append_assoc]
    apply Judged.concat
    · exact ih fun d hd => hev d (List.mem_append_left _ hd)
    · exact hev e (by simp) _

/-- Each event of a trace that satisfies `P` is followed at once by one that satisfies `Q`. -/
def Followed (P Q : ε → Prop) (t : List ε) : Prop :=
  ∀ before e after, t = before ++ e :: after → P e → ∃ e' rest, after = e' :: rest ∧ Q e'

section Followed

variable {P Q : ε → Prop}

theorem followed_of_forall (h : ∀ e ∈ t, ¬P e) : Followed P Q t := by
  intro before e after heq hP
  exact absurd hP (h e (by simp [heq]))

theorem followed_pair {e' : ε} (he : Q e') (he' : ¬P e') : Followed P Q [e, e'] := by
  intro before d after heq hP
  cases before with
  | nil =>
    obtain ⟨-, rfl⟩ := List.cons.inj heq
    exact ⟨e', [], rfl, he⟩
  | cons b before =>
    have hmem : d ∈ [e'] := by
      rw [(List.cons.inj heq).2]
      simp
    exact absurd (List.mem_singleton.mp hmem ▸ hP) he'

theorem Followed.append (h : Followed P Q t) {ev : List ε} (hev : Followed P Q ev) :
    Followed P Q (t ++ ev) := by
  intro before e after heq hP
  rcases List.append_eq_append_iff.mp heq with ⟨mid, rfl, hmid⟩ | ⟨mid, hmid, htail⟩
  · exact hev mid e after hmid hP
  cases mid with
  | nil =>
    rw [List.nil_append] at htail
    exact hev [] e after htail.symm hP
  | cons b mid =>
    obtain ⟨rfl, rfl⟩ := List.cons.inj htail
    obtain ⟨e', rest, rfl, hQ⟩ := h before _ mid hmid hP
    exact ⟨e', rest ++ ev, rfl, hQ⟩

end Followed

end Traces

end Pgov.Runs
