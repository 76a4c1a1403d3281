import Mathlib.Data.List.Basic

/-! # Properties along a run

A run takes the steps of a list one after another. `Along P s steps` says that `P` holds of each
step with the state in which it is taken. If a condition on the steps keeps an invariant, every run
whose steps meet the condition ends in a state with the invariant (`Along.invariant`), and what a
step does from such a state under the condition it does along the run (`Along.of_invariant`). -/

namespace Jolt.Lib.Runs

open List

variable {σ α : Type*} {step : σ → α → σ} {I : σ → Prop} {C P : σ → α → Prop} {s : σ}
  {steps : List α}

/-- `P` holds of each step with the state before it. -/
def Along (step : σ → α → σ) (P : σ → α → Prop) : σ → List α → Prop
  | _, [] => True
  | s, a :: steps => P s a ∧ Along step P (step s a) steps

instance Along.decidable [∀ s a, Decidable (P s a)] : ∀ (s : σ) (steps : List α), Decidable
    (Along step P s steps)
  | _, [] => inferInstanceAs (Decidable True)
  | s, a :: steps =>
    have := Along.decidable (step s a) steps
    inferInstanceAs (Decidable (P s a ∧ Along step P (step s a) steps))

theorem along_append {steps' : List α} : Along step P s (steps ++ steps') ↔
    Along step P s steps ∧ Along step P (steps.foldl step s) steps' := by
  induction steps generalizing s with
  | nil => simp [Along]
  | cons a steps ih => simp only [cons_append, Along, ih, foldl_cons, and_assoc]

/-- **A run that meets the condition keeps the invariant.** -/
theorem Along.invariant (hI : ∀ s a, I s → C s a → I (step s a)) (h : Along step C s steps)
    (hs : I s) :
    I (steps.foldl step s) := by
  induction steps generalizing s with
  | nil => exact hs
  | cons a steps ih => exact ih h.2 (hI s a hs h.1)

/-- **What one step does from a state with the invariant holds along the run.** -/
theorem Along.of_invariant (hI : ∀ s a, I s → C s a → I (step s a))
    (hP : ∀ s a, I s → C s a → P s a) (h : Along step C s steps) (hs : I s) :
    Along step P s steps := by
  induction steps generalizing s with
  | nil => trivial
  | cons a steps ih => exact ⟨hP s a hs h.1, ih h.2 (hI s a hs h.1)⟩

theorem along_iff {Q : σ → α → Prop} (hI : ∀ s a, I s → P s a → I (step s a))
    (hPQ : ∀ s a, I s → (P s a ↔ Q s a)) (hs : I s) :
    Along step P s steps ↔ Along step Q s steps := by
  induction steps generalizing s with
  | nil => exact Iff.rfl
  | cons a steps ih =>
    constructor
    · rintro ⟨hP, hrest⟩
      exact ⟨(hPQ s a hs).mp hP, (ih (hI s a hs hP)).mp hrest⟩
    · rintro ⟨hQ, hrest⟩
      have hP := (hPQ s a hs).mpr hQ
      exact ⟨hP, (ih (hI s a hs hP)).mpr hrest⟩

theorem along_true (steps : List α) : Along step (fun _ _ => True) s steps := by
  induction steps generalizing s with
  | nil => trivial
  | cons a steps ih => exact ⟨trivial, ih⟩

theorem along_of_forall_mem {Q : α → Prop} (h : ∀ a ∈ steps, Q a) :
    Along step (fun _ a => Q a) s steps := by
  induction steps generalizing s with
  | nil => trivial
  | cons a steps ih =>
    exact ⟨h a mem_cons_self, ih fun b hb => h b (mem_cons_of_mem a hb)⟩

theorem Along.and (h : Along step C s steps) (h' : Along step P s steps) :
    Along step (fun s a => C s a ∧ P s a) s steps := by
  induction steps generalizing s with
  | nil => trivial
  | cons a steps ih => exact ⟨⟨h.1, h'.1⟩, ih h.2 h'.2⟩

end Jolt.Lib.Runs
