import Mathlib.Data.List.Induction

/-!
# Runs of a step function

A run folds a step function over a list of inputs. `Along` says that each input meets a
condition in the state it finds; what one step keeps under that condition, the run keeps.
-/

namespace Splinterm.Lib

variable {σ ι : Type} {step : σ → ι → σ} {s : σ} {inputs : List ι}

/-- Every input meets the condition in the state before it. -/
def Along (step : σ → ι → σ) (cond : σ → ι → Prop) : List ι → σ → Prop
  | [], _ => True
  | i :: is, s => cond s i ∧ Along step cond is (step s i)

instance Along.decidable {cond : σ → ι → Prop} [∀ s i, Decidable (cond s i)] :
    (inputs : List ι) → (s : σ) → Decidable (Along step cond inputs s)
  | [], _ => isTrue trivial
  | i :: is, s =>
    have : Decidable (Along step cond is (step s i)) := Along.decidable is (step s i)
    inferInstanceAs (Decidable (cond s i ∧ Along step cond is (step s i)))

/-- What a step keeps under the condition holds at the end of the run. -/
theorem Along.foldl {cond : σ → ι → Prop} (inv : σ → Prop)
    (hstep : ∀ s i, inv s → cond s i → inv (step s i)) (hs : inv s)
    (h : Along step cond inputs s) : inv (inputs.foldl step s) := by
  induction inputs generalizing s with
  | nil => exact hs
  | cons i is ih => exact ih (hstep s i hs h.1) h.2

theorem snoc_split {α : Type} {l before after : List α} {a b : α} (h : l ++ [a] = before ++ b :: after) :
    (before = l ∧ b = a) ∨ ∃ after', l = before ++ b :: after' := by
  rcases List.eq_nil_or_concat after with rfl | ⟨after', c, rfl⟩
  · obtain ⟨rfl, hb⟩ := List.append_inj' h rfl
    exact .inl ⟨rfl, (List.cons.inj hb).1.symm⟩
  · rw [List.concat_eq_append, ← List.cons_append, ← List.append_assoc] at h
    exact .inr ⟨after', (List.append_inj' h rfl).1⟩

end Splinterm.Lib
