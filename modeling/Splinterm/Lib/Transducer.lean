import Splinterm.Lib.Hoare

/-!
# Transducers that may fail

A transducer reads one input at a time and emits a list of outputs for it. States that look
alike emit the same outputs for every input and go on looking alike; a run then cannot tell
them apart.
-/

namespace Splinterm.Lib.Transducer

open Splinterm.Lib.Hoare

variable {σ ι ο ε : Type} {step : σ → ι → Except ε (σ × List ο)} {s t : σ}

/-- The state after all inputs and everything emitted on the way. -/
def run (step : σ → ι → Except ε (σ × List ο)) : σ → List ι → Except ε (σ × List ο)
  | s, [] => .ok (s, [])
  | s, i :: rest => do
    let (s, out) ← step s i
    let (s, more) ← run step s rest
    pure (s, out ++ more)

theorem run_cons {i : ι} {rest : List ι} {out more : List ο} {u : σ} (hstep : step s i = .ok (t, out))
    (hrun : run step t rest = .ok (u, more)) : run step s (i :: rest) = .ok (u, out ++ more) := by
  rw [run, hstep]
  show (do let (s, more) ← run step t rest; pure (s, out ++ more)) = _
  rw [hrun]
  rfl

theorem run_append {xs ys : List ι} {out more : List ο} {u : σ} (hfirst : run step s xs = .ok (t, out))
    (hsecond : run step t ys = .ok (u, more)) : run step s (xs ++ ys) = .ok (u, out ++ more) := by
  induction xs generalizing s out with
  | nil =>
    cases hfirst
    exact hsecond
  | cons i rest ih =>
    obtain ⟨⟨s', first⟩, hstep, hrest⟩ := bind_eq_ok.mp hfirst
    obtain ⟨⟨t', later⟩, hrun, hpure⟩ := bind_eq_ok.mp hrest
    cases hpure
    rw [List.append_assoc]
    exact run_cons hstep (ih hrun)

/-- What a step keeps, and never fails under, a run keeps. -/
theorem exists_run (inv : σ → Prop)
    (hstep : ∀ s i, inv s → ∃ t out, step s i = .ok (t, out) ∧ inv t) (h : inv s) (xs : List ι) :
    ∃ t out, run step s xs = .ok (t, out) ∧ inv t := by
  induction xs generalizing s with
  | nil => exact ⟨s, [], rfl, h⟩
  | cons i rest ih =>
    obtain ⟨t, out, ht, hinv⟩ := hstep s i h
    obtain ⟨u, more, hu, hend⟩ := ih hinv
    exact ⟨u, out ++ more, run_cons ht hu, hend⟩

/-- States that look alike emit the same outputs. -/
def Simulates (step : σ → ι → Except ε (σ × List ο)) (alike : σ → σ → Prop) : Prop :=
  ∀ s t i s' out, alike s t → step s i = .ok (s', out) → ∃ t', step t i = .ok (t', out) ∧ alike s' t'

theorem Simulates.run {alike : σ → σ → Prop} (h : Simulates step alike) {xs : List ι} {s' : σ}
    {out : List ο} (halike : alike s t) (hrun : run step s xs = .ok (s', out)) :
    ∃ t', run step t xs = .ok (t', out) ∧ alike s' t' := by
  induction xs generalizing s t out with
  | nil =>
    cases hrun
    exact ⟨t, rfl, halike⟩
  | cons i rest ih =>
    obtain ⟨⟨s₁, first⟩, hstep, hrest⟩ := bind_eq_ok.mp hrun
    obtain ⟨⟨s₂, later⟩, hmore, hpure⟩ := bind_eq_ok.mp hrest
    cases hpure
    obtain ⟨t₁, ht, halike⟩ := h s t i s₁ first halike hstep
    obtain ⟨t₂, ht₂, hend⟩ := ih halike hmore
    exact ⟨t₂, run_cons ht ht₂, hend⟩

end Splinterm.Lib.Transducer
