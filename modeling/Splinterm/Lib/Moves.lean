import Mathlib.Logic.Relation
import Splinterm.Lib.Hoare

/-!
# What a computation may do

A step relation says what one primitive update may do to a state. A computation moves from a state
when it ends where some number of steps leads, whether it returns or stops with an error somebody
catches. The rules below follow the combinators, so a computation is shown to move by going through
its text once, and every invariant of the steps is then an invariant of the computation.
-/

namespace Splinterm.Lib.Hoare

open Relation

variable {ε σ τ α β : Type}

/-- Where `m` leaves `s` when it returns, or stops with an error that is caught. -/
def Moves (step : σ → σ → Prop) (caught : ε → Prop) (m : EStateM ε σ α) (s : σ) : Prop :=
  wp m (fun _ s' => ReflTransGen step s s') (fun e s' => caught e → ReflTransGen step s s') s

namespace Moves

variable {step : σ → σ → Prop} {caught : ε → Prop} {s s' : σ} {m : EStateM ε σ α}

theorem of_ok {a : α} (h : Moves step caught m s) (hrun : m s = .ok a s') : ReflTransGen step s s' := by
  have hsteps := wp_of_ok h hrun
  exact hsteps

/-- What every step keeps, the computation keeps. -/
theorem keeps {inv : σ → Prop} (h : Moves step caught m s) {a : α} (hrun : m s = .ok a s')
    (hstep : ∀ u v, step u v → inv u → inv v) (hs : inv s) : inv s' := by
  have hsteps := h.of_ok hrun
  clear hrun
  induction hsteps with
  | refl => exact hs
  | tail _ hlast ih => exact hstep _ _ hlast ih

/-- A computation none of whose errors is caught is looked at where it returns. -/
theorem of_runs (h : ∀ a s', m s = .ok a s' → step s s') : Moves step (fun _ => False) m s := by
  rw [Moves, wp]
  cases hrun : m s with
  | ok a s' => exact .single (h a s' hrun)
  | error e s' => exact fun hfalse => hfalse.elim

theorem pure (a : α) : Moves step caught (pure a : EStateM ε σ α) s := ReflTransGen.refl

theorem throw (e : ε) : Moves step caught (throw e : EStateM ε σ α) s := fun _ => ReflTransGen.refl

theorem set (h : step s s') : Moves step caught (set s' : EStateM ε σ PUnit) s := ReflTransGen.single h

theorem modify {f : σ → σ} (h : step s (f s)) : Moves step caught (modify f : EStateM ε σ PUnit) s :=
  ReflTransGen.single h

variable {k : α → EStateM ε σ β}

/-- What the second part does is added to what the first part did. -/
theorem bind_of_wp (h : wp m (fun a s' => ReflTransGen step s s' ∧ Moves step caught (k a) s')
      (fun e s' => caught e → ReflTransGen step s s') s) : Moves step caught (m >>= k) s := by
  rw [Moves, wp_bind]
  refine wp_imp h ?_
  rintro a s' ⟨hs, hk⟩
  exact wp_mono hk (fun _ _ hs' => hs.trans hs') fun _ _ hs' hcaught => hs.trans (hs' hcaught)

theorem bind (hm : Moves step caught m s) (hk : ∀ a s', Moves step caught (k a) s') : Moves step caught (m >>= k) s :=
  bind_of_wp (wp_imp hm (fun a s' hs => ⟨hs, hk a s'⟩))

theorem seq {m' : EStateM ε σ β} (hm : Moves step caught m s) (hm' : ∀ {s'}, Moves step caught m' s') :
    Moves step caught (m >>= fun _ => m') s :=
  hm.bind fun _ _ => hm'

/-- The second part may use what the first part returned, and where. -/
theorem bind_of_ok (hm : Moves step caught m s)
    (hk : ∀ a s', m s = .ok a s' → Moves step caught (k a) s') : Moves step caught (m >>= k) s := by
  apply bind_of_wp
  cases hrun : m s with
  | ok a s' =>
    simp only [wp, hrun]
    exact ⟨hm.of_ok hrun, hk a s' hrun⟩
  | error e s' =>
    simp only [wp, hrun]
    exact wp_of_error hm hrun

theorem get_bind {k : σ → EStateM ε σ β} (h : Moves step caught (k s) s) :
    Moves step caught (get >>= k) s := bind_of_wp ⟨ReflTransGen.refl, h⟩

theorem set_bind {k : PUnit → EStateM ε σ β} (hs : step s s') (h : Moves step caught (k ⟨⟩) s') :
    Moves step caught (MonadStateOf.set s' >>= k) s := bind_of_wp ⟨ReflTransGen.single hs, h⟩

variable {c : Prop}

theorem ite [Decidable c] {m' : EStateM ε σ α} (h : c → Moves step caught m s)
    (h' : ¬ c → Moves step caught m' s) : Moves step caught (if c then m else m') s := by
  by_cases hc : c
  · rw [if_pos hc]
    exact h hc
  · rw [if_neg hc]
    exact h' hc

theorem either [Decidable c] {m' : EStateM ε σ α} (h : Moves step caught m s)
    (h' : Moves step caught m' s) : Moves step caught (if c then m else m') s :=
  ite (fun _ => h) fun _ => h'

theorem whenever [Decidable c] {m : EStateM ε σ Unit} (h : c → Moves step caught m s) :
    Moves step caught (Hoare.whenever c m) s := ite h fun _ => pure ()

theorem ensure (c : Prop) [Decidable c] (e : ε) : Moves step caught (Hoare.ensure c e : EStateM ε σ Unit) s :=
  ite (fun _ => pure ()) fun _ => throw e

theorem fromResult (r : Except ε α) : Moves step caught (Hoare.fromResult r : EStateM ε σ α) s := by
  cases r with
  | ok a => exact pure a
  | error e => exact throw e

theorem fromResult_bind {r : Except ε α} (h : ∀ a, r = .ok a → Moves step caught (k a) s) :
    Moves step caught (Hoare.fromResult r >>= k) s := by
  cases r with
  | ok a => exact bind_of_wp ⟨ReflTransGen.refl, h a rfl⟩
  | error e => exact bind_of_wp fun _ => ReflTransGen.refl

theorem okOr (e : ε) (o : Option α) : Moves step caught (Hoare.okOr e o : EStateM ε σ α) s := by
  cases o with
  | some a => exact pure a
  | none => exact throw e

theorem okOr_bind {e : ε} {o : Option α}
    (h : ∀ a, o = some a → Moves step caught (k a) s) : Moves step caught (Hoare.okOr e o >>= k) s := by
  cases o with
  | some a => exact bind_of_wp ⟨ReflTransGen.refl, h a rfl⟩
  | none => exact bind_of_wp fun _ => ReflTransGen.refl

theorem ensure_bind [Decidable c] {e : ε} {k : Unit → EStateM ε σ β}
    (h : c → Moves step caught (k ()) s) : Moves step caught (Hoare.ensure c e >>= k) s := by
  apply bind_of_wp
  rw [wp_ensure]
  exact ⟨fun hc => ⟨ReflTransGen.refl, h hc⟩, fun _ _ => ReflTransGen.refl⟩

theorem forM {l : List α} {f : α → EStateM ε σ PUnit} (h : ∀ a ∈ l, ∀ s, Moves step caught (f a) s) :
    Moves step caught (l.forM f) s := by
  induction l generalizing s with
  | nil => exact ReflTransGen.refl
  | cons a l ih => exact bind (h a List.mem_cons_self s) fun _ s' => ih fun b hb => h b (List.mem_cons_of_mem a hb)

end Moves

end Splinterm.Lib.Hoare
