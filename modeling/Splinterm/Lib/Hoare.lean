import Mathlib.Logic.Basic

/-!
# Weakest preconditions for `EStateM`

A mutating function that can stop early is a computation in `EStateM ε σ`: the
state it has reached survives the stop, so "a refused call changed nothing" is a
statement one has to prove and not a consequence of the type.

`wp m post fail s` says that running `m` from `s` ends in `post` when it returns
and in `fail` when it stops. The `simp` lemmas below push `wp` through the
combinators, so the goal left after `simp only` is the path condition of each
branch.
-/

namespace Splinterm.Lib.Hoare

variable {ε σ α β : Type}

/-- What running `m` from `s` guarantees on return and on a stop. -/
def wp (m : EStateM ε σ α) (post : α → σ → Prop) (fail : ε → σ → Prop) (s : σ) : Prop :=
  match m s with
  | .ok a s' => post a s'
  | .error e s' => fail e s'

variable {post post' : β → σ → Prop} {fail fail' : ε → σ → Prop} {s : σ} {m : EStateM ε σ β}

@[simp] theorem wp_pure (b : β) : wp (pure b : EStateM ε σ β) post fail s ↔ post b s := Iff.rfl

@[simp] theorem wp_throw (e : ε) : wp (throw e : EStateM ε σ β) post fail s ↔ fail e s := Iff.rfl

@[simp] theorem wp_get {post : σ → σ → Prop} : wp (get : EStateM ε σ σ) post fail s ↔ post s s := Iff.rfl

@[simp] theorem wp_set {post : PUnit → σ → Prop} (s' : σ) :
    wp (set s' : EStateM ε σ PUnit) post fail s ↔ post ⟨⟩ s' := Iff.rfl

@[simp] theorem wp_modify {post : PUnit → σ → Prop} (f : σ → σ) :
    wp (modify f : EStateM ε σ PUnit) post fail s ↔ post ⟨⟩ (f s) := Iff.rfl

@[simp] theorem wp_bind (m : EStateM ε σ α) (k : α → EStateM ε σ β) :
    wp (m >>= k) post fail s ↔ wp m (fun a => wp (k a) post fail) fail s := by
  simp only [wp, bind, EStateM.bind]
  cases m s <;> rfl

@[simp] theorem wp_map (m : EStateM ε σ α) (f : α → β) :
    wp (f <$> m) post fail s ↔ wp m (fun a => post (f a)) fail s := by
  simp only [wp, Functor.map, EStateM.map]
  cases m s <;> rfl

@[simp] theorem wp_ite {c : Prop} [Decidable c] (m m' : EStateM ε σ β) : wp (if c then m else m') post fail s ↔
      (c → wp m post fail s) ∧ (¬ c → wp m' post fail s) := by
  by_cases h : c <;> simp [h]

theorem wp_of_ok {b : β} {s' : σ} (h : wp m post fail s) (hm : m s = .ok b s') : post b s' := by
  rwa [wp, hm] at h

theorem wp_of_error {e : ε} {s' : σ} (h : wp m post fail s) (hm : m s = .error e s') : fail e s' := by
  rwa [wp, hm] at h

/-- A computation that cannot fail returns. -/
theorem exists_ok_of_wp (h : wp m post (fun _ _ => False) s) : ∃ b s', m s = .ok b s' ∧ post b s' := by
  unfold wp at h
  cases hm : m s with
  | ok b s' =>
    rw [hm] at h
    exact ⟨b, s', rfl, h⟩
  | error e s' =>
    rw [hm] at h
    exact h.elim

theorem eq_ok_of_wp_iff {b : β} {s' : σ} (h : ∀ post fail, wp m post fail s ↔ post b s') : m s = .ok b s' := by
  have hwp : wp m (fun b' t => (b, s') = (b', t)) (fun _ _ => False) s := (h _ _).mpr rfl
  obtain ⟨_, _, hrun, ⟨⟩⟩ := exists_ok_of_wp hwp
  exact hrun

theorem wp_of_runs (h : ∀ b s', m s = .ok b s' → post b s') : wp m post (fun _ _ => True) s := by
  rw [wp]
  cases hm : m s with
  | ok b s' => exact h b s' hm
  | error e s' => trivial

theorem wp_mono (h : wp m post fail s)
    (hpost : ∀ b s', post b s' → post' b s') (hfail : ∀ e s', fail e s' → fail' e s') : wp m post' fail' s := by
  cases hm : m s with
  | ok b s' => simpa only [wp, hm] using hpost b s' (wp_of_ok h hm)
  | error e s' => simpa only [wp, hm] using hfail e s' (wp_of_error h hm)

theorem wp_imp (h : wp m post fail s) (hpost : ∀ b s', post b s' → post' b s') : wp m post' fail s :=
  wp_mono h hpost fun _ _ hfail => hfail

theorem wp_and {m : EStateM ε σ β} (h : wp m post fail s) (h' : wp m post' fail' s) :
    wp m (fun b s' => post b s' ∧ post' b s') (fun e s' => fail e s' ∧ fail' e s') s := by
  cases hm : m s with
  | ok b s' => simpa only [wp, hm] using And.intro (wp_of_ok h hm) (wp_of_ok h' hm)
  | error e s' => simpa only [wp, hm] using And.intro (wp_of_error h hm) (wp_of_error h' hm)

/-- A pure result becomes a return or a stop that leaves the state alone. -/
def fromResult : Except ε α → EStateM ε σ α
  | .ok a => pure a
  | .error e => throw e

@[simp] theorem wp_fromResult (r : Except ε β) : wp (fromResult r : EStateM ε σ β) post fail s ↔
      (∀ b, r = .ok b → post b s) ∧ (∀ e, r = .error e → fail e s) := by
  cases r <;> simp [fromResult]

/-- `ok_or`: an absent value stops with `e`. -/
def okOr (e : ε) : Option α → EStateM ε σ α
  | some a => pure a
  | none => throw e

@[simp] theorem wp_okOr (e : ε) (o : Option β) : wp (okOr e o : EStateM ε σ β) post fail s ↔
      (∀ b, o = some b → post b s) ∧ (o = none → fail e s) := by
  cases o <;> simp [okOr]

/-- `assert!`: a condition that does not hold stops with `e`. -/
def ensure (c : Prop) [Decidable c] (e : ε) : EStateM ε σ Unit := if c then pure () else throw e

@[simp] theorem wp_ensure {c : Prop} [Decidable c] (e : ε) {post : Unit → σ → Prop} :
    wp (ensure c e : EStateM ε σ Unit) post fail s ↔ (c → post () s) ∧ (¬ c → fail e s) := by
  simp [ensure]

/-- `if c { m }`. -/
def whenever (c : Prop) [Decidable c] (m : EStateM ε σ Unit) : EStateM ε σ Unit :=
  if c then m else pure ()

@[simp] theorem wp_whenever {c : Prop} [Decidable c] (m : EStateM ε σ Unit) {post : Unit → σ → Prop} :
    wp (whenever c m) post fail s ↔ (c → wp m post fail s) ∧ (¬ c → post () s) := by
  simp [whenever]

/-! ## Parts of a state -/

variable {τ : Type}

/-- Runs `m` on a part of the state; what `m` reached is put back, also on a stop. -/
def zoom (view : σ → τ) (put : τ → σ → σ) (m : EStateM ε τ α) : EStateM ε σ α := fun s =>
  match m (view s) with
  | .ok a t => .ok a (put t s)
  | .error e t => .error e (put t s)

@[simp] theorem wp_zoom (view : σ → τ) (put : τ → σ → σ) (m : EStateM ε τ β) : wp (zoom view put m) post fail s ↔
      wp m (fun b t => post b (put t s)) (fun e t => fail e (put t s)) (view s) := by
  simp only [wp, zoom]
  cases m (view s) <;> rfl

/-! ## Loops -/

@[simp] theorem wp_forM_cons {post : PUnit → σ → Prop} (f : α → EStateM ε σ PUnit) (a : α) (l : List α) :
    wp ((a :: l).forM f) post fail s ↔ wp (f a) (fun _ => wp (l.forM f) post fail) fail s := by
  show wp (f a >>= fun _ => l.forM f) post fail s ↔ _
  rw [wp_bind]

theorem forM_cons_of_ok {f : α → EStateM ε σ PUnit} {a : α} {s' : σ} (h : f a s = .ok ⟨⟩ s') (l : List α) :
    (a :: l).forM f s = l.forM f s' := by
  show (f a >>= fun _ => l.forM f) s = _
  simp only [bind, EStateM.bind, h]

/-- A loop on a part of the state is the part's loop. -/
theorem forM_zoom {view : σ → τ} {put : τ → σ → σ} (hview : ∀ x s, view (put x s) = x)
    (hput : ∀ x y s, put y (put x s) = put y s) (hself : ∀ s, put (view s) s = s) (l : List α)
    (f : α → EStateM ε τ PUnit) : (l.forM fun a => zoom view put (f a)) = zoom view put (l.forM f) := by
  funext s
  induction l generalizing s with
  | nil => exact congrArg (EStateM.Result.ok PUnit.unit) (hself s).symm
  | cons a l ih =>
    show (zoom view put (f a) >>= fun _ => l.forM fun a => zoom view put (f a)) s =
      zoom view put (f a >>= fun _ => l.forM f) s
    simp only [bind, EStateM.bind, zoom]
    cases hrun : f a (view s) with
    | ok _ x =>
      simp only [ih, zoom, hview]
      cases l.forM f x with
      | ok | error => simp only [hput]
    | error e x => rfl

theorem wp_forM {inv : σ → Prop} {l : List α} {f : α → EStateM ε σ PUnit}
    (hf : ∀ a ∈ l, ∀ s, inv s → wp (f a) (fun _ => inv) fail s) (hs : inv s) :
    wp (l.forM f) (fun _ => inv) fail s := by
  induction l generalizing s with
  | nil => exact hs
  | cons a l ih =>
    rw [wp_forM_cons]
    refine wp_imp (hf a List.mem_cons_self s hs) ?_
    intro _ s' hs'
    exact ih (fun b hb => hf b (List.mem_cons_of_mem a hb)) hs'

/-- A counted loop: what holds before turn `j` and is carried over that turn holds
after the last one. -/
theorem foldl_range {P : Nat → σ → Prop} {f : σ → Nat → σ} {n : Nat} (h0 : P 0 s)
    (hstep : ∀ j s, j < n → P j s → P (j + 1) (f s j)) : P n ((List.range n).foldl f s) := by
  induction n with
  | zero => exact h0
  | succ n ih =>
    rw [List.range_succ, List.foldl_append]
    exact hstep n _ (Nat.lt_succ_self n) (ih fun j s hj => hstep j s (Nat.lt_succ_of_lt hj))

/-! ## Checks without a state -/

/-- `if c { return Err(e) }`. -/
def rejectIf (c : Prop) [Decidable c] (e : ε) : Except ε Unit := if c then .error e else .ok ()

@[simp] theorem rejectIf_eq_ok {c : Prop} [Decidable c] {e : ε} {u : Unit} : rejectIf c e = .ok u ↔ ¬ c := by
  by_cases h : c <;> simp [rejectIf, h]

@[simp] theorem rejectIf_eq_error {c : Prop} [Decidable c] {e e' : ε} : rejectIf c e = .error e' ↔ c ∧ e = e' := by
  by_cases h : c <;> simp [rejectIf, h]

theorem bind_eq_ok {m : Except ε α} {k : α → Except ε β} {b : β} :
    (m >>= k) = .ok b ↔ ∃ a, m = .ok a ∧ k a = .ok b := by
  cases m <;> simp [bind, Except.bind]

/-- A check before the result. -/
theorem checked_eq_ok {c : Prop} [Decidable c] {e : ε} {a b : α} :
    (do rejectIf c e; return a : Except ε α) = .ok b ↔ ¬ c ∧ a = b := by
  simp only [bind_eq_ok, rejectIf_eq_ok, exists_const, pure, Except.pure, Except.ok.injEq]

theorem mapError_eq_ok {ε' : Type} {f : ε → ε'} {m : Except ε α} {a : α} : m.mapError f = .ok a ↔ m = .ok a := by
  cases m with
  | ok _ => exact ⟨fun h => by cases h; rfl, fun h => by cases h; rfl⟩
  | error _ => exact ⟨nofun, nofun⟩

/-- The check never fails with an error of the kind `p`. -/
def Avoids (p : ε → Prop) (m : Except ε α) : Prop := ∀ e, m = .error e → ¬ p e

theorem avoids_ok {p : ε → Prop} (a : α) : Avoids p (.ok a : Except ε α) := fun _ h => nomatch h

theorem avoids_rejectIf {p : ε → Prop} {c : Prop} [Decidable c] {e : ε} (h : c → ¬ p e) : Avoids p (rejectIf c e) := by
  intro e' he
  obtain ⟨hc, rfl⟩ := rejectIf_eq_error.mp he
  exact h hc

theorem Avoids.bind {p : ε → Prop} {m : Except ε α} {k : α → Except ε β} (h : Avoids p m)
    (hk : ∀ a, Avoids p (k a)) : Avoids p (m >>= k) := by
  intro e he
  cases m with
  | ok a => exact hk a e he
  | error e' =>
    cases he
    exact h _ rfl

/-! ## Folds that may fail -/

/-- What every step of a fold keeps holds at its end. -/
theorem foldlM_keeps {p : β → Prop} {f : β → α → Except ε β} {l : List α} {b b' : β}
    (hstep : ∀ a ∈ l, ∀ b b', p b → f b a = .ok b' → p b') (h : l.foldlM f b = .ok b') (hb : p b) : p b' := by
  induction l generalizing b with
  | nil => exact Except.ok.inj h ▸ hb
  | cons a l ih =>
    obtain ⟨mid, hmid, h⟩ := bind_eq_ok.mp h
    exact ih (fun a ha => hstep a (List.mem_cons_of_mem _ ha)) h (hstep a List.mem_cons_self b mid hb hmid)

end Splinterm.Lib.Hoare
