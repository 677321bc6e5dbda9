import Mathlib.Data.List.Induction

/-!
# Lifecycles over an event log

A `Lifecycle` reads events one at a time and refuses those its stage does not
allow. A log holds the events of many subjects, oldest first; the events of one
subject are its `story`. What an accepted story can contain is then a fact about
stages alone: a set of stages closed under `next` that refuses an event excludes
that event from there on (`not_mem_of_closed`), and a stage that is reached was
entered (`run_entered`).
-/

namespace Splinterm.Lib

open Option

structure Lifecycle (σ ε : Type) where
  start : σ
  next : σ → ε → Option σ

namespace Lifecycle

variable {σ ε : Type} {m : Lifecycle σ ε} {s final : σ} {e : ε} {es es' : List ε}

def runFrom (m : Lifecycle σ ε) (s : σ) : List ε → Option σ
  | [] => some s
  | e :: es => (m.next s e).bind fun s' => m.runFrom s' es

def run (m : Lifecycle σ ε) (es : List ε) : Option σ := m.runFrom m.start es

theorem runFrom_append : m.runFrom s (es ++ es') = (m.runFrom s es).bind fun s' => m.runFrom s' es' := by
  induction es generalizing s with
  | nil => rfl
  | cons e es ih =>
    rw [List.cons_append, runFrom, runFrom]
    cases m.next s e with
    | none => rfl
    | some s' => exact ih

theorem run_snoc (h : m.run es = some s) : m.run (es ++ [e]) = m.next s e := by
  unfold run at h ⊢
  rw [runFrom_append, h, bind_some, runFrom]
  cases m.next s e <;> rfl

theorem run_split (h : m.run (es ++ e :: es') = some final) :
    ∃ before after, m.run es = some before ∧ m.next before e = some after ∧ m.runFrom after es' = some final := by
  unfold run at h ⊢
  rw [runFrom_append] at h
  obtain ⟨before, hbefore, h⟩ := bind_eq_some_iff.mp h
  obtain ⟨after, hafter, h⟩ := bind_eq_some_iff.mp h
  exact ⟨before, after, hbefore, hafter, h⟩

theorem runFrom_closed {P : σ → Prop} (hnext : ∀ s e s', P s → m.next s e = some s' → P s')
    (hs : P s) (h : m.runFrom s es = some final) : P final := by
  induction es generalizing s with
  | nil =>
    rw [runFrom, some.injEq] at h
    exact h ▸ hs
  | cons e es ih =>
    obtain ⟨s', hs', h⟩ := bind_eq_some_iff.mp h
    exact ih (hnext s e s' hs hs') h

theorem not_mem_of_closed {P : σ → Prop} (hnext : ∀ s e s', P s → m.next s e = some s' → P s')
    (hrefuse : ∀ s, P s → m.next s e = none) (hs : P s) (h : m.runFrom s es = some final) : e ∉ es := by
  intro hmem
  obtain ⟨pre, post, rfl⟩ := List.append_of_mem hmem
  rw [runFrom_append] at h
  obtain ⟨before, hbefore, h⟩ := bind_eq_some_iff.mp h
  rw [runFrom, hrefuse before (runFrom_closed hnext hs hbefore)] at h
  exact some_ne_none _ h.symm

theorem run_entered [DecidableEq σ] (hstart : m.start ≠ s) (h : m.run es = some s) :
    ∃ pre event post before, es = pre ++ event :: post ∧ m.run pre = some before ∧ before ≠ s ∧
      m.next before event = some s := by
  -- from the end: the last event either entered `s` or found the machine there already
  induction es using List.reverseRecOn with
  | nil => exact absurd (some.inj h) hstart
  | append_singleton es event ih =>
    obtain ⟨before, after, hbefore, hafter, hfinal⟩ := run_split h
    rw [runFrom, some.injEq] at hfinal
    subst hfinal
    by_cases hsame : before = after
    · subst hsame
      obtain ⟨pre, event', post, b, rfl, hrest⟩ := ih hbefore
      exact ⟨pre, event', post ++ [event], b, by simp, hrest⟩
    · exact ⟨es, event, [], before, rfl, hbefore, hsame, hafter⟩

end Lifecycle

/-- The events a log holds about one subject. -/
def story {κ ε : Type} [DecidableEq κ] (subject : κ) (log : List (κ × ε)) : List ε :=
  log.filterMap fun entry => if entry.1 = subject then some entry.2 else none

section Story

variable {κ ε : Type} [DecidableEq κ] {a b : κ} {e : ε} {log : List (κ × ε)}

theorem story_snoc_self : story a (log ++ [(a, e)]) = story a log ++ [e] := by
  simp [story]

theorem story_snoc_ne (h : b ≠ a) : story a (log ++ [(b, e)]) = story a log := by
  simp [story, h]

end Story

end Splinterm.Lib
