import Mathlib.Data.Option.Basic
import Mathlib.Data.List.Basic

/-!
# Guarded runs of a transition system

A `Transition.System` has initial states and, for each action, at most one successor of a
state. `Reach G` holds of the states at the end of a run whose every step satisfies the
guard `G` on the state before the step and its action. An invariant is established once for
the initial states and once for a step (`Reach.invariant`), and a run is computed by
`System.run` (`exists_reach_of_run`).
-/

universe u v

namespace Transition

/-- The initial states, and the successor of a state under an action that is enabled in
it. -/
structure System (σ : Type u) (α : Type v) where
  init : σ → Prop
  step : σ → α → Option σ

variable {σ : Type u} {α : Type v}

namespace System

variable (T : System σ α)

/-- The state after a list of actions, if each is enabled in turn and satisfies `G`. -/
def run (G : σ → α → Prop) [∀ s a, Decidable (G s a)] : σ → List α → Option σ
  | s, [] => some s
  | s, a :: as => if G s a then (T.step s a).bind fun s' => run G s' as else none

/-- The states at the end of a run whose steps all satisfy `G`. -/
inductive Reach (G : σ → α → Prop) : σ → Prop
  | start {s : σ} (h : T.init s) : Reach G s
  | step {s s' : σ} {a : α} (h : Reach G s) (hG : G s a) (hs : T.step s a = some s') :
      Reach G s'

/-- The states at the end of any run. -/
abbrev Reachable : σ → Prop :=
  T.Reach fun _ _ => True

end System

namespace System.Reach

variable {T : System σ α} {G : σ → α → Prop}

/-- A property of the initial states that every guarded step between states already known to
satisfy `J` preserves holds of every state of a guarded run on which `J` holds. -/
theorem invariant_of {I J : σ → Prop} (hJ : ∀ s, T.Reach G s → J s)
    (init : ∀ s, T.init s → I s)
    (step : ∀ s a s', J s → I s → G s a → T.step s a = some s' → I s')
    {s : σ} (h : T.Reach G s) :
  I s
  := by
  induction h with
  | start h => apply init _ h
  | step h hG hs ih => apply step _ _ _ (hJ _ h) ih hG hs

/-- A property of the initial states that every guarded step preserves holds of every state
of a guarded run. -/
theorem invariant {I : σ → Prop} (init : ∀ s, T.init s → I s)
    (step : ∀ s a s', I s → G s a → T.step s a = some s' → I s')
    {s : σ} (h : T.Reach G s) :
  I s
  := by
  apply invariant_of (J := fun _ => True) _ init _ h
  · intros
    trivial
  · intro s a s' _ hI hG hs
    apply step s a s' hI hG hs

/-- A run under a guard is a run under every weaker guard. -/
theorem mono {G' : σ → α → Prop} (hG : ∀ s a, G s a → G' s a) {s : σ} (h : T.Reach G s) :
  T.Reach G' s
  := by
  induction h with
  | start h => apply Reach.start h
  | step _ hg hs ih => apply Reach.step ih (hG _ _ hg) hs

theorem reachable {s : σ} (h : T.Reach G s) :
  T.Reachable s
  := h.mono fun _ _ _ => trivial

/-- The state computed by `System.run` from a state of a guarded run is one too. -/
theorem of_run [∀ s a, Decidable (G s a)] {s s' : σ} {as : List α} (h : T.Reach G s)
    (hr : T.run G s as = some s') :
  T.Reach G s'
  := by
  induction as generalizing s with
  | nil =>
      obtain rfl := Option.some.inj hr
      apply h
  | cons a as ih =>
      rw [System.run] at hr
      split at hr
      · rename_i hG
        obtain ⟨t, ht, hr⟩ := Option.bind_eq_some_iff.mp hr
        apply ih (h.step hG ht) hr
      · contradiction

end System.Reach

/-- A guarded run computed from an initial state whose last state passes the test `p` gives a
state of a guarded run that passes `p`. -/
theorem exists_reach_of_run {T : System σ α} {G : σ → α → Prop} [∀ s a, Decidable (G s a)]
    {s : σ} (h : T.init s) (as : List α) (p : σ → Bool)
    (hr : (T.run G s as).any p = true) :
  ∃ s', T.Reach G s' ∧ p s' = true
  := by
  cases hs : T.run G s as with
  | none =>
      rw [hs] at hr
      contradiction
  | some s' =>
      rw [hs] at hr
      use s'
      constructor
      · apply System.Reach.of_run (System.Reach.start h) hs
      · apply hr

end Transition
