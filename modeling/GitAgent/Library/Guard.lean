import GitAgent.Library.Transition

/-!
# Exact guards

A guard is exact for a property if the steps that satisfy it keep an invariant from which the property
follows, and a step that does not satisfy it leads to a state without the property. The property then
holds all along a run exactly if every step of the run satisfies the guard.
-/

universe u v

namespace Transition.System

variable {σ : Type u} {α : Type v} (T : System σ α)

/-- `G` is exact for `P`: `J` holds along every run, and `I` along the runs under `G`. -/
structure Exact (G : σ → α → Prop) (J I P : σ → Prop) : Prop where
  always : ∀ s a s', J s → T.step s a = some s' → J s'
  kept : ∀ s a s', J s → I s → G s a → T.step s a = some s' → I s'
  holds : ∀ s, I s → P s
  broken : ∀ s a s', J s → ¬ G s a → T.step s a = some s' → ¬ P s'

variable {T} {G : σ → α → Prop} [∀ s a, Decidable (G s a)] {J I P : σ → Prop}

/-- The property holds in every state of a run exactly if every step satisfies the guard. -/
theorem Exact.run_iff (h : T.Exact G J I P) {s s' : σ} (hJ : J s) (hI : I s) {actions : List α}
    (hrun : T.run (fun _ _ => True) s actions = some s') :
  (∀ n t, T.run (fun _ _ => True) s (actions.take n) = some t → P t) ↔
    (T.run G s actions).isSome = true
  := by
  induction actions generalizing s with
  | nil =>
      refine ⟨fun _ => rfl, fun _ n t ht => ?_⟩
      rw [List.take_nil] at ht
      obtain rfl := Option.some.inj ht
      apply h.holds s hI
  | cons a actions ih =>
      rw [run, if_pos trivial] at hrun
      obtain ⟨t, ht, hrun⟩ := Option.bind_eq_some_iff.mp hrun
      have hJt := h.always s a t hJ ht
      -- the states of the run after the first one are those of the rest of the run
      have hrest : ∀ n t', T.run (fun _ _ => True) s ((a :: actions).take (n + 1)) = some t' ↔
          T.run (fun _ _ => True) t (actions.take n) = some t' := by
        intro n t'
        rw [List.take_succ_cons, run, if_pos trivial, ht, Option.bind_some]
      by_cases hG : G s a
      · rw [run, if_pos hG, ht, Option.bind_some, ← ih hJt (h.kept s a t hJ hI hG ht) hrun]
        constructor
        · intro hP n t' ht'
          apply hP (n + 1) t' ((hrest n t').mpr ht')
        · intro hP n t' ht'
          cases n with
          | zero =>
              obtain rfl := Option.some.inj ht'
              apply h.holds s hI
          | succ n => apply hP n t' ((hrest n t').mp ht')
      · rw [run, if_neg hG]
        refine ⟨fun hP => ?_, fun hsome => ?_⟩
        · exact absurd (hP 1 t ((hrest 0 t).mpr rfl)) (h.broken s a t hJ hG ht)
        · contradiction

end Transition.System
