import Mathlib.Data.List.Forall2

/-!
# Noninterference by unwinding

A machine has a next state and an output for every action. Some of the actions are visible,
and a run is compared with the run in which the others are deleted. An unwinding relates the
states of the two runs: an invisible action of the first run leaves them related, and a
visible action of both gives the same output exactly if the guard `G` holds, and leaves them
related if it does. Then the outputs of the two runs are the same exactly if the guard holds
at every visible action of the first (`Unwinding.forall₂_outputs_iff`).
-/

universe u v w

/-- A deterministic machine with outputs. -/
structure Machine (σ : Type u) (α : Type v) (ω : Type w) where
  next : σ → α → σ
  out : σ → α → ω

namespace Machine

variable {σ : Type u} {α : Type v} {ω : Type w} (M : Machine σ α ω) (visible : α → Bool)

/-- The outputs at the visible actions of a run. -/
def outputs : σ → List α → List ω
  | _, [] => []
  | s, a :: as =>
      if visible a then M.out s a :: outputs (M.next s a) as else outputs (M.next s a) as

/-- The guard holds at every visible action of a run. -/
def Guarded (G : σ → α → Prop) : σ → List α → Prop
  | _, [] => True
  | s, a :: as => (visible a → G s a) ∧ Guarded G (M.next s a) as

/-- A run of the guard is decided action by action. -/
def decidableGuarded (G : σ → α → Prop) [∀ s a, Decidable (G s a)] :
    ∀ s as, Decidable (M.Guarded visible G s as)
  | _, [] => inferInstanceAs (Decidable True)
  | s, a :: as =>
      have := decidableGuarded G (M.next s a) as
      inferInstanceAs (Decidable ((visible a → G s a) ∧ M.Guarded visible G (M.next s a) as))

instance (G : σ → α → Prop) [∀ s a, Decidable (G s a)] (s : σ) (as : List α) :
    Decidable (M.Guarded visible G s as) :=
  decidableGuarded M visible G s as

/-- `Sim` relates the states of a run and of the run without the invisible actions. -/
structure Unwinding (G : σ → α → Prop) (Sim : σ → σ → Prop) (Same : ω → ω → Prop) : Prop where
  purge : ∀ {s s' a}, Sim s s' → visible a = false → Sim (M.next s a) s'
  keep : ∀ {s s' a}, Sim s s' → visible a = true → G s a → Sim (M.next s a) (M.next s' a)
  same : ∀ {s s' a}, Sim s s' → visible a = true → (Same (M.out s a) (M.out s' a) ↔ G s a)

variable {M visible} {G : σ → α → Prop} {Sim : σ → σ → Prop} {Same : ω → ω → Prop}

/-- The two runs have the same outputs exactly if the guard holds at every visible action. -/
theorem Unwinding.forall₂_outputs_iff (h : M.Unwinding visible G Sim Same) {s s' : σ}
    (hs : Sim s s') (as : List α) :
  List.Forall₂ Same (M.outputs visible s as) (M.outputs visible s' (as.filter visible)) ↔
    M.Guarded visible G s as
  := by
  induction as generalizing s s' with
  | nil => exact ⟨fun _ => trivial, fun _ => .nil⟩
  | cons a as ih =>
      rw [outputs, Guarded]
      cases hv : visible a with
      | false =>
          rw [List.filter_cons_of_neg (by rw [hv]; exact Bool.false_ne_true), if_neg (by simp),
            ih (h.purge hs hv)]
          simp
      | true =>
          rw [List.filter_cons_of_pos hv, outputs, if_pos rfl, if_pos hv, List.forall₂_cons,
            h.same hs hv]
          simp only [forall_const]
          apply and_congr_right
          intro hG
          apply ih (h.keep hs hv hG)

end Machine
