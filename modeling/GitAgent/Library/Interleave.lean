import Mathlib.Data.List.Perm.Basic

/-!
# Interleavings

Sequences of entries that belong to parties. Two are interleavings of the same streams if the
entries of each party are the same, in the same order.
-/

namespace Interleave

variable {α β κ : Type} [DecidableEq κ] {key : α → κ}

/-- The entries of a party. -/
def part (key : α → κ) (k : κ) (as : List α) : List α :=
  as.filter fun a => key a = k

/-- Each party has the same entries, in the same order. -/
def Same (key : α → κ) (as bs : List α) : Prop :=
  ∀ k, part key k as = part key k bs

theorem part_cons (a : α) (as : List α) (k : κ) :
  part key k (a :: as) = if key a = k then a :: part key k as else part key k as
  := by
  rw [part, List.filter_cons]
  by_cases h : key a = k <;> simp [h, part]

theorem part_append (as bs : List α) (k : κ) :
  part key k (as ++ bs) = part key k as ++ part key k bs
  := by rw [part, List.filter_append, part, part]

/-- What only the entries of one party give is what its stream gives. -/
theorem flatMap_part {f : α → List β} {k : κ} (h : ∀ a, key a ≠ k → f a = []) (as : List α) :
  (part key k as).flatMap f = as.flatMap f
  := by
  induction as with
  | nil => rfl
  | cons a as ih =>
      rw [part_cons, List.flatMap_cons, ← ih]
      split
      · rw [List.flatMap_cons]
      · rename_i hne
        rw [h a hne, List.nil_append]

/-- Two interleavings have the same entries. -/
theorem Same.perm {as bs : List α} (h : Same key as bs) :
  as.Perm bs
  := by
  induction as generalizing bs with
  | nil =>
      have hbs : bs = [] := by
        rw [List.eq_nil_iff_forall_not_mem]
        intro b hb
        have hpart : part key (key b) bs = [] := (h (key b)).symm
        apply List.filter_eq_nil_iff.mp hpart b hb
        apply decide_eq_true rfl
      rw [hbs]
  | cons a as ih =>
      have ha := h (key a)
      rw [part_cons, if_pos rfl, part, part, eq_comm, List.filter_eq_cons_iff] at ha
      obtain ⟨before, after, rfl, hbefore, -, hafter⟩ := ha
      have hnil : part key (key a) before = [] := List.filter_eq_nil_iff.mpr hbefore
      have hsame : Same key as (before ++ after) := by
        intro k
        have hk := h k
        rw [part_cons, part_append, part_cons] at hk
        rw [part_append]
        split at hk
        · rename_i e
          subst e
          rw [hnil, List.nil_append] at hk ⊢
          exact (List.cons.inj hk).2
        · apply hk
      exact ((ih hsame).cons a).trans List.perm_middle.symm

/-- A step that commutes with others can be taken after them. -/
theorem foldl_step {step : β → α → β} {a : α} {as : List α}
    (h : ∀ b, ∀ a' ∈ as, step (step b a) a' = step (step b a') a) (b : β) :
  as.foldl step (step b a) = step (as.foldl step b) a
  := by
  induction as generalizing b with
  | nil => rfl
  | cons a' as ih =>
      obtain ⟨-, htail⟩ := List.forall_mem_cons.mp fun a'' ha'' => h b a'' ha''
      rw [List.foldl_cons, h b a' List.mem_cons_self, ih, List.foldl_cons]
      intro b' a'' ha''
      apply h b' a'' (List.mem_cons_of_mem a' ha'')

/-- Steps of two kinds that commute can be taken one kind after the other. -/
theorem foldl_filter {step : β → α → β} {p : α → Bool}
    (h : ∀ b a a', p a = true → p a' = false → step (step b a) a' = step (step b a') a)
    (as : List α) (b : β) :
  as.foldl step b = (as.filter p).foldl step ((as.filter fun a => !p a).foldl step b)
  := by
  induction as generalizing b with
  | nil => rfl
  | cons a as ih =>
      rw [List.foldl_cons, ih]
      cases hp : p a with
      | true =>
          rw [List.filter_cons_of_pos hp, List.filter_cons_of_neg (by simp [hp]), List.foldl_cons,
            foldl_step]
          intro b a' ha'
          apply h b a a' hp
          simpa using (List.mem_filter.mp ha').2
      | false =>
          rw [List.filter_cons_of_neg (Bool.eq_false_iff.mp hp),
            List.filter_cons_of_pos (by simp [hp]), List.foldl_cons]

end Interleave
