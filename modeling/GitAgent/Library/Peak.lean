import Mathlib.Algebra.BigOperators.Group.Finset.Basic
import Mathlib.Algebra.Order.Group.Int
import Mathlib.Data.Finset.Lattice.Fold
import Mathlib.Tactic.Linarith

/-!
# Highest readings

Readings of counters that only go up, listed in any order and any number of times. The peak
of a counter is its highest reading, zero if it has none, and the total of the readings is the sum
of the peaks. Both depend on nothing else (`total_congr`), and one more reading adds what it
exceeds the peak by (`total_concat`).
-/

universe u

namespace Peak

variable {κ : Type u} [DecidableEq κ]

/-- The highest reading of the counter `k`, at least zero. -/
def peak (l : List (κ × ℤ)) (k : κ) : ℤ :=
  ((l.filter fun r => r.1 = k).map Prod.snd).foldr max 0

/-- The sum of the peaks of all counters that are read. -/
def total (l : List (κ × ℤ)) : ℤ :=
  ∑ k ∈ (l.map Prod.fst).toFinset, peak l k

variable {l l' : List (κ × ℤ)} {k : κ}

theorem peak_cons (r : κ × ℤ) (l : List (κ × ℤ)) (k : κ) :
  peak (r :: l) k = if r.1 = k then max r.2 (peak l k) else peak l k
  := by
  rw [peak, List.filter_cons]
  by_cases h : r.1 = k <;> simp [h, peak]

/-- A peak is below a bound exactly if zero and all readings are. -/
theorem peak_le_iff {c : ℤ} :
  peak l k ≤ c ↔ 0 ≤ c ∧ ∀ v, (k, v) ∈ l → v ≤ c
  := by
  induction l with
  | nil => simp [peak]
  | cons r l ih =>
      obtain ⟨k', v'⟩ := r
      rw [peak_cons]
      simp only [List.mem_cons, Prod.mk.injEq]
      by_cases h : k' = k
      · subst h
        rw [if_pos rfl, max_le_iff, ih]
        constructor
        · rintro ⟨hv, hc, hl⟩
          exact ⟨hc, by rintro v (⟨-, rfl⟩ | hm); exacts [hv, hl v hm]⟩
        · rintro ⟨hc, hl⟩
          exact ⟨hl v' (.inl ⟨rfl, rfl⟩), hc, fun v hm => hl v (.inr hm)⟩
      · rw [if_neg h, ih]
        constructor
        · rintro ⟨hc, hl⟩
          exact ⟨hc, by rintro v (⟨rfl, -⟩ | hm); exacts [absurd rfl h, hl v hm]⟩
        · rintro ⟨hc, hl⟩
          exact ⟨hc, fun v hm => hl v (.inr hm)⟩

theorem peak_nonneg (l : List (κ × ℤ)) (k : κ) :
  0 ≤ peak l k
  := (peak_le_iff.mp le_rfl).1

/-- A reading is at most the peak. -/
theorem le_peak {v : ℤ} (h : (k, v) ∈ l) :
  v ≤ peak l k
  := (peak_le_iff.mp le_rfl).2 v h

theorem peak_append (l l' : List (κ × ℤ)) (k : κ) :
  peak (l ++ l') k = max (peak l k) (peak l' k)
  := by
  apply eq_of_forall_ge_iff
  intro c
  simp only [max_le_iff, peak_le_iff, List.mem_append]
  constructor
  · rintro ⟨hc, h⟩
    exact ⟨⟨hc, fun v hv => h v (.inl hv)⟩, hc, fun v hv => h v (.inr hv)⟩
  · rintro ⟨⟨hc, h⟩, -, h'⟩
    exact ⟨hc, fun v hv => hv.elim (h v) (h' v)⟩

@[simp]
theorem peak_nil (k : κ) :
  peak [] k = 0
  := rfl

@[simp]
theorem peak_singleton (k : κ) (v : ℤ) (k' : κ) :
  peak [(k, v)] k' = if k = k' then max v 0 else 0
  := peak_cons (k, v) [] k'

/-- A counter without readings has the peak zero. -/
theorem peak_of_not_mem (h : k ∉ l.map Prod.fst) :
  peak l k = 0
  := by
  apply le_antisymm _ (peak_nonneg l k)
  apply peak_le_iff.mpr
  constructor
  · apply le_rfl
  · intro v hv
    apply absurd (List.mem_map_of_mem hv) h

/-- The total is the sum of the peaks over any set of counters that has all that are read. -/
theorem total_eq_sum {s : Finset κ} (h : (l.map Prod.fst).toFinset ⊆ s) :
  total l = ∑ k ∈ s, peak l k
  := by
  apply Finset.sum_subset h
  intro k _ hk
  apply peak_of_not_mem
  rwa [List.mem_toFinset] at hk

/-- The total depends on the peaks only. -/
theorem total_congr (h : ∀ k, peak l k = peak l' k) :
  total l = total l'
  := by
  let s := (l.map Prod.fst).toFinset ∪ (l'.map Prod.fst).toFinset
  have hl : (l.map Prod.fst).toFinset ⊆ s := Finset.subset_union_left
  have hl' : (l'.map Prod.fst).toFinset ⊆ s := Finset.subset_union_right
  rw [total_eq_sum hl, total_eq_sum hl']
  apply Finset.sum_congr rfl
  intro k _
  apply h

/-- One more reading adds what it exceeds the peak by. -/
theorem total_concat (l : List (κ × ℤ)) (k : κ) (v : ℤ) :
  total (l ++ [(k, v)]) = total l + max 0 (v - peak l k)
  := by
  let s := insert k (l.map Prod.fst).toFinset
  have hs : k ∈ s := Finset.mem_insert_self _ _
  have hl : total l = ∑ i ∈ s, peak l i := total_eq_sum (Finset.subset_insert _ _)
  have hl' : total (l ++ [(k, v)]) = ∑ i ∈ s, peak (l ++ [(k, v)]) i := by
    apply total_eq_sum
    intro i hi
    simpa [s, or_comm] using hi
  have hk : peak (l ++ [(k, v)]) k = peak l k + max 0 (v - peak l k) := by
    have := peak_nonneg l k
    rw [peak_append, peak_singleton, if_pos rfl]
    omega
  have hne : ∀ i ∈ s.erase k, peak (l ++ [(k, v)]) i = peak l i := by
    intro i hi
    rw [peak_append, peak_singleton, if_neg (Finset.ne_of_mem_erase hi).symm]
    apply max_eq_left (peak_nonneg l i)
  calc _ = peak (l ++ [(k, v)]) k + ∑ i ∈ s.erase k, peak (l ++ [(k, v)]) i := by
        rw [hl', Finset.add_sum_erase s _ hs]
    _ = (peak l k + ∑ i ∈ s.erase k, peak l i) + max 0 (v - peak l k) := by
        rw [hk, Finset.sum_congr rfl hne, add_right_comm]
    _ = total l + max 0 (v - peak l k) := by rw [Finset.add_sum_erase s _ hs, hl]

end Peak
