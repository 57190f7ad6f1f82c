import Mathlib.Data.List.Sort
import Mathlib.Order.Basic

/-!
# Sorting by a rank

A list that is sorted by a rank, in which elements of one rank stay in their order. A relation between
the elements of the list and later ones still holds between those of one rank.
-/

namespace Ranked

variable {α : Type} (rank : α → ℕ)

/-- The relation by which a list is sorted. -/
abbrev Le (a b : α) : Prop :=
  rank a ≤ rank b

/-- The list by increasing ranks. -/
def sortBy (as : List α) : List α :=
  as.insertionSort (Le rank)

theorem perm_sortBy (as : List α) :
  (sortBy rank as).Perm as
  := List.perm_insertionSort _ as

theorem pairwise_rank (as : List α) :
  (sortBy rank as).Pairwise (Le rank)
  := by
  have htotal : Std.Total (Le rank) := ⟨fun a b => le_total (rank a) (rank b)⟩
  have htrans : IsTrans α (Le rank) := ⟨fun _ _ _ => le_trans⟩
  apply List.pairwise_insertionSort

/-- The elements of one rank stay in their order. -/
theorem filter_sortBy (k : ℕ) (as : List α) :
  (sortBy rank as).filter (fun a => rank a = k) = as.filter fun a => rank a = k
  := by
  have htotal : Std.Total (Le rank) := ⟨fun a b => le_total (rank a) (rank b)⟩
  have htrans : IsTrans α (Le rank) := ⟨fun _ _ _ => le_trans⟩
  have hrank : (as.filter fun a => rank a = k).Pairwise (Le rank) := by
    apply List.pairwise_of_forall_mem_list
    intro a ha b hb
    have hka : rank a = k := by simpa using (List.mem_filter.mp ha).2
    have hkb : rank b = k := by simpa using (List.mem_filter.mp hb).2
    rw [Le, hka, hkb]
  have hsub : (as.filter fun a => rank a = k).Sublist (sortBy rank as) :=
    List.sublist_insertionSort hrank List.filter_sublist
  have hfilter := hsub.filter fun a => rank a = k
  rw [List.filter_filter] at hfilter
  simp only [Bool.and_self] at hfilter
  exact (hfilter.eq_of_length ((perm_sortBy rank as).symm.filter _).length_eq).symm

/-- Elements are in the order of their ranks, and those of one rank are related as they were. -/
theorem pairwise_sortBy {R : α → α → Prop} {as : List α} (h : as.Pairwise R) :
  (sortBy rank as).Pairwise fun a b => rank a < rank b ∨ rank a = rank b ∧ R a b
  := by
  rw [List.pairwise_iff_forall_sublist]
  intro a b hab
  rcases lt_or_eq_of_le (List.pairwise_iff_forall_sublist.mp (pairwise_rank rank as) hab) with hlt | heq
  · exact .inl hlt
  · right
    refine ⟨heq, ?_⟩
    have hfilter := hab.filter fun c => rank c = rank b
    rw [filter_sortBy, List.filter_cons_of_pos (by simpa using heq),
      List.filter_cons_of_pos (by simp), List.filter_nil] at hfilter
    exact List.pairwise_iff_forall_sublist.mp h (hfilter.trans List.filter_sublist)

end Ranked
