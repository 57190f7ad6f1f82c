import Mathlib.Data.List.Infix
import GitAgent.Library.Trim

/-!
# Segments

The segments of a list between separators. Where the list begins and ends with no separator, a
segment is empty exactly if two separators are next to each other.
-/

namespace Segments

variable {α : Type} [DecidableEq α] {c : α}

theorem nil_mem_splitOn (as : List α) :
  [] ∈ as.splitOn c ↔ (as = [] ∨ [c] <+: as) ∨ [] ∈ (as.splitOn c).tail
  := by
  cases as with
  | nil => simp
  | cons a as =>
      rw [List.splitOn_cons_eq_if_modifyHead]
      by_cases ha : a = c
      · subst ha
        simp
      · obtain ⟨first, rest, hsplit⟩ := List.exists_cons_of_ne_nil (List.splitOn_ne_nil c as)
        have hca : ¬ c = a := fun h => ha h.symm
        rw [if_neg (by simpa using ha), hsplit]
        simp [hca]

/-- A segment after the first is empty exactly if the list ends with a separator, or has two next to
each other. -/
theorem nil_mem_tail_splitOn (as : List α) :
  [] ∈ (as.splitOn c).tail ↔ [c] <:+ as ∨ [c, c] <:+: as
  := by
  induction as with
  | nil => simp
  | cons a as ih =>
      rw [List.splitOn_cons_eq_if_modifyHead, List.suffix_cons_iff, List.infix_cons_iff,
        List.cons_prefix_cons]
      by_cases ha : a = c
      · subst ha
        rw [if_pos (by simp), List.tail_cons, nil_mem_splitOn, ih, List.cons_inj_right,
          eq_comm, and_iff_right rfl]
        tauto
      · obtain ⟨first, rest, hsplit⟩ := List.exists_cons_of_ne_nil (List.splitOn_ne_nil c as)
        have hca : ¬ c = a := fun h => ha h.symm
        rw [if_neg (by simpa using ha)]
        rw [hsplit] at ih ⊢
        simpa [hca] using ih

/-- No segment is empty exactly if no two separators are next to each other, in a list that begins
and ends with none. -/
theorem forall_ne_nil_iff {as : List α} (hbare : Trim.Bare (· = c) as) (hne : as ≠ []) :
  (∀ segment ∈ as.splitOn c, segment ≠ []) ↔ ¬ [c, c] <:+: as
  := by
  have hhead : ¬ [c] <+: as := by
    rintro ⟨rest, rfl⟩
    simpa using hbare.head c rfl
  have hlast : ¬ [c] <:+ as := by
    rintro ⟨rest, rfl⟩
    simpa using hbare.last c (by simp)
  have hmem := nil_mem_splitOn (c := c) as
  rw [nil_mem_tail_splitOn] at hmem
  constructor
  · intro h hinfix
    exact h [] (hmem.mpr (.inr (.inr hinfix))) rfl
  · rintro h segment hsegment rfl
    rcases hmem.mp hsegment with (hnil | hstart) | hsuffix | hinfix
    · exact hne hnil
    · exact hhead hstart
    · exact hlast hsuffix
    · exact h hinfix

/-- There is one segment exactly if there is no separator. -/
theorem length_splitOn_eq_one_iff {as : List α} :
  (as.splitOn c).length = 1 ↔ c ∉ as
  := by
  constructor
  · intro h hmem
    obtain ⟨before, after, rfl⟩ := List.append_of_mem hmem
    rw [List.splitOn_append_cons_self, List.length_append] at h
    have hbefore := List.length_pos_of_ne_nil (List.splitOn_ne_nil c before)
    have hafter := List.length_pos_of_ne_nil (List.splitOn_ne_nil c after)
    omega
  · intro h
    rw [List.splitOn_eq_singleton h, List.length_singleton]

end Segments
