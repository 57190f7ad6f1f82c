import Mathlib.Data.List.Infix

/-!
# The last occurrence of a separator

A list that is split at the last place where a separator occurs. Where the first element of the
separator is in it only once, occurrences of it do not overlap, and what is put after a separator
without an occurrence of its own is what is split off.
-/

namespace Occurrence

variable {α : Type} [DecidableEq α]

/-- What stands before and after the last occurrence of `sep`. -/
def rpartition (sep : List α) : List α → Option (List α × List α)
  | [] => if sep = [] then some ([], []) else none
  | a :: as =>
      match rpartition sep as with
      | some (head, tail) => some (a :: head, tail)
      | none =>
          if sep.isPrefixOf (a :: as) then some ([], (a :: as).drop sep.length) else none

/-- What stands before and after the first `c`, and nothing after it if there is none. -/
def partition (c : α) (as : List α) : List α × List α :=
  (as.takeWhile (· ≠ c), (as.dropWhile (· ≠ c)).drop 1)

variable {sep as head tail : List α} {c : α}

/-- There is no place to split a list exactly if the separator does not occur in it. -/
theorem rpartition_eq_none_iff :
  rpartition sep as = none ↔ ¬ sep <:+: as
  := by
  induction as with
  | nil => simp [rpartition]
  | cons a as ih =>
      rw [rpartition, List.infix_cons_iff, not_or]
      cases hsplit : rpartition sep as with
      | none => simp [ih.mp hsplit]
      | some p =>
          have hnot : ¬ ¬ sep <:+: as := by
            intro hnone
            rw [ih.mpr hnone] at hsplit
            contradiction
          simp [hnot]

/-- A list that is split is what stands before, the separator, and what stands after it. -/
theorem eq_of_rpartition (h : rpartition sep as = some (head, tail)) :
  as = head ++ sep ++ tail
  := by
  induction as generalizing head with
  | nil =>
      rw [rpartition] at h
      split at h
      · rename_i hsep
        obtain ⟨rfl, rfl⟩ := Prod.mk.inj (Option.some.inj h)
        rw [hsep]
        rfl
      · contradiction
  | cons a as ih =>
      rw [rpartition] at h
      split at h
      · rename_i head' tail' hsplit
        obtain ⟨rfl, rfl⟩ := Prod.mk.inj (Option.some.inj h)
        rw [ih hsplit, List.cons_append, List.cons_append]
      · split at h
        · rename_i hstart
          obtain ⟨rfl, rfl⟩ := Prod.mk.inj (Option.some.inj h)
          obtain ⟨rest, hrest⟩ := List.isPrefixOf_iff_prefix.mp hstart
          rw [← hrest, List.drop_left, List.nil_append]
        · contradiction

omit [DecidableEq α] in
/-- What the separator does not begin in, it does not occur across. -/
theorem infix_of_infix_append (hc : c ∉ as) (h : c :: sep <:+: as ++ tail) :
  c :: sep <:+: tail
  := by
  induction as with
  | nil => exact h
  | cons a as ih =>
      rw [List.mem_cons, not_or] at hc
      rw [List.cons_append, List.infix_cons_iff] at h
      rcases h with hstart | hinfix
      · exact absurd (List.cons_prefix_cons.mp hstart).1 hc.1
      · exact ih hc.2 hinfix

/-- **A list is split at the last separator**: where one is followed by no other one, it is split
there, whatever stands before it. -/
theorem rpartition_append (hc : c ∉ sep) (h : ¬ c :: sep <:+: tail) (head : List α) :
  rpartition (c :: sep) (head ++ c :: sep ++ tail) = some (head, tail)
  := by
  induction head with
  | nil =>
      have hnone : rpartition (c :: sep) (sep ++ tail) = none :=
        rpartition_eq_none_iff.mpr fun hinfix => h (infix_of_infix_append hc hinfix)
      have hstart : (c :: sep).isPrefixOf (c :: (sep ++ tail)) = true :=
        List.isPrefixOf_iff_prefix.mpr (List.prefix_append (c :: sep) tail)
      rw [List.nil_append, List.cons_append, rpartition, hnone]
      dsimp only
      rw [if_pos hstart, ← List.cons_append, List.drop_left]
  | cons a head ih =>
      rw [List.cons_append, List.cons_append, rpartition, ih]

/-- What stands before a `c` is what is split off. -/
theorem partition_append (h : c ∉ head) (tail : List α) :
  partition c (head ++ c :: tail) = (head, tail)
  := by
  have hne : ∀ a ∈ head, decide (a ≠ c) = true := by
    intro a ha
    apply decide_eq_true
    rintro rfl
    exact h ha
  rw [partition, List.takeWhile_append_of_pos hne, List.dropWhile_append_of_pos hne]
  simp

/-- A list is what stands before the first `c`, and either nothing else, or it and what stands after
it. -/
theorem eq_of_partition (c : α) (as : List α) :
  as = (partition c as).1 ∧ (partition c as).2 = [] ∨
    as = (partition c as).1 ++ c :: (partition c as).2
  := by
  have hsplit := List.takeWhile_append_dropWhile (p := (· ≠ c)) (l := as)
  rw [partition]
  cases hdrop : as.dropWhile (· ≠ c) with
  | nil =>
      rw [hdrop, List.append_nil] at hsplit
      exact .inl ⟨hsplit.symm, rfl⟩
  | cons a rest =>
      have ha : a = c := by
        have := List.head?_dropWhile_not (p := (· ≠ c)) as
        rw [hdrop] at this
        simpa using this
      subst ha
      rw [hdrop] at hsplit
      exact .inr hsplit.symm

end Occurrence
