import Mathlib.Data.List.DropRight
import Mathlib.Data.List.MinMax

/-!
# The most recent entries

A queue of bounded length keeps the most recent entries: when one is appended and the queue is
full, the oldest one is dropped (`Recent.push`). Whatever was appended, the queue has the last
entries of all (`Recent.pushAll_rtake`), so that what is counted in it is counted in these. Of what
occurs in it the most frequent is `Recent.mostCommon`.
-/

universe u v

namespace Recent

variable {α : Type u} {β : Type v} (n : ℕ)

/-- The queue of at most `n` entries after one was appended. -/
def push (q : List α) (x : α) : List α :=
  (q ++ [x]).rtake n

/-- The queue after some entries were appended in turn. -/
def pushAll (q : List α) (xs : List α) : List α :=
  xs.foldl (push n) q

/-- The last entries of the last entries. -/
theorem rtake_rtake (l : List α) (m : ℕ) :
  (l.rtake m).rtake n = l.rtake (min n m)
  := by
  simp only [List.rtake_eq_reverse_take_reverse, List.reverse_reverse, List.take_take]

/-- A queue with the last entries of all has the last ones after one was appended. -/
theorem push_rtake (l : List α) (x : α) :
  push n (l.rtake n) x = (l ++ [x]).rtake n
  := by
  cases n with
  | zero => simp [push]
  | succ n =>
      rw [push, List.rtake_concat_succ, rtake_rtake, List.rtake_concat_succ,
        Nat.min_eq_left n.le_succ]

/-- A queue with the last entries of all has the last ones after some were appended. -/
theorem pushAll_rtake (l xs : List α) :
  pushAll n (l.rtake n) xs = (l ++ xs).rtake n
  := by
  induction xs generalizing l with
  | nil => rw [List.append_nil, pushAll, List.foldl_nil]
  | cons x xs ih => rw [pushAll, List.foldl_cons, push_rtake, ← pushAll, ih, ← List.append_cons]

/-- The last images are the images of the last entries. -/
theorem rtake_map (f : α → β) (l : List α) :
  (l.map f).rtake n = (l.rtake n).map f
  := by rw [List.rtake, List.rtake, List.length_map, List.map_drop]

section

variable [DecidableEq α] {n : ℕ}

/-- What occurs most in a list, the first of these if there are several, and how often it does. -/
def mostCommon (l : List α) : Option (α × ℕ) :=
  (l.argmax fun x => l.count x).map fun x => (x, l.count x)

/-- What occurs most occurs `n` times exactly if anything does. -/
theorem le_mostCommon_iff [Nonempty α] (l : List α) (y : α) :
  n ≤ ((mostCommon l).getD (y, 0)).2 ↔ ∃ x, n ≤ l.count x
  := by
  rw [mostCommon]
  cases hl : l.argmax fun x => l.count x with
  | none =>
      obtain rfl := List.argmax_eq_none.mp hl
      simp
  | some x =>
      constructor
      · intro h
        exact ⟨x, h⟩
      · rintro ⟨z, hz⟩
        by_cases hmem : z ∈ l
        · exact hz.trans (List.le_of_mem_argmax hmem hl)
        · rw [List.count_eq_zero.mpr hmem] at hz
          exact hz.trans (Nat.zero_le _)

end

end Recent
