import Mathlib.Data.List.Sort
import Mathlib.Data.List.Perm.Basic
import GitAgent.Library.Dict

/-!
# Groups of a list

The values of a list by their keys, in a dictionary, and the items of a dictionary in the order of
its keys.
-/

namespace Group

variable {α κ ν : Type}

section

variable [DecidableEq κ] (key : α → κ)

/-- A value more in the group of its key. -/
def add (d : Dict κ (List α)) (a : α) : Dict κ (List α) :=
  d.set (key a) ((d.get (key a)).getD [] ++ [a])

/-- The values of a list, grouped by their keys. -/
def group (as : List α) : Dict κ (List α) :=
  as.foldl (add key) Dict.empty

variable {key}

theorem get_foldl_add (as : List α) (d : Dict κ (List α)) (k : κ) :
  (as.foldl (add key) d).get k =
    if as.filter (key · = k) = [] then d.get k
    else some ((d.get k).getD [] ++ as.filter (key · = k))
  := by
  induction as generalizing d with
  | nil => rfl
  | cons a as ih =>
      rw [List.foldl_cons, ih, add, Dict.get_set]
      by_cases hk : k = key a
      · subst hk
        rw [if_pos rfl, List.filter_cons_of_pos (p := (key · = key a)) (decide_eq_true rfl),
          Option.getD_some, List.append_assoc, List.singleton_append,
          if_neg (List.cons_ne_nil _ _)]
        split
        · rename_i h
          rw [h]
        · rfl
      · rw [if_neg hk, List.filter_cons_of_neg]
        simpa using fun h => hk h.symm

/-- The group of a key is the list of the values that have it, and there is one only if there are
such values. -/
theorem get_group (as : List α) (k : κ) :
  (group key as).get k =
    if as.filter (key · = k) = [] then none else some (as.filter (key · = k))
  := get_foldl_add as Dict.empty k

end

/-! ### The order of the keys -/

variable [LinearOrder κ]

/-- The items of a dictionary in the order of their keys. -/
def sorted (d : Dict κ ν) : List (κ × ν) :=
  d.items.insertionSort fun i j => i.1 ≤ j.1

theorem mem_sorted {d : Dict κ ν} {i : κ × ν} :
  i ∈ sorted d ↔ d.get i.1 = some i.2
  := by
  rw [sorted, List.mem_insertionSort]
  exact ⟨Dict.get_of_mem, Dict.mem_of_get⟩

theorem map_fst_sorted (d : Dict κ ν) :
  (sorted d).map Prod.fst = (d.items.map Prod.fst).insertionSort (· ≤ ·)
  := List.map_insertionSort _ _ _ _ fun _ _ _ _ => Iff.rfl

theorem nodup_sorted (d : Dict κ ν) :
  ((sorted d).map Prod.fst).Nodup
  := by
  rw [map_fst_sorted]
  exact (List.perm_insertionSort _ _).nodup_iff.mpr d.nodup

/-- The keys of a list, in their order. -/
def keys (key : α → κ) (as : List α) : List κ :=
  (sorted (group key as)).map Prod.fst

variable {key : α → κ}

theorem mem_keys {as : List α} {k : κ} :
  k ∈ keys key as ↔ ∃ a ∈ as, key a = k
  := by
  rw [keys, map_fst_sorted, List.mem_insertionSort, ← not_iff_not, ← Dict.get_eq_none_iff,
    get_group]
  simp [List.filter_eq_nil_iff]

/-- The groups of a list in the order of their keys. -/
theorem sorted_group (as : List α) :
  sorted (group key as) = (keys key as).map fun k => (k, as.filter (key · = k))
  := by
  rw [keys, List.map_map, List.map_congr_left, List.map_id]
  intro i hi
  rw [mem_sorted, get_group] at hi
  split at hi
  · contradiction
  · rw [id_eq, Function.comp_apply, Option.some.inj hi]

/-- The keys of a list do not depend on its order. -/
theorem keys_perm {as bs : List α} (h : as.Perm bs) :
  keys key as = keys key bs
  := by
  have hperm : (keys key as).Perm (keys key bs) := by
    apply (List.perm_ext_iff_of_nodup (nodup_sorted _) (nodup_sorted _)).mpr
    intro k
    change k ∈ keys key as ↔ k ∈ keys key bs
    rw [mem_keys, mem_keys]
    simp only [h.mem_iff]
  rw [keys, keys, map_fst_sorted, map_fst_sorted] at hperm ⊢
  exact hperm.eq_of_sortedLE List.sortedLE_insertionSort List.sortedLE_insertionSort

end Group
