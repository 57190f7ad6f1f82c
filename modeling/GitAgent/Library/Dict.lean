import Mathlib.Data.List.Nodup
import Mathlib.Data.List.Lemmas

/-!
# Insertion-ordered dictionaries

A `Dict` lists its items in the order in which their keys were first set; the keys are
pairwise different. Setting a key that is present replaces the value in its place.
-/

universe u v

/-- A dictionary: its items in insertion order, with pairwise different keys. -/
structure Dict (κ : Type u) (ν : Type v) where
  items : List (κ × ν)
  nodup : (items.map Prod.fst).Nodup

namespace Dict

variable {κ : Type u} {ν : Type v} [DecidableEq κ]

/-- The dictionary without items. -/
def empty : Dict κ ν :=
  ⟨[], List.nodup_nil⟩

/-- The value of a key, if it is present. -/
def get (d : Dict κ ν) (k : κ) : Option ν :=
  (d.items.find? fun i => i.1 = k).map Prod.snd

/-- The number of items. -/
def size (d : Dict κ ν) : ℕ :=
  d.items.length

theorem get_eq_none_iff {d : Dict κ ν} {k : κ} :
  d.get k = none ↔ k ∉ d.items.map Prod.fst
  := by
  rw [get, Option.map_eq_none_iff, List.find?_eq_none, List.mem_map]
  simp only [decide_eq_true_eq, not_exists, not_and]

/-- An item of the dictionary is the value of its key. -/
theorem get_of_mem {d : Dict κ ν} {k : κ} {v : ν} (h : (k, v) ∈ d.items) :
  d.get k = some v
  := by
  cases hf : d.get k with
  | none => apply absurd (List.mem_map_of_mem h) (get_eq_none_iff.mp hf)
  | some v' =>
      obtain ⟨i, hi, rfl⟩ := Option.map_eq_some_iff.mp hf
      have hk : i.1 = k := by simpa using List.find?_some hi
      have := List.inj_on_of_nodup_map d.nodup (List.mem_of_find?_eq_some hi) h hk
      rw [this]

/-- The value of a key is one of the items. -/
theorem mem_of_get {d : Dict κ ν} {k : κ} {v : ν} (h : d.get k = some v) :
  (k, v) ∈ d.items
  := by
  obtain ⟨i, hi, rfl⟩ := Option.map_eq_some_iff.mp h
  obtain rfl : i.1 = k := by simpa using List.find?_some hi
  apply List.mem_of_find?_eq_some hi

/-- Appending a key that is absent. -/
def insert (d : Dict κ ν) (k : κ) (v : ν) (h : d.get k = none) : Dict κ ν where
  items := d.items ++ [(k, v)]
  nodup := by
    rw [List.map_append, List.nodup_append]
    refine ⟨d.nodup, by simp, ?_⟩
    rintro a ha b hb rfl
    obtain rfl : a = k := by simpa using hb
    apply get_eq_none_iff.mp h ha

/-- Replacing the value of `k` in its place. -/
def replace (d : Dict κ ν) (k : κ) (v : ν) : Dict κ ν where
  items := d.items.map fun i => if i.1 = k then (i.1, v) else i
  nodup := by
    rw [List.map_map]
    convert d.nodup using 2
    funext i
    simp only [Function.comp_apply]
    split <;> rfl

/-- Setting the value of `k`. -/
def set (d : Dict κ ν) (k : κ) (v : ν) : Dict κ ν :=
  if h : d.get k = none then d.insert k v h else d.replace k v

/-- Removing `k`. -/
def erase (d : Dict κ ν) (k : κ) : Dict κ ν where
  items := d.items.filter fun i => i.1 ≠ k
  nodup := (List.filter_sublist.map _).nodup d.nodup

@[simp]
theorem get_empty (k : κ) :
  (empty : Dict κ ν).get k = none
  := rfl

theorem get_insert (d : Dict κ ν) (k : κ) (v : ν) (h : d.get k = none) (k' : κ) :
  (d.insert k v h).get k' = if k' = k then some v else d.get k'
  := by
  simp only [get, insert, List.find?_append]
  by_cases e : k' = k
  · subst e
    rw [get, Option.map_eq_none_iff] at h
    simp [h]
  · have e' : ¬ k = k' := fun hk => e hk.symm
    simp [e, e']

theorem get_replace (d : Dict κ ν) (k : κ) (v : ν) (h : d.get k ≠ none) (k' : κ) :
  (d.replace k v).get k' = if k' = k then some v else d.get k'
  := by
  have hf : ((fun i : κ × ν => decide (i.1 = k')) ∘
      fun i => if i.1 = k then (i.1, v) else i) = fun i => decide (i.1 = k') := by
    funext i
    simp only [Function.comp_apply]
    split <;> rfl
  simp only [get, replace, List.find?_map, hf, Option.map_map]
  simp only [get, ne_eq, Option.map_eq_none_iff] at h
  by_cases e : k' = k
  · subst e
    obtain ⟨i, hi⟩ := Option.ne_none_iff_exists'.mp h
    have hk : i.1 = k' := by simpa using List.find?_some hi
    simp [hi, hk]
  · cases hi : d.items.find? fun i => decide (i.1 = k') with
    | none => simp [e]
    | some i =>
        have hk : i.1 = k' := by simpa using List.find?_some hi
        simp [e, hk]

@[simp]
theorem get_set (d : Dict κ ν) (k : κ) (v : ν) (k' : κ) :
  (d.set k v).get k' = if k' = k then some v else d.get k'
  := by
  rw [set]
  split
  · apply get_insert
  · rename_i h
    apply get_replace _ _ _ h

@[simp]
theorem get_erase (d : Dict κ ν) (k k' : κ) :
  (d.erase k).get k' = if k' = k then none else d.get k'
  := by
  simp only [get, erase, List.find?_filter]
  by_cases e : k' = k
  · subst e
    rw [if_pos rfl, Option.map_eq_none_iff, List.find?_eq_none]
    intro i _
    simp
  · rw [if_neg e]
    congr 2
    funext i
    by_cases hi : i.1 = k'
    · simp [hi, e]
    · simp [hi]

/-- Setting an absent key adds one item. -/
theorem size_set {d : Dict κ ν} {k : κ} (h : d.get k = none) (v : ν) :
  (d.set k v).size = d.size + 1
  := by
  simp [set, h, size, insert]

/-- Removing a key that is present removes one item. -/
theorem size_erase {d : Dict κ ν} {k : κ} {v : ν} (h : d.get k = some v) :
  (d.erase k).size + 1 = d.size
  := by
  obtain ⟨items, nodup⟩ := d
  simp only [get, size, erase] at h ⊢
  induction items with
  | nil => contradiction
  | cons i items ih =>
      rw [List.map_cons, List.nodup_cons] at nodup
      by_cases e : i.1 = k
      · subst e
        have hf : items.filter (fun j => decide (j.1 ≠ i.1)) = items := by
          rw [List.filter_eq_self]
          intro j hj
          apply decide_eq_true
          intro hji
          apply nodup.1
          rw [← hji]
          apply List.mem_map_of_mem hj
        rw [List.filter_cons_of_neg (by simp), hf, List.length_cons]
      · simp only [List.find?_cons, e, decide_false] at h
        have := ih nodup.2 h
        rw [List.filter_cons_of_pos (by simpa using e), List.length_cons, List.length_cons]
        omega

end Dict
