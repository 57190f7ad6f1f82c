import Mathlib.Algebra.GroupWithZero.Nat
import Mathlib.Algebra.BigOperators.Group.List.Basic
import Mathlib.Algebra.Order.Group.Nat
import Mathlib.Logic.Function.Basic

/-!
# Pools of tasks

The tasks of a scheduler are a list, numbered by their positions: a new task is appended and
no task is removed. `Pool.attr f l` is the value of the partial attribute `f` at each task,
so that moving one task updates the attribute at that task only (`Pool.attr_set`), and not at
all if the move keeps it (`Pool.attr_set_of_eq`). `Pool.weight f l` is the sum of `f` over
the tasks.
-/

universe u v

namespace Pool

variable {π : Type u} {α : Type v}

/-- The value of `f` at the task numbered `t`, if there is such a task and `f` is defined at
it. -/
def attr (f : π → Option α) (l : List π) (t : ℕ) : Option α :=
  l[t]?.bind f

variable {f : π → Option α} {l : List π} {t : ℕ} {p q : π}

theorem attr_of_getElem? (h : l[t]? = some p) :
  attr f l t = f p
  := by
  rw [attr, h]
  rfl

/-- Where an attribute is defined there is a task. -/
theorem exists_of_attr {a : α} (h : attr f l t = some a) :
  ∃ p, l[t]? = some p ∧ f p = some a
  := Option.bind_eq_some_iff.mp h

/-- Moving the task `t` to `q` updates the attribute at `t`. -/
theorem attr_set (h : l[t]? = some p) :
  attr f (l.set t q) = Function.update (attr f l) t (f q)
  := by
  funext t'
  have ht := (List.getElem?_eq_some_iff.mp h).1
  rw [attr, List.getElem?_set, Function.update_apply]
  by_cases e : t = t'
  · subst e
    simp [ht]
  · rw [if_neg e, if_neg (Ne.symm e), attr]

/-- A move that keeps the attribute of the task does not change the attribute. -/
theorem attr_set_of_eq (h : l[t]? = some p) (hf : f q = f p) :
  attr f (l.set t q) = attr f l
  := by
  rw [attr_set h, hf, ← attr_of_getElem? (f := f) h, Function.update_eq_self]

/-- A move that keeps the attribute of the task or drops it makes no new value of the
attribute. -/
theorem attr_of_set {a : α} {t' : ℕ} (h : l[t]? = some p) (hq : f q = f p ∨ f q = none)
    (ha : Function.update (attr f l) t (f q) t' = some a) :
  attr f l t' = some a
  := by
  rw [Function.update_apply] at ha
  split at ha
  · rename_i e
    subst e
    rcases hq with hq | hq
    · rw [attr_of_getElem? h, ← hq, ha]
    · rw [hq] at ha
      contradiction
  · apply ha

/-- A new task has the number that comes next. -/
theorem attr_concat (t' : ℕ) :
  attr f (l ++ [q]) t' = if t' = l.length then f q else attr f l t'
  := by
  rw [attr, attr]
  rcases lt_trichotomy t' l.length with h | h | h
  · rw [List.getElem?_append_left h, if_neg h.ne]
  · subst h
    simp
  · rw [List.getElem?_eq_none (by simp; omega), List.getElem?_eq_none (le_of_lt h),
      if_neg h.ne']

/-- A new task without the attribute does not change the attribute. -/
theorem attr_append (hf : f q = none) :
  attr f (l ++ [q]) = attr f l
  := by
  funext t'
  rw [attr_concat]
  split
  · rename_i h
    rw [hf, h, attr, List.getElem?_eq_none le_rfl]
    rfl
  · rfl

/-- Rewriting the task `t` by `g` changes the attribute at `t` only. -/
theorem attr_modify_apply {g : π → π} (t' : ℕ) :
  attr f (l.modify t g) t' = if t' = t then l[t]?.bind fun p => f (g p) else attr f l t'
  := by
  rw [attr, List.getElem?_modify]
  by_cases e : t' = t
  · subst e
    cases l[t']? <;> simp
  · cases h : l[t']? <;> simp [e, Ne.symm e, attr, h]

/-- Rewriting one task by a function that keeps the attribute does not change the
attribute. -/
theorem attr_modify {g : π → π} (hg : ∀ p, f (g p) = f p) :
  attr f (l.modify t g) = attr f l
  := by
  funext t'
  rw [attr_modify_apply]
  split
  · rename_i e
    simp only [e, hg, attr]
  · rfl

/-- The sum of `f` over the tasks. -/
def weight (f : π → ℕ) (l : List π) : ℕ :=
  (l.map f).sum

/-- Moving a task from `p` to `q` trades the weight of `p` for that of `q`. -/
theorem weight_set {f : π → ℕ} (h : l[t]? = some p) :
  weight f (l.set t q) + f p = weight f l + f q
  := by
  induction l generalizing t with
  | nil => contradiction
  | cons a l ih =>
      cases t with
      | zero =>
          obtain rfl : a = p := by simpa using h
          simp only [weight, List.set_cons_zero, List.map_cons, List.sum_cons]
          omega
      | succ t =>
          have := ih (t := t) (by simpa using h)
          simp only [weight, List.set_cons_succ, List.map_cons, List.sum_cons] at this ⊢
          omega

theorem weight_append {f : π → ℕ} :
  weight f (l ++ [q]) = weight f l + f q
  := by
  simp [weight]

/-- Tasks without weight weigh nothing together. -/
theorem weight_eq_zero {f : π → ℕ} (h : ∀ p ∈ l, f p = 0) :
  weight f l = 0
  := by
  rw [weight, List.sum_eq_zero]
  intro n hn
  obtain ⟨p, hp, rfl⟩ := List.mem_map.mp hn
  apply h p hp

/-- Rewriting one task by a function that keeps the weight does not change the weight. -/
theorem weight_modify {f : π → ℕ} {g : π → π} (hg : ∀ p, f (g p) = f p) :
  weight f (l.modify t g) = weight f l
  := by
  induction l generalizing t with
  | nil => simp
  | cons a l ih =>
      cases t with
      | zero => simp [weight, hg]
      | succ t =>
          have := ih (t := t)
          simp only [weight, List.modify_succ_cons, List.map_cons, List.sum_cons] at this ⊢
          rw [this]

end Pool
