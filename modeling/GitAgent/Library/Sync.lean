import Mathlib.Data.List.Basic
import Mathlib.Data.Option.Basic

/-!
# Locks and semaphores of a cooperative scheduler

A `Lock` and a `Semaphore` as the tasks of one event loop use them. A task that starts to
acquire joins the queue (`wait`), and proceeds when it is `Ready`: it is first in the queue
and the lock is free, or a permit is. A task whose wait is cancelled leaves the queue.

`Lock.Held l holds` states that every task of which `holds` is true owns `l`. It gives
mutual exclusion (`Lock.Held.unique`) and is kept by acquiring and releasing.
-/

universe u

namespace Sync

variable {τ : Type u}

/-- A lock: the task that owns it, and the queue of the tasks waiting for it. -/
structure Lock (τ : Type u) where
  owner : Option τ
  waiters : List τ
  deriving DecidableEq, Repr

namespace Lock

/-- The lock that no task owns or waits for. -/
def free : Lock τ :=
  ⟨none, []⟩

/-- Whether some task owns the lock. -/
def locked (l : Lock τ) : Bool :=
  l.owner.isSome

/-- `t` joins the queue. -/
def wait (l : Lock τ) (t : τ) : Lock τ :=
  { l with waiters := l.waiters ++ [t] }

/-- The lock is free and `t` is first in the queue. -/
def Ready (l : Lock τ) (t : τ) : Prop :=
  l.owner = none ∧ l.waiters.head? = some t

instance [DecidableEq τ] (l : Lock τ) (t : τ) : Decidable (l.Ready t) :=
  inferInstanceAs (Decidable (_ ∧ _))

/-- The first task of the queue, `t`, becomes the owner. -/
def acquire (l : Lock τ) (t : τ) : Lock τ :=
  ⟨some t, l.waiters.tail⟩

/-- The owner gives the lock up. -/
def release (l : Lock τ) : Lock τ :=
  { l with owner := none }

/-- `t` gives up waiting. -/
def leave [DecidableEq τ] (l : Lock τ) (t : τ) : Lock τ :=
  { l with waiters := l.waiters.erase t }

@[simp]
theorem wait_owner (l : Lock τ) (t : τ) :
  (l.wait t).owner = l.owner
  := rfl

@[simp]
theorem leave_owner [DecidableEq τ] (l : Lock τ) (t : τ) :
  (l.leave t).owner = l.owner
  := rfl

@[simp]
theorem acquire_owner (l : Lock τ) (t : τ) :
  (l.acquire t).owner = some t
  := rfl

@[simp]
theorem release_owner (l : Lock τ) :
  l.release.owner = none
  := rfl

/-- Every task that satisfies `holds` owns the lock. -/
def Held (l : Lock τ) (holds : τ → Prop) : Prop :=
  ∀ t, holds t → l.owner = some t

namespace Held

variable {l l' : Lock τ} {holds holds' : τ → Prop}

/-- At most one task holds a lock. -/
theorem unique (h : l.Held holds) {t t' : τ} (ht : holds t) (ht' : holds t') :
  t = t'
  := by
  apply Option.some.inj
  rw [← h t ht, ← h t' ht']

/-- Nobody holds a lock that is ready for a waiter. -/
theorem not_holds (h : l.Held holds) {t : τ} (hr : l.Ready t) (t' : τ) :
  ¬ holds t'
  := by
  intro ht'
  have ho := hr.1
  rw [h t' ht'] at ho
  contradiction

/-- A lock with the same owner is held by at most the same tasks. -/
theorem mono (h : l.Held holds) (ho : l'.owner = l.owner)
    (hh : ∀ t, holds' t → holds t) :
  l'.Held holds'
  := by
  intro t ht
  rw [ho]
  apply h t (hh t ht)

/-- After `t` acquired a ready lock, `t` holds it and no one else does. -/
theorem acquire (h : l.Held holds) {t : τ} (hr : l.Ready t)
    (hh : ∀ t', holds' t' → t' = t ∨ holds t') :
  (l.acquire t).Held holds'
  := by
  intro t' ht'
  rcases hh t' ht' with rfl | ht'
  · rfl
  · apply absurd ht' (h.not_holds hr t')

/-- After the holder `t` released the lock, nobody holds it. -/
theorem release (h : l.Held holds) {t : τ} (ht : holds t)
    (hh : ∀ t', holds' t' → t' ≠ t ∧ holds t') :
  l.release.Held holds'
  := by
  intro t' ht'
  obtain ⟨hne, ht'⟩ := hh t' ht'
  apply absurd (h.unique ht' ht) hne

end Held

end Lock

/-- A counting semaphore: its free permits, and the queue of the tasks waiting for one. -/
structure Semaphore (τ : Type u) where
  value : ℕ
  waiters : List τ
  deriving DecidableEq, Repr

namespace Semaphore

/-- The semaphore with `n` free permits and no waiting task. -/
def ofPermits (n : ℕ) : Semaphore τ :=
  ⟨n, []⟩

/-- `t` joins the queue. -/
def wait (s : Semaphore τ) (t : τ) : Semaphore τ :=
  { s with waiters := s.waiters ++ [t] }

/-- A permit is free and `t` is first in the queue. -/
def Ready (s : Semaphore τ) (t : τ) : Prop :=
  0 < s.value ∧ s.waiters.head? = some t

instance [DecidableEq τ] (s : Semaphore τ) (t : τ) : Decidable (s.Ready t) :=
  inferInstanceAs (Decidable (_ ∧ _))

/-- The first task of the queue takes a permit. -/
def acquire (s : Semaphore τ) : Semaphore τ :=
  ⟨s.value - 1, s.waiters.tail⟩

/-- A permit is given back. -/
def release (s : Semaphore τ) : Semaphore τ :=
  { s with value := s.value + 1 }

/-- `t` gives up waiting. -/
def leave [DecidableEq τ] (s : Semaphore τ) (t : τ) : Semaphore τ :=
  { s with waiters := s.waiters.erase t }

@[simp]
theorem wait_value (s : Semaphore τ) (t : τ) :
  (s.wait t).value = s.value
  := rfl

@[simp]
theorem leave_value [DecidableEq τ] (s : Semaphore τ) (t : τ) :
  (s.leave t).value = s.value
  := rfl

@[simp]
theorem release_value (s : Semaphore τ) :
  s.release.value = s.value + 1
  := rfl

/-- Acquiring takes exactly one of the free permits. -/
theorem acquire_value {s : Semaphore τ} {t : τ} (h : s.Ready t) :
  s.acquire.value + 1 = s.value
  := Nat.sub_add_cancel h.1

/-- A permit is left for the waiting task `t`: fewer tasks are ahead of it than permits are
free. -/
def Served (s : Semaphore τ) (t : τ) : Prop :=
  t ∈ s.waiters.take s.value

namespace Served

variable {s : Semaphore τ} {t t' : τ}

/-- A waiting task is served while no more tasks wait than permits are free. -/
theorem of_length_le (h : t ∈ s.waiters) (hl : s.waiters.length ≤ s.value) :
  s.Served t
  := by
  rw [Served, List.take_of_length_le hl]
  apply h

/-- Nobody is served without a free permit. -/
theorem value_ne_zero (h : s.Served t) :
  s.value ≠ 0
  := by
  intro hv
  rw [Served, hv, List.take_zero] at h
  contradiction

/-- A task that joins the queue takes nobody's permit. -/
theorem wait (h : s.Served t) :
  (s.wait t').Served t
  := by
  rw [Served, Semaphore.wait, List.take_append]
  apply List.mem_append_left _ h

/-- A permit that is given back is taken from nobody. -/
theorem mono {s' : Semaphore τ} (h : s.Served t) (hw : s'.waiters = s.waiters)
    (hv : s.value ≤ s'.value) :
  s'.Served t
  := by
  rw [Served, hw]
  apply List.take_subset_take_left _ hv h

/-- The first task of the queue takes its own permit. -/
theorem acquire (h : s.Served t) (hr : s.Ready t') (hne : t ≠ t') :
  s.acquire.Served t
  := by
  obtain ⟨value, waiters⟩ := s
  obtain ⟨hv, hh⟩ := hr
  cases waiters with
  | nil => contradiction
  | cons a l =>
      obtain rfl : a = t' := Option.some.inj hh
      obtain ⟨n, rfl⟩ := Nat.exists_eq_succ_of_ne_zero (Nat.pos_iff_ne_zero.mp hv)
      rw [Served, List.take_succ_cons, List.mem_cons] at h
      apply h.resolve_left hne

/-- A task that leaves the queue takes nobody's permit. -/
theorem leave [DecidableEq τ] (h : s.Served t) (hne : t ≠ t') :
  (s.leave t').Served t
  := by
  obtain ⟨value, waiters⟩ := s
  simp only [Served, Semaphore.leave] at h ⊢
  induction waiters generalizing value with
  | nil => simp at h
  | cons a l ih =>
      cases value with
      | zero => simp at h
      | succ n =>
          rw [List.take_succ_cons, List.mem_cons] at h
          by_cases e : a = t'
          · subst e
            rw [List.erase_cons_head]
            apply List.take_subset_take_left l (Nat.le_succ n) (h.resolve_left hne)
          · rw [List.erase_cons_tail (by simpa using e), List.take_succ_cons, List.mem_cons]
            rcases h with h | h
            · exact .inl h
            · exact .inr (ih n h)

end Served

/-- A waiting task other than the first stays in the queue when the first takes a permit. -/
theorem mem_acquire {s : Semaphore τ} {t t' : τ} (h : t ∈ s.waiters) (hr : s.Ready t')
    (hne : t ≠ t') :
  t ∈ s.acquire.waiters
  := by
  obtain ⟨value, waiters⟩ := s
  cases waiters with
  | nil => contradiction
  | cons a l =>
      obtain rfl : a = t' := Option.some.inj hr.2
      apply (List.mem_cons.mp h).resolve_left hne

end Semaphore

end Sync
