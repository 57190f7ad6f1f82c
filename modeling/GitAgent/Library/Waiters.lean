import Mathlib.Data.List.Basic
import Mathlib.Data.List.Nodup

/-!
# A semaphore of futures

The semaphore of an event loop, whose waiting tasks each wait for a future. A permit that is given
to a waiting task is taken from the semaphore at once, but the task goes on later, when the loop
comes to it, and may be interrupted before that; it then gives the permit back. While a task that
was woken has not gone on, new tasks wait behind it even if permits are free.

`Semaphore.Sound permits held s` says that no permit is lost when `held` tasks hold one, and that
the permits are given in the order of the queue; `Semaphore.Woken s` that no free permit is
forgotten.
-/

universe u

namespace Waiters

/-- The future that a task waits for. -/
inductive Future
  | pending
  | granted
  | cancelled
  deriving DecidableEq, Repr

/-- A waiting task, its future, and whether it will be interrupted when it goes on. -/
structure Waiter (τ : Type u) where
  task : τ
  future : Future := .pending
  interrupted : Bool := false
  deriving DecidableEq, Repr

/-- A semaphore: its free permits, the queue of the waiting tasks, and the tasks that were woken, in
the order in which the loop comes to them. -/
structure Semaphore (τ : Type u) where
  value : ℕ
  waiters : List (Waiter τ) := []
  ready : List τ := []
  deriving DecidableEq, Repr

variable {τ : Type u}

/-- The first task with a pending future is given a permit. -/
def wakeFirst : List (Waiter τ) → Option (τ × List (Waiter τ))
  | [] => none
  | w :: waiters =>
      if w.future = .pending then some (w.task, { w with future := .granted } :: waiters)
      else (wakeFirst waiters).map fun (t, waiters) => (t, w :: waiters)

/-- A task is interrupted while it waits. -/
def Waiter.interrupt (w : Waiter τ) : Waiter τ :=
  if w.future = .pending then { w with future := .cancelled } else { w with interrupted := true }

namespace Semaphore

/-- Whether a task that comes now would have to wait. -/
def locked (s : Semaphore τ) : Bool :=
  s.value = 0 || s.waiters.any fun w => w.future ≠ .cancelled

/-- A permit is taken without waiting. -/
def take (s : Semaphore τ) : Semaphore τ :=
  { s with value := s.value - 1 }

/-- A task joins the queue. -/
def wait (s : Semaphore τ) (t : τ) : Semaphore τ :=
  { s with waiters := s.waiters ++ [{ task := t }] }

/-- The first waiting task without a permit, if any, is given one and woken. -/
def wakeUpNext (s : Semaphore τ) : Option (Semaphore τ) :=
  (wakeFirst s.waiters).map fun (t, waiters) => ⟨s.value - 1, waiters, s.ready ++ [t]⟩

/-- At most `n` tasks are woken. -/
def wakeMany : ℕ → Semaphore τ → Semaphore τ
  | 0, s => s
  | n + 1, s => match s.wakeUpNext with
      | some s' => wakeMany n s'
      | none => s

/-- Tasks are woken as long as permits are free. -/
def wakeWaiting (s : Semaphore τ) : Semaphore τ :=
  wakeMany s.value s

/-- A permit is given back. -/
def release (s : Semaphore τ) : Semaphore τ :=
  let s := { s with value := s.value + 1 }
  s.wakeUpNext.getD s

variable [DecidableEq τ]

/-- A waiting task is interrupted: its future is cancelled, and it is woken; or it was given a
permit and will be interrupted when it goes on. -/
def interrupt (s : Semaphore τ) (t : τ) : Semaphore τ :=
  { s with
    waiters := s.waiters.map fun w => if w.task = t then w.interrupt else w
    ready :=
      if s.waiters.any fun w => w.task = t ∧ w.future = .pending then s.ready ++ [t] else s.ready }

/-- The loop goes on with the next woken task, which leaves the queue, with a permit or not. -/
def goOn (s : Semaphore τ) : Option (τ × Bool × Semaphore τ) :=
  match s.ready with
  | [] => none
  | t :: ready =>
      (s.waiters.find? fun w => w.task = t).map fun w =>
        let s := { s with waiters := s.waiters.eraseP fun w => w.task = t, ready }
        if w.future = .granted then
          if w.interrupted then (t, false, wakeWaiting { s with value := s.value + 1 })
          else (t, true, wakeWaiting s)
        else (t, false, wakeWaiting s)

end Semaphore

/-! ### The queue -/

/-- The tasks that were given a permit and have not gone on. -/
def granted (waiters : List (Waiter τ)) : List τ :=
  (waiters.filter fun w => w.future = .granted).map Waiter.task

/-- The tasks whose futures are not cancelled. -/
def live (waiters : List (Waiter τ)) : List τ :=
  (waiters.filter fun w => w.future ≠ .cancelled).map Waiter.task

/-- Permits are given in the order of the queue. -/
def Ordered : List (Waiter τ) → Prop :=
  List.Pairwise fun w w' => w'.future = .granted → w.future ≠ .pending

theorem granted_append (waiters waiters' : List (Waiter τ)) :
  granted (waiters ++ waiters') = granted waiters ++ granted waiters'
  := by rw [granted, List.filter_append, List.map_append, granted, granted]

theorem live_append (waiters waiters' : List (Waiter τ)) :
  live (waiters ++ waiters') = live waiters ++ live waiters'
  := by rw [live, List.filter_append, List.map_append, live, live]

theorem granted_cons (w : Waiter τ) (waiters : List (Waiter τ)) :
  granted (w :: waiters) =
    if w.future = .granted then w.task :: granted waiters else granted waiters
  := by
  rw [granted, List.filter_cons, granted]
  simp only [decide_eq_true_eq]
  split <;> rfl

theorem live_cons (w : Waiter τ) (waiters : List (Waiter τ)) :
  live (w :: waiters) = if w.future ≠ .cancelled then w.task :: live waiters else live waiters
  := by
  rw [live, List.filter_cons, live]
  simp only [decide_eq_true_eq]
  split <;> rfl

theorem mem_granted {waiters : List (Waiter τ)} {t : τ} :
  t ∈ granted waiters ↔ ∃ w ∈ waiters, w.future = .granted ∧ w.task = t
  := by
  rw [granted, List.mem_map]
  simp only [List.mem_filter, decide_eq_true_eq, and_assoc]

/-- Nobody has a permit behind a task without one. -/
theorem granted_eq_nil_of_pending {w : Waiter τ} {waiters : List (Waiter τ)}
    (h : Ordered (w :: waiters)) (hw : w.future = .pending) :
  granted waiters = []
  := by
  rw [granted, List.map_eq_nil_iff, List.filter_eq_nil_iff]
  intro w' hw'
  rw [decide_eq_true_eq]
  intro hg
  apply List.rel_of_pairwise_cons h hw' hg hw

/-- Which task is given a permit. -/
theorem wakeFirst_eq_some {waiters waiters' : List (Waiter τ)} {t : τ}
    (h : wakeFirst waiters = some (t, waiters')) :
  ∃ before w after, waiters = before ++ w :: after ∧ w.future = .pending ∧ w.task = t ∧
    (∀ w' ∈ before, w'.future ≠ .pending) ∧
    waiters' = before ++ { w with future := .granted } :: after
  := by
  induction waiters generalizing waiters' with
  | nil => contradiction
  | cons w waiters ih =>
      rw [wakeFirst] at h
      split at h
      · rename_i hw
        obtain ⟨rfl, rfl⟩ := Prod.mk.inj (Option.some.inj h)
        refine ⟨[], w, waiters, rfl, hw, rfl, ?_, rfl⟩
        intro w' hw'
        contradiction
      · rename_i hw
        obtain ⟨⟨t', rest⟩, hrest, heq⟩ := Option.map_eq_some_iff.mp h
        obtain ⟨rfl, rfl⟩ := Prod.mk.inj heq
        obtain ⟨before, w', after, rfl, hp, ht, hbefore, rfl⟩ := ih hrest
        exact ⟨w :: before, w', after, rfl, hp, ht, List.forall_mem_cons.mpr ⟨hw, hbefore⟩, rfl⟩

theorem wakeFirst_eq_none {waiters : List (Waiter τ)} (h : wakeFirst waiters = none) :
  ∀ w ∈ waiters, w.future ≠ .pending
  := by
  induction waiters with
  | nil =>
      intro w hw
      contradiction
  | cons w waiters ih =>
      rw [wakeFirst] at h
      split at h
      · contradiction
      · rename_i hw
        exact List.forall_mem_cons.mpr ⟨hw, ih (Option.map_eq_none_iff.mp h)⟩

/-! ### The invariant -/

namespace Semaphore

/-- While `held` tasks hold a permit, none of the permits is lost; the permits are given, and the
loop comes to the tasks with one, in the order of the queue. -/
structure Sound (permits held : ℕ) (s : Semaphore τ) : Prop where
  conserved : s.value + (granted s.waiters).length + held = permits
  ordered : Ordered s.waiters
  distinct : (s.waiters.map Waiter.task).Nodup
  inOrder : (granted s.waiters).Sublist s.ready
  once : s.ready.Nodup
  awake : ∀ t ∈ s.ready, ∃ w ∈ s.waiters, w.task = t ∧ w.future ≠ .pending

/-- While a permit is free, tasks wait for one only behind a task that was given one. -/
def Woken (s : Semaphore τ) : Prop :=
  0 < s.value → (∃ w ∈ s.waiters, w.future = .pending) → granted s.waiters ≠ []

/-- The same tasks wait in the same order, and the futures of the same ones are cancelled. -/
structure Same (s s' : Semaphore τ) : Prop where
  tasks : s'.waiters.map Waiter.task = s.waiters.map Waiter.task
  live : live s'.waiters = live s.waiters

variable {s s' : Semaphore τ} {permits held : ℕ}

theorem Same.refl (s : Semaphore τ) :
  s.Same s
  := ⟨rfl, rfl⟩

theorem Same.trans {s'' : Semaphore τ} (h : s.Same s') (h' : s'.Same s'') :
  s.Same s''
  := ⟨h'.tasks.trans h.tasks, h'.live.trans h.live⟩

theorem Same.length (h : s.Same s') :
  s'.waiters.length = s.waiters.length
  := by rw [← List.length_map (f := Waiter.task), h.tasks, List.length_map]

/-- A waiting task is only once in the queue. -/
theorem Sound.unique (h : s.Sound permits held) {w w' : Waiter τ} (hw : w ∈ s.waiters)
    (hw' : w' ∈ s.waiters) (ht : w.task = w'.task) :
  w = w'
  := List.inj_on_of_nodup_map h.distinct hw hw' ht

/-- A task that is woken is given one of the free permits. -/
theorem Sound.wakeUpNext (h : s.Sound permits held) (hv : 0 < s.value)
    (hs : s.wakeUpNext = some s') :
  s'.Sound permits held ∧ s.Same s' ∧ s'.value + 1 = s.value ∧ granted s'.waiters ≠ []
  := by
  rw [Semaphore.wakeUpNext] at hs
  obtain ⟨⟨t, waiters⟩, hwake, rfl⟩ := Option.map_eq_some_iff.mp hs
  obtain ⟨before, w, after, heq, hp, rfl, hbefore, rfl⟩ := wakeFirst_eq_some hwake
  obtain ⟨hconserved, hordered, hdistinct, hinOrder, honce, hawake⟩ := h
  rw [heq] at hconserved hordered hdistinct hinOrder hawake
  obtain ⟨hb, ha, hba⟩ := List.pairwise_append.mp hordered
  have hafter := granted_eq_nil_of_pending ha hp
  have hold : granted (before ++ w :: after) = granted before := by
    rw [granted_append, granted_cons, if_neg (by simp [hp]), hafter, List.append_nil]
  have hnew : granted (before ++ { w with future := .granted } :: after) =
      granted before ++ [w.task] := by
    rw [granted_append, granted_cons, if_pos rfl, hafter]
  rw [hold] at hconserved hinOrder
  have htasks : (before ++ { w with future := .granted } :: after).map Waiter.task =
      (before ++ w :: after).map Waiter.task := by
    rw [List.map_append, List.map_append, List.map_cons, List.map_cons]
  refine ⟨⟨?_, ?_, ?_, ?_, ?_, ?_⟩, ⟨?_, ?_⟩, Nat.sub_add_cancel hv, ?_⟩
  · dsimp only
    rw [hnew, List.length_append, List.length_singleton]
    omega
  · apply List.pairwise_append.mpr ⟨hb, List.pairwise_cons.mpr ⟨_, ha.of_cons⟩, _⟩
    · intro _ _ _
      apply Future.noConfusion
    · intro w' hw' _ _ _
      apply hbefore w' hw'
  · rw [htasks]
    apply hdistinct
  · dsimp only
    rw [hnew]
    apply hinOrder.append_right
  · apply honce.append (List.nodup_singleton _)
    intro t ht ht'
    obtain rfl := List.mem_singleton.mp ht'
    obtain ⟨w', hw', htask, hne⟩ := hawake _ ht
    obtain rfl := List.inj_on_of_nodup_map hdistinct hw' (by simp) htask
    apply hne hp
  · intro t ht
    rcases List.mem_append.mp ht with ht | ht
    · obtain ⟨w', hw', htask, hne⟩ := hawake _ ht
      rcases List.mem_append.mp hw' with hw' | hw'
      · exact ⟨w', List.mem_append_left _ hw', htask, hne⟩
      · rcases List.mem_cons.mp hw' with rfl | hw'
        · apply absurd hp hne
        · exact ⟨w', by simp [hw'], htask, hne⟩
    · obtain rfl := List.mem_singleton.mp ht
      exact ⟨{ w with future := .granted }, by simp, rfl, Future.noConfusion⟩
  · rw [htasks, heq]
  · dsimp only
    rw [heq, live_append, live_append, live_cons, live_cons, if_pos (by simp),
      if_pos (by simp [hp])]
  · dsimp only
    rw [hnew]
    simp

theorem not_pending_of_wakeUpNext (hs : s.wakeUpNext = none) :
  ∀ w ∈ s.waiters, w.future ≠ .pending
  := wakeFirst_eq_none (Option.map_eq_none_iff.mp hs)

theorem Sound.wakeMany {n : ℕ} (h : s.Sound permits held) (hn : n ≤ s.value) :
  (Semaphore.wakeMany n s).Sound permits held ∧ s.Same (Semaphore.wakeMany n s) ∧
    ((Semaphore.wakeMany n s).value + n = s.value ∨
      ∀ w ∈ (Semaphore.wakeMany n s).waiters, w.future ≠ .pending)
  := by
  induction n generalizing s with
  | zero => exact ⟨h, Same.refl s, .inl rfl⟩
  | succ n ih =>
      rw [Semaphore.wakeMany]
      cases hs : s.wakeUpNext with
      | none => exact ⟨h, Same.refl s, .inr (not_pending_of_wakeUpNext hs)⟩
      | some s' =>
          obtain ⟨h', hsame, hv, -⟩ := h.wakeUpNext (by omega) hs
          obtain ⟨hsound, hsame', hwoken⟩ := ih h' (by omega)
          refine ⟨hsound, hsame.trans hsame', ?_⟩
          rcases hwoken with hwoken | hwoken
          · left
            dsimp only
            omega
          · exact .inr hwoken

/-- No task waits for a permit while one is free. -/
theorem Sound.wakeWaiting (h : s.Sound permits held) :
  s.wakeWaiting.Sound permits held ∧ s.Same s.wakeWaiting ∧ s.wakeWaiting.Woken
  := by
  obtain ⟨hsound, hsame, hwoken⟩ := h.wakeMany (Nat.le_refl s.value)
  refine ⟨hsound, hsame, ?_⟩
  rintro hv ⟨w, hw, hp⟩
  rcases hwoken with hwoken | hwoken
  · rw [Semaphore.wakeWaiting] at hv
    omega
  · apply absurd hp (hwoken w hw)

/-- A permit that is given back is not lost. -/
theorem Sound.release (h : s.Sound permits (held + 1)) :
  s.release.Sound permits held ∧ s.Same s.release ∧ s.release.Woken
  := by
  have hsound : Sound permits held { s with value := s.value + 1 } := by
    refine ⟨?_, h.ordered, h.distinct, h.inOrder, h.once, h.awake⟩
    have hconserved := h.conserved
    dsimp only
    omega
  rw [Semaphore.release]
  cases hs : Semaphore.wakeUpNext { s with value := s.value + 1 } with
  | none =>
      refine ⟨hsound, ⟨rfl, rfl⟩, ?_⟩
      rintro - ⟨w, hw, hp⟩
      apply absurd hp (not_pending_of_wakeUpNext hs w hw)
  | some s' =>
      obtain ⟨h', hsame, -, hg⟩ := hsound.wakeUpNext (Nat.succ_pos _) hs
      refine ⟨h', ⟨hsame.tasks, hsame.live⟩, ?_⟩
      rintro - -
      apply hg

theorem sound_init (permits : ℕ) :
  Sound (τ := τ) permits 0 { value := permits }
  := ⟨rfl, List.Pairwise.nil, List.nodup_nil, List.nil_sublist _, List.nodup_nil, by simp⟩

theorem woken_init (permits : ℕ) :
  Woken (τ := τ) { value := permits }
  := by
  rintro - ⟨w, hw, -⟩
  contradiction

/-- Who need not wait. -/
theorem locked_eq_false_iff :
  s.locked = false ↔ 0 < s.value ∧ ∀ w ∈ s.waiters, w.future = .cancelled
  := by
  simp only [locked, ne_eq, Bool.or_eq_false_iff, decide_eq_false_iff_not, List.any_eq_false,
    decide_eq_true_eq, not_not]
  rw [Nat.pos_iff_ne_zero]

theorem live_of_not_locked (h : s.locked = false) :
  live s.waiters = []
  := by
  rw [live, List.map_eq_nil_iff, List.filter_eq_nil_iff]
  intro w hw
  simpa using (locked_eq_false_iff.mp h).2 w hw

theorem Sound.take (h : s.Sound permits held) (hl : s.locked = false) :
  s.take.Sound permits (held + 1) ∧ s.take.Woken
  := by
  obtain ⟨hv, hcancelled⟩ := locked_eq_false_iff.mp hl
  constructor
  · refine ⟨?_, h.ordered, h.distinct, h.inOrder, h.once, h.awake⟩
    have hconserved := h.conserved
    rw [Semaphore.take]
    dsimp only
    omega
  · rintro - ⟨w, hw, hp⟩
    have hw' : w.future = .cancelled := hcancelled w hw
    rw [hw'] at hp
    contradiction

theorem live_wait (s : Semaphore τ) (t : τ) :
  live (s.wait t).waiters = live s.waiters ++ [t]
  := by
  rw [wait, live_append]
  rfl

theorem granted_wait (s : Semaphore τ) (t : τ) :
  granted (s.wait t).waiters = granted s.waiters
  := by
  rw [wait, granted_append]
  apply List.append_nil

theorem tasks_wait (s : Semaphore τ) (t : τ) :
  (s.wait t).waiters.map Waiter.task = s.waiters.map Waiter.task ++ [t]
  := List.map_append

theorem Sound.wait (h : s.Sound permits held) (hw : s.Woken) (hl : s.locked = true) {t : τ}
    (ht : t ∉ s.waiters.map Waiter.task) :
  (s.wait t).Sound permits held ∧ (s.wait t).Woken
  := by
  constructor
  · constructor
    · rw [granted_wait]
      apply h.conserved
    · apply List.pairwise_append.mpr ⟨h.ordered, List.pairwise_singleton _ _, _⟩
      intro w _ w' hw' hg
      rw [List.mem_singleton.mp hw'] at hg
      contradiction
    · rw [tasks_wait]
      apply h.distinct.append (List.nodup_singleton _)
      simpa using ht
    · rw [granted_wait]
      apply h.inOrder
    · apply h.once
    · intro t' ht'
      obtain ⟨w, hw, hd⟩ := h.awake t' ht'
      exact ⟨w, List.mem_append_left _ hw, hd⟩
  · intro hv _
    change 0 < s.value at hv
    rw [granted_wait]
    have hlive : ∃ w ∈ s.waiters, w.future ≠ .cancelled := by
      rw [locked, decide_eq_false (Nat.pos_iff_ne_zero.mp hv), Bool.false_or] at hl
      simpa using hl
    obtain ⟨w, hw', hne⟩ := hlive
    cases hf : w.future with
    | pending => apply hw hv ⟨w, hw', hf⟩
    | granted => apply List.ne_nil_of_mem (mem_granted.mpr ⟨w, hw', hf, rfl⟩)
    | cancelled => contradiction

/-- A task has left the queue. -/
structure Dequeued (t : τ) (s s' : Semaphore τ) : Prop where
  tasks : (s.waiters.map Waiter.task).Perm (t :: s'.waiters.map Waiter.task)
  live : (live s'.waiters).Sublist (live s.waiters)

theorem Dequeued.length {t : τ} (h : Dequeued t s s') :
  s.waiters.length = s'.waiters.length + 1
  := by
  rw [← List.length_map (f := Waiter.task), h.tasks.length_eq, List.length_cons, List.length_map]

variable {t : τ} {ready : List τ} {before after : List (Waiter τ)} {w : Waiter τ}

theorem dequeued {value : ℕ} (hw : s.waiters = before ++ w :: after) (ht : w.task = t)
    (h : Same ⟨value, before ++ after, ready⟩ s') :
  Dequeued t s s'
  := by
  constructor
  · rw [h.tasks, hw, List.map_append, List.map_append, List.map_cons, ht]
    apply List.perm_middle
  · rw [h.live, hw, live_append, live_append]
    apply (List.Sublist.refl _).append
    apply ((List.sublist_cons_self w after).filter _).map

/-- A task that was woken leaves the queue. -/
theorem Sound.remove (h : s.Sound permits held) (hr : s.ready = t :: ready)
    (hw : s.waiters = before ++ w :: after) (ht : w.task = t) (value held' : ℕ)
    (hv : value + (granted (before ++ after)).length + held' = permits) :
  Sound permits held' ⟨value, before ++ after, ready⟩
  := by
  obtain ⟨-, hordered, hdistinct, hinOrder, honce, hawake⟩ := h
  rw [hr] at hinOrder honce hawake
  rw [hw] at hordered hdistinct hinOrder hawake
  have hsub : (before ++ after).Sublist (before ++ w :: after) :=
    (List.Sublist.refl before).append (List.sublist_cons_self w after)
  have hnot : t ∉ (before ++ after).map Waiter.task := by
    rw [List.map_append, List.map_cons, ht, List.nodup_middle, List.nodup_cons] at hdistinct
    rw [List.map_append]
    apply hdistinct.1
  have hgsub : (granted (before ++ after)).Sublist (granted (before ++ w :: after)) :=
    (hsub.filter _).map _
  refine ⟨hv, hordered.sublist hsub, hdistinct.sublist (hsub.map _), ?_, honce.of_cons, ?_⟩
  · apply (List.sublist_cons_iff.mp (hgsub.trans hinOrder)).resolve_right
    rintro ⟨rest, hrest, -⟩
    apply hnot
    have hmem : t ∈ granted (before ++ after) := hrest ▸ List.mem_cons_self
    obtain ⟨w', hw', -, rfl⟩ := mem_granted.mp hmem
    apply List.mem_map_of_mem hw'
  · intro t' ht'
    obtain ⟨w', hw', htask, hd⟩ := hawake t' (List.mem_cons_of_mem _ ht')
    refine ⟨w', ?_, htask, hd⟩
    rcases List.mem_append.mp hw' with hw' | hw'
    · apply List.mem_append_left _ hw'
    · rcases List.mem_cons.mp hw' with rfl | hw'
      · apply absurd ht'
        rw [← htask, ht]
        apply (List.nodup_cons.mp honce).1
      · apply List.mem_append_right _ hw'

/-- The loop comes first to the first task that was given a permit; those before it are
interrupted. -/
theorem Sound.first (h : s.Sound permits held) (hr : s.ready = t :: ready)
    (hw : s.waiters = before ++ w :: after) (ht : w.task = t) (hg : w.future = .granted) :
  granted before = [] ∧ live before = []
  := by
  obtain ⟨-, hordered, hdistinct, hinOrder, honce, -⟩ := h
  rw [hr] at hinOrder honce
  rw [hw] at hordered hdistinct hinOrder
  have hgranted : granted before = [] := by
    rw [granted_append, granted_cons, if_pos hg, ht] at hinOrder
    rcases List.sublist_cons_iff.mp hinOrder with hsub | ⟨rest, hrest, -⟩
    · apply absurd (hsub.subset (List.mem_append_right _ List.mem_cons_self))
      apply (List.nodup_cons.mp honce).1
    · cases hb : granted before with
      | nil => rfl
      | cons t' rest' =>
          rw [hb, List.cons_append] at hrest
          obtain ⟨rfl, -⟩ := List.cons.inj hrest
          obtain ⟨w', hw', -, htask⟩ := mem_granted.mp (hb ▸ List.mem_cons_self (a := t'))
          rw [List.map_append, List.map_cons, ht, List.nodup_middle, List.nodup_cons] at hdistinct
          apply absurd (List.mem_append_left _ (List.mem_map_of_mem hw')) (htask ▸ hdistinct.1)
  refine ⟨hgranted, ?_⟩
  rw [live, List.map_eq_nil_iff, List.filter_eq_nil_iff]
  intro w' hw'
  have hp : w'.future ≠ .pending :=
    (List.pairwise_append.mp hordered).2.2 w' hw' w List.mem_cons_self hg
  have hng : w'.future ≠ .granted := by
    intro hg'
    have hmem := mem_granted.mpr ⟨w', hw', hg', rfl⟩
    rw [hgranted] at hmem
    contradiction
  cases hf : w'.future with
  | pending => contradiction
  | granted => contradiction
  | cancelled => simp

/-- The loop goes on with a woken task, and one that goes on with a permit is the first of those
that are not interrupted. -/
theorem Sound.goOn [DecidableEq τ] (h : s.Sound permits held) {acquired : Bool}
    (hs : s.goOn = some (t, acquired, s')) :
  s'.Sound permits (if acquired then held + 1 else held) ∧ s'.Woken ∧ Dequeued t s s' ∧
    (acquired = true → live s.waiters = t :: live s'.waiters)
  := by
  rw [Semaphore.goOn] at hs
  cases hr : s.ready with
  | nil =>
      rw [hr] at hs
      contradiction
  | cons t' ready =>
      rw [hr] at hs
      obtain ⟨w, hfind, hs⟩ := Option.map_eq_some_iff.mp hs
      obtain ⟨htask, before, after, hw, hbefore⟩ := List.find?_eq_some_iff_append.mp hfind
      rw [decide_eq_true_eq] at htask
      have herase : (s.waiters.eraseP fun w => w.task = t') = before ++ after := by
        rw [hw, List.eraseP_append_right, List.eraseP_cons_of_pos (by simpa using htask)]
        intro w' hw'
        simpa using hbefore w' hw'
      rw [herase] at hs
      have hconserved := h.conserved
      rw [hw, granted_append, granted_cons] at hconserved
      split_ifs at hs with hg hi
      · obtain ⟨rfl, hrest⟩ := Prod.mk.inj hs
        obtain ⟨rfl, rfl⟩ := Prod.mk.inj hrest
        rw [if_pos hg, List.length_append, List.length_cons] at hconserved
        have hremoved := h.remove hr hw htask (s.value + 1) held (by
          rw [granted_append, List.length_append]
          omega)
        obtain ⟨hsound, hsame, hwoken⟩ := hremoved.wakeWaiting
        exact ⟨hsound, hwoken, dequeued hw htask hsame, fun hf => absurd hf Bool.false_ne_true⟩
      · obtain ⟨rfl, hrest⟩ := Prod.mk.inj hs
        obtain ⟨rfl, rfl⟩ := Prod.mk.inj hrest
        rw [if_pos hg, List.length_append, List.length_cons] at hconserved
        have hremoved := h.remove hr hw htask s.value (held + 1) (by
          rw [granted_append, List.length_append]
          omega)
        obtain ⟨hsound, hsame, hwoken⟩ := hremoved.wakeWaiting
        refine ⟨hsound, hwoken, dequeued hw htask hsame, fun _ => ?_⟩
        rw [hsame.live, hw, live_append, live_append, live_cons, if_pos (by simp [hg]),
          (h.first hr hw htask hg).2, htask]
        rfl
      · obtain ⟨rfl, hrest⟩ := Prod.mk.inj hs
        obtain ⟨rfl, rfl⟩ := Prod.mk.inj hrest
        rw [if_neg hg, ← granted_append] at hconserved
        obtain ⟨hsound, hsame, hwoken⟩ := (h.remove hr hw htask _ _ hconserved).wakeWaiting
        exact ⟨hsound, hwoken, dequeued hw htask hsame, fun hf => absurd hf Bool.false_ne_true⟩

/-! ### Interruptions -/

/-- Only the waiter of the task is interrupted. -/
theorem map_interrupt [DecidableEq τ] (hd : ((before ++ w :: after).map Waiter.task).Nodup)
    (ht : w.task = t) :
  ((before ++ w :: after).map fun w => if w.task = t then w.interrupt else w) =
    before ++ w.interrupt :: after
  := by
  rw [List.map_append, List.map_cons, ht, List.nodup_middle, List.nodup_cons, List.mem_append]
    at hd
  have hsame : ∀ {waiters : List (Waiter τ)}, t ∉ waiters.map Waiter.task →
      (waiters.map fun w => if w.task = t then w.interrupt else w) = waiters := by
    intro waiters hnot
    apply (List.map_congr_left _).trans (List.map_id waiters)
    intro w' hw'
    rw [if_neg, id]
    rintro rfl
    apply hnot (List.mem_map_of_mem hw')
  rw [List.map_append, List.map_cons, if_pos ht, hsame fun h => hd.1 (.inl h),
    hsame fun h => hd.1 (.inr h)]

@[simp]
theorem task_interrupt (w : Waiter τ) :
  w.interrupt.task = w.task
  := by
  rw [Waiter.interrupt]
  split <;> rfl

theorem tasks_interrupt [DecidableEq τ] (s : Semaphore τ) (t : τ) :
  (s.interrupt t).waiters.map Waiter.task = s.waiters.map Waiter.task
  := by
  rw [interrupt, List.map_map]
  apply List.map_congr_left
  intro w _
  rw [Function.comp_apply]
  split
  · apply task_interrupt
  · rfl

/-- A waiter that is not given a permit, or keeps it, is replaced. -/
theorem Sound.replace (h : s.Sound permits held) (hw : s.waiters = before ++ w :: after)
    (w' : Waiter τ) (ht : w'.task = w.task) (hg : w'.future = .granted ↔ w.future = .granted)
    (hp : w'.future ≠ .pending) (ready : List τ) (hr : s.ready.Sublist ready) (honce : ready.Nodup)
    (hready : ∀ t ∈ ready, t ∈ s.ready ∨ t = w.task) :
  Sound permits held ⟨s.value, before ++ w' :: after, ready⟩ ∧
    granted (before ++ w' :: after) = granted s.waiters
  := by
  have hgranted : granted (before ++ w' :: after) = granted s.waiters := by
    rw [hw, granted_append, granted_append, granted_cons, granted_cons, ht, if_congr hg rfl rfl]
  refine ⟨⟨?_, ?_, ?_, ?_, honce, ?_⟩, hgranted⟩
  · rw [hgranted]
    apply h.conserved
  · have hordered := h.ordered
    rw [hw] at hordered
    obtain ⟨hb, ha, hba⟩ := List.pairwise_append.mp hordered
    apply List.pairwise_append.mpr ⟨hb, List.pairwise_cons.mpr ⟨_, ha.of_cons⟩, _⟩
    · intro _ _ _
      apply hp
    · intro w₁ h₁ w₂ h₂ hg₂
      rcases List.mem_cons.mp h₂ with rfl | h₂
      · apply hba w₁ h₁ w List.mem_cons_self (hg.mp hg₂)
      · apply hba w₁ h₁ w₂ (List.mem_cons_of_mem _ h₂) hg₂
  · have hdistinct := h.distinct
    rw [hw, List.map_append, List.map_cons] at hdistinct
    rw [List.map_append, List.map_cons, ht]
    apply hdistinct
  · rw [hgranted]
    apply h.inOrder.trans hr
  · intro t hmem
    rcases hready t hmem with hold | rfl
    · obtain ⟨w₁, h₁, htask, hne⟩ := h.awake _ hold
      rw [hw] at h₁
      rcases List.mem_append.mp h₁ with h₁ | h₁
      · exact ⟨w₁, List.mem_append_left _ h₁, htask, hne⟩
      · rcases List.mem_cons.mp h₁ with rfl | h₁
        · exact ⟨w', by simp, ht.trans htask, hp⟩
        · exact ⟨w₁, by simp [h₁], htask, hne⟩
    · exact ⟨w', by simp, ht, hp⟩

section

variable [DecidableEq τ]

/-- Whether the waiter of a task has a pending future. -/
theorem any_pending (h : s.Sound permits held) (hw : w ∈ s.waiters) :
  (s.waiters.any fun w' => w'.task = w.task ∧ w'.future = .pending) = decide (w.future = .pending)
  := by
  rw [Bool.eq_iff_iff, List.any_eq_true, decide_eq_true_eq]
  constructor
  · rintro ⟨w', hw', hp⟩
    obtain ⟨htask, hp⟩ := of_decide_eq_true hp
    rwa [← h.unique hw' hw htask]
  · intro hp
    exact ⟨w, hw, decide_eq_true ⟨rfl, hp⟩⟩

/-- What an interruption does to a waiting task. -/
theorem Sound.interrupt_eq (h : s.Sound permits held) (hw : s.waiters = before ++ w :: after) :
  s.interrupt w.task =
    ⟨s.value, before ++ w.interrupt :: after,
      if w.future = .pending then s.ready ++ [w.task] else s.ready⟩
  := by
  have hmap : (s.waiters.map fun w' => if w'.task = w.task then w'.interrupt else w') =
      before ++ w.interrupt :: after := by
    rw [hw]
    apply map_interrupt _ rfl
    rw [← hw]
    apply h.distinct
  rw [Semaphore.interrupt, hmap, any_pending h (by simp [hw])]
  simp only [decide_eq_true_eq]

theorem interrupt_of_not_mem (ht : t ∉ s.waiters.map Waiter.task) :
  s.interrupt t = s
  := by
  have hmap : (s.waiters.map fun w => if w.task = t then w.interrupt else w) = s.waiters := by
    apply (List.map_congr_left _).trans (List.map_id s.waiters)
    intro w hw
    rw [if_neg, id]
    rintro rfl
    apply ht (List.mem_map_of_mem hw)
  have hany : (s.waiters.any fun w => w.task = t ∧ w.future = .pending) = false := by
    rw [List.any_eq_false]
    intro w hw hp
    apply ht
    rw [← (of_decide_eq_true hp).1]
    apply List.mem_map_of_mem hw
  rw [Semaphore.interrupt, hmap, hany]
  rfl

/-- A task without a permit is woken to give up. -/
theorem Sound.cancelled (h : s.Sound permits held) (hw : s.waiters = before ++ w :: after)
    (hp : w.future = .pending) :
  (s.interrupt w.task).Sound permits held ∧
    granted (s.interrupt w.task).waiters = granted s.waiters ∧
    (live (s.interrupt w.task).waiters).Sublist (live s.waiters)
  := by
  have hready : w.task ∉ s.ready := by
    intro hready
    obtain ⟨w', hw', htask, hne⟩ := h.awake _ hready
    rw [h.unique hw' (by simp [hw]) htask] at hne
    apply hne hp
  obtain ⟨hsound, hgranted⟩ :=
    h.replace hw { w with future := .cancelled } rfl (by simp [hp]) (by simp)
    (s.ready ++ [w.task])
    (List.sublist_append_left _ _) (h.once.append (List.nodup_singleton _) (by simpa using hready))
    (by simp)
  rw [h.interrupt_eq hw, if_pos hp, Waiter.interrupt, if_pos hp]
  refine ⟨hsound, hgranted, ?_⟩
  dsimp only
  rw [hw, live_append, live_append, live_cons, live_cons, if_neg (by simp), if_pos (by simp [hp])]
  apply (List.Sublist.refl _).append (List.sublist_cons_self _ _)

/-- A task with a permit keeps it until the loop comes to it. -/
theorem Sound.interrupted (h : s.Sound permits held) (hw : s.waiters = before ++ w :: after)
    (hp : w.future ≠ .pending) :
  (s.interrupt w.task).Sound permits held ∧
    granted (s.interrupt w.task).waiters = granted s.waiters ∧
    live (s.interrupt w.task).waiters = live s.waiters
  := by
  obtain ⟨hsound, hgranted⟩ := h.replace hw { w with interrupted := true } rfl Iff.rfl hp s.ready
    (List.Sublist.refl _) h.once fun _ => .inl
  rw [h.interrupt_eq hw, if_neg hp, Waiter.interrupt, if_neg hp]
  refine ⟨hsound, hgranted, ?_⟩
  dsimp only
  rw [hw, live_append, live_append, live_cons, live_cons]

/-- No interruption makes a task wait for a permit. -/
theorem pending_of_interrupt {t : τ} (h : ∃ w ∈ (s.interrupt t).waiters, w.future = .pending) :
  ∃ w ∈ s.waiters, w.future = .pending
  := by
  obtain ⟨w', hw', hp⟩ := h
  obtain ⟨w, hw, rfl⟩ := List.mem_map.mp hw'
  refine ⟨w, hw, ?_⟩
  split at hp
  · rw [Waiter.interrupt] at hp
    split at hp
    · contradiction
    · apply hp
  · apply hp

/-- A task that is interrupted while it waits gives up no permit before the loop comes to it. -/
theorem Sound.interrupt (h : s.Sound permits held) (hwoken : s.Woken) (t : τ) :
  (s.interrupt t).Sound permits held ∧ (s.interrupt t).Woken ∧
    (live (s.interrupt t).waiters).Sublist (live s.waiters)
  := by
  have hkeeps : (s.interrupt t).Sound permits held ∧
      granted (s.interrupt t).waiters = granted s.waiters ∧
      (live (s.interrupt t).waiters).Sublist (live s.waiters) := by
    by_cases hmem : t ∈ s.waiters.map Waiter.task
    · obtain ⟨w, hw, rfl⟩ := List.mem_map.mp hmem
      obtain ⟨before, after, heq⟩ := List.append_of_mem hw
      by_cases hp : w.future = .pending
      · apply h.cancelled heq hp
      · obtain ⟨hsound, hgranted, hlive⟩ := h.interrupted heq hp
        exact ⟨hsound, hgranted, hlive ▸ List.Sublist.refl _⟩
    · rw [interrupt_of_not_mem hmem]
      exact ⟨h, rfl, List.Sublist.refl _⟩
  refine ⟨hkeeps.1, ?_, hkeeps.2.2⟩
  intro hv hp
  rw [hkeeps.2.1]
  apply hwoken hv (pending_of_interrupt hp)

end

end Semaphore

end Waiters
