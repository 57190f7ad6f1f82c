import GitAgent.Library.Transition
import GitAgent.Library.Waiters

/-!
# The admission of delegations

At most `maxRunning` delegations run at once, and at most `maxQueued` wait for a slot
(`SubagentCapacity` in `core/subagents/capacity.py`), in any order of arrivals, ends, timeouts and
cancellations. A call is rejected when it could not be admitted at once and the queue is full; that
may be while a slot is free, as long as a call that was given another one has not gone on.
-/

namespace Agent

open Transition Waiters

/-- The number of a call of `slot`. -/
abbrev SlotCall := ℕ

/-- `SubagentCapacity`. The timeout is the text of the number of its seconds. -/
structure SubagentCapacity where
  maxRunning : ℕ := 3
  maxQueued : ℕ := 8
  queueTimeout : String := "300.0"

/-- How a call of `slot` ends: its body does, or it is rejected, times out or is cancelled before.
-/
inductive SlotEnd
  | left
  | rejected (text : String)
  | timeout (text : String)
  | cancelled
  deriving DecidableEq, Repr

namespace SubagentCapacity

/-- The semaphore and the counter, the calls whose bodies run, and those that were cancelled while
they waited. The calls that have arrived, were admitted and have ended are recorded in order. -/
structure State where
  sem : Semaphore SlotCall
  queued : ℕ := 0
  running : List SlotCall := []
  cancelled : List SlotCall := []
  arrived : List SlotCall := []
  admitted : List SlotCall := []
  ended : List (SlotCall × SlotEnd) := []
  deriving DecidableEq, Repr

variable (T : SubagentCapacity)

/-- The text of `SubagentCapacityRejected`. -/
def rejection : String :=
  "admission queue is full (" ++ toString T.maxQueued ++ " waiting)"

/-- The text of `SubagentCapacityTimeout`. -/
def timeoutText : String :=
  "no slot within " ++ T.queueTimeout ++ "s"

namespace State

variable (s : State)

/-- A call has its slot, and its body begins. -/
def acquired (c : SlotCall) : State :=
  { s with queued := s.queued - 1, running := s.running ++ [c], admitted := s.admitted ++ [c] }

/-- A call has ended without a slot. -/
def failed (c : SlotCall) (e : SlotEnd) : State :=
  { s with ended := s.ended ++ [(c, e)] }

/-- `slot`, until the call has its slot, or has to wait for it. -/
def slot (c : SlotCall) : State :=
  let s := { s with arrived := s.arrived ++ [c] }
  if s.sem.locked ∧ T.maxQueued ≤ s.queued then s.failed c (.rejected T.rejection)
  else
    let s := { s with queued := s.queued + 1 }
    if s.sem.locked then { s with sem := s.sem.wait c } else { s with sem := s.sem.take }.acquired c

/-- The loop goes on with a call that waited. -/
def goOn : Option State :=
  s.sem.goOn.map fun (c, acquired, sem) =>
    let s := { s with sem }
    if acquired then s.acquired c
    else
      { s with queued := s.queued - 1 }.failed c
        (if c ∈ s.cancelled then .cancelled else .timeout T.timeoutText)

/-- The body of a call has ended, in whatever way. -/
def leave (c : SlotCall) : State :=
  { s with sem := s.sem.release, running := s.running.erase c }.failed c .left

/-- Whether a call waits for its slot. -/
def Waits (c : SlotCall) : Prop :=
  c ∈ s.sem.waiters.map Waiter.task

instance (c : SlotCall) : Decidable (s.Waits c) :=
  inferInstanceAs (Decidable (_ ∈ _))

end State

/-- What happens: a call arrives, the loop goes on with one, the time of one is up or it is
cancelled while it waits, or the body of one ends. -/
inductive Act
  | slot (c : SlotCall)
  | goOn
  | timeout (c : SlotCall)
  | cancel (c : SlotCall)
  | leave (c : SlotCall)
  deriving DecidableEq, Repr

/-- The state after an act, if it can happen. -/
def act (s : State) : Act → Option State
  | .slot c => if c ∈ s.arrived then none else some (s.slot T c)
  | .goOn => s.goOn T
  | .timeout c => if s.Waits c then some { s with sem := s.sem.interrupt c } else none
  | .cancel c =>
      if s.Waits c then
        some { s with sem := s.sem.interrupt c, cancelled := c :: s.cancelled }
      else none
  | .leave c => if c ∈ s.running then some (s.leave c) else none

/-- The calls of a run of the lead. -/
def calls : System State Act where
  init s := s = { sem := { value := T.maxRunning } }
  step := T.act

variable {T} {s s' : State} {c : SlotCall}

/-! ### The invariant -/

/-- No slot is lost and none is forgotten, the counter counts the calls that wait, and each call
that has arrived either waits, or runs, or has ended; no call was overtaken while it waited. -/
structure Inv (T : SubagentCapacity) (s : State) : Prop where
  sound : s.sem.Sound T.maxRunning s.running.length
  woken : s.sem.Woken
  queued : s.queued = s.sem.waiters.length
  bound : s.sem.waiters.length ≤ T.maxQueued
  calls : (s.sem.waiters.map Waiter.task ++ s.running ++ s.ended.map Prod.fst).Perm s.arrived
  once : s.arrived.Nodup
  fifo : (s.admitted ++ live s.sem.waiters).Sublist s.arrived

/-- A call that waited goes on with its slot, or fails. -/
theorem goOn_cases (hs : s.goOn T = some s') :
  ∃ t sem, s.sem.goOn = some (t, true, sem) ∧ s' = { s with sem }.acquired t ∨
    ∃ e, s.sem.goOn = some (t, false, sem) ∧
      s' = { s with sem, queued := s.queued - 1 }.failed t e
  := by
  obtain ⟨⟨t, acquired, sem⟩, hgo, hs⟩ := Option.map_eq_some_iff.mp hs
  use t, sem
  cases acquired with
  | true => exact .inl ⟨hgo, hs.symm⟩
  | false => exact .inr ⟨_, hgo, hs.symm⟩

namespace Inv

theorem init (T : SubagentCapacity) :
  Inv T { sem := { value := T.maxRunning } }
  := ⟨Semaphore.sound_init _, Semaphore.woken_init _, rfl, Nat.zero_le _, .refl _, List.nodup_nil,
    List.Sublist.refl _⟩

/-- A call that has not arrived does not wait. -/
theorem not_waits (h : Inv T s) (hc : c ∉ s.arrived) :
  ¬ s.Waits c
  := by
  intro hw
  apply hc
  apply h.calls.subset
  apply List.mem_append_left _ (List.mem_append_left _ hw)

theorem slot (h : Inv T s) (hc : c ∉ s.arrived) :
  Inv T (s.slot T c)
  := by
  have honce : (s.arrived ++ [c]).Nodup := h.once.append (List.nodup_singleton c) (by simpa using hc)
  rw [State.slot]
  dsimp only
  split_ifs with hfull hlocked
  · refine ⟨h.sound, h.woken, h.queued, h.bound, ?_, honce, ?_⟩
    · rw [State.failed]
      dsimp only
      rw [List.map_append, ← List.append_assoc]
      apply h.calls.append_right
    · apply h.fifo.trans (List.sublist_append_left _ _)
  · have hroom := Nat.lt_of_not_le fun hle => hfull ⟨hlocked, hle⟩
    obtain ⟨hsound, hwoken⟩ := h.sound.wait h.woken hlocked (h.not_waits hc)
    have hlength : (s.sem.wait c).waiters.length = s.sem.waiters.length + 1 := List.length_append
    have hqueued := h.queued
    refine ⟨hsound, hwoken, ?_, ?_, ?_, honce, ?_⟩
    · dsimp only
      omega
    · dsimp only
      omega
    · dsimp only
      rw [Semaphore.tasks_wait, List.append_assoc, List.append_assoc]
      apply (List.Perm.append_left _ List.perm_append_comm).trans
      rw [← List.append_assoc, ← List.append_assoc]
      apply h.calls.append_right
    · dsimp only
      rw [Semaphore.live_wait, ← List.append_assoc]
      apply h.fifo.append_right
  · rw [Bool.not_eq_true] at hlocked
    obtain ⟨hsound, hwoken⟩ := h.sound.take hlocked
    refine ⟨?_, hwoken, ?_, h.bound, ?_, honce, ?_⟩
    · rw [State.acquired]
      dsimp only
      rw [List.length_append]
      apply hsound
    · rw [State.acquired]
      dsimp only
      rw [Nat.add_sub_cancel]
      apply h.queued
    · rw [State.acquired]
      dsimp only
      rw [← List.append_assoc, List.append_assoc]
      apply (List.Perm.append_left _ List.perm_append_comm).trans
      rw [← List.append_assoc]
      apply h.calls.append_right
    · have hfifo := h.fifo
      rw [Semaphore.live_of_not_locked hlocked, List.append_nil] at hfifo
      rw [State.acquired, Semaphore.take]
      dsimp only
      rw [Semaphore.live_of_not_locked hlocked, List.append_nil]
      apply hfifo.append_right

theorem goOn (h : Inv T s) (hs : s.goOn T = some s') :
  Inv T s'
  := by
  have hbound := h.bound
  have hqueued := h.queued
  obtain ⟨t, sem, ⟨hgo, rfl⟩ | ⟨e, hgo, rfl⟩⟩ := goOn_cases hs
  · obtain ⟨hsound, hwoken, hleft, hfirst⟩ := h.sound.goOn hgo
    have hlength := hleft.length
    refine ⟨?_, hwoken, ?_, ?_, ?_, h.once, ?_⟩
    · dsimp only [State.acquired]
      rw [List.length_append]
      apply hsound
    · dsimp only [State.acquired]
      omega
    · dsimp only [State.acquired]
      omega
    · dsimp only [State.acquired]
      apply List.Perm.trans _ h.calls
      apply List.Perm.append_right
      apply List.Perm.trans _ (hleft.tasks.symm.append_right _)
      rw [← List.append_assoc]
      apply List.perm_append_comm
    · dsimp only [State.acquired]
      rw [List.append_assoc, List.singleton_append, ← hfirst rfl]
      apply h.fifo
  · obtain ⟨hsound, hwoken, hleft, -⟩ := h.sound.goOn hgo
    have hlength := hleft.length
    refine ⟨hsound, hwoken, ?_, ?_, ?_, h.once, ?_⟩
    · dsimp only [State.failed]
      omega
    · dsimp only [State.failed]
      omega
    · dsimp only [State.failed]
      rw [List.map_append, ← List.append_assoc]
      apply List.Perm.trans List.perm_append_comm
      apply List.Perm.trans _ h.calls
      rw [List.append_assoc, List.append_assoc]
      apply (hleft.tasks.symm.append_right _)
    · apply ((List.Sublist.refl _).append hleft.live).trans h.fifo

theorem interrupt (h : Inv T s) (c : SlotCall) (cancelled : List SlotCall) :
  Inv T { s with sem := s.sem.interrupt c, cancelled }
  := by
  obtain ⟨hsound, hwoken, hlive⟩ := h.sound.interrupt h.woken c
  have hlength : (s.sem.interrupt c).waiters.length = s.sem.waiters.length := List.length_map _
  refine ⟨hsound, hwoken, ?_, ?_, ?_, h.once, ?_⟩
  · dsimp only
    rw [hlength]
    apply h.queued
  · dsimp only
    rw [hlength]
    apply h.bound
  · dsimp only
    rw [Semaphore.tasks_interrupt]
    apply h.calls
  · apply ((List.Sublist.refl _).append hlive).trans h.fifo

theorem leave (h : Inv T s) (hc : c ∈ s.running) :
  Inv T (s.leave c)
  := by
  have hlength := List.length_erase_add_one hc
  have hsound := h.sound
  rw [← hlength] at hsound
  obtain ⟨hsound, hsame, hwoken⟩ := hsound.release
  refine ⟨hsound, hwoken, ?_, ?_, ?_, h.once, ?_⟩
  · dsimp only [State.leave, State.failed]
    rw [hsame.length]
    apply h.queued
  · dsimp only [State.leave, State.failed]
    rw [hsame.length]
    apply h.bound
  · dsimp only [State.leave, State.failed]
    rw [hsame.tasks, List.map_append, ← List.append_assoc]
    apply List.Perm.trans _ h.calls
    apply List.Perm.trans List.perm_append_comm
    rw [← List.append_assoc]
    apply List.Perm.append_right
    apply List.Perm.trans List.perm_append_comm
    rw [List.append_assoc]
    apply List.Perm.append_left
    apply List.Perm.trans List.perm_append_comm
    apply (List.perm_cons_erase hc).symm
  · dsimp only [State.leave, State.failed]
    rw [hsame.live]
    apply h.fifo

end Inv

theorem inv_of_reachable (h : T.calls.Reachable s) :
  Inv T s
  := by
  apply h.invariant
  · rintro s rfl
    apply Inv.init
  · intro s a s' h _ hs
    cases a with
    | slot c =>
        obtain ⟨hc, hs⟩ := Option.ite_none_left_eq_some.mp hs
        obtain rfl := Option.some.inj hs
        apply h.slot hc
    | goOn => apply h.goOn hs
    | timeout c =>
        obtain ⟨-, hs⟩ := Option.ite_none_right_eq_some.mp hs
        obtain rfl := Option.some.inj hs
        apply h.interrupt
    | cancel c =>
        obtain ⟨-, hs⟩ := Option.ite_none_right_eq_some.mp hs
        obtain rfl := Option.some.inj hs
        apply h.interrupt
    | leave c =>
        obtain ⟨hc, hs⟩ := Option.ite_none_right_eq_some.mp hs
        obtain rfl := Option.some.inj hs
        apply h.leave hc

/-! ### The admission -/

/-- A call is rejected while the queue is full and it could not have been admitted at once. -/
theorem Inv.rejected (h : Inv T s) (hc : c ∉ s.arrived) {text : String}
    (hr : (c, .rejected text) ∈ (s.slot T c).ended) :
  T.maxQueued ≤ s.sem.waiters.length ∧ (s.sem.value = 0 ∨ granted s.sem.waiters ≠ [])
  := by
  have hnew : ∀ e, (c, e) ∉ s.ended := by
    intro e he
    apply hc
    apply h.calls.subset
    apply List.mem_append_right _ (List.mem_map_of_mem he)
  rw [State.slot] at hr
  dsimp only at hr
  split_ifs at hr with hfull hlocked
  · obtain ⟨hlocked, hle⟩ := hfull
    refine ⟨h.queued ▸ hle, ?_⟩
    rcases Nat.eq_zero_or_pos s.sem.value with hv | hv
    · exact .inl hv
    · right
      have hlive : ∃ w ∈ s.sem.waiters, w.future ≠ .cancelled := by
        rw [Semaphore.locked, decide_eq_false (Nat.pos_iff_ne_zero.mp hv), Bool.false_or] at hlocked
        simpa using hlocked
      obtain ⟨w, hw, hne⟩ := hlive
      cases hf : w.future with
      | pending => apply h.woken hv ⟨w, hw, hf⟩
      | granted => apply List.ne_nil_of_mem (mem_granted.mpr ⟨w, hw, hf, rfl⟩)
      | cancelled => contradiction
  · apply absurd hr (hnew _)
  · apply absurd hr (hnew _)

/-- When all calls have ended, all slots are free and nobody waits. -/
theorem Inv.all_free (h : Inv T s) (he : ∀ c ∈ s.arrived, c ∈ s.ended.map Prod.fst) :
  s.sem.value = T.maxRunning ∧ s.queued = 0
  := by
  have honce := h.calls.nodup_iff.mpr h.once
  have hnil : s.sem.waiters.map Waiter.task ++ s.running = [] := by
    apply List.eq_nil_iff_forall_not_mem.mpr
    intro c hc
    apply (List.nodup_append.mp honce).2.2 c hc c _ rfl
    apply he c (h.calls.subset (List.mem_append_left _ hc))
  obtain ⟨hwaiters, hrunning⟩ := List.append_eq_nil_iff.mp hnil
  have hwaiters := List.map_eq_nil_iff.mp hwaiters
  have hconserved := h.sound.conserved
  rw [hwaiters, hrunning] at hconserved
  refine ⟨by simpa [granted] using hconserved, ?_⟩
  rw [h.queued, hwaiters, List.length_nil]

/-- **The admission of delegations**, in any order of arrivals, ends, timeouts and cancellations: at
most `maxRunning` bodies run and at most `maxQueued` calls wait; a call is rejected only while
`maxQueued` calls wait, and no slot is free or a waiting call that was given one has not gone on;
calls are admitted in the order in which they arrived; and when all calls have ended, all slots are
free and the counter is `0`. -/
theorem admission (h : T.calls.Reachable s) :
  s.running.length ≤ T.maxRunning ∧ s.sem.waiters.length ≤ T.maxQueued ∧
    (∀ c ∉ s.arrived, ∀ text, (c, .rejected text) ∈ (s.slot T c).ended →
      T.maxQueued ≤ s.sem.waiters.length ∧ (s.sem.value = 0 ∨ granted s.sem.waiters ≠ [])) ∧
    (s.admitted ++ live s.sem.waiters).Sublist s.arrived ∧
    ((∀ c ∈ s.arrived, c ∈ s.ended.map Prod.fst) → s.sem.value = T.maxRunning ∧ s.queued = 0)
  := by
  have hinv := inv_of_reachable h
  have hconserved := hinv.sound.conserved
  exact ⟨by omega, hinv.bound, fun c hc text => hinv.rejected hc, hinv.fifo, hinv.all_free⟩

/-- The run in which two calls run and one waits, until the two end at once. -/
def sampleActs : List Act :=
  [.slot 0, .slot 1, .slot 2, .leave 0, .leave 1]

/-- Two slots, and one place in the queue. -/
def sampleCapacity : SubagentCapacity where
  maxRunning := 2
  maxQueued := 1

/-- Another call that comes then is rejected, though one slot is free. -/
theorem exists_rejected :
  ∃ s, sampleCapacity.calls.Reachable s ∧
    decide (3 ∉ s.arrived ∧
      (3, .rejected sampleCapacity.rejection) ∈ (s.slot sampleCapacity 3).ended ∧
      s.sem.value = 1) = true
  := exists_reach_of_run (T := sampleCapacity.calls) rfl sampleActs _ (by decide +kernel)

theorem admission_sample :
  ∃ s, sampleCapacity.calls.Reachable s ∧ s.sem.waiters.length ≤ 1 ∧
    (s.admitted ++ live s.sem.waiters).Sublist s.arrived
  := by
  obtain ⟨s, h, -⟩ := exists_rejected
  exact ⟨s, h, (admission h).2.1, (admission h).2.2.2.1⟩

/-- A call may be rejected while a slot is free. -/
theorem not_rejected_only_when_full :
  ¬ ∀ (T : SubagentCapacity) (s : State), T.calls.Reachable s → ∀ c ∉ s.arrived, ∀ text,
      (c, .rejected text) ∈ (s.slot T c).ended →
        s.sem.value = 0 ∧ T.maxQueued ≤ s.sem.waiters.length
  := by
  intro h
  obtain ⟨s, hs, htest⟩ := exists_rejected
  obtain ⟨hc, hr, hv⟩ := of_decide_eq_true htest
  have hzero := (h _ s hs 3 hc _ hr).1
  omega

end SubagentCapacity

end Agent
