import GitAgent.Runner.Locks

/-!
# Waiting for a slot

`_raise` checks once, before it waits for a slot, that the instance is not raised. A wait
that begins while another `_raise` of the same instance is under way goes on after that one
has raised the instance, on a runner that may have no slot left. Where every wait that cannot
be served at once begins alone, nobody waits in vain for a slot of a raised instance.
-/

namespace Runner

open Hub (InstanceId EventId RunnerId Db)
open Sync (Semaphore)

/-- The instance for which the task waits for a slot. -/
def Await.waits : Await → Option InstanceId
  | slot c => some c.instanceId
  | _ => none

theorem Await.stable_waits : Stable waits :=
  ⟨fun _ => rfl, fun _ => rfl, cancelExec_eq fun _ _ _ => rfl⟩

/-- A statement leaves the wait for a slot as it is. -/
theorem Reply.waits {db db' : Db} {R : RunnerId} {p q : Await} (h : Reply db R p db' q) :
  q.waits = p.waits
  := by cases h <;> rfl

namespace Service

variable {s s' : Service} {ℓ : Label} {t : TaskId} {p q : Await}

/-- What a move does to the raises under way: the task goes on with its own, ends it, or
begins to wait for a slot of an instance that is not raised. -/
theorem Move.raises (h : Move s ℓ t p q s') :
  q.raises = p.raises ∨ q.raises = none ∨
    ∃ c, s.callsRaise ℓ = some c ∧ s.instances.get c.instanceId = none ∧ q = .slot c
  := by
  cases h with
  | present hp hc hr => exact .inr (.inl (Await.Bare.raised _ _).raises)
  | wait hp hc hr => exact .inr (.inr ⟨_, hc, hr, rfl⟩)
  | slot hf => exact .inl rfl
  | claim hl hr => exact .inl rfl
  | found hl hr => exact .inr (.inl (Await.Bare.raised _ _).raises)
  | insert hc => exact .inr (.inl (Await.Bare.raised _ _).raises)
  | refuse hc => exact .inr (.inl (Await.Bare.refused _ _).raises)
  | released => exact .inr (.inl (Await.Bare.next _).raises)
  | unwind hℓ hq =>
      right
      left
      rcases hq with ⟨_, rfl⟩ | ⟨_, _, _, _, rfl⟩ <;> rfl
  | quiet h => exact .inl h.keeps.raises
  | _ => exact .inr (.inl rfl)

/-- A task that has claimed an instance is raising it. -/
theorem raises_of_claimed {id : InstanceId} (h : p.claimed = some id) :
  p.raises = some id
  := by
  have hc := Await.claiming_of_claimed h
  cases p <;> first | contradiction | apply hc

/-- A task that waits for a slot of an instance is raising it. -/
theorem raises_of_waits {id : InstanceId} (h : p.waits = some id) :
  p.raises = some id
  := by cases p <;> first | contradiction | apply h

/-- A task that raises no instance waits for no slot. -/
theorem waits_of_raises (h : q.raises = none) :
  q.waits = none
  := by cases q <;> first | contradiction | rfl

/-- What a move does to the queue for the slots: nothing but giving back a slot, unless the
task joins the queue, leaves it with the first free slot, or gives up waiting. -/
inductive FreeQueue (s : Service) (ℓ : Label) (t : TaskId) (q : Await) (s' : Service) : Prop
  | same (hq : q.waits = none) (hw : s'.free.waiters = s.free.waiters)
      (hv : s.free.value ≤ s'.free.value)
  | wait (c : Caller) (hc : s.callsRaise ℓ = some c)
      (hr : s.instances.get c.instanceId = none) (hq : q = .slot c)
      (hi : s'.instances = s.instances) (hf : s'.free = s.free.wait t)
  | acquire (hq : q.waits = none) (hr : s.free.Ready t) (hf : s'.free = s.free.acquire)
  | leave (hq : q.waits = none) (hf : s'.free = s.free.leave t)

/-- What a move does to the queue for the slots. -/
theorem Move.freeQueue (h : Move s ℓ t p q s') :
  FreeQueue s ℓ t q s'
  := by
  cases h with
  | present hp hc hr =>
      exact .same (waits_of_raises (Await.Bare.raised _ _).raises) rfl (le_refl _)
  | wait hp hc hr => exact .wait _ hc hr rfl rfl rfl
  | slot hf => exact .acquire rfl hf rfl
  | found hl hr =>
      exact .same (waits_of_raises (Await.Bare.raised _ _).raises) rfl (Nat.le_succ _)
  | insert hc => exact .same (waits_of_raises (Await.Bare.raised _ _).raises) rfl (le_refl _)
  | refuse hc =>
      exact .same (waits_of_raises (Await.Bare.refused _ _).raises) rfl (Nat.le_succ _)
  | pop hp hr =>
      apply FreeQueue.same rfl
      · rw [stop, cancelTurn]
        split <;> rfl
      · rw [stop, cancelTurn]
        split <;> exact le_refl _
  | released => exact .same (waits_of_raises (Await.Bare.next _).raises) rfl (Nat.le_succ _)
  | unwind hℓ hq =>
      have hn : q.waits = none := by
        rcases hq with ⟨_, rfl⟩ | ⟨_, _, _, _, rfl⟩ <;> rfl
      clear hq
      cases p with
      | slot c => exact .leave hn rfl
      | raiseLock c => exact .same hn rfl (Nat.le_succ _)
      | claim c x => exact .same hn rfl (Nat.le_succ _)
      | _ => exact .same hn rfl (le_refl _)
  | quiet h =>
      have hn : q.waits = none := by
        cases h with
        | handOff e claim _ => apply waits_of_raises (Await.Bare.handOff _ _).raises
        | _ => rfl
      exact .same hn rfl (le_refl _)
  | _ => exact .same rfl rfl (le_refl _)

/-- The task `t` waits for a slot of the instance `id`, which is not raised and which no
other task raises. -/
def WaitsAlone (s : Service) (t : TaskId) (id : InstanceId) : Prop :=
  s.instances.get id = none ∧
    ∀ t', t' ≠ t → Pool.attr Await.raises s.tasks t' ≠ some id

/-- The tasks that wait for a slot are in the queue, and each is served or waits alone. -/
structure WaitsApart (s : Service) : Prop where
  queued : ∀ t id, Pool.attr Await.waits s.tasks t = some id → t ∈ s.free.waiters
  apart : ∀ t id, Pool.attr Await.waits s.tasks t = some id →
    s.free.Served t ∨ s.WaitsAlone t id

/-- A wait for a slot that begins by the step `ℓ` and cannot be served at once is of an
instance that no task raises. -/
def StartsAlone (s : Service) (ℓ : Label) : Prop :=
  match s.callsRaise ℓ with
  | some c => s.instances.get c.instanceId = none → s.free.value ≤ s.free.waiters.length →
      ∀ p ∈ s.tasks, p.raises ≠ some c.instanceId
  | none => True

instance (s : Service) (ℓ : Label) : Decidable (s.StartsAlone ℓ) := by
  delta StartsAlone
  generalize s.callsRaise ℓ = o
  rcases o <;> dsimp only <;> infer_instance

/-- A task that goes on waiting after another task has moved is still in the queue, and
still served if it was. -/
theorem Move.queued (h : Move s ℓ t p q s') {t' : TaskId} (hne : t' ≠ t)
    (hw : t' ∈ s.free.waiters) :
  t' ∈ s'.free.waiters ∧ (s.free.Served t' → s'.free.Served t')
  := by
  cases h.freeQueue with
  | same hq hw' hv =>
      rw [hw']
      exact ⟨hw, fun hs => hs.mono hw' hv⟩
  | wait c hc hr hq hi hf =>
      rw [hf]
      exact ⟨List.mem_append_left _ hw, fun hs => hs.wait⟩
  | acquire hq hr hf =>
      rw [hf]
      exact ⟨Semaphore.mem_acquire hw hr hne, fun hs => hs.acquire hr hne⟩
  | leave hq hf =>
      rw [hf]
      exact ⟨(List.mem_erase_of_ne hne).mpr hw, fun hs => hs.leave hne⟩

/-- A task that has just begun to wait is in the queue, and is served or waits alone. -/
theorem begun_wait {id : InstanceId} (hG : s.StartsAlone ℓ) (ht : s.tasks[t]? = some p)
    (h : Move s ℓ t p q s') (hq : q.waits = some id) :
  t ∈ s'.free.waiters ∧ (s'.free.Served t ∨ s'.WaitsAlone t id)
  := by
  cases h.freeQueue with
  | same hn _ _ => simp [hn] at hq
  | acquire hn _ _ => simp [hn] at hq
  | leave hn _ => simp [hn] at hq
  | wait c hc hr hslot hi hf =>
      subst hslot
      obtain rfl : c.instanceId = id := Option.some.inj hq
      have hmem : t ∈ (s.free.wait t).waiters :=
        List.mem_append_right _ (List.mem_singleton_self t)
      rw [hf]
      refine ⟨hmem, ?_⟩
      by_cases hl : s.free.value ≤ s.free.waiters.length
      · right
        rw [StartsAlone, hc] at hG
        rw [WaitsAlone, hi]
        refine ⟨hr, ?_⟩
        intro t' hne ht'
        rw [h.attr Await.stable_raises ht, Function.update_of_ne hne] at ht'
        obtain ⟨p', hp', hr'⟩ := Pool.exists_of_attr ht'
        apply hG hr hl p' (List.mem_of_getElem? hp') hr'
      · left
        apply Semaphore.Served.of_length_le hmem
        rw [Semaphore.wait, List.length_append]
        apply Nat.lt_of_not_le hl

/-- A task that waits alone still does after another task has moved. -/
theorem WaitsAlone.move {t' : TaskId} {id : InstanceId} (ha : s.WaitsAlone t' id)
    (hne : t ≠ t') (ht : s.tasks[t]? = some p) (h : Move s ℓ t p q s')
    (hq : q.raises = p.raises ∨ q.raises = none ∨ q.waits ≠ some id) :
  s'.WaitsAlone t' id
  := by
  have hp := Pool.attr_of_getElem? (f := Await.raises) ht
  constructor
  · cases h.entries with
    | same hi _ _ _ => rw [hi, ha.1]
    | pop k id' r hg _ _ hi _ => rw [hi, Dict.get_erase, ha.1, ite_self]
    | insert c hclaimed _ hi _ =>
        rw [hi, Dict.get_set, if_neg, ha.1]
        rintro rfl
        apply ha.2 t hne
        rw [hp, raises_of_claimed hclaimed]
  · intro t'' hne' ht''
    rw [h.attr Await.stable_raises ht, Function.update_apply] at ht''
    split at ht''
    · rcases h.raises with hr | hr | ⟨c, _, _, rfl⟩
      · apply ha.2 t hne
        rw [hp, ← hr, ht'']
      · rw [hr] at ht''
        contradiction
      · rcases hq with hq | hq | hq
        · apply ha.2 t hne
          rw [hp, ← hq, ht'']
        · contradiction
        · apply hq ht''
    · apply ha.2 t'' hne' ht''

/-- A move by which no wait begins beside another raise in vain keeps the waits apart. -/
theorem WaitsApart.move (hs : s.WaitsApart) (hG : s.StartsAlone ℓ)
    (ht : s.tasks[t]? = some p) (h : Move s ℓ t p q s') :
  s'.WaitsApart
  := by
  have hw := h.attr Await.stable_waits ht
  constructor
  · intro t' id hid
    rw [hw, Function.update_apply] at hid
    split at hid
    · rename_i e
      subst e
      apply (begun_wait hG ht h hid).1
    · rename_i hne
      apply (h.queued hne (hs.queued t' id hid)).1
  · intro t' id hid
    rw [hw, Function.update_apply] at hid
    split at hid
    · rename_i e
      subst e
      apply (begun_wait hG ht h hid).2
    · rename_i hne
      have hmem := hs.queued t' id hid
      by_cases hl : s.free.waiters.length ≤ s.free.value
      · left
        apply (h.queued hne hmem).2 (.of_length_le hmem hl)
      · rcases hs.apart t' id hid with hserved | halone
        · left
          apply (h.queued hne hmem).2 hserved
        · right
          apply halone.move (Ne.symm hne) ht h
          rcases h.raises with hr | hr | ⟨c, hc, hg, rfl⟩
          · exact .inl hr
          · exact .inr (.inl hr)
          · -- A second wait for the instance would not be served at once either.
            right
            right
            intro hq
            obtain rfl : c.instanceId = id := Option.some.inj hq
            rw [StartsAlone, hc] at hG
            obtain ⟨p', hp', hw'⟩ := Pool.exists_of_attr hid
            apply hG hg (Nat.le_of_lt (Nat.lt_of_not_le hl)) p' (List.mem_of_getElem? hp')
            apply raises_of_waits hw'

end Service

namespace State

/-- A task waits for a slot of an instance that is raised, on a runner without a free
slot. -/
def Starves (s : State) : Prop :=
  ∃ (t : TaskId) (c : Caller), s.service.tasks[t]? = some (.slot c) ∧
    s.service.instances.get c.instanceId ≠ none ∧ s.service.free.value = 0

/-- The action begins no wait for a slot that cannot be served at once, of an instance that
another task raises. -/
def StartsAlone (s : State) : Action → Prop
  | .step ℓ => s.service.StartsAlone ℓ
  | .stmt _ => True

instance (s : State) (a : Action) : Decidable (s.StartsAlone a) := by
  delta StartsAlone
  rcases a <;> dsimp only <;> infer_instance

end State

section

variable {R : RunnerId} {slots : ℕ} {P : Db → Prop} {s : State}

/-- In a run in which every wait that cannot be served at once begins alone, the waits are
apart. -/
theorem waitsApart_of_reach (h : (system R slots P).Reach State.StartsAlone s) :
  s.service.WaitsApart
  := by
  apply h.invariant (I := fun s => s.service.WaitsApart)
  · rintro ⟨db, service⟩ ⟨_, idleTimeout, clock, rfl⟩
    constructor
    · intro t id h
      contradiction
    · intro t id h
      contradiction
  · intro s a s' hs hG ha
    cases State.act_cases ha with
    | step h =>
        cases h with
        | call c _ =>
            have hw := Pool.attr_append (l := s.service.tasks) (Await.stable_waits.called c)
            have hr := Pool.attr_append (l := s.service.tasks) (Await.stable_raises.called c)
            constructor
            · rw [Service.spawn, hw]
              apply hs.queued
            · simp only [Service.WaitsAlone, Service.spawn, hw, hr]
              apply hs.apart
        | tick n _ => exact ⟨hs.queued, hs.apart⟩
        | move ht h => apply hs.move hG ht h
    | stmt ht h =>
        have hr := Pool.attr_set_of_eq ht h.keeps.2.2.2.2.2.1
        have hw := Pool.attr_set_of_eq ht h.waits
        constructor
        · rw [Service.await, hw]
          apply hs.queued
        · simp only [Service.WaitsAlone, Service.await, hw, hr]
          apply hs.apart

/-- **A raised instance never waits for a slot** in a run in which every wait for a slot
begins while a slot is free for it, or while no other `_raise` of the instance is under
way. -/
theorem not_starves_of_startsAlone (h : (system R slots P).Reach State.StartsAlone s) :
  ¬ s.Starves
  := by
  rintro ⟨t, c, ht, hg, hf⟩
  have hw : Pool.attr Await.waits s.service.tasks t = some c.instanceId :=
    Pool.attr_of_getElem? ht
  rcases (waitsApart_of_reach h).apart t _ hw with hs | ha
  · apply hs.value_ne_zero hf
  · apply hg ha.1

end

/-- A chat waits for the only slot, which is free, raises the instance and goes on. -/
theorem not_starves_of_startsAlone_chat :
  ∃ s, (system 1 1 fun _ => True).Reach State.StartsAlone s ∧
    s.service.instances.get 1 ≠ none ∧ ¬ s.Starves
  := by
  obtain ⟨s, hs, hp⟩ := Transition.exists_reach_of_run (T := system 1 1 fun _ => True)
    (G := State.StartsAlone) (s := ⟨.single, .start 1 1 10 0⟩) ⟨trivial, 10, 0, rfl⟩
    [.step (.call (.chat 1 "hello")), .step (.run 0), .step (.run 0), .step (.run 0), .stmt 0,
      .step (.run 0)]
    (fun s => s.service.instances.get 1 ≠ none) (by decide)
  exact ⟨s, hs, of_decide_eq_true hp, not_starves_of_startsAlone hs⟩

/-- While `raise_instance` claims the instance with the only slot, a chat of the same
instance begins to wait for a slot. The instance is raised, and the chat still waits. -/
theorem starves_reachable :
  ∃ s, (system 1 1 fun _ => True).Reachable s ∧ s.Starves
  := by
  obtain ⟨s, hs, hp⟩ := Transition.exists_reach_of_run (T := system 1 1 fun _ => True)
    (G := fun _ _ => True) (s := ⟨.single, .start 1 1 10 0⟩) ⟨trivial, 10, 0, rfl⟩
    [.step (.call (.raiseInstance 1)), .step (.run 0), .step (.run 1), .step (.run 1),
      .step (.run 1), .step (.call (.chat 1 "hello")), .step (.run 2), .stmt 1,
      .step (.run 1)]
    (fun s => s.service.tasks[2]? = some (.slot (.turn (.chat 1 "hello"))) ∧
      s.service.instances.get 1 ≠ none ∧ s.service.free.value = 0) (by decide)
  obtain ⟨ht, hg, hf⟩ := of_decide_eq_true hp
  exact ⟨s, hs, 2, _, ht, hg, hf⟩

end Runner
