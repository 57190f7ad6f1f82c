import GitAgent.Runner.Locks

/-!
# The slots of a runner

A slot is free, kept by a task that raises or stops an instance, or taken by a raised
instance. No step hands a slot out twice, so that in every state the free slots, those kept
by tasks and the raised instances are together at most the slots of the runner.
-/

namespace Runner

open Hub (InstanceId EventId RunnerId Db)

/-- Whether the task is a stop between the removal of the instance and the return of its
slot. -/
def Await.stops : Await → Bool
  | stopLock _ _ _ | release _ _ _ _ => true
  | _ => false

namespace Service

variable {s s' : Service} {ℓ : Label} {t : TaskId} {p q : Await}

/-- The slots in use or free: the free permits, those that tasks keep, and the raised
instances. -/
def accounted (s : Service) : ℕ :=
  s.free.value + Pool.weight Await.permits s.tasks + s.instances.size

/-- An exception gives back the slot of a task, unless the task stops an instance. -/
theorem unwind_free (s : Service) (t : TaskId) (p : Await) :
  ((s.unwind t p).free.value = s.free.value + p.permits ∨
      p.stops ∧ (s.unwind t p).free.value + 1 = s.free.value + p.permits) ∧
    (s.unwind t p).instances = s.instances
  := by
  cases p <;> simp [unwind, modify, Await.permits, Await.stops]

/-- A move trades slots between the task, the free ones and the raised instances. One is lost
exactly when a stop is cut short. -/
theorem Move.slots (hs : s.Inv) (ht : s.tasks[t]? = some p) (h : Move s ℓ t p q s') :
  s'.free.value + s'.instances.size + q.permits =
      s.free.value + s.instances.size + p.permits ∨
    (ℓ = .fail t ∨ ℓ = .cancel t) ∧ p.stops ∧
      s'.free.value + s'.instances.size + q.permits + 1 =
        s.free.value + s.instances.size + p.permits
  := by
  cases h with
  | present hp hc hr =>
      left
      rw [(Await.Bare.raised _ _).permits, hp.bare.permits]
      rfl
  | wait hp hc hr =>
      left
      rw [hp.bare.permits]
      rfl
  | slot hf =>
      left
      have := Sync.Semaphore.acquire_value hf
      simp only [await, Await.permits]
      omega
  | found hl hr =>
      left
      rw [(Await.Bare.raised _ _).permits]
      simp only [resume, modify, await, Sync.Semaphore.release_value, Await.permits]
      omega
  | @insert _ c claim hc =>
      left
      have hnone : s.instances.get c.instanceId = none := by
        apply hs.claiming t
        rw [Pool.attr_of_getElem? ht]
        rfl
      have := Dict.size_set hnone s.nextRef
      rw [(Await.Bare.raised _ _).permits]
      simp only [resume, modify, await, Await.permits]
      omega
  | refuse hc =>
      left
      rw [(Await.Bare.refused _ _).permits]
      simp only [await, Sync.Semaphore.release_value, Await.permits]
      omega
  | @pop _ _ k id r hp hr =>
      left
      have := Dict.size_erase hr
      rw [hp.bare.permits]
      unfold stop cancelTurn
      split <;> simp only [modify, await, Await.permits] <;> omega
  | released =>
      left
      rw [(Await.Bare.next _).permits]
      simp only [modify, await, Sync.Semaphore.release_value, Await.permits]
      omega
  | unwind hℓ hq =>
      have hq : q.permits = 0 := by
        rcases hq with ⟨_, rfl⟩ | ⟨_, _, _, _, rfl⟩ <;> rfl
      obtain ⟨hf, hi⟩ := unwind_free s t p
      simp only [await, hi, hq]
      rcases hf with hf | ⟨hstops, hf⟩
      · left
        omega
      · right
        refine ⟨hℓ, hstops, ?_⟩
        omega
  | spawned hp =>
      left
      rw [hp.bare.permits]
      rfl
  | quiet h =>
      left
      rw [h.keeps.permits]
      rfl
  | _ => exact .inl rfl

/-- A move loses one slot if it cuts a stop short, and otherwise none. -/
theorem Move.accounted (hs : s.Inv) (ht : s.tasks[t]? = some p) (h : Move s ℓ t p q s') :
  s'.accounted = s.accounted ∨
    (ℓ = .fail t ∨ ℓ = .cancel t) ∧ p.stops ∧ s'.accounted + 1 = s.accounted
  := by
  have hw := h.weight_permits ht
  unfold Service.accounted
  rcases h.slots hs ht with hm | ⟨hℓ, hstops, hm⟩
  · left
    omega
  · right
    refine ⟨hℓ, hstops, ?_⟩
    omega

/-- A new task keeps no slot. -/
theorem accounted_call (s : Service) (c : Call) :
  (s.spawn (.called c)).accounted = s.accounted
  := by simp [accounted, spawn, Pool.weight_append, Await.permits]

/-- A task that keeps as many slots as before a reply leaves the account as it is. -/
theorem accounted_await (ht : s.tasks[t]? = some p) (hq : q.permits = p.permits) :
  (s.await t q).accounted = s.accounted
  := by
  have hw := Pool.weight_set (f := Await.permits) (q := q) ht
  rw [hq] at hw
  simp only [accounted, await]
  omega

end Service

/-- No action creates a slot, or changes how many the runner has. -/
theorem State.Acts.accounted_le {s s' : State} {a : Action} (hs : s.service.Inv)
    (h : s.Acts a s') :
  s'.service.accounted ≤ s.service.accounted ∧ s'.service.slots = s.service.slots
  := by
  cases h with
  | step h =>
      cases h with
      | call c _ => exact ⟨(Service.accounted_call _ c).le, rfl⟩
      | tick n _ => exact ⟨le_refl _, rfl⟩
      | move ht h =>
          refine ⟨?_, h.config.1⟩
          rcases h.accounted hs ht with ha | ⟨_, _, ha⟩
          · apply ha.le
          · apply Nat.le_of_succ_le ha.le
  | stmt ht h => exact ⟨(Service.accounted_await ht h.keeps.1).le, rfl⟩

section

variable {R : RunnerId} {slots : ℕ} {P : Db → Prop} {s : State}

/-- In every state the slots that are free, kept by a task, or taken by a raised instance
are together at most the slots of the runner. -/
theorem accounted_le_slots (h : (system R slots P).Reachable s) :
  s.service.accounted ≤ slots
  := by
  have hs : s.service.accounted ≤ s.service.slots ∧ s.service.slots = slots := by
    apply h.invariant_of (fun s => inv_of_reach)
      (I := fun s => s.service.accounted ≤ s.service.slots ∧ s.service.slots = slots)
    · rintro ⟨db, service⟩ ⟨_, idleTimeout, clock, rfl⟩
      exact ⟨le_refl _, rfl⟩
    · intro s a s' hI ⟨hle, hslots⟩ _ hs
      obtain ⟨ha, hc⟩ := (State.act_cases hs).accounted_le hI
      rw [hc]
      exact ⟨ha.trans hle, hslots⟩
  rw [← hs.2]
  apply hs.1

/-- **Slot bound**: at most `slots` instances are raised, and no permit is ever free twice:
the free permits are at most the slots that no raised instance takes. -/
theorem free_le_slots_sub_instances (h : (system R slots P).Reachable s) :
  s.service.instances.size ≤ slots ∧
    s.service.free.value ≤ slots - s.service.instances.size
  := by
  have ha := accounted_le_slots h
  unfold Service.accounted at ha
  omega

end

/-- A runner with one slot raises an instance, and has no permit left. -/
theorem free_le_slots_sub_instances_single :
  ∃ s, (system 1 1 fun _ => True).Reachable s ∧ s.service.instances.size = 1 ∧
    s.service.free.value ≤ 1 - s.service.instances.size
  := by
  obtain ⟨s, hs, hp⟩ := Transition.exists_reach_of_run (T := system 1 1 fun _ => True)
    (G := fun _ _ => True) (s := ⟨.single, .start 1 1 10 0⟩) ⟨trivial, 10, 0, rfl⟩
    [.step (.call (.raiseInstance 1)), .step (.run 0), .step (.run 1), .step (.run 1),
      .step (.run 1), .stmt 1, .step (.run 1)]
    (fun s => s.service.instances.size = 1) (by decide)
  exact ⟨s, hs, of_decide_eq_true hp, (free_le_slots_sub_instances hs).2⟩

end Runner
